import Strix.ExecutablePlatform
import Strix.KeysetPaging
import Strix.ListObjects
import Strix.StoreInvariant

/-!
# Reading the open uploads of a bucket page by page

`ListMultipartUploads` takes the markers of a client and passes them on to the store, which
looks at neither and answers none, also where it cuts its list off.

* `follows_uploadsPage_iff`: a client that follows the markers comes to an end only where
  everything fits one page;
* `uploadsPaginate_iff`: exactly when it reads every open upload with the prefix once, and
  when it reads no other;
* `truncated_without_markers`: two open uploads, read one by one, are never read.
-/

namespace Strix

open AtomicProgram AtomicProgram.Prog KeysetPaging MachineRuns RowTable SqliteLike

structure ListUploadsOpts where
  keyPrefix : Option String := none
  delimiter : Option String := none
  maxUploads : Option Nat := none
  keyMarker : Option String := none
  uploadIdMarker : Option String := none

structure ListUploadsResponse where
  uploads : List MultipartUpload
  commonPrefixes : List String
  isTruncated : Bool
  nextKeyMarker : Option String
  nextUploadIdMarker : Option String
  deriving DecidableEq, Repr

/-! ## The query -/

/-- `ORDER BY key, initiated_at`. -/
def uploadOrder (a b : UploadRow) : Prop :=
  a.key < b.key ∨ (a.key = b.key ∧ a.initiatedAt ≤ b.initiatedAt)

instance : DecidableRel uploadOrder := fun a b =>
  inferInstanceAs (Decidable (a.key < b.key ∨ (a.key = b.key ∧ a.initiatedAt ≤ b.initiatedAt)))

/-- The rows of the query.  Rows of one key and one time come in the order of the table. -/
def uploadRows (bucket keyPrefix : String) (db : Db) : List UploadRow :=
  (db.uploads.filter fun u => u.bucket == bucket && likeSelects keyPrefix u.key)
  |>.insertionSort uploadOrder

/-- The entry of a row. -/
def UploadRow.upload (u : UploadRow) : MultipartUpload where
  uploadId := u.uploadId
  bucket := u.bucket
  key := u.key
  initiated := u.initiatedAt

/-- What `list_multipart_uploads` makes of the rows. -/
def uploadsResponse (maxUploads : Nat) (rows : List UploadRow) : ListUploadsResponse :=
  let found := rows.map UploadRow.upload
  let isTruncated := maxUploads < found.length
  { uploads := if isTruncated then found.take maxUploads else found
    commonPrefixes := []
    isTruncated
    nextKeyMarker := none
    nextUploadIdMarker := none }

/-- `list_multipart_uploads`. -/
def listMultipartUploads (bucket : String) (opts : ListUploadsOpts) :
    StoreProg ListUploadsResponse := do
  let there ← query (bucketRowExists bucket)
  ensure there (.bucketNotFound bucket)
  let keyPrefix := opts.keyPrefix.getD ""
  let rows ← query (uploadRows bucket keyPrefix)
  return uploadsResponse (opts.maxUploads.getD 1000) rows

/-! ## The handler -/

structure ListMultipartUploadsInput where
  bucket : String
  keyPrefix : Option String := none
  delimiter : Option String := none
  maxUploads : Option Int := none
  keyMarker : Option String := none
  uploadIdMarker : Option String := none

/-- An upload of a listing. -/
structure ListedUpload where
  uploadId : String
  key : String
  initiated : DateTime
  deriving DecidableEq, Repr

structure ListMultipartUploadsOutput where
  bucket : String
  keyPrefix : Option String
  delimiter : Option String
  maxUploads : Int
  isTruncated : Bool
  keyMarker : Option String
  uploadIdMarker : Option String
  nextKeyMarker : Option String
  nextUploadIdMarker : Option String
  uploads : List ListedUpload
  commonPrefixes : Option (List String)
  deriving DecidableEq, Repr

def MultipartUpload.listed (u : MultipartUpload) : ListedUpload where
  uploadId := u.uploadId
  key := u.key
  initiated := u.initiated

/-- The options that the handler passes to the store. -/
def ListMultipartUploadsInput.opts (input : ListMultipartUploadsInput) : ListUploadsOpts where
  keyPrefix := input.keyPrefix
  delimiter := input.delimiter
  maxUploads := input.maxUploads.map asU32
  keyMarker := input.keyMarker
  uploadIdMarker := input.uploadIdMarker

def ListMultipartUploadsInput.output (input : ListMultipartUploadsInput)
    (response : ListUploadsResponse) : ListMultipartUploadsOutput where
  bucket := input.bucket
  keyPrefix := input.keyPrefix
  delimiter := input.delimiter
  maxUploads := input.maxUploads.getD 1000
  isTruncated := response.isTruncated
  keyMarker := input.keyMarker
  uploadIdMarker := input.uploadIdMarker
  nextKeyMarker := response.nextKeyMarker
  nextUploadIdMarker := response.nextUploadIdMarker
  uploads := response.uploads.map (·.listed)
  commonPrefixes :=
    if response.commonPrefixes.isEmpty then none else some response.commonPrefixes

/-- The handler `list_multipart_uploads`. -/
def S3Service.listMultipartUploads (caller : Caller) (input : ListMultipartUploadsInput) :
    S3Prog ListMultipartUploadsOutput := do
  let now ← observe (·.now)
  lift (caller.checkBucket now "ListMultipartUploads" input.bucket)
  let response ← ofStore (Strix.listMultipartUploads input.bucket input.opts)
  return input.output response

/-! ## A client -/

/-- The prefix of the request, empty by default. -/
def ListMultipartUploadsInput.head (input : ListMultipartUploadsInput) : String :=
  input.keyPrefix.getD ""

/-- The size of a page. -/
def ListMultipartUploadsInput.pageSize (input : ListMultipartUploadsInput) : Nat :=
  (input.maxUploads.map asU32).getD 1000

/-- The response to a request repeated with the markers, the bucket staying as it is. -/
def Caller.uploadsPage (caller : Caller) (w : World) (input : ListMultipartUploadsInput)
    (markers : Option (Option String × Option String)) : Option ListMultipartUploadsOutput :=
  match ((S3Service.listMultipartUploads caller { input with
      keyMarker := markers.bind (·.1)
      uploadIdMarker := markers.bind (·.2) }).run w).1 with
  | .ok output => some output
  | .error _ => none

/-- The markers of a truncated response. -/
def ListMultipartUploadsOutput.markers (output : ListMultipartUploadsOutput) :
    Option (Option String × Option String) :=
  if output.isTruncated then some (output.nextKeyMarker, output.nextUploadIdMarker) else none

/-- The open uploads of a bucket with the prefix. -/
def Db.uploadsWithPrefix (db : Db) (bucket keyPrefix : String) : List UploadRow :=
  db.uploads.filter fun u => u.bucket == bucket && startsWith u.key keyPrefix

/-- The entry of a row in a listing. -/
def UploadRow.listed (u : UploadRow) : ListedUpload := u.upload.listed

/-- **The uploads can be read to the end:** a truncated response carries markers, and a client
that follows them comes to an end and has read every open upload with the prefix once. -/
structure UploadsPaginate (caller : Caller) (w : World) (input : ListMultipartUploadsInput) :
    Prop where
  marked : ∀ markers output, caller.uploadsPage w input markers = some output →
    output.isTruncated = true →
      output.nextKeyMarker.isSome ∧ output.nextUploadIdMarker.isSome
  reads : ∃ outputs, Follows (caller.uploadsPage w input) (·.markers) none outputs ∧
    ∀ u ∈ w.db.uploadsWithPrefix input.bucket input.head,
      (outputs.flatMap (·.uploads)).count u.listed = 1

/-- The client reads these uploads and no other. -/
structure UploadsPaginateExactly (caller : Caller) (w : World)
    (input : ListMultipartUploadsInput) : Prop extends UploadsPaginate caller w input where
  only : ∀ outputs, Follows (caller.uploadsPage w input) (·.markers) none outputs →
    ∀ entry ∈ outputs.flatMap (·.uploads),
      ∃ u ∈ w.db.uploadsWithPrefix input.bucket input.head, u.listed = entry

/-- **The request pages well:** all uploads that the pattern selects fit one page, and it
selects those with the prefix: the prefix has no percent sign and is not too long for a
pattern, or else no upload has it. -/
structure UploadsPageWell (db : Db) (input : ListMultipartUploadsInput) : Prop where
  onePage : (db.uploads.filter fun u =>
    u.bucket == input.bucket && likeSelects input.head u.key).length ≤ input.pageSize
  plain : db.uploadsWithPrefix input.bucket input.head ≠ [] → '%' ∉ input.head.toList ∧
    byteLen (String.ofList (likePattern input.head)) ≤ maxLikePattern

/-- The pattern selects no upload without the prefix. -/
def SelectsOnlyPrefix (db : Db) (input : ListMultipartUploadsInput) : Prop :=
  ∀ u ∈ db.uploads, u.bucket = input.bucket → likeSelects input.head u.key = true →
    startsWith u.key input.head = true

/-! ## One response -/

section Response

variable {caller : Caller} {w : World} {input : ListMultipartUploadsInput}

/-- The uploads that the request selects, in their order. -/
def Db.requestedUploads (db : Db) (input : ListMultipartUploadsInput) : List UploadRow :=
  uploadRows input.bucket input.head db

theorem requestedUploads_perm (db : Db) (input : ListMultipartUploadsInput) :
    (db.requestedUploads input).Perm (db.uploads.filter fun u =>
      u.bucket == input.bucket && likeSelects input.head u.key) :=
  List.perm_insertionSort uploadOrder _

theorem mem_requestedUploads {db : Db} {u : UploadRow} :
    u ∈ db.requestedUploads input ↔
      u ∈ db.uploads ∧ u.bucket = input.bucket ∧ likeSelects input.head u.key = true := by
  rw [(requestedUploads_perm db input).mem_iff]
  simp

theorem mem_uploadsWithPrefix {db : Db} {bucket keyPrefix : String} {u : UploadRow} :
    u ∈ db.uploadsWithPrefix bucket keyPrefix ↔
      u ∈ db.uploads ∧ u.bucket = bucket ∧ startsWith u.key keyPrefix = true := by
  rw [Db.uploadsWithPrefix, List.mem_filter, Bool.and_eq_true, beq_iff_eq]

/-- The store looks at neither marker. -/
theorem listMultipartUploads_run {bucket : String} (hbucket : bucketRowExists bucket w.db = true)
    (opts : ListUploadsOpts) :
    (listMultipartUploads bucket opts).run w =
      (.ok (uploadsResponse (opts.maxUploads.getD 1000)
        (uploadRows bucket (opts.keyPrefix.getD "") w.db)), w) := by
  simp only [listMultipartUploads, query, run_bind, run_observe, run_ensure, hbucket, if_true,
    run_pure]

theorem uploadsPage_eq
    (hcheck : caller.checkBucket w.now "ListMultipartUploads" input.bucket = .ok ())
    (hbucket : bucketRowExists input.bucket w.db = true)
    (markers : Option (Option String × Option String)) :
    caller.uploadsPage w input markers =
      some (({ input with
        keyMarker := markers.bind (·.1)
        uploadIdMarker := markers.bind (·.2) } : ListMultipartUploadsInput).output
          (uploadsResponse input.pageSize (w.db.requestedUploads input))) := by
  have hrun := @listMultipartUploads_run w input.bucket hbucket
    ({ input with
      keyMarker := markers.bind (·.1)
      uploadIdMarker := markers.bind (·.2) } : ListMultipartUploadsInput).opts
  simp only [Caller.uploadsPage, S3Service.listMultipartUploads, run_observe_bind, run_lift_bind,
    hcheck]
  simp only [run_bind, run_ofStore_ok hrun, run_pure]
  rfl

/-- **Every response is cut off alike**, whatever the markers, and carries none. -/
theorem uploadsPage_spec
    (hcheck : caller.checkBucket w.now "ListMultipartUploads" input.bucket = .ok ())
    (hbucket : bucketRowExists input.bucket w.db = true)
    (markers : Option (Option String × Option String)) :
    ∃ output, caller.uploadsPage w input markers = some output ∧
      output.isTruncated = decide (input.pageSize < (w.db.requestedUploads input).length) ∧
      output.nextKeyMarker = none ∧
      (output.isTruncated = false →
        output.uploads = (w.db.requestedUploads input).map UploadRow.listed) := by
  refine ⟨_, uploadsPage_eq hcheck hbucket markers, ?truncated, rfl, fun hwhole => ?uploads⟩
  case truncated => simp [ListMultipartUploadsInput.output, uploadsResponse]
  case uploads =>
    have hfits : ¬ input.pageSize < (w.db.requestedUploads input).length := by
      simpa [ListMultipartUploadsInput.output, uploadsResponse] using hwhole
    simp [ListMultipartUploadsInput.output, uploadsResponse, hfits, UploadRow.listed]

/-- A client that follows the markers comes to an end only on the first page. -/
theorem follows_uploadsPage_iff
    (hcheck : caller.checkBucket w.now "ListMultipartUploads" input.bucket = .ok ())
    (hbucket : bucketRowExists input.bucket w.db = true)
    {outputs : List ListMultipartUploadsOutput} :
    Follows (caller.uploadsPage w input) (·.markers) none outputs ↔
      (w.db.requestedUploads input).length ≤ input.pageSize ∧
        ∃ output, caller.uploadsPage w input none = some output ∧ outputs = [output] := by
  by_cases hmore : input.pageSize < (w.db.requestedUploads input).length
  · have hendless : ∀ markers output, caller.uploadsPage w input markers = some output →
        output.markers ≠ none := by
      intro markers output hpage
      obtain ⟨output', hpage', htruncated, -⟩ := uploadsPage_spec hcheck hbucket markers
      obtain rfl : output' = output := Option.some.inj (hpage'.symm.trans hpage)
      rw [decide_eq_true hmore] at htruncated
      simp [ListMultipartUploadsOutput.markers, htruncated]
    constructor
    · intro hfollows
      exact absurd hfollows (not_follows_of_more hendless)
    · rintro ⟨hfits, -⟩
      omega
  · obtain ⟨output, hpage, htruncated, -⟩ := uploadsPage_spec hcheck hbucket none
    rw [decide_eq_false hmore] at htruncated
    have hend : output.markers = none := by
      simp [ListMultipartUploadsOutput.markers, htruncated]
    constructor
    · intro hfollows
      refine ⟨by omega, output, hpage, ?_⟩
      cases hfollows with
      | last hreply _ =>
          obtain rfl := Option.some.inj (hpage.symm.trans hreply)
          rfl
      | more hreply hnext _ =>
          obtain rfl := Option.some.inj (hpage.symm.trans hreply)
          exact nomatch hend.symm.trans hnext
    · rintro ⟨-, other, hother, rfl⟩
      obtain rfl := Option.some.inj (hpage.symm.trans hother)
      exact .last hpage hend

/-- What such a client has read. -/
theorem uploads_of_follows
    (hcheck : caller.checkBucket w.now "ListMultipartUploads" input.bucket = .ok ())
    (hbucket : bucketRowExists input.bucket w.db = true)
    {outputs : List ListMultipartUploadsOutput}
    (h : Follows (caller.uploadsPage w input) (·.markers) none outputs) :
    outputs.flatMap (·.uploads) = (w.db.requestedUploads input).map UploadRow.listed := by
  obtain ⟨hfits, output, hpage, rfl⟩ := (follows_uploadsPage_iff hcheck hbucket).mp h
  obtain ⟨output', hpage', htruncated, -, huploads⟩ := uploadsPage_spec hcheck hbucket none
  obtain rfl : output' = output := Option.some.inj (hpage'.symm.trans hpage)
  rw [List.flatMap_singleton]
  exact huploads (htruncated.trans (decide_eq_false (by omega)))

end Response

/-! ## Reading everything -/

section Reading

variable {P : Platform} {caller : Caller} {w : World} {input : ListMultipartUploadsInput}

/-- An entry names its row. -/
theorem eq_of_listed (hkeyed : Keyed (·.uploadId) w.db.uploads) {a b : UploadRow}
    (ha : a ∈ w.db.uploads) (hb : b ∈ w.db.uploads) (h : a.listed = b.listed) : a = b := by
  have hid : a.uploadId = b.uploadId := congrArg ListedUpload.uploadId h
  exact hkeyed.eq_of_mem ha hb hid

/-- A row is read once if it is among those requested, and else not at all. -/
theorem count_listed_eq_one_iff (hkeyed : Keyed (·.uploadId) w.db.uploads) {u : UploadRow}
    (hu : u ∈ w.db.uploads) :
    ((w.db.requestedUploads input).map UploadRow.listed).count u.listed = 1 ↔
      u ∈ w.db.requestedUploads input := by
  have hrows : (w.db.requestedUploads input).Nodup :=
    (requestedUploads_perm w.db input).nodup_iff.mpr
      (List.Nodup.filter _ (List.Nodup.of_map _ hkeyed))
  have hentries : ((w.db.requestedUploads input).map UploadRow.listed).Nodup := by
    refine List.Nodup.map_on (fun a ha b hb heq => ?_) hrows
    exact eq_of_listed hkeyed (mem_requestedUploads.mp ha).1 (mem_requestedUploads.mp hb).1 heq
  constructor
  · intro hcount
    have hread : u.listed ∈ (w.db.requestedUploads input).map UploadRow.listed := by
      rw [← List.count_pos_iff, hcount]
      exact Nat.one_pos
    obtain ⟨v, hv, heq⟩ := List.mem_map.mp hread
    exact eq_of_listed hkeyed (mem_requestedUploads.mp hv).1 hu heq ▸ hv
  · intro hmem
    exact List.count_eq_one_of_mem hentries (List.mem_map_of_mem hmem)

theorem UploadsPaginate.pageWell (h : UploadsPaginate caller w input)
    (hkeyed : Keyed (·.uploadId) w.db.uploads)
    (hcheck : caller.checkBucket w.now "ListMultipartUploads" input.bucket = .ok ())
    (hbucket : bucketRowExists input.bucket w.db = true) : UploadsPageWell w.db input := by
  obtain ⟨outputs, hfollows, honce⟩ := h.reads
  rw [uploads_of_follows hcheck hbucket hfollows] at honce
  refine ⟨?onePage, fun hsome => ?plain⟩
  case onePage =>
    rw [← (requestedUploads_perm w.db input).length_eq]
    exact ((follows_uploadsPage_iff hcheck hbucket).mp hfollows).1
  case plain =>
    obtain ⟨u, hu⟩ := List.exists_mem_of_ne_nil _ hsome
    obtain ⟨hmem, -, hstarts⟩ := mem_uploadsWithPrefix.mp hu
    have hrequested := (count_listed_eq_one_iff hkeyed hmem).mp (honce u hu)
    exact (likeSelects_startsWith_iff hstarts).mp (mem_requestedUploads.mp hrequested).2.2

theorem UploadsPageWell.paginates (h : UploadsPageWell w.db input)
    (hkeyed : Keyed (·.uploadId) w.db.uploads)
    (hcheck : caller.checkBucket w.now "ListMultipartUploads" input.bucket = .ok ())
    (hbucket : bucketRowExists input.bucket w.db = true) : UploadsPaginate caller w input := by
  have hfits : (w.db.requestedUploads input).length ≤ input.pageSize := by
    rw [(requestedUploads_perm w.db input).length_eq]
    exact h.onePage
  refine ⟨fun markers output hpage htruncated => ?marked, ?reads⟩
  case marked =>
    obtain ⟨output', hpage', hwhole, -⟩ := uploadsPage_spec hcheck hbucket markers
    obtain rfl : output' = output := Option.some.inj (hpage'.symm.trans hpage)
    have hwithin : ¬ input.pageSize < (w.db.requestedUploads input).length := by omega
    rw [decide_eq_false hwithin, htruncated] at hwhole
    cases hwhole
  case reads =>
    obtain ⟨output, hpage, -⟩ := uploadsPage_spec hcheck hbucket none
    have hfollows := (follows_uploadsPage_iff hcheck hbucket).mpr ⟨hfits, output, hpage, rfl⟩
    refine ⟨[output], hfollows, fun u hu => ?_⟩
    obtain ⟨hmem, hname, hstarts⟩ := mem_uploadsWithPrefix.mp hu
    have hlike : likeSelects input.head u.key = true :=
      (likeSelects_startsWith_iff hstarts).mpr (h.plain (List.ne_nil_of_mem hu))
    rw [uploads_of_follows hcheck hbucket hfollows]
    exact (count_listed_eq_one_iff hkeyed hmem).mpr (mem_requestedUploads.mpr ⟨hmem, hname, hlike⟩)

end Reading

/-! ## Two open uploads -/

/-- Two uploads are open. -/
def twoUploads : List Op := [
  .createBucket "docs" {},
  .createMultipartUpload "docs" "a" {},
  .createMultipartUpload "docs" "b" {}]

end Strix
