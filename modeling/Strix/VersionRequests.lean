import Strix.ExecutablePlatform
import Strix.ObjectRequests

/-!
# Requests that name a version

`GetObject`, `HeadObject`, `GetObjectTagging`, `CopyObject` and
`UploadPartCopy` can name a version of the object they read.  `GetObject` and
`UploadPartCopy` pass the version id to the store; the other three handlers
drop it, and the store looks up the key's latest row.

* `handle_of_lookup`: whatever row a request's lookup yields, the handler does
  what `answerFrom` says of that row alone;
* `actsOn_iff`: a request acts on the version it names exactly when its handler
  passes the version id on or the version is the one that the latest lookup
  yields;
* `head_of_old_version`: else it acts on another one.
-/

namespace Strix

open AtomicProgram AtomicProgram.Prog MachineRuns RowTable

/-- The requests that can name a version of an object. -/
inductive VersionRequest
  | getObject (input : GetObjectInput)
  | headObject (input : HeadObjectInput)
  | getObjectTagging (input : GetObjectTaggingInput)
  | copyObject (input : CopyObjectInput)
  | uploadPartCopy (bucket key uploadId : String) (input : UploadPartCopyInput)

inductive VersionReply
  | object (output : GetObjectOutput)
  | head (output : HeadObjectOutput)
  | tagging (output : GetObjectTaggingOutput)
  | copied (response : CopyObjectResponse)
  | part (reply : MultipartReply)

/-- An object as the handlers see it. -/
structure ObjectSource where
  getObject : GetObjectOpts → StoreProg GetObjectResponse
  headObject : StoreProg ObjectInfo
  copyObject : String → String → CopyObjectOpts → StoreProg CopyObjectResponse

variable (P : Platform)

/-- What `copy_object` does once it has found the source's row. -/
def copySelected (src : ObjectRow) (dstBucket dstKey : String) (opts : CopyObjectOpts) :
    StoreProg CopyObjectResponse := do
  let srcInfo := src.info
  let selected ← query (versioningStatus dstBucket)
  let status ← require selected (.bucketNotFound dstBucket)
  let n ← draw
  let newObjectId := P.ulid n
  let versionId := newVersionId status newObjectId
  copyBlob P src src.bucket src.key (srcInfo.versionId.getD "null") dstBucket dstKey versionId
    newObjectId
  let now ← clock
  call [makeRoom status dstBucket dstKey,
    insertObject (copyRow dstBucket dstKey srcInfo src opts newObjectId versionId now.seconds)]
  return {
    etag := srcInfo.etag
    lastModified := now
    versionId := answeredVersionId status versionId }

/-- **The object of one row,** whatever other rows its key has. -/
def ObjectRow.object (r : ObjectRow) : ObjectSource where
  getObject := fun opts => do
    let blob ← readBlob r.id
    lift ((readContent P r.bucket r.key opts r blob).map fun body => { info := r.info, body })
  headObject := return r.info
  copyObject := copySelected P r

namespace VersionRequest

/-- The handler of the request. -/
def handle (readTags : String → Option (List (String × String))) (caller : Caller) :
    VersionRequest → S3Prog VersionReply
  | .getObject input => do
    let output ← S3Service.getObject P caller input
    return .object output
  | .headObject input => do
    let output ← S3Service.headObject caller input
    return .head output
  | .getObjectTagging input => do
    let output ← S3Service.getObjectTagging readTags caller input
    return .tagging output
  | .copyObject input => do
    let response ← S3Service.copyObject P caller input
    return .copied response
  | .uploadPartCopy bucket key uploadId input => do
    let request : MultipartRequest := ⟨bucket, key, uploadId, .uploadPartCopy input⟩
    let reply ← request.handle P caller
    return .part reply

/-- What the request is to do with the object it names. -/
def answerFrom (readTags : String → Option (List (String × String))) (caller : Caller)
    (object : ObjectSource) : VersionRequest → S3Prog VersionReply
  | .getObject input => do
    caller.authorize "GetObject" input.bucket input.key
    let response ← ofStore (object.getObject (input.opts caller.headers))
    return .object (getObjectOutput (input.requestedRange caller.headers) response)
  | .headObject input => do
    caller.authorize "HeadObject" input.bucket input.key
    let info ← ofStore object.headObject
    return .head (headObjectOutput info)
  | .getObjectTagging input => do
    caller.authorize "GetObjectTagging" input.bucket input.key
    let info ← ofStore object.headObject
    let tagSet ← lift (decodeObjectTags readTags info.metadata)
    return .tagging { tagSet, versionId := input.versionId }
  | .copyObject input => do
    caller.authorize "PutObject" input.bucket input.key
    let source ← lift (copySourceOf input.copySource)
    caller.authorize "GetObject" source.1 source.2
    let response ← ofStore (object.copyObject input.bucket input.key input.opts)
    return .copied response
  | .uploadPartCopy bucket key uploadId input => do
    caller.authorize "PutObject" bucket key
    let now ← observe (·.now)
    match input.copySource with
    | .accessPoint =>
      fail (s3Error .invalidArgument "Access point copy source not supported")
    | .outpost => fail (s3Error .invalidArgument "Outpost copy source not supported")
    | .bucket srcBucket srcKey versionId =>
      caller.authorize "GetObject" srcBucket srcKey
      let range ← lift (copyRange input)
      let source ← ofStore (object.getObject (copyReadOpts input versionId range))
      let info ← ofStore (uploadPart P { uploadId, bucket, key, initiated := now }
        (asU16 input.partNumber) [.ok source.body])
      return .part (.part info)

/-- The row that the store's lookup yields for the request. -/
def lookup (db : Db) : VersionRequest → Option ObjectRow
  | .getObject input => selectObject input.bucket input.key input.versionId db
  | .headObject input => selectObject input.bucket input.key none db
  | .getObjectTagging input => selectObject input.bucket input.key none db
  | .copyObject input =>
    match copySourceOf input.copySource with
    | .ok source => selectObject source.1 source.2 none db
    | .error _ => none
  | .uploadPartCopy _ _ _ input =>
    match input.copySource with
    | .bucket srcBucket srcKey versionId => selectObject srcBucket srcKey versionId db
    | _ => none

/-- The request names the version that a row holds. -/
def Names (r : ObjectRow) : VersionRequest → Prop
  | .getObject input =>
    input.bucket = r.bucket ∧ input.key = r.key ∧ input.versionId = some r.versionId
  | .headObject input =>
    input.bucket = r.bucket ∧ input.key = r.key ∧ input.versionId = some r.versionId
  | .getObjectTagging input =>
    input.bucket = r.bucket ∧ input.key = r.key ∧ input.versionId = some r.versionId
  | .copyObject input => input.copySource = .bucket r.bucket r.key (some r.versionId)
  | .uploadPartCopy _ _ _ input => input.copySource = .bucket r.bucket r.key (some r.versionId)

/-- The handler passes the version id on to the store. -/
def PassesVersion : VersionRequest → Prop
  | .getObject _ => True
  | .uploadPartCopy .. => True
  | _ => False

/-- **`HeadObject` and `GetObject` of one version agree:** whenever both
succeed, ETag and metadata are the same, and so is the size when no range is
asked for. -/
def AgreesWithGet (caller : Caller) (w : World) (r : ObjectRow) : VersionRequest → Prop
  | .headObject input =>
    ∀ get : GetObjectInput, (VersionRequest.getObject get).Names r → ∀ head object,
      ((S3Service.headObject caller input).run w).1 = .ok head →
      ((S3Service.getObject P caller get).run w).1 = .ok object →
      head.eTag = object.eTag ∧ head.metadata = object.metadata ∧
        (get.requestedRange caller.headers = none → head.contentLength = object.contentLength)
  | _ => True

/-- **The request acts on the version of this row:** the store's lookup yields
the row, the handler does what the row's object calls for, and `HeadObject`
agrees with `GetObject`. -/
structure ActsOn (readTags : String → Option (List (String × String))) (caller : Caller)
    (w : World) (r : ObjectRow) (request : VersionRequest) : Prop where
  lookup_eq : request.lookup w.db = some r
  run_eq : (request.handle P readTags caller).run w =
    (request.answerFrom P readTags caller (r.object P)).run w
  agrees : request.AgreesWithGet P caller w r

end VersionRequest

variable {P}

/-! ## The object of a row -/

/-- A read that selects the row reads the row's object. -/
theorem getObject_object {w : World} {r : ObjectRow} {opts : GetObjectOpts}
    (hselect : selectObject r.bucket r.key opts.versionId w.db = some r) :
    (getObject P r.bucket r.key opts).run w = ((r.object P).getObject opts).run w := by
  rw [getObject_run, hselect]
  simp only [ObjectRow.object, readBlob, run_observe_bind, run_lift]

/-- The information on the latest row is that of the row's object. -/
theorem headObject_object {w : World} {r : ObjectRow}
    (hselect : selectObject r.bucket r.key none w.db = some r)
    (hversion : r.isDeleteMarker = false) :
    (headObject r.bucket r.key).run w = ((r.object P).headObject).run w := by
  simp [headObject, query, run_bind, hselect, hversion, ObjectRow.object]

/-- A copy of the latest row copies the row's object. -/
theorem copyObject_object {w : World} {r : ObjectRow} {dstBucket dstKey : String}
    {opts : CopyObjectOpts} (hselect : selectObject r.bucket r.key none w.db = some r)
    (hversion : r.isDeleteMarker = false) :
    (copyObject P r.bucket r.key dstBucket dstKey opts).run w =
      ((r.object P).copyObject dstBucket dstKey opts).run w := by
  have hhead : (headObject r.bucket r.key).run w = (.ok r.info, w) :=
    headObject_object (P := P) hselect hversion
  rw [copyObject, run_bind, hhead]
  simp only [ObjectRow.object, copySelected, query, run_observe_bind, hselect, run_require_bind]

/-- A copy source that names a bucket without a slash is taken as it is. -/
theorem copySourceOf_bucket {bucket key : String} {versionId : Option String}
    (hbucket : '/' ∉ bucket.toList) :
    copySourceOf (.bucket bucket key versionId) = .ok (bucket, key) := by
  have hsplit : splitOnce '/' (bucket ++ "/" ++ key) = some (bucket, key) :=
    splitOnce_append rfl hbucket
  simp [copySourceOf, hsplit]

namespace VersionRequest

variable {readTags : String → Option (List (String × String))} {caller : Caller} {w : World}
  {r : ObjectRow} {request : VersionRequest}

/-- A handler that passes the version id on finds the version. -/
theorem lookup_of_passes (hw : WellFormed P w) (hr : r ∈ w.db.objects)
    (hnames : request.Names r) (hpasses : request.PassesVersion) :
    request.lookup w.db = some r := by
  have hfound := hw.selectObject_version hr
  cases request with
  | getObject input =>
      obtain ⟨hbucket, hkey, hversion⟩ := hnames
      rwa [lookup, hbucket, hkey, hversion]
  | uploadPartCopy bucket key uploadId input =>
      have hsource : input.copySource = .bucket r.bucket r.key (some r.versionId) := hnames
      simpa only [lookup, hsource] using hfound
  | headObject input => exact hpasses.elim
  | getObjectTagging input => exact hpasses.elim
  | copyObject input => exact hpasses.elim

/-- Any other handler finds the key's latest row. -/
theorem lookup_of_not_passes (hbucket : '/' ∉ r.bucket.toList) (hnames : request.Names r)
    (hpasses : ¬ request.PassesVersion) :
    request.lookup w.db = selectObject r.bucket r.key none w.db := by
  cases request with
  | getObject input => exact absurd trivial hpasses
  | uploadPartCopy bucket key uploadId input => exact absurd trivial hpasses
  | headObject input => rw [lookup, hnames.1, hnames.2.1]
  | getObjectTagging input => rw [lookup, hnames.1, hnames.2.1]
  | copyObject input =>
      have hsource : input.copySource = .bucket r.bucket r.key (some r.versionId) := hnames
      simp only [lookup, hsource, copySourceOf_bucket hbucket]

/-- **A handler acts on the row that its lookup yields,** and on no other row of
the key. -/
theorem handle_of_lookup (hbucket : '/' ∉ r.bucket.toList) (hversion : r.isDeleteMarker = false)
    (hnames : request.Names r) (hlookup : request.lookup w.db = some r) :
    (request.handle P readTags caller).run w =
      (request.answerFrom P readTags caller (r.object P)).run w := by
  cases request with
  | getObject input =>
      obtain ⟨hb, hk, hv⟩ := hnames
      rw [lookup, hb, hk] at hlookup
      have hread : (Strix.getObject P r.bucket r.key (input.opts caller.headers)).run w =
          ((r.object P).getObject (input.opts caller.headers)).run w := getObject_object hlookup
      simp only [handle, answerFrom, S3Service.getObject, Prog.bind_assoc, run_authorize_bind, hb,
        hk]
      cases caller.check w.now "GetObject" r.bucket r.key with
      | error e => rfl
      | ok _ =>
          simp only [run_bind, run_ofStore, hread]
          rcases ((r.object P).getObject (input.opts caller.headers)).run w with ⟨_ | _, w'⟩ <;> rfl
  | headObject input =>
      obtain ⟨hb, hk, hv⟩ := hnames
      rw [lookup, hb, hk] at hlookup
      have hread := headObject_object (P := P) hlookup hversion
      simp only [handle, answerFrom, S3Service.headObject, Prog.bind_assoc, run_authorize_bind, hb,
        hk]
      cases caller.check w.now "HeadObject" r.bucket r.key with
      | error e => rfl
      | ok _ =>
          simp only [run_bind, run_ofStore, hread]
          rfl
  | getObjectTagging input =>
      obtain ⟨hb, hk, hv⟩ := hnames
      rw [lookup, hb, hk] at hlookup
      have hread := headObject_object (P := P) hlookup hversion
      simp only [handle, answerFrom, S3Service.getObjectTagging, Prog.bind_assoc,
        run_authorize_bind, hb, hk]
      cases caller.check w.now "GetObjectTagging" r.bucket r.key with
      | error e => rfl
      | ok _ =>
          simp only [run_bind, run_ofStore, hread]
          simp [ObjectRow.object, Except.mapError]
  | copyObject input =>
      have hsource : input.copySource = .bucket r.bucket r.key (some r.versionId) := hnames
      have htaken := @copySourceOf_bucket r.bucket r.key (some r.versionId) hbucket
      simp only [lookup, hsource, htaken] at hlookup
      have hcopy : ∀ opts : CopyObjectOpts,
          (Strix.copyObject P r.bucket r.key input.bucket input.key opts).run w =
            ((r.object P).copyObject input.bucket input.key opts).run w :=
        fun opts => copyObject_object hlookup hversion
      simp only [handle, answerFrom, S3Service.copyObject, Prog.bind_assoc, run_authorize_bind,
        hsource, htaken, run_lift_bind]
      cases caller.check w.now "PutObject" input.bucket input.key with
      | error e => rfl
      | ok _ =>
          cases caller.check w.now "GetObject" r.bucket r.key with
          | error e => rfl
          | ok _ => simp only [run_bind, run_ofStore, hcopy]
  | uploadPartCopy bucket key uploadId input =>
      have hsource : input.copySource = .bucket r.bucket r.key (some r.versionId) := hnames
      simp only [lookup, hsource] at hlookup
      have hread : ∀ range, (Strix.getObject P r.bucket r.key
          (copyReadOpts input (some r.versionId) range)).run w =
            ((r.object P).getObject (copyReadOpts input (some r.versionId) range)).run w :=
        fun range => getObject_object hlookup
      simp only [handle, answerFrom, MultipartRequest.handle, MultipartRequest.perform,
        UploadAction.operation, Prog.bind_assoc, run_authorize_bind, run_observe_bind, hsource,
        run_lift_bind]
      cases caller.check w.now "PutObject" bucket key with
      | error e => rfl
      | ok _ =>
          cases caller.check w.now "GetObject" r.bucket r.key with
          | error e => rfl
          | ok _ =>
              cases copyRange input with
              | error e => rfl
              | ok range =>
                  simp only [run_bind, run_ofStore, hread]
                  rfl

/-! ## The two reports -/

/-- A successful `HeadObject` of the latest row reports its information. -/
theorem head_reports {input : HeadObjectInput} {head : HeadObjectOutput}
    (hselect : selectObject input.bucket input.key none w.db = some r)
    (hversion : r.isDeleteMarker = false)
    (hreply : ((S3Service.headObject caller input).run w).1 = .ok head) :
    head = headObjectOutput r.info := by
  rw [S3Service.headObject, run_authorize_bind] at hreply
  cases hcheck : caller.check w.now "HeadObject" input.bucket input.key with
  | error e => simp [hcheck] at hreply
  | ok _ =>
      simp only [hcheck, run_bind, run_ofStore] at hreply
      have hhead : (Strix.headObject input.bucket input.key).run w = (.ok r.info, w) := by
        simp [Strix.headObject, query, run_bind, hselect, hversion]
      rw [hhead] at hreply
      exact (Except.ok.inj hreply).symm

/-- A successful `GetObject` of a version reports its information, with the
length of what it read. -/
theorem get_reports {input : GetObjectInput} {object : GetObjectOutput}
    (hselect : selectObject input.bucket input.key input.versionId w.db = some r)
    (hreply : ((S3Service.getObject P caller input).run w).1 = .ok object) :
    ∃ body, object = getObjectOutput (input.requestedRange caller.headers)
      { info := r.info, body } := by
  rw [S3Service.getObject, run_authorize_bind] at hreply
  cases hcheck : caller.check w.now "GetObject" input.bucket input.key with
  | error e => simp [hcheck] at hreply
  | ok _ =>
      have hread := getObject_run P input.bucket input.key (input.opts caller.headers) w
      rw [show (input.opts caller.headers).versionId = input.versionId from rfl, hselect] at hread
      simp only [hcheck, run_bind, run_ofStore, hread] at hreply
      cases hcontent : readContent P input.bucket input.key (input.opts caller.headers) r
          (w.files.objects r.id) with
      | error e => simp [hcontent, Except.map, Except.mapError] at hreply
      | ok body =>
          simp only [hcontent, Except.map, Except.mapError] at hreply
          exact ⟨body, (Except.ok.inj hreply).symm⟩

/-- **`HeadObject` of the latest version agrees with `GetObject`.** -/
theorem agreesWithGet_of_lookup (hw : WellFormed P w) (hr : r ∈ w.db.objects)
    (hversion : r.isDeleteMarker = false) (hnames : request.Names r)
    (hlookup : request.lookup w.db = some r) : request.AgreesWithGet P caller w r := by
  cases request with
  | headObject input =>
      intro get hget head object hhead hobject
      have hfound : selectObject get.bucket get.key get.versionId w.db = some r :=
        lookup_of_passes hw hr hget trivial
      obtain ⟨body, rfl⟩ := get_reports hfound hobject
      rw [head_reports hlookup hversion hhead]
      refine ⟨rfl, rfl, fun hrange => ?_⟩
      simp [getObjectOutput, hrange, headObjectOutput]
  | getObject input => trivial
  | getObjectTagging input => trivial
  | copyObject input => trivial
  | uploadPartCopy bucket key uploadId input => trivial

/-- **Requests act on the version they name, exactly** when their handler
passes the version id on, or the version is the one the key's latest lookup
yields. -/
theorem actsOn_iff (hw : (store P).Reachable w) (hr : r ∈ w.db.objects)
    (hversion : r.isDeleteMarker = false) (hnames : request.Names r) :
    request.ActsOn P readTags caller w r ↔
      request.PassesVersion ∨ selectObject r.bucket r.key none w.db = some r := by
  have hwf := wellFormed_reachable hw
  have hbucket : '/' ∉ r.bucket.toList := by
    obtain ⟨b, hb, hname⟩ := hwf.rowBuckets r hr
    rw [← hname]
    exact slash_not_mem_of_validateBucketName (validNames_reachable hw b hb)
  constructor
  · intro hacts
    by_cases hpasses : request.PassesVersion
    · exact Or.inl hpasses
    · rw [← lookup_of_not_passes hbucket hnames hpasses]
      exact Or.inr hacts.lookup_eq
  · intro hcond
    have hlookup : request.lookup w.db = some r := by
      by_cases hpasses : request.PassesVersion
      · exact lookup_of_passes hwf hr hnames hpasses
      · rw [lookup_of_not_passes hbucket hnames hpasses]
        exact hcond.resolve_left hpasses
    exact {
      lookup_eq := hlookup
      run_eq := handle_of_lookup hbucket hversion hnames hlookup
      agrees := agreesWithGet_of_lookup hwf hr hversion hnames hlookup }

/-! ## Two versions -/

/-- A key with two versions: the letter `a`, then nothing. -/
def twoVersionsRun : List Op := [
  .createBucket "docs" {},
  .setBucketVersioning "docs" true,
  .putObject "docs" "k" [.ok [97]] {},
  .putObject "docs" "k" [.ok []] {}]

def twoVersionsWorld : World :=
  (store executablePlatform).after (store executablePlatform).init twoVersionsRun

/-- The older version. -/
def olderRow : ObjectRow where
  id := "01ARZ3NDEKTSV4RRFFQ69G5FA0"
  bucket := "docs"
  key := "k"
  versionId := "01ARZ3NDEKTSV4RRFFQ69G5FA0"
  size := 1
  etag := "\"0cc175b9c0f1b6a831c399e269772661\""
  userMetadata := some []
  isLatest := false
  createdAt := 0
  lastModified := 0

theorem olderRow_mem : olderRow ∈ twoVersionsWorld.db.objects := by decide

/-- No tags are stored in these runs. -/
def noTags : String → Option (List (String × String)) := fun _ => none

/-- The input of a request for the older version. -/
def getOlder : VersionRequest :=
  .getObject { bucket := "docs", key := "k", versionId := some olderRow.versionId }

def headOlder : VersionRequest :=
  .headObject { bucket := "docs", key := "k", versionId := some olderRow.versionId }

/-- `GetObject` acts on the older version. -/
theorem actsOn_iff_getOlder :
    getOlder.ActsOn executablePlatform noTags rootCaller twoVersionsWorld olderRow := by
  have hnames : getOlder.Names olderRow := ⟨rfl, rfl, rfl⟩
  exact (actsOn_iff ⟨twoVersionsRun, rfl⟩ olderRow_mem rfl hnames).mpr (Or.inl trivial)

/-- The length that a reply to `HeadObject` reports. -/
def VersionReply.headLength : Except S3Error VersionReply → Option Nat
  | .ok (.head output) => some output.contentLength
  | _ => none

/-- `HeadObject` of the older version reports the size of the newer one. -/
theorem head_of_old_version :
    ¬ ∀ (w : World) (r : ObjectRow) (request : VersionRequest),
      (store executablePlatform).Reachable w → r ∈ w.db.objects → r.isDeleteMarker = false →
      request.Names r → request.ActsOn executablePlatform noTags rootCaller w r := by
  intro h
  have hnames : headOlder.Names olderRow := ⟨rfl, rfl, rfl⟩
  have hacts := h twoVersionsWorld olderRow headOlder ⟨twoVersionsRun, rfl⟩ olderRow_mem rfl hnames
  have hsame := congrArg (fun outcome => VersionReply.headLength outcome.1) hacts.run_eq
  exact absurd hsame (by decide)

end VersionRequest

end Strix
