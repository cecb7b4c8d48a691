import Strix.ObjectRequests
import Strix.S3Audit

/-!
# The events of object requests

`PutObject`, `CopyObject` and `CompleteMultipartUpload` announce the version they
have created, `DeleteObject` what it has done; each makes up its event from the
request and the store's answer.  `DeleteObjects` and the two handlers that change the
tags of an object, by a copy onto itself, announce nothing.

* `versionChanges_insert` and `versionChanges_delete`: what a call of the store creates
  or removes, read off the tables before and after.
-/

namespace Strix

open AtomicProgram RowTable

/-- `as u64` of an `i64`. -/
def asU64 (n : Int) : Nat := (n % 18446744073709551616).toNat

/-! ## Tags -/

/-- A tag as it is sent. -/
abbrev SentTag := Option String × Option String

/-- `encode_object_tags`. -/
def encodeObjectTags (tagSet : List SentTag) : Except S3Error (List (String × String)) :=
  tagSet.mapM fun tag => do
    let some key := tag.1 | .error (s3Error .invalidTag "Tag key is required")
    let some value := tag.2 | .error (s3Error .invalidTag "Tag value is required")
    return (key, value)

/-- The metadata without its tags. -/
def withoutTags (metadata : Metadata) : Metadata :=
  metadata.filter fun entry => entry.1 != objectTagsMetadataKey

/-- The metadata with these tags, given their JSON text. -/
def withTags (writeTags : List (String × String) → String) (tagSet : List SentTag)
    (metadata : Metadata) : Except S3Error Metadata := do
  let tags ← encodeObjectTags tagSet
  return (objectTagsMetadataKey, writeTags tags) :: withoutTags metadata

/-! ## The handlers -/

namespace S3Service

variable (P : Platform) (uuid : Nat → String) (caller : Caller) (now : DateTime)

/-- The body of the handlers that change the tags of an object. -/
def rewriteMetadata (action bucket key : String) (edit : Metadata → Except S3Error Metadata) :
    S3Prog CopyObjectResponse := do
  caller.authorize action bucket key
  let info ← ofStore (Strix.headObject bucket key)
  let metadata ← Prog.lift (edit info.metadata)
  ofStore (Strix.copyObject P bucket key bucket key { metadataDirective := .replace, metadata })

/-- `complete_multipart_upload`. -/
def completeUpload (bucket key uploadId : String) (parts : Option (List CompletedPart)) :
    S3Prog PutObjectResponse := do
  caller.authorize "PutObject" bucket key
  let now ← Prog.observe (·.now)
  ofStore (completeMultipartUpload P { uploadId, bucket, key, initiated := now }
    (completeParts parts))

/-- The handler of the multipart requests does just this for a completion. -/
theorem completeUpload_handle (bucket key uploadId : String)
    (parts : Option (List CompletedPart)) (w : World) :
    (MultipartRequest.handle P caller
      { bucket, key, uploadId, action := .completeMultipartUpload parts }).run w =
      (((completeUpload P caller bucket key uploadId parts).run w).1.map .completed,
        ((completeUpload P caller bucket key uploadId parts).run w).2) := by
  unfold MultipartRequest.handle completeUpload
  simp only [UploadAction.operation]
  rw [run_authorize_bind, run_authorize_bind]
  cases caller.check w.now "PutObject" bucket key with
  | error e => rfl
  | ok _ =>
      simp only [MultipartRequest.perform, MultipartRequest.named, Prog.run_bind]
      cases hcomplete : (ofStore (completeMultipartUpload P
        { uploadId, bucket, key, initiated := w.now } (completeParts parts))).run w with
      | mk result w' => cases result <;> simp [hcomplete, Except.map]

/-- A handler on the store; the refusals of its checks are logged. -/
def audited {α : Type} (handler : S3Prog α) (checks : List Check) (s : ServiceWorld) :
    Except S3Error α × ServiceWorld :=
  let (result, w) := handler.run s.store
  (result, { (authorizeAll uuid caller now checks s).2 with store := w })

/-- A handler that announces what it has created. -/
def announcing {α : Type} (handler : S3Prog α) (checks : List Check) (event : α → S3Event)
    (s : ServiceWorld) : Except S3Error S3Output × ServiceWorld :=
  match audited uuid caller now handler checks s with
  | (.ok response, s) => (.ok .other, s.emitEvent (event response))
  | (.error e, s) => (.error e, s)

/-- A handler that announces nothing. -/
def unannounced {α : Type} (handler : S3Prog α) (checks : List Check) (s : ServiceWorld) :
    Except S3Error S3Output × ServiceWorld :=
  match audited uuid caller now handler checks s with
  | (.ok _, s) => (.ok .other, s)
  | (.error e, s) => (.error e, s)

end S3Service

/-- The event of a put. -/
def putEvent (ctx : RequestAuditContext) (input : PutObjectInput) (contentLength : Option Int)
    (response : PutObjectResponse) : S3Event where
  eventType := .objectCreatedPut
  bucket := input.bucket
  key := input.key
  size := some (asU64 (contentLength.getD 0))
  etag := some response.etag
  versionId := response.versionId
  requestId := ctx.requestId
  sourceIp := ctx.sourceIp

/-- The event of a copy. -/
def copyEvent (ctx : RequestAuditContext) (input : CopyObjectInput)
    (response : CopyObjectResponse) : S3Event where
  eventType := .objectCreatedCopy
  bucket := input.bucket
  key := input.key
  size := none
  etag := some response.etag
  versionId := none
  requestId := ctx.requestId
  sourceIp := ctx.sourceIp

/-- The event of a completed upload. -/
def completeEvent (ctx : RequestAuditContext) (bucket key : String)
    (response : PutObjectResponse) : S3Event where
  eventType := .objectCreatedCompleteMultipartUpload
  bucket := bucket
  key := key
  size := none
  etag := some response.etag
  versionId := response.versionId
  requestId := ctx.requestId
  sourceIp := ctx.sourceIp

/-- The checks of a copy: of the target, and of the source if it has one. -/
def copyChecks (input : CopyObjectInput) : List Check :=
  objectCheck "PutObject" input.bucket input.key ::
    match copySourceOf input.copySource with
    | .ok source => [objectCheck "GetObject" source.1 source.2]
    | .error _ => []

/-- A request that may create or remove versions of objects. -/
inductive ObjectCall
  | putObject (input : PutObjectInput) (contentLength : Option Int)
  | copyObject (input : CopyObjectInput)
  | completeMultipartUpload (bucket key uploadId : String) (parts : Option (List CompletedPart))
  | deleteObject (bucket key : String) (versionId : Option String)
  | deleteObjects (bucket : String) (objects : List (String × Option String))
  | putObjectTagging (bucket key : String) (tagSet : List SentTag)
  | deleteObjectTagging (bucket key : String)

/-- A handler, in the context of its request. -/
def ObjectCall.run (P : Platform) (uuid : Nat → String)
    (writeTags : List (String × String) → String) (caller : Caller) (ctx : RequestAuditContext)
    (now : DateTime) (s : ServiceWorld) : ObjectCall → Except S3Error S3Output × ServiceWorld
  | putObject input contentLength =>
    S3Service.announcing uuid caller now (S3Service.putObject P caller input)
      [objectCheck "PutObject" input.bucket input.key] (putEvent ctx input contentLength) s
  | copyObject input =>
    S3Service.announcing uuid caller now (S3Service.copyObject P caller input)
      (copyChecks input) (copyEvent ctx input) s
  | completeMultipartUpload bucket key uploadId parts =>
    S3Service.announcing uuid caller now
      (S3Service.completeUpload P caller bucket key uploadId parts)
      [objectCheck "PutObject" bucket key] (completeEvent ctx bucket key) s
  | deleteObject bucket key versionId =>
    S3Service.deleteObject P uuid caller ctx now bucket key versionId s
  | deleteObjects bucket objects => S3Service.deleteObjects P uuid caller now bucket objects s
  | putObjectTagging bucket key tagSet =>
    S3Service.unannounced uuid caller now
      (S3Service.rewriteMetadata P caller "PutObjectTagging" bucket key (withTags writeTags tagSet))
      [objectCheck "PutObjectTagging" bucket key] s
  | deleteObjectTagging bucket key =>
    S3Service.unannounced uuid caller now
      (S3Service.rewriteMetadata P caller "DeleteObjectTagging" bucket key
        fun metadata => .ok (withoutTags metadata))
      [objectCheck "DeleteObjectTagging" bucket key] s

/-! ## What is created and removed -/

/-- A version that is stored, or one that goes. -/
inductive VersionChange
  | created (row : ObjectRow)
  | removed (row : ObjectRow)
  deriving DecidableEq

/-- The row of a change. -/
def VersionChange.row : VersionChange → ObjectRow
  | created row => row
  | removed row => row

/-- No row has the id of this one. -/
def isUnknown (rows : List ObjectRow) (row : ObjectRow) : Bool :=
  !rows.any fun r => r.id == row.id

/-- **What a call has changed**: the rows that are new, or if there are none those that
are gone.  A version that makes room for another is not announced as removed. -/
def versionChanges (before after : List ObjectRow) : List VersionChange :=
  match after.filter (isUnknown before) with
  | [] => (before.filter (isUnknown after)).map .removed
  | rows => rows.map .created

theorem isUnknown_iff {rows : List ObjectRow} {row : ObjectRow} :
    isUnknown rows row = true ↔ ∀ r ∈ rows, r.id ≠ row.id := by
  simp [isUnknown]

theorem filter_isUnknown_eq_nil {rows others : List ObjectRow}
    (h : ∀ r ∈ others, ∃ old ∈ rows, old.id = r.id) : others.filter (isUnknown rows) = [] := by
  rw [List.filter_eq_nil_iff]
  intro r hr hunknown
  obtain ⟨old, hold, hid⟩ := h r hr
  exact isUnknown_iff.mp hunknown old hold hid

/-- A call that leaves the table as it was changes nothing. -/
theorem versionChanges_self (rows : List ObjectRow) : versionChanges rows rows = [] := by
  have hnone : rows.filter (isUnknown rows) = [] :=
    filter_isUnknown_eq_nil fun r hr => ⟨r, hr, rfl⟩
  simp [versionChanges, hnone]

/-- **A new row among old ones** is a version created. -/
theorem versionChanges_insert {before room : List ObjectRow} {row : ObjectRow}
    (hold : ∀ r ∈ room, ∃ old ∈ before, old.id = r.id) (hnew : ∀ old ∈ before, old.id ≠ row.id) :
    versionChanges before (insertRow row room) = [.created row] := by
  have hrow : isUnknown before row = true := isUnknown_iff.mpr hnew
  have hcreated : (insertRow row room).filter (isUnknown before) = [row] := by
    rw [filter_insertRow_of_pos hrow, filter_isUnknown_eq_nil hold]
    rfl
  unfold versionChanges
  rw [hcreated]
  rfl

/-- **Rows that go** are versions removed. -/
theorem versionChanges_delete {before after : List ObjectRow} {p : ObjectRow → Bool}
    (hids : Keyed (·.id) before)
    (hafter : after.map (·.id) = (deleteRows p before).map (·.id)) :
    versionChanges before after = (before.filter p).map .removed := by
  have hmem (id : String) : (∃ r ∈ after, r.id = id) ↔ ∃ r ∈ deleteRows p before, r.id = id := by
    rw [← List.mem_map, hafter, List.mem_map]
  have hcreated : after.filter (isUnknown before) = [] := by
    apply filter_isUnknown_eq_nil
    intro r hr
    obtain ⟨old, hold, hid⟩ := (hmem r.id).mp ⟨r, hr, rfl⟩
    exact ⟨old, (mem_deleteRows.mp hold).1, hid⟩
  have hremoved : before.filter (isUnknown after) = before.filter p := by
    apply List.filter_congr
    intro r hr
    rw [Bool.eq_iff_iff, isUnknown_iff]
    constructor
    · intro hgone
      by_contra hstays
      have hkept : r ∈ deleteRows p before := mem_deleteRows.mpr ⟨hr, by simpa using hstays⟩
      obtain ⟨r', hr', hid⟩ := (hmem r.id).mpr ⟨r, hkept, rfl⟩
      exact hgone r' hr' hid
    · intro hp r' hr' hid
      obtain ⟨old, hold, hsame⟩ := (hmem r.id).mp ⟨r', hr', hid⟩
      obtain ⟨hmember, hnot⟩ := mem_deleteRows.mp hold
      obtain rfl := hids.eq_of_mem hmember hr hsame
      rw [hp] at hnot
      cases hnot
  unfold versionChanges
  rw [hcreated, hremoved]

end Strix
