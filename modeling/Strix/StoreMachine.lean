import Strix.MachineRuns
import Strix.Buckets
import Strix.Multipart
import Strix.ObjectDeletes

/-!
# The store as a machine

`Op` lists the calls that change the store, the cleanup task's call and the
passing of time; `store P` runs them one after another from an empty store.

* `step_effect`: everything one call can do to buckets, object rows and blob
  files, and everything it can do to uploads, part rows and part files;
* `wellFormed_reachable`: in every reachable state ids are old draws, ids and
  version ids are unique, and a never versioned bucket has one row a key.
-/

namespace Strix

open AtomicProgram AtomicProgram.Prog MachineRuns RowTable

/-- The calls that change the store. -/
inductive Op
  | createBucket (bucket : String) (opts : CreateBucketOpts)
  | deleteBucket (bucket : String)
  | setBucketVersioning (bucket : String) (enabled : Bool)
  | putObject (bucket key : String) (body : ObjectBody) (opts : PutObjectOpts)
  | copyObject (srcBucket srcKey dstBucket dstKey : String) (opts : CopyObjectOpts)
  | deleteObject (bucket key : String)
  | deleteObjectVersion (bucket key : String) (versionId : Option String)
  | createMultipartUpload (bucket key : String) (opts : PutObjectOpts)
  | uploadPart (upload : MultipartUpload) (partNumber : Nat) (body : ObjectBody)
  | completeMultipartUpload (upload : MultipartUpload) (parts : List CompletePart)
  | abortMultipartUpload (upload : MultipartUpload)
  | abortStaleMultipart (uploadId : String)
  | putObjectRetention (bucket key : String) (versionId : Option String)
      (retention : ObjectRetention) (bypassGovernance : Bool)
  | putObjectLegalHold (bucket key : String) (versionId : Option String)
      (status : LegalHoldStatus)
  /-- The clock moves on. -/
  | tick (nanoseconds : Nat)

inductive Reply
  | done
  | put (response : PutObjectResponse)
  | copied (response : CopyObjectResponse)
  | deleted (response : DeleteObjectResponse)
  | upload (response : MultipartUpload)
  | part (response : PartInfo)
  deriving DecidableEq, Repr

/-- The outcome of a program, its value wrapped as a reply. -/
def answering {α : Type} (wrap : α → Reply) (outcome : Except Error α × World) :
    Except Error Reply × World :=
  (outcome.1.map wrap, outcome.2)

variable (P : Platform)

/-- One call. -/
def step (w : World) : Op → Except Error Reply × World
  | .createBucket bucket opts =>
      answering (fun _ => .done) ((createBucket bucket opts).run w)
  | .deleteBucket bucket => answering (fun _ => .done) ((deleteBucket bucket).run w)
  | .setBucketVersioning bucket enabled =>
      answering (fun _ => .done) ((setBucketVersioning bucket enabled).run w)
  | .putObject bucket key body opts =>
      answering .put ((putObject P bucket key body opts).run w)
  | .copyObject srcBucket srcKey dstBucket dstKey opts =>
      answering .copied ((copyObject P srcBucket srcKey dstBucket dstKey opts).run w)
  | .deleteObject bucket key => answering (fun _ => .done) ((deleteObject P bucket key).run w)
  | .deleteObjectVersion bucket key versionId =>
      answering .deleted ((deleteObjectVersion P bucket key versionId).run w)
  | .createMultipartUpload bucket key opts =>
      answering .upload ((createMultipartUpload P bucket key opts).run w)
  | .uploadPart upload partNumber body =>
      answering .part ((uploadPart P upload partNumber body).run w)
  | .completeMultipartUpload upload parts =>
      answering .put ((completeMultipartUpload P upload parts).run w)
  | .abortMultipartUpload upload =>
      answering (fun _ => .done) ((abortMultipartUpload upload).run w)
  | .abortStaleMultipart uploadId =>
      answering (fun _ => .done) ((abortStaleMultipart uploadId).run w)
  | .putObjectRetention bucket key versionId retention bypassGovernance =>
      answering (fun _ => .done)
        ((putObjectRetention bucket key versionId retention bypassGovernance).run w)
  | .putObjectLegalHold bucket key versionId status =>
      answering (fun _ => .done) ((putObjectLegalHold bucket key versionId status).run w)
  | .tick nanoseconds => (.ok .done, { w with now := w.now + nanoseconds })

/-- The store, from the moment it is created. -/
def store : Machine World Op (Except Error Reply) where
  init := {}
  step := step P

/-- An accepted write: the call will insert a new version of the key. -/
def Op.Writes (w : World) : Op → String → String → Prop
  | .putObject bucket key body opts, b, k =>
      (b = bucket ∧ k = key) ∧ PutAccepted P w bucket body opts
  | .copyObject srcBucket srcKey dstBucket dstKey _, b, k =>
      (b = dstBucket ∧ k = dstKey) ∧ CopyAccepted P w srcBucket srcKey dstBucket
  | .completeMultipartUpload upload parts, b, k =>
      (∃ u, selectUpload upload.uploadId w.db = some u ∧ b = u.bucket ∧ k = u.key) ∧
        CompleteAccepted P w upload.uploadId parts
  | _, _, _ => False

/-- The bucket and key that a write is for; a completion writes where its
upload was created. -/
def Op.Targets (w : World) : Op → String → String → Prop
  | .putObject bucket key _ _, b, k => b = bucket ∧ k = key
  | .copyObject _ _ dstBucket dstKey _, b, k => b = dstBucket ∧ k = dstKey
  | .completeMultipartUpload upload _, b, k =>
      ∃ u, selectUpload upload.uploadId w.db = some u ∧ b = u.bucket ∧ k = u.key
  | _, _, _ => False

/-- A call that may set lock columns. -/
def Op.SetsLocks : Op → Prop
  | .putObjectRetention .. => True
  | .putObjectLegalHold .. => True
  | _ => False

/-- **What one call can do to buckets, object rows and blobs.** -/
inductive ObjectsEffect (w w' : World) : Op → Prop
  | unchanged {op : Op} (hbuckets : w'.db.buckets = w.db.buckets)
      (hobjects : w'.db.objects = w.db.objects)
      (hblobs : w'.files.objects = w.files.objects) : ObjectsEffect w w' op
  | createdBucket {bucket : String} {opts : CreateBucketOpts}
      (hnew : ∀ b ∈ w.db.buckets, b.name ≠ bucket)
      (hbuckets : w'.db.buckets =
        insertRow (bucketRow bucket opts w.now.seconds) w.db.buckets)
      (hobjects : w'.db.objects = w.db.objects)
      (hblobs : w'.files.objects = w.files.objects) :
      ObjectsEffect w w' (.createBucket bucket opts)
  | deletedBucket {bucket : String} (hempty : ∀ r ∈ w.db.objects, r.bucket ≠ bucket)
      (hbuckets : w'.db.buckets = deleteRows (·.name == bucket) w.db.buckets)
      (hobjects : w'.db.objects = w.db.objects)
      (hblobs : w'.files.objects = w.files.objects) :
      ObjectsEffect w w' (.deleteBucket bucket)
  | setVersioning {bucket : String} {enabled : Bool}
      (hbuckets : w'.db.buckets = setStatus bucket
        (if enabled then VersioningStatus.enabled else .suspended) w.db.buckets)
      (hobjects : w'.db.objects = w.db.objects)
      (hblobs : w'.files.objects = w.files.objects) :
      ObjectsEffect w w' (.setBucketVersioning bucket enabled)
  | installed {op : Op} {bucket key : String} {status : VersioningStatus} {row : ObjectRow}
      {data : Bytes} (hwrites : op.Writes P w bucket key)
      (hnew : NewVersion P w bucket key status row)
      (hbuckets : w'.db.buckets = w.db.buckets)
      (hobjects : w'.db.objects =
        insertRow row (roomMade status bucket key w.db.objects))
      (hblobs : w'.files.objects = Function.update w.files.objects row.id (some data))
      (hdraws : w.draws < w'.draws) : ObjectsEffect w w' op
  | removedVersion {bucket key vid : String}
      (hunlocked : (selectObject bucket key (some vid) w.db).any
        (ObjectRow.lockedAt w.now) = false)
      (hbuckets : w'.db.buckets = w.db.buckets)
      (hobjects : w'.db.objects =
        promoted P bucket key (deleteRows (atVersion bucket key vid) w.db.objects))
      (hblobs : w'.files = w.files.dropBlobs
        ((selectObject bucket key (some vid) w.db).map (·.id)).toList) :
      ObjectsEffect w w' (.deleteObjectVersion bucket key (some vid))
  | addedMarker {op : Op} {bucket key : String} {status : VersioningStatus}
      (hop : op = .deleteObject bucket key ∨ op = .deleteObjectVersion bucket key none)
      (hstatus : versioningStatus bucket w.db = some status) (hne : status ≠ .unversioned)
      (hunlocked : (selectObject bucket key none w.db).any
        (ObjectRow.lockedAt w.now) = false)
      (hbuckets : w'.db.buckets = w.db.buckets)
      (hobjects : w'.db.objects =
        insertRow (deleteMarkerRow bucket key (P.ulid w.draws) w.now.seconds)
          (updateRows (atLatest bucket key) ObjectRow.demote w.db.objects))
      (hblobs : w'.files.objects = w.files.objects)
      (hdraws : w.draws < w'.draws) : ObjectsEffect w w' op
  | removedKey {op : Op} {bucket key : String}
      (hop : op = .deleteObject bucket key ∨ op = .deleteObjectVersion bucket key none)
      (hstatus : versioningStatus bucket w.db = some .unversioned)
      (hunlocked : (selectObject bucket key none w.db).any
        (ObjectRow.lockedAt w.now) = false)
      (hbuckets : w'.db.buckets = w.db.buckets)
      (hobjects : w'.db.objects = deleteRows (atKey bucket key) w.db.objects)
      (hblobs : w'.files = w.files.dropBlobs
        ((w.db.objects.filter (atKey bucket key)).map (·.id))) : ObjectsEffect w w' op
  | setRetention {bucket key : String} {versionId : Option String}
      {retention : ObjectRetention} {bypassGovernance : Bool}
      (hallowed : retentionModifiable (selectObject bucket key versionId w.db)
        bypassGovernance = true)
      (hbuckets : w'.db.buckets = w.db.buckets)
      (hobjects : w'.db.objects = updateRows (addressed bucket key versionId)
        (fun r => { r with
          retentionMode := some retention.mode
          retainUntilDate := some retention.retainUntilDate }) w.db.objects)
      (hblobs : w'.files.objects = w.files.objects) :
      ObjectsEffect w w'
        (.putObjectRetention bucket key versionId retention bypassGovernance)
  | setLegalHold {bucket key : String} {versionId : Option String} {status : LegalHoldStatus}
      (hbuckets : w'.db.buckets = w.db.buckets)
      (hobjects : w'.db.objects = updateRows (addressed bucket key versionId)
        (fun r => { r with legalHold := status = .on }) w.db.objects)
      (hblobs : w'.files.objects = w.files.objects) :
      ObjectsEffect w w' (.putObjectLegalHold bucket key versionId status)

/-- **What one call can do to uploads, part rows and part files.** -/
inductive PartsEffect (w w' : World) : Op → Prop
  | unchanged {op : Op} (huploads : w'.db.uploads = w.db.uploads)
      (hparts : w'.db.parts = w.db.parts)
      (hfiles : w'.files.multipart = w.files.multipart) : PartsEffect w w' op
  | cascaded {bucket : String}
      (huploads : w'.db.uploads = deleteRows (·.bucket == bucket) w.db.uploads)
      (hparts : w'.db.parts = deleteRows (fun p =>
        ((w.db.uploads.filter (·.bucket == bucket)).map (·.uploadId)).contains p.uploadId)
          w.db.parts)
      (hfiles : w'.files.multipart = w.files.multipart) :
      PartsEffect w w' (.deleteBucket bucket)
  | created {bucket key : String} {opts : PutObjectOpts}
      (hbucket : bucketRowExists bucket w.db = true)
      (huploads : w'.db.uploads = insertRow
        (uploadRow bucket key opts (P.ulid w.draws) w.now.seconds) w.db.uploads)
      (hparts : w'.db.parts = w.db.parts)
      (hfiles : w'.files.multipart = (w.files.ensureDir (P.ulid w.draws)).multipart)
      (hdraws : w.draws < w'.draws) :
      PartsEffect w w' (.createMultipartUpload bucket key opts)
  | broken {upload : MultipartUpload} {partNumber : Nat} {body : ObjectBody} {e : Error}
      (hreaches : UploadPartReaches w upload partNumber) (hbody : readBody body = .error e)
      (huploads : w'.db.uploads = w.db.uploads) (hparts : w'.db.parts = w.db.parts)
      (hfiles : w'.files =
        (w.rewritePart upload.uploadId partNumber (receivedBytes body)).files) :
      PartsEffect w w' (.uploadPart upload partNumber body)
  | stored {upload : MultipartUpload} {partNumber : Nat} {body : ObjectBody} {content : Bytes}
      (hreaches : UploadPartReaches w upload partNumber) (hbody : readBody body = .ok content)
      (huploads : w'.db.uploads = w.db.uploads)
      (hparts : w'.db.parts = insertRow
        (partRow P upload.uploadId partNumber (P.ulid w.draws) content w.now.seconds)
        (deleteRows (atPart upload.uploadId partNumber) w.db.parts))
      (hfiles : w'.files = (w.rewritePart upload.uploadId partNumber content).files) :
      PartsEffect w w' (.uploadPart upload partNumber body)
  | closed {op : Op} {uploadId : String}
      (huploads : w'.db.uploads = deleteRows (·.uploadId == uploadId) w.db.uploads)
      (hparts : w'.db.parts = deleteRows (·.uploadId == uploadId) w.db.parts)
      (hfiles : w'.files.multipart = Function.update w.files.multipart uploadId none) :
      PartsEffect w w' op

/-- **Everything one call can do.** -/
structure StepEffect (w w' : World) (op : Op) : Prop where
  objects : ObjectsEffect P w w' op
  parts : PartsEffect P w w' op
  draws_le : w.draws ≤ w'.draws
  now_le : w.now ≤ w'.now

variable {P}

/-- An accepted write is for its bucket and key. -/
theorem Op.Writes.targets {w : World} {op : Op} {bucket key : String}
    (h : op.Writes P w bucket key) : op.Targets w bucket key := by
  cases op <;> first | exact h.1 | exact h.elim

/-- A write is for one bucket and key. -/
theorem Op.Targets.unique {w : World} {op : Op} {bucket key bucket' key' : String}
    (h : op.Targets w bucket key) (h' : op.Targets w bucket' key') :
    bucket' = bucket ∧ key' = key := by
  cases op with
  | putObject => exact ⟨h'.1.trans h.1.symm, h'.2.trans h.2.symm⟩
  | copyObject => exact ⟨h'.1.trans h.1.symm, h'.2.trans h.2.symm⟩
  | completeMultipartUpload upload parts =>
      obtain ⟨u, hu, rfl, rfl⟩ := h
      obtain ⟨u', hu', rfl, rfl⟩ := h'
      rw [hu] at hu'
      cases hu'
      exact ⟨rfl, rfl⟩
  | _ => exact h.elim

/-- A call that is refused at most draws. -/
theorem StepEffect.refused {w : World} {op : Op} {n : Nat} (hn : w.draws ≤ n) :
    StepEffect P w { w with draws := n } op :=
  ⟨.unchanged rfl rfl rfl, .unchanged rfl rfl rfl, hn, Int.le_refl _⟩

/-- A call that is refused at once changes nothing. -/
theorem StepEffect.self {w : World} {op : Op} : StepEffect P w w op :=
  .refused (Nat.le_refl _)

theorem deleteObject_run (w : World) (bucket key : String) :
    (deleteObject P bucket key).run w =
      (((deleteObjectVersion P bucket key none).run w).1.map fun _ => (),
        ((deleteObjectVersion P bucket key none).run w).2) := by
  rw [deleteObject, run_bind]
  rcases (deleteObjectVersion P bucket key none).run w with ⟨_ | _, w'⟩ <;> rfl

/-- What a delete does, whichever of the two calls asked for it. -/
theorem delete_effect {w : World} {bucket key : String} {versionId : Option String}
    {op : Op} (hids : IdsDrawn P w)
    (hop : op = .deleteObjectVersion bucket key versionId ∨
      (versionId = none ∧ op = .deleteObject bucket key)) :
    StepEffect P w ((deleteObjectVersion P bucket key versionId).run w).2 op := by
  rcases deleteObjectVersion_cases bucket key versionId hids with
    ⟨e, hrun, -⟩ | ⟨status, hstatus, hunlocked, hcases⟩
  · rw [hrun]
    exact .self
  · have hop' : versionId = none →
        op = .deleteObject bucket key ∨ op = .deleteObjectVersion bucket key none := by
      rintro rfl
      rcases hop with rfl | ⟨-, rfl⟩
      · exact Or.inr rfl
      · exact Or.inl rfl
    rcases hcases with ⟨vid, rfl, hrun⟩ | ⟨hnone, hne, hrun⟩ | ⟨hnone, rfl, hrun⟩
    · rcases hop with rfl | ⟨hnone, -⟩
      · rw [hrun]
        exact ⟨.removedVersion hunlocked rfl rfl rfl, .unchanged rfl rfl rfl,
          Nat.le_refl _, Int.le_refl _⟩
      · cases hnone
    · rw [hrun]
      exact ⟨.addedMarker (hop' hnone) hstatus hne (hnone ▸ hunlocked) rfl rfl rfl
        (Nat.lt_succ_self _), .unchanged rfl rfl rfl, Nat.le_succ _, Int.le_refl _⟩
    · rw [hrun]
      exact ⟨.removedKey (hop' hnone) hstatus (hnone ▸ hunlocked) rfl rfl rfl,
        .unchanged rfl rfl rfl, Nat.le_refl _, Int.le_refl _⟩

/-- A writer's new version, in the terms of an effect. -/
theorem ObjectsEffect.install {w : World} {op : Op} {bucket key : String}
    {status : VersioningStatus} {row : ObjectRow} {data : Bytes} {n : Nat}
    (hwrites : op.Writes P w bucket key) (hnew : NewVersion P w bucket key status row)
    (hn : w.draws < n) : ObjectsEffect P w (w.install status row data n) op := by
  refine .installed hwrites hnew rfl ?_ rfl hn
  simp [World.install, hnew.bucket_eq, hnew.key_eq]

/-- **One call, inverted.** -/
theorem step_effect {w : World} (hids : IdsDrawn P w) (huploads : UploadsDrawn P w)
    (op : Op) : StepEffect P w ((store P).next w op) op := by
  cases op with
  | createBucket bucket opts =>
      simp only [Machine.next, store, step, answering]
      rcases createBucket_cases w bucket opts with ⟨e, hrun⟩ | ⟨hnew, hrun⟩
      · rw [hrun]
        exact .self
      · rw [hrun]
        exact ⟨.createdBucket hnew rfl rfl rfl, .unchanged rfl rfl rfl,
          Nat.le_refl _, Int.le_refl _⟩
  | deleteBucket bucket =>
      simp only [Machine.next, store, step, answering]
      rcases deleteBucket_cases w bucket with ⟨e, hrun⟩ | ⟨hempty, hrun⟩
      · rw [hrun]
        exact .self
      · rw [hrun]
        exact ⟨.deletedBucket hempty rfl rfl rfl, .cascaded rfl rfl rfl,
          Nat.le_refl _, Int.le_refl _⟩
  | setBucketVersioning bucket enabled =>
      simp only [Machine.next, store, step, answering]
      rcases setBucketVersioning_cases w bucket enabled with hrun | hrun
      · rw [hrun]
        exact .self
      · rw [hrun]
        exact ⟨.setVersioning rfl rfl rfl, .unchanged rfl rfl rfl,
          Nat.le_refl _, Int.le_refl _⟩
  | putObject bucket key body opts =>
      simp only [Machine.next, store, step, answering]
      rcases putObject_cases bucket key body opts hids with
        ⟨-, e, n, hrun, hn⟩ | ⟨haccepted, status, row, _, _, data, n, hrun, hn, hnew, -⟩
      · rw [hrun]
        exact .refused hn
      · rw [hrun]
        exact ⟨.install ⟨⟨rfl, rfl⟩, haccepted⟩ hnew hn, .unchanged rfl rfl rfl,
          Nat.le_of_lt hn, Int.le_refl _⟩
  | copyObject srcBucket srcKey dstBucket dstKey opts =>
      simp only [Machine.next, store, step, answering]
      rcases copyObject_cases srcBucket srcKey dstBucket dstKey opts hids with
        ⟨-, e, n, hrun, hn⟩ | ⟨haccepted, status, row, _, _, data, n, hrun, hn, hnew, -⟩
      · rw [hrun]
        exact .refused hn
      · rw [hrun]
        exact ⟨.install ⟨⟨rfl, rfl⟩, haccepted⟩ hnew hn, .unchanged rfl rfl rfl,
          Nat.le_of_lt hn, Int.le_refl _⟩
  | deleteObject bucket key =>
      simp only [Machine.next, store, step, answering, deleteObject_run]
      exact delete_effect hids (Or.inr ⟨rfl, rfl⟩)
  | deleteObjectVersion bucket key versionId =>
      exact delete_effect hids (Or.inl rfl)
  | createMultipartUpload bucket key opts =>
      simp only [Machine.next, store, step, answering]
      rcases createMultipartUpload_cases bucket key opts huploads with ⟨-, hrun⟩ | ⟨hthere, hrun⟩
      · rw [hrun]
        exact .self
      · rw [hrun]
        exact ⟨.unchanged rfl rfl rfl, .created hthere rfl rfl rfl (Nat.lt_succ_self _),
          Nat.le_succ _, Int.le_refl _⟩
  | uploadPart upload partNumber body =>
      simp only [Machine.next, store, step, answering]
      rcases uploadPart_cases (P := P) w upload partNumber body with
        ⟨-, e, hrun⟩ | ⟨hreaches, e, hbody, hrun⟩ | ⟨hreaches, content, hbody, hrun⟩
      · rw [hrun]
        exact .self
      · rw [hrun]
        exact ⟨.unchanged rfl rfl rfl, .broken hreaches hbody rfl rfl rfl,
          Nat.le_succ _, Int.le_refl _⟩
      · rw [hrun]
        exact ⟨.unchanged rfl rfl rfl, .stored hreaches hbody rfl rfl rfl,
          Nat.le_succ _, Int.le_refl _⟩
  | completeMultipartUpload upload parts =>
      simp only [Machine.next, store, step, answering]
      rcases completeMultipartUpload_cases upload parts hids with ⟨-, e, n, hrun, hn⟩ |
          ⟨haccepted, status, row, u, _, data, n, hrun, hn, hnew, hselect, -⟩
      · rw [hrun]
        exact .refused hn
      · rw [hrun]
        refine ⟨.installed ⟨⟨u, hselect, rfl, rfl⟩, haccepted⟩ hnew rfl ?_ rfl hn,
          .closed rfl rfl rfl, Nat.le_of_lt hn, Int.le_refl _⟩
        simp [World.install, World.closeUpload, hnew.bucket_eq, hnew.key_eq]
  | abortMultipartUpload upload =>
      simp only [Machine.next, store, step, answering]
      rcases abortMultipartUpload_cases w upload with ⟨-, hrun⟩ | ⟨-, hrun⟩
      · rw [hrun]
        exact .self
      · rw [hrun]
        exact ⟨.unchanged rfl rfl rfl, .closed rfl rfl rfl, Nat.le_refl _, Int.le_refl _⟩
  | abortStaleMultipart uploadId =>
      simp only [Machine.next, store, step, answering, abortStaleMultipart_run]
      exact ⟨.unchanged rfl rfl rfl, .closed rfl rfl rfl, Nat.le_refl _, Int.le_refl _⟩
  | putObjectRetention bucket key versionId retention bypassGovernance =>
      simp only [Machine.next, store, step, answering]
      rcases putObjectRetention_cases w bucket key versionId retention bypassGovernance
        with ⟨e, hrun⟩ | ⟨hallowed, hrun⟩
      · rw [hrun]
        exact .self
      · rw [hrun]
        exact ⟨.setRetention hallowed rfl rfl rfl, .unchanged rfl rfl rfl,
          Nat.le_refl _, Int.le_refl _⟩
  | putObjectLegalHold bucket key versionId status =>
      simp only [Machine.next, store, step, answering]
      rcases putObjectLegalHold_cases w bucket key versionId status with ⟨e, hrun⟩ | hrun
      · rw [hrun]
        exact .self
      · rw [hrun]
        exact ⟨.setLegalHold rfl rfl rfl, .unchanged rfl rfl rfl, Nat.le_refl _, Int.le_refl _⟩
  | tick nanoseconds =>
      exact ⟨.unchanged rfl rfl rfl, .unchanged rfl rfl rfl, Nat.le_refl _,
        Int.le_add_of_nonneg_right (Int.natCast_nonneg nanoseconds)⟩

/-- **An accepted write installs a version.** -/
theorem Op.Writes.installs {w : World} {op : Op} {bucket key : String}
    (h : op.Writes P w bucket key) (hids : IdsDrawn P w) :
    ∃ status row, NewVersion P w bucket key status row ∧
      ((store P).next w op).db.objects =
        insertRow row (roomMade status bucket key w.db.objects) := by
  cases op with
  | putObject bucket' key' body opts =>
      obtain ⟨⟨rfl, rfl⟩, haccepted⟩ := h
      rcases putObject_cases bucket key body opts hids with
        ⟨hno, -⟩ | ⟨-, status, row, _, _, data, n, hrun, hn, hnew, -⟩
      · exact absurd haccepted hno
      · refine ⟨status, row, hnew, ?_⟩
        simp [Machine.next, store, step, answering, hrun, World.install, hnew.bucket_eq,
          hnew.key_eq]
  | copyObject srcBucket srcKey dstBucket dstKey opts =>
      obtain ⟨⟨rfl, rfl⟩, haccepted⟩ := h
      rcases copyObject_cases srcBucket srcKey bucket key opts hids with
        ⟨hno, -⟩ | ⟨-, status, row, _, _, data, n, hrun, hn, hnew, -⟩
      · exact absurd haccepted hno
      · refine ⟨status, row, hnew, ?_⟩
        simp [Machine.next, store, step, answering, hrun, World.install, hnew.bucket_eq,
          hnew.key_eq]
  | completeMultipartUpload upload parts =>
      obtain ⟨⟨u, hu, rfl, rfl⟩, haccepted⟩ := h
      rcases completeMultipartUpload_cases upload parts hids with
        ⟨hno, -⟩ | ⟨-, status, row, u', _, data, n, hrun, hn, hnew, hselect, -⟩
      · exact absurd haccepted hno
      · rw [hu] at hselect
        cases hselect
        refine ⟨status, row, hnew, ?_⟩
        simp [Machine.next, store, step, answering, hrun, World.install, World.closeUpload,
          hnew.bucket_eq, hnew.key_eq]
  | _ => exact h.elim

end Strix
