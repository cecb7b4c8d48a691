import Strix.StoreCalls

/-!
# Calls that start no upload

Only `createMultipartUpload` adds a row to `multipart_uploads`.  What a call may do to that
table is said of every step it takes, so that it holds whatever runs beside it.

* `noNewUpload_call`: a closure of statements that keep to the old uploads starts none;
* `noNewUpload_program`: no step of a call that has nothing to do with uploads starts one.
-/

namespace Strix

open AtomicProgram AtomicProgram.Prog RowTable

/-- The step starts no upload. -/
def NoNewUpload ⦃β : Type⦄ (act : World → β × World) : Prop :=
  ∀ w, ∀ u ∈ (act w).2.db.uploads, u ∈ w.db.uploads

theorem Quiet.noNewUpload ⦃β : Type⦄ {act : World → β × World} (h : Quiet act) :
    NoNewUpload act := by
  intro w u hu
  rw [(h w).1] at hu
  exact hu

theorem noNewUpload_of_quiet {α : Type} {p : StoreProg α} (hp : Only Quiet p) :
    Only NoNewUpload p :=
  hp.mono fun _ _ hact => hact.noNewUpload

/-- The statement starts no upload. -/
def KeepsOldUploads (statement : Statement) : Prop :=
  ∀ now db db', statement now db = .ok db' → ∀ u ∈ db'.uploads, u ∈ db.uploads

/-- A closure of such statements starts none. -/
theorem closureStep_noNewUpload {statements : List Statement}
    (h : ∀ statement ∈ statements, KeepsOldUploads statement) :
    NoNewUpload (closureStep statements) := by
  intro w
  show ∀ u ∈ (runStatements statements w.now w.db).2.uploads, u ∈ w.db.uploads
  generalize w.db = db
  induction statements generalizing db with
  | nil => exact fun u hu => hu
  | cons statement rest ih =>
      cases hstatement : statement w.now db with
      | error e =>
          rw [runStatements_cons_error hstatement]
          exact fun u hu => hu
      | ok db' =>
          rw [runStatements_cons_ok hstatement]
          intro u hu
          have hlater := ih (fun s hs => h s (List.mem_cons_of_mem _ hs)) db' u hu
          exact h statement List.mem_cons_self w.now db db' hstatement u hlater

theorem noNewUpload_execute {statements : List Statement}
    (h : ∀ statement ∈ statements, KeepsOldUploads statement) :
    Only NoNewUpload (execute statements) :=
  only_perform (closureStep_noNewUpload h)

theorem noNewUpload_call {statements : List Statement}
    (h : ∀ statement ∈ statements, KeepsOldUploads statement) :
    Only NoNewUpload (call statements) :=
  (noNewUpload_execute h).bind fun _ => only_lift _

/-- A closure of one such statement. -/
theorem noNewUpload_callOne {statement : Statement} (h : KeepsOldUploads statement) :
    Only NoNewUpload (call [statement]) := by
  refine noNewUpload_call fun other hother => ?_
  rwa [List.mem_singleton.mp hother]

/-- A statement that leaves the uploads alone. -/
theorem keepsOldUploads_of_eq {statement : Statement}
    (h : ∀ now db db', statement now db = .ok db' → db'.uploads = db.uploads) :
    KeepsOldUploads statement := by
  intro now db db' hok u hu
  rwa [h now db db' hok] at hu

theorem insertObject_keepsOldUploads (row : DateTime → ObjectRow) :
    KeepsOldUploads (insertObject row) := by
  refine keepsOldUploads_of_eq fun now db db' hok => ?_
  obtain ⟨-, -, rfl⟩ := insertObject_eq_ok hok
  rfl

theorem makeRoom_keepsOldUploads (status : VersioningStatus) (bucket key : String) :
    KeepsOldUploads (makeRoom status bucket key) := by
  refine keepsOldUploads_of_eq fun now db db' hok => ?_
  rw [makeRoom_ok] at hok
  cases hok
  rfl

theorem updateObjects_keepsOldUploads (p : ObjectRow → Bool) (assign : ObjectRow → ObjectRow) :
    KeepsOldUploads (updateObjects p assign) :=
  keepsOldUploads_of_eq fun _ _ _ hok => by cases hok; rfl

theorem deleteObjects_keepsOldUploads (p : ObjectRow → Bool) :
    KeepsOldUploads (deleteObjects p) :=
  keepsOldUploads_of_eq fun _ _ _ hok => by cases hok; rfl

theorem promoteNewest_keepsOldUploads (P : Platform) (bucket key : String) :
    KeepsOldUploads (promoteNewest P bucket key) :=
  keepsOldUploads_of_eq fun _ _ _ hok => by cases hok; rfl

theorem insertBucket_keepsOldUploads (row : DateTime → BucketRow) :
    KeepsOldUploads (insertBucket row) := by
  refine keepsOldUploads_of_eq fun now db db' hok => ?_
  simp only [insertBucket] at hok
  split at hok
  · cases hok
  · cases hok
    rfl

theorem deleteBucketRow_keepsOldUploads (bucket : String) :
    KeepsOldUploads (deleteBucketRow bucket) := by
  rintro now db _ ⟨⟩ u hu
  exact (mem_deleteRows.mp hu).1

theorem insertPart_keepsOldUploads (row : DateTime → PartRow) :
    KeepsOldUploads (insertPart row) := by
  refine keepsOldUploads_of_eq fun now db db' hok => ?_
  simp only [insertPart] at hok
  split at hok
  · cases hok
  · split at hok
    · cases hok
      rfl
    · cases hok

theorem deleteParts_keepsOldUploads (p : PartRow → Bool) : KeepsOldUploads (deleteParts p) :=
  keepsOldUploads_of_eq fun _ _ _ hok => by cases hok; rfl

theorem deleteUpload_keepsOldUploads (uploadId : String) :
    KeepsOldUploads (deleteUpload uploadId) := by
  rintro now db _ ⟨⟩ u hu
  exact (mem_deleteRows.mp hu).1

theorem writesRow_keepsOldUploads {bucket key : String} {row : DateTime → ObjectRow}
    {statements : List Statement} (h : WritesRow bucket key row statements) :
    ∀ statement ∈ statements, KeepsOldUploads statement := by
  have hroom := fun status => makeRoom_keepsOldUploads status bucket key
  cases h with
  | single status => simp [hroom, insertObject_keepsOldUploads]
  | multipart status uploadId =>
      simp [hroom, insertObject_keepsOldUploads, deleteParts_keepsOldUploads,
        deleteUpload_keepsOldUploads]

/-- The statements that close an upload. -/
theorem noNewUpload_closeUpload (uploadId : String) :
    Only NoNewUpload (call [deleteParts (·.uploadId == uploadId), deleteUpload uploadId]) :=
  noNewUpload_call (by simp [deleteParts_keepsOldUploads, deleteUpload_keepsOldUploads])

section Calls

variable (P : Platform)

theorem putObject_noNewUpload (bucket key : String) (body : ObjectBody) (opts : PutObjectOpts) :
    Only NoNewUpload (putObject P bucket key body opts) := by
  refine (noNewUpload_of_quiet (quiet_query _)).bind fun _ => (only_require _ _).bind fun _ => ?_
  refine (noNewUpload_of_quiet quiet_draw).bind fun _ => (only_lift _).bind fun _ => ?_
  refine (only_lift _).bind fun _ => ?_
  refine (noNewUpload_of_quiet (quiet_sealContent _ _ _ _ _ _)).bind fun _ => ?_
  refine (noNewUpload_of_quiet (quiet_writeBlob _ _)).bind fun _ => ?_
  refine (noNewUpload_call ?_).bind fun _ => only_pure _
  exact writesRow_keepsOldUploads (.single _)

theorem copyObject_noNewUpload (srcBucket srcKey dstBucket dstKey : String)
    (opts : CopyObjectOpts) :
    Only NoNewUpload (copyObject P srcBucket srcKey dstBucket dstKey opts) := by
  refine (noNewUpload_of_quiet (quiet_headObject _ _)).bind fun _ => ?_
  refine (noNewUpload_of_quiet (quiet_query _)).bind fun _ => (only_require _ _).bind fun _ => ?_
  refine (noNewUpload_of_quiet (quiet_query _)).bind fun _ => (only_require _ _).bind fun _ => ?_
  refine (noNewUpload_of_quiet quiet_draw).bind fun _ => ?_
  refine (noNewUpload_of_quiet (quiet_copyBlob _ _ _ _ _ _ _ _)).bind fun _ => ?_
  refine (noNewUpload_of_quiet quiet_clock).bind fun _ => ?_
  refine (noNewUpload_call ?_).bind fun _ => only_pure _
  exact writesRow_keepsOldUploads (.single _)

theorem completeMultipartUpload_noNewUpload (upload : MultipartUpload)
    (parts : List CompletePart) :
    Only NoNewUpload (completeMultipartUpload P upload parts) := by
  refine (only_ensure _ _).bind fun _ => ?_
  refine (noNewUpload_of_quiet (quiet_query _)).bind fun _ => (only_require _ _).bind fun _ => ?_
  refine (noNewUpload_of_quiet (quiet_query _)).bind fun _ => (only_require _ _).bind fun _ => ?_
  refine (noNewUpload_of_quiet (quiet_query _)).bind fun _ => (only_lift _).bind fun _ => ?_
  refine (noNewUpload_of_quiet quiet_draw).bind fun _ => ?_
  refine (noNewUpload_of_quiet (quiet_readParts _ _)).bind fun _ => ?_
  refine (noNewUpload_of_quiet (quiet_sealUpload _ _ _)).bind fun _ => ?_
  refine (noNewUpload_of_quiet (quiet_writeBlob _ _)).bind fun _ => ?_
  refine (noNewUpload_call ?_).bind fun _ => ?_
  · exact writesRow_keepsOldUploads (.multipart _ _)
  · exact (noNewUpload_of_quiet (quiet_removeUploadDir _)).bind fun _ => only_pure _

theorem hardDeleteVersion_noNewUpload (bucket key vid : String) :
    Only NoNewUpload (hardDeleteVersion P bucket key vid) := by
  refine (noNewUpload_of_quiet (quiet_query _)).bind fun _ => ?_
  refine (noNewUpload_callOne (deleteObjects_keepsOldUploads _)).bind fun _ => ?_
  refine (noNewUpload_of_quiet (quiet_removeBlobs _)).bind fun _ => ?_
  exact (noNewUpload_callOne (promoteNewest_keepsOldUploads P _ _)).bind fun _ => only_pure _

theorem hardDeleteKey_noNewUpload (bucket key : String) :
    Only NoNewUpload (hardDeleteKey bucket key) := by
  refine (noNewUpload_of_quiet (quiet_query _)).bind fun _ => ?_
  refine (noNewUpload_callOne (deleteObjects_keepsOldUploads _)).bind fun _ => ?_
  exact (noNewUpload_of_quiet (quiet_removeBlobs _)).bind fun _ => only_pure _

theorem createDeleteMarker_noNewUpload (bucket key : String) :
    Only NoNewUpload (createDeleteMarker P bucket key) := by
  refine (noNewUpload_of_quiet quiet_draw).bind fun _ => ?_
  refine (noNewUpload_call ?_).bind fun _ => only_pure _
  simp [updateObjects_keepsOldUploads, insertObject_keepsOldUploads]

theorem deleteObjectVersion_noNewUpload (bucket key : String) (versionId : Option String) :
    Only NoNewUpload (deleteObjectVersion P bucket key versionId) := by
  refine (noNewUpload_of_quiet (quiet_query _)).bind fun _ => ?_
  refine (only_require _ _).bind fun status => ?_
  refine (noNewUpload_of_quiet (quiet_objectDeleteLocked _ _ _)).bind fun _ => ?_
  refine (only_ensure _ _).bind fun _ => ?_
  cases versionId with
  | some vid => exact hardDeleteVersion_noNewUpload P bucket key vid
  | none =>
      by_cases hunversioned : status = .unversioned
      · rw [if_pos hunversioned]
        exact hardDeleteKey_noNewUpload bucket key
      · rw [if_neg hunversioned]
        exact createDeleteMarker_noNewUpload P bucket key

/-- A call that has nothing to do with uploads. -/
def Op.Aloof : Op → Prop
  | .createMultipartUpload .. | .uploadPart .. | .completeMultipartUpload ..
  | .abortMultipartUpload .. | .abortStaleMultipart .. => False
  | _ => True

/-- **Such a call starts no upload.** -/
theorem noNewUpload_program {op : Op} (h : op.Aloof) : Only NoNewUpload (program P op) := by
  cases op with
  | createBucket bucket opts =>
      refine ((only_lift _).bind fun _ => ?_).bind fun _ => only_pure _
      refine (noNewUpload_execute fun statement hmem => ?_).bind fun _ => only_lift _
      rw [List.mem_singleton.mp hmem]
      exact insertBucket_keepsOldUploads _
  | deleteBucket bucket =>
      refine ((noNewUpload_of_quiet (quiet_query _)).bind fun _ => ?_).bind fun _ => only_pure _
      refine (only_ensure _ _).bind fun _ => (only_ensure _ _).bind fun _ => ?_
      exact noNewUpload_callOne (deleteBucketRow_keepsOldUploads _)
  | setBucketVersioning bucket enabled =>
      refine ((only_perform ?_).bind fun _ => only_ensure _ _).bind fun _ => only_pure _
      exact fun w u hu => hu
  | putObject bucket key body opts =>
      exact (putObject_noNewUpload P bucket key body opts).bind fun _ => only_pure _
  | copyObject srcBucket srcKey dstBucket dstKey opts =>
      exact (copyObject_noNewUpload P srcBucket srcKey dstBucket dstKey opts).bind fun _ =>
        only_pure _
  | deleteObject bucket key =>
      refine ((deleteObjectVersion_noNewUpload P bucket key none).bind fun _ => ?_).bind fun _ => ?_
      · exact only_pure _
      · exact only_pure _
  | deleteObjectVersion bucket key versionId =>
      exact (deleteObjectVersion_noNewUpload P bucket key versionId).bind fun _ => only_pure _
  | createMultipartUpload bucket key opts => cases h
  | uploadPart upload partNumber body => cases h
  | completeMultipartUpload upload parts => cases h
  | abortMultipartUpload upload => cases h
  | abortStaleMultipart uploadId => cases h
  | putObjectRetention bucket key versionId retention bypassGovernance =>
      refine ((noNewUpload_of_quiet (quiet_query _)).bind fun _ => ?_).bind fun _ => only_pure _
      refine (only_ensure _ _).bind fun _ => (noNewUpload_of_quiet (quiet_query _)).bind fun _ => ?_
      exact (only_ensure _ _).bind fun _ => noNewUpload_callOne (updateObjects_keepsOldUploads _ _)
  | putObjectLegalHold bucket key versionId status =>
      refine ((noNewUpload_of_quiet (quiet_query _)).bind fun _ => ?_).bind fun _ => only_pure _
      exact (only_ensure _ _).bind fun _ => noNewUpload_callOne (updateObjects_keepsOldUploads _ _)
  | tick nanoseconds =>
      exact (only_perform fun _ _ hu => hu).bind fun _ => only_pure _

end Calls

end Strix
