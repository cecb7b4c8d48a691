import Strix.BlobCustody
import Strix.SharedInvariants

/-!
# Buckets that nobody switches

A bucket is created unversioned.  As long as no call switches the versioning of a bucket or
deletes one, every bucket stays unversioned and is there, and every row is the latest of its
key: so it is whatever calls run beside one another, step by step.

* `plain_insertObject` to `plain_execute`: what the statements of such calls keep;
* `stepsBeside_program`: calls on uploads, parts and locks leave the objects alone;
* `requestProgram_keeps`: a call without switches keeps all buckets unversioned.
-/

namespace Strix

open AtomicProgram AtomicProgram.Prog MachineRuns RowTable

/-! ## Unversioned buckets -/

/-- No bucket has ever been versioned. -/
structure Db.Unswitched (db : Db) : Prop where
  status : ∀ b ∈ db.buckets, b.versioningStatus = .unversioned
  versionId : ∀ r ∈ db.objects, r.versionId = "null"
  latest : ∀ r ∈ db.objects, r.isLatest = true
  noMarker : ∀ r ∈ db.objects, r.isDeleteMarker = false

/-- The status of a bucket that is there. -/
theorem Db.Unswitched.versioningStatus {db : Db} (h : db.Unswitched) {bucket : String}
    {status : VersioningStatus} (hstatus : versioningStatus bucket db = some status) :
    status = .unversioned := by
  obtain ⟨b, hb, -, rfl⟩ := versioningStatus_bucket hstatus
  exact h.status b hb

/-- Buckets stay. -/
def Stay (w w' : World) : Prop :=
  ∀ bucket, bucketRowExists bucket w.db = true → bucketRowExists bucket w'.db = true

/-- No bucket is versioned, and buckets stay. -/
def unswitching : Sharing World where
  Inv w := w.db.Unswitched
  Moves := Stay
  refl _ _ h := h
  trans h h' bucket hb := h' bucket (h bucket hb)

/-- A request that switches no bucket and deletes none. -/
def StoreRequest.Unswitching : StoreRequest → Prop
  | .op (.setBucketVersioning ..) => False
  | .op (.deleteBucket ..) => False
  | _ => True

/-- A statement that keeps buckets unversioned and there. -/
def Statement.Plain (statement : Statement) : Prop :=
  ∀ now db db', statement now db = .ok db' → db.Unswitched → db'.Unswitched ∧
    ∀ bucket, bucketRowExists bucket db = true → bucketRowExists bucket db' = true

/-- A step that keeps buckets unversioned and there. -/
abbrev PlainStep ⦃β : Type⦄ (act : World → β × World) : Prop :=
  SafeWhile unswitching (fun _ => True) act

section Statements

variable {db : Db}

/-- Some of the rows, with other locks at most. -/
theorem Db.Unswitched.rows {objects : List ObjectRow} (h : db.Unswitched)
    (hrows : ∀ r' ∈ objects, ∃ r ∈ db.objects, SameVersion r r' ∧
      (r.isLatest = true → r'.isLatest = true)) : ({ db with objects } : Db).Unswitched where
  status := h.status
  versionId r' hr' := by
    obtain ⟨r, hr, hsame, -⟩ := hrows r' hr'
    exact hsame.versionId_eq.trans (h.versionId r hr)
  latest r' hr' := by
    obtain ⟨r, hr, -, hlatest⟩ := hrows r' hr'
    exact hlatest (h.latest r hr)
  noMarker r' hr' := by
    obtain ⟨r, hr, hsame, -⟩ := hrows r' hr'
    exact hsame.isDeleteMarker_eq.trans (h.noMarker r hr)

theorem plain_updateObjects (p : ObjectRow → Bool) {assign : ObjectRow → ObjectRow}
    (h : ∀ r, SameVersion r (assign r) ∧ (r.isLatest = true → (assign r).isLatest = true)) :
    (updateObjects p assign).Plain := by
  rintro now db _ ⟨⟩ hdb
  refine ⟨hdb.rows fun r' hr' => ?_, fun _ hb => hb⟩
  obtain ⟨r, hr, rfl⟩ := mem_updateRows.mp hr'
  refine ⟨r, hr, ?_⟩
  split
  · exact h r
  · exact ⟨.refl r, fun h => h⟩

theorem plain_deleteObjects (p : ObjectRow → Bool) : (deleteObjects p).Plain := by
  rintro now db _ ⟨⟩ hdb
  exact ⟨hdb.rows fun r hr => ⟨r, (mem_deleteRows.mp hr).1, .refl r, fun h => h⟩, fun _ hb => hb⟩

theorem plain_makeRoom (bucket key : String) : (makeRoom .unversioned bucket key).Plain :=
  plain_deleteObjects _

theorem plain_promoteNewest (P : Platform) (bucket key : String) :
    (promoteNewest P bucket key).Plain := by
  rintro now db _ ⟨⟩ hdb
  refine ⟨hdb.rows fun r' hr' => ?_, fun _ hb => hb⟩
  obtain ⟨r, hr, rfl | rfl⟩ := mem_promoted hr'
  · exact ⟨r', hr, .refl r', fun h => h⟩
  · exact ⟨r, hr, .promote r, fun _ => rfl⟩

theorem plain_insertObject {row : DateTime → ObjectRow}
    (h : ∀ now, (row now).versionId = "null" ∧ (row now).isLatest = true ∧
      (row now).isDeleteMarker = false) : (insertObject row).Plain := by
  intro now db db' hrun hdb
  obtain ⟨-, -, rfl⟩ := insertObject_eq_ok hrun
  refine ⟨⟨hdb.status, fun r hr => ?_, fun r hr => ?_, fun r hr => ?_⟩, fun _ hb => hb⟩
  · rcases mem_insertRow.mp hr with hold | rfl
    · exact hdb.versionId r hold
    · exact (h _).1
  · rcases mem_insertRow.mp hr with hold | rfl
    · exact hdb.latest r hold
    · exact (h _).2.1
  · rcases mem_insertRow.mp hr with hold | rfl
    · exact hdb.noMarker r hold
    · exact (h _).2.2

theorem insertBucket_eq_ok {row : DateTime → BucketRow} {now : DateTime} {db' : Db}
    (h : insertBucket row now db = .ok db') :
    (∀ b ∈ db.buckets, b.name ≠ (row now.seconds).name) ∧
      db' = { db with buckets := insertRow (row now.seconds) db.buckets } := by
  simp only [insertBucket] at h
  split at h
  · cases h
  · rename_i hnew
    cases h
    exact ⟨by simpa using hnew, rfl⟩

theorem plain_insertBucket (bucket : String) (opts : CreateBucketOpts) :
    (insertBucket (bucketRow bucket opts)).Plain := by
  intro now db db' h hdb
  obtain ⟨-, rfl⟩ := insertBucket_eq_ok h
  refine ⟨⟨fun b hb => ?_, hdb.versionId, hdb.latest, hdb.noMarker⟩, fun name hname => ?_⟩
  · rcases mem_insertRow.mp hb with hold | rfl
    · exact hdb.status b hold
    · rfl
  · obtain ⟨b, hb, rfl⟩ := bucketRowExists_iff.mp hname
    exact bucketRowExists_iff.mpr ⟨b, mem_insertRow.mpr (Or.inl hb), rfl⟩

/-- A statement on uploads and parts. -/
theorem plain_of_same {statement : Statement}
    (h : ∀ now db db', statement now db = .ok db' → db'.buckets = db.buckets ∧
      db'.objects = db.objects) : statement.Plain := by
  intro now db db' hrun hdb
  obtain ⟨hbuckets, hobjects⟩ := h now db db' hrun
  refine ⟨⟨?_, ?_, ?_, ?_⟩, fun name hname => ?_⟩
  · exact hbuckets ▸ hdb.status
  · exact hobjects ▸ hdb.versionId
  · exact hobjects ▸ hdb.latest
  · exact hobjects ▸ hdb.noMarker
  · rw [bucketRowExists, hbuckets]
    exact hname

theorem plain_runStatements {statements : List Statement}
    (h : ∀ statement ∈ statements, statement.Plain) (now : DateTime) {db : Db}
    (hdb : db.Unswitched) : (runStatements statements now db).2.Unswitched ∧
      ∀ bucket, bucketRowExists bucket db = true →
        bucketRowExists bucket (runStatements statements now db).2 = true := by
  induction statements generalizing db with
  | nil => exact ⟨hdb, fun _ hb => hb⟩
  | cons statement rest ih =>
      cases hrun : statement now db with
      | error e =>
          rw [runStatements_cons_error hrun]
          exact ⟨hdb, fun _ hb => hb⟩
      | ok db' =>
          rw [runStatements_cons_ok hrun]
          obtain ⟨hdb', hstay⟩ := h statement List.mem_cons_self now db db' hrun hdb
          obtain ⟨hrest, hstay'⟩ := ih (fun s hs => h s (List.mem_cons_of_mem _ hs)) hdb'
          exact ⟨hrest, fun bucket hb => hstay' bucket (hstay bucket hb)⟩

theorem plain_execute {statements : List Statement}
    (h : ∀ statement ∈ statements, statement.Plain) : Only PlainStep (execute statements) :=
  only_perform fun w hw _ => by
    obtain ⟨hdb, hstay⟩ := plain_runStatements h w.now hw
    exact ⟨hdb, hstay⟩

theorem plain_call {statements : List Statement}
    (h : ∀ statement ∈ statements, statement.Plain) : Only PlainStep (call statements) :=
  (plain_execute h).bind fun _ => only_lift _

theorem plain_quiet {α : Type} {p : StoreProg α} (h : Only Quiet p) : Only PlainStep p :=
  h.mono fun _ act hact w hw _ => by
    have hdb := (hact w).1
    exact ⟨show (act w).2.db.Unswitched from hdb ▸ hw, fun _ hb => hdb ▸ hb⟩

/-- A row without its lock columns. -/
def ObjectRow.unlocked (r : ObjectRow) : ObjectRow :=
  { r with retentionMode := none, retainUntilDate := none, legalHold := false }

/-- **A step beside the objects**: it changes lock columns at most. -/
structure StepsBeside ⦃β : Type⦄ (act : World → β × World) : Prop where
  plain : PlainStep act
  buckets : ∀ w, (act w).2.db.buckets = w.db.buckets
  objects : ∀ w, w.db.Unswitched →
    (act w).2.db.objects.map ObjectRow.unlocked = w.db.objects.map ObjectRow.unlocked

theorem stepsBeside_of_quiet {α : Type} {p : StoreProg α} (h : Only Quiet p) :
    Only StepsBeside p := by
  refine h.mono fun _ act hact => ⟨fun w hw _ => ?_, fun w => ?_, fun w _ => ?_⟩
  · have hdb := (hact w).1
    exact ⟨show (act w).2.db.Unswitched from hdb ▸ hw, fun _ hb => hdb ▸ hb⟩
  · rw [(hact w).1]
  · rw [(hact w).1]

/-- A statement beside the objects. -/
structure Statement.StepsBeside (statement : Statement) : Prop where
  plain : statement.Plain
  buckets : ∀ now db db', statement now db = .ok db' → db'.buckets = db.buckets
  objects : ∀ now db db', statement now db = .ok db' → db.Unswitched →
    db'.objects.map ObjectRow.unlocked = db.objects.map ObjectRow.unlocked

theorem stepsBeside_call {statements : List Statement}
    (h : ∀ statement ∈ statements, statement.StepsBeside) : Only StepsBeside (call statements) := by
  have hrun : ∀ now db, (runStatements statements now db).2.buckets = db.buckets ∧
      (db.Unswitched → (runStatements statements now db).2.objects.map ObjectRow.unlocked =
        db.objects.map ObjectRow.unlocked) := by
    intro now
    induction statements with
    | nil => exact fun db => ⟨rfl, fun _ => rfl⟩
    | cons statement rest ih =>
        intro db
        cases hstep : statement now db with
        | error e =>
            rw [runStatements_cons_error hstep]
            exact ⟨rfl, fun _ => rfl⟩
        | ok db' =>
            rw [runStatements_cons_ok hstep]
            have hbeside := h statement List.mem_cons_self
            obtain ⟨hbuckets, hobjects⟩ := ih (fun s hs => h s (List.mem_cons_of_mem _ hs)) db'
            refine ⟨hbuckets.trans (hbeside.buckets now db db' hstep), fun hdb => ?_⟩
            exact (hobjects (hbeside.plain now db db' hstep hdb).1).trans
              (hbeside.objects now db db' hstep hdb)
  refine (only_perform ⟨fun w hw _ => ?_, fun w => ?_, fun w hw => ?_⟩).bind fun _ => only_lift _
  · obtain ⟨hdb, hstay⟩ := plain_runStatements (fun s hs => (h s hs).plain) w.now hw
    exact ⟨hdb, hstay⟩
  · exact (hrun w.now w.db).1
  · exact (hrun w.now w.db).2 hw

/-- A statement on uploads and parts. -/
theorem stepsBeside_of_same {statement : Statement}
    (h : ∀ now db db', statement now db = .ok db' → db'.buckets = db.buckets ∧
      db'.objects = db.objects) : statement.StepsBeside where
  plain := plain_of_same h
  buckets now db db' hrun := (h now db db' hrun).1
  objects now db db' hrun _ := by rw [(h now db db' hrun).2]

theorem stepsBeside_deleteParts (p : PartRow → Bool) : (deleteParts p).StepsBeside := by
  refine stepsBeside_of_same fun now db db' h => ?_
  cases h
  exact ⟨rfl, rfl⟩

theorem stepsBeside_deleteUpload (uploadId : String) : (deleteUpload uploadId).StepsBeside := by
  refine stepsBeside_of_same fun now db db' h => ?_
  cases h
  exact ⟨rfl, rfl⟩

theorem stepsBeside_insertUpload (row : DateTime → UploadRow) : (insertUpload row).StepsBeside := by
  refine stepsBeside_of_same fun now db db' h => ?_
  simp only [insertUpload] at h
  split at h
  · cases h
  · split at h
    · cases h
      exact ⟨rfl, rfl⟩
    · cases h

theorem stepsBeside_insertPart (row : DateTime → PartRow) : (insertPart row).StepsBeside := by
  refine stepsBeside_of_same fun now db db' h => ?_
  simp only [insertPart] at h
  split at h
  · cases h
  · split at h
    · cases h
      exact ⟨rfl, rfl⟩
    · cases h

theorem stepsBeside_locks (bucket key : String) (versionId : Option String)
    {assign : ObjectRow → ObjectRow} (h : LockAssign assign) :
    Only StepsBeside (call [updateObjects (addressed bucket key versionId) assign]) := by
  refine stepsBeside_call fun statement hs => ?_
  obtain rfl := List.mem_singleton.mp hs
  refine ⟨plain_updateObjects _ fun r => ⟨h.sameVersion r, fun hlatest => ?_⟩, ?_, ?_⟩
  · rw [h.isLatest, hlatest]
  · rintro now db _ ⟨⟩
    rfl
  · rintro now db _ ⟨⟩ -
    show (updateRows _ _ _).map _ = _
    rw [updateRows, List.map_map]
    refine List.map_congr_left fun r _ => ?_
    show ObjectRow.unlocked (if _ then _ else _) = _
    split
    · cases h <;> rfl
    · rfl

/-- Where all rows are latest, flagging one changes nothing. -/
theorem stepsBeside_promoteNewest (P : Platform) (bucket key : String) :
    (promoteNewest P bucket key).StepsBeside := by
  refine ⟨plain_promoteNewest P bucket key, ?_, ?_⟩
  · rintro now db _ ⟨⟩
    rfl
  · rintro now db _ ⟨⟩ hdb
    show (promoted P bucket key db.objects).map _ = _
    unfold promoted
    split
    · rfl
    · rw [updateRows, List.map_map]
      refine List.map_congr_left fun r hr => ?_
      show ObjectRow.unlocked (if _ then _ else _) = _
      split
      · simp only [ObjectRow.promote, ← hdb.latest r hr]
      · rfl

end Statements

/-! ## Every call keeps them so -/

section Keeps

variable {P : Platform} {α β : Type} {w : World}

/-- Plain steps come first. -/
theorem keeps_bind {p : StoreProg α} {f : α → StoreProg β} (hp : Only PlainStep p)
    (hf : ∀ a w, (f a).Keeps unswitching w) : (p >>= f).Keeps unswitching w := by
  induction p generalizing w with
  | done a => exact hf a w
  | fail e => trivial
  | step act next ih =>
      intro w' hmoves hinv
      exact ⟨hp.1 w' hinv trivial, ih _ (hp.2 _)⟩

theorem keeps_of_plain {p : StoreProg α} (hp : Only PlainStep p) : p.Keeps unswitching w :=
  hp.keeps (fun _ _ _ h => h) trivial

/-- What the status of a bucket can be. -/
theorem keeps_status {bucket : String} {e : Error} {f : VersioningStatus → StoreProg β}
    (hf : Only PlainStep (f .unversioned)) :
    (query (versioningStatus bucket) >>= fun selected => require selected e >>= f).Keeps
      unswitching w := by
  intro w' hmoves hinv
  refine ⟨⟨hinv, fun _ hb => hb⟩, ?_⟩
  refine Keeps.require_bind fun status hstatus => ?_
  obtain rfl := Db.Unswitched.versioningStatus hinv hstatus
  exact keeps_of_plain hf

/-- The closure of a writer. -/
theorem plain_writes {bucket key : String} {row : DateTime → ObjectRow} {rest : List Statement}
    (hrow : ∀ now, (row now).versionId = "null" ∧ (row now).isLatest = true ∧
      (row now).isDeleteMarker = false) (hrest : ∀ statement ∈ rest, statement.Plain) :
    Only PlainStep (call (makeRoom .unversioned bucket key :: insertObject row :: rest)) := by
  refine plain_call fun statement hs => ?_
  rcases List.mem_cons.mp hs with rfl | hs
  · exact plain_makeRoom bucket key
  · rcases List.mem_cons.mp hs with rfl | hs
    · exact plain_insertObject hrow
    · exact hrest statement hs

theorem putObject_keeps (bucket key : String) (body : ObjectBody) (opts : PutObjectOpts) :
    (program P (.putObject bucket key body opts)).Keeps unswitching w := by
  simp only [program, replying, putObject, Prog.bind_assoc]
  refine keeps_status ((plain_quiet (quiet_of_still still_draw)).bind fun n => ?_)
  refine (only_lift _).bind fun _ => (only_lift _).bind fun _ => ?_
  refine (plain_quiet (quiet_sealContent _ _ _ _ _ _)).bind fun _ => ?_
  refine (plain_quiet (quiet_writeBlob _ _)).bind fun _ => Only.bind ?_ fun _ => only_pure _
  exact plain_writes (fun _ => ⟨rfl, rfl, rfl⟩) fun _ hs => absurd hs List.not_mem_nil

theorem copyObject_keeps (srcBucket srcKey dstBucket dstKey : String) (opts : CopyObjectOpts) :
    (program P (.copyObject srcBucket srcKey dstBucket dstKey opts)).Keeps unswitching w := by
  simp only [program, replying, copyObject, Prog.bind_assoc]
  refine keeps_bind (plain_quiet (quiet_headObject _ _)) fun srcInfo w => ?_
  refine keeps_bind (plain_quiet (quiet_query _)) fun _ w => ?_
  refine keeps_bind (only_require _ _) fun src w => ?_
  refine keeps_status ((plain_quiet (quiet_of_still still_draw)).bind fun n => ?_)
  refine (plain_quiet (quiet_copyBlob _ _ _ _ _ _ _ _)).bind fun _ => ?_
  refine (plain_quiet quiet_clock).bind fun _ => Only.bind ?_ fun _ => only_pure _
  exact plain_writes (fun _ => ⟨rfl, rfl, rfl⟩) fun _ hs => absurd hs List.not_mem_nil

theorem completeMultipartUpload_keeps (upload : MultipartUpload) (parts : List CompletePart) :
    (program P (.completeMultipartUpload upload parts)).Keeps unswitching w := by
  simp only [program, replying, completeMultipartUpload, Prog.bind_assoc]
  refine keeps_bind (only_ensure _ _) fun _ w => ?_
  refine keeps_bind (plain_quiet (quiet_query _)) fun _ w => ?_
  refine keeps_bind (only_require _ _) fun uploadMeta w => ?_
  refine keeps_status ((plain_quiet (quiet_query _)).bind fun _ => ?_)
  refine (only_lift _).bind fun _ => (plain_quiet (quiet_of_still still_draw)).bind fun _ => ?_
  refine (plain_quiet (quiet_readParts _ _)).bind fun _ => ?_
  refine (plain_quiet (quiet_sealUpload _ _ _)).bind fun _ => ?_
  refine (plain_quiet (quiet_writeBlob _ _)).bind fun _ => Only.bind ?_ fun _ => ?_
  · refine plain_writes (fun _ => ⟨rfl, rfl, rfl⟩) fun statement hs => ?_
    rcases List.mem_pair.mp hs with rfl | rfl
    · exact (stepsBeside_deleteParts _).plain
    · exact (stepsBeside_deleteUpload _).plain
  · exact (plain_quiet (quiet_removeUploadDir _)).bind fun _ => only_pure _

/-- A hard delete looks up, deletes and removes. -/
theorem plain_hardDelete (bucket key : String) (versionId : Option String) :
    Only PlainStep (hardDelete P bucket key versionId) := by
  have hdelete : ∀ p, Only PlainStep (call [deleteObjects p]) := by
    refine fun p => plain_call fun statement hs => ?_
    obtain rfl := List.mem_singleton.mp hs
    exact plain_deleteObjects p
  cases versionId with
  | some vid =>
      refine (plain_quiet (quiet_query _)).bind fun _ => (hdelete _).bind fun _ => ?_
      refine (plain_quiet (quiet_removeBlobs _)).bind fun _ => Only.bind ?_ fun _ => only_pure _
      refine plain_call fun statement hs => ?_
      obtain rfl := List.mem_singleton.mp hs
      exact plain_promoteNewest P bucket key
  | none =>
      refine (plain_quiet (quiet_query _)).bind fun _ => (hdelete _).bind fun _ => ?_
      exact (plain_quiet (quiet_removeBlobs _)).bind fun _ => only_pure _

theorem deleteObjectVersion_keeps (bucket key : String) (versionId : Option String)
    {f : DeleteObjectResponse → StoreProg β} (hf : ∀ response, Only PlainStep (f response)) :
    (deleteObjectVersion P bucket key versionId >>= f).Keeps unswitching w := by
  simp only [deleteObjectVersion, Prog.bind_assoc]
  refine keeps_status ((plain_quiet (quiet_objectDeleteLocked _ _ _)).bind fun _ => ?_)
  refine (only_ensure _ _).bind fun _ => ?_
  cases versionId with
  | some vid => exact (plain_hardDelete (P := P) bucket key (some vid)).bind hf
  | none =>
      simp only [if_true]
      exact (plain_hardDelete (P := P) bucket key none).bind hf

theorem quiet_createUploadDir (uploadId : String) : Only Quiet (createUploadDir uploadId) :=
  only_perform fun _ => ⟨rfl, Nat.le_refl _, rfl⟩

theorem quiet_openPart (uploadId : String) (partNumber inode : Nat) :
    Only Quiet (openPart uploadId partNumber inode) := by
  refine only_perform fun w => ?_
  cases w.files.multipart uploadId <;> exact ⟨rfl, Nat.le_refl _, rfl⟩

theorem quiet_writeChunks (uploadId : String) (partNumber inode : Nat) (written : Bytes)
    (body : ObjectBody) : Only Quiet (writeChunks uploadId partNumber inode written body) := by
  induction body generalizing written with
  | nil => exact only_pure _
  | cons chunk rest ih =>
      cases chunk with
      | error e => exact only_fail _
      | ok chunk =>
          refine Only.bind (only_perform fun w => ?_) fun _ => ih _
          cases hfile : w.files.part uploadId partNumber with
          | none => simp only [hfile, and_self, Nat.le_refl]
          | some file =>
              simp only [hfile]
              split <;> exact ⟨rfl, Nat.le_refl _, rfl⟩

theorem stepsBeside_createMultipartUpload (bucket key : String) (opts : PutObjectOpts) :
    Only StepsBeside (createMultipartUpload P bucket key opts) := by
  refine (stepsBeside_of_quiet (quiet_query _)).bind fun _ => (only_ensure _ _).bind fun _ => ?_
  refine (stepsBeside_of_quiet (quiet_of_still still_draw)).bind fun _ => ?_
  refine (stepsBeside_of_quiet quiet_clock).bind fun _ => ?_
  refine (stepsBeside_of_quiet (quiet_createUploadDir _)).bind fun _ => ?_
  refine (stepsBeside_call fun statement hs => ?_).bind fun _ => only_pure _
  obtain rfl := List.mem_singleton.mp hs
  exact stepsBeside_insertUpload _

theorem stepsBeside_uploadPart (upload : MultipartUpload) (partNumber : Nat) (body : ObjectBody) :
    Only StepsBeside (uploadPart P upload partNumber body) := by
  refine (only_ensure _ _).bind fun _ => (stepsBeside_of_quiet (quiet_query _)).bind fun _ => ?_
  refine (only_ensure _ _).bind fun _ => (stepsBeside_of_quiet (quiet_of_still still_draw)).bind ?_
  refine fun n => (stepsBeside_of_quiet (quiet_createUploadDir _)).bind fun _ => ?_
  refine (stepsBeside_of_quiet (quiet_openPart _ _ _)).bind fun _ => ?_
  refine (only_require _ _).bind fun _ => ?_
  refine (stepsBeside_of_quiet (quiet_writeChunks _ _ _ _ _)).bind fun _ => ?_
  refine (stepsBeside_of_quiet quiet_clock).bind fun _ => ?_
  refine (stepsBeside_call fun statement hs => ?_).bind fun _ => only_pure _
  rcases List.mem_pair.mp hs with rfl | rfl
  · exact stepsBeside_deleteParts _
  · exact stepsBeside_insertPart _

/-- An upload's rows go. -/
theorem stepsBeside_closesUpload (uploadId : String) :
    Only StepsBeside (call [deleteParts (·.uploadId == uploadId), deleteUpload uploadId]) := by
  refine stepsBeside_call fun statement hs => ?_
  rcases List.mem_pair.mp hs with rfl | rfl
  · exact stepsBeside_deleteParts _
  · exact stepsBeside_deleteUpload _

/-- A call that changes uploads, locks or the clock. -/
def Op.BesideObjects : Op → Prop
  | .createMultipartUpload .. | .uploadPart .. | .abortMultipartUpload .. => True
  | .abortStaleMultipart .. | .putObjectRetention .. | .putObjectLegalHold .. | .tick .. => True
  | _ => False

/-- **A call beside the objects** takes steps beside them. -/
theorem stepsBeside_program {op : Op} (h : op.BesideObjects) : Only StepsBeside (program P op) := by
  have hquery : ∀ {γ : Type} (read : Db → γ), Only StepsBeside (query read) :=
    fun read => stepsBeside_of_quiet (quiet_query read)
  cases op with
  | createMultipartUpload bucket key opts =>
      exact (stepsBeside_createMultipartUpload bucket key opts).bind fun _ => only_pure _
  | uploadPart upload partNumber body =>
      exact (stepsBeside_uploadPart upload partNumber body).bind fun _ => only_pure _
  | abortMultipartUpload upload =>
      refine Only.bind ?_ fun _ => only_pure _
      refine (hquery _).bind fun _ => (only_ensure _ _).bind fun _ => ?_
      refine (stepsBeside_closesUpload _).bind fun _ => ?_
      exact stepsBeside_of_quiet (quiet_removeUploadDir _)
  | abortStaleMultipart uploadId =>
      refine Only.bind ?_ fun _ => only_pure _
      refine (stepsBeside_of_quiet (quiet_removeUploadDir _)).bind fun _ => ?_
      exact stepsBeside_closesUpload _
  | putObjectRetention bucket key versionId retention bypassGovernance =>
      refine Only.bind ?_ fun _ => only_pure _
      refine (hquery _).bind fun _ => (only_ensure _ _).bind fun _ => ?_
      refine (hquery _).bind fun _ => (only_ensure _ _).bind fun _ => ?_
      exact stepsBeside_locks bucket key versionId (.retain retention)
  | putObjectLegalHold bucket key versionId status =>
      refine Only.bind ?_ fun _ => only_pure _
      refine (hquery _).bind fun _ => (only_ensure _ _).bind fun _ => ?_
      exact stepsBeside_locks bucket key versionId (.hold status)
  | tick nanoseconds =>
      refine Only.bind (only_perform ⟨fun w hw _ => ⟨hw, fun _ hb => hb⟩, fun _ => rfl,
        fun _ _ => rfl⟩) fun _ => only_pure _
  | _ => exact h.elim

/-- **Without switches every bucket stays unversioned**, whatever runs beside. -/
theorem requestProgram_keeps {request : StoreRequest} (h : request.Unswitching) :
    (requestProgram P request).Keeps unswitching w := by
  have hbeside : ∀ op : Op, op.BesideObjects →
      (requestProgram P (.op op)).Keeps unswitching w := fun op hop =>
    keeps_of_plain (((stepsBeside_program hop).mono fun _ _ h => h.plain).bind fun _ => only_pure _)
  cases request with
  | get bucket key opts =>
      exact keeps_of_plain ((plain_quiet (quiet_of_still (still_getObject bucket key opts))).bind
        fun _ => only_pure _)
  | head bucket key =>
      exact keeps_of_plain ((plain_quiet (quiet_headObject bucket key)).bind fun _ => only_pure _)
  | op op =>
      cases op with
      | createBucket bucket opts =>
          refine keeps_of_plain (Only.bind (Only.bind ?_ fun _ => only_pure _) fun _ => only_pure _)
          refine (only_lift _).bind fun _ => (plain_execute fun statement hs => ?_).bind
            fun _ => only_lift _
          obtain rfl := List.mem_singleton.mp hs
          exact plain_insertBucket bucket opts
      | putObject bucket key body opts => exact (putObject_keeps bucket key body opts).wrap _
      | copyObject srcBucket srcKey dstBucket dstKey opts =>
          exact (copyObject_keeps srcBucket srcKey dstBucket dstKey opts).wrap _
      | completeMultipartUpload upload parts =>
          exact (completeMultipartUpload_keeps upload parts).wrap _
      | deleteObject bucket key =>
          have hkeeps := deleteObjectVersion_keeps (P := P) (w := w) bucket key none
            (f := fun _ => done ()) fun _ => only_pure _
          exact (hkeeps.wrap _).wrap _
      | deleteObjectVersion bucket key versionId =>
          have hkeeps := deleteObjectVersion_keeps (P := P) (w := w) bucket key versionId
            (f := fun response => done (Reply.deleted response)) fun _ => only_pure _
          exact hkeeps.wrap _
      | setBucketVersioning bucket enabled => exact h.elim
      | deleteBucket bucket => exact h.elim
      | _ => exact hbeside _ trivial

end Keeps

end Strix
