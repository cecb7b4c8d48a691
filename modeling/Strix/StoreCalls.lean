import Strix.Interleaving
import Strix.StoreMachine

/-!
# Calls that run side by side

Every call of the store as a program of its own, and the pool in which any
number of them interleave: one database closure or one file operation is one
step, and the clock may move on at any time.

Most steps are quiet: they leave the tables and the clock alone.  What the
writers do otherwise is one draw of an id and one closure that inserts.

* `step_eq_run`: a call that nothing interrupts is a step of the store;
* `putObject_staged`, `copyObject_staged` and `completeMultipartUpload_staged`:
  a writer keeps to an automaton if its draw and its closure do.
-/

namespace Strix

open AtomicProgram AtomicProgram.Prog MachineRuns RowTable

/-- A program with its value wrapped as a reply. -/
def replying {α : Type} (wrap : α → Reply) (p : StoreProg α) : StoreProg Reply :=
  p >>= fun a => done (wrap a)

/-- The clock moves on. -/
def tickWorld (nanoseconds : Nat) (w : World) : World := { w with now := w.now + nanoseconds }

variable (P : Platform)

/-- The program of a call. -/
def program : Op → StoreProg Reply
  | .createBucket bucket opts => replying (fun _ => .done) (createBucket bucket opts)
  | .deleteBucket bucket => replying (fun _ => .done) (deleteBucket bucket)
  | .setBucketVersioning bucket enabled =>
      replying (fun _ => .done) (setBucketVersioning bucket enabled)
  | .putObject bucket key body opts => replying .put (putObject P bucket key body opts)
  | .copyObject srcBucket srcKey dstBucket dstKey opts =>
      replying .copied (copyObject P srcBucket srcKey dstBucket dstKey opts)
  | .deleteObject bucket key => replying (fun _ => .done) (deleteObject P bucket key)
  | .deleteObjectVersion bucket key versionId =>
      replying .deleted (deleteObjectVersion P bucket key versionId)
  | .createMultipartUpload bucket key opts =>
      replying .upload (createMultipartUpload P bucket key opts)
  | .uploadPart upload partNumber body => replying .part (uploadPart P upload partNumber body)
  | .completeMultipartUpload upload parts =>
      replying .put (completeMultipartUpload P upload parts)
  | .abortMultipartUpload upload => replying (fun _ => .done) (abortMultipartUpload upload)
  | .abortStaleMultipart uploadId => replying (fun _ => .done) (abortStaleMultipart uploadId)
  | .putObjectRetention bucket key versionId retention bypassGovernance =>
      replying (fun _ => .done)
        (putObjectRetention bucket key versionId retention bypassGovernance)
  | .putObjectLegalHold bucket key versionId status =>
      replying (fun _ => .done) (putObjectLegalHold bucket key versionId status)
  | .tick nanoseconds => replying (fun _ => .done) (update (tickWorld nanoseconds))

theorem run_replying {α : Type} (wrap : α → Reply) (p : StoreProg α) (w : World) :
    (replying wrap p).run w = answering wrap (p.run w) := by
  rw [replying, run_bind]
  rcases p.run w with ⟨_ | _, w'⟩ <;> rfl

/-- **A call that nothing interrupts** is a step of the store. -/
theorem step_eq_run (w : World) (op : Op) : step P w op = (program P op).run w := by
  cases op with
  | tick nanoseconds => rfl
  | _ => exact (run_replying _ _ w).symm

/-- Calls that start side by side. -/
def callPool (w : World) (ops : List Op) : Pool World Error Reply where
  state := w
  threads := ops.map (program P)

/-- The schedules of these calls. -/
def calls (w : World) (ops : List Op) : Machine (Pool World Error Reply) (Turn Nat) Unit :=
  pool tickWorld (callPool P w ops)

/-- Every call starts in its own stage. -/
theorem callPool_stagedBy {τ : Type} {A : Automaton World τ}
    {At : StoreProg Reply → τ → Prop} {w : World} {ops : List Op} {start : Op → τ}
    (h : ∀ op ∈ ops, (program P op).Staged A At (start op)) :
    (callPool P w ops).StagedBy A At (ops.map start) := by
  rw [Pool.StagedBy, callPool, List.forall₂_map_left_iff, List.forall₂_map_right_iff,
    List.forall₂_same]
  exact h

/-! ## Quiet steps -/

/-- A step that leaves the tables and the clock alone, and only ever draws. -/
def Quiet ⦃β : Type⦄ (act : World → β × World) : Prop :=
  ∀ w, (act w).2.db = w.db ∧ w.draws ≤ (act w).2.draws ∧ (act w).2.now = w.now

/-- A step that leaves the files alone as well. -/
def Still ⦃β : Type⦄ (act : World → β × World) : Prop :=
  Quiet act ∧ ∀ w, (act w).2.files = w.files

section Still

variable {P}

theorem still_query {α : Type} (read : Db → α) : Only Still (query read) :=
  only_perform ⟨fun _ => ⟨rfl, Nat.le_refl _, rfl⟩, fun _ => rfl⟩

theorem still_observe {α : Type} (read : World → α) :
    Only Still (observe read : StoreProg α) :=
  only_perform ⟨fun _ => ⟨rfl, Nat.le_refl _, rfl⟩, fun _ => rfl⟩

theorem still_clock : Only Still clock := still_observe _

theorem still_draw : Only Still draw :=
  only_perform ⟨fun w => ⟨rfl, Nat.le_succ w.draws, rfl⟩, fun _ => rfl⟩

theorem still_readBlob (objectId : String) : Only Still (readBlob objectId) := still_observe _

theorem still_encryptFresh (key : EncryptionKey) (data : Bytes) :
    Only Still (encryptFresh P key data) :=
  still_draw.bind fun _ => only_lift _

theorem still_sealContent (bucket key versionId : String) (sseCKey : Option EncryptionKey)
    (content : Bytes) (algorithm : Option ServerSideEncryption) :
    Only Still (sealContent P bucket key versionId sseCKey content algorithm) := by
  cases algorithm with
  | none => exact only_pure _
  | some algorithm =>
      cases algorithm with
      | aes256 => exact still_encryptFresh _ _
      | sseC => exact (only_require _ _).bind fun _ => still_encryptFresh _ _

theorem still_headObject (bucket key : String) : Only Still (headObject bucket key) := by
  refine (still_query _).bind fun _ => (only_require _ _).bind fun _ => ?_
  exact (only_ensure _ _).bind fun _ => only_pure _

theorem still_readParts (uploadId : String) (parts : List CompletePart) :
    Only Still (readParts uploadId parts) := by
  induction parts with
  | nil => exact only_pure _
  | cons part rest ih =>
      refine (still_observe _).bind fun _ => (only_ensure _ _).bind fun _ => ?_
      refine (still_observe _).bind fun _ => (only_require _ _).bind fun _ => ?_
      exact ih.bind fun _ => only_pure _

theorem still_sealUpload (uploadMeta : UploadRow) (versionId : String) (plaintext : Bytes) :
    Only Still (sealUpload P uploadMeta versionId plaintext) := by
  unfold sealUpload
  cases uploadMeta.encryptionAlgorithm with
  | none => exact only_pure _
  | some algorithm =>
      cases algorithm with
      | aes256 => exact still_encryptFresh _ _
      | sseC => exact only_fail _

theorem still_objectDeleteLocked (bucket key : String) (versionId : Option String) :
    Only Still (objectDeleteLocked bucket key versionId) := by
  refine (still_query _).bind fun _ => still_clock.bind fun _ => ?_
  exact only_pure _

end Still

section Quiet

variable {P}

theorem quiet_of_still {α : Type} {p : StoreProg α} (h : Only Still p) : Only Quiet p :=
  h.mono fun _ _ hact => hact.1

theorem quiet_query {α : Type} (read : Db → α) : Only Quiet (query read) :=
  quiet_of_still (still_query read)

theorem quiet_clock : Only Quiet clock := quiet_of_still still_clock

theorem quiet_draw : Only Quiet draw := quiet_of_still still_draw

theorem quiet_writeBlob (objectId : String) (data : Bytes) :
    Only Quiet (writeBlob objectId data) :=
  only_perform fun _ => ⟨rfl, Nat.le_refl _, rfl⟩

theorem quiet_removeBlob (objectId : String) : Only Quiet (removeBlob objectId) :=
  only_perform fun _ => ⟨rfl, Nat.le_refl _, rfl⟩

theorem quiet_removeBlobs (ids : List String) : Only Quiet (removeBlobs ids) := by
  induction ids with
  | nil => exact only_pure _
  | cons id rest ih => exact (quiet_removeBlob id).bind fun _ => ih

theorem quiet_removeUploadDir (uploadId : String) : Only Quiet (removeUploadDir uploadId) :=
  only_perform fun _ => ⟨rfl, Nat.le_refl _, rfl⟩

theorem quiet_sealContent (bucket key versionId : String) (sseCKey : Option EncryptionKey)
    (content : Bytes) (algorithm : Option ServerSideEncryption) :
    Only Quiet (sealContent P bucket key versionId sseCKey content algorithm) :=
  quiet_of_still (still_sealContent bucket key versionId sseCKey content algorithm)

theorem quiet_headObject (bucket key : String) : Only Quiet (headObject bucket key) :=
  quiet_of_still (still_headObject bucket key)

theorem quiet_copyBlob (src : ObjectRow) (srcBucket srcKey srcVersion dstBucket dstKey versionId
    newObjectId : String) :
    Only Quiet (copyBlob P src srcBucket srcKey srcVersion dstBucket dstKey versionId
      newObjectId) := by
  refine (quiet_of_still (still_readBlob _)).bind fun _ => (only_require _ _).bind fun _ => ?_
  split
  · refine (only_lift _).bind fun _ => (quiet_of_still (still_encryptFresh _ _)).bind fun _ => ?_
    exact quiet_writeBlob _ _
  · exact quiet_writeBlob _ _

theorem quiet_readParts (uploadId : String) (parts : List CompletePart) :
    Only Quiet (readParts uploadId parts) := quiet_of_still (still_readParts uploadId parts)

theorem quiet_sealUpload (uploadMeta : UploadRow) (versionId : String) (plaintext : Bytes) :
    Only Quiet (sealUpload P uploadMeta versionId plaintext) :=
  quiet_of_still (still_sealUpload uploadMeta versionId plaintext)

theorem quiet_objectDeleteLocked (bucket key : String) (versionId : Option String) :
    Only Quiet (objectDeleteLocked bucket key versionId) :=
  quiet_of_still (still_objectDeleteLocked bucket key versionId)

end Quiet

/-! ## Closures -/

/-- The step that runs a closure. -/
def closureStep (statements : List Statement) (w : World) : Except SqlError Unit × World :=
  let outcome := runStatements statements w.now w.db
  (outcome.1, { w with db := outcome.2 })

/-- A thread whose next step is quiet is not before a closure that is not. -/
theorem not_before_of_quiet {β : Type} {c : Pool World Error Reply} {i : Nat}
    {act : World → β × World} {next : β → StoreProg Reply} {statements : List Statement}
    (hthread : c.threads[i]? = some (.step act next)) (hquiet : Quiet act)
    (hloud : ¬ Quiet (closureStep statements)) : ¬ c.Before i (execute statements) := by
  rintro ⟨next', hbefore⟩
  have hsame := Option.some.inj (hthread.symm.trans hbefore)
  cases hsame
  exact hloud hquiet

/-! ## Writers -/

/-- The step that draws. -/
def drawStep (w : World) : Nat × World := (w.draws, { w with draws := w.draws + 1 })

/-- A closure before a program: it goes on where the closure succeeds. -/
theorem staged_call {τ α : Type} {A : Automaton World τ} {At : StoreProg α → τ → Prop}
    {t : τ} {statements : List Statement} {f : Unit → StoreProg α}
    (after : Except SqlError Unit → τ) (hat : At (call statements >>= f) t)
    (hact : A t (closureStep statements) after)
    (hfails : ∀ e, At (fail (dbErr e)) (after (.error e)))
    (hf : Staged A At (f ()) (after (.ok ()))) : Staged A At (call statements >>= f) t := by
  refine ⟨hat, after, hact, fun result => ?_⟩
  cases result with
  | error e => exact hfails e
  | ok _ => exact hf

/-- The statements of a writer's closure. -/
inductive WritesRow (bucket key : String) (row : DateTime → ObjectRow) : List Statement → Prop
  | single (status : VersioningStatus) :
      WritesRow bucket key row [makeRoom status bucket key, insertObject row]
  | multipart (status : VersioningStatus) (uploadId : String) :
      WritesRow bucket key row [makeRoom status bucket key, insertObject row,
        deleteParts (·.uploadId == uploadId), deleteUpload uploadId]

/-- The statements that delete an upload leave the objects alone. -/
theorem deletesUpload_objects (uploadId : String) (now : DateTime) (db : Db) :
    let db' := (runStatements [deleteParts (·.uploadId == uploadId), deleteUpload uploadId] now
      db).2
    db'.buckets = db.buckets ∧ db'.objects = db.objects := ⟨rfl, rfl⟩

/-- A closure that makes room, inserts a row and leaves the objects alone after that:
what it does to the objects. -/
theorem makeRoom_insert_cases {rest : List Statement} {now : DateTime}
    (hrest : ∀ db, (runStatements rest now db).2.buckets = db.buckets ∧
      (runStatements rest now db).2.objects = db.objects)
    (status : VersioningStatus) (bucket key : String) (row : DateTime → ObjectRow) (db : Db) :
    let db' := (runStatements (makeRoom status bucket key :: insertObject row :: rest) now db).2
    db'.buckets = db.buckets ∧ (db'.objects = roomMade status bucket key db.objects ∨
      db'.objects = insertRow (row now.seconds) (roomMade status bucket key db.objects)) := by
  rw [runStatements_cons_ok (makeRoom_ok status bucket key now db)]
  cases hinsert : insertObject row now
      { db with objects := roomMade status bucket key db.objects } with
  | error e =>
      rw [runStatements_cons_error hinsert]
      exact ⟨rfl, Or.inl rfl⟩
  | ok db' =>
      obtain ⟨-, -, rfl⟩ := insertObject_eq_ok hinsert
      rw [runStatements_cons_ok hinsert]
      exact ⟨(hrest _).1, Or.inr (hrest _).2⟩

/-- **What a writer's closure can do** to the objects: make room and insert its
row, or make room only. -/
theorem WritesRow.cases {bucket key : String} {row : DateTime → ObjectRow}
    {statements : List Statement} (h : WritesRow bucket key row statements) (now : DateTime)
    (db : Db) :
    (runStatements statements now db).2.buckets = db.buckets ∧
      ∃ status,
        (runStatements statements now db).2.objects = roomMade status bucket key db.objects ∨
        (runStatements statements now db).2.objects =
          insertRow (row now.seconds) (roomMade status bucket key db.objects) := by
  cases h with
  | single status =>
      have hnil : ∀ db, (runStatements [] now db).2.buckets = db.buckets ∧
          (runStatements [] now db).2.objects = db.objects := fun _ => ⟨rfl, rfl⟩
      obtain ⟨hbuckets, hobjects⟩ := makeRoom_insert_cases hnil status bucket key row db
      exact ⟨hbuckets, status, hobjects⟩
  | multipart status uploadId =>
      have hclean := fun db => deletesUpload_objects uploadId now db
      obtain ⟨hbuckets, hobjects⟩ := makeRoom_insert_cases hclean status bucket key row db
      exact ⟨hbuckets, status, hobjects⟩

/-- In an empty bucket it inserts its row. -/
theorem WritesRow.not_quiet {bucket key : String} {row : DateTime → ObjectRow}
    {statements : List Statement} (h : WritesRow bucket key row statements) :
    ¬ Quiet (closureStep statements) := by
  intro hquiet
  let db : Db := { buckets := [bucketRow (row (DateTime.seconds 0)).bucket {} 0] }
  have hroom : ∀ status, roomMade status bucket key db.objects = [] := by
    intro status
    unfold roomMade
    split <;> rfl
  have hinsert : ∀ status, insertObject row 0
      { db with objects := roomMade status bucket key db.objects } =
        .ok { db with objects := [row (DateTime.seconds 0)] } := by
    intro status
    rw [hroom]
    exact insertObject_ok (fun r hr => nomatch hr) ⟨_, List.mem_singleton_self _, rfl⟩
  have hobjects : (runStatements statements 0 db).2.objects = [row (DateTime.seconds 0)] := by
    cases h with
    | single status =>
        rw [runStatements_cons_ok (makeRoom_ok status bucket key 0 db),
          runStatements_cons_ok (hinsert status)]
        rfl
    | multipart status uploadId =>
        rw [runStatements_cons_ok (makeRoom_ok status bucket key 0 db),
          runStatements_cons_ok (hinsert status)]
        rfl
  have hsame : (runStatements statements 0 db).2 = db := (hquiet { db }).1
  rw [hsame] at hobjects
  cases hobjects

/-- The row that a writer inserts under the id of its draw. -/
structure DrawnRow (bucket key : String) (n : Nat) (row : DateTime → ObjectRow) : Prop where
  bucket_eq : ∀ now, (row now).bucket = bucket
  key_eq : ∀ now, (row now).key = key
  id_eq : ∀ now, (row now).id = P.ulid n
  unlocked : ∀ now, (row now).retentionMode = none ∧ (row now).retainUntilDate = none ∧
    (row now).legalHold = false

/-- An automaton under which a writer prepares: it is quiet and may fail, before
its draw and after it. -/
structure Prepares {τ : Type} (A : Automaton World τ) (At : StoreProg Reply → τ → Prop)
    (idle : τ) (drawn : Nat → τ) : Prop where
  idle_quiet : ∀ ⦃β : Type⦄ (act : World → β × World), Quiet act → A idle act fun _ => idle
  idle_free : Free At idle
  draws : A idle drawStep drawn
  drawn_quiet : ∀ n ⦃β : Type⦄ (act : World → β × World), Quiet act →
    A (drawn n) act fun _ => drawn n
  drawn_free : ∀ n, Free At (drawn n)

/-- A stage in which everything quiet is allowed, draws included. -/
theorem Prepares.of_quiet {τ : Type} {A : Automaton World τ}
    {At : StoreProg Reply → τ → Prop} {t : τ}
    (hquiet : ∀ ⦃β : Type⦄ (act : World → β × World), Quiet act → A t act fun _ => t)
    (hfree : Free At t) : Prepares A At t fun _ => t where
  idle_quiet := hquiet
  idle_free := hfree
  draws := hquiet drawStep fun w => ⟨rfl, Nat.le_succ w.draws, rfl⟩
  drawn_quiet _ := hquiet
  drawn_free _ := hfree

section Writers

variable {P} {τ : Type} {A : Automaton World τ} {At : StoreProg Reply → τ → Prop}
  {idle : τ} {drawn : Nat → τ}

theorem putObject_staged (h : Prepares A At idle drawn) (bucket key : String)
    (body : ObjectBody) (opts : PutObjectOpts)
    (hcloses : ∀ n status row response, DrawnRow P bucket key n row →
      Staged A At (call [makeRoom status bucket key, insertObject row] >>=
        fun _ => done (.put response)) (drawn n)) :
    Staged A At (program P (.putObject bucket key body opts)) idle := by
  simp only [program, replying, putObject, Prog.bind_assoc]
  refine (quiet_query _).staged_bind h.idle_quiet h.idle_free fun _ => ?_
  refine (only_require _ _).staged_bind h.idle_quiet h.idle_free fun status => ?_
  refine staged_perform_bind drawn (h.idle_free.runs _ _) h.draws fun n => ?_
  refine (only_lift _).staged_bind (h.drawn_quiet n) (h.drawn_free n) fun _ => ?_
  refine (only_lift _).staged_bind (h.drawn_quiet n) (h.drawn_free n) fun _ => ?_
  refine (quiet_sealContent _ _ _ _ _ _).staged_bind (h.drawn_quiet n) (h.drawn_free n)
    fun _ => ?_
  refine (quiet_writeBlob _ _).staged_bind (h.drawn_quiet n) (h.drawn_free n) fun _ => ?_
  exact hcloses n status _ _ ⟨fun _ => rfl, fun _ => rfl, fun _ => rfl, fun _ => ⟨rfl, rfl, rfl⟩⟩

theorem copyObject_staged (h : Prepares A At idle drawn)
    (srcBucket srcKey dstBucket dstKey : String) (opts : CopyObjectOpts)
    (hcloses : ∀ n status row response, DrawnRow P dstBucket dstKey n row →
      Staged A At (call [makeRoom status dstBucket dstKey, insertObject row] >>=
        fun _ => done (.copied response)) (drawn n)) :
    Staged A At (program P (.copyObject srcBucket srcKey dstBucket dstKey opts)) idle := by
  simp only [program, replying, copyObject, Prog.bind_assoc]
  refine (quiet_headObject _ _).staged_bind h.idle_quiet h.idle_free fun _ => ?_
  refine (quiet_query _).staged_bind h.idle_quiet h.idle_free fun _ => ?_
  refine (only_require _ _).staged_bind h.idle_quiet h.idle_free fun _ => ?_
  refine (quiet_query _).staged_bind h.idle_quiet h.idle_free fun _ => ?_
  refine (only_require _ _).staged_bind h.idle_quiet h.idle_free fun status => ?_
  refine staged_perform_bind drawn (h.idle_free.runs _ _) h.draws fun n => ?_
  refine (quiet_copyBlob _ _ _ _ _ _ _ _).staged_bind (h.drawn_quiet n) (h.drawn_free n)
    fun _ => ?_
  refine quiet_clock.staged_bind (h.drawn_quiet n) (h.drawn_free n) fun _ => ?_
  exact hcloses n status _ _ ⟨fun _ => rfl, fun _ => rfl, fun _ => rfl, fun _ => ⟨rfl, rfl, rfl⟩⟩

theorem completeMultipartUpload_staged (h : Prepares A At idle drawn)
    (upload : MultipartUpload) (parts : List CompletePart)
    (hcloses : ∀ n status bucket key row response, DrawnRow P bucket key n row →
      Staged A At (call [makeRoom status bucket key, insertObject row,
          deleteParts (·.uploadId == upload.uploadId), deleteUpload upload.uploadId] >>=
        fun _ => removeUploadDir upload.uploadId >>= fun _ => done (.put response)) (drawn n)) :
    Staged A At (program P (.completeMultipartUpload upload parts)) idle := by
  simp only [program, replying, completeMultipartUpload, Prog.bind_assoc]
  refine (only_ensure _ _).staged_bind h.idle_quiet h.idle_free fun _ => ?_
  refine (quiet_query _).staged_bind h.idle_quiet h.idle_free fun _ => ?_
  refine (only_require _ _).staged_bind h.idle_quiet h.idle_free fun uploadMeta => ?_
  refine (quiet_query _).staged_bind h.idle_quiet h.idle_free fun _ => ?_
  refine (only_require _ _).staged_bind h.idle_quiet h.idle_free fun status => ?_
  refine (quiet_query _).staged_bind h.idle_quiet h.idle_free fun _ => ?_
  refine (only_lift _).staged_bind h.idle_quiet h.idle_free fun _ => ?_
  refine staged_perform_bind drawn (h.idle_free.runs _ _) h.draws fun n => ?_
  refine (quiet_readParts _ _).staged_bind (h.drawn_quiet n) (h.drawn_free n) fun _ => ?_
  refine (quiet_sealUpload _ _ _).staged_bind (h.drawn_quiet n) (h.drawn_free n) fun _ => ?_
  refine (quiet_writeBlob _ _).staged_bind (h.drawn_quiet n) (h.drawn_free n) fun _ => ?_
  exact hcloses n status uploadMeta.bucket uploadMeta.key _ _
    ⟨fun _ => rfl, fun _ => rfl, fun _ => rfl, fun _ => ⟨rfl, rfl, rfl⟩⟩

end Writers

end Strix
