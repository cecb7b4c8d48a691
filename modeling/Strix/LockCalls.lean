import Strix.StoreCalls
import Strix.StoreInvariant

/-!
# Lock calls, deletes and puts, step by step

A lock call checks and then updates; a delete reads the lock state of the row it
addresses, reads the clock, looks its ids up and deletes.  Each is a step of its
own, and other calls run in between.

`LockSteps` is the automaton of these calls.  Its stages say what a call knows
when it goes on: the draw it holds, the status of its bucket, the lock state it
has seen, the rows it is cleared to delete.

* `deleteObjectVersion_lockStaged`, `putObjectRetention_lockStaged`,
  `putObjectLegalHold_lockStaged` and `putObject_lockStaged`: the calls keep to it;
* `DrawsApart.closure`: the ids that calls hold are of no row, and no two hold
  the same, whatever a closure inserts.
-/

namespace Strix

open AtomicProgram AtomicProgram.Prog MachineRuns RowTable

/-! ## Assignments of the lock calls -/

/-- The assignment of `put_object_retention`. -/
def ObjectRow.retain (retention : ObjectRetention) (r : ObjectRow) : ObjectRow :=
  { r with
    retentionMode := some retention.mode
    retainUntilDate := some retention.retainUntilDate }

/-- The assignment of `put_object_legal_hold`. -/
def ObjectRow.hold (status : LegalHoldStatus) (r : ObjectRow) : ObjectRow :=
  { r with legalHold := status = .on }

/-- The assignments of the lock calls. -/
inductive LockAssign : (ObjectRow → ObjectRow) → Prop
  | retain (retention : ObjectRetention) : LockAssign (ObjectRow.retain retention)
  | hold (status : LegalHoldStatus) : LockAssign (ObjectRow.hold status)

theorem LockAssign.sameVersion {assign : ObjectRow → ObjectRow} (h : LockAssign assign)
    (r : ObjectRow) : SameVersion r (assign r) := by
  cases h <;> rfl

theorem LockAssign.isLatest {assign : ObjectRow → ObjectRow} (h : LockAssign assign)
    (r : ObjectRow) : (assign r).isLatest = r.isLatest := by
  cases h <;> rfl

/-! ## Stages -/

/-- What a call knows when it goes on. -/
inductive LockStage
  | idle
  /-- It holds a draw for the row of a writer. -/
  | drawn (n : Nat)
  /-- It has read the status of a bucket. -/
  | asked (bucket : String) (status : Option VersioningStatus)
  /-- It holds a draw for a delete marker in a bucket that has been versioned. -/
  | marking (bucket : String) (n : Nat)
  /-- It has read the lock state of what it is going to delete. -/
  | seen (bucket key : String) (versionId : Option String) (state : Option ObjectRow)
  /-- It has found no lock. -/
  | cleared (bucket key : String) (versionId : Option String)

/-- The draw that a call holds. -/
def LockStage.pending : LockStage → Option Nat
  | drawn n => some n
  | marking _ n => some n
  | _ => none

/-- Where reading the clock leaves a delete. -/
def LockStage.judged (bucket key : String) (versionId : Option String)
    (state : Option ObjectRow) (now : DateTime) : LockStage :=
  if state.any (ObjectRow.lockedAt now) then idle else cleared bucket key versionId

/-- The rows that a hard delete removes. -/
def doomed (bucket key : String) : Option String → ObjectRow → Bool
  | some vid => atVersion bucket key vid
  | none => atKey bucket key

theorem doomed_eq (bucket key : String) (versionId : Option String) {r r' : ObjectRow}
    (h : SameVersion r r') : doomed bucket key versionId r' = doomed bucket key versionId r := by
  cases versionId with
  | some vid => exact h.atVersion_eq bucket key vid
  | none => exact h.atKey_eq bucket key

/-- A hard delete of a version or a key. -/
def hardDelete (P : Platform) (bucket key : String) :
    Option String → StoreProg DeleteObjectResponse
  | some vid => hardDeleteVersion P bucket key vid
  | none => hardDeleteKey bucket key

/-- The rest of a delete that has read the lock state. -/
def judgeAnd (state : Option ObjectRow) (rest : StoreProg DeleteObjectResponse) :
    StoreProg DeleteObjectResponse := do
  let now ← clock
  ensure (!(state.any (ObjectRow.lockedAt now))) .objectLocked
  rest

/-- **What a call looks like** between its lock check and its DELETE. -/
def LockLooks (P : Platform) (p : StoreProg Reply) : LockStage → Prop
  | .seen bucket key versionId state =>
      ∃ next, p = judgeAnd state (hardDelete P bucket key versionId) >>= next
  | .cleared bucket key versionId =>
      (∃ next, p = hardDelete P bucket key versionId >>= next) ∨
        ∃ next, p = execute [deleteObjects (doomed bucket key versionId)] >>= next
  | _ => True

/-- The statements that add a delete marker. -/
def markStatements (P : Platform) (bucket key : String) (n : Nat) : List Statement :=
  [updateObjects (atLatest bucket key) ObjectRow.demote,
    insertObject (deleteMarkerRow bucket key (P.ulid n))]

/-- **The steps of deletes and lock calls**, and of puts where there are any. -/
inductive LockSteps (P : Platform) (puts : Prop) : Automaton World LockStage
  | quiet {t : LockStage} {β : Type} {act : World → β × World} (h : Quiet act) :
      LockSteps P puts t act fun _ => t
  | draws (hputs : puts) : LockSteps P puts .idle drawStep .drawn
  | writes (hputs : puts) {n : Nat} {bucket key : String} {row : DateTime → ObjectRow}
      {statements : List Statement} (h : WritesRow bucket key row statements)
      (hrow : DrawnRow P bucket key n row) :
      LockSteps P puts (.drawn n) (closureStep statements) fun _ => .idle
  | asks (bucket : String) :
      LockSteps P puts .idle (fun w => (versioningStatus bucket w.db, w)) (.asked bucket)
  | drawsMarker {bucket : String} {status : VersioningStatus} (h : status ≠ .unversioned) :
      LockSteps P puts (.asked bucket (some status)) drawStep (.marking bucket)
  | marks (bucket key : String) (n : Nat) :
      LockSteps P puts (.marking bucket n) (closureStep (markStatements P bucket key n))
        fun _ => .idle
  | seesVersion (bucket key vid : String) :
      LockSteps P puts .idle (fun w => (selectObject bucket key (some vid) w.db, w))
        (.seen bucket key (some vid))
  | seesKey (bucket key : String) :
      LockSteps P puts (.asked bucket (some .unversioned))
        (fun w => (selectObject bucket key none w.db, w)) (.seen bucket key none)
  | judges (bucket key : String) (versionId : Option String) (state : Option ObjectRow) :
      LockSteps P puts (.seen bucket key versionId state) (fun w => (w.now, w))
        (LockStage.judged bucket key versionId state)
  | deletes (bucket key : String) (versionId : Option String) :
      LockSteps P puts (.cleared bucket key versionId)
        (closureStep [deleteObjects (doomed bucket key versionId)]) fun _ => .idle
  | promotes (bucket key : String) :
      LockSteps P puts .idle (closureStep [promoteNewest P bucket key]) fun _ => .idle
  | locks (bucket key : String) (versionId : Option String) {assign : ObjectRow → ObjectRow}
      (h : LockAssign assign) :
      LockSteps P puts .idle (closureStep [updateObjects (addressed bucket key versionId) assign])
        fun _ => .idle

/-! ## The calls keep to it -/

section Staged

variable {P : Platform} {puts : Prop}

theorem lock_quiet (t : LockStage) ⦃β : Type⦄ (act : World → β × World) (h : Quiet act) :
    LockSteps P puts t act fun _ => t := .quiet h

theorem idle_free : Free (LockLooks P) .idle := ⟨fun _ _ _ => trivial, fun _ => trivial⟩

theorem putObject_lockStaged (hputs : puts) (bucket key : String) (body : ObjectBody)
    (opts : PutObjectOpts) :
    (program P (.putObject bucket key body opts)).Staged (LockSteps P puts) (LockLooks P)
      .idle := by
  have hprepares : Prepares (LockSteps P puts) (LockLooks P) .idle .drawn :=
    { idle_quiet := lock_quiet _
      idle_free := idle_free
      draws := .draws hputs
      drawn_quiet := fun n => lock_quiet _
      drawn_free := fun n => ⟨fun _ _ _ => trivial, fun _ => trivial⟩ }
  refine putObject_staged hprepares bucket key body opts fun n status row response hrow => ?_
  exact staged_call _ trivial (.writes hputs (.single status) hrow) (fun _ => trivial) trivial

theorem putObjectRetention_lockStaged (bucket key : String) (versionId : Option String)
    (retention : ObjectRetention) (bypassGovernance : Bool) :
    (program P (.putObjectRetention bucket key versionId retention bypassGovernance)).Staged
      (LockSteps P puts) (LockLooks P) .idle := by
  simp only [program, replying, putObjectRetention, Prog.bind_assoc]
  refine (quiet_query _).staged_bind (lock_quiet _) idle_free fun _ => ?_
  refine (only_ensure _ _).staged_bind (lock_quiet _) idle_free fun _ => ?_
  refine (quiet_query _).staged_bind (lock_quiet _) idle_free fun _ => ?_
  refine (only_ensure _ _).staged_bind (lock_quiet _) idle_free fun _ => ?_
  exact staged_call _ trivial (.locks bucket key versionId (.retain retention))
    (fun _ => trivial) trivial

theorem putObjectLegalHold_lockStaged (bucket key : String) (versionId : Option String)
    (status : LegalHoldStatus) :
    (program P (.putObjectLegalHold bucket key versionId status)).Staged
      (LockSteps P puts) (LockLooks P) .idle := by
  simp only [program, replying, putObjectLegalHold, Prog.bind_assoc]
  refine (quiet_query _).staged_bind (lock_quiet _) idle_free fun _ => ?_
  refine (only_ensure _ _).staged_bind (lock_quiet _) idle_free fun _ => ?_
  exact staged_call _ trivial (.locks bucket key versionId (.hold status))
    (fun _ => trivial) trivial

/-- A delete that has read the lock state judges it, and goes on when it has
found no lock. -/
theorem judgeAnd_staged {bucket key : String} {versionId : Option String}
    (state : Option ObjectRow) {next : DeleteObjectResponse → StoreProg Reply}
    (hstaged : (hardDelete P bucket key versionId >>= next).Staged (LockSteps P puts) (LockLooks P)
      (.cleared bucket key versionId)) :
    (judgeAnd state (hardDelete P bucket key versionId) >>= next).Staged (LockSteps P puts)
      (LockLooks P) (.seen bucket key versionId state) := by
  refine ⟨⟨next, rfl⟩, LockStage.judged bucket key versionId state,
    .judges bucket key versionId state, fun now => ?_⟩
  show Staged _ _ (((ensure (!(state.any (ObjectRow.lockedAt now))) .objectLocked :
    StoreProg Unit) >>= fun _ => hardDelete P bucket key versionId) >>= next) _
  unfold LockStage.judged
  cases hlocked : state.any (ObjectRow.lockedAt now) with
  | true => trivial
  | false => exact hstaged

/-- A hard delete looks its ids up and deletes. -/
theorem hardDelete_staged (bucket key : String) (versionId : Option String)
    {next : DeleteObjectResponse → StoreProg Reply}
    (hnext : ∀ response, (next response).Staged (LockSteps P puts) (LockLooks P) .idle) :
    (hardDelete P bucket key versionId >>= next).Staged (LockSteps P puts) (LockLooks P)
      (.cleared bucket key versionId) := by
  have hlooks : LockLooks P (hardDelete P bucket key versionId >>= next)
      (.cleared bucket key versionId) := Or.inl ⟨next, rfl⟩
  cases versionId with
  | some vid =>
      simp only [hardDelete, hardDeleteVersion, Prog.bind_assoc] at hlooks ⊢
      refine staged_perform_bind _ hlooks
        (lock_quiet (.cleared bucket key (some vid)) _ fun _ => ⟨rfl, Nat.le_refl _, rfl⟩)
        fun objectId => ?_
      refine staged_call _ (Or.inr ⟨_, rfl⟩) (.deletes _ _ _) (fun _ => trivial) ?_
      refine (quiet_removeBlobs _).staged_bind (lock_quiet _) idle_free fun _ => ?_
      exact staged_call _ trivial (.promotes bucket key) (fun _ => trivial) (hnext _)
  | none =>
      simp only [hardDelete, hardDeleteKey, Prog.bind_assoc] at hlooks ⊢
      refine staged_perform_bind _ hlooks
        (lock_quiet (.cleared bucket key none) _ fun _ => ⟨rfl, Nat.le_refl _, rfl⟩)
        fun objectIds => ?_
      refine staged_call _ (Or.inr ⟨_, rfl⟩) (.deletes _ _ _) (fun _ => trivial) ?_
      exact (quiet_removeBlobs _).staged_bind (lock_quiet _) idle_free fun _ => hnext _

theorem deleteObjectVersion_lockStaged (bucket key : String) (versionId : Option String) :
    (program P (.deleteObjectVersion bucket key versionId)).Staged
      (LockSteps P puts) (LockLooks P) .idle := by
  have hreplied : ∀ response, (done (.deleted response) : StoreProg Reply).Staged
      (LockSteps P puts) (LockLooks P) .idle := fun _ => trivial
  simp only [program, replying, deleteObjectVersion, objectDeleteLocked, Prog.bind_assoc]
  cases versionId with
  | some vid =>
      refine (quiet_query _).staged_bind (lock_quiet _) idle_free fun selected => ?_
      refine (only_require _ _).staged_bind (lock_quiet _) idle_free fun status => ?_
      refine staged_perform_bind _ trivial (.seesVersion bucket key vid) fun state => ?_
      have hjudge := judgeAnd_staged state (hardDelete_staged bucket key (some vid) hreplied)
      simp only [judgeAnd, Prog.bind_assoc] at hjudge
      exact hjudge
  | none =>
      refine staged_perform_bind _ trivial (.asks bucket) fun selected => ?_
      cases selected with
      | none => trivial
      | some status =>
          by_cases hunversioned : status = .unversioned
          · subst hunversioned
            refine staged_perform_bind _ trivial (.seesKey bucket key) fun state => ?_
            have hjudge := judgeAnd_staged state (hardDelete_staged bucket key none hreplied)
            simp only [judgeAnd, Prog.bind_assoc] at hjudge
            exact hjudge
          · have hfree : Free (LockLooks P) (.asked bucket (some status)) :=
              ⟨fun _ _ _ => trivial, fun _ => trivial⟩
            refine (quiet_query _).staged_bind (lock_quiet _) hfree fun state => ?_
            refine quiet_clock.staged_bind (lock_quiet _) hfree fun now => ?_
            refine (only_ensure _ _).staged_bind (lock_quiet _) hfree fun _ => ?_
            simp only [hunversioned, if_false, createDeleteMarker, Prog.bind_assoc]
            refine staged_perform_bind _ trivial (.drawsMarker hunversioned) fun n => ?_
            exact staged_call _ trivial (.marks bucket key n) (fun _ => trivial) trivial

end Staged

/-! ## What one step does to the rows -/

/-- The closure of a lock call assigns to a row that it addresses. -/
inductive SetsLock : ∀ ⦃β : Type⦄, (World → β × World) → ObjectRow → ObjectRow → Prop
  | mk (bucket key : String) (versionId : Option String) {assign : ObjectRow → ObjectRow}
      (h : LockAssign assign) {r : ObjectRow} (hr : addressed bucket key versionId r = true) :
      SetsLock (closureStep [updateObjects (addressed bucket key versionId) assign]) r (assign r)

/-- A row after a step that was there before it.  It loses its latest flag to a
new version only. -/
structure KeptRow (puts : Prop) (t : LockStage) ⦃β : Type⦄ (act : World → β × World)
    (r r' : ObjectRow) : Prop where
  version : SameVersion r r'
  locks : SameLock r r' ∨ SetsLock act r r'
  latest : r.isLatest = true → r'.isLatest = true ∨ puts ∨ ∃ n, t = .marking r.bucket n

/-- A row that a step has inserted: it has the id of the draw that the call
held, and no locks. -/
structure Fresh (P : Platform) (puts : Prop) (t : LockStage) (r : ObjectRow) : Prop where
  held : ∃ n, t.pending = some n ∧ r.id = P.ulid n
  unlocked : r.retentionMode = none ∧ r.retainUntilDate = none ∧ r.legalHold = false
  marker : puts ∨ (r.versionId = r.id ∧ ∃ n, t = .marking r.bucket n)

/-- A lock call changes a row that it addresses. -/
theorem LockAssign.not_quiet {assign : ObjectRow → ObjectRow} (h : LockAssign assign)
    (bucket key : String) (versionId : Option String) :
    ¬ Quiet (closureStep [updateObjects (addressed bucket key versionId) assign]) := by
  intro hquiet
  have hfixed : ∀ r, addressed bucket key versionId r = true → assign r = r := by
    intro r hr
    have hsame := congrArg Db.objects (hquiet { db := { objects := [r] } }).1
    simpa [closureStep, runStatements, updateObjects, updateRows, hr] using hsame
  let row := deleteMarkerRow bucket key (versionId.getD "") 0
  have haddressed : ∀ r, SameVersion row r → r.isLatest = true →
      addressed bucket key versionId r = true := by
    intro r hsame hlatest
    cases versionId with
    | none => exact atLatest_iff.mpr ⟨⟨hsame.bucket_eq, hsame.key_eq⟩, hlatest⟩
    | some vid =>
        exact atVersion_iff.mpr ⟨⟨hsame.bucket_eq, hsame.key_eq⟩, hsame.versionId_eq⟩
  cases h with
  | retain retention =>
      have hsame := congrArg ObjectRow.retentionMode (hfixed row (haddressed row rfl rfl))
      cases hsame
  | hold status =>
      cases status with
      | on =>
          have hsame := congrArg ObjectRow.legalHold (hfixed row (haddressed row rfl rfl))
          cases hsame
      | off =>
          have hsame := congrArg ObjectRow.legalHold
            (hfixed { row with legalHold := true } (haddressed _ rfl rfl))
          cases hsame

section Rows

variable {P : Platform} {puts : Prop} {t : LockStage} {β : Type} {act : World → β × World}
  {after : β → LockStage}

/-- An insert adds its row or does nothing. -/
theorem insertObject_run (row : DateTime → ObjectRow) (now : DateTime) (db : Db) :
    (runStatements [insertObject row] now db).2 = db ∨
      (runStatements [insertObject row] now db).2 =
        { db with objects := insertRow (row now.seconds) db.objects } := by
  cases hinsert : insertObject row now db with
  | error e => exact Or.inl (congrArg Prod.snd (runStatements_cons_error hinsert))
  | ok db' =>
      obtain ⟨-, -, rfl⟩ := insertObject_eq_ok hinsert
      exact Or.inr (congrArg Prod.snd (runStatements_cons_ok hinsert))

theorem insertObject_rows {row : DateTime → ObjectRow} {now : DateTime} {db : Db}
    {r' : ObjectRow} (hr' : r' ∈ (runStatements [insertObject row] now db).2.objects) :
    r' ∈ db.objects ∨ r' = row now.seconds := by
  rcases insertObject_run row now db with hrun | hrun
  · rw [hrun] at hr'
    exact Or.inl hr'
  · rw [hrun] at hr'
    exact mem_insertRow.mp hr'

theorem insertObject_keeps (row : DateTime → ObjectRow) (now : DateTime) {db : Db}
    {r : ObjectRow} (hr : r ∈ db.objects) :
    r ∈ (runStatements [insertObject row] now db).2.objects := by
  rcases insertObject_run row now db with hrun | hrun
  · rw [hrun]
    exact hr
  · rw [hrun]
    exact mem_insertRow.mpr (Or.inl hr)

/-- **Where the rows after a step come from.** -/
theorem LockSteps.row_back (h : LockSteps P puts t act after) {w : World} {r' : ObjectRow}
    (hr' : r' ∈ (act w).2.db.objects) :
    (∃ r ∈ w.db.objects, KeptRow puts t act r r') ∨ Fresh P puts t r' := by
  have hkept : ∀ r ∈ w.db.objects,
      r' = r ∨ r' = r.promote ∨ (r' = r.demote ∧ (puts ∨ ∃ n, t = .marking r.bucket n)) →
      ∃ r ∈ w.db.objects, KeptRow puts t act r r' := by
    intro r hr heq
    rcases heq with rfl | rfl | ⟨rfl, hwhy⟩
    · exact ⟨_, hr, .refl _, Or.inl (.refl _), Or.inl⟩
    · exact ⟨r, hr, .promote r, Or.inl ⟨rfl, rfl, rfl⟩, fun _ => Or.inl rfl⟩
    · exact ⟨r, hr, .demote r, Or.inl ⟨rfl, rfl, rfl⟩, fun _ => Or.inr hwhy⟩
  cases h with
  | quiet hquiet => exact Or.inl (hkept r' ((hquiet w).1 ▸ hr') (Or.inl rfl))
  | draws hputs => exact Or.inl (hkept r' hr' (Or.inl rfl))
  | @writes hputs n bucket key row statements hwrites hrow =>
      have hroom : ∀ status, r' ∈ roomMade status bucket key w.db.objects →
          ∃ r ∈ w.db.objects, KeptRow puts (.drawn n) (closureStep statements) r r' := by
        intro status hmem
        obtain ⟨r, hr, heq | ⟨heq, -⟩⟩ := mem_roomMade hmem
        · exact hkept r hr (Or.inl heq)
        · exact hkept r hr (Or.inr (Or.inr ⟨heq, Or.inl hputs⟩))
      obtain ⟨-, status, hobjects | hobjects⟩ := hwrites.cases w.now w.db
      · exact Or.inl (hroom status (hobjects ▸ hr'))
      · rcases mem_insertRow.mp (hobjects ▸ hr') with hmem | rfl
        · exact Or.inl (hroom status hmem)
        · exact Or.inr ⟨⟨n, rfl, hrow.id_eq _⟩, hrow.unlocked _, Or.inl hputs⟩
  | asks bucket => exact Or.inl (hkept r' hr' (Or.inl rfl))
  | drawsMarker hstatus => exact Or.inl (hkept r' hr' (Or.inl rfl))
  | marks bucket key n =>
      rcases insertObject_rows hr' with hmem | rfl
      · obtain ⟨r, hr, heq⟩ := mem_updateRows.mp hmem
        by_cases hp : atLatest bucket key r = true
        · rw [if_pos hp] at heq
          have hbucket : r.bucket = bucket := (atLatest_iff.mp hp).1.1
          exact Or.inl (hkept r hr (Or.inr (Or.inr ⟨heq.symm, Or.inr ⟨n, by rw [hbucket]⟩⟩)))
        · rw [if_neg hp] at heq
          exact Or.inl (hkept r hr (Or.inl heq.symm))
      · exact Or.inr ⟨⟨n, rfl, rfl⟩, ⟨rfl, rfl, rfl⟩, Or.inr ⟨rfl, n, rfl⟩⟩
  | seesVersion bucket key vid => exact Or.inl (hkept r' hr' (Or.inl rfl))
  | seesKey bucket key => exact Or.inl (hkept r' hr' (Or.inl rfl))
  | judges bucket key versionId state => exact Or.inl (hkept r' hr' (Or.inl rfl))
  | deletes bucket key versionId =>
      exact Or.inl (hkept r' (mem_deleteRows.mp hr').1 (Or.inl rfl))
  | promotes bucket key =>
      obtain ⟨r, hr, heq | heq⟩ := mem_promoted hr'
      · exact Or.inl (hkept r hr (Or.inl heq))
      · exact Or.inl (hkept r hr (Or.inr (Or.inl heq)))
  | @locks bucket key versionId assign hassign =>
      obtain ⟨r, hr, heq⟩ := mem_updateRows.mp hr'
      by_cases hp : addressed bucket key versionId r = true
      · rw [if_pos hp] at heq
        subst heq
        exact Or.inl ⟨r, hr, hassign.sameVersion r, Or.inr (.mk bucket key versionId hassign hp),
          fun hlatest => Or.inl ((hassign.isLatest r).trans hlatest)⟩
      · rw [if_neg hp] at heq
        exact Or.inl (hkept r hr (Or.inl heq.symm))

/-- **Where the rows before a step go.**  Without puts, a row is there after it,
or the step is a DELETE that it is doomed to. -/
theorem LockSteps.row_forth (h : LockSteps P False t act after) {w : World} {r : ObjectRow}
    (hr : r ∈ w.db.objects) :
    (∃ r' ∈ (act w).2.db.objects, r'.id = r.id) ∨
      ∃ bucket key versionId, t = .cleared bucket key versionId ∧
        doomed bucket key versionId r = true := by
  cases h with
  | quiet hquiet => exact Or.inl ⟨r, (hquiet w).1.symm ▸ hr, rfl⟩
  | draws hputs => exact hputs.elim
  | writes hputs hwrites hrow => exact hputs.elim
  | marks bucket key n =>
      obtain ⟨r', hr', hsame, -⟩ := updateRows_forth (atLatest bucket key) ObjectRow.demote hr
        (.demote r)
      exact Or.inl ⟨r', insertObject_keeps _ _ hr', hsame.id_eq⟩
  | deletes bucket key versionId =>
      cases hdoomed : doomed bucket key versionId r with
      | true => exact Or.inr ⟨bucket, key, versionId, rfl, hdoomed⟩
      | false => exact Or.inl ⟨r, mem_deleteRows.mpr ⟨hr, hdoomed⟩, rfl⟩
  | promotes bucket key =>
      obtain ⟨r', hr', rfl | rfl⟩ := promoted_forth (P := P) bucket key hr
      · exact Or.inl ⟨_, hr', rfl⟩
      · exact Or.inl ⟨_, hr', rfl⟩
  | @locks bucket key versionId assign hassign =>
      obtain ⟨r', hr', hsame, -⟩ := updateRows_forth (addressed bucket key versionId) assign hr
        (hassign.sameVersion r)
      exact Or.inl ⟨r', hr', hsame.id_eq⟩
  | _ => exact Or.inl ⟨r, hr, rfl⟩

theorem keyed_roomMade {κ : Type} {key : ObjectRow → κ} {rows : List ObjectRow}
    (status : VersioningStatus) (bucket objectKey : String) (hkeyed : Keyed key rows)
    (hdemote : ∀ r : ObjectRow, key r.demote = key r) :
    Keyed key (roomMade status bucket objectKey rows) := by
  unfold roomMade
  split
  · exact hkeyed.updateRows fun r _ => hdemote r
  · exact hkeyed.deleteRows

theorem keyed_insertObject {κ : Type} {key : ObjectRow → κ} {row : DateTime → ObjectRow}
    {now : DateTime} {db : Db} (hkeyed : Keyed key db.objects)
    (hnew : ∀ r ∈ db.objects, key r ≠ key (row now.seconds)) :
    Keyed key (runStatements [insertObject row] now db).2.objects := by
  rcases insertObject_run row now db with hrun | hrun
  · rw [hrun]
    exact hkeyed
  · rw [hrun]
    exact hkeyed.insertRow hnew

/-- **A unique column stays unique** when it tells the rows that the calls
insert from those that are there. -/
theorem LockSteps.keyed {κ : Type} {key : ObjectRow → κ} (h : LockSteps P puts t act after)
    {w : World} (hkeyed : Keyed key w.db.objects)
    (hsame : ∀ r r', SameVersion r r' → key r' = key r)
    (hfresh : ∀ r ∈ w.db.objects, ∀ row, Fresh P puts t row → key r ≠ key row) :
    Keyed key (act w).2.db.objects := by
  have hdemote : ∀ r : ObjectRow, key r.demote = key r := fun r => hsame _ _ (.demote r)
  cases h with
  | quiet hquiet => exact (hquiet w).1 ▸ hkeyed
  | @writes hputs n bucket objectKey row statements hwrites hrow =>
      have hroom := fun status => keyed_roomMade status bucket objectKey hkeyed hdemote
      obtain ⟨-, status, hobjects | hobjects⟩ := hwrites.cases w.now w.db
      · exact hobjects ▸ hroom status
      · refine hobjects ▸ (hroom status).insertRow fun r hr => ?_
        have hnew := fun old hold => hfresh old hold (row w.now.seconds)
          ⟨⟨n, rfl, hrow.id_eq _⟩, hrow.unlocked _, Or.inl hputs⟩
        obtain ⟨old, hold, rfl | ⟨rfl, -⟩⟩ := mem_roomMade hr
        · exact hnew _ hold
        · exact hdemote old ▸ hnew old hold
  | marks bucket objectKey n =>
      refine keyed_insertObject (hkeyed.updateRows fun r _ => hdemote r) fun r hr => ?_
      have hnew := fun old hold => hfresh old hold
        (deleteMarkerRow bucket objectKey (P.ulid n) w.now.seconds)
        ⟨⟨n, rfl, rfl⟩, ⟨rfl, rfl, rfl⟩, Or.inr ⟨rfl, n, rfl⟩⟩
      obtain ⟨old, hold, heq⟩ := mem_updateRows.mp hr
      by_cases hp : atLatest bucket objectKey old = true
      · rw [if_pos hp] at heq
        subst heq
        exact hdemote old ▸ hnew old hold
      · rw [if_neg hp] at heq
        exact heq ▸ hnew old hold
  | deletes bucket objectKey versionId => exact hkeyed.deleteRows
  | promotes bucket objectKey =>
      show Keyed key (promoted P bucket objectKey w.db.objects)
      unfold promoted
      split
      · exact hkeyed
      · exact hkeyed.updateRows fun r _ => hsame _ _ (.promote r)
  | @locks bucket objectKey versionId assign hassign =>
      exact hkeyed.updateRows fun r _ => hsame _ _ (hassign.sameVersion r)
  | _ => exact hkeyed

theorem insertObject_buckets (row : DateTime → ObjectRow) (now : DateTime) (db : Db) :
    (runStatements [insertObject row] now db).2.buckets = db.buckets := by
  rcases insertObject_run row now db with hrun | hrun <;> rw [hrun]

/-- Every step leaves the clock and the buckets alone, and only ever draws. -/
theorem LockSteps.keeps (h : LockSteps P puts t act after) (w : World) :
    (act w).2.now = w.now ∧ w.draws ≤ (act w).2.draws ∧
      (act w).2.db.buckets = w.db.buckets := by
  cases h with
  | quiet hquiet => exact ⟨(hquiet w).2.2, (hquiet w).2.1, congrArg Db.buckets (hquiet w).1⟩
  | draws hputs => exact ⟨rfl, Nat.le_succ _, rfl⟩
  | drawsMarker hstatus => exact ⟨rfl, Nat.le_succ _, rfl⟩
  | writes hputs hwrites hrow => exact ⟨rfl, Nat.le_refl _, (hwrites.cases w.now w.db).1⟩
  | marks bucket key n => exact ⟨rfl, Nat.le_refl _, insertObject_buckets _ _ _⟩
  | _ => exact ⟨rfl, Nat.le_refl _, rfl⟩

end Rows

/-! ## The draws that calls hold -/

/-- The id is an old draw, and no call holds it. -/
structure Taken (P : Platform) (id : String) (pending : List (Option Nat)) (w : World) : Prop where
  drawn : ∃ m, m < w.draws ∧ id = P.ulid m
  free : ∀ i n : Nat, pending[i]? = some (some n) → P.ulid n ≠ id

/-- **The draws that calls hold** are of no row, and no two calls hold the same. -/
structure DrawsApart (P : Platform) (pending : List (Option Nat)) (w : World) : Prop where
  rows : ∀ r ∈ w.db.objects, Taken P r.id pending w
  below : ∀ i n : Nat, pending[i]? = some (some n) → n < w.draws
  apart : ∀ i j n : Nat, pending[i]? = some (some n) → pending[j]? = some (some n) → i = j

section Draws

variable {P : Platform} {id : String} {pending : List (Option Nat)} {w w' : World} {i n : Nat}

theorem Taken.mono (h : Taken P id pending w) (hdraws : w.draws ≤ w'.draws) :
    Taken P id pending w' := by
  obtain ⟨m, hm, hid⟩ := h.drawn
  exact ⟨⟨m, by omega, hid⟩, h.free⟩

/-- A call that gives its draw up leaves the others theirs. -/
theorem Taken.release (h : Taken P id pending w) (i : Nat) (hdraws : w.draws ≤ w'.draws) :
    Taken P id (pending.set i none) w' := by
  refine ⟨(h.mono hdraws).drawn, fun j n hj => ?_⟩
  rcases getElem?_set_cases hj with ⟨-, hnone⟩ | ⟨-, hold⟩
  · cases hnone
  · exact h.free j n hold

/-- A new draw is of no id that was taken. -/
theorem Taken.draw (h : Taken P id pending w) (i : Nat) (hdraws : w.draws < w'.draws) :
    Taken P id (pending.set i (some w.draws)) w' := by
  obtain ⟨m, hm, hid⟩ := h.drawn
  refine ⟨⟨m, by omega, hid⟩, fun j n hj => ?_⟩
  rcases getElem?_set_cases hj with ⟨-, hnew⟩ | ⟨-, hold⟩
  · obtain rfl := Option.some.inj hnew
    intro heq
    have hsame := P.ulid_injective (heq.trans hid)
    omega
  · exact h.free j n hold

namespace DrawsApart

/-- A step that adds no id to the rows. -/
theorem mono (h : DrawsApart P pending w)
    (hrows : ∀ r' ∈ w'.db.objects, ∃ r ∈ w.db.objects, r'.id = r.id)
    (hdraws : w.draws ≤ w'.draws) : DrawsApart P pending w' := by
  refine ⟨fun r' hr' => ?_, fun i n hi => ?_, h.apart⟩
  · obtain ⟨r, hr, hid⟩ := hrows r' hr'
    rw [hid]
    exact (h.rows r hr).mono hdraws
  · exact Nat.lt_of_lt_of_le (h.below i n hi) hdraws

theorem quiet (h : DrawsApart P pending w) (hdb : w'.db.objects = w.db.objects)
    (hdraws : w.draws ≤ w'.draws) : DrawsApart P pending w' :=
  h.mono (fun r hr => ⟨r, hdb ▸ hr, rfl⟩) hdraws

theorem draw (h : DrawsApart P pending w) (i : Nat) (hdb : w'.db.objects = w.db.objects)
    (hdraws : w'.draws = w.draws + 1) : DrawsApart P (pending.set i (some w.draws)) w' := by
  have hlt : w.draws < w'.draws := by omega
  refine ⟨fun r hr => (h.rows r (hdb ▸ hr)).draw i hlt, fun j n hj => ?_, fun j k n hj hk => ?_⟩
  · rcases getElem?_set_cases hj with ⟨-, hnew⟩ | ⟨-, hold⟩
    · obtain rfl := Option.some.inj hnew
      exact hlt
    · exact Nat.lt_trans (h.below j n hold) hlt
  · rcases getElem?_set_cases hj with ⟨hij, hnew⟩ | ⟨-, hold⟩
    · rcases getElem?_set_cases hk with ⟨hik, -⟩ | ⟨-, hold'⟩
      · exact hij.symm.trans hik
      · have hbelow := h.below k n hold'
        obtain rfl := Option.some.inj hnew
        omega
    · rcases getElem?_set_cases hk with ⟨-, hnew⟩ | ⟨-, hold'⟩
      · have hbelow := h.below j n hold
        obtain rfl := Option.some.inj hnew
        omega
      · exact h.apart j k n hold hold'

/-- The id of a draw that a call has held is taken once it has used it. -/
theorem used (h : DrawsApart P pending w) (hi : pending[i]? = some (some n))
    (hdraws : w.draws ≤ w'.draws) : Taken P (P.ulid n) (pending.set i none) w' := by
  refine ⟨⟨n, Nat.lt_of_lt_of_le (h.below i n hi) hdraws, rfl⟩, fun j m hj => ?_⟩
  rcases getElem?_set_cases hj with ⟨-, hnone⟩ | ⟨hne, hold⟩
  · cases hnone
  · intro heq
    obtain rfl := P.ulid_injective heq
    exact hne (h.apart i j m hi hold)

/-- **A closure** that inserts under the draw of its call alone. -/
theorem closure (h : DrawsApart P pending w) (i : Nat) (hdraws : w.draws ≤ w'.draws)
    (hrows : ∀ r' ∈ w'.db.objects, (∃ r ∈ w.db.objects, r'.id = r.id) ∨
      ∃ n, pending[i]? = some (some n) ∧ r'.id = P.ulid n) :
    DrawsApart P (pending.set i none) w' := by
  refine ⟨fun r' hr' => ?_, fun j n hj => ?_, fun j k n hj hk => ?_⟩
  · rcases hrows r' hr' with ⟨r, hr, hid⟩ | ⟨n, hn, hid⟩
    · rw [hid]
      exact (h.rows r hr).release i hdraws
    · rw [hid]
      exact h.used hn hdraws
  · rcases getElem?_set_cases hj with ⟨-, hnone⟩ | ⟨-, hold⟩
    · cases hnone
    · exact Nat.lt_of_lt_of_le (h.below j n hold) hdraws
  · rcases getElem?_set_cases hj with ⟨-, hnone⟩ | ⟨-, hold⟩
    · cases hnone
    · rcases getElem?_set_cases hk with ⟨-, hnone⟩ | ⟨-, hold'⟩
      · cases hnone
      · exact h.apart j k n hold hold'

end DrawsApart

end Draws

section Stages

variable {P : Platform} {puts : Prop} {t : LockStage} {β : Type} {act : World → β × World}
  {after : β → LockStage} {stages : List LockStage} {i : Nat} {w : World}

theorem judged_pending (bucket key : String) (versionId : Option String)
    (state : Option ObjectRow) (now : DateTime) :
    (LockStage.judged bucket key versionId state now).pending = none := by
  unfold LockStage.judged
  split <;> rfl

/-- **What a step does to the draw of its call**: it keeps its stage, or it
draws, or it holds no draw afterwards. -/
theorem LockSteps.pending_cases (h : LockSteps P puts t act after) (w : World) :
    (after (act w).1 = t ∧ (act w).2.db.objects = w.db.objects) ∨
      ((after (act w).1).pending = some w.draws ∧ (act w).2.db.objects = w.db.objects ∧
        (act w).2.draws = w.draws + 1) ∨
      (after (act w).1).pending = none := by
  cases h with
  | quiet hquiet => exact Or.inl ⟨rfl, congrArg Db.objects (hquiet w).1⟩
  | draws hputs => exact Or.inr (Or.inl ⟨rfl, rfl, rfl⟩)
  | drawsMarker hstatus => exact Or.inr (Or.inl ⟨rfl, rfl, rfl⟩)
  | judges bucket key versionId state => exact Or.inr (Or.inr (judged_pending _ _ _ _ _))
  | _ => exact Or.inr (Or.inr rfl)

/-- **Every step** keeps the draws of the calls apart. -/
theorem LockSteps.drawsApart (h : LockSteps P puts t act after) (hstage : stages[i]? = some t)
    (hJ : DrawsApart P (stages.map LockStage.pending) w) :
    DrawsApart P ((stages.set i (after (act w).1)).map LockStage.pending) (act w).2 := by
  rcases h.pending_cases w with ⟨hafter, hdb⟩ | ⟨hafter, hdb, hdraws⟩ | hafter
  · rw [hafter, set_stage hstage]
    exact hJ.quiet hdb (h.keeps w).2.1
  · rw [List.map_set, hafter]
    exact hJ.draw i hdb hdraws
  · rw [List.map_set, hafter]
    refine hJ.closure i (h.keeps w).2.1 fun r' hr' => ?_
    rcases h.row_back hr' with ⟨r, hr, hkept⟩ | hfresh
    · exact Or.inl ⟨r, hr, hkept.version.id_eq⟩
    · obtain ⟨n, hn, hid⟩ := hfresh.held
      refine Or.inr ⟨n, ?_, hid⟩
      rw [List.getElem?_map, hstage, Option.map_some, hn]

/-- An id that is taken stays taken. -/
theorem LockSteps.taken (h : LockSteps P puts t act after) (hstage : stages[i]? = some t)
    {id : String} (hJ : Taken P id (stages.map LockStage.pending) w) :
    Taken P id ((stages.set i (after (act w).1)).map LockStage.pending) (act w).2 := by
  rcases h.pending_cases w with ⟨hafter, -⟩ | ⟨hafter, -, hdraws⟩ | hafter
  · rw [hafter, set_stage hstage]
    exact hJ.mono (h.keeps w).2.1
  · rw [List.map_set, hafter]
    exact hJ.draw i (by omega)
  · rw [List.map_set, hafter]
    exact hJ.release i (h.keeps w).2.1

/-- No row has the id of a draw that a call holds. -/
theorem DrawsApart.id_ne {t : LockStage} (hJ : DrawsApart P (stages.map LockStage.pending) w)
    (hstage : stages[i]? = some t) {r row : ObjectRow} (hr : r ∈ w.db.objects)
    (hfresh : Fresh P puts t row) : row.id ≠ r.id := by
  obtain ⟨n, hn, hid⟩ := hfresh.held
  have hpending : (stages.map LockStage.pending)[i]? = some (some n) := by
    rw [List.getElem?_map, hstage, Option.map_some, hn]
  rw [hid]
  exact (hJ.rows r hr).free i n hpending

/-- At the start no call holds a draw. -/
theorem drawsApart_start (h : IdsDrawn P w) (ops : List Op) :
    DrawsApart P ((ops.map fun _ => LockStage.idle).map LockStage.pending) w := by
  have hnone : ∀ i n : Nat,
      ((ops.map fun _ => LockStage.idle).map LockStage.pending)[i]? ≠ some (some n) := by
    intro i n hi
    obtain ⟨t, ht, hpending⟩ := List.mem_map.mp (List.mem_of_getElem? hi)
    obtain ⟨op, -, rfl⟩ := List.mem_map.mp ht
    cases hpending
  exact ⟨fun r hr => ⟨h r hr, fun i n hi => absurd hi (hnone i n)⟩,
    fun i n hi => absurd hi (hnone i n), fun i j n hi => absurd hi (hnone i n)⟩

end Stages

end Strix
