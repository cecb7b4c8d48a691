import Strix.FailedWrites
import Strix.S3Audit

/-!
# Deleting many objects with one request

`DeleteObjects` checks and deletes its entries one after another and sorts them into
those deleted and those with an error.  Before each entry's turn other requests may have
changed the store and the settings that the caller is checked against, and in each
turn the database may fail at any of the closures of the delete.

* `deleteObjectVersionUnder_cases`: when a delete under faults fails, and when such a
  failure has changed the store;
* `deleteEachUnder_eq`: what the two lists hold;
* `deleteObjects_accounted_iff`: the answer accounts for every entry exactly if no
  entry fails in the store that names a version or has taken the latest row's flag.
-/

namespace Strix

open AtomicProgram AtomicProgram.Prog RowTable

/-! ## A delete under faults -/

/-- How a closure that reads can fail: in its statement, which the closure takes for
no row, or in a way that the call reports. -/
inductive ReadFault
  | noRow
  | reported (e : SqlError)

/-- **The faults of the closures of one delete**, in their order: the versioning status,
the lock, the ids of the blobs, the statement of the writing closure that fails, and the
promotion of the newest row. -/
structure DeleteFaults where
  status : Option ReadFault := none
  lock : Option SqlError := none
  ids : Option ReadFault := none
  writing : Option (Nat × SqlError) := none
  promotion : Option ReadFault := none

/-- A closure that reads, under a fault. -/
def queryUnder {α : Type} (fault : Option ReadFault) (noRow : α) (read : Db → α) : StoreProg α :=
  match fault with
  | none => query read
  | some .noRow => done noRow
  | some (.reported e) => fail (dbErr e)

/-- A closure that runs statements, under a fault. -/
def callUnder : Option (Nat × SqlError) → List Statement → StoreProg Unit
  | none => call
  | some (j, e) => callFailing j e

/-- `object_delete_locked`, under a fault. -/
def objectDeleteLockedUnder (fault : Option SqlError) (bucket key : String)
    (versionId : Option String) : StoreProg Bool :=
  match fault with
  | none => objectDeleteLocked bucket key versionId
  | some e => fail (dbErr e)

variable (P : Platform)

/-- The promotion closure under a fault: without the newest row it has nothing to
flag. -/
def promoteUnder (fault : Option ReadFault) (bucket key : String) : StoreProg Unit :=
  match fault with
  | none => call [promoteNewest P bucket key]
  | some .noRow => done ()
  | some (.reported e) => fail (dbErr e)

/-- Hard delete of one version, under faults. -/
def hardDeleteVersionUnder (faults : DeleteFaults) (bucket key vid : String) :
    StoreProg DeleteObjectResponse := do
  let objectId ← queryUnder faults.ids none fun db =>
    (selectObject bucket key (some vid) db).map (·.id)
  callUnder faults.writing [deleteObjects (atVersion bucket key vid)]
  removeBlobs objectId.toList
  promoteUnder P faults.promotion bucket key
  return { deleteMarker := false, versionId := some vid }

/-- Hard delete of a key, under faults. -/
def hardDeleteKeyUnder (faults : DeleteFaults) (bucket key : String) :
    StoreProg DeleteObjectResponse := do
  let objectIds ← queryUnder faults.ids [] fun db =>
    (db.objects.filter (atKey bucket key)).map (·.id)
  callUnder faults.writing [deleteObjects (atKey bucket key)]
  removeBlobs objectIds
  return { deleteMarker := false, versionId := none }

/-- `delete_object_version`, under faults. -/
def deleteObjectVersionUnder (faults : DeleteFaults) (bucket key : String)
    (versionId : Option String) : StoreProg DeleteObjectResponse := do
  let selected ← queryUnder faults.status none (versioningStatus bucket)
  let status ← require selected (.bucketNotFound bucket)
  let locked ← objectDeleteLockedUnder faults.lock bucket key versionId
  ensure (!locked) .objectLocked
  match versionId with
  | some vid => hardDeleteVersionUnder P faults bucket key vid
  | none =>
      if status = .unversioned then hardDeleteKeyUnder faults bucket key
      else createDeleteMarkerVia P (callUnder faults.writing) bucket key

/-- Without faults it is the store's own delete. -/
theorem deleteObjectVersionUnder_none (bucket key : String) (versionId : Option String) :
    deleteObjectVersionUnder P {} bucket key versionId =
      deleteObjectVersion P bucket key versionId := rfl

/-! ## When it fails -/

/-- The writing closure fails at its `j`th statement. -/
def DeleteFaults.FailsAt (faults : DeleteFaults) (j : Nat) : Prop :=
  ∃ e, faults.writing = some (j, e)

/-- The ids are asked for and the call fails. -/
def ReadFault.Reported (fault : Option ReadFault) : Prop := ∃ e, fault = some (.reported e)

/-- **The delete is refused before it touches anything**: the bucket is missing, the row
is locked, or one of the two cannot be read. -/
def DeleteRefused (faults : DeleteFaults) (bucket key : String) (versionId : Option String)
    (w : World) : Prop :=
  faults.status ≠ none ∨ versioningStatus bucket w.db = none ∨ faults.lock ≠ none ∨
    (selectObject bucket key versionId w.db).any (ObjectRow.lockedAt w.now) = true

/-- **A delete that is not refused fails at one of its closures.** -/
def DeleteBreaks (faults : DeleteFaults) (bucket : String) (versionId : Option String)
    (w : World) : Prop :=
  if versionId.isSome then
    ReadFault.Reported faults.ids ∨ faults.FailsAt 0 ∨ ReadFault.Reported faults.promotion
  else if versioningStatus bucket w.db = some .unversioned then
    ReadFault.Reported faults.ids ∨ faults.FailsAt 0
  else
    faults.FailsAt 0 ∨ faults.FailsAt 1 ∨ ∃ r ∈ w.db.objects, r.id = P.ulid w.draws

/-- **The delete fails in the store.** -/
def DeleteFails (faults : DeleteFaults) (bucket key : String) (versionId : Option String)
    (w : World) : Prop :=
  DeleteRefused faults bucket key versionId w ∨ DeleteBreaks P faults bucket versionId w

/-- **The flag of the latest row is taken first**: the closure of a soft delete comes to
its insert, with a latest row to demote before it. -/
def DemotesFirst (faults : DeleteFaults) (bucket key : String) (versionId : Option String)
    (w : World) : Prop :=
  ¬DeleteRefused faults bucket key versionId w ∧
    versioningStatus bucket w.db ≠ some .unversioned ∧ ¬faults.FailsAt 0 ∧
    ∃ r ∈ w.db.objects, atLatest bucket key r = true

/-- The tables and the files are the same. -/
def Unchanged (w w' : World) : Prop := w'.db = w.db ∧ w'.files = w.files

section Closures

variable {w : World}

/-- A failing call does what the statements before the failing one do. -/
theorem run_callFailing (j : Nat) (e : SqlError) (statements : List Statement) (w : World) :
    (callFailing j e statements).run w =
      match runStatements (failAt j e statements) w.now w.db with
      | (.ok (), db) => (.ok (), { w with db })
      | (.error e, db) => (.error (dbErr e), { w with db }) :=
  run_call _ _

/-- **A closure of one statement** fails as a whole, or does what it says. -/
theorem callUnder_single (faults : DeleteFaults) {statement : Statement} {db' : Db}
    (hstatement : statement w.now w.db = .ok db') :
    (faults.FailsAt 0 ∧ ∃ e, (callUnder faults.writing [statement]).run w = (.error e, w)) ∨
      (¬faults.FailsAt 0 ∧
        (callUnder faults.writing [statement]).run w = (.ok (), { w with db := db' })) := by
  cases hfault : faults.writing with
  | none =>
      right
      refine ⟨fun ⟨e, he⟩ => ?_, ?_⟩
      · rw [hfault] at he
        cases he
      · simp [callUnder, runStatements, hstatement]
  | some fault =>
      obtain ⟨j, e⟩ := fault
      cases j with
      | zero =>
          left
          refine ⟨⟨e, hfault⟩, dbErr e, ?_⟩
          simp [callUnder, run_callFailing, failAt, runStatements]
      | succ i =>
          right
          refine ⟨fun ⟨e', he⟩ => ?_, ?_⟩
          · rw [hfault] at he
            cases he
          · have hlength : [statement].length ≤ i + 1 := by simp
            rw [callUnder, run_callFailing, failAt_of_length_le e hlength]
            simp [runStatements, hstatement]

/-- **A closure of two statements** fails with nothing done, or after the first one, or
at what its second one does. -/
theorem callUnder_pair (faults : DeleteFaults) {first : Statement} (second : Statement) {db₁ : Db}
    (hfirst : first w.now w.db = .ok db₁) :
    (faults.FailsAt 0 ∧ ∃ e, (callUnder faults.writing [first, second]).run w = (.error e, w)) ∨
      (¬faults.FailsAt 0 ∧
        (faults.FailsAt 1 ∨ ∃ e, second w.now db₁ = .error e) ∧
        ∃ e, (callUnder faults.writing [first, second]).run w =
          (.error e, { w with db := db₁ })) ∨
      (¬faults.FailsAt 0 ∧ ¬faults.FailsAt 1 ∧ ∃ db₂, second w.now db₁ = .ok db₂ ∧
        (callUnder faults.writing [first, second]).run w = (.ok (), { w with db := db₂ })) := by
  -- a fault behind the closure's end changes nothing
  have hwhole : ¬faults.FailsAt 0 → ¬faults.FailsAt 1 →
      (callUnder faults.writing [first, second]).run w = (call [first, second]).run w := by
    intro hno0 hno1
    cases hfault : faults.writing with
    | none => rfl
    | some fault =>
        obtain ⟨j, e⟩ := fault
        have hlength : [first, second].length ≤ j := by
          rcases j with _ | _ | j
          · exact absurd ⟨e, hfault⟩ hno0
          · exact absurd ⟨e, hfault⟩ hno1
          · simp
        rw [callUnder, callFailing, failAt_of_length_le e hlength]
  by_cases h0 : faults.FailsAt 0
  · left
    obtain ⟨e, he⟩ := id h0
    refine ⟨h0, dbErr e, ?_⟩
    rw [he]
    simp [callUnder, run_callFailing, failAt, runStatements]
  · right
    by_cases h1 : faults.FailsAt 1
    · left
      obtain ⟨e, he⟩ := id h1
      refine ⟨h0, Or.inl h1, dbErr e, ?_⟩
      rw [he]
      simp [callUnder, run_callFailing, failAt, runStatements, hfirst]
    · rw [hwhole h0 h1]
      cases hsecond : second w.now db₁ with
      | error e =>
          left
          refine ⟨h0, Or.inr ⟨e, rfl⟩, dbErr e, ?_⟩
          simp [runStatements, hfirst, hsecond]
      | ok db₂ =>
          right
          refine ⟨h0, h1, db₂, rfl, ?_⟩
          simp [runStatements, hfirst, hsecond]

/-- **A closure that reads** goes on with something, or reports its fault. -/
theorem queryUnder_cases {α : Type} (fault : Option ReadFault) (noRow : α) (read : Db → α)
    (w : World) :
    (¬ReadFault.Reported fault ∧ ∃ a, (queryUnder fault noRow read).run w = (.ok a, w)) ∨
      (ReadFault.Reported fault ∧ ∃ e, (queryUnder fault noRow read).run w = (.error e, w)) := by
  cases fault with
  | none =>
      refine Or.inl ⟨fun ⟨e, he⟩ => ?_, read w.db, rfl⟩
      cases he
  | some fault =>
      cases fault with
      | noRow =>
          refine Or.inl ⟨fun ⟨e, he⟩ => ?_, noRow, rfl⟩
          cases he
      | reported e => exact Or.inr ⟨⟨e, rfl⟩, dbErr e, rfl⟩

/-- **The promotion closure** ends, or reports its fault. -/
theorem promoteUnder_cases (fault : Option ReadFault) (bucket key : String) (w : World) :
    (¬ReadFault.Reported fault ∧
        ∃ w', (promoteUnder P fault bucket key).run w = (.ok (), w')) ∨
      (ReadFault.Reported fault ∧
        ∃ e, (promoteUnder P fault bucket key).run w = (.error e, w)) := by
  cases fault with
  | none =>
      refine Or.inl ⟨?_, _, by
        simp only [promoteUnder, run_call, runStatements, promoteNewest]; rfl⟩
      rintro ⟨e, he⟩
      cases he
  | some fault =>
      cases fault with
      | noRow =>
          refine Or.inl ⟨?_, w, rfl⟩
          rintro ⟨e, he⟩
          cases he
      | reported e => exact Or.inr ⟨⟨e, rfl⟩, dbErr e, rfl⟩

end Closures

theorem Unchanged.refl (w : World) : Unchanged w w := ⟨rfl, rfl⟩

section Cases

variable (faults : DeleteFaults) (bucket key : String) (w : World)

/-- The hard delete of a version. -/
theorem hardDeleteVersionUnder_cases (vid : String) :
    ((∃ r w', (hardDeleteVersionUnder P faults bucket key vid).run w = (.ok r, w')) ∧
        ¬DeleteBreaks P faults bucket (some vid) w) ∨
      ((∃ e w', (hardDeleteVersionUnder P faults bucket key vid).run w = (.error e, w')) ∧
        DeleteBreaks P faults bucket (some vid) w) := by
  simp only [DeleteBreaks, Option.isSome_some, if_true]
  rcases queryUnder_cases faults.ids none
      (fun db => (selectObject bucket key (some vid) db).map (·.id)) w with
    ⟨hids, a, ha⟩ | ⟨hids, e, he⟩
  · have hdelete : deleteObjects (atVersion bucket key vid) w.now w.db =
        .ok { w.db with objects := deleteRows (atVersion bucket key vid) w.db.objects } := rfl
    rcases callUnder_single faults hdelete with
      ⟨hfails, e, he⟩ | ⟨hfails, hrun⟩
    · right
      refine ⟨⟨e, w, ?_⟩, Or.inr (Or.inl hfails)⟩
      simp [hardDeleteVersionUnder, run_bind, ha, he]
    · rcases promoteUnder_cases P faults.promotion bucket key
          { w with
            db := { w.db with objects := deleteRows (atVersion bucket key vid) w.db.objects }
            files := w.files.dropBlobs a.toList } with ⟨hpromote, w', hw'⟩ | ⟨hpromote, e, he⟩
      · left
        refine ⟨⟨{ deleteMarker := false, versionId := some vid }, w', ?_⟩, ?_⟩
        · simp [hardDeleteVersionUnder, run_bind, ha, hrun, removeBlobs_run, hw']
        · rintro (h | h | h)
          · exact hids h
          · exact hfails h
          · exact hpromote h
      · right
        refine ⟨⟨e, { w with
          db := { w.db with objects := deleteRows (atVersion bucket key vid) w.db.objects }
          files := w.files.dropBlobs a.toList }, ?_⟩, Or.inr (Or.inr hpromote)⟩
        simp [hardDeleteVersionUnder, run_bind, ha, hrun, removeBlobs_run, he]
  · right
    refine ⟨⟨e, w, ?_⟩, Or.inl hids⟩
    simp [hardDeleteVersionUnder, run_bind, he]

variable {bucket w}

/-- The hard delete of a key: where it fails it has done nothing. -/
theorem hardDeleteKeyUnder_cases (hstatus : versioningStatus bucket w.db = some .unversioned) :
    ((∃ r w', (hardDeleteKeyUnder faults bucket key).run w = (.ok r, w')) ∧
        ¬DeleteBreaks P faults bucket none w) ∨
      ((∃ e, (hardDeleteKeyUnder faults bucket key).run w = (.error e, w)) ∧
        DeleteBreaks P faults bucket none w) := by
  simp only [DeleteBreaks, Option.isSome_none, Bool.false_eq_true, if_false, hstatus, if_true]
  rcases queryUnder_cases faults.ids []
      (fun db => (db.objects.filter (atKey bucket key)).map (·.id)) w with
    ⟨hids, a, ha⟩ | ⟨hids, e, he⟩
  · have hdelete : deleteObjects (atKey bucket key) w.now w.db =
        .ok { w.db with objects := deleteRows (atKey bucket key) w.db.objects } := rfl
    rcases callUnder_single faults hdelete with
      ⟨hfails, e, he⟩ | ⟨hfails, hrun⟩
    · right
      refine ⟨⟨e, ?_⟩, Or.inr hfails⟩
      simp [hardDeleteKeyUnder, run_bind, ha, he]
    · left
      refine ⟨⟨{ deleteMarker := false, versionId := none }, { w with
        db := { w.db with objects := deleteRows (atKey bucket key) w.db.objects }
        files := w.files.dropBlobs a }, ?_⟩, ?_⟩
      · simp [hardDeleteKeyUnder, run_bind, ha, hrun, removeBlobs_run]
      · rintro (h | h)
        · exact hids h
        · exact hfails h
  · right
    refine ⟨⟨e, ?_⟩, Or.inl hids⟩
    simp [hardDeleteKeyUnder, run_bind, he]

/-- Demoting changes the rows exactly if one of them is the latest. -/
theorem updateRows_demote_eq_iff (rows : List ObjectRow) :
    updateRows (atLatest bucket key) ObjectRow.demote rows = rows ↔
      ∀ r ∈ rows, atLatest bucket key r = false := by
  constructor
  · intro hsame r hr
    rw [← hsame] at hr
    obtain ⟨old, -, rfl⟩ := mem_updateRows.mp hr
    by_cases hold : atLatest bucket key old = true
    · rw [if_pos hold]
      simp [atLatest, ObjectRow.demote]
    · rw [if_neg hold]
      exact eq_false_of_ne_true hold
  · intro hnone
    exact updateRows_eq_self hnone

/-- **The soft delete**: where it fails, it has changed something exactly if there was a
latest row to demote. -/
theorem createDeleteMarkerUnder_cases {status : VersioningStatus}
    (hstatus : versioningStatus bucket w.db = some status) (hversioned : status ≠ .unversioned) :
    ((∃ r w', (createDeleteMarkerVia P (callUnder faults.writing) bucket key).run w =
        (.ok r, w')) ∧ ¬DeleteBreaks P faults bucket none w) ∨
      (∃ e w', (createDeleteMarkerVia P (callUnder faults.writing) bucket key).run w =
          (.error e, w') ∧ DeleteBreaks P faults bucket none w ∧
        (Unchanged w w' ↔
          faults.FailsAt 0 ∨ ∀ r ∈ w.db.objects, atLatest bucket key r = false)) := by
  have hne : ¬(some status = some VersioningStatus.unversioned) := by simpa using hversioned
  simp only [DeleteBreaks, Option.isSome_none, Bool.false_eq_true, if_false, hstatus, if_neg hne]
  obtain ⟨b, hb, hname, -⟩ := versioningStatus_bucket hstatus
  let demoted := updateRows (atLatest bucket key) ObjectRow.demote w.db.objects
  -- the insert fails for want of a new id and for nothing else
  have hinsert : (∃ e, insertObject (deleteMarkerRow bucket key (P.ulid w.draws)) w.now
      { w.db with objects := demoted } = .error e) ↔ ∃ r ∈ w.db.objects, r.id = P.ulid w.draws := by
    have hbucket : w.db.buckets.any (·.name == bucket) = true := by
      simpa using ⟨b, hb, hname⟩
    have hids : demoted.any (·.id == P.ulid w.draws) =
        w.db.objects.any (·.id == P.ulid w.draws) := by
      simp only [demoted, updateRows, List.any_map]
      congr 1
      funext r
      by_cases hr : atLatest bucket key r = true
      · simp only [Function.comp_apply, if_pos hr, ObjectRow.demote]
      · simp only [Function.comp_apply, if_neg hr]
    cases htaken : w.db.objects.any (·.id == P.ulid w.draws) with
    | true =>
        rw [htaken] at hids
        have hrow : ∃ r ∈ w.db.objects, r.id = P.ulid w.draws := by simpa using htaken
        simp [insertObject, deleteMarkerRow, hids, hrow]
    | false =>
        rw [htaken] at hids
        have hrow : ¬∃ r ∈ w.db.objects, r.id = P.ulid w.draws := by simpa using htaken
        simp [insertObject, deleteMarkerRow, hids, hbucket, hrow]
  have hdraw : ∀ closure, (createDeleteMarkerVia P closure bucket key).run w =
      (closure [updateObjects (atLatest bucket key) ObjectRow.demote,
          insertObject (deleteMarkerRow bucket key (P.ulid w.draws))] >>= fun _ =>
        done { deleteMarker := true, versionId := some (P.ulid w.draws) }).run
          { w with draws := w.draws + 1 } := fun closure => rfl
  let drawn : World := { w with draws := w.draws + 1 }
  have hdemote : updateObjects (atLatest bucket key) ObjectRow.demote drawn.now drawn.db =
      .ok { w.db with objects := demoted } := rfl
  rcases callUnder_pair faults (insertObject (deleteMarkerRow bucket key (P.ulid w.draws)))
      hdemote with
    ⟨h0, e, he⟩ | ⟨h0, hbreaks, e, he⟩ | ⟨h0, h1, db₂, hsecond, hrun⟩
  · right
    refine ⟨e, { w with draws := w.draws + 1 }, ?_, Or.inl h0, fun _ => Or.inl h0,
      fun _ => ⟨rfl, rfl⟩⟩
    rw [hdraw, run_bind, he]
  · right
    refine ⟨e, { w with db := { w.db with objects := demoted }, draws := w.draws + 1 }, ?_,
      Or.inr ?_, ?_⟩
    · rw [hdraw, run_bind, he]
    · rcases hbreaks with h1 | h2
      · exact Or.inl h1
      · exact Or.inr (hinsert.mp h2)
    · rw [or_iff_right h0, ← updateRows_demote_eq_iff]
      constructor
      · intro hsame
        exact congrArg Db.objects hsame.1
      · intro hsame
        exact ⟨congrArg (fun rows => { w.db with objects := rows }) hsame, rfl⟩
  · left
    refine ⟨⟨{ deleteMarker := true, versionId := some (P.ulid w.draws) },
      { w with db := db₂, draws := w.draws + 1 }, ?_⟩, ?_⟩
    · rw [hdraw, run_bind, hrun]
      rfl
    · rintro (h | h | h)
      · exact h0 h
      · exact h1 h
      · obtain ⟨e, he⟩ := hinsert.mpr h
        exact absurd (hsecond.symm.trans he) (by simp)

variable {P faults key}

/-- **A delete that is refused has done nothing.** -/
theorem deleteObjectVersionUnder_refused {versionId : Option String}
    (h : DeleteRefused faults bucket key versionId w) :
    ∃ e, (deleteObjectVersionUnder P faults bucket key versionId).run w = (.error e, w) := by
  cases hfault : faults.status with
  | some fault =>
      cases fault with
      | noRow =>
          exact ⟨.bucketNotFound bucket, by simp [deleteObjectVersionUnder, hfault, queryUnder]⟩
      | reported e => exact ⟨dbErr e, by simp [deleteObjectVersionUnder, hfault, queryUnder]⟩
  | none =>
      cases hstatus : versioningStatus bucket w.db with
      | none =>
          exact ⟨.bucketNotFound bucket,
            by simp [deleteObjectVersionUnder, hfault, queryUnder, query, hstatus]⟩
      | some status =>
          cases hlock : faults.lock with
          | some e =>
              exact ⟨dbErr e, by
                simp [deleteObjectVersionUnder, hfault, queryUnder, query, hstatus, hlock,
                  objectDeleteLockedUnder]⟩
          | none =>
              have hlocked : (selectObject bucket key versionId w.db).any
                  (ObjectRow.lockedAt w.now) = true := by
                simpa [DeleteRefused, hfault, hstatus, hlock] using h
              exact ⟨.objectLocked, by
                simp [deleteObjectVersionUnder, hfault, queryUnder, query, run_bind, hstatus,
                  hlock, objectDeleteLockedUnder, hlocked]⟩

/-- A delete that is not refused goes on with what its version id and the bucket's status
call for. -/
theorem deleteObjectVersionUnder_admitted {versionId : Option String}
    (h : ¬DeleteRefused faults bucket key versionId w) :
    ∃ status, versioningStatus bucket w.db = some status ∧
      (deleteObjectVersionUnder P faults bucket key versionId).run w =
        (match versionId with
          | some vid => hardDeleteVersionUnder P faults bucket key vid
          | none =>
              if status = VersioningStatus.unversioned then hardDeleteKeyUnder faults bucket key
              else createDeleteMarkerVia P (callUnder faults.writing) bucket key).run w := by
  simp only [DeleteRefused, not_or, not_not] at h
  obtain ⟨hfault, hthere, hlock, hlocked⟩ := h
  obtain ⟨status, hstatus⟩ := Option.ne_none_iff_exists'.mp hthere
  have hfree : (selectObject bucket key versionId w.db).any (ObjectRow.lockedAt w.now) = false :=
    eq_false_of_ne_true hlocked
  refine ⟨status, hstatus, ?_⟩
  simp [deleteObjectVersionUnder, hfault, queryUnder, query, run_bind, hstatus, hlock,
    objectDeleteLockedUnder, hfree]

/-- **Everything that can come of a delete under faults**: it fails exactly when
`DeleteFails` says so, and a failing delete without a version id has changed the store
exactly when it has demoted the latest row first. -/
theorem deleteObjectVersionUnder_cases (faults : DeleteFaults) (bucket key : String)
    (versionId : Option String) (w : World) :
    ((∃ r w', (deleteObjectVersionUnder P faults bucket key versionId).run w = (.ok r, w')) ∧
        ¬DeleteFails P faults bucket key versionId w) ∨
      (∃ e w', (deleteObjectVersionUnder P faults bucket key versionId).run w = (.error e, w') ∧
        DeleteFails P faults bucket key versionId w ∧
        (versionId = none → (Unchanged w w' ↔ ¬DemotesFirst faults bucket key versionId w))) := by
  by_cases hrefused : DeleteRefused faults bucket key versionId w
  · obtain ⟨e, he⟩ := deleteObjectVersionUnder_refused (P := P) hrefused
    refine Or.inr ⟨e, w, he, Or.inl hrefused, fun _ => ?_⟩
    exact ⟨fun _ hdemotes => hdemotes.1 hrefused, fun _ => Unchanged.refl w⟩
  · obtain ⟨status, hstatus, hrun⟩ := deleteObjectVersionUnder_admitted (P := P) hrefused
    rw [hrun, DeleteFails, or_iff_right hrefused]
    cases versionId with
    | some vid =>
        rcases hardDeleteVersionUnder_cases P faults bucket key w vid with
          hok | ⟨⟨e, w', he⟩, hbreaks⟩
        · exact Or.inl hok
        · exact Or.inr ⟨e, w', he, hbreaks, fun hnone => nomatch hnone⟩
    | none =>
        by_cases hun : status = .unversioned
        · subst hun
          rcases hardDeleteKeyUnder_cases P faults key hstatus with hok | ⟨⟨e, he⟩, hbreaks⟩
          · exact Or.inl (by simpa using hok)
          · refine Or.inr ⟨e, w, by simpa using he, hbreaks, fun _ => ?_⟩
            exact ⟨fun _ hdemotes => hdemotes.2.1 hstatus, fun _ => Unchanged.refl w⟩
        · rcases createDeleteMarkerUnder_cases P faults key hstatus hun with
            hok | ⟨e, w', he, hbreaks, hsame⟩
          · exact Or.inl (by simpa [hun] using hok)
          · refine Or.inr ⟨e, w', by simpa [hun] using he, hbreaks, fun _ => ?_⟩
            have hversioned : versioningStatus bucket w.db ≠ some .unversioned := by
              rw [hstatus]
              simpa using hun
            rw [hsame, DemotesFirst]
            constructor
            · rintro hquiet ⟨-, -, h0, r, hr, hlatest⟩
              rcases hquiet with h | h
              · exact h0 h
              · exact absurd hlatest (by simp [h r hr])
            · intro hnot
              by_contra hloud
              obtain ⟨h0, hsome⟩ := not_or.mp hloud
              refine hnot ⟨hrefused, hversioned, h0, ?_⟩
              by_contra hnone
              exact hsome fun r hr => eq_false_of_ne_true fun hlatest => hnone ⟨r, hr, hlatest⟩

end Cases

/-! ## The loop of the handler -/

/-- **An entry's turn**: the entry, what other requests have made of the store since the
turn before, the settings that its check finds, the time of it, and the faults of its
delete. -/
structure DeleteTurn where
  key : String
  versionId : Option String
  meanwhile : World → World
  auth : S3Auth
  now : DateTime
  faults : DeleteFaults

namespace DeleteTurn

/-- The entry of the request. -/
def entry (turn : DeleteTurn) : String × Option String := (turn.key, turn.versionId)

/-- The caller, checked against the settings of the turn. -/
def caller (turn : DeleteTurn) (caller : Caller) : Caller := { caller with auth := turn.auth }

end DeleteTurn

variable (uuid : Nat → String)

namespace S3Service

variable (caller : Caller) (bucket : String)

/-- The loop of `delete_objects`, turn by turn. -/
def deleteEachUnder : List DeleteTurn → ServiceWorld →
    (List (String × Option String) × List DeleteError) × ServiceWorld
  | [], s => (([], []), s)
  | turn :: turns, s =>
    match ({ s with store := turn.meanwhile s.store } : ServiceWorld).authorize uuid
        (turn.caller caller) turn.now (objectCheck "DeleteObject" bucket turn.key) with
    | (.error _, s) =>
      let ((deleted, errors), s) := deleteEachUnder turns s
      ((deleted,
        { key := turn.key, versionId := turn.versionId, code := "AccessDenied" } :: errors), s)
    | (.ok (), s) =>
      match (deleteObjectVersionUnder P turn.faults bucket turn.key turn.versionId).run s.store with
      | (.ok _, w) =>
        let ((deleted, errors), s) := deleteEachUnder turns { s with store := w }
        ((turn.entry :: deleted, errors), s)
      | (.error _, w) =>
        let ((deleted, errors), s) := deleteEachUnder turns { s with store := w }
        ((deleted, { key := turn.key, versionId := none, code := "InternalError" } :: errors), s)

/-- `delete_objects`, turn by turn. -/
def deleteObjectsUnder (now : DateTime) (turns : List DeleteTurn) (s : ServiceWorld) :
    Except S3Error S3Output × ServiceWorld :=
  match s.authorize uuid caller now (bucketCheck "DeleteObjects" bucket) with
  | (.error e, s) => (.error e, s)
  | (.ok (), s) =>
    let ((deleted, errors), s) := deleteEachUnder P uuid caller bucket turns s
    (.ok (.objectsDeleted deleted errors), s)

/-- A turn that nothing disturbs. -/
def quietTurn (now : DateTime) (entry : String × Option String) : DeleteTurn where
  key := entry.1
  versionId := entry.2
  meanwhile := id
  auth := caller.auth
  now := now
  faults := {}

/-- **Undisturbed, the loop is that of the handler.** -/
theorem deleteEachUnder_quiet (now : DateTime) (objects : List (String × Option String))
    (s : ServiceWorld) :
    deleteEachUnder P uuid caller bucket (objects.map (quietTurn caller now)) s =
      deleteEach P uuid caller now bucket objects s := by
  induction objects generalizing s with
  | nil => rfl
  | cons entry objects ih =>
      obtain ⟨key, versionId⟩ := entry
      simp only [List.map_cons, deleteEachUnder, deleteEach, ih]
      rfl

end S3Service

/-! ## What comes of each turn -/

/-- **A turn that was taken**: whether the entry was authorized, whether the store has
deleted it, and the store before and after. -/
structure DeleteAttempt where
  turn : DeleteTurn
  authorized : Bool
  stored : Bool
  before : World
  after : World

/-- The entry was authorized and the store has deleted it. -/
def DeleteAttempt.succeeded (a : DeleteAttempt) : Bool := a.authorized && a.stored

variable (caller : Caller) (bucket : String)

/-- What comes of a turn: a refused entry does not reach the store. -/
def attempt (turn : DeleteTurn) (s : ServiceWorld) : DeleteAttempt × ServiceWorld :=
  let before := turn.meanwhile s.store
  let (answer, s) := ({ s with store := before } : ServiceWorld).authorize uuid
    (turn.caller caller) turn.now (objectCheck "DeleteObject" bucket turn.key)
  match answer with
  | .error _ =>
    ({ turn, authorized := false, stored := false, before, after := s.store }, s)
  | .ok () =>
    let (result, after) :=
      (deleteObjectVersionUnder P turn.faults bucket turn.key turn.versionId).run s.store
    ({ turn, authorized := true, stored := result.isOk, before, after },
      { s with store := after })

/-- The turns of a request, taken one after another. -/
def attempts : List DeleteTurn → ServiceWorld → List DeleteAttempt
  | [], _ => []
  | turn :: turns, s =>
    (attempt P uuid caller bucket turn s).1 ::
      attempts turns (attempt P uuid caller bucket turn s).2

/-- **The answer accounts for every entry**: in the order of the request the entries that
were authorized and deleted are listed as deleted, all others as errors, each under its
key and its version id, and an entry with an error has left the store unchanged. -/
structure EntriesAccounted (turns : List DeleteTurn) (attempts : List DeleteAttempt)
    (deleted : List (String × Option String)) (errors : List DeleteError) : Prop where
  taken : attempts.map DeleteAttempt.turn = turns
  deleted : deleted = (attempts.filter fun a => a.succeeded).map fun a => a.turn.entry
  errors : (errors.map fun e => (e.key, e.versionId)) =
    (attempts.filter fun a => !a.succeeded).map fun a => a.turn.entry
  unchanged : ∀ a ∈ attempts, a.succeeded = false → Unchanged a.before a.after

/-- The error that is listed for an entry. -/
def DeleteAttempt.error (a : DeleteAttempt) : DeleteError :=
  if a.authorized then { key := a.turn.key, versionId := none, code := "InternalError" }
  else { key := a.turn.key, versionId := a.turn.versionId, code := "AccessDenied" }

section Attempts

/-- **Everything that can come of a turn.** -/
theorem attempt_cases (turn : DeleteTurn) (s : ServiceWorld) :
    ∃ a s', attempt P uuid caller bucket turn s = (a, s') ∧ a.turn = turn ∧
      ((a.authorized = true ∧ a.succeeded = true ∧
          ¬DeleteFails P turn.faults bucket turn.key turn.versionId a.before) ∨
        (a.authorized = false ∧ a.succeeded = false ∧ Unchanged a.before a.after) ∨
        (a.authorized = true ∧ a.succeeded = false ∧
          DeleteFails P turn.faults bucket turn.key turn.versionId a.before ∧
          (turn.versionId = none → (Unchanged a.before a.after ↔
            ¬DemotesFirst turn.faults bucket turn.key turn.versionId a.before)))) := by
  have hstore := (authorize_keeps uuid (turn.caller caller) turn.now
    (objectCheck "DeleteObject" bucket turn.key)
    { s with store := turn.meanwhile s.store }).1
  simp only [attempt]
  rcases hcheck : ({ s with store := turn.meanwhile s.store } : ServiceWorld).authorize uuid
    (turn.caller caller) turn.now (objectCheck "DeleteObject" bucket turn.key) with ⟨answer, s'⟩
  rw [hcheck] at hstore
  cases answer with
  | error e =>
      refine ⟨_, _, rfl, rfl, Or.inr (Or.inl ⟨rfl, rfl, ?_⟩)⟩
      exact ⟨congrArg World.db hstore, congrArg World.files hstore⟩
  | ok _ =>
      have hbefore : s'.store = turn.meanwhile s.store := hstore
      simp only [hbefore]
      rcases deleteObjectVersionUnder_cases (P := P) turn.faults bucket turn.key turn.versionId
          (turn.meanwhile s.store) with ⟨⟨r, w', hrun⟩, hfine⟩ | ⟨e, w', hrun, hfails, hsame⟩
      · simp only [hrun]
        exact ⟨_, _, rfl, rfl, Or.inl ⟨rfl, rfl, hfine⟩⟩
      · simp only [hrun]
        exact ⟨_, _, rfl, rfl, Or.inr (Or.inr ⟨rfl, rfl, hfails, hsame⟩)⟩

variable {P uuid caller bucket}

theorem attempts_taken (turns : List DeleteTurn) (s : ServiceWorld) :
    (attempts P uuid caller bucket turns s).map DeleteAttempt.turn = turns := by
  induction turns generalizing s with
  | nil => rfl
  | cons turn turns ih =>
      obtain ⟨a, s', hattempt, hturn, -⟩ := attempt_cases P uuid caller bucket turn s
      simp only [attempts, List.map_cons, ih, hattempt, hturn]

/-- Of every turn that was taken, `attempt_cases` speaks. -/
theorem attempts_cases {turns : List DeleteTurn} {s : ServiceWorld} {a : DeleteAttempt}
    (ha : a ∈ attempts P uuid caller bucket turns s) :
    (a.authorized = true ∧ a.succeeded = true ∧
        ¬DeleteFails P a.turn.faults bucket a.turn.key a.turn.versionId a.before) ∨
      (a.authorized = false ∧ a.succeeded = false ∧ Unchanged a.before a.after) ∨
      (a.authorized = true ∧ a.succeeded = false ∧
        DeleteFails P a.turn.faults bucket a.turn.key a.turn.versionId a.before ∧
        (a.turn.versionId = none → (Unchanged a.before a.after ↔
          ¬DemotesFirst a.turn.faults bucket a.turn.key a.turn.versionId a.before))) := by
  induction turns generalizing s with
  | nil => cases ha
  | cons turn turns ih =>
      obtain ⟨first, s', hattempt, hturn, hcases⟩ := attempt_cases P uuid caller bucket turn s
      rw [attempts, hattempt] at ha
      rcases List.mem_cons.mp ha with rfl | hrest
      · rw [hturn]
        exact hcases
      · exact ih hrest

/-- **What the two lists hold**: the entries of the turns that succeeded, and the errors
of the others. -/
theorem deleteEachUnder_eq (turns : List DeleteTurn) (s : ServiceWorld) :
    (S3Service.deleteEachUnder P uuid caller bucket turns s).1 =
      (((attempts P uuid caller bucket turns s).filter fun a => a.succeeded).map
          fun a => a.turn.entry,
        ((attempts P uuid caller bucket turns s).filter fun a => !a.succeeded).map
          DeleteAttempt.error) := by
  induction turns generalizing s with
  | nil => rfl
  | cons turn turns ih =>
      simp only [S3Service.deleteEachUnder, attempts, attempt]
      rcases ({ s with store := turn.meanwhile s.store } : ServiceWorld).authorize uuid
        (turn.caller caller) turn.now (objectCheck "DeleteObject" bucket turn.key) with ⟨answer, s'⟩
      cases answer with
      | error e =>
          simp [ih, DeleteAttempt.succeeded, DeleteAttempt.error]
      | ok _ =>
          rcases hrun : (deleteObjectVersionUnder P turn.faults bucket turn.key
            turn.versionId).run s'.store with ⟨result, w'⟩
          cases result with
          | error e =>
              simp [hrun, ih, DeleteAttempt.succeeded, DeleteAttempt.error, Except.isOk,
                Except.toBool]
          | ok r =>
              simp [hrun, ih, DeleteAttempt.succeeded, Except.isOk, Except.toBool]

end Attempts

/-! ## The answer as a whole -/

/-- The turns of a request whose first check is passed. -/
def requestAttempts (now : DateTime) (turns : List DeleteTurn) (s : ServiceWorld) :
    List DeleteAttempt :=
  attempts P uuid caller bucket turns
    (s.authorize uuid caller now (bucketCheck "DeleteObjects" bucket)).2

/-- **An answered request accounts for all its entries.** -/
def RequestAccounted (now : DateTime) (turns : List DeleteTurn) (s : ServiceWorld) : Prop :=
  ∀ deleted errors,
    (S3Service.deleteObjectsUnder P uuid caller bucket now turns s).1 =
        .ok (.objectsDeleted deleted errors) →
      EntriesAccounted turns (requestAttempts P uuid caller bucket now turns s) deleted errors

/-- **The condition**: an authorized entry that fails in the store names no version, and
its delete has not demoted the latest row. -/
def FailsHarmlessly (a : DeleteAttempt) : Prop :=
  a.authorized = true →
    DeleteFails P a.turn.faults bucket a.turn.key a.turn.versionId a.before →
    a.turn.versionId = none ∧
      ¬DemotesFirst a.turn.faults bucket a.turn.key a.turn.versionId a.before

variable {P uuid caller bucket}

/-- What the handler answers. -/
theorem deleteObjectsUnder_ok_iff {now : DateTime} {turns : List DeleteTurn} {s : ServiceWorld}
    {deleted : List (String × Option String)} {errors : List DeleteError} :
    (S3Service.deleteObjectsUnder P uuid caller bucket now turns s).1 =
        .ok (.objectsDeleted deleted errors) ↔
      (s.authorize uuid caller now (bucketCheck "DeleteObjects" bucket)).1 = .ok () ∧
        deleted = ((requestAttempts P uuid caller bucket now turns s).filter
          fun a => a.succeeded).map (fun a => a.turn.entry) ∧
        errors = ((requestAttempts P uuid caller bucket now turns s).filter
          fun a => !a.succeeded).map DeleteAttempt.error := by
  unfold S3Service.deleteObjectsUnder requestAttempts
  rcases s.authorize uuid caller now (bucketCheck "DeleteObjects" bucket) with ⟨answer, s'⟩
  cases answer with
  | error e => simp
  | ok _ =>
      simp only [deleteEachUnder_eq, Except.ok.injEq, S3Output.objectsDeleted.injEq, true_and]
      constructor
      · rintro ⟨rfl, rfl⟩
        exact ⟨rfl, rfl⟩
      · rintro ⟨rfl, rfl⟩
        exact ⟨rfl, rfl⟩

/-- **A turn is accounted for** exactly if its failure, when it fails in the store, is
harmless. -/
theorem accounted_iff_failsHarmlessly {turns : List DeleteTurn} {s : ServiceWorld}
    {a : DeleteAttempt} (ha : a ∈ attempts P uuid caller bucket turns s) :
    (a.succeeded = false →
        (a.error.key, a.error.versionId) = a.turn.entry ∧ Unchanged a.before a.after) ↔
      FailsHarmlessly P bucket a := by
  rcases attempts_cases ha with ⟨hauth, hok, hfine⟩ | ⟨hrefused, hno, hsame⟩ |
    ⟨hauth, hno, hfails, hsame⟩
  · constructor
    · intro _ _ hfails
      exact absurd hfails hfine
    · intro _ hno
      exact absurd (hok.symm.trans hno) (by decide)
  · constructor
    · intro _ hauth
      exact absurd (hrefused.symm.trans hauth) (by decide)
    · intro _ _
      refine ⟨?_, hsame⟩
      simp [DeleteAttempt.error, hrefused, DeleteTurn.entry]
  · have hlost : (a.error.key, a.error.versionId) = a.turn.entry ↔ a.turn.versionId = none := by
      simp [DeleteAttempt.error, hauth, DeleteTurn.entry, eq_comm]
    constructor
    · intro hcounted _ _
      obtain ⟨hentry, hunchanged⟩ := hcounted hno
      have hnone := hlost.mp hentry
      exact ⟨hnone, (hsame hnone).mp hunchanged⟩
    · intro hharmless _
      obtain ⟨hnone, hquiet⟩ := hharmless hauth hfails
      exact ⟨hlost.mpr hnone, (hsame hnone).mpr hquiet⟩

variable (P uuid caller bucket)

/-- **Which requests are accounted for**: those whose entries, as far as they fail in the
store, name no version and leave the latest row its flag. -/
theorem deleteObjects_accounted_iff (now : DateTime) (turns : List DeleteTurn)
    (s : ServiceWorld) :
    RequestAccounted P uuid caller bucket now turns s ↔
      ((s.authorize uuid caller now (bucketCheck "DeleteObjects" bucket)).1 = .ok () →
        ∀ a ∈ requestAttempts P uuid caller bucket now turns s, FailsHarmlessly P bucket a) := by
  constructor
  · intro haccounted hpassed a ha
    have hanswer := haccounted _ _ (deleteObjectsUnder_ok_iff.mpr ⟨hpassed, rfl, rfl⟩)
    refine (accounted_iff_failsHarmlessly ha).mp fun hno => ⟨?_, hanswer.unchanged a ha hno⟩
    have herrors := hanswer.errors
    rw [List.map_map] at herrors
    exact List.map_inj_left.mp herrors a (List.mem_filter.mpr ⟨ha, by simp [hno]⟩)
  · intro hharmless deleted errors hanswer
    obtain ⟨hpassed, rfl, rfl⟩ := deleteObjectsUnder_ok_iff.mp hanswer
    have hcounted := fun a ha => (accounted_iff_failsHarmlessly ha).mpr (hharmless hpassed a ha)
    refine ⟨attempts_taken _ _, rfl, ?_, fun a ha hno => (hcounted a ha hno).2⟩
    rw [List.map_map]
    refine List.map_inj_left.mpr fun a ha => ?_
    obtain ⟨hmem, hno⟩ := List.mem_filter.mp ha
    exact (hcounted a hmem (by simpa using hno)).1

/-! ## A held version -/

/-- A version under legal hold. -/
def heldVersion : ServiceWorld where
  store := (store executablePlatform).after {} [
    .createBucket "docs" {},
    .setBucketVersioning "docs" true,
    .putObject "docs" "k" [.ok [97]] {},
    .putObjectLegalHold "docs" "k" (some "01ARZ3NDEKTSV4RRFFQ69G5FA0") .on]

/-- Root asks for it to be deleted. -/
def deleteHeld : List DeleteTurn :=
  [S3Service.quietTurn rootCaller 0 ("k", some "01ARZ3NDEKTSV4RRFFQ69G5FA0")]

/-- **The error does not say which version it is about.** -/
theorem heldVersion_unaccounted :
    ¬RequestAccounted executablePlatform toString rootCaller "docs" 0 deleteHeld heldVersion := by
  intro haccounted
  have hanswer := haccounted [] [{ key := "k", versionId := none, code := "InternalError" }]
    (by decide +kernel)
  exact absurd hanswer.errors (by decide +kernel)

end Strix
