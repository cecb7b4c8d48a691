import Strix.ObjectWriters

/-!
# Deleting and locking objects

`deleteObjectVersion` asks `objectDeleteLocked` first.  With a version id it
removes that row and its blob and then flags the newest remaining row of the
key; without one it inserts a delete marker in a bucket that has been
versioned, and removes the key in one that has not.  `putObjectRetention` and
`putObjectLegalHold` set the lock columns.

* `deleteObjectVersion_cases` says everything a delete can do;
* `putObjectRetention_cases` and `putObjectLegalHold_cases` say everything
  a lock call can do.
-/

namespace Strix

open AtomicProgram AtomicProgram.Prog RowTable

/-- **A row is locked** under a legal hold, or while its retention lasts. -/
def ObjectRow.lockedAt (now : DateTime) (r : ObjectRow) : Bool :=
  r.legalHold || (r.retentionMode.isSome && r.retainUntilDate.any fun until_ => now < until_)

/-- `object_delete_locked`: the row the delete addresses, and the clock after
it. -/
def objectDeleteLocked (bucket key : String) (versionId : Option String) :
    StoreProg Bool := do
  let state ← query (selectObject bucket key versionId)
  let now ← clock
  return state.any (ObjectRow.lockedAt now)

@[simp] theorem objectDeleteLocked_run (bucket key : String) (versionId : Option String)
    (w : World) :
    (objectDeleteLocked bucket key versionId).run w =
      (.ok ((selectObject bucket key versionId w.db).any (ObjectRow.lockedAt w.now)), w) :=
  rfl

variable (P : Platform)

/-- Flag the newest of the key's rows as latest; the other flags stay. -/
def promoted (bucket key : String) (rows : List ObjectRow) : List ObjectRow :=
  match P.newest (rows.filter (atKey bucket key)) with
  | none => rows
  | some newest => updateRows (·.id == newest.id) ObjectRow.promote rows

/-- The promotion closure: select the newest, then update by its id. -/
def promoteNewest (bucket key : String) : Statement := fun _ db =>
  .ok { db with objects := promoted P bucket key db.objects }

/-- Remove blob files one after another. -/
def removeBlobs : List String → StoreProg Unit
  | [] => return ()
  | id :: rest => do
      removeBlob id
      removeBlobs rest

/-- The files without the blobs of these ids. -/
def Files.dropBlobs (files : Files) (ids : List String) : Files :=
  { files with objects := fun id => if id ∈ ids then none else files.objects id }

theorem Files.dropBlobs_of_not_mem {files : Files} {ids : List String} {id : String}
    (h : id ∉ ids) : (files.dropBlobs ids).objects id = files.objects id :=
  if_neg h

theorem removeBlobs_run (ids : List String) (w : World) :
    (removeBlobs ids).run w = (.ok (), { w with files := w.files.dropBlobs ids }) := by
  induction ids generalizing w with
  | nil => simp [removeBlobs, Files.dropBlobs]
  | cons id rest ih =>
      simp only [removeBlobs, removeBlob, run_update_bind, ih, Files.dropBlobs]
      congr 3
      funext other
      by_cases hrest : other ∈ rest
      · simp [hrest]
      · by_cases hid : other = id <;> simp [hrest, hid]

/-- The row of a delete marker. -/
def deleteMarkerRow (bucket key id : String) (now : DateTime) : ObjectRow where
  id := id
  bucket := bucket
  key := key
  versionId := id
  size := 0
  etag := ""
  isDeleteMarker := true
  createdAt := now
  lastModified := now

/-- Hard delete of one version. -/
def hardDeleteVersion (bucket key vid : String) : StoreProg DeleteObjectResponse := do
  let objectId ← query fun db => (selectObject bucket key (some vid) db).map (·.id)
  call [deleteObjects (atVersion bucket key vid)]
  removeBlobs objectId.toList
  call [promoteNewest P bucket key]
  return { deleteMarker := false, versionId := some vid }

/-- Soft delete: the latest rows lose their flag to a new delete marker. -/
def createDeleteMarker (bucket key : String) : StoreProg DeleteObjectResponse := do
  let n ← draw
  let deleteMarkerId := P.ulid n
  call [updateObjects (atLatest bucket key) ObjectRow.demote,
    insertObject (deleteMarkerRow bucket key deleteMarkerId)]
  return { deleteMarker := true, versionId := some deleteMarkerId }

/-- Hard delete of a key. -/
def hardDeleteKey (bucket key : String) : StoreProg DeleteObjectResponse := do
  let objectIds ← query fun db => (db.objects.filter (atKey bucket key)).map (·.id)
  call [deleteObjects (atKey bucket key)]
  removeBlobs objectIds
  return { deleteMarker := false, versionId := none }

/-- `delete_object_version`. -/
def deleteObjectVersion (bucket key : String) (versionId : Option String) :
    StoreProg DeleteObjectResponse := do
  let selected ← query (versioningStatus bucket)
  let status ← require selected (.bucketNotFound bucket)
  let locked ← objectDeleteLocked bucket key versionId
  ensure (!locked) .objectLocked
  match versionId with
  | some vid => hardDeleteVersion P bucket key vid
  | none =>
      if status = .unversioned then hardDeleteKey bucket key
      else createDeleteMarker P bucket key

/-- `delete_object`. -/
def deleteObject (bucket key : String) : StoreProg Unit := do
  let _ ← deleteObjectVersion P bucket key none
  return ()

/-- The soft delete, given how its metadata closure runs. -/
def createDeleteMarkerVia (closure : List Statement → StoreProg Unit) (bucket key : String) :
    StoreProg DeleteObjectResponse := do
  let n ← draw
  let deleteMarkerId := P.ulid n
  closure [updateObjects (atLatest bucket key) ObjectRow.demote,
    insertObject (deleteMarkerRow bucket key deleteMarkerId)]
  return { deleteMarker := true, versionId := some deleteMarkerId }

/-- `delete_object_version`, given how the closure of its soft delete runs. -/
def deleteObjectVersionVia (closure : List Statement → StoreProg Unit) (bucket key : String)
    (versionId : Option String) : StoreProg DeleteObjectResponse := do
  let selected ← query (versioningStatus bucket)
  let status ← require selected (.bucketNotFound bucket)
  let locked ← objectDeleteLocked bucket key versionId
  ensure (!locked) .objectLocked
  match versionId with
  | some vid => hardDeleteVersion P bucket key vid
  | none =>
      if status = .unversioned then hardDeleteKey bucket key
      else createDeleteMarkerVia P closure bucket key

/-- `delete_object`, given how the closure of its soft delete runs. -/
def deleteObjectVia (closure : List Statement → StoreProg Unit) (bucket key : String) :
    StoreProg Unit := do
  let _ ← deleteObjectVersionVia P closure bucket key none
  return ()

theorem deleteObjectVersionVia_call (bucket key : String) (versionId : Option String) :
    deleteObjectVersionVia P call bucket key versionId =
      deleteObjectVersion P bucket key versionId := rfl

theorem deleteObjectVia_call (bucket key : String) :
    deleteObjectVia P call bucket key = deleteObject P bucket key := rfl

/-! ## Locks -/

/-- A retention in force may be changed: never under COMPLIANCE, under
GOVERNANCE with the bypass only. -/
def retentionModifiable (current : Option ObjectRow) (bypassGovernance : Bool) : Bool :=
  match current with
  | none => true
  | some r =>
      match r.retentionMode, r.retainUntilDate with
      | some .compliance, some _ => false
      | some .governance, some _ => bypassGovernance
      | _, _ => true

/-- `put_object_retention`. -/
def putObjectRetention (bucket key : String) (versionId : Option String)
    (retention : ObjectRetention) (bypassGovernance : Bool) : StoreProg Unit := do
  let there ← query (bucketRowExists bucket)
  ensure there (.bucketNotFound bucket)
  let canModify ← query fun db =>
    retentionModifiable (selectObject bucket key versionId db) bypassGovernance
  ensure canModify .accessDenied
  call [updateObjects (addressed bucket key versionId) fun r => { r with
    retentionMode := some retention.mode
    retainUntilDate := some retention.retainUntilDate }]

/-- `put_object_legal_hold`. -/
def putObjectLegalHold (bucket key : String) (versionId : Option String)
    (status : LegalHoldStatus) : StoreProg Unit := do
  let there ← query (bucketRowExists bucket)
  ensure there (.bucketNotFound bucket)
  call [updateObjects (addressed bucket key versionId) fun r => { r with
    legalHold := status = .on }]

/-! ## What each operation can do -/

/-- A version and its blob gone, the newest remaining row flagged. -/
def World.removeVersion (w : World) (bucket key vid : String) : World :=
  { w with
    db := { w.db with
      objects := promoted P bucket key (deleteRows (atVersion bucket key vid) w.db.objects) }
    files := w.files.dropBlobs ((selectObject bucket key (some vid) w.db).map (·.id)).toList }

/-- A delete marker in front. -/
def World.addMarker (w : World) (bucket key : String) : World :=
  { w with
    db := { w.db with
      objects := insertRow (deleteMarkerRow bucket key (P.ulid w.draws) w.now.seconds)
        (updateRows (atLatest bucket key) ObjectRow.demote w.db.objects) }
    draws := w.draws + 1 }

/-- A key's rows and their blobs gone. -/
def World.removeKey (w : World) (bucket key : String) : World :=
  { w with
    db := { w.db with objects := deleteRows (atKey bucket key) w.db.objects }
    files := w.files.dropBlobs ((w.db.objects.filter (atKey bucket key)).map (·.id)) }

/-- The rows with an assignment made to those addressed. -/
def World.assignRows (w : World) (bucket key : String) (versionId : Option String)
    (assign : ObjectRow → ObjectRow) : World :=
  { w with
    db := { w.db with objects := updateRows (addressed bucket key versionId) assign w.db.objects } }

variable {P}

/-- **Everything a delete can do.**  It is refused for a missing bucket and
for a locked row; else it does what the version id and the bucket's status
call for. -/
theorem deleteObjectVersion_cases {w : World} (bucket key : String)
    (versionId : Option String) (hids : IdsDrawn P w) :
    (∃ e, (deleteObjectVersion P bucket key versionId).run w = (.error e, w) ∧
      (versioningStatus bucket w.db = none ∨
        (selectObject bucket key versionId w.db).any (ObjectRow.lockedAt w.now) = true)) ∨
    ∃ status, versioningStatus bucket w.db = some status ∧
      (selectObject bucket key versionId w.db).any (ObjectRow.lockedAt w.now) = false ∧
      ((∃ vid, versionId = some vid ∧
          (deleteObjectVersion P bucket key versionId).run w =
            (.ok { deleteMarker := false, versionId := some vid },
              w.removeVersion P bucket key vid)) ∨
        (versionId = none ∧ status ≠ .unversioned ∧
          (deleteObjectVersion P bucket key versionId).run w =
            (.ok { deleteMarker := true, versionId := some (P.ulid w.draws) },
              w.addMarker P bucket key)) ∨
        (versionId = none ∧ status = .unversioned ∧
          (deleteObjectVersion P bucket key versionId).run w =
            (.ok { deleteMarker := false, versionId := none },
              w.removeKey bucket key))) := by
  cases hstatus : versioningStatus bucket w.db with
  | none =>
      refine Or.inl ⟨.bucketNotFound bucket, ?_, Or.inl rfl⟩
      simp [deleteObjectVersion, query, hstatus]
  | some status =>
      cases hlocked : (selectObject bucket key versionId w.db).any
          (ObjectRow.lockedAt w.now) with
      | true =>
          refine Or.inl ⟨.objectLocked, ?_, Or.inr rfl⟩
          simp [deleteObjectVersion, query, run_bind, hstatus, hlocked]
      | false =>
          refine Or.inr ⟨status, rfl, rfl, ?_⟩
          cases versionId with
          | some vid =>
              refine Or.inl ⟨vid, rfl, ?_⟩
              simp [deleteObjectVersion, query, run_bind, hstatus, hlocked, hardDeleteVersion,
                deleteObjects, promoteNewest, runStatements, removeBlobs_run,
                World.removeVersion]
          | none =>
              by_cases hun : status = .unversioned
              · refine Or.inr (Or.inr ⟨rfl, hun, ?_⟩)
                subst hun
                simp [deleteObjectVersion, query, run_bind, hstatus, hlocked, hardDeleteKey,
                  deleteObjects, runStatements, removeBlobs_run, World.removeKey]
              · refine Or.inr (Or.inl ⟨rfl, hun, ?_⟩)
                obtain ⟨b, hb, hname, -⟩ := versioningStatus_bucket hstatus
                have hinsert : insertObject (deleteMarkerRow bucket key (P.ulid w.draws)) w.now
                    { w.db with
                      objects := updateRows (atLatest bucket key) ObjectRow.demote w.db.objects } =
                    .ok { w.db with
                      objects := insertRow
                        (deleteMarkerRow bucket key (P.ulid w.draws) w.now.seconds)
                        (updateRows (atLatest bucket key) ObjectRow.demote w.db.objects) } := by
                  refine insertObject_ok (fun r hr => ?_) ⟨b, hb, hname⟩
                  obtain ⟨old, hold, rfl⟩ := mem_updateRows.mp hr
                  have hfresh := hids.fresh (Nat.le_refl _) hold
                  by_cases hp : atLatest bucket key old = true <;>
                    simpa [hp, ObjectRow.demote, deleteMarkerRow] using hfresh
                simp [deleteObjectVersion, query, draw, run_bind, hstatus, hlocked, hun,
                  createDeleteMarker, updateObjects, runStatements, hinsert, World.addMarker]

/-- **A delete marker is asked for** when a key without a version id is deleted
from a bucket that has been versioned, and no lock forbids it. -/
def MarkAccepted (w : World) (bucket key : String) : Prop :=
  (∃ status, versioningStatus bucket w.db = some status ∧ status ≠ .unversioned) ∧
    (selectObject bucket key none w.db).any (ObjectRow.lockedAt w.now) = false

/-- **Everything a delete of a key does up to the closure of its soft
delete.** -/
theorem deleteObjectVersionVia_cases (w : World) (bucket key : String) :
    (¬ MarkAccepted w bucket key ∧ ∃ outcome,
      (∀ e, outcome.1 = .error e → outcome.2 = w) ∧
      ∀ closure, (deleteObjectVersionVia P closure bucket key none).run w = outcome) ∨
    (MarkAccepted w bucket key ∧
      ∀ closure, (deleteObjectVersionVia P closure bucket key none).run w =
        (closure [updateObjects (atLatest bucket key) ObjectRow.demote,
            insertObject (deleteMarkerRow bucket key (P.ulid w.draws))] >>= fun _ =>
          done { deleteMarker := true, versionId := some (P.ulid w.draws) }).run
            { w with draws := w.draws + 1 }) := by
  cases hstatus : versioningStatus bucket w.db with
  | none =>
      refine Or.inl ⟨?_, (.error (.bucketNotFound bucket), w), fun e _ => rfl, fun closure => ?_⟩
      · rintro ⟨⟨status, hsome, -⟩, -⟩
        rw [hstatus] at hsome
        cases hsome
      · simp [deleteObjectVersionVia, query, hstatus]
  | some status =>
      cases hlocked : (selectObject bucket key none w.db).any (ObjectRow.lockedAt w.now) with
      | true =>
          refine Or.inl ⟨?_, (.error .objectLocked, w), fun e _ => rfl, fun closure => ?_⟩
          · rintro ⟨-, hno⟩
            rw [hlocked] at hno
            cases hno
          · simp [deleteObjectVersionVia, query, run_bind, hstatus, hlocked]
      | false =>
          by_cases hun : status = .unversioned
          · refine Or.inl ⟨?_, (hardDeleteKey bucket key).run w, fun e he => ?_,
              fun closure => ?_⟩
            · rintro ⟨⟨status', hsome, hne⟩, -⟩
              rw [hstatus] at hsome
              cases hsome
              exact hne hun
            · simp [hardDeleteKey, query, deleteObjects, runStatements, run_bind,
                removeBlobs_run] at he
            · simp [deleteObjectVersionVia, query, run_bind, hstatus, hlocked, hun]
          · refine Or.inr ⟨⟨⟨status, hstatus, hun⟩, hlocked⟩, fun closure => ?_⟩
            simp [deleteObjectVersionVia, createDeleteMarkerVia, query, draw, run_bind, hstatus,
              hlocked, hun]

/-- **Everything a retention call can do.** -/
theorem putObjectRetention_cases (w : World) (bucket key : String)
    (versionId : Option String) (retention : ObjectRetention) (bypassGovernance : Bool) :
    (∃ e, (putObjectRetention bucket key versionId retention bypassGovernance).run w =
      (.error e, w)) ∨
    (retentionModifiable (selectObject bucket key versionId w.db) bypassGovernance = true ∧
      (putObjectRetention bucket key versionId retention bypassGovernance).run w =
        (.ok (), w.assignRows bucket key versionId fun r => { r with
          retentionMode := some retention.mode
          retainUntilDate := some retention.retainUntilDate })) := by
  cases hthere : bucketRowExists bucket w.db with
  | false =>
      exact Or.inl ⟨.bucketNotFound bucket, by simp [putObjectRetention, query, hthere]⟩
  | true =>
      cases hmod : retentionModifiable (selectObject bucket key versionId w.db)
          bypassGovernance with
      | false =>
          exact Or.inl ⟨.accessDenied, by simp [putObjectRetention, query, hthere, hmod]⟩
      | true =>
          refine Or.inr ⟨rfl, ?_⟩
          simp [putObjectRetention, query, hthere, hmod, updateObjects, runStatements,
            World.assignRows]

/-- **Everything a legal hold call can do.** -/
theorem putObjectLegalHold_cases (w : World) (bucket key : String)
    (versionId : Option String) (status : LegalHoldStatus) :
    (∃ e, (putObjectLegalHold bucket key versionId status).run w = (.error e, w)) ∨
    (putObjectLegalHold bucket key versionId status).run w =
      (.ok (), w.assignRows bucket key versionId fun r => { r with
        legalHold := status = .on }) := by
  cases hthere : bucketRowExists bucket w.db with
  | false =>
      exact Or.inl ⟨.bucketNotFound bucket, by simp [putObjectLegalHold, query, hthere]⟩
  | true =>
      refine Or.inr ?_
      simp [putObjectLegalHold, query, hthere, updateObjects, runStatements, World.assignRows]

end Strix
