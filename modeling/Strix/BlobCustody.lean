import Strix.SourceVersions

/-!
# Rows and blobs beside other calls

Any calls of the store run side by side, from the empty store on: database closures and file
operations take turns, and statements of a closure commit one by one.  A server may stop
anywhere, and the next one starts on what it has left.  The schema checks its
keys and references at every statement.  That every row has its blob is checked nowhere: a
writer writes the blob before it inserts the row, and a delete removes the blobs of rows that
it has looked up before it deleted them.

`CustodySteps` is the automaton of all calls.  Its stages say which blobs a call answers for:
one that it has drawn the id of or has written, or those of the rows that it deletes.

* `tame_createBucket` to `hardDelete_custody`: every statement keeps the references, and every
  call keeps to the automaton;
* `InCustody.step`: a step of the automaton keeps every row its blob, and every call its blobs;
* `rowsKeepBlobs`: in every schedule, and wherever servers stop, rows that are there have the
  blobs they were inserted with.
-/

namespace Strix

open AtomicProgram AtomicProgram.Prog MachineRuns RowTable

/-! ## What the schema promises -/

/-- **Keys are unique, and what is referred to is there.** -/
structure Db.Sound (db : Db) : Prop where
  bucketNames : Keyed (·.name) db.buckets
  objectBuckets : ∀ r ∈ db.objects, ∃ b ∈ db.buckets, b.name = r.bucket
  uploadIds : Keyed (·.uploadId) db.uploads
  uploadBuckets : ∀ u ∈ db.uploads, ∃ b ∈ db.buckets, b.name = u.bucket
  partNumbers : Keyed (fun p => (p.uploadId, p.partNumber)) db.parts
  partUploads : ∀ p ∈ db.parts, ∃ u ∈ db.uploads, u.uploadId = p.uploadId

/-- Some of the rows, with other flags and locks at most. -/
def Narrows (rows rows' : List ObjectRow) : Prop :=
  ∃ assign : ObjectRow → ObjectRow, (∀ r, SameVersion r (assign r)) ∧
    rows'.Sublist (rows.map assign)

namespace Narrows

variable {rows rows' rows'' : List ObjectRow}

theorem of_sublist (h : rows'.Sublist rows) : Narrows rows rows' :=
  ⟨id, fun r => .refl r, by rwa [List.map_id]⟩

theorem refl (rows : List ObjectRow) : Narrows rows rows := of_sublist (List.Sublist.refl rows)

theorem updateRows {p : ObjectRow → Bool} {assign : ObjectRow → ObjectRow}
    (h : ∀ r, SameVersion r (assign r)) : Narrows rows (updateRows p assign rows) := by
  refine ⟨fun r => if p r then assign r else r, fun r => ?_, List.Sublist.refl _⟩
  dsimp only
  split
  · exact h r
  · exact .refl r

theorem trans (h : Narrows rows rows') (h' : Narrows rows' rows'') : Narrows rows rows'' := by
  obtain ⟨assign, hassign, hsub⟩ := h
  obtain ⟨assign', hassign', hsub'⟩ := h'
  refine ⟨assign' ∘ assign, fun r => (hassign r).trans (hassign' _), hsub'.trans ?_⟩
  rw [← List.map_map]
  exact hsub.map assign'

theorem mem (h : Narrows rows rows') {r' : ObjectRow} (hr' : r' ∈ rows') :
    ∃ r ∈ rows, SameVersion r r' := by
  obtain ⟨assign, hassign, hsub⟩ := h
  obtain ⟨r, hr, rfl⟩ := List.mem_map.mp (hsub.subset hr')
  exact ⟨r, hr, hassign r⟩

theorem keyed {κ : Type} {key : ObjectRow → κ} (h : Narrows rows rows') (hkeyed : Keyed key rows)
    (hsame : ∀ r r', SameVersion r r' → key r' = key r) : Keyed key rows' := by
  obtain ⟨assign, hassign, hsub⟩ := h
  have hkeys : (rows.map assign).map key = rows.map key := by
    rw [List.map_map]
    exact List.map_congr_left fun r _ => hsame r _ (hassign r)
  exact (hsub.map key).nodup (hkeys ▸ hkeyed)

end Narrows

/-- **A statement inserts no object row** and keeps the schema's promises. -/
structure Statement.Tame (statement : Statement) : Prop where
  rows : ∀ now db db', statement now db = .ok db' → Narrows db.objects db'.objects
  sound : ∀ now db db', statement now db = .ok db' → db.Sound → db'.Sound

/-- A statement keeps the schema's promises. -/
def Statement.KeepsSound (statement : Statement) : Prop :=
  ∀ now db db', statement now db = .ok db' → db.Sound → db'.Sound

theorem runStatements_sound {statements : List Statement}
    (h : ∀ statement ∈ statements, statement.KeepsSound) (now : DateTime) {db : Db}
    (hdb : db.Sound) : (runStatements statements now db).2.Sound := by
  induction statements generalizing db with
  | nil => exact hdb
  | cons statement rest ih =>
      cases hrun : statement now db with
      | error e =>
          rw [runStatements_cons_error hrun]
          exact hdb
      | ok db' =>
          rw [runStatements_cons_ok hrun]
          exact ih (fun s hs => h s (List.mem_cons_of_mem _ hs))
            (h statement List.mem_cons_self now db db' hrun hdb)

theorem runStatements_narrows {statements : List Statement}
    (h : ∀ statement ∈ statements, statement.Tame) (now : DateTime) (db : Db) :
    Narrows db.objects (runStatements statements now db).2.objects := by
  induction statements generalizing db with
  | nil => exact .refl _
  | cons statement rest ih =>
      cases hrun : statement now db with
      | error e =>
          rw [runStatements_cons_error hrun]
          exact .refl _
      | ok db' =>
          rw [runStatements_cons_ok hrun]
          exact ((h statement List.mem_cons_self).rows now db db' hrun).trans
            (ih (fun s hs => h s (List.mem_cons_of_mem _ hs)) db')

section Statements

variable {db : Db}

/-- Fewer object rows, or other flags and locks. -/
theorem Db.Sound.narrowed {objects : List ObjectRow} (h : db.Sound)
    (hrows : Narrows db.objects objects) : ({ db with objects } : Db).Sound :=
  { h with
    objectBuckets := fun r' hr' => by
      obtain ⟨r, hr, hsame⟩ := hrows.mem hr'
      rw [hsame.bucket_eq]
      exact h.objectBuckets r hr }

theorem tame_updateObjects (p : ObjectRow → Bool) {assign : ObjectRow → ObjectRow}
    (h : ∀ r, SameVersion r (assign r)) : (updateObjects p assign).Tame := by
  constructor
  · rintro now db _ ⟨⟩
    exact .updateRows h
  · rintro now db _ ⟨⟩ hdb
    exact hdb.narrowed (.updateRows h)

theorem tame_deleteObjects (p : ObjectRow → Bool) : (deleteObjects p).Tame := by
  constructor
  · rintro now db _ ⟨⟩
    exact .of_sublist List.filter_sublist
  · rintro now db _ ⟨⟩ hdb
    exact hdb.narrowed (.of_sublist List.filter_sublist)

theorem tame_makeRoom (status : VersioningStatus) (bucket key : String) :
    (makeRoom status bucket key).Tame := by
  unfold makeRoom
  split
  · exact tame_updateObjects _ fun r => .demote r
  · exact tame_deleteObjects _

theorem tame_promoteNewest (P : Platform) (bucket key : String) :
    (promoteNewest P bucket key).Tame := by
  have hrows : ∀ rows, Narrows rows (promoted P bucket key rows) := by
    intro rows
    unfold promoted
    split
    · exact .refl _
    · exact .updateRows fun r => .promote r
  constructor
  · rintro now db _ ⟨⟩
    exact hrows _
  · rintro now db _ ⟨⟩ hdb
    exact hdb.narrowed (hrows _)

/-- An insert into `objects` checks that the bucket is there. -/
theorem keepsSound_insertObject (row : DateTime → ObjectRow) :
    (insertObject row).KeepsSound := by
  intro now db db' h hdb
  obtain ⟨-, hbucket, rfl⟩ := insertObject_eq_ok h
  refine { hdb with objectBuckets := fun r hr => ?_ }
  rcases mem_insertRow.mp hr with hold | rfl
  · exact hdb.objectBuckets r hold
  · exact hbucket

theorem tame_insertBucket (row : DateTime → BucketRow) : (insertBucket row).Tame := by
  have hok : ∀ now db db', insertBucket row now db = .ok db' →
      (∀ b ∈ db.buckets, b.name ≠ (row now.seconds).name) ∧
        db' = { db with buckets := insertRow (row now.seconds) db.buckets } := by
    intro now db db' h
    simp only [insertBucket] at h
    split at h
    · cases h
    · rename_i hnew
      cases h
      exact ⟨by simpa using hnew, rfl⟩
  constructor
  · intro now db db' h
    obtain ⟨-, rfl⟩ := hok now db db' h
    exact .refl _
  · intro now db db' h hdb
    obtain ⟨hnew, rfl⟩ := hok now db db' h
    refine { hdb with
      bucketNames := hdb.bucketNames.insertRow hnew
      objectBuckets := fun r hr => ?_
      uploadBuckets := fun u hu => ?_ }
    · obtain ⟨b, hb, hname⟩ := hdb.objectBuckets r hr
      exact ⟨b, mem_insertRow.mpr (Or.inl hb), hname⟩
    · obtain ⟨b, hb, hname⟩ := hdb.uploadBuckets u hu
      exact ⟨b, mem_insertRow.mpr (Or.inl hb), hname⟩

/-- Deleting a bucket deletes what refers to it. -/
theorem tame_deleteBucketRow (bucket : String) : (deleteBucketRow bucket).Tame := by
  constructor
  · rintro now db _ ⟨⟩
    exact .of_sublist List.filter_sublist
  · rintro now db _ ⟨⟩ hdb
    constructor
    case bucketNames => exact hdb.bucketNames.deleteRows
    case objectBuckets =>
      intro r hr
      obtain ⟨hold, hother⟩ := mem_deleteRows.mp hr
      obtain ⟨b, hb, hname⟩ := hdb.objectBuckets r hold
      exact ⟨b, mem_deleteRows.mpr ⟨hb, by rw [hname]; exact hother⟩, hname⟩
    case uploadIds => exact hdb.uploadIds.deleteRows
    case uploadBuckets =>
      intro u hu
      obtain ⟨hold, hother⟩ := mem_deleteRows.mp hu
      obtain ⟨b, hb, hname⟩ := hdb.uploadBuckets u hold
      exact ⟨b, mem_deleteRows.mpr ⟨hb, by rw [hname]; exact hother⟩, hname⟩
    case partNumbers => exact hdb.partNumbers.deleteRows
    case partUploads =>
      intro p hp
      obtain ⟨hold, hother⟩ := mem_deleteRows.mp hp
      obtain ⟨u, hu, hid⟩ := hdb.partUploads p hold
      refine ⟨u, mem_deleteRows.mpr ⟨hu, Bool.eq_false_iff.mpr fun hbucket => ?_⟩, hid⟩
      have hgone : ((db.uploads.filter (·.bucket == bucket)).map (·.uploadId)).contains
          p.uploadId = true := by
        rw [List.contains_iff_mem, ← hid]
        exact List.mem_map_of_mem (List.mem_filter.mpr ⟨hu, hbucket⟩)
      rw [hgone] at hother
      cases hother

theorem tame_insertUpload (row : DateTime → UploadRow) : (insertUpload row).Tame := by
  have hok : ∀ now db db', insertUpload row now db = .ok db' →
      (∀ u ∈ db.uploads, u.uploadId ≠ (row now.seconds).uploadId) ∧
        (∃ b ∈ db.buckets, b.name = (row now.seconds).bucket) ∧
        db' = { db with uploads := insertRow (row now.seconds) db.uploads } := by
    intro now db db' h
    simp only [insertUpload] at h
    split at h
    · cases h
    · rename_i hnew
      split at h
      · rename_i hbucket
        cases h
        exact ⟨by simpa using hnew, by simpa using hbucket, rfl⟩
      · cases h
  constructor
  · intro now db db' h
    obtain ⟨-, -, rfl⟩ := hok now db db' h
    exact .refl _
  · intro now db db' h hdb
    obtain ⟨hnew, hbucket, rfl⟩ := hok now db db' h
    refine { hdb with
      uploadIds := hdb.uploadIds.insertRow hnew
      uploadBuckets := fun u hu => ?_
      partUploads := fun p hp => ?_ }
    · rcases mem_insertRow.mp hu with hold | rfl
      · exact hdb.uploadBuckets u hold
      · exact hbucket
    · obtain ⟨u, hu, hid⟩ := hdb.partUploads p hp
      exact ⟨u, mem_insertRow.mpr (Or.inl hu), hid⟩

/-- Fewer parts. -/
theorem Db.Sound.fewerParts (h : db.Sound) (p : PartRow → Bool) :
    ({ db with parts := deleteRows p db.parts } : Db).Sound :=
  { h with
    partNumbers := h.partNumbers.deleteRows
    partUploads := fun part hpart => h.partUploads part (mem_deleteRows.mp hpart).1 }

theorem tame_deleteParts (p : PartRow → Bool) : (deleteParts p).Tame := by
  constructor
  · rintro now db _ ⟨⟩
    exact .refl _
  · rintro now db _ ⟨⟩ hdb
    exact hdb.fewerParts p

theorem tame_deleteUpload (uploadId : String) : (deleteUpload uploadId).Tame := by
  constructor
  · rintro now db _ ⟨⟩
    exact .refl _
  · rintro now db _ ⟨⟩ hdb
    refine { hdb.fewerParts (·.uploadId == uploadId) with
      uploadIds := hdb.uploadIds.deleteRows
      uploadBuckets := fun u hu => hdb.uploadBuckets u (mem_deleteRows.mp hu).1
      partUploads := fun p hp => ?_ }
    obtain ⟨hold, hother⟩ := mem_deleteRows.mp hp
    obtain ⟨u, hu, hid⟩ := hdb.partUploads p hold
    exact ⟨u, mem_deleteRows.mpr ⟨hu, by rw [hid]; exact hother⟩, hid⟩

theorem tame_insertPart (row : DateTime → PartRow) : (insertPart row).Tame := by
  have hok : ∀ now db db', insertPart row now db = .ok db' →
      (∀ p ∈ db.parts, (p.uploadId, p.partNumber) ≠
          ((row now.seconds).uploadId, (row now.seconds).partNumber)) ∧
        (∃ u ∈ db.uploads, u.uploadId = (row now.seconds).uploadId) ∧
        db' = { db with parts := insertRow (row now.seconds) db.parts } := by
    intro now db db' h
    simp only [insertPart] at h
    split at h
    · cases h
    · rename_i hnew
      split at h
      · rename_i hupload
        cases h
        refine ⟨fun p hp heq => hnew ?_, by simpa using hupload, rfl⟩
        obtain ⟨hid, hnumber⟩ := Prod.mk.inj heq
        rw [List.any_eq_true]
        exact ⟨p, hp, by simp [hid, hnumber]⟩
      · cases h
  constructor
  · intro now db db' h
    obtain ⟨-, -, rfl⟩ := hok now db db' h
    exact .refl _
  · intro now db db' h hdb
    obtain ⟨hnew, hupload, rfl⟩ := hok now db db' h
    refine { hdb with
      partNumbers := hdb.partNumbers.insertRow hnew
      partUploads := fun p hp => ?_ }
    rcases mem_insertRow.mp hp with hold | rfl
    · exact hdb.partUploads p hold
    · exact hupload

end Statements

/-! ## The steps of a call -/

/-- A step that inserts no object row, leaves the blobs alone and only ever draws. -/
structure Tame ⦃β : Type⦄ (act : World → β × World) : Prop where
  draws : ∀ w, w.draws ≤ (act w).2.draws
  rows : ∀ w, Narrows w.db.objects (act w).2.db.objects
  blobs : ∀ w, (act w).2.files.objects = w.files.objects
  sound : ∀ w, w.db.Sound → (act w).2.db.Sound

/-- The row that a step inserts beside `rows`: under the id of its draw, and the only one of its
version id. -/
structure Enters (id : String) (marker : Prop) (rows : List ObjectRow) (row : ObjectRow) :
    Prop where
  id_eq : row.id = id
  version : row.versionId = row.id ∨
    (row.versionId = "null" ∧ ∀ r ∈ rows, atKey row.bucket row.key r = false)
  marker : marker → row.isDeleteMarker = true

/-- A step that inserts one object row at most, under the id of its draw. -/
structure Inserting (id : String) (marker : Prop) ⦃β : Type⦄ (act : World → β × World) :
    Prop where
  draws : ∀ w, w.draws ≤ (act w).2.draws
  rows : ∀ w, Narrows w.db.objects (act w).2.db.objects ∨
    ∃ rows row, Narrows w.db.objects rows ∧ Enters id marker rows row ∧
      (act w).2.db.objects = insertRow row rows
  blobs : ∀ w, (act w).2.files.objects = w.files.objects
  sound : ∀ w, w.db.Sound → (act w).2.db.Sound

/-- The blobs that a call answers for when it goes on. -/
inductive Custody
  | idle
  /-- It has drawn an id and not written its blob. -/
  | drawn (n : Nat)
  /-- It has written the blob of its id. -/
  | written (n : Nat)
  /-- It has looked up the rows that it is going to delete. -/
  | found (bucket key : String) (versionId : Option String) (ids : List String)
  /-- It has deleted them, and removes their blobs. -/
  | gone (ids : List String)

/-- The draw that a call holds. -/
def Custody.pending : Custody → Option Nat
  | drawn n => some n
  | written n => some n
  | _ => none

/-- The ids whose blobs a call removes. -/
def Custody.removes : Custody → List String
  | gone ids => ids
  | _ => []

/-- The step that removes a blob. -/
def removeStep (objectId : String) (w : World) : Unit × World :=
  ((), { w with
    files := { w.files with objects := Function.update w.files.objects objectId none } })

/-- **The steps of a call**, by the blobs that it answers for. -/
inductive CustodySteps (P : Platform) : Automaton World Custody
  | tame {t : Custody} {β : Type} {act : World → β × World} (h : Tame act) :
      CustodySteps P t act fun _ => t
  | draws : CustodySteps P .idle drawStep .drawn
  | writes (n : Nat) (data : Bytes) :
      CustodySteps P (.drawn n) (blobStep (P.ulid n) data) fun _ => .written n
  | inserts {n : Nat} {β : Type} {act : World → β × World}
      (h : Inserting (P.ulid n) False act) : CustodySteps P (.written n) act fun _ => .idle
  | marks {n : Nat} {β : Type} {act : World → β × World}
      (h : Inserting (P.ulid n) True act) : CustodySteps P (.drawn n) act fun _ => .idle
  | finds (bucket key : String) (versionId : Option String) {β : Type} (read : Db → β)
      (ids : β → List String)
      (h : ∀ db, ∀ id ∈ ids (read db), ∃ r ∈ db.objects, r.id = id ∧
        doomed bucket key versionId r = true) :
      CustodySteps P .idle (fun w => (read w.db, w))
        fun found => .found bucket key versionId (ids found)
  | deletes (bucket key : String) (versionId : Option String) (ids : List String) :
      CustodySteps P (.found bucket key versionId ids)
        (closureStep [deleteObjects (doomed bucket key versionId)]) fun _ => .gone ids
  | removes {id : String} {ids : List String} (h : id ∈ ids) :
      CustodySteps P (.gone ids) (removeStep id) fun _ => .gone ids

section Calls

variable {P : Platform} {α : Type} {t : Custody}

theorem custody_free : Free (fun (_ : StoreProg α) (_ : Custody) => True) t :=
  ⟨fun _ _ _ => trivial, fun _ => trivial⟩

theorem Still.tame ⦃β : Type⦄ {act : World → β × World} (h : Still act) : Tame act where
  draws w := (h.1 w).2.1
  rows w := by
    rw [(h.1 w).1]
    exact .refl _
  blobs w := congrArg Files.objects (h.2 w)
  sound w hw := by
    rw [(h.1 w).1]
    exact hw

theorem tame_of_still {p : StoreProg α} (hp : Only Still p) : Only Tame p :=
  hp.mono fun _ _ h => h.tame

theorem tame_closure {statements : List Statement}
    (h : ∀ statement ∈ statements, statement.Tame) : Tame (closureStep statements) where
  draws _ := Nat.le_refl _
  rows w := runStatements_narrows h w.now w.db
  blobs _ := rfl
  sound w hw := runStatements_sound (fun s hs => (h s hs).sound) w.now hw

theorem tame_call {statements : List Statement}
    (h : ∀ statement ∈ statements, statement.Tame) : Only Tame (call statements) :=
  (only_perform (tame_closure h)).bind fun _ => only_lift _

/-- A step that does not touch the tables, the draws and the blobs. -/
theorem tame_perform {β : Type} {act : World → β × World}
    (h : ∀ w, (act w).2.db = w.db ∧ (act w).2.draws = w.draws ∧
      (act w).2.files.objects = w.files.objects) :
    Only Tame (perform act : StoreProg β) :=
  only_perform {
    draws := fun w => Nat.le_of_eq (h w).2.1.symm
    rows := fun w => (h w).1.symm ▸ .refl _
    blobs := fun w => (h w).2.2
    sound := fun w hw => (h w).1.symm ▸ hw }

/-- Tame steps come first. -/
theorem custody_tame {β : Type} {p : StoreProg α} {f : α → StoreProg β} (hp : Only Tame p)
    (hf : ∀ a, (f a).Staged (CustodySteps P) (fun _ _ => True) t) :
    (p >>= f).Staged (CustodySteps P) (fun _ _ => True) t :=
  hp.staged_bind (fun _ _ h => .tame h) custody_free hf

/-- A draw comes first. -/
theorem custody_draw {β : Type} {f : Nat → StoreProg β}
    (hf : ∀ n, (f n).Staged (CustodySteps P) (fun _ _ => True) (.drawn n)) :
    (draw >>= f).Staged (CustodySteps P) (fun _ _ => True) .idle :=
  staged_perform_bind .drawn trivial .draws hf

/-- The blob of the draw comes first. -/
theorem custody_writeBlob {β : Type} {n : Nat} {data : Bytes} {f : Unit → StoreProg β}
    (hf : (f ()).Staged (CustodySteps P) (fun _ _ => True) (.written n)) :
    (writeBlob (P.ulid n) data >>= f).Staged (CustodySteps P) (fun _ _ => True) (.drawn n) :=
  staged_perform_bind (fun _ => .written n) trivial (.writes n data) fun _ => hf

/-- The row of the draw comes first. -/
theorem custody_inserts {β : Type} {n : Nat} {statements : List Statement}
    {f : Unit → StoreProg β} (h : Inserting (P.ulid n) False (closureStep statements))
    (hf : (f ()).Staged (CustodySteps P) (fun _ _ => True) .idle) :
    (call statements >>= f).Staged (CustodySteps P) (fun _ _ => True) (.written n) :=
  staged_call (fun _ => .idle) trivial (.inserts h) (fun _ => trivial) hf

/-- A closure that makes room and inserts a row, before statements that are tame. -/
theorem inserting_makeRoom {n : Nat} {marker : Prop} {first : Statement}
    {row : DateTime → ObjectRow} {rest : List Statement} (hfirst : first.Tame)
    (hrest : ∀ statement ∈ rest, statement.Tame)
    (henters : ∀ now db db', first now db = .ok db' →
      Enters (P.ulid n) marker db'.objects (row now.seconds))
    (hkeeps : ∀ now db, (runStatements rest now db).2.objects = db.objects) :
    Inserting (P.ulid n) marker (closureStep (first :: insertObject row :: rest)) where
  draws _ := Nat.le_refl _
  rows w := by
    show Narrows w.db.objects (runStatements _ w.now w.db).2.objects ∨ _
    cases hrun : first w.now w.db with
    | error e =>
        rw [runStatements_cons_error hrun]
        exact Or.inl (.refl _)
    | ok db =>
        have hrows := hfirst.rows _ _ _ hrun
        cases hinsert : insertObject row w.now db with
        | error e =>
            rw [runStatements_cons_ok hrun, runStatements_cons_error hinsert]
            exact Or.inl hrows
        | ok db' =>
            obtain ⟨-, -, rfl⟩ := insertObject_eq_ok hinsert
            refine Or.inr ⟨db.objects, row w.now.seconds, hrows, henters _ _ _ hrun, ?_⟩
            show (runStatements _ w.now w.db).2.objects = _
            rw [runStatements_cons_ok hrun, runStatements_cons_ok hinsert, hkeeps]
  blobs _ := rfl
  sound w hw := by
    refine runStatements_sound (fun statement hs => ?_) w.now hw
    rcases List.mem_cons.mp hs with rfl | hs
    · exact hfirst.sound
    · rcases List.mem_cons.mp hs with rfl | hs
      · exact keepsSound_insertObject row
      · exact (hrest statement hs).sound

/-- A writer's row is the only one of its version id. -/
theorem enters_makeRoom {bucket key : String} {n : Nat} {row : DateTime → ObjectRow}
    {status : VersioningStatus} (hbucket : ∀ now, (row now).bucket = bucket)
    (hkey : ∀ now, (row now).key = key) (hid : ∀ now, (row now).id = P.ulid n)
    (hversion : ∀ now, (row now).versionId = newVersionId status (P.ulid n)) (now : DateTime)
    (db db' : Db) (hroom : makeRoom status bucket key now db = .ok db') :
    Enters (P.ulid n) False db'.objects (row now.seconds) := by
  rw [makeRoom_ok] at hroom
  obtain rfl := Except.ok.inj hroom
  refine ⟨hid _, ?_, False.elim⟩
  rw [hversion, newVersionId, hid, hbucket, hkey]
  by_cases hstatus : status = .enabled
  · rw [if_pos hstatus]
    exact Or.inl rfl
  · rw [if_neg hstatus]
    refine Or.inr ⟨rfl, fun r hr => ?_⟩
    dsimp only at hr
    rw [roomMade, if_neg hstatus] at hr
    exact (mem_deleteRows.mp hr).2

/-- The closure of a put or a copy. -/
theorem inserting_single {bucket key : String} {n : Nat} {row : DateTime → ObjectRow}
    {status : VersioningStatus} (hbucket : ∀ now, (row now).bucket = bucket)
    (hkey : ∀ now, (row now).key = key) (hid : ∀ now, (row now).id = P.ulid n)
    (hversion : ∀ now, (row now).versionId = newVersionId status (P.ulid n)) :
    Inserting (P.ulid n) False
      (closureStep [makeRoom status bucket key, insertObject row]) :=
  inserting_makeRoom (tame_makeRoom _ _ _) (fun _ hs => absurd hs List.not_mem_nil)
    (enters_makeRoom hbucket hkey hid hversion) fun _ _ => rfl

theorem putObject_custody (bucket key : String) (body : ObjectBody) (opts : PutObjectOpts) :
    (putObject P bucket key body opts).Staged (CustodySteps P) (fun _ _ => True) .idle := by
  unfold putObject
  refine custody_tame (tame_of_still (still_query _)) fun _ => ?_
  refine custody_tame (only_require _ _) fun status => ?_
  refine custody_draw fun n => ?_
  refine custody_tame (only_lift _) fun _ => ?_
  refine custody_tame (only_lift _) fun _ => ?_
  refine custody_tame (tame_of_still (still_sealContent _ _ _ _ _ _)) fun _ => ?_
  refine custody_writeBlob (custody_inserts ?_ trivial)
  exact inserting_single (fun _ => rfl) (fun _ => rfl) (fun _ => rfl) fun _ => rfl

theorem copyObject_custody (srcBucket srcKey dstBucket dstKey : String)
    (opts : CopyObjectOpts) :
    (copyObject P srcBucket srcKey dstBucket dstKey opts).Staged (CustodySteps P)
      (fun _ _ => True) .idle := by
  simp only [copyObject, copyBlob, Prog.bind_assoc]
  refine custody_tame (tame_of_still (still_headObject _ _)) fun srcInfo => ?_
  refine custody_tame (tame_of_still (still_query _)) fun _ => ?_
  refine custody_tame (only_require _ _) fun src => ?_
  refine custody_tame (tame_of_still (still_query _)) fun _ => ?_
  refine custody_tame (only_require _ _) fun status => ?_
  refine custody_draw fun n => ?_
  refine custody_tame (tame_of_still (still_readBlob _)) fun _ => ?_
  refine custody_tame (only_require _ _) fun ciphertext => ?_
  have hcloses : ((clock : StoreProg DateTime) >>= fun now =>
      call [makeRoom status dstBucket dstKey, insertObject (copyRow dstBucket dstKey srcInfo src
        opts (P.ulid n) (newVersionId status (P.ulid n)) now.seconds)] >>= fun _ =>
      pure (CopyObjectResponse.mk srcInfo.etag now
        (answeredVersionId status (newVersionId status (P.ulid n))))).Staged (CustodySteps P)
          (fun _ _ => True) (.written n) := by
    refine custody_tame (tame_of_still still_clock) fun _ => custody_inserts ?_ trivial
    exact inserting_single (fun _ => rfl) (fun _ => rfl) (fun _ => rfl) fun _ => rfl
  split
  · simp only [Prog.bind_assoc]
    refine custody_tame (only_lift _) fun _ => ?_
    refine custody_tame (tame_of_still (still_encryptFresh _ _)) fun _ => ?_
    exact custody_writeBlob hcloses
  · exact custody_writeBlob hcloses

theorem completeMultipartUpload_custody (upload : MultipartUpload)
    (parts : List CompletePart) :
    (completeMultipartUpload P upload parts).Staged (CustodySteps P) (fun _ _ => True)
      .idle := by
  unfold completeMultipartUpload
  refine custody_tame (only_ensure _ _) fun _ => ?_
  refine custody_tame (tame_of_still (still_query _)) fun _ => ?_
  refine custody_tame (only_require _ _) fun uploadMeta => ?_
  refine custody_tame (tame_of_still (still_query _)) fun _ => ?_
  refine custody_tame (only_require _ _) fun status => ?_
  refine custody_tame (tame_of_still (still_query _)) fun _ => ?_
  refine custody_tame (only_lift _) fun _ => ?_
  refine custody_draw fun n => ?_
  refine custody_tame (tame_of_still (still_readParts _ _)) fun _ => ?_
  refine custody_tame (tame_of_still (still_sealUpload _ _ _)) fun _ => ?_
  refine custody_writeBlob (custody_inserts ?_ ?_)
  · refine inserting_makeRoom (tame_makeRoom _ _ _) (fun statement hs => ?_)
      (enters_makeRoom (fun _ => rfl) (fun _ => rfl) (fun _ => rfl) fun _ => rfl) fun _ _ => rfl
    rcases List.mem_pair.mp hs with rfl | rfl
    · exact tame_deleteParts _
    · exact tame_deleteUpload _
  · exact custody_tame (tame_perform fun _ => ⟨rfl, rfl, rfl⟩) fun _ => trivial

/-- Blobs are removed one after another. -/
theorem removeBlobs_custody {β : Type} {ids : List String} {f : Unit → StoreProg β}
    (hf : (f ()).Staged (CustodySteps P) (fun _ _ => True) (.gone ids)) {chosen : List String}
    (h : ∀ id ∈ chosen, id ∈ ids) :
    (removeBlobs chosen >>= f).Staged (CustodySteps P) (fun _ _ => True) (.gone ids) := by
  induction chosen with
  | nil => exact hf
  | cons id rest ih =>
      exact ⟨trivial, fun _ => .gone ids, .removes (h id List.mem_cons_self),
        fun _ => ih fun other hmem => h other (List.mem_cons_of_mem _ hmem)⟩

/-- A hard delete looks up, deletes and removes. -/
theorem hardDelete_custody (bucket key : String) (versionId : Option String) :
    (hardDelete P bucket key versionId).Staged (CustodySteps P) (fun _ _ => True) .idle := by
  have hdeletes : ∀ (ids : List String) (f : Unit → StoreProg DeleteObjectResponse),
      (f ()).Staged (CustodySteps P) (fun _ _ => True) (.gone ids) →
      (call [deleteObjects (doomed bucket key versionId)] >>= f).Staged (CustodySteps P)
        (fun _ _ => True) (.found bucket key versionId ids) := fun ids f hf =>
    staged_call (fun _ => .gone ids) trivial (.deletes bucket key versionId ids)
      (fun _ => trivial) hf
  cases versionId with
  | some vid =>
      refine staged_perform_bind (fun found => .found bucket key (some vid) found.toList) trivial
        (.finds bucket key (some vid) (fun db => (selectObject bucket key (some vid) db).map (·.id))
          Option.toList fun db id hid => ?_) fun objectId => ?_
      · obtain ⟨r, hr, rfl⟩ := Option.map_eq_some_iff.mp (Option.mem_toList.mp hid)
        obtain ⟨hmem, hp⟩ := selectFirst_some hr
        exact ⟨r, hmem, rfl, hp⟩
      · refine hdeletes _ _ (removeBlobs_custody ?_ fun _ h => h)
        refine custody_tame (tame_call fun statement hs => ?_) fun _ => trivial
        obtain rfl := List.mem_singleton.mp hs
        exact tame_promoteNewest P bucket key
  | none =>
      refine staged_perform_bind (fun found => .found bucket key none found) trivial
        (.finds bucket key none (fun db => (db.objects.filter (atKey bucket key)).map (·.id))
          id fun db id hid => ?_) fun objectIds => ?_
      · obtain ⟨r, hr, rfl⟩ := List.mem_map.mp hid
        obtain ⟨hmem, hp⟩ := List.mem_filter.mp hr
        exact ⟨r, hmem, rfl, hp⟩
      · refine hdeletes _ _ (removeBlobs_custody ?_ fun _ h => h)
        trivial

theorem deleteObjectVersion_custody (bucket key : String) (versionId : Option String) :
    (deleteObjectVersion P bucket key versionId).Staged (CustodySteps P) (fun _ _ => True)
      .idle := by
  have hhard := hardDelete_custody (P := P) bucket key versionId
  unfold deleteObjectVersion
  refine custody_tame (tame_of_still (still_query _)) fun _ => ?_
  refine custody_tame (only_require _ _) fun status => ?_
  refine custody_tame (tame_of_still (still_objectDeleteLocked _ _ _)) fun _ => ?_
  refine custody_tame (only_ensure _ _) fun _ => ?_
  cases versionId with
  | some vid => exact hhard
  | none =>
      by_cases hunversioned : status = .unversioned
      · simp only [hunversioned, if_true]
        exact hhard
      · simp only [hunversioned, if_false, createDeleteMarker]
        refine custody_draw fun n => ?_
        refine staged_call (fun _ => .idle) trivial (.marks ?_) (fun _ => trivial) trivial
        refine inserting_makeRoom (tame_updateObjects _ fun r => .demote r)
          (fun _ hs => absurd hs List.not_mem_nil) (fun _ _ _ _ => ?_) fun _ _ => rfl
        exact ⟨rfl, Or.inl rfl, fun _ => rfl⟩


theorem tame_createBucket (bucket : String) (opts : CreateBucketOpts) :
    Only Tame (createBucket bucket opts) := by
  refine (only_lift _).bind fun _ => (only_perform ?_).bind fun _ => only_lift _
  refine tame_closure fun statement hs => ?_
  obtain rfl := List.mem_singleton.mp hs
  exact tame_insertBucket _

theorem tame_deleteBucket (bucket : String) : Only Tame (deleteBucket bucket) := by
  refine (tame_of_still (still_query _)).bind fun _ => (only_ensure _ _).bind fun _ => ?_
  refine (only_ensure _ _).bind fun _ => tame_call fun statement hs => ?_
  obtain rfl := List.mem_singleton.mp hs
  exact tame_deleteBucketRow bucket

/-- A bucket keeps its name when its status changes. -/
theorem tame_setBucketVersioning (bucket : String) (enabled : Bool) :
    Only Tame (setBucketVersioning bucket enabled) := by
  refine (only_perform ⟨fun _ => Nat.le_refl _, fun _ => .refl _, fun _ => rfl, ?_⟩).bind
    fun _ => only_ensure _ _
  intro w hw
  have hthere : ∀ name, (∃ b ∈ w.db.buckets, b.name = name) →
      ∃ b ∈ setStatus bucket (if enabled then .enabled else .suspended) w.db.buckets,
        b.name = name := by
    rintro name ⟨b, hb, rfl⟩
    by_cases hp : (b.name == bucket) = true
    · exact ⟨_, assign_mem_updateRows hb hp, rfl⟩
    · exact ⟨b, mem_updateRows_of_not hb (Bool.eq_false_iff.mpr hp), rfl⟩
  exact { hw with
    bucketNames := hw.bucketNames.updateRows fun _ _ => rfl
    objectBuckets := fun r hr => hthere _ (hw.objectBuckets r hr)
    uploadBuckets := fun u hu => hthere _ (hw.uploadBuckets u hu) }

theorem tame_createUploadDir (uploadId : String) : Only Tame (createUploadDir uploadId) :=
  tame_perform fun _ => ⟨rfl, rfl, rfl⟩

theorem tame_removeUploadDir (uploadId : String) : Only Tame (removeUploadDir uploadId) :=
  tame_perform fun _ => ⟨rfl, rfl, rfl⟩

theorem tame_createMultipartUpload (bucket key : String) (opts : PutObjectOpts) :
    Only Tame (createMultipartUpload P bucket key opts) := by
  refine (tame_of_still (still_query _)).bind fun _ => (only_ensure _ _).bind fun _ => ?_
  refine (tame_of_still still_draw).bind fun _ => (tame_of_still still_clock).bind fun _ => ?_
  refine (tame_createUploadDir _).bind fun _ => (tame_call fun statement hs => ?_).bind
    fun _ => only_pure _
  obtain rfl := List.mem_singleton.mp hs
  exact tame_insertUpload _

theorem tame_writeChunks (uploadId : String) (partNumber inode : Nat) (written : Bytes)
    (body : ObjectBody) :
    Only Tame (writeChunks uploadId partNumber inode written body) := by
  induction body generalizing written with
  | nil => exact only_pure _
  | cons chunk rest ih =>
      cases chunk with
      | error e => exact only_fail _
      | ok chunk =>
          refine Only.bind (tame_perform fun w => ?_) fun _ => ih _
          cases hfile : w.files.part uploadId partNumber with
          | none => simp only [hfile, and_self]
          | some file =>
              simp only [hfile]
              split <;> exact ⟨rfl, rfl, rfl⟩

theorem tame_uploadPart (upload : MultipartUpload) (partNumber : Nat) (body : ObjectBody) :
    Only Tame (uploadPart P upload partNumber body) := by
  refine (only_ensure _ _).bind fun _ => (tame_of_still (still_query _)).bind fun _ => ?_
  refine (only_ensure _ _).bind fun _ => (tame_of_still still_draw).bind fun _ => ?_
  refine (tame_createUploadDir _).bind fun _ => Only.bind (tame_perform fun w => ?_) fun _ => ?_
  · cases w.files.multipart upload.uploadId <;> exact ⟨rfl, rfl, rfl⟩
  · refine (only_require _ _).bind fun _ => (tame_writeChunks _ _ _ _ _).bind fun _ => ?_
    refine (tame_of_still still_clock).bind fun _ => (tame_call fun statement hs => ?_).bind
      fun _ => only_pure _
    rcases List.mem_pair.mp hs with rfl | rfl
    · exact tame_deleteParts _
    · exact tame_insertPart _

/-- An upload's rows go. -/
theorem tame_closesUpload (uploadId : String) :
    Only Tame (call [deleteParts (·.uploadId == uploadId), deleteUpload uploadId]) := by
  refine tame_call fun statement hs => ?_
  rcases List.mem_pair.mp hs with rfl | rfl
  · exact tame_deleteParts _
  · exact tame_deleteUpload _

theorem tame_abortMultipartUpload (upload : MultipartUpload) :
    Only Tame (abortMultipartUpload upload) := by
  refine (tame_of_still (still_query _)).bind fun _ => (only_ensure _ _).bind fun _ => ?_
  exact (tame_closesUpload _).bind fun _ => tame_removeUploadDir _

theorem tame_abortStaleMultipart (uploadId : String) :
    Only Tame (abortStaleMultipart uploadId) :=
  (tame_removeUploadDir _).bind fun _ => tame_closesUpload _

/-- A lock call assigns to the rows that it addresses. -/
theorem tame_locks (bucket key : String) (versionId : Option String)
    {assign : ObjectRow → ObjectRow} (h : LockAssign assign) :
    Only Tame (call [updateObjects (addressed bucket key versionId) assign]) := by
  refine tame_call fun statement hs => ?_
  obtain rfl := List.mem_singleton.mp hs
  exact tame_updateObjects _ h.sameVersion

theorem tame_putObjectRetention (bucket key : String) (versionId : Option String)
    (retention : ObjectRetention) (bypassGovernance : Bool) :
    Only Tame (putObjectRetention bucket key versionId retention bypassGovernance) := by
  refine (tame_of_still (still_query _)).bind fun _ => (only_ensure _ _).bind fun _ => ?_
  refine (tame_of_still (still_query _)).bind fun _ => (only_ensure _ _).bind fun _ => ?_
  exact tame_locks bucket key versionId (.retain retention)

theorem tame_putObjectLegalHold (bucket key : String) (versionId : Option String)
    (status : LegalHoldStatus) : Only Tame (putObjectLegalHold bucket key versionId status) := by
  refine (tame_of_still (still_query _)).bind fun _ => (only_ensure _ _).bind fun _ => ?_
  exact tame_locks bucket key versionId (.hold status)

/-- **Every call** keeps to the automaton. -/
theorem program_custody (op : Op) :
    (program P op).Staged (CustodySteps P) (fun _ _ => True) .idle := by
  have htame : ∀ {β : Type} {p : StoreProg β} (wrap : β → Reply), Only Tame p →
      (replying wrap p).Staged (CustodySteps P) (fun _ _ => True) .idle := fun wrap hp =>
    custody_tame hp fun _ => trivial
  cases op with
  | putObject bucket key body opts => exact (putObject_custody bucket key body opts).wrap _
  | copyObject srcBucket srcKey dstBucket dstKey opts =>
      exact (copyObject_custody srcBucket srcKey dstBucket dstKey opts).wrap _
  | completeMultipartUpload upload parts =>
      exact (completeMultipartUpload_custody upload parts).wrap _
  | deleteObject bucket key =>
      exact ((deleteObjectVersion_custody bucket key none).wrap fun _ => ()).wrap _
  | deleteObjectVersion bucket key versionId =>
      exact (deleteObjectVersion_custody bucket key versionId).wrap _
  | createBucket bucket opts => exact htame _ (tame_createBucket bucket opts)
  | deleteBucket bucket => exact htame _ (tame_deleteBucket bucket)
  | setBucketVersioning bucket enabled => exact htame _ (tame_setBucketVersioning bucket enabled)
  | createMultipartUpload bucket key opts =>
      exact htame _ (tame_createMultipartUpload bucket key opts)
  | uploadPart upload partNumber body => exact htame _ (tame_uploadPart upload partNumber body)
  | abortMultipartUpload upload => exact htame _ (tame_abortMultipartUpload upload)
  | abortStaleMultipart uploadId => exact htame _ (tame_abortStaleMultipart uploadId)
  | putObjectRetention bucket key versionId retention bypassGovernance =>
      exact htame _ (tame_putObjectRetention bucket key versionId retention bypassGovernance)
  | putObjectLegalHold bucket key versionId status =>
      exact htame _ (tame_putObjectLegalHold bucket key versionId status)
  | tick nanoseconds =>
      exact htame _ (tame_perform fun _ => ⟨rfl, rfl, rfl⟩)

end Calls

/-! ## What holds throughout a schedule -/

/-- **What a call knows of the blobs that it answers for**, in any state on its way. -/
def Custody.Answers (P : Platform) (pending : List (Option Nat)) (w : World) : Custody → Prop
  | idle => True
  | drawn n => w.files.objects (P.ulid n) = none
  | written n => w.files.objects (P.ulid n) ≠ none
  | found bucket key versionId ids => ∀ id ∈ ids, Taken P id pending w ∧
      ∀ r ∈ w.db.objects, r.id = id → doomed bucket key versionId r = true
  | gone ids => ∀ id ∈ ids, Taken P id pending w ∧ ∀ r ∈ w.db.objects, r.id ≠ id

/-- **The invariant of a schedule**: every row that is no delete marker has its blob, and every
call answers for what it holds. -/
structure InCustody (P : Platform) (stages : List Custody) (w : World) : Prop where
  apart : DrawsApart P (stages.map Custody.pending) w
  sound : w.db.Sound
  keyedId : Keyed (·.id) w.db.objects
  keyedVersion : Keyed (fun r => (r.bucket, r.key, r.versionId)) w.db.objects
  versionIds : ∀ r ∈ w.db.objects, r.versionId = "null" ∨ r.versionId = r.id
  blank : ∀ n, w.draws ≤ n → w.files.objects (P.ulid n) = none
  blobs : ∀ r ∈ w.db.objects, r.isDeleteMarker = false → w.files.objects r.id ≠ none
  answers : ∀ (i : Nat) (t : Custody), stages[i]? = some t →
    t.Answers P (stages.map Custody.pending) w

/-- **What a step of a call in stage `t` does**, as the others see it. -/
structure Passes (P : Platform) (t : Custody) (w w' : World) : Prop where
  draws : w.draws ≤ w'.draws
  rows : ∀ r' ∈ w'.db.objects, (∃ r ∈ w.db.objects, SameVersion r r') ∨
    ∃ n, t.pending = some n ∧ r'.id = P.ulid n
  blobs : ∀ id, w'.files.objects id = w.files.objects id ∨
    (∃ n, t = .drawn n ∧ id = P.ulid n) ∨ (id ∈ t.removes ∧ w'.files.objects id = none)

section Steps

variable {P : Platform} {t u : Custody} {β : Type} {act : World → β × World}
  {after : β → Custody} {stages : List Custody} {pending pending' : List (Option Nat)}
  {i j : Nat} {w w' : World}

theorem Tame.passes (h : Tame act) (t : Custody) (w : World) : Passes P t w (act w).2 where
  draws := h.draws w
  rows _ hr' := Or.inl ((h.rows w).mem hr')
  blobs id := Or.inl (congrFun (h.blobs w) id)

theorem Inserting.passes {n : Nat} {marker : Prop} (h : Inserting (P.ulid n) marker act)
    (ht : t.pending = some n) (w : World) : Passes P t w (act w).2 where
  draws := h.draws w
  rows r' hr' := by
    rcases h.rows w with hrows | ⟨rows, row, hrows, hrow, hobjects⟩
    · exact Or.inl (hrows.mem hr')
    · rcases mem_insertRow.mp (hobjects ▸ hr') with hmem | rfl
      · exact Or.inl (hrows.mem hmem)
      · exact Or.inr ⟨n, ht, hrow.id_eq⟩
  blobs id := Or.inl (congrFun (h.blobs w) id)

theorem tame_deletes (bucket key : String) (versionId : Option String) :
    Tame (closureStep [deleteObjects (doomed bucket key versionId)]) := by
  refine tame_closure fun statement hs => ?_
  obtain rfl := List.mem_singleton.mp hs
  exact tame_deleteObjects _

/-- **Every step** passes the others by. -/
theorem CustodySteps.passes (h : CustodySteps P t act after) (w : World) :
    Passes P t w (act w).2 := by
  cases h with
  | tame htame => exact htame.passes t w
  | draws => exact ⟨Nat.le_succ _, fun r hr => Or.inl ⟨r, hr, .refl r⟩, fun _ => Or.inl rfl⟩
  | writes n data =>
      refine ⟨Nat.le_refl _, fun r hr => Or.inl ⟨r, hr, .refl r⟩, fun id => ?_⟩
      by_cases hid : id = P.ulid n
      · exact Or.inr (Or.inl ⟨n, rfl, hid⟩)
      · exact Or.inl (Function.update_of_ne hid _ _)
  | inserts hinserts => exact hinserts.passes rfl w
  | marks hmarks => exact hmarks.passes rfl w
  | finds bucket key versionId read ids hread =>
      exact ⟨Nat.le_refl _, fun r hr => Or.inl ⟨r, hr, .refl r⟩, fun _ => Or.inl rfl⟩
  | deletes bucket key versionId ids => exact (tame_deletes bucket key versionId).passes _ w
  | @removes gone ids hgone =>
      refine ⟨Nat.le_refl _, fun r hr => Or.inl ⟨r, hr, .refl r⟩, fun id => ?_⟩
      by_cases hid : id = gone
      · subst hid
        exact Or.inr (Or.inr ⟨hgone, Function.update_self _ _ _⟩)
      · exact Or.inl (Function.update_of_ne hid _ _)

/-- **What a step does to the draw of its call**: nothing, or it draws, or it holds no draw
afterwards. -/
theorem CustodySteps.pending_cases (h : CustodySteps P t act after) (w : World) :
    ((after (act w).1).pending = t.pending ∧ Narrows w.db.objects (act w).2.db.objects) ∨
      ((after (act w).1).pending = some w.draws ∧ (act w).2.db.objects = w.db.objects ∧
        (act w).2.draws = w.draws + 1) ∨
      (after (act w).1).pending = none := by
  cases h with
  | tame htame => exact Or.inl ⟨rfl, htame.rows w⟩
  | draws => exact Or.inr (Or.inl ⟨rfl, rfl, rfl⟩)
  | writes n data => exact Or.inl ⟨rfl, .refl _⟩
  | _ => exact Or.inr (Or.inr rfl)

/-- **What a step does to the rows**: it narrows them, or inserts the row of the draw of its
call beside, which has its blob or is a delete marker. -/
theorem CustodySteps.rows_cases (h : CustodySteps P t act after) (w : World) :
    Narrows w.db.objects (act w).2.db.objects ∨
      ∃ n marker rows row, (t = .written n ∨ (t = .drawn n ∧ row.isDeleteMarker = true)) ∧
        Narrows w.db.objects rows ∧ Enters (P.ulid n) marker rows row ∧
        (act w).2.db.objects = insertRow row rows ∧
        (act w).2.files.objects = w.files.objects := by
  cases h with
  | tame htame => exact Or.inl (htame.rows w)
  | @inserts n _ _ hinserts =>
      rcases hinserts.rows w with hrows | ⟨rows, row, hrows, hrow, hobjects⟩
      · exact Or.inl hrows
      · exact Or.inr ⟨n, False, rows, row, Or.inl rfl, hrows, hrow, hobjects, hinserts.blobs w⟩
  | @marks n _ _ hmarks =>
      rcases hmarks.rows w with hrows | ⟨rows, row, hrows, hrow, hobjects⟩
      · exact Or.inl hrows
      · exact Or.inr ⟨n, True, rows, row, Or.inr ⟨rfl, hrow.marker trivial⟩, hrows, hrow, hobjects,
          hmarks.blobs w⟩
  | deletes bucket key versionId ids => exact Or.inl ((tame_deletes bucket key versionId).rows w)
  | _ => exact Or.inl (.refl _)

theorem CustodySteps.sound (h : CustodySteps P t act after) {w : World} (hw : w.db.Sound) :
    (act w).2.db.Sound := by
  cases h with
  | tame htame => exact htame.sound w hw
  | inserts hinserts => exact hinserts.sound w hw
  | marks hmarks => exact hmarks.sound w hw
  | deletes bucket key versionId ids => exact (tame_deletes bucket key versionId).sound w hw
  | _ => exact hw

/-- What another call answers for is left alone. -/
theorem Custody.Answers.later (h : t.Answers P pending w) (hpasses : Passes P u w w')
    (hu : ∀ n, u.pending = some n → pending[i]? = some (some n))
    (hj : pending[j]? = some t.pending) (hne : i ≠ j) (happart : DrawsApart P pending w)
    (hremoved : ∀ id ∈ u.removes, Taken P id pending w)
    (htaken : ∀ id, Taken P id pending w → Taken P id pending' w') :
    t.Answers P pending' w' := by
  have hmine : ∀ n, t.pending = some n → ∀ m, u = .drawn m → P.ulid n ≠ P.ulid m := by
    intro n hn m hm heq
    obtain rfl := P.ulid_injective heq
    exact hne (happart.apart i j n (hu n (hm ▸ rfl)) (hn ▸ hj))
  have hrows : ∀ id, Taken P id pending w → ∀ r' ∈ w'.db.objects, r'.id = id →
      ∃ r ∈ w.db.objects, SameVersion r r' := by
    intro id htaken r' hr' hid
    rcases hpasses.rows r' hr' with hold | ⟨n, hn, hnew⟩
    · exact hold
    · exact absurd (hnew.symm.trans hid) (htaken.free i n (hu n hn))
  cases t with
  | idle => trivial
  | drawn n =>
      rcases hpasses.blobs (P.ulid n) with hsame | ⟨m, hm, heq⟩ | ⟨-, hnone⟩
      · exact hsame.trans h
      · exact absurd heq (hmine n rfl m hm)
      · exact hnone
  | written n =>
      rcases hpasses.blobs (P.ulid n) with hsame | ⟨m, hm, heq⟩ | ⟨hmem, -⟩
      · show w'.files.objects (P.ulid n) ≠ none
        rw [hsame]
        exact h
      · exact absurd heq (hmine n rfl m hm)
      · exact absurd rfl ((hremoved _ hmem).free j n hj)
  | found bucket key versionId ids =>
      intro id hid
      obtain ⟨hid, hdoomed⟩ := h id hid
      refine ⟨htaken id hid, fun r' hr' heq => ?_⟩
      obtain ⟨r, hr, hsame⟩ := hrows id hid r' hr' heq
      rw [doomed_eq bucket key versionId hsame]
      exact hdoomed r hr (hsame.id_eq.symm.trans heq)
  | gone ids =>
      intro id hid
      obtain ⟨hid, hother⟩ := h id hid
      refine ⟨htaken id hid, fun r' hr' heq => ?_⟩
      obtain ⟨r, hr, hsame⟩ := hrows id hid r' hr' heq
      exact hother r hr (hsame.id_eq.symm.trans heq)

/-- The draw of a call among those of all. -/
theorem pending_stage (hstage : stages[i]? = some t) :
    (stages.map Custody.pending)[i]? = some t.pending := by
  rw [List.getElem?_map, hstage, Option.map_some]

/-- What a call removes is of no row and of no draw. -/
theorem InCustody.removes (hJ : InCustody P stages w) (hstage : stages[i]? = some t) {id : String}
    (hid : id ∈ t.removes) :
    Taken P id (stages.map Custody.pending) w ∧ ∀ r ∈ w.db.objects, r.id ≠ id := by
  have hanswers := hJ.answers i t hstage
  cases t with
  | gone ids => exact hanswers id hid
  | _ => cases hid

/-- **Draws stay apart**, and ids that are taken stay taken. -/
theorem CustodySteps.draws_apart (h : CustodySteps P t act after) (hJ : InCustody P stages w)
    (hstage : stages[i]? = some t) :
    DrawsApart P ((stages.set i (after (act w).1)).map Custody.pending) (act w).2 ∧
      ∀ id, Taken P id (stages.map Custody.pending) w →
        Taken P id ((stages.set i (after (act w).1)).map Custody.pending) (act w).2 := by
  have hpasses := h.passes w
  have hset : (stages.map Custody.pending).set i t.pending = stages.map Custody.pending :=
    set_stage (pending_stage hstage)
  rw [List.map_set]
  rcases h.pending_cases w with ⟨hafter, hrows⟩ | ⟨hafter, hdb, hdraws⟩ | hafter
  · rw [hafter, hset]
    refine ⟨hJ.apart.mono (fun r' hr' => ?_) hpasses.draws, fun id hid => hid.mono hpasses.draws⟩
    obtain ⟨r, hr, hsame⟩ := hrows.mem hr'
    exact ⟨r, hr, hsame.id_eq⟩
  · rw [hafter]
    exact ⟨hJ.apart.draw i hdb hdraws, fun id hid => hid.draw i (by omega)⟩
  · rw [hafter]
    refine ⟨hJ.apart.closure i hpasses.draws fun r' hr' => ?_, fun id hid =>
      hid.release i hpasses.draws⟩
    rcases hpasses.rows r' hr' with ⟨r, hr, hsame⟩ | hnew
    · exact Or.inl ⟨r, hr, hsame.id_eq⟩
    · obtain ⟨n, hn, hid⟩ := hnew
      exact Or.inr ⟨n, hn ▸ pending_stage hstage, hid⟩

/-- What the call itself answers for afterwards. -/
theorem CustodySteps.answers (h : CustodySteps P t act after) (hJ : InCustody P stages w)
    (hstage : stages[i]? = some t)
    (htaken : ∀ id, Taken P id (stages.map Custody.pending) w → Taken P id pending' (act w).2) :
    (after (act w).1).Answers P pending' (act w).2 := by
  have hanswers := hJ.answers i t hstage
  cases h with
  | tame htame =>
      have hbeyond : (stages.map Custody.pending)[i]? = some t.pending := pending_stage hstage
      have hlength : stages.length ≠ i := by
        rintro rfl
        simp at hstage
      refine hanswers.later (htame.passes .idle w) (fun n hn => ?_) hbeyond hlength hJ.apart
        (fun _ hid => absurd hid List.not_mem_nil) htaken
      cases hn
  | draws => exact hJ.blank w.draws (Nat.le_refl _)
  | writes n data =>
      show Function.update w.files.objects (P.ulid n) (some data) (P.ulid n) ≠ none
      rw [Function.update_self]
      exact Option.some_ne_none data
  | inserts hinserts => trivial
  | marks hmarks => trivial
  | finds bucket key versionId read ids hread =>
      intro id hid
      obtain ⟨r, hr, rfl, hdoomed⟩ := hread w.db id hid
      refine ⟨htaken _ (hJ.apart.rows r hr), fun r' hr' heq => ?_⟩
      rwa [hJ.keyedId.eq_of_mem hr' hr heq]
  | deletes bucket key versionId ids =>
      intro id hid
      obtain ⟨hold, hdoomed⟩ := hanswers id hid
      refine ⟨htaken id hold, fun r hr heq => ?_⟩
      obtain ⟨hr, hspared⟩ := mem_deleteRows.mp hr
      rw [hdoomed r hr heq] at hspared
      cases hspared
  | removes hgone =>
      intro id hid
      obtain ⟨hold, hother⟩ := hanswers id hid
      exact ⟨htaken id hold, hother⟩

/-- The row of a draw is the only one of its id and of its version id. -/
theorem InCustody.insertRow_keyed {n : Nat} {marker : Prop} {rows : List ObjectRow}
    {row : ObjectRow}
    (hJ : InCustody P stages w) (hn : (stages.map Custody.pending)[i]? = some (some n))
    (hrows : Narrows w.db.objects rows) (hrow : Enters (P.ulid n) marker rows row) :
    Keyed (·.id) (insertRow row rows) ∧
      Keyed (fun r => (r.bucket, r.key, r.versionId)) (insertRow row rows) := by
  have hid : ∀ r ∈ rows, r.id ≠ row.id := by
    intro r hr heq
    obtain ⟨old, hold, hsame⟩ := hrows.mem hr
    refine (hJ.apart.rows old hold).free i n hn ?_
    rw [← hrow.id_eq, ← heq, hsame.id_eq]
  refine ⟨(hrows.keyed hJ.keyedId fun _ _ h => h.id_eq).insertRow hid,
    (hrows.keyed hJ.keyedVersion fun _ _ h => ?_).insertRow fun r hr heq => ?_⟩
  · rw [h.bucket_eq, h.key_eq, h.versionId_eq]
  · obtain ⟨hbucket, hkey, hversion⟩ : r.bucket = row.bucket ∧ r.key = row.key ∧
        r.versionId = row.versionId := by simpa using heq
    rcases hrow.version with hown | ⟨-, hnone⟩
    · obtain ⟨old, hold, hsame⟩ := hrows.mem hr
      rw [hown, hrow.id_eq] at hversion
      rcases hJ.versionIds old hold with hnull | hold'
      · exact P.ulid_ne_null n (hversion.symm.trans (hsame.versionId_eq.trans hnull))
      · refine hid r hr ?_
        rw [hrow.id_eq, ← hversion, hsame.versionId_eq, hold', hsame.id_eq]
    · have hat := hnone r hr
      rw [Bool.eq_false_iff] at hat
      exact hat (atKey_iff.mpr ⟨hbucket, hkey⟩)

/-- **One step** keeps every row its blob, and every call what it answers for. -/
theorem InCustody.step (hJ : InCustody P stages w) (h : CustodySteps P t act after)
    (hstage : stages[i]? = some t) : InCustody P (stages.set i (after (act w).1)) (act w).2 := by
  have hpending := pending_stage hstage
  have hpasses := h.passes w
  obtain ⟨happart, htaken⟩ := h.draws_apart hJ hstage
  constructor
  case apart => exact happart
  case sound => exact h.sound hJ.sound
  case keyedId =>
    rcases h.rows_cases w with hrows | ⟨n, marker, rows, row, ht, hrows, hrow, hobjects, -⟩
    · exact hrows.keyed hJ.keyedId fun _ _ h => h.id_eq
    · rw [hobjects]
      refine (hJ.insertRow_keyed (i := i) (n := n) ?_ hrows hrow).1
      rcases ht with rfl | ⟨rfl, -⟩ <;> exact hpending
  case keyedVersion =>
    rcases h.rows_cases w with hrows | ⟨n, marker, rows, row, ht, hrows, hrow, hobjects, -⟩
    · refine hrows.keyed hJ.keyedVersion fun _ _ h => ?_
      rw [h.bucket_eq, h.key_eq, h.versionId_eq]
    · rw [hobjects]
      refine (hJ.insertRow_keyed (i := i) (n := n) ?_ hrows hrow).2
      rcases ht with rfl | ⟨rfl, -⟩ <;> exact hpending
  case versionIds =>
    intro r' hr'
    have hold : ∀ r ∈ w.db.objects, SameVersion r r' →
        r'.versionId = "null" ∨ r'.versionId = r'.id := by
      intro r hr hsame
      rw [hsame.versionId_eq, hsame.id_eq]
      exact hJ.versionIds r hr
    rcases h.rows_cases w with hrows | ⟨n, marker, rows, row, ht, hrows, hrow, hobjects, -⟩
    · obtain ⟨r, hr, hsame⟩ := hrows.mem hr'
      exact hold r hr hsame
    · rw [hobjects] at hr'
      rcases mem_insertRow.mp hr' with hmem | rfl
      · obtain ⟨r, hr, hsame⟩ := hrows.mem hmem
        exact hold r hr hsame
      · exact hrow.version.symm.imp_left fun h => h.1
  case blank =>
    intro n hn
    rcases hpasses.blobs (P.ulid n) with hsame | ⟨m, rfl, heq⟩ | ⟨-, hnone⟩
    · exact hsame.trans (hJ.blank n (Nat.le_trans hpasses.draws hn))
    · obtain rfl := P.ulid_injective heq
      have hlt := hJ.apart.below i n hpending
      have hle := hpasses.draws
      omega
    · exact hnone
  case blobs =>
    intro r' hr' hmarker
    have hold : ∀ r ∈ w.db.objects, SameVersion r r' → (act w).2.files.objects r'.id ≠ none := by
      intro r hr hsame
      rw [hsame.id_eq]
      rcases hpasses.blobs r.id with hblob | ⟨m, rfl, heq⟩ | ⟨hmem, -⟩
      · rw [hblob]
        exact hJ.blobs r hr (hsame.isDeleteMarker_eq.symm.trans hmarker)
      · exact absurd heq.symm ((hJ.apart.rows r hr).free i m hpending)
      · exact absurd rfl ((hJ.removes hstage hmem).2 r hr)
    rcases h.rows_cases w with hrows | ⟨n, marker, rows, row, ht, hrows, hrow, hobjects, hfiles⟩
    · obtain ⟨r, hr, hsame⟩ := hrows.mem hr'
      exact hold r hr hsame
    · rw [hobjects] at hr'
      rcases mem_insertRow.mp hr' with hmem | rfl
      · obtain ⟨r, hr, hsame⟩ := hrows.mem hmem
        exact hold r hr hsame
      · rcases ht with rfl | ⟨-, hmarked⟩
        · rw [hfiles, hrow.id_eq]
          exact hJ.answers i _ hstage
        · rw [hmarked] at hmarker
          cases hmarker
  case answers =>
    intro j t' hj
    rcases getElem?_set_cases hj with ⟨rfl, rfl⟩ | ⟨hne, hold⟩
    · exact h.answers hJ hstage htaken
    · exact (hJ.answers j t' hold).later hpasses (fun n hn => hn ▸ hpending) (pending_stage hold)
        hne hJ.apart (fun id hid => (hJ.removes hstage hid).1) htaken

end Steps

/-! ## Requests -/

/-- A call that reads an object, or one that changes the store. -/
inductive StoreRequest
  | get (bucket key : String) (opts : GetObjectOpts)
  | head (bucket key : String)
  | op (op : Op)

inductive StoreAnswer
  | got (response : GetObjectResponse)
  | headed (info : ObjectInfo)
  | replied (reply : Reply)

section Requests

variable (P : Platform)

def requestProgram : StoreRequest → Prog World Error StoreAnswer
  | .get bucket key opts => getObject P bucket key opts >>= fun response => done (.got response)
  | .head bucket key => headObject bucket key >>= fun info => done (.headed info)
  | .op op => program P op >>= fun reply => done (.replied reply)

/-- Requests that start side by side. -/
def requestPool (w : World) (requests : List StoreRequest) : Pool World Error StoreAnswer where
  state := w
  threads := requests.map (requestProgram P)

/-- The state after some turns of the requests. -/
def served (w : World) (requests : List StoreRequest) (schedule : List (Turn Nat)) : World :=
  ((pool tickWorld (requestPool P w requests)).after (requestPool P w requests) schedule).state

/-- A server from its start to its end: what it is asked, and the turns that are taken. -/
structure Lifetime where
  requests : List StoreRequest
  schedule : List (Turn Nat)

/-- What servers leave behind that run one after another, the last of them first.  Each may stop
anywhere: its calls are dropped where they are, and the next one starts on what is there. -/
def leftBy : List Lifetime → World
  | [] => {}
  | life :: earlier => served P (leftBy earlier) life.requests life.schedule

end Requests

section Served

variable {P : Platform} {w : World} {requests : List StoreRequest} {schedule : List (Turn Nat)}
  {stages : List Custody}

theorem still_getObject (bucket key : String) (opts : GetObjectOpts) :
    Only Still (getObject P bucket key opts) := by
  refine (still_query _).bind fun _ => (only_require _ _).bind fun _ => ?_
  refine (only_ensure _ _).bind fun _ => (only_lift _).bind fun _ => ?_
  refine (still_readBlob _).bind fun _ => (only_require _ _).bind fun _ => ?_
  exact (only_lift _).bind fun _ => (only_lift _).bind fun _ => only_pure _

theorem requestProgram_custody (request : StoreRequest) :
    (requestProgram P request).Staged (CustodySteps P) (fun _ _ => True) .idle := by
  cases request with
  | get bucket key opts =>
      exact custody_tame (tame_of_still (still_getObject bucket key opts)) fun _ => trivial
  | head bucket key =>
      exact custody_tame (tame_of_still (still_headObject bucket key)) fun _ => trivial
  | op op => exact (program_custody op).wrap _

/-- Calls that start hold no draw. -/
theorem pending_idle (count i n : Nat) :
    ((List.replicate count Custody.idle).map Custody.pending)[i]? ≠ some (some n) := by
  intro hi
  obtain ⟨t, ht, hpending⟩ := List.mem_map.mp (List.mem_of_getElem? hi)
  rw [List.eq_of_mem_replicate ht] at hpending
  cases hpending

theorem Taken.restarted {id : String} {pending : List (Option Nat)} (h : Taken P id pending w)
    (count : Nat) : Taken P id ((List.replicate count Custody.idle).map Custody.pending) w :=
  ⟨h.drawn, fun i n hi => absurd hi (pending_idle count i n)⟩

/-- **Calls that are dropped** answer for nothing any more. -/
theorem InCustody.restarted (h : InCustody P stages w) (count : Nat) :
    InCustody P (List.replicate count .idle) w where
  apart := ⟨fun r hr => (h.apart.rows r hr).restarted count,
    fun i n hi => absurd hi (pending_idle count i n),
    fun i _ n hi => absurd hi (pending_idle count i n)⟩
  sound := h.sound
  keyedId := h.keyedId
  keyedVersion := h.keyedVersion
  versionIds := h.versionIds
  blank := h.blank
  blobs := h.blobs
  answers i _ hi := by
    rw [List.eq_of_mem_replicate (List.mem_of_getElem? hi)]
    trivial

/-- An empty store owes nothing. -/
theorem inCustody_empty : InCustody P [] {} where
  apart := ⟨fun _ hr => absurd hr List.not_mem_nil, fun i n hi => absurd hi (pending_idle 0 i n),
    fun i _ n hi => absurd hi (pending_idle 0 i n)⟩
  sound := ⟨Keyed.nil, fun _ hr => absurd hr List.not_mem_nil, Keyed.nil,
    fun _ hu => absurd hu List.not_mem_nil, Keyed.nil, fun _ hp => absurd hp List.not_mem_nil⟩
  keyedId := Keyed.nil
  keyedVersion := Keyed.nil
  versionIds _ hr := absurd hr List.not_mem_nil
  blank _ _ := rfl
  blobs _ hr := absurd hr List.not_mem_nil
  answers _ _ hi := absurd (List.mem_of_getElem? hi) List.not_mem_nil

/-- The clock moving on changes nothing. -/
theorem InCustody.ticked {stages : List Custody} {w : World} (h : InCustody P stages w)
    (nanoseconds : Nat) : InCustody P stages (tickWorld nanoseconds w) := by
  have htaken : ∀ id, Taken P id (stages.map Custody.pending) w →
      Taken P id (stages.map Custody.pending) (tickWorld nanoseconds w) :=
    fun id hid => hid.mono (Nat.le_refl _)
  refine { h with apart := h.apart.quiet rfl (Nat.le_refl _), answers := fun i t hi => ?_ }
  have hanswers := h.answers i t hi
  cases t with
  | found bucket key versionId ids =>
      exact fun id hid => ⟨htaken id (hanswers id hid).1, (hanswers id hid).2⟩
  | gone ids => exact fun id hid => ⟨htaken id (hanswers id hid).1, (hanswers id hid).2⟩
  | _ => exact hanswers

/-- **What is true of a row** from a state on: a row of its id is the same version. -/
structure RowStays (P : Platform) (r : ObjectRow) (stages : List Custody) (w : World) :
    Prop where
  kept : InCustody P stages w
  taken : Taken P r.id (stages.map Custody.pending) w
  version : ∀ r' ∈ w.db.objects, r'.id = r.id → SameVersion r r'

theorem rowStays_kept (r : ObjectRow) :
    KeptByThreads (CustodySteps P) (fun (_ : Prog World Error StoreAnswer) _ => True)
      (RowStays P r) AnyTurn := by
  intro c stages i β act t after hstep _ hJ
  have hstage := hstep.stage
  obtain ⟨-, htaken⟩ := hstep.allowed.draws_apart hJ.kept hstage
  refine ⟨hJ.kept.step hstep.allowed hstage, htaken r.id hJ.taken, fun r' hr' hid => ?_⟩
  rcases (hstep.allowed.passes c.state).rows r' hr' with ⟨old, hold, hsame⟩ | ⟨n, hn, hnew⟩
  · exact (hJ.version old hold (hsame.id_eq.symm.trans hid)).trans hsame
  · exact absurd (hnew.symm.trans hid) (hJ.taken.free i n (hn ▸ pending_stage hstage))

/-- **What is true of a blob** from the state on in which it has been written: it stays, or it
goes, and no call writes it again. -/
structure BlobFixed (P : Platform) (id : String) (data : Bytes) (stages : List Custody)
    (w : World) : Prop where
  kept : InCustody P stages w
  same : w.files.objects id = some data ∨ w.files.objects id = none
  spent : ∀ n, w.draws ≤ n → P.ulid n ≠ id
  undrawn : ∀ (i n : Nat), stages[i]? = some (.drawn n) → P.ulid n ≠ id

theorem blobFixed_kept (id : String) (data : Bytes) :
    KeptByThreads (CustodySteps P) (fun (_ : Prog World Error StoreAnswer) _ => True)
      (BlobFixed P id data) AnyTurn := by
  intro c stages i β act t after hstep _ hJ
  have hstage := hstep.stage
  have hpasses := hstep.allowed.passes c.state
  constructor
  case kept => exact hJ.kept.step hstep.allowed hstage
  case same =>
    rcases hpasses.blobs id with hblob | ⟨n, rfl, hid⟩ | ⟨-, hnone⟩
    · rw [hblob]
      exact hJ.same
    · exact absurd hid.symm (hJ.undrawn i n hstage)
    · exact Or.inr hnone
  case spent => exact fun n hn => hJ.spent n (Nat.le_trans hpasses.draws hn)
  case undrawn =>
    intro j n hj
    rcases getElem?_set_cases hj with ⟨rfl, hnew⟩ | ⟨-, hold⟩
    · cases hstep.allowed with
      | tame htame => exact hJ.undrawn i n (hnew ▸ hstage)
      | draws =>
          cases hnew
          exact hJ.spent _ (Nat.le_refl _)
      | _ => cases hnew
    · exact hJ.undrawn j n hold

theorem inCustody_kept : KeptByThreads (CustodySteps P)
    (fun (_ : Prog World Error StoreAnswer) _ => True) (InCustody P) AnyTurn :=
  fun _ _ _ _ _ _ _ hstep _ hJ => hJ.step hstep.allowed hstep.stage

/-- Throughout a schedule every call is in a stage of the automaton. -/
theorem served_keeps {J : List Custody → World → Prop}
    (hkept : KeptByThreads (CustodySteps P) (fun (_ : Prog World Error StoreAnswer) _ => True) J
      AnyTurn) (hticked : KeptByWorld tickWorld J) (requests : List StoreRequest)
    (schedule : List (Turn Nat)) (hJ : J (List.replicate requests.length .idle) w) :
    ∃ stages, ((pool tickWorld (requestPool P w requests)).after (requestPool P w requests)
        schedule).StagedBy (CustodySteps P) (fun _ _ => True) stages ∧
      J stages (served P w requests schedule) := by
  have hthreads : (requestPool P w requests).StagedBy (CustodySteps P) (fun _ _ => True)
      (List.replicate requests.length .idle) := by
    have hall : ∀ p ∈ (requestPool P w requests).threads,
        p.Staged (CustodySteps P) (fun _ _ => True) .idle := by
      intro p hp
      obtain ⟨request, -, rfl⟩ := List.mem_map.mp hp
      exact requestProgram_custody request
    have hstaged := stagedBy_replicate hall
    rwa [requestPool, List.length_map] at hstaged
  exact staged_after hkept hticked ⟨_, hthreads, hJ⟩
    (Machine.allSteps_of_forall _ (fun _ _ => trivial) _ schedule)

theorem inCustody_ticked : KeptByWorld tickWorld (InCustody P) :=
  fun _ _ nanoseconds h => h.ticked nanoseconds

/-- **No stop does any harm.** -/
theorem leftBy_kept (P : Platform) (lives : List Lifetime) :
    ∃ stages, InCustody P stages (leftBy P lives) := by
  induction lives with
  | nil => exact ⟨_, inCustody_empty⟩
  | cons life earlier ih =>
      obtain ⟨stages, h⟩ := ih
      obtain ⟨stages', -, h'⟩ := served_keeps inCustody_kept inCustody_ticked life.requests
        life.schedule (h.restarted _)
      exact ⟨stages', h'⟩

theorem served_kept (P : Platform) (earlier : List Lifetime) (requests : List StoreRequest)
    (schedule : List (Turn Nat)) :
    ∃ stages, ((pool tickWorld (requestPool P (leftBy P earlier) requests)).after
        (requestPool P (leftBy P earlier) requests) schedule).StagedBy (CustodySteps P)
        (fun _ _ => True) stages ∧
      InCustody P stages (served P (leftBy P earlier) requests schedule) := by
  obtain ⟨stages, h⟩ := leftBy_kept P earlier
  exact served_keeps inCustody_kept inCustody_ticked requests schedule (h.restarted _)

/-- **The tables are sound**, ids and version ids are unique, and every row that is no delete
marker has its blob. -/
structure World.Whole (w : World) : Prop where
  tables : w.db.Sound
  ids : Keyed (·.id) w.db.objects
  versions : Keyed (fun r => (r.bucket, r.key, r.versionId)) w.db.objects
  blobs : ∀ r ∈ w.db.objects, r.isDeleteMarker = false → ∃ data, w.files.objects r.id = some data

theorem leftBy_whole (P : Platform) (lives : List Lifetime) : (leftBy P lives).Whole := by
  obtain ⟨stages, h⟩ := leftBy_kept P lives
  exact ⟨h.sound, h.keyedId, h.keyedVersion, fun r hr hmarker =>
    Option.ne_none_iff_exists'.mp (h.blobs r hr hmarker)⟩

section Later

variable {earlier : List Lifetime} {before rest : List (Turn Nat)}

/-- What holds at a time and is kept holds at the later times of this server, and of those that
are started after it. -/
theorem leftBy_later (later : List Lifetime) {J : List Custody → World → Prop}
    (hkept : KeptByThreads (CustodySteps P) (fun (_ : Prog World Error StoreAnswer) _ => True) J
      AnyTurn) (hticked : KeptByWorld tickWorld J)
    (hrestarted : ∀ stages w count, J stages w → J (List.replicate count .idle) w)
    (hJ : ∀ stages, InCustody P stages (leftBy P (⟨requests, before⟩ :: earlier)) →
      J stages (leftBy P (⟨requests, before⟩ :: earlier))) :
    ∃ stages, J stages (leftBy P (later ++ ⟨requests, before ++ rest⟩ :: earlier)) := by
  induction later with
  | nil =>
      obtain ⟨stages, hstaged, h⟩ := served_kept P earlier requests before
      let start := requestPool P (leftBy P earlier) requests
      have hall : (pool tickWorld start).AllSteps AnyTurn
          ((pool tickWorld start).after start before) rest :=
        Machine.allSteps_of_forall _ (fun _ _ => trivial) _ rest
      obtain ⟨stages', -, hlater⟩ := staged_after hkept hticked ⟨stages, hstaged, hJ stages h⟩ hall
      refine ⟨stages', ?_⟩
      show J stages' (served P (leftBy P earlier) requests (before ++ rest))
      rw [served, Machine.after_append]
      exact hlater
  | cons life later ih =>
      obtain ⟨stages, h⟩ := ih
      obtain ⟨stages', -, h'⟩ := served_keeps hkept hticked life.requests life.schedule
        (hrestarted stages _ _ h)
      exact ⟨stages', h'⟩

/-- **A row that is there at two times** is the same version. -/
theorem leftBy_sameVersion (later : List Lifetime) {r r' : ObjectRow}
    (hr : r ∈ (leftBy P (⟨requests, before⟩ :: earlier)).db.objects)
    (hr' : r' ∈ (leftBy P (later ++ ⟨requests, before ++ rest⟩ :: earlier)).db.objects)
    (hid : r'.id = r.id) : SameVersion r r' := by
  obtain ⟨stages, hlater⟩ := leftBy_later later (rowStays_kept r)
    (fun _ _ nanoseconds h => ⟨h.kept.ticked nanoseconds, h.taken.mono (Nat.le_refl _), h.version⟩)
    (fun _ _ count h => ⟨h.kept.restarted count, h.taken.restarted count, h.version⟩)
    fun stages hkept => ⟨hkept, hkept.apart.rows r hr, fun r' hr' hid => by
      rw [hkept.keyedId.eq_of_mem hr' hr hid]
      exact .refl r⟩
  exact hlater.version r' hr' hid

/-- **A blob that has been written** is never written again. -/
theorem leftBy_sameBlob (later : List Lifetime) {id : String} {data : Bytes}
    (hdata : (leftBy P (⟨requests, before⟩ :: earlier)).files.objects id = some data) :
    (leftBy P (later ++ ⟨requests, before ++ rest⟩ :: earlier)).files.objects id = some data ∨
      (leftBy P (later ++ ⟨requests, before ++ rest⟩ :: earlier)).files.objects id = none := by
  have hne : ∀ n, (leftBy P (⟨requests, before⟩ :: earlier)).files.objects (P.ulid n) = none →
      P.ulid n ≠ id := by
    rintro n hnone rfl
    rw [hdata] at hnone
    cases hnone
  have hidle : ∀ (count i n : Nat), (List.replicate count Custody.idle)[i]? ≠ some (.drawn n) := by
    intro count i n hi
    cases List.eq_of_mem_replicate (List.mem_of_getElem? hi)
  obtain ⟨stages, hlater⟩ := leftBy_later later (blobFixed_kept id data)
    (fun _ _ nanoseconds h => ⟨h.kept.ticked nanoseconds, h.same, h.spent, h.undrawn⟩)
    (fun _ _ count h => ⟨h.kept.restarted count, h.same, h.spent,
      fun i n hi => absurd hi (hidle count i n)⟩)
    fun stages hkept => ⟨hkept, Or.inl hdata, fun n hn => hne n (hkept.blank n hn),
      fun i n hi => hne n (hkept.answers i _ hi)⟩
  exact hlater.same

end Later

end Served

end Strix
