import Strix.StoreMachine

/-!
# What every reachable store state is like

`WellFormed` is the invariant of the tables: ids are draws of the past, ids
and version ids are unique, every row's bucket and upload exists, and a bucket
that was never versioned has at most one row a key, its latest.

* `ObjectsEffect.row_back`: after a call every object row is an old one with
  at most other flags and locks, or the one the call has inserted;
* `wellFormed_reachable`: every reachable state is well formed.
-/

namespace Strix

open AtomicProgram MachineRuns RowTable

/-- A row without its latest flag and its lock columns. -/
def ObjectRow.bare (r : ObjectRow) : ObjectRow :=
  { r with
    isLatest := false
    retentionMode := none
    retainUntilDate := none
    legalHold := false }

/-- The rows are the same version: only the latest flag and the lock columns
may differ. -/
def SameVersion (r r' : ObjectRow) : Prop := r'.bare = r.bare

namespace SameVersion

variable {r r' r'' : ObjectRow}

theorem refl (r : ObjectRow) : SameVersion r r := rfl

theorem demote (r : ObjectRow) : SameVersion r r.demote := rfl

theorem promote (r : ObjectRow) : SameVersion r r.promote := rfl

theorem id_eq (h : SameVersion r r') : r'.id = r.id :=
  show r'.bare.id = r.bare.id from congrArg ObjectRow.id h

theorem bucket_eq (h : SameVersion r r') : r'.bucket = r.bucket :=
  show r'.bare.bucket = r.bare.bucket from congrArg ObjectRow.bucket h

theorem key_eq (h : SameVersion r r') : r'.key = r.key :=
  show r'.bare.key = r.bare.key from congrArg ObjectRow.key h

theorem versionId_eq (h : SameVersion r r') : r'.versionId = r.versionId :=
  show r'.bare.versionId = r.bare.versionId from congrArg ObjectRow.versionId h

theorem isDeleteMarker_eq (h : SameVersion r r') : r'.isDeleteMarker = r.isDeleteMarker :=
  show r'.bare.isDeleteMarker = r.bare.isDeleteMarker from congrArg ObjectRow.isDeleteMarker h

theorem trans (h : SameVersion r r') (h' : SameVersion r' r'') : SameVersion r r'' :=
  Eq.trans h' h

/-- The other row, written as this one with its own flag and locks. -/
theorem eq_with (h : SameVersion r r') :
    r' = { r with
      isLatest := r'.isLatest
      retentionMode := r'.retentionMode
      retainUntilDate := r'.retainUntilDate
      legalHold := r'.legalHold } := by
  cases r
  cases r'
  simp only [SameVersion, ObjectRow.bare, ObjectRow.mk.injEq] at h ⊢
  simp [h]

theorem atKey_eq (h : SameVersion r r') (bucket key : String) :
    atKey bucket key r' = atKey bucket key r := by
  unfold atKey
  rw [h.bucket_eq, h.key_eq]

theorem atVersion_eq (h : SameVersion r r') (bucket key versionId : String) :
    atVersion bucket key versionId r' = atVersion bucket key versionId r := by
  unfold atVersion
  rw [h.atKey_eq, h.versionId_eq]

end SameVersion

/-- The rows that are there after a writer has made room were there before. -/
theorem sameVersion_of_roomMade {status : VersioningStatus} {bucket key : String}
    {rows : List ObjectRow} {r' : ObjectRow} (h : r' ∈ roomMade status bucket key rows) :
    ∃ r ∈ rows, SameVersion r r' := by
  obtain ⟨r, hr, rfl | ⟨rfl, -⟩⟩ := mem_roomMade h
  · exact ⟨r', hr, .refl r'⟩
  · exact ⟨r, hr, .demote r⟩

/-- The rows have the same lock columns. -/
def SameLock (r r' : ObjectRow) : Prop :=
  r'.retentionMode = r.retentionMode ∧ r'.retainUntilDate = r.retainUntilDate ∧
    r'.legalHold = r.legalHold

namespace SameLock

variable {r r' r'' : ObjectRow}

theorem refl (r : ObjectRow) : SameLock r r := ⟨rfl, rfl, rfl⟩

theorem trans (h : SameLock r r') (h' : SameLock r' r'') : SameLock r r'' :=
  ⟨h'.1.trans h.1, h'.2.1.trans h.2.1, h'.2.2.trans h.2.2⟩

theorem lockedAt_eq (h : SameLock r r') (now : DateTime) : r'.lockedAt now = r.lockedAt now := by
  unfold ObjectRow.lockedAt
  rw [h.1, h.2.1, h.2.2]

end SameLock

/-- The call may set the row's lock columns: a legal hold always, a retention
when the one in force may be changed. -/
def Op.SetsLocksOf (w : World) : Op → ObjectRow → Prop
  | .putObjectRetention bucket key versionId _ bypassGovernance, r =>
      retentionModifiable (selectObject bucket key versionId w.db) bypassGovernance = true ∧
        addressed bucket key versionId r = true
  | .putObjectLegalHold bucket key versionId _, r => addressed bucket key versionId r = true
  | _, _ => False

variable {P : Platform}

/-- **The invariant of the tables.** -/
structure WellFormed (P : Platform) (w : World) : Prop where
  ids : IdsDrawn P w
  uploadIds : UploadsDrawn P w
  keyedId : Keyed (·.id) w.db.objects
  keyedVersion : Keyed (fun r => (r.bucket, r.key, r.versionId)) w.db.objects
  versionIds : ∀ r ∈ w.db.objects, r.versionId = "null" ∨ r.versionId = r.id
  rowBuckets : ∀ r ∈ w.db.objects, ∃ b ∈ w.db.buckets, b.name = r.bucket
  bucketNames : Keyed (·.name) w.db.buckets
  unversioned : ∀ b ∈ w.db.buckets, b.versioningStatus = .unversioned →
    ∀ r ∈ w.db.objects, r.bucket = b.name → r.versionId = "null" ∧ r.isLatest = true
  keyedUpload : Keyed (·.uploadId) w.db.uploads
  keyedPart : Keyed (fun p => (p.uploadId, p.partNumber)) w.db.parts
  partUploads : ∀ p ∈ w.db.parts, ∃ u ∈ w.db.uploads, u.uploadId = p.uploadId

theorem wellFormed_init : WellFormed P (store P).init where
  ids := by intro r hr; cases hr
  uploadIds := by intro u hu; cases hu
  keyedId := Keyed.nil
  keyedVersion := Keyed.nil
  versionIds := by intro r hr; cases hr
  rowBuckets := by intro r hr; cases hr
  bucketNames := Keyed.nil
  unversioned := by intro b hb; cases hb
  keyedUpload := Keyed.nil
  keyedPart := Keyed.nil
  partUploads := by intro p hp; cases hp

/-- The status query finds the only bucket row of the name. -/
theorem WellFormed.versioningStatus_eq {w : World} (hw : WellFormed P w) {b : BucketRow}
    (hb : b ∈ w.db.buckets) : versioningStatus b.name w.db = some b.versioningStatus := by
  rw [versioningStatus, hw.bucketNames.selectFirst hb (by simp) (fun b' hb' => by simpa using hb')]
  rfl

/-- A version id that is unique addresses the row that has it. -/
theorem selectObject_of_keyed {db : Db}
    (hkeyed : Keyed (fun r => (r.bucket, r.key, r.versionId)) db.objects) {r : ObjectRow}
    (hr : r ∈ db.objects) : selectObject r.bucket r.key (some r.versionId) db = some r := by
  refine hkeyed.selectFirst hr (by simp [addressed]) (fun r' hr' => ?_)
  obtain ⟨⟨hb, hk⟩, hv⟩ := atVersion_iff.mp hr'
  rw [hb, hk, hv]

/-- Where all rows of a bucket are latest and of one version id, a key has one
row. -/
theorem selectObject_of_unversioned {db : Db}
    (hkeyed : Keyed (fun r => (r.bucket, r.key, r.versionId)) db.objects) {r : ObjectRow}
    (hall : ∀ r' ∈ db.objects, r'.bucket = r.bucket →
      r'.versionId = "null" ∧ r'.isLatest = true)
    (hr : r ∈ db.objects) : selectObject r.bucket r.key none db = some r := by
  have hsingle : ∀ r' ∈ db.objects, atLatest r.bucket r.key r' = true → r' = r := by
    intro r' hr' hp
    obtain ⟨⟨hb', hk'⟩, -⟩ := atLatest_iff.mp hp
    have hv := (hall r hr rfl).1
    have hv' := (hall r' hr' hb').1
    exact hkeyed.eq_of_mem hr' hr (by simp [hb', hk', hv, hv'])
  have hlatest := (hall r hr rfl).2
  obtain ⟨first, hfirst⟩ := exists_selectFirst hr
    (show atLatest r.bucket r.key r = true by simp [hlatest])
  obtain ⟨hmem, hp⟩ := selectFirst_some hfirst
  exact hfirst.trans (congrArg some (hsingle first hmem hp))

/-- A version id addresses at most one row of a key. -/
theorem WellFormed.selectObject_version {w : World} (hw : WellFormed P w) {r : ObjectRow}
    (hr : r ∈ w.db.objects) :
    selectObject r.bucket r.key (some r.versionId) w.db = some r :=
  selectObject_of_keyed hw.keyedVersion hr

/-- A never versioned bucket has one row a key, and it is the latest. -/
theorem WellFormed.selectObject_unversioned {w : World} (hw : WellFormed P w) {r : ObjectRow}
    (hr : r ∈ w.db.objects) (hstatus : versioningStatus r.bucket w.db = some .unversioned) :
    selectObject r.bucket r.key none w.db = some r := by
  obtain ⟨b, hb, hname, hun⟩ := versioningStatus_bucket hstatus
  refine selectObject_of_unversioned hw.keyedVersion (fun r' hr' hbucket => ?_) hr
  exact hw.unversioned b hb hun r' hr' (hbucket.trans hname.symm)

/-- What promotion leaves: every row is an old one, perhaps flagged. -/
theorem mem_promoted {bucket key : String} {rows : List ObjectRow} {r' : ObjectRow}
    (h : r' ∈ promoted P bucket key rows) : ∃ r ∈ rows, r' = r ∨ r' = r.promote := by
  unfold promoted at h
  cases hnewest : P.newest (rows.filter (atKey bucket key)) with
  | none =>
      rw [hnewest] at h
      exact ⟨r', h, Or.inl rfl⟩
  | some newest =>
      rw [hnewest] at h
      obtain ⟨r, hr, rfl⟩ := mem_updateRows.mp h
      by_cases hid : (r.id == newest.id) = true
      · exact ⟨r, hr, Or.inr (by rw [if_pos hid])⟩
      · exact ⟨r, hr, Or.inl (by rw [if_neg hid])⟩

/-- A row that a call has inserted. -/
structure Inserted (P : Platform) (w w' : World) (op : Op) (r : ObjectRow) : Prop where
  id_eq : r.id = P.ulid w.draws
  draws_lt : w.draws < w'.draws
  versionId_eq : r.versionId = "null" ∨ r.versionId = r.id
  bucket : ∃ b ∈ w.db.buckets, b.name = r.bucket
  latest : r.isLatest = true
  source : r.isDeleteMarker = true ∨ ∃ bucket key, op.Writes P w bucket key

/-- **Rows, looking back.** -/
theorem ObjectsEffect.row_back {w w' : World} {op : Op} (h : ObjectsEffect P w w' op)
    {r' : ObjectRow} (hr' : r' ∈ w'.db.objects) :
    (∃ r ∈ w.db.objects, SameVersion r r' ∧ (SameLock r r' ∨ op.SetsLocksOf w r)) ∨
      Inserted P w w' op r' := by
  cases h with
  | unchanged hbuckets hobjects hblobs =>
      exact Or.inl ⟨r', hobjects ▸ hr', .refl r', Or.inl (.refl r')⟩
  | createdBucket hnew hbuckets hobjects hblobs =>
      exact Or.inl ⟨r', hobjects ▸ hr', .refl r', Or.inl (.refl r')⟩
  | deletedBucket hempty hbuckets hobjects hblobs =>
      exact Or.inl ⟨r', hobjects ▸ hr', .refl r', Or.inl (.refl r')⟩
  | setVersioning hbuckets hobjects hblobs =>
      exact Or.inl ⟨r', hobjects ▸ hr', .refl r', Or.inl (.refl r')⟩
  | installed hwrites hnew hbuckets hobjects hblobs hdraws =>
      rw [hobjects] at hr'
      rcases mem_insertRow.mp hr' with hold | rfl
      · obtain ⟨r, hr, rfl | ⟨rfl, -⟩⟩ := mem_roomMade hold
        · exact Or.inl ⟨r', hr, .refl r', Or.inl (.refl r')⟩
        · exact Or.inl ⟨r, hr, .demote r, Or.inl ⟨rfl, rfl, rfl⟩⟩
      · obtain ⟨b, hb, hname, -⟩ := versioningStatus_bucket hnew.status_eq
        refine Or.inr ⟨hnew.id_eq, hdraws, ?_, ⟨b, hb, hname.trans hnew.bucket_eq.symm⟩,
          hnew.latest, Or.inr ⟨_, _, hwrites⟩⟩
        rw [hnew.versionId_eq, newVersionId]
        split
        · exact Or.inr rfl
        · exact Or.inl rfl
  | removedVersion hunlocked hbuckets hobjects hblobs =>
      rw [hobjects] at hr'
      obtain ⟨r, hr, rfl | rfl⟩ := mem_promoted hr'
      · exact Or.inl ⟨r', (mem_deleteRows.mp hr).1, .refl r', Or.inl (.refl r')⟩
      · exact Or.inl ⟨r, (mem_deleteRows.mp hr).1, .promote r, Or.inl ⟨rfl, rfl, rfl⟩⟩
  | addedMarker hop hstatus hne hunlocked hbuckets hobjects hblobs hdraws =>
      rw [hobjects] at hr'
      rcases mem_insertRow.mp hr' with hold | rfl
      · obtain ⟨r, hr, rfl⟩ := mem_updateRows.mp hold
        refine Or.inl ⟨r, hr, ?_⟩
        split
        · exact ⟨.demote r, Or.inl ⟨rfl, rfl, rfl⟩⟩
        · exact ⟨.refl r, Or.inl (.refl r)⟩
      · obtain ⟨b, hb, hname, -⟩ := versioningStatus_bucket hstatus
        exact Or.inr ⟨rfl, hdraws, Or.inr rfl, ⟨b, hb, hname⟩, rfl, Or.inl rfl⟩
  | removedKey hop hstatus hunlocked hbuckets hobjects hblobs =>
      rw [hobjects] at hr'
      exact Or.inl ⟨r', (mem_deleteRows.mp hr').1, .refl r', Or.inl (.refl r')⟩
  | setRetention hallowed hbuckets hobjects hblobs =>
      rw [hobjects] at hr'
      obtain ⟨r, hr, rfl⟩ := mem_updateRows.mp hr'
      refine Or.inl ⟨r, hr, ?_⟩
      split
      · next haddressed => exact ⟨rfl, Or.inr ⟨hallowed, haddressed⟩⟩
      · exact ⟨.refl r, Or.inl (.refl r)⟩
  | setLegalHold hbuckets hobjects hblobs =>
      rw [hobjects] at hr'
      obtain ⟨r, hr, rfl⟩ := mem_updateRows.mp hr'
      refine Or.inl ⟨r, hr, ?_⟩
      split
      · next haddressed => exact ⟨rfl, Or.inr haddressed⟩
      · exact ⟨.refl r, Or.inl (.refl r)⟩

variable (P) in
/-- **The calls that remove a row:** a write where versioning is not enabled,
an unlocked delete of the version, an unlocked delete of the key. -/
inductive Removes (w : World) (r : ObjectRow) : Op → Prop
  | write {op : Op} {bucket key : String} (hwrites : op.Writes P w bucket key)
      (hstatus : versioningStatus bucket w.db ≠ some .enabled)
      (hat : atKey bucket key r = true) : Removes w r op
  | version {bucket key vid : String} (hat : atVersion bucket key vid r = true)
      (hunlocked : (selectObject bucket key (some vid) w.db).any
        (ObjectRow.lockedAt w.now) = false) :
      Removes w r (.deleteObjectVersion bucket key (some vid))
  | key {op : Op} {bucket key : String}
      (hop : op = .deleteObject bucket key ∨ op = .deleteObjectVersion bucket key none)
      (hstatus : versioningStatus bucket w.db = some .unversioned)
      (hat : atKey bucket key r = true)
      (hunlocked : (selectObject bucket key none w.db).any
        (ObjectRow.lockedAt w.now) = false) : Removes w r op

theorem promoted_forth (bucket key : String) {rows : List ObjectRow} {r : ObjectRow}
    (h : r ∈ rows) : ∃ r' ∈ promoted P bucket key rows, r' = r ∨ r' = r.promote := by
  unfold promoted
  cases P.newest (rows.filter (atKey bucket key)) with
  | none => exact ⟨r, h, Or.inl rfl⟩
  | some newest =>
      by_cases hid : (r.id == newest.id) = true
      · exact ⟨_, assign_mem_updateRows h hid, Or.inr rfl⟩
      · exact ⟨r, mem_updateRows_of_not h (by simpa using hid), Or.inl rfl⟩

/-- An assignment that changes flags and locks only keeps every row's
version. -/
theorem updateRows_forth (p : ObjectRow → Bool) (assign : ObjectRow → ObjectRow)
    {rows : List ObjectRow} {r : ObjectRow} (h : r ∈ rows)
    (hassign : SameVersion r (assign r)) :
    ∃ r' ∈ updateRows p assign rows,
      SameVersion r r' ∧ (r' = r ∨ (r' = assign r ∧ p r = true)) := by
  by_cases hp : p r = true
  · exact ⟨_, assign_mem_updateRows h hp, hassign, Or.inr ⟨rfl, hp⟩⟩
  · exact ⟨r, mem_updateRows_of_not h (by simpa using hp), .refl r, Or.inl rfl⟩

/-- **Rows, looking ahead.**  A row survives a call, or the call is one of
those that remove it. -/
theorem ObjectsEffect.row_forth {w w' : World} {op : Op} (h : ObjectsEffect P w w' op)
    {r : ObjectRow} (hr : r ∈ w.db.objects) :
    (∃ r' ∈ w'.db.objects, SameVersion r r' ∧ (SameLock r r' ∨ op.SetsLocksOf w r)) ∨
      Removes P w r op := by
  cases h with
  | unchanged hbuckets hobjects hblobs =>
      exact Or.inl ⟨r, hobjects ▸ hr, .refl r, Or.inl (.refl r)⟩
  | createdBucket hnew hbuckets hobjects hblobs =>
      exact Or.inl ⟨r, hobjects ▸ hr, .refl r, Or.inl (.refl r)⟩
  | deletedBucket hempty hbuckets hobjects hblobs =>
      exact Or.inl ⟨r, hobjects ▸ hr, .refl r, Or.inl (.refl r)⟩
  | setVersioning hbuckets hobjects hblobs =>
      exact Or.inl ⟨r, hobjects ▸ hr, .refl r, Or.inl (.refl r)⟩
  | @installed op bucket key status row data hwrites hnew hbuckets hobjects hblobs hdraws =>
      rw [hobjects]
      by_cases hs : status = .enabled
      · obtain ⟨r', hr', hsame, rfl | ⟨rfl, -⟩⟩ :=
          updateRows_forth (atKey bucket key) ObjectRow.demote hr (.demote r)
        · exact Or.inl ⟨r', mem_insertRow.mpr (Or.inl (by rwa [roomMade, if_pos hs])), hsame,
            Or.inl (.refl r')⟩
        · exact Or.inl ⟨r.demote, mem_insertRow.mpr (Or.inl (by rwa [roomMade, if_pos hs])),
            hsame, Or.inl ⟨rfl, rfl, rfl⟩⟩
      · by_cases hat : atKey bucket key r = true
        · refine Or.inr (.write hwrites ?_ hat)
          rw [hnew.status_eq]
          exact fun h => hs (Option.some.inj h)
        · refine Or.inl ⟨r, mem_insertRow.mpr (Or.inl ?_), .refl r, Or.inl (.refl r)⟩
          rw [roomMade, if_neg hs, mem_deleteRows]
          exact ⟨hr, Bool.eq_false_iff.mpr hat⟩
  | @removedVersion bucket key vid hunlocked hbuckets hobjects hblobs =>
      by_cases hat : atVersion bucket key vid r = true
      · exact Or.inr (.version hat hunlocked)
      · obtain ⟨r', hr', rfl | rfl⟩ := promoted_forth (P := P) bucket key
          (mem_deleteRows.mpr ⟨hr, Bool.eq_false_iff.mpr hat⟩)
        · exact Or.inl ⟨r', hobjects ▸ hr', .refl r', Or.inl (.refl r')⟩
        · exact Or.inl ⟨r.promote, hobjects ▸ hr', .promote r, Or.inl ⟨rfl, rfl, rfl⟩⟩
  | @addedMarker op bucket key status hop hstatus hne hunlocked hbuckets hobjects hblobs
      hdraws =>
      rw [hobjects]
      obtain ⟨r', hr', hsame, rfl | ⟨rfl, -⟩⟩ :=
        updateRows_forth (atLatest bucket key) ObjectRow.demote hr (.demote r)
      · exact Or.inl ⟨r', mem_insertRow.mpr (Or.inl hr'), hsame, Or.inl (.refl r')⟩
      · exact Or.inl ⟨r.demote, mem_insertRow.mpr (Or.inl hr'), hsame,
          Or.inl ⟨rfl, rfl, rfl⟩⟩
  | @removedKey op bucket key hop hstatus hunlocked hbuckets hobjects hblobs =>
      by_cases hat : atKey bucket key r = true
      · exact Or.inr (.key hop hstatus hat hunlocked)
      · refine Or.inl ⟨r, ?_, .refl r, Or.inl (.refl r)⟩
        rw [hobjects, mem_deleteRows]
        exact ⟨hr, Bool.eq_false_iff.mpr hat⟩
  | @setRetention bucket key versionId retention bypass hallowed hbuckets hobjects hblobs =>
      obtain ⟨r', hr', hsame, rfl | ⟨rfl, haddressed⟩⟩ :=
        updateRows_forth (addressed bucket key versionId) (fun r => { r with
          retentionMode := some retention.mode
          retainUntilDate := some retention.retainUntilDate }) hr rfl
      · exact Or.inl ⟨r', hobjects ▸ hr', hsame, Or.inl (.refl r')⟩
      · exact Or.inl ⟨_, hobjects ▸ hr', hsame, Or.inr ⟨hallowed, haddressed⟩⟩
  | @setLegalHold bucket key versionId status hbuckets hobjects hblobs =>
      obtain ⟨r', hr', hsame, rfl | ⟨rfl, haddressed⟩⟩ :=
        updateRows_forth (addressed bucket key versionId) (fun r => { r with
          legalHold := decide (status = .on) }) hr rfl
      · exact Or.inl ⟨r', hobjects ▸ hr', hsame, Or.inl (.refl r')⟩
      · exact Or.inl ⟨_, hobjects ▸ hr', hsame, Or.inr haddressed⟩

/-- **Unique columns stay unique** when the inserted row differs from every
row it does not replace. -/
theorem ObjectsEffect.keyed {κ : Type} {key : ObjectRow → κ} {w w' : World} {op : Op}
    (h : ObjectsEffect P w w' op) (hkeyed : Keyed key w.db.objects)
    (hsame : ∀ r r', SameVersion r r' → key r' = key r)
    (hfresh : ∀ r ∈ w.db.objects, ∀ row : ObjectRow, row.id = P.ulid w.draws →
      (row.versionId = row.id ∨ atKey row.bucket row.key r = false) → key r ≠ key row) :
    Keyed key w'.db.objects := by
  have hdemote : ∀ r : ObjectRow, key r.demote = key r := fun r => hsame _ _ (.demote r)
  cases h with
  | unchanged hbuckets hobjects hblobs => exact hobjects ▸ hkeyed
  | createdBucket hnew hbuckets hobjects hblobs => exact hobjects ▸ hkeyed
  | deletedBucket hempty hbuckets hobjects hblobs => exact hobjects ▸ hkeyed
  | setVersioning hbuckets hobjects hblobs => exact hobjects ▸ hkeyed
  | @installed op bucket k status row data hwrites hnew hbuckets hobjects hblobs hdraws =>
      rw [hobjects]
      by_cases hs : status = .enabled
      · have hid : row.versionId = row.id := by
          rw [hnew.versionId_eq, newVersionId, if_pos hs]
        rw [roomMade, if_pos hs]
        refine (hkeyed.updateRows fun r _ => hdemote r).insertRow ?_
        intro r' hr'
        obtain ⟨r, hr, rfl⟩ := mem_updateRows.mp hr'
        have hne := hfresh r hr row hnew.id_eq (Or.inl hid)
        split
        · rwa [hdemote]
        · exact hne
      · rw [roomMade, if_neg hs]
        refine hkeyed.deleteRows.insertRow ?_
        intro r hr
        obtain ⟨hmem, hat⟩ := mem_deleteRows.mp hr
        refine hfresh r hmem row hnew.id_eq (Or.inr ?_)
        rwa [hnew.bucket_eq, hnew.key_eq]
  | @removedVersion bucket k vid hunlocked hbuckets hobjects hblobs =>
      rw [hobjects, promoted]
      split
      · exact hkeyed.deleteRows
      · exact hkeyed.deleteRows.updateRows fun r _ => hsame _ _ (.promote r)
  | @addedMarker op bucket k status hop hstatus hne hunlocked hbuckets hobjects hblobs hdraws =>
      rw [hobjects]
      refine (hkeyed.updateRows fun r _ => hdemote r).insertRow ?_
      intro r' hr'
      obtain ⟨r, hr, rfl⟩ := mem_updateRows.mp hr'
      have hne := hfresh r hr (deleteMarkerRow bucket k (P.ulid w.draws) w.now.seconds) rfl
        (Or.inl rfl)
      split
      · rwa [hdemote]
      · exact hne
  | removedKey hop hstatus hunlocked hbuckets hobjects hblobs =>
      exact hobjects ▸ hkeyed.deleteRows
  | setRetention hallowed hbuckets hobjects hblobs =>
      exact hobjects ▸ hkeyed.updateRows fun r _ => hsame _ _ rfl
  | setLegalHold hbuckets hobjects hblobs =>
      exact hobjects ▸ hkeyed.updateRows fun r _ => hsame _ _ rfl

/-- **What one call can do to buckets.**  A call that changes them leaves the
object rows alone. -/
theorem ObjectsEffect.buckets {w w' : World} {op : Op} (h : ObjectsEffect P w w' op) :
    w'.db.buckets = w.db.buckets ∨
    (w'.db.objects = w.db.objects ∧
      ((∃ bucket opts, op = .createBucket bucket opts ∧ (∀ b ∈ w.db.buckets, b.name ≠ bucket) ∧
          w'.db.buckets = insertRow (bucketRow bucket opts w.now.seconds) w.db.buckets) ∨
        (∃ bucket, op = .deleteBucket bucket ∧ (∀ r ∈ w.db.objects, r.bucket ≠ bucket) ∧
          w'.db.buckets = deleteRows (·.name == bucket) w.db.buckets) ∨
        ∃ bucket enabled, op = .setBucketVersioning bucket enabled ∧
          w'.db.buckets = setStatus bucket
            (if enabled then VersioningStatus.enabled else .suspended) w.db.buckets)) := by
  cases h with
  | unchanged hbuckets hobjects hblobs => exact Or.inl hbuckets
  | createdBucket hnew hbuckets hobjects hblobs =>
      exact Or.inr ⟨hobjects, Or.inl ⟨_, _, rfl, hnew, hbuckets⟩⟩
  | deletedBucket hempty hbuckets hobjects hblobs =>
      exact Or.inr ⟨hobjects, Or.inr (Or.inl ⟨_, rfl, hempty, hbuckets⟩)⟩
  | setVersioning hbuckets hobjects hblobs =>
      exact Or.inr ⟨hobjects, Or.inr (Or.inr ⟨_, _, rfl, hbuckets⟩)⟩
  | installed hwrites hnew hbuckets hobjects hblobs hdraws => exact Or.inl hbuckets
  | removedVersion hunlocked hbuckets hobjects hblobs => exact Or.inl hbuckets
  | addedMarker hop hstatus hne hunlocked hbuckets hobjects hblobs hdraws =>
      exact Or.inl hbuckets
  | removedKey hop hstatus hunlocked hbuckets hobjects hblobs => exact Or.inl hbuckets
  | setRetention hallowed hbuckets hobjects hblobs => exact Or.inl hbuckets
  | setLegalHold hbuckets hobjects hblobs => exact Or.inl hbuckets

/-- A bucket that still has rows keeps its row under its name. -/
theorem ObjectsEffect.bucket_forth {w w' : World} {op : Op} (h : ObjectsEffect P w w' op)
    {b : BucketRow} (hb : b ∈ w.db.buckets) {r' : ObjectRow} (hr' : r' ∈ w'.db.objects)
    (hname : b.name = r'.bucket) : ∃ b' ∈ w'.db.buckets, b'.name = r'.bucket := by
  rcases h.buckets with hsame | ⟨hobjects, ⟨bucket, opts, -, -, hins⟩ | ⟨bucket, -, hempty, hdel⟩ |
      ⟨bucket, enabled, -, hset⟩⟩
  · exact ⟨b, hsame ▸ hb, hname⟩
  · exact ⟨b, by rw [hins]; exact mem_insertRow.mpr (Or.inl hb), hname⟩
  · have hne : b.name ≠ bucket := hname ▸ hempty r' (hobjects ▸ hr')
    refine ⟨b, ?_, hname⟩
    rw [hdel, mem_deleteRows]
    exact ⟨hb, by simpa using hne⟩
  · rw [hset, setStatus]
    by_cases hp : (b.name == bucket) = true
    · exact ⟨_, assign_mem_updateRows hb hp, hname⟩
    · exact ⟨b, mem_updateRows_of_not hb (by simpa using hp), hname⟩

theorem ObjectsEffect.bucketNames {w w' : World} {op : Op} (h : ObjectsEffect P w w' op)
    (hkeyed : Keyed (·.name) w.db.buckets) : Keyed (·.name) w'.db.buckets := by
  rcases h.buckets with hsame | ⟨-, ⟨bucket, opts, -, hnew, hins⟩ | ⟨bucket, -, -, hdel⟩ |
      ⟨bucket, enabled, -, hset⟩⟩
  · exact hsame ▸ hkeyed
  · exact hins ▸ hkeyed.insertRow hnew
  · exact hdel ▸ hkeyed.deleteRows
  · exact hset ▸ hkeyed.updateRows fun b _ => rfl

/-- In a bucket that is not versioned, every row that was not the only one
of its key is gone. -/
theorem ObjectsEffect.unversioned {w w' : World} {op : Op} (h : ObjectsEffect P w w' op)
    (hw : WellFormed P w) {b : BucketRow} (hb : b ∈ w.db.buckets)
    (hun : b.versioningStatus = .unversioned) {r' : ObjectRow} (hr' : r' ∈ w'.db.objects)
    (hname : r'.bucket = b.name) : r'.versionId = "null" ∧ r'.isLatest = true := by
  have hstatus_b := hw.versioningStatus_eq hb
  cases h with
  | unchanged hbuckets hobjects hblobs => exact hw.unversioned b hb hun r' (hobjects ▸ hr') hname
  | createdBucket hnew hbuckets hobjects hblobs =>
      exact hw.unversioned b hb hun r' (hobjects ▸ hr') hname
  | deletedBucket hempty hbuckets hobjects hblobs =>
      exact hw.unversioned b hb hun r' (hobjects ▸ hr') hname
  | setVersioning hbuckets hobjects hblobs =>
      exact hw.unversioned b hb hun r' (hobjects ▸ hr') hname
  | @installed op bucket key status row data hwrites hnew hbuckets hobjects hblobs hdraws =>
      -- a demoted row, and a row with a version id, sit in an enabled bucket
      have henabled : bucket = b.name → status ≠ .enabled := by
        rintro rfl rfl
        rw [hnew.status_eq, hun] at hstatus_b
        cases hstatus_b
      rw [hobjects] at hr'
      rcases mem_insertRow.mp hr' with hold | rfl
      · unfold roomMade at hold
        split at hold
        · next henabled' =>
            obtain ⟨r, hr, hrr⟩ := mem_updateRows.mp hold
            split at hrr
            · next hat =>
                subst hrr
                exact absurd henabled' (henabled ((atKey_iff.mp hat).1 ▸ hname))
            · exact hrr ▸ hw.unversioned b hb hun r hr (hrr ▸ hname)
        · exact hw.unversioned b hb hun r' (mem_deleteRows.mp hold).1 hname
      · rw [hnew.versionId_eq, newVersionId,
          if_neg (henabled (hnew.bucket_eq.symm.trans hname))]
        exact ⟨rfl, hnew.latest⟩
  | removedVersion hunlocked hbuckets hobjects hblobs =>
      rw [hobjects] at hr'
      obtain ⟨r, hr, rfl | rfl⟩ := mem_promoted hr'
      · exact hw.unversioned b hb hun r' (mem_deleteRows.mp hr).1 hname
      · exact ⟨(hw.unversioned b hb hun r (mem_deleteRows.mp hr).1 hname).1, rfl⟩
  | @addedMarker op bucket key status hop hstatus hne hunlocked hbuckets hobjects hblobs hdraws =>
      have hother : bucket ≠ b.name := by
        rintro rfl
        rw [hstatus, hun] at hstatus_b
        exact hne (Option.some.inj hstatus_b)
      rw [hobjects] at hr'
      rcases mem_insertRow.mp hr' with hold | rfl
      · obtain ⟨r, hr, hrr⟩ := mem_updateRows.mp hold
        split at hrr
        · next hat =>
            subst hrr
            exact absurd ((atLatest_iff.mp hat).1.1 ▸ hname) hother
        · exact hrr ▸ hw.unversioned b hb hun r hr (hrr ▸ hname)
      · exact absurd hname hother
  | removedKey hop hstatus hunlocked hbuckets hobjects hblobs =>
      rw [hobjects] at hr'
      exact hw.unversioned b hb hun r' (mem_deleteRows.mp hr').1 hname
  | setRetention hallowed hbuckets hobjects hblobs =>
      rw [hobjects] at hr'
      obtain ⟨r, hr, rfl⟩ := mem_updateRows.mp hr'
      split at hname <;> split <;> exact hw.unversioned b hb hun r hr hname
  | setLegalHold hbuckets hobjects hblobs =>
      rw [hobjects] at hr'
      obtain ⟨r, hr, rfl⟩ := mem_updateRows.mp hr'
      split at hname <;> split <;> exact hw.unversioned b hb hun r hr hname

/-- **Uploads, looking back.** -/
theorem PartsEffect.upload_back {w w' : World} {op : Op} (h : PartsEffect P w w' op)
    {u : UploadRow} (hu : u ∈ w'.db.uploads) :
    u ∈ w.db.uploads ∨ (u.uploadId = P.ulid w.draws ∧ w.draws < w'.draws) := by
  cases h with
  | unchanged huploads hparts hfiles => exact Or.inl (huploads ▸ hu)
  | cascaded huploads hparts hfiles =>
      rw [huploads] at hu
      exact Or.inl (mem_deleteRows.mp hu).1
  | created hbucket huploads hparts hfiles hdraws =>
      rw [huploads] at hu
      rcases mem_insertRow.mp hu with hold | rfl
      · exact Or.inl hold
      · exact Or.inr ⟨rfl, hdraws⟩
  | broken hreaches hbody huploads hparts hfiles => exact Or.inl (huploads ▸ hu)
  | stored hreaches hbody huploads hparts hfiles => exact Or.inl (huploads ▸ hu)
  | closed huploads hparts hfiles =>
      rw [huploads] at hu
      exact Or.inl (mem_deleteRows.mp hu).1

theorem PartsEffect.keyedUpload {w w' : World} {op : Op} (h : PartsEffect P w w' op)
    (hids : UploadsDrawn P w) (hkeyed : Keyed (·.uploadId) w.db.uploads) :
    Keyed (·.uploadId) w'.db.uploads := by
  cases h with
  | unchanged huploads hparts hfiles => exact huploads ▸ hkeyed
  | cascaded huploads hparts hfiles => exact huploads ▸ hkeyed.deleteRows
  | created hbucket huploads hparts hfiles hdraws =>
      refine huploads ▸ hkeyed.insertRow fun u hu => ?_
      obtain ⟨i, hi, hid⟩ := hids u hu
      intro heq
      have := P.ulid_injective (hid.symm.trans heq)
      omega
  | broken hreaches hbody huploads hparts hfiles => exact huploads ▸ hkeyed
  | stored hreaches hbody huploads hparts hfiles => exact huploads ▸ hkeyed
  | closed huploads hparts hfiles => exact huploads ▸ hkeyed.deleteRows

theorem PartsEffect.keyedPart {w w' : World} {op : Op} (h : PartsEffect P w w' op)
    (hkeyed : Keyed (fun p => (p.uploadId, p.partNumber)) w.db.parts) :
    Keyed (fun p => (p.uploadId, p.partNumber)) w'.db.parts := by
  cases h with
  | unchanged huploads hparts hfiles => exact hparts ▸ hkeyed
  | cascaded huploads hparts hfiles => exact hparts ▸ hkeyed.deleteRows
  | created hbucket huploads hparts hfiles hdraws => exact hparts ▸ hkeyed
  | broken hreaches hbody huploads hparts hfiles => exact hparts ▸ hkeyed
  | stored hreaches hbody huploads hparts hfiles =>
      refine hparts ▸ hkeyed.deleteRows.insertRow fun p hp heq => ?_
      have hat := (mem_deleteRows.mp hp).2
      exact Bool.noConfusion (hat.symm.trans (atPart_iff.mpr (Prod.mk.inj heq)))
  | closed huploads hparts hfiles => exact hparts ▸ hkeyed.deleteRows

theorem PartsEffect.partUploads {w w' : World} {op : Op} (h : PartsEffect P w w' op)
    (hw : ∀ p ∈ w.db.parts, ∃ u ∈ w.db.uploads, u.uploadId = p.uploadId) :
    ∀ p ∈ w'.db.parts, ∃ u ∈ w'.db.uploads, u.uploadId = p.uploadId := by
  intro p hp
  cases h with
  | unchanged huploads hparts hfiles => exact huploads ▸ hw p (hparts ▸ hp)
  | @cascaded bucket huploads hparts hfiles =>
      rw [hparts] at hp
      obtain ⟨hmem, hgone⟩ := mem_deleteRows.mp hp
      obtain ⟨u, hu, hid⟩ := hw p hmem
      refine ⟨u, ?_, hid⟩
      rw [huploads, mem_deleteRows]
      refine ⟨hu, ?_⟩
      by_contra hbucket
      have hthere : p.uploadId ∈ (w.db.uploads.filter (·.bucket == bucket)).map (·.uploadId) :=
        List.mem_map.mpr ⟨u, List.mem_filter.mpr ⟨hu, by simpa using hbucket⟩, hid⟩
      rw [List.contains_iff_mem.mpr hthere] at hgone
      cases hgone
  | created hbucket huploads hparts hfiles hdraws =>
      obtain ⟨u, hu, hid⟩ := hw p (hparts ▸ hp)
      exact ⟨u, by rw [huploads]; exact mem_insertRow.mpr (Or.inl hu), hid⟩
  | broken hreaches hbody huploads hparts hfiles => exact huploads ▸ hw p (hparts ▸ hp)
  | stored hreaches hbody huploads hparts hfiles =>
      rw [huploads]
      rw [hparts] at hp
      rcases mem_insertRow.mp hp with hold | rfl
      · exact hw p (mem_deleteRows.mp hold).1
      · exact uploadRowExists_iff.mp hreaches.2
  | @closed op uploadId huploads hparts hfiles =>
      rw [hparts] at hp
      obtain ⟨hmem, hother⟩ := mem_deleteRows.mp hp
      obtain ⟨u, hu, hid⟩ := hw p hmem
      exact ⟨u, by rw [huploads, mem_deleteRows]; exact ⟨hu, by rwa [hid]⟩, hid⟩

/-- **One call keeps the invariant.** -/
theorem WellFormed.next {w : World} (hw : WellFormed P w) (op : Op) :
    WellFormed P ((store P).next w op) := by
  have h := step_effect hw.ids hw.uploadIds op
  have hfreshId : ∀ r ∈ w.db.objects, ∀ row : ObjectRow, row.id = P.ulid w.draws →
      r.id ≠ row.id := fun r hr row hrow => hrow ▸ hw.ids.fresh (Nat.le_refl _) hr
  exact {
    ids := by
      intro r' hr'
      rcases h.objects.row_back hr' with ⟨r, hr, hsame, -⟩ | hnew
      · obtain ⟨i, hi, hid⟩ := hw.ids r hr
        exact ⟨i, Nat.lt_of_lt_of_le hi h.draws_le, hsame.id_eq.trans hid⟩
      · exact ⟨w.draws, hnew.draws_lt, hnew.id_eq⟩
    uploadIds := by
      intro u hu
      rcases h.parts.upload_back hu with hold | ⟨hid, hlt⟩
      · obtain ⟨i, hi, hid⟩ := hw.uploadIds u hold
        exact ⟨i, Nat.lt_of_lt_of_le hi h.draws_le, hid⟩
      · exact ⟨w.draws, hlt, hid⟩
    keyedId := h.objects.keyed hw.keyedId (fun _ _ hsame => hsame.id_eq)
      fun r hr row hrow _ => hfreshId r hr row hrow
    keyedVersion := by
      refine h.objects.keyed hw.keyedVersion (fun r r' hsame => by
        simp only [hsame.bucket_eq, hsame.key_eq, hsame.versionId_eq]) ?_
      intro r hr row hrow hor heq
      simp only [Prod.mk.injEq] at heq
      rcases hor with hid | hat
      · rcases hw.versionIds r hr with hnull | hrid
        · exact P.ulid_ne_null w.draws (by rw [← hrow, ← hid, ← heq.2.2, hnull])
        · exact hfreshId r hr row hrow (by rw [← hrid, heq.2.2, hid])
      · rw [atKey_iff.mpr ⟨heq.1, heq.2.1⟩] at hat
        cases hat
    versionIds := by
      intro r' hr'
      rcases h.objects.row_back hr' with ⟨r, hr, hsame, -⟩ | hnew
      · rw [hsame.versionId_eq, hsame.id_eq]
        exact hw.versionIds r hr
      · exact hnew.versionId_eq
    rowBuckets := by
      intro r' hr'
      rcases h.objects.row_back hr' with ⟨r, hr, hsame, -⟩ | hnew
      · obtain ⟨b, hb, hname⟩ := hw.rowBuckets r hr
        exact h.objects.bucket_forth hb hr' (hname.trans hsame.bucket_eq.symm)
      · obtain ⟨b, hb, hname⟩ := hnew.bucket
        exact h.objects.bucket_forth hb hr' hname
    bucketNames := h.objects.bucketNames hw.bucketNames
    unversioned := by
      intro b' hb' hun r' hr' hname
      rcases h.objects.buckets with hsame | ⟨hobjects, hcases⟩
      · exact h.objects.unversioned hw (hsame ▸ hb') hun hr' hname
      · rw [hobjects] at hr'
        rcases hcases with ⟨bucket, opts, -, hnew, hins⟩ | ⟨bucket, -, -, hdel⟩ |
          ⟨bucket, enabled, -, hset⟩
        · rw [hins] at hb'
          rcases mem_insertRow.mp hb' with hold | rfl
          · exact hw.unversioned b' hold hun r' hr' hname
          · obtain ⟨b, hb, hbname⟩ := hw.rowBuckets r' hr'
            exact absurd (hbname.trans hname) (hnew b hb)
        · rw [hdel] at hb'
          exact hw.unversioned b' (mem_deleteRows.mp hb').1 hun r' hr' hname
        · rw [hset, setStatus] at hb'
          obtain ⟨b, hb, rfl⟩ := mem_updateRows.mp hb'
          split at hun
          · cases enabled <;> cases hun
          · split at hname <;> exact hw.unversioned b hb hun r' hr' hname
    keyedUpload := h.parts.keyedUpload hw.uploadIds hw.keyedUpload
    keyedPart := h.parts.keyedPart hw.keyedPart
    partUploads := h.parts.partUploads hw.partUploads }

/-- **Blobs of surviving rows stay.** -/
theorem ObjectsEffect.blob_kept {w w' : World} {op : Op} (h : ObjectsEffect P w w' op)
    (hw : WellFormed P w) {r r' : ObjectRow} (hr : r ∈ w.db.objects)
    (hr' : r' ∈ w'.db.objects) (hid : r'.id = r.id) :
    w'.files.objects r.id = w.files.objects r.id := by
  cases h with
  | unchanged hbuckets hobjects hblobs => rw [hblobs]
  | createdBucket hnew hbuckets hobjects hblobs => rw [hblobs]
  | deletedBucket hempty hbuckets hobjects hblobs => rw [hblobs]
  | setVersioning hbuckets hobjects hblobs => rw [hblobs]
  | installed hwrites hnew hbuckets hobjects hblobs hdraws =>
      rw [hblobs, Function.update_of_ne]
      rw [hnew.id_eq]
      exact hw.ids.fresh (Nat.le_refl _) hr
  | @removedVersion bucket key vid hunlocked hbuckets hobjects hblobs =>
      -- the blob that went was that of the removed row, which is another one
      rw [hobjects] at hr'
      have hleft : r ∈ deleteRows (atVersion bucket key vid) w.db.objects := by
        obtain ⟨old, hold, heq⟩ := mem_promoted hr'
        have hold_id : old.id = r.id := by
          rcases heq with rfl | rfl
          · exact hid
          · exact hid
        exact hw.keyedId.eq_of_mem (mem_deleteRows.mp hold).1 hr hold_id ▸ hold
      have hother : r.id ∉ ((selectObject bucket key (some vid) w.db).map (·.id)).toList := by
        intro hin
        simp only [Option.mem_toList, Option.map_eq_some_iff] at hin
        obtain ⟨gone, hgone, hgid⟩ := hin
        obtain ⟨hmem, hat⟩ := selectFirst_some hgone
        have hat' := (mem_deleteRows.mp hleft).2
        rw [← hw.keyedId.eq_of_mem hmem hr hgid] at hat'
        exact Bool.noConfusion (hat'.symm.trans hat)
      rw [hblobs, Files.dropBlobs_of_not_mem hother]
  | addedMarker hop hstatus hne hunlocked hbuckets hobjects hblobs hdraws => rw [hblobs]
  | @removedKey op bucket key hop hstatus hunlocked hbuckets hobjects hblobs =>
      rw [hobjects] at hr'
      obtain ⟨hmem, hat⟩ := mem_deleteRows.mp hr'
      have hother : r.id ∉ (w.db.objects.filter (atKey bucket key)).map (·.id) := by
        intro hin
        obtain ⟨gone, hgone, hgid⟩ := List.mem_map.mp hin
        obtain ⟨hgmem, hgat⟩ := List.mem_filter.mp hgone
        rw [hw.keyedId.eq_of_mem hmem hgmem (hid.trans hgid.symm)] at hat
        exact Bool.noConfusion (hat.symm.trans hgat)
      rw [hblobs, Files.dropBlobs_of_not_mem hother]
  | setRetention hallowed hbuckets hobjects hblobs => rw [hblobs]
  | setLegalHold hbuckets hobjects hblobs => rw [hblobs]

/-- A call that writes no version leaves no version but old ones, each with its blob. -/
theorem ObjectsEffect.row_unwritten {w w' : World} {op : Op} (h : ObjectsEffect P w w' op)
    (hw : WellFormed P w) (hnone : ∀ bucket key, ¬ op.Writes P w bucket key) {r' : ObjectRow}
    (hr' : r' ∈ w'.db.objects) (hmarker : r'.isDeleteMarker = false) :
    ∃ r ∈ w.db.objects, SameVersion r r' ∧ r.isDeleteMarker = false ∧
      w'.files.objects r'.id = w.files.objects r.id := by
  rcases h.row_back hr' with ⟨r, hr, hsame, -⟩ | hnew
  · refine ⟨r, hr, hsame, hsame.isDeleteMarker_eq.symm.trans hmarker, ?_⟩
    rw [hsame.id_eq, h.blob_kept hw hr hr' hsame.id_eq]
  · rcases hnew.source with hyes | ⟨bucket, key, hwrites⟩
    · rw [hmarker] at hyes
      cases hyes
    · exact absurd hwrites (hnone bucket key)

/-- Beside the row that a writer has installed there are old ones, each with its blob. -/
theorem row_of_install {w w' : World} (hw' : WellFormed P w') {status : VersioningStatus}
    {row : ObjectRow} {data : Bytes}
    (hobjects : w'.db.objects = insertRow row (roomMade status row.bucket row.key w.db.objects))
    (hblobs : w'.files.objects = Function.update w.files.objects row.id (some data))
    {r' : ObjectRow} (hr' : r' ∈ w'.db.objects) :
    r' = row ∨ (r'.id ≠ row.id ∧ ∃ r ∈ w.db.objects, SameVersion r r' ∧
      w'.files.objects r'.id = w.files.objects r.id) := by
  have hrow : row ∈ w'.db.objects := by
    rw [hobjects]
    exact mem_insertRow.mpr (Or.inr rfl)
  by_cases hid : r'.id = row.id
  · exact Or.inl (hw'.keyedId.eq_of_mem hr' hrow hid)
  · rw [hobjects] at hr'
    rcases mem_insertRow.mp hr' with hold | rfl
    · obtain ⟨r, hr, hsame⟩ := sameVersion_of_roomMade hold
      refine Or.inr ⟨hid, r, hr, hsame, ?_⟩
      rw [hblobs, Function.update_of_ne hid, hsame.id_eq]
    · exact absurd rfl hid

/-- **Every reachable state is well formed.** -/
theorem wellFormed_reachable {w : World} (h : (store P).Reachable w) : WellFormed P w :=
  Machine.invariant_reachable wellFormed_init (fun _ op hw => hw.next op) h

/-- **In every reachable state the buckets' names are valid.** -/
theorem validNames_reachable {w : World} (h : (store P).Reachable w) :
    ∀ b ∈ w.db.buckets, validateBucketName b.name = .ok () := by
  refine (Machine.invariant_reachable (M := store P)
    (I := fun w => WellFormed P w ∧ ∀ b ∈ w.db.buckets, validateBucketName b.name = .ok ())
    ⟨wellFormed_init, fun b hb => absurd hb List.not_mem_nil⟩ ?_ h).2
  rintro w op ⟨hw, hnames⟩
  refine ⟨hw.next op, fun b' hb' => ?_⟩
  rcases (step_effect hw.ids hw.uploadIds op).objects.buckets with hsame | ⟨-, hcases⟩
  · exact hnames b' (hsame ▸ hb')
  · rcases hcases with
      ⟨bucket, opts, rfl, -, hins⟩ | ⟨bucket, -, -, hdel⟩ | ⟨bucket, enabled, -, hset⟩
    · cases hname : validateBucketName bucket with
      | error e =>
          have hrefused : (store P).next w (.createBucket bucket opts) = w := by
            simp only [Machine.next, store, step, answering, createBucket_badName hname]
          exact hnames b' (hrefused ▸ hb')
      | ok _ =>
          rw [hins] at hb'
          rcases mem_insertRow.mp hb' with hold | rfl
          · exact hnames b' hold
          · exact hname
    · rw [hdel] at hb'
      exact hnames b' (mem_deleteRows.mp hb').1
    · rw [hset, setStatus] at hb'
      obtain ⟨b, hb, rfl⟩ := mem_updateRows.mp hb'
      split <;> exact hnames b hb

/-- An accepted write into a bucket that is not enabled leaves no row of the
key it finds there. -/
theorem write_removes_rows {w : World} (hw : WellFormed P w) {op : Op} {bucket key : String}
    (hwrites : op.Writes P w bucket key)
    (hstatus : versioningStatus bucket w.db ≠ some .enabled) {r : ObjectRow}
    (hr : r ∈ w.db.objects) (hat : atKey bucket key r = true) :
    ∀ r' ∈ ((store P).next w op).db.objects, r'.id ≠ r.id := by
  intro r' hr' hid
  obtain ⟨status, row, hnew, hobjects⟩ := hwrites.installs hw.ids
  have hne : status ≠ .enabled := fun heq => hstatus (heq ▸ hnew.status_eq)
  rw [hobjects] at hr'
  rcases mem_insertRow.mp hr' with hold | rfl
  · rw [roomMade, if_neg hne] at hold
    obtain ⟨hmem, hgone⟩ := mem_deleteRows.mp hold
    rw [hw.keyedId.eq_of_mem hmem hr hid, hat] at hgone
    cases hgone
  · exact hw.ids.fresh (Nat.le_refl _) hr (hid.symm.trans hnew.id_eq)

end Strix
