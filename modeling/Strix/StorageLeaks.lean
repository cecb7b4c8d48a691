import Strix.ExecutablePlatform
import Strix.StoreInvariant

/-!
# Files that no row knows

A blob file is to belong to a row of `objects`, a directory under `multipart/`
to a row of `multipart_uploads`.  The deletes of versions and keys, and the end
of an upload, remove the files of the rows they remove.  A write that replaces
the rows of a key removes the rows alone, and so does the cascade of
`delete_bucket` with the uploads of the bucket.

* `noLeak_iff_sparesFiles`: a run of successful calls comes through states
  without such files only exactly when none of its writes replaces an object
  and none of its bucket deletions takes an upload along;
* `overwrite_leaks`: else it leaves one.
-/

namespace Strix

open AtomicProgram AtomicProgram.Prog MachineRuns RowTable

/-- **No leak.**  Every blob file belongs to an object row, every upload
directory to an upload row. -/
structure NoLeak (w : World) : Prop where
  blobs : ∀ id, (w.files.objects id).isSome → ∃ r ∈ w.db.objects, r.id = id
  dirs : ∀ id, (w.files.multipart id).isSome → ∃ u ∈ w.db.uploads, u.uploadId = id

/-- **The condition on a call:** a write finds versioning enabled, or no row
of the key but delete markers; a bucket that is deleted has no upload. -/
def SparesFiles (w : World) (op : Op) : Prop :=
  (∀ bucket key, op.Targets w bucket key → versioningStatus bucket w.db = some .enabled ∨
    ∀ r ∈ w.db.objects, atKey bucket key r = true → r.isDeleteMarker = true) ∧
  ∀ bucket, op = .deleteBucket bucket → ∀ u ∈ w.db.uploads, u.bucket ≠ bucket

variable (P : Platform)

/-- The call succeeds. -/
def Succeeds (w : World) (op : Op) : Prop := ∃ reply, (store P).reply w op = .ok reply

/-- **Rows and their files.**  Every row but a delete marker has a blob, every
upload its directory, and blobs stand under ids that were drawn. -/
structure Backed (w : World) : Prop where
  blobs : ∀ r ∈ w.db.objects, r.isDeleteMarker = false → (w.files.objects r.id).isSome
  markers : ∀ r ∈ w.db.objects, r.isDeleteMarker = true → w.files.objects r.id = none
  drawn : ∀ id, (w.files.objects id).isSome → ∃ i, i < w.draws ∧ id = P.ulid i
  dirs : ∀ u ∈ w.db.uploads, (w.files.multipart u.uploadId).isSome

variable {P}

theorem noLeak_init : NoLeak (store P).init where
  blobs := fun _ hid => absurd hid (by simp [store])
  dirs := fun _ hid => absurd hid (by simp [store])

theorem backed_init : Backed P (store P).init where
  blobs := fun _ hr => absurd hr List.not_mem_nil
  markers := fun _ hr => absurd hr List.not_mem_nil
  drawn := fun _ hid => absurd hid (by simp [store])
  dirs := fun _ hu => absurd hu List.not_mem_nil

/-! ## Blobs -/

/-- A blob that is dropped is there no more; the others stay. -/
theorem Files.dropBlobs_isSome {files : Files} {ids : List String} {id : String}
    (h : ((files.dropBlobs ids).objects id).isSome) : id ∉ ids ∧ (files.objects id).isSome := by
  by_cases hmem : id ∈ ids
  · simp [Files.dropBlobs, hmem] at h
  · rw [Files.dropBlobs_of_not_mem hmem] at h
    exact ⟨hmem, h⟩

/-- **Blobs, looking back.**  A call writes a blob under the draw's id only. -/
theorem ObjectsEffect.blob_back {w w' : World} {op : Op} (h : ObjectsEffect P w w' op)
    {id : String} (hid : (w'.files.objects id).isSome) :
    (w.files.objects id).isSome ∨ (id = P.ulid w.draws ∧ w.draws < w'.draws) := by
  cases h with
  | unchanged hbuckets hobjects hblobs => exact Or.inl (hblobs ▸ hid)
  | createdBucket hnew hbuckets hobjects hblobs => exact Or.inl (hblobs ▸ hid)
  | deletedBucket hempty hbuckets hobjects hblobs => exact Or.inl (hblobs ▸ hid)
  | setVersioning hbuckets hobjects hblobs => exact Or.inl (hblobs ▸ hid)
  | @installed op bucket key status row data hwrites hnew hbuckets hobjects hblobs hdraws =>
      by_cases hrow : id = row.id
      · exact Or.inr ⟨hrow.trans hnew.id_eq, hdraws⟩
      · rw [hblobs, Function.update_of_ne hrow] at hid
        exact Or.inl hid
  | removedVersion hunlocked hbuckets hobjects hblobs =>
      rw [hblobs] at hid
      exact Or.inl (Files.dropBlobs_isSome hid).2
  | addedMarker hop hstatus hne hunlocked hbuckets hobjects hblobs hdraws =>
      exact Or.inl (hblobs ▸ hid)
  | removedKey hop hstatus hunlocked hbuckets hobjects hblobs =>
      rw [hblobs] at hid
      exact Or.inl (Files.dropBlobs_isSome hid).2
  | setRetention hallowed hbuckets hobjects hblobs => exact Or.inl (hblobs ▸ hid)
  | setLegalHold hbuckets hobjects hblobs => exact Or.inl (hblobs ▸ hid)

/-- **A new row and its blob:** a version has one, a delete marker none. -/
theorem ObjectsEffect.new_blob {w w' : World} {op : Op} (h : ObjectsEffect P w w' op)
    {r' : ObjectRow} (hr' : r' ∈ w'.db.objects) (hnew : ∀ r ∈ w.db.objects, r.id ≠ r'.id) :
    (r'.isDeleteMarker = false ∧ (w'.files.objects r'.id).isSome) ∨
      (r'.isDeleteMarker = true ∧ w'.files.objects = w.files.objects) := by
  rcases h.row_back hr' with ⟨r, hr, hsame, -⟩ | hinserted
  · exact absurd hsame.id_eq.symm (hnew r hr)
  · cases h with
    | unchanged hbuckets hobjects hblobs => exact absurd rfl (hnew r' (hobjects ▸ hr'))
    | createdBucket hname hbuckets hobjects hblobs => exact absurd rfl (hnew r' (hobjects ▸ hr'))
    | deletedBucket hempty hbuckets hobjects hblobs =>
        exact absurd rfl (hnew r' (hobjects ▸ hr'))
    | setVersioning hbuckets hobjects hblobs => exact absurd rfl (hnew r' (hobjects ▸ hr'))
    | @installed op bucket key status row data hwrites hversion hbuckets hobjects hblobs hdraws =>
        rw [hobjects] at hr'
        rcases mem_insertRow.mp hr' with hold | rfl
        · obtain ⟨r, hr, hsame⟩ := sameVersion_of_roomMade hold
          exact absurd hsame.id_eq.symm (hnew r hr)
        · refine Or.inl ⟨hversion.notMarker, ?_⟩
          rw [hblobs, Function.update_self]
          rfl
    | removedVersion hunlocked hbuckets hobjects hblobs =>
        rw [hobjects] at hr'
        obtain ⟨r, hr, rfl | rfl⟩ := mem_promoted hr'
        · exact absurd rfl (hnew r' (mem_deleteRows.mp hr).1)
        · exact absurd rfl (hnew r (mem_deleteRows.mp hr).1)
    | addedMarker hop hstatus hne hunlocked hbuckets hobjects hblobs hdraws =>
        rw [hobjects] at hr'
        rcases mem_insertRow.mp hr' with hold | rfl
        · obtain ⟨r, hr, heq⟩ := mem_updateRows.mp hold
          refine absurd ?_ (hnew r hr)
          rw [← heq]
          split <;> rfl
        · exact Or.inr ⟨rfl, hblobs⟩
    | removedKey hop hstatus hunlocked hbuckets hobjects hblobs =>
        rw [hobjects] at hr'
        exact absurd rfl (hnew r' (mem_deleteRows.mp hr').1)
    | setRetention hallowed hbuckets hobjects hblobs =>
        rw [hobjects] at hr'
        obtain ⟨r, hr, heq⟩ := mem_updateRows.mp hr'
        refine absurd ?_ (hnew r hr)
        rw [← heq]
        split <;> rfl
    | setLegalHold hbuckets hobjects hblobs =>
        rw [hobjects] at hr'
        obtain ⟨r, hr, heq⟩ := mem_updateRows.mp hr'
        refine absurd ?_ (hnew r hr)
        rw [← heq]
        split <;> rfl

/-- **A blob whose row is gone** is left by a write only, and by one that finds
the row of a version where versioning is not enabled. -/
theorem ObjectsEffect.blobs_next {w w' : World} {op : Op} (h : ObjectsEffect P w w' op)
    (hw : WellFormed P w) (hb : Backed P w) (hspares : SparesFiles w op)
    (hleak : ∀ id, (w.files.objects id).isSome → ∃ r ∈ w.db.objects, r.id = id) :
    ∀ id, (w'.files.objects id).isSome → ∃ r ∈ w'.db.objects, r.id = id := by
  intro id hid
  cases h with
  | unchanged hbuckets hobjects hblobs => exact hobjects ▸ hleak id (hblobs ▸ hid)
  | createdBucket hnew hbuckets hobjects hblobs => exact hobjects ▸ hleak id (hblobs ▸ hid)
  | deletedBucket hempty hbuckets hobjects hblobs => exact hobjects ▸ hleak id (hblobs ▸ hid)
  | setVersioning hbuckets hobjects hblobs => exact hobjects ▸ hleak id (hblobs ▸ hid)
  | @installed op bucket key status row data hwrites hnew hbuckets hobjects hblobs hdraws =>
      rw [hobjects]
      by_cases hrow : id = row.id
      · exact ⟨row, mem_insertRow.mpr (Or.inr rfl), hrow.symm⟩
      · rw [hblobs, Function.update_of_ne hrow] at hid
        obtain ⟨r, hr, rfl⟩ := hleak id hid
        by_cases hs : status = .enabled
        · obtain ⟨r', hr', hsame, -⟩ :=
            updateRows_forth (atKey bucket key) ObjectRow.demote hr (.demote r)
          refine ⟨r', mem_insertRow.mpr (Or.inl ?_), hsame.id_eq⟩
          rwa [roomMade, if_pos hs]
        · refine ⟨r, mem_insertRow.mpr (Or.inl ?_), rfl⟩
          rw [roomMade, if_neg hs, mem_deleteRows]
          refine ⟨hr, Bool.eq_false_iff.mpr fun hat => ?_⟩
          -- the row would go without its blob: it has none
          rcases hspares.1 bucket key hwrites.targets with henabled | hmarkers
          · rw [hnew.status_eq] at henabled
            exact hs (Option.some.inj henabled)
          · rw [hb.markers r hr (hmarkers r hr hat)] at hid
            cases hid
  | @removedVersion bucket key vid hunlocked hbuckets hobjects hblobs =>
      rw [hblobs] at hid
      obtain ⟨hother, hold⟩ := Files.dropBlobs_isSome hid
      obtain ⟨r, hr, rfl⟩ := hleak id hold
      have hat : atVersion bucket key vid r = false := by
        rw [Bool.eq_false_iff]
        intro hat
        obtain ⟨⟨rfl, rfl⟩, rfl⟩ := atVersion_iff.mp hat
        rw [hw.selectObject_version hr] at hother
        exact hother (by simp)
      obtain ⟨r', hr', hsame⟩ := promoted_forth (P := P) bucket key (mem_deleteRows.mpr ⟨hr, hat⟩)
      refine ⟨r', hobjects ▸ hr', ?_⟩
      rcases hsame with rfl | rfl <;> rfl
  | @addedMarker op bucket key status hop hstatus hne hunlocked hbuckets hobjects hblobs hdraws =>
      obtain ⟨r, hr, rfl⟩ := hleak id (hblobs ▸ hid)
      obtain ⟨r', hr', hsame, -⟩ :=
        updateRows_forth (atLatest bucket key) ObjectRow.demote hr (.demote r)
      rw [hobjects]
      exact ⟨r', mem_insertRow.mpr (Or.inl hr'), hsame.id_eq⟩
  | @removedKey op bucket key hop hstatus hunlocked hbuckets hobjects hblobs =>
      rw [hblobs] at hid
      obtain ⟨hother, hold⟩ := Files.dropBlobs_isSome hid
      obtain ⟨r, hr, rfl⟩ := hleak id hold
      refine ⟨r, ?_, rfl⟩
      rw [hobjects, mem_deleteRows]
      refine ⟨hr, Bool.eq_false_iff.mpr fun hat => hother ?_⟩
      exact List.mem_map.mpr ⟨r, List.mem_filter.mpr ⟨hr, hat⟩, rfl⟩
  | @setRetention bucket key versionId retention bypass hallowed hbuckets hobjects hblobs =>
      obtain ⟨r, hr, rfl⟩ := hleak id (hblobs ▸ hid)
      obtain ⟨r', hr', hsame, -⟩ :=
        updateRows_forth (addressed bucket key versionId) (fun r => { r with
          retentionMode := some retention.mode
          retainUntilDate := some retention.retainUntilDate }) hr rfl
      exact ⟨r', hobjects ▸ hr', hsame.id_eq⟩
  | @setLegalHold bucket key versionId status hbuckets hobjects hblobs =>
      obtain ⟨r, hr, rfl⟩ := hleak id (hblobs ▸ hid)
      obtain ⟨r', hr', hsame, -⟩ :=
        updateRows_forth (addressed bucket key versionId) (fun r => { r with
          legalHold := decide (status = .on) }) hr rfl
      exact ⟨r', hobjects ▸ hr', hsame.id_eq⟩

/-! ## Upload directories -/

theorem Files.ensureDir_multipart_isSome {files : Files} {uploadId id : String} :
    ((files.ensureDir uploadId).multipart id).isSome ↔
      (files.multipart id).isSome ∨ id = uploadId := by
  by_cases hid : id = uploadId
  · subst hid
    exact iff_of_true (Files.ensureDir_isSome files id) (Or.inr rfl)
  · simp [Files.ensureDir, hid]

/-- Rewriting a part file makes the upload's directory at most. -/
theorem World.rewritePart_multipart_isSome {w : World} {uploadId id : String} {partNumber : Nat}
    {data : Bytes} :
    ((w.rewritePart uploadId partNumber data).files.multipart id).isSome ↔
      (w.files.multipart id).isSome ∨ id = uploadId := by
  have hensure : ((w.files.ensureDir uploadId).multipart id).isSome ↔
      (w.files.multipart id).isSome ∨ id = uploadId := Files.ensureDir_multipart_isSome
  rw [← hensure, World.rewritePart]
  simp only [Files.setPart]
  split <;> simp

/-- **Directories after a call:** whatever upload row is left has one. -/
theorem PartsEffect.dirs_backed {w w' : World} {op : Op} (h : PartsEffect P w w' op)
    (hdirs : ∀ u ∈ w.db.uploads, (w.files.multipart u.uploadId).isSome) :
    ∀ u ∈ w'.db.uploads, (w'.files.multipart u.uploadId).isSome := by
  intro u hu
  cases h with
  | unchanged huploads hparts hfiles => exact hfiles ▸ hdirs u (huploads ▸ hu)
  | cascaded huploads hparts hfiles =>
      rw [huploads] at hu
      exact hfiles ▸ hdirs u (mem_deleteRows.mp hu).1
  | created hbucket huploads hparts hfiles hdraws =>
      rw [hfiles, Files.ensureDir_multipart_isSome]
      rw [huploads] at hu
      rcases mem_insertRow.mp hu with hold | rfl
      · exact Or.inl (hdirs u hold)
      · exact Or.inr rfl
  | broken hreaches hbody huploads hparts hfiles =>
      rw [hfiles, World.rewritePart_multipart_isSome]
      exact Or.inl (hdirs u (huploads ▸ hu))
  | stored hreaches hbody huploads hparts hfiles =>
      rw [hfiles, World.rewritePart_multipart_isSome]
      exact Or.inl (hdirs u (huploads ▸ hu))
  | @closed op uploadId huploads hparts hfiles =>
      rw [huploads] at hu
      obtain ⟨hmem, hother⟩ := mem_deleteRows.mp hu
      rw [hfiles, Function.update_of_ne (by simpa using hother)]
      exact hdirs u hmem

/-- **A directory whose row is gone** is left by the cascade only. -/
theorem PartsEffect.dirs_next {w w' : World} {op : Op} (h : PartsEffect P w w' op)
    (hspares : SparesFiles w op)
    (hleak : ∀ id, (w.files.multipart id).isSome → ∃ u ∈ w.db.uploads, u.uploadId = id) :
    ∀ id, (w'.files.multipart id).isSome → ∃ u ∈ w'.db.uploads, u.uploadId = id := by
  intro id hid
  cases h with
  | unchanged huploads hparts hfiles => exact huploads ▸ hleak id (hfiles ▸ hid)
  | @cascaded bucket huploads hparts hfiles =>
      have hnone : deleteRows (·.bucket == bucket) w.db.uploads = w.db.uploads :=
        deleteRows_eq_self fun u hu => beq_eq_false_iff_ne.mpr (hspares.2 bucket rfl u hu)
      rw [huploads, hnone]
      exact hleak id (hfiles ▸ hid)
  | created hbucket huploads hparts hfiles hdraws =>
      rw [huploads]
      rw [hfiles, Files.ensureDir_multipart_isSome] at hid
      rcases hid with hold | rfl
      · obtain ⟨u, hu, hname⟩ := hleak id hold
        exact ⟨u, mem_insertRow.mpr (Or.inl hu), hname⟩
      · exact ⟨_, mem_insertRow.mpr (Or.inr rfl), rfl⟩
  | broken hreaches hbody huploads hparts hfiles =>
      rw [huploads]
      rw [hfiles, World.rewritePart_multipart_isSome] at hid
      rcases hid with hold | rfl
      · exact hleak id hold
      · exact uploadRowExists_iff.mp hreaches.2
  | stored hreaches hbody huploads hparts hfiles =>
      rw [huploads]
      rw [hfiles, World.rewritePart_multipart_isSome] at hid
      rcases hid with hold | rfl
      · exact hleak id hold
      · exact uploadRowExists_iff.mp hreaches.2
  | @closed op uploadId huploads hparts hfiles =>
      rw [hfiles] at hid
      by_cases hsame : id = uploadId
      · rw [hsame, Function.update_self] at hid
        cases hid
      · rw [Function.update_of_ne hsame] at hid
        obtain ⟨u, hu, rfl⟩ := hleak id hid
        refine ⟨u, ?_, rfl⟩
        rw [huploads, mem_deleteRows]
        exact ⟨hu, beq_eq_false_iff_ne.mpr hsame⟩

/-! ## Every call -/

/-- **One call keeps rows and files together.** -/
theorem Backed.next {w : World} (hw : WellFormed P w) (h : Backed P w) (op : Op) :
    Backed P ((store P).next w op) := by
  have heffect := step_effect hw.ids hw.uploadIds op
  have hback : ∀ r' ∈ ((store P).next w op).db.objects,
      (∃ r ∈ w.db.objects, r'.isDeleteMarker = r.isDeleteMarker ∧ r'.id = r.id ∧
        ((store P).next w op).files.objects r'.id = w.files.objects r.id) ∨
      ∀ r ∈ w.db.objects, r.id ≠ r'.id := by
    intro r' hr'
    rcases heffect.objects.row_back hr' with ⟨r, hr, hsame, -⟩ | hnew
    · refine Or.inl ⟨r, hr, hsame.isDeleteMarker_eq, hsame.id_eq, ?_⟩
      rw [hsame.id_eq]
      exact heffect.objects.blob_kept hw hr hr' hsame.id_eq
    · refine Or.inr fun r hr => ?_
      rw [hnew.id_eq]
      exact hw.ids.fresh (Nat.le_refl _) hr
  exact {
    blobs := by
      intro r' hr' hversion
      rcases hback r' hr' with ⟨r, hr, hmarker, -, hblob⟩ | hnew
      · rw [hblob]
        exact h.blobs r hr (hmarker.symm.trans hversion)
      · rcases heffect.objects.new_blob hr' hnew with ⟨-, hthere⟩ | ⟨hmarker, -⟩
        · exact hthere
        · rw [hversion] at hmarker
          cases hmarker
    markers := by
      intro r' hr' hmarker
      rcases hback r' hr' with ⟨r, hr, hsame, -, hblob⟩ | hnew
      · rw [hblob]
        exact h.markers r hr (hsame.symm.trans hmarker)
      · rcases heffect.objects.new_blob hr' hnew with ⟨hversion, -⟩ | ⟨-, hblobs⟩
        · rw [hmarker] at hversion
          cases hversion
        · rw [hblobs, ← Option.not_isSome_iff_eq_none]
          intro hthere
          -- a blob under an id that is still to be drawn
          obtain ⟨i, hi, hid⟩ := h.drawn _ hthere
          rcases heffect.objects.row_back hr' with ⟨r, hr, hsame, -⟩ | hinserted
          · exact hnew r hr hsame.id_eq.symm
          · have hsame := P.ulid_injective (hid.symm.trans hinserted.id_eq)
            omega
    drawn := by
      intro id hid
      rcases heffect.objects.blob_back hid with hold | ⟨hnew, hlt⟩
      · obtain ⟨i, hi, hid⟩ := h.drawn id hold
        exact ⟨i, Nat.lt_of_lt_of_le hi heffect.draws_le, hid⟩
      · exact ⟨w.draws, hlt, hnew⟩
    dirs := heffect.parts.dirs_backed h.dirs }

/-- One call that meets the condition leaves no file behind. -/
theorem NoLeak.next {w : World} (hw : WellFormed P w) (hb : Backed P w) (h : NoLeak w) {op : Op}
    (hspares : SparesFiles w op) : NoLeak ((store P).next w op) := by
  have heffect := step_effect hw.ids hw.uploadIds op
  exact {
    blobs := heffect.objects.blobs_next hw hb hspares h.blobs
    dirs := heffect.parts.dirs_next hspares h.dirs }

/-- A call for a key that succeeds is an accepted write. -/
theorem Succeeds.writes {w : World} (hw : WellFormed P w) {op : Op} (h : Succeeds P w op)
    {bucket key : String} (htargets : op.Targets w bucket key) : op.Writes P w bucket key := by
  obtain ⟨reply, hreply⟩ := h
  cases op with
  | putObject bucket' key' body opts =>
      rcases putObject_cases bucket' key' body opts hw.ids with ⟨-, e, n, hrun, -⟩ | ⟨hyes, -⟩
      · simp [Machine.reply, store, step, answering, hrun, Except.map] at hreply
      · exact ⟨htargets, hyes⟩
  | copyObject srcBucket srcKey dstBucket dstKey opts =>
      rcases copyObject_cases srcBucket srcKey dstBucket dstKey opts hw.ids with
        ⟨-, e, n, hrun, -⟩ | ⟨hyes, -⟩
      · simp [Machine.reply, store, step, answering, hrun, Except.map] at hreply
      · exact ⟨htargets, hyes⟩
  | completeMultipartUpload upload parts =>
      rcases completeMultipartUpload_cases upload parts hw.ids with
        ⟨-, e, n, hrun, -⟩ | ⟨hyes, -⟩
      · simp [Machine.reply, store, step, answering, hrun, Except.map] at hreply
      · exact ⟨htargets, hyes⟩
  | _ => exact htargets.elim

/-- A write removes no blob. -/
theorem ObjectsEffect.blob_forth {w w' : World} {op : Op} (h : ObjectsEffect P w w' op)
    {bucket key : String} (htargets : op.Targets w bucket key) {id : String}
    (hid : (w.files.objects id).isSome) : (w'.files.objects id).isSome := by
  cases h with
  | unchanged hbuckets hobjects hblobs => exact hblobs ▸ hid
  | createdBucket hnew hbuckets hobjects hblobs => exact htargets.elim
  | deletedBucket hempty hbuckets hobjects hblobs => exact htargets.elim
  | setVersioning hbuckets hobjects hblobs => exact htargets.elim
  | @installed op bucket key status row data hwrites hnew hbuckets hobjects hblobs hdraws =>
      rw [hblobs]
      by_cases hrow : id = row.id
      · rw [hrow, Function.update_self]
        rfl
      · rwa [Function.update_of_ne hrow]
  | removedVersion hunlocked hbuckets hobjects hblobs => exact htargets.elim
  | addedMarker hop hstatus hne hunlocked hbuckets hobjects hblobs hdraws => exact hblobs ▸ hid
  | removedKey hop hstatus hunlocked hbuckets hobjects hblobs =>
      rcases hop with rfl | rfl <;> exact htargets.elim
  | setRetention hallowed hbuckets hobjects hblobs => exact htargets.elim
  | setLegalHold hbuckets hobjects hblobs => exact htargets.elim

/-- **A call that succeeds and leaves no file behind meets the condition.** -/
theorem sparesFiles_of_noLeak {w : World} (hw : WellFormed P w) (hb : Backed P w) {op : Op}
    (hsucceeds : Succeeds P w op) (hnext : NoLeak ((store P).next w op)) : SparesFiles w op := by
  have heffect := step_effect hw.ids hw.uploadIds op
  constructor
  · intro bucket key htargets
    by_contra hno
    obtain ⟨hstatus, hrows⟩ := not_or.mp hno
    push Not at hrows
    obtain ⟨r, hr, hat, hversion⟩ := hrows
    -- the row goes, its blob stays
    have hblob := hb.blobs r hr (Bool.eq_false_iff.mpr hversion)
    obtain ⟨r', hr', hid⟩ := hnext.blobs r.id (heffect.objects.blob_forth htargets hblob)
    exact write_removes_rows hw (hsucceeds.writes hw htargets) hstatus hr hat r' hr' hid
  · rintro bucket rfl u hu hname
    obtain ⟨reply, hreply⟩ := hsucceeds
    rcases deleteBucket_cases w bucket with ⟨e, hrun⟩ | ⟨-, hrun⟩
    · simp [Machine.reply, store, step, answering, hrun, Except.map] at hreply
    · -- the cascade takes the row, the directory stays
      have hafter : (store P).next w (.deleteBucket bucket) = { w with
          db := { w.db.withoutBucket bucket with objects := w.db.objects } } := by
        simp only [Machine.next, store, step, answering, hrun]
      rw [hafter] at hnext
      obtain ⟨u', hu', hid⟩ := hnext.dirs u.uploadId (hb.dirs u hu)
      obtain ⟨hmem, hother⟩ := mem_deleteRows.mp hu'
      rw [hw.keyedUpload.eq_of_mem hmem hu hid, hname] at hother
      simp at hother

/-- **Files without rows, exactly.**  A run of successful calls comes through
states without a leak only, exactly when every call meets the condition. -/
theorem noLeak_iff_sparesFiles (run : List Op)
    (hsucceeds : (store P).AllSteps (Succeeds P) (store P).init run) :
    (store P).AllStates NoLeak (store P).init run ↔
      (store P).AllSteps SparesFiles (store P).init run := by
  refine Machine.allStates_iff_allSteps (I := fun w => WellFormed P w ∧ Backed P w)
    (fun w op hw _ => ⟨hw.1.next op, hw.2.next hw.1 op⟩) ?_ ⟨wellFormed_init, backed_init⟩
    noLeak_init hsucceeds
  intro w op hw hone hleak
  exact ⟨sparesFiles_of_noLeak hw.1 hw.2 hone, fun hspares => hleak.next hw.1 hw.2 hspares⟩

/-! ## A put over a put -/

/-- A key is written, deleted and written again. -/
def rewrittenAfterDelete : List Op := [
  .createBucket "docs" {},
  .putObject "docs" "k" [.ok [97]] {},
  .deleteObject "docs" "k",
  .putObject "docs" "k" [.ok [98]] {}]

/-- Deleted in between, the first object leaves nothing. -/
theorem noLeak_iff_sparesFiles_deleted :
    (store executablePlatform).AllStates NoLeak (store executablePlatform).init
      rewrittenAfterDelete := by
  have hsucceeds : (store executablePlatform).AllSteps (Succeeds executablePlatform)
      (store executablePlatform).init rewrittenAfterDelete :=
    ⟨⟨_, rfl⟩, ⟨_, rfl⟩, ⟨_, rfl⟩, ⟨_, rfl⟩, trivial⟩
  refine (noLeak_iff_sparesFiles rewrittenAfterDelete hsucceeds).mpr ?_
  refine ⟨?_, ?_, ?_, ?_, trivial⟩
  · exact ⟨fun b k h => h.elim, fun b hop => by cases hop⟩
  · refine ⟨fun b k h => ?_, fun b hop => by cases hop⟩
    obtain ⟨rfl, rfl⟩ := h
    exact Or.inr (by decide)
  · exact ⟨fun b k h => h.elim, fun b hop => by cases hop⟩
  · refine ⟨fun b k h => ?_, fun b hop => by cases hop⟩
    obtain ⟨rfl, rfl⟩ := h
    exact Or.inr (by decide)

/-- A key is written twice. -/
def overwritten : List Op := [
  .createBucket "docs" {},
  .putObject "docs" "k" [.ok [97]] {},
  .putObject "docs" "k" [.ok [98]] {}]

/-- The second put removes the first one's row and leaves its blob. -/
theorem overwrite_leaks :
    ¬ ∀ run, (store executablePlatform).AllSteps (Succeeds executablePlatform)
        (store executablePlatform).init run →
      NoLeak ((store executablePlatform).after (store executablePlatform).init run) := by
  intro h
  have hsucceeds : (store executablePlatform).AllSteps (Succeeds executablePlatform)
      (store executablePlatform).init overwritten :=
    ⟨⟨_, rfl⟩, ⟨_, rfl⟩, ⟨_, rfl⟩, trivial⟩
  have hno := h overwritten hsucceeds
  obtain ⟨r, hr, hid⟩ := hno.blobs "01ARZ3NDEKTSV4RRFFQ69G5FA0" (by decide)
  have hother : ∀ r ∈ ((store executablePlatform).after (store executablePlatform).init
      overwritten).db.objects, r.id ≠ "01ARZ3NDEKTSV4RRFFQ69G5FA0" := by decide
  exact hother r hr hid

end Strix
