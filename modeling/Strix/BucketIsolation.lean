import Strix.BlobCustody
import Strix.SharedInvariants

/-!
# Buckets do not meet

Calls that name other buckets run side by side, on what earlier servers have left.  A row is
updated by its id, a bucket is deleted with everything that refers to it, and an upload is found
by its id alone, whatever bucket the caller names: still a bucket that no call names is left as
it is, as long as no call names one of its uploads either.

* `outside_insertObject` to `outside_deleteBucketRow`: the statements of such calls;
* `requestProgram_outside`: what such a call does beside others;
* `bucketsApart`: the bucket has the rows, the blobs and the part files that it had.
-/

namespace Strix

open AtomicProgram AtomicProgram.Prog MachineRuns RowTable

/-! ## What a bucket has -/

/-- The bucket has the same row, objects and uploads, and these uploads the same parts. -/
structure Db.SameBucket (bucket : String) (itsUpload : String → Prop) (db db' : Db) : Prop where
  buckets : db'.buckets.filter (·.name == bucket) = db.buckets.filter (·.name == bucket)
  objects : db'.objects.filter (·.bucket == bucket) = db.objects.filter (·.bucket == bucket)
  uploads : db'.uploads.filter (·.bucket == bucket) = db.uploads.filter (·.bucket == bucket)
  parts : ∀ id, itsUpload id →
    db'.parts.filter (·.uploadId == id) = db.parts.filter (·.uploadId == id)

/-- **Whose upload it is** can be told by its id, and so can whose object it is. -/
structure Db.Fenced (bucket : String) (itsUpload : String → Prop) (db : Db) : Prop where
  ids : Keyed (·.id) db.objects
  inside : ∀ u ∈ db.uploads, u.bucket = bucket → itsUpload u.uploadId
  outside : ∀ u ∈ db.uploads, itsUpload u.uploadId → u.bucket = bucket
  there : ∀ id, itsUpload id → ∃ u ∈ db.uploads, u.uploadId = id

variable {B : String} {mine : String → Prop} {db db' db'' : Db}

theorem Db.SameBucket.refl : Db.SameBucket B mine db db := ⟨rfl, rfl, rfl, fun _ _ => rfl⟩

theorem Db.SameBucket.trans (h : Db.SameBucket B mine db db')
    (h' : Db.SameBucket B mine db' db'') : Db.SameBucket B mine db db'' where
  buckets := h'.buckets.trans h.buckets
  objects := h'.objects.trans h.objects
  uploads := h'.uploads.trans h.uploads
  parts id hid := (h'.parts id hid).trans (h.parts id hid)

/-- A statement on other buckets. -/
def Statement.Outside (B : String) (mine : String → Prop) (statement : Statement) : Prop :=
  ∀ now db db', statement now db = .ok db' → db.Fenced B mine →
    db'.Fenced B mine ∧ Db.SameBucket B mine db db'

section Statements

/-- A statement on objects. -/
theorem outside_objects {objects : List ObjectRow} (h : db.Fenced B mine)
    (hids : Keyed (·.id) objects)
    (hsame : objects.filter (·.bucket == B) = db.objects.filter (·.bucket == B)) :
    ({ db with objects } : Db).Fenced B mine ∧ Db.SameBucket B mine db { db with objects } :=
  ⟨{ h with ids := hids }, ⟨rfl, hsame, rfl, fun _ _ => rfl⟩⟩

theorem outside_insertObject {row : DateTime → ObjectRow} (h : ∀ now, (row now).bucket ≠ B) :
    (insertObject row).Outside B mine := by
  intro now db db' hrun hdb
  obtain ⟨hnew, -, rfl⟩ := insertObject_eq_ok hrun
  refine outside_objects hdb (hdb.ids.insertRow fun r hr => hnew r hr) ?_
  exact filter_insertRow_of_neg (by simpa using h now.seconds)

theorem outside_deleteObjects {p : ObjectRow → Bool} (h : ∀ r, p r = true → r.bucket ≠ B) :
    (deleteObjects p).Outside B mine := by
  rintro now db _ ⟨⟩ hdb
  refine outside_objects hdb hdb.ids.deleteRows ?_
  rw [filter_deleteRows, deleteRows_eq_self]
  intro r hr
  refine Bool.eq_false_iff.mpr fun hp => h r hp ?_
  simpa using (List.mem_filter.mp hr).2

theorem outside_updateObjects {p : ObjectRow → Bool} {assign : ObjectRow → ObjectRow}
    (h : ∀ r, p r = true → r.bucket ≠ B) (hassign : ∀ r, SameVersion r (assign r)) :
    (updateObjects p assign).Outside B mine := by
  rintro now db _ ⟨⟩ hdb
  refine outside_objects hdb (hdb.ids.updateRows fun r _ => (hassign r).id_eq) ?_
  rw [filter_updateRows fun r _ => by rw [(hassign r).bucket_eq], updateRows_eq_self]
  intro r hr
  refine Bool.eq_false_iff.mpr fun hp => h r hp ?_
  simpa using (List.mem_filter.mp hr).2

theorem outside_makeRoom {status : VersioningStatus} {bucket : String} (key : String)
    (h : bucket ≠ B) : (makeRoom status bucket key).Outside B mine := by
  have hother : ∀ r, atKey bucket key r = true → r.bucket ≠ B := by
    intro r hr
    rw [(atKey_iff.mp hr).1]
    exact h
  unfold makeRoom
  split
  · exact outside_updateObjects hother fun r => .demote r
  · exact outside_deleteObjects hother

/-- The newest row is found at the key, and flagged by its id. -/
theorem outside_promoteNewest (P : Platform) {bucket : String} (key : String) (h : bucket ≠ B) :
    (promoteNewest P bucket key).Outside B mine := by
  rintro now db _ ⟨⟩ hdb
  cases hnewest : P.newest (db.objects.filter (atKey bucket key)) with
  | none =>
      have hsame : promoted P bucket key db.objects = db.objects := by simp only [promoted, hnewest]
      rw [hsame]
      exact outside_objects hdb hdb.ids rfl
  | some newest =>
      have hsame : promoted P bucket key db.objects =
          updateRows (·.id == newest.id) ObjectRow.promote db.objects := by
        simp only [promoted, hnewest]
      obtain ⟨hmem, hat⟩ := List.mem_filter.mp (P.newest_mem _ _ hnewest)
      rw [hsame]
      refine outside_objects hdb (hdb.ids.updateRows fun _ _ => rfl) ?_
      rw [filter_updateRows fun r _ => by rw [(SameVersion.promote r).bucket_eq],
        updateRows_eq_self]
      intro r hr
      obtain ⟨hold, hr⟩ := List.mem_filter.mp hr
      refine Bool.eq_false_iff.mpr fun hid => h ?_
      obtain rfl := hdb.ids.eq_of_mem hold hmem (by simpa using hid)
      exact (atKey_iff.mp hat).1.symm.trans (by simpa using hr)

theorem outside_insertBucket {row : DateTime → BucketRow} (h : ∀ now, (row now).name ≠ B) :
    (insertBucket row).Outside B mine := by
  intro now db db' hrun hdb
  simp only [insertBucket] at hrun
  split at hrun
  · cases hrun
  · cases hrun
    refine ⟨⟨hdb.ids, hdb.inside, hdb.outside, hdb.there⟩, ⟨?_, rfl, rfl, fun _ _ => rfl⟩⟩
    exact filter_insertRow_of_neg (by simpa using h now.seconds)

/-- The uploads of another bucket are not its own. -/
theorem outside_deleteBucketRow {bucket : String} (h : bucket ≠ B) :
    (deleteBucketRow bucket).Outside B mine := by
  rintro now db _ ⟨⟩ hdb
  have hkept : ∀ b, b = B → (b == bucket) = false := by
    rintro b rfl
    exact beq_eq_false_iff_ne.mpr h.symm
  refine ⟨⟨hdb.ids.deleteRows, ?_, ?_, ?_⟩, ⟨?_, ?_, ?_, ?_⟩⟩
  case refine_1 => exact fun u hu => hdb.inside u (mem_deleteRows.mp hu).1
  case refine_2 => exact fun u hu => hdb.outside u (mem_deleteRows.mp hu).1
  case refine_3 =>
    intro id hid
    obtain ⟨u, hu, rfl⟩ := hdb.there id hid
    exact ⟨u, mem_deleteRows.mpr ⟨hu, hkept _ (hdb.outside u hu hid)⟩, rfl⟩
  case refine_4 =>
    rw [filter_deleteRows, deleteRows_eq_self]
    exact fun b hb => hkept _ (by simpa using (List.mem_filter.mp hb).2)
  case refine_5 =>
    rw [filter_deleteRows, deleteRows_eq_self]
    exact fun r hr => hkept _ (by simpa using (List.mem_filter.mp hr).2)
  case refine_6 =>
    rw [filter_deleteRows, deleteRows_eq_self]
    exact fun u hu => hkept _ (by simpa using (List.mem_filter.mp hu).2)
  case refine_7 =>
    intro id hid
    rw [filter_deleteRows, deleteRows_eq_self]
    intro p hp
    obtain rfl : p.uploadId = id := by simpa using (List.mem_filter.mp hp).2
    refine Bool.eq_false_iff.mpr fun hgone => h ?_
    obtain ⟨u, hu, hup⟩ := List.mem_map.mp (List.contains_iff_mem.mp hgone)
    obtain ⟨hmem, hbucket⟩ := List.mem_filter.mp hu
    exact (beq_iff_eq.mp hbucket).symm.trans (hdb.outside u hmem (hup ▸ hid))

theorem outside_insertUpload {row : DateTime → UploadRow} (h : ∀ now, (row now).bucket ≠ B) :
    (insertUpload row).Outside B mine := by
  intro now db db' hrun hdb
  simp only [insertUpload] at hrun
  split at hrun
  · cases hrun
  · rename_i hnew
    split at hrun
    · cases hrun
      have hfree : ¬ mine (row now.seconds).uploadId := by
        intro hid
        obtain ⟨u, hu, heq⟩ := hdb.there _ hid
        exact hnew (List.any_eq_true.mpr ⟨u, hu, beq_iff_eq.mpr heq⟩)
      refine ⟨⟨hdb.ids, fun u hu hbucket => ?_, fun u hu hid => ?_, fun id hid => ?_⟩,
        ⟨rfl, rfl, filter_insertRow_of_neg (by simpa using h now.seconds), fun _ _ => rfl⟩⟩
      · rcases mem_insertRow.mp hu with hold | rfl
        · exact hdb.inside u hold hbucket
        · exact absurd hbucket (h _)
      · rcases mem_insertRow.mp hu with hold | rfl
        · exact hdb.outside u hold hid
        · exact absurd hid hfree
      · obtain ⟨u, hu, heq⟩ := hdb.there id hid
        exact ⟨u, mem_insertRow.mpr (Or.inl hu), heq⟩
    · cases hrun

/-- A statement on parts. -/
theorem outside_parts {parts : List PartRow} (hdb : db.Fenced B mine)
    (h : ∀ id, mine id →
      parts.filter (·.uploadId == id) = db.parts.filter (·.uploadId == id)) :
    ({ db with parts } : Db).Fenced B mine ∧ Db.SameBucket B mine db { db with parts } :=
  ⟨⟨hdb.ids, hdb.inside, hdb.outside, hdb.there⟩, ⟨rfl, rfl, rfl, h⟩⟩

theorem sameParts_deleteRows {p : PartRow → Bool} (h : ∀ r, p r = true → ¬ mine r.uploadId)
    {id : String} (hid : mine id) (parts : List PartRow) :
    (deleteRows p parts).filter (·.uploadId == id) = parts.filter (·.uploadId == id) := by
  rw [filter_deleteRows, deleteRows_eq_self]
  intro r hr
  obtain rfl : r.uploadId = id := by simpa using (List.mem_filter.mp hr).2
  exact Bool.eq_false_iff.mpr fun hp => h r hp hid

theorem outside_deleteUpload {uploadId : String} (h : ¬ mine uploadId) :
    (deleteUpload uploadId).Outside B mine := by
  rintro now db _ ⟨⟩ hdb
  have hkept : ∀ id, mine id → (id == uploadId) = false := by
    intro id hid
    refine beq_eq_false_iff_ne.mpr ?_
    rintro rfl
    exact h hid
  refine ⟨⟨hdb.ids, ?_, ?_, ?_⟩, ⟨rfl, rfl, ?_, fun id hid => ?_⟩⟩
  · exact fun u hu => hdb.inside u (mem_deleteRows.mp hu).1
  · exact fun u hu => hdb.outside u (mem_deleteRows.mp hu).1
  · intro id hid
    obtain ⟨u, hu, rfl⟩ := hdb.there id hid
    exact ⟨u, mem_deleteRows.mpr ⟨hu, hkept _ hid⟩, rfl⟩
  · rw [filter_deleteRows, deleteRows_eq_self]
    intro u hu
    obtain ⟨hold, hbucket⟩ := List.mem_filter.mp hu
    exact hkept _ (hdb.inside u hold (by simpa using hbucket))
  · refine sameParts_deleteRows (fun r hr => ?_) hid _
    rw [beq_iff_eq.mp hr]
    exact h

theorem outside_deleteParts {p : PartRow → Bool} (h : ∀ r, p r = true → ¬ mine r.uploadId) :
    (deleteParts p).Outside B mine := by
  rintro now db _ ⟨⟩ hdb
  exact outside_parts hdb fun _ hid => sameParts_deleteRows h hid _

theorem outside_insertPart {row : DateTime → PartRow} (h : ∀ now, ¬ mine (row now).uploadId) :
    (insertPart row).Outside B mine := by
  intro now db db' hrun hdb
  simp only [insertPart] at hrun
  split at hrun
  · cases hrun
  · split at hrun
    · cases hrun
      refine outside_parts hdb fun id hid => filter_insertRow_of_neg (beq_eq_false_iff_ne.mpr ?_)
      rintro rfl
      exact h _ hid
    · cases hrun

end Statements

/-! ## Calls that name other buckets -/

/-- Its rows and its part files are as they were. -/
structure Untouched (bucket : String) (itsUpload : String → Prop) (w w' : World) : Prop where
  db : Db.SameBucket bucket itsUpload w.db w'.db
  parts : ∀ id, itsUpload id → ∀ n, w'.files.part id n = w.files.part id n

/-- A bucket is fenced, and nothing touches it. -/
def fencing (bucket : String) (itsUpload : String → Prop) : Sharing World where
  Inv w := w.db.Fenced bucket itsUpload
  Moves := Untouched bucket itsUpload
  refl _ := ⟨.refl, fun _ _ _ => rfl⟩
  trans h h' := ⟨h.db.trans h'.db, fun id hid n => (h'.parts id hid n).trans (h.parts id hid n)⟩

/-- A call on other buckets and other uploads.  What bucket it says that an upload is of does not
matter. -/
def Op.Apart (bucket : String) (itsUpload : String → Prop) : Op → Prop
  | .createBucket name _ => name ≠ bucket
  | .deleteBucket name => name ≠ bucket
  | .setBucketVersioning name _ => name ≠ bucket
  | .putObject name _ _ _ => name ≠ bucket
  | .copyObject _ _ dstBucket _ _ => dstBucket ≠ bucket
  | .deleteObject name _ => name ≠ bucket
  | .deleteObjectVersion name _ _ => name ≠ bucket
  | .createMultipartUpload name _ _ => name ≠ bucket
  | .uploadPart upload _ _ => ¬ itsUpload upload.uploadId
  | .completeMultipartUpload upload _ => ¬ itsUpload upload.uploadId
  | .abortMultipartUpload upload => ¬ itsUpload upload.uploadId
  | .abortStaleMultipart uploadId => ¬ itsUpload uploadId
  | .putObjectRetention name _ _ _ _ => name ≠ bucket
  | .putObjectLegalHold name _ _ _ => name ≠ bucket
  | .tick _ => True

/-- Reading may name any bucket. -/
def StoreRequest.Apart (bucket : String) (itsUpload : String → Prop) : StoreRequest → Prop
  | .op o => o.Apart bucket itsUpload
  | _ => True

/-- A step outside the bucket. -/
abbrev OutsideStep (bucket : String) (itsUpload : String → Prop) ⦃β : Type⦄
    (act : World → β × World) : Prop :=
  SafeWhile (fencing bucket itsUpload) (fun _ => True) act

section Steps

variable {P : Platform} {α β : Type}

/-- A step on files at most. -/
theorem outside_files {act : World → β × World} (hdb : ∀ w, (act w).2.db = w.db)
    (hparts : ∀ w id, mine id → ∀ n, (act w).2.files.part id n = w.files.part id n) :
    OutsideStep B mine act := fun w hw _ =>
  ⟨show (act w).2.db.Fenced B mine from (hdb w).symm ▸ hw,
    ⟨show Db.SameBucket B mine w.db (act w).2.db from (hdb w).symm ▸ .refl, hparts w⟩⟩

theorem outside_still {p : StoreProg α} (h : Only Still p) : Only (OutsideStep B mine) p :=
  h.mono fun _ _ hact =>
    outside_files (fun w => (hact.1 w).1) fun w _ _ _ => by rw [hact.2 w]

theorem outside_writeBlob (objectId : String) (data : Bytes) :
    Only (OutsideStep B mine) (writeBlob objectId data) :=
  only_perform (outside_files (fun _ => rfl) fun _ _ _ _ => rfl)

theorem outside_removeBlobs (ids : List String) :
    Only (OutsideStep B mine) (removeBlobs ids) := by
  induction ids with
  | nil => exact only_pure _
  | cons id rest ih =>
      exact Only.bind (only_perform (outside_files (fun _ => rfl) fun _ _ _ _ => rfl)) fun _ => ih

theorem outside_removeUploadDir {uploadId : String} (h : ¬ mine uploadId) :
    Only (OutsideStep B mine) (removeUploadDir uploadId) := by
  refine only_perform (outside_files (fun _ => rfl) fun w id hid n => ?_)
  have hne : id ≠ uploadId := by
    rintro rfl
    exact h hid
  simp only [Files.part, Function.update_of_ne hne]

theorem outside_createUploadDir (uploadId : String) :
    Only (OutsideStep B mine) (createUploadDir uploadId) :=
  only_perform (outside_files (fun _ => rfl) fun w id _ n => w.files.part_ensureDir uploadId id n)

/-- Another upload's part file. -/
theorem part_setPart_other {files : Files} {uploadId : String} (h : ¬ mine uploadId)
    (hdir : (files.multipart uploadId).isSome) (partNumber : Nat) (file : PartFile) {id : String}
    (hid : mine id) (n : Nat) :
    (files.setPart uploadId partNumber file).part id n = files.part id n := by
  rw [Files.part_setPart partNumber file hdir, if_neg]
  rintro ⟨rfl, -⟩
  exact h hid

theorem outside_openPart {uploadId : String} (h : ¬ mine uploadId) (partNumber inode : Nat) :
    Only (OutsideStep B mine) (openPart uploadId partNumber inode) := by
  refine only_perform (outside_files (fun w => ?_) fun w id hid n => ?_)
  · cases w.files.multipart uploadId <;> rfl
  · cases hdir : w.files.multipart uploadId with
    | none => rfl
    | some dir => exact part_setPart_other h (by rw [hdir]; rfl) _ _ hid n

theorem outside_writeChunks {uploadId : String} (h : ¬ mine uploadId) (partNumber inode : Nat)
    (written : Bytes) (body : ObjectBody) :
    Only (OutsideStep B mine) (writeChunks uploadId partNumber inode written body) := by
  induction body generalizing written with
  | nil => exact only_pure _
  | cons chunk rest ih =>
      cases chunk with
      | error e => exact only_fail _
      | ok chunk =>
          refine Only.bind (only_perform (outside_files (fun w => ?_) fun w id hid n => ?_))
            fun _ => ih _
          · dsimp only
            split
            · rfl
            · split <;> rfl
          · dsimp only
            split
            · rfl
            · rename_i file hfile
              obtain ⟨dir, hdir, -⟩ := Option.bind_eq_some_iff.mp hfile
              split
              · exact part_setPart_other h (by rw [hdir]; rfl) _ _ hid n
              · rfl

theorem outside_execute {statements : List Statement}
    (h : ∀ statement ∈ statements, statement.Outside B mine) :
    Only (OutsideStep B mine) (execute statements) := by
  have hrun : ∀ now db, db.Fenced B mine → (runStatements statements now db).2.Fenced B mine ∧
      Db.SameBucket B mine db (runStatements statements now db).2 := by
    intro now
    induction statements with
    | nil => exact fun db hdb => ⟨hdb, .refl⟩
    | cons statement rest ih =>
        intro db hdb
        cases hstep : statement now db with
        | error e =>
            rw [runStatements_cons_error hstep]
            exact ⟨hdb, .refl⟩
        | ok db' =>
            rw [runStatements_cons_ok hstep]
            obtain ⟨hdb', hsame⟩ := h statement List.mem_cons_self now db db' hstep hdb
            obtain ⟨hlast, hsame'⟩ := ih (fun s hs => h s (List.mem_cons_of_mem _ hs)) db' hdb'
            exact ⟨hlast, hsame.trans hsame'⟩
  exact only_perform fun w hw _ => by
    obtain ⟨hdb, hsame⟩ := hrun w.now w.db hw
    exact ⟨hdb, ⟨hsame, fun _ _ _ => rfl⟩⟩

theorem outside_call {statements : List Statement}
    (h : ∀ statement ∈ statements, statement.Outside B mine) :
    Only (OutsideStep B mine) (call statements) :=
  (outside_execute h).bind fun _ => only_lift _

theorem outside_callOne {statement : Statement} (h : statement.Outside B mine) :
    Only (OutsideStep B mine) (call [statement]) :=
  outside_call fun _ hs => List.mem_singleton.mp hs ▸ h

end Steps

section Calls

variable {P : Platform} {α β : Type} {w : World} {bucket : String}

theorem outside_copyBlob (src : ObjectRow) (srcBucket srcKey srcVersion dstBucket dstKey versionId
    newObjectId : String) :
    Only (OutsideStep B mine) (copyBlob P src srcBucket srcKey srcVersion dstBucket dstKey versionId
      newObjectId) := by
  refine (outside_still (still_readBlob _)).bind fun _ => (only_require _ _).bind fun _ => ?_
  split
  · refine (only_lift _).bind fun _ => (outside_still (still_encryptFresh _ _)).bind fun _ => ?_
    exact outside_writeBlob _ _
  · exact outside_writeBlob _ _

/-- What is written into another bucket. -/
theorem outside_writes {key : String} (status : VersioningStatus) {row : DateTime → ObjectRow}
    {rest : List Statement} (h : bucket ≠ B) (hrow : ∀ now, (row now).bucket = bucket)
    (hrest : ∀ statement ∈ rest, statement.Outside B mine) :
    Only (OutsideStep B mine)
      (call (makeRoom status bucket key :: insertObject row :: rest)) := by
  refine outside_call fun statement hs => ?_
  rcases List.mem_cons.mp hs with rfl | hs
  · exact outside_makeRoom key h
  · rcases List.mem_cons.mp hs with rfl | hs
    · exact outside_insertObject fun now => (hrow now).symm ▸ h
    · exact hrest statement hs

theorem outside_putObject (h : bucket ≠ B) (key : String) (body : ObjectBody)
    (opts : PutObjectOpts) :
    Only (OutsideStep B mine) (putObject P bucket key body opts) := by
  refine (outside_still (still_query _)).bind fun _ => (only_require _ _).bind fun status => ?_
  refine (outside_still still_draw).bind fun n => (only_lift _).bind fun _ => ?_
  refine (only_lift _).bind fun _ => (outside_still (still_sealContent _ _ _ _ _ _)).bind ?_
  refine fun _ => (outside_writeBlob _ _).bind fun _ => Only.bind ?_ fun _ => only_pure _
  exact outside_writes status h (fun _ => rfl) fun _ hs => absurd hs List.not_mem_nil

theorem outside_copyObject {dstBucket : String} (h : dstBucket ≠ B)
    (srcBucket srcKey dstKey : String) (opts : CopyObjectOpts) :
    Only (OutsideStep B mine) (copyObject P srcBucket srcKey dstBucket dstKey opts) := by
  refine (outside_still (still_headObject _ _)).bind fun _ => ?_
  refine (outside_still (still_query _)).bind fun _ => (only_require _ _).bind fun _ => ?_
  refine (outside_still (still_query _)).bind fun _ => (only_require _ _).bind fun status => ?_
  refine (outside_still still_draw).bind fun _ => ?_
  refine (outside_copyBlob _ _ _ _ _ _ _ _).bind fun _ => (outside_still still_clock).bind ?_
  refine fun _ => Only.bind ?_ fun _ => only_pure _
  exact outside_writes status h (fun _ => rfl) fun _ hs => absurd hs List.not_mem_nil

/-- Versions are deleted by bucket, key and version id. -/
theorem outside_deleteAt (h : bucket ≠ B) {p : ObjectRow → Bool}
    (hp : ∀ r, p r = true → r.bucket = bucket) :
    Only (OutsideStep B mine) (call [deleteObjects p]) :=
  outside_callOne (outside_deleteObjects fun r hr => (hp r hr).symm ▸ h)

theorem outside_deleteObjectVersion (h : bucket ≠ B) (key : String) (versionId : Option String) :
    Only (OutsideStep B mine) (deleteObjectVersion P bucket key versionId) := by
  refine (outside_still (still_query _)).bind fun _ => (only_require _ _).bind fun status => ?_
  refine (outside_still (still_objectDeleteLocked _ _ _)).bind fun _ => (only_ensure _ _).bind ?_
  intro _
  cases versionId with
  | some vid =>
      refine (outside_still (still_query _)).bind fun _ => ?_
      refine (outside_deleteAt h fun r hr => ?_).bind fun _ => (outside_removeBlobs _).bind ?_
      · exact (atVersion_iff.mp hr).1.1
      · exact fun _ => (outside_callOne (outside_promoteNewest P key h)).bind fun _ => only_pure _
  | none =>
      dsimp only
      split
      · refine (outside_still (still_query _)).bind fun _ => ?_
        refine (outside_deleteAt h fun r hr => ?_).bind fun _ => ?_
        · exact (atKey_iff.mp hr).1
        · exact (outside_removeBlobs _).bind fun _ => only_pure _
      · refine (outside_still still_draw).bind fun _ => Only.bind ?_ fun _ => only_pure _
        refine outside_call fun statement hs => ?_
        rcases List.mem_pair.mp hs with rfl | rfl
        · refine outside_updateObjects (fun r hr => ?_) fun r => .demote r
          rw [(atLatest_iff.mp hr).1.1]
          exact h
        · exact outside_insertObject fun _ => h

theorem outside_createMultipartUpload (h : bucket ≠ B) (key : String) (opts : PutObjectOpts) :
    Only (OutsideStep B mine) (createMultipartUpload P bucket key opts) := by
  refine (outside_still (still_query _)).bind fun _ => (only_ensure _ _).bind fun _ => ?_
  refine (outside_still still_draw).bind fun _ => (outside_still still_clock).bind fun _ => ?_
  refine (outside_createUploadDir _).bind fun _ => Only.bind ?_ fun _ => only_pure _
  exact outside_callOne (outside_insertUpload fun _ => h)

variable {upload : MultipartUpload}

theorem outside_uploadPart (h : ¬ mine upload.uploadId) (partNumber : Nat) (body : ObjectBody) :
    Only (OutsideStep B mine) (uploadPart P upload partNumber body) := by
  refine (only_ensure _ _).bind fun _ => (outside_still (still_query _)).bind fun _ => ?_
  refine (only_ensure _ _).bind fun _ => (outside_still still_draw).bind fun n => ?_
  refine (outside_createUploadDir _).bind fun _ => (outside_openPart h _ _).bind fun _ => ?_
  refine (only_require _ _).bind fun _ => (outside_writeChunks h _ _ _ _).bind fun _ => ?_
  refine (outside_still still_clock).bind fun _ => Only.bind ?_ fun _ => only_pure _
  refine outside_call fun statement hs => ?_
  rcases List.mem_pair.mp hs with rfl | rfl
  · refine outside_deleteParts fun r hr => ?_
    rw [(atPart_iff.mp hr).1]
    exact h
  · exact outside_insertPart fun _ => h

/-- The rows of another upload go. -/
theorem outside_closesUpload {uploadId : String} (h : ¬ mine uploadId) :
    ∀ statement ∈ [deleteParts (·.uploadId == uploadId), deleteUpload uploadId],
      statement.Outside B mine := by
  intro statement hs
  rcases List.mem_pair.mp hs with rfl | rfl
  · refine outside_deleteParts fun r hr => ?_
    rw [beq_iff_eq.mp hr]
    exact h
  · exact outside_deleteUpload h

theorem outside_abortMultipartUpload (h : ¬ mine upload.uploadId) :
    Only (OutsideStep B mine) (abortMultipartUpload upload) := by
  refine (outside_still (still_query _)).bind fun _ => (only_ensure _ _).bind fun _ => ?_
  exact (outside_call (outside_closesUpload h)).bind fun _ => outside_removeUploadDir h

theorem outside_abortStaleMultipart {uploadId : String} (h : ¬ mine uploadId) :
    Only (OutsideStep B mine) (abortStaleMultipart uploadId) :=
  (outside_removeUploadDir h).bind fun _ => outside_call (outside_closesUpload h)

theorem outside_createBucket (h : bucket ≠ B) (opts : CreateBucketOpts) :
    Only (OutsideStep B mine) (createBucket bucket opts) := by
  refine (only_lift _).bind fun _ => Only.bind ?_ fun _ => only_lift _
  refine outside_execute fun statement hs => ?_
  obtain rfl := List.mem_singleton.mp hs
  exact outside_insertBucket fun _ => h

theorem outside_deleteBucket (h : bucket ≠ B) :
    Only (OutsideStep B mine) (deleteBucket bucket) := by
  refine (outside_still (still_query _)).bind fun _ => (only_ensure _ _).bind fun _ => ?_
  exact (only_ensure _ _).bind fun _ => outside_callOne (outside_deleteBucketRow h)

theorem outside_setBucketVersioning (h : bucket ≠ B) (enabled : Bool) :
    Only (OutsideStep B mine) (setBucketVersioning bucket enabled) := by
  refine Only.bind (only_perform fun w hw _ => ?_) fun _ => only_ensure _ _
  refine ⟨⟨hw.ids, hw.inside, hw.outside, hw.there⟩,
    ⟨⟨?_, rfl, rfl, fun _ _ => rfl⟩, fun _ _ _ => rfl⟩⟩
  show (setStatus bucket _ w.db.buckets).filter _ = _
  rw [setStatus, filter_updateRows, updateRows_eq_self]
  · intro b hb
    obtain rfl : b.name = B := by simpa using (List.mem_filter.mp hb).2
    exact beq_eq_false_iff_ne.mpr h.symm
  · exact fun _ _ => rfl

theorem outside_locks (h : bucket ≠ B) (key : String) (versionId : Option String)
    {assign : ObjectRow → ObjectRow} (hassign : LockAssign assign) :
    Only (OutsideStep B mine) (call [updateObjects (addressed bucket key versionId) assign]) := by
  refine outside_callOne (outside_updateObjects (fun r hr => ?_) hassign.sameVersion)
  rw [(addressed_atKey hr).1]
  exact h

theorem keeps_of_outside {p : StoreProg α} (hp : Only (OutsideStep B mine) p) :
    p.Keeps (fencing B mine) w :=
  hp.keeps (fun _ _ _ h => h) trivial

/-- **The upload's row says what bucket is written to.** -/
theorem completeMultipartUpload_fenced (h : ¬ mine upload.uploadId) (parts : List CompletePart) :
    (completeMultipartUpload P upload parts).Keeps (fencing B mine) w := by
  unfold completeMultipartUpload
  refine Keeps.ensure_bind fun _ w' _ hinv => ⟨⟨hinv, (fencing B mine).refl w'⟩, ?_⟩
  refine Keeps.require_bind fun uploadMeta hfound => keeps_of_outside ?_
  obtain ⟨hmem, hid⟩ := selectFirst_some hfound
  have hbucket : uploadMeta.bucket ≠ B := fun heq =>
    h (beq_iff_eq.mp hid ▸ Db.Fenced.inside hinv uploadMeta hmem heq)
  refine (outside_still (still_query _)).bind fun _ => (only_require _ _).bind fun status => ?_
  refine (outside_still (still_query _)).bind fun _ => (only_lift _).bind fun _ => ?_
  refine (outside_still still_draw).bind fun _ => (outside_still (still_readParts _ _)).bind ?_
  refine fun _ => (outside_still (still_sealUpload _ _ _)).bind fun _ => ?_
  refine (outside_writeBlob _ _).bind fun _ => Only.bind ?_ fun _ => ?_
  · exact outside_writes status hbucket (fun _ => rfl) (outside_closesUpload h)
  · exact (outside_removeUploadDir h).bind fun _ => only_pure _

theorem outside_replying {p : StoreProg α} (hp : Only (OutsideStep B mine) p) (wrap : α → Reply) :
    (replying wrap p).Keeps (fencing B mine) w :=
  (keeps_of_outside hp).wrap wrap

/-- **A call on another bucket** keeps the fence. -/
theorem program_fenced {op : Op} (h : op.Apart B mine) :
    (program P op).Keeps (fencing B mine) w := by
  cases op with
  | createBucket bucket opts => exact outside_replying (outside_createBucket h opts) _
  | deleteBucket bucket => exact outside_replying (outside_deleteBucket h) _
  | setBucketVersioning bucket enabled =>
      exact outside_replying (outside_setBucketVersioning h enabled) _
  | putObject bucket key body opts => exact outside_replying (outside_putObject h key body opts) _
  | copyObject srcBucket srcKey dstBucket dstKey opts =>
      exact outside_replying (outside_copyObject h srcBucket srcKey dstKey opts) _
  | deleteObject bucket key =>
      refine outside_replying ?_ _
      exact (outside_deleteObjectVersion h key none).bind fun _ => only_pure _
  | deleteObjectVersion bucket key versionId =>
      exact outside_replying (outside_deleteObjectVersion h key versionId) _
  | createMultipartUpload bucket key opts =>
      exact outside_replying (outside_createMultipartUpload h key opts) _
  | uploadPart upload partNumber body =>
      exact outside_replying (outside_uploadPart h partNumber body) _
  | completeMultipartUpload upload parts => exact (completeMultipartUpload_fenced h parts).wrap _
  | abortMultipartUpload upload => exact outside_replying (outside_abortMultipartUpload h) _
  | abortStaleMultipart uploadId => exact outside_replying (outside_abortStaleMultipart h) _
  | putObjectRetention bucket key versionId retention bypassGovernance =>
      refine outside_replying ?_ _
      refine (outside_still (still_query _)).bind fun _ => (only_ensure _ _).bind fun _ => ?_
      refine (outside_still (still_query _)).bind fun _ => (only_ensure _ _).bind fun _ => ?_
      exact outside_locks h key versionId (.retain retention)
  | putObjectLegalHold bucket key versionId status =>
      refine outside_replying ?_ _
      refine (outside_still (still_query _)).bind fun _ => (only_ensure _ _).bind fun _ => ?_
      exact outside_locks h key versionId (.hold status)
  | tick nanoseconds =>
      refine outside_replying (only_perform fun w hw _ => ?_) _
      exact ⟨hw, ⟨.refl, fun _ _ _ => rfl⟩⟩

theorem requestProgram_fenced {request : StoreRequest} (h : request.Apart B mine) :
    (requestProgram P request).Keeps (fencing B mine) w := by
  cases request with
  | get bucket key opts =>
      exact (keeps_of_outside (outside_still (still_getObject bucket key opts))).wrap _
  | head bucket key =>
      exact (keeps_of_outside (outside_still (still_headObject bucket key))).wrap _
  | op op => exact (program_fenced h).wrap _

end Calls

/-! ## Servers that serve other buckets -/

/-- The ids of a bucket's uploads. -/
def World.UploadOf (bucket : String) (w : World) (id : String) : Prop :=
  ∃ u ∈ w.db.uploads, u.bucket = bucket ∧ u.uploadId = id

section Servers

variable {P : Platform} {earlier : List Lifetime} {bucket : String}

theorem World.Whole.fenced {w : World} (h : w.Whole) (bucket : String) :
    w.db.Fenced bucket (w.UploadOf bucket) where
  ids := h.ids
  inside u hu hbucket := ⟨u, hu, hbucket, rfl⟩
  outside u hu hid := by
    obtain ⟨u', hu', hbucket, heq⟩ := hid
    rw [h.tables.uploadIds.eq_of_mem hu hu' heq.symm]
    exact hbucket
  there id hid := by
    obtain ⟨u, hu, -, heq⟩ := hid
    exact ⟨u, hu, heq⟩

/-- Servers whose calls are on other buckets leave the bucket as it is. -/
theorem untouched_leftBy (P : Platform) (earlier : List Lifetime) (bucket : String)
    {later : List Lifetime} (h : ∀ life ∈ later, ∀ request ∈ life.requests,
      request.Apart bucket ((leftBy P earlier).UploadOf bucket)) :
    let its := (leftBy P earlier).UploadOf bucket
    (leftBy P (later ++ earlier)).db.Fenced bucket its ∧
      Untouched bucket its (leftBy P earlier) (leftBy P (later ++ earlier)) := by
  induction later with
  | nil => exact ⟨(leftBy_whole P earlier).fenced bucket, (fencing _ _).refl _⟩
  | cons life later ih =>
      obtain ⟨hfenced, huntouched⟩ := ih fun l hl => h l (List.mem_cons_of_mem _ hl)
      have hshares : (requestPool P (leftBy P (later ++ earlier)) life.requests).Shares
          (fencing bucket ((leftBy P earlier).UploadOf bucket)) := by
        refine ⟨hfenced, fun p hp => ?_⟩
        obtain ⟨request, hrequest, rfl⟩ := List.mem_map.mp hp
        exact requestProgram_fenced (h life List.mem_cons_self request hrequest)
      have hticked : ∀ nanoseconds w, w.db.Fenced bucket ((leftBy P earlier).UploadOf bucket) →
          (fencing bucket ((leftBy P earlier).UploadOf bucket)).Step w
            (tickWorld nanoseconds w) := fun _ _ hw => ⟨hw, ⟨.refl, fun _ _ _ => rfl⟩⟩
      obtain ⟨hafter, hmoves⟩ := shares_after hshares hticked life.schedule
      exact ⟨hafter.inv, (fencing _ _).trans huntouched hmoves⟩

/-- A server that is not asked anything. -/
theorem leftBy_idle (P : Platform) (later earlier : List Lifetime) :
    leftBy P (later ++ ⟨[], []⟩ :: earlier) = leftBy P (later ++ earlier) := by
  induction later with
  | nil => rfl
  | cons life later ih => simp only [List.cons_append, leftBy, ih]

/-- A read of the bucket selects among its rows. -/
theorem Db.SameBucket.selectObject_eq (h : Db.SameBucket B mine db db') (key : String)
    (versionId : Option String) :
    selectObject B key versionId db' = selectObject B key versionId db := by
  have hamong : ∀ rows : List ObjectRow, selectFirst (addressed B key versionId) rows =
      selectFirst (addressed B key versionId) (rows.filter (·.bucket == B)) := by
    intro rows
    rw [selectFirst, selectFirst, List.find?_filter]
    congr 1
    funext r
    cases haddressed : addressed B key versionId r with
    | false => simp
    | true => simp [(addressed_atKey haddressed).1]
  rw [selectObject, selectObject, hamong, hamong db.objects, h.objects]

/-- A row that is still there has the blob that it had. -/
theorem sameBlob_leftBy (later : List Lifetime) {r : ObjectRow}
    (hr : r ∈ (leftBy P earlier).db.objects) (hr' : r ∈ (leftBy P (later ++ earlier)).db.objects)
    (hmarker : r.isDeleteMarker = false) :
    (leftBy P (later ++ earlier)).files.objects r.id = (leftBy P earlier).files.objects r.id := by
  obtain ⟨data, hdata⟩ := (leftBy_whole P earlier).blobs r hr hmarker
  obtain ⟨data', hdata'⟩ := (leftBy_whole P (later ++ earlier)).blobs r hr' hmarker
  have hidle : (leftBy P (⟨[], []⟩ :: earlier)).files.objects r.id = some data := hdata
  have hsame := @leftBy_sameBlob P [] earlier [] [] later _ _ hidle
  rw [List.append_nil, leftBy_idle] at hsame
  rcases hsame with hsame | hnone
  · rw [hsame, hdata]
  · rw [hdata'] at hnone
    cases hnone

/-- **Buckets do not meet.**  Servers are asked to change other buckets and other uploads, and
their calls run side by side, in any order, and may stop anywhere: the bucket has the rows and the
part files that it had, and whoever reads from it gets what he got before. -/
theorem bucketsApart (P : Platform) (earlier later : List Lifetime) (bucket : String)
    (h : ∀ life ∈ later, ∀ request ∈ life.requests,
      request.Apart bucket ((leftBy P earlier).UploadOf bucket)) :
    let before := leftBy P earlier
    let after := leftBy P (later ++ earlier)
    Untouched bucket (before.UploadOf bucket) before after ∧ ∀ key opts,
      ((getObject P bucket key opts).run after).1 =
        ((getObject P bucket key opts).run before).1 := by
  obtain ⟨-, huntouched⟩ := untouched_leftBy P earlier bucket h
  refine ⟨huntouched, fun key opts => ?_⟩
  have hsame := huntouched.db.selectObject_eq key opts.versionId
  rw [getObject_run, getObject_run, hsame]
  cases hselect : selectObject bucket key opts.versionId (leftBy P earlier).db with
  | none => rfl
  | some r =>
      dsimp only
      cases hmarker : r.isDeleteMarker with
      | true => simp only [readContent, hmarker, if_true]
      | false =>
          rw [sameBlob_leftBy later (selectObject_some hselect).1
            (selectObject_some (hsame.trans hselect)).1 hmarker]

/-- A bucket's only object, while the next server copies it, and creates, fills and deletes other
buckets. -/
theorem bucketsApart_photos :
    let first : Lifetime :=
      { requests := [.op (.createBucket "photos" {}),
          .op (.putObject "photos" "cat.png" [.ok [1, 2]] {})]
        schedule := List.replicate 2 (.thread 0) ++ List.replicate 5 (.thread 1) }
    let second : Lifetime :=
      { requests := [.op (.createBucket "scraps" {}),
          .op (.copyObject "photos" "cat.png" "scraps" "cat.png" {}),
          .op (.deleteBucket "attic"), .op (.createMultipartUpload "scraps" "dog.png" {})]
        schedule := [.thread 0, .thread 1, .thread 2, .thread 3, .thread 1, .thread 3] }
    let before := leftBy executablePlatform [first]
    let after := leftBy executablePlatform [second, first]
    Untouched "photos" (before.UploadOf "photos") before after ∧ ∀ key opts,
      ((getObject executablePlatform "photos" key opts).run after).1 =
        ((getObject executablePlatform "photos" key opts).run before).1 := by
  refine bucketsApart executablePlatform [_] [_] "photos" fun life hlife request hrequest => ?_
  obtain rfl := List.mem_singleton.mp hlife
  simp only [List.mem_cons, List.not_mem_nil, or_false] at hrequest
  rcases hrequest with rfl | rfl | rfl | rfl
  · exact show "scraps" ≠ "photos" by decide
  · exact show "scraps" ≠ "photos" by decide
  · exact show "attic" ≠ "photos" by decide
  · exact show "scraps" ≠ "photos" by decide

end Servers

end Strix
