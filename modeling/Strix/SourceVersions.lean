import Mathlib.Data.List.Infix
import Strix.ExecutablePlatform
import Strix.LockCalls
import Strix.ThreadSteps

/-!
# Reading one version

`get_object` looks its row up in one step and reads the blob of that row in
another.  A blob file is written once, under an id that was drawn for it, so
what the read finds is what was there at the lookup.  `copy_object` looks the
current row up twice, takes size, ETag, content type, metadata and version id
from the first and the blob and the encryption columns from the second.

* `blob_since`: a blob that is found for a row was there when the row was;
* `readers_see_one_version`: every `get_object` that succeeds answers one
  version that it has found, and so does every `copy_object` whose two lookups
  agree.
-/

namespace Strix

open AtomicProgram AtomicProgram.Prog MachineRuns RowTable

/-! ## The calls -/

/-- A read, or another call of the store. -/
inductive ReaderCall
  | get (bucket key : String) (opts : GetObjectOpts)
  | call (op : Op)

inductive ReaderReply
  | got (response : GetObjectResponse)
  | replied (reply : Reply)

/-- The call puts, copies, completes or deletes objects. -/
def Op.ChangesObjects : Op → Prop
  | .putObject .. | .copyObject .. | .completeMultipartUpload .. | .deleteObject ..
  | .deleteObjectVersion .. => True
  | _ => False

/-- A read, or a call that changes objects. -/
def ReaderCall.OnObjects : ReaderCall → Prop
  | .get .. => True
  | .call op => op.ChangesObjects

section Calls

variable (P : Platform)

def readerProgram : ReaderCall → Prog World Error ReaderReply
  | .get bucket key opts => getObject P bucket key opts >>= fun response => done (.got response)
  | .call op => program P op >>= fun reply => done (.replied reply)

/-- Calls that start side by side. -/
def readerPool (w : World) (calls : List ReaderCall) : Pool World Error ReaderReply where
  state := w
  threads := calls.map (readerProgram P)

/-- The schedules of these calls. -/
def reading (w : World) (calls : List ReaderCall) :
    Machine (Pool World Error ReaderReply) (Turn Nat) Unit :=
  pool tickWorld (readerPool P w calls)

/-! ## One version -/

/-- **What a read answers is a version** that its lookup finds in this state: its information,
and the content of its blob. -/
structure GetsFrom (s : World) (bucket key : String) (opts : GetObjectOpts)
    (response : GetObjectResponse) (row : ObjectRow) : Prop where
  selected : selectObject bucket key opts.versionId s.db = some row
  info : response.info = row.info
  content : readContent P bucket key opts row (s.files.objects row.id) = .ok response.body

/-- **What a copy stores is a version** that is the current one in this state: every column
that it takes over, and the content of its blob. -/
structure CopiesFrom (s : World) (srcBucket srcKey dstBucket dstKey : String)
    (opts : CopyObjectOpts) (row : ObjectRow) (data : Bytes) (src : ObjectRow) : Prop where
  selected : selectObject srcBucket srcKey none s.db = some src
  columns : row = copyRow dstBucket dstKey src.info src opts row.id row.versionId
    row.lastModified row.createdAt
  content : ∃ blob content, s.files.objects src.id = some blob ∧
    copiedData P src blob = .ok content ∧ copiedData P row data = .ok content

/-- The row that a call has inserted, under an id that it has drawn, and the blob that it has
written for it. -/
structure Stores (w : World) (calls : List ReaderCall) (schedule : List (Turn Nat)) (i : Nat)
    (row : ObjectRow) (data : Bytes) : Prop where
  drawn : ∃ before rest, schedule = before ++ .thread i :: rest ∧
    row.id = P.ulid ((reading P w calls).after (readerPool P w calls) before).state.draws ∧
    ((reading P w calls).after (readerPool P w calls) (before ++ [.thread i])).state.draws =
      ((reading P w calls).after (readerPool P w calls) before).state.draws + 1
  inserted : ∃ before rest, schedule = before ++ .thread i :: rest ∧
    row ∈ ((reading P w calls).after (readerPool P w calls)
      (before ++ [.thread i])).state.db.objects
  written : ∃ before rest, schedule = before ++ .thread i :: rest ∧
    ((reading P w calls).after (readerPool P w calls)
      (before ++ [.thread i])).state.files.objects row.id = some data

/-- **Every reader that has succeeded has used one version**, in a state in which it took one
of its turns. -/
structure ReadersSeeOneVersion (w : World) (calls : List ReaderCall)
    (schedule : List (Turn Nat)) : Prop where
  gets : ∀ i bucket key opts reply, calls[i]? = some (.get bucket key opts) →
    ((reading P w calls).after (readerPool P w calls) schedule).Returned i reply →
    ∃ before rest response row, schedule = before ++ .thread i :: rest ∧
      reply = .got response ∧
      GetsFrom P ((reading P w calls).after (readerPool P w calls) before).state bucket key opts
        response row
  copies : ∀ i srcBucket srcKey dstBucket dstKey opts reply,
    calls[i]? = some (.call (.copyObject srcBucket srcKey dstBucket dstKey opts)) →
    ((reading P w calls).after (readerPool P w calls) schedule).Returned i reply →
    ∃ before rest response src row data, schedule = before ++ .thread i :: rest ∧
      reply = .replied (.copied response) ∧ response.etag = src.etag ∧
      CopiesFrom P ((reading P w calls).after (readerPool P w calls) before).state srcBucket srcKey
        dstBucket dstKey opts row data src ∧
      Stores P w calls schedule i row data

/-- The columns that a copy takes from its first lookup. -/
def ObjectRow.firstColumns (r : ObjectRow) :
    Nat × String × Option String × StorageClass × Metadata × String :=
  (r.size, r.etag, r.contentType, r.storageClass, r.userMetadata.getD [], r.versionId)

/-- **The two lookups of every copy agree:** the rows that are current in the states of its
first two turns are alike in the columns that it takes from the first. -/
def LookupsAgree (w : World) (calls : List ReaderCall) (schedule : List (Turn Nat)) : Prop :=
  ∀ i srcBucket srcKey dstBucket dstKey opts s s' rest first second,
    calls[i]? = some (.call (.copyObject srcBucket srcKey dstBucket dstKey opts)) →
    (readerPool P w calls).turnsOf tickWorld i schedule = s :: s' :: rest →
    selectObject srcBucket srcKey none s.db = some first →
    selectObject srcBucket srcKey none s'.db = some second →
    second.firstColumns = first.firstColumns

end Calls

/-! ## The steps that write blobs -/

/-- The step that writes a blob. -/
def blobStep (objectId : String) (data : Bytes) (w : World) : Unit × World :=
  ((), { w with
    files := { w.files with objects := Function.update w.files.objects objectId (some data) } })

/-- A step that inserts no row, writes no blob and only ever draws. -/
def Calm ⦃β : Type⦄ (act : World → β × World) : Prop :=
  ∀ w, w.draws ≤ (act w).2.draws ∧
    (∀ r' ∈ (act w).2.db.objects, ∃ r ∈ w.db.objects, r'.id = r.id) ∧
    ∀ id data, (act w).2.files.objects id = some data → w.files.objects id = some data

/-- A step that inserts a row of one id at most. -/
def Inserts (id : String) ⦃β : Type⦄ (act : World → β × World) : Prop :=
  ∀ w, w.draws ≤ (act w).2.draws ∧
    (∀ r' ∈ (act w).2.db.objects, (∃ r ∈ w.db.objects, r'.id = r.id) ∨ r'.id = id) ∧
    (act w).2.files = w.files

/-- **The steps of a call**, in the stage of the draw that it holds: it writes a blob and
inserts a row under that id only. -/
inductive BlobSteps (P : Platform) : Automaton World (Option Nat)
  | calm {t : Option Nat} {β : Type} {act : World → β × World} (h : Calm act) :
      BlobSteps P t act fun _ => t
  | draws : BlobSteps P none drawStep some
  | writes (n : Nat) (data : Bytes) :
      BlobSteps P (some n) (blobStep (P.ulid n) data) fun _ => some n
  | inserts {n : Nat} {β : Type} {act : World → β × World} (h : Inserts (P.ulid n) act) :
      BlobSteps P (some n) act fun _ => none

section Staged

variable {P : Platform}

theorem Still.calm ⦃β : Type⦄ {act : World → β × World} (h : Still act) : Calm act := by
  intro w
  obtain ⟨hdb, hdraws, -⟩ := h.1 w
  refine ⟨hdraws, fun r' hr' => ⟨r', hdb ▸ hr', rfl⟩, fun id data hdata => ?_⟩
  rw [← h.2 w]
  exact hdata

theorem calm_of_still {α : Type} {p : StoreProg α} (hp : Only Still p) : Only Calm p :=
  hp.mono fun _ _ h => h.calm

/-- A closure that inserts no row. -/
theorem calm_call {statements : List Statement}
    (h : ∀ now db, ∀ r' ∈ (runStatements statements now db).2.objects,
      ∃ r ∈ db.objects, r'.id = r.id) : Only Calm (call statements) := by
  refine (only_perform ?_).bind fun _ => only_lift _
  exact fun w => ⟨Nat.le_refl _, h w.now w.db, fun _ _ hdata => hdata⟩

theorem calm_removeBlobs (ids : List String) : Only Calm (removeBlobs ids) := by
  induction ids with
  | nil => exact only_pure _
  | cons id rest ih =>
      refine (only_perform ?_).bind fun _ => ih
      refine fun w => ⟨Nat.le_refl _, fun r' hr' => ⟨r', hr', rfl⟩, fun other data hdata => ?_⟩
      by_cases heq : other = id
      · subst heq
        simp at hdata
      · simpa [heq] using hdata

theorem calm_removeUploadDir (uploadId : String) : Only Calm (removeUploadDir uploadId) :=
  only_perform fun _ => ⟨Nat.le_refl _, fun r' hr' => ⟨r', hr', rfl⟩, fun _ _ hdata => hdata⟩

theorem calm_hardDelete (bucket key : String) (versionId : Option String) :
    Only Calm (hardDelete P bucket key versionId) := by
  have hdelete : ∀ p, Only Calm (call [deleteObjects p]) := fun p =>
    calm_call fun _ _ r' hr' => ⟨r', (mem_deleteRows.mp hr').1, rfl⟩
  cases versionId with
  | some vid =>
      refine (calm_of_still (still_query _)).bind fun _ => (hdelete _).bind fun _ => ?_
      refine (calm_removeBlobs _).bind fun _ => ?_
      refine (calm_call fun _ _ r' hr' => ?_).bind fun _ => only_pure _
      obtain ⟨r, hr, rfl | rfl⟩ := mem_promoted hr'
      · exact ⟨_, hr, rfl⟩
      · exact ⟨r, hr, rfl⟩
  | none =>
      refine (calm_of_still (still_query _)).bind fun _ => (hdelete _).bind fun _ => ?_
      exact (calm_removeBlobs _).bind fun _ => only_pure _

/-- A writer's closure inserts its row. -/
theorem inserts_writesRow {bucket key : String} {n : Nat} {row : DateTime → ObjectRow}
    {statements : List Statement} (h : WritesRow bucket key row statements)
    (hid : ∀ now, (row now).id = P.ulid n) : Inserts (P.ulid n) (closureStep statements) := by
  intro w
  refine ⟨Nat.le_refl _, fun r' hr' => ?_, rfl⟩
  have hroom : ∀ status, r' ∈ roomMade status bucket key w.db.objects →
      ∃ r ∈ w.db.objects, r'.id = r.id := by
    intro status hmem
    obtain ⟨old, hold, rfl | ⟨rfl, -⟩⟩ := mem_roomMade hmem
    · exact ⟨_, hold, rfl⟩
    · exact ⟨old, hold, rfl⟩
  obtain ⟨-, status, hobjects | hobjects⟩ := h.cases w.now w.db
  · exact Or.inl (hroom status (hobjects ▸ hr'))
  · rcases mem_insertRow.mp (hobjects ▸ hr') with hmem | rfl
    · exact Or.inl (hroom status hmem)
    · exact Or.inr (hid _)

/-- The closure of a delete marker inserts the marker. -/
theorem inserts_marks (bucket key : String) (n : Nat) :
    Inserts (P.ulid n) (closureStep (markStatements P bucket key n)) := by
  intro w
  refine ⟨Nat.le_refl _, fun r' hr' => ?_, rfl⟩
  rcases insertObject_rows hr' with hmem | rfl
  · obtain ⟨r, hr, heq⟩ := mem_updateRows.mp hmem
    by_cases hp : atLatest bucket key r = true
    · rw [if_pos hp] at heq
      exact Or.inl ⟨r, hr, heq ▸ rfl⟩
    · rw [if_neg hp] at heq
      exact Or.inl ⟨r, hr, heq ▸ rfl⟩
  · exact Or.inr rfl

variable {α : Type} {t : Option Nat}

theorem blob_free : Free (fun (_ : StoreProg α) (_ : Option Nat) => True) t :=
  ⟨fun _ _ _ => trivial, fun _ => trivial⟩

/-- Calm steps come first. -/
theorem staged_calm {β : Type} {p : StoreProg α} {f : α → StoreProg β} (hp : Only Calm p)
    (hf : ∀ a, (f a).Staged (BlobSteps P) (fun _ _ => True) t) :
    (p >>= f).Staged (BlobSteps P) (fun _ _ => True) t :=
  hp.staged_bind (fun _ _ h => .calm h) blob_free hf

/-- A draw comes first. -/
theorem staged_draw {β : Type} {f : Nat → StoreProg β}
    (hf : ∀ n, (f n).Staged (BlobSteps P) (fun _ _ => True) (some n)) :
    (draw >>= f).Staged (BlobSteps P) (fun _ _ => True) none :=
  staged_perform_bind some trivial .draws hf

/-- The blob of the draw comes first. -/
theorem staged_writeBlob {β : Type} {n : Nat} {data : Bytes} {f : Unit → StoreProg β}
    (hf : (f ()).Staged (BlobSteps P) (fun _ _ => True) (some n)) :
    (writeBlob (P.ulid n) data >>= f).Staged (BlobSteps P) (fun _ _ => True) (some n) :=
  staged_perform_bind (fun _ => some n) trivial (.writes n data) fun _ => hf

/-- The row of the draw comes first. -/
theorem staged_inserts {β : Type} {n : Nat} {statements : List Statement}
    {f : Unit → StoreProg β} (h : Inserts (P.ulid n) (closureStep statements))
    (hf : (f ()).Staged (BlobSteps P) (fun _ _ => True) none) :
    (call statements >>= f).Staged (BlobSteps P) (fun _ _ => True) (some n) :=
  staged_call (fun _ => none) trivial (.inserts h) (fun _ => trivial) hf

theorem putObject_blobStaged (bucket key : String) (body : ObjectBody) (opts : PutObjectOpts) :
    (putObject P bucket key body opts).Staged (BlobSteps P) (fun _ _ => True) none := by
  unfold putObject
  refine staged_calm (calm_of_still (still_query _)) fun _ => ?_
  refine staged_calm (only_require _ _) fun status => ?_
  refine staged_draw fun n => ?_
  refine staged_calm (only_lift _) fun _ => ?_
  refine staged_calm (only_lift _) fun _ => ?_
  refine staged_calm (calm_of_still (still_sealContent _ _ _ _ _ _)) fun _ => ?_
  refine staged_writeBlob (staged_inserts ?_ trivial)
  exact inserts_writesRow (.single status) fun _ => rfl

theorem copyObject_blobStaged (srcBucket srcKey dstBucket dstKey : String)
    (opts : CopyObjectOpts) :
    (copyObject P srcBucket srcKey dstBucket dstKey opts).Staged (BlobSteps P) (fun _ _ => True)
      none := by
  simp only [copyObject, copyBlob, Prog.bind_assoc]
  refine staged_calm (calm_of_still (still_headObject _ _)) fun _ => ?_
  refine staged_calm (calm_of_still (still_query _)) fun _ => ?_
  refine staged_calm (only_require _ _) fun src => ?_
  refine staged_calm (calm_of_still (still_query _)) fun _ => ?_
  refine staged_calm (only_require _ _) fun status => ?_
  refine staged_draw fun n => ?_
  refine staged_calm (calm_of_still (still_readBlob _)) fun _ => ?_
  refine staged_calm (only_require _ _) fun ciphertext => ?_
  have hcloses : ∀ srcInfo, ((clock : StoreProg DateTime) >>= fun now =>
      call [makeRoom status dstBucket dstKey, insertObject (copyRow dstBucket dstKey srcInfo src
        opts (P.ulid n) (newVersionId status (P.ulid n)) now.seconds)] >>= fun _ =>
      pure (CopyObjectResponse.mk srcInfo.etag now
        (answeredVersionId status (newVersionId status (P.ulid n))))).Staged (BlobSteps P)
          (fun _ _ => True) (some n) := by
    intro srcInfo
    refine staged_calm (calm_of_still still_clock) fun _ => staged_inserts ?_ trivial
    exact inserts_writesRow (.single status) fun _ => rfl
  split
  · simp only [Prog.bind_assoc]
    refine staged_calm (only_lift _) fun _ => ?_
    refine staged_calm (calm_of_still (still_encryptFresh _ _)) fun _ => ?_
    exact staged_writeBlob (hcloses _)
  · exact staged_writeBlob (hcloses _)

theorem completeMultipartUpload_blobStaged (upload : MultipartUpload)
    (parts : List CompletePart) :
    (completeMultipartUpload P upload parts).Staged (BlobSteps P) (fun _ _ => True) none := by
  unfold completeMultipartUpload
  refine staged_calm (only_ensure _ _) fun _ => ?_
  refine staged_calm (calm_of_still (still_query _)) fun _ => ?_
  refine staged_calm (only_require _ _) fun uploadMeta => ?_
  refine staged_calm (calm_of_still (still_query _)) fun _ => ?_
  refine staged_calm (only_require _ _) fun status => ?_
  refine staged_calm (calm_of_still (still_query _)) fun _ => ?_
  refine staged_calm (only_lift _) fun _ => ?_
  refine staged_draw fun n => ?_
  refine staged_calm (calm_of_still (still_readParts _ _)) fun _ => ?_
  refine staged_calm (calm_of_still (still_sealUpload _ _ _)) fun _ => ?_
  refine staged_writeBlob (staged_inserts ?_ ?_)
  · exact inserts_writesRow (.multipart status upload.uploadId) fun _ => rfl
  · exact staged_calm (calm_removeUploadDir _) fun _ => trivial

theorem deleteObjectVersion_blobStaged (bucket key : String) (versionId : Option String) :
    (deleteObjectVersion P bucket key versionId).Staged (BlobSteps P) (fun _ _ => True) none := by
  have hhard : (hardDelete P bucket key versionId).Staged (BlobSteps P) (fun _ _ => True)
      none := (calm_hardDelete bucket key versionId).staged (fun _ _ h => .calm h) fun _ => trivial
  unfold deleteObjectVersion
  refine staged_calm (calm_of_still (still_query _)) fun _ => ?_
  refine staged_calm (only_require _ _) fun status => ?_
  refine staged_calm (calm_of_still (still_objectDeleteLocked _ _ _)) fun _ => ?_
  refine staged_calm (only_ensure _ _) fun _ => ?_
  cases versionId with
  | some vid => exact hhard
  | none =>
      by_cases hunversioned : status = .unversioned
      · simp only [hunversioned, if_true]
        exact hhard
      · simp only [hunversioned, if_false, createDeleteMarker]
        exact staged_draw fun n => staged_inserts (inserts_marks bucket key n) trivial

/-- **Every call** keeps to these steps. -/
theorem readerProgram_staged {call : ReaderCall} (h : call.OnObjects) :
    (readerProgram P call).Staged (BlobSteps P) (fun _ _ => True) none := by
  cases call with
  | get bucket key opts =>
      have hget : Only Still (getObject P bucket key opts) := by
        refine (still_query _).bind fun _ => (only_require _ _).bind fun _ => ?_
        refine (only_ensure _ _).bind fun _ => (only_lift _).bind fun _ => ?_
        refine (still_readBlob _).bind fun _ => (only_require _ _).bind fun _ => ?_
        exact (only_lift _).bind fun _ => (only_lift _).bind fun _ => only_pure _
      exact staged_calm (calm_of_still hget) fun _ => trivial
  | call op =>
      refine Staged.wrap ?_ _
      cases op with
      | putObject bucket key body opts =>
          exact (putObject_blobStaged bucket key body opts).wrap _
      | copyObject srcBucket srcKey dstBucket dstKey opts =>
          exact (copyObject_blobStaged srcBucket srcKey dstBucket dstKey opts).wrap _
      | completeMultipartUpload upload parts =>
          exact (completeMultipartUpload_blobStaged upload parts).wrap _
      | deleteObject bucket key =>
          exact ((deleteObjectVersion_blobStaged bucket key none).wrap fun _ => ()).wrap _
      | deleteObjectVersion bucket key versionId =>
          exact (deleteObjectVersion_blobStaged bucket key versionId).wrap _
      | _ => exact h.elim

end Staged

/-! ## What holds throughout a schedule -/

/-- **The blob of an id** that no call holds is the one it was, or it is gone. -/
structure BlobStays (P : Platform) (id : String) (blob : Option Bytes)
    (stages : List (Option Nat)) (w : World) : Prop where
  apart : DrawsApart P stages w
  taken : Taken P id stages w
  same : ∀ data, w.files.objects id = some data → blob = some data

section Blobs

variable {P : Platform} {id : String} {blob : Option Bytes} {w : World}
  {calls : List ReaderCall} {schedule : List (Turn Nat)} {α : Type}

/-- Steps of the calls, whatever the guard. -/
abbrev AnyTurn (_ : Pool World Error α) (_ : Turn Nat) : Prop := True

theorem drawsApart_kept :
    KeptByThreads (BlobSteps P) (fun (_ : StoreProg α) _ => True) (DrawsApart P) AnyTurn := by
  intro c stages i β act t after hstep _ hJ
  have hstage := hstep.stage
  cases hstep.allowed with
  | calm hcalm =>
      obtain ⟨hdraws, hrows, -⟩ := hcalm c.state
      rw [set_stage hstage]
      exact hJ.mono hrows hdraws
  | draws => exact hJ.draw i rfl rfl
  | writes n data =>
      rw [set_stage hstage]
      exact hJ.quiet rfl (Nat.le_refl _)
  | @inserts n _ _ hinserts =>
      obtain ⟨hdraws, hrows, -⟩ := hinserts c.state
      refine hJ.closure i hdraws fun r' hr' => ?_
      rcases hrows r' hr' with hold | hnew
      · exact Or.inl hold
      · exact Or.inr ⟨n, hstage, hnew⟩

theorem blobStays_kept :
    KeptByThreads (BlobSteps P) (fun (_ : StoreProg α) _ => True) (BlobStays P id blob)
      AnyTurn := by
  intro c stages i β act t after hstep hguard hJ
  have happart := drawsApart_kept c stages i act t after hstep hguard hJ.apart
  have hstage := hstep.stage
  cases hstep.allowed with
  | calm hcalm =>
      obtain ⟨hdraws, -, hfiles⟩ := hcalm c.state
      rw [set_stage hstage] at happart ⊢
      exact ⟨happart, hJ.taken.mono hdraws, fun data hdata => hJ.same data (hfiles id data hdata)⟩
  | draws => exact ⟨happart, hJ.taken.draw i (Nat.lt_succ_self _), hJ.same⟩
  | writes n data =>
      have hne : id ≠ P.ulid n := (hJ.taken.free i n hstage).symm
      rw [set_stage hstage] at happart ⊢
      refine ⟨happart, hJ.taken.mono (Nat.le_refl _), fun data' hdata => hJ.same data' ?_⟩
      rw [← hdata]
      exact (Function.update_of_ne hne _ _).symm
  | inserts hinserts =>
      obtain ⟨hdraws, -, hfiles⟩ := hinserts c.state
      refine ⟨happart, hJ.taken.release i hdraws, fun data hdata => hJ.same data ?_⟩
      rw [← hdata, hfiles]

theorem drawsApart_ticked : KeptByWorld tickWorld (DrawsApart P) :=
  fun _ _ _ h => h.quiet rfl (Nat.le_refl _)

theorem blobStays_ticked : KeptByWorld tickWorld (BlobStays P id blob) :=
  fun _ _ _ h => ⟨h.apart.quiet rfl (Nat.le_refl _), h.taken.mono (Nat.le_refl _), h.same⟩

/-- At the start no call holds a draw. -/
theorem drawsApart_none (h : IdsDrawn P w) (calls : List ReaderCall) :
    DrawsApart P (calls.map fun _ => none) w := by
  have hnone : ∀ i n : Nat, (calls.map fun _ => (none : Option Nat))[i]? ≠ some (some n) := by
    intro i n hi
    obtain ⟨call, -, heq⟩ := List.mem_map.mp (List.mem_of_getElem? hi)
    cases heq
  exact ⟨fun r hr => ⟨h r hr, fun i n hi => absurd hi (hnone i n)⟩,
    fun i n hi => absurd hi (hnone i n), fun i j n hi => absurd hi (hnone i n)⟩

/-- **Throughout a schedule** the draws that calls hold are apart. -/
theorem reading_drawsApart (hs : (store P).Reachable w) (hcalls : ∀ call ∈ calls, call.OnObjects)
    (schedule : List (Turn Nat)) :
    ∃ stages, ((reading P w calls).after (readerPool P w calls) schedule).StagedBy (BlobSteps P)
        (fun _ _ => True) stages ∧
      DrawsApart P stages ((reading P w calls).after (readerPool P w calls) schedule).state := by
  have hstart : (readerPool P w calls).StagedBy (BlobSteps P) (fun _ _ => True)
      (calls.map fun _ => none) := by
    rw [Pool.StagedBy, readerPool, List.forall₂_map_left_iff, List.forall₂_map_right_iff,
      List.forall₂_same]
    exact fun call hcall => readerProgram_staged (hcalls call hcall)
  exact staged_after drawsApart_kept drawsApart_ticked
    ⟨_, hstart, drawsApart_none (wellFormed_reachable hs).ids calls⟩
    (Machine.allSteps_of_forall _ (fun _ _ => trivial) _ schedule)

/-- **A blob that is found for a row** was there already when the row was. -/
theorem blob_since (hs : (store P).Reachable w) (hcalls : ∀ call ∈ calls, call.OnObjects)
    {before between : List (Turn Nat)} {r : ObjectRow} {data : Bytes}
    (hr : r ∈ ((reading P w calls).after (readerPool P w calls) before).state.db.objects)
    (hdata : ((reading P w calls).after (readerPool P w calls)
      (before ++ between)).state.files.objects r.id = some data) :
    ((reading P w calls).after (readerPool P w calls) before).state.files.objects r.id =
      some data := by
  obtain ⟨stages, hstaged, happart⟩ := reading_drawsApart hs hcalls before
  have hstays : BlobStays P r.id _ stages _ := ⟨happart, happart.rows r hr, fun _ h => h⟩
  have hall : (reading P w calls).AllSteps AnyTurn
      ((reading P w calls).after (readerPool P w calls) before) between :=
    Machine.allSteps_of_forall _ (fun _ _ => trivial) _ between
  obtain ⟨_, -, hlater⟩ := staged_after blobStays_kept blobStays_ticked ⟨stages, hstaged, hstays⟩
    hall
  rw [Machine.after_append] at hdata
  exact hlater.same data hdata

end Blobs

/-! ## What a reader has used -/

section Readers

variable {P : Platform} {bucket key : String} {turns : List World} {reply : ReaderReply}

/-- **A read that has ended** looked its row up in its first turn and read the blob of that row
in its second. -/
theorem getObject_ends {opts : GetObjectOpts}
    (h : (readerProgram P (.get bucket key opts)).Ends turns reply) :
    ∃ s s' rest row data body, turns = s :: s' :: rest ∧
      selectObject bucket key opts.versionId s.db = some row ∧
      s'.files.objects row.id = some data ∧
      readContent P bucket key opts row (some data) = .ok body ∧
      reply = .got { info := row.info, body } := by
  simp only [readerProgram, getObject, Prog.bind_assoc] at h
  obtain ⟨s, later, rfl, h⟩ := h.observe_bind
  obtain ⟨row, hrow, h⟩ := h.require_bind
  obtain ⟨hmarker, h⟩ := h.ensure_bind
  obtain ⟨_, hpre, h⟩ := h.lift_bind
  obtain ⟨s', rest, rfl, h⟩ := h.observe_bind
  obtain ⟨data, hdata, h⟩ := h.require_bind
  obtain ⟨plaintext, hplain, h⟩ := h.lift_bind
  obtain ⟨range, hrange, h⟩ := h.lift_bind
  have hunmarked : row.isDeleteMarker = false := by simpa using hmarker
  refine ⟨s, s', rest, row, data, _, rfl, hrow, hdata, ?_, (ends_done.mp h).symm⟩
  simp [readContent, hunmarked, hpre, hplain, hrange]

/-- **The blob of a copy** holds what the blob of its source does. -/
theorem copyBlob_left {α : Type} {whole : StoreProg α} {turns past future : List World} {a : α}
    {src : ObjectRow} {srcBucket srcKey srcVersion dstBucket dstKey versionId : String}
    {id : String} {f : Unit → StoreProg α}
    (h : Left whole turns past (copyBlob P src srcBucket srcKey srcVersion dstBucket dstKey
      versionId id >>= f) future a) :
    ∃ s middle s' later blob content data, future = s :: (middle ++ s' :: later) ∧
      s.files.objects src.id = some blob ∧ whole.Takes turns (blobStep id data) s' ∧
      (if src.encryptionAlgorithm = some .aes256 then
        decryptSseS3 P srcBucket srcKey srcVersion blob else .ok blob) = .ok content ∧
      (if src.encryptionAlgorithm = some .aes256 then
        decryptSseS3 P dstBucket dstKey versionId data else .ok data) = .ok content ∧
      ∃ past', Left whole turns past' (f ()) later a := by
  simp only [copyBlob, Prog.bind_assoc] at h
  obtain ⟨s, later, rfl, hread⟩ := h.observe
  obtain ⟨blob, hblob, hcopy⟩ := hread.require
  by_cases haes : src.encryptionAlgorithm = some .aes256
  · simp only [haes, if_true, encryptSseS3, encryptFresh, Prog.bind_assoc] at hcopy ⊢
    obtain ⟨plaintext, hplain, hnonce⟩ := hcopy.lift
    obtain ⟨s₁, later, rfl, -, hsealed⟩ := hnonce.perform
    obtain ⟨data, hdata, hwrite⟩ := hsealed.lift
    obtain ⟨s', later, rfl, htakes, hrest⟩ := hwrite.perform
    exact ⟨s, [s₁], s', later, blob, plaintext, data, rfl, hblob, htakes, hplain,
      decryptWith_encryptWith hdata, _, hrest⟩
  · simp only [haes, if_false] at hcopy ⊢
    obtain ⟨s', later, rfl, htakes, hrest⟩ := hcopy.perform
    exact ⟨s, [], s', later, blob, blob, blob, rfl, hblob, htakes, rfl, rfl, _, hrest⟩

/-- **What a copy that has ended did in its turns:** it looked its source up twice and read the
blob of the second row, and it wrote its blob and inserted its row under the id that it
drew. -/
structure CopyRun (P : Platform) (srcBucket srcKey dstBucket dstKey : String)
    (opts : CopyObjectOpts) (turns : List World) (reply : ReaderReply) where
  (lookup lookup' reading drawing writing closing : World)
  (between rest : List World)
  (first second : ObjectRow)
  (blob content data : Bytes)
  (status : VersioningStatus)
  (now : DateTime)
  turns_eq : turns = lookup :: lookup' :: (between ++ reading :: rest)
  first_eq : selectObject srcBucket srcKey none lookup.db = some first
  second_eq : selectObject srcBucket srcKey none lookup'.db = some second
  blob_eq : reading.files.objects second.id = some blob
  opened : (if second.encryptionAlgorithm = some .aes256 then
    decryptSseS3 P srcBucket srcKey first.versionId blob else .ok blob) = .ok content
  row : DateTime → ObjectRow
  row_eq : row = copyRow dstBucket dstKey first.info second opts (P.ulid drawing.draws)
    (newVersionId status (P.ulid drawing.draws)) now
  sealed : (if second.encryptionAlgorithm = some .aes256 then
    decryptSseS3 P dstBucket dstKey (newVersionId status (P.ulid drawing.draws)) data
    else .ok data) = .ok content
  draws : (readerProgram P (.call (.copyObject srcBucket srcKey dstBucket dstKey opts))).Takes
    turns drawStep drawing
  writes : (readerProgram P (.call (.copyObject srcBucket srcKey dstBucket dstKey opts))).Takes
    turns (blobStep (P.ulid drawing.draws) data) writing
  closes : (readerProgram P (.call (.copyObject srcBucket srcKey dstBucket dstKey opts))).Takes
    turns (closureStep [makeRoom status dstBucket dstKey, insertObject row]) closing
  closed : (closureStep [makeRoom status dstBucket dstKey, insertObject row] closing).1 = .ok ()
  replied : ∃ response, reply = .replied (.copied response) ∧ response.etag = first.etag

theorem copyObject_ends {srcBucket srcKey dstBucket dstKey : String} {opts : CopyObjectOpts}
    (h : (readerProgram P (.call (.copyObject srcBucket srcKey dstBucket dstKey opts))).Ends turns
      reply) : Nonempty (CopyRun P srcBucket srcKey dstBucket dstKey opts turns reply) := by
  obtain ⟨whole, hwhole⟩ : ∃ whole, whole =
    readerProgram P (.call (.copyObject srcBucket srcKey dstBucket dstKey opts)) := ⟨_, rfl⟩
  have hstart : Left whole turns []
      (readerProgram P (.call (.copyObject srcBucket srcKey dstBucket dstKey opts))) turns
        reply := by
    rw [hwhole]
    exact h.left
  simp only [readerProgram, program, replying, copyObject, headObject, Prog.bind_assoc] at hstart
  obtain ⟨s, later, rfl, h₁⟩ := hstart.observe
  obtain ⟨first, hfirst, h₂⟩ := h₁.require
  obtain ⟨hmarker, h₃⟩ := h₂.ensure
  obtain ⟨s', later, rfl, h₄⟩ := Left.observe h₃
  obtain ⟨second, hsecond, h₅⟩ := h₄.require
  obtain ⟨s₃, later, rfl, h₆⟩ := h₅.observe
  obtain ⟨status, hstatus, h₇⟩ := h₆.require
  obtain ⟨s₄, later, rfl, hdraws, h₈⟩ := h₇.perform
  obtain ⟨s₅, middle, s₆, later, blob, content, data, rfl, hblob, hwrites, hopened, hsealed, _,
    h₉⟩ := copyBlob_left h₈
  obtain ⟨s₇, later, rfl, h₁₀⟩ := h₉.observe
  obtain ⟨s₈, later, rfl, hcloses, h₁₁⟩ := h₁₀.perform
  obtain ⟨_, hok, h₁₂⟩ := h₁₁.lift
  rw [hwhole] at hdraws hwrites hcloses
  have hclosed : ∀ outcome : Except SqlError Unit, (∃ u, outcome.mapError dbErr = .ok u) →
      outcome = .ok () := by
    intro outcome hsome
    obtain ⟨u, hu⟩ := hsome
    cases outcome with
    | ok _ => rfl
    | error e => cases hu
  exact ⟨{
    lookup := s
    lookup' := s'
    reading := s₅
    drawing := s₄
    writing := s₆
    closing := s₈
    between := s₃ :: s₄ :: []
    rest := middle ++ s₆ :: s₇ :: s₈ :: later
    first := first
    second := second
    blob := blob
    content := content
    data := data
    status := status
    now := s₇.now.seconds
    turns_eq := rfl
    first_eq := hfirst
    second_eq := hsecond
    blob_eq := hblob
    opened := by rw [← first.responseVersion_getD]; exact hopened
    row := _
    row_eq := rfl
    sealed := hsealed
    draws := hdraws
    writes := hwrites
    closes := hcloses
    closed := hclosed _ ⟨_, hok⟩
    replied := ⟨_, (ends_done.mp h₁₂.ends).symm, rfl⟩ }⟩

end Readers

/-! ## Whole schedules -/

section Schedules

variable {P : Platform} {w : World} {calls : List ReaderCall} {schedule : List (Turn Nat)}

theorem readerPool_thread {i : Nat} {call : ReaderCall} (h : calls[i]? = some call) :
    (readerPool P w calls).threads[i]? = some (readerProgram P call) := by
  simp [readerPool, h]

/-- A blob that a call finds in a later turn was there when it found the row. -/
theorem blob_since_turn (hs : (store P).Reachable w)
    (hcalls : ∀ call ∈ calls, call.OnObjects) {i : Nat} {left middle right : List World}
    {s s' : World} {r : ObjectRow} {data : Bytes}
    (hturns : (readerPool P w calls).turnsOf tickWorld i schedule =
      left ++ s :: (middle ++ s' :: right))
    (hr : r ∈ s.db.objects) (hdata : s'.files.objects r.id = some data) :
    s.files.objects r.id = some data ∧ ∃ before rest, schedule = before ++ .thread i :: rest ∧
      ((reading P w calls).after (readerPool P w calls) before).state = s := by
  obtain ⟨before, between, rest, hsplit, hstate, hstate'⟩ : ∃ before between rest,
      schedule = before ++ .thread i :: (between ++ .thread i :: rest) ∧
      ((reading P w calls).after (readerPool P w calls) before).state = s ∧
      ((reading P w calls).after (readerPool P w calls) (before ++ .thread i :: between)).state =
        s' := turnsOf_pair hturns
  refine ⟨?_, before, _, hsplit, hstate⟩
  rw [← hstate] at hr ⊢
  rw [← hstate'] at hdata
  exact blob_since hs hcalls hr hdata

/-- **A read answers one version**, whatever runs beside it. -/
theorem get_sees_one_version (hs : (store P).Reachable w)
    (hcalls : ∀ call ∈ calls, call.OnObjects) {i : Nat} {bucket key : String}
    {opts : GetObjectOpts} {reply : ReaderReply} (hcall : calls[i]? = some (.get bucket key opts))
    (hreturned : ((reading P w calls).after (readerPool P w calls) schedule).Returned i reply) :
    ∃ before rest response row, schedule = before ++ .thread i :: rest ∧ reply = .got response ∧
      GetsFrom P ((reading P w calls).after (readerPool P w calls) before).state bucket key opts
        response row := by
  have hends := hreturned.ends (readerPool_thread hcall)
  obtain ⟨s, s', rest, row, data, body, hturns, hrow, hdata, hread, hreply⟩ := getObject_ends hends
  have hpair : _ = [] ++ s :: ([] ++ s' :: rest) := hturns
  obtain ⟨hblob, before, later, hsplit, hstate⟩ := blob_since_turn hs hcalls hpair
    (selectObject_some hrow).1 hdata
  refine ⟨before, later, _, row, hsplit, hreply, ?_⟩
  rw [hstate]
  exact ⟨hrow, rfl, by rw [hblob]; exact hread⟩

/-- The closure of a copy that succeeds has inserted its row. -/
theorem inserted_mem {status : VersioningStatus} {bucket key : String}
    {row : DateTime → ObjectRow} {w : World}
    (h : (closureStep [makeRoom status bucket key, insertObject row] w).1 = .ok ()) :
    row w.now.seconds ∈
      (closureStep [makeRoom status bucket key, insertObject row] w).2.db.objects := by
  simp only [closureStep] at h ⊢
  rw [runStatements_cons_ok (makeRoom_ok status bucket key w.now w.db)] at h ⊢
  cases hinsert : insertObject row w.now
      { w.db with objects := roomMade status bucket key w.db.objects } with
  | error e =>
      rw [runStatements_cons_error hinsert] at h
      cases h
  | ok db' =>
      obtain ⟨-, -, rfl⟩ := insertObject_eq_ok hinsert
      rw [runStatements_cons_ok hinsert]
      exact mem_insertRow.mpr (Or.inr rfl)

/-- What a copy has stored, it has stored under the id of its draw. -/
theorem CopyRun.stores {i : Nat} {srcBucket srcKey dstBucket dstKey : String}
    {opts : CopyObjectOpts} {reply : ReaderReply}
    (hcall : calls[i]? = some (.call (.copyObject srcBucket srcKey dstBucket dstKey opts)))
    (run : CopyRun P srcBucket srcKey dstBucket dstKey opts
      ((readerPool P w calls).turnsOf tickWorld i schedule) reply) :
    Stores P w calls schedule i (run.row run.closing.now.seconds) run.data := by
  have hthread := readerPool_thread (P := P) (w := w) hcall
  have hid : (run.row run.closing.now.seconds).id = P.ulid run.drawing.draws := by
    rw [run.row_eq]
    rfl
  refine ⟨?_, ?_, ?_⟩
  · obtain ⟨before, rest, hsplit, hstate, -, hafter⟩ := run.draws.turn hthread
    refine ⟨before, rest, hsplit, ?_, ?_⟩
    · rw [hid, ← hstate]
      rfl
    · rw [← hstate] at hafter
      exact congrArg World.draws hafter
  · obtain ⟨before, rest, hsplit, -, -, hafter⟩ := run.closes.turn hthread
    refine ⟨before, rest, hsplit, ?_⟩
    have hrows : run.row run.closing.now.seconds ∈
        (closureStep [makeRoom run.status dstBucket dstKey, insertObject run.row]
          run.closing).2.db.objects := inserted_mem run.closed
    exact hafter ▸ hrows
  · obtain ⟨before, rest, hsplit, -, -, hafter⟩ := run.writes.turn hthread
    refine ⟨before, rest, hsplit, ?_⟩
    rw [hid]
    have hwritten : (blobStep (P.ulid run.drawing.draws) run.data run.writing).2.files.objects
        (P.ulid run.drawing.draws) = some run.data := Function.update_self ..
    exact hafter ▸ hwritten

/-- **A copy whose two lookups agree** has copied the version that it found second. -/
theorem CopyRun.copiesFrom {srcBucket srcKey dstBucket dstKey : String} {opts : CopyObjectOpts}
    {turns : List World} {reply : ReaderReply}
    (run : CopyRun P srcBucket srcKey dstBucket dstKey opts turns reply)
    (hagree : run.second.firstColumns = run.first.firstColumns)
    (hblob : run.lookup'.files.objects run.second.id = some run.blob) :
    CopiesFrom P run.lookup' srcBucket srcKey dstBucket dstKey opts
      (run.row run.closing.now.seconds) run.data run.second := by
  simp only [ObjectRow.firstColumns, Prod.mk.injEq] at hagree
  obtain ⟨hsize, hetag, htype, hclass, hmeta, hversion⟩ := hagree
  have hrow : run.row run.closing.now.seconds = copyRow dstBucket dstKey run.second.info
      run.second opts (P.ulid run.drawing.draws)
      (newVersionId run.status (P.ulid run.drawing.draws)) run.now run.closing.now.seconds := by
    rw [run.row_eq]
    simp [copyRow, ObjectRow.info, hsize, hetag, htype, hclass, hmeta]
  obtain ⟨-, hbucket, hkey⟩ := selectObject_some run.second_eq
  refine ⟨run.second_eq, ?_, run.blob, run.content, hblob, ?_, ?_⟩
  · rw [hrow]
    rfl
  · rw [copiedData, hbucket, hkey, hversion]
    exact run.opened
  · rw [hrow]
    exact run.sealed

theorem copy_sees_one_version (hs : (store P).Reachable w)
    (hcalls : ∀ call ∈ calls, call.OnObjects) (hagree : LookupsAgree P w calls schedule) {i : Nat}
    {srcBucket srcKey dstBucket dstKey : String} {opts : CopyObjectOpts} {reply : ReaderReply}
    (hcall : calls[i]? = some (.call (.copyObject srcBucket srcKey dstBucket dstKey opts)))
    (hreturned : ((reading P w calls).after (readerPool P w calls) schedule).Returned i reply) :
    ∃ before rest response src row data, schedule = before ++ .thread i :: rest ∧
      reply = .replied (.copied response) ∧ response.etag = src.etag ∧
      CopiesFrom P ((reading P w calls).after (readerPool P w calls) before).state srcBucket srcKey
        dstBucket dstKey opts row data src ∧
      Stores P w calls schedule i row data := by
  obtain ⟨run⟩ := copyObject_ends (hreturned.ends (readerPool_thread hcall))
  have hcolumns := hagree i srcBucket srcKey dstBucket dstKey opts run.lookup run.lookup' _
    run.first run.second hcall run.turns_eq run.first_eq run.second_eq
  have hpair : _ = [run.lookup] ++ run.lookup' :: (run.between ++ run.reading :: run.rest) :=
    run.turns_eq
  obtain ⟨hblob, before, later, hsplit, hstate⟩ := blob_since_turn hs hcalls hpair
    (selectObject_some run.second_eq).1 run.blob_eq
  obtain ⟨response, hreply, hetag⟩ := run.replied
  have hsame : run.second.etag = run.first.etag := by
    simp only [ObjectRow.firstColumns, Prod.mk.injEq] at hcolumns
    exact hcolumns.2.1
  refine ⟨before, later, response, run.second, _, run.data, hsplit, hreply,
    hetag.trans hsame.symm, ?_, run.stores hcall⟩
  rw [hstate]
  exact run.copiesFrom hcolumns hblob

/-- **Readers see one version**, however the calls interleave: every `get_object` that
succeeds, and every `copy_object` whose two lookups of its source agree. -/
theorem readers_see_one_version (hs : (store P).Reachable w)
    (hcalls : ∀ call ∈ calls, call.OnObjects) (hagree : LookupsAgree P w calls schedule) :
    ReadersSeeOneVersion P w calls schedule where
  gets _ _ _ _ _ hcall hreturned := get_sees_one_version hs hcalls hcall hreturned
  copies _ _ _ _ _ _ _ hcall hreturned := copy_sees_one_version hs hcalls hagree hcall hreturned

end Schedules

/-! ## A copy, a read and a put -/

/-- A bucket that holds an object. -/
def sourceRun : List Op := [.createBucket "docs" {}, .putObject "docs" "k" [.ok [97]] {}]

def sourceWorld : World := (store executablePlatform).after {} sourceRun

/-- The object is copied and read while it is replaced by an empty one. -/
def copyGetPut : List ReaderCall := [
  .call (.copyObject "docs" "k" "docs" "c" {}),
  .get "docs" "k" {},
  .call (.putObject "docs" "k" [] {})]

theorem copyGetPut_onObjects : ∀ call ∈ copyGetPut, call.OnObjects := by
  intro call hcall
  simp only [copyGetPut, List.mem_cons, List.not_mem_nil, or_false] at hcall
  rcases hcall with rfl | rfl | rfl <;> trivial

/-- The state after these turns. -/
def copyGetPutAfter (schedule : List (Turn Nat)) : World :=
  ((reading executablePlatform sourceWorld copyGetPut).after
    (readerPool executablePlatform sourceWorld copyGetPut) schedule).state

/-- Both have found the object when it is put again. -/
def putAfterLookups : List (Turn Nat) :=
  [.thread 0, .thread 0, .thread 1, .thread 2, .thread 2, .thread 2, .thread 2, .thread 1,
    .thread 0, .thread 0, .thread 0, .thread 0, .thread 0, .thread 0]

/-- Nothing happens between the two lookups of the copy. -/
theorem putAfterLookups_agree :
    LookupsAgree executablePlatform sourceWorld copyGetPut putAfterLookups := by
  intro i srcBucket srcKey dstBucket dstKey opts s s' rest first second hcall hturns hfirst hsecond
  match i with
  | 0 =>
      have hlookups : (((readerPool executablePlatform sourceWorld copyGetPut).turnsOf tickWorld 0
          putAfterLookups).take 2).map World.db = [sourceWorld.db, sourceWorld.db] := rfl
      rw [hturns] at hlookups
      obtain ⟨hs, hlookups⟩ := List.cons.inj hlookups
      obtain ⟨hs', -⟩ := List.cons.inj hlookups
      rw [hs] at hfirst
      rw [hs', hfirst] at hsecond
      obtain rfl := Option.some.inj hsecond
      rfl
  | 1 => cases hcall
  | 2 => cases hcall
  | i + 3 => cases hcall

theorem readers_see_one_version_putAfterLookups :
    ReadersSeeOneVersion executablePlatform sourceWorld copyGetPut putAfterLookups :=
  readers_see_one_version ⟨sourceRun, rfl⟩ copyGetPut_onObjects putAfterLookups_agree

/-- The put runs between the two lookups of the copy. -/
def putBetweenLookups : List (Turn Nat) :=
  [.thread 0, .thread 2, .thread 2, .thread 2, .thread 2, .thread 0, .thread 0, .thread 0,
    .thread 0, .thread 0, .thread 0, .thread 0]

/-- **A put between the lookups** gives the copy the size and the ETag of one version and the
content of another. -/
theorem copy_mixes_versions :
    ¬ ∀ s, (store executablePlatform).Reachable s → ∀ calls : List ReaderCall,
      (∀ call ∈ calls, call.OnObjects) → ∀ schedule,
        ReadersSeeOneVersion executablePlatform s calls schedule := by
  intro h
  have hsees := h sourceWorld ⟨sourceRun, rfl⟩ copyGetPut copyGetPut_onObjects putBetweenLookups
  obtain ⟨reply, hreturned⟩ := Pool.exists_returned (i := 0)
    (c := (reading executablePlatform sourceWorld copyGetPut).after
      (readerPool executablePlatform sourceWorld copyGetPut) putBetweenLookups) (by decide)
  obtain ⟨before, rest, response, src, row, data, hsplit, -, -, hcopies, hstores⟩ :=
    hsees.copies 0 "docs" "k" "docs" "c" {} reply rfl hreturned
  have hinits : ∀ {e r}, putBetweenLookups = e ++ r → e ∈ putBetweenLookups.inits :=
    fun hsplit => (List.mem_inits _ _).mpr ⟨_, hsplit.symm⟩
  -- The current version is the old one or the new one.
  have hsource : ∀ e ∈ putBetweenLookups.inits, ∀ src ∈ selectObject "docs" "k" none
      (copyGetPutAfter e).db, src.encryptionAlgorithm = none ∧ (src.size = 1 →
        (copyGetPutAfter e).files.objects src.id = some [97]) := by decide
  have hdraws : ∀ e ∈ putBetweenLookups.inits, (copyGetPutAfter (e ++ [.thread 0])).draws =
      (copyGetPutAfter e).draws + 1 → (copyGetPutAfter e).draws = 2 := by decide
  have hrows : ∀ e ∈ putBetweenLookups.inits, ∀ r ∈ (copyGetPutAfter (e ++ [.thread 0])).db.objects,
      r.id = "01ARZ3NDEKTSV4RRFFQ69G5FA2" → r.size = 1 ∧ r.encryptionAlgorithm = none := by decide
  have hblobs : ∀ e ∈ putBetweenLookups.inits, (copyGetPutAfter (e ++ [.thread 0])).files.objects
      "01ARZ3NDEKTSV4RRFFQ69G5FA2" ≠ some [97] := by decide
  obtain ⟨drawing, _, hdrawing, hid, hdraw⟩ := hstores.drawn
  have htwo : (copyGetPutAfter drawing).draws = 2 := hdraws drawing (hinits hdrawing) hdraw
  have hrow : row.id = "01ARZ3NDEKTSV4RRFFQ69G5FA2" := by
    refine hid.trans ?_
    show executablePlatform.ulid (copyGetPutAfter drawing).draws = _
    rw [htwo]
    decide
  obtain ⟨closing, _, hclosing, hinserted⟩ := hstores.inserted
  obtain ⟨hsize, hplain⟩ := hrows closing (hinits hclosing) row hinserted hrow
  obtain ⟨hsrcPlain, hold⟩ := hsource before (hinits hsplit) src hcopies.selected
  have hsrcSize : src.size = 1 := (congrArg ObjectRow.size hcopies.columns).symm.trans hsize
  obtain ⟨blob, content, hblob, hopened, hsealed⟩ := hcopies.content
  obtain rfl : [97] = blob := Option.some.inj ((hold hsrcSize).symm.trans hblob)
  simp only [copiedData, hsrcPlain, hplain, reduceCtorEq, if_false, Except.ok.injEq]
    at hopened hsealed
  obtain ⟨writing, _, hwriting, hwritten⟩ := hstores.written
  rw [hrow, hsealed, ← hopened] at hwritten
  exact hblobs writing (hinits hwriting) hwritten

end Strix
