import Strix.ExecutablePlatform
import Strix.StoreCalls

/-!
# An upload is consumed once

Completing or aborting an upload looks its row up first and deletes it in a
closure at the end; the closure does not look again.  Two calls that have both
found the row can both go through.

* `consumedOnce_of_closesWhileOpen`: where every such closure still finds the
  row, one call at most succeeds and one version at most is created.
-/

namespace Strix

open AtomicProgram AtomicProgram.Prog MachineRuns RowTable

/-- The call completes or aborts the upload. -/
def Op.Consumes (uploadId : String) : Op → Prop
  | .completeMultipartUpload upload _ => upload.uploadId = uploadId
  | .abortMultipartUpload upload => upload.uploadId = uploadId
  | _ => False

/-- The statements of the closures that delete the row of an upload. -/
inductive ClosesUpload (uploadId : String) : List Statement → Prop
  | complete (status : VersioningStatus) (bucket key : String) (row : DateTime → ObjectRow) :
      ClosesUpload uploadId [makeRoom status bucket key, insertObject row,
        deleteParts (·.uploadId == uploadId), deleteUpload uploadId]
  | abort : ClosesUpload uploadId
      [deleteParts (·.uploadId == uploadId), deleteUpload uploadId]

/-- **The closure finds the row**: if the turn is a call's that goes on with such
a closure, the upload is still there. -/
def ClosesWhileOpen (uploadId : String) (c : Pool World Error Reply) (turn : Turn Nat) : Prop :=
  ∀ i statements, turn = .thread i → ClosesUpload uploadId statements →
    c.Before i (execute statements) → uploadRowExists uploadId c.state.db = true

/-- An object id that is in the table at some time of the schedule and was not
at its start. -/
def CreatesObject (P : Platform) (w : World) (ops : List Op) (schedule : List (Turn Nat))
    (id : String) : Prop :=
  (∃ before rest, schedule = before ++ rest ∧
    ∃ r ∈ ((calls P w ops).after (callPool P w ops) before).state.db.objects, r.id = id) ∧
  ∀ r ∈ w.db.objects, r.id ≠ id

/-- **At most one call has succeeded and at most one version has been created.** -/
structure ConsumedOnce (P : Platform) (w : World) (ops : List Op) (schedule : List (Turn Nat)) :
    Prop where
  oneReturns : ∀ i j reply reply',
    ((calls P w ops).after (callPool P w ops) schedule).Returned i reply →
    ((calls P w ops).after (callPool P w ops) schedule).Returned j reply' → i = j
  oneVersion : ∀ id id', CreatesObject P w ops schedule id →
    CreatesObject P w ops schedule id' → id = id'

/-! ## What the closures do -/

section Closures

variable {uploadId : String} {statements : List Statement}

/-- A row of the tables after has the id of a row before. -/
def IdsKept (rows rows' : List ObjectRow) : Prop := ∀ r' ∈ rows', ∃ r ∈ rows, r.id = r'.id

theorem idsKept_roomMade (status : VersioningStatus) (bucket key : String)
    (rows : List ObjectRow) : IdsKept rows (roomMade status bucket key rows) := by
  intro r' hr'
  obtain ⟨r, hr, rfl | ⟨rfl, -⟩⟩ := mem_roomMade hr'
  · exact ⟨_, hr, rfl⟩
  · exact ⟨r, hr, rfl⟩

/-- **What a closing closure can do**: delete the row and create one object at
most, or fail before it has deleted the row. -/
theorem ClosesUpload.cases (h : ClosesUpload uploadId statements) (now : DateTime) (db : Db) :
    (∃ db', runStatements statements now db = (.ok (), db') ∧
      uploadRowExists uploadId db' = false ∧
      ∃ id, ∀ r' ∈ db'.objects, r'.id = id ∨ ∃ r ∈ db.objects, r.id = r'.id) ∨
    ∃ e db', runStatements statements now db = (.error e, db') ∧ db'.uploads = db.uploads ∧
      IdsKept db.objects db'.objects := by
  have hgone : ∀ rows : List UploadRow,
      (selectFirst (·.uploadId == uploadId) (deleteRows (·.uploadId == uploadId) rows)).isSome =
        false := by
    intro rows
    rw [Option.isSome_eq_false_iff, Option.isNone_iff_eq_none, selectFirst_none]
    exact fun u hu => (mem_deleteRows.mp hu).2
  cases h with
  | abort =>
      refine Or.inl ⟨_, rfl, hgone _, "", fun r' hr' => Or.inr ⟨r', hr', rfl⟩⟩
  | complete status bucket key row =>
      rw [runStatements_cons_ok (makeRoom_ok status bucket key now db)]
      cases hinsert : insertObject row now
          { db with objects := roomMade status bucket key db.objects } with
      | error e =>
          exact Or.inr ⟨e, _, runStatements_cons_error hinsert, rfl, idsKept_roomMade _ _ _ _⟩
      | ok db' =>
          rw [runStatements_cons_ok hinsert]
          obtain ⟨-, -, rfl⟩ := insertObject_eq_ok hinsert
          refine Or.inl ⟨_, rfl, hgone _, (row now.seconds).id, fun r' hr' => ?_⟩
          rcases mem_insertRow.mp hr' with hold | rfl
          · exact Or.inr (idsKept_roomMade _ _ _ _ r' hold)
          · exact Or.inl rfl

end Closures

/-! ## The stages of a call -/

/-- A call has closed the upload or is still running. -/
inductive CloserStage
  | running
  | closed

/-- The stage that a closing closure leaves. -/
def CloserStage.after : Except SqlError Unit → CloserStage
  | .ok _ => closed
  | .error _ => running

/-- A call that consumes the upload is quiet but for its closing closure. -/
inductive CloserSteps (uploadId : String) : Automaton World CloserStage
  | quiet {t : CloserStage} {β : Type} {act : World → β × World} (h : Quiet act) :
      CloserSteps uploadId t act fun _ => t
  | closes {statements : List Statement} (h : ClosesUpload uploadId statements) :
      CloserSteps uploadId .running (closureStep statements) CloserStage.after

/-- It succeeds only where it has closed the upload. -/
def CloserEnds : StoreProg Reply → CloserStage → Prop
  | .done _, t => t = .closed
  | _, _ => True

theorem closer_free (t : CloserStage) : Free CloserEnds t :=
  ⟨fun _ _ _ => trivial, fun _ => trivial⟩

theorem consumes_staged {P : Platform} {uploadId : String} {op : Op} (h : op.Consumes uploadId) :
    (program P op).Staged (CloserSteps uploadId) CloserEnds .running := by
  have hquiet : ∀ (t : CloserStage) ⦃β : Type⦄ (act : World → β × World), Quiet act →
      CloserSteps uploadId t act fun _ => t := fun _ _ _ hact => .quiet hact
  have hdir : ∀ reply, (removeUploadDir uploadId >>= fun _ => (done reply : StoreProg Reply)).Staged
      (CloserSteps uploadId) CloserEnds .closed := fun reply =>
    (quiet_removeUploadDir uploadId).staged_bind (hquiet _) (closer_free _) fun _ => rfl
  cases op with
  | completeMultipartUpload upload parts =>
      obtain rfl : upload.uploadId = uploadId := h
      refine completeMultipartUpload_staged (Prepares.of_quiet (hquiet _) (closer_free _))
        upload parts fun n status bucket key row response _ => ?_
      exact staged_call _ trivial (.closes (.complete status bucket key row)) (fun _ => trivial)
        (hdir _)
  | abortMultipartUpload upload =>
      obtain rfl : upload.uploadId = uploadId := h
      simp only [program, replying, abortMultipartUpload, Prog.bind_assoc]
      refine (quiet_query _).staged_bind (hquiet _) (closer_free _) fun _ => ?_
      refine (only_ensure _ _).staged_bind (hquiet _) (closer_free _) fun _ => ?_
      exact staged_call _ trivial (.closes .abort) (fun _ => trivial) (hdir _)
  | _ => exact h.elim

/-! ## What holds throughout a schedule -/

section Invariant

variable {uploadId : String} {start : List ObjectRow}

/-- No call has closed the upload, and no version has been created. -/
structure StillOpen (start : List ObjectRow) (stages : List CloserStage) (w : World) : Prop where
  noneClosed : ∀ i : Nat, stages[i]? ≠ some .closed
  ids : IdsKept start w.db.objects

/-- Call `k` has closed the upload, and it may have created version `id`. -/
structure ClosedBy (uploadId : String) (start : List ObjectRow) (k : Nat) (id : String)
    (stages : List CloserStage) (w : World) : Prop where
  gone : uploadRowExists uploadId w.db = false
  onlyClosed : ∀ i : Nat, stages[i]? = some .closed → i = k
  ids : ∀ r' ∈ w.db.objects, r'.id = id ∨ ∃ r ∈ start, r.id = r'.id

/-- Once the upload is closed, no closure finds its row any more. -/
theorem closedBy_kept (k : Nat) (id : String) :
    KeptByThreads (CloserSteps uploadId) CloserEnds (ClosedBy uploadId start k id)
      (ClosesWhileOpen uploadId) := by
  intro c stages i β act t after hstep hguard hJ
  cases hstep.allowed with
  | quiet hquiet =>
      obtain ⟨hdb, -, -⟩ := hquiet c.state
      rw [set_stage hstep.stage]
      exact ⟨hdb ▸ hJ.gone, hJ.onlyClosed, hdb ▸ hJ.ids⟩
  | @closes statements hcloses =>
      have hthere := hguard i statements rfl hcloses hstep.thread
      rw [hJ.gone] at hthere
      cases hthere

/-- Until the upload is closed, the closure that closes it is the first. -/
theorem stillOpen_kept :
    KeptByThreads (CloserSteps uploadId) CloserEnds
      (fun stages w => StillOpen start stages w ∨ ∃ k id, ClosedBy uploadId start k id stages w)
      (ClosesWhileOpen uploadId) := by
  intro c stages i β act t after hstep hguard hJ
  rcases hJ with hopen | ⟨k, id, hclosed⟩
  · cases hstep.allowed with
    | quiet hquiet =>
        obtain ⟨hdb, -, -⟩ := hquiet c.state
        rw [set_stage hstep.stage]
        exact Or.inl ⟨hopen.noneClosed, hdb ▸ hopen.ids⟩
    | @closes statements hcloses =>
        rcases hcloses.cases c.state.now c.state.db with
          ⟨db', hrun, hgone, id, hids⟩ | ⟨e, db', hrun, -, hids⟩
        · refine Or.inr ⟨i, id, ?_⟩
          simp only [closureStep, hrun, CloserStage.after]
          refine ⟨hgone, fun j hj => ?_, fun r' hr' => ?_⟩
          · by_contra hne
            rw [List.getElem?_set_ne (Ne.symm hne)] at hj
            exact hopen.noneClosed j hj
          · rcases hids r' hr' with hnew | ⟨r, hr, hid⟩
            · exact Or.inl hnew
            · obtain ⟨old, hold, hid'⟩ := hopen.ids r hr
              exact Or.inr ⟨old, hold, hid'.trans hid⟩
        · refine Or.inl ?_
          simp only [closureStep, hrun, CloserStage.after, set_stage hstep.stage]
          refine ⟨hopen.noneClosed, fun r' hr' => ?_⟩
          obtain ⟨r, hr, hid⟩ := hids r' hr'
          obtain ⟨old, hold, hid'⟩ := hopen.ids r hr
          exact ⟨old, hold, hid'.trans hid⟩
  · exact Or.inr ⟨k, id, closedBy_kept k id c stages i act t after hstep hguard hclosed⟩

/-- Time passing closes nothing. -/
theorem ClosedBy.ticked {k : Nat} {id : String} {stages : List CloserStage} {w : World}
    (nanoseconds : Nat) (h : ClosedBy uploadId start k id stages w) :
    ClosedBy uploadId start k id stages (tickWorld nanoseconds w) :=
  ⟨h.gone, h.onlyClosed, h.ids⟩

/-- What a state of the schedule looks like, one call and one version for the
whole schedule. -/
structure ConsumedBy (start : List ObjectRow) (k : Nat) (id : String)
    (stages : List CloserStage) (w : World) : Prop where
  onlyClosed : ∀ i : Nat, stages[i]? = some .closed → i = k
  ids : ∀ r' ∈ w.db.objects, r'.id = id ∨ ∃ r ∈ start, r.id = r'.id

theorem StillOpen.consumedBy {stages : List CloserStage} {w : World}
    (h : StillOpen start stages w) (k : Nat) (id : String) : ConsumedBy start k id stages w where
  onlyClosed i hi := absurd hi (h.noneClosed i)
  ids r' hr' := Or.inr (h.ids r' hr')

/-- **One call and one version for the whole schedule.** -/
theorem consumedBy_after {P : Platform} {w : World} {ops : List Op}
    {c : Pool World Error Reply} {stages : List CloserStage} {schedule : List (Turn Nat)}
    (hall : (calls P w ops).AllSteps (ClosesWhileOpen uploadId) c schedule)
    (hstaged : c.StagedBy (CloserSteps uploadId) CloserEnds stages)
    (hopen : StillOpen start stages c.state) :
    ∃ k id, ∀ before rest, schedule = before ++ rest →
      ∃ stages', ((calls P w ops).after c before).StagedBy (CloserSteps uploadId) CloserEnds
          stages' ∧
        ConsumedBy start k id stages' ((calls P w ops).after c before).state := by
  induction schedule generalizing c stages with
  | nil =>
      refine ⟨0, "", fun before rest hsplit => ?_⟩
      obtain ⟨rfl, -⟩ := List.nil_eq_append_iff.mp hsplit
      exact ⟨stages, hstaged, hopen.consumedBy 0 ""⟩
  | cons turn schedule ih =>
      obtain ⟨hguard, hrest⟩ := hall
      have hworld : KeptByWorld tickWorld fun stages w =>
          StillOpen start stages w ∨ ∃ k id, ClosedBy uploadId start k id stages w := by
        intro stages w nanoseconds h
        rcases h with h | ⟨k, id, h⟩
        · exact Or.inl ⟨h.noneClosed, h.ids⟩
        · exact Or.inr ⟨k, id, h.ticked nanoseconds⟩
      obtain ⟨stages', hstaged', hnext⟩ :=
        staged_next stillOpen_kept hworld hguard hstaged (Or.inl hopen)
      -- It is enough to know one call and one version from the next state on.
      suffices htail : ∃ k id, ∀ before rest, schedule = before ++ rest →
          ∃ stages'', ((calls P w ops).after ((calls P w ops).next c turn) before).StagedBy
              (CloserSteps uploadId) CloserEnds stages'' ∧ ConsumedBy start k id stages''
                ((calls P w ops).after ((calls P w ops).next c turn) before).state by
        obtain ⟨k, id, htail⟩ := htail
        refine ⟨k, id, fun before rest hsplit => ?_⟩
        cases before with
        | nil => exact ⟨stages, hstaged, hopen.consumedBy k id⟩
        | cons first before =>
            obtain ⟨rfl, htails⟩ := List.cons_eq_cons.mp hsplit
            exact htail before rest htails
      rcases hnext with hopen' | ⟨k, id, hclosed⟩
      · exact ih hrest hstaged' hopen'
      · refine ⟨k, id, fun before rest hsplit => ?_⟩
        subst hsplit
        obtain ⟨stages'', hstaged'', hlater⟩ := staged_after (closedBy_kept k id)
          (fun _ _ nanoseconds h => h.ticked nanoseconds) ⟨stages', hstaged', hclosed⟩
          (Machine.allSteps_append _ |>.mp hrest).1
        exact ⟨stages'', hstaged'', hlater.onlyClosed, hlater.ids⟩

end Invariant

/-- **The upload is consumed once**, however the calls interleave, where every
closing closure still finds its row. -/
theorem consumedOnce_of_closesWhileOpen {P : Platform} {uploadId : String} {w : World}
    {ops : List Op} {schedule : List (Turn Nat)} (hops : ∀ op ∈ ops, op.Consumes uploadId)
    (hguard : (calls P w ops).AllSteps (ClosesWhileOpen uploadId) (callPool P w ops) schedule) :
    ConsumedOnce P w ops schedule := by
  have hstaged : (callPool P w ops).StagedBy (CloserSteps uploadId) CloserEnds
      (List.replicate (callPool P w ops).threads.length .running) := by
    refine stagedBy_replicate fun p hp => ?_
    obtain ⟨op, hop, rfl⟩ := List.mem_map.mp hp
    exact consumes_staged (hops op hop)
  have hopen : StillOpen w.db.objects
      (List.replicate (callPool P w ops).threads.length .running) w := by
    refine ⟨fun i hi => ?_, fun r hr => ⟨r, hr, rfl⟩⟩
    have hrunning := List.eq_of_mem_replicate (List.mem_of_getElem? hi)
    cases hrunning
  obtain ⟨k, id, hconsumed⟩ := consumedBy_after hguard hstaged hopen
  have hcreated : ∀ id', CreatesObject P w ops schedule id' → id' = id := by
    rintro id' ⟨⟨before, rest, hsplit, r', hr', rfl⟩, hnew⟩
    obtain ⟨stages, -, hby⟩ := hconsumed before rest hsplit
    rcases hby.ids r' hr' with hid | ⟨r, hr, hid⟩
    · exact hid
    · exact absurd hid (hnew r hr)
  refine ⟨fun i j reply reply' hi hj => ?_, fun id₁ id₂ h₁ h₂ => ?_⟩
  · obtain ⟨stages, hstages, hby⟩ := hconsumed schedule [] (List.append_nil _).symm
    obtain ⟨t, ht, hclosed⟩ := hstages.returned hi
    obtain ⟨t', ht', hclosed'⟩ := hstages.returned hj
    exact (hby.onlyClosed i (ht.trans (congrArg some hclosed))).trans
      (hby.onlyClosed j (ht'.trans (congrArg some hclosed'))).symm
  · exact (hcreated id₁ h₁).trans (hcreated id₂ h₂).symm

/-! ## Two calls on one upload -/

/-- What the client knows of the upload. -/
def docsUpload : MultipartUpload where
  uploadId := "01ARZ3NDEKTSV4RRFFQ69G5FA0"
  bucket := "docs"
  key := "big"
  initiated := 0

/-- An upload with one part, in a bucket with versioning enabled. -/
def uploadedRun : List Op := [
  .createBucket "docs" {},
  .setBucketVersioning "docs" true,
  .createMultipartUpload "docs" "big" {},
  .uploadPart docsUpload 1 [.ok [97]]]

def uploadedWorld : World := (store executablePlatform).after {} uploadedRun

/-- Complete the upload with its part. -/
def completeDocs : Op :=
  .completeMultipartUpload docsUpload
    [{ partNumber := 1, etag := contentEtag executablePlatform [97] }]

/-- A closing closure deletes an upload row that is there. -/
theorem ClosesUpload.not_quiet {uploadId : String} {statements : List Statement}
    (h : ClosesUpload uploadId statements) : ¬ Quiet (closureStep statements) := by
  intro hquiet
  let upload : UploadRow :=
    { uploadId, bucket := "", key := "", contentType := none, contentEncoding := none,
      contentDisposition := none, cacheControl := none, storageClass := .standard,
      userMetadata := none, encryptionAlgorithm := none, encryptionKeyMd5 := none,
      initiatedAt := 0 }
  cases h with
  | abort =>
      have hsame := (hquiet { db := { uploads := [upload] } }).1
      simp [closureStep, runStatements, deleteParts, deleteUpload, deleteRows, upload] at hsame
  | complete status bucket key row =>
      have hwrites : WritesRow bucket key row _ := .multipart status uploadId
      exact hwrites.not_quiet hquiet

/-- An abort that runs alone closes the upload; a completion after it does not
find it. -/
def abortFirst : List (Turn Nat) := [.thread 0, .thread 0, .thread 0, .thread 1]

theorem consumedOnce_of_closesWhileOpen_abortFirst :
    ConsumedOnce executablePlatform uploadedWorld [.abortMultipartUpload docsUpload, completeDocs]
      abortFirst := by
  refine @consumedOnce_of_closesWhileOpen executablePlatform docsUpload.uploadId _ _ _ ?_ ?_
  · intro op hop
    simp only [List.mem_cons, List.not_mem_nil, or_false] at hop
    rcases hop with rfl | rfl <;> rfl
  · refine ⟨fun _ _ _ _ _ => by decide, fun _ _ _ _ _ => by decide, ?_, ?_, trivial⟩
    · rintro i statements hturn hcloses hbefore
      obtain rfl := Turn.thread.inj hturn
      exact absurd hbefore (not_before_of_quiet rfl (fun _ => ⟨rfl, Nat.le_refl _, rfl⟩)
        hcloses.not_quiet)
    · rintro i statements hturn hcloses hbefore
      obtain rfl := Turn.thread.inj hturn
      exact absurd hbefore (not_before_of_quiet rfl (fun _ => ⟨rfl, Nat.le_refl _, rfl⟩)
        hcloses.not_quiet)

/-- Both calls prepare, up to the closure; then both finish. -/
def bothComplete : List (Turn Nat) :=
  List.replicate 7 (.thread 0) ++ List.replicate 7 (.thread 1) ++
    [.thread 0, .thread 0, .thread 1, .thread 1]

/-- **Two completions of one upload both succeed.** -/
theorem upload_completed_twice :
    ¬ ∀ s, (store executablePlatform).Reachable s → ∀ (uploadId : String) (ops : List Op),
      (∀ op ∈ ops, op.Consumes uploadId) → ∀ schedule,
        ConsumedOnce executablePlatform s ops schedule := by
  intro h
  have honce := h uploadedWorld ⟨uploadedRun, rfl⟩ docsUpload.uploadId [completeDocs, completeDocs]
    (by simp [completeDocs, Op.Consumes]) bothComplete
  obtain ⟨reply, hfirst⟩ := Pool.exists_returned (i := 0)
    (c := (calls executablePlatform uploadedWorld [completeDocs, completeDocs]).after
      (callPool executablePlatform uploadedWorld [completeDocs, completeDocs]) bothComplete)
    (by decide)
  obtain ⟨reply', hsecond⟩ := Pool.exists_returned (i := 1)
    (c := (calls executablePlatform uploadedWorld [completeDocs, completeDocs]).after
      (callPool executablePlatform uploadedWorld [completeDocs, completeDocs]) bothComplete)
    (by decide)
  exact absurd (honce.oneReturns 0 1 reply reply' hfirst hsecond) (by decide)

end Strix
