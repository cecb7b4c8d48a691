import Strix.ExecutablePlatform
import Strix.StoreCalls

/-!
# Deleting a bucket while others write into it

`delete_bucket` finds the bucket empty in one closure and deletes it in the
next, and the foreign keys take every object row of the bucket along.  A writer
that inserts between the two loses its row, also where it has already returned.

* `acknowledgedStay_of_noWriteBeforeDelete`: where no writer inserts into a
  bucket while a call is about to delete it, no acknowledged row is removed by
  a bucket deletion.
-/

namespace Strix

open AtomicProgram AtomicProgram.Prog MachineRuns RowTable

/-- The call deletes a bucket or writes an object. -/
def Op.DeletesBucketOrWrites : Op → Prop
  | .deleteBucket .. | .putObject .. | .copyObject .. | .completeMultipartUpload .. => True
  | _ => False

/-- **No write into a bucket that is about to be deleted**: if the turn is a
writer's that goes on with its closure, no call goes on with the DELETE of the
same bucket. -/
def NoWriteBeforeDelete (c : Pool World Error Reply) (turn : Turn Nat) : Prop :=
  ∀ i bucket key row statements, turn = .thread i → WritesRow bucket key row statements →
    c.Before i (execute statements) → ∀ j, ¬ c.Before j (execute [deleteBucketRow bucket])

/-- The id is in the table. -/
def World.hasId (w : World) (id : String) : Prop := ∃ r ∈ w.db.objects, r.id = id

instance (w : World) (id : String) : Decidable (w.hasId id) :=
  inferInstanceAs (Decidable (∃ r ∈ w.db.objects, r.id = id))

/-- **The writer of the row has returned**: it is a row of the start, or a call
has inserted it in one of its turns and has ended with a value. -/
def Acknowledged (P : Platform) (w : World) (ops : List Op) (before : List (Turn Nat))
    (id : String) : Prop :=
  w.hasId id ∨ ∃ earlier j rest reply, before = earlier ++ .thread j :: rest ∧
    ¬ ((calls P w ops).after (callPool P w ops) earlier).state.hasId id ∧
    ((calls P w ops).after (callPool P w ops) (earlier ++ [.thread j])).state.hasId id ∧
    ((calls P w ops).after (callPool P w ops) before).Returned j reply

/-- **No turn of a bucket deletion removes an acknowledged row.** -/
def AcknowledgedStay (P : Platform) (w : World) (ops : List Op) (schedule : List (Turn Nat)) :
    Prop :=
  ∀ before i rest bucket id, schedule = before ++ .thread i :: rest →
    ops[i]? = some (.deleteBucket bucket) → Acknowledged P w ops before id →
    ((calls P w ops).after (callPool P w ops) before).state.hasId id →
    ((calls P w ops).after (callPool P w ops) (before ++ [.thread i])).state.hasId id

/-! ## The stages of a call -/

/-- A writer, and the two steps of a bucket deletion. -/
inductive DeleterStage
  | writing
  | checking
  | empty (bucket : String)
  | ended

/-- Where the check of a bucket leaves its deletion. -/
def DeleterStage.found (bucket : String) (found : Bool × Bool) : DeleterStage :=
  if found.1 && !found.2 then empty bucket else ended

inductive DeleterSteps : Automaton World DeleterStage
  | quiet {β : Type} {act : World → β × World} (h : Quiet act) :
      DeleterSteps .writing act fun _ => .writing
  | writes {bucket key : String} {row : DateTime → ObjectRow} {statements : List Statement}
      (h : WritesRow bucket key row statements) (hbucket : ∀ now, (row now).bucket = bucket) :
      DeleterSteps .writing (closureStep statements) fun _ => .writing
  | checks (bucket : String) :
      DeleterSteps .checking
        (fun w => ((bucketRowExists bucket w.db, w.db.objects.any (·.bucket == bucket)), w))
        (DeleterStage.found bucket)
  | deletes (bucket : String) :
      DeleterSteps (.empty bucket) (closureStep [deleteBucketRow bucket]) fun _ => .ended

/-- A deletion that has found its bucket empty goes on. -/
def DeleterEnds : StoreProg Reply → DeleterStage → Prop
  | .step _ _, _ => True
  | _, t => ∀ bucket, t ≠ .empty bucket

/-- The stage in which a call starts. -/
def Op.deleterStage : Op → DeleterStage
  | .deleteBucket _ => .checking
  | _ => .writing

theorem deleter_staged {P : Platform} {op : Op} (h : op.DeletesBucketOrWrites) :
    (program P op).Staged DeleterSteps DeleterEnds op.deleterStage := by
  have hprepares : Prepares DeleterSteps DeleterEnds .writing fun _ => .writing :=
    .of_quiet (fun _ _ hact => .quiet hact) ⟨fun _ _ _ => trivial, fun _ _ hempty => by cases hempty⟩
  have hwritten : ∀ reply, (done reply : StoreProg Reply).Staged DeleterSteps DeleterEnds
      .writing := fun _ _ hempty => by cases hempty
  have hfails : ∀ e, DeleterEnds (fail e) .writing := fun _ _ hempty => by cases hempty
  cases op with
  | putObject bucket key body opts =>
      refine putObject_staged hprepares bucket key body opts fun n status row response hrow => ?_
      have hwrites : WritesRow bucket key row _ := .single status
      exact staged_call _ trivial (.writes hwrites hrow.bucket_eq) (fun _ => hfails _) (hwritten _)
  | copyObject srcBucket srcKey dstBucket dstKey opts =>
      refine copyObject_staged hprepares srcBucket srcKey dstBucket dstKey opts
        fun n status row response hrow => ?_
      have hwrites : WritesRow dstBucket dstKey row _ := .single status
      exact staged_call _ trivial (.writes hwrites hrow.bucket_eq) (fun _ => hfails _) (hwritten _)
  | completeMultipartUpload upload parts =>
      refine completeMultipartUpload_staged hprepares upload parts
        fun n status bucket key row response hrow => ?_
      have hwrites : WritesRow bucket key row _ := .multipart status upload.uploadId
      refine staged_call _ trivial (.writes hwrites hrow.bucket_eq) (fun _ => hfails _) ?_
      exact (quiet_removeUploadDir _).staged_bind hprepares.idle_quiet hprepares.idle_free
        fun _ => hwritten _
  | deleteBucket bucket =>
      simp only [program, replying, deleteBucket, Prog.bind_assoc]
      refine staged_perform_bind (DeleterStage.found bucket) trivial (.checks bucket)
        fun found => ?_
      obtain ⟨there, hasObjects⟩ := found
      cases there with
      | false => exact fun _ hempty => by cases hempty
      | true =>
          cases hasObjects with
          | true => exact fun _ hempty => by cases hempty
          | false =>
              refine staged_call (fun _ => .ended) trivial (.deletes bucket) ?_ ?_
              · exact fun _ _ hempty => by cases hempty
              · exact fun _ hempty => by cases hempty
  | _ => exact h.elim

/-! ## What holds throughout a schedule -/

/-- No deletion is in the stage of a writer, and a bucket that one has found
empty is empty. -/
structure FoundEmpty (ops : List Op) (stages : List DeleterStage) (w : World) : Prop where
  apart : ∀ (i : Nat) bucket, ops[i]? = some (.deleteBucket bucket) → stages[i]? ≠ some .writing
  empty : ∀ (i : Nat) bucket, stages[i]? = some (.empty bucket) →
    ∀ r ∈ w.db.objects, r.bucket ≠ bucket

/-- A thread that has found its bucket empty is about to delete it. -/
theorem before_of_empty {c : Pool World Error Reply} {stages : List DeleterStage} {i : Nat}
    {bucket : String} (hstaged : c.StagedBy DeleterSteps DeleterEnds stages)
    (hstage : stages[i]? = some (.empty bucket)) :
    c.Before i (execute [deleteBucketRow bucket]) := by
  obtain ⟨p, hp, hstaged⟩ := hstaged.thread hstage
  cases p with
  | done a => exact absurd rfl (hstaged bucket)
  | fail e => exact absurd rfl (hstaged bucket)
  | step act next =>
      obtain ⟨-, after, hact, -⟩ := hstaged
      cases hact
      exact ⟨next, hp⟩

/-- A check that leads to the DELETE has found no object. -/
theorem found_eq_empty {bucket bucket' : String} {found : Bool × Bool}
    (h : DeleterStage.found bucket found = .empty bucket') :
    bucket = bucket' ∧ found.2 = false := by
  obtain ⟨there, hasObjects⟩ := found
  cases there with
  | false => cases h
  | true =>
      cases hasObjects with
      | true => cases h
      | false => exact ⟨DeleterStage.empty.inj h, rfl⟩

theorem found_ne_writing {bucket : String} {found : Bool × Bool} :
    DeleterStage.found bucket found ≠ .writing := by
  unfold DeleterStage.found
  split <;> simp

theorem foundEmpty_kept (ops : List Op) :
    KeptByThreads DeleterSteps DeleterEnds (FoundEmpty ops) NoWriteBeforeDelete := by
  intro c stages i β act t after hstep hguard hJ
  have hapart : ∀ t' : DeleterStage, t' ≠ .writing → ∀ (j : Nat) bucket,
      ops[j]? = some (.deleteBucket bucket) → (stages.set i t')[j]? ≠ some .writing := by
    intro t' hne j bucket hop hwriting
    rcases getElem?_set_cases hwriting with ⟨-, heq⟩ | ⟨-, hold⟩
    · exact hne heq
    · exact hJ.apart j bucket hop hold
  cases hstep.allowed with
  | quiet hquiet =>
      rw [set_stage hstep.stage]
      refine ⟨hJ.apart, ?_⟩
      rw [(hquiet c.state).1]
      exact hJ.empty
  | @writes bucket key row statements hwrites hbucket =>
      rw [set_stage hstep.stage]
      refine ⟨hJ.apart, fun j bucket' hj r' hr' => ?_⟩
      have hne : bucket ≠ bucket' := by
        intro heq
        subst heq
        exact hguard i bucket key row statements rfl hwrites hstep.thread j
          (before_of_empty hstep.staged hj)
      have hroom : ∀ status, r' ∈ roomMade status bucket key c.state.db.objects →
          r'.bucket ≠ bucket' := by
        intro status hmem
        obtain ⟨old, hold, rfl | ⟨rfl, -⟩⟩ := mem_roomMade hmem
        · exact hJ.empty j bucket' hj _ hold
        · exact hJ.empty j bucket' hj old hold
      obtain ⟨-, status, hobjects⟩ := hwrites.cases c.state.now c.state.db
      rcases hobjects with hobjects | hobjects
      · exact hroom status (hobjects ▸ hr')
      · rcases mem_insertRow.mp (hobjects ▸ hr') with hmem | rfl
        · exact hroom status hmem
        · rw [hbucket]
          exact hne
  | checks bucket =>
      refine ⟨hapart _ found_ne_writing, fun j bucket' hj r hr => ?_⟩
      rcases getElem?_set_cases hj with ⟨-, hfound⟩ | ⟨-, hold⟩
      · obtain ⟨rfl, hnone⟩ := found_eq_empty hfound
        have hempty : ∀ r ∈ c.state.db.objects, r.bucket ≠ bucket := by simpa using hnone
        exact hempty r hr
      · exact hJ.empty j bucket' hold r hr
  | deletes bucket =>
      refine ⟨hapart _ (by simp), fun j bucket' hj r hr => ?_⟩
      rcases getElem?_set_cases hj with ⟨-, hended⟩ | ⟨-, hold⟩
      · cases hended
      · exact hJ.empty j bucket' hold r (mem_deleteRows.mp hr).1

/-- The turns of a deletion leave the objects alone. -/
theorem deletion_keeps_objects {ops : List Op} {c : Pool World Error Reply}
    {stages : List DeleterStage} {i : Nat} {bucket : String}
    (hstaged : c.StagedBy DeleterSteps DeleterEnds stages) (hJ : FoundEmpty ops stages c.state)
    (hop : ops[i]? = some (.deleteBucket bucket)) :
    (c.turn tickWorld (.thread i)).state.db.objects = c.state.db.objects := by
  rcases turn_thread_cases tickWorld c i with hsame | ⟨β, act, next, hp, hturn⟩
  · rw [hsame]
  · obtain ⟨t, ht, -, after, hact, -⟩ := hstaged.stage hp
    rw [hturn]
    cases hact with
    | quiet => exact absurd ht (hJ.apart i bucket hop)
    | writes => exact absurd ht (hJ.apart i bucket hop)
    | checks bucket' => rfl
    | deletes bucket' =>
        have hnone := hJ.empty i bucket' ht
        exact deleteRows_eq_self fun r hr => by simpa using hnone r hr

/-- **No acknowledged row goes with its bucket**, however the calls interleave,
where no writer inserts into a bucket that is about to be deleted. -/
theorem acknowledgedStay_of_noWriteBeforeDelete {P : Platform} {w : World} {ops : List Op}
    {schedule : List (Turn Nat)} (hops : ∀ op ∈ ops, op.DeletesBucketOrWrites)
    (hguard : (calls P w ops).AllSteps NoWriteBeforeDelete (callPool P w ops) schedule) :
    AcknowledgedStay P w ops schedule := by
  intro before i rest bucket id hsplit hop _ hthere
  have hstart : FoundEmpty ops (ops.map Op.deleterStage) w := by
    refine ⟨fun j bucket' hj => ?_, fun j bucket' hj => ?_⟩
    · simp [hj, Op.deleterStage]
    · obtain ⟨op, -, hempty⟩ := List.mem_map.mp (List.mem_of_getElem? hj)
      cases op <;> cases hempty
  have hworld : KeptByWorld tickWorld (FoundEmpty ops) :=
    fun _ _ _ h => ⟨h.apart, h.empty⟩
  subst hsplit
  obtain ⟨stages, hstaged, hJ⟩ := staged_after (foundEmpty_kept ops) hworld
    ⟨_, callPool_stagedBy P fun op hmem => deleter_staged (hops op hmem), hstart⟩
    ((calls P w ops).allSteps_append.mp hguard).1
  rw [Machine.after_append]
  obtain ⟨r, hr, hid⟩ := hthere
  refine ⟨r, ?_, hid⟩
  have hsame := deletion_keeps_objects hstaged hJ hop
  exact hsame.symm ▸ hr

/-! ## A put, and the deletion of its bucket -/

/-- An empty bucket. -/
def bucketRun : List Op := [.createBucket "docs" {}]

def bucketWorld : World := (store executablePlatform).after {} bucketRun

/-- The bucket is deleted while an object is put into it. -/
def deleteAndPut : List Op :=
  [.deleteBucket "docs", .putObject "docs" "k" [.ok [97]] {}]

theorem deleteAndPut_ops : ∀ op ∈ deleteAndPut, op.DeletesBucketOrWrites := by
  intro op hop
  simp only [deleteAndPut, List.mem_cons, List.not_mem_nil, or_false] at hop
  rcases hop with rfl | rfl <;> trivial

theorem deleteBucketRow_not_quiet (bucket : String) :
    ¬ Quiet (closureStep [deleteBucketRow bucket]) := by
  intro hquiet
  have hsame := congrArg Db.buckets (hquiet { db := { buckets := [bucketRow bucket {} 0] } }).1
  simp [closureStep, runStatements, deleteBucketRow, deleteRows, bucketRow] at hsame

/-- The turn of a thread whose next step is quiet writes nothing. -/
theorem noWriteBeforeDelete_of_quiet {β : Type} {c : Pool World Error Reply} {i : Nat}
    {act : World → β × World} {next : β → StoreProg Reply}
    (hthread : c.threads[i]? = some (.step act next)) (hquiet : Quiet act) :
    NoWriteBeforeDelete c (.thread i) := by
  intro i' bucket key row statements hturn hwrites hbefore
  obtain rfl := Turn.thread.inj hturn
  exact absurd hbefore (not_before_of_quiet hthread hquiet hwrites.not_quiet)

/-- A put that runs alone, and then the check of the deletion. -/
def putFirst : List (Turn Nat) := [.thread 1, .thread 1, .thread 1, .thread 1, .thread 0]

theorem acknowledgedStay_of_noWriteBeforeDelete_putFirst :
    AcknowledgedStay executablePlatform bucketWorld deleteAndPut putFirst := by
  refine acknowledgedStay_of_noWriteBeforeDelete deleteAndPut_ops ?_
  refine ⟨noWriteBeforeDelete_of_quiet rfl fun _ => ⟨rfl, Nat.le_refl _, rfl⟩,
    noWriteBeforeDelete_of_quiet rfl fun w => ⟨rfl, Nat.le_succ w.draws, rfl⟩,
    noWriteBeforeDelete_of_quiet rfl fun _ => ⟨rfl, Nat.le_refl _, rfl⟩, ?_,
    noWriteBeforeDelete_of_quiet rfl fun _ => ⟨rfl, Nat.le_refl _, rfl⟩, trivial⟩
  -- The closure runs while the deletion has not checked yet.
  intro i bucket key row statements _ _ _ j hbefore
  match j with
  | 0 =>
      exact not_before_of_quiet rfl (fun _ => ⟨rfl, Nat.le_refl _, rfl⟩)
        (deleteBucketRow_not_quiet bucket) hbefore
  | 1 =>
      have hsame := congrArg (fun act => (act {}).1.toBool) (Pool.Before.act_eq ⟨_, rfl⟩ hbefore)
      cases hsame
  | j + 2 =>
      obtain ⟨next, hnone⟩ := hbefore
      cases hnone

/-- The check of the deletion, the put, and the DELETE. -/
def putBetween : List (Turn Nat) :=
  [.thread 0, .thread 1, .thread 1, .thread 1, .thread 1, .thread 0]

/-- **A put that has returned loses its row to the deletion of the bucket.** -/
theorem acknowledged_put_removed :
    ¬ ∀ s, (store executablePlatform).Reachable s → ∀ ops : List Op,
      (∀ op ∈ ops, op.DeletesBucketOrWrites) → ∀ schedule,
        AcknowledgedStay executablePlatform s ops schedule := by
  intro h
  have hstay := h bucketWorld ⟨bucketRun, rfl⟩ deleteAndPut deleteAndPut_ops putBetween
  obtain ⟨reply, hreturned⟩ := Pool.exists_returned (i := 1)
    (c := (calls executablePlatform bucketWorld deleteAndPut).after
      (callPool executablePlatform bucketWorld deleteAndPut) putBetween.dropLast) (by decide)
  have hgone := hstay putBetween.dropLast 0 [] "docs" "01ARZ3NDEKTSV4RRFFQ69G5FA0" rfl rfl
    (Or.inr ⟨[.thread 0, .thread 1, .thread 1, .thread 1], 1, [], reply, rfl,
      by decide, by decide, hreturned⟩) (by decide)
  exact absurd hgone (by decide)

end Strix
