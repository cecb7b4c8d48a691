import Strix.ExecutablePlatform
import Strix.LockCalls

/-!
# COMPLIANCE retention under concurrent calls

`put_object_retention` asks in one closure whether the retention in force may
be changed, and changes it in the next.  Both select their row anew, so the row
that is updated need not be as the check has found it.

* `complianceStands_of_sparesCompliance`: where no UPDATE addresses a row that
  is under COMPLIANCE retention, such a row keeps its mode and its date never
  moves forward.
-/

namespace Strix

open AtomicProgram AtomicProgram.Prog MachineRuns RowTable

/-- The call sets a retention, puts an object or deletes one. -/
def Op.RetainsPutsOrDeletes : Op → Prop
  | .putObjectRetention .. | .putObject .. | .deleteObjectVersion .. => True
  | _ => False

/-- The row is under COMPLIANCE retention, and not for a shorter time. -/
def ObjectRow.CompliantUntil (date : DateTime) (r : ObjectRow) : Prop :=
  r.retentionMode = some .compliance ∧ ∃ date', r.retainUntilDate = some date' ∧ date ≤ date'

/-- **COMPLIANCE retention stands**: a row that is under it at some time is so
at every later time at which it is there, and its date has not become earlier. -/
def ComplianceStands (P : Platform) (w : World) (ops : List Op) (schedule : List (Turn Nat)) :
    Prop :=
  ∀ before between rest, schedule = before ++ between ++ rest →
    ∀ r ∈ ((calls P w ops).after (callPool P w ops) before).state.db.objects, ∀ date,
      r.retentionMode = some .compliance → r.retainUntilDate = some date →
      ∀ r' ∈ ((calls P w ops).after (callPool P w ops) (before ++ between)).state.db.objects,
        r'.id = r.id → r'.CompliantUntil date

/-- **The UPDATE finds what the check would allow**: if the turn is a retention
call's that goes on with its UPDATE, no row that it addresses is under
COMPLIANCE retention. -/
def SparesCompliance (c : Pool World Error Reply) (turn : Turn Nat) : Prop :=
  ∀ i bucket key versionId retention, turn = .thread i →
    c.Before i (execute [updateObjects (addressed bucket key versionId)
      (ObjectRow.retain retention)]) →
    ∀ r ∈ c.state.db.objects, addressed bucket key versionId r = true →
      retentionModifiable (some r) true = true

section Invariant

variable {P : Platform} {puts : Prop} {id : String} {date : DateTime}

/-- Ids are unique, and no call can insert a row under an id that is there. -/
structure IdsApart (P : Platform) (stages : List LockStage) (w : World) : Prop where
  apart : DrawsApart P (stages.map LockStage.pending) w
  keyed : Keyed (·.id) w.db.objects

theorem idsApart_kept :
    KeptByThreads (LockSteps P puts) (LockLooks P) (IdsApart P) SparesCompliance := by
  intro c stages i β act t after hstep _ hJ
  refine ⟨hstep.allowed.drawsApart hstep.stage hJ.apart, ?_⟩
  refine hstep.allowed.keyed hJ.keyed (fun r r' hsame => hsame.id_eq) fun r hr row hfresh => ?_
  exact (hJ.apart.id_ne hstep.stage hr hfresh).symm

/-- The row of an id is under COMPLIANCE retention, and no call can insert
another row under the id. -/
structure IdCompliant (P : Platform) (id : String) (date : DateTime) (stages : List LockStage)
    (w : World) : Prop where
  taken : Taken P id (stages.map LockStage.pending) w
  compliant : ∀ r ∈ w.db.objects, r.id = id → r.CompliantUntil date

/-- The row under COMPLIANCE retention may not be changed, whoever asks. -/
theorem ObjectRow.CompliantUntil.not_modifiable {r : ObjectRow} (h : r.CompliantUntil date)
    (bypassGovernance : Bool) : retentionModifiable (some r) bypassGovernance = false := by
  obtain ⟨hmode, date', hdate, -⟩ := h
  simp [retentionModifiable, hmode, hdate]

theorem idCompliant_kept :
    KeptByThreads (LockSteps P puts) (LockLooks P) (IdCompliant P id date) SparesCompliance := by
  intro c stages i β act t after hstep hguard hJ
  refine ⟨hstep.allowed.taken hstep.stage hJ.taken, fun r' hr' hid => ?_⟩
  rcases hstep.allowed.row_back hr' with ⟨r, hr, hkept⟩ | hfresh
  · have hcompliant := hJ.compliant r hr (hkept.version.id_eq.symm.trans hid)
    rcases hkept.locks with hlock | hset
    · obtain ⟨hmode, date', hdate, hle⟩ := hcompliant
      exact ⟨hlock.1.trans hmode, date', hlock.2.1.trans hdate, hle⟩
    · cases hset with
      | mk bucket key versionId hassign haddressed =>
          cases hassign with
          | retain retention =>
              have hallowed :=
                hguard i bucket key versionId retention rfl hstep.thread r hr haddressed
              rw [hcompliant.not_modifiable] at hallowed
              cases hallowed
          | hold status => exact hcompliant
  · obtain ⟨n, hn, hid'⟩ := hfresh.held
    have hpending : (stages.map LockStage.pending)[i]? = some (some n) := by
      rw [List.getElem?_map, hstep.stage, Option.map_some, hn]
    exact absurd (hid'.symm.trans hid) (hJ.taken.free i n hpending)

theorem retainsPutsOrDeletes_staged {op : Op} (h : op.RetainsPutsOrDeletes) :
    (program P op).Staged (LockSteps P True) (LockLooks P) .idle := by
  cases op with
  | putObjectRetention bucket key versionId retention bypassGovernance =>
      exact putObjectRetention_lockStaged bucket key versionId retention bypassGovernance
  | putObject bucket key body opts => exact putObject_lockStaged trivial bucket key body opts
  | deleteObjectVersion bucket key versionId =>
      exact deleteObjectVersion_lockStaged bucket key versionId
  | _ => exact h.elim

end Invariant

/-- **COMPLIANCE retention stands**, however the calls interleave, where no
UPDATE addresses a row that is under it. -/
theorem complianceStands_of_sparesCompliance {P : Platform} {w : World} {ops : List Op}
    {schedule : List (Turn Nat)} (hs : (store P).Reachable w)
    (hops : ∀ op ∈ ops, op.RetainsPutsOrDeletes)
    (hguard : (calls P w ops).AllSteps SparesCompliance (callPool P w ops) schedule) :
    ComplianceStands P w ops schedule := by
  intro before between rest hsplit r hr date hmode hdate r' hr' hid
  subst hsplit
  obtain ⟨hbefore, hbetween⟩ :=
    ((calls P w ops).allSteps_append.mp ((calls P w ops).allSteps_append.mp hguard).1)
  -- Up to the time of `r`, no call can insert a row under an id that is there.
  have hworld : KeptByWorld tickWorld (IdsApart P) :=
    fun _ _ _ hJ => ⟨hJ.apart.quiet rfl (Nat.le_refl _), hJ.keyed⟩
  have hwell := wellFormed_reachable hs
  obtain ⟨stages, hstaged, hapart⟩ := staged_after idsApart_kept hworld
    ⟨_, callPool_stagedBy P fun op hmem => retainsPutsOrDeletes_staged (hops op hmem),
      drawsApart_start hwell.ids ops, hwell.keyedId⟩ hbefore
  -- From then on, the row of this id is under COMPLIANCE retention.
  have hworld' : KeptByWorld tickWorld (IdCompliant P r.id date) :=
    fun _ _ _ hJ => ⟨hJ.taken.mono (Nat.le_refl _), hJ.compliant⟩
  have hnow : IdCompliant P r.id date stages
      ((calls P w ops).after (callPool P w ops) before).state := by
    refine ⟨hapart.apart.rows r hr, fun r'' hr'' hid'' => ?_⟩
    obtain rfl := hapart.keyed.eq_of_mem hr'' hr hid''
    exact ⟨hmode, date, hdate, Int.le_refl _⟩
  obtain ⟨stages', -, hcompliant⟩ :=
    staged_after idCompliant_kept hworld' ⟨stages, hstaged, hnow⟩ hbetween
  rw [Machine.after_append] at hr'
  exact hcompliant.compliant r' hr' hid

/-! ## Two retention calls on one object -/

/-- An object without retention. -/
def objectRun : List Op := [.createBucket "docs" {}, .putObject "docs" "k" [.ok [97]] {}]

def objectWorld : World := (store executablePlatform).after {} objectRun

/-- One call sets COMPLIANCE, the other one GOVERNANCE for a shorter time. -/
def twoRetentions : List Op := [
  .putObjectRetention "docs" "k" none { mode := .compliance, retainUntilDate := 2000 } false,
  .putObjectRetention "docs" "k" none { mode := .governance, retainUntilDate := 1000 } false]

theorem twoRetentions_ops : ∀ op ∈ twoRetentions, op.RetainsPutsOrDeletes := by
  intro op hop
  simp only [twoRetentions, List.mem_cons, List.not_mem_nil, or_false] at hop
  rcases hop with rfl | rfl <;> trivial

/-- The turn of a thread whose next step is quiet updates nothing. -/
theorem sparesCompliance_of_quiet {β : Type} {c : Pool World Error Reply} {i : Nat}
    {act : World → β × World} {next : β → StoreProg Reply}
    (hthread : c.threads[i]? = some (.step act next)) (hquiet : Quiet act) :
    SparesCompliance c (.thread i) := by
  intro i' bucket key versionId retention hturn hbefore
  obtain rfl := Turn.thread.inj hturn
  exact absurd hbefore (not_before_of_quiet hthread hquiet
    ((LockAssign.retain retention).not_quiet bucket key versionId))

/-- One call after the other. -/
def oneAfterOther : List (Turn Nat) := [.thread 0, .thread 0, .thread 0, .thread 1, .thread 1]

theorem complianceStands_of_sparesCompliance_oneAfterOther :
    ComplianceStands executablePlatform objectWorld twoRetentions oneAfterOther := by
  refine complianceStands_of_sparesCompliance ⟨objectRun, rfl⟩ twoRetentions_ops ?_
  refine ⟨sparesCompliance_of_quiet rfl fun _ => ⟨rfl, Nat.le_refl _, rfl⟩,
    sparesCompliance_of_quiet rfl fun _ => ⟨rfl, Nat.le_refl _, rfl⟩, ?_,
    sparesCompliance_of_quiet rfl fun _ => ⟨rfl, Nat.le_refl _, rfl⟩,
    sparesCompliance_of_quiet rfl fun _ => ⟨rfl, Nat.le_refl _, rfl⟩, trivial⟩
  -- The first UPDATE finds a row without retention.
  intro i bucket key versionId retention _ _ r hr _
  have hnone : ∀ r ∈ objectWorld.db.objects, retentionModifiable (some r) true = true := by decide
  exact hnone r hr

/-- The second call checks first and updates last. -/
def checkedEarly : List (Turn Nat) :=
  [.thread 1, .thread 1, .thread 0, .thread 0, .thread 0, .thread 1]

/-- **A call that has checked early** replaces COMPLIANCE by GOVERNANCE. -/
theorem compliance_replaced :
    ¬ ∀ s, (store executablePlatform).Reachable s → ∀ ops : List Op,
      (∀ op ∈ ops, op.RetainsPutsOrDeletes) → ∀ schedule,
        ComplianceStands executablePlatform s ops schedule := by
  intro h
  have hstands := h objectWorld ⟨objectRun, rfl⟩ twoRetentions twoRetentions_ops checkedEarly
    checkedEarly.dropLast [.thread 1] [] rfl
  have hcompliant : ∃ r ∈ ((calls executablePlatform objectWorld twoRetentions).after
      (callPool executablePlatform objectWorld twoRetentions)
        checkedEarly.dropLast).state.db.objects,
      r.id = "01ARZ3NDEKTSV4RRFFQ69G5FA0" ∧ r.retentionMode = some .compliance ∧
        r.retainUntilDate = some 2000 := by decide
  have hreplaced : ∃ r ∈ ((calls executablePlatform objectWorld twoRetentions).after
      (callPool executablePlatform objectWorld twoRetentions)
        (checkedEarly.dropLast ++ [.thread 1])).state.db.objects,
      r.id = "01ARZ3NDEKTSV4RRFFQ69G5FA0" ∧ r.retentionMode = some .governance := by decide
  obtain ⟨r, hr, hid, hmode, hdate⟩ := hcompliant
  obtain ⟨r', hr', hid', hmode'⟩ := hreplaced
  have hstill := (hstands r hr 2000 hmode hdate r' hr' (hid'.trans hid.symm)).1
  rw [hmode'] at hstill
  cases hstill

end Strix
