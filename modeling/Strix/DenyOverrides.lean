import Mathlib.Data.List.Basic
import Mathlib.Data.List.Perm.Basic

/-!
# Deny overrides

A list of rules is read in order.  Each rule denies, allows or does not apply;
the first denial ends the reading, an allowance is remembered.  `run` is that
loop.  Its outcome is described without an order:

* `run_eq_deny_iff` — it denies exactly when some rule denies;
* `run_eq_allow_iff` — it allows exactly when some rule allows and none denies;
* `run_eq_none_iff` — it decides nothing exactly when no rule does;
* `run_eq_run_iff` — when two readings have the same outcome;
* `run_perm` — rules in another order have the same outcome.
-/

namespace DenyOverrides

/-- What a rule that applies decides. -/
inductive Effect
  | allow
  | deny
  deriving DecidableEq, Repr

variable {α : Type*}

/-- The loop over the rules, with the outcome so far. -/
def run (verdict : α → Option Effect) : Option Effect → List α → Option Effect
  | result, [] => result
  | result, rule :: rules =>
    match verdict rule with
    | some .deny => some .deny
    | some .allow => run verdict (some .allow) rules
    | none => run verdict result rules

/-- Some rule decides `effect`. -/
def Decides (verdict : α → Option Effect) (effect : Effect) (rules : List α) : Prop :=
  ∃ rule ∈ rules, verdict rule = some effect

variable (verdict : α → Option Effect)

instance (effect : Effect) (rules : List α) : Decidable (Decides verdict effect rules) :=
  inferInstanceAs (Decidable (∃ rule ∈ rules, verdict rule = some effect))

@[simp] theorem decides_nil (effect : Effect) : ¬Decides verdict effect [] := by
  simp [Decides]

@[simp] theorem decides_cons (effect : Effect) (rule : α) (rules : List α) :
    Decides verdict effect (rule :: rules) ↔
      verdict rule = some effect ∨ Decides verdict effect rules := by
  simp [Decides]

/-- Unless it starts from a denial, the loop denies exactly when some rule does. -/
theorem run_deny_iff {result : Option Effect} (hresult : result ≠ some .deny)
    (rules : List α) :
    run verdict result rules = some .deny ↔ Decides verdict .deny rules := by
  induction rules generalizing result with
  | nil => simpa [run] using hresult
  | cons rule rules ih =>
      rw [run, decides_cons]
      cases hrule : verdict rule with
      | none => simpa using ih hresult
      | some effect =>
          cases effect with
          | allow => simpa using ih (show some Effect.allow ≠ some Effect.deny by simp)
          | deny => simp

/-- Unless it starts from a denial, the loop allows exactly when it started from
an allowance or some rule allows, and no rule denies. -/
theorem run_allow_iff {result : Option Effect} (hresult : result ≠ some .deny)
    (rules : List α) :
    run verdict result rules = some .allow ↔
      (result = some .allow ∨ Decides verdict .allow rules) ∧
        ¬Decides verdict .deny rules := by
  induction rules generalizing result with
  | nil => simp [run]
  | cons rule rules ih =>
      rw [run, decides_cons, decides_cons]
      cases hrule : verdict rule with
      | none => simpa using ih hresult
      | some effect =>
          cases effect with
          | allow => simpa using ih (show some Effect.allow ≠ some Effect.deny by simp)
          | deny => simp

theorem run_eq_deny_iff (rules : List α) :
    run verdict none rules = some .deny ↔ Decides verdict .deny rules :=
  run_deny_iff verdict (by simp) rules

theorem run_eq_allow_iff (rules : List α) :
    run verdict none rules = some .allow ↔
      Decides verdict .allow rules ∧ ¬Decides verdict .deny rules := by
  rw [run_allow_iff verdict (by simp)]
  simp

/-- Where no rule applies, nothing is decided. -/
theorem run_eq_none {rules : List α} (hallow : ¬Decides verdict .allow rules)
    (hdeny : ¬Decides verdict .deny rules) : run verdict none rules = none := by
  cases hrun : run verdict none rules with
  | none => rfl
  | some effect =>
      cases effect with
      | allow => exact absurd ((run_eq_allow_iff verdict rules).mp hrun).1 hallow
      | deny => exact absurd ((run_eq_deny_iff verdict rules).mp hrun) hdeny

/-- Nothing is decided exactly where no rule decides anything. -/
theorem run_eq_none_iff (rules : List α) :
    run verdict none rules = none ↔
      ¬Decides verdict .allow rules ∧ ¬Decides verdict .deny rules := by
  constructor
  · intro h
    constructor
    · intro hallow
      by_cases hdeny : Decides verdict .deny rules
      · rw [(run_eq_deny_iff verdict rules).mpr hdeny] at h
        cases h
      · rw [(run_eq_allow_iff verdict rules).mpr ⟨hallow, hdeny⟩] at h
        cases h
    · intro hdeny
      rw [(run_eq_deny_iff verdict rules).mpr hdeny] at h
      cases h
  · intro h
    exact run_eq_none verdict h.1 h.2

/-- **When two readings agree**: on whether some rule denies and, if none does,
on whether some rule allows. -/
theorem run_eq_run_iff {β : Type*} (other : β → Option Effect) (rules : List α)
    (others : List β) :
    run verdict none rules = run other none others ↔
      (Decides verdict .deny rules ↔ Decides other .deny others) ∧
        (¬Decides verdict .deny rules →
          (Decides verdict .allow rules ↔ Decides other .allow others)) := by
  constructor
  · intro h
    have hdeny : Decides verdict .deny rules ↔ Decides other .deny others := by
      rw [← run_eq_deny_iff, ← run_eq_deny_iff, h]
    refine ⟨hdeny, fun hno => ?_⟩
    have hallow : run verdict none rules = some .allow ↔ run other none others = some .allow := by
      rw [h]
    rw [run_eq_allow_iff, run_eq_allow_iff] at hallow
    constructor
    · intro hsome
      exact (hallow.mp ⟨hsome, hno⟩).1
    · intro hsome
      exact (hallow.mpr ⟨hsome, fun hother => hno (hdeny.mpr hother)⟩).1
  · intro h
    obtain ⟨hdeny, hallow⟩ := h
    by_cases hno : Decides verdict .deny rules
    · rw [(run_eq_deny_iff verdict rules).mpr hno,
        (run_eq_deny_iff other others).mpr (hdeny.mp hno)]
    · have hother : ¬Decides other .deny others := fun h => hno (hdeny.mpr h)
      by_cases hsome : Decides verdict .allow rules
      · rw [(run_eq_allow_iff verdict rules).mpr ⟨hsome, hno⟩,
          (run_eq_allow_iff other others).mpr ⟨(hallow hno).mp hsome, hother⟩]
      · rw [run_eq_none verdict hsome hno,
          run_eq_none other (fun h => hsome ((hallow hno).mpr h)) hother]

/-- **The order of the rules does not matter.** -/
theorem run_perm {rules others : List α} (h : rules.Perm others) :
    run verdict none rules = run verdict none others := by
  have hsame (effect : Effect) :
      Decides verdict effect rules ↔ Decides verdict effect others :=
    exists_congr fun rule => and_congr_left fun _ => h.mem_iff
  exact (run_eq_run_iff verdict verdict rules others).mpr
    ⟨hsame .deny, fun _ => hsame .allow⟩

end DenyOverrides
