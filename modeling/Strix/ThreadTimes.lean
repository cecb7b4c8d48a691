import Mathlib.Data.Nat.Init
import Strix.ThreadSteps

/-!
# Threads at their times

A course is a pool with a schedule.  It has a state at every time: before the
first turn, after one turn, after two.  A thread waits with its next step until
a turn of its own and goes on after it.

* `Course.kept` and `Course.arises`: what holds from one time to another, and
  what has come to hold in between;
* `Course.Goes`: a thread goes on with one program and comes to another;
  `Goes.perform` and its companions take the way from one to the other apart,
  step by step, and say at which time each step was taken.
-/

namespace AtomicProgram

open MachineRuns Prog

/-- A pool and the turns that are taken in it. -/
structure Course (σ ε α η : Type) where
  happens : η → σ → σ
  start : Pool σ ε α
  schedule : List (Turn η)

namespace Course

variable {σ ε α β η : Type} (C : Course σ ε α η)

/-- The pool after the first `k` turns. -/
def poolAt (k : Nat) : Pool σ ε α :=
  (pool C.happens C.start).after C.start (C.schedule.take k)

def stateAt (k : Nat) : σ := (C.poolAt k).state

/-- What thread `i` goes on with after the first `k` turns. -/
def threadAt (i k : Nat) : Option (Prog σ ε α) := (C.poolAt k).threads[i]?

/-- The turn at time `k` is thread `i`'s. -/
def TurnOf (i k : Nat) : Prop := C.schedule[k]? = some (.thread i)

/-- Thread `i` has no turn from time `k` on until time `m`. -/
def Idle (i k m : Nat) : Prop := ∀ e, k ≤ e → e < m → ¬ C.TurnOf i e

/-- **At time `k` thread `i` runs a step** and goes on. -/
def Runs (i k : Nat) (p : Prog σ ε β) : Prop := C.TurnOf i k ∧ (C.poolAt k).Before i p

/-- Thread `i` runs no step from time `k` on until time `m`. -/
def Rests (i k m : Nat) : Prop :=
  ∀ e, k ≤ e → e < m → ∀ ⦃β : Type⦄ (act : σ → β × σ), ¬ C.Runs i e (perform act : Prog σ ε β)

variable {C} {i k m : Nat}

@[simp] theorem poolAt_zero : C.poolAt 0 = C.start := rfl

/-- The last pool is the one after the schedule. -/
theorem poolAt_length : C.poolAt C.schedule.length =
    (pool C.happens C.start).after C.start C.schedule := by
  rw [poolAt, List.take_length]

theorem poolAt_succ {turn : Turn η} (h : C.schedule[k]? = some turn) :
    C.poolAt (k + 1) = (C.poolAt k).turn C.happens turn := by
  rw [poolAt, List.take_add_one, h, Machine.after_append]
  rfl

theorem poolAt_succ_of_none (h : C.schedule[k]? = none) : C.poolAt (k + 1) = C.poolAt k := by
  rw [poolAt, List.take_add_one, h, Option.toList_none, List.append_nil]
  rfl

/-- **What a turn can do**: nothing, something to the state, or the next step of a thread. -/
theorem stateAt_succ_cases (C : Course σ ε α η) (k : Nat) :
    C.stateAt (k + 1) = C.stateAt k ∨
      (∃ event, C.stateAt (k + 1) = C.happens event (C.stateAt k)) ∨
      ∃ (i : Nat) (β : Type) (act : σ → β × σ),
        C.Runs i k (perform act : Prog σ ε β) ∧ C.stateAt (k + 1) = (act (C.stateAt k)).2 := by
  cases hturn : C.schedule[k]? with
  | none => exact Or.inl (congrArg Pool.state (poolAt_succ_of_none hturn))
  | some turn =>
      cases turn with
      | world event => exact Or.inr (Or.inl ⟨event, congrArg Pool.state (poolAt_succ hturn)⟩)
      | thread i =>
          rcases turn_thread_cases C.happens (C.poolAt k) i with hsame | ⟨β, act, next, hp, hnext⟩
          · exact Or.inl (congrArg Pool.state ((poolAt_succ hturn).trans hsame))
          · refine Or.inr (Or.inr ⟨i, β, act, ⟨hturn, next, hp⟩, ?_⟩)
            exact congrArg Pool.state ((poolAt_succ hturn).trans hnext)

/-- The state after a step. -/
theorem Runs.stateAt {act : σ → β × σ} (h : C.Runs i k (perform act : Prog σ ε β)) :
    C.stateAt (k + 1) = (act (C.stateAt k)).2 := by
  obtain ⟨hturn, next, hp⟩ := h
  exact congrArg Pool.state ((poolAt_succ hturn).trans (turn_step hp))

/-! ## Threads -/

theorem threadAt_succ_own (h : C.TurnOf i k) :
    C.threadAt i (k + 1) = (C.threadAt i k).map fun p => (p.advance (C.stateAt k)).1 := by
  rw [threadAt, poolAt_succ h, Pool.threads_turn_thread]
  rfl

theorem threadAt_succ_other (h : ¬ C.TurnOf i k) : C.threadAt i (k + 1) = C.threadAt i k := by
  cases hturn : C.schedule[k]? with
  | none => rw [threadAt, poolAt_succ_of_none hturn, threadAt]
  | some turn =>
      rw [threadAt, poolAt_succ hturn]
      cases turn with
      | world event => rfl
      | thread j =>
          refine Pool.threads_turn_other _ ?_
          intro hij
          subst hij
          exact h hturn

/-- A thread that is there at some time was there before. -/
theorem threadAt_before {q : Prog σ ε α} (hle : k ≤ m) (h : C.threadAt i m = some q) :
    ∃ p, C.threadAt i k = some p := by
  induction m, hle using Nat.le_induction generalizing q with
  | base => exact ⟨q, h⟩
  | succ m hle ih =>
      by_cases hturn : C.TurnOf i m
      · rw [threadAt_succ_own hturn] at h
        obtain ⟨r, hr, -⟩ := Option.map_eq_some_iff.mp h
        exact ih hr
      · rw [threadAt_succ_other hturn] at h
        exact ih h

/-- A thread without a turn waits. -/
theorem Idle.threadAt (h : C.Idle i k m) (hle : k ≤ m) : C.threadAt i m = C.threadAt i k := by
  induction m, hle using Nat.le_induction with
  | base => rfl
  | succ m hle ih =>
      rw [threadAt_succ_other (h m hle (Nat.lt_succ_self m))]
      exact ih fun e hke hem => h e hke (Nat.lt_succ_of_lt hem)

theorem Idle.rests (h : C.Idle i k m) : C.Rests i k m :=
  fun e hke hem _ _ hruns => h e hke hem hruns.1

/-- **The first turn** of a thread between two times, if there is one. -/
theorem idle_or_turn (hle : k ≤ m) :
    C.Idle i k m ∨ ∃ t, k ≤ t ∧ t < m ∧ C.Idle i k t ∧ C.TurnOf i t := by
  induction m, hle using Nat.le_induction with
  | base => exact Or.inl fun e hke hem => absurd hem (Nat.not_lt.mpr hke)
  | succ m hle ih =>
      rcases ih with hidle | ⟨t, hkt, htm, hidle, hturn⟩
      · by_cases hturn : C.TurnOf i m
        · exact Or.inr ⟨m, hle, Nat.lt_succ_self m, hidle, hturn⟩
        · refine Or.inl ?_
          intro e hke hem
          rcases Nat.lt_succ_iff_lt_or_eq.mp hem with hlt | rfl
          · exact hidle e hke hlt
          · exact hturn
      · exact Or.inr ⟨t, hkt, Nat.lt_succ_of_lt htm, hidle, hturn⟩

/-- The program has ended, with a value or an error. -/
def Ended : Prog σ ε α → Prop
  | .step _ _ => False
  | _ => True

theorem Ended.advance {p : Prog σ ε α} (h : Ended p) (s : σ) : (p.advance s).1 = p := by
  cases p with
  | done a => rfl
  | fail e => rfl
  | step act next => exact h.elim

/-- A thread that has ended stays as it is. -/
theorem threadAt_ended {p : Prog σ ε α} (hp : C.threadAt i k = some p) (hended : Ended p)
    (hle : k ≤ m) : C.threadAt i m = some p := by
  induction m, hle using Nat.le_induction with
  | base => exact hp
  | succ m hle ih =>
      by_cases hturn : C.TurnOf i m
      · rw [threadAt_succ_own hturn, ih, Option.map_some, hended.advance]
      · rw [threadAt_succ_other hturn, ih]

theorem rests_ended {p : Prog σ ε α} (hp : C.threadAt i k = some p) (hended : Ended p) (m : Nat) :
    C.Rests i k m := by
  intro e hke hem β act hruns
  obtain ⟨-, next, hnext⟩ := hruns
  have hsame := (threadAt_ended hp hended hke).symm.trans hnext
  exact (Option.some.inj hsame ▸ hended : Ended (perform act >>= next))

/-- What is left of a program takes steps of the kind of all its steps. -/
theorem only_threadAt {K : ∀ ⦃β : Type⦄, (σ → β × σ) → Prop} {p q : Prog σ ε α}
    (hp : C.threadAt i k = some p) (honly : Only K p) (hle : k ≤ m)
    (hq : C.threadAt i m = some q) : Only K q := by
  induction m, hle using Nat.le_induction generalizing q with
  | base =>
      rw [hp, Option.some.injEq] at hq
      exact hq ▸ honly
  | succ m hle ih =>
      by_cases hturn : C.TurnOf i m
      · rw [threadAt_succ_own hturn] at hq
        obtain ⟨r, hr, rfl⟩ := Option.map_eq_some_iff.mp hq
        exact (ih hr).feed [C.stateAt m]
      · rw [threadAt_succ_other hturn] at hq
        exact ih hq

/-- A step of a thread is of the kind of all its steps. -/
theorem Runs.kind {K : ∀ ⦃β : Type⦄, (σ → β × σ) → Prop} {p : Prog σ ε α} {act : σ → β × σ}
    (h : C.Runs i m (perform act : Prog σ ε β)) (hp : C.threadAt i k = some p)
    (honly : Only K p) (hle : k ≤ m) : K act := by
  obtain ⟨-, next, hnext⟩ := h
  exact (only_threadAt hp honly hle hnext).1

/-! ## From one time to another -/

/-- **What every turn between two times keeps** still holds at the later one. -/
theorem kept {I : σ → Prop} (hworld : ∀ event s, I s → I (C.happens event s)) (hle : k ≤ m)
    (hthreads : ∀ e, k ≤ e → e < m → ∀ (i : Nat) ⦃β : Type⦄ (act : σ → β × σ),
      C.Runs i e (perform act : Prog σ ε β) → I (C.stateAt e) → I (act (C.stateAt e)).2)
    (hstart : I (C.stateAt k)) : I (C.stateAt m) := by
  induction m, hle using Nat.le_induction with
  | base => exact hstart
  | succ m hle ih =>
      have hm := ih fun e hke hem => hthreads e hke (Nat.lt_succ_of_lt hem)
      rcases C.stateAt_succ_cases m with hsame | ⟨event, hevent⟩ | ⟨i, β, act, hruns, hnext⟩
      · rw [hsame]
        exact hm
      · rw [hevent]
        exact hworld event _ hm
      · rw [hnext]
        exact hthreads m hle (Nat.lt_succ_self m) i act hruns hm

/-- **What was not there at first** has come with a step of a thread. -/
theorem arises {I : σ → Prop} (hworld : ∀ event s, I (C.happens event s) → I s)
    (hstart : ¬ I (C.stateAt 0)) (hm : I (C.stateAt m)) :
    ∃ e, e < m ∧ ∃ (i : Nat) (β : Type) (act : σ → β × σ),
      C.Runs i e (perform act : Prog σ ε β) ∧ ¬ I (C.stateAt e) ∧ I (act (C.stateAt e)).2 := by
  induction m with
  | zero => exact absurd hm hstart
  | succ m ih =>
      by_cases hbefore : I (C.stateAt m)
      · obtain ⟨e, hem, hstep⟩ := ih hbefore
        exact ⟨e, Nat.lt_succ_of_lt hem, hstep⟩
      · rcases C.stateAt_succ_cases m with hsame | ⟨event, hevent⟩ | ⟨i, β, act, hruns, hnext⟩
        · exact absurd (hsame ▸ hm) hbefore
        · exact absurd (hworld event _ (hevent ▸ hm)) hbefore
        · exact ⟨m, Nat.lt_succ_self m, i, β, act, hruns, hbefore, hnext ▸ hm⟩

/-! ## From one program to another -/

/-- The program has a value, or goes on with a step that is not of the kind `K`. -/
def Beyond (K : ∀ ⦃β : Type⦄, (σ → β × σ) → Prop) : Prog σ ε α → Prop
  | .done _ => True
  | .fail _ => False
  | .step act _ => ¬ K act

/-- **Thread `i` goes on with `p` at time `k` and comes to `q` at time `m`**, beyond the
steps of the kind `K`. -/
structure Goes (C : Course σ ε α η) (K : ∀ ⦃β : Type⦄, (σ → β × σ) → Prop) (i k : Nat)
    (p : Prog σ ε α) (m : Nat) (q : Prog σ ε α) : Prop where
  leaves : C.threadAt i k = some p
  le : k ≤ m
  comes : C.threadAt i m = some q
  beyond : Beyond K q

section Goes

variable {K : ∀ ⦃β : Type⦄, (σ → β × σ) → Prop} {q : Prog σ ε α}

/-- It has taken the next step, in its first turn. -/
theorem Goes.perform {act : σ → β × σ} {f : β → Prog σ ε α} (hact : K act)
    (h : C.Goes K i k (Prog.perform act >>= f) m q) :
    ∃ t, k ≤ t ∧ t < m ∧ C.Idle i k t ∧ C.Runs i t (Prog.perform act : Prog σ ε β) ∧
      C.Goes K i (t + 1) (f (act (C.stateAt t)).1) m q := by
  rcases idle_or_turn (C := C) (i := i) h.le with hidle | ⟨t, hkt, htm, hidle, hturn⟩
  · have hsame := h.comes.symm.trans ((hidle.threadAt h.le).trans h.leaves)
    obtain rfl : q = Prog.perform act >>= f := Option.some.inj hsame
    exact absurd hact h.beyond
  · have hthread := (hidle.threadAt hkt).trans h.leaves
    refine ⟨t, hkt, htm, hidle, ⟨hturn, f, hthread⟩, ?_, htm, h.comes, h.beyond⟩
    rw [threadAt_succ_own hturn, hthread]
    rfl

theorem Goes.not_fail {e : ε} (h : C.Goes K i k (fail e) m q) : False := by
  have hsame := h.comes.symm.trans (threadAt_ended h.leaves trivial h.le)
  obtain rfl : q = fail e := Option.some.inj hsame
  exact h.beyond

theorem Goes.ensure {condition : Bool} {e : ε} {f : Unit → Prog σ ε α}
    (h : C.Goes K i k (Prog.ensure condition e >>= f) m q) :
    condition = true ∧ C.Goes K i k (f ()) m q := by
  cases condition with
  | true => exact ⟨rfl, h⟩
  | false => exact h.not_fail.elim

theorem Goes.require {value : Option β} {e : ε} {f : β → Prog σ ε α}
    (h : C.Goes K i k (Prog.require value e >>= f) m q) :
    ∃ b, value = some b ∧ C.Goes K i k (f b) m q := by
  cases value with
  | some b => exact ⟨b, rfl, h⟩
  | none => exact h.not_fail.elim

theorem Goes.lift {result : Except ε β} {f : β → Prog σ ε α}
    (h : C.Goes K i k (Prog.lift result >>= f) m q) :
    ∃ b, result = .ok b ∧ C.Goes K i k (f b) m q := by
  cases result with
  | ok b => exact ⟨b, rfl, h⟩
  | error e => exact h.not_fail.elim

/-- A program before another has ended, in the states of some turns. -/
theorem Goes.passes {p : Prog σ ε β} {f : β → Prog σ ε α} (hp : Only K p)
    (h : C.Goes K i k (p >>= f) m q) :
    ∃ t b states, k ≤ t ∧ p.Ends states b ∧ C.Goes K i t (f b) m q := by
  induction p generalizing k with
  | done b => exact ⟨k, b, [], Nat.le_refl k, rfl, h⟩
  | fail e => exact h.not_fail.elim
  | step act next ih =>
      obtain ⟨t, hkt, -, -, -, hrest⟩ := Goes.perform (f := fun b => next b >>= f) hp.1 h
      obtain ⟨t', b, states, htt', hends, hgoes⟩ := ih _ (hp.2 _) hrest
      exact ⟨t', b, C.stateAt t :: states, by omega, hends, hgoes⟩

/-- A last step that a thread has come to is the one that it waits with. -/
theorem Goes.last {act : σ → β × σ} {next : β → Prog σ ε α}
    (h : C.Goes K i k (step act next) m q) (hnext : ∀ b, Ended (next b)) (hq : ¬ Ended q) :
    q = step act next ∧ C.Idle i k m := by
  rcases idle_or_turn (C := C) (i := i) h.le with hidle | ⟨t, hkt, htm, hidle, hturn⟩
  · have hsame := h.comes.symm.trans ((hidle.threadAt h.le).trans h.leaves)
    exact ⟨Option.some.inj hsame, hidle⟩
  · have hthread : C.threadAt i (t + 1) = some (next (act (C.stateAt t)).1) := by
      rw [threadAt_succ_own hturn, hidle.threadAt hkt, h.leaves]
      rfl
    have hsame := h.comes.symm.trans (threadAt_ended hthread (hnext _) htm)
    exact absurd (Option.some.inj hsame ▸ hnext _) hq

end Goes

end Course

end AtomicProgram
