import Strix.AtomicProgram

/-!
# How programs of atomic steps can fail

`FailsOnly E p` says that every failure of the program is of a kind.  It is built up along
the program, one rule for each way to compose, and says what a run can fail with.

* `FailsOnly.bind`: the rule of composition;
* `FailsOnly.run_error`: a run that fails does so with an error of the kind.
-/

namespace AtomicProgram

namespace Prog

variable {σ ε α β : Type}

/-- **All failures of a program are of one kind.** -/
def FailsOnly (E : ε → Prop) : Prog σ ε α → Prop
  | done _ => True
  | fail e => E e
  | step _ next => ∀ b, FailsOnly E (next b)

variable {E : ε → Prop}

theorem failsOnly_perform (act : σ → β × σ) : FailsOnly E (perform act : Prog σ ε β) :=
  fun _ => trivial

theorem failsOnly_pure (a : α) : FailsOnly E (pure a : Prog σ ε α) := trivial

theorem failsOnly_fail {e : ε} (h : E e) : FailsOnly E (fail e : Prog σ ε α) := h

theorem failsOnly_ensure (condition : Bool) {e : ε} (h : E e) :
    FailsOnly E (ensure condition e : Prog σ ε Unit) := by
  cases condition with
  | true => trivial
  | false => exact h

theorem failsOnly_require (value : Option α) {e : ε} (h : E e) :
    FailsOnly E (require value e : Prog σ ε α) := by
  cases value with
  | some a => trivial
  | none => exact h

theorem failsOnly_lift {result : Except ε α} (h : ∀ e, result = .error e → E e) :
    FailsOnly E (lift result : Prog σ ε α) := by
  cases result with
  | ok a => trivial
  | error e => exact h e rfl

/-- A composed program fails as its parts do. -/
theorem FailsOnly.bind {p : Prog σ ε α} {f : α → Prog σ ε β} (hp : FailsOnly E p)
    (hf : ∀ a, FailsOnly E (f a)) : FailsOnly E (p >>= f) := by
  induction p with
  | done a => exact hf a
  | fail e => exact hp
  | step act next ih => exact fun b => ih b (hp b)

/-- **A run fails with an error of the kind.** -/
theorem FailsOnly.run_error {p : Prog σ ε α} (hp : FailsOnly E p) {s s' : σ} {e : ε}
    (h : p.run s = (.error e, s')) : E e := by
  induction p generalizing s with
  | done a => cases h
  | fail e' =>
      cases h
      exact hp
  | step act next ih => exact ih _ (hp _) h

end Prog

end AtomicProgram
