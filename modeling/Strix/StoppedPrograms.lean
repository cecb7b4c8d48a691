import Strix.AtomicProgram

/-!
# Programs that are stopped

A process may stop after any atomic step of its program; what the steps have done stays,
and the rest is lost.

* `stopped_bind`: where a program is followed by another, it is stopped in the one or in
  the other.
-/

namespace AtomicProgram

namespace Prog

variable {σ ε α β : Type}

/-- The state after at most `n` steps of a program that runs alone. -/
def stopped : Nat → Prog σ ε α → σ → σ
  | n + 1, step act next, s => stopped n (next (act s).1) (act s).2
  | _, _, s => s

/-- The number of steps of a program that runs alone. -/
def steps : Prog σ ε α → σ → Nat
  | step act next, s => steps (next (act s).1) (act s).2 + 1
  | _, _ => 0

@[simp] theorem stopped_zero (p : Prog σ ε α) (s : σ) : p.stopped 0 s = s := by
  cases p <;> rfl

@[simp] theorem stopped_done (n : Nat) (a : α) (s : σ) :
    (done a : Prog σ ε α).stopped n s = s := by
  cases n <;> rfl

@[simp] theorem stopped_fail (n : Nat) (e : ε) (s : σ) :
    (fail e : Prog σ ε α).stopped n s = s := by
  cases n <;> rfl

@[simp] theorem stopped_step (n : Nat) (act : σ → β × σ) (next : β → Prog σ ε α) (s : σ) :
    (step act next).stopped (n + 1) s = (next (act s).1).stopped n (act s).2 := rfl

/-- **Stopped in the first of two programs, or in the second.** -/
theorem stopped_bind (p : Prog σ ε α) (f : α → Prog σ ε β) (n : Nat) (s : σ) :
    (p >>= f).stopped n s =
      if n ≤ p.steps s then p.stopped n s
      else
        match p.run s with
        | (.ok a, s') => (f a).stopped (n - p.steps s) s'
        | (.error _, s') => s' := by
  induction p generalizing n s with
  | done a =>
      cases n with
      | zero => rw [if_pos (Nat.zero_le _), stopped_zero, stopped_zero]
      | succ n => rfl
  | fail e =>
      cases n with
      | zero => rw [if_pos (Nat.zero_le _), stopped_zero, stopped_zero]
      | succ n => rfl
  | step act next ih =>
      cases n with
      | zero => rw [if_pos (Nat.zero_le _), stopped_zero, stopped_zero]
      | succ n =>
          have hrest := ih (act s).1 n (act s).2
          simp only [steps, Nat.add_le_add_iff_right, Nat.reduceSubDiff]
          exact hrest

end Prog

end AtomicProgram
