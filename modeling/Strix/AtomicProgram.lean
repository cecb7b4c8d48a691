import Mathlib.Data.List.Basic

/-!
# Programs made of atomic steps

A program is a tree of atomic steps on a shared state: each step reads and
writes the state at once and the rest of the program continues with its
result, until the program ends with a value or fails with an error.  This is
the shape of an asynchronous function that awaits one database call or file
operation after another: what happens between two awaits belongs to the
caller alone, and other programs may run at every await.

`Prog.run` runs a program to its end with no other program in between.
-/

namespace AtomicProgram

/-- A program over the state `σ` that ends with an `α` or fails with an `ε`. -/
inductive Prog (σ ε α : Type) : Type 1
  | done (value : α)
  | fail (error : ε)
  | step {β : Type} (act : σ → β × σ) (next : β → Prog σ ε α)

namespace Prog

variable {σ ε α β : Type}

/-- Continue a program with another one; a failure ends both. -/
def bind : Prog σ ε α → (α → Prog σ ε β) → Prog σ ε β
  | done a, f => f a
  | fail e, _ => fail e
  | step act next, f => step act (fun b => bind (next b) f)

instance : Monad (Prog σ ε) where
  pure := done
  bind := bind

/-- Run a program alone.  A failure leaves the state as the steps before it
have made it. -/
def run : Prog σ ε α → σ → Except ε α × σ
  | done a, s => (.ok a, s)
  | fail e, s => (.error e, s)
  | step act next, s => run (next (act s).1) (act s).2

/-- One atomic step. -/
def perform (act : σ → β × σ) : Prog σ ε β := step act done

/-- One atomic step that only reads. -/
def observe (read : σ → β) : Prog σ ε β := perform (fun s => (read s, s))

/-- One atomic step that only writes. -/
def update (write : σ → σ) : Prog σ ε Unit := perform (fun s => ((), write s))

/-- Fail unless the condition holds. -/
def ensure (condition : Bool) (error : ε) : Prog σ ε Unit :=
  if condition then done () else fail error

/-- Take the value that is there, or fail. -/
def require (value : Option α) (error : ε) : Prog σ ε α :=
  match value with
  | some a => done a
  | none => fail error

/-- Continue with the value of a pure computation, or fail with its error. -/
def lift (result : Except ε α) : Prog σ ε α :=
  match result with
  | .ok a => done a
  | .error e => fail e

/-- Binding is associative. -/
theorem bind_assoc {γ : Type} (p : Prog σ ε α) (f : α → Prog σ ε β) (g : β → Prog σ ε γ) :
    (p >>= f) >>= g = p >>= fun a => f a >>= g := by
  induction p with
  | done a => rfl
  | fail e => rfl
  | step act next ih => exact congrArg (step act) (funext fun b => ih b)

theorem run_bind (p : Prog σ ε α) (f : α → Prog σ ε β) (s : σ) :
    (p >>= f).run s =
      match p.run s with
      | (.ok a, s') => (f a).run s'
      | (.error e, s') => (.error e, s') := by
  induction p generalizing s with
  | done a => rfl
  | fail e => rfl
  | step act next ih => exact ih _ _

@[simp] theorem run_done (a : α) (s : σ) :
    (done a : Prog σ ε α).run s = (.ok a, s) := rfl

@[simp] theorem run_pure (a : α) (s : σ) :
    (pure a : Prog σ ε α).run s = (.ok a, s) := rfl

@[simp] theorem run_fail (e : ε) (s : σ) :
    (fail e : Prog σ ε α).run s = (.error e, s) := rfl

@[simp] theorem run_perform (act : σ → β × σ) (s : σ) :
    (perform act : Prog σ ε β).run s = (.ok (act s).1, (act s).2) := rfl

@[simp] theorem run_observe (read : σ → β) (s : σ) :
    (observe read : Prog σ ε β).run s = (.ok (read s), s) := rfl

@[simp] theorem run_update (write : σ → σ) (s : σ) :
    (update write : Prog σ ε Unit).run s = (.ok (), write s) := rfl

@[simp] theorem run_ensure (condition : Bool) (e : ε) (s : σ) :
    (ensure condition e : Prog σ ε Unit).run s =
      (if condition then .ok () else .error e, s) := by
  cases condition <;> rfl

@[simp] theorem run_require (value : Option α) (e : ε) (s : σ) :
    (require value e : Prog σ ε α).run s =
      (match value with | some a => .ok a | none => .error e, s) := by
  cases value <;> rfl

@[simp] theorem run_lift (result : Except ε α) (s : σ) :
    (lift result : Prog σ ε α).run s = (result, s) := by
  cases result <;> rfl

section Continue

variable {f : α → Prog σ ε β} {s : σ}

@[simp] theorem run_done_bind (a : α) : (done a >>= f).run s = (f a).run s := rfl

@[simp] theorem run_fail_bind (e : ε) : (fail e >>= f).run s = (.error e, s) := rfl

@[simp] theorem run_perform_bind (act : σ → α × σ) :
    (perform act >>= f).run s = (f (act s).1).run (act s).2 := rfl

@[simp] theorem run_observe_bind (read : σ → α) :
    (observe read >>= f).run s = (f (read s)).run s := rfl

@[simp] theorem run_update_bind (write : σ → σ) (g : Unit → Prog σ ε β) :
    (update write >>= g).run s = (g ()).run (write s) := rfl

@[simp] theorem run_ensure_bind (condition : Bool) (e : ε) (g : Unit → Prog σ ε β) :
    (ensure condition e >>= g).run s =
      if condition then (g ()).run s else (.error e, s) := by
  cases condition <;> rfl

@[simp] theorem run_require_bind (value : Option α) (e : ε) :
    (require value e >>= f).run s =
      match value with
      | some a => (f a).run s
      | none => (.error e, s) := by
  cases value <;> rfl

@[simp] theorem run_lift_bind (result : Except ε α) :
    (lift result >>= f).run s =
      match result with
      | .ok a => (f a).run s
      | .error e => (.error e, s) := by
  cases result <;> rfl

end Continue

/-- The same steps, with the error of a failure translated. -/
def mapError {ε' : Type} (translate : ε → ε') : Prog σ ε α → Prog σ ε' α
  | done a => done a
  | fail e => fail (translate e)
  | step act next => step act fun b => mapError translate (next b)

theorem run_mapError {ε' : Type} (translate : ε → ε') (p : Prog σ ε α) (s : σ) :
    (p.mapError translate).run s = ((p.run s).1.mapError translate, (p.run s).2) := by
  induction p generalizing s with
  | done a => rfl
  | fail e => rfl
  | step act next ih => exact ih _ _

/-- A step on a part of a larger state. -/
def widened {τ : Type} (part : τ → σ) (put : σ → τ → τ) (act : σ → β × σ) (t : τ) : β × τ :=
  ((act (part t)).1, put (act (part t)).2 t)

/-- The same steps, on a part of a larger state. -/
def within {τ : Type} (part : τ → σ) (put : σ → τ → τ) : Prog σ ε α → Prog τ ε α
  | done a => done a
  | fail e => fail e
  | step act next => step (widened part put act) fun b => within part put (next b)

end Prog

end AtomicProgram
