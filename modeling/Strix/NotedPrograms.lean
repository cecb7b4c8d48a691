import Strix.Interleaving

/-!
# Programs that leave notes

A noted state is a state with a list of notes beside it, newest first.  The notes record what
programs have done, and no program reads them.  `Prog.erase` forgets them: it makes a program
on noted states into one on the states alone.

* `erase_bind`, `erase_plain` and `erase_noting`: erasing goes through a program step by step,
  so a program with notes is seen to be the plain one by simplification;
* `erased_after`: a pool of programs whose steps do not look at the notes goes, under every
  schedule, through the states that the erased programs go through.
-/

namespace AtomicProgram

open MachineRuns

/-- A state with notes beside it. -/
structure Noted (σ γ : Type) where
  state : σ
  notes : List γ := []

variable {σ γ ε α β η : Type}

/-- Something else happens to the state. -/
def Noted.happening (happens : η → σ → σ) (event : η) (n : Noted σ γ) : Noted σ γ :=
  { n with state := happens event n.state }

/-- A step on the state that leaves a note of the state before it. -/
def notedStep (note : σ → γ) (act : σ → β × σ) (n : Noted σ γ) : β × Noted σ γ :=
  ((act n.state).1, { state := (act n.state).2, notes := note n.state :: n.notes })

/-- A step on the state that leaves no note. -/
def plainStep (act : σ → β × σ) (n : Noted σ γ) : β × Noted σ γ :=
  ((act n.state).1, { n with state := (act n.state).2 })

/-- A step does not look at the notes. -/
def Blind ⦃β : Type⦄ (act : Noted σ γ → β × Noted σ γ) : Prop :=
  ∀ n, (act n).1 = (act { state := n.state }).1 ∧
    (act n).2.state = (act { state := n.state }).2.state

namespace Prog

/-- A program that leaves no notes. -/
def plain : Prog σ ε α → Prog (Noted σ γ) ε α
  | done a => done a
  | fail e => fail e
  | step act next => step (plainStep act) fun b => plain (next b)

/-- A program whose first step leaves a note. -/
def noting (note : σ → γ) : Prog σ ε α → Prog (Noted σ γ) ε α
  | step act next => step (notedStep note act) fun b => plain (next b)
  | p => plain p

/-- The program without its notes. -/
def erase : Prog (Noted σ γ) ε α → Prog σ ε α
  | done a => done a
  | fail e => fail e
  | step act next =>
      step (fun s => ((act { state := s }).1, (act { state := s }).2.state))
        fun b => erase (next b)

/-- A program whose failure is a value of it. -/
def caught {ε' : Type} : Prog σ ε α → Prog σ ε' (Except ε α)
  | done a => done (.ok a)
  | fail e => done (.error e)
  | step act next => step act fun b => caught (next b)

theorem run_plain (p : Prog σ ε α) (n : Noted σ γ) :
    (plain p).run n = ((p.run n.state).1, { n with state := (p.run n.state).2 }) := by
  induction p generalizing n with
  | done a => rfl
  | fail e => rfl
  | step act next ih => exact ih _ _

theorem run_noting_perform (note : σ → γ) (act : σ → β × σ) (n : Noted σ γ) :
    (noting note (perform act) : Prog (Noted σ γ) ε β).run n =
      (.ok (act n.state).1, { state := (act n.state).2, notes := note n.state :: n.notes }) :=
  rfl

section Only

variable {K : ∀ ⦃β : Type⦄, (Noted σ γ → β × Noted σ γ) → Prop}
  {K' : ∀ ⦃β : Type⦄, (σ → β × σ) → Prop}

/-- The steps of a program without notes. -/
theorem Only.plain {p : Prog σ ε α} (hp : Only K' p)
    (h : ∀ ⦃β : Type⦄ (act : σ → β × σ), K' act → K (plainStep act)) :
    Only K (plain p : Prog (Noted σ γ) ε α) := by
  induction p with
  | done a => trivial
  | fail e => trivial
  | step act next ih => exact ⟨h act hp.1, fun b => ih b (hp.2 b)⟩

theorem Only.caught {ε' : Type} {p : Prog σ ε α} (hp : Only K' p) :
    Only K' (caught p : Prog σ ε' (Except ε α)) := by
  induction p with
  | done a => trivial
  | fail e => trivial
  | step act next ih => exact ⟨hp.1, fun b => ih b (hp.2 b)⟩

/-- Every step of the program without notes is blind. -/
theorem blind_plain (p : Prog σ ε α) : Only Blind (plain p : Prog (Noted σ γ) ε α) := by
  induction p with
  | done a => trivial
  | fail e => trivial
  | step act next ih => exact ⟨fun n => ⟨rfl, rfl⟩, ih⟩

theorem blind_noting (note : σ → γ) (p : Prog σ ε α) : Only Blind (noting note p) := by
  cases p with
  | done a => trivial
  | fail e => trivial
  | step act next => exact ⟨fun n => ⟨rfl, rfl⟩, fun b => blind_plain (next b)⟩

end Only

/-! ## Erasing -/

@[simp] theorem erase_done (a : α) : erase (done a : Prog (Noted σ γ) ε α) = done a := rfl

@[simp] theorem erase_pure (a : α) : erase (pure a : Prog (Noted σ γ) ε α) = pure a := rfl

@[simp] theorem erase_fail (e : ε) : erase (fail e : Prog (Noted σ γ) ε α) = fail e := rfl

@[simp] theorem erase_ensure (condition : Bool) (e : ε) :
    erase (ensure condition e : Prog (Noted σ γ) ε Unit) = ensure condition e := by
  cases condition <;> rfl

@[simp] theorem erase_require (value : Option α) (e : ε) :
    erase (require value e : Prog (Noted σ γ) ε α) = require value e := by
  cases value <;> rfl

@[simp] theorem erase_lift (result : Except ε α) :
    erase (lift result : Prog (Noted σ γ) ε α) = lift result := by
  cases result <;> rfl

@[simp] theorem erase_plain (p : Prog σ ε α) :
    erase (plain p : Prog (Noted σ γ) ε α) = p := by
  induction p with
  | done a => rfl
  | fail e => rfl
  | step act next ih => exact congrArg (step act) (funext ih)

@[simp] theorem erase_noting (note : σ → γ) (p : Prog σ ε α) : erase (noting note p) = p := by
  cases p with
  | done a => rfl
  | fail e => rfl
  | step act next => exact congrArg (step act) (funext fun b => erase_plain (next b))

@[simp] theorem erase_caught {ε' : Type} (p : Prog (Noted σ γ) ε α) :
    erase (caught p : Prog (Noted σ γ) ε' (Except ε α)) = caught (erase p) := by
  induction p with
  | done a => rfl
  | fail e => rfl
  | step act next ih => exact congrArg (step _) (funext ih)

@[simp] theorem erase_bind (p : Prog (Noted σ γ) ε α) (f : α → Prog (Noted σ γ) ε β) :
    erase (p >>= f) = erase p >>= fun a => erase (f a) := by
  induction p with
  | done a => rfl
  | fail e => rfl
  | step act next ih => exact congrArg (step _) (funext ih)

/-- A step that does not look at the notes goes on as the erased one. -/
theorem erase_advance {p : Prog (Noted σ γ) ε α} (hp : Only Blind p) (n : Noted σ γ) :
    (p.erase.advance n.state).1 = (p.advance n).1.erase ∧
      (p.erase.advance n.state).2 = (p.advance n).2.state := by
  cases p with
  | done a => exact ⟨rfl, rfl⟩
  | fail e => exact ⟨rfl, rfl⟩
  | step act next =>
      obtain ⟨hvalue, hstate⟩ := hp.1 n
      exact ⟨congrArg (fun b => erase (next b)) hvalue.symm, hstate.symm⟩

end Prog

/-- The pool without the notes. -/
def Pool.erase (c : Pool (Noted σ γ) ε α) : Pool σ ε α where
  state := c.state.state
  threads := c.threads.map Prog.erase

/-- One turn. -/
theorem erase_turn (happens : η → σ → σ) {c : Pool (Noted σ γ) ε α}
    (h : ∀ p ∈ c.threads, p.Only Blind) (turn : Turn η) :
    (c.turn (Noted.happening happens) turn).erase = c.erase.turn happens turn ∧
      ∀ p ∈ (c.turn (Noted.happening happens) turn).threads, p.Only Blind := by
  cases turn with
  | world event => exact ⟨rfl, h⟩
  | thread i =>
      cases hi : c.threads[i]? with
      | none =>
          have hsame : c.turn (Noted.happening happens) (.thread i) = c := by
            simp [Pool.turn, hi]
          have herased : c.erase.turn happens (.thread i) = c.erase := by
            simp [Pool.turn, Pool.erase, hi]
          rw [hsame, herased]
          exact ⟨rfl, h⟩
      | some p =>
          have hblind := h p (List.mem_of_getElem? hi)
          obtain ⟨hprog, hstate⟩ := Prog.erase_advance hblind c.state
          have herased : c.erase.threads[i]? = some p.erase := by simp [Pool.erase, hi]
          refine ⟨?_, ?_⟩
          · simp only [Pool.turn, hi, herased]
            rw [Pool.erase, Pool.erase]
            simp only [List.map_set, hprog, hstate]
          · intro q hq
            simp only [Pool.turn, hi] at hq
            rcases List.mem_or_eq_of_mem_set hq with hq | rfl
            · exact h q hq
            · cases p with
              | done a => exact hblind
              | fail e => exact hblind
              | step act next => exact hblind.2 _

/-- **The states under every schedule** are those of the erased programs. -/
theorem erased_after (happens : η → σ → σ) {c : Pool (Noted σ γ) ε α}
    (h : ∀ p ∈ c.threads, p.Only Blind) (schedule : List (Turn η)) :
    ((pool (Noted.happening happens) c).after c schedule).erase =
      (pool happens c.erase).after c.erase schedule := by
  have hruns : ∀ d : Pool (Noted σ γ) ε α, (∀ p ∈ d.threads, p.Only Blind) →
      ((pool (Noted.happening happens) c).after d schedule).erase =
        (pool happens c.erase).after d.erase schedule := by
    induction schedule with
    | nil => exact fun _ _ => rfl
    | cons turn rest ih =>
        intro d hd
        obtain ⟨hturn, hnext⟩ := erase_turn happens hd turn
        calc
          _ = (pool happens c.erase).after (d.turn (Noted.happening happens) turn).erase rest :=
            ih _ hnext
          _ = (pool happens c.erase).after (d.erase.turn happens turn) rest := by rw [hturn]
  exact hruns c h

end AtomicProgram
