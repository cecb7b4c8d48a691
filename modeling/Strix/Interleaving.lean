import Mathlib.Data.List.Forall2
import Strix.AtomicProgram
import Strix.MachineRuns

/-!
# Programs that run side by side

A pool runs programs on one state.  A turn gives one of them its next atomic
step, or lets something else happen to the state; a schedule is a list of turns,
and every schedule is a run of the machine `pool`.

To reason about all schedules at once, each program is put in a stage, and an
automaton says which atomic steps a program may take in a stage and in which
stage the result leaves it.  `Prog.Staged` says that a program keeps to the
automaton, and what it looks like in each stage.

* `Only.staged_bind` and `staged_perform_bind`: programs are checked piece by
  piece;
* `staged_next` and `staged_after`: an invariant between stages and state that
  every step of the automaton keeps holds throughout every schedule.
-/

namespace AtomicProgram

open MachineRuns

/-! ## Pools and schedules -/

/-- Programs that share a state. -/
structure Pool (σ ε α : Type) where
  state : σ
  threads : List (Prog σ ε α)

/-- Whose turn it is: a program's, or the world's. -/
inductive Turn (η : Type)
  | thread (i : Nat)
  | world (event : η)

variable {σ ε α β η : Type}

/-- The next atomic step of a program.  One that has ended stays as it is. -/
def Prog.advance : Prog σ ε α → σ → Prog σ ε α × σ
  | .step act next, s => (next (act s).1, (act s).2)
  | p, s => (p, s)

/-- One turn. -/
def Pool.turn (happens : η → σ → σ) (c : Pool σ ε α) : Turn η → Pool σ ε α
  | .thread i =>
    match c.threads[i]? with
    | none => c
    | some p =>
      { state := (p.advance c.state).2
        threads := c.threads.set i (p.advance c.state).1 }
  | .world event => { c with state := happens event c.state }

/-- The machine whose runs are the schedules. -/
def pool (happens : η → σ → σ) (start : Pool σ ε α) : Machine (Pool σ ε α) (Turn η) Unit where
  init := start
  step c t := ((), c.turn happens t)

/-- The program of a thread has ended with a value. -/
def Pool.Returned (c : Pool σ ε α) (i : Nat) (a : α) : Prop :=
  c.threads[i]? = some (.done a)

/-- A thread goes on with `p`. -/
def Pool.Before (c : Pool σ ε α) (i : Nat) (p : Prog σ ε β) : Prop :=
  ∃ next : β → Prog σ ε α, c.threads[i]? = some (p >>= next)

/-- The program has ended with a value. -/
def Prog.hasReturned : Prog σ ε α → Bool
  | .done _ => true
  | _ => false

theorem Pool.exists_returned {c : Pool σ ε α} {i : Nat}
    (h : c.threads[i]?.any Prog.hasReturned = true) : ∃ a, c.Returned i a := by
  cases hp : c.threads[i]? with
  | none => simp [hp] at h
  | some p =>
      rw [hp] at h
      cases p with
      | done a => exact ⟨a, hp⟩
      | fail e => cases h
      | step act next => cases h

/-- A thread goes on with one step. -/
theorem Pool.Before.act_eq {c : Pool σ ε α} {i : Nat} {act act' : σ → β × σ}
    (h : c.Before i (Prog.perform act : Prog σ ε β))
    (h' : c.Before i (Prog.perform act' : Prog σ ε β)) : act = act' := by
  obtain ⟨next, hbefore⟩ := h
  obtain ⟨next', hbefore'⟩ := h'
  have hsame : Prog.step act next = Prog.step act' next' :=
    Option.some.inj (hbefore.symm.trans hbefore')
  cases hsame
  rfl

namespace Prog

/-! ## The steps of a program -/

/-- All steps of a program are of one kind. -/
def Only (K : ∀ ⦃β : Type⦄, (σ → β × σ) → Prop) : Prog σ ε α → Prop
  | done _ => True
  | fail _ => True
  | step act next => K act ∧ ∀ b, Only K (next b)

section Only

variable {K : ∀ ⦃β : Type⦄, (σ → β × σ) → Prop}

theorem only_perform {act : σ → β × σ} (h : K act) :
    Only K (perform act : Prog σ ε β) := ⟨h, fun _ => trivial⟩

theorem only_pure (a : α) : Only K (pure a : Prog σ ε α) := trivial

theorem only_fail (e : ε) : Only K (fail e : Prog σ ε α) := trivial

theorem only_ensure (condition : Bool) (e : ε) :
    Only K (ensure condition e : Prog σ ε Unit) := by
  cases condition <;> trivial

theorem only_require (value : Option α) (e : ε) :
    Only K (require value e : Prog σ ε α) := by
  cases value <;> trivial

theorem only_lift (result : Except ε α) : Only K (lift result : Prog σ ε α) := by
  cases result <;> trivial

theorem Only.bind {p : Prog σ ε α} {f : α → Prog σ ε β} (hp : Only K p)
    (hf : ∀ a, Only K (f a)) : Only K (p >>= f) := by
  induction p with
  | done a => exact hf a
  | fail e => trivial
  | step act next ih => exact ⟨hp.1, fun b => ih b (hp.2 b)⟩

theorem Only.mono {K' : ∀ ⦃β : Type⦄, (σ → β × σ) → Prop} {p : Prog σ ε α}
    (hp : Only K p) (h : ∀ ⦃β : Type⦄ (act : σ → β × σ), K act → K' act) : Only K' p := by
  induction p with
  | done a => trivial
  | fail e => trivial
  | step act next ih => exact ⟨h act hp.1, fun b => ih b (hp.2 b)⟩

/-- Steps on a part of a larger state. -/
theorem Only.within {τ : Type} {K' : ∀ ⦃β : Type⦄, (τ → β × τ) → Prop} {part : τ → σ}
    {put : σ → τ → τ} {p : Prog σ ε α} (hp : Only K p)
    (h : ∀ ⦃β : Type⦄ (act : σ → β × σ), K act → K' (widened part put act)) :
    Only K' (p.within part put) := by
  induction p with
  | done a => trivial
  | fail e => trivial
  | step act next ih => exact ⟨h act hp.1, fun b => ih b (hp.2 b)⟩

end Only

/-! ## Stages -/

/-- The steps that a program may take in each stage, and the stage that each
result leaves it in. -/
abbrev Automaton (σ τ : Type) := τ → ∀ ⦃β : Type⦄, (σ → β × σ) → (β → τ) → Prop

/-- **The program keeps to the automaton** from a stage on, and it looks in every
stage as `At` says. -/
def Staged {τ : Type} (A : Automaton σ τ) (At : Prog σ ε α → τ → Prop) :
    Prog σ ε α → τ → Prop
  | done a, t => At (done a) t
  | fail e, t => At (fail e) t
  | step act next, t =>
      At (step act next) t ∧ ∃ after, A t act after ∧ ∀ b, Staged A At (next b) (after b)

/-- A stage in which every program may run and fail. -/
structure Free {τ : Type} (At : Prog σ ε α → τ → Prop) (t : τ) : Prop where
  runs : ∀ ⦃β : Type⦄ (act : σ → β × σ) (next : β → Prog σ ε α), At (step act next) t
  fails : ∀ e, At (fail e) t

section Staged

variable {τ : Type} {A : Automaton σ τ} {At : Prog σ ε β → τ → Prop} {t : τ}

theorem Staged.looks {p : Prog σ ε β} (h : Staged A At p t) : At p t := by
  cases p with
  | done a => exact h
  | fail e => exact h
  | step act next => exact h.1

/-- A program whose steps are allowed in a stage and stay in it, before another
program. -/
theorem Only.staged_bind {K : ∀ ⦃β : Type⦄, (σ → β × σ) → Prop} {p : Prog σ ε α}
    {f : α → Prog σ ε β} (hp : Only K p)
    (hK : ∀ ⦃β : Type⦄ (act : σ → β × σ), K act → A t act fun _ => t)
    (hfree : Free At t) (hf : ∀ a, Staged A At (f a) t) : Staged A At (p >>= f) t := by
  induction p with
  | done a => exact hf a
  | fail e => exact hfree.fails e
  | step act next ih =>
      exact ⟨hfree.runs _ _, fun _ => t, hK act hp.1, fun b => ih b (hp.2 b)⟩

/-- A program whose steps are allowed in a stage and stay in it, to its end. -/
theorem Only.staged {K : ∀ ⦃β : Type⦄, (σ → β × σ) → Prop} {p : Prog σ ε β} (hp : Only K p)
    (hK : ∀ ⦃β : Type⦄ (act : σ → β × σ), K act → A t act fun _ => t)
    (hlooks : ∀ q : Prog σ ε β, At q t) : p.Staged A At t := by
  induction p with
  | done a => exact hlooks _
  | fail e => exact hlooks _
  | step act next ih => exact ⟨hlooks _, fun _ => t, hK act hp.1, fun b => ih b (hp.2 b)⟩

/-- A single step before a program. -/
theorem staged_perform_bind {act : σ → α × σ} (after : α → τ) {f : α → Prog σ ε β}
    (hat : At (perform act >>= f) t) (hact : A t act after)
    (hf : ∀ a, Staged A At (f a) (after a)) : Staged A At (perform act >>= f) t :=
  ⟨hat, after, hact, hf⟩

/-- A program whose value is wrapped, where nothing is asked of its looks. -/
theorem Staged.wrap {γ : Type} {p : Prog σ ε α} (hp : p.Staged A (fun _ _ => True) t)
    (f : α → γ) : (p >>= fun a => done (f a)).Staged A (fun _ _ => True) t := by
  induction p generalizing t with
  | done a => trivial
  | fail e => trivial
  | step act next ih =>
      obtain ⟨-, after, hact, hnext⟩ := hp
      exact ⟨trivial, after, hact, fun b => ih b (hnext b)⟩

end Staged

end Prog

/-! ## The invariant of a pool -/

section Invariant

variable {τ : Type} {A : Prog.Automaton σ τ} {At : Prog σ ε α → τ → Prop}
  {J : List τ → σ → Prop} {G : Pool σ ε α → Turn η → Prop} {happens : η → σ → σ}
  {start c : Pool σ ε α} {stages : List τ} {i : Nat}

/-- Every thread is in a stage of the automaton. -/
def Pool.StagedBy (A : Prog.Automaton σ τ) (At : Prog σ ε α → τ → Prop) (c : Pool σ ε α)
    (stages : List τ) : Prop :=
  List.Forall₂ (Prog.Staged A At) c.threads stages

/-- A step that thread `i` takes in stage `t`, in a pool in these stages. -/
structure StagedStep (A : Prog.Automaton σ τ) (At : Prog σ ε α → τ → Prop) (c : Pool σ ε α)
    (stages : List τ) (i : Nat) (act : σ → β × σ) (t : τ) (after : β → τ) : Prop where
  staged : c.StagedBy A At stages
  thread : ∃ next, c.threads[i]? = some (.step act next)
  stage : stages[i]? = some t
  allowed : A t act after

/-- `J` is kept by every step that the automaton allows and the guard admits. -/
def KeptByThreads (A : Prog.Automaton σ τ) (At : Prog σ ε α → τ → Prop)
    (J : List τ → σ → Prop) (G : Pool σ ε α → Turn η → Prop) : Prop :=
  ∀ (c : Pool σ ε α) (stages : List τ) (i : Nat) ⦃β : Type⦄ (act : σ → β × σ) (t : τ)
    (after : β → τ), StagedStep A At c stages i act t after → G c (.thread i) →
    J stages c.state → J (stages.set i (after (act c.state).1)) (act c.state).2

/-- `J` is kept by what else happens. -/
def KeptByWorld (happens : η → σ → σ) (J : List τ → σ → Prop) : Prop :=
  ∀ stages s event, J stages s → J stages (happens event s)

theorem forall₂_set {ξ υ : Type*} {R : ξ → υ → Prop} {xs : List ξ} {ys : List υ} {x : ξ} {y : υ}
    (i : Nat) (h : List.Forall₂ R xs ys) (hxy : R x y) :
    List.Forall₂ R (xs.set i x) (ys.set i y) := by
  induction h generalizing i with
  | nil => simp
  | cons hhead htail ih =>
      cases i with
      | zero => exact .cons hxy htail
      | succ i => exact .cons hhead (ih i)

theorem forall₂_getElem {ξ υ : Type*} {R : ξ → υ → Prop} {xs : List ξ} {ys : List υ} {x : ξ}
    (h : List.Forall₂ R xs ys) (hx : xs[i]? = some x) : ∃ y, ys[i]? = some y ∧ R x y := by
  induction h generalizing i with
  | nil => simp at hx
  | cons hhead htail ih =>
      cases i with
      | zero =>
          obtain rfl := Option.some.inj hx
          exact ⟨_, rfl, hhead⟩
      | succ i => exact ih hx

/-- The stage of a thread. -/
theorem Pool.StagedBy.stage (h : c.StagedBy A At stages) {p : Prog σ ε α}
    (hp : c.threads[i]? = some p) : ∃ t, stages[i]? = some t ∧ p.Staged A At t :=
  forall₂_getElem h hp

/-- The thread in a stage. -/
theorem Pool.StagedBy.thread (h : c.StagedBy A At stages) {t : τ}
    (ht : stages[i]? = some t) : ∃ p, c.threads[i]? = some p ∧ p.Staged A At t :=
  forall₂_getElem h.flip ht

theorem Pool.StagedBy.returned (h : c.StagedBy A At stages) {a : α} (ha : c.Returned i a) :
    ∃ t, stages[i]? = some t ∧ At (.done a) t := h.stage ha

/-- Programs that all start in one stage. -/
theorem stagedBy_replicate {t : τ} (h : ∀ p ∈ c.threads, p.Staged A At t) :
    c.StagedBy A At (List.replicate c.threads.length t) := by
  rw [Pool.StagedBy]
  generalize c.threads = threads at h
  induction threads with
  | nil => exact .nil
  | cons p rest ih =>
      exact .cons (h p List.mem_cons_self) (ih fun q hq => h q (List.mem_cons_of_mem _ hq))

/-- A step that stays in its stage leaves the stages alone. -/
theorem set_stage {t : τ} (ht : stages[i]? = some t) : stages.set i t = stages := by
  obtain ⟨hlt, rfl⟩ := List.getElem?_eq_some_iff.mp ht
  exact List.set_getElem_self hlt

/-- Where the stage of one thread changes, another keeps its own. -/
theorem getElem?_set_cases {υ : Type*} {xs : List υ} {j : Nat} {x y : υ}
    (h : (xs.set i x)[j]? = some y) : (i = j ∧ x = y) ∨ (i ≠ j ∧ xs[j]? = some y) := by
  by_cases heq : i = j
  · subst heq
    rw [List.getElem?_set_self'] at h
    obtain ⟨_, -, hxy⟩ := Option.map_eq_some_iff.mp h
    exact Or.inl ⟨rfl, hxy⟩
  · rw [List.getElem?_set_ne heq] at h
    exact Or.inr ⟨heq, h⟩

theorem turn_ended {p : Prog σ ε α} (hp : c.threads[i]? = some p)
    (hended : p.advance c.state = (p, c.state)) : c.turn happens (.thread i) = c := by
  obtain ⟨hlt, rfl⟩ := List.getElem?_eq_some_iff.mp hp
  simp [Pool.turn, hlt, hended]

theorem turn_step {act : σ → β × σ} {next : β → Prog σ ε α}
    (hp : c.threads[i]? = some (.step act next)) :
    c.turn happens (.thread i) =
      { state := (act c.state).2, threads := c.threads.set i (next (act c.state).1) } := by
  simp [Pool.turn, hp, Prog.advance]

/-- **What a turn of a thread can do**: nothing, or the next step of its program. -/
theorem turn_thread_cases (happens : η → σ → σ) (c : Pool σ ε α) (i : Nat) :
    c.turn happens (.thread i) = c ∨
      ∃ (β : Type) (act : σ → β × σ) (next : β → Prog σ ε α),
        c.threads[i]? = some (.step act next) ∧
        c.turn happens (.thread i) =
          { state := (act c.state).2, threads := c.threads.set i (next (act c.state).1) } := by
  cases hp : c.threads[i]? with
  | none => exact Or.inl (by simp [Pool.turn, hp])
  | some p =>
      cases p with
      | done a => exact Or.inl (turn_ended hp rfl)
      | fail e => exact Or.inl (turn_ended hp rfl)
      | step act next => exact Or.inr ⟨_, act, next, rfl, turn_step hp⟩

/-- **What a turn can do where all steps are of one kind**: no program takes a step
and the pool of programs stays as it is, or one takes a step of the kind. -/
theorem turn_only_cases {K : ∀ ⦃β : Type⦄, (σ → β × σ) → Prop} (happens : η → σ → σ)
    (h : ∀ p ∈ c.threads, p.Only K) (turn : Turn η) :
    (∀ p ∈ (c.turn happens turn).threads, p.Only K) ∧
      ((∃ event, turn = .world event ∧ (c.turn happens turn).state = happens event c.state) ∨
        ((∃ i, turn = .thread i) ∧ c.turn happens turn = c) ∨
        ∃ (i : Nat) (β : Type) (act : σ → β × σ) (next : β → Prog σ ε α),
          turn = .thread i ∧ c.threads[i]? = some (.step act next) ∧ K act ∧
          (c.turn happens turn).state = (act c.state).2) := by
  cases turn with
  | world event => exact ⟨h, Or.inl ⟨event, rfl, rfl⟩⟩
  | thread i =>
      rcases turn_thread_cases happens c i with hsame | ⟨β, act, next, hp, hturn⟩
      · rw [hsame]
        exact ⟨h, Or.inr (Or.inl ⟨⟨i, rfl⟩, rfl⟩)⟩
      · have honly := h _ (List.mem_of_getElem? hp)
        rw [hturn]
        refine ⟨fun p hmem => ?_, Or.inr (Or.inr ⟨i, β, act, next, rfl, hp, honly.1, rfl⟩)⟩
        rcases List.mem_or_eq_of_mem_set hmem with hold | rfl
        · exact h p hold
        · exact honly.2 _

/-- **One turn** keeps the stages and the invariant. -/
theorem staged_next (hthreads : KeptByThreads A At J G) (hworld : KeptByWorld happens J)
    {turn : Turn η} (hguard : G c turn) (hstaged : c.StagedBy A At stages)
    (hJ : J stages c.state) :
    ∃ stages', (c.turn happens turn).StagedBy A At stages' ∧
      J stages' (c.turn happens turn).state := by
  cases turn with
  | world event => exact ⟨stages, hstaged, hworld _ _ _ hJ⟩
  | thread i =>
      rcases turn_thread_cases happens c i with hsame | ⟨β, act, next, hp, hturn⟩
      · rw [hsame]
        exact ⟨stages, hstaged, hJ⟩
      · obtain ⟨t, ht, -, after, hact, hnext⟩ := hstaged.stage hp
        rw [hturn]
        refine ⟨stages.set i (after (act c.state).1), forall₂_set i hstaged (hnext _), ?_⟩
        exact hthreads c stages i act t after ⟨hstaged, ⟨next, hp⟩, ht, hact⟩ hguard hJ

/-- **A whole schedule** whose turns meet the guard keeps them. -/
theorem staged_after (hthreads : KeptByThreads A At J G) (hworld : KeptByWorld happens J)
    (hstart : ∃ stages, c.StagedBy A At stages ∧ J stages c.state) {schedule : List (Turn η)}
    (hall : (pool happens start).AllSteps G c schedule) :
    ∃ stages, ((pool happens start).after c schedule).StagedBy A At stages ∧
      J stages ((pool happens start).after c schedule).state := by
  refine Machine.invariant_after (I := fun c => ∃ stages, c.StagedBy A At stages ∧
    J stages c.state) ?_ hstart hall
  rintro c turn ⟨stages, hstaged, hJ⟩ hguard
  exact staged_next hthreads hworld hguard hstaged hJ

/-- **A whole schedule of steps of one kind** keeps what each of them keeps, where the
guard lets it be taken. -/
theorem only_after {K : ∀ ⦃β : Type⦄, (σ → β × σ) → Prop} {N : σ → Prop}
    (hworld : ∀ s event, N s → N (happens event s))
    (hstep : ∀ (c : Pool σ ε α) (i : Nat) ⦃β : Type⦄ (act : σ → β × σ)
      (next : β → Prog σ ε α), c.threads[i]? = some (.step act next) → K act →
      G c (.thread i) → N c.state → N (act c.state).2)
    (hthreads : ∀ p ∈ c.threads, p.Only K) (hN : N c.state) {schedule : List (Turn η)}
    (hall : (pool happens start).AllSteps G c schedule) :
    (∀ p ∈ ((pool happens start).after c schedule).threads, p.Only K) ∧
      N ((pool happens start).after c schedule).state := by
  refine Machine.invariant_after (I := fun c => (∀ p ∈ c.threads, p.Only K) ∧ N c.state)
    ?_ ⟨hthreads, hN⟩ hall
  intro c turn hkept hguard
  obtain ⟨honly, hN⟩ := hkept
  obtain ⟨hstill, hcases⟩ := turn_only_cases happens honly turn
  refine ⟨hstill, ?_⟩
  rcases hcases with ⟨event, rfl, hstate⟩ | ⟨-, hsame⟩ | ⟨i, β, act, next, rfl, hp, hK, hstate⟩
  · exact hstate ▸ hworld _ event hN
  · exact (congrArg Pool.state hsame) ▸ hN
  · exact hstate ▸ hstep c i act next hp hK hguard hN

end Invariant

end AtomicProgram
