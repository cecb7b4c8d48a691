import Mathlib.Data.List.Basic

/-!
# Runs of a step machine

A machine takes one operation at a time: from a state and an operation it
computes a reply and the next state.  A run is a finite list of operations.
Everything here is about arbitrary states, operations and replies.

* `Machine.after` is the state a run ends in, `Machine.Reachable` the states
  some run from the initial state ends in;
* `Machine.AllSteps` says that every step of a run, taken in the state it is
  taken in, meets a condition, `Machine.AllStates` that every state does;
* `Machine.invariant_after` and `Machine.relation_after` carry what one step
  preserves to whole runs, and `Machine.allStates_iff_allSteps` what one step
  preserves under an exact condition;
* `Machine.observed` adds an observer who notes the steps, and
  `Machine.invariant_observed` carries an invariant between states and notes.
-/

namespace MachineRuns

/-- A machine with states `σ`, operations `ι` and replies `ρ`. -/
structure Machine (σ ι ρ : Type*) where
  init : σ
  step : σ → ι → ρ × σ

namespace Machine

variable {σ ι ρ : Type*} (M : Machine σ ι ρ)

/-- The state after one operation. -/
def next (s : σ) (op : ι) : σ := (M.step s op).2

/-- The reply to one operation. -/
def reply (s : σ) (op : ι) : ρ := (M.step s op).1

/-- The state a run ends in. -/
def after : σ → List ι → σ
  | s, [] => s
  | s, op :: ops => after (M.next s op) ops

/-- The states that runs from the initial state end in. -/
def Reachable (s : σ) : Prop := ∃ ops, M.after M.init ops = s

/-- Every step of the run, in the state it is taken in, meets `G`. -/
def AllSteps (G : σ → ι → Prop) : σ → List ι → Prop
  | _, [] => True
  | s, op :: ops => G s op ∧ AllSteps G (M.next s op) ops

/-- Every state the run comes through, both ends included, meets `N`. -/
def AllStates (N : σ → Prop) : σ → List ι → Prop
  | s, [] => N s
  | s, op :: ops => N s ∧ AllStates N (M.next s op) ops

/-- `Q` holds of every operation of the run and the operations before it. -/
def EachStep (Q : List ι → ι → Prop) (run : List ι) : Prop :=
  ∀ before op rest, run = before ++ op :: rest → Q before op

@[simp] theorem after_nil (s : σ) : M.after s [] = s := rfl

@[simp] theorem after_cons (s : σ) (op : ι) (ops : List ι) :
    M.after s (op :: ops) = M.after (M.next s op) ops := rfl

theorem after_append (s : σ) (left right : List ι) :
    M.after s (left ++ right) = M.after (M.after s left) right := by
  induction left generalizing s with
  | nil => rfl
  | cons op ops ih => exact ih _

@[simp] theorem allSteps_nil (G : σ → ι → Prop) (s : σ) : M.AllSteps G s [] := trivial

@[simp] theorem allSteps_cons (G : σ → ι → Prop) (s : σ) (op : ι) (ops : List ι) :
    M.AllSteps G s (op :: ops) ↔ G s op ∧ M.AllSteps G (M.next s op) ops := Iff.rfl

theorem allSteps_append {G : σ → ι → Prop} {s : σ} {left right : List ι} :
    M.AllSteps G s (left ++ right) ↔
      M.AllSteps G s left ∧ M.AllSteps G (M.after s left) right := by
  induction left generalizing s with
  | nil => simp
  | cons op ops ih => simp [ih, and_assoc]

/-- What every step meets, the steps of a run meet. -/
theorem allSteps_of_forall {G : σ → ι → Prop} (h : ∀ s op, G s op) (s : σ) (ops : List ι) :
    M.AllSteps G s ops := by
  induction ops generalizing s with
  | nil => trivial
  | cons op ops ih => exact ⟨h s op, ih _⟩

/-- A condition on the operations alone adds to one on every step. -/
theorem AllSteps.and_forall {M : Machine σ ι ρ} {G : σ → ι → Prop} {H : ι → Prop} {s : σ}
    {ops : List ι} (hall : M.AllSteps G s ops) (hops : ∀ op ∈ ops, H op) :
    M.AllSteps (fun s op => G s op ∧ H op) s ops := by
  induction ops generalizing s with
  | nil => trivial
  | cons op ops ih =>
      exact ⟨⟨hall.1, hops op List.mem_cons_self⟩,
        ih hall.2 fun op' hop' => hops op' (List.mem_cons_of_mem _ hop')⟩

/-- A condition on the operations alone, and one on every step. -/
theorem allSteps_and_forall_iff {G : σ → ι → Prop} {H : ι → Prop} (s : σ) (ops : List ι) :
    M.AllSteps (fun s op => H op ∧ G s op) s ops ↔ (∀ op ∈ ops, H op) ∧ M.AllSteps G s ops := by
  induction ops generalizing s with
  | nil => simp
  | cons op ops ih =>
      rw [allSteps_cons, allSteps_cons, ih, List.forall_mem_cons]
      tauto

theorem reachable_init : M.Reachable M.init := ⟨[], rfl⟩

/-- Continuing a run keeps reachability. -/
theorem Reachable.after {M : Machine σ ι ρ} {s : σ} (h : M.Reachable s) (ops : List ι) :
    M.Reachable (M.after s ops) := by
  obtain ⟨before, rfl⟩ := h
  exact ⟨before ++ ops, M.after_append _ _ _⟩

theorem Reachable.next {M : Machine σ ι ρ} {s : σ} (h : M.Reachable s) (op : ι) :
    M.Reachable (M.next s op) := h.after [op]

variable {M}

/-- **Guarded invariant rule.**  What every step meeting `G` preserves, a run
whose steps all meet `G` preserves. -/
theorem invariant_after {I : σ → Prop} {G : σ → ι → Prop}
    (hstep : ∀ s op, I s → G s op → I (M.next s op))
    {s : σ} {ops : List ι} (hs : I s) (hall : M.AllSteps G s ops) :
    I (M.after s ops) := by
  induction ops generalizing s with
  | nil => exact hs
  | cons op ops ih => exact ih (hstep s op hs hall.1) hall.2

/-- **Invariant rule.**  What holds at the start and is preserved by every
step holds of every reachable state. -/
theorem invariant_reachable {I : σ → Prop} (hinit : I M.init)
    (hstep : ∀ s op, I s → I (M.next s op)) {s : σ} (hs : M.Reachable s) : I s := by
  obtain ⟨ops, rfl⟩ := hs
  suffices h : ∀ t, I t → I (M.after t ops) from h _ hinit
  induction ops with
  | nil => exact fun _ ht => ht
  | cons op ops ih => exact fun t ht => ih _ (hstep t op ht)

/-- The first state of a run is one it comes through. -/
theorem AllStates.start {M : Machine σ ι ρ} {N : σ → Prop} {s : σ} {ops : List ι}
    (h : M.AllStates N s ops) : N s := by
  cases ops with
  | nil => exact h
  | cons op ops => exact h.1

/-- The last state of a run is one it comes through. -/
theorem AllStates.after {M : Machine σ ι ρ} {N : σ → Prop} {s : σ} {ops : List ι}
    (h : M.AllStates N s ops) : N (M.after s ops) := by
  induction ops generalizing s with
  | nil => exact h
  | cons op ops ih => exact ih h.2

/-- **Exact guard rule.**  When a step that meets `S` keeps `N` exactly if it
meets `G`, a run of such steps comes through states that meet `N` only exactly
if all its steps meet `G`. -/
theorem allStates_iff_allSteps {I N : σ → Prop} {S G : σ → ι → Prop}
    (hinv : ∀ s op, I s → S s op → I (M.next s op))
    (hexact : ∀ s op, I s → S s op → N s → (N (M.next s op) ↔ G s op))
    {s : σ} {ops : List ι} (hs : I s) (hstart : N s) (hall : M.AllSteps S s ops) :
    M.AllStates N s ops ↔ M.AllSteps G s ops := by
  induction ops generalizing s with
  | nil => exact iff_of_true hstart trivial
  | cons op ops ih =>
      have hone := hexact s op hs hall.1 hstart
      have hrest : N (M.next s op) →
          (M.AllStates N (M.next s op) ops ↔ M.AllSteps G (M.next s op) ops) :=
        fun hnext => ih (hinv s op hs hall.1) hnext hall.2
      constructor
      · rintro ⟨-, hstates⟩
        have hnext := hstates.start
        exact ⟨hone.mp hnext, (hrest hnext).mp hstates⟩
      · rintro ⟨hguard, hsteps⟩
        exact ⟨hstart, (hrest (hone.mpr hguard)).mpr hsteps⟩

/-- Conditions that agree in every state an invariant holds of agree on runs. -/
theorem allSteps_congr {I : σ → Prop} {G H : σ → ι → Prop}
    (hinv : ∀ s op, I s → I (M.next s op)) (hsame : ∀ s op, I s → (G s op ↔ H s op))
    {s : σ} (hs : I s) (ops : List ι) : M.AllSteps G s ops ↔ M.AllSteps H s ops := by
  induction ops generalizing s with
  | nil => exact Iff.rfl
  | cons op ops ih =>
      rw [allSteps_cons, allSteps_cons, hsame s op hs, ih (hinv s op hs)]

/-- **Guarded relation rule.**  A reflexive and transitive relation between
the states before and after each step relates the two ends of the run. -/
theorem relation_after {I : σ → Prop} {G : σ → ι → Prop} {R : σ → σ → Prop}
    (hrefl : ∀ s, R s s) (htrans : ∀ s t u, R s t → R t u → R s u)
    (hinv : ∀ s op, I s → G s op → I (M.next s op))
    (hstep : ∀ s op, I s → G s op → R s (M.next s op))
    {s : σ} {ops : List ι} (hs : I s) (hall : M.AllSteps G s ops) :
    R s (M.after s ops) := by
  induction ops generalizing s with
  | nil => exact hrefl s
  | cons op ops ih =>
      exact htrans _ _ _ (hstep s op hs hall.1) (ih (hinv s op hs hall.1) hall.2)

section Observer

variable {γ : Type*}

/-- The machine with an observer, who notes every step: the state it starts
in, the operation and the reply. -/
def observed (M : Machine σ ι ρ) (note : γ → σ → ι → ρ → γ) (start : γ) :
    Machine (σ × γ) ι ρ where
  init := (M.init, start)
  step s op := ((M.step s.1 op).1, (M.step s.1 op).2, note s.2 s.1 op (M.step s.1 op).1)

variable {note : γ → σ → ι → ρ → γ} {start : γ}

@[simp] theorem observed_init : (M.observed note start).init = (M.init, start) := rfl

/-- Observing a machine does not disturb it. -/
theorem observed_after_fst (s : σ × γ) (ops : List ι) :
    ((M.observed note start).after s ops).1 = M.after s.1 ops := by
  induction ops generalizing s with
  | nil => rfl
  | cons op ops ih => exact ih _

/-- **Observer rule.**  What every step meeting `G` preserves between the
state and the notes holds of them at the end of a run whose steps meet `G`. -/
theorem invariant_observed {I : σ → γ → Prop} {G : σ → ι → Prop}
    (hstep : ∀ s g op, I s g → G s op → I (M.next s op) (note g s op (M.reply s op)))
    {s : σ} {g : γ} {ops : List ι} (hs : I s g) (hall : M.AllSteps G s ops) :
    I (M.after s ops) ((M.observed note start).after (s, g) ops).2 := by
  induction ops generalizing s g with
  | nil => exact hs
  | cons op ops ih => exact ih (hstep s g op hs hall.1) hall.2

end Observer

end Machine

end MachineRuns
