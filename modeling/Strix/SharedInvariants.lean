import Strix.Interleaving

/-!
# Programs that keep an invariant beside others

Beside a program others run, and all it may count on is an invariant and that states only
ever move on along a relation.  `Prog.Keeps` says, of a program at a state, that whatever the
others do, each of its steps keeps the invariant and moves the state on; what the program has
seen of an earlier state it may use later, where the relation lets it stand.

* `Only.keeps`: a program of steps that are safe as long as something stays known;
* `Keeps.ensure_bind` and `Keeps.require_bind`: what has been checked is known to the rest;
* `shares_after` and `invariant_shared`: where every program keeps the invariant, it holds
  throughout every schedule, and states move on.
-/

namespace AtomicProgram

open MachineRuns

variable {σ ε α β η : Type}

/-- States move on along `Moves`, and `Inv` holds of all of them. -/
structure Sharing (σ : Type) where
  Inv : σ → Prop
  Moves : σ → σ → Prop
  refl : ∀ s, Moves s s
  trans : ∀ {s t u}, Moves s t → Moves t u → Moves s u

/-- A step from a state keeps the invariant and moves the state on. -/
structure Sharing.Step (S : Sharing σ) (s s' : σ) : Prop where
  inv : S.Inv s'
  moves : S.Moves s s'

/-- Something that stays known. -/
def Sharing.Lasting (S : Sharing σ) (known : σ → Prop) : Prop :=
  ∀ s s', S.Moves s s' → known s → known s'

namespace Prog

variable (S : Sharing σ)

/-- **The program keeps the invariant** from a state on, whatever happens before each of its
steps. -/
def Keeps : Prog σ ε α → σ → Prop
  | done _, _ => True
  | fail _, _ => True
  | step act next, s => ∀ s', S.Moves s s' → S.Inv s' →
      S.Step s' (act s').2 ∧ Keeps (next (act s').1) (act s').2

variable {S}

theorem Keeps.later {p : Prog σ ε α} {s s' : σ} (h : p.Keeps S s) (hmoves : S.Moves s s') :
    p.Keeps S s' := by
  cases p with
  | done a => trivial
  | fail e => trivial
  | step act next => exact fun t ht => h t (S.trans hmoves ht)

/-- A step that is safe wherever the invariant holds and something is known. -/
def SafeWhile (S : Sharing σ) (known : σ → Prop) ⦃β : Type⦄ (act : σ → β × σ) : Prop :=
  ∀ s, S.Inv s → known s → S.Step s (act s).2

/-- **A program of safe steps.** -/
theorem Only.keeps {known : σ → Prop} (hlasting : S.Lasting known) {p : Prog σ ε α} {s : σ}
    (hp : Only (SafeWhile S known) p) (hknown : known s) : p.Keeps S s := by
  induction p generalizing s with
  | done a => trivial
  | fail e => trivial
  | step act next ih =>
      intro s' hmoves hinv
      have hstep := hp.1 s' hinv (hlasting s s' hmoves hknown)
      exact ⟨hstep, ih _ (hp.2 _)
        (hlasting s' _ hstep.moves (hlasting s s' hmoves hknown))⟩

/-- A program whose value is wrapped. -/
theorem Keeps.wrap {p : Prog σ ε α} {s : σ} (h : p.Keeps S s) (f : α → β) :
    (p >>= fun a => done (f a)).Keeps S s := by
  induction p generalizing s with
  | done a => trivial
  | fail e => trivial
  | step act next ih =>
      intro s' hmoves hinv
      obtain ⟨hstep, hnext⟩ := h s' hmoves hinv
      exact ⟨hstep, ih _ hnext⟩

theorem Keeps.ensure_bind {condition : Bool} {e : ε} {f : Unit → Prog σ ε β} {s : σ}
    (h : condition = true → (f ()).Keeps S s) : (ensure condition e >>= f).Keeps S s := by
  cases condition with
  | true => exact h rfl
  | false => trivial

theorem Keeps.require_bind {value : Option α} {e : ε} {f : α → Prog σ ε β} {s : σ}
    (h : ∀ a, value = some a → (f a).Keeps S s) : (require value e >>= f).Keeps S s := by
  cases value with
  | some a => exact h a rfl
  | none => trivial

end Prog

/-! ## Pools -/

/-- The invariant holds, and every program keeps it from here on. -/
structure Pool.Shares (S : Sharing σ) (c : Pool σ ε α) : Prop where
  inv : S.Inv c.state
  threads : ∀ p ∈ c.threads, p.Keeps S c.state

/-- One turn. -/
theorem Pool.Shares.turn {S : Sharing σ} {happens : η → σ → σ} {c : Pool σ ε α}
    (h : c.Shares S) (hworld : ∀ event s, S.Inv s → S.Step s (happens event s))
    (turn : Turn η) : (c.turn happens turn).Shares S := by
  cases turn with
  | world event =>
      have hstep := hworld event c.state h.inv
      exact ⟨hstep.inv, fun p hp => (h.threads p hp).later hstep.moves⟩
  | thread i =>
      rcases turn_thread_cases happens c i with hsame | ⟨β, act, next, hi, hturn⟩
      · rw [hsame]
        exact h
      · obtain ⟨hstep, hnext⟩ :=
          h.threads _ (List.mem_of_getElem? hi) c.state (S.refl _) h.inv
        rw [hturn]
        refine ⟨hstep.inv, fun q hq => ?_⟩
        rcases List.mem_or_eq_of_mem_set hq with hq | rfl
        · exact (h.threads q hq).later hstep.moves
        · exact hnext

/-- A turn moves the state on. -/
theorem Pool.Shares.moves {S : Sharing σ} {happens : η → σ → σ} {c : Pool σ ε α}
    (h : c.Shares S) (hworld : ∀ event s, S.Inv s → S.Step s (happens event s))
    (turn : Turn η) : S.Moves c.state (c.turn happens turn).state := by
  cases turn with
  | world event => exact (hworld event c.state h.inv).moves
  | thread i =>
      rcases turn_thread_cases happens c i with hsame | ⟨β, act, next, hi, hturn⟩
      · rw [hsame]
        exact S.refl _
      · obtain ⟨hstep, -⟩ := h.threads _ (List.mem_of_getElem? hi) c.state (S.refl _) h.inv
        rw [hturn]
        exact hstep.moves

/-- Programs that keep the invariant go on to keep it, and the state moves on. -/
theorem shares_after {S : Sharing σ} {happens : η → σ → σ} {c start : Pool σ ε α}
    (h : c.Shares S) (hworld : ∀ event s, S.Inv s → S.Step s (happens event s))
    (schedule : List (Turn η)) :
    ((pool happens start).after c schedule).Shares S ∧
      S.Moves c.state ((pool happens start).after c schedule).state := by
  induction schedule generalizing c with
  | nil => exact ⟨h, S.refl _⟩
  | cons turn schedule ih =>
      obtain ⟨hrest, hlater⟩ := ih (h.turn hworld turn)
      exact ⟨hrest, S.trans (h.moves hworld turn) hlater⟩

/-- **The invariant holds throughout every schedule** of programs that keep it. -/
theorem invariant_shared {S : Sharing σ} {happens : η → σ → σ} {c : Pool σ ε α}
    (h : c.Shares S) (hworld : ∀ event s, S.Inv s → S.Step s (happens event s))
    (schedule : List (Turn η)) : S.Inv ((pool happens c).after c schedule).state :=
  (Machine.invariant_reachable (M := pool happens c) (I := Pool.Shares S) h
    (fun _ turn hd => hd.turn hworld turn) ⟨schedule, rfl⟩).inv

end AtomicProgram
