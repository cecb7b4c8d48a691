import Mathlib.Data.List.Induction
import Mathlib.Data.List.Nodup
import Strix.Interleaving

/-!
# Calls that take effect at once

Calls run side by side, step by step, on one state.  What is told of a state is its view, and
what a call may do to the view and answer is told by a relation.  `Prog.TakesEffect` says, of a
call in a run, that from a time on one step of it does all that the call does, and that no other
step of it changes the view; what is known of the run, its steps may use.

Then a schedule is explained by a history: the calls that have taken effect, in the order in
which they have, one after another as if each had run alone.

* `sequential_filter`: what changes nothing can be left out of a history;
* `TakesEffect.observe_bind`, `TakesEffect.ensure_bind`, `TakesEffect.of_step` and
  `Settles.of_keeping`: calls are checked step by step;
* `explained`: every schedule of calls that take effect at once has such a history.
-/

namespace AtomicProgram

open MachineRuns

variable {σ ν ε α β η : Type}

/-! ## Histories -/

/-- A call that has taken effect: who made it, what it answers, and the view before and
after. -/
structure Effect (ν α : Type) where
  caller : Nat
  answer : α
  before : ν
  after : ν

/-- **The effects come one after another**, each of them one that its call may have. -/
def Sequential (does : Nat → ν → α → ν → Prop) : ν → List (Effect ν α) → ν → Prop
  | v, [], v' => v' = v
  | v, e :: rest, v' =>
      e.before = v ∧ does e.caller v e.answer e.after ∧ Sequential does e.after rest v'

section Histories

variable {does : Nat → ν → α → ν → Prop} {v v' : ν} {history : List (Effect ν α)}

theorem Sequential.snoc (h : Sequential does v history v') {e : Effect ν α}
    (hbefore : e.before = v') (hdoes : does e.caller v' e.answer e.after) :
    Sequential does v (history ++ [e]) e.after := by
  induction history generalizing v with
  | nil =>
      obtain rfl : v' = v := h
      exact ⟨hbefore, hdoes, rfl⟩
  | cons first rest ih => exact ⟨h.1, h.2.1, ih h.2.2⟩

/-- **Effects that change nothing** can be left out. -/
theorem sequential_filter (h : Sequential does v history v') {keep : Effect ν α → Bool}
    (hquiet : ∀ e ∈ history, keep e = false → e.after = e.before) :
    Sequential does v (history.filter keep) v' := by
  induction history generalizing v with
  | nil => exact h
  | cons first rest ih =>
      obtain ⟨hbefore, hdoes, hrest⟩ := h
      have hkept := ih hrest fun e he => hquiet e (List.mem_cons_of_mem _ he)
      cases hkeep : keep first with
      | true =>
          rw [List.filter_cons_of_pos hkeep]
          exact ⟨hbefore, hdoes, hkept⟩
      | false =>
          have hsame := hquiet first List.mem_cons_self hkeep
          rw [List.filter_cons_of_neg (by simp [hkeep]), ← hbefore, ← hsame]
          exact hkept

end Histories

/-! ## Calls -/

/-- The states of a run, and what is known of the steps that are taken in it. -/
structure Timeline (σ : Type) where
  state : Nat → σ
  taken : Nat → ∀ ⦃β : Type⦄, (σ → β × σ) → Prop
  next : ∀ {k : Nat} {β : Type} {act : σ → β × σ}, taken k act →
    state (k + 1) = (act (state k)).2

namespace Prog

/-- **What is left of a call that has taken effect**: it leaves the view alone and returns the
answer, unless it fails, which only a call that is `quiet` may. -/
def Settles (T : Timeline σ) (view : σ → ν) (quiet : Prop) (a : α) : Prog σ ε α → Nat → Prop
  | done b, _ => b = a
  | fail _, _ => quiet
  | step act next, k => ∀ k', k ≤ k' → T.taken k' act →
      view (T.state (k' + 1)) = view (T.state k') ∧
        Settles T view quiet a (next (act (T.state k')).1) (k' + 1)

/-- **One step of the call does all that it does**, from a time of the run on: the others leave
the view alone, and a call that fails before that step has done nothing. -/
def TakesEffect (T : Timeline σ) (view : σ → ν) (does : ν → α → ν → Prop) :
    Prog σ ε α → Nat → Prop
  | done _, _ => False
  | fail _, _ => True
  | step act next, k => ∀ k', k ≤ k' → T.taken k' act →
      (view (T.state (k' + 1)) = view (T.state k') ∧
        TakesEffect T view does (next (act (T.state k')).1) (k' + 1)) ∨
      ∃ a, does (view (T.state k')) a (view (T.state (k' + 1))) ∧
        Settles T view (view (T.state (k' + 1)) = view (T.state k')) a
          (next (act (T.state k')).1) (k' + 1)

/-- A step that leaves the view alone, whenever it is taken in the run. -/
def KeepsView (T : Timeline σ) (view : σ → ν) ⦃β : Type⦄ (act : σ → β × σ) : Prop :=
  ∀ k, T.taken k act → view (T.state (k + 1)) = view (T.state k)

/-- The program does not fail. -/
def Unfailing : Prog σ ε α → Prop
  | done _ => True
  | fail _ => False
  | step _ next => ∀ b, Unfailing (next b)

/-- What the program returns, if it does, whatever its steps find. -/
def Yields (ok : α → Prop) : Prog σ ε α → Prop
  | done a => ok a
  | fail _ => True
  | step _ next => ∀ b, Yields ok (next b)

theorem yields_any (p : Prog σ ε α) : p.Yields fun _ => True := by
  induction p with
  | done a => trivial
  | fail e => trivial
  | step act next ih => exact ih

/-- A program whose value is wrapped. -/
theorem yields_wrap {ok : β → Prop} {f : α → β} (h : ∀ a, ok (f a)) (p : Prog σ ε α) :
    (p >>= fun a => done (f a)).Yields ok := by
  induction p with
  | done a => exact h a
  | fail e => trivial
  | step act next ih => exact ih

section Rules

variable {T : Timeline σ} {view : σ → ν} {does : ν → α → ν → Prop} {quiet : Prop} {a : α}
  {k k' : Nat}

theorem Settles.later {p : Prog σ ε α} (h : p.Settles T view quiet a k) (hk : k ≤ k') :
    p.Settles T view quiet a k' := by
  cases p with
  | done b => exact h
  | fail e => exact h
  | step act next => exact fun t ht => h t (Nat.le_trans hk ht)

theorem TakesEffect.later {p : Prog σ ε α} (h : p.TakesEffect T view does k) (hk : k ≤ k') :
    p.TakesEffect T view does k' := by
  cases p with
  | done b => exact h
  | fail e => trivial
  | step act next => exact fun t ht => h t (Nat.le_trans hk ht)

theorem TakesEffect.mono {does' : ν → α → ν → Prop} {p : Prog σ ε α}
    (h : p.TakesEffect T view does k) (hdoes : ∀ v a v', does v a v' → does' v a v') :
    p.TakesEffect T view does' k := by
  induction p generalizing k with
  | done b => exact h
  | fail e => trivial
  | step act next ih =>
      intro k' hk htaken
      rcases h k' hk htaken with ⟨hview, hrest⟩ | ⟨a, hdone, hrest⟩
      · exact Or.inl ⟨hview, ih _ hrest⟩
      · exact Or.inr ⟨a, hdoes _ a _ hdone, hrest⟩

theorem Settles.mono {quiet' : Prop} {p : Prog σ ε α} (h : p.Settles T view quiet a k)
    (hquiet : quiet → quiet') : p.Settles T view quiet' a k := by
  induction p generalizing k with
  | done b => exact h
  | fail e => exact hquiet h
  | step act next ih =>
      intro k' hk htaken
      obtain ⟨hview, hnext⟩ := h k' hk htaken
      exact ⟨hview, ih _ hnext⟩

/-- Steps that leave the view alone, before the end of a call that has taken effect. -/
theorem Settles.of_keeping {p : Prog σ ε β} {f : β → Prog σ ε α}
    (hp : Only (KeepsView T view) p) (hfails : quiet ∨ p.Unfailing)
    (hf : ∀ b k', k ≤ k' → (f b).Settles T view quiet a k') :
    (p >>= f).Settles T view quiet a k := by
  induction p generalizing k with
  | done b => exact hf b k (Nat.le_refl k)
  | fail e => exact hfails.resolve_right fun h => h
  | step act next ih =>
      intro k' hk htaken
      refine ⟨hp.1 k' htaken, ih _ (hp.2 _) (hfails.imp_right fun h => h _) fun b t ht => ?_⟩
      exact hf b t (Nat.le_trans hk (Nat.le_trans (Nat.le_succ k') ht))

/-- Steps that leave the view alone, before the step that takes effect. -/
theorem TakesEffect.of_keeping {ok : β → Prop} {p : Prog σ ε β} {f : β → Prog σ ε α}
    (hp : Only (KeepsView T view) p) (hok : p.Yields ok)
    (hf : ∀ b k', ok b → k ≤ k' → (f b).TakesEffect T view does k') :
    (p >>= f).TakesEffect T view does k := by
  induction p generalizing k with
  | done b => exact hf b k hok (Nat.le_refl k)
  | fail e => trivial
  | step act next ih =>
      intro k' hk htaken
      refine Or.inl ⟨hp.1 k' htaken, ih _ (hp.2 _) (hok _) fun b t hb ht => ?_⟩
      exact hf b t hb (Nat.le_trans hk (Nat.le_trans (Nat.le_succ k') ht))

/-- **A call that leaves the view alone** takes effect when it returns. -/
theorem TakesEffect.of_only {ok : α → Prop} {p : Prog σ ε α} (hp : Only (KeepsView T view) p)
    (hok : p.Yields ok) (hsteps : ∀ b, p ≠ done b) (hdoes : ∀ v b, ok b → does v b v) :
    p.TakesEffect T view does k := by
  induction p generalizing k with
  | done b => exact absurd rfl (hsteps b)
  | fail e => trivial
  | step act next ih =>
      intro k' hk htaken
      have hview := hp.1 k' htaken
      have hok' := hok (act (T.state k')).1
      by_cases hends : ∃ b, next (act (T.state k')).1 = done b
      · obtain ⟨b, hends⟩ := hends
        rw [hends] at hok' ⊢
        refine Or.inr ⟨b, ?_, rfl⟩
        rw [hview]
        exact hdoes _ b hok'
      · exact Or.inl ⟨hview, ih _ (hp.2 _) hok' fun b hb => hends ⟨b, hb⟩⟩

/-- A step that leaves the view alone, and what is known of it. -/
theorem TakesEffect.step_bind {act : σ → β × σ} {f : β → Prog σ ε α}
    (hf : ∀ k', k ≤ k' → T.taken k' act → view (T.state (k' + 1)) = view (T.state k') ∧
      (f (act (T.state k')).1).TakesEffect T view does (k' + 1)) :
    (perform act >>= f).TakesEffect T view does k :=
  fun k' hk htaken => Or.inl (hf k' hk htaken)

theorem Settles.step_bind {act : σ → β × σ} {f : β → Prog σ ε α}
    (hf : ∀ k', k ≤ k' → T.taken k' act → view (T.state (k' + 1)) = view (T.state k') ∧
      (f (act (T.state k')).1).Settles T view quiet a (k' + 1)) :
    (perform act >>= f).Settles T view quiet a k := hf

/-- What is read may be used. -/
theorem TakesEffect.observe_bind {read : σ → β} {f : β → Prog σ ε α}
    (hf : ∀ k', k ≤ k' → (f (read (T.state k'))).TakesEffect T view does (k' + 1)) :
    (observe read >>= f).TakesEffect T view does k :=
  fun k' hk htaken => Or.inl ⟨congrArg view (T.next htaken), hf k' hk⟩

theorem Settles.observe_bind {read : σ → β} {f : β → Prog σ ε α}
    (hf : ∀ k', k ≤ k' → (f (read (T.state k'))).Settles T view quiet a (k' + 1)) :
    (observe read >>= f).Settles T view quiet a k :=
  fun k' hk htaken => ⟨congrArg view (T.next htaken), hf k' hk⟩

/-- What is read answers the call, or goes on to nothing. -/
theorem TakesEffect.of_read {read : σ → β} {f : β → Prog σ ε α}
    (h : ∀ k', k ≤ k' → (f (read (T.state k'))).TakesEffect T view does (k' + 1) ∨
      ∃ a, does (view (T.state k')) a (view (T.state k')) ∧
        (f (read (T.state k'))).Settles T view True a (k' + 1)) :
    (observe read >>= f).TakesEffect T view does k := by
  intro k' hk htaken
  have hsame : view (T.state (k' + 1)) = view (T.state k') := congrArg view (T.next htaken)
  rcases h k' hk with hgoes | ⟨a, hdoes, hsettles⟩
  · exact Or.inl ⟨hsame, hgoes⟩
  · refine Or.inr ⟨a, hsame.symm ▸ hdoes, ?_⟩
    rw [eq_true hsame]
    exact hsettles

/-- **The step that takes effect**, or that goes on to nothing. -/
theorem TakesEffect.of_step {act : σ → β × σ} {f : β → Prog σ ε α}
    (h : ∀ k', k ≤ k' → T.taken k' act →
      (view (T.state (k' + 1)) = view (T.state k') ∧
        (f (act (T.state k')).1).TakesEffect T view does (k' + 1)) ∨
      ∃ a, does (view (T.state k')) a (view (T.state (k' + 1))) ∧
        (f (act (T.state k')).1).Settles T view False a (k' + 1)) :
    (perform act >>= f).TakesEffect T view does k := by
  intro k' hk htaken
  rcases h k' hk htaken with hgoes | ⟨a, hdoes, hsettles⟩
  · exact Or.inl hgoes
  · exact Or.inr ⟨a, hdoes, hsettles.mono False.elim⟩

theorem TakesEffect.ensure_bind {condition : Bool} {e : ε} {f : Unit → Prog σ ε α}
    (h : condition = true → (f ()).TakesEffect T view does k) :
    (ensure condition e >>= f).TakesEffect T view does k := by
  cases condition with
  | true => exact h rfl
  | false => trivial

theorem TakesEffect.require_bind {value : Option β} {e : ε} {f : β → Prog σ ε α}
    (h : ∀ b, value = some b → (f b).TakesEffect T view does k) :
    (require value e >>= f).TakesEffect T view does k := by
  cases value with
  | some b => exact h b rfl
  | none => trivial

theorem TakesEffect.lift_bind {result : Except ε β} {f : β → Prog σ ε α}
    (h : ∀ b, result = .ok b → (f b).TakesEffect T view does k) :
    (lift result >>= f).TakesEffect T view does k := by
  cases result with
  | ok b => exact h b rfl
  | error e => trivial

end Rules

end Prog

/-! ## Schedules -/

/-- The thread has failed. -/
def Prog.hasFailed : Prog σ ε α → Bool
  | .fail _ => true
  | _ => false

def Pool.hasFailed (c : Pool σ ε α) (i : Nat) : Bool := c.threads[i]?.any Prog.hasFailed

theorem Pool.exists_failed {c : Pool σ ε α} {i : Nat} (h : c.hasFailed i = true) :
    ∃ e, c.threads[i]? = some (.fail e) := by
  rw [Pool.hasFailed] at h
  cases hp : c.threads[i]? with
  | none => simp [hp] at h
  | some p =>
      rw [hp] at h
      cases p with
      | done a => cases h
      | fail e => exact ⟨e, rfl⟩
      | step act next => cases h

theorem Pool.Returned.hasFailed {c : Pool σ ε α} {i : Nat} {a : α} (h : c.Returned i a) :
    c.hasFailed i = false := by
  rw [Pool.hasFailed, show c.threads[i]? = some (.done a) from h]
  rfl

/-- The callers of a history, in the order of their effects. -/
def callers (history : List (Effect ν α)) : List Nat := history.map (·.caller)

/-- **A history explains a schedule**: its effects lead from the view at the start to the view
at the end, each thread has at most one, those that have returned have theirs, those that have
failed have none, and who had returned before another took its first turn comes first. -/
structure Explains (view : σ → ν) (does : Nat → ν → α → ν → Prop) (happens : η → σ → σ)
    (start : Pool σ ε α) (schedule : List (Turn η)) (history : List (Effect ν α)) : Prop where
  sequential : Sequential does (view start.state) history
    (view ((pool happens start).after start schedule).state)
  once : (callers history).Nodup
  returned : ∀ i a, ((pool happens start).after start schedule).Returned i a →
    ∃ e ∈ history, e.caller = i ∧ e.answer = a
  failed : ∀ i, ((pool happens start).after start schedule).hasFailed i = true →
    i ∉ callers history
  ordered : ∀ before rest i a j, schedule = before ++ rest →
    ((pool happens start).after start before).Returned i a → Turn.thread j ∉ before →
    j ∈ callers history → [i, j].Sublist (callers history)

section Schedules

variable {T : Timeline σ} {view : σ → ν} {does : Nat → ν → α → ν → Prop} {happens : η → σ → σ}
  {start : Pool σ ε α} {schedule : List (Turn η)} {history : List (Effect ν α)} {k k' : Nat}

/-- The thread has not taken effect yet, or has, and settles. -/
def Accounted (T : Timeline σ) (view : σ → ν) (does : Nat → ν → α → ν → Prop) (k : Nat)
    (history : List (Effect ν α)) (i : Nat) (p : Prog σ ε α) : Prop :=
  (i ∉ callers history ∧ p.TakesEffect T view (does i) k) ∨
    ∃ e ∈ history, e.caller = i ∧ p.Settles T view (e.after = e.before) e.answer k

/-- **The timeline of a schedule**: its states, and the steps that its threads take. -/
structure Timeline.Follows (T : Timeline σ) (happens : η → σ → σ) (start : Pool σ ε α)
    (schedule : List (Turn η)) : Prop where
  states : ∀ done rest, schedule = done ++ rest →
    T.state done.length = ((pool happens start).after start done).state
  taken : ∀ done i rest ⦃β : Type⦄ (act : σ → β × σ) (next : β → Prog σ ε α),
    schedule = done ++ .thread i :: rest →
    ((pool happens start).after start done).threads[i]? = some (.step act next) →
    T.taken done.length act

/-- **What holds of a history** along the turns of a run that are over, effects of failed calls
included. -/
structure Tracks (T : Timeline σ) (view : σ → ν) (does : Nat → ν → α → ν → Prop)
    (happens : η → σ → σ) (start : Pool σ ε α) (schedule : List (Turn η))
    (history : List (Effect ν α)) : Prop where
  sequential : Sequential does (view start.state) history
    (view ((pool happens start).after start schedule).state)
  once : (callers history).Nodup
  threads : ∀ i p, ((pool happens start).after start schedule).threads[i]? = some p →
    Accounted T view does schedule.length history i p
  turns : ∀ j ∈ callers history, Turn.thread j ∈ schedule
  ordered : ∀ before rest i a j, schedule = before ++ rest →
    ((pool happens start).after start before).Returned i a → Turn.thread j ∉ before →
    j ∈ callers history → [i, j].Sublist (callers history)

theorem after_snoc (schedule : List (Turn η)) (turn : Turn η) :
    (pool happens start).after start (schedule ++ [turn]) =
      ((pool happens start).after start schedule).turn happens turn := by
  rw [Machine.after_append]
  rfl

/-- A call that has returned stays so. -/
theorem Pool.Returned.after {c : Pool σ ε α} {i : Nat} {a : α} (h : c.Returned i a)
    (schedule : List (Turn η)) : ((pool happens start).after c schedule).Returned i a := by
  induction schedule generalizing c with
  | nil => exact h
  | cons turn schedule ih =>
      refine ih ?_
      cases turn with
      | world event => exact h
      | thread j =>
          rcases turn_thread_cases happens c j with hsame | ⟨β, act, next, hj, hturn⟩
          · exact (congrArg (Pool.Returned · i a) hsame).mpr h
          · refine (congrArg (Pool.Returned · i a) hturn).mpr ?_
            have hne : j ≠ i := by
              rintro rfl
              cases Option.some.inj (h.symm.trans hj)
            exact (List.getElem?_set_ne hne).trans h

/-- Who has returned is in the history. -/
theorem Tracks.mem_of_returned (h : Tracks T view does happens start schedule history)
    {i : Nat} {a : α} (ha : ((pool happens start).after start schedule).Returned i a) :
    ∃ e ∈ history, e.caller = i ∧ e.answer = a := by
  rcases h.threads i _ ha with ⟨-, himpossible⟩ | ⟨e, he, hcaller, hanswer⟩
  · exact himpossible.elim
  · exact ⟨e, he, hcaller, Eq.symm hanswer⟩

/-- A turn adds at most one effect, of its own thread and the first of it. -/
def Grows (history history' : List (Effect ν α)) (turn : Turn η) : Prop :=
  history' = history ∨
    ∃ e, history' = history ++ [e] ∧ turn = .thread e.caller ∧ e.caller ∉ callers history

/-- A turn that adds at most the effect of its own thread keeps the order. -/
theorem Tracks.ordered_snoc (h : Tracks T view does happens start schedule history)
    {turn : Turn η} {history' : List (Effect ν α)}
    (hgrows : Grows history history' turn)
    (hturns : ∀ j ∈ callers history', Turn.thread j ∈ schedule ++ [turn]) (before : List (Turn η))
    (rest : List (Turn η)) (i : Nat) (a : α) (j : Nat)
    (hsplit : schedule ++ [turn] = before ++ rest)
    (ha : ((pool happens start).after start before).Returned i a)
    (hj : Turn.thread j ∉ before) (hmem : j ∈ callers history') :
    [i, j].Sublist (callers history') := by
  rcases List.eq_nil_or_concat rest with rfl | ⟨rest', last, rfl⟩
  · rw [List.append_nil] at hsplit
    exact absurd (hsplit ▸ hturns j hmem) hj
  · rw [List.concat_eq_append, ← List.append_assoc] at hsplit
    obtain ⟨hschedule, -⟩ := List.append_inj' hsplit rfl
    rcases hgrows with rfl | ⟨e, rfl, -⟩
    · exact h.ordered before rest' i a j hschedule ha hj hmem
    · rw [callers, List.map_append, List.map_singleton] at hmem ⊢
      rcases List.mem_append.mp hmem with hold | hnew
      · exact (h.ordered before rest' i a j hschedule ha hj hold).trans
          (List.sublist_append_left _ _)
      · obtain rfl := List.mem_singleton.mp hnew
        have hlater : ((pool happens start).after start schedule).Returned i a := by
          rw [hschedule, Machine.after_append]
          exact ha.after rest'
        obtain ⟨first, hfirst, rfl, -⟩ := h.mem_of_returned hlater
        exact (List.singleton_sublist.mpr (List.mem_map_of_mem hfirst)).append
          (List.Sublist.refl [e.caller])

/-- A thread that another thread's turn leaves alone. -/
theorem Accounted.later {i : Nat} {p : Prog σ ε α} (h : Accounted T view does k history i p)
    (hk : k ≤ k') : Accounted T view does k' history i p := by
  rcases h with ⟨hfresh, hp⟩ | ⟨e, he, hcaller, hp⟩
  · exact Or.inl ⟨hfresh, hp.later hk⟩
  · exact Or.inr ⟨e, he, hcaller, hp.later hk⟩

theorem Accounted.extended {i : Nat} {p : Prog σ ε α} {e : Effect ν α}
    (h : Accounted T view does k history i p) (hother : e.caller ≠ i) :
    Accounted T view does k (history ++ [e]) i p := by
  rcases h with ⟨hfresh, hp⟩ | ⟨e', he, hcaller, hp⟩
  · refine Or.inl ⟨fun hmem => ?_, hp⟩
    rw [callers, List.map_append, List.map_singleton] at hmem
    rcases List.mem_append.mp hmem with hold | hnew
    · exact hfresh hold
    · exact hother (List.mem_singleton.mp hnew).symm
  · exact Or.inr ⟨e', List.mem_append_left _ he, hcaller, hp⟩

/-- A turn that adds at most one effect and accounts for all threads. -/
theorem Tracks.snoc (h : Tracks T view does happens start schedule history) {turn : Turn η}
    {history' : List (Effect ν α)} (hgrows : Grows history history' turn)
    (hsequential : Sequential does (view start.state) history'
      (view (((pool happens start).after start schedule).turn happens turn).state))
    (hthreads : ∀ i p,
      (((pool happens start).after start schedule).turn happens turn).threads[i]? = some p →
      Accounted T view does (schedule.length + 1) history' i p) :
    Tracks T view does happens start (schedule ++ [turn]) history' := by
  have hturns : ∀ j ∈ callers history', Turn.thread j ∈ schedule ++ [turn] := by
    intro j hj
    rcases hgrows with rfl | ⟨e, rfl, rfl, -⟩
    · exact List.mem_append_left _ (h.turns j hj)
    · rw [callers, List.map_append, List.map_singleton] at hj
      rcases List.mem_append.mp hj with hold | hnew
      · exact List.mem_append_left _ (h.turns j hold)
      · exact List.mem_append_right _ (List.mem_singleton.mp hnew ▸ List.mem_singleton_self _)
  have honce : (callers history').Nodup := by
    rcases hgrows with rfl | ⟨e, rfl, -, hfresh⟩
    · exact h.once
    · rw [callers, List.map_append, List.map_singleton]
      refine List.nodup_append.mpr ⟨h.once, by simp, fun i hi j hj heq => hfresh ?_⟩
      rwa [← List.mem_singleton.mp hj, ← heq]
  constructor
  case sequential => rwa [after_snoc]
  case once => exact honce
  case threads =>
    rw [after_snoc, List.length_append]
    exact hthreads
  case turns => exact hturns
  case ordered => exact h.ordered_snoc hgrows hturns

/-- A thread has gone on, and the others have been left alone. -/
theorem accounted_set {threads : List (Prog σ ε α)} {q : Prog σ ε α} {i : Nat}
    (hothers : ∀ j p, i ≠ j → threads[j]? = some p → Accounted T view does k history j p)
    (hown : Accounted T view does (k + 1) history i q) (j : Nat) (p : Prog σ ε α)
    (hp : (threads.set i q)[j]? = some p) : Accounted T view does (k + 1) history j p := by
  rcases getElem?_set_cases hp with ⟨rfl, rfl⟩ | ⟨hne, hp⟩
  · exact hown
  · exact (hothers j p hne hp).later (Nat.le_succ k)

/-- **One turn** extends the history by one effect at most. -/
theorem Tracks.turn {done rest : List (Turn η)} {turn : Turn η}
    (hfollows : T.Follows happens start schedule) (hsplit : schedule = done ++ turn :: rest)
    (h : Tracks T view does happens start done history)
    (hworld : ∀ event s, view (happens event s) = view s) :
    ∃ history', Tracks T view does happens start (done ++ [turn]) history' := by
  have hnow := hfollows.states done (turn :: rest) hsplit
  cases turn with
  | world event =>
      refine ⟨history, h.snoc (Or.inl rfl) ?_ fun i p hp => ?_⟩
      · exact (congrArg (Sequential does _ history) (hworld event _)).mpr h.sequential
      · exact (h.threads i p hp).later (Nat.le_succ _)
  | thread i =>
      rcases turn_thread_cases happens ((pool happens start).after start done) i with
        hsame | ⟨β, act, next, hi, hturn⟩
      · refine ⟨history, h.snoc (Or.inl rfl) ?_ ?_⟩
        · rw [hsame]
          exact h.sequential
        · rw [hsame]
          exact fun j p hp => (h.threads j p hp).later (Nat.le_succ _)
      · have htaken := hfollows.taken done i rest act next hsplit hi
        have hview : view (((pool happens start).after start done).turn happens
            (.thread i)).state = view (T.state (done.length + 1)) := by
          rw [T.next htaken, hturn, hnow]
        have hfollows : (((pool happens start).after start done).turn happens
              (.thread i)).threads =
            ((pool happens start).after start done).threads.set i
              (next (act (T.state done.length)).1) := by
          rw [hturn, hnow]
        have hothers : ∀ j p, i ≠ j →
            ((pool happens start).after start done).threads[j]? = some p →
            Accounted T view does done.length history j p := fun j p _ hp => h.threads j p hp
        rcases h.threads i _ hi with ⟨hfresh, hp⟩ | ⟨e, he, hcaller, hp⟩
        · rcases hp _ (Nat.le_refl _) htaken with ⟨hkept, hrest⟩ | ⟨a, hdoes, hrest⟩
          · -- nothing has happened yet
            refine ⟨history, h.snoc (Or.inl rfl) ?_ ?_⟩
            · rw [hview, hkept, hnow]
              exact h.sequential
            · rw [hfollows]
              exact accounted_set hothers (Or.inl ⟨hfresh, hrest⟩)
          · -- the call takes effect
            let e : Effect ν α :=
              { caller := i
                answer := a
                before := view (T.state done.length)
                after := view (T.state (done.length + 1)) }
            refine ⟨history ++ [e], h.snoc (Or.inr ⟨e, rfl, rfl, hfresh⟩) ?_ ?_⟩
            · rw [hview]
              rw [hnow] at hdoes
              exact h.sequential.snoc (e := e) (congrArg view hnow) hdoes
            · rw [hfollows]
              refine accounted_set (fun j p hne hp => ?_)
                (Or.inr ⟨e, List.mem_append_right _ (List.mem_singleton_self e), rfl, hrest⟩)
              exact (hothers j p hne hp).extended hne
        · obtain ⟨hkept, hrest⟩ := hp _ (Nat.le_refl _) htaken
          refine ⟨history, h.snoc (Or.inl rfl) ?_ ?_⟩
          · rw [hview, hkept, hnow]
            exact h.sequential
          · rw [hfollows]
            exact accounted_set hothers (Or.inr ⟨e, he, hcaller, hrest⟩)

/-- A call that has failed has changed nothing. -/
theorem Tracks.quiet_of_failed (h : Tracks T view does happens start schedule history)
    {e : Effect ν α} (he : e ∈ history)
    (hfailed : ((pool happens start).after start schedule).hasFailed e.caller = true) :
    e.after = e.before := by
  obtain ⟨error, hp⟩ := Pool.exists_failed hfailed
  rcases h.threads _ _ hp with ⟨hfresh, -⟩ | ⟨e', he', hcaller, hquiet⟩
  · exact absurd (List.mem_map_of_mem he) hfresh
  · obtain rfl := List.inj_on_of_nodup_map h.once he' he hcaller
    exact hquiet

/-- What is tracked explains the schedule, without the effects of failed calls. -/
theorem Tracks.explains (h : Tracks T view does happens start schedule history) :
    Explains view does happens start schedule (history.filter fun e =>
      !((pool happens start).after start schedule).hasFailed e.caller) := by
  have hcallers : callers (history.filter fun e =>
        !((pool happens start).after start schedule).hasFailed e.caller) =
      (callers history).filter fun i =>
        !((pool happens start).after start schedule).hasFailed i := by
    rw [callers, callers, List.filter_map]
    rfl
  constructor
  case sequential =>
    refine sequential_filter h.sequential fun e he hfailed => h.quiet_of_failed he ?_
    simpa using hfailed
  case once =>
    rw [hcallers]
    exact h.once.filter _
  case returned =>
    intro i a ha
    obtain ⟨e, he, rfl, hanswer⟩ := h.mem_of_returned ha
    exact ⟨e, List.mem_filter.mpr ⟨he, by simp [ha.hasFailed]⟩, rfl, hanswer⟩
  case failed =>
    intro i hi hmem
    rw [hcallers] at hmem
    simpa [hi] using (List.mem_filter.mp hmem).2
  case ordered =>
    intro before rest i a j hsplit ha hj hmem
    rw [hcallers] at hmem ⊢
    obtain ⟨hmem, hnot⟩ := List.mem_filter.mp hmem
    have hlater : ((pool happens start).after start schedule).Returned i a := by
      rw [hsplit, Machine.after_append]
      exact ha.after rest
    have hsub := (h.ordered before rest i a j hsplit ha hj hmem).filter fun i =>
      !((pool happens start).after start schedule).hasFailed i
    have hboth : [i, j].filter (fun i => !((pool happens start).after start schedule).hasFailed i) =
        [i, j] := by
      rw [List.filter_eq_self]
      intro k hk
      rcases List.mem_pair.mp hk with rfl | rfl
      · rw [hlater.hasFailed]
        rfl
      · exact hnot
    rwa [hboth] at hsub

/-- **Every schedule of calls that take effect at once is explained** by a history. -/
theorem explained (hfollows : T.Follows happens start schedule)
    (hthreads : ∀ (i : Nat) (p : Prog σ ε α), start.threads[i]? = some p →
      p.TakesEffect T view (does i) 0)
    (hworld : ∀ event s, view (happens event s) = view s) :
    ∃ history, Explains view does happens start schedule history := by
  have htracks : ∀ done rest, schedule = done ++ rest →
      ∃ history, Tracks T view does happens start done history := by
    intro done
    induction done using List.reverseRecOn with
    | nil =>
        intro rest _
        refine ⟨[], rfl, List.nodup_nil, fun i p hp => Or.inl ⟨?_, hthreads i p hp⟩, ?_, ?_⟩
        · exact List.not_mem_nil
        · exact fun j hj => absurd hj List.not_mem_nil
        · exact fun _ _ _ _ j _ _ _ hj => absurd hj List.not_mem_nil
    | append_singleton done turn ih =>
        intro rest hsplit
        rw [List.append_assoc] at hsplit
        obtain ⟨history, h⟩ := ih _ hsplit
        exact h.turn hfollows hsplit hworld
  obtain ⟨history, h⟩ := htracks schedule [] (List.append_nil schedule).symm
  exact ⟨_, h.explains⟩

end Schedules

end AtomicProgram
