import Strix.Interleaving

/-!
# The steps of one thread

What a thread has come to depends on nothing but the states in which it took
its turns.  `Prog.feed` gives a program one step in each state of a list, and
`Pool.turnsOf` lists the states in which a thread takes the turns of a schedule.

* `threads_after`: after a schedule, a thread is its program fed with those states;
* `turnsOf_split` and `mem_turnsOf`: the states are states of the schedule;
* `Ends.bind` and its companions take a program that has ended apart, piece by
  piece, and say in which state each step was taken; `Comes.bind` does so with
  a program that has come to some step.
-/

namespace AtomicProgram

open MachineRuns

variable {σ ε α β η : Type}

namespace Prog

/-- Give a program one step in each of the states.  One that has ended stays as it is. -/
def feed (p : Prog σ ε α) (states : List σ) : Prog σ ε α :=
  states.foldl (fun p s => (p.advance s).1) p

@[simp] theorem feed_nil (p : Prog σ ε α) : p.feed [] = p := rfl

@[simp] theorem feed_cons (p : Prog σ ε α) (s : σ) (states : List σ) :
    p.feed (s :: states) = (p.advance s).1.feed states := rfl

theorem feed_append (p : Prog σ ε α) (left right : List σ) :
    p.feed (left ++ right) = (p.feed left).feed right := List.foldl_append

@[simp] theorem feed_done (a : α) (states : List σ) :
    (done a : Prog σ ε α).feed states = done a := by
  induction states with
  | nil => rfl
  | cons s states ih => exact ih

@[simp] theorem feed_fail (e : ε) (states : List σ) :
    (fail e : Prog σ ε α).feed states = fail e := by
  induction states with
  | nil => rfl
  | cons s states ih => exact ih

/-- **The program ends with a value**, taking its steps in the given states. -/
def Ends (p : Prog σ ε α) (states : List σ) (a : α) : Prop := p.feed states = done a

theorem ends_done {a b : α} {states : List σ} :
    (done a : Prog σ ε α).Ends states b ↔ a = b := by
  rw [Ends, feed_done]
  exact ⟨fun h => by cases h; rfl, congrArg done⟩

theorem not_ends_fail {e : ε} {b : α} {states : List σ} :
    ¬ (fail e : Prog σ ε α).Ends states b := by
  rw [Ends, feed_fail]
  intro h
  cases h

/-- A step that has ended was taken in the first of the states. -/
theorem ends_step {act : σ → β × σ} {next : β → Prog σ ε α} {b : α} {states : List σ}
    (h : (step act next).Ends states b) :
    ∃ s rest, states = s :: rest ∧ (next (act s).1).Ends rest b := by
  cases states with
  | nil => cases h
  | cons s rest => exact ⟨s, rest, rfl, h⟩

/-- A reading step that has ended has read one of the states. -/
theorem Ends.of_observe {read : σ → α} {a : α} {states : List σ}
    (h : (observe read : Prog σ ε α).Ends states a) :
    ∃ s rest, states = s :: rest ∧ read s = a := by
  obtain ⟨s, rest, rfl, hread⟩ := ends_step h
  exact ⟨s, rest, rfl, ends_done.mp hread⟩

theorem Ends.of_require {value : Option α} {e : ε} {a : α} {states : List σ}
    (h : (require value e : Prog σ ε α).Ends states a) : value = some a := by
  cases value with
  | some b => exact congrArg some (ends_done.mp h)
  | none => exact absurd h not_ends_fail

theorem Ends.of_lift {result : Except ε α} {a : α} {states : List σ}
    (h : (lift result : Prog σ ε α).Ends states a) : result = .ok a := by
  cases result with
  | ok b => exact congrArg Except.ok (ends_done.mp h)
  | error e => exact absurd h not_ends_fail

/-- **A program before another** takes the first of the states, the other the rest: fed with
the first, the two have come to the other. -/
theorem Ends.bind_feed {p : Prog σ ε α} {f : α → Prog σ ε β} {b : β} {states : List σ}
    (h : (p >>= f).Ends states b) :
    ∃ left right a, states = left ++ right ∧ p.Ends left a ∧ (p >>= f).feed left = f a ∧
      (f a).Ends right b := by
  induction p generalizing states with
  | done a => exact ⟨[], states, a, rfl, rfl, rfl, h⟩
  | fail e => exact absurd h not_ends_fail
  | step act next ih =>
      obtain ⟨s, rest, rfl, hrest⟩ := ends_step h
      obtain ⟨left, right, a, rfl, hleft, hfeed, hright⟩ := ih _ hrest
      exact ⟨s :: left, right, a, rfl, hleft, hfeed, hright⟩

theorem Ends.bind {p : Prog σ ε α} {f : α → Prog σ ε β} {b : β} {states : List σ}
    (h : (p >>= f).Ends states b) :
    ∃ left right a, states = left ++ right ∧ p.Ends left a ∧ (f a).Ends right b := by
  obtain ⟨left, right, a, hsplit, hleft, -, hright⟩ := h.bind_feed
  exact ⟨left, right, a, hsplit, hleft, hright⟩

theorem Ends.perform_bind {act : σ → α × σ} {f : α → Prog σ ε β} {b : β} {states : List σ}
    (h : (perform act >>= f).Ends states b) :
    ∃ s rest, states = s :: rest ∧ (f (act s).1).Ends rest b := ends_step h

theorem Ends.observe_bind {read : σ → α} {f : α → Prog σ ε β} {b : β} {states : List σ}
    (h : (observe read >>= f).Ends states b) :
    ∃ s rest, states = s :: rest ∧ (f (read s)).Ends rest b := ends_step h

theorem Ends.ensure_bind {condition : Bool} {e : ε} {f : Unit → Prog σ ε β} {b : β}
    {states : List σ} (h : (ensure condition e >>= f).Ends states b) :
    condition = true ∧ (f ()).Ends states b := by
  cases condition with
  | true => exact ⟨rfl, h⟩
  | false => exact absurd h not_ends_fail

theorem Ends.require_bind {value : Option α} {e : ε} {f : α → Prog σ ε β} {b : β}
    {states : List σ} (h : (require value e >>= f).Ends states b) :
    ∃ a, value = some a ∧ (f a).Ends states b := by
  cases value with
  | some a => exact ⟨a, rfl, h⟩
  | none => exact absurd h not_ends_fail

theorem Ends.lift_bind {result : Except ε α} {f : α → Prog σ ε β} {b : β} {states : List σ}
    (h : (lift result >>= f).Ends states b) :
    ∃ a, result = .ok a ∧ (f a).Ends states b := by
  cases result with
  | ok a => exact ⟨a, rfl, h⟩
  | error e => exact absurd h not_ends_fail

/-! ## Steps to come -/

/-- **The program comes to a step**, taking the steps before it in the given states. -/
def Comes (p : Prog σ ε α) (states : List σ) (act : σ → β × σ) : Prop :=
  ∃ next : β → Prog σ ε α, p.feed states = step act next

/-- What is left of a program has steps of the same kind. -/
theorem Only.feed {K : ∀ ⦃β : Type⦄, (σ → β × σ) → Prop} {p : Prog σ ε α} (hp : Only K p)
    (states : List σ) : Only K (p.feed states) := by
  induction states generalizing p with
  | nil => exact hp
  | cons s states ih =>
      refine ih ?_
      cases p with
      | done a => exact hp
      | fail e => exact hp
      | step act next => exact hp.2 _

/-- Every step that a program comes to is of the kind of all its steps. -/
theorem Only.comes {K : ∀ ⦃β : Type⦄, (σ → β × σ) → Prop} {p : Prog σ ε α}
    {states : List σ} {act : σ → β × σ} (hp : Only K p) (h : p.Comes states act) : K act := by
  obtain ⟨next, hnext⟩ := h
  have honly := hp.feed states
  rw [hnext] at honly
  exact honly.1

/-- **A program before another**: the step is one of its own, or it has ended, and the
other comes to the step in the states that are left. -/
theorem Comes.bind {γ : Type} {p : Prog σ ε α} {f : α → Prog σ ε β} {states : List σ}
    {act : σ → γ × σ} (h : (p >>= f).Comes states act) :
    p.Comes states act ∨ ∃ left right a, states = left ++ right ∧ p.Ends left a ∧
      (p >>= f).feed left = f a ∧ (f a).Comes right act := by
  induction p generalizing states with
  | done a => exact Or.inr ⟨[], states, a, rfl, rfl, rfl, h⟩
  | fail e =>
      obtain ⟨next, hnext⟩ := h
      cases (feed_fail e states).symm.trans hnext
  | step own next ih =>
      cases states with
      | nil =>
          obtain ⟨next', hnext⟩ := h
          cases hnext
          exact Or.inl ⟨_, rfl⟩
      | cons s states =>
          rcases ih _ h with hown | ⟨left, right, a, rfl, hends, hfeed, hcomes⟩
          · exact Or.inl hown
          · exact Or.inr ⟨s :: left, right, a, rfl, hends, hfeed, hcomes⟩

/-- **The program takes a step** in one of the states that it is fed with. -/
def Takes (p : Prog σ ε α) (states : List σ) (act : σ → β × σ) (s : σ) : Prop :=
  ∃ left right, ∃ next : β → Prog σ ε α, states = left ++ s :: right ∧ p.feed left = step act next

theorem takes_first {act : σ → β × σ} {next : β → Prog σ ε α} {s : σ} {states : List σ} :
    (step act next).Takes (s :: states) act s := ⟨[], states, next, rfl, rfl⟩

/-- What the rest of a program takes, the program takes. -/
theorem Takes.later {p q : Prog σ ε α} {left right : List σ} {act : σ → β × σ} {s : σ}
    (hfeed : p.feed left = q) (h : q.Takes right act s) : p.Takes (left ++ right) act s := by
  obtain ⟨front, back, next, rfl, hnext⟩ := h
  refine ⟨left ++ front, back, next, (List.append_assoc _ _ _).symm, ?_⟩
  rw [feed_append, hfeed, hnext]

/-! ## What is left of a program -/

/-- **What is left:** of the states that a program is fed with, some are past, and through
these it has come to `rest`, which ends through those to come. -/
structure Left (whole : Prog σ ε α) (states past : List σ) (rest : Prog σ ε α)
    (future : List σ) (a : α) : Prop where
  split : states = past ++ future
  feed : whole.feed past = rest
  ends : rest.Ends future a

theorem Ends.left {p : Prog σ ε α} {states : List σ} {a : α} (h : p.Ends states a) :
    Left p states [] p states a := ⟨rfl, rfl, h⟩

section Left

variable {whole : Prog σ ε α} {states past future : List σ} {b : α}

/-- The next step that is left is taken in the next of the states. -/
theorem Left.perform {act : σ → β × σ} {f : β → Prog σ ε α}
    (h : Left whole states past (Prog.perform act >>= f) future b) :
    ∃ s later, future = s :: later ∧ whole.Takes states act s ∧
      Left whole states (past ++ [s]) (f (act s).1) later b := by
  obtain ⟨s, later, rfl, hlater⟩ := ends_step h.ends
  refine ⟨s, later, rfl, ⟨past, later, f, h.split, h.feed⟩, ?_, ?_, hlater⟩
  · rw [h.split, List.append_assoc]
    rfl
  · rw [feed_append, h.feed]
    rfl

theorem Left.observe {read : σ → β} {f : β → Prog σ ε α}
    (h : Left whole states past (Prog.observe read >>= f) future b) :
    ∃ s later, future = s :: later ∧ Left whole states (past ++ [s]) (f (read s)) later b := by
  obtain ⟨s, later, hfuture, -, hleft⟩ := h.perform
  exact ⟨s, later, hfuture, hleft⟩

theorem Left.ensure {condition : Bool} {e : ε} {f : Unit → Prog σ ε α}
    (h : Left whole states past (Prog.ensure condition e >>= f) future b) :
    condition = true ∧ Left whole states past (f ()) future b := by
  cases condition with
  | true => exact ⟨rfl, h⟩
  | false => exact absurd h.ends not_ends_fail

theorem Left.require {value : Option β} {e : ε} {f : β → Prog σ ε α}
    (h : Left whole states past (Prog.require value e >>= f) future b) :
    ∃ a, value = some a ∧ Left whole states past (f a) future b := by
  cases value with
  | some a => exact ⟨a, rfl, h⟩
  | none => exact absurd h.ends not_ends_fail

theorem Left.lift {result : Except ε β} {f : β → Prog σ ε α}
    (h : Left whole states past (Prog.lift result >>= f) future b) :
    ∃ a, result = .ok a ∧ Left whole states past (f a) future b := by
  cases result with
  | ok a => exact ⟨a, rfl, h⟩
  | error e => exact absurd h.ends not_ends_fail

end Left

end Prog

/-! ## The turns of a thread -/

section Turns

variable {happens : η → σ → σ} {start c : Pool σ ε α} {i : Nat}

/-- The states in which a thread takes the turns of a schedule. -/
def Pool.turnsOf (happens : η → σ → σ) (i : Nat) : Pool σ ε α → List (Turn η) → List σ
  | _, [] => []
  | c, .world event :: schedule => turnsOf happens i (c.turn happens (.world event)) schedule
  | c, .thread j :: schedule =>
    let rest := turnsOf happens i (c.turn happens (.thread j)) schedule
    if j = i then c.state :: rest else rest

theorem Pool.threads_turn_thread (c : Pool σ ε α) (i : Nat) :
    (c.turn happens (.thread i)).threads[i]? =
      c.threads[i]?.map fun p => (p.advance c.state).1 := by
  cases hp : c.threads[i]? with
  | none => simp [Pool.turn, hp]
  | some p =>
      obtain ⟨hlt, rfl⟩ := List.getElem?_eq_some_iff.mp hp
      simp [Pool.turn, hlt]

theorem Pool.threads_turn_other (c : Pool σ ε α) {i j : Nat} (hne : j ≠ i) :
    (c.turn happens (.thread j)).threads[i]? = c.threads[i]? := by
  cases hp : c.threads[j]? with
  | none => simp [Pool.turn, hp]
  | some p => simp [Pool.turn, hp, List.getElem?_set_ne hne]

/-- **A thread is its program fed with the states in which it took its turns.** -/
theorem threads_after (schedule : List (Turn η)) :
    ((pool happens start).after c schedule).threads[i]? =
      c.threads[i]?.map fun p => p.feed (c.turnsOf happens i schedule) := by
  induction schedule generalizing c with
  | nil =>
      change c.threads[i]? = c.threads[i]?.map fun p => p
      rw [Option.map_id']
  | cons turn schedule ih =>
      rw [Machine.after_cons, ih]
      cases turn with
      | world event => rfl
      | thread j =>
          change (c.turn happens (.thread j)).threads[i]?.map _ = _
          by_cases hij : j = i
          · subst hij
            rw [Pool.threads_turn_thread, Option.map_map, Pool.turnsOf, if_pos rfl]
            rfl
          · rw [Pool.threads_turn_other c hij, Pool.turnsOf, if_neg hij]
            rfl

/-- The program of a thread that has returned has ended in the states of its turns. -/
theorem Pool.Returned.ends {schedule : List (Turn η)} {p : Prog σ ε α} {a : α}
    (h : ((pool happens start).after c schedule).Returned i a) (hp : c.threads[i]? = some p) :
    p.Ends (c.turnsOf happens i schedule) a := by
  rw [Pool.Returned, threads_after, hp] at h
  exact Option.some.inj h

/-- **A turn of a thread in a schedule**, with the states of its turns before it. -/
theorem turnsOf_split {schedule : List (Turn η)} {left right : List σ} {s : σ}
    (h : c.turnsOf happens i schedule = left ++ s :: right) :
    ∃ before rest, schedule = before ++ .thread i :: rest ∧
      c.turnsOf happens i before = left ∧ ((pool happens start).after c before).state = s := by
  induction schedule generalizing c left with
  | nil =>
      rw [Pool.turnsOf] at h
      cases left <;> cases h
  | cons turn schedule ih =>
      have hskip : ∀ left', (c.turn happens turn).turnsOf happens i schedule =
          left' ++ s :: right → (∀ before, c.turnsOf happens i (turn :: before) = left ↔
            (c.turn happens turn).turnsOf happens i before = left') →
          ∃ before rest, turn :: schedule = before ++ .thread i :: rest ∧
            c.turnsOf happens i before = left ∧
              ((pool happens start).after c before).state = s := by
        intro left' hrest hleft
        obtain ⟨before, rest, rfl, hturns, hstate⟩ := ih hrest
        exact ⟨turn :: before, rest, rfl, (hleft before).mpr hturns, hstate⟩
      cases turn with
      | world event => exact hskip left h fun before => Iff.rfl
      | thread j =>
          by_cases hij : j = i
          · subst hij
            have hturns : ∀ before, c.turnsOf happens j (.thread j :: before) =
                c.state :: (c.turn happens (.thread j)).turnsOf happens j before :=
              fun before => if_pos rfl
            rw [hturns] at h
            cases left with
            | nil =>
                obtain ⟨hstate, -⟩ := List.cons.inj h
                exact ⟨[], schedule, rfl, rfl, hstate⟩
            | cons s' left =>
                obtain ⟨hstate, hrest⟩ := List.cons.inj h
                refine hskip left hrest fun before => ?_
                rw [hturns, hstate, List.cons.injEq, and_iff_right rfl]
          · have hturns : ∀ before, c.turnsOf happens i (.thread j :: before) =
                (c.turn happens (.thread j)).turnsOf happens i before :=
              fun before => if_neg hij
            rw [hturns] at h
            exact hskip left h fun before => by rw [hturns]

/-- **A step that the program of a thread takes** is one of its turns in the schedule. -/
theorem Prog.Takes.turn {schedule : List (Turn η)} {p : Prog σ ε α} {act : σ → β × σ} {s : σ}
    (hp : c.threads[i]? = some p) (h : p.Takes (c.turnsOf happens i schedule) act s) :
    ∃ before rest, schedule = before ++ .thread i :: rest ∧
      ((pool happens start).after c before).state = s ∧
      ((pool happens start).after c before).Before i (Prog.perform act : Prog σ ε β) ∧
      ((pool happens start).after c (before ++ [.thread i])).state = (act s).2 := by
  obtain ⟨left, right, next, hturns, hfeed⟩ := h
  obtain ⟨before, rest, hsplit, hleft, hstate⟩ : ∃ before rest,
      schedule = before ++ .thread i :: rest ∧ c.turnsOf happens i before = left ∧
      ((pool happens start).after c before).state = s := turnsOf_split hturns
  have hthread : ((pool happens start).after c before).threads[i]? = some (.step act next) := by
    rw [threads_after, hp, Option.map_some, hleft, hfeed]
  refine ⟨before, rest, hsplit, hstate, ⟨next, hthread⟩, ?_⟩
  have hturn : ((pool happens start).after c before).turn happens (.thread i) = _ :=
    turn_step hthread
  rw [Machine.after_append, ← hstate]
  exact congrArg Pool.state hturn

/-- **Two turns of a thread**, one after the other. -/
theorem turnsOf_pair {schedule : List (Turn η)} {left middle right : List σ} {s s' : σ}
    (h : c.turnsOf happens i schedule = left ++ s :: (middle ++ s' :: right)) :
    ∃ before between rest, schedule = before ++ .thread i :: (between ++ .thread i :: rest) ∧
      ((pool happens start).after c before).state = s ∧
      ((pool happens start).after c (before ++ .thread i :: between)).state = s' := by
  have hsecond : c.turnsOf happens i schedule = (left ++ s :: middle) ++ s' :: right := by
    rw [h, List.append_assoc, List.cons_append]
  obtain ⟨earlier, rest, rfl, hturns, hlater⟩ : ∃ earlier rest,
      schedule = earlier ++ .thread i :: rest ∧
      c.turnsOf happens i earlier = left ++ s :: middle ∧
      ((pool happens start).after c earlier).state = s' := turnsOf_split hsecond
  obtain ⟨before, between, rfl, -, hfirst⟩ : ∃ before between,
      earlier = before ++ .thread i :: between ∧ c.turnsOf happens i before = left ∧
      ((pool happens start).after c before).state = s := turnsOf_split hturns
  exact ⟨before, between, rest, by rw [List.append_assoc, List.cons_append], hfirst, hlater⟩

/-- A state in which a thread takes a turn is one of the schedule. -/
theorem mem_turnsOf {schedule : List (Turn η)} {s : σ} (h : s ∈ c.turnsOf happens i schedule) :
    ∃ before rest, schedule = before ++ .thread i :: rest ∧
      ((pool happens start).after c before).state = s := by
  obtain ⟨left, right, hsplit⟩ := List.append_of_mem h
  exact (turnsOf_split hsplit).imp fun before h => h.imp fun rest h => ⟨h.1, h.2.2⟩

end Turns

end AtomicProgram
