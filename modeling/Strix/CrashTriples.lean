import Strix.StoppedPrograms

/-!
# Triples for programs that are stopped

A triple says of a program what holds before it, what holds when it has ended, and what
holds wherever it is stopped.  If what holds at every stop is what the program needs to
begin with, then it can be stopped any number of times and run again.

* `Triple.bind`: the rule of composition;
* `Triple.restart`: after any number of stopped runs, a run ends as it should.
-/

namespace AtomicProgram

namespace Prog

variable {σ ε α β : Type}

/-- **Before, after, and wherever the program is stopped.** -/
structure Triple (pre : σ → Prop) (p : Prog σ ε α) (post : α → σ → Prop) (crash : σ → Prop) :
    Prop where
  ends : ∀ s, pre s → ∃ a s', p.run s = (.ok a, s') ∧ post a s'
  stops : ∀ s, pre s → ∀ n, crash (p.stopped n s)

namespace Triple

variable {pre pre' : σ → Prop} {crash crash' : σ → Prop} {post : α → σ → Prop}

theorem done (a : α) (hpost : ∀ s, pre s → post a s) (hcrash : ∀ s, pre s → crash s) :
    Triple pre (done a : Prog σ ε α) post crash where
  ends s hs := ⟨a, s, rfl, hpost s hs⟩
  stops s hs n := by
    rw [stopped_done]
    exact hcrash s hs

/-- One atomic step. -/
theorem perform {act : σ → α × σ} (hact : ∀ s, pre s → post (act s).1 (act s).2)
    (hcrash : ∀ s, pre s → crash s ∧ crash (act s).2) :
    Triple pre (perform act : Prog σ ε α) post crash where
  ends s hs := ⟨(act s).1, (act s).2, rfl, hact s hs⟩
  stops s hs n := by
    cases n with
    | zero =>
        rw [stopped_zero]
        exact (hcrash s hs).1
    | succ n =>
        rw [Prog.perform, stopped_step, stopped_done]
        exact (hcrash s hs).2

/-- A step that only reads. -/
theorem observe {read : σ → α} (hread : ∀ s, pre s → post (read s) s)
    (hcrash : ∀ s, pre s → crash s) : Triple pre (observe read : Prog σ ε α) post crash :=
  perform hread fun s hs => ⟨hcrash s hs, hcrash s hs⟩

theorem lift {result : Except ε α} (hok : ∀ s, pre s → ∃ a, result = .ok a ∧ post a s)
    (hcrash : ∀ s, pre s → crash s) :
    Triple pre (lift result : Prog σ ε α) post crash where
  ends s hs := by
    obtain ⟨a, rfl, ha⟩ := hok s hs
    exact ⟨a, s, rfl, ha⟩
  stops s hs n := by
    obtain ⟨a, rfl, -⟩ := hok s hs
    exact (stopped_done n a s).symm ▸ hcrash s hs

/-- **Composition**: what holds after the first program is what the second needs. -/
theorem bind {p : Prog σ ε α} {f : α → Prog σ ε β} {final : β → σ → Prop}
    (post : α → σ → Prop) (hp : Triple pre p post crash)
    (hf : ∀ a, Triple (post a) (f a) final crash) :
    Triple pre (p >>= f) final crash where
  ends s hs := by
    obtain ⟨a, s', hrun, ha⟩ := hp.ends s hs
    rw [run_bind, hrun]
    exact (hf a).ends s' ha
  stops s hs n := by
    obtain ⟨a, s', hrun, ha⟩ := hp.ends s hs
    rw [stopped_bind, hrun]
    split
    · exact hp.stops s hs n
    · exact (hf a).stops s' ha _

/-- A program for each case of what is decided before. -/
theorem ite {condition : Prop} [Decidable condition] {p q : Prog σ ε α}
    (hp : condition → Triple pre p post crash) (hq : ¬condition → Triple pre q post crash) :
    Triple pre (if condition then p else q) post crash := by
  by_cases h : condition
  · rw [if_pos h]
    exact hp h
  · rw [if_neg h]
    exact hq h

/-- Nothing is said of a program that is not reached. -/
theorem impossible {p : Prog σ ε α} (h : ∀ s, ¬pre s) : Triple pre p post crash where
  ends s hs := absurd hs (h s)
  stops s hs := absurd hs (h s)

theorem weaken {p : Prog σ ε α} {post' : α → σ → Prop} (h : Triple pre p post crash)
    (hpre : ∀ s, pre' s → pre s) (hpost : ∀ a s, post a s → post' a s) :
    Triple pre' p post' crash where
  ends s hs := by
    obtain ⟨a, s', hrun, ha⟩ := h.ends s (hpre s hs)
    exact ⟨a, s', hrun, hpost a s' ha⟩
  stops s hs := h.stops s (hpre s hs)

/-- **Stopped and run again**: any number of runs may be stopped before one ends. -/
theorem restart {inv : σ → Prop} {p : Prog σ ε α} (h : Triple inv p post inv) (stops : List Nat)
    {s : σ} (hs : inv s) :
    ∃ a s', p.run (stops.foldl (fun s n => p.stopped n s) s) = (.ok a, s') ∧ post a s' := by
  induction stops generalizing s with
  | nil => exact h.ends s hs
  | cons n stops ih => exact ih (h.stops s hs n)

end Triple

/-! ## States that a stop leaves -/

/-- The program may be stopped in this state. -/
def StopsIn (p : Prog σ ε α) (s s' : σ) : Prop := ∃ n, p.stopped n s = s'

theorem StopsIn.start (p : Prog σ ε α) (s : σ) : StopsIn p s s := ⟨0, stopped_zero p s⟩

theorem StopsIn.step {act : σ → β × σ} {next : β → Prog σ ε α} {s s' : σ}
    (h : StopsIn (next (act s).1) (act s).2 s') : StopsIn (Prog.step act next) s s' := by
  obtain ⟨n, hn⟩ := h
  exact ⟨n + 1, hn⟩

/-- A stop in the first of two programs. -/
theorem StopsIn.left {p : Prog σ ε α} {f : α → Prog σ ε β} {s t : σ} (h : StopsIn p s t) :
    StopsIn (p >>= f) s t := by
  induction p generalizing s with
  | done a =>
      obtain ⟨n, rfl⟩ := h
      rw [stopped_done]
      exact StopsIn.start _ s
  | fail e =>
      obtain ⟨n, rfl⟩ := h
      rw [stopped_fail]
      exact StopsIn.start _ s
  | step act next ih =>
      obtain ⟨n, rfl⟩ := h
      cases n with
      | zero => exact StopsIn.start _ s
      | succ n => exact StopsIn.step (ih _ ⟨n, rfl⟩)

/-- A stop in the second of two programs. -/
theorem StopsIn.bind {p : Prog σ ε α} {f : α → Prog σ ε β} {a : α} {s u t : σ}
    (hp : p.run s = (.ok a, u)) (hf : StopsIn (f a) u t) : StopsIn (p >>= f) s t := by
  induction p generalizing s with
  | done b =>
      obtain ⟨hb, rfl⟩ := Prod.mk.inj hp
      obtain rfl := Except.ok.inj hb
      exact hf
  | fail e => cases hp
  | step act next ih => exact StopsIn.step (ih _ hp)

end Prog

end AtomicProgram
