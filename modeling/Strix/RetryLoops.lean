import Mathlib.Data.List.Range
import Mathlib.Order.Basic

/-!
# Retry loops

Something is tried until a try stops the loop, or as often as is allowed.  Meanwhile
the loop may keep the latest thing that some try has shown.

* `tried_unique`, `exists_tried`: how often it is tried is determined;
* `latest_eq_iff`: when the latest thing that was shown is what the last try shows.
-/

namespace RetryLoops

variable {β γ : Type*} (outcome : Nat → β) (stops : β → Bool)

/-- **So many tries are made**: none before the last one stops the loop, and the last one
does, unless it is the last that is allowed. -/
structure Tried (limit tries : Nat) : Prop where
  pos : 0 < tries
  le : tries ≤ limit
  before : ∀ i, i + 1 < tries → stops (outcome i) = false
  last : tries < limit → stops (outcome (tries - 1)) = true

variable {outcome stops}

/-- Only one number of tries is made. -/
theorem tried_unique {limit tries tries' : Nat} (h : Tried outcome stops limit tries)
    (h' : Tried outcome stops limit tries') : tries = tries' := by
  have hnot {m n : Nat} (hm : Tried outcome stops limit m) (hn : Tried outcome stops limit n) :
      ¬m < n := by
    intro hlt
    have hstop := hm.last (Nat.lt_of_lt_of_le hlt hn.le)
    have hpos := hm.pos
    rw [hn.before (m - 1) (by omega)] at hstop
    cases hstop
  exact Nat.le_antisymm (Nat.not_lt.mp (hnot h' h)) (Nat.not_lt.mp (hnot h h'))

/-- Some number of tries is made, if one is allowed. -/
theorem exists_tried {limit : Nat} (hlimit : 0 < limit) :
    ∃ tries, Tried outcome stops limit tries := by
  induction limit with
  | zero => exact absurd hlimit (Nat.lt_irrefl 0)
  | succ limit ih =>
      by_cases hfirst : limit = 0
      · subst hfirst
        exact ⟨1, Nat.one_pos, Nat.le_refl 1, fun i hi => by omega, fun hlt => by omega⟩
      · obtain ⟨tries, htried⟩ := ih (Nat.pos_of_ne_zero hfirst)
        have hpos := htried.pos
        have hle := htried.le
        by_cases hstop : stops (outcome (tries - 1)) = true
        · exact ⟨tries, hpos, by omega, htried.before, fun _ => hstop⟩
        · have hall : tries = limit := by
            by_contra hne
            exact hstop (htried.last (by omega))
          refine ⟨limit + 1, Nat.succ_pos limit, Nat.le_refl _, fun i hi => ?_,
            fun hlt => absurd hlt (Nat.lt_irrefl _)⟩
          by_cases hi' : i + 1 < tries
          · exact htried.before i hi'
          · have hi'' : i = tries - 1 := by omega
            rw [hi'']
            exact eq_false_of_ne_true hstop

/-- The latest thing that the first tries have shown. -/
def latest (shows : β → Option γ) (outcome : Nat → β) : Nat → Option γ
  | 0 => none
  | n + 1 => (shows (outcome n)).or (latest shows outcome n)

variable {shows : β → Option γ}

/-- Nothing was shown before a try exactly if no try before it has shown anything. -/
theorem latest_eq_none_iff {n : Nat} :
    latest shows outcome n = none ↔ ∀ i, i < n → shows (outcome i) = none := by
  induction n with
  | zero => simp [latest]
  | succ n ih =>
      rw [latest, Option.or_eq_none_iff, ih]
      constructor
      · intro h i hi
        by_cases hlast : i = n
        · rw [hlast]
          exact h.1
        · exact h.2 i (by omega)
      · intro h
        exact ⟨h n (Nat.lt_succ_self n), fun i hi => h i (by omega)⟩

/-- **The latest thing is the last try's** exactly if the last try shows something, or no
try before it did. -/
theorem latest_eq_iff {n : Nat} :
    latest shows outcome (n + 1) = shows (outcome n) ↔
      ((shows (outcome n)).isSome ∨ ∀ i, i < n → shows (outcome i) = none) := by
  rw [latest, ← latest_eq_none_iff]
  cases hlast : shows (outcome n) with
  | none => simp
  | some shown => simp

end RetryLoops
