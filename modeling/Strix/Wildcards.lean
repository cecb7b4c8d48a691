import Mathlib.Data.List.Basic
import Mathlib.Data.List.Forall2
import Mathlib.Data.List.TakeDrop
import Mathlib.Logic.Basic

/-!
# Wildcard patterns

A pattern is a list of symbols: a literal, a placeholder for one symbol, or a
placeholder for any number of them.  `Matches` says which texts it describes.

* `matches_iff_pieces`: a text matches if it is put together from one piece for
  each symbol;
* `matches_append`: a pattern in two parts matches a text in two parts;
* `matches_many_snoc`, `matches_single_snoc`: the last symbol of the pattern
  against the last symbol of the text, the recurrences of the usual table;
* `prefixes`: a row of that table, the values at the front parts of the text.
-/

namespace Wildcards

/-- A symbol of a pattern. -/
inductive Wild (α : Type*)
  | many
  | one
  | lit (a : α)

variable {α : Type*} {p q : List (Wild α)} {v : List α}

/-- The texts that one symbol of a pattern stands for. -/
def Covers : Wild α → List α → Prop
  | .many, _ => True
  | .one, piece => ∃ a, piece = [a]
  | .lit a, piece => piece = [a]

/-- **The pattern matches the text**: each symbol covers a piece of it. -/
def Matches : List (Wild α) → List α → Prop
  | [], v => v = []
  | w :: p, v => ∃ piece rest, v = piece ++ rest ∧ Covers w piece ∧ Matches p rest

/-- **The texts that match** are put together from one piece for each symbol of
the pattern. -/
theorem matches_iff_pieces :
    Matches p v ↔ ∃ pieces, List.Forall₂ Covers p pieces ∧ v = pieces.flatten := by
  induction p generalizing v with
  | nil =>
      constructor
      · intro h
        exact ⟨[], .nil, h⟩
      · intro h
        obtain ⟨pieces, hpieces, rfl⟩ := h
        rw [List.forall₂_nil_left_iff.mp hpieces]
        rfl
  | cons w p ih =>
      constructor
      · intro h
        obtain ⟨piece, rest, rfl, hpiece, hrest⟩ := h
        obtain ⟨pieces, hpieces, rfl⟩ := ih.mp hrest
        exact ⟨piece :: pieces, .cons hpiece hpieces, rfl⟩
      · intro h
        obtain ⟨_, hpieces, rfl⟩ := h
        obtain ⟨piece, pieces, hpiece, hrest, rfl⟩ := List.forall₂_cons_left_iff.mp hpieces
        exact ⟨piece, pieces.flatten, rfl, hpiece, ih.mpr ⟨pieces, hrest, rfl⟩⟩

/-- A pattern of plain symbols matches the text it spells and no other. -/
theorem matches_map_lit {w : List α} : Matches (w.map .lit) v ↔ v = w := by
  induction w generalizing v with
  | nil => exact Iff.rfl
  | cons a w ih =>
      constructor
      · intro h
        obtain ⟨piece, rest, rfl, rfl, hrest⟩ := h
        rw [ih.mp hrest]
        rfl
      · intro h
        subst h
        exact ⟨[a], w, rfl, rfl, ih.mpr rfl⟩

/-- Some text matches a symbol. -/
theorem exists_covers [Nonempty α] (w : Wild α) : ∃ piece, Covers w piece := by
  cases w with
  | many => exact ⟨[], trivial⟩
  | one =>
      obtain ⟨a⟩ := ‹Nonempty α›
      exact ⟨[a], a, rfl⟩
  | lit a => exact ⟨[a], rfl⟩

/-- Some text matches a pattern. -/
theorem exists_matches [Nonempty α] (p : List (Wild α)) : ∃ v, Matches p v := by
  induction p with
  | nil => exact ⟨[], rfl⟩
  | cons w p ih =>
      obtain ⟨piece, hpiece⟩ := exists_covers w
      obtain ⟨rest, hrest⟩ := ih
      exact ⟨piece ++ rest, piece, rest, rfl, hpiece, hrest⟩

/-- A pattern of one symbol. -/
theorem matches_singleton {w : Wild α} : Matches [w] v ↔ Covers w v := by
  constructor
  · intro h
    obtain ⟨piece, rest, rfl, hpiece, rfl⟩ := h
    rwa [List.append_nil]
  · intro h
    exact ⟨v, [], (List.append_nil v).symm, h, rfl⟩

/-- A pattern in two parts matches the texts in two parts. -/
theorem matches_append :
    Matches (p ++ q) v ↔ ∃ front back, v = front ++ back ∧ Matches p front ∧ Matches q back := by
  induction p generalizing v with
  | nil =>
      constructor
      · intro h
        exact ⟨[], v, rfl, rfl, h⟩
      · intro h
        obtain ⟨front, back, rfl, rfl, hback⟩ := h
        exact hback
  | cons w p ih =>
      constructor
      · intro h
        obtain ⟨piece, rest, rfl, hpiece, hrest⟩ := h
        obtain ⟨front, back, rfl, hfront, hback⟩ := ih.mp hrest
        exact ⟨piece ++ front, back, (List.append_assoc ..).symm,
          ⟨piece, front, rfl, hpiece, hfront⟩, hback⟩
      · intro h
        obtain ⟨_, back, rfl, ⟨piece, front, rfl, hpiece, hfront⟩, hback⟩ := h
        exact ⟨piece, front ++ back, List.append_assoc .., hpiece,
          ih.mpr ⟨front, back, rfl, hfront, hback⟩⟩

/-! ## The last symbol -/

/-- The empty text matches a pattern with `many` at its end if it matches the
rest. -/
theorem matches_many_nil : Matches (p ++ [.many]) ([] : List α) ↔ Matches p [] := by
  rw [matches_append]
  constructor
  · intro h
    obtain ⟨front, back, hsplit, hfront, -⟩ := h
    obtain ⟨rfl, -⟩ := List.append_eq_nil_iff.mp hsplit.symm
    exact hfront
  · intro h
    exact ⟨[], [], rfl, h, matches_singleton.mpr trivial⟩

/-- `many` at the end either stands for nothing or takes the last symbol. -/
theorem matches_many_snoc {a : α} :
    Matches (p ++ [.many]) (v ++ [a]) ↔ Matches p (v ++ [a]) ∨ Matches (p ++ [.many]) v := by
  simp only [matches_append, matches_singleton]
  constructor
  · intro h
    obtain ⟨front, back, hsplit, hfront, -⟩ := h
    rcases List.eq_nil_or_concat back with rfl | ⟨back, b, rfl⟩
    · rw [List.append_nil] at hsplit
      rw [← hsplit] at hfront
      exact Or.inl hfront
    · rw [List.concat_eq_append, ← List.append_assoc] at hsplit
      obtain ⟨rfl, -⟩ := List.append_inj' hsplit rfl
      exact Or.inr ⟨front, back, rfl, hfront, trivial⟩
  · intro h
    rcases h with h | ⟨front, back, rfl, hfront, -⟩
    · exact ⟨v ++ [a], [], (List.append_nil _).symm, h, trivial⟩
    · exact ⟨front, back ++ [a], List.append_assoc .., hfront, trivial⟩

/-- Symbols other than `many` cover one symbol of the text. -/
def Single (w : Wild α) (a : α) : Prop :=
  match w with
  | .many => False
  | .one => True
  | .lit b => b = a

theorem covers_iff_single {w : Wild α} (hw : w ≠ .many) {piece : List α} :
    Covers w piece ↔ ∃ a, piece = [a] ∧ Single w a := by
  cases w with
  | many => exact absurd rfl hw
  | one => simp [Covers, Single]
  | lit b => simp [Covers, Single]

/-- The empty text does not match a pattern that ends in another symbol. -/
theorem not_matches_single_nil {w : Wild α} (hw : w ≠ .many) :
    ¬Matches (p ++ [w]) ([] : List α) := by
  intro h
  obtain ⟨front, back, hsplit, -, hback⟩ := matches_append.mp h
  obtain ⟨a, rfl, -⟩ := (covers_iff_single hw).mp (matches_singleton.mp hback)
  simp at hsplit

/-- Another symbol at the end takes the last symbol of the text. -/
theorem matches_single_snoc {w : Wild α} (hw : w ≠ .many) {a : α} :
    Matches (p ++ [w]) (v ++ [a]) ↔ Single w a ∧ Matches p v := by
  rw [matches_append]
  constructor
  · intro h
    obtain ⟨front, back, hsplit, hfront, hback⟩ := h
    obtain ⟨b, rfl, hsingle⟩ := (covers_iff_single hw).mp (matches_singleton.mp hback)
    obtain ⟨rfl, hsame⟩ := List.append_inj' hsplit rfl
    obtain rfl := List.singleton_inj.mp hsame
    exact ⟨hsingle, hfront⟩
  · intro h
    exact ⟨v, [a], rfl, h.2, matches_singleton.mpr ((covers_iff_single hw).mpr ⟨a, rfl, h.1⟩)⟩

/-! ## The table -/

/-- The values of a function at the front parts of a text, from `front` on. -/
def prefixes {β : Type*} (f : List α → β) : List α → List α → List β
  | front, [] => [f front]
  | front, a :: v => f front :: prefixes f (front ++ [a]) v

theorem prefixes_eq_cons {β : Type*} (f : List α → β) (front v : List α) :
    ∃ row, prefixes f front v = f front :: row := by
  cases v with
  | nil => exact ⟨[], rfl⟩
  | cons a v => exact ⟨_, rfl⟩

/-- The last value is that at the whole text. -/
theorem getLastD_prefixes {β : Type*} (f : List α → β) (front v : List α) (d : β) :
    (prefixes f front v).getLastD d = f (front ++ v) := by
  induction v generalizing front d with
  | nil => simp [prefixes]
  | cons a v ih =>
      have hlast := ih (front ++ [a]) (f front)
      rw [List.append_assoc, List.singleton_append] at hlast
      rw [prefixes, List.getLastD_cons]
      exact hlast

end Wildcards
