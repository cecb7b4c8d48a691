import Mathlib.Data.List.Induction
import Strix.RowTable

/-!
# Ledgers of created and deleted rows

A ledger lists the rows that were created and the keys that were deleted, in
their order.  A row stands when no deletion of its key comes after its creation.

A table keeps a ledger when it has every row that stands and no row of a key
that was deleted and not created again.  For a table with one row a key, made of
created rows only, that is the same as having exactly the standing rows
(`kept_iff`).
-/

namespace RowTable

variable {ρ κ : Type}

/-- An entry of a ledger. -/
inductive LedgerEntry (ρ κ : Type)
  | created (row : ρ)
  | deleted (key : κ)
  deriving DecidableEq

open LedgerEntry

/-- The row was created, and its key was not deleted since. -/
def Standing (key : ρ → κ) (ledger : List (LedgerEntry ρ κ)) (row : ρ) : Prop :=
  ∃ earlier later, ledger = earlier ++ created row :: later ∧ deleted (key row) ∉ later

/-- The key was deleted, and no row of it was created since. -/
def Buried (key : ρ → κ) (ledger : List (LedgerEntry ρ κ)) (k : κ) : Prop :=
  ∃ earlier later, ledger = earlier ++ deleted k :: later ∧
    ∀ row, created row ∈ later → key row ≠ k

/-- **The table keeps the ledger.** -/
structure Kept (key : ρ → κ) (ledger : List (LedgerEntry ρ κ)) (rows : List ρ) : Prop where
  standing : ∀ row, Standing key ledger row → row ∈ rows
  buried : ∀ k, Buried key ledger k → ∀ row ∈ rows, key row ≠ k

variable {key : ρ → κ} {ledger : List (LedgerEntry ρ κ)} {rows : List ρ} {row : ρ} {k : κ}

theorem Standing.created_mem (h : Standing key ledger row) : created row ∈ ledger := by
  obtain ⟨earlier, later, rfl, -⟩ := h
  simp

/-- What an entry at the end of a ledger changes. -/
theorem exists_split_concat {P : List (LedgerEntry ρ κ) → Prop} {entry last : LedgerEntry ρ κ} :
    (∃ earlier later, ledger ++ [last] = earlier ++ entry :: later ∧ P later) ↔
      (entry = last ∧ P []) ∨
        ∃ earlier later, ledger = earlier ++ entry :: later ∧ P (later ++ [last]) := by
  constructor
  · intro h
    obtain ⟨earlier, later, hsplit, hlater⟩ := h
    induction later using List.reverseRecOn with
    | nil =>
        have hlast := (List.append_inj' hsplit rfl).2
        exact Or.inl ⟨(List.cons.inj hlast).1.symm, hlater⟩
    | append_singleton front last' _ =>
        have hsplit' : ledger ++ [last] = (earlier ++ entry :: front) ++ [last'] := by
          rw [hsplit, List.append_assoc]
          rfl
        obtain ⟨hfront, hlast⟩ := List.append_inj' hsplit' rfl
        obtain rfl := (List.cons.inj hlast).1
        exact Or.inr ⟨earlier, front, hfront, hlater⟩
  · intro h
    rcases h with ⟨rfl, hnil⟩ | ⟨earlier, later, rfl, hlater⟩
    · exact ⟨ledger, [], rfl, hnil⟩
    · exact ⟨earlier, later ++ [last], by simp, hlater⟩

/-- A creation makes its row stand and leaves the others as they are. -/
theorem standing_created (new : ρ) :
    Standing key (ledger ++ [created new]) row ↔ row = new ∨ Standing key ledger row := by
  unfold Standing
  rw [exists_split_concat]
  simp [created.injEq]

/-- A deletion ends the standing of the rows of its key. -/
theorem standing_deleted :
    Standing key (ledger ++ [deleted k]) row ↔ key row ≠ k ∧ Standing key ledger row := by
  unfold Standing
  rw [exists_split_concat]
  simp only [reduceCtorEq, false_and, false_or, List.mem_append, List.mem_singleton, not_or]
  constructor
  · intro h
    obtain ⟨earlier, later, hsplit, hlater, hne⟩ := h
    exact ⟨fun heq => hne (congrArg deleted heq), earlier, later, hsplit, hlater⟩
  · intro h
    obtain ⟨hne, earlier, later, hsplit, hlater⟩ := h
    exact ⟨earlier, later, hsplit, hlater, fun heq => hne (deleted.inj heq)⟩

theorem buried_created (new : ρ) :
    Buried key (ledger ++ [created new]) k ↔ key new ≠ k ∧ Buried key ledger k := by
  unfold Buried
  rw [exists_split_concat]
  simp only [reduceCtorEq, false_and, false_or, List.mem_append, List.mem_singleton]
  constructor
  · intro h
    obtain ⟨earlier, later, hsplit, hlater⟩ := h
    exact ⟨hlater new (Or.inr rfl), earlier, later, hsplit,
      fun row hrow => hlater row (Or.inl hrow)⟩
  · intro h
    obtain ⟨hne, earlier, later, hsplit, hlater⟩ := h
    refine ⟨earlier, later, hsplit, fun row hrow => ?_⟩
    rcases hrow with hrow | hrow
    · exact hlater row hrow
    · exact created.inj hrow ▸ hne

theorem buried_deleted (gone : κ) :
    Buried key (ledger ++ [deleted gone]) k ↔ k = gone ∨ Buried key ledger k := by
  unfold Buried
  rw [exists_split_concat]
  simp [deleted.injEq]

/-- **A key that was created** stands with some row, or is buried. -/
theorem standing_or_buried (key : ρ → κ) (h : created row ∈ ledger) :
    (∃ row', key row' = key row ∧ Standing key ledger row') ∨ Buried key ledger (key row) := by
  induction ledger using List.reverseRecOn with
  | nil => simp at h
  | append_singleton front last ih =>
      cases last with
      | created new =>
          by_cases hkey : key new = key row
          · exact Or.inl ⟨new, hkey, (standing_created new).mpr (Or.inl rfl)⟩
          · have hfront : created row ∈ front := by
              rcases List.mem_append.mp h with hfront | hlast
              · exact hfront
              · obtain rfl := created.inj (List.mem_singleton.mp hlast)
                exact absurd rfl hkey
            rcases ih hfront with ⟨row', hrow', hstanding⟩ | hburied
            · exact Or.inl ⟨row', hrow', (standing_created new).mpr (Or.inr hstanding)⟩
            · exact Or.inr ((buried_created new).mpr ⟨hkey, hburied⟩)
      | deleted gone =>
          by_cases hkey : key row = gone
          · exact Or.inr ((buried_deleted gone).mpr (Or.inl hkey))
          · have hfront : created row ∈ front := by simpa using h
            rcases ih hfront with ⟨row', hrow', hstanding⟩ | hburied
            · exact Or.inl ⟨row', hrow', standing_deleted.mpr ⟨hrow' ▸ hkey, hstanding⟩⟩
            · exact Or.inr ((buried_deleted gone).mpr (Or.inr hburied))

/-- A row that stands is not buried. -/
theorem Standing.not_buried (h : Standing key ledger row) : ¬Buried key ledger (key row) := by
  induction ledger using List.reverseRecOn with
  | nil => simp [Standing] at h
  | append_singleton front last ih =>
      cases last with
      | created new =>
          intro hburied
          obtain ⟨hne, hburied⟩ := (buried_created new).mp hburied
          rcases (standing_created new).mp h with rfl | hstanding
          · exact hne rfl
          · exact ih hstanding hburied
      | deleted gone =>
          obtain ⟨hne, hstanding⟩ := standing_deleted.mp h
          intro hburied
          rcases (buried_deleted gone).mp hburied with heq | hburied
          · exact hne heq
          · exact ih hstanding hburied

/-- **Keeping the ledger is having the standing rows**, in a table with one row a
key and none that was not created. -/
theorem kept_iff (hkeyed : Keyed key rows) (hcreated : ∀ row ∈ rows, created row ∈ ledger) :
    Kept key ledger rows ↔ ∀ row, row ∈ rows ↔ Standing key ledger row := by
  constructor
  · intro h row
    refine ⟨fun hrow => ?_, h.standing row⟩
    rcases standing_or_buried key (hcreated row hrow) with ⟨row', hkey, hstanding⟩ | hburied
    · obtain rfl := hkeyed.eq_of_mem (h.standing row' hstanding) hrow hkey
      exact hstanding
    · exact absurd rfl (h.buried _ hburied row hrow)
  · intro h
    refine ⟨fun row => (h row).mpr, fun k hburied row hrow hkey => ?_⟩
    subst hkey
    exact ((h row).mp hrow).not_buried hburied

end RowTable
