import Mathlib.Data.List.Basic
import Mathlib.Data.List.Nodup
import Mathlib.Data.List.Sort

/-!
# Tables as lists of rows

A table is the list of its rows in the order they were inserted.  The statements are
`selectFirst`, `updateRows`, `deleteRows`, `insertRow` and `upsertRow`; a unique column
is a function `key` on rows for which the table is `Keyed`.

Every statement keeps a unique column, under the obvious condition on the row
or the assignment, and a unique column makes "the first row that matches" the
only one.  `OnlyLast` is the invariant of a column that marks the row inserted
last.
-/

namespace RowTable

variable {ρ κ : Type}

/-- The first row that matches. -/
def selectFirst (p : ρ → Bool) (rows : List ρ) : Option ρ := rows.find? p

/-- Assign to every row that matches. -/
def updateRows (p : ρ → Bool) (assign : ρ → ρ) (rows : List ρ) : List ρ :=
  rows.map fun r => if p r then assign r else r

/-- Remove every row that matches. -/
def deleteRows (p : ρ → Bool) (rows : List ρ) : List ρ := rows.filter fun r => !p r

/-- Add a row behind all others. -/
def insertRow (row : ρ) (rows : List ρ) : List ρ := rows ++ [row]

/-- Assign to every row that matches, or add a row where none does. -/
def upsertRow (p : ρ → Bool) (assign : ρ → ρ) (row : ρ) (rows : List ρ) : List ρ :=
  if rows.any p then updateRows p assign rows else insertRow row rows

/-- No two rows of the table have the same `key`. -/
def Keyed (key : ρ → κ) (rows : List ρ) : Prop := (rows.map key).Nodup

section Membership

variable {p : ρ → Bool} {assign : ρ → ρ} {rows : List ρ} {r row : ρ}

@[simp] theorem mem_deleteRows : r ∈ deleteRows p rows ↔ r ∈ rows ∧ p r = false := by
  simp [deleteRows]

@[simp] theorem mem_insertRow : r ∈ insertRow row rows ↔ r ∈ rows ∨ r = row := by
  simp [insertRow]

theorem mem_updateRows :
    r ∈ updateRows p assign rows ↔ ∃ old ∈ rows, (if p old then assign old else old) = r := by
  simp [updateRows]

theorem mem_updateRows_of_not (h : r ∈ rows) (hp : p r = false) : r ∈ updateRows p assign rows :=
  mem_updateRows.mpr ⟨r, h, by simp [hp]⟩

theorem assign_mem_updateRows (h : r ∈ rows) (hp : p r = true) :
    assign r ∈ updateRows p assign rows :=
  mem_updateRows.mpr ⟨r, h, by simp [hp]⟩

theorem selectFirst_some (h : selectFirst p rows = some r) : r ∈ rows ∧ p r = true :=
  ⟨List.mem_of_find?_eq_some h, List.find?_some h⟩

theorem selectFirst_none : selectFirst p rows = none ↔ ∀ r ∈ rows, p r = false := by
  simp [selectFirst]

theorem exists_selectFirst (h : r ∈ rows) (hp : p r = true) :
    ∃ first, selectFirst p rows = some first := by
  cases hfirst : selectFirst p rows with
  | some first => exact ⟨first, rfl⟩
  | none =>
      have hno := selectFirst_none.mp hfirst r h
      rw [hp] at hno
      cases hno

/-- Where rows still match after the assignment, it is made to the first that matched. -/
theorem selectFirst_updateRows (h : ∀ r, p r = true → p (assign r) = true) :
    selectFirst p (updateRows p assign rows) = (selectFirst p rows).map assign := by
  induction rows with
  | nil => rfl
  | cons r rows ih =>
      cases hp : p r with
      | true => simp [selectFirst, updateRows, hp, h r hp]
      | false => simpa [selectFirst, updateRows, hp] using ih

/-- Deleting what no row matches changes nothing. -/
theorem deleteRows_eq_self (h : ∀ r ∈ rows, p r = false) : deleteRows p rows = rows := by
  rw [deleteRows, List.filter_eq_self]
  intro r hr
  simp [h r hr]

/-- Deleting twice deletes once. -/
@[simp] theorem deleteRows_deleteRows : deleteRows p (deleteRows p rows) = deleteRows p rows :=
  deleteRows_eq_self fun _ hr => (mem_deleteRows.mp hr).2

end Membership

section Selection

variable {p q : ρ → Bool} {assign : ρ → ρ} {rows : List ρ} {row : ρ}

/-- The first row with a new one behind. -/
theorem selectFirst_insertRow :
    selectFirst p (insertRow row rows) =
      (selectFirst p rows).or (if p row then some row else none) := by
  unfold selectFirst insertRow
  rw [List.find?_append, List.find?_singleton]

/-- An assignment to other rows leaves the first that matches. -/
theorem selectFirst_updateRows_other (h : ∀ r, p r = true → q r = false)
    (hassign : ∀ r, p r = true → q (assign r) = false) :
    selectFirst q (updateRows p assign rows) = selectFirst q rows := by
  induction rows with
  | nil => rfl
  | cons r rows ih =>
      cases hp : p r with
      | true => simpa [selectFirst, updateRows, hp, h r hp, hassign r hp] using ih
      | false =>
          cases hq : q r with
          | true => simp [selectFirst, updateRows, hp, hq]
          | false => simpa [selectFirst, updateRows, hp, hq] using ih

/-- Rows that were deleted are not found. -/
theorem selectFirst_deleteRows_self : selectFirst p (deleteRows p rows) = none := by
  rw [selectFirst_none]
  intro r hr
  exact (mem_deleteRows.mp hr).2

/-- Deleting other rows leaves the first that matches. -/
theorem selectFirst_deleteRows_other (h : ∀ r, p r = true → q r = false) :
    selectFirst q (deleteRows p rows) = selectFirst q rows := by
  induction rows with
  | nil => rfl
  | cons r rows ih =>
      cases hp : p r with
      | true => simpa [selectFirst, deleteRows, hp, h r hp] using ih
      | false =>
          cases hq : q r with
          | true => simp [selectFirst, deleteRows, hp, hq]
          | false => simpa [selectFirst, deleteRows, hp, hq] using ih

/-- What was written is found: the new row, or the first that matched, assigned to. -/
theorem selectFirst_upsertRow (hassign : ∀ r, p r = true → p (assign r) = true)
    (hrow : p row = true) :
    selectFirst p (upsertRow p assign row rows) =
      some (((selectFirst p rows).map assign).getD row) := by
  unfold upsertRow
  by_cases hany : rows.any p = true
  · obtain ⟨r, hr, hp⟩ := List.any_eq_true.mp hany
    obtain ⟨first, hfirst⟩ := exists_selectFirst hr hp
    rw [if_pos hany, selectFirst_updateRows hassign, hfirst]
    rfl
  · have hnone : selectFirst p rows = none := by
      rw [selectFirst_none]
      simpa using hany
    rw [if_neg hany, selectFirst_insertRow, hnone, if_pos hrow]
    rfl

/-- Writing other rows leaves the first that matches. -/
theorem selectFirst_upsertRow_other (h : ∀ r, p r = true → q r = false)
    (hassign : ∀ r, p r = true → q (assign r) = false) (hrow : q row = false) :
    selectFirst q (upsertRow p assign row rows) = selectFirst q rows := by
  unfold upsertRow
  by_cases hany : rows.any p = true
  · rw [if_pos hany, selectFirst_updateRows_other h hassign]
  · rw [if_neg hany, selectFirst_insertRow, hrow]
    simp

/-- An assignment to rows that do not match changes nothing. -/
theorem updateRows_eq_self (h : ∀ r ∈ rows, p r = false) : updateRows p assign rows = rows := by
  calc
    updateRows p assign rows = rows.map id := List.map_congr_left fun r hr => by simp [h r hr]
    _ = rows := List.map_id rows

theorem deleteRows_eq_nil (h : ∀ r ∈ rows, p r = true) : deleteRows p rows = [] := by
  rw [deleteRows, List.filter_eq_nil_iff]
  intro r hr
  simp [h r hr]

theorem filter_deleteRows : (deleteRows p rows).filter q = deleteRows p (rows.filter q) := by
  simp only [deleteRows, List.filter_filter]
  exact List.filter_congr fun r _ => Bool.and_comm _ _

/-- An assignment that keeps rows in or out of a selection commutes with it. -/
theorem filter_updateRows (h : ∀ r, p r = true → q (assign r) = q r) :
    (updateRows p assign rows).filter q = updateRows p assign (rows.filter q) := by
  have hcomp : (q ∘ fun r => if p r then assign r else r) = q := by
    funext r
    by_cases hp : p r = true
    · simp [hp, h r hp]
    · simp [hp]
  rw [updateRows, List.filter_map, hcomp, updateRows]

theorem filter_insertRow_of_pos (h : q row = true) :
    (insertRow row rows).filter q = rows.filter q ++ [row] := by
  simp [insertRow, List.filter_append, h]

theorem filter_insertRow_of_neg (h : q row = false) :
    (insertRow row rows).filter q = rows.filter q := by
  simp [insertRow, List.filter_append, h]

end Selection

section Order

variable {p : ρ → Bool} {before : ρ → ρ → Prop} [DecidableRel before]

/-- Inserting in order commutes with a selection. -/
theorem filter_orderedInsert [IsTrans ρ before] (row : ρ) {rows : List ρ}
    (hsorted : rows.Pairwise before) :
    (rows.orderedInsert before row).filter p =
      if p row then (rows.filter p).orderedInsert before row else rows.filter p := by
  induction rows with
  | nil => cases hrow : p row <;> simp [hrow]
  | cons head rest ih =>
      obtain ⟨hhead, hrest⟩ := List.pairwise_cons.mp hsorted
      by_cases hle : before row head
      · have hfirst : ∀ r ∈ (head :: rest).filter p, before row r := by
          intro r hr
          rcases List.mem_cons.mp (List.mem_filter.mp hr).1 with rfl | hmem
          · exact hle
          · exact IsTrans.trans _ _ _ hle (hhead r hmem)
        have hinsert : ((head :: rest).filter p).orderedInsert before row =
            row :: (head :: rest).filter p := by
          cases hfilter : (head :: rest).filter p with
          | nil => rfl
          | cons first others =>
              exact List.orderedInsert_cons_of_le _ _ (hfirst first (by simp [hfilter]))
        rw [hinsert, List.orderedInsert_cons_of_le _ _ hle]
        cases hrow : p row <;> simp [List.filter_cons, hrow]
      · rw [List.orderedInsert_of_not_le _ _ hle, List.filter_cons, ih hrest, List.filter_cons]
        cases hrow : p row <;> cases hhead : p head <;> simp [hle]

/-- `ORDER BY` commutes with `WHERE`: rows of equal rank keep their order. -/
theorem filter_insertionSort [Std.Total before] [IsTrans ρ before] (rows : List ρ) :
    (rows.insertionSort before).filter p = (rows.filter p).insertionSort before := by
  induction rows with
  | nil => rfl
  | cons row rest ih =>
      rw [List.insertionSort_cons,
        filter_orderedInsert row (List.pairwise_insertionSort before rest), ih]
      cases hrow : p row <;> simp [hrow]

end Order

/-- Of the rows, the last one and no other is marked. -/
def OnlyLast (mark : ρ → Bool) (rows : List ρ) : Prop :=
  (∀ last ∈ rows.getLast?, mark last = true) ∧ ∀ r ∈ rows.dropLast, mark r = false

namespace OnlyLast

variable {mark p : ρ → Bool} {assign : ρ → ρ} {rows front : List ρ} {last : ρ}

theorem nil : OnlyLast mark ([] : List ρ) := ⟨by simp, by simp⟩

theorem concat_iff :
    OnlyLast mark (front ++ [last]) ↔ mark last = true ∧ ∀ r ∈ front, mark r = false := by
  simp [OnlyLast]

/-- Assignments that keep the mark keep it on the last row alone. -/
theorem updateRows (h : OnlyLast mark rows) (hassign : ∀ r, p r = true → mark (assign r) = mark r) :
    OnlyLast mark (updateRows p assign rows) := by
  have hmark : ∀ r, mark (if p r then assign r else r) = mark r := by
    intro r
    by_cases hp : p r = true
    · simp [hp, hassign r hp]
    · simp [hp]
  rcases rows.eq_nil_or_concat' with rfl | ⟨front, last, rfl⟩
  · exact nil
  · rw [concat_iff] at h
    rw [RowTable.updateRows, List.map_append, List.map_singleton, concat_iff]
    refine ⟨(hmark last).trans h.1, ?_⟩
    intro r' hr'
    obtain ⟨r, hr, rfl⟩ := List.mem_map.mp hr'
    exact (hmark r).trans (h.2 r hr)

/-- Whatever is deleted, every row but the last is unmarked. -/
theorem deleteRows (h : OnlyLast mark rows) :
    ∀ r ∈ (deleteRows p rows).dropLast, mark r = false := by
  intro r hr
  rcases rows.eq_nil_or_concat' with rfl | ⟨front, last, rfl⟩
  · cases hr
  · rw [concat_iff] at h
    have hsplit : RowTable.deleteRows p (front ++ [last]) =
        RowTable.deleteRows p front ++ RowTable.deleteRows p [last] := List.filter_append ..
    rw [hsplit] at hr
    cases hp : p last with
    | true =>
        rw [deleteRows_eq_nil (show ∀ r ∈ [last], p r = true by simpa using hp),
          List.append_nil] at hr
        exact h.2 r (mem_deleteRows.mp (List.dropLast_subset _ hr)).1
    | false =>
        rw [deleteRows_eq_self (show ∀ r ∈ [last], p r = false by simpa using hp),
          List.dropLast_concat] at hr
        exact h.2 r (mem_deleteRows.mp hr).1

end OnlyLast

namespace Keyed

variable {key : ρ → κ} {p : ρ → Bool} {assign : ρ → ρ} {rows : List ρ} {r r' row : ρ}

theorem eq_of_mem (h : Keyed key rows) (hr : r ∈ rows) (hr' : r' ∈ rows)
    (heq : key r = key r') : r = r' :=
  List.inj_on_of_nodup_map h hr hr' heq

theorem nil : Keyed key ([] : List ρ) := List.nodup_nil

theorem filter (h : Keyed key rows) : Keyed key (rows.filter p) :=
  List.Nodup.sublist (List.filter_sublist.map key) h

theorem deleteRows (h : Keyed key rows) : Keyed key (deleteRows p rows) := h.filter

/-- At most one row has a given key. -/
theorem length_filter_le_one {k : κ} (h : Keyed key rows)
    (hp : ∀ r ∈ rows, p r = true → key r = k) : (rows.filter p).length ≤ 1 := by
  have hkey : ∀ r ∈ rows.filter p, key r = k := by
    intro r hr
    obtain ⟨hmem, hpr⟩ := List.mem_filter.mp hr
    exact hp r hmem hpr
  have hnodup : Keyed key (rows.filter p) := h.filter
  match rows.filter p, hkey, hnodup with
  | [], _, _ => simp
  | [_], _, _ => simp
  | first :: second :: _, hkey, hnodup =>
      have hsame : key first = key second :=
        (hkey first (by simp)).trans (hkey second (by simp)).symm
      simp [Keyed, hsame] at hnodup

/-- The rows before the last one have other keys. -/
theorem ne_last {front : List ρ} {last : ρ} (h : Keyed key (front ++ [last])) :
    ∀ r ∈ front, key r ≠ key last := by
  simp only [Keyed, List.map_append, List.map_singleton] at h
  intro r hr
  exact (List.nodup_append.mp h).2.2 _ (List.mem_map.mpr ⟨r, hr, rfl⟩) _
    (List.mem_singleton.mpr rfl)

theorem updateRows (h : Keyed key rows) (hkey : ∀ r, p r = true → key (assign r) = key r) :
    Keyed key (updateRows p assign rows) := by
  have hsame : (RowTable.updateRows p assign rows).map key = rows.map key := by
    simp only [RowTable.updateRows, List.map_map]
    refine List.map_congr_left fun r _ => ?_
    by_cases hp : p r = true <;> simp [hp, hkey]
  rw [Keyed, hsame]
  exact h

theorem insertRow (h : Keyed key rows) (hnew : ∀ r ∈ rows, key r ≠ key row) :
    Keyed key (insertRow row rows) := by
  simp only [Keyed, RowTable.insertRow, List.map_append, List.map_cons, List.map_nil]
  refine List.nodup_append.mpr ⟨h, by simp, ?_⟩
  intro a ha b hb
  obtain ⟨r, hr, rfl⟩ := List.mem_map.mp ha
  rw [List.mem_singleton.mp hb]
  exact hnew r hr

/-- When the statement matches rows of one key only, the row it matches is
the one it finds. -/
theorem selectFirst (h : Keyed key rows) (hr : r ∈ rows) (hp : p r = true)
    (hkey : ∀ r', p r' = true → key r' = key r) :
    selectFirst p rows = some r := by
  obtain ⟨first, hfirst⟩ := exists_selectFirst hr hp
  obtain ⟨hmem, hpf⟩ := selectFirst_some hfirst
  rw [hfirst, h.eq_of_mem hmem hr (hkey first hpf)]

end Keyed

end RowTable
