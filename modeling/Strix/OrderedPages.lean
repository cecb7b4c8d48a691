import Mathlib.Data.List.Sort
import Mathlib.Data.List.Pairwise
import Mathlib.Order.Lattice

/-!
# The first page of a sorted selection

A query selects rows, sorts them by a key, highest first, and gives a page of them.
Rows of one key come in any order, and in another one for the next page.  What is
wanted are rows chosen otherwise, ordered by a rank that the key stands for.

* `Sorter`: the orders a table may come in;
* `take_falls_iff`: whatever the order, the first page is the wanted rows in the wanted
  order, exactly if they fit the page, are all selected and ranked as their keys are,
  and the rows selected beside them, if there are any, all come behind a full page.
-/

namespace OrderedPages

variable {ρ κ τ : Type} [LinearOrder κ] [LinearOrder τ]

/-- The rows, highest key first. -/
structure Falls (key : ρ → κ) (rows order : List ρ) : Prop where
  perm : order.Perm rows
  falls : order.Pairwise fun r s => key s ≤ key r

/-- `ORDER BY key DESC`: rows of one key in any order. -/
structure Sorter (key : ρ → κ) where
  sort : List ρ → List ρ
  falls : ∀ rows, Falls key rows (sort rows)

/-- `LIMIT limit OFFSET offset`. -/
def page (limit offset : Nat) (rows : List ρ) : List ρ := (rows.drop offset).take limit

@[simp] theorem page_zero (limit : Nat) (rows : List ρ) : page limit 0 rows = rows.take limit := by
  simp [page]

/-! ## Orders of rows of one key -/

section Ties

variable {key : ρ → κ}

/-- Highest key first, and rows of one key in order of a rank. -/
def Before (key : ρ → κ) (rank : ρ → τ) (r s : ρ) : Prop :=
  key s < key r ∨ (key r = key s ∧ rank r ≤ rank s)

instance (key : ρ → κ) (rank : ρ → τ) : DecidableRel (Before key rank) :=
  fun r s => inferInstanceAs (Decidable (key s < key r ∨ (key r = key s ∧ rank r ≤ rank s)))

instance (key : ρ → κ) (rank : ρ → τ) : Std.Total (Before key rank) where
  total r s := by
    rcases lt_trichotomy (key r) (key s) with h | h | h
    · exact .inr (.inl h)
    · rcases le_total (rank r) (rank s) with hrank | hrank
      · exact .inl (.inr ⟨h, hrank⟩)
      · exact .inr (.inr ⟨h.symm, hrank⟩)
    · exact .inl (.inl h)

instance (key : ρ → κ) (rank : ρ → τ) : IsTrans ρ (Before key rank) where
  trans r s t hrs hst := by
    rcases hrs with hrs | ⟨hrs, hrank⟩
    · rcases hst with hst | ⟨hst, -⟩
      · exact .inl (hst.trans hrs)
      · exact .inl (hst ▸ hrs)
    · rcases hst with hst | ⟨hst, hrank'⟩
      · exact .inl (hrs ▸ hst)
      · exact .inr ⟨hrs.trans hst, hrank.trans hrank'⟩

theorem Before.le {rank : ρ → τ} {r s : ρ} (h : Before key rank r s) : key s ≤ key r := by
  rcases h with h | ⟨h, -⟩
  · exact h.le
  · exact h.ge

/-- The sorter that orders rows of one key by a rank. -/
def Sorter.ranked (key : ρ → κ) (rank : ρ → τ) : Sorter key where
  sort rows := rows.insertionSort (Before key rank)
  falls rows :=
    ⟨List.perm_insertionSort _ rows,
      (List.pairwise_insertionSort (Before key rank) rows).imp Before.le⟩

theorem Sorter.ranked_pairwise (key : ρ → κ) (rank : ρ → τ) (rows : List ρ) :
    ((Sorter.ranked key rank).sort rows).Pairwise (Before key rank) :=
  List.pairwise_insertionSort (Before key rank) rows

end Ties

/-! ## The first page -/

section First

variable {key : ρ → κ} {rank : ρ → τ} {selected wanted : ρ → Bool} {rows : List ρ} {limit : Nat}

/-- A list with what is wanted in front is split by being wanted. -/
theorem filter_append_filter {order : List ρ}
    (h : order.Pairwise fun r s => wanted s = true → wanted r = true) :
    order.filter wanted ++ order.filter (fun r => !wanted r) = order := by
  induction order with
  | nil => rfl
  | cons r order ih =>
      obtain ⟨hr, horder⟩ := List.pairwise_cons.mp h
      by_cases hwanted : wanted r = true
      · simpa [hwanted] using ih horder
      · have hnone : ∀ s ∈ order, ¬wanted s = true := fun s hs hws => hwanted (hr s hs hws)
        rw [List.filter_eq_nil_iff.mpr (List.forall_mem_cons.mpr ⟨hwanted, hnone⟩),
          List.filter_eq_self.mpr (by simpa [hwanted] using hnone), List.nil_append]

/-- The keys rank two wanted rows as their ranks do. -/
def RankedBy (key : ρ → κ) (rank : ρ → τ) (wanted : ρ → Bool) (rows : List ρ) : Prop :=
  ∀ r ∈ rows, ∀ s ∈ rows, wanted r = true → wanted s = true → rank r < rank s → key r < key s

/-- The wanted rows fill the page, and other selected rows come behind them. -/
def FillsPage (key : ρ → κ) (selected wanted : ρ → Bool) (limit : Nat) (rows : List ρ) : Prop :=
  (rows.filter wanted).length = limit ∧
    ∀ r ∈ rows, ∀ s ∈ rows, wanted r = true → selected s = true → wanted s = false → key s < key r

/-- **The first page can be trusted.** -/
structure FirstPage (key : ρ → κ) (rank : ρ → τ) (selected wanted : ρ → Bool) (limit : Nat)
    (rows : List ρ) : Prop where
  fits : (rows.filter wanted).length ≤ limit
  chosen : ∀ r ∈ rows, wanted r = true → selected r = true
  ranked : RankedBy key rank wanted rows
  others : (∀ r ∈ rows, selected r = true → wanted r = true) ∨
    FillsPage key selected wanted limit rows

theorem Falls.reranked {order : List ρ} (horder : Falls key (rows.filter wanted) order)
    (hranked : RankedBy key rank wanted rows) : Falls rank (rows.filter wanted) order := by
  refine ⟨horder.perm, horder.falls.imp_of_mem fun {r s} hr hs hkey => ?_⟩
  have hr' := List.mem_filter.mp (horder.perm.mem_iff.mp hr)
  have hs' := List.mem_filter.mp (horder.perm.mem_iff.mp hs)
  by_contra hrank
  exact absurd hkey (not_le.mpr
    (hranked r hr'.1 s hs'.1 hr'.2 hs'.2 (not_le.mp hrank)))

/-- Key and rank do not contradict each other on two rows. -/
def Agree (key : ρ → κ) (rank : ρ → τ) (r s : ρ) : Prop :=
  (rank r < rank s → key r < key s) ∧ (rank s < rank r → key s < key r)

instance : Std.Symm (Agree key rank) where
  symm _ _ h := ⟨h.2, h.1⟩

theorem Before.agree {r s : ρ} (h : Before key rank r s) (hle : rank s ≤ rank r) :
    Agree key rank r s := by
  refine ⟨fun hlt => absurd hlt (not_lt.mpr hle), fun hlt => ?_⟩
  rcases h with hkey | ⟨-, hrank⟩
  · exact hkey
  · exact absurd hlt (not_lt.mpr hrank)

/-- The wanted rows of the selected ones are the wanted rows. -/
theorem filter_filter_of_chosen (hchosen : ∀ r ∈ rows, wanted r = true → selected r = true) :
    (rows.filter selected).filter wanted = rows.filter wanted := by
  rw [List.filter_filter]
  refine List.filter_congr fun r hr => ?_
  cases hw : wanted r with
  | false => rfl
  | true => simp [hchosen r hr hw]

theorem FirstPage.falls (h : FirstPage key rank selected wanted limit rows) (sorter : Sorter key) :
    Falls rank (rows.filter wanted) ((sorter.sort (rows.filter selected)).take limit) := by
  have horder := sorter.falls (rows.filter selected)
  generalize sorter.sort (rows.filter selected) = order at horder ⊢
  rcases h.others with hall | ⟨hlength, hbehind⟩
  · have hsame : rows.filter selected = rows.filter wanted :=
      List.filter_congr fun r hr => by
        rw [Bool.eq_iff_iff]
        exact ⟨hall r hr, h.chosen r hr⟩
    rw [hsame] at horder
    rw [List.take_of_length_le (horder.perm.length_eq ▸ h.fits)]
    exact horder.reranked h.ranked
  · -- No unwanted row stands before a wanted one, so the page is the wanted rows.
    have hfront : order.Pairwise fun r s => wanted s = true → wanted r = true := by
      refine horder.falls.imp_of_mem fun {r s} hr hs hkey hws => ?_
      have hr' := List.mem_filter.mp (horder.perm.mem_iff.mp hr)
      have hs' := List.mem_filter.mp (horder.perm.mem_iff.mp hs)
      by_contra hwr
      exact absurd hkey (not_le.mpr
        (hbehind s hs'.1 r hr'.1 hws hr'.2 (Bool.eq_false_iff.mpr hwr)))
    have hperm : (order.filter wanted).Perm (rows.filter wanted) :=
      filter_filter_of_chosen h.chosen ▸ horder.perm.filter wanted
    have htake : order.take limit = order.filter wanted := by
      conv_lhs => rw [← filter_append_filter hfront]
      exact List.take_left' (hperm.length_eq.trans hlength)
    rw [htake]
    exact Falls.reranked ⟨hperm, horder.falls.filter _⟩ h.ranked

theorem mem_drop_of_not_mem_take {order : List ρ} {r : ρ} (hr : r ∈ order)
    (hnot : r ∉ order.take limit) : r ∈ order.drop limit := by
  rw [← List.take_append_drop limit order] at hr
  exact (List.mem_append.mp hr).resolve_left hnot

/-- **The first page is the wanted rows in the wanted order**, whatever order the sorter
picks, exactly if it can be trusted. -/
theorem take_falls_iff :
    (∀ sorter : Sorter key,
      Falls rank (rows.filter wanted) ((sorter.sort (rows.filter selected)).take limit)) ↔
      FirstPage key rank selected wanted limit rows := by
  constructor
  · intro h
    have hpage (sorter : Sorter key) {r : ρ} (hr : r ∈ rows) (hw : wanted r = true) :
        r ∈ (sorter.sort (rows.filter selected)).take limit :=
      (h sorter).perm.mem_iff.mpr (List.mem_filter.mpr ⟨hr, hw⟩)
    have hchosen : ∀ r ∈ rows, wanted r = true → selected r = true := by
      intro r hr hw
      have hsorter : Sorter key := Sorter.ranked key key
      have hmem := List.mem_of_mem_take (hpage hsorter hr hw)
      exact (List.mem_filter.mp ((hsorter.falls _).perm.mem_iff.mp hmem)).2
    refine ⟨?_, hchosen, ?_, ?_⟩
    · rw [← (h (Sorter.ranked key key)).perm.length_eq]
      exact List.length_take_le _ _
    · -- Rows of one key come by ascending rank: the sorter that would show a wrong rank.
      intro r hr s hs hwr hws hrank
      let sorter : Sorter key := Sorter.ranked key rank
      have hbefore := (Sorter.ranked_pairwise key rank (rows.filter selected)).take (i := limit)
      have hagree : ((sorter.sort (rows.filter selected)).take limit).Pairwise (Agree key rank) :=
        (hbefore.and (h sorter).falls).imp fun ⟨hbefore, hle⟩ => hbefore.agree hle
      have hne : r ≠ s := fun heq => absurd hrank (heq ▸ lt_irrefl _)
      exact (hagree.forall (hpage sorter hr hwr) (hpage sorter hs hws) hne).1 hrank
    · by_cases hall : ∀ r ∈ rows, selected r = true → wanted r = true
      · exact .inl hall
      · -- Of the rows of one key the unwanted ones come first, and none is on the page.
        let sorter : Sorter key := Sorter.ranked key wanted
        have hbehind {s : ρ} (hs : s ∈ rows) (hselected : selected s = true)
            (hws : wanted s = false) : s ∈ (sorter.sort (rows.filter selected)).drop limit := by
          refine mem_drop_of_not_mem_take
            ((sorter.falls _).perm.mem_iff.mpr (List.mem_filter.mpr ⟨hs, hselected⟩)) fun hmem => ?_
          have hwanted := (List.mem_filter.mp ((h sorter).perm.mem_iff.mp hmem)).2
          rw [hws] at hwanted
          cases hwanted
        have hbefore := Sorter.ranked_pairwise key wanted (rows.filter selected)
        rw [← List.take_append_drop limit (Sorter.sort _ _), List.pairwise_append] at hbefore
        simp only [not_forall] at hall
        obtain ⟨s, hs, hselected, hws⟩ := hall
        refine .inr ⟨?_, fun r hr s hs hwr hselected hws => ?_⟩
        · have hlength := List.length_pos_of_mem (hbehind hs hselected (by simpa using hws))
          rw [← (h sorter).perm.length_eq, List.length_take]
          rw [List.length_drop] at hlength
          omega
        · rcases hbefore.2.2 r (hpage sorter hr hwr) s (hbehind hs hselected hws) with
            hkey | ⟨-, hle⟩
          · exact hkey
          · rw [hwr, hws] at hle
            exact absurd hle (by decide)
  · exact FirstPage.falls

end First

end OrderedPages
