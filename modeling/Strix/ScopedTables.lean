import Mathlib.Algebra.GroupWithZero.Nat
import Strix.RowTable

/-!
# Tables that agree within a scope

Some rows of a table are in a scope.  Two tables agree within it when they have the same
rows there, whatever else they hold and in whatever order they hold it.  What is read of
the scope alone is then read alike.

* `AgreeOn.sorted`: the rows of the scope in the order of a key;
* `AgreeOn.count`, `AgreeOn.sum`: their number and their sums;
* `AgreeOn.length_eq_iff`: the number of all rows, where the scope is the whole of one.
-/

namespace RowTable

variable {ρ κ : Type}

/-- **The tables agree** on the rows of the scope. -/
def AgreeOn (scope : ρ → Bool) (rows rows' : List ρ) : Prop :=
  ∀ r, scope r = true → (r ∈ rows ↔ r ∈ rows')

namespace AgreeOn

variable {scope : ρ → Bool} {rows rows' : List ρ} {key : ρ → κ}

theorem symm (h : AgreeOn scope rows rows') : AgreeOn scope rows' rows :=
  fun r hr => (h r hr).symm

/-- The rows of the scope, the tables being keyed. -/
theorem perm (h : AgreeOn scope rows rows') (hkeyed : Keyed key rows) (hkeyed' : Keyed key rows') :
    (rows.filter scope).Perm (rows'.filter scope) := by
  refine (List.perm_ext_iff_of_nodup ?_ ?_).mpr fun r => ?_
  · exact (List.Nodup.of_map key hkeyed).filter _
  · exact (List.Nodup.of_map key hkeyed').filter _
  · rw [List.mem_filter, List.mem_filter]
    constructor
    · intro ⟨hmem, hr⟩
      exact ⟨(h r hr).mp hmem, hr⟩
    · intro ⟨hmem, hr⟩
      exact ⟨(h r hr).mpr hmem, hr⟩

/-- They are as many. -/
theorem count (h : AgreeOn scope rows rows') (hkeyed : Keyed key rows)
    (hkeyed' : Keyed key rows') : (rows.filter scope).length = (rows'.filter scope).length :=
  (h.perm hkeyed hkeyed').length_eq

/-- What they sum up to. -/
theorem sum (h : AgreeOn scope rows rows') (hkeyed : Keyed key rows) (hkeyed' : Keyed key rows')
    (amount : ρ → Nat) :
    ((rows.filter scope).map amount).sum = ((rows'.filter scope).map amount).sum :=
  ((h.perm hkeyed hkeyed').map amount).sum_nat

/-- **In the order of the key** they are the same rows. -/
theorem sorted [LinearOrder κ] [DecidableRel fun a b : ρ => key a ≤ key b]
    (h : AgreeOn scope rows rows') (hkeyed : Keyed key rows) (hkeyed' : Keyed key rows') :
    (rows.insertionSort fun a b => key a ≤ key b).filter scope =
      (rows'.insertionSort fun a b => key a ≤ key b).filter scope := by
  have : Std.Total fun a b : ρ => key a ≤ key b := ⟨fun a b => le_total (key a) (key b)⟩
  have : IsTrans ρ fun a b => key a ≤ key b := ⟨fun _ _ _ => le_trans⟩
  have hsorted (table : List ρ) :
      ((table.insertionSort fun a b => key a ≤ key b).filter scope).Pairwise
        fun a b => key a ≤ key b :=
    (List.pairwise_insertionSort (fun a b => key a ≤ key b) table).filter _
  have hperm : ((rows.insertionSort fun a b => key a ≤ key b).filter scope).Perm
      ((rows'.insertionSort fun a b => key a ≤ key b).filter scope) :=
    ((List.perm_insertionSort _ rows).filter scope).trans
      ((h.perm hkeyed hkeyed').trans ((List.perm_insertionSort _ rows').filter scope).symm)
  refine hperm.eq_of_pairwise ?_ (hsorted rows) (hsorted rows')
  intro a b ha hb hab hba
  -- rows of one key are one row, `b` being a row of both tables
  have ha' := List.mem_filter.mp ha
  have hb' := List.mem_filter.mp hb
  have hmem : b ∈ rows := (h b hb'.2).mpr ((List.mem_insertionSort _).mp hb'.1)
  exact List.inj_on_of_nodup_map hkeyed ((List.mem_insertionSort _).mp ha'.1) hmem
    (le_antisymm hab hba)

/-- **The number of all rows**, where one table has no other rows: the other has none
either. -/
theorem length_eq_iff (h : AgreeOn scope rows rows') (hkeyed : Keyed key rows)
    (hkeyed' : Keyed key rows') (hall : ∀ r ∈ rows, scope r = true) :
    rows.length = rows'.length ↔ ∀ r ∈ rows', scope r = true := by
  have hcount := h.count hkeyed hkeyed'
  rw [List.filter_eq_self.mpr hall] at hcount
  rw [hcount, List.length_filter_eq_length_iff]

end AgreeOn

end RowTable
