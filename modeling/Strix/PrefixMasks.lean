import Mathlib.Data.Nat.Basic
import Mathlib.Order.Basic

/-!
# Prefix masks

A word whose first bits are ones cuts the same number of bits off other words.

* `and_mask_eq_iff`: two words are cut to the same exactly when their first bits
  agree;
* `checkedMask_eq`: no length that fits makes the computation of the mask
  overflow.
-/

namespace PrefixMasks

variable {w : Nat}

/-- The word that starts with `len` ones. -/
def mask (w len : Nat) : BitVec w := BitVec.allOnes w <<< (w - len)

theorem getMsbD_mask {len : Nat} (h : len ≤ w) (i : Nat) :
    (mask w len).getMsbD i = decide (i < len) := by
  unfold mask
  rw [BitVec.getMsbD_shiftLeft, BitVec.getMsbD_allOnes, decide_eq_decide]
  omega

@[simp] theorem mask_zero (w : Nat) : mask w 0 = 0 := by
  apply BitVec.eq_of_getMsbD_eq
  intro i hi
  rw [getMsbD_mask (Nat.zero_le w)]
  simp

/-- The first bits of two words agree. -/
def SamePrefix (len : Nat) (a b : BitVec w) : Prop := ∀ i < len, a.getMsbD i = b.getMsbD i

/-- **Words are cut to the same** exactly when their first bits agree. -/
theorem and_mask_eq_iff {len : Nat} (h : len ≤ w) {a b : BitVec w} :
    a &&& mask w len = b &&& mask w len ↔ SamePrefix len a b := by
  constructor
  · intro hcut i hi
    have hbit := congrArg (fun word => BitVec.getMsbD word i) hcut
    simpa [getMsbD_mask h, hi] using hbit
  · intro hsame
    apply BitVec.eq_of_getMsbD_eq
    intro i hi
    rw [BitVec.getMsbD_and, BitVec.getMsbD_and, getMsbD_mask h]
    by_cases hlen : i < len
    · rw [hsame i hlen]
    · simp [hlen]

/-- Words with all bits in common are the same. -/
theorem samePrefix_width {a b : BitVec w} : SamePrefix w a b ↔ a = b := by
  constructor
  · intro h
    exact BitVec.eq_of_getMsbD_eq h
  · rintro rfl i -
    rfl

/-- The mask as a machine computes it, where neither the difference may go below
zero nor the shift reach the width. -/
def checkedMask (w len : Nat) : Option (BitVec w) :=
  if len = 0 then some 0
  else if len ≤ w ∧ w - len < w then some (BitVec.allOnes w <<< (w - len))
  else none

/-- **No overflow**: a length up to the width gets its mask. -/
theorem checkedMask_eq {len : Nat} (h : len ≤ w) : checkedMask w len = some (mask w len) := by
  unfold checkedMask
  by_cases hzero : len = 0
  · rw [if_pos hzero, hzero, mask_zero]
  · rw [if_neg hzero, if_pos ⟨h, by omega⟩]
    rfl

end PrefixMasks
