import Mathlib.Data.List.Count

/-!
# Percent-decoding

A percent sign before two hexadecimal digits stands for a byte, and all other bytes
stand for themselves.  A text is decoded if the bytes that come out are UTF-8.

* `decode_eq_self_iff`: decoding shortens every text that it changes;
* `count_slash_le`: no slash is ever lost.
-/

namespace PercentCoding

/-- The value of a hexadecimal digit. -/
def hexValue (b : UInt8) : Option UInt8 :=
  if 48 ≤ b ∧ b ≤ 57 then some (b - 48)
  else if 65 ≤ b ∧ b ≤ 70 then some (b - 55)
  else if 97 ≤ b ∧ b ≤ 102 then some (b - 87)
  else none

/-- The bytes that are meant. -/
def decodeBytes : List UInt8 → List UInt8
  | [] => []
  | 37 :: high :: low :: rest =>
    match hexValue high, hexValue low with
    | some h, some l => (16 * h + l) :: decodeBytes rest
    | _, _ => 37 :: decodeBytes (high :: low :: rest)
  | b :: rest => b :: decodeBytes rest

/-- The bytes of a text. -/
def bytes (text : String) : List UInt8 := text.toUTF8.data.toList

/-- The text that is meant, if it is one. -/
def decode (text : String) : Option String :=
  String.fromUTF8? ⟨(decodeBytes (bytes text)).toArray⟩

/-! ## Bytes -/

theorem length_decodeBytes_le (bs : List UInt8) : (decodeBytes bs).length ≤ bs.length := by
  fun_induction decodeBytes bs with
  | case1 => exact Nat.le_refl _
  | case2 high low rest h l hlow hhigh ih =>
      simp only [List.length_cons]
      omega
  | case3 high low rest hno ih =>
      simp only [List.length_cons] at ih ⊢
      omega
  | case4 b rest hno ih =>
      simp only [List.length_cons]
      omega

/-- Decoding that does not shorten changes nothing. -/
theorem decodeBytes_eq_self {bs : List UInt8} (h : (decodeBytes bs).length = bs.length) :
    decodeBytes bs = bs := by
  fun_induction decodeBytes bs with
  | case1 => rfl
  | case2 high low rest h' l hlow hhigh ih =>
      have hle := length_decodeBytes_le rest
      simp only [List.length_cons] at h
      omega
  | case3 high low rest hno ih =>
      rw [ih (by simpa using h)]
  | case4 b rest hno ih =>
      rw [ih (by simpa using h)]

/-- Something is left of every text. -/
theorem decodeBytes_eq_nil {bs : List UInt8} (h : decodeBytes bs = []) : bs = [] := by
  fun_cases decodeBytes bs with
  | case1 => rfl
  | case2 high low rest hv lv hlow hhigh => simp [decodeBytes, hlow, hhigh] at h
  | case3 high low rest hno =>
      unfold decodeBytes at h
      split at h <;> simp_all
  | case4 b rest hno =>
      unfold decodeBytes at h
      split at h <;> simp_all

/-- A byte that is no part of an escape is not lost. -/
theorem count_le_decodeBytes {b : UInt8} (hsign : b ≠ 37) (hdigit : hexValue b = none)
    (bs : List UInt8) : bs.count b ≤ (decodeBytes bs).count b := by
  fun_induction decodeBytes bs with
  | case1 => exact Nat.le_refl _
  | case2 high low rest h l hlow hhigh ih =>
      have hnot (other : UInt8) (hsome : (hexValue other).isSome) : other ≠ b := by
        intro heq
        rw [heq, hdigit] at hsome
        cases hsome
      have hhigh' := hnot high (by rw [hhigh]; rfl)
      have hlow' := hnot low (by rw [hlow]; rfl)
      rw [List.count_cons_of_ne hsign.symm, List.count_cons_of_ne hhigh',
        List.count_cons_of_ne hlow']
      exact Nat.le_trans ih List.count_le_count_cons
  | case3 high low rest hno ih =>
      rw [List.count_cons_of_ne hsign.symm, List.count_cons_of_ne hsign.symm]
      exact ih
  | case4 c rest hno ih =>
      rw [List.count_cons, List.count_cons]
      exact Nat.add_le_add_right ih _

/-! ## Texts -/

theorem bytes_inj {s t : String} : bytes s = bytes t ↔ s = t := by
  unfold bytes
  constructor
  · intro h
    apply String.toByteArray_inj.mp
    exact ByteArray.ext (Array.toList_inj.mp h)
  · rintro rfl
    rfl

/-- Decoding a text is decoding its bytes. -/
theorem decode_eq_some_iff {s t : String} :
    decode s = some t ↔ bytes t = decodeBytes (bytes s) := by
  unfold decode String.fromUTF8?
  split
  · rename_i hvalid
    rw [Option.some.injEq]
    constructor
    · rintro rfl
      rfl
    · intro h
      apply bytes_inj.mp
      rw [h]
      rfl
  · rename_i hinvalid
    refine iff_of_false (fun h => by cases h) fun h => hinvalid ?_
    rw [← h]
    exact t.isValidUTF8

/-- **Decoding shortens every text that it changes.** -/
theorem decode_eq_self_iff {s : String} :
    decode s = some s ↔ (decodeBytes (bytes s)).length = (bytes s).length := by
  rw [decode_eq_some_iff]
  constructor
  · intro h
    rw [← h]
  · intro h
    exact (decodeBytes_eq_self h).symm

/-- The bytes of a text are those of its characters. -/
theorem bytes_eq_flatMap (s : String) : bytes s = s.toList.flatMap String.utf8EncodeChar := by
  have hbytes : s.toByteArray = s.toList.utf8Encode := String.utf8Encode_toList.symm
  unfold bytes String.toUTF8
  rw [hbytes]
  simp [List.utf8Encode]

/-- A byte whose highest bit is set is no slash. -/
theorem or_ne_slash {b mask : UInt8} (h : mask.toNat.testBit 7 = true) : b ||| mask ≠ 47 := by
  intro heq
  have hbit := congrArg (fun byte : UInt8 => byte.toNat.testBit 7) heq
  simp only [UInt8.toNat_or, Nat.testBit_or, h, Bool.or_true] at hbit
  exact absurd hbit (by decide)

/-- A character has the byte 47 if it is the slash. -/
theorem count_slash_char (c : Char) :
    (String.utf8EncodeChar c).count 47 = if c = '/' then 1 else 0 := by
  have hcount {high : UInt8} {bs : List UInt8} (hhigh : high ≠ 47) :
      (high :: bs).count 47 = bs.count 47 := List.count_cons_of_ne hhigh
  by_cases hone : c.utf8Size = 1
  · have hsmall : c.val.toNat ≤ 127 := by
      simpa [UInt32.le_iff_toNat_le] using Char.utf8Size_eq_one_iff.mp hone
    have hbyte : c.val.toUInt8 = 47 ↔ c = '/' := by
      rw [← UInt8.toNat_inj, Char.ext_iff, ← UInt32.toNat_inj, UInt32.toNat_toUInt8]
      have hslash : ('/' : Char).val.toNat = 47 := rfl
      have hvalue : (47 : UInt8).toNat = 47 := rfl
      omega
    rw [String.utf8EncodeChar_eq_singleton hone, List.count_singleton]
    simp only [beq_iff_eq, hbyte]
  · have hslash : c ≠ '/' := by
      rintro rfl
      exact hone (by decide)
    rw [if_neg hslash]
    match hsize : c.utf8Size, c.utf8Size_pos, c.utf8Size_le_four with
    | 1, _, _ => exact absurd hsize hone
    | 2, _, _ =>
        rw [String.utf8EncodeChar_eq_cons_cons hsize, hcount (or_ne_slash (by decide)),
          hcount (or_ne_slash (by decide)), List.count_nil]
    | 3, _, _ =>
        rw [String.utf8EncodeChar_eq_cons_cons_cons hsize, hcount (or_ne_slash (by decide)),
          hcount (or_ne_slash (by decide)), hcount (or_ne_slash (by decide)), List.count_nil]
    | 4, _, _ =>
        rw [String.utf8EncodeChar_eq_cons_cons_cons_cons hsize, hcount (or_ne_slash (by decide)),
          hcount (or_ne_slash (by decide)), hcount (or_ne_slash (by decide)),
          hcount (or_ne_slash (by decide)), List.count_nil]

/-- The slashes of a text are the bytes 47. -/
theorem count_slash (s : String) : (bytes s).count 47 = s.toList.count '/' := by
  rw [bytes_eq_flatMap]
  induction s.toList with
  | nil => rfl
  | cons c cs ih =>
      rw [List.flatMap_cons, List.count_append, count_slash_char, ih, List.count_cons]
      simp only [beq_iff_eq]
      omega

/-- **No slash is ever lost.** -/
theorem count_slash_le {s t : String} (h : decode s = some t) :
    s.toList.count '/' ≤ t.toList.count '/' := by
  rw [← count_slash, ← count_slash, decode_eq_some_iff.mp h]
  exact count_le_decodeBytes (by decide) (by decide) (bytes s)

/-- A text that is decoded to nothing was empty. -/
theorem decode_eq_empty {s : String} (h : decode s = some "") : s = "" := by
  have hbytes : bytes "" = [] := rfl
  have hnil := decodeBytes_eq_nil ((decode_eq_some_iff.mp h).symm.trans hbytes)
  exact bytes_inj.mp (hnil.trans hbytes.symm)

/-- What comes out is no longer. -/
theorem length_bytes_le {s t : String} (h : decode s = some t) :
    (bytes t).length ≤ (bytes s).length := by
  rw [decode_eq_some_iff.mp h]
  exact length_decodeBytes_le (bytes s)

end PercentCoding
