import Strix.PercentCoding

/-!
# Percent-encoding

Encoding keeps some bytes and writes all others as a percent sign and two hexadecimal
digits.  A text is canonical if it is decoded and encoded to itself, with the slash among
the bytes that are kept.

* `decodeBytes_encodeWith`: what is encoded is decoded;
* `canonical_append_iff`: a path is canonical if its parts are;
* `canonical_encode_iff`: an encoded text is canonical in a path if it has no slash.
-/

namespace PercentCoding

/-- Letters, digits, `-`, `.`, `_` and `~`. -/
def isUnreserved (b : UInt8) : Bool :=
  (48 ≤ b && b ≤ 57) || (65 ≤ b && b ≤ 90) || (97 ≤ b && b ≤ 122) ||
    b == 45 || b == 46 || b == 95 || b == 126

/-- The bytes that are kept in a path. -/
def isPathByte (b : UInt8) : Bool := isUnreserved b || b == 47

/-- An upper-case hexadecimal digit. -/
def hexByte (n : UInt8) : UInt8 := if n < 10 then n + 48 else n + 55

/-- The escape of a byte. -/
def escapeByte (b : UInt8) : List UInt8 := [37, hexByte (b / 16), hexByte (b % 16)]

/-- The bytes, with all but some of them escaped. -/
def encodeWith (keep : UInt8 → Bool) (bs : List UInt8) : List UInt8 :=
  bs.flatMap fun b => if keep b then [b] else escapeByte b

/-- Decoded and encoded again. -/
def canonicalize (keep : UInt8 → Bool) (bs : List UInt8) : List UInt8 :=
  encodeWith keep (decodeBytes bs)

/-! ## Digits -/

theorem hexDigit_facts : ∀ n : Fin 16,
    hexValue (hexByte (UInt8.ofNat n)) = some (UInt8.ofNat n) ∧
      isUnreserved (hexByte (UInt8.ofNat n)) = true := by
  decide

theorem hexValue_hexByte {n : UInt8} (h : n.toNat < 16) : hexValue (hexByte n) = some n := by
  have hfacts := (hexDigit_facts ⟨n.toNat, h⟩).1
  rwa [UInt8.ofNat_toNat] at hfacts

theorem isUnreserved_hexByte {n : UInt8} (h : n.toNat < 16) : isUnreserved (hexByte n) = true := by
  have hfacts := (hexDigit_facts ⟨n.toNat, h⟩).2
  rwa [UInt8.ofNat_toNat] at hfacts

theorem toNat_high_lt (b : UInt8) : (b / 16).toNat < 16 := by
  have hbound := b.toNat_lt
  simp only [UInt8.toNat_div, UInt8.reduceToNat]
  omega

theorem toNat_low_lt (b : UInt8) : (b % 16).toNat < 16 := by
  simp only [UInt8.toNat_mod, UInt8.reduceToNat]
  omega

theorem high_low (b : UInt8) : 16 * (b / 16) + b % 16 = b := by
  have hbound := b.toNat_lt
  apply UInt8.toNat_inj.mp
  simp only [UInt8.toNat_add, UInt8.toNat_mul, UInt8.toNat_div, UInt8.toNat_mod,
    UInt8.reduceToNat]
  omega

/-! ## Decoding -/

/-- A byte that is no percent sign stands for itself. -/
theorem decodeBytes_cons_of_ne {b : UInt8} (h : b ≠ 37) (rest : List UInt8) :
    decodeBytes (b :: rest) = b :: decodeBytes rest := by
  rw [decodeBytes]
  intro high low tail hsign
  exact absurd hsign h

/-- So does a percent sign that no two digits follow. -/
theorem decodeBytes_sign {high low : UInt8}
    (h : ∀ h l, hexValue high = some h → hexValue low = some l → False) (rest : List UInt8) :
    decodeBytes (37 :: high :: low :: rest) = 37 :: decodeBytes (high :: low :: rest) := by
  rw [decodeBytes]
  split
  · rename_i hhigh hlow
    exact absurd hlow (h _ _ hhigh)
  · rfl

/-- An escape stands for its byte. -/
theorem decodeBytes_escape (b : UInt8) (rest : List UInt8) :
    decodeBytes (escapeByte b ++ rest) = b :: decodeBytes rest := by
  have hhigh := hexValue_hexByte (toNat_high_lt b)
  have hlow := hexValue_hexByte (toNat_low_lt b)
  simp only [escapeByte, List.cons_append, List.nil_append, decodeBytes, hhigh, hlow, high_low]

variable {keep : UInt8 → Bool}

theorem encodeWith_cons (b : UInt8) (bs : List UInt8) :
    encodeWith keep (b :: bs) = (if keep b then [b] else escapeByte b) ++ encodeWith keep bs :=
  List.flatMap_cons

theorem encodeWith_append (bs bs' : List UInt8) :
    encodeWith keep (bs ++ bs') = encodeWith keep bs ++ encodeWith keep bs' :=
  List.flatMap_append

/-- **What is encoded is decoded.** -/
theorem decodeBytes_encodeWith (hsign : keep 37 = false) (bs : List UInt8) :
    decodeBytes (encodeWith keep bs) = bs := by
  induction bs with
  | nil => rfl
  | cons b bs ih =>
      rw [encodeWith_cons]
      cases hkeep : keep b with
      | true =>
          have hne : b ≠ 37 := by
            rintro rfl
            rw [hsign] at hkeep
            cases hkeep
          simp only [if_true, List.cons_append, List.nil_append]
          rw [decodeBytes_cons_of_ne hne, ih]
      | false =>
          simp only [Bool.false_eq_true, if_false]
          rw [decodeBytes_escape, ih]

/-- Bytes that are all kept are encoded as they are. -/
theorem encodeWith_eq_self {bs : List UInt8} (h : ∀ b ∈ bs, keep b = true) :
    encodeWith keep bs = bs := by
  induction bs with
  | nil => rfl
  | cons b bs ih =>
      rw [encodeWith_cons, h b List.mem_cons_self, if_pos rfl,
        ih fun b' hb' => h b' (List.mem_cons_of_mem b hb')]
      rfl

/-- A byte that is neither a percent sign nor a digit separates what is decoded. -/
theorem decodeBytes_append {c : UInt8} (hsign : c ≠ 37) (hdigit : hexValue c = none)
    (bs rest : List UInt8) :
    decodeBytes (bs ++ c :: rest) = decodeBytes bs ++ c :: decodeBytes rest := by
  fun_induction decodeBytes bs with
  | case1 => exact decodeBytes_cons_of_ne hsign rest
  | case2 high low tail h l hlow hhigh ih =>
      simp only [List.cons_append, decodeBytes, hhigh, hlow, ih]
  | case3 high low tail hno ih =>
      simp only [List.cons_append] at ih ⊢
      rw [decodeBytes_sign hno, ih]
  | case4 b tail hno ih =>
      rw [List.cons_append, List.cons_append, ← ih]
      by_cases hb : b = 37
      · subst hb
        -- the separator stands where the second digit would, or before
        rcases tail with _ | ⟨first, _ | ⟨second, more⟩⟩
        · cases rest with
          | nil => rw [List.nil_append, decodeBytes]; simp
          | cons next rest =>
              exact decodeBytes_sign (fun h l hhigh _ => by rw [hdigit] at hhigh; cases hhigh) _
        · exact decodeBytes_sign (fun h l _ hlow => by rw [hdigit] at hlow; cases hlow) _
        · exact (hno first second more rfl rfl).elim
      · exact decodeBytes_cons_of_ne hb _

/-! ## Canonical bytes -/

/-- What is encoded holds only bytes that are kept, percent signs and digits. -/
theorem mem_encodeWith {b : UInt8} {bs : List UInt8} (h : b ∈ encodeWith keep bs) :
    keep b = true ∨ b = 37 ∨ isUnreserved b = true := by
  obtain ⟨byte, -, hb⟩ := List.mem_flatMap.mp h
  cases hkeep : keep byte with
  | true =>
      rw [hkeep, if_pos rfl, List.mem_singleton] at hb
      exact Or.inl (hb ▸ hkeep)
  | false =>
      rw [hkeep, if_neg (by decide), escapeByte] at hb
      simp only [List.mem_cons, List.not_mem_nil, or_false] at hb
      rcases hb with rfl | rfl | rfl
      · exact Or.inr (Or.inl rfl)
      · exact Or.inr (Or.inr (isUnreserved_hexByte (toNat_high_lt byte)))
      · exact Or.inr (Or.inr (isUnreserved_hexByte (toNat_low_lt byte)))

section Canonical

variable {c : UInt8} (hkeep : keep 37 = false) (hdigit : hexValue c = none)
include hkeep hdigit

/-- Bytes that a separator follows are canonical if they stay as they are. -/
theorem canonicalize_of_append {bs rest rest' : List UInt8}
    (h : canonicalize keep bs ++ rest = bs ++ c :: rest') : canonicalize keep bs = bs := by
  have hsign : escapeByte 37 = [37, 50, 53] := by decide
  unfold canonicalize at *
  fun_induction decodeBytes bs with
  | case1 => rfl
  | case2 high low tail hv lv hlow hhigh ih =>
      rw [encodeWith_cons] at h ⊢
      cases hkept : keep (16 * hv + lv) with
      | true =>
          simp only [hkept, if_true, List.cons_append, List.nil_append, List.cons.injEq] at h
          rw [h.1, hkeep] at hkept
          cases hkept
      | false =>
          simp only [hkept, Bool.false_eq_true, if_false, escapeByte, List.cons_append,
            List.nil_append, List.cons.injEq, true_and] at h ⊢
          exact ⟨h.1, h.2.1, ih h.2.2⟩
  | case3 high low tail hno ih =>
      rw [encodeWith_cons, hkeep, if_neg (by decide), hsign] at h
      simp only [List.cons_append, List.nil_append, List.cons.injEq, true_and] at h
      exact (hno 2 5 (by rw [← h.1]; decide) (by rw [← h.2.1]; decide)).elim
  | case4 b tail hno ih =>
      rw [encodeWith_cons] at h ⊢
      cases hkept : keep b with
      | true =>
          simp only [hkept, if_true, List.cons_append, List.nil_append, List.cons.injEq,
            true_and] at h ⊢
          exact ih h
      | false =>
          -- only a percent sign would be escaped to something that begins alike
          have hb : b = 37 := by
            simp only [hkept, Bool.false_eq_true, if_false, escapeByte, List.cons_append,
              List.nil_append, List.cons.injEq] at h
            exact h.1.symm
          subst hb
          rw [hkeep, if_neg (by decide), hsign] at h
          rcases tail with _ | ⟨first, _ | ⟨second, more⟩⟩
          · simp only [List.cons_append, List.nil_append, List.cons.injEq, true_and] at h
            rw [← h.1] at hdigit
            exact absurd hdigit (by decide)
          · simp only [List.cons_append, List.nil_append, List.cons.injEq, true_and] at h
            rw [← h.2.1] at hdigit
            exact absurd hdigit (by decide)
          · exact (hno first second more rfl rfl).elim

/-- **A path is canonical** if the parts on both sides of a separator are. -/
theorem canonical_append_iff (hc : keep c = true) {bs bs' : List UInt8} :
    canonicalize keep (bs ++ c :: bs') = bs ++ c :: bs' ↔
      canonicalize keep bs = bs ∧ canonicalize keep bs' = bs' := by
  have hne : c ≠ 37 := by
    rintro rfl
    rw [hkeep] at hc
    cases hc
  have hsplit : canonicalize keep (bs ++ c :: bs') =
      canonicalize keep bs ++ c :: canonicalize keep bs' := by
    unfold canonicalize
    rw [decodeBytes_append hne hdigit, encodeWith_append, encodeWith_cons, hc, if_pos rfl]
    rfl
  constructor
  · intro h
    rw [hsplit] at h
    have hfront := canonicalize_of_append hkeep hdigit h
    rw [hfront] at h
    exact ⟨hfront, (List.cons.inj (List.append_cancel_left h)).2⟩
  · intro ⟨hfront, hback⟩
    rw [hsplit, hfront, hback]

end Canonical

/-- **An encoded text is canonical in a path** exactly if it is encoded without a slash. -/
theorem canonical_encode_iff {bs : List UInt8} :
    canonicalize isPathByte (encodeWith isUnreserved bs) = encodeWith isUnreserved bs ↔
      47 ∉ bs := by
  unfold canonicalize
  rw [decodeBytes_encodeWith (by decide)]
  induction bs with
  | nil => simp [encodeWith]
  | cons b bs ih =>
      rw [encodeWith_cons, encodeWith_cons, List.mem_cons, not_or, ← ih]
      by_cases hb : b = 47
      · subst hb
        have hslash : escapeByte 47 = [37, 50, 70] := by decide
        rw [if_pos (by decide), if_neg (by decide), hslash]
        simp
      · have hsame : isPathByte b = isUnreserved b := by
          simp [isPathByte, hb]
        rw [hsame]
        simp [Ne.symm hb]

/-! ## Texts -/

/-- The text of ASCII bytes. -/
def ofAscii (bs : List UInt8) : String := String.ofList (bs.map fun b => Char.ofNat b.toNat)

/-- The percent-encoding of a text. -/
def encode (text : String) : String := ofAscii (encodeWith isUnreserved (bytes text))

/-- The canonical form of a path. -/
def canonicalPath (path : String) : String := ofAscii (canonicalize isPathByte (bytes path))

theorem bytes_append (s t : String) : bytes (s ++ t) = bytes s ++ bytes t := by
  rw [bytes_eq_flatMap, bytes_eq_flatMap, bytes_eq_flatMap, String.toList_append,
    List.flatMap_append]

theorem utf8EncodeChar_ascii : ∀ n : Fin 128,
    String.utf8EncodeChar (Char.ofNat n) = [UInt8.ofNat n] := by
  decide +kernel

/-- The bytes of the text of ASCII bytes. -/
theorem bytes_ofAscii {bs : List UInt8} (h : ∀ b ∈ bs, b.toNat < 128) :
    bytes (ofAscii bs) = bs := by
  rw [bytes_eq_flatMap, ofAscii, String.toList_ofList]
  induction bs with
  | nil => rfl
  | cons b bs ih =>
      have hb := h b List.mem_cons_self
      have hchar : String.utf8EncodeChar (Char.ofNat b.toNat) = [b] := by
        have hascii := utf8EncodeChar_ascii ⟨b.toNat, hb⟩
        rwa [UInt8.ofNat_toNat] at hascii
      rw [List.map_cons, List.flatMap_cons, hchar,
        ih fun b' hb' => h b' (List.mem_cons_of_mem b hb')]
      rfl

theorem toNat_lt_of_unreserved {b : UInt8} (h : isUnreserved b = true) : b.toNat < 128 := by
  have hle : b ≤ 126 := by
    simp only [isUnreserved, Bool.or_eq_true, Bool.and_eq_true, decide_eq_true_eq, beq_iff_eq,
      UInt8.le_iff_toNat_le, ← UInt8.toNat_inj] at h ⊢
    simp only [UInt8.reduceToNat] at h ⊢
    omega
  exact Nat.lt_of_le_of_lt (UInt8.le_iff_toNat_le.mp hle) (by decide)

/-- What is encoded is ASCII. -/
theorem toNat_lt_of_mem_encodeWith (hkeep : ∀ b, keep b = true → b.toNat < 128) {b : UInt8}
    {bs : List UInt8} (h : b ∈ encodeWith keep bs) : b.toNat < 128 := by
  rcases mem_encodeWith h with hkept | rfl | hunreserved
  · exact hkeep b hkept
  · decide
  · exact toNat_lt_of_unreserved hunreserved

theorem toNat_lt_of_isPathByte {b : UInt8} (h : isPathByte b = true) : b.toNat < 128 := by
  rcases Bool.or_eq_true _ _ ▸ h with hunreserved | hslash
  · exact toNat_lt_of_unreserved hunreserved
  · rw [beq_iff_eq.mp hslash]
    decide

theorem bytes_encode (text : String) :
    bytes (encode text) = encodeWith isUnreserved (bytes text) :=
  bytes_ofAscii fun _ hb => toNat_lt_of_mem_encodeWith (fun _ => toNat_lt_of_unreserved) hb

theorem bytes_canonicalPath (path : String) :
    bytes (canonicalPath path) = canonicalize isPathByte (bytes path) :=
  bytes_ofAscii fun _ hb => toNat_lt_of_mem_encodeWith (fun _ => toNat_lt_of_isPathByte) hb

/-- **An encoded text is decoded.** -/
theorem decode_encode (text : String) : decode (encode text) = some text := by
  rw [decode_eq_some_iff, bytes_encode, decodeBytes_encodeWith (by decide)]

theorem canonicalPath_eq_iff {path : String} :
    canonicalPath path = path ↔ canonicalize isPathByte (bytes path) = bytes path := by
  rw [← bytes_canonicalPath, bytes_inj]

/-- **A path is canonical** that ends with an encoded text, exactly if what is in front is
and the text has no slash. -/
theorem canonicalPath_encode_iff {front text : String} :
    canonicalPath ("/" ++ front ++ "/" ++ encode text) = "/" ++ front ++ "/" ++ encode text ↔
      canonicalPath front = front ∧ '/' ∉ text.toList := by
  have hbytes : bytes ("/" ++ front ++ "/" ++ encode text) =
      [] ++ 47 :: (bytes front ++ 47 :: encodeWith isUnreserved (bytes text)) := by
    have hslash : bytes "/" = [47] := by decide +kernel
    rw [bytes_append, bytes_append, bytes_append, bytes_encode, hslash]
    simp
  have hmem : 47 ∉ bytes text ↔ '/' ∉ text.toList := by
    rw [← List.count_eq_zero, ← List.count_eq_zero, count_slash]
  have hnil : canonicalize isPathByte [] = [] := rfl
  rw [canonicalPath_eq_iff, canonicalPath_eq_iff, hbytes,
    canonical_append_iff (by decide) (by decide) (by decide),
    canonical_append_iff (by decide) (by decide) (by decide), canonical_encode_iff, hmem]
  simp only [hnil, true_and]

theorem ofNat_toNat_ascii : ∀ n : Fin 128, UInt8.ofNat (Char.ofNat n).toNat = UInt8.ofNat n := by
  decide +kernel

/-- A character of the text of ASCII bytes is one of these. -/
theorem byte_of_mem_ofAscii {bs : List UInt8} (h : ∀ b ∈ bs, b.toNat < 128) {c : Char}
    (hc : c ∈ (ofAscii bs).toList) : UInt8.ofNat c.toNat ∈ bs := by
  rw [ofAscii, String.toList_ofList] at hc
  obtain ⟨b, hb, rfl⟩ := List.mem_map.mp hc
  have hsame := ofNat_toNat_ascii ⟨b.toNat, h b hb⟩
  dsimp only at hsame
  rwa [hsame, UInt8.ofNat_toNat]

/-- A character that is escaped is not there. -/
theorem not_mem_encode {c : Char} (hsign : UInt8.ofNat c.toNat ≠ 37)
    (h : isUnreserved (UInt8.ofNat c.toNat) = false) (text : String) :
    c ∉ (encode text).toList := by
  intro hc
  have hmem := byte_of_mem_ofAscii
    (fun _ hb => toNat_lt_of_mem_encodeWith (fun _ => toNat_lt_of_unreserved) hb) hc
  rcases mem_encodeWith hmem with hkept | hsign' | hunreserved
  · rw [h] at hkept
    cases hkept
  · exact hsign hsign'
  · rw [h] at hunreserved
    cases hunreserved

/-- Nor is it in a canonical path, if it is no slash. -/
theorem not_mem_canonicalPath {c : Char} (hsign : UInt8.ofNat c.toNat ≠ 37)
    (h : isPathByte (UInt8.ofNat c.toNat) = false) (path : String) :
    c ∉ (canonicalPath path).toList := by
  intro hc
  have hmem := byte_of_mem_ofAscii
    (fun _ hb => toNat_lt_of_mem_encodeWith (fun _ => toNat_lt_of_isPathByte) hb) hc
  rcases mem_encodeWith hmem with hkept | hsign' | hunreserved
  · rw [h] at hkept
    cases hkept
  · exact hsign hsign'
  · rw [isPathByte, hunreserved, Bool.true_or] at h
    cases h

/-- A text of unreserved bytes is encoded as it is. -/
theorem encode_eq_self {text : String} (h : ∀ b ∈ bytes text, isUnreserved b = true) :
    encode text = text := by
  rw [← bytes_inj, bytes_encode, encodeWith_eq_self h]

/-- **A text of path bytes** is canonical. -/
theorem canonicalPath_eq_self {path : String} (h : ∀ b ∈ bytes path, isPathByte b = true) :
    canonicalPath path = path := by
  have hsame := encodeWith_eq_self h
  have hdecoded : decodeBytes (bytes path) = bytes path := by
    calc decodeBytes (bytes path) = decodeBytes (encodeWith isPathByte (bytes path)) := by
          rw [hsame]
      _ = bytes path := decodeBytes_encodeWith (by decide) _
  rw [canonicalPath_eq_iff, canonicalize, hdecoded, hsame]

end PercentCoding
