import Mathlib.Data.List.TakeWhile
import Strix.AddressTexts
import Strix.PrefixMasks

/-!
# Matching addresses against networks

`ip_matches_cidr` takes an address and a text, either `network/len` or a bare
address.  Networks are compared by their first bits.  A bare address is compared as
a text, with the printed form of the address.

* `ipMatchesCidr_network`: networks are matched exactly;
* `cidrExact_iff`: a bare address is, too, unless it denotes the address in another
  form than the printed one.
-/

namespace Strix

open PrefixMasks

namespace IpAddr

/-- The number of an address's bits. -/
def width : IpAddr → Nat
  | v4 _ => 32
  | v6 _ => 128

/-- The address and the network are of one family, and their first bits agree. -/
def SharesPrefix (len : Nat) : IpAddr → IpAddr → Prop
  | v4 ip, v4 network => SamePrefix len ip network
  | v6 ip, v6 network => SamePrefix len ip network
  | _, _ => False

/-- **The address is in `network/len`**: the network is an address of the same family,
the length an integer up to the width, and so many first bits are the same. -/
def InNetwork (ip : IpAddr) (network len : String) : Prop :=
  ∃ address bits n, parse network = some address ∧ parseUnsigned bits len = some n ∧
    n ≤ ip.width ∧ SharesPrefix n ip address

/-- All bits in common are the same address. -/
theorem sharesPrefix_width {ip address : IpAddr} :
    SharesPrefix ip.width ip address ↔ ip = address := by
  cases ip with
  | v4 a =>
      cases address with
      | v4 b =>
          rw [IpAddr.v4.injEq]
          exact samePrefix_width
      | v6 b => exact iff_of_false id (by simp)
  | v6 a =>
      cases address with
      | v4 b => exact iff_of_false id (by simp)
      | v6 b =>
          rw [IpAddr.v6.injEq]
          exact samePrefix_width

/-- The first bits of an address and one of the other family do not compare. -/
theorem SharesPrefix.width_eq {len : Nat} {ip address : IpAddr}
    (h : SharesPrefix len ip address) : ip.width = address.width := by
  cases ip with
  | v4 a =>
      cases address with
      | v4 b => rfl
      | v6 b => exact h.elim
  | v6 a =>
      cases address with
      | v4 b => exact h.elim
      | v6 b => rfl

end IpAddr

/-! ## Texts -/

/-- A text without the separator does not split. -/
theorem splitOnce_eq_none {separator : Char} {text : String} (h : separator ∉ text.toList) :
    splitOnce separator text = none := by
  have hall : ∀ c ∈ text.toList, decide (c ≠ separator) = true := by
    intro c hc
    rw [decide_eq_true_eq]
    rintro rfl
    exact h hc
  have hrest : text.toList.dropWhile (fun c => decide (c ≠ separator)) = [] := by
    rw [List.dropWhile_eq_nil_iff]
    exact hall
  unfold splitOnce
  rw [List.span_eq_takeWhile_dropWhile, hrest]

/-- The digits of an unsigned number, after an optional plus sign. -/
def unsignedDigits (text : String) : List Nat × List Char :=
  readDigits 10 (match text.toList with
    | '+' :: rest => rest
    | cs => cs)

/-- The numbers that a text can be read as: one, in all widths that hold it. -/
theorem parseUnsigned_eq_some_iff {bits n : Nat} {text : String} :
    parseUnsigned bits text = some n ↔
      (unsignedDigits text).2 = [] ∧ (unsignedDigits text).1 ≠ [] ∧
        ofDigits 10 (unsignedDigits text).1 = n ∧ n < 2 ^ bits := by
  cases hread : unsignedDigits text with
  | mk values rest =>
      have hparse : parseUnsigned bits text = if rest = [] then
          if values.isEmpty ∨ 2 ^ bits ≤ ofDigits 10 values then none
          else some (ofDigits 10 values) else none := by
        unfold parseUnsigned
        unfold unsignedDigits at hread
        cases htext : text.toList with
        | nil =>
            simp only [htext] at hread ⊢
            rw [hread]
            cases rest <;> simp
        | cons c cs =>
            by_cases hc : c = '+'
            · subst hc
              simp only [htext] at hread ⊢
              rw [hread]
              cases rest <;> simp
            · have hplain : ∀ tail, c :: cs = '+' :: tail → False :=
                fun tail h => hc (List.cons.inj h).1
              simp only [htext] at hread ⊢
              rw [hread]
              cases rest <;> simp
      rw [hparse]
      cases rest with
      | cons c rest => simp
      | nil =>
          rw [if_pos rfl]
          dsimp only
          constructor
          · intro h
            split at h
            · cases h
            · rename_i hfits
              obtain rfl := Option.some.inj h
              rw [not_or, not_le] at hfits
              exact ⟨rfl, fun hnil => hfits.1 (by rw [hnil]; rfl), rfl, hfits.2⟩
          · intro h
            obtain ⟨-, hsome, rfl, hfits⟩ := h
            rw [if_neg]
            rw [not_or, not_le, List.isEmpty_iff]
            exact ⟨hsome, hfits⟩

/-- A width does not change the number that is read. -/
theorem parseUnsigned_unique {bits bits' n n' : Nat} {text : String}
    (h : parseUnsigned bits text = some n) (h' : parseUnsigned bits' text = some n') :
    n = n' := by
  obtain ⟨-, -, hn, -⟩ := parseUnsigned_eq_some_iff.mp h
  obtain ⟨-, -, hn', -⟩ := parseUnsigned_eq_some_iff.mp h'
  rw [← hn, hn']

/-- An integer below 256 is one of eight bits. -/
theorem parseUnsigned_eight {text : String} {bits n : Nat}
    (h : parseUnsigned bits text = some n) (hn : n < 256) : parseUnsigned 8 text = some n := by
  obtain ⟨hrest, hsome, hvalue, -⟩ := parseUnsigned_eq_some_iff.mp h
  exact parseUnsigned_eq_some_iff.mpr ⟨hrest, hsome, hvalue, hn⟩

/-! ## Networks -/

/-- The comparison of two words by a mask. -/
theorem cut_iff {w len : Nat} (h : len ≤ w) (a b : BitVec w) :
    ((a &&& if len = 0 then 0 else BitVec.allOnes w <<< (w - len)) ==
      (b &&& if len = 0 then 0 else BitVec.allOnes w <<< (w - len))) = true ↔
      SamePrefix len a b := by
  have hmask : (if len = 0 then (0 : BitVec w) else BitVec.allOnes w <<< (w - len)) =
      mask w len := by
    by_cases hzero : len = 0
    · rw [if_pos hzero, hzero, mask_zero]
    · rw [if_neg hzero]
      rfl
  rw [hmask, beq_iff_eq, and_mask_eq_iff h]

/-- What the comparison with a parsed network decides. -/
theorem ipMatchesCidr_parsed {ip : IpAddr} {network prefixLen text : String} {len : Nat}
    (hsplit : splitOnce '/' text = some (network, prefixLen))
    (hlen : parseUnsigned 8 prefixLen = some len) :
    ipMatchesCidr ip text = true ↔
      ∃ address, IpAddr.parse network = some address ∧ len ≤ ip.width ∧
        IpAddr.SharesPrefix len ip address := by
  unfold ipMatchesCidr
  rw [hsplit]
  simp only [hlen]
  cases hparse : IpAddr.parse network with
  | none => cases ip <;> simp
  | some address =>
      simp only [Option.some.injEq, exists_eq_left']
      cases ip with
      | v4 a =>
          cases address with
          | v4 b =>
              by_cases hlarge : 32 < len
              · have hnot : ¬len ≤ IpAddr.width (.v4 a) := Nat.not_le.mpr hlarge
                simp [hlarge, hnot]
              · have hfits : len ≤ 32 := Nat.not_lt.mp hlarge
                simp only [hlarge, if_false]
                rw [cut_iff hfits]
                exact (and_iff_right hfits).symm
          | v6 b => simp [IpAddr.SharesPrefix]
      | v6 a =>
          cases address with
          | v4 b => simp [IpAddr.SharesPrefix]
          | v6 b =>
              by_cases hlarge : 128 < len
              · have hnot : ¬len ≤ IpAddr.width (.v6 a) := Nat.not_le.mpr hlarge
                simp [hlarge, hnot]
              · have hfits : len ≤ 128 := Nat.not_lt.mp hlarge
                simp only [hlarge, if_false]
                rw [cut_iff hfits]
                exact (and_iff_right hfits).symm

theorem width_lt (ip : IpAddr) : ip.width < 256 := by
  cases ip with
  | v4 a => exact (by decide : 32 < 256)
  | v6 a => exact (by decide : 128 < 256)

/-- **Networks are matched exactly.** -/
theorem ipMatchesCidr_network (ip : IpAddr) {network : String} (len : String)
    (hnetwork : '/' ∉ network.toList) :
    ipMatchesCidr ip (network ++ "/" ++ len) = true ↔ ip.InNetwork network len := by
  have hsplit : splitOnce '/' (network ++ "/" ++ len) = some (network, len) :=
    splitOnce_append rfl hnetwork
  constructor
  · intro h
    cases hlen : parseUnsigned 8 len with
    | none =>
        unfold ipMatchesCidr at h
        simp [hsplit, hlen] at h
    | some n =>
        obtain ⟨address, hparse, hfits, hshares⟩ := (ipMatchesCidr_parsed hsplit hlen).mp h
        exact ⟨address, 8, n, hparse, hlen, hfits, hshares⟩
  · intro h
    obtain ⟨address, bits, n, hparse, hlen, hfits, hshares⟩ := h
    have hwidth := width_lt ip
    exact (ipMatchesCidr_parsed hsplit (parseUnsigned_eight hlen (by omega))).mpr
      ⟨address, hparse, hfits, hshares⟩

/-! ## Bare addresses -/

/-- A text without a slash is compared with the printed form. -/
theorem ipMatchesCidr_bare (ip : IpAddr) {text : String} (h : '/' ∉ text.toList) :
    ipMatchesCidr ip text = true ↔ ip.toString = text := by
  unfold ipMatchesCidr
  rw [splitOnce_eq_none h]
  exact beq_iff_eq

/-- The network of the full length holds its own address only. -/
theorem ipMatchesCidr_full (ip : IpAddr) {text : String} {address : IpAddr}
    (h : '/' ∉ text.toList) (hparse : IpAddr.parse text = some address) :
    ipMatchesCidr ip (text ++ "/" ++ toString address.width) = true ↔ ip = address := by
  have hlen : ∃ bits, parseUnsigned bits (toString address.width) = some address.width := by
    cases address with
    | v4 a => exact ⟨8, (by decide : parseUnsigned 8 (toString 32) = some 32)⟩
    | v6 a => exact ⟨8, (by decide : parseUnsigned 8 (toString 128) = some 128)⟩
  rw [ipMatchesCidr_network ip _ h]
  constructor
  · intro hin
    obtain ⟨found, bits, n, hfound, hn, -, hshares⟩ := hin
    obtain rfl := Option.some.inj (hparse.symm.trans hfound)
    have hwidth := hshares.width_eq
    obtain ⟨bits', hown⟩ := hlen
    have hsame := parseUnsigned_unique hn hown
    rw [hsame, ← hwidth] at hshares
    exact IpAddr.sharesPrefix_width.mp hshares
  · rintro rfl
    obtain ⟨bits, hown⟩ := hlen
    exact ⟨ip, bits, ip.width, hparse, hown, Nat.le_refl _, IpAddr.sharesPrefix_width.mpr rfl⟩

/-- **CIDR matching is exact**: `network/len` matches the addresses in the network, a
bare address matches the addresses that it denotes, and so does the network of its
full length. -/
structure CidrExact (ip : IpAddr) (text : String) : Prop where
  network : ∀ network len : String, '/' ∉ network.toList → text = network ++ "/" ++ len →
    (ipMatchesCidr ip text = true ↔ ip.InNetwork network len)
  bare : '/' ∉ text.toList →
    (ipMatchesCidr ip text = true ↔ IpAddr.parse text = some ip)
  full : '/' ∉ text.toList → ∀ address, IpAddr.parse text = some address →
    ipMatchesCidr ip text = ipMatchesCidr ip (text ++ "/" ++ toString address.width)

/-- **When matching is exact**: always, but for a bare text that denotes the address and
is not its printed form.  No length up to the width makes the mask overflow. -/
theorem cidrExact_iff (ip : IpAddr) (text : String) :
    (CidrExact ip text ↔
      ('/' ∉ text.toList → IpAddr.parse text = some ip → text = ip.toString)) ∧
    ∀ len ≤ ip.width, checkedMask ip.width len = some (mask ip.width len) := by
  refine ⟨⟨fun h hbare hparse => ?_, fun h => ?_⟩, fun len hlen => checkedMask_eq hlen⟩
  · exact ((ipMatchesCidr_bare ip hbare).mp ((h.bare hbare).mpr hparse)).symm
  · have hexact (hbare : '/' ∉ text.toList) :
        ipMatchesCidr ip text = true ↔ IpAddr.parse text = some ip := by
      rw [ipMatchesCidr_bare ip hbare]
      constructor
      · rintro rfl
        exact IpAddr.parse_toString ip
      · intro hparse
        exact (h hbare hparse).symm
    refine ⟨fun network len hnetwork htext => ?_, hexact, fun hbare address hparse => ?_⟩
    · rw [htext]
      exact ipMatchesCidr_network ip len hnetwork
    · rw [Bool.eq_iff_iff, hexact hbare, ipMatchesCidr_full ip hbare hparse, hparse,
        Option.some.injEq]
      exact eq_comm

/-- The address `::1` does not match its text with all groups written out. -/
theorem cidr_misses_longForm :
    ¬∀ (ip : IpAddr) (text : String), CidrExact ip text := by
  intro hall
  have hmissed := ((hall (.v6 1) "0:0:0:0:0:0:0:1").bare (by decide)).mpr (by decide +kernel)
  exact absurd hmissed (by decide +kernel)

end Strix
