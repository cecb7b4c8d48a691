import Mathlib.Algebra.Group.Nat.Defs
import Strix.StoreCrypto

/-!
# A platform that computes

The store's programs take random draws, digests and the cipher from the
platform.  `executablePlatform` is one on which they run: ULIDs are numbered,
the digests are tabulated where they are needed, the cipher appends an empty
tag, and among rows of equal creation time SQLite's sorter keeps the first it
has scanned, which is the one inserted first.
-/

namespace Strix

/-- The ULIDs of one millisecond, counted. -/
def numberedUlid (n : Nat) : String := "01ARZ3NDEKTSV4RRFFQ69G5FA" ++ Nat.repr n

theorem numberedUlid_injective : Function.Injective numberedUlid := by
  intro m n h
  have hrepr : Nat.repr m = Nat.repr n := (String.append_right_inj _).mp h
  have hdigits : Nat.toDigits 10 m = Nat.toDigits 10 n := by
    simpa [Nat.repr] using congrArg String.toList hrepr
  calc
    m = Nat.ofDigitChars 10 (Nat.toDigits 10 m) 0 := by simp
    _ = Nat.ofDigitChars 10 (Nat.toDigits 10 n) 0 := by rw [hdigits]
    _ = n := by simp

/-- A ULID starts with a digit, so none is the unversioned marker. -/
theorem numberedUlid_ne_null (n : Nat) : numberedUlid n ≠ "null" := by
  intro h
  have hchars : ("01ARZ3NDEKTSV4RRFFQ69G5FA" ++ Nat.repr n).toList.head? =
      "null".toList.head? := congrArg (fun s => s.toList.head?) h
  rw [String.toList_append] at hchars
  exact absurd (Option.some.inj hchars) (by decide)

/-- The digests of the contents that runs of the model use. -/
def tabulatedMd5 (data : Bytes) : Bytes :=
  let hex :=
    if data = [] then "d41d8cd98f00b204e9800998ecf8427e"
    else if data = [97] then "0cc175b9c0f1b6a831c399e269772661"
    else if data = [98] then "92eb5ffee6ae2fec3ad71c777531578f"
    else "00000000000000000000000000000000"
  (hexDecode hex.toList).getD []

/-- The tag of the cipher. -/
def emptyTag : Bytes := List.replicate tagSize 0

/-- The first of the rows whose creation time no other exceeds. -/
def firstNewest : List ObjectRow → Option ObjectRow
  | [] => none
  | r :: rest =>
      match firstNewest rest with
      | none => some r
      | some best => if r.createdAt < best.createdAt then some best else some r

theorem firstNewest_isSome (rows : List ObjectRow) :
    (firstNewest rows).isSome ↔ rows ≠ [] := by
  cases rows with
  | nil => simp [firstNewest]
  | cons r rest =>
      cases h : firstNewest rest with
      | none => simp [firstNewest, h]
      | some best =>
          by_cases hlt : r.createdAt < best.createdAt <;> simp [firstNewest, h, hlt]

theorem firstNewest_spec {rows : List ObjectRow} {best : ObjectRow}
    (h : firstNewest rows = some best) :
    best ∈ rows ∧ ∀ r ∈ rows, r.createdAt ≤ best.createdAt := by
  induction rows generalizing best with
  | nil => cases h
  | cons r rest ih =>
      cases hrest : firstNewest rest with
      | none =>
          simp only [firstNewest, hrest, Option.some.injEq] at h
          subst h
          have hempty : rest = [] := by
            by_contra hne
            have := (firstNewest_isSome rest).mpr hne
            simp [hrest] at this
          simp [hempty]
      | some m =>
          obtain ⟨hmem, hle⟩ := ih hrest
          simp only [firstNewest, hrest] at h
          by_cases hlt : r.createdAt < m.createdAt
          · rw [if_pos hlt, Option.some.injEq] at h
            subst h
            refine ⟨List.mem_cons_of_mem _ hmem, fun r' hr' => ?_⟩
            rcases List.mem_cons.mp hr' with rfl | hr'
            · exact Int.le_of_lt hlt
            · exact hle r' hr'
          · rw [if_neg hlt, Option.some.injEq] at h
            subst h
            refine ⟨List.mem_cons_self, fun r' hr' => ?_⟩
            rcases List.mem_cons.mp hr' with rfl | hr'
            · exact Int.le_refl _
            · exact Int.le_trans (hle r' hr') (Int.not_lt.mp hlt)

/-- A platform on which the model's programs run. -/
def executablePlatform : Platform where
  masterKey := ⟨List.replicate keySize 0, List.length_replicate⟩
  ulid := numberedUlid
  ulid_injective := numberedUlid_injective
  ulid_ne_null := numberedUlid_ne_null
  nonce := fun _ => ⟨List.replicate nonceSize 0, List.length_replicate⟩
  md5 := tabulatedMd5
  hmacSha256 := fun _ _ => ⟨List.replicate keySize 0, List.length_replicate⟩
  gcmEncrypt := fun _ _ plain =>
    if plain.length ≤ 2 ^ 36 then some (plain ++ emptyTag) else none
  gcmDecrypt := fun _ _ cipher => some (cipher.take (cipher.length - tagSize))
  maxPlaintext := 2 ^ 36
  gcmEncrypt_isSome := by
    intro k n plain
    by_cases h : plain.length ≤ 2 ^ 36 <;> simp [h]
  gcmEncrypt_length := by
    intro k n plain cipher h
    by_cases hlen : plain.length ≤ 2 ^ 36
    · rw [if_pos hlen, Option.some.injEq] at h
      simp [← h, emptyTag]
    · rw [if_neg hlen] at h
      cases h
  gcmDecrypt_gcmEncrypt := by
    intro k n plain cipher h
    by_cases hlen : plain.length ≤ 2 ^ 36
    · rw [if_pos hlen, Option.some.injEq] at h
      simp [← h, emptyTag]
    · rw [if_neg hlen] at h
      cases h
  base64Encode := fun _ => ""
  base64Decode := fun _ => none
  newest := firstNewest
  newest_isSome := firstNewest_isSome
  newest_mem := fun _ _ h => (firstNewest_spec h).1
  newest_le := fun _ _ h => (firstNewest_spec h).2

end Strix
