import Mathlib.Algebra.GroupWithZero.Nat
import Mathlib.Data.List.Basic
import Mathlib.Data.List.TakeDrop
import Mathlib.Data.String.Basic

/-!
# Texts

The `str` methods of the standard library that the program uses and that have
no direct counterpart: prefixes and suffixes, splitting at a character, reading
unsigned numbers, and slices that start at a byte.
-/

namespace Strix

/-- `str::starts_with`. -/
def startsWith (text head : String) : Bool :=
  head.toList.isPrefixOf text.toList

/-- `str::ends_with`. -/
def endsWith (text tail : String) : Bool :=
  tail.toList.isSuffixOf text.toList

/-- `str::strip_prefix`. -/
def stripHead (text head : String) : Option String :=
  if startsWith text head then some (String.ofList (text.toList.drop head.toList.length))
  else none

/-- `str::strip_suffix`. -/
def stripTail (text tail : String) : Option String :=
  if endsWith text tail then
    some (String.ofList (text.toList.take (text.toList.length - tail.toList.length)))
  else none

/-- Without the slashes at the end. -/
def trimEndSlashes (url : String) : String :=
  String.ofList (url.toList.reverse.dropWhile (· = '/')).reverse

/-- What remains without the pattern, where the first characters are still skipped: they
belong to its last occurrence. -/
def removeFrom (pattern : List Char) : Nat → List Char → List Char
  | _, [] => []
  | skip + 1, _ :: rest => removeFrom pattern skip rest
  | 0, c :: rest =>
    if pattern.isPrefixOf (c :: rest) then removeFrom pattern (pattern.length - 1) rest
    else c :: removeFrom pattern 0 rest

/-- `str::replace` with the empty text. -/
def removeAll (pattern text : String) : String :=
  String.ofList (removeFrom pattern.toList 0 text.toList)

/-- `str::split_once`: the text before and after the first separator. -/
def splitOnce (separator : Char) (text : String) : Option (String × String) :=
  let (front, back) := text.toList.span (· ≠ separator)
  match back with
  | [] => none
  | _ :: back => some (String.ofList front, String.ofList back)

/-- `char::to_digit`. -/
def toDigit (radix : Nat) (c : Char) : Option Nat :=
  let value :=
    if '0' ≤ c ∧ c ≤ '9' then some (c.toNat - '0'.toNat)
    else if 'a' ≤ c ∧ c ≤ 'z' then some (c.toNat - 'a'.toNat + 10)
    else if 'A' ≤ c ∧ c ≤ 'Z' then some (c.toNat - 'A'.toNat + 10)
    else none
  value.filter (· < radix)

/-- The digits at the head of the text, and what follows them. -/
def readDigits (radix : Nat) : List Char → List Nat × List Char
  | [] => ([], [])
  | c :: cs =>
    match toDigit radix c with
    | some digit =>
      let (digits, rest) := readDigits radix cs
      (digit :: digits, rest)
    | none => ([], c :: cs)

/-- The number with these digits, the highest first. -/
def ofDigits (radix : Nat) (digits : List Nat) : Nat :=
  digits.foldl (fun value digit => value * radix + digit) 0

/-- `str::parse` for an unsigned type of `bits` bits: decimal digits, after an
optional plus sign. -/
def parseUnsigned (bits : Nat) (text : String) : Option Nat :=
  let digits :=
    match text.toList with
    | '+' :: rest => rest
    | cs => cs
  match readDigits 10 digits with
  | (values, []) =>
    let value := ofDigits 10 values
    if values.isEmpty ∨ 2 ^ bits ≤ value then none else some value
  | _ => none

/-- What follows a head that the text starts with. -/
theorem stripHead_append (head tail : String) : stripHead (head ++ tail) head = some tail := by
  have hstart : startsWith (head ++ tail) head = true := by
    rw [startsWith, String.toList_append]
    exact List.isPrefixOf_iff_prefix.mpr (List.prefix_append _ _)
  rw [stripHead, hstart, String.toList_append, List.drop_left]
  simp

/-- What stands before a tail that the text ends with. -/
theorem stripTail_append (front tail : String) : stripTail (front ++ tail) tail = some front := by
  have hend : endsWith (front ++ tail) tail = true := by
    rw [endsWith, String.toList_append]
    exact List.isSuffixOf_iff_suffix.mpr (List.suffix_append _ _)
  rw [stripTail, hend, String.toList_append, List.length_append, Nat.add_sub_cancel,
    List.take_left]
  simp

/-- A text splits at the separator that no text before it contains. -/
theorem splitOnce_append {separator : Char} {front middle back : String}
    (hmiddle : middle.toList = [separator]) (hfront : separator ∉ front.toList) :
    splitOnce separator (front ++ middle ++ back) = some (front, back) := by
  have hall : ∀ c ∈ front.toList, decide (c ≠ separator) = true := by
    intro c hc
    rw [decide_eq_true_eq]
    rintro rfl
    exact hfront hc
  have hspan : (front ++ middle ++ back).toList.span (· ≠ separator) =
      (front.toList, separator :: back.toList) := by
    rw [List.span_eq_takeWhile_dropWhile]
    simp only [String.toList_append, hmiddle, List.append_assoc, List.singleton_append]
    rw [List.takeWhile_append_of_pos hall, List.dropWhile_append_of_pos hall]
    simp
  simp only [splitOnce, hspan]
  simp

/-! ## Bytes and occurrences -/

/-- `str::len`: the number of bytes. -/
def byteLen (text : String) : Nat := (text.toList.map Char.utf8Size).sum

/-- What follows the first `n` bytes; none if they end within a character or the
text has fewer. -/
def dropBytes : Nat → List Char → Option (List Char)
  | n, [] => if n = 0 then some [] else none
  | n, c :: cs =>
    if n = 0 then some (c :: cs)
    else if c.utf8Size ≤ n then dropBytes (n - c.utf8Size) cs
    else none

/-- `&text[n..]`; none where the slice panics. -/
def sliceFrom (text : String) (n : Nat) : Option String :=
  (dropBytes n text.toList).map String.ofList

/-- The characters before the first occurrence of a pattern. -/
def beforeFirst (pattern : List Char) : List Char → Option (List Char)
  | [] => if pattern.isEmpty then some [] else none
  | c :: cs =>
    if pattern.isPrefixOf (c :: cs) then some [] else (beforeFirst pattern cs).map (c :: ·)

/-- `text.find(pattern)`, as the text before the position. -/
def textBefore (text pattern : String) : Option String :=
  (beforeFirst pattern.toList text.toList).map String.ofList

theorem dropBytes_append (head tail : List Char) :
    dropBytes (head.map Char.utf8Size).sum (head ++ tail) = some tail := by
  induction head with
  | nil => cases tail <;> simp [dropBytes]
  | cons c cs ih =>
      have hpos : c.utf8Size ≠ 0 := Nat.ne_of_gt c.utf8Size_pos
      simp [dropBytes, hpos, ih]

/-- A slice at the end of a head of the text is the rest. -/
theorem sliceFrom_append (head tail : String) :
    sliceFrom (head ++ tail) (byteLen head) = some tail := by
  rw [sliceFrom, byteLen, String.toList_append, dropBytes_append]
  simp

theorem startsWith_iff {text head : String} :
    startsWith text head = true ↔ ∃ tail, text = head ++ tail := by
  rw [startsWith, List.isPrefixOf_iff_prefix]
  constructor
  · rintro ⟨tail, h⟩
    refine ⟨String.ofList tail, String.ext ?_⟩
    simp [← h]
  · rintro ⟨tail, rfl⟩
    rw [String.toList_append]
    exact List.prefix_append _ _

theorem endsWith_iff {text tail : String} :
    endsWith text tail = true ↔ ∃ front, text = front ++ tail := by
  rw [endsWith, List.isSuffixOf_iff_suffix]
  constructor
  · intro h
    obtain ⟨front, h⟩ := h
    refine ⟨String.ofList front, String.ext ?_⟩
    simp [← h]
  · intro h
    obtain ⟨front, rfl⟩ := h
    rw [String.toList_append]
    exact List.suffix_append _ _

/-- The text contains the pattern. -/
def Contains (text pattern : String) : Prop :=
  ∃ front back, text = front ++ pattern ++ back

theorem beforeFirst_eq_none {pattern text : List Char} :
    beforeFirst pattern text = none ↔ ¬pattern <:+: text := by
  induction text with
  | nil => simp [beforeFirst]
  | cons c cs ih =>
      rw [List.infix_cons_iff]
      by_cases hhead : pattern <+: c :: cs
      · simp [beforeFirst, hhead]
      · simp [beforeFirst, hhead, ih]

theorem beforeFirst_eq_some {pattern text before : List Char} :
    beforeFirst pattern text = some before ↔
      (∃ rest, text = before ++ pattern ++ rest) ∧
        ∀ front back, text = front ++ pattern ++ back → before.length ≤ front.length := by
  induction text generalizing before with
  | nil => cases pattern <;> simp [beforeFirst]
  | cons c cs ih =>
      by_cases hhead : pattern <+: c :: cs
      · have hfound : beforeFirst pattern (c :: cs) = some [] := by simp [beforeFirst, hhead]
        obtain ⟨rest, hrest⟩ := hhead
        rw [hfound, Option.some.injEq]
        constructor
        · rintro rfl
          exact ⟨⟨rest, hrest.symm⟩, fun _ _ _ => Nat.zero_le _⟩
        · rintro ⟨-, hfirst⟩
          exact (List.length_eq_zero_iff.mp (Nat.le_zero.mp (hfirst [] rest hrest.symm))).symm
      · have hnot : ∀ back, c :: cs ≠ [] ++ pattern ++ back :=
          fun back h => hhead ⟨back, h.symm⟩
        have hlater : beforeFirst pattern (c :: cs) = (beforeFirst pattern cs).map (c :: ·) := by
          simp [beforeFirst, hhead]
        rw [hlater, Option.map_eq_some_iff]
        constructor
        · rintro ⟨front, hfront, rfl⟩
          obtain ⟨⟨rest, hrest⟩, hfirst⟩ := ih.mp hfront
          refine ⟨⟨rest, by simp [hrest]⟩, fun other back h => ?_⟩
          cases other with
          | nil => exact absurd h (hnot back)
          | cons d other =>
              rw [List.cons_append, List.cons_append, List.cons.injEq] at h
              exact Nat.succ_le_succ (hfirst other back h.2)
        · rintro ⟨⟨rest, hrest⟩, hfirst⟩
          cases before with
          | nil => exact absurd hrest (hnot rest)
          | cons d front =>
              rw [List.cons_append, List.cons_append, List.cons.injEq] at hrest
              obtain ⟨rfl, hcs⟩ := hrest
              refine ⟨front, ih.mpr ⟨⟨rest, hcs⟩, fun other back h => ?_⟩, rfl⟩
              exact Nat.le_of_succ_le_succ (hfirst (c :: other) back (by simp [h]))

theorem textBefore_eq_none {text pattern : String} :
    textBefore text pattern = none ↔ ¬Contains text pattern := by
  rw [textBefore, Option.map_eq_none_iff, beforeFirst_eq_none, not_iff_not]
  constructor
  · rintro ⟨front, back, h⟩
    exact ⟨String.ofList front, String.ofList back, String.ext (by simp [← h])⟩
  · rintro ⟨front, back, rfl⟩
    exact ⟨front.toList, back.toList, by simp⟩

/-- The text before the first occurrence: no other occurrence starts earlier. -/
theorem textBefore_eq_some {text pattern before : String} :
    textBefore text pattern = some before ↔
      (∃ rest, text = before ++ pattern ++ rest) ∧
        ∀ front back, text = front ++ pattern ++ back → before.length ≤ front.length := by
  rw [textBefore, Option.map_eq_some_iff]
  constructor
  · rintro ⟨chars, hchars, rfl⟩
    obtain ⟨⟨rest, hrest⟩, hfirst⟩ := beforeFirst_eq_some.mp hchars
    refine ⟨⟨String.ofList rest, String.ext (by simp [hrest])⟩, fun front back h => ?_⟩
    have hle := hfirst front.toList back.toList (by simp [h])
    rwa [String.length_toList, ← String.length_ofList] at hle
  · rintro ⟨⟨rest, hrest⟩, hfirst⟩
    refine ⟨before.toList, beforeFirst_eq_some.mpr ⟨⟨rest.toList, by simp [hrest]⟩, ?_⟩,
      by simp⟩
    intro front back h
    have hle := hfirst (String.ofList front) (String.ofList back) (String.ext (by simp [h]))
    rwa [String.length_ofList, ← String.length_toList] at hle

/-- What lies between two character sequences with a common head has that head, too. -/
theorem isPrefix_of_between {head a b c : List Char} (hab : ¬b < head ++ a)
    (hbc : ¬head ++ c < b) : head <+: b := by
  induction head generalizing b with
  | nil => exact List.nil_prefix
  | cons x head ih =>
      cases b with
      | nil => exact absurd (List.nil_lt_cons x (head ++ a)) hab
      | cons y b =>
          rw [List.cons_append, List.cons_lt_cons_iff, not_or, not_and] at hab hbc
          have hxy : y = x := le_antisymm (not_lt.mp hbc.1) (not_lt.mp hab.1)
          exact List.cons_prefix_cons.mpr ⟨hxy.symm, ih (hab.2 hxy) (hbc.2 hxy.symm)⟩

/-- The texts that start with a head lie together. -/
theorem startsWith_between {head a b c : String} (ha : startsWith a head = true)
    (hc : startsWith c head = true) (hab : a ≤ b) (hbc : b ≤ c) : startsWith b head = true := by
  rw [startsWith, List.isPrefixOf_iff_prefix] at ha hc ⊢
  obtain ⟨restA, ha⟩ := ha
  obtain ⟨restC, hc⟩ := hc
  rw [← not_lt, String.lt_iff_toList_lt] at hab hbc
  exact isPrefix_of_between (ha ▸ hab) (hc ▸ hbc)

end Strix
