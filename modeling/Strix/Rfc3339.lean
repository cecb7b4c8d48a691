import Mathlib.Data.List.Lex
import Mathlib.Data.Int.Order.Basic
import Mathlib.Tactic.Ring

/-!
# Instants as texts

An instant is a number of nanoseconds since 1970.  Its text in RFC 3339 is the
date in the Gregorian calendar, the time of day, a fraction of three, six or nine
digits if there is one, and the offset `+00:00`.

* `field_lt`: decimal fields of one width compare as their numbers;
* `yearOf_spec`: a day lies in its year;
* `dateText_lt`, `clockText_lt`, `fractionText_lt`: each part of the text is in the
  order of what it stands for;
* `text_lt_text_iff`: so texts of instants compare as the instants.
-/

namespace Rfc3339

/-! ## Order of lists of characters -/

/-- What is behind two texts of one length plays no part if they differ. -/
theorem append_lt_append {a b : List Char} (hlength : a.length = b.length) (h : a < b)
    (x y : List Char) : a ++ x < b ++ y := by
  induction a generalizing b with
  | nil =>
      obtain rfl := List.eq_nil_of_length_eq_zero hlength.symm
      exact absurd h (List.not_lt_nil _)
  | cons c a ih =>
      cases b with
      | nil => cases hlength
      | cons d b =>
          rw [List.cons_append, List.cons_append, List.cons_lt_cons_iff]
          rcases List.cons_lt_cons_iff.mp h with hlt | ⟨rfl, hlt⟩
          · exact Or.inl hlt
          · exact Or.inr ⟨rfl, ih (Nat.succ.inj hlength) hlt⟩

/-! ## Decimal fields -/

/-- A decimal digit. -/
def digit (d : Nat) : Char := Char.ofNat (48 + d)

theorem digit_lt {d e : Nat} (h : d < e) (he : e < 10) : digit d < digit e := by
  have hall : ∀ e < 10, ∀ d < e, digit d < digit e := by decide
  exact hall e he d h

/-- The number in decimal, `width` digits of it. -/
def field : Nat → Nat → List Char
  | 0, _ => []
  | width + 1, n => digit (n / 10 ^ width) :: field width (n % 10 ^ width)

theorem length_field (width n : Nat) : (field width n).length = width := by
  induction width generalizing n with
  | zero => rfl
  | succ width ih => rw [field, List.length_cons, ih]

/-- **Fields of one width compare as their numbers.** -/
theorem field_lt {width n m : Nat} (h : n < m) (hm : m < 10 ^ width) :
    field width n < field width m := by
  induction width generalizing n m with
  | zero => omega
  | succ width ih =>
      have hpos : 0 < 10 ^ width := Nat.pow_pos (by decide)
      have htop : m / 10 ^ width < 10 := by
        rw [Nat.div_lt_iff_lt_mul hpos, Nat.mul_comm, ← Nat.pow_succ]
        exact hm
      rw [field, field, List.cons_lt_cons_iff]
      rcases Nat.lt_or_ge (n / 10 ^ width) (m / 10 ^ width) with hlt | hge
      · exact Or.inl (digit_lt hlt htop)
      · have hsame : n / 10 ^ width = m / 10 ^ width :=
          Nat.le_antisymm (Nat.div_le_div_right h.le) hge
        refine Or.inr ⟨by rw [hsame], ih ?_ (Nat.mod_lt _ hpos)⟩
        have hn := Nat.div_add_mod n (10 ^ width)
        have hm := Nat.div_add_mod m (10 ^ width)
        rw [hsame] at hn
        omega

/-- A field in two parts. -/
theorem field_add {front back n : Nat} (h : n < 10 ^ (front + back)) :
    field (front + back) n = field front (n / 10 ^ back) ++ field back (n % 10 ^ back) := by
  induction front generalizing n with
  | zero =>
      rw [Nat.zero_add] at h ⊢
      rw [field, List.nil_append, Nat.mod_eq_of_lt h]
  | succ front ih =>
      have hpos : 0 < 10 ^ (front + back) := Nat.pow_pos (by decide)
      have hsplit : 10 ^ (front + back) = 10 ^ back * 10 ^ front := by
        rw [Nat.pow_add, Nat.mul_comm]
      rw [Nat.succ_add, field, field, ih (Nat.mod_lt n hpos), List.cons_append]
      rw [Nat.div_div_eq_div_mul, ← hsplit, hsplit, Nat.mod_mul_right_div_self,
        Nat.mod_mod_of_dvd n (Nat.dvd_mul_right _ _)]

/-! ## The calendar -/

/-- The days from the first day of the year 1 to the first day of the year. -/
def daysBefore (year : Int) : Int :=
  365 * (year - 1) + (year - 1) / 4 - (year - 1) / 100 + (year - 1) / 400

/-- A leap year has 366 days. -/
def isLeap (year : Int) : Bool :=
  year % 4 == 0 && (year % 100 != 0 || year % 400 == 0)

/-- The year of a day, which is counted from the first day of the year 1: by spans of
400, 100, 4 and 1 years. -/
def yearOf (day : Int) : Int :=
  let inEra := day % 146097
  let century := min 3 (inEra / 36524)
  let inCentury := inEra - 36524 * century
  let inSpan := inCentury % 1461
  400 * (day / 146097) + 100 * century + 4 * (inCentury / 1461) + min 3 (inSpan / 365) + 1

/-- The lengths of the months. -/
def monthLengths (leap : Bool) : List Nat :=
  [31, if leap then 29 else 28, 31, 30, 31, 30, 31, 31, 30, 31, 30, 31]

/-- The month and the day in it, from months of these lengths on: both are counted
from the first. -/
def monthOf : List Nat → Nat → Nat → Nat × Nat
  | [], month, day => (month, day)
  | length :: lengths, month, day =>
      if day < length then (month, day) else monthOf lengths (month + 1) (day - length)

/-- The date of a day. -/
def dateOf (day : Int) : Int × Nat × Nat :=
  let year := yearOf day
  let date := monthOf (monthLengths (isLeap year)) 1 (day - daysBefore year).toNat
  (year, date.1, date.2 + 1)

/-- A year has 365 days, or 366. -/
theorem daysBefore_succ (year : Int) :
    daysBefore (year + 1) = daysBefore year + (monthLengths (isLeap year)).sum := by
  have hlength : ((monthLengths (isLeap year)).sum : Int) = if isLeap year then 366 else 365 := by
    cases isLeap year with
    | false => rfl
    | true => rfl
  rw [hlength]
  unfold daysBefore isLeap
  simp only [Bool.and_eq_true, Bool.or_eq_true, beq_iff_eq, bne_iff_ne]
  split
  · omega
  · omega

theorem daysBefore_mono {year year' : Int} (h : year ≤ year') :
    daysBefore year ≤ daysBefore year' := by
  unfold daysBefore
  omega

/-- The days before a year, by its spans of 400, 100, 4 and 1 years. -/
theorem daysBefore_spans {era century span year : Int} (hcentury : 0 ≤ century ∧ century ≤ 3)
    (hspan : 0 ≤ span ∧ span ≤ 24) (hyear : 0 ≤ year ∧ year ≤ 3) :
    daysBefore (400 * era + 100 * century + 4 * span + year + 1) =
      146097 * era + 36524 * century + 1461 * span + 365 * year := by
  have hfour : (400 * era + 100 * century + 4 * span + year + 1 - 1) / 4 =
      100 * era + 25 * century + span := by omega
  have hhundred : (400 * era + 100 * century + 4 * span + year + 1 - 1) / 100 =
      4 * era + century := by omega
  have hera : (400 * era + 100 * century + 4 * span + year + 1 - 1) / 400 = era := by omega
  unfold daysBefore
  rw [hfour, hhundred, hera]
  omega

/-- **A day lies in its year.** -/
theorem yearOf_spec (day : Int) :
    daysBefore (yearOf day) ≤ day ∧ day < daysBefore (yearOf day + 1) := by
  unfold yearOf
  dsimp only
  generalize hera : day / 146097 = era
  generalize hcentury : min 3 (day % 146097 / 36524) = century
  generalize hrest : day % 146097 - 36524 * century = inCentury
  generalize hspan : inCentury / 1461 = span
  generalize hyear : min 3 (inCentury % 1461 / 365) = year
  have hcenturies : 0 ≤ century ∧ century ≤ 3 := by omega
  have hspans : 0 ≤ span ∧ span ≤ 24 := by omega
  have hyears : 0 ≤ year ∧ year ≤ 3 := by omega
  rw [daysBefore_spans hcenturies hspans hyears]
  refine ⟨by omega, ?_⟩
  -- the next year is in the same span, or begins the next one
  by_cases hin : year < 3
  · have hnext := @daysBefore_spans era century span (year + 1) hcenturies hspans (by omega)
    rw [← add_assoc] at hnext
    rw [hnext]
    omega
  · obtain rfl : year = 3 := by omega
    by_cases hshort : span < 24
    · have hnext := @daysBefore_spans era century (span + 1) 0 hcenturies (by omega) (by decide)
      have hsame : 400 * era + 100 * century + 4 * span + 3 + 1 + 1 =
          400 * era + 100 * century + 4 * (span + 1) + 0 + 1 := by omega
      rw [hsame, hnext]
      omega
    · obtain rfl : span = 24 := by omega
      by_cases hlast : century < 3
      · have hnext := @daysBefore_spans era (century + 1) 0 0 (by omega) (by decide) (by decide)
        have hsame : 400 * era + 100 * century + 4 * 24 + 3 + 1 + 1 =
            400 * era + 100 * (century + 1) + 4 * 0 + 0 + 1 := by omega
        rw [hsame, hnext]
        omega
      · obtain rfl : century = 3 := by omega
        have hnext := @daysBefore_spans (era + 1) 0 0 0 (by decide) (by decide) (by decide)
        have hsame : 400 * era + 100 * 3 + 4 * 24 + 3 + 1 + 1 =
            400 * (era + 1) + 100 * 0 + 4 * 0 + 0 + 1 := by omega
        rw [hsame, hnext]
        omega

/-- A later month, or a later day of the same month. -/
theorem monthOf_lt (lengths : List Nat) (month : Nat) {day day' : Nat} (h : day < day') :
    (monthOf lengths month day).1 < (monthOf lengths month day').1 ∨
      (monthOf lengths month day).1 = (monthOf lengths month day').1 ∧
      (monthOf lengths month day).2 < (monthOf lengths month day').2 := by
  induction lengths generalizing month day day' with
  | nil => exact Or.inr ⟨rfl, h⟩
  | cons length lengths ih =>
      have hlater (lengths : List Nat) (month day : Nat) :
          month ≤ (monthOf lengths month day).1 := by
        induction lengths generalizing month day with
        | nil => exact Nat.le_refl month
        | cons length lengths ih =>
            unfold monthOf
            split
            · exact Nat.le_refl month
            · exact Nat.le_trans (Nat.le_succ month) (ih _ _)
      by_cases hin' : day' < length
      · have hin : day < length := by omega
        simp only [monthOf, if_pos hin, if_pos hin']
        exact Or.inr ⟨trivial, h⟩
      · by_cases hin : day < length
        · simp only [monthOf, if_pos hin, if_neg hin']
          exact Or.inl (hlater lengths (month + 1) (day' - length))
        · simp only [monthOf, if_neg hin, if_neg hin']
          exact ih (month + 1) (by omega)

/-- The month is one of those, and the day lies in it. -/
theorem monthOf_bounds {lengths : List Nat} {month day : Nat} (h : day < lengths.sum) :
    (monthOf lengths month day).1 < month + lengths.length ∧
      ∃ length ∈ lengths, (monthOf lengths month day).2 < length := by
  induction lengths generalizing month day with
  | nil => exact absurd h (Nat.not_lt_zero day)
  | cons length lengths ih =>
      rw [List.length_cons]
      unfold monthOf
      by_cases hin : day < length
      · rw [if_pos hin]
        exact ⟨by omega, length, List.mem_cons_self, hin⟩
      · rw [if_neg hin]
        rw [List.sum_cons] at h
        obtain ⟨hmonth, found, hmem, hday⟩ := @ih (month + 1) (day - length) (by omega)
        exact ⟨by omega, found, List.mem_cons_of_mem _ hmem, hday⟩

/-- Months and days of months have two digits. -/
theorem dateOf_bounds (day : Int) : (dateOf day).2.1 < 100 ∧ (dateOf day).2.2 < 100 := by
  obtain ⟨hfirst, hlast⟩ := yearOf_spec day
  rw [daysBefore_succ] at hlast
  obtain ⟨hmonth, length, hmem, hday⟩ := @monthOf_bounds (monthLengths (isLeap (yearOf day))) 1
    (day - daysBefore (yearOf day)).toNat (by omega)
  have hlength : ∀ leap, (monthLengths leap).length = 12 ∧
      ∀ length ∈ monthLengths leap, length ≤ 31 := by decide
  obtain ⟨htwelve, hlong⟩ := hlength (isLeap (yearOf day))
  have hshort := hlong length hmem
  unfold dateOf
  dsimp only
  omega

/-- **A later day has a later date.** -/
theorem dateOf_lt {day day' : Int} (h : day < day') :
    (dateOf day).1 < (dateOf day').1 ∨
      (dateOf day).1 = (dateOf day').1 ∧
        ((dateOf day).2.1 < (dateOf day').2.1 ∨
          (dateOf day).2.1 = (dateOf day').2.1 ∧ (dateOf day).2.2 < (dateOf day').2.2) := by
  obtain ⟨hfirst, -⟩ := yearOf_spec day
  obtain ⟨-, hlast'⟩ := yearOf_spec day'
  rcases lt_trichotomy (yearOf day) (yearOf day') with hlt | hsame | hgt
  · exact Or.inl hlt
  · refine Or.inr ⟨hsame, ?_⟩
    unfold dateOf
    dsimp only
    rw [← hsame]
    have hdays : (day - daysBefore (yearOf day)).toNat < (day' - daysBefore (yearOf day)).toNat := by
      omega
    rcases monthOf_lt (monthLengths (isLeap (yearOf day))) 1 hdays with hmonth | ⟨hmonth, hday⟩
    · exact Or.inl hmonth
    · exact Or.inr ⟨hmonth, Nat.succ_lt_succ hday⟩
  · -- an earlier year would have ended before the first day
    have hyears := @daysBefore_mono (yearOf day' + 1) (yearOf day) hgt
    omega

/-! ## The text -/

/-- The year: four digits, with a sign beyond them. -/
def yearText (year : Int) : List Char :=
  if 0 ≤ year ∧ year ≤ 9999 then field 4 year.toNat
  else (if year < 0 then '-' else '+') :: List.leftpad 4 '0' (Nat.toDigits 10 year.natAbs)

/-- The date of a day. -/
def dateText (day : Int) : List Char :=
  let date := dateOf day
  yearText date.1 ++ '-' :: (field 2 date.2.1 ++ '-' :: field 2 date.2.2)

/-- The time of day. -/
def clockText (seconds : Nat) : List Char :=
  field 2 (seconds / 3600) ++
    ':' :: (field 2 (seconds / 60 % 60) ++ ':' :: field 2 (seconds % 60))

/-- The first digits of a number of nanoseconds. -/
def leading (digits nanos : Nat) : List Char :=
  field digits (nanos / 10 ^ (9 - digits))

/-- How many digits of the nanoseconds are written: as many groups of three as it
takes. -/
def fractionDigits (nanos : Nat) : Nat :=
  if nanos % 1000000 = 0 then 3
  else if nanos % 1000 = 0 then 6
  else 9

/-- The offset of UTC. -/
def offset : List Char := "+00:00".toList

/-- The fraction of the second, and the offset. -/
def fractionText (nanos : Nat) : List Char :=
  if nanos = 0 then offset
  else '.' :: (leading (fractionDigits nanos) nanos ++ offset)

/-- The day of an instant, counted from the first day of the year 1. -/
def dayOf (t : Int) : Int := t / 86400000000000 + 719162

/-- The nanoseconds of an instant since its day began. -/
def timeOf (t : Int) : Nat := (t % 86400000000000).toNat

/-- **The text of an instant.** -/
def text (t : Int) : String :=
  String.ofList (dateText (dayOf t) ++
    'T' :: (clockText (timeOf t / 1000000000) ++ fractionText (timeOf t % 1000000000)))

/-- The year of the instant has four digits. -/
def FourDigitYear (t : Int) : Prop :=
  0 ≤ yearOf (dayOf t) ∧ yearOf (dayOf t) ≤ 9999

/-! ## The order of the texts -/

/-- One field decides, or the rest does. -/
theorem field_append_lt {width n m : Nat} (hm : m < 10 ^ width) {x y : List Char}
    (h : n < m ∨ n = m ∧ x < y) : field width n ++ x < field width m ++ y := by
  rcases h with hlt | ⟨rfl, hlt⟩
  · refine append_lt_append ?_ (field_lt hlt hm) x y
    rw [length_field, length_field]
  · exact List.append_left_lt hlt

/-- Texts of later days are later texts of the same length. -/
theorem dateText_lt {day day' : Int} (hyear : 0 ≤ yearOf day ∧ yearOf day ≤ 9999)
    (hyear' : 0 ≤ yearOf day' ∧ yearOf day' ≤ 9999) (h : day < day') (x y : List Char) :
    dateText day ++ x < dateText day' ++ y := by
  have htext (day : Int) (hyear : 0 ≤ yearOf day ∧ yearOf day ≤ 9999) (x : List Char) :
      dateText day ++ x = field 4 (dateOf day).1.toNat ++
        ('-' :: (field 2 (dateOf day).2.1 ++ ('-' :: (field 2 (dateOf day).2.2 ++ x)))) := by
    have hfour : 0 ≤ (dateOf day).1 ∧ (dateOf day).1 ≤ 9999 := hyear
    simp [dateText, yearText, hfour]
  rw [htext day hyear, htext day' hyear']
  obtain ⟨hmonth, hday⟩ := dateOf_bounds day'
  have hfour : 0 ≤ (dateOf day).1 ∧ (dateOf day).1 ≤ 9999 := hyear
  have hfour' : 0 ≤ (dateOf day').1 ∧ (dateOf day').1 ≤ 9999 := hyear'
  refine field_append_lt (by omega) ?_
  rcases dateOf_lt h with hlt | ⟨hsame, hrest⟩
  · exact Or.inl (by omega)
  · refine Or.inr ⟨by rw [hsame], List.cons_lt_cons_self.mpr ?_⟩
    refine field_append_lt hmonth ?_
    rcases hrest with hlt | ⟨hsame, hlt⟩
    · exact Or.inl hlt
    · refine Or.inr ⟨hsame, List.cons_lt_cons_self.mpr ?_⟩
      exact field_append_lt hday (Or.inl hlt)

/-- Texts of later times of a day are later texts. -/
theorem clockText_lt {seconds seconds' : Nat} (h : seconds < seconds')
    (hday : seconds' < 86400) (x y : List Char) :
    clockText seconds ++ x < clockText seconds' ++ y := by
  have htext (seconds : Nat) (x : List Char) :
      clockText seconds ++ x = field 2 (seconds / 3600) ++
        (':' :: (field 2 (seconds / 60 % 60) ++ (':' :: (field 2 (seconds % 60) ++ x)))) := by
    simp [clockText]
  rw [htext, htext]
  refine field_append_lt (by omega) ?_
  rcases Nat.lt_or_ge (seconds / 3600) (seconds' / 3600) with hlt | hge
  · exact Or.inl hlt
  · refine Or.inr ⟨by omega, List.cons_lt_cons_self.mpr ?_⟩
    refine field_append_lt (by omega) ?_
    rcases Nat.lt_or_ge (seconds / 60 % 60) (seconds' / 60 % 60) with hlt | hge
    · exact Or.inl hlt
    · refine Or.inr ⟨by omega, List.cons_lt_cons_self.mpr ?_⟩
      exact field_append_lt (by omega) (Or.inl (by omega))

/-- More of the digits of the nanoseconds. -/
theorem leading_add {front back nanos : Nat} (hnine : front + back ≤ 9)
    (h : nanos < 10 ^ 9) :
    ∃ rest < 10 ^ back,
      leading (front + back) nanos = leading front nanos ++ field back rest := by
  have hpow : 10 ^ (9 - front) = 10 ^ (9 - (front + back)) * 10 ^ back := by
    rw [← Nat.pow_add]
    congr 1
    omega
  have hlt : nanos / 10 ^ (9 - (front + back)) < 10 ^ (front + back) := by
    rw [Nat.div_lt_iff_lt_mul (Nat.pow_pos (by decide)), ← Nat.pow_add]
    rwa [Nat.add_sub_cancel' hnine]
  refine ⟨nanos / 10 ^ (9 - (front + back)) % 10 ^ back, Nat.mod_lt _ (Nat.pow_pos (by decide)),
    (field_add hlt).trans ?_⟩
  rw [leading, Nat.div_div_eq_div_mul, ← hpow]

/-- The sign of the offset is smaller than a digit. -/
theorem sign_lt_digit {d : Nat} (h : d < 10) : '+' < digit d := by
  have hall : ∀ d < 10, '+' < digit d := by decide
  exact hall d h

/-- **Fractions of different lengths compare as their numbers**, if all digits that are
left out are zeros: the offset begins with a sign that is smaller than every digit. -/
theorem leading_lt {front front' nanos nanos' : Nat} (hfront : front ≤ 9) (hfront' : front' ≤ 9)
    (hzeros : 10 ^ (9 - front) ∣ nanos) (hzeros' : 10 ^ (9 - front') ∣ nanos')
    (h : nanos < nanos') (hnanos' : nanos' < 10 ^ 9) :
    leading front nanos ++ offset < leading front' nanos' ++ offset := by
  have hbound (digits : Nat) (hdigits : digits ≤ 9) :
      nanos' / 10 ^ (9 - digits) < 10 ^ digits := by
    rw [Nat.div_lt_iff_lt_mul (Nat.pow_pos (by decide)), ← Nat.pow_add]
    rwa [Nat.add_sub_cancel' hdigits]
  -- where the later number has no more digits, its first digits are greater
  have hstrict : nanos / 10 ^ (9 - front') < nanos' / 10 ^ (9 - front') := by
    refine Nat.div_lt_of_lt_mul ?_
    rwa [Nat.mul_div_cancel' hzeros']
  rcases Nat.le_total front' front with hle | hle
  · obtain ⟨back, rfl⟩ := Nat.exists_eq_add_of_le hle
    obtain ⟨rest, -, hrest⟩ := leading_add hfront (h.trans hnanos')
    rw [hrest, List.append_assoc]
    exact field_append_lt (hbound front' hfront') (Or.inl hstrict)
  · obtain ⟨back, rfl⟩ := Nat.exists_eq_add_of_le hle
    obtain ⟨rest, hsmall, hrest⟩ := leading_add hfront' hnanos'
    rw [hrest, List.append_assoc]
    refine field_append_lt (hbound front hfront) ?_
    rcases Nat.lt_or_ge (nanos / 10 ^ (9 - front)) (nanos' / 10 ^ (9 - front)) with hlt | hge
    · exact Or.inl hlt
    · have hsame : nanos / 10 ^ (9 - front) = nanos' / 10 ^ (9 - front) :=
        Nat.le_antisymm (Nat.div_le_div_right h.le) hge
      refine Or.inr ⟨hsame, ?_⟩
      cases back with
      | zero => exact absurd hsame (Nat.ne_of_lt hstrict)
      | succ back =>
          have hdigit : rest / 10 ^ back < 10 := by
            rw [Nat.div_lt_iff_lt_mul (Nat.pow_pos (by decide)), Nat.mul_comm, ← Nat.pow_succ]
            exact hsmall
          exact List.cons_lt_cons_iff.mpr (Or.inl (sign_lt_digit hdigit))

/-- **Fractions compare as their numbers.** -/
theorem fractionText_lt {nanos nanos' : Nat} (h : nanos < nanos') (hnanos' : nanos' < 10 ^ 9) :
    fractionText nanos < fractionText nanos' := by
  have hdigits (nanos : Nat) :
      fractionDigits nanos ≤ 9 ∧ 10 ^ (9 - fractionDigits nanos) ∣ nanos := by
    unfold fractionDigits
    split
    · exact ⟨by decide, Nat.dvd_of_mod_eq_zero ‹_›⟩
    · split
      · exact ⟨by decide, Nat.dvd_of_mod_eq_zero ‹_›⟩
      · exact ⟨by decide, Nat.one_dvd nanos⟩
  unfold fractionText
  rw [if_neg (Nat.ne_zero_of_lt h)]
  by_cases hzero : nanos = 0
  · rw [if_pos hzero]
    exact List.cons_lt_cons_iff.mpr (Or.inl (by decide))
  · rw [if_neg hzero, List.cons_lt_cons_self]
    obtain ⟨hfront, hzeros⟩ := hdigits nanos
    obtain ⟨hfront', hzeros'⟩ := hdigits nanos'
    exact leading_lt hfront hfront' hzeros hzeros' h hnanos'

/-- The text of a later instant is later. -/
theorem text_lt {t t' : Int} (hyear : FourDigitYear t) (hyear' : FourDigitYear t') (h : t < t') :
    text t < text t' := by
  have hlists : dateText (dayOf t) ++
        'T' :: (clockText (timeOf t / 1000000000) ++ fractionText (timeOf t % 1000000000)) <
      dateText (dayOf t') ++
        'T' :: (clockText (timeOf t' / 1000000000) ++ fractionText (timeOf t' % 1000000000)) := by
    rcases lt_or_ge (dayOf t) (dayOf t') with hday | hday
    · exact dateText_lt hyear hyear' hday _ _
    · have hsame : dayOf t = dayOf t' := by
        unfold dayOf at hday ⊢
        omega
      have htime : timeOf t < timeOf t' := by
        unfold dayOf at hsame
        unfold timeOf
        omega
      have hbound : timeOf t' < 86400000000000 := by
        unfold timeOf
        omega
      rw [hsame]
      refine List.append_left_lt (List.cons_lt_cons_self.mpr ?_)
      rcases Nat.lt_or_ge (timeOf t / 1000000000) (timeOf t' / 1000000000) with hlt | hge
      · exact clockText_lt hlt (by omega) _ _
      · have hsecond : timeOf t / 1000000000 = timeOf t' / 1000000000 := by omega
        rw [hsecond]
        exact List.append_left_lt (fractionText_lt (by omega) (Nat.mod_lt _ (by decide)))
  rw [String.lt_iff, text, text, String.toList_ofList, String.toList_ofList]
  exact hlists

/-- **Texts of instants compare as the instants.** -/
theorem text_lt_text_iff {t t' : Int} (hyear : FourDigitYear t) (hyear' : FourDigitYear t') :
    text t < text t' ↔ t < t' := by
  constructor
  · intro h
    rcases lt_trichotomy t t' with hlt | rfl | hgt
    · exact hlt
    · exact absurd h (String.lt_irrefl _)
    · exact absurd h (String.lt_asymm (text_lt hyear' hyear hgt))
  · exact text_lt hyear hyear'

end Rfc3339
