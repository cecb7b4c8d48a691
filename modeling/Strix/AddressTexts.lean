import Strix.IpAddresses

/-!
# The texts of addresses

Addresses are printed in one form and read in many.

* `readNumber_toDigits`: a printed number is read back, whatever follows it that
  is no digit;
* `readIpv4_showIpv4`: so is a dotted quad;
* `readGroups_join`: so are groups with colons between them;
* `parse_toString`: so is every address.
-/

namespace Strix

/-! ## Numbers -/

/-- The text does not begin with a digit. -/
def NoDigit (radix : Nat) (cs : List Char) : Prop :=
  ∀ c, cs.head? = some c → toDigit radix c = none

@[simp] theorem noDigit_nil (radix : Nat) : NoDigit radix [] := by
  intro c hc
  cases hc

theorem noDigit_cons {radix : Nat} {c : Char} (h : toDigit radix c = none) (cs : List Char) :
    NoDigit radix (c :: cs) := by
  intro d hd
  obtain rfl := Option.some.inj hd
  exact h

/-- The character of a digit has its value. -/
theorem toDigit_digitChar {radix digit : Nat} (hradix : radix ≤ 16) (h : digit < radix) :
    toDigit radix (Nat.digitChar digit) = some digit := by
  have hall : ∀ e < 16, (if '0' ≤ Nat.digitChar e ∧ Nat.digitChar e ≤ '9' then
        some ((Nat.digitChar e).toNat - '0'.toNat)
      else if 'a' ≤ Nat.digitChar e ∧ Nat.digitChar e ≤ 'z' then
        some ((Nat.digitChar e).toNat - 'a'.toNat + 10)
      else if 'A' ≤ Nat.digitChar e ∧ Nat.digitChar e ≤ 'Z' then
        some ((Nat.digitChar e).toNat - 'A'.toNat + 10)
      else none) = some e := by
    decide
  unfold toDigit
  rw [hall digit (by omega)]
  simp [h]

/-- The values of a number's digits. -/
def digitValues (radix n : Nat) : List Nat :=
  (Nat.toDigits radix n).filterMap (toDigit radix)

section Radix

variable {radix : Nat} (hmin : 1 < radix) (hmax : radix ≤ 16)
include hmin hmax

/-- A number's text is made of digits. -/
theorem isSome_toDigit_of_mem {n : Nat} {c : Char} (hc : c ∈ Nat.toDigits radix n) :
    (toDigit radix c).isSome := by
  induction n using Nat.strongRecOn with
  | ind n ih =>
      rw [Nat.toDigits_eq_if hmin] at hc
      by_cases hsmall : n < radix
      · rw [if_pos hsmall, List.mem_singleton] at hc
        rw [hc, toDigit_digitChar hmax hsmall]
        rfl
      · rw [if_neg hsmall, List.mem_append, List.mem_singleton] at hc
        rcases hc with hc | hc
        · exact ih (n / radix) (Nat.div_lt_self (by omega) hmin) hc
        · rw [hc, toDigit_digitChar hmax (Nat.mod_lt n (by omega))]
          rfl

/-- The digits of a number are those of its part without the last one, and that. -/
theorem digitValues_eq (n : Nat) :
    digitValues radix n =
      if n < radix then [n] else digitValues radix (n / radix) ++ [n % radix] := by
  unfold digitValues
  rw [Nat.toDigits_eq_if hmin]
  by_cases hsmall : n < radix
  · rw [if_pos hsmall, if_pos hsmall]
    simp [toDigit_digitChar hmax hsmall]
  · rw [if_neg hsmall, if_neg hsmall]
    simp [toDigit_digitChar hmax (Nat.mod_lt n (by omega))]

/-- The digits of a number make up the number. -/
theorem ofDigits_digitValues (n : Nat) : ofDigits radix (digitValues radix n) = n := by
  induction n using Nat.strongRecOn with
  | ind n ih =>
      rw [digitValues_eq hmin hmax]
      by_cases hsmall : n < radix
      · rw [if_pos hsmall]
        simp [ofDigits]
      · have hfront := ih (n / radix) (Nat.div_lt_self (by omega) hmin)
        unfold ofDigits at hfront ⊢
        rw [if_neg hsmall, List.foldl_append, hfront]
        exact Nat.div_add_mod' n radix

/-- No digit of a number is left out. -/
theorem length_digitValues (n : Nat) :
    (digitValues radix n).length = (Nat.toDigits radix n).length := by
  unfold digitValues
  rw [List.length_filterMap_eq_countP, List.countP_eq_length]
  intro c hc
  exact isSome_toDigit_of_mem hmin hmax hc

/-- A number of several digits does not begin with a zero. -/
theorem head?_digitValues {n : Nat} (h : radix ≤ n) : (digitValues radix n).head? ≠ some 0 := by
  induction n using Nat.strongRecOn with
  | ind n ih =>
      rw [digitValues_eq hmin hmax, if_neg (by omega)]
      by_cases hsmall : n / radix < radix
      · rw [digitValues_eq hmin hmax, if_pos hsmall]
        have hpos : 0 < n / radix := Nat.div_pos h (by omega)
        intro hzero
        have := Option.some.inj hzero
        omega
      · have hfront := ih (n / radix) (Nat.div_lt_self (by omega) hmin) (by omega)
        have hnonempty : digitValues radix (n / radix) ≠ [] := by
          rw [← List.length_pos_iff, length_digitValues hmin hmax]
          exact Nat.length_toDigits_pos
        rw [List.head?_append_of_ne_nil _ hnonempty]
        exact hfront

end Radix

/-- Digits are read up to what is no digit. -/
theorem readDigits_append {radix : Nat} {cs rest : List Char}
    (hdigits : ∀ c ∈ cs, (toDigit radix c).isSome) (hrest : NoDigit radix rest) :
    readDigits radix (cs ++ rest) = (cs.filterMap (toDigit radix), rest) := by
  induction cs with
  | nil =>
      cases rest with
      | nil => rfl
      | cons c rest => simp [readDigits, hrest c rfl]
  | cons c cs ih =>
      have hhead := hdigits c List.mem_cons_self
      obtain ⟨digit, hdigit⟩ := Option.isSome_iff_exists.mp hhead
      have htail := ih fun d hd => hdigits d (List.mem_cons_of_mem c hd)
      simp [readDigits, hdigit, htail]

/-- **A printed number is read back.** -/
theorem readNumber_toDigits {radix maxDigits bound n : Nat} (hmin : 1 < radix)
    (hmax : radix ≤ 16) (hdigits : 0 < maxDigits) (hfits : n < radix ^ maxDigits)
    (hbound : n < bound) (allowZeroPrefix : Bool) {rest : List Char}
    (hrest : NoDigit radix rest) :
    IpAddr.readNumber radix maxDigits bound allowZeroPrefix (Nat.toDigits radix n ++ rest) =
      some (n, rest) := by
  have hread := readDigits_append
    (fun c (hc : c ∈ Nat.toDigits radix n) => isSome_toDigit_of_mem hmin hmax hc) hrest
  have hlength := length_digitValues hmin hmax n
  have hfew := (Nat.length_toDigits_le_iff hmin hdigits).mpr hfits
  have hsome := Nat.length_toDigits_pos (b := radix) (n := n)
  unfold IpAddr.readNumber
  rw [hread]
  dsimp only
  change (if (digitValues radix n).length = 0 ∨ maxDigits < (digitValues radix n).length then none
    else if allowZeroPrefix = false ∧ (digitValues radix n).head? = some 0 ∧
      1 < (digitValues radix n).length then none
    else if ofDigits radix (digitValues radix n) < bound then
      some (ofDigits radix (digitValues radix n), rest)
    else none) = some (n, rest)
  rw [ofDigits_digitValues hmin hmax, if_neg (by omega), if_pos hbound, if_neg]
  intro h
  obtain ⟨-, hzero, hlong⟩ := h
  have hlarge : radix ≤ n := by
    by_contra hsmall
    rw [digitValues_eq hmin hmax, if_pos (by omega)] at hlong
    simp at hlong
  exact head?_digitValues hmin hmax hlarge hzero

namespace IpAddr

/-! ## Dotted quads -/

/-- The text of an octet. -/
abbrev octetText (octet : Nat) : List Char := Nat.toDigits 10 octet

theorem readOctet {octet : Nat} (h : octet < 256) {rest : List Char} (hrest : NoDigit 10 rest) :
    readNumber 10 3 256 false (octetText octet ++ rest) = some (octet, rest) :=
  readNumber_toDigits (by decide) (by decide) (by decide) (by omega) h false hrest

theorem noDigit_dot (radix : Nat) (rest : List Char) : NoDigit radix ('.' :: rest) :=
  noDigit_cons rfl rest

theorem noDigit_colon (radix : Nat) (rest : List Char) : NoDigit radix (':' :: rest) :=
  noDigit_cons rfl rest

/-- **A dotted quad is read back.** -/
theorem readIpv4_octets {a b c d : Nat} (ha : a < 256) (hb : b < 256) (hc : c < 256)
    (hd : d < 256) {rest : List Char} (hrest : NoDigit 10 rest) :
    readIpv4 (octetText a ++ '.' :: (octetText b ++ '.' :: (octetText c ++ '.' ::
      (octetText d ++ rest)))) = some ([a, b, c, d], rest) := by
  simp [readIpv4, readSeparator, readOctet, ha, hb, hc, hd, hrest, noDigit_dot]

/-- The octets of a value. -/
theorem digitsOf_octets (value : Nat) :
    digitsOf 256 4 value =
      [value / 256 / 256 / 256 % 256, value / 256 / 256 % 256, value / 256 % 256, value % 256] :=
  rfl

theorem toList_showIpv4 (value : Nat) :
    (showIpv4 value).toList =
      octetText (value / 256 / 256 / 256 % 256) ++ '.' ::
        (octetText (value / 256 / 256 % 256) ++ '.' ::
          (octetText (value / 256 % 256) ++ '.' :: octetText (value % 256))) := by
  have hdot : ".".toList = ['.'] := rfl
  simp [showIpv4, digitsOf_octets, hdot, List.append_assoc]

/-- A printed dotted quad is read back. -/
theorem readIpv4_showIpv4 (value : Nat) {rest : List Char} (hrest : NoDigit 10 rest) :
    readIpv4 ((showIpv4 value).toList ++ rest) = some (digitsOf 256 4 value, rest) := by
  rw [toList_showIpv4, digitsOf_octets]
  have hread := readIpv4_octets (a := value / 256 / 256 / 256 % 256)
    (b := value / 256 / 256 % 256) (c := value / 256 % 256) (d := value % 256)
    (Nat.mod_lt _ (by decide)) (Nat.mod_lt _ (by decide)) (Nat.mod_lt _ (by decide))
    (Nat.mod_lt _ (by decide)) hrest
  simpa [List.append_assoc] using hread

/-- What a number leaves is what its digits leave. -/
theorem readNumber_rest {radix maxDigits bound value : Nat} {allowZeroPrefix : Bool}
    {cs rest : List Char}
    (h : readNumber radix maxDigits bound allowZeroPrefix cs = some (value, rest)) :
    rest = (readDigits radix cs).2 := by
  unfold readNumber at h
  dsimp only at h
  split at h
  · cases h
  · split at h
    · cases h
    · split at h
      · exact (Prod.mk.inj (Option.some.inj h)).2.symm
      · cases h

/-- No dotted quad is read where no dot follows the first digits. -/
theorem readIpv4_eq_none {cs : List Char} (h : (readDigits 10 cs).2.head? ≠ some '.') :
    readIpv4 cs = none := by
  cases hfirst : readNumber 10 3 256 false cs with
  | none => simp [readIpv4, readSeparator, hfirst]
  | some found =>
      obtain ⟨value, rest⟩ := found
      rw [← readNumber_rest hfirst] at h
      cases rest with
      | nil => simp [readIpv4, readSeparator, hfirst]
      | cons c rest =>
          have hc : c ≠ '.' := fun hdot => h (by rw [hdot]; rfl)
          simp [readIpv4, readSeparator, hfirst, hc]

/-- Where digits end, there is no dot if there is none among or behind them. -/
theorem head?_readDigits {cs rest : List Char} (hcs : '.' ∉ cs) (hrest : NoDigit 10 rest)
    (hdot : rest.head? ≠ some '.') : (readDigits 10 (cs ++ rest)).2.head? ≠ some '.' := by
  induction cs with
  | nil =>
      have hread := @readDigits_append 10 [] rest (by simp) hrest
      rw [hread]
      exact hdot
  | cons c cs ih =>
      rw [List.mem_cons, not_or] at hcs
      cases hdigit : toDigit 10 c with
      | none => simpa [readDigits, hdigit] using Ne.symm hcs.1
      | some digit => simpa [readDigits, hdigit] using ih hcs.2

/-! ## Groups -/

/-- The text of a group. -/
abbrev groupText (group : Nat) : List Char := Nat.toDigits 16 group

/-- Groups, each after a colon. -/
def colonGroups (groups : List Nat) : List Char :=
  groups.flatMap fun group => ':' :: groupText group

/-- Groups with colons between them. -/
def joinGroups : List Nat → List Char
  | [] => []
  | group :: groups => groupText group ++ colonGroups groups

/-- Nothing follows, or a colon. -/
def Closes (rest : List Char) : Prop := rest = [] ∨ ∃ more, rest = ':' :: more

/-- Nothing follows, or two colons: no further group. -/
def Stops (rest : List Char) : Prop := rest = [] ∨ ∃ more, rest = ':' :: ':' :: more

theorem Closes.noDigit {rest : List Char} (h : Closes rest) (radix : Nat) :
    NoDigit radix rest := by
  rcases h with rfl | ⟨more, rfl⟩
  · exact noDigit_nil radix
  · exact noDigit_colon radix more

theorem Closes.noDot {rest : List Char} (h : Closes rest) : rest.head? ≠ some '.' := by
  rcases h with rfl | ⟨more, rfl⟩
  · simp
  · simp

theorem closes_colonGroups (groups : List Nat) {rest : List Char} (h : Stops rest) :
    Closes (colonGroups groups ++ rest) := by
  cases groups with
  | nil =>
      rcases h with rfl | ⟨more, rfl⟩
      · exact Or.inl rfl
      · exact Or.inr ⟨_, rfl⟩
  | cons group groups => exact Or.inr ⟨_, rfl⟩

/-- There is no dot in a group. -/
theorem dot_not_mem_groupText (group : Nat) : '.' ∉ groupText group := by
  intro h
  have hdigit := isSome_toDigit_of_mem (by decide) (by decide) h
  rw [show toDigit 16 '.' = none from rfl] at hdigit
  cases hdigit

/-- A group is read back, and it is no dotted quad. -/
theorem readGroup {group : Nat} (h : group < 65536) {rest : List Char} (hrest : Closes rest) :
    readNumber 16 4 65536 true (groupText group ++ rest) = some (group, rest) ∧
      readIpv4 (groupText group ++ rest) = none :=
  ⟨readNumber_toDigits (by decide) (by decide) (by decide) (by omega) h true (hrest.noDigit 16),
    readIpv4_eq_none
      (head?_readDigits (dot_not_mem_groupText group) (hrest.noDigit 10) hrest.noDot)⟩

/-- No group is read where none follows. -/
theorem readGroups_stop (slots index : Nat) {rest : List Char} (h : Stops rest) :
    readGroups slots index rest = ([], false, rest) := by
  have hnothing (cs : List Char) (hcs : cs = [] ∨ ∃ more, cs = ':' :: more) :
      readIpv4 cs = none ∧ readNumber 16 4 65536 true cs = none := by
    rcases hcs with rfl | ⟨more, rfl⟩
    · exact ⟨rfl, rfl⟩
    · exact ⟨rfl, rfl⟩
  have hseparated : readSeparator ':' index readIpv4 rest = none ∧
      readSeparator ':' index (readNumber 16 4 65536 true) rest = none := by
    unfold readSeparator
    by_cases hindex : 0 < index
    · rw [if_pos hindex, if_pos hindex]
      rcases h with rfl | ⟨more, rfl⟩
      · exact ⟨rfl, rfl⟩
      · exact hnothing _ (Or.inr ⟨more, rfl⟩)
    · rw [if_neg hindex, if_neg hindex]
      rcases h with rfl | ⟨more, rfl⟩
      · exact hnothing _ (Or.inl rfl)
      · exact hnothing _ (Or.inr ⟨_, rfl⟩)
  cases slots with
  | zero => rfl
  | succ slots =>
      unfold readGroups
      rw [hseparated.1, hseparated.2, ite_self]

/-- A group that is read is followed by the groups that are read behind it. -/
theorem readGroups_cons (slots index : Nat) {group : Nat} (h : group < 65536)
    {rest : List Char} (hrest : Closes rest) :
    readGroups (slots + 1) index ((if 0 < index then [':'] else []) ++ groupText group ++ rest) =
      (group :: (readGroups slots (index + 1) rest).1,
        (readGroups slots (index + 1) rest).2) := by
  obtain ⟨hnumber, hquad⟩ := readGroup h hrest
  have hseparated {α : Type} (inner : List Char → Option (α × List Char)) :
      readSeparator ':' index inner
          ((if 0 < index then [':'] else []) ++ groupText group ++ rest) =
        inner (groupText group ++ rest) := by
    unfold readSeparator
    by_cases hindex : 0 < index
    · rw [if_pos hindex, if_pos hindex]
      simp
    · rw [if_neg hindex, if_neg hindex]
      rfl
  rw [readGroups, hseparated, hseparated, hquad, hnumber, ite_self]

theorem readGroups_colon {slots index : Nat} (hindex : 0 < index) {groups : List Nat}
    (hgroups : ∀ group ∈ groups, group < 65536) (hslots : groups.length ≤ slots)
    {rest : List Char} (hrest : Stops rest) :
    readGroups slots index (colonGroups groups ++ rest) = (groups, false, rest) := by
  induction groups generalizing slots index with
  | nil => exact readGroups_stop slots index hrest
  | cons group groups ih =>
      obtain ⟨slots, rfl⟩ : ∃ n, slots = n + 1 :=
        ⟨slots - 1, by simp only [List.length_cons] at hslots; omega⟩
      have hhead := readGroups_cons slots index (hgroups group List.mem_cons_self)
        (closes_colonGroups groups hrest)
      have htail := ih (Nat.succ_pos index)
        (fun g hg => hgroups g (List.mem_cons_of_mem group hg))
        (by simpa using hslots)
      rw [if_pos hindex, htail] at hhead
      simpa [colonGroups, List.append_assoc] using hhead

/-- **Groups with colons between them are read back.** -/
theorem readGroups_join {slots : Nat} {groups : List Nat}
    (hgroups : ∀ group ∈ groups, group < 65536) (hslots : groups.length ≤ slots)
    {rest : List Char} (hrest : Stops rest) :
    readGroups slots 0 (joinGroups groups ++ rest) = (groups, false, rest) := by
  cases groups with
  | nil => exact readGroups_stop slots 0 hrest
  | cons group groups =>
      obtain ⟨slots, rfl⟩ : ∃ n, slots = n + 1 :=
        ⟨slots - 1, by simp only [List.length_cons] at hslots; omega⟩
      have hhead := readGroups_cons slots 0 (hgroups group List.mem_cons_self)
        (closes_colonGroups groups hrest)
      have htail := @readGroups_colon slots 1 (Nat.succ_pos 0) groups
        (fun g hg => hgroups g (List.mem_cons_of_mem group hg)) (by simpa using hslots) rest hrest
      rw [if_neg (Nat.lt_irrefl 0), htail] at hhead
      simpa [joinGroups, List.append_assoc] using hhead

/-- The texts of the groups, joined. -/
theorem toList_shown (groups : List Nat) :
    (":".intercalate (groups.map showGroup)).toList = joinGroups groups := by
  have hcolon : ":".toList = [':'] := rfl
  cases groups with
  | nil => rfl
  | cons group groups =>
      induction groups generalizing group with
      | nil => simp [joinGroups, colonGroups, showGroup]
      | cons next groups ih =>
          have htail := ih next
          simp only [List.map_cons, String.intercalate_cons_cons, String.toList_append] at htail ⊢
          rw [htail]
          simp [joinGroups, colonGroups, showGroup, hcolon]

/-! ## Runs of zeros -/

/-- So many of the groups from `start` on are zero. -/
def ZeroRun (groups : List Nat) (start length : Nat) : Prop :=
  ∃ front back, front.length = start ∧ groups = front ++ List.replicate length 0 ++ back

theorem ZeroRun.append {groups : List Nat} {start length : Nat} (h : ZeroRun groups start length)
    (more : List Nat) : ZeroRun (groups ++ more) start length := by
  obtain ⟨front, back, hfront, rfl⟩ := h
  exact ⟨front, back ++ more, hfront, by simp [List.append_assoc]⟩

/-- The step of `longestZeroRun`. -/
def zeroRunStep (state : Nat × (Nat × Nat) × (Nat × Nat)) (group : Nat) :
    Nat × (Nat × Nat) × (Nat × Nat) :=
  let (index, current, longest) := state
  if group = 0 then
    let current := (if current.2 = 0 then index else current.1, current.2 + 1)
    (index + 1, current, if longest.2 < current.2 then current else longest)
  else (index + 1, (0, 0), longest)

/-- What the loop knows after some groups: where it is, the run of zeros it is in,
and a longest one. -/
structure ZeroRuns (groups : List Nat) (state : Nat × (Nat × Nat) × (Nat × Nat)) : Prop where
  index : state.1 = groups.length
  current : state.2.1.2 ≠ 0 →
    ∃ front, front.length = state.2.1.1 ∧ groups = front ++ List.replicate state.2.1.2 0
  longest : ZeroRun groups state.2.2.1 state.2.2.2

theorem ZeroRuns.step {groups : List Nat} {state : Nat × (Nat × Nat) × (Nat × Nat)}
    (h : ZeroRuns groups state) (group : Nat) :
    ZeroRuns (groups ++ [group]) (zeroRunStep state group) := by
  obtain ⟨index, ⟨start, length⟩, longest⟩ := state
  have hindex : index = groups.length := h.index
  unfold zeroRunStep
  dsimp only
  by_cases hzero : group = 0
  · rw [if_pos hzero, hzero]
    have hrun : ∃ front, front.length = (if length = 0 then index else start) ∧
        groups ++ [0] = front ++ List.replicate (length + 1) 0 := by
      by_cases hnew : length = 0
      · rw [if_pos hnew, hnew]
        exact ⟨groups, hindex.symm, rfl⟩
      · rw [if_neg hnew]
        obtain ⟨front, hfront, hgroups⟩ := h.current hnew
        refine ⟨front, hfront, ?_⟩
        rw [hgroups, List.replicate_succ']
        simp [List.append_assoc]
    refine ⟨by simp [hindex], fun _ => hrun, ?_⟩
    by_cases hlonger : longest.2 < length + 1
    · rw [if_pos hlonger]
      obtain ⟨front, hfront, hgroups⟩ := hrun
      exact ⟨front, [], hfront, by rw [hgroups, List.append_nil]⟩
    · rw [if_neg hlonger]
      exact h.longest.append [0]
  · rw [if_neg hzero]
    exact ⟨by simp [hindex], fun hnonempty => absurd rfl hnonempty, h.longest.append [group]⟩

theorem ZeroRuns.foldl {groups : List Nat} {state : Nat × (Nat × Nat) × (Nat × Nat)}
    (h : ZeroRuns groups state) (more : List Nat) :
    ZeroRuns (groups ++ more) (more.foldl zeroRunStep state) := by
  induction more generalizing groups state with
  | nil =>
      rw [List.append_nil]
      exact h
  | cons group more ih =>
      have hnext := ih (h.step group)
      rw [List.append_assoc] at hnext
      exact hnext

/-- The run that is found is one of zeros. -/
theorem zeroRun_longestZeroRun (groups : List Nat) :
    ZeroRun groups (longestZeroRun groups).1 (longestZeroRun groups).2 := by
  have hstart : ZeroRuns [] (0, (0, 0), (0, 0)) :=
    ⟨rfl, fun hnonempty => absurd rfl hnonempty, ⟨[], [], rfl, rfl⟩⟩
  exact (hstart.foldl groups).longest

/-! ## Digits of a value -/

@[simp] theorem length_digitsOf (radix width value : Nat) :
    (digitsOf radix width value).length = width := by
  induction width generalizing value with
  | zero => rfl
  | succ width ih => simp [digitsOf, ih]

theorem lt_of_mem_digitsOf {radix width value digit : Nat} (hradix : 0 < radix)
    (h : digit ∈ digitsOf radix width value) : digit < radix := by
  induction width generalizing value with
  | zero => cases h
  | succ width ih =>
      rw [digitsOf, List.mem_append, List.mem_singleton] at h
      rcases h with h | rfl
      · exact ih h
      · exact Nat.mod_lt value hradix

/-- The digits make up the value, as far as they go. -/
theorem ofDigits_digitsOf (radix width value : Nat) :
    ofDigits radix (digitsOf radix width value) = value % radix ^ width := by
  induction width generalizing value with
  | zero => simp [digitsOf, ofDigits, Nat.mod_one]
  | succ width ih =>
      have hfront := ih (value / radix)
      unfold ofDigits at hfront ⊢
      rw [digitsOf, List.foldl_append, hfront, Nat.pow_succ, Nat.mul_comm (radix ^ width) radix,
        Nat.mod_mul]
      simp only [List.foldl_cons, List.foldl_nil]
      rw [Nat.mul_comm, Nat.add_comm]

/-- The value of a value's digits. -/
theorem ofNat_ofDigits {w radix width : Nat} (hw : 2 ^ w = radix ^ width) (bits : BitVec w) :
    BitVec.ofNat w (ofDigits radix (digitsOf radix width bits.toNat)) = bits := by
  rw [ofDigits_digitsOf, ← hw, Nat.mod_eq_of_lt bits.isLt, BitVec.ofNat_toNat,
    BitVec.setWidth_eq]

/-! ## Addresses -/

/-- What `parse` makes of a text that is no dotted quad. -/
theorem parse_of_groups {text : String} {groups : List Nat}
    (hquad : (readDigits 10 text.toList).2.head? ≠ some '.')
    (hread : readIpv6 text.toList = some (groups, [])) :
    parse text = some (.v6 (BitVec.ofNat 128 (ofDigits 65536 groups))) := by
  unfold parse
  rw [readIpv4_eq_none hquad, hread]
  rfl

theorem parse_showIpv4 (bits : BitVec 32) : parse (showIpv4 bits.toNat) = some (.v4 bits) := by
  have hread := readIpv4_showIpv4 bits.toNat (noDigit_nil 10)
  rw [List.append_nil] at hread
  unfold parse
  rw [hread]
  dsimp only
  rw [ofNat_ofDigits (by decide)]
  rfl

theorem dot_not_mem_joinGroups (groups : List Nat) : '.' ∉ joinGroups groups := by
  cases groups with
  | nil => simp [joinGroups]
  | cons group groups =>
      have hgroup := dot_not_mem_groupText group
      have hgroups : ∀ g ∈ groups, '.' ∉ groupText g := fun g _ => dot_not_mem_groupText g
      simp only [joinGroups, colonGroups, List.mem_append, List.mem_flatMap, List.mem_cons,
        not_or, not_exists, not_and]
      exact ⟨hgroup, fun g hg => ⟨by decide, hgroups g hg⟩⟩

/-- Eight groups are read back. -/
theorem readIpv6_join {groups : List Nat} (hgroups : ∀ group ∈ groups, group < 65536)
    (hlength : groups.length = 8) : readIpv6 (joinGroups groups) = some (groups, []) := by
  have hread := readGroups_join hgroups (Nat.le_of_eq hlength) (Or.inl rfl)
  rw [List.append_nil] at hread
  unfold readIpv6
  rw [hread]
  dsimp only
  rw [if_pos hlength]

/-- Groups with two colons for the zeros between them are read back. -/
theorem readIpv6_compressed {front back : List Nat} {length : Nat}
    (hfront : ∀ group ∈ front, group < 65536) (hback : ∀ group ∈ back, group < 65536)
    (hlength : front.length + length + back.length = 8) (hlong : 1 < length) :
    readIpv6 (joinGroups front ++ ':' :: ':' :: joinGroups back) =
      some (front ++ List.replicate length 0 ++ back, []) := by
  have hhead := @readGroups_join 8 front hfront (by omega) _ (Or.inr ⟨joinGroups back, rfl⟩)
  have htail := @readGroups_join (8 - (front.length + 1)) back hback (by omega) [] (Or.inl rfl)
  rw [List.append_nil] at htail
  have hzeros : 8 - back.length - front.length = length := by omega
  unfold readIpv6
  rw [hhead]
  dsimp only
  rw [if_neg (by omega)]
  simp only [Bool.false_eq_true, if_false, htail, hzeros]

/-- An address of the version before, within the longer ones, is read back. -/
theorem readIpv6_mapped (value : Nat) :
    readIpv6 (':' :: ':' :: (groupText 65535 ++ ':' :: (showIpv4 value).toList)) =
      some ([0, 0, 0, 0, 0, 65535] ++ [ofDigits 256 ((digitsOf 256 4 value).take 2),
        ofDigits 256 ((digitsOf 256 4 value).drop 2)], []) := by
  have hquad := readIpv4_showIpv4 value (noDigit_nil 10)
  rw [List.append_nil] at hquad
  have hlast : readGroups 6 1 (':' :: (showIpv4 value).toList) =
      ([ofDigits 256 ((digitsOf 256 4 value).take 2),
        ofDigits 256 ((digitsOf 256 4 value).drop 2)], true, []) := by
    simp [readGroups, readSeparator, hquad]
  have htail := @readGroups_cons 6 0 65535 (by decide) (':' :: (showIpv4 value).toList)
    (Or.inr ⟨_, rfl⟩)
  rw [hlast, if_neg (Nat.lt_irrefl 0), List.nil_append] at htail
  have hhead := @readGroups_stop 8 0
    (':' :: ':' :: (groupText 65535 ++ ':' :: (showIpv4 value).toList)) (Or.inr ⟨_, rfl⟩)
  unfold readIpv6
  rw [hhead]
  dsimp only
  rw [if_neg (by decide)]
  simp only [List.length_nil, Nat.zero_add, Nat.reduceSub, Bool.false_eq_true, if_false, htail]
  rfl

/-- The groups of a mapped address. -/
theorem digitsOf_mapped {value : Nat}
    (h : (digitsOf 65536 8 value).take 6 = [0, 0, 0, 0, 0, 65535]) :
    [0, 0, 0, 0, 0, 65535] ++ [ofDigits 256 ((digitsOf 256 4 (value % 2 ^ 32)).take 2),
        ofDigits 256 ((digitsOf 256 4 (value % 2 ^ 32)).drop 2)] = digitsOf 65536 8 value := by
  have hlast : (digitsOf 65536 8 value).drop 6 = [value / 65536 % 65536, value % 65536] := rfl
  have hhigh : ofDigits 256 ((digitsOf 256 4 (value % 2 ^ 32)).take 2) =
      value / 65536 % 65536 := by
    rw [digitsOf_octets]
    simp only [List.take_succ_cons, List.take_zero, ofDigits, List.foldl_cons, List.foldl_nil]
    omega
  have hlow : ofDigits 256 ((digitsOf 256 4 (value % 2 ^ 32)).drop 2) = value % 65536 := by
    rw [digitsOf_octets]
    simp only [List.drop_succ_cons, List.drop_zero, ofDigits, List.foldl_cons, List.foldl_nil]
    omega
  rw [hhigh, hlow, ← hlast, ← h, List.take_append_drop]

theorem parse_showIpv6 (bits : BitVec 128) : parse (showIpv6 bits.toNat) = some (.v6 bits) := by
  have hbits := @ofNat_ofDigits 128 65536 8 (by decide) bits
  have hgroups : ∀ group ∈ digitsOf 65536 8 bits.toNat, group < 65536 :=
    fun group hgroup => lt_of_mem_digitsOf (by decide) hgroup
  have hlength := length_digitsOf 65536 8 bits.toNat
  unfold showIpv6
  dsimp only
  by_cases hmapped : (digitsOf 65536 8 bits.toNat).take 6 = [0, 0, 0, 0, 0, 65535]
  · rw [if_pos hmapped]
    have htext : ("::ffff:" ++ showIpv4 (bits.toNat % 2 ^ 32)).toList =
        ':' :: ':' :: (groupText 65535 ++ ':' :: (showIpv4 (bits.toNat % 2 ^ 32)).toList) := by
      rw [String.toList_append]
      rfl
    rw [parse_of_groups (by rw [htext]; simp [readDigits, toDigit])
      (by rw [htext]; exact readIpv6_mapped _), digitsOf_mapped hmapped, hbits]
  · rw [if_neg hmapped]
    have hrun := zeroRun_longestZeroRun (digitsOf 65536 8 bits.toNat)
    obtain ⟨front, back, hfront, hsplit⟩ := hrun
    by_cases hlong : 1 < (longestZeroRun (digitsOf 65536 8 bits.toNat)).2
    · rw [if_pos hlong]
      generalize longestZeroRun (digitsOf 65536 8 bits.toNat) = run at hfront hsplit hlong ⊢
      have htake : (digitsOf 65536 8 bits.toNat).take run.1 = front := by
        rw [hsplit, List.append_assoc, ← hfront, List.take_left]
      have hdrop : (digitsOf 65536 8 bits.toNat).drop (run.1 + run.2) = back := by
        rw [hsplit, ← hfront, List.drop_left' (by simp)]
      have htext : (":".intercalate (front.map showGroup) ++ "::" ++
          ":".intercalate (back.map showGroup)).toList =
          joinGroups front ++ ':' :: ':' :: joinGroups back := by
        rw [String.toList_append, String.toList_append, toList_shown, toList_shown]
        simp
      rw [hsplit] at hgroups hlength
      have hread := @readIpv6_compressed front back run.2
        (fun g hg => hgroups g (by simp [hg])) (fun g hg => hgroups g (by simp [hg]))
        (by simpa [Nat.add_assoc] using hlength) hlong
      rw [htake, hdrop, parse_of_groups
        (by
          rw [htext]
          exact head?_readDigits (dot_not_mem_joinGroups front) (noDigit_colon 10 _) (by simp))
        (by rw [htext]; exact hread), ← hsplit, hbits]
    · rw [if_neg hlong]
      have htext := toList_shown (digitsOf 65536 8 bits.toNat)
      rw [parse_of_groups
        (by
          rw [htext, ← List.append_nil (joinGroups _)]
          exact head?_readDigits (dot_not_mem_joinGroups _) (noDigit_nil 10) (by simp))
        (by rw [htext]; exact readIpv6_join hgroups hlength), hbits]

/-- **Every address is read back from its text.** -/
theorem parse_toString (ip : IpAddr) : parse ip.toString = some ip := by
  cases ip with
  | v4 bits => exact parse_showIpv4 bits
  | v6 bits => exact parse_showIpv6 bits

end IpAddr

end Strix
