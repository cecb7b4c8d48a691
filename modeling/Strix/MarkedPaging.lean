import Mathlib.Data.List.Perm.Basic
import Strix.KeysetPaging

/-!
# Pages of two kinds of items

A reader lists a sequence of items in pages and keeps plain and marked items in
two lists.  A page reads one item more than it may show.  If there is one more,
it takes an item back, the last marked one if it has any and else the last plain
one, and names the preferred one of the last plain and the last marked item that
are left; the next page starts behind the item named.

The item taken back need not be the last one read, and the item named need not
be the last one shown.

* `exists_pages`: the reading comes to an end;
* `Pages.perm_iff`: every item comes exactly once if and only if each page
  closes well, `Aligned`;
* `Pages.perm_filter_iff`: the same for the items that are wanted.
-/

namespace MarkedPaging

open KeysetPaging (Follows)

variable {α : Type}

structure Page (α : Type) where
  plain : List α
  marked : List α
  next : Option α

def Page.items (p : Page α) : List α := p.plain ++ p.marked

/-- The preferred one of the last plain and the last marked item. -/
def turn (prefers : α → α → Bool) (plain marked : List α) : Option α :=
  match plain.getLast?, marked.getLast? with
  | some v, some d => some (if prefers v d then v else d)
  | some v, none => some v
  | none, d => d

/-- The page of the given size. -/
def page (mark : α → Bool) (prefers : α → α → Bool) (size : Nat) (xs : List α) : Page α :=
  let seen := xs.take (size + 1)
  let plain := seen.filter (!mark ·)
  let marked := seen.filter mark
  if seen.length ≤ size then { plain, marked, next := none }
  else
    let plain := if marked.isEmpty then plain.dropLast else plain
    let marked := marked.dropLast
    { plain, marked, next := turn prefers plain marked }

/-- The pages from the first to the one that names no item. -/
inductive Pages (mark : α → Bool) (prefers : α → α → Bool) (size : Nat) :
    List α → List (Page α) → Prop
  | last {xs : List α} (hend : (page mark prefers size xs).next = none) :
      Pages mark prefers size xs [page mark prefers size xs]
  | more {xs front behind : List α} {item : α} {pages : List (Page α)}
      (hnext : (page mark prefers size xs).next = some item)
      (hsplit : xs = front ++ item :: behind)
      (hrest : Pages mark prefers size behind pages) :
      Pages mark prefers size xs (page mark prefers size xs :: pages)

/-- The last item of a group is preferred to the last one of the other kind. -/
def LastWins (mark : α → Bool) (prefers : α → α → Bool) (group : List α) : Prop :=
  ∀ front x, group = front ++ [x] →
    ∀ y, (front.filter fun z => mark z != mark x).getLast? = some y →
      if mark x then prefers y x = false else prefers x y = true

/-- **A page closes well** on a group of items before the item `extra`: nothing
in the group is marked, or `extra` is marked and the last of the group wins. -/
def Closes (mark : α → Bool) (prefers : α → α → Bool) (group : List α) (extra : α) : Prop :=
  (∀ x ∈ group, mark x = false) ∨ (mark extra = true ∧ LastWins mark prefers group)

/-- Each group of the given size that is not the last closes well. -/
def Aligned (mark : α → Bool) (prefers : α → α → Bool) (size : Nat) (xs : List α) : Prop :=
  ∀ front group extra rest, xs = front ++ group ++ extra :: rest → size ∣ front.length →
    group.length = size → Closes mark prefers group extra

section Page

variable {mark : α → Bool} {prefers : α → α → Bool} {size : Nat}
  {xs group rest : List α} {extra item : α}

/-! ## The item that is named -/

theorem turn_mem {plain marked : List α} (h : turn prefers plain marked = some item) :
    item ∈ plain ++ marked := by
  unfold turn at h
  cases hplain : plain.getLast? with
  | none =>
      rw [hplain] at h
      exact List.mem_append_right _ (List.mem_of_getLast? h)
  | some v =>
      have hv := List.mem_append_left marked (List.mem_of_getLast? hplain)
      cases hmarked : marked.getLast? with
      | none =>
          rw [hplain, hmarked] at h
          exact Option.some.inj h ▸ hv
      | some d =>
          have hd := List.mem_append_right plain (List.mem_of_getLast? hmarked)
          rw [hplain, hmarked] at h
          replace h := Option.some.inj h
          by_cases hprefers : prefers v d = true
          · rw [if_pos hprefers] at h
            exact h ▸ hv
          · rw [if_neg hprefers] at h
            exact h ▸ hd

theorem turn_eq_none {plain marked : List α} :
    turn prefers plain marked = none ↔ plain = [] ∧ marked = [] := by
  unfold turn
  cases hplain : plain.getLast? with
  | none => simp [List.getLast?_eq_none_iff.mp hplain]
  | some v =>
      have hne : plain ≠ [] := fun hnil => by simp [hnil] at hplain
      cases marked.getLast? <;> simp [hne]

/-- The last item is named exactly when it wins. -/
theorem turn_concat_iff {front : List α} {x : α} :
    turn prefers ((front ++ [x]).filter (!mark ·)) ((front ++ [x]).filter mark) = some x ↔
      LastWins mark prefers (front ++ [x]) := by
  have hlast : LastWins mark prefers (front ++ [x]) ↔
      ∀ y, (front.filter fun z => mark z != mark x).getLast? = some y →
        if mark x then prefers y x = false else prefers x y = true := by
    constructor
    · exact fun h => h front x rfl
    · intro h front' x' heq
      obtain ⟨rfl, hx⟩ := List.append_inj' heq rfl
      obtain rfl := List.singleton_injective hx
      exact h
  rw [hlast]
  cases hx : mark x with
  | false =>
      have hothers : (front.filter fun z => mark z != false) = front.filter mark := by simp
      simp only [List.filter_append, List.filter_singleton, hx, Bool.not_false, cond_true,
        cond_false, List.append_nil, hothers, turn, List.getLast?_concat]
      cases hd : (front.filter mark).getLast? with
      | none => simp
      | some d =>
          have hne : d ≠ x := by
            rintro rfl
            have hmark := (List.mem_filter.mp (List.mem_of_getLast? hd)).2
            rw [hx] at hmark
            cases hmark
          by_cases hprefers : prefers x d = true <;> simp [hprefers, hne]
  | true =>
      have hothers : (front.filter fun z => mark z != true) = front.filter (!mark ·) := by
        refine List.filter_congr fun z _ => ?_
        cases mark z <;> rfl
      simp only [List.filter_append, List.filter_singleton, hx, Bool.not_true, cond_true,
        cond_false, List.append_nil, hothers, turn, List.getLast?_concat]
      cases hv : (front.filter (!mark ·)).getLast? with
      | none => simp
      | some v =>
          have hne : v ≠ x := by
            rintro rfl
            have hmark := (List.mem_filter.mp (List.mem_of_getLast? hv)).2
            simp [hx] at hmark
          by_cases hprefers : prefers v x = true <;> simp [hprefers, hne]

/-! ## One page -/

/-- A list with a marked item ends in its last marked item and plain ones. -/
theorem exists_lastMarked {l : List α} (h : ∃ x ∈ l, mark x = true) :
    ∃ front d back, l = front ++ d :: back ∧ mark d = true ∧ ∀ x ∈ back, mark x = false := by
  induction l with
  | nil => simp at h
  | cons head tail ih =>
      by_cases htail : ∃ x ∈ tail, mark x = true
      · obtain ⟨front, d, back, rfl, hd, hback⟩ := ih htail
        exact ⟨head :: front, d, back, rfl, hd, hback⟩
      · obtain ⟨x, hx, hmark⟩ := h
        rcases List.mem_cons.mp hx with rfl | hx
        · refine ⟨[], x, tail, rfl, hmark, fun y hy => ?_⟩
          by_contra hy'
          exact htail ⟨y, hy, by simpa using hy'⟩
        · exact absurd ⟨x, hx, hmark⟩ htail

/-- A page that holds everything shows everything. -/
theorem page_short (h : xs.length ≤ size) :
    (page mark prefers size xs).items.Perm xs ∧ (page mark prefers size xs).next = none := by
  have hseen : xs.take (size + 1) = xs := List.take_of_length_le (by omega)
  constructor
  · simp only [page, hseen, if_pos h, Page.items]
    exact List.perm_append_comm.trans (List.filter_append_perm mark xs)
  · simp only [page, hseen, if_pos h]

/-- What a page with too many items reads: plain items, or a last marked one. -/
theorem window_cases (mark : α → Bool) (size : Nat) (xs : List α) :
    xs.length ≤ size ∨
    ∃ group extra rest, xs = group ++ extra :: rest ∧ group.length = size ∧
      ((∀ x ∈ group ++ [extra], mark x = false) ∨
        ∃ front d back, group ++ [extra] = front ++ d :: back ∧ mark d = true ∧
          ∀ x ∈ back, mark x = false) := by
  by_cases hshort : xs.length ≤ size
  · exact Or.inl hshort
  · have hlt : size < xs.length := by omega
    refine Or.inr ⟨xs.take size, xs[size], xs.drop (size + 1), ?_, by simp; omega, ?_⟩
    · rw [← List.drop_eq_getElem_cons, List.take_append_drop]
    · by_cases hany : ∃ x ∈ xs.take size ++ [xs[size]], mark x = true
      · exact Or.inr (exists_lastMarked hany)
      · refine Or.inl fun x hx => ?_
        by_contra hmark
        exact hany ⟨x, hx, by simpa using hmark⟩

theorem take_window (hlength : group.length = size) :
    (group ++ extra :: rest).take (size + 1) = group ++ [extra] := by
  have hcons : group ++ extra :: rest = (group ++ [extra]) ++ rest := by simp
  rw [hcons]
  exact List.take_left' (by simp [hlength])

/-- Nothing that is read is marked: the page shows the group and names its last. -/
theorem page_plain (prefers : α → α → Bool) (rest : List α) (hlength : group.length = size)
    (hplain : ∀ x ∈ group ++ [extra], mark x = false) :
    page mark prefers size (group ++ extra :: rest) =
      { plain := group, marked := [], next := group.getLast? } := by
  have hmarked : (group ++ [extra]).filter mark = [] :=
    List.filter_eq_nil_iff.mpr fun x hx => by simp [hplain x hx]
  have hall : (group ++ [extra]).filter (!mark ·) = group ++ [extra] :=
    List.filter_eq_self.mpr fun x hx => by simp [hplain x hx]
  have hmore : ¬(group ++ [extra]).length ≤ size := by simp [hlength]
  simp only [page, take_window hlength, hmarked, hall, if_neg hmore, List.isEmpty_nil, if_true,
    List.dropLast_concat, List.dropLast_nil, turn, List.getLast?_nil]
  cases group.getLast? <;> rfl

/-- Something that is read is marked: the page shows all but the last marked item. -/
theorem page_marked (prefers : α → α → Bool) (rest : List α) {front back : List α} {d : α}
    (hlength : group.length = size) (hseen : group ++ [extra] = front ++ d :: back)
    (hd : mark d = true)
    (hback : ∀ x ∈ back, mark x = false) :
    page mark prefers size (group ++ extra :: rest) =
      { plain := (front ++ back).filter (!mark ·)
        marked := (front ++ back).filter mark
        next :=
          turn prefers ((front ++ back).filter (!mark ·)) ((front ++ back).filter mark) } := by
  have hnone : back.filter mark = [] :=
    List.filter_eq_nil_iff.mpr fun x hx => by simp [hback x hx]
  have hmarked : (front ++ d :: back).filter mark = front.filter mark ++ [d] := by
    simp [List.filter_append, hd, hnone]
  have hplain : (front ++ d :: back).filter (!mark ·) = (front ++ back).filter (!mark ·) := by
    simp [List.filter_append, hd]
  have hleft : (front ++ back).filter mark = front.filter mark := by
    simp [List.filter_append, hnone]
  have hmore : ¬(front ++ d :: back).length ≤ size := by
    rw [← hseen]
    simp [hlength]
  have hsome : (front.filter mark ++ [d]).isEmpty = false := by simp
  simp only [page, take_window hlength, hseen, hmarked, hplain, hleft, if_neg hmore, hsome,
    Bool.false_eq_true, if_false, List.dropLast_concat]

theorem filter_perm (mark : α → Bool) (l : List α) : (l.filter (!mark ·) ++ l.filter mark).Perm l :=
  List.perm_append_comm.trans (List.filter_append_perm mark l)

/-- A page shows items that are there, and no other. -/
theorem page_items_subset (mark : α → Bool) (prefers : α → α → Bool) (size : Nat) (xs : List α) :
    ∀ x ∈ (page mark prefers size xs).items, x ∈ xs := by
  intro x hx
  rcases window_cases mark size xs with
    hshort | ⟨group, extra, rest, rfl, hlength, hplain | ⟨front, d, back, hseen, hd, hback⟩⟩
  · exact (page_short hshort).1.mem_iff.mp hx
  · rw [page_plain prefers rest hlength hplain] at hx
    exact List.mem_append_left _ (by simpa [Page.items] using hx)
  · rw [page_marked prefers rest hlength hseen hd hback] at hx
    have hmem := (filter_perm mark (front ++ back)).mem_iff.mp hx
    have hin : x ∈ group ++ [extra] := by
      rw [hseen]
      rcases List.mem_append.mp hmem with hfront | hback'
      · exact List.mem_append_left _ hfront
      · exact List.mem_append_right _ (List.mem_cons_of_mem _ hback')
    have hsplit : group ++ extra :: rest = (group ++ [extra]) ++ rest := by simp
    rw [hsplit]
    exact List.mem_append_left _ hin

/-- The item that a page names is one it shows. -/
theorem page_next_mem (h : (page mark prefers size xs).next = some item) :
    item ∈ (page mark prefers size xs).items := by
  rcases window_cases mark size xs with
    hshort | ⟨group, extra, rest, rfl, hlength, hplain | ⟨front, d, back, hseen, hd, hback⟩⟩
  · rw [(page_short hshort).2] at h
    cases h
  · rw [page_plain prefers rest hlength hplain] at h ⊢
    exact List.mem_append_left _ (List.mem_of_getLast? h)
  · rw [page_marked prefers rest hlength hseen hd hback] at h ⊢
    exact turn_mem h

/-- A page that names no item shows everything. -/
theorem page_next_none (hsize : 0 < size) (h : (page mark prefers size xs).next = none) :
    xs.length ≤ size := by
  rcases window_cases mark size xs with
    hshort | ⟨group, extra, rest, rfl, hlength, hplain | ⟨front, d, back, hseen, hd, hback⟩⟩
  · exact hshort
  · rw [page_plain prefers rest hlength hplain] at h
    have hnil := congrArg List.length (List.getLast?_eq_none_iff.mp h)
    rw [hlength, List.length_nil] at hnil
    omega
  · rw [page_marked prefers rest hlength hseen hd hback] at h
    obtain ⟨hplain, hmarked⟩ := turn_eq_none.mp h
    have hperm := filter_perm mark (front ++ back)
    rw [hplain, hmarked] at hperm
    have hnil := congrArg List.length (List.nil_perm.mp hperm)
    have hlengths := congrArg List.length hseen
    simp only [List.length_append, List.length_cons, List.length_nil] at hnil hlengths
    omega

/-! ## Items that a page cannot leave out -/

/-- Everything in the window but its last marked item is shown. -/
theorem page_items_marked {front back : List α} {d x : α} (hlength : group.length = size)
    (hseen : group ++ [extra] = front ++ d :: back) (hd : mark d = true)
    (hback : ∀ x ∈ back, mark x = false) :
    x ∈ (page mark prefers size (group ++ extra :: rest)).items ↔ x ∈ front ++ back := by
  rw [page_marked prefers rest hlength hseen hd hback]
  exact (filter_perm mark (front ++ back)).mem_iff

/-- A plain item with a marked one before it is shown if it is read. -/
theorem page_keeps_plain {near : List α} (far : List α) {x y : α} (hnear : near.length ≤ size)
    (hx : mark x = false) (hy : y ∈ near) (hmark : mark y = true) :
    x ∈ (page mark prefers size (near ++ x :: far)).items := by
  have hread : (near ++ x :: far).take (size + 1) = near ++ x :: far.take (size - near.length) := by
    rw [List.take_append, List.take_of_length_le (by omega), Nat.succ_sub hnear,
      List.take_succ_cons]
  rcases window_cases mark size (near ++ x :: far) with
    hshort | ⟨group, extra, rest, heq, hlength, hwindow⟩
  · exact (page_short hshort).1.mem_iff.mpr (by simp)
  · rw [heq, take_window hlength] at hread
    rw [heq]
    rcases hwindow with hplain | ⟨front, d, back, hseen, hd, hback⟩
    · have hin : y ∈ group ++ [extra] := by simp [hread, hy]
      rw [hplain y hin] at hmark
      cases hmark
    · rw [page_items_marked hlength hseen hd hback]
      have hin : x ∈ front ++ d :: back := by simp [← hseen, hread]
      have hne : x ≠ d := by
        rintro rfl
        rw [hx] at hd
        cases hd
      simpa [hne] using hin

/-- An item with a marked one right behind it is shown if both are read. -/
theorem page_keeps_before {near : List α} (far : List α) (x : α) {y : α}
    (hnear : near.length + 1 ≤ size) (hmark : mark y = true) :
    x ∈ (page mark prefers size (near ++ x :: y :: far)).items := by
  have hread : (near ++ x :: y :: far).take (size + 1) =
      near ++ x :: y :: far.take (size - near.length - 1) := by
    have hroom : size + 1 - near.length = (size - near.length - 1) + 1 + 1 := by omega
    rw [List.take_append, List.take_of_length_le (by omega), hroom, List.take_succ_cons,
      List.take_succ_cons]
  rcases window_cases mark size (near ++ x :: y :: far) with
    hshort | ⟨group, extra, rest, heq, hlength, hwindow⟩
  · exact (page_short hshort).1.mem_iff.mpr (by simp)
  · rw [heq, take_window hlength] at hread
    rw [heq]
    rcases hwindow with hplain | ⟨front, d, back, hseen, hd, hback⟩
    · have hin : y ∈ group ++ [extra] := by simp [hread]
      rw [hplain y hin] at hmark
      cases hmark
    · rw [page_items_marked hlength hseen hd hback]
      rw [hseen] at hread
      -- the last marked item is `y` or comes behind it
      rcases List.append_eq_append_iff.mp hread with ⟨as, rfl, htail⟩ | ⟨as, rfl, htail⟩
      · cases as with
        | nil =>
            obtain ⟨-, rfl⟩ := List.cons.inj htail
            rw [hback y List.mem_cons_self] at hmark
            cases hmark
        | cons a as =>
            obtain ⟨-, rfl⟩ := List.cons.inj htail
            rw [hback y (by simp)] at hmark
            cases hmark
      · cases as with
        | nil =>
            obtain ⟨-, rfl⟩ := List.cons.inj htail
            rw [hback y List.mem_cons_self] at hmark
            cases hmark
        | cons a as =>
            obtain ⟨rfl, -⟩ := List.cons.inj htail
            simp

end Page

/-! ## All pages -/

section Pages

variable {mark : α → Bool} {prefers : α → α → Bool} {size : Nat}
  {xs group rest : List α} {extra : α} {pages : List (Page α)}

/-- There are finitely many pages. -/
theorem exists_pages (mark : α → Bool) (prefers : α → α → Bool) (size : Nat) (xs : List α) :
    ∃ pages, Pages mark prefers size xs pages := by
  induction hn : xs.length using Nat.strongRecOn generalizing xs with
  | _ n ih =>
      cases hnext : (page mark prefers size xs).next with
      | none => exact ⟨_, .last hnext⟩
      | some item =>
          have hmem := page_items_subset mark prefers size xs item (page_next_mem hnext)
          obtain ⟨front, behind, rfl⟩ := List.append_of_mem hmem
          obtain ⟨pages, hpages⟩ := ih behind.length (by simp at hn; omega) behind rfl
          exact ⟨_, .more hnext rfl hpages⟩

theorem Pages.items_subset (h : Pages mark prefers size xs pages) :
    ∀ x ∈ pages.flatMap (·.items), x ∈ xs := by
  induction h with
  | last hend =>
      intro x hx
      exact page_items_subset _ _ _ _ x (by simpa using hx)
  | more hnext hsplit hrest ih =>
      intro x hx
      rcases List.mem_append.mp hx with hpage | hlater
      · exact page_items_subset _ _ _ _ x hpage
      · rw [hsplit]
        exact List.mem_append_right _ (List.mem_cons_of_mem _ (ih x hlater))

/-- What the first page shows is shown. -/
theorem Pages.mem_of_first (h : Pages mark prefers size xs pages) {x : α}
    (hx : x ∈ (page mark prefers size xs).items) : x ∈ pages.flatMap (·.items) := by
  cases h with
  | last hend => simpa using hx
  | more hnext hsplit hrest => exact List.mem_append_left _ hx

theorem aligned_short (h : xs.length ≤ size) :
    Aligned mark prefers size xs := by
  intro front group extra rest hsplit _ hgroup
  have hlength := congrArg List.length hsplit
  simp only [List.length_append, List.length_cons] at hlength
  omega

theorem aligned_plain (h : ∀ x ∈ xs, mark x = false) : Aligned mark prefers size xs := by
  intro front group extra rest hsplit _ _
  exact Or.inl fun x hx => h x (by simp [hsplit, hx])

/-- A sequence is aligned if its first group closes well and the rest is aligned. -/
theorem aligned_window_iff (hlength : group.length = size) :
    Aligned mark prefers size (group ++ extra :: rest) ↔
      Closes mark prefers group extra ∧ Aligned mark prefers size (extra :: rest) := by
  constructor
  · intro h
    refine ⟨h [] group extra rest rfl (Nat.dvd_zero size) hlength, ?_⟩
    intro front group' extra' rest' hsplit hdvd hgroup
    refine h (group ++ front) group' extra' rest' ?_ ?_ hgroup
    · simp [hsplit]
    · rw [List.length_append, hlength]
      exact Nat.dvd_add (Nat.dvd_refl size) hdvd
  · rintro ⟨hcloses, haligned⟩ front group' extra' rest' hsplit ⟨k, hk⟩ hgroup
    cases k with
    | zero =>
        obtain rfl := List.length_eq_zero_iff.mp (by simpa using hk)
        obtain ⟨rfl, htail⟩ := List.append_inj hsplit (by simp [hlength, hgroup])
        obtain ⟨rfl, -⟩ := List.cons.inj htail
        exact hcloses
    | succ k =>
        have hlong : size ≤ front.length := by
          rw [hk]
          exact Nat.le_mul_of_pos_right size (Nat.succ_pos k)
        have hfront : front = front.take size ++ front.drop size := by simp
        rw [hfront] at hsplit
        simp only [List.append_assoc] at hsplit
        obtain ⟨-, htail⟩ := List.append_inj hsplit (by simp [hlength, hlong])
        refine haligned (front.drop size) group' extra' rest' (by simpa using htail) ?_ hgroup
        rw [List.length_drop, hk]
        exact Nat.dvd_sub (Nat.dvd_mul_right _ _) (Nat.dvd_refl size)

/-- The items behind one are determined where items are distinct. -/
theorem behind_unique (front front' : List α) {behind behind' : List α} {x : α}
    (hnodup : (front ++ x :: behind).Nodup)
    (heq : front ++ x :: behind = front' ++ x :: behind') : behind = behind' := by
  obtain ⟨-, htail, hdisjoint⟩ := List.nodup_append.mp hnodup
  have hfront : x ∉ front := fun hin => hdisjoint x hin x List.mem_cons_self rfl
  have hbehind : x ∉ behind := (List.nodup_cons.mp htail).1
  exact ((List.append_cons_inj_of_notMem hfront hbehind).mp heq).2.2

/-- A page closes well before a marked item if and only if its last item wins. -/
theorem closes_marked_iff (hextra : mark extra = true) :
    Closes mark prefers group extra ↔ LastWins mark prefers group := by
  constructor
  · rintro (hplain | ⟨-, hwins⟩)
    · rintro front x rfl y hy
      have hmem := List.mem_filter.mp (List.mem_of_getLast? hy)
      have hyx := hmem.2
      rw [hplain x (by simp), hplain y (by simp [hmem.1])] at hyx
      cases hyx
    · exact hwins
  · exact fun hwins => Or.inr ⟨hextra, hwins⟩

/-- Pages that show an item on the first page and again later repeat it. -/
theorem not_perm_of_again {p : Page α} {later : List (Page α)} {x : α} (hnodup : xs.Nodup)
    (hfirst : x ∈ p.items) (hlater : x ∈ later.flatMap (·.items)) :
    ¬((p :: later).flatMap (·.items)).Perm xs := by
  intro hperm
  have hnodup' := hperm.nodup_iff.mpr hnodup
  rw [List.flatMap_cons] at hnodup'
  exact (List.nodup_append.mp hnodup').2.2 x hfirst x hlater rfl

/-- If the page does not name its last item, the last item comes again. -/
theorem Pages.not_perm_named {pages : List (Page α)} {init rest front behind : List α}
    {last item : α} (hrest : Pages mark prefers size behind pages)
    (hnodup : ((init ++ [last]) ++ extra :: rest).Nodup)
    (hlength : (init ++ [last]).length = size) (hextra : mark extra = true)
    (hnext : (page mark prefers size ((init ++ [last]) ++ extra :: rest)).next = some item)
    (hsplit : (init ++ [last]) ++ extra :: rest = front ++ item :: behind) (hne : item ≠ last) :
    ¬((page mark prefers size ((init ++ [last]) ++ extra :: rest) :: pages).flatMap
      (·.items)).Perm ((init ++ [last]) ++ extra :: rest) := by
  have hseen : (init ++ [last]) ++ [extra] = (init ++ [last]) ++ extra :: [] := rfl
  have hback : ∀ x ∈ ([] : List α), mark x = false := by simp
  have hshown : last ∈ (page mark prefers size ((init ++ [last]) ++ extra :: rest)).items := by
    rw [page_items_marked hlength hseen hextra hback]
    simp
  have hitem : item ∈ init := by
    have hmem := page_next_mem hnext
    rw [page_items_marked hlength hseen hextra hback] at hmem
    simpa [hne] using hmem
  obtain ⟨near, far, rfl⟩ := List.append_of_mem hitem
  have hthere : far ++ last :: extra :: rest = behind := by
    refine behind_unique near front (by simpa using hnodup) ?_
    simpa using hsplit
  subst hthere
  have hagain := hrest.mem_of_first (page_keeps_before rest last
    (by simp at hlength; omega) hextra)
  exact not_perm_of_again hnodup hshown hagain

/-- If the item taken back was not the last one read, an item comes again or is missing. -/
theorem Pages.not_perm_between {pages : List (Page α)} {front init rest front' behind : List α}
    {d item : α} (hrest : Pages mark prefers size behind pages)
    (hnodup : ((front ++ d :: init) ++ extra :: rest).Nodup)
    (hlength : (front ++ d :: init).length = size) (hd : mark d = true)
    (hback : ∀ x ∈ init ++ [extra], mark x = false)
    (hnext : (page mark prefers size ((front ++ d :: init) ++ extra :: rest)).next = some item)
    (hsplit : (front ++ d :: init) ++ extra :: rest = front' ++ item :: behind) :
    ¬((page mark prefers size ((front ++ d :: init) ++ extra :: rest) :: pages).flatMap
      (·.items)).Perm ((front ++ d :: init) ++ extra :: rest) := by
  have hseen : (front ++ d :: init) ++ [extra] = front ++ d :: (init ++ [extra]) := by simp
  have hextra : mark extra = false := hback extra (by simp)
  have hmem := page_next_mem hnext
  rw [page_items_marked hlength hseen hd hback, List.mem_append] at hmem
  rcases hmem with hitem | hitem
  · -- the next page starts before the item taken back: `extra` is shown again
    obtain ⟨near, far, rfl⟩ := List.append_of_mem hitem
    have hthere : (far ++ d :: init) ++ extra :: rest = behind := by
      refine behind_unique near front' (by simpa using hnodup) ?_
      simpa using hsplit
    subst hthere
    have hagain := hrest.mem_of_first (page_keeps_plain rest
      (by simp at hlength ⊢; omega) hextra (by simp) hd)
    refine not_perm_of_again hnodup ?_ hagain
    rw [page_items_marked hlength hseen hd hback]
    simp
  · -- the next page starts behind the item taken back: it is never shown
    obtain ⟨near, far, hsplit'⟩ := List.append_of_mem hitem
    have hwhole : (front ++ d :: init) ++ extra :: rest =
        (front ++ d :: near) ++ item :: (far ++ rest) := by
      calc
        (front ++ d :: init) ++ extra :: rest =
            front ++ d :: ((init ++ [extra]) ++ rest) := by simp
        _ = front ++ d :: ((near ++ item :: far) ++ rest) := by rw [hsplit']
        _ = (front ++ d :: near) ++ item :: (far ++ rest) := by simp
    have hthere : far ++ rest = behind :=
      behind_unique _ front' (hwhole ▸ hnodup) (hwhole.symm.trans hsplit)
    subst hthere
    rw [hwhole] at hnodup
    intro hperm
    have hd' : d ∈ (page mark prefers size ((front ++ d :: init) ++ extra :: rest) ::
        pages).flatMap (·.items) := hperm.mem_iff.mpr (by simp)
    rcases List.mem_append.mp hd' with hfirst | hlater
    · rw [page_items_marked hlength hseen hd hback, hsplit'] at hfirst
      simp [List.nodup_append] at hnodup hfirst
      grind
    · have hin := hrest.items_subset d hlater
      simp [List.nodup_append] at hnodup hin
      grind

/-- **When every item comes exactly once.**  Pages of distinct items, at least one
to a page, show every item once if and only if the groups close well. -/
theorem Pages.perm_iff (h : Pages mark prefers size xs pages) (hsize : 0 < size)
    (hnodup : xs.Nodup) :
    (pages.flatMap (·.items)).Perm xs ↔ Aligned mark prefers size xs := by
  induction h with
  | last hend =>
      have hshort := page_next_none hsize hend
      simpa [aligned_short hshort] using (page_short hshort).1
  | @more xs front behind item pages hnext hsplit hrest ih =>
      have hbehind : behind.Nodup := by
        rw [hsplit] at hnodup
        exact (List.nodup_cons.mp (List.nodup_append.mp hnodup).2.1).2
      rcases window_cases mark size xs with
        hshort | ⟨group, extra, rest, rfl, hlength, hplain | ⟨front', d, back, hseen, hd, hback⟩⟩
      · rw [(page_short hshort).2] at hnext
        cases hnext
      · -- the page shows its group and the next one starts behind it
        have hpage := page_plain prefers rest hlength hplain
        have hlast : group.getLast? = some item := by rw [← hnext, hpage]
        obtain ⟨init, rfl⟩ := List.getLast?_eq_some_iff.mp hlast
        have hthere : extra :: rest = behind := by
          refine behind_unique init front (by simpa using hnodup) ?_
          simpa using hsplit
        subst hthere
        have hcloses : Closes mark prefers (init ++ [item]) extra :=
          Or.inl fun x hx => hplain x (List.mem_append_left _ hx)
        rw [aligned_window_iff hlength, ← ih hbehind, List.flatMap_cons, hpage]
        simp only [Page.items, List.append_nil, hcloses, true_and]
        exact List.perm_append_left_iff (init ++ [item])
      · have hpage := page_marked prefers rest hlength hseen hd hback
        rcases back.eq_nil_or_concat' with rfl | ⟨init, last, rfl⟩
        · -- the item taken back is the last one read
          obtain ⟨rfl, hextra⟩ := List.append_inj' hseen rfl
          obtain rfl := List.singleton_injective hextra
          rw [List.append_nil] at hpage
          rcases group.eq_nil_or_concat' with rfl | ⟨init, last, rfl⟩
          · simp at hlength
            omega
          · by_cases hwins : LastWins mark prefers (init ++ [last])
            · have hitem : last = item := by
                have hturn := turn_concat_iff.mpr hwins
                rw [hpage] at hnext
                exact Option.some.inj (hturn.symm.trans hnext)
              subst hitem
              have hthere : extra :: rest = behind := by
                refine behind_unique init front (by simpa using hnodup) ?_
                simpa using hsplit
              subst hthere
              have hcloses := (closes_marked_iff hd).mpr hwins
              rw [aligned_window_iff hlength, ← ih hbehind, List.flatMap_cons, hpage]
              simp only [hcloses, true_and]
              have hshown := (filter_perm mark (init ++ [last])).append_right
                (pages.flatMap (·.items))
              exact (hshown.congr_left _).trans (List.perm_append_left_iff (init ++ [last]))
            · have hne : item ≠ last := by
                rintro rfl
                rw [hpage] at hnext
                exact hwins (turn_concat_iff.mp hnext)
              have hno : ¬Aligned mark prefers size ((init ++ [last]) ++ extra :: rest) := by
                rw [aligned_window_iff hlength, closes_marked_iff hd]
                exact fun hall => hwins hall.1
              exact iff_of_false (hrest.not_perm_named hnodup hlength hd hnext hsplit hne) hno
        · -- the item taken back is followed by plain ones
          have hlast : group = front' ++ d :: init ∧ extra = last := by
            have heq : group ++ [extra] = (front' ++ d :: init) ++ [last] := by simpa using hseen
            obtain ⟨hgroup, hextra⟩ := List.append_inj' heq rfl
            exact ⟨hgroup, List.singleton_injective hextra⟩
          obtain ⟨rfl, rfl⟩ := hlast
          have hextra : mark extra = false := hback extra (by simp)
          have hno : ¬Aligned mark prefers size ((front' ++ d :: init) ++ extra :: rest) := by
            rw [aligned_window_iff hlength]
            rintro ⟨hplain | ⟨hmark, -⟩, -⟩
            · rw [hplain d (by simp)] at hd
              cases hd
            · rw [hextra] at hmark
              cases hmark
          exact iff_of_false (hrest.not_perm_between hnodup hlength hd hback hnext hsplit) hno

/-! ## Strays

Some items should not be listed at all.  The pages also show exactly the others
when the only stray comes first and is taken back. -/

/-- The items that are wanted lie together. -/
def Together (wanted : α → Bool) (xs : List α) : Prop :=
  ∀ front x back, xs = front ++ x :: back → (∃ a ∈ front, wanted a = true) →
    (∃ b ∈ back, wanted b = true) → wanted x = true

/-- **The first item is a stray that the first page takes back**, before a group
of plain items. -/
structure StrayFirst (mark : α → Bool) (prefers : α → α → Bool) (wanted : α → Bool) (size : Nat)
    (stray : α) (group rest : List α) : Prop where
  marked : mark stray = true
  unwanted : wanted stray = false
  plain : ∀ x ∈ group, mark x = false
  wanted : ∀ x ∈ group ++ rest, wanted x = true
  length : group.length = size
  aligned : Aligned mark prefers size rest

/-- A page leaves out at most one of the items that it reads. -/
theorem page_leaves_one {x z : α} (hx : x ∈ xs.take (size + 1)) (hz : z ∈ xs.take (size + 1))
    (hne : z ≠ x) (hlost : x ∉ (page mark prefers size xs).items) :
    z ∈ (page mark prefers size xs).items := by
  rcases window_cases mark size xs with
    hshort | ⟨group, extra, rest, rfl, hlength, hplain | ⟨front, d, back, hseen, hd, hback⟩⟩
  · exact (page_short hshort).1.mem_iff.mpr (List.mem_of_mem_take hz)
  · rw [take_window hlength] at hx hz
    rw [page_plain prefers rest hlength hplain] at hlost ⊢
    simp only [Page.items, List.append_nil, List.mem_append, List.mem_singleton] at hlost hx hz ⊢
    rcases hz with hz | rfl
    · exact hz
    · exact absurd (hx.resolve_left hlost).symm hne
  · rw [take_window hlength, hseen] at hx hz
    rw [page_items_marked hlength hseen hd hback] at hlost ⊢
    simp only [List.mem_append, List.mem_cons, not_or] at hlost hx hz ⊢
    have hxd : x = d := by tauto
    subst hxd
    tauto

/-- Nothing that comes before an item shown is out of the page's reach. -/
theorem mem_take_of_before {front back : List α} {item z : α}
    (hnodup : (front ++ item :: back).Nodup)
    (hshown : item ∈ (page mark prefers size (front ++ item :: back)).items) (hz : z ∈ front) :
    z ∈ (front ++ item :: back).take (size + 1) := by
  have hread : item ∈ (front ++ item :: back).take (size + 1) := by
    rcases window_cases mark size (front ++ item :: back) with
      hshort | ⟨group, extra, rest, heq, hlength, hwindow⟩
    · rw [List.take_of_length_le (by omega)]
      simp
    · rw [heq] at hshown ⊢
      rw [take_window hlength]
      rcases hwindow with hplain | ⟨front', d, back', hseen, hd, hback⟩
      · rw [page_plain prefers rest hlength hplain] at hshown
        exact List.mem_append_left _ (by simpa [Page.items] using hshown)
      · rw [page_items_marked hlength hseen hd hback] at hshown
        rw [hseen]
        simp only [List.mem_append, List.mem_cons] at hshown ⊢
        tauto
  have hlong : front.length < size + 1 := by
    by_contra hno
    rw [List.take_append_of_le_length (by omega)] at hread
    exact (List.nodup_append.mp hnodup).2.2 item (List.mem_of_mem_take hread) item
      List.mem_cons_self rfl
  rw [List.take_append, List.take_of_length_le (by omega)]
  exact List.mem_append_left _ hz

/-- An item that is never shown has a later one that is, and is the first or has
an earlier one that is. -/
theorem Pages.around_lost (h : Pages mark prefers size xs pages) (hsize : 0 < size)
    (hnodup : xs.Nodup) {front back : List α} {x : α} (hsplit : xs = front ++ x :: back)
    (hx : x ∉ pages.flatMap (·.items)) :
    (∃ b ∈ back, b ∈ pages.flatMap (·.items)) ∧
      (front = [] ∨ ∃ a ∈ front, a ∈ pages.flatMap (·.items)) := by
  induction h generalizing front with
  | last hend =>
      have hshort := page_next_none hsize hend
      have hmem : x ∈ front ++ x :: back := by simp
      rw [← hsplit] at hmem
      exact absurd ((page_short hshort).1.mem_iff.mpr hmem) (by simpa using hx)
  | @more xs front' behind item pages hnext hitem hrest ih =>
      have hshown := page_next_mem hnext
      have hne : item ≠ x := by
        rintro rfl
        exact hx (List.mem_append_left _ hshown)
      rcases List.append_eq_append_iff.mp (hitem.symm.trans hsplit) with
        ⟨as, rfl, htail⟩ | ⟨as, rfl, htail⟩
      · -- `x` comes behind the item named, and later pages are left
        cases as with
        | nil => exact absurd (List.cons.inj htail).1 hne
        | cons a as =>
            obtain ⟨rfl, rfl⟩ := List.cons.inj htail
            rw [hitem] at hnodup
            have hbehind := (List.nodup_cons.mp (List.nodup_append.mp hnodup).2.1).2
            have hlater : x ∉ pages.flatMap (·.items) := fun hin =>
              hx (List.mem_append_right _ hin)
            obtain ⟨⟨b, hb, hin⟩, -⟩ := ih hbehind rfl hlater
            exact ⟨⟨b, hb, List.mem_append_right _ hin⟩,
              Or.inr ⟨item, by simp, List.mem_append_left _ hshown⟩⟩
      · -- `x` comes before the item named, and this page left it out
        cases as with
        | nil => exact absurd (List.cons.inj htail).1.symm hne
        | cons a as =>
            obtain ⟨rfl, rfl⟩ := List.cons.inj htail
            refine ⟨⟨item, by simp, List.mem_append_left _ hshown⟩, ?_⟩
            cases front with
            | nil => exact Or.inl rfl
            | cons z front =>
                have hdistinct : z ≠ x := by
                  rintro rfl
                  rw [hsplit] at hnodup
                  simp at hnodup
                rw [hitem] at hnodup hshown
                have hlost : x ∉ (page mark prefers size xs).items := fun hin =>
                  hx (List.mem_append_left _ hin)
                rw [hitem] at hlost
                have hz := page_leaves_one (mem_take_of_before hnodup hshown (by simp))
                  (mem_take_of_before hnodup hshown (by simp)) hdistinct hlost
                exact Or.inr ⟨z, by simp, List.mem_append_left _ (hitem ▸ hz)⟩

/-- A page that takes back a stray in front of a plain group shows the group. -/
theorem page_strayFirst (prefers : α → α → Bool) (rest : List α) {stray : α} (hsize : 0 < size)
    (hlength : group.length = size) (hmark : mark stray = true)
    (hplain : ∀ x ∈ group, mark x = false) :
    page mark prefers size (stray :: (group ++ rest)) =
      { plain := group, marked := [], next := group.getLast? } := by
  rcases group.eq_nil_or_concat' with rfl | ⟨init, last, rfl⟩
  · simp at hlength
    omega
  · have hsplit : stray :: (init ++ [last] ++ rest) = (stray :: init) ++ last :: rest := by simp
    have hseen : (stray :: init) ++ [last] = [] ++ stray :: (init ++ [last]) := rfl
    have hnone : (init ++ [last]).filter mark = [] :=
      List.filter_eq_nil_iff.mpr fun x hx => by simp [hplain x hx]
    have hall : (init ++ [last]).filter (!mark ·) = init ++ [last] :=
      List.filter_eq_self.mpr fun x hx => by simp [hplain x hx]
    rw [hsplit, page_marked prefers rest (by simpa using hlength) hseen hmark hplain,
      List.nil_append, hnone, hall]
    simp [turn]

/-- Behind a stray that is taken back the pages go on with the rest. -/
theorem Pages.perm_behind_stray {stray : α}
    (h : Pages mark prefers size (stray :: (group ++ rest)) pages) (hsize : 0 < size)
    (hnodup : (stray :: (group ++ rest)).Nodup) (hlength : group.length = size)
    (hmark : mark stray = true) (hplain : ∀ x ∈ group, mark x = false) :
    (pages.flatMap (·.items)).Perm (group ++ rest) ↔ Aligned mark prefers size rest := by
  have hpage := page_strayFirst prefers rest hsize hlength hmark hplain
  cases h with
  | last hend =>
      rw [hpage, List.getLast?_eq_none_iff] at hend
      rw [hend, List.length_nil] at hlength
      omega
  | @more _ front behind item pages hnext hsplit hrest =>
      rw [hpage] at hnext
      obtain ⟨init, rfl⟩ := List.getLast?_eq_some_iff.mp hnext
      have hthere : rest = behind := by
        refine behind_unique (stray :: init) front (by simpa using hnodup) ?_
        simpa using hsplit
      subst hthere
      have hrestNodup : rest.Nodup :=
        (List.nodup_append.mp (List.nodup_cons.mp hnodup).2).2.1
      rw [← hrest.perm_iff hsize hrestNodup, List.flatMap_cons, hpage]
      simp only [Page.items, List.append_nil]
      exact List.perm_append_left_iff (init ++ [item])

/-- A first item that its page does not show is marked, and was taken back behind a page of
plain items. -/
theorem first_taken_back {x : α} {back : List α} (hsize : 0 < size)
    (hnotin : x ∉ (page mark prefers size (x :: back)).items) :
    ∃ tail rest, back = tail ++ rest ∧ tail.length = size ∧ mark x = true ∧
      ∀ y ∈ tail, mark y = false := by
  rcases window_cases mark size (x :: back) with
    hshort | ⟨group, extra, rest, heq, hlength, hplain | ⟨front, d, tail, hseen, hd, htail⟩⟩
  · exact absurd ((page_short hshort).1.mem_iff.mpr List.mem_cons_self) hnotin
  · rw [heq, page_plain prefers rest hlength hplain] at hnotin
    cases group with
    | nil =>
        simp at hlength
        omega
    | cons y group =>
        obtain ⟨rfl, -⟩ := List.cons.inj heq
        exact absurd (by simp [Page.items]) hnotin
  · rw [heq, page_items_marked hlength hseen hd htail] at hnotin
    have hwhole : x :: back = front ++ d :: (tail ++ rest) := by
      calc
        x :: back = (group ++ [extra]) ++ rest := by simp [heq]
        _ = front ++ d :: (tail ++ rest) := by simp [hseen]
    cases front with
    | nil =>
        obtain ⟨rfl, hrest⟩ := List.cons.inj hwhole
        have hlengths := congrArg List.length hseen
        simp only [List.nil_append, List.length_append, List.length_cons,
          List.length_nil] at hlengths
        exact ⟨tail, rest, hrest, by omega, hd, htail⟩
    | cons y front =>
        obtain ⟨rfl, -⟩ := List.cons.inj hwhole
        simp at hnotin

/-- **When every wanted item comes exactly once, and no other.** -/
theorem Pages.perm_filter_iff (h : Pages mark prefers size xs pages) (hsize : 0 < size)
    (hnodup : xs.Nodup) {wanted : α → Bool} (htogether : Together wanted xs) :
    (pages.flatMap (·.items)).Perm (xs.filter wanted) ↔
      ((∀ x ∈ xs, wanted x = true) ∧ Aligned mark prefers size xs) ∨
      ∃ stray group rest, xs = stray :: (group ++ rest) ∧
        StrayFirst mark prefers wanted size stray group rest := by
  by_cases hall : ∀ x ∈ xs, wanted x = true
  · rw [List.filter_eq_self.mpr hall, h.perm_iff hsize hnodup]
    constructor
    · exact fun haligned => Or.inl ⟨hall, haligned⟩
    · rintro (⟨-, haligned⟩ | ⟨stray, group, rest, rfl, hstray⟩)
      · exact haligned
      · have hwanted := hall stray List.mem_cons_self
        rw [hstray.unwanted] at hwanted
        cases hwanted
  · obtain ⟨x, hx, hstray⟩ : ∃ x ∈ xs, wanted x = false := by
      by_contra hno
      refine hall fun x hx => ?_
      by_contra hwanted
      exact hno ⟨x, hx, by simpa using hwanted⟩
    constructor
    · intro hperm
      -- what is shown is wanted, so a stray is lost, and a lost one comes first
      have hlost : ∀ y, wanted y = false → y ∉ pages.flatMap (·.items) := by
        intro y hy hin
        have hwanted := (List.mem_filter.mp (hperm.mem_iff.mp hin)).2
        rw [hy] at hwanted
        cases hwanted
      have hshown : ∀ y, y ∈ pages.flatMap (·.items) → wanted y = true := fun y hin =>
        (List.mem_filter.mp (hperm.mem_iff.mp hin)).2
      have hfirst : ∀ front y back, xs = front ++ y :: back → wanted y = false → front = [] := by
        intro front y back hsplit hy
        obtain ⟨⟨b, hb, hbin⟩, hfront | ⟨a, ha, hain⟩⟩ :=
          h.around_lost hsize hnodup hsplit (hlost y hy)
        · exact hfront
        · rw [htogether front y back hsplit ⟨a, ha, hshown a hain⟩ ⟨b, hb, hshown b hbin⟩] at hy
          cases hy
      obtain ⟨front, back, hsplit⟩ := List.append_of_mem hx
      obtain rfl := hfirst front x back hsplit hstray
      rw [List.nil_append] at hsplit
      subst hsplit
      have hback : ∀ y ∈ back, wanted y = true := by
        intro y hy
        by_contra hno
        obtain ⟨near, far, rfl⟩ := List.append_of_mem hy
        exact absurd (hfirst (x :: near) y far rfl (by simpa using hno)) (List.cons_ne_nil _ _)
      have hnotin : x ∉ (page mark prefers size (x :: back)).items := fun hin =>
        hlost x hstray (h.mem_of_first hin)
      obtain ⟨tail, rest, rfl, hlength, hmark, htail⟩ := first_taken_back hsize hnotin
      refine Or.inr ⟨x, tail, rest, rfl, hmark, hstray, htail, hback, hlength, ?_⟩
      exact (h.perm_behind_stray hsize hnodup hlength hmark htail).mp
        (by simpa [List.filter_cons, hstray, List.filter_eq_self.mpr hback] using hperm)
    · rintro (⟨hwanted, -⟩ | ⟨stray, group, rest, rfl, hfirst⟩)
      · exact absurd hwanted hall
      · have hfilter : (stray :: (group ++ rest)).filter wanted = group ++ rest := by
          rw [List.filter_cons, hfirst.unwanted, List.filter_eq_self.mpr hfirst.wanted]
          rfl
        rw [hfilter, h.perm_behind_stray hsize hnodup hfirst.length hfirst.marked hfirst.plain]
        exact hfirst.aligned

end Pages

/-! ## A client -/

section Client

variable {ρ τ : Type} {fetch : Option τ → Option ρ} {next : ρ → Option τ} {name : α → τ}
  {Shows : ρ → Page α → Prop} {mark : α → Bool} {prefers : α → α → Bool} {size : Nat}
  {xs ys : List α} {token : Option τ} {replies : List ρ} {pages : List (Page α)}

/-- What a token leaves of the items: those behind the item that it names. -/
def Leaves (name : α → τ) (xs : List α) (token : Option τ) (ys : List α) : Prop :=
  (token = none ∧ ys = xs) ∨ ∃ front item, xs = front ++ item :: ys ∧ token = some (name item)

theorem Leaves.behind {front behind : List α} {item : α} (h : Leaves name xs token ys)
    (hsplit : ys = front ++ item :: behind) : Leaves name xs (some (name item)) behind := by
  rcases h with ⟨-, rfl⟩ | ⟨front', item', rfl, -⟩
  · exact Or.inr ⟨front, item, hsplit, rfl⟩
  · exact Or.inr ⟨front' ++ item' :: front, item, by simp [hsplit], rfl⟩

/-- Replies that show the page of what their token leaves. -/
def Serves (fetch : Option τ → Option ρ) (next : ρ → Option τ) (name : α → τ)
    (Shows : ρ → Page α → Prop) (mark : α → Bool) (prefers : α → α → Bool) (size : Nat)
    (xs : List α) : Prop :=
  ∀ token ys, Leaves name xs token ys → ∃ reply, fetch token = some reply ∧
    Shows reply (page mark prefers size ys) ∧
    next reply = (page mark prefers size ys).next.map name

/-- A client that follows the tokens to the end has read all pages. -/
theorem exists_pages_of_follows (hserves : Serves fetch next name Shows mark prefers size xs)
    (h : Follows fetch next token replies) (hleaves : Leaves name xs token ys) :
    ∃ pages, Pages mark prefers size ys pages ∧ List.Forall₂ Shows replies pages := by
  induction h generalizing ys with
  | last hreply hend =>
      obtain ⟨reply, hok, hshows, hnext⟩ := hserves _ _ hleaves
      obtain rfl := Option.some.inj (hreply.symm.trans hok)
      rw [hend] at hnext
      exact ⟨_, .last (Option.map_eq_none_iff.mp hnext.symm), .cons hshows .nil⟩
  | more hreply hlater hrest ih =>
      obtain ⟨reply, hok, hshows, hnext⟩ := hserves _ _ hleaves
      obtain rfl := Option.some.inj (hreply.symm.trans hok)
      obtain ⟨item, hitem, hname⟩ := Option.map_eq_some_iff.mp (hnext.symm.trans hlater)
      have hmem := page_items_subset mark prefers size ys item (page_next_mem hitem)
      obtain ⟨front, behind, hsplit⟩ := List.append_of_mem hmem
      obtain ⟨pages, hpages, hall⟩ := ih (hname ▸ hleaves.behind hsplit)
      exact ⟨_, .more hitem hsplit hpages, .cons hshows hall⟩

/-- A client that follows the tokens comes to an end. -/
theorem exists_follows (hserves : Serves fetch next name Shows mark prefers size xs)
    (h : Pages mark prefers size ys pages) (hleaves : Leaves name xs token ys) :
    ∃ replies, Follows fetch next token replies := by
  induction h generalizing token with
  | last hend =>
      obtain ⟨reply, hok, -, hnext⟩ := hserves _ _ hleaves
      exact ⟨_, .last hok (by rw [hnext, hend]; rfl)⟩
  | more hitem hsplit hrest ih =>
      obtain ⟨reply, hok, -, hnext⟩ := hserves _ _ hleaves
      obtain ⟨replies, hfollows⟩ := ih (hleaves.behind hsplit)
      exact ⟨_, .more hok (by rw [hnext, hitem]; rfl) hfollows⟩

end Client

end MarkedPaging
