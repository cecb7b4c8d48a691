import Mathlib.Data.List.Pairwise
import Mathlib.Order.Basic
import Mathlib.Order.Defs.LinearOrder
import Mathlib.Order.Lattice

/-!
# Scanning a page

A reader lists an ascending sequence of keys in pages.  Some keys are `listed`
and shown one by one, the others are passed.  One page scans the keys until it
meets the listed key that no longer fits; it shows at most `size` listed keys
and, if there are more, names the last one as the token of the next page, which
starts behind it.

* `filter_scan` and `mem_scan_iff`: what a scan meets;
* `page_breaks`: how a page that is not the last lies in the keys.
-/

namespace KeysetPaging

section Scan

variable {κ : Type}

/-- The keys that are read before `room` listed keys have been found. -/
def scan (listed : κ → Bool) : Nat → List κ → List κ
  | _, [] => []
  | 0, _ :: _ => []
  | room + 1, k :: rest => k :: scan listed (if listed k then room else room + 1) rest

structure Page (κ : Type) where
  shown : List κ
  passed : List κ
  next : Option κ

/-- The page of the given size. -/
def page (listed : κ → Bool) (size : Nat) (keys : List κ) : Page κ :=
  let seen := scan listed (size + 1) keys
  let found := seen.filter listed
  { shown := found.take size
    passed := seen.filter fun k => !listed k
    next := if size < found.length then (found.take size).getLast? else none }

variable {listed : κ → Bool} {size : Nat} {keys : List κ} {k : κ}

@[simp] theorem scan_nil (room : Nat) : scan listed room [] = [] := by
  cases room <;> rfl

@[simp] theorem scan_zero (keys : List κ) : scan listed 0 keys = [] := by
  cases keys <;> rfl

theorem mem_of_mem_scan {room : Nat} (h : k ∈ scan listed room keys) : k ∈ keys := by
  induction keys generalizing room with
  | nil => simp at h
  | cons head rest ih =>
      cases room with
      | zero => simp at h
      | succ room =>
          rcases List.mem_cons.mp h with hhead | hrest
          · exact hhead ▸ List.mem_cons_self
          · exact List.mem_cons_of_mem _ (ih hrest)

/-- A scan finds the listed keys that there is room for. -/
theorem filter_scan (room : Nat) (keys : List κ) :
    (scan listed room keys).filter listed = (keys.filter listed).take room := by
  induction keys generalizing room with
  | nil => simp
  | cons head rest ih =>
      cases room with
      | zero => simp
      | succ room =>
          cases hhead : listed head with
          | true => simp [scan, hhead, ih]
          | false => simp [scan, hhead, ih]

theorem page_shown : (page listed size keys).shown = (keys.filter listed).take size := by
  simp [page, filter_scan, List.take_take]

theorem page_next :
    (page listed size keys).next =
      if size < (keys.filter listed).length then ((keys.filter listed).take size).getLast?
      else none := by
  have hroom : size < min (size + 1) (keys.filter listed).length ↔
      size < (keys.filter listed).length := by omega
  simp only [page, filter_scan, List.length_take, List.take_take, hroom]
  rw [Nat.min_eq_left (Nat.le_succ size)]

theorem mem_passed :
    k ∈ (page listed size keys).passed ↔
      k ∈ scan listed (size + 1) keys ∧ listed k = false := by
  simp [page]

/-! ## Where a page breaks off -/

/-- The page shows `front` and `last`, and its scan stops at the listed key `stop`. -/
structure Breaks (listed : κ → Bool) (size : Nat) (keys front : List κ) (last stop : κ)
    (back : List κ) : Prop where
  split : keys.filter listed = front ++ last :: stop :: back
  length : front.length + 1 = size

theorem page_end (hend : (page listed size keys).next = none) (hsize : 0 < size) :
    (keys.filter listed).length ≤ size := by
  by_contra hmore
  rw [page_next, if_pos (by omega), List.getLast?_eq_none_iff] at hend
  have hlength := congrArg List.length hend
  rw [List.length_take, List.length_nil] at hlength
  omega

theorem page_breaks {token : κ} (hnext : (page listed size keys).next = some token) :
    ∃ front stop back, Breaks listed size keys front token stop back := by
  rw [page_next] at hnext
  by_cases hmore : size < (keys.filter listed).length
  · rw [if_pos hmore] at hnext
    obtain ⟨front, hfront⟩ := List.getLast?_eq_some_iff.mp hnext
    have hlength : front.length + 1 = size := by
      have := congrArg List.length hfront
      rw [List.length_take, List.length_append, List.length_singleton] at this
      omega
    have hsplit : keys.filter listed = front ++ [token] ++ (keys.filter listed).drop size := by
      rw [← hfront, List.take_append_drop]
    cases hback : (keys.filter listed).drop size with
    | nil =>
        have := congrArg List.length hback
        rw [List.length_drop, List.length_nil] at this
        omega
    | cons stop back =>
        rw [hback] at hsplit
        exact ⟨front, stop, back, by simpa using hsplit, hlength⟩
  · rw [if_neg hmore] at hnext
    cases hnext

namespace Breaks

variable {front back : List κ} {last stop : κ}
variable (h : Breaks listed size keys front last stop back)
include h

theorem shown : (page listed size keys).shown = front ++ [last] := by
  have hfront : front ++ last :: stop :: back = (front ++ [last]) ++ stop :: back := by simp
  rw [page_shown, h.split, hfront]
  exact List.take_left' (by simp [h.length])

theorem stop_at : (keys.filter listed)[size]? = some stop := by
  rw [h.split, ← h.length]
  simp

theorem last_mem : last ∈ keys ∧ listed last = true := by
  have hmem : last ∈ keys.filter listed := by simp [h.split]
  exact List.mem_filter.mp hmem

theorem stop_mem : stop ∈ keys ∧ listed stop = true := by
  have hmem : stop ∈ keys.filter listed := by simp [h.split]
  exact List.mem_filter.mp hmem

end Breaks

end Scan

variable {κ : Type} [LinearOrder κ]

/-- A passed key is read when it comes before the listed key at which the scan
stops. -/
theorem mem_scan_iff {listed : κ → Bool} {keys : List κ} {k : κ}
    (hsorted : keys.Pairwise (· ≤ ·)) (hk : listed k = false) (room : Nat) :
    k ∈ scan listed (room + 1) keys ↔
      k ∈ keys ∧ ∀ stop, (keys.filter listed)[room]? = some stop → k < stop := by
  induction keys generalizing room with
  | nil => simp
  | cons head rest ih =>
      obtain ⟨hle, hrest⟩ := List.pairwise_cons.mp hsorted
      cases hhead : listed head with
      | false =>
          have hstop : ∀ stop, (rest.filter listed)[room]? = some stop → head < stop := by
            intro stop hat
            obtain ⟨hmem, hlisted⟩ := List.mem_filter.mp (List.mem_of_getElem? hat)
            refine lt_of_le_of_ne (hle stop hmem) fun heq => ?_
            rw [← heq, hhead] at hlisted
            cases hlisted
          have hih := ih hrest room
          simp only [scan, hhead, List.mem_cons, List.filter_cons, Bool.false_eq_true, if_false,
            hih]
          constructor
          · rintro (rfl | ⟨hmem, hbefore⟩)
            · exact ⟨.inl rfl, hstop⟩
            · exact ⟨.inr hmem, hbefore⟩
          · rintro ⟨rfl | hmem, hbefore⟩
            · exact .inl rfl
            · exact .inr ⟨hmem, hbefore⟩
      | true =>
          have hne : k ≠ head := fun heq => by simp [heq, hhead] at hk
          cases room with
          | zero =>
              simp only [scan, hhead, if_true, scan_zero, List.mem_cons, List.not_mem_nil,
                or_false, List.filter_cons, List.getElem?_cons_zero, Option.some.injEq]
              constructor
              · intro heq
                exact absurd heq hne
              · rintro ⟨heq | hmem, hbefore⟩
                · exact heq
                · exact absurd (hbefore head rfl) (not_lt.mpr (hle k hmem))
          | succ room =>
              have hih := ih hrest room
              simp [scan, hhead, hne, hih]

/-! ## The keys behind a token -/

/-- The keys behind a token. -/
def behind (token : κ) (keys : List κ) : List κ := keys.filter fun k => decide (token < k)

@[simp] theorem mem_behind {token k : κ} {keys : List κ} :
    k ∈ behind token keys ↔ k ∈ keys ∧ token < k := by
  simp [behind]

theorem behind_sorted {token : κ} {keys : List κ} (hsorted : keys.Pairwise (· ≤ ·)) :
    (behind token keys).Pairwise (· ≤ ·) :=
  hsorted.filter _

/-- A key behind the token occurs there as often as before. -/
theorem count_behind {token k : κ} {keys : List κ} (h : token < k) :
    (behind token keys).count k = keys.count k :=
  List.count_filter (by simpa using h)

/-- Later tokens alone decide what lies behind them. -/
theorem behind_behind {token later : κ} {keys : List κ} (h : token < later) :
    behind later (behind token keys) = behind later keys := by
  rw [behind, behind, behind, List.filter_filter]
  refine List.filter_congr fun k _ => ?_
  by_cases hk : later < k
  · simp [hk, h.trans hk]
  · simp [hk]

/-! ## What a page passes -/

section Break

variable {listed : κ → Bool} {size : Nat} {keys front back : List κ} {last stop k : κ}

namespace Breaks

variable (h : Breaks listed size keys front last stop back)
include h

/-- A single last key is not the stop. -/
theorem last_ne_stop (hsingle : keys.count last = 1) : last ≠ stop := by
  intro heq
  rw [← List.count_filter h.last_mem.2, h.split, ← heq, List.count_append,
    List.count_cons_self, List.count_cons_self] at hsingle
  omega

variable (hsorted : keys.Pairwise (· ≤ ·))
include hsorted

theorem sorted : (front ++ last :: stop :: back).Pairwise (· ≤ ·) :=
  h.split ▸ hsorted.filter listed

theorem le_last (hk : k ∈ front ++ [last]) : k ≤ last := by
  rcases List.mem_append.mp hk with hfront | hlast
  · exact (List.pairwise_append.mp (h.sorted hsorted)).2.2 k hfront last List.mem_cons_self
  · exact le_of_eq (List.mem_singleton.mp hlast)

theorem last_le (hk : k ∈ stop :: back) : last ≤ k :=
  (List.pairwise_cons.mp (List.pairwise_append.mp (h.sorted hsorted)).2.1).1 k hk

theorem stop_le (hk : k ∈ stop :: back) : stop ≤ k := by
  rcases List.mem_cons.mp hk with rfl | hback
  · exact le_refl _
  · have htail := (List.pairwise_append.mp (h.sorted hsorted)).2.1
    exact (List.pairwise_cons.mp (List.pairwise_cons.mp htail).2).1 k hback

/-- The listed keys up to the last one are shown. -/
theorem mem_front (hmem : k ∈ keys) (hlisted : listed k = true) (hle : k ≤ last) :
    k ∈ front ++ [last] := by
  have hk : k ∈ (front ++ [last]) ++ stop :: back := by
    have : k ∈ keys.filter listed := List.mem_filter.mpr ⟨hmem, hlisted⟩
    simpa [h.split] using this
  rcases List.mem_append.mp hk with hfront | hback
  · exact hfront
  · have : k = last := le_antisymm hle (h.last_le hsorted hback)
    simp [this]

/-- The listed keys behind the last one come no earlier than the stop. -/
theorem stop_le_of_lt (hmem : k ∈ keys) (hlisted : listed k = true) (hlt : last < k) :
    stop ≤ k := by
  have hk : k ∈ (front ++ [last]) ++ stop :: back := by
    have : k ∈ keys.filter listed := List.mem_filter.mpr ⟨hmem, hlisted⟩
    simpa [h.split] using this
  rcases List.mem_append.mp hk with hfront | hback
  · exact absurd (h.le_last hsorted hfront) (not_le.mpr hlt)
  · exact h.stop_le hsorted hback

theorem passed_iff : k ∈ (page listed size keys).passed ↔
    k ∈ keys ∧ listed k = false ∧ k < stop := by
  rw [mem_passed]
  constructor
  · rintro ⟨hseen, hk⟩
    obtain ⟨hmem, hbefore⟩ := (mem_scan_iff hsorted hk size).mp hseen
    exact ⟨hmem, hk, hbefore stop h.stop_at⟩
  · rintro ⟨hmem, hk, hlt⟩
    refine ⟨(mem_scan_iff hsorted hk size).mpr ⟨hmem, fun s hs => ?_⟩, hk⟩
    rw [h.stop_at, Option.some.injEq] at hs
    exact hs ▸ hlt

end Breaks

/-- A page that reaches the end passes every key that is not listed. -/
theorem passed_iff_of_end (hend : (keys.filter listed).length ≤ size)
    (hsorted : keys.Pairwise (· ≤ ·)) :
    k ∈ (page listed size keys).passed ↔ k ∈ keys ∧ listed k = false := by
  have hnone : (keys.filter listed)[size]? = none := List.getElem?_eq_none hend
  rw [mem_passed]
  constructor
  · rintro ⟨hseen, hk⟩
    exact ⟨mem_of_mem_scan hseen, hk⟩
  · rintro ⟨hmem, hk⟩
    refine ⟨(mem_scan_iff hsorted hk size).mpr ⟨hmem, fun s hs => ?_⟩, hk⟩
    rw [hnone] at hs
    cases hs

end Break

end KeysetPaging
