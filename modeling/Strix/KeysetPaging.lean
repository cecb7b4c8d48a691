import Mathlib.Data.Finset.Card
import Mathlib.Data.Finset.Filter
import Mathlib.Data.List.Nodup
import Strix.KeysetScan

/-!
# Keyset paging

The pages of one reading, each starting behind the last key that the one before
has shown.  The keys that are passed stand for the `group` they belong to.

* `Pages.exists_pages`: there are finitely many pages;
* `Pages.mem_shown` and `Pages.mem_passed`: the pages leave nothing out;
* `Pages.flatMap_shown`: of different keys they contain each once, in order;
* `Pages.once_iff`: nothing comes twice exactly when the pages end well,
  `EndsWell`;
* `Follows.exists_pages` and `Pages.exists_follows`: a client sees these pages;
* `Renders.once_iff`: when the replies to it contain nothing twice.
-/

namespace KeysetPaging

variable {κ γ : Type} [LinearOrder κ]

/-- Of different keys, those behind a page are the rest of the listed ones. -/
theorem Breaks.behind_eq {listed : κ → Bool} {size : Nat} {keys front back : List κ}
    {token stop : κ} (h : Breaks listed size keys front token stop back)
    (hsorted : keys.Pairwise (· < ·)) : (behind token keys).filter listed = stop :: back := by
  have hascending : (front ++ [token] ++ stop :: back).Pairwise (· < ·) := by
    have hall := hsorted.filter listed
    rw [h.split] at hall
    simpa using hall
  obtain ⟨-, -, hcross⟩ := List.pairwise_append.mp hascending
  have hupto : ∀ k ∈ front ++ [token], ¬ token < k := by
    intro k hk
    exact not_lt.mpr (h.le_last (hsorted.imp le_of_lt) hk)
  calc
    (behind token keys).filter listed
        = (keys.filter listed).filter fun k => decide (token < k) := by
          rw [behind, List.filter_filter, List.filter_filter]
          exact List.filter_congr fun k _ => Bool.and_comm _ _
    _ = ((front ++ [token]) ++ stop :: back).filter fun k => decide (token < k) := by
          rw [h.split]
          simp
    _ = stop :: back := by
          rw [List.filter_append, List.filter_eq_nil_iff.mpr (by simpa using hupto),
            List.filter_eq_self.mpr (fun k hk => by simpa using hcross token (by simp) k hk),
            List.nil_append]

/-! ## The pages of one reading -/

/-- The pages from the first to the one without a token. -/
inductive Pages (listed : κ → Bool) (size : Nat) : List κ → List (Page κ) → Prop
  | last {keys : List κ} (hend : (page listed size keys).next = none) :
      Pages listed size keys [page listed size keys]
  | more {keys : List κ} {token : κ} {pages : List (Page κ)}
      (hnext : (page listed size keys).next = some token)
      (hrest : Pages listed size (behind token keys) pages) :
      Pages listed size keys (page listed size keys :: pages)

namespace Pages

variable {listed : κ → Bool} {size : Nat} {keys : List κ} {pages : List (Page κ)} {k : κ}

/-- A reading comes to an end: each token leaves fewer keys. -/
theorem exists_pages (listed : κ → Bool) (size : Nat) (keys : List κ) :
    ∃ pages, Pages listed size keys pages := by
  induction hn : keys.length using Nat.strong_induction_on generalizing keys with
  | _ n ih =>
      cases hnext : (page listed size keys).next with
      | none => exact ⟨_, .last hnext⟩
      | some token =>
          obtain ⟨front, stop, back, hbreaks⟩ := page_breaks hnext
          have hfewer : (behind token keys).length < n := by
            rw [← hn]
            refine List.length_filter_lt_length_iff_exists.mpr ⟨token, hbreaks.last_mem.1, ?_⟩
            simp
          obtain ⟨pages, hpages⟩ := ih _ hfewer (behind token keys) rfl
          exact ⟨_, .more hnext hpages⟩

theorem of_mem_shown (h : Pages listed size keys pages) {p : Page κ} (hp : p ∈ pages)
    (hk : k ∈ p.shown) : k ∈ keys ∧ listed k = true := by
  induction h with
  | last hend =>
      rw [List.mem_singleton.mp hp, page_shown] at hk
      exact List.mem_filter.mp (List.mem_of_mem_take hk)
  | more hnext hrest ih =>
      rcases List.mem_cons.mp hp with rfl | hlater
      · rw [page_shown] at hk
        exact List.mem_filter.mp (List.mem_of_mem_take hk)
      · obtain ⟨hmem, hlisted⟩ := ih hlater
        exact ⟨(mem_behind.mp hmem).1, hlisted⟩

theorem of_mem_passed (h : Pages listed size keys pages) {p : Page κ} (hp : p ∈ pages)
    (hk : k ∈ p.passed) : k ∈ keys ∧ listed k = false := by
  induction h with
  | last hend =>
      rw [List.mem_singleton.mp hp, mem_passed] at hk
      exact ⟨mem_of_mem_scan hk.1, hk.2⟩
  | more hnext hrest ih =>
      rcases List.mem_cons.mp hp with rfl | hlater
      · rw [mem_passed] at hk
        exact ⟨mem_of_mem_scan hk.1, hk.2⟩
      · obtain ⟨hmem, hlisted⟩ := ih hlater
        exact ⟨(mem_behind.mp hmem).1, hlisted⟩

/-- Every listed key is shown. -/
theorem mem_shown (h : Pages listed size keys pages) (hsize : 0 < size)
    (hsorted : keys.Pairwise (· ≤ ·)) (hmem : k ∈ keys) (hk : listed k = true) :
    ∃ p ∈ pages, k ∈ p.shown := by
  induction h with
  | last hend =>
      refine ⟨_, List.mem_singleton_self _, ?_⟩
      rw [page_shown, List.take_of_length_le (page_end hend hsize)]
      exact List.mem_filter.mpr ⟨hmem, hk⟩
  | @more keys token pages hnext hrest ih =>
      obtain ⟨front, stop, back, hbreaks⟩ := page_breaks hnext
      by_cases hle : k ≤ token
      · refine ⟨_, List.mem_cons_self, ?_⟩
        rw [hbreaks.shown]
        exact hbreaks.mem_front hsorted hmem hk hle
      · obtain ⟨p, hp, hshown⟩ :=
          ih (behind_sorted hsorted) (mem_behind.mpr ⟨hmem, not_le.mp hle⟩)
        exact ⟨p, List.mem_cons_of_mem _ hp, hshown⟩

/-- Every other key is passed. -/
theorem mem_passed (h : Pages listed size keys pages) (hsize : 0 < size)
    (hsorted : keys.Pairwise (· ≤ ·)) (hmem : k ∈ keys) (hk : listed k = false) :
    ∃ p ∈ pages, k ∈ p.passed := by
  induction h with
  | last hend =>
      refine ⟨_, List.mem_singleton_self _, ?_⟩
      exact (passed_iff_of_end (page_end hend hsize) hsorted).mpr ⟨hmem, hk⟩
  | @more keys token pages hnext hrest ih =>
      obtain ⟨front, stop, back, hbreaks⟩ := page_breaks hnext
      by_cases hlt : k < stop
      · exact ⟨_, List.mem_cons_self, (hbreaks.passed_iff hsorted).mpr ⟨hmem, hk, hlt⟩⟩
      · have hle : token ≤ k :=
          (hbreaks.last_le hsorted List.mem_cons_self).trans (not_lt.mp hlt)
        have hne : token ≠ k := by
          intro heq
          rw [← heq, hbreaks.last_mem.2] at hk
          cases hk
        obtain ⟨p, hp, hpassed⟩ :=
          ih (behind_sorted hsorted) (mem_behind.mpr ⟨hmem, lt_of_le_of_ne hle hne⟩)
        exact ⟨p, List.mem_cons_of_mem _ hp, hpassed⟩

/-- **The pages of different keys put together** are the listed keys in their order. -/
theorem flatMap_shown (h : Pages listed size keys pages) (hsize : 0 < size)
    (hsorted : keys.Pairwise (· < ·)) : pages.flatMap (·.shown) = keys.filter listed := by
  induction h with
  | last hend =>
      rw [List.flatMap_singleton, page_shown, List.take_of_length_le (page_end hend hsize)]
  | @more keys token pages hnext hrest ih =>
      obtain ⟨front, stop, back, hbreaks⟩ := page_breaks hnext
      rw [List.flatMap_cons, hbreaks.shown, ih (hsorted.filter _), hbreaks.behind_eq hsorted,
        hbreaks.split]
      simp

end Pages

/-! ## Where pages end -/

/-- The number of different listed keys before a key. -/
def rank (listed : κ → Bool) (keys : List κ) (k : κ) : Nat :=
  (keys.toFinset.filter fun x => listed x = true ∧ x < k).card

/-- A page ends at `t`: up to it the listed keys fill whole pages, and it is not
the last of them. -/
def EndsAt (listed : κ → Bool) (size : Nat) (keys : List κ) (t : κ) : Prop :=
  (t ∈ keys ∧ listed t = true) ∧ size ∣ rank listed keys t + 1 ∧
    (2 ≤ keys.count t ∨ ∃ k ∈ keys, listed k = true ∧ t < k)

section Rank

variable {listed : κ → Bool} {size : Nat} {keys front back : List κ} {last stop k t : κ}

/-- At most the listed keys in front of a key are smaller. -/
theorem rank_le (hsorted : keys.Pairwise (· ≤ ·))
    (hsplit : keys.filter listed = front ++ k :: back) : rank listed keys k ≤ front.length := by
  have hsub : (keys.toFinset.filter fun x => listed x = true ∧ x < k) ⊆ front.toFinset := by
    intro x hx
    obtain ⟨hmem, hlisted, hlt⟩ := Finset.mem_filter.mp hx
    have hlist : x ∈ front ++ k :: back :=
      hsplit ▸ List.mem_filter.mpr ⟨List.mem_toFinset.mp hmem, hlisted⟩
    have hall := hsplit ▸ hsorted.filter listed
    rcases List.mem_append.mp hlist with hfront | hback
    · exact List.mem_toFinset.mpr hfront
    · have hle : k ≤ x := by
        rcases List.mem_cons.mp hback with rfl | hback
        · exact le_refl _
        · exact (List.pairwise_cons.mp (List.pairwise_append.mp hall).2.1).1 x hback
      exact absurd hlt (not_lt.mpr hle)
  exact (Finset.card_le_card hsub).trans (List.toFinset_card_le front)

/-- No page ends before its size is reached. -/
theorem not_dvd_rank (hsorted : keys.Pairwise (· ≤ ·))
    (hsplit : keys.filter listed = front ++ k :: back) (hearly : front.length + 1 < size) :
    ¬size ∣ rank listed keys k + 1 := by
  intro hdvd
  have hle := rank_le hsorted hsplit
  have := Nat.le_of_dvd (Nat.succ_pos _) hdvd
  omega

/-- Equal keys stand side by side. -/
theorem exists_adjacent {ks : List κ} (hsorted : ks.Pairwise (· ≤ ·)) (htwice : 2 ≤ ks.count k) :
    ∃ front back, ks = front ++ k :: k :: back := by
  have hmem : k ∈ ks := List.count_pos_iff.mp (by omega)
  obtain ⟨front, tail, rfl, hfirst⟩ := List.eq_append_cons_of_mem hmem
  rw [List.count_append, List.count_cons_self, List.count_eq_zero_of_not_mem hfirst] at htwice
  have hagain : k ∈ tail := List.count_pos_iff.mp (by omega)
  obtain ⟨hle, htail⟩ := List.pairwise_cons.mp (List.pairwise_append.mp hsorted).2.1
  cases tail with
  | nil => cases hagain
  | cons next back =>
      have hnext : next ≤ k := by
        rcases List.mem_cons.mp hagain with rfl | hback
        · exact le_refl _
        · exact (List.pairwise_cons.mp htail).1 k hback
      obtain rfl : k = next := le_antisymm (hle next List.mem_cons_self) hnext
      exact ⟨front, back, rfl⟩

/-- Where a page ends, another listed key follows. -/
theorem EndsAt.split (h : EndsAt listed size keys t) (hsorted : keys.Pairwise (· ≤ ·)) :
    ∃ front next back, keys.filter listed = front ++ t :: next :: back := by
  obtain ⟨⟨hmem, ht⟩, -, htwice | ⟨k, hk, hlisted, hlt⟩⟩ := h
  · have hcount : 2 ≤ (keys.filter listed).count t := by rwa [List.count_filter ht]
    obtain ⟨front, back, hsplit⟩ := exists_adjacent (hsorted.filter listed) hcount
    exact ⟨front, t, back, hsplit⟩
  · obtain ⟨front, tail, hsplit⟩ := List.append_of_mem (List.mem_filter.mpr ⟨hmem, ht⟩)
    cases tail with
    | cons next back => exact ⟨front, next, back, hsplit⟩
    | nil =>
        have hin : k ∈ front ++ [t] := hsplit ▸ List.mem_filter.mpr ⟨hk, hlisted⟩
        have hall := hsplit ▸ hsorted.filter listed
        rcases List.mem_append.mp hin with hfront | hlast
        · have hle := (List.pairwise_append.mp hall).2.2 k hfront t List.mem_cons_self
          exact absurd hlt (not_lt.mpr hle)
        · exact absurd (List.mem_singleton.mp hlast) hlt.ne'

/-- A page that reaches the end is the only one. -/
theorem not_endsAt_of_end (hend : (keys.filter listed).length ≤ size)
    (hsorted : keys.Pairwise (· ≤ ·)) : ¬EndsAt listed size keys t := by
  intro h
  obtain ⟨front, next, back, hsplit⟩ := h.split hsorted
  refine not_dvd_rank hsorted hsplit ?_ h.2.1
  have hlength := congrArg List.length hsplit
  rw [List.length_append, List.length_cons, List.length_cons] at hlength
  omega

namespace Breaks

variable (h : Breaks listed size keys front last stop back)
  (hsorted : keys.Pairwise (· ≤ ·)) (hdistinct : (front ++ [last]).Nodup)
include h hsorted hdistinct

/-- Behind a page of different keys, the ranks have dropped by its size. -/
theorem rank_behind (hlt : last < k) :
    rank listed keys k = size + rank listed (behind last keys) k := by
  have hsplit : (keys.toFinset.filter fun x => listed x = true ∧ x < k) =
      (front ++ [last]).toFinset ∪
        ((behind last keys).toFinset.filter fun x => listed x = true ∧ x < k) := by
    ext x
    simp only [Finset.mem_union, Finset.mem_filter, List.mem_toFinset, mem_behind]
    constructor
    · rintro ⟨hmem, hlisted, hx⟩
      by_cases hle : x ≤ last
      · exact .inl (h.mem_front hsorted hmem hlisted hle)
      · exact .inr ⟨⟨hmem, not_le.mp hle⟩, hlisted, hx⟩
    · rintro (hfront | ⟨⟨hmem, -⟩, hlisted, hx⟩)
      · have hin : x ∈ keys.filter listed := by
          have : x ∈ (front ++ [last]) ++ stop :: back := List.mem_append_left _ hfront
          simpa [h.split] using this
        obtain ⟨hmem, hlisted⟩ := List.mem_filter.mp hin
        exact ⟨hmem, hlisted, (h.le_last hsorted hfront).trans_lt hlt⟩
      · exact ⟨hmem, hlisted, hx⟩
  have hdisjoint : Disjoint (front ++ [last]).toFinset
      ((behind last keys).toFinset.filter fun x => listed x = true ∧ x < k) := by
    refine Finset.disjoint_left.mpr fun x hfront hrest => ?_
    have hle := h.le_last hsorted (List.mem_toFinset.mp hfront)
    have hx := (mem_behind.mp (List.mem_toFinset.mp (Finset.mem_filter.mp hrest).1)).2
    exact absurd hx (not_lt.mpr hle)
  rw [rank, hsplit, Finset.card_union_of_disjoint hdisjoint, List.toFinset_card_of_nodup hdistinct]
  simp [rank, h.length]

/-- The last key of a page of different keys has the rank of its place. -/
theorem rank_last : rank listed keys last = front.length := by
  have hall := h.sorted hsorted
  have heq : (keys.toFinset.filter fun x => listed x = true ∧ x < last) = front.toFinset := by
    ext x
    simp only [Finset.mem_filter, List.mem_toFinset]
    constructor
    · rintro ⟨hmem, hlisted, hx⟩
      rcases List.mem_append.mp (h.mem_front hsorted hmem hlisted hx.le) with hfront | hlast
      · exact hfront
      · exact absurd (List.mem_singleton.mp hlast) hx.ne
    · intro hfront
      have hin : x ∈ keys.filter listed := h.split ▸ List.mem_append_left _ hfront
      obtain ⟨hmem, hlisted⟩ := List.mem_filter.mp hin
      have hle := (List.pairwise_append.mp hall).2.2 x hfront last List.mem_cons_self
      have hne : x ≠ last := by
        intro heq
        exact (List.nodup_append.mp hdistinct).2.2 x hfront last (List.mem_singleton_self _) heq
      exact ⟨hmem, hlisted, lt_of_le_of_ne hle hne⟩
  rw [rank, heq, List.toFinset_card_of_nodup (List.nodup_append.mp hdistinct).1]

theorem dvd_rank_last : size ∣ rank listed keys last + 1 := by
  have hrank := h.rank_last hsorted hdistinct
  have hlength := h.length
  exact ⟨1, by omega⟩

/-- Of a page of different keys only the last can occur again. -/
theorem eq_last_of_twice (hlisted : listed k = true) (hle : k ≤ last)
    (htwice : 2 ≤ keys.count k) : k = last := by
  by_contra hne
  have hlt : k < last := lt_of_le_of_ne hle hne
  have hsplit : keys.filter listed = (front ++ [last]) ++ stop :: back := by simp [h.split]
  have hback : k ∉ stop :: back :=
    fun hk => absurd hlt (not_lt.mpr (h.last_le hsorted hk))
  rw [← List.count_filter hlisted, hsplit, List.count_append,
    List.count_eq_zero_of_not_mem hback] at htwice
  have honce := List.nodup_iff_count_le_one.mp hdistinct k
  omega

/-- The last key of a page of different keys is single if the scan stops behind it. -/
theorem count_last (hlt : last < stop) : keys.count last = 1 := by
  have hsplit : keys.filter listed = (front ++ [last]) ++ stop :: back := by simp [h.split]
  have hback : last ∉ stop :: back := fun hk => absurd hlt (not_lt.mpr (h.stop_le hsorted hk))
  have honce : (front ++ [last]).count last = 1 :=
    List.count_eq_one_of_mem hdistinct (by simp)
  rw [← List.count_filter h.last_mem.2, hsplit, List.count_append, honce,
    List.count_eq_zero_of_not_mem hback]

/-- The pages end where the first one ends and where those behind it end. -/
theorem endsAt_iff :
    EndsAt listed size keys t ↔ t = last ∨ EndsAt listed size (behind last keys) t := by
  constructor
  · intro hends
    obtain ⟨⟨hmem, hlisted⟩, hdvd, hmore⟩ := hends
    rcases lt_trichotomy t last with hlt | heq | hlt
    · have hfront : t ∈ front := by
        rcases List.mem_append.mp (h.mem_front hsorted hmem hlisted hlt.le) with hfront | hlast
        · exact hfront
        · exact absurd (List.mem_singleton.mp hlast) hlt.ne
      obtain ⟨a, b, rfl⟩ := List.append_of_mem hfront
      have hsplit : keys.filter listed = a ++ t :: (b ++ last :: stop :: back) := by
        simpa using h.split
      refine absurd hdvd (not_dvd_rank hsorted hsplit ?_)
      have := h.length
      rw [List.length_append, List.length_cons] at this
      omega
    · exact .inl heq
    · refine .inr ⟨⟨mem_behind.mpr ⟨hmem, hlt⟩, hlisted⟩, ?_, ?_⟩
      · rw [h.rank_behind hsorted hdistinct hlt, Nat.add_assoc] at hdvd
        exact (Nat.dvd_add_right (Nat.dvd_refl size)).mp hdvd
      · rcases hmore with htwice | ⟨k, hk, hkl, htk⟩
        · exact .inl (by rwa [count_behind hlt])
        · exact .inr ⟨k, mem_behind.mpr ⟨hk, hlt.trans htk⟩, hkl, htk⟩
  · rintro (rfl | ⟨⟨hmem, hlisted⟩, hdvd, hmore⟩)
    · refine ⟨h.last_mem, ?_, ?_⟩
      · exact h.dvd_rank_last hsorted hdistinct
      · rcases (h.last_le hsorted List.mem_cons_self).lt_or_eq with hlt | heq
        · exact .inr ⟨stop, h.stop_mem.1, h.stop_mem.2, hlt⟩
        · left
          rw [← List.count_filter h.last_mem.2, h.split, ← heq, List.count_append,
            List.count_cons_self, List.count_cons_self]
          omega
    · obtain ⟨hin, hlt⟩ := mem_behind.mp hmem
      refine ⟨⟨hin, hlisted⟩, ?_, ?_⟩
      · rw [h.rank_behind hsorted hdistinct hlt, Nat.add_assoc]
        exact (Nat.dvd_add_right (Nat.dvd_refl size)).mpr hdvd
      · rcases hmore with htwice | ⟨k, hk, hkl, htk⟩
        · exact .inl (by rwa [count_behind hlt] at htwice)
        · exact .inr ⟨k, (mem_behind.mp hk).1, hkl, htk⟩

end Breaks

end Rank

/-! ## Nothing comes twice -/

/-- No group is passed on both pages. -/
def Apart (group : κ → γ) (p q : Page κ) : Prop :=
  ∀ x ∈ p.passed, ∀ y ∈ q.passed, group x ≠ group y

/-- **The pages end well**: a listed key that occurs more than once ends a page,
no page ends between two keys of a group, and behind the end of a page the next
listed key comes before any key of a group. -/
structure EndsWell (listed : κ → Bool) (group : κ → γ) (size : Nat) (keys : List κ) : Prop where
  copies : ∀ k ∈ keys, listed k = true → 2 ≤ keys.count k → size ∣ rank listed keys k + 1
  between : ∀ t, EndsAt listed size keys t → ∀ x ∈ keys, ∀ y ∈ keys, listed x = false →
    listed y = false → group x = group y → x < t → ¬t < y
  next : ∀ t, EndsAt listed size keys t → keys.count t = 1 → ∀ x ∈ keys, listed x = false →
    t < x → ∃ k ∈ keys, listed k = true ∧ t < k ∧ k < x

namespace Pages

variable {listed : κ → Bool} {group : κ → γ} {size : Nat} {keys : List κ}
  {pages : List (Page κ)}

/-- No key is shown twice exactly when repeated keys end pages. -/
theorem shown_nodup_iff (h : Pages listed size keys pages) (hsize : 0 < size)
    (hsorted : keys.Pairwise (· ≤ ·)) :
    (pages.flatMap (·.shown)).Nodup ↔
      ∀ k ∈ keys, listed k = true → 2 ≤ keys.count k → size ∣ rank listed keys k + 1 := by
  induction h with
  | @last keys hend =>
      have hshort := page_end hend hsize
      have hshown : [page listed size keys].flatMap (·.shown) = keys.filter listed := by
        simp [page_shown, List.take_of_length_le hshort]
      rw [hshown]
      constructor
      · intro honce k _ hk htwice
        have := List.nodup_iff_count_le_one.mp honce k
        rw [List.count_filter hk] at this
        omega
      · intro hcopies
        refine List.nodup_iff_count_le_one.mpr fun k => ?_
        by_contra htwice
        obtain ⟨front, back, hsplit⟩ :=
          exists_adjacent (hsorted.filter listed) (Nat.lt_of_not_le htwice)
        have hin : k ∈ keys.filter listed := by simp [hsplit]
        obtain ⟨hmem, hk⟩ := List.mem_filter.mp hin
        have hcount : 2 ≤ keys.count k := by
          rw [← List.count_filter hk]
          omega
        refine not_dvd_rank hsorted hsplit ?_ (hcopies k hmem hk hcount)
        rw [hsplit, List.length_append, List.length_cons, List.length_cons] at hshort
        omega
  | @more keys token pages hnext hrest ih =>
      obtain ⟨front, stop, back, hbreaks⟩ := page_breaks hnext
      have hlater : ∀ k ∈ pages.flatMap (·.shown), token < k := by
        intro k hk
        obtain ⟨p, hp, hkp⟩ := List.mem_flatMap.mp hk
        exact (mem_behind.mp (hrest.of_mem_shown hp hkp).1).2
      rw [List.flatMap_cons, hbreaks.shown, List.nodup_append, ih (behind_sorted hsorted)]
      constructor
      · rintro ⟨hdistinct, hcopies, -⟩ k hmem hk htwice
        by_cases hle : k ≤ token
        · obtain rfl := hbreaks.eq_last_of_twice hsorted hdistinct hk hle htwice
          exact hbreaks.dvd_rank_last hsorted hdistinct
        · have hlt := not_le.mp hle
          rw [hbreaks.rank_behind hsorted hdistinct hlt, Nat.add_assoc]
          refine (Nat.dvd_add_right (Nat.dvd_refl size)).mpr (hcopies k ?_ hk ?_)
          · exact mem_behind.mpr ⟨hmem, hlt⟩
          · rwa [count_behind hlt]
      · intro hcopies
        have hdistinct : (front ++ [token]).Nodup := by
          refine List.nodup_iff_count_le_one.mpr fun k => ?_
          by_contra htwice
          have hfront : (front ++ [token]).Pairwise (· ≤ ·) := by
            have hall : ((front ++ [token]) ++ stop :: back).Pairwise (· ≤ ·) := by
              simpa using hbreaks.sorted hsorted
            exact (List.pairwise_append.mp hall).1
          obtain ⟨a, b, hab⟩ := exists_adjacent hfront (Nat.lt_of_not_le htwice)
          have hsplit : keys.filter listed = a ++ k :: (k :: b ++ stop :: back) := by
            calc
              keys.filter listed = (front ++ [token]) ++ stop :: back := by
                simp [hbreaks.split]
              _ = a ++ k :: (k :: b ++ stop :: back) := by simp [hab]
          have hin : k ∈ keys.filter listed := by simp [hsplit]
          obtain ⟨hmem, hk⟩ := List.mem_filter.mp hin
          have hcount : 2 ≤ keys.count k := by
            rw [← List.count_filter hk, hsplit, List.count_append, List.count_cons_self]
            simp
            omega
          refine not_dvd_rank hsorted hsplit ?_ (hcopies k hmem hk hcount)
          have hlength := congrArg List.length hab
          rw [List.length_append, List.length_singleton, List.length_append, List.length_cons,
            List.length_cons, hbreaks.length] at hlength
          omega
        refine ⟨hdistinct, fun k hmem hk htwice => ?_, fun k hk k' hk' => ?_⟩
        · obtain ⟨hin, hlt⟩ := mem_behind.mp hmem
          rw [count_behind hlt] at htwice
          have hdvd := hcopies k hin hk htwice
          rw [hbreaks.rank_behind hsorted hdistinct hlt, Nat.add_assoc] at hdvd
          exact (Nat.dvd_add_right (Nat.dvd_refl size)).mp hdvd
        · exact ((hbreaks.le_last hsorted hk).trans_lt (hlater k' hk')).ne

/-- No group comes on two pages exactly when no page ends within it or right
before it. -/
theorem apart_iff (h : Pages listed size keys pages) (hsize : 0 < size)
    (hsorted : keys.Pairwise (· ≤ ·)) (honce : (pages.flatMap (·.shown)).Nodup) :
    pages.Pairwise (Apart group) ↔ EndsWell listed group size keys := by
  have hcopies := (h.shown_nodup_iff hsize hsorted).mp honce
  induction h with
  | @last keys hend =>
      have hnone : ∀ t, ¬EndsAt listed size keys t :=
        fun t => not_endsAt_of_end (page_end hend hsize) hsorted
      refine iff_of_true (List.pairwise_singleton _ _) ⟨hcopies, ?_, ?_⟩
      · exact fun t ht => absurd ht (hnone t)
      · exact fun t ht => absurd ht (hnone t)
  | @more keys token pages hnext hrest ih =>
      obtain ⟨front, stop, back, hbreaks⟩ := page_breaks hnext
      rw [List.flatMap_cons, hbreaks.shown, List.nodup_append] at honce
      obtain ⟨hdistinct, hlater, -⟩ := honce
      have hrestCopies := (hrest.shown_nodup_iff hsize (behind_sorted hsorted)).mp hlater
      have hends (t) := hbreaks.endsAt_iff (t := t) hsorted hdistinct
      have hih : pages.Pairwise (Apart group) ↔
          EndsWell listed group size (behind token keys) :=
        ih (behind_sorted hsorted) hlater hrestCopies
      have hstop : token ≤ stop := hbreaks.last_le hsorted List.mem_cons_self
      -- a key that is not listed is not the token
      have hne : ∀ x, listed x = false → x ≠ token := by
        intro x hx heq
        rw [heq, hbreaks.last_mem.2] at hx
        cases hx
      rw [List.pairwise_cons, hih]
      constructor
      · rintro ⟨hapart, hwell⟩
        -- what the first page passes shares no group with what lies behind it
        have hcut : ∀ x ∈ keys, ∀ y ∈ keys, listed x = false → listed y = false → x < stop →
            token < y → group x ≠ group y := by
          intro x hx y hy hxl hyl hxs hty
          obtain ⟨q, hq, hyq⟩ := hrest.mem_passed hsize (behind_sorted hsorted)
            (mem_behind.mpr ⟨hy, hty⟩) hyl
          exact hapart q hq x ((hbreaks.passed_iff hsorted).mpr ⟨hx, hxl, hxs⟩) y hyq
        refine ⟨hcopies, fun t ht x hx y hy hxl hyl hgroup hxt hty => ?_,
          fun t ht hsingle x hx hxl htx => ?_⟩
        · rcases (hends t).mp ht with rfl | hbehind
          · exact hcut x hx y hy hxl hyl (hxt.trans_le hstop) hty hgroup
          · have htoken := (mem_behind.mp hbehind.1.1).2
            have hy' : y ∈ behind token keys := mem_behind.mpr ⟨hy, htoken.trans hty⟩
            rcases lt_trichotomy x token with hlt | heq | hlt
            · exact hcut x hx y hy hxl hyl (hlt.trans_le hstop) (htoken.trans hty) hgroup
            · exact hne x hxl heq
            · exact hwell.between t hbehind x (mem_behind.mpr ⟨hx, hlt⟩) y hy' hxl hyl hgroup
                hxt hty
        · rcases (hends t).mp ht with rfl | hbehind
          · by_cases hxs : x < stop
            · exact absurd rfl (hcut x hx x hx hxl hxl hxs htx)
            · have hstopx : stop ≠ x := by
                intro heq
                rw [← heq, hbreaks.stop_mem.2] at hxl
                cases hxl
              have htstop : t ≠ stop := hbreaks.last_ne_stop hsingle
              exact ⟨stop, hbreaks.stop_mem.1, hbreaks.stop_mem.2, lt_of_le_of_ne hstop htstop,
                lt_of_le_of_ne (not_lt.mp hxs) hstopx⟩
          · have htoken := (mem_behind.mp hbehind.1.1).2
            rw [← count_behind htoken] at hsingle
            obtain ⟨k, hk, hkl, htk, hkx⟩ := hwell.next t hbehind hsingle x
              (mem_behind.mpr ⟨hx, htoken.trans htx⟩) hxl htx
            exact ⟨k, (mem_behind.mp hk).1, hkl, htk, hkx⟩
      · intro hwell
        have hhere : EndsAt listed size keys token := (hends token).mpr (.inl rfl)
        refine ⟨fun q hq x hx y hy hgroup => ?_, hrestCopies, ?_, ?_⟩
        · obtain ⟨hxmem, hxl, hxs⟩ := (hbreaks.passed_iff hsorted).mp hx
          obtain ⟨hybehind, hyl⟩ := hrest.of_mem_passed hq hy
          obtain ⟨hymem, hty⟩ := mem_behind.mp hybehind
          rcases lt_trichotomy x token with hlt | heq | hlt
          · exact hwell.between token hhere x hxmem y hymem hxl hyl hgroup hlt hty
          · exact hne x hxl heq
          · have hsingle : keys.count token = 1 :=
              hbreaks.count_last hsorted hdistinct (hlt.trans hxs)
            obtain ⟨k, hk, hkl, htk, hkx⟩ := hwell.next token hhere hsingle x hxmem hxl hlt
            have hle := hbreaks.stop_le_of_lt hsorted hk hkl htk
            exact absurd (hkx.trans hxs) (not_lt.mpr hle)
        · intro t ht x hx y hy hxl hyl
          have hall : EndsAt listed size keys t := (hends t).mpr (.inr ht)
          exact hwell.between t hall x (mem_behind.mp hx).1 y (mem_behind.mp hy).1 hxl hyl
        · intro t ht hsingle x hx hxl htx
          have htoken := (mem_behind.mp ht.1.1).2
          have hall : EndsAt listed size keys t := (hends t).mpr (.inr ht)
          rw [count_behind htoken] at hsingle
          obtain ⟨k, hk, hkl, htk, hkx⟩ :=
            hwell.next t hall hsingle x (mem_behind.mp hx).1 hxl htx
          exact ⟨k, mem_behind.mpr ⟨hk, htoken.trans htk⟩, hkl, htk, hkx⟩

/-- **Nothing comes twice** exactly when the pages end well. -/
theorem once_iff (h : Pages listed size keys pages) (hsize : 0 < size)
    (hsorted : keys.Pairwise (· ≤ ·)) :
    ((pages.flatMap (·.shown)).Nodup ∧ pages.Pairwise (Apart group)) ↔
      EndsWell listed group size keys := by
  constructor
  · rintro ⟨honce, hapart⟩
    exact (h.apart_iff hsize hsorted honce).mp hapart
  · intro hwell
    have honce := (h.shown_nodup_iff hsize hsorted).mpr hwell.copies
    exact ⟨honce, (h.apart_iff hsize hsorted honce).mpr hwell⟩

end Pages

/-! ## A client -/

/-- The replies to a client that asks again with the token of each reply, until
one has none. -/
inductive Follows {ρ : Type} (fetch : Option κ → Option ρ) (next : ρ → Option κ) :
    Option κ → List ρ → Prop
  | last {token : Option κ} {reply : ρ} (hreply : fetch token = some reply)
      (hend : next reply = none) : Follows fetch next token [reply]
  | more {token : Option κ} {reply : ρ} {later : κ} {replies : List ρ}
      (hreply : fetch token = some reply) (hnext : next reply = some later)
      (hrest : Follows fetch next (some later) replies) :
      Follows fetch next token (reply :: replies)

/-- The keys that a token leaves. -/
def keysFrom (keys : List κ) : Option κ → List κ
  | none => keys
  | some token => behind token keys

theorem behind_keysFrom {keys : List κ} {token : Option κ} {later : κ}
    (h : later ∈ keysFrom keys token) :
    behind later (keysFrom keys token) = keysFrom keys (some later) := by
  cases token with
  | none => rfl
  | some token => exact behind_behind (mem_behind.mp h).2

theorem mem_of_mem_keysFrom {keys : List κ} {token : Option κ} {k : κ}
    (h : k ∈ keysFrom keys token) : k ∈ keys := by
  cases token with
  | none => exact h
  | some token => exact (mem_behind.mp h).1

/-- The token of a page is a key. -/
theorem mem_keys_of_next {listed : κ → Bool} {size : Nat} {keys : List κ} {token : Option κ}
    {later : κ} (h : (page listed size (keysFrom keys token)).next = some later) :
    ∀ t ∈ some later, t ∈ keys := by
  intro t ht
  obtain rfl : later = t := Option.mem_some_iff.mp ht
  obtain ⟨front, stop, back, hbreaks⟩ := page_breaks h
  exact mem_of_mem_keysFrom hbreaks.last_mem.1

section Client

variable {ρ : Type} {fetch : Option κ → Option ρ} {next : ρ → Option κ}
  {Shows : ρ → Page κ → Prop} {listed : κ → Bool} {size : Nat} {keys : List κ}
  {token : Option κ} {replies : List ρ} {pages : List (Page κ)}

/-- A client whose replies show the pages reads all of them.  It only sends keys. -/
theorem Follows.exists_pages (h : Follows fetch next token replies)
    (hfetch : ∀ token reply, (∀ t ∈ token, t ∈ keys) → fetch token = some reply →
      Shows reply (page listed size (keysFrom keys token)) ∧
        next reply = (page listed size (keysFrom keys token)).next)
    (htoken : ∀ t ∈ token, t ∈ keys) :
    ∃ pages, Pages listed size (keysFrom keys token) pages ∧
      List.Forall₂ Shows replies pages := by
  induction h with
  | last hreply hend =>
      obtain ⟨hshows, hnext⟩ := hfetch _ _ htoken hreply
      exact ⟨_, .last (hnext.symm.trans hend), .cons hshows .nil⟩
  | @more token reply later replies hreply hnext hrest ih =>
      obtain ⟨hshows, hpage⟩ := hfetch _ _ htoken hreply
      have hlater := hpage.symm.trans hnext
      obtain ⟨front, stop, back, hbreaks⟩ := page_breaks hlater
      obtain ⟨pages, hpages, hall⟩ := ih (mem_keys_of_next hlater)
      rw [← behind_keysFrom hbreaks.last_mem.1] at hpages
      exact ⟨_, .more hlater hpages, .cons hshows hall⟩

/-- A client that gets a reply to every key it sends comes to an end. -/
theorem Pages.exists_follows (h : Pages listed size (keysFrom keys token) pages)
    (hreply : ∀ token, (∀ t ∈ token, t ∈ keys) → ∃ reply, fetch token = some reply ∧
      next reply = (page listed size (keysFrom keys token)).next)
    (htoken : ∀ t ∈ token, t ∈ keys) :
    ∃ replies, Follows fetch next token replies := by
  generalize hfrom : keysFrom keys token = from' at h
  induction h generalizing token with
  | last hend =>
      subst hfrom
      obtain ⟨reply, hok, hnext⟩ := hreply token htoken
      exact ⟨_, .last hok (hnext.trans hend)⟩
  | more hnext hrest ih =>
      subst hfrom
      obtain ⟨reply, hok, hpage⟩ := hreply token htoken
      obtain ⟨front, stop, back, hbreaks⟩ := page_breaks hnext
      obtain ⟨replies, hfollows⟩ :=
        ih (mem_keys_of_next hnext) (behind_keysFrom hbreaks.last_mem.1).symm
      exact ⟨_, .more hok (hpage.trans hnext) hfollows⟩

omit [LinearOrder κ] in
theorem exists_reply (h : List.Forall₂ Shows replies pages) {p : Page κ} (hp : p ∈ pages) :
    ∃ reply ∈ replies, Shows reply p := by
  induction h with
  | nil => cases hp
  | cons hshows _ ih =>
      rcases List.mem_cons.mp hp with rfl | hp
      · exact ⟨_, List.mem_cons_self, hshows⟩
      · obtain ⟨reply, hreply, hlater⟩ := ih hp
        exact ⟨reply, List.mem_cons_of_mem _ hreply, hlater⟩

omit [LinearOrder κ] in
/-- A client whose replies all have a token never comes to an end. -/
theorem not_follows_of_more
    (hmore : ∀ token reply, fetch token = some reply → next reply ≠ none) :
    ¬Follows fetch next token replies := by
  intro h
  induction h with
  | last hreply hend => exact hmore _ _ hreply hend
  | more _ _ _ ih => exact ih

end Client

/-! ## What the replies contain -/

/-- The reply shows the page: its listed keys, and once each group that is passed. -/
structure Renders {ρ : Type} (objects : ρ → List κ) (groups : ρ → List γ) (group : κ → γ)
    (reply : ρ) (p : Page κ) : Prop where
  shown : objects reply = p.shown
  distinct : (groups reply).Nodup
  passed : ∀ g, g ∈ groups reply ↔ ∃ k ∈ p.passed, group k = g

namespace Renders

variable {ρ : Type} {objects : ρ → List κ} {groups : ρ → List γ} {group : κ → γ}
  {listed : κ → Bool} {size : Nat} {keys : List κ} {replies : List ρ} {pages : List (Page κ)}

omit [LinearOrder κ] in
theorem flatMap_objects (h : List.Forall₂ (Renders objects groups group) replies pages) :
    replies.flatMap objects = pages.flatMap (·.shown) := by
  induction h with
  | nil => rfl
  | cons hrenders _ ih => rw [List.flatMap_cons, List.flatMap_cons, hrenders.shown, ih]

omit [LinearOrder κ] in
theorem mem_flatMap_groups (h : List.Forall₂ (Renders objects groups group) replies pages)
    {g : γ} :
    g ∈ replies.flatMap groups ↔ ∃ p ∈ pages, ∃ k ∈ p.passed, group k = g := by
  induction h with
  | nil => simp
  | cons hrenders _ ih => simp [List.flatMap_cons, hrenders.passed, ih]

omit [LinearOrder κ] in
theorem nodup_flatMap_groups_iff
    (h : List.Forall₂ (Renders objects groups group) replies pages) :
    (replies.flatMap groups).Nodup ↔ pages.Pairwise (Apart group) := by
  induction h with
  | nil => simp
  | @cons reply p replies pages hrenders hrest ih =>
      rw [List.flatMap_cons, List.nodup_append, List.pairwise_cons, ih]
      constructor
      · rintro ⟨-, hapart, hdisjoint⟩
        refine ⟨fun q hq x hx y hy hgroup => ?_, hapart⟩
        have hhere : group x ∈ groups reply := (hrenders.passed _).mpr ⟨x, hx, rfl⟩
        have hlater : group y ∈ replies.flatMap groups :=
          (mem_flatMap_groups hrest).mpr ⟨q, hq, y, hy, rfl⟩
        exact hdisjoint _ hhere _ hlater hgroup
      · rintro ⟨hfirst, hapart⟩
        refine ⟨hrenders.distinct, hapart, fun g hg g' hg' heq => ?_⟩
        obtain ⟨x, hx, hgx⟩ := (hrenders.passed g).mp hg
        obtain ⟨q, hq, y, hy, hgy⟩ := (mem_flatMap_groups hrest).mp hg'
        exact hfirst q hq x hx y hy (by rw [hgx, hgy, heq])

/-- **A client reads nothing twice** exactly when the pages end well. -/
theorem once_iff (h : List.Forall₂ (Renders objects groups group) replies pages)
    (hpages : Pages listed size keys pages) (hsize : 0 < size)
    (hsorted : keys.Pairwise (· ≤ ·)) :
    ((replies.flatMap objects).Nodup ∧ (replies.flatMap groups).Nodup) ↔
      EndsWell listed group size keys := by
  rw [flatMap_objects h, nodup_flatMap_groups_iff h, hpages.once_iff hsize hsorted]

end Renders

end KeysetPaging
