import Strix.KeysetPaging

/-!
# Reading pages while the keys change

A client follows the tokens from page to page, and between two pages keys come and go.  Each
page is that of the keys of its time, behind the last key of the page before.

* `LivePages.mem_shown`, `LivePages.mem_passed`: what is there all the time is not missed;
* `LivePages.ascending`: no key is shown twice;
* `LivePages.full_pages`: new keys cost a page each time they fill one;
* `FollowsLive.livePages`: what the replies of such a client show.
-/

namespace KeysetPaging

variable {κ : Type} [LinearOrder κ]

/-- **The pages of a client**, and the keys at the time of each page. -/
inductive LivePages (listed : κ → Bool) (size : Nat) :
    Option κ → List (List κ) → List (Page κ) → Prop
  | last {token : Option κ} {keys : List κ}
      (hend : (page listed size (keysFrom keys token)).next = none) :
      LivePages listed size token [keys] [page listed size (keysFrom keys token)]
  | more {token : Option κ} {keys : List κ} {later : κ} {times : List (List κ)}
      {pages : List (Page κ)}
      (hnext : (page listed size (keysFrom keys token)).next = some later)
      (hrest : LivePages listed size (some later) times pages) :
      LivePages listed size token (keys :: times) (page listed size (keysFrom keys token) :: pages)

/-- The key is behind the token. -/
def IsBehind (token : Option κ) (k : κ) : Prop := ∀ t ∈ token, t < k

theorem mem_keysFrom {keys : List κ} {token : Option κ} {k : κ} :
    k ∈ keysFrom keys token ↔ k ∈ keys ∧ IsBehind token k := by
  cases token with
  | none => simp [keysFrom, IsBehind]
  | some token => simp [keysFrom, IsBehind]

theorem keysFrom_pairwise {keys : List κ} {R : κ → κ → Prop} (h : keys.Pairwise R)
    (token : Option κ) : (keysFrom keys token).Pairwise R := by
  cases token with
  | none => exact h
  | some token => exact h.filter _

section Pages

variable {listed : κ → Bool} {size : Nat} {token : Option κ} {times : List (List κ)}
  {pages : List (Page κ)} {k : κ}

/-- **A listed key that is there all the time** is on some page. -/
theorem LivePages.mem_shown (h : LivePages listed size token times pages) (hsize : 0 < size)
    (hsorted : ∀ keys ∈ times, keys.Pairwise (· ≤ ·)) (hmem : ∀ keys ∈ times, k ∈ keys)
    (hlisted : listed k = true) (hbehind : IsBehind token k) : ∃ p ∈ pages, k ∈ p.shown := by
  induction h with
  | @last token keys hend =>
      refine ⟨_, List.mem_singleton_self _, ?_⟩
      rw [page_shown, List.take_of_length_le (page_end hend hsize), List.mem_filter, mem_keysFrom]
      exact ⟨⟨hmem _ (List.mem_singleton_self _), hbehind⟩, hlisted⟩
  | @more token keys later times pages hnext _ ih =>
      obtain ⟨front, stop, back, hbreaks⟩ := page_breaks hnext
      have hfrom := keysFrom_pairwise (hsorted keys List.mem_cons_self) token
      have hkey : k ∈ keysFrom keys token :=
        mem_keysFrom.mpr ⟨hmem keys List.mem_cons_self, hbehind⟩
      by_cases hle : k ≤ later
      · refine ⟨_, List.mem_cons_self, ?_⟩
        rw [hbreaks.shown]
        exact hbreaks.mem_front hfrom hkey hlisted hle
      · have hlater : IsBehind (some later) k := fun t ht => Option.some.inj ht ▸ not_le.mp hle
        obtain ⟨p, hp, hshown⟩ := ih (fun keys hkeys => hsorted keys (List.mem_cons_of_mem _ hkeys))
          (fun keys hkeys => hmem keys (List.mem_cons_of_mem _ hkeys)) hlater
        exact ⟨p, List.mem_cons_of_mem _ hp, hshown⟩

/-- **A key that is not listed and is there all the time** is passed by some page. -/
theorem LivePages.mem_passed (h : LivePages listed size token times pages) (hsize : 0 < size)
    (hsorted : ∀ keys ∈ times, keys.Pairwise (· ≤ ·)) (hmem : ∀ keys ∈ times, k ∈ keys)
    (hlisted : listed k = false) (hbehind : IsBehind token k) : ∃ p ∈ pages, k ∈ p.passed := by
  induction h with
  | @last token keys hend =>
      refine ⟨_, List.mem_singleton_self _, ?_⟩
      have hfrom := keysFrom_pairwise (hsorted keys (List.mem_singleton_self _)) token
      rw [passed_iff_of_end (page_end hend hsize) hfrom, mem_keysFrom]
      exact ⟨⟨hmem _ (List.mem_singleton_self _), hbehind⟩, hlisted⟩
  | @more token keys later times pages hnext _ ih =>
      obtain ⟨front, stop, back, hbreaks⟩ := page_breaks hnext
      have hfrom := keysFrom_pairwise (hsorted keys List.mem_cons_self) token
      have hkey : k ∈ keysFrom keys token :=
        mem_keysFrom.mpr ⟨hmem keys List.mem_cons_self, hbehind⟩
      by_cases hlt : k < stop
      · exact ⟨_, List.mem_cons_self, (hbreaks.passed_iff hfrom).mpr ⟨hkey, hlisted, hlt⟩⟩
      · -- the stop is listed, so the key is behind it and behind the last key shown
        have hne : stop ≠ k := by
          rintro rfl
          rw [hbreaks.stop_mem.2] at hlisted
          cases hlisted
        have hstop : stop < k := lt_of_le_of_ne (not_lt.mp hlt) hne
        have hlater : IsBehind (some later) k := fun t ht =>
          Option.some.inj ht ▸ lt_of_le_of_lt (hbreaks.last_le hfrom List.mem_cons_self) hstop
        obtain ⟨p, hp, hpassed⟩ := ih
          (fun keys hkeys => hsorted keys (List.mem_cons_of_mem _ hkeys))
          (fun keys hkeys => hmem keys (List.mem_cons_of_mem _ hkeys)) hlater
        exact ⟨p, List.mem_cons_of_mem _ hp, hpassed⟩

theorem mem_keys_of_shown {keys : List κ} {k : κ}
    (h : k ∈ (page listed size (keysFrom keys token)).shown) :
    k ∈ keys ∧ IsBehind token k ∧ listed k = true := by
  rw [page_shown] at h
  obtain ⟨hfrom, hlisted⟩ := List.mem_filter.mp (List.mem_of_mem_take h)
  obtain ⟨hmem, hbehind⟩ := mem_keysFrom.mp hfrom
  exact ⟨hmem, hbehind, hlisted⟩

/-- **Each page shows keys of its time**. -/
theorem LivePages.of_mem_shown (h : LivePages listed size token times pages) :
    List.Forall₂ (fun keys p => ∀ k ∈ Page.shown p, k ∈ keys ∧ listed k = true) times pages := by
  induction h with
  | last hend =>
      refine .cons (fun k hk => ?_) .nil
      obtain ⟨hmem, -, hlisted⟩ := mem_keys_of_shown hk
      exact ⟨hmem, hlisted⟩
  | more hnext _ ih =>
      refine .cons (fun k hk => ?_) ih
      obtain ⟨hmem, -, hlisted⟩ := mem_keys_of_shown hk
      exact ⟨hmem, hlisted⟩

theorem LivePages.shown_behind (h : LivePages listed size token times pages) {p : Page κ}
    (hp : p ∈ pages) (hk : k ∈ p.shown)
    (hstrict : ∀ keys ∈ times, keys.Pairwise (· < ·)) : IsBehind token k := by
  induction h with
  | last hend =>
      obtain rfl := List.mem_singleton.mp hp
      exact (mem_keys_of_shown hk).2.1
  | @more token keys later times pages hnext _ ih =>
      rcases List.mem_cons.mp hp with rfl | hp
      · exact (mem_keys_of_shown hk).2.1
      · obtain ⟨front, stop, back, hbreaks⟩ := page_breaks hnext
        have hlater := ih hp fun keys hkeys => hstrict keys (List.mem_cons_of_mem _ hkeys)
        have htoken := (mem_keysFrom.mp hbreaks.last_mem.1).2
        exact fun t ht => lt_trans (htoken t ht) (hlater later rfl)

/-- **The keys shown ascend** from page to page, where no key is there twice at any time. -/
theorem LivePages.ascending (h : LivePages listed size token times pages)
    (hstrict : ∀ keys ∈ times, keys.Pairwise (· < ·)) :
    (pages.flatMap (·.shown)).Pairwise (· < ·) := by
  have hpage : ∀ (keys : List κ) (token : Option κ), keys.Pairwise (· < ·) →
      (page listed size (keysFrom keys token)).shown.Pairwise (· < ·) := by
    intro keys token hkeys
    rw [page_shown]
    exact ((keysFrom_pairwise hkeys token).filter _).sublist (List.take_sublist _ _)
  induction h with
  | @last token keys hend =>
      rw [List.flatMap_cons, List.flatMap_nil, List.append_nil]
      exact hpage keys token (hstrict keys (List.mem_singleton_self _))
  | @more token keys later times pages hnext hrest ih =>
      have hkeys := hstrict keys List.mem_cons_self
      have htimes : ∀ keys ∈ times, keys.Pairwise (· < ·) :=
        fun keys hmem => hstrict keys (List.mem_cons_of_mem _ hmem)
      rw [List.flatMap_cons, List.pairwise_append]
      refine ⟨hpage keys token hkeys, ih htimes, fun a ha b hb => ?_⟩
      obtain ⟨front, stop, back, hbreaks⟩ := page_breaks hnext
      rw [hbreaks.shown] at ha
      have hle : a ≤ later :=
        hbreaks.le_last (keysFrom_pairwise (hkeys.imp fun hlt => le_of_lt hlt) token) ha
      obtain ⟨p, hp, hb⟩ := List.mem_flatMap.mp hb
      exact lt_of_le_of_lt hle (hrest.shown_behind hp hb htimes later rfl)

/-- **Every page but the last is full**, so what is shown bounds the pages. -/
theorem LivePages.full_pages (h : LivePages listed size token times pages) :
    pages.length * size ≤ (pages.flatMap (·.shown)).length + size := by
  induction h with
  | last hend => simp
  | more hnext _ ih =>
      obtain ⟨front, stop, back, hbreaks⟩ := page_breaks hnext
      have hfull := congrArg List.length hbreaks.shown
      rw [List.length_append, List.length_singleton, hbreaks.length] at hfull
      rw [List.flatMap_cons, List.length_append, List.length_cons, hfull, Nat.succ_mul]
      omega

end Pages

/-! ## The replies to a client -/

/-- A client that asks one state after another, each time with the token of the reply before. -/
inductive FollowsLive {σ ρ : Type} (fetch : σ → Option κ → Option ρ) (next : ρ → Option κ) :
    Option κ → List σ → List ρ → Prop
  | last {token : Option κ} {s : σ} {reply : ρ} (hreply : fetch s token = some reply)
      (hend : next reply = none) : FollowsLive fetch next token [s] [reply]
  | more {token : Option κ} {s : σ} {reply : ρ} {later : κ} {states : List σ} {replies : List ρ}
      (hreply : fetch s token = some reply) (hnext : next reply = some later)
      (hrest : FollowsLive fetch next (some later) states replies) :
      FollowsLive fetch next token (s :: states) (reply :: replies)

section Replies

variable {σ ρ : Type} {fetch : σ → Option κ → Option ρ} {next : ρ → Option κ}
  {token : Option κ} {states : List σ} {replies : List ρ}

/-- **The replies show the pages** of the keys of each state. -/
theorem FollowsLive.livePages {Shows : ρ → Page κ → Prop} {listed : κ → Bool} {size : Nat}
    {keys : σ → List κ} (h : FollowsLive fetch next token states replies)
    (hfetch : ∀ s ∈ states, ∀ token reply, fetch s token = some reply →
      Shows reply (page listed size (keysFrom (keys s) token)) ∧
        next reply = (page listed size (keysFrom (keys s) token)).next) :
    ∃ pages, LivePages listed size token (states.map keys) pages ∧
      List.Forall₂ Shows replies pages := by
  induction h with
  | @last token s reply hreply hend =>
      obtain ⟨hshows, hnext⟩ := hfetch s (List.mem_singleton_self _) token reply hreply
      exact ⟨_, .last (hnext.symm.trans hend), .cons hshows .nil⟩
  | @more token s reply later states replies hreply hnext _ ih =>
      obtain ⟨hshows, hpage⟩ := hfetch s List.mem_cons_self token reply hreply
      obtain ⟨pages, hpages, hall⟩ := ih fun s' hs' => hfetch s' (List.mem_cons_of_mem _ hs')
      exact ⟨_, .more (hpage.symm.trans hnext) hpages, .cons hshows hall⟩

omit [LinearOrder κ] in
theorem FollowsLive.fetched (h : FollowsLive fetch next token states replies) :
    List.Forall₂ (fun s reply => ∃ token, fetch s token = some reply) states replies := by
  induction h with
  | last hreply _ => exact .cons ⟨_, hreply⟩ .nil
  | more hreply _ _ ih => exact .cons ⟨_, hreply⟩ ih

end Replies

end KeysetPaging
