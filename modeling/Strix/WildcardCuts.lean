import Strix.Wildcards
import Mathlib.Data.List.Infix

/-!
# Cutting wildcard patterns

A text in two parts matches a pattern if the pattern can be cut so that its parts
match those of the text.  A `many` at the cut may stand for something on both
sides, so it goes to both parts of the pattern.

* `matches_append_text`: a text in two parts against the cuts of the pattern;
* `exists_matches_append_iff`: which patterns match some text with a given head;
* `confined_iff`: which patterns match texts with one name only, where the name is
  what stands before a separator.
-/

namespace Wildcards

variable {α β : Type*} {p : List (Wild α)} {u v : List α}

/-- `many`, and no other symbol. -/
def Wild.isMany : Wild α → Bool
  | .many => true
  | _ => false

theorem Wild.isMany_iff {w : Wild α} : w.isMany = true ↔ w = .many := by
  cases w with
  | many => simp [Wild.isMany]
  | one => simp [Wild.isMany]
  | lit a => simp [Wild.isMany]

/-- **The ways to cut a pattern in two.**  A shared symbol at the cut may be part
of both. -/
def cuts (shared : β → Bool) : List β → List (List β × List β)
  | [] => [([], [])]
  | w :: p =>
      ([], w :: p) ::
        ((if shared w then [([w], w :: p)] else []) ++
          (cuts shared p).map fun cut => (w :: cut.1, cut.2))

/-- The cuts of a pattern, sorted by where they are. -/
theorem mem_cuts_cons {shared : β → Bool} {w : β} {p front back : List β} :
    (front, back) ∈ cuts shared (w :: p) ↔
      (front = [] ∧ back = w :: p) ∨
      (shared w = true ∧ front = [w] ∧ back = w :: p) ∨
      ∃ rest, front = w :: rest ∧ (rest, back) ∈ cuts shared p := by
  rw [cuts, List.mem_cons, List.mem_append, Prod.mk.injEq]
  refine or_congr_right (or_congr ?_ ?_)
  · by_cases hw : shared w = true
    · simp [hw]
    · simp [hw]
  · rw [List.mem_map]
    constructor
    · intro h
      obtain ⟨⟨rest, behind⟩, hmem, heq⟩ := h
      obtain ⟨rfl, rfl⟩ := Prod.mk.inj heq
      exact ⟨rest, rfl, hmem⟩
    · intro h
      obtain ⟨rest, rfl, hmem⟩ := h
      exact ⟨(rest, back), hmem, rfl⟩

/-- A pattern can be cut between any two symbols. -/
theorem mem_cuts_of_append {shared : β → Bool} (front back : List β) :
    (front, back) ∈ cuts shared (front ++ back) := by
  induction front with
  | nil =>
      cases back with
      | nil => exact List.mem_singleton.mpr rfl
      | cons w back => exact mem_cuts_cons.mpr (Or.inl ⟨rfl, rfl⟩)
  | cons w front ih => exact mem_cuts_cons.mpr (Or.inr (Or.inr ⟨front, rfl, ih⟩))

/-- The front part of a cut is a front part of the pattern. -/
theorem isPrefix_of_mem_cuts {shared : β → Bool} {p front back : List β}
    (h : (front, back) ∈ cuts shared p) : front <+: p := by
  induction p generalizing front with
  | nil =>
      obtain ⟨rfl, -⟩ := Prod.mk.inj (List.mem_singleton.mp h)
      exact List.nil_prefix
  | cons w p ih =>
      rcases mem_cuts_cons.mp h with ⟨rfl, -⟩ | ⟨-, rfl, -⟩ | ⟨rest, rfl, hrest⟩
      · exact List.nil_prefix
      · exact ⟨p, rfl⟩
      · exact List.cons_prefix_cons.mpr ⟨rfl, ih hrest⟩

/-- The cuts of a pattern that is spelled in other symbols. -/
theorem cuts_map {γ : Type*} (shared : γ → Bool) (f : β → γ) (p : List β) :
    cuts shared (p.map f) =
      (cuts (fun w => shared (f w)) p).map fun cut => (cut.1.map f, cut.2.map f) := by
  induction p with
  | nil => rfl
  | cons w p ih =>
      rw [List.map_cons, cuts, cuts, ih]
      by_cases hw : shared (f w) = true
      · simp [hw]
      · simp [hw]

/-- Every cut of the pattern puts texts of its two parts together. -/
theorem matches_of_cut {front back : List (Wild α)} (hcut : (front, back) ∈ cuts Wild.isMany p)
    (hfront : Matches front u) (hback : Matches back v) : Matches p (u ++ v) := by
  induction p generalizing front u with
  | nil =>
      obtain ⟨rfl, rfl⟩ := Prod.mk.inj (List.mem_singleton.mp hcut)
      exact matches_append.mpr ⟨u, v, rfl, hfront, hback⟩
  | cons w p ih =>
      rcases mem_cuts_cons.mp hcut with ⟨rfl, rfl⟩ | ⟨hw, rfl, rfl⟩ | ⟨rest, rfl, hrest⟩
      · obtain rfl : u = [] := hfront
        exact hback
      · -- the shared `many` stands for the whole first text and a piece of the second
        obtain rfl := Wild.isMany_iff.mp hw
        obtain ⟨piece, behind, rfl, -, hbehind⟩ := hback
        exact ⟨u ++ piece, behind, (List.append_assoc ..).symm, trivial, hbehind⟩
      · obtain ⟨piece, behind, rfl, hpiece, hbehind⟩ := hfront
        exact ⟨piece, behind ++ v, List.append_assoc .., hpiece, ih hrest hbehind⟩

/-- **A text in two parts** matches a pattern exactly when the pattern can be cut
so that its parts match those of the text. -/
theorem matches_append_text :
    Matches p (u ++ v) ↔
      ∃ front back, (front, back) ∈ cuts Wild.isMany p ∧ Matches front u ∧ Matches back v := by
  constructor
  · intro h
    induction p generalizing u with
    | nil =>
        obtain ⟨rfl, rfl⟩ := List.append_eq_nil_iff.mp h
        exact ⟨[], [], List.mem_singleton.mpr rfl, rfl, rfl⟩
    | cons w p ih =>
        obtain ⟨piece, rest, hsplit, hpiece, hrest⟩ := h
        rcases List.append_eq_append_iff.mp hsplit with ⟨more, rfl, rfl⟩ | ⟨more, rfl, rfl⟩
        · -- the piece reaches to the end of the first text, or beyond it
          by_cases hw : w = .many
          · subst hw
            exact ⟨[.many], .many :: p, mem_cuts_cons.mpr (Or.inr (Or.inl ⟨rfl, rfl, rfl⟩)),
              matches_singleton.mpr trivial, more, rest, rfl, trivial, hrest⟩
          · obtain ⟨a, hone, -⟩ := (covers_iff_single hw).mp hpiece
            cases u with
            | nil =>
                exact ⟨[], w :: p, mem_cuts_cons.mpr (Or.inl ⟨rfl, rfl⟩), rfl,
                  more, rest, rfl, hpiece, hrest⟩
            | cons b u =>
                obtain ⟨rfl, hnil⟩ := List.cons.inj hone
                obtain ⟨rfl, rfl⟩ := List.append_eq_nil_iff.mp hnil
                exact ⟨[w], p, mem_cuts_of_append [w] p, matches_singleton.mpr hpiece, hrest⟩
        · obtain ⟨front, back, hcut, hfront, hback⟩ := ih hrest
          exact ⟨w :: front, back, mem_cuts_cons.mpr (Or.inr (Or.inr ⟨front, rfl, hcut⟩)),
            ⟨piece, more, rfl, hpiece, hfront⟩, hback⟩
  · intro h
    obtain ⟨front, back, hcut, hfront, hback⟩ := h
    exact matches_of_cut hcut hfront hback

/-- **A pattern matches some text that starts with `head`** exactly when a front
part of it matches `head`. -/
theorem exists_matches_append_iff [Nonempty α] {head : List α} :
    (∃ tail, Matches p (head ++ tail)) ↔ ∃ front back, p = front ++ back ∧ Matches front head := by
  constructor
  · intro h
    obtain ⟨tail, h⟩ := h
    obtain ⟨front, back, hcut, hfront, -⟩ := matches_append_text.mp h
    obtain ⟨rest, rfl⟩ := isPrefix_of_mem_cuts hcut
    exact ⟨front, rest, rfl, hfront⟩
  · intro h
    obtain ⟨front, back, rfl, hfront⟩ := h
    obtain ⟨tail, htail⟩ := exists_matches back
    exact ⟨tail, matches_of_cut (mem_cuts_of_append front back) hfront htail⟩

/-! ## Texts over some symbols -/

/-- The literals of the pattern are all of one kind. -/
def Within (ok : α → Prop) (p : List (Wild α)) : Prop :=
  ∀ a, Wild.lit a ∈ p → ok a

/-- A pattern that matches a text has only literals that occur in the text. -/
theorem within_of_matches {ok : α → Prop} (h : Matches p v) (hv : ∀ a ∈ v, ok a) :
    Within ok p := by
  induction p generalizing v with
  | nil =>
      intro a ha
      exact absurd ha List.not_mem_nil
  | cons w p ih =>
      obtain ⟨piece, rest, rfl, hpiece, hrest⟩ := h
      intro a ha
      rcases List.mem_cons.mp ha with rfl | ha
      · obtain rfl : piece = [a] := hpiece
        exact hv a (List.mem_append_left _ (List.mem_singleton_self a))
      · exact ih hrest (fun b hb => hv b (List.mem_append_right _ hb)) a ha

/-- Some text of the kind matches the pattern. -/
theorem exists_matches_within {ok : α → Prop} {a : α} (ha : ok a) (hp : Within ok p) :
    ∃ v, (∀ b ∈ v, ok b) ∧ Matches p v := by
  induction p with
  | nil =>
      refine ⟨[], ?_, rfl⟩
      intro b hb
      exact absurd hb List.not_mem_nil
  | cons w p ih =>
      obtain ⟨v, hv, hmatches⟩ := ih fun b hb => hp b (List.mem_cons_of_mem _ hb)
      cases w with
      | many => exact ⟨v, hv, [], v, rfl, trivial, hmatches⟩
      | one => exact ⟨a :: v, List.forall_mem_cons.mpr ⟨ha, hv⟩, [a], v, rfl, ⟨a, rfl⟩, hmatches⟩
      | lit b =>
          have hb : ok b := hp b List.mem_cons_self
          exact ⟨b :: v, List.forall_mem_cons.mpr ⟨hb, hv⟩, [b], v, rfl, rfl, hmatches⟩

/-- A pattern has only literals, or a placeholder behind some literals. -/
theorem literals_or_placeholder (p : List (Wild α)) :
    (∃ w : List α, p = w.map .lit) ∨
      ∃ (w : List α) (x : Wild α) (rest : List (Wild α)),
        p = w.map .lit ++ x :: rest ∧ ∀ a, Covers x [a] := by
  induction p with
  | nil => exact Or.inl ⟨[], rfl⟩
  | cons x p ih =>
      cases x with
      | many => exact Or.inr ⟨[], .many, p, rfl, fun _ => trivial⟩
      | one => exact Or.inr ⟨[], .one, p, rfl, fun a => ⟨a, rfl⟩⟩
      | lit a =>
          rcases ih with ⟨w, rfl⟩ | ⟨w, x, rest, rfl, hx⟩
          · exact Or.inl ⟨a :: w, rfl⟩
          · exact Or.inr ⟨a :: w, x, rest, rfl, hx⟩

/-- **Patterns for one name**: among the texts of a kind only `own` matches exactly
if the pattern spells it. -/
theorem only_iff {ok : α → Prop} {a b : α} (ha : ok a) (hb : ok b) (hne : a ≠ b)
    {own : List α} (hp : Within ok p) (hnil : p ≠ []) :
    (∀ v, v ≠ [] → (∀ c ∈ v, ok c) → Matches p v → v = own) ↔ p = own.map .lit := by
  constructor
  · intro h
    rcases literals_or_placeholder p with ⟨w, rfl⟩ | ⟨w, x, rest, rfl, hx⟩
    · have hw : w ≠ [] := by simpa using hnil
      have hin : ∀ c ∈ w, ok c := fun c hc => hp c (List.mem_map_of_mem hc)
      rw [h w hw hin (matches_map_lit.mpr rfl)]
    · -- two texts that differ in what the placeholder stands for
      exfalso
      have hin : ∀ c ∈ w, ok c := fun c hc =>
        hp c (List.mem_append_left _ (List.mem_map_of_mem hc))
      obtain ⟨tail, htail, hrest⟩ := exists_matches_within ha fun c hc =>
        hp c (List.mem_append_right _ (List.mem_cons_of_mem _ hc))
      have hown (c : α) (hc : ok c) : w ++ c :: tail = own := by
        refine h _ (by simp) ?_ (matches_append.mpr ⟨w, c :: tail, rfl,
          matches_map_lit.mpr rfl, [c], tail, rfl, hx c, hrest⟩)
        intro d hd
        rcases List.mem_append.mp hd with hd | hd
        · exact hin d hd
        · exact List.forall_mem_cons.mpr ⟨hc, htail⟩ d hd
      have hsame := (hown a ha).trans (hown b hb).symm
      exact hne (List.cons.inj (List.append_cancel_left hsame)).1
  · intro h v _ _ hmatches
    rw [h] at hmatches
    exact matches_map_lit.mp hmatches

/-! ## Names in front of a separator -/

/-- What comes behind the name: nothing, or the separator first. -/
def Behind (sep : α) (tail : List α) : Prop :=
  ∀ a ∈ tail.head?, a = sep

/-- The pattern can match what comes behind a name: it is empty, or its first
symbol can stand for the separator. -/
def Opens (sep : α) (p : List (Wild α)) : Prop :=
  ∀ w ∈ p.head?, Covers w [sep]

theorem opens_iff [Nonempty α] {sep : α} :
    Opens sep p ↔ ∃ tail, Behind sep tail ∧ Matches p tail := by
  cases p with
  | nil =>
      refine iff_of_true ?_ ⟨[], ?_, rfl⟩
      · intro w hw
        cases hw
      · intro a ha
        cases ha
  | cons w p =>
      constructor
      · intro h
        obtain ⟨rest, hrest⟩ := exists_matches p
        refine ⟨sep :: rest, ?_, [sep], rest, rfl, h w rfl, hrest⟩
        intro a ha
        exact (Option.some.inj ha).symm
      · intro h
        obtain ⟨tail, htail, piece, rest, rfl, hpiece, -⟩ := h
        intro x hx
        obtain rfl := Option.some.inj hx
        by_cases hw : w = .many
        · rw [hw]
          trivial
        · obtain ⟨a, rfl, -⟩ := (covers_iff_single hw).mp hpiece
          obtain rfl := htail a rfl
          exact hpiece

/-- **Patterns for what belongs to one name.**  Every text of a name and what
comes behind it that matches has the name `own`, exactly if wherever the pattern
is cut into a part for names and one for what comes behind, the first spells
`own`. -/
theorem confined_iff {ok : α → Prop} {a b : α} (ha : ok a) (hb : ok b) (hne : a ≠ b)
    {sep : α} {own : List α} :
    (∀ name tail, name ≠ [] → (∀ c ∈ name, ok c) → Behind sep tail →
        Matches p (name ++ tail) → name = own) ↔
      ∀ front back, (front, back) ∈ cuts Wild.isMany p →
        front ≠ [] → Within ok front → Opens sep back → front = own.map .lit := by
  have : Nonempty α := ⟨a⟩
  constructor
  · intro h front back hcut hnil hin hopens
    refine (only_iff ha hb hne hin hnil).mp fun v hv hok hmatches => ?_
    obtain ⟨tail, htail, hback⟩ := opens_iff.mp hopens
    exact h v tail hv hok htail (matches_of_cut hcut hmatches hback)
  · intro h name tail hname hok htail hmatches
    obtain ⟨front, back, hcut, hfront, hback⟩ := matches_append_text.mp hmatches
    have hnil : front ≠ [] := by
      intro hnil
      rw [hnil] at hfront
      exact hname hfront
    rw [h front back hcut hnil (within_of_matches hfront hok) (opens_iff.mpr ⟨tail, htail, hback⟩)]
      at hfront
    exact matches_map_lit.mp hfront

end Wildcards
