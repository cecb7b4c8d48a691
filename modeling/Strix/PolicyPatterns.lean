import Strix.Policies
import Strix.WildcardCuts
import Mathlib.Data.List.Infix

/-!
# Patterns of policies

`matchesWildcard` fills a table, row by row.

* `matchesWildcard_iff`: it finds out whether the pattern matches the text;
* `matchesWildcard_replaces`: that is, whether the text comes out of the pattern
  when its wildcards are replaced;
* `reachesArn_iff`: for which patterns some resource's name matches.
-/

namespace Strix

open Wildcards

/-- What a character of a pattern stands for. -/
def wildOf (c : Char) : Wild Char :=
  if c = '*' then .many
  else if c = '?' then .one
  else .lit c

theorem wildOf_ne_many {c : Char} (hc : c ≠ '*') : wildOf c ≠ .many := by
  unfold wildOf
  rw [if_neg hc]
  by_cases hone : c = '?'
  · simp [hone]
  · simp [hone]

/-- A character other than `*` stands for a character if it is `?` or that one. -/
theorem single_wildOf {c d : Char} (hc : c ≠ '*') :
    Single (wildOf c) d ↔ c = '?' ∨ c = d := by
  unfold wildOf
  rw [if_neg hc]
  by_cases hone : c = '?'
  · simp [hone, Single]
  · simp [hone, Single]

/-! ## The table -/

/-- A function holds of the front parts that the pattern matches. -/
def Tells (f : List Char → Bool) (p : List Char) : Prop :=
  ∀ v, f v = true ↔ Matches (p.map wildOf) v

/-- **One row from the row above**: the cells behind the first one. -/
theorem wildcardRow_eq {f g : List Char → Bool} {p : List Char} {c : Char}
    (hf : Tells f p) (hg : Tells g (p ++ [c])) (front v : List Char) :
    g front :: wildcardRow c (prefixes f front v) v (g front) = prefixes g front v := by
  induction v generalizing front with
  | nil =>
      unfold prefixes
      rfl
  | cons d v ih =>
      have hcell : (if c = '*' then (prefixes f (front ++ [d]) v).headD false || g front
          else if c = '?' ∨ c = d then f front else false) = g (front ++ [d]) := by
        obtain ⟨row, hrow⟩ := prefixes_eq_cons f (front ++ [d]) v
        rw [hrow, List.headD_cons, Bool.eq_iff_iff, hg]
        rw [List.map_append, List.map_singleton]
        by_cases hc : c = '*'
        · have hmany : wildOf c = .many := if_pos hc
          have hleft := hg front
          rw [List.map_append, List.map_singleton, hmany] at hleft
          rw [if_pos hc, hmany, matches_many_snoc, Bool.or_eq_true, hf, hleft]
        · rw [if_neg hc, matches_single_snoc (wildOf_ne_many hc), single_wildOf hc]
          by_cases hone : c = '?' ∨ c = d
          · simp [hone, hf front]
          · simp [hone]
      rw [prefixes, prefixes, wildcardRow, hcell, ih]

/-- The row of the next character of the pattern. -/
theorem wildcardStep_eq {f g : List Char → Bool} {p : List Char} {c : Char}
    (hf : Tells f p) (hg : Tells g (p ++ [c])) (v : List Char) :
    wildcardStep v (prefixes f [] v) c = prefixes g [] v := by
  have hfirst : (if c = '*' then (prefixes f [] v).headD false else false) = g [] := by
    obtain ⟨row, hrow⟩ := prefixes_eq_cons f [] v
    rw [hrow, List.headD_cons, Bool.eq_iff_iff, hg]
    rw [List.map_append, List.map_singleton]
    by_cases hc : c = '*'
    · have hmany : wildOf c = .many := if_pos hc
      rw [if_pos hc, hmany, matches_many_nil, hf]
    · have hno := @not_matches_single_nil _ (p.map wildOf) _ (wildOf_ne_many hc)
      simp [hc, hno]
  unfold wildcardStep
  rw [hfirst]
  exact wildcardRow_eq hf hg [] v

/-- The first row is that of the empty pattern. -/
theorem wildcardTop_eq {f : List Char → Bool} (hf : Tells f []) (v : List Char) :
    wildcardTop v = prefixes f [] v := by
  have hempty : f [] = true := (hf []).mpr rfl
  have hrest (front w : List Char) (hfront : front ≠ []) :
      prefixes f front w = false :: w.map fun _ => false := by
    have hfalse : ∀ u : List Char, u ≠ [] → f u = false := by
      intro u hu
      by_contra htrue
      exact hu ((hf u).mp (eq_true_of_ne_false htrue))
    induction w generalizing front with
    | nil => simp [prefixes, hfalse front hfront]
    | cons a w ih => simp [prefixes, hfalse front hfront, ih (front ++ [a]) (by simp)]
  unfold wildcardTop
  cases v with
  | nil => simp [prefixes, hempty]
  | cons a v => simp [prefixes, hempty, hrest [a] v (by simp)]

open Classical in
/-- The rows of the table hold the values of the matching relation. -/
theorem foldl_wildcardStep (v pattern front : List Char) {f : List Char → Bool}
    (hf : Tells f front) :
    pattern.foldl (wildcardStep v) (prefixes f [] v) =
      prefixes (fun w => decide (Matches ((front ++ pattern).map wildOf) w)) [] v := by
  induction pattern generalizing front f with
  | nil =>
      have hsame : f = fun w => decide (Matches (front.map wildOf) w) := by
        funext w
        rw [Bool.eq_iff_iff, hf, decide_eq_true_iff]
      rw [List.append_nil, ← hsame]
      rfl
  | cons c pattern ih =>
      have hg : Tells (fun w => decide (Matches ((front ++ [c]).map wildOf) w)) (front ++ [c]) :=
        fun w => decide_eq_true_iff
      rw [List.foldl_cons, wildcardStep_eq hf hg, ih (front ++ [c]) hg, List.append_assoc]
      rfl

/-- **`matches_wildcard` decides the matching relation.** -/
theorem matchesWildcard_iff (pattern value : String) :
    matchesWildcard pattern value = true ↔
      Matches (pattern.toList.map wildOf) value.toList := by
  classical
  unfold matchesWildcard
  by_cases hstar : pattern = "*"
  · rw [if_pos hstar, hstar]
    exact iff_of_true rfl (matches_singleton.mpr trivial)
  · have hempty : Tells (fun w => decide (Matches (([] : List Char).map wildOf) w)) [] :=
      fun w => decide_eq_true_iff
    rw [if_neg hstar]
    dsimp only
    rw [wildcardTop_eq hempty, foldl_wildcardStep _ _ [] hempty, getLastD_prefixes]
    rw [List.nil_append, List.nil_append, decide_eq_true_iff]

/-- What a character of a pattern may be replaced by: `*` by any text, `?` by one
character, every other character by itself. -/
def Replaces (c : Char) (piece : List Char) : Prop :=
  if c = '*' then True
  else if c = '?' then piece.length = 1
  else piece = [c]

/-- These are the texts that the character stands for. -/
theorem covers_wildOf (c : Char) (piece : List Char) :
    Covers (wildOf c) piece ↔ Replaces c piece := by
  unfold wildOf Replaces
  by_cases hmany : c = '*'
  · rw [if_pos hmany, if_pos hmany]
    exact Iff.rfl
  · rw [if_neg hmany, if_neg hmany]
    by_cases hone : c = '?'
    · rw [if_pos hone, if_pos hone, List.length_eq_one_iff]
      exact Iff.rfl
    · rw [if_neg hone, if_neg hone]
      exact Iff.rfl

/-- **Glob matching.**  A text matches a pattern exactly when it comes out of the
pattern by replacing each `*` by some text and each `?` by some character. -/
theorem matchesWildcard_replaces (pattern value : String) :
    matchesWildcard pattern value = true ↔
      ∃ pieces, List.Forall₂ Replaces pattern.toList pieces ∧
        value = String.ofList pieces.flatten := by
  rw [matchesWildcard_iff, matches_iff_pieces]
  refine exists_congr fun pieces => and_congr ?_ ?_
  · rw [List.forall₂_map_left_iff]
    simp only [covers_wildOf]
  · rw [← String.toList_inj, String.toList_ofList]

/-- A pattern without `*` and `?` matches itself only. -/
theorem matchesWildcard_plain {pattern : String}
    (hplain : ∀ c ∈ pattern.toList, c ≠ '*' ∧ c ≠ '?') (value : String) :
    matchesWildcard pattern value = true ↔ value = pattern := by
  have hlit : pattern.toList.map wildOf = pattern.toList.map .lit := by
    refine List.map_congr_left fun c hc => ?_
    obtain ⟨hmany, hone⟩ := hplain c hc
    rw [wildOf, if_neg hmany, if_neg hone]
  rw [matchesWildcard_iff, hlit, matches_map_lit, String.toList_inj]

/-- Every action's name matches the pattern for all of them. -/
theorem matchesWildcard_everyAction (action : Action) :
    matchesWildcard "s3:*" action.toString = true := by
  cases action <;> decide +kernel

/-- A list of action patterns matches an action if one of them matches its name:
the two patterns that are tried first match every name anyway. -/
theorem anyActionMatches_iff (patterns : List String) (action : Action) :
    anyActionMatches patterns action = true ↔
      ∃ pattern ∈ patterns, matchesWildcard pattern action.toString = true := by
  unfold anyActionMatches
  rw [List.any_eq_true]
  refine exists_congr fun pattern => and_congr_right fun _ => ?_
  rw [Bool.or_eq_true, Bool.or_eq_true, beq_iff_eq, beq_iff_eq]
  constructor
  · intro h
    rcases h with (rfl | rfl) | h
    · exact if_pos rfl
    · exact matchesWildcard_everyAction action
    · exact h
  · exact Or.inr

/-- A list of resource patterns matches a resource if one of them matches its
name. -/
theorem anyResourceMatches_iff (patterns : List String) (resource : Resource) :
    anyResourceMatches patterns resource = true ↔
      ∃ pattern ∈ patterns, matchesWildcard pattern resource.toString = true := by
  unfold anyResourceMatches
  rw [List.any_eq_true]
  refine exists_congr fun pattern => and_congr_right fun _ => ?_
  rw [Bool.or_eq_true, beq_iff_eq]
  constructor
  · intro h
    rcases h with rfl | h
    · exact if_pos rfl
    · exact h
  · exact Or.inr

/-! ## Names of resources -/

/-- What the names of buckets and objects start with. -/
def arnHead : String := "arn:aws:s3:::"

/-- A bucket or an object. -/
def Resource.Named (resource : Resource) : Prop :=
  resource.bucket ≠ none

/-- The name of a bucket or an object starts with the head. -/
theorem Resource.toString_named {resource : Resource} (h : resource.Named) :
    ∃ rest, resource.toString = arnHead ++ rest := by
  obtain ⟨bucket, key⟩ := resource
  cases bucket with
  | none => exact absurd rfl h
  | some b =>
      cases key with
      | none => exact ⟨b, rfl⟩
      | some k =>
          refine ⟨b ++ "/" ++ k, ?_⟩
          simp only [Resource.toString, arnHead, String.append_assoc]

/-- A front part of the pattern matches the head of the names. -/
def reachesArn (pattern : String) : Bool :=
  pattern.toList.inits.any fun front => matchesWildcard (String.ofList front) arnHead

/-- **The patterns that reach the names** are those that match the name of some
bucket. -/
theorem reachesArn_iff (pattern : String) :
    reachesArn pattern = true ↔
      ∃ bucket, matchesWildcard pattern (Resource.ofBucket bucket).toString = true := by
  have hname (bucket : String) :
      (Resource.ofBucket bucket).toString.toList = arnHead.toList ++ bucket.toList :=
    String.toList_append
  have htexts : (∃ bucket, matchesWildcard pattern (Resource.ofBucket bucket).toString = true) ↔
      ∃ tail, Matches (pattern.toList.map wildOf) (arnHead.toList ++ tail) := by
    constructor
    · intro h
      obtain ⟨bucket, hmatches⟩ := h
      rw [matchesWildcard_iff, hname] at hmatches
      exact ⟨bucket.toList, hmatches⟩
    · intro h
      obtain ⟨tail, hmatches⟩ := h
      refine ⟨String.ofList tail, ?_⟩
      rw [matchesWildcard_iff, hname, String.toList_ofList]
      exact hmatches
  rw [htexts, exists_matches_append_iff]
  unfold reachesArn
  simp only [List.any_eq_true, List.mem_inits, matchesWildcard_iff, String.toList_ofList]
  constructor
  · intro h
    obtain ⟨front, ⟨back, hsplit⟩, hfront⟩ := h
    refine ⟨front.map wildOf, back.map wildOf, ?_, hfront⟩
    rw [← List.map_append, hsplit]
  · intro h
    obtain ⟨front, back, hsplit, hfront⟩ := h
    obtain ⟨fronts, backs, hwhole, rfl, -⟩ := List.map_eq_append_iff.mp hsplit
    exact ⟨fronts, ⟨backs, hwhole.symm⟩, hfront⟩

end Strix
