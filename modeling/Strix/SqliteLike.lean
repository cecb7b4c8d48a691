import Mathlib.Data.List.Infix

/-!
# The LIKE operator of SQLite

`like pattern text` is `text LIKE pattern` without an ESCAPE clause: a percent
sign stands for any text, an underscore for any one character, and every other
character for itself, up to the case of ASCII letters.

* `like_plain_percent_iff`: a pattern without wildcards, closed by a percent
  sign, selects the texts that start with it up to the case of ASCII letters;
* `like_append_self` and `not_like_escaped`: which patterns match themselves.
-/

namespace SqliteLike

/-- `text LIKE pattern`. -/
def like : List Char → List Char → Bool
  | [], text => text.isEmpty
  | p :: pattern, text =>
    if p = '%' then text.tails.any fun rest => like pattern rest
    else
      match text with
      | [] => false
      | c :: cs => (p == '_' || p.toLower == c.toLower) && like pattern cs

/-- A final percent sign matches whatever remains. -/
@[simp] theorem like_percent (text : List Char) : like ['%'] text = true := by
  simp [like]

theorem like_plain_percent_iff {pattern text : List Char}
    (hplain : ∀ p ∈ pattern, p ≠ '%' ∧ p ≠ '_') :
    like (pattern ++ ['%']) text = true ↔
      pattern.map Char.toLower <+: text.map Char.toLower := by
  induction pattern generalizing text with
  | nil => simp
  | cons p pattern ih =>
      obtain ⟨hpercent, hunderscore⟩ := hplain p List.mem_cons_self
      have hrest : ∀ q ∈ pattern, q ≠ '%' ∧ q ≠ '_' :=
        fun q hq => hplain q (List.mem_cons_of_mem _ hq)
      cases text with
      | nil => simp [like, hpercent]
      | cons c cs =>
          rw [List.map_cons, List.map_cons, List.cons_prefix_cons, ← ih hrest]
          simp [like, hpercent, hunderscore]

/-- Without percent signs a pattern matches itself, in front of whatever follows. -/
theorem like_append_self {front pattern text : List Char} (hplain : ∀ c ∈ front, c ≠ '%') :
    like (front ++ pattern) (front ++ text) = like pattern text := by
  induction front with
  | nil => rfl
  | cons c front ih =>
      have hc : c ≠ '%' := hplain c List.mem_cons_self
      rw [List.cons_append, List.cons_append, like, if_neg hc,
        ih fun d hd => hplain d (List.mem_cons_of_mem _ hd)]
      simp

/-- No text that starts with `front` and a percent sign matches `front` and an escaped one. -/
theorem not_like_escaped {front pattern text : List Char} (hplain : ∀ c ∈ front, c ≠ '%') :
    like (front ++ Char.ofNat 92 :: pattern) (front ++ '%' :: text) = false := by
  rw [like_append_self hplain, like, if_neg (by decide)]
  rfl

end SqliteLike
