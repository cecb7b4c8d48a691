import Mathlib.Data.List.Basic

/-!
# Words between blanks

A text is split into words at its blanks, and words are joined by a blank.  Splitting is
that of `str::split_whitespace`: every blank separates, and nothing between two blanks is
no word.

* `isWord_of_mem_words`: what a text is split into are words;
* `words_intercalate_iff`: splitting undoes joining exactly if all that was joined are words;
* `splitWhitespace_intercalate_iff`: the same of texts;
* `append_first_inj`, `append_last_inj`: texts agree before and behind their first
  separator, and their last.
-/

namespace SplitWords

section Lists

variable {α : Type} {blank : α → Bool} {sep : α}

/-- The nonempty parts between blanks. -/
def words (blank : α → Bool) (text : List α) : List (List α) :=
  (text.splitOnP blank).filter fun part => !part.isEmpty

/-- Not empty, and without blanks. -/
def IsWord (blank : α → Bool) (part : List α) : Prop :=
  part ≠ [] ∧ ∀ x ∈ part, blank x = false

/-- The parts between blanks have no blanks. -/
theorem not_blank_of_mem_splitOnP {text part : List α} (h : part ∈ text.splitOnP blank) :
    ∀ x ∈ part, blank x = false := by
  induction text generalizing part with
  | nil =>
      have hpart : part = [] := by simpa using h
      intro x hx
      rw [hpart] at hx
      cases hx
  | cons c text ih =>
      rw [List.splitOnP_cons_eq_if_modifyHead] at h
      by_cases hc : blank c = true
      · rw [if_pos hc] at h
        obtain rfl | hmem := List.mem_cons.mp h
        · intro x hx
          cases hx
        · exact ih hmem
      · rw [if_neg hc] at h
        obtain ⟨first, rest, hsplit⟩ :=
          List.exists_cons_of_ne_nil (List.splitOnP_ne_nil blank text)
        rw [hsplit, List.modifyHead_cons] at h
        obtain rfl | hmem := List.mem_cons.mp h
        · have hfirst : ∀ x ∈ first, blank x = false := ih (by simp [hsplit])
          simpa [hc] using hfirst
        · exact ih (by simp [hsplit, hmem])

/-- **What a text is split into are words.** -/
theorem isWord_of_mem_words {text part : List α} (h : part ∈ words blank text) :
    IsWord blank part := by
  obtain ⟨hmem, hne⟩ := List.mem_filter.mp h
  exact ⟨by simpa using hne, not_blank_of_mem_splitOnP hmem⟩

@[simp] theorem words_nil : words blank ([] : List α) = [] := by simp [words]

/-- A word before a blank is the first word. -/
theorem words_append_blank (hsep : blank sep = true) {word : List α} (hword : IsWord blank word)
    (rest : List α) : words blank (word ++ sep :: rest) = word :: words blank rest := by
  obtain ⟨hne, hblanks⟩ := hword
  unfold words
  rw [List.splitOnP_append_cons_of_forall_mem hblanks sep hsep, List.filter_cons_of_pos (by simpa)]

/-- A word alone is its only word. -/
theorem words_word {word : List α} (hword : IsWord blank word) : words blank word = [word] := by
  obtain ⟨hne, hblanks⟩ := hword
  unfold words
  rw [List.splitOnP_eq_singleton hblanks, List.filter_cons_of_pos (by simpa), List.filter_nil]

/-- Words that were joined are split again. -/
theorem words_intercalate (hsep : blank sep = true) {parts : List (List α)}
    (h : ∀ part ∈ parts, IsWord blank part) : words blank ([sep].intercalate parts) = parts := by
  induction parts with
  | nil => simp
  | cons part parts ih =>
      have hpart : IsWord blank part := h part List.mem_cons_self
      have hrest := ih fun part' hpart' => h part' (List.mem_cons_of_mem _ hpart')
      cases parts with
      | nil => rw [List.intercalate_singleton, words_word hpart]
      | cons next parts =>
          rw [List.intercalate_cons_cons, List.append_assoc, List.singleton_append,
            words_append_blank hsep hpart, hrest]

/-- **Splitting undoes joining** exactly if all that was joined are words. -/
theorem words_intercalate_iff (hsep : blank sep = true) (parts : List (List α)) :
    words blank ([sep].intercalate parts) = parts ↔ ∀ part ∈ parts, IsWord blank part := by
  constructor
  · intro h part hpart
    rw [← h] at hpart
    exact isWord_of_mem_words hpart
  · exact words_intercalate hsep

end Lists

/-! ## One separator -/

/-- Two texts agree in what stands before their last separator, and in what stands after. -/
theorem append_last_inj {c : Char} {front front' back back' : List Char} (hback : c ∉ back)
    (hback' : c ∉ back') (h : front ++ c :: back = front' ++ c :: back') :
    front = front' ∧ back = back' := by
  rcases List.append_eq_append_iff.mp h with ⟨middle, hfront, hrest⟩ | ⟨middle, hfront, hrest⟩
  · cases middle with
    | nil => exact ⟨by simpa using hfront.symm, by simpa using hrest⟩
    | cons first middle =>
        -- the separator of the second text would stand behind that of the first
        rw [List.cons_append, List.cons.injEq] at hrest
        exact absurd (hrest.2 ▸ List.mem_append_right _ List.mem_cons_self) hback
  · cases middle with
    | nil => exact ⟨by simpa using hfront, by simpa using hrest.symm⟩
    | cons first middle =>
        rw [List.cons_append, List.cons.injEq] at hrest
        exact absurd (hrest.2 ▸ List.mem_append_right _ List.mem_cons_self) hback'

/-- Two texts agree in what stands before their first separator, and in what stands after. -/
theorem append_first_inj {c : Char} {front front' back back' : List Char} (hfront : c ∉ front)
    (hfront' : c ∉ front') (h : front ++ c :: back = front' ++ c :: back') :
    front = front' ∧ back = back' := by
  have hreverse : back.reverse ++ c :: front.reverse = back'.reverse ++ c :: front'.reverse := by
    have hboth := congrArg List.reverse h
    simpa only [List.reverse_append, List.reverse_cons, List.append_assoc,
      List.singleton_append] using hboth
  obtain ⟨hback, hfronts⟩ := append_last_inj (by simpa using hfront) (by simpa using hfront')
    hreverse
  exact ⟨List.reverse_inj.mp hfronts, List.reverse_inj.mp hback⟩

/-! ## Texts -/

/-- `char::is_whitespace`: the characters with the property `White_Space`. -/
def isWhitespace (c : Char) : Bool :=
  (9 ≤ c.toNat && c.toNat ≤ 13) || c.toNat == 0x20 || c.toNat == 0x85 || c.toNat == 0xA0 ||
    c.toNat == 0x1680 || (0x2000 ≤ c.toNat && c.toNat ≤ 0x200A) || c.toNat == 0x2028 ||
    c.toNat == 0x2029 || c.toNat == 0x202F || c.toNat == 0x205F || c.toNat == 0x3000

/-- `str::split_whitespace`. -/
def splitWhitespace (text : String) : List String :=
  (words isWhitespace text.toList).map String.ofList

/-- A text that is not empty and has no white space. -/
def IsTextWord (text : String) : Prop := IsWord isWhitespace text.toList

/-- **Splitting at white space undoes joining by spaces** exactly if all that was joined are
words. -/
theorem splitWhitespace_intercalate_iff (parts : List String) :
    splitWhitespace (" ".intercalate parts) = parts ↔ ∀ part ∈ parts, IsTextWord part := by
  have hspace : isWhitespace ' ' = true := by decide
  have hjoin : (" ".intercalate parts).toList = [' '].intercalate (parts.map String.toList) := by
    rw [String.toList_intercalate]
    rfl
  have hback : (parts.map String.toList).map String.ofList = parts := by
    simp [Function.comp_def, String.ofList_toList]
  unfold splitWhitespace
  rw [hjoin]
  constructor
  · intro h part hpart
    rw [← h] at hpart
    obtain ⟨word, hword, rfl⟩ := List.mem_map.mp hpart
    unfold IsTextWord
    rw [String.toList_ofList]
    exact isWord_of_mem_words hword
  · intro h
    have hwords := words_intercalate hspace (fun word hword => by
      obtain ⟨part, hpart, rfl⟩ := List.mem_map.mp hword
      exact h part hpart : ∀ word ∈ parts.map String.toList, IsWord isWhitespace word)
    rw [hwords, hback]

end SplitWords
