import Strix.PathSegments

/-!
# Paths of files

A path is a text.  `join` puts a name after it as the path buffer of a Unix system does: an
absolute name takes the place of the path.  Where a path leads is found by walking its
segments from a directory on, and `..` leads back out of one.

* `resolve_join`: a plain name after a path leads to the entry of that name;
* `resolve_join_parent`: `..` after a path leads to the directory around it, so only plain
  names are safe to join.
-/

namespace FilePaths

open PathSegments

/-- The path starts at the root of the file system. -/
def isAbsolute (path : String) : Bool := path.toList.head? == some '/'

/-- A name after the path needs a slash between the two. -/
def needsSeparator (path : String) : Bool := path.toList.getLast?.any (· != '/')

/-- A path with a name after it: `Path::join`. -/
def join (path name : String) : String :=
  if isAbsolute name then name
  else if needsSeparator path then path ++ "/" ++ name
  else path ++ name

/-- The path without its last segment: `Path::parent`. -/
def parent (path : String) : String := "/".intercalate (segments path).dropLast

/-- Walk segments from a directory on. -/
def walk (dir : List String) : List String → List String
  | [] => dir
  | part :: rest =>
      if part = "" ∨ part = "." then walk dir rest
      else if part = ".." then walk dir.dropLast rest
      else walk (dir ++ [part]) rest

/-- Where the path leads, by the names of the directories from the root on. -/
def resolve (cwd : List String) (path : String) : List String :=
  walk (if isAbsolute path then [] else cwd) (segments path)

/-- A name of an entry of a directory. -/
structure PlainName (name : String) : Prop where
  nonempty : name ≠ ""
  slash : '/' ∉ name.toList
  dot : name ≠ "."
  dots : name ≠ ".."

theorem walk_append (dir front back : List String) :
    walk dir (front ++ back) = walk (walk dir front) back := by
  induction front generalizing dir with
  | nil => rfl
  | cons part rest ih =>
      simp only [List.cons_append, walk]
      split
      · exact ih dir
      · split
        · exact ih dir.dropLast
        · exact ih (dir ++ [part])

theorem isAbsolute_of_not_mem {name : String} (h : '/' ∉ name.toList) :
    isAbsolute name = false := by
  rw [isAbsolute, beq_eq_false_iff_ne]
  intro hhead
  exact h (List.mem_of_mem_head? hhead)

/-- Where a path begins does not change with what is put after it. -/
theorem isAbsolute_append {path : String} (h : path ≠ "") (rest : String) :
    isAbsolute (path ++ rest) = isAbsolute path := by
  have hne : path.toList ≠ [] := fun hnil => h (String.toList_eq_nil_iff.mp hnil)
  rw [isAbsolute, isAbsolute, String.toList_append, List.head?_append_of_ne_nil _ hne]

/-- A path that needs no separator is empty or ends in a slash. -/
theorem needsSeparator_false {path : String} (h : needsSeparator path = false) :
    path = "" ∨ ∃ front, path = front ++ "/" := by
  rcases List.eq_nil_or_concat path.toList with hnil | ⟨front, last, hlast⟩
  · exact Or.inl (String.toList_eq_nil_iff.mp hnil)
  · refine Or.inr ⟨String.ofList front, ?_⟩
    rw [needsSeparator, hlast] at h
    have hslash : last = '/' := by simpa using h
    apply String.toList_inj.mp
    rw [hlast, hslash, String.toList_append, String.toList_ofList]
    simp

/-- **What is joined is walked after the path.** -/
theorem resolve_join_eq (cwd : List String) (path : String) {name : String}
    (h : '/' ∉ name.toList) :
    resolve cwd (join path name) = walk (resolve cwd path) [name] := by
  have hname : segments name = [name] := segments_of_not_mem h
  rw [join, isAbsolute_of_not_mem h, if_neg Bool.false_ne_true]
  cases hsep : needsSeparator path with
  | true =>
      have hne : path ≠ "" := by
        intro hempty
        rw [hempty] at hsep
        exact absurd hsep (by decide)
      rw [if_pos rfl, String.append_assoc, resolve, resolve, isAbsolute_append hne,
        ← String.append_assoc, segments_append, hname, walk_append]
  | false =>
      rw [if_neg Bool.false_ne_true]
      rcases needsSeparator_false hsep with rfl | ⟨front, rfl⟩
      · rw [String.empty_append, resolve, isAbsolute_of_not_mem h, hname]
        rfl
      · have hne : front ++ "/" ≠ "" := by
          intro hempty
          have hlist := congrArg String.toList hempty
          simp at hlist
        have hslash : segments (front ++ "/") = segments front ++ [""] := by
          have hcut := segments_append front ""
          rwa [String.append_empty] at hcut
        rw [resolve, resolve, isAbsolute_append hne, segments_append, hslash, hname,
          walk_append, walk_append]
        rfl

/-- **A plain name leads to the entry of that name.** -/
theorem resolve_join (cwd : List String) (path : String) {name : String} (h : PlainName name) :
    resolve cwd (join path name) = resolve cwd path ++ [name] := by
  rw [resolve_join_eq cwd path h.slash, walk, if_neg (by simp [h.nonempty, h.dot]),
    if_neg h.dots, walk]

/-- `..` leads back out. -/
theorem resolve_join_parent (cwd : List String) (path : String) :
    resolve cwd (join path "..") = (resolve cwd path).dropLast := by
  rw [resolve_join_eq cwd path (by decide)]
  rfl

/-- A path that ends in a plain name needs a separator. -/
theorem needsSeparator_join (path : String) {name : String} (h : PlainName name) :
    needsSeparator (join path name) = true := by
  have hends : ∀ front : String, needsSeparator (front ++ name) = true := by
    intro front
    rcases List.eq_nil_or_concat name.toList with hnil | ⟨rest, last, hlast⟩
    · exact absurd (String.toList_eq_nil_iff.mp hnil) h.nonempty
    · have hslash : last ≠ '/' := by
        intro heq
        apply h.slash
        rw [hlast, heq]
        simp
      rw [needsSeparator, String.toList_append, hlast]
      simpa using hslash
  rw [join, isAbsolute_of_not_mem h.slash, if_neg Bool.false_ne_true]
  split
  · exact hends (path ++ "/")
  · exact hends path

/-- The parent of a joined path is the path. -/
theorem parent_join {path name : String} (hsep : needsSeparator path = true)
    (h : '/' ∉ name.toList) : parent (join path name) = path := by
  rw [join, isAbsolute_of_not_mem h, if_neg Bool.false_ne_true, if_pos hsep, parent,
    segments_append, segments_of_not_mem h, List.dropLast_concat, intercalate_segments]

end FilePaths
