import Mathlib.Data.List.Basic
import Mathlib.Data.String.Basic

/-!
# Paths and their segments

A path is cut at its slashes; the segments, empty ones included, make up the path
again.  Without the empty ones they make up another path, with fewer slashes.
-/

namespace PathSegments

/-- The segments of a path. -/
def segments (path : String) : List String := (path.toList.splitOn '/').map String.ofList

/-- The segments that are not empty. -/
def nonempty (parts : List String) : List String := parts.filter fun s => !s.isEmpty

theorem intercalate_segments (path : String) : "/".intercalate (segments path) = path := by
  apply String.toList_inj.mp
  rw [String.toList_intercalate, segments, List.map_map]
  have hid : String.toList ∘ String.ofList = id := by
    funext cs
    exact String.toList_ofList
  rw [hid, List.map_id]
  exact List.intercalate_splitOn '/'

/-- A path that goes on after a slash. -/
theorem segments_append (front back : String) :
    segments (front ++ "/" ++ back) = segments front ++ segments back := by
  have hlist : (front ++ "/" ++ back).toList = front.toList ++ '/' :: back.toList := by
    simp
  rw [segments, hlist, List.splitOn_append_cons_self, List.map_append]
  rfl

theorem segments_ne_nil (path : String) : segments path ≠ [] := by
  simp [segments]

/-- A text without a slash is one segment. -/
theorem segments_of_not_mem {text : String} (h : '/' ∉ text.toList) : segments text = [text] := by
  rw [segments, List.splitOn_eq_singleton h]
  simp

theorem not_mem_splitOn {cs part : List Char} (h : part ∈ cs.splitOn '/') : '/' ∉ part := by
  induction cs generalizing part with
  | nil =>
      obtain rfl : part = [] := by simpa using h
      simp
  | cons c cs ih =>
      rw [List.splitOn_cons_eq_if_modifyHead] at h
      by_cases hc : c = '/'
      · rw [if_pos (by simpa using hc)] at h
        rcases List.mem_cons.mp h with rfl | h
        · simp
        · exact ih h
      · rw [if_neg (by simpa using hc)] at h
        cases hsplit : cs.splitOn '/' with
        | nil => exact absurd hsplit (List.splitOn_ne_nil '/' cs)
        | cons first rest =>
            rw [hsplit] at h ih
            rcases List.mem_cons.mp h with rfl | h
            · have hfirst := ih (List.mem_cons_self (l := rest))
              simpa [Ne.symm hc] using hfirst
            · exact ih (List.mem_cons_of_mem first h)

/-- A segment has no slash. -/
theorem not_mem_of_mem_segments {path part : String} (h : part ∈ segments path) :
    '/' ∉ part.toList := by
  obtain ⟨cs, hcs, rfl⟩ := List.mem_map.mp h
  rw [String.toList_ofList]
  exact not_mem_splitOn hcs

/-- The segments that a path is made of are its segments. -/
theorem segments_intercalate {parts : List String} (hparts : parts ≠ [])
    (h : ∀ part ∈ parts, '/' ∉ part.toList) : segments ("/".intercalate parts) = parts := by
  induction parts with
  | nil => exact absurd rfl hparts
  | cons first rest ih =>
      have hfirst := segments_of_not_mem (h first List.mem_cons_self)
      cases rest with
      | nil => simpa using hfirst
      | cons second rest =>
          have hrest := ih (by simp) fun part hpart => h part (List.mem_cons_of_mem first hpart)
          rw [String.intercalate_cons_cons, String.append_assoc, ← String.append_assoc,
            segments_append, hfirst, hrest]
          rfl

/-- The slashes of a path are those between its segments. -/
theorem count_slash_intercalate {parts : List String} (h : ∀ part ∈ parts, '/' ∉ part.toList) :
    ("/".intercalate parts).toList.count '/' = parts.length - 1 := by
  induction parts with
  | nil => rfl
  | cons first rest ih =>
      have hfirst : first.toList.count '/' = 0 :=
        List.count_eq_zero.mpr (h first List.mem_cons_self)
      have hrest := ih fun part hpart => h part (List.mem_cons_of_mem first hpart)
      cases rest with
      | nil => simpa using hfirst
      | cons second rest =>
          rw [String.intercalate_cons_cons, String.toList_append, String.toList_append,
            List.count_append, List.count_append, hfirst, hrest]
          simp
          omega

/-- **Without its empty segments a path has fewer slashes.** -/
theorem nonempty_segments_eq {path : String} (hpath : path ≠ "")
    (h : path.toList.count '/' ≤
      ("/".intercalate (nonempty (segments path))).toList.count '/') :
    nonempty (segments path) = segments path := by
  have hall : ("/".intercalate (segments path)).toList.count '/' = (segments path).length - 1 :=
    count_slash_intercalate fun part hpart => not_mem_of_mem_segments hpart
  rw [intercalate_segments] at hall
  have hkept : ("/".intercalate (nonempty (segments path))).toList.count '/' =
      (nonempty (segments path)).length - 1 :=
    count_slash_intercalate fun part hpart =>
      not_mem_of_mem_segments (List.mem_of_mem_filter hpart)
  have hle : (nonempty (segments path)).length ≤ (segments path).length :=
    List.length_filter_le _ _
  have hpos : 0 < (segments path).length := List.length_pos_iff.mpr (segments_ne_nil path)
  rw [hall, hkept] at h
  apply List.Sublist.eq_of_length List.filter_sublist
  by_cases hone : (segments path).length = 1
  · obtain ⟨only, honly⟩ := List.length_eq_one_iff.mp hone
    have hsame : only = path := by
      have hjoin := intercalate_segments path
      rw [honly] at hjoin
      simpa using hjoin
    subst hsame
    have hkeep : nonempty [only] = [only] := by simpa [nonempty] using hpath
    rw [← nonempty, honly, hkeep]
  · have hlength : (nonempty (segments path)).length = (segments path).length := by omega
    exact hlength

end PathSegments
