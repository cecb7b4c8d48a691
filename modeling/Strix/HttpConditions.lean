import Mathlib.Order.Defs.LinearOrder
import Mathlib.Order.Lattice

/-!
# Conditional requests

A request may be conditional on the entity tag and on the date of modification of the
version that it selects.  There are two steps.  The first asks whether the version is the
one that is meant: `If-Match`, and only without it `If-Unmodified-Since`.  The second asks
whether the client has the version already: `If-None-Match`, and only without it
`If-Modified-Since`.

* `verdict_proceed_iff`: a request proceeds exactly if neither step refuses it.
-/

namespace HttpConditions

structure EntityTag where
  weak : Bool
  value : String
  deriving DecidableEq, Repr

/-- What `If-Match` and `If-None-Match` say. -/
inductive TagCondition
  | any
  | tag (tag : EntityTag)
  deriving DecidableEq, Repr

namespace TagCondition

/-- **Strong comparison** with the strong tag of a version. -/
def isStrongly (value : String) : TagCondition → Bool
  | any => true
  | tag t => !t.weak && t.value == value

/-- **Weak comparison** with the strong tag of a version. -/
def isWeakly (value : String) : TagCondition → Bool
  | any => true
  | tag t => t.value == value

end TagCondition

/-- The conditions of a request, over dates. -/
structure Conditions (δ : Type) where
  ifMatch : Option TagCondition := none
  ifNoneMatch : Option TagCondition := none
  ifModifiedSince : Option δ := none
  ifUnmodifiedSince : Option δ := none
  deriving DecidableEq, Repr

/-- What becomes of a request. -/
inductive Verdict
  | proceed
  | preconditionFailed
  | notModified
  deriving DecidableEq, Repr

namespace Conditions

variable {δ : Type} [LinearOrder δ] (c : Conditions δ) (value : String) (modified : δ)

/-- The version is not the one that is meant. -/
def firstRefuses : Bool :=
  match c.ifMatch with
  | some condition => !condition.isStrongly value
  | none => c.ifUnmodifiedSince.any fun date => date < modified

/-- The client has the version. -/
def secondRefuses : Bool :=
  match c.ifNoneMatch with
  | some condition => condition.isWeakly value
  | none => c.ifModifiedSince.any fun date => modified ≤ date

/-- **The verdict on a version**, by its tag and its date of modification. -/
def verdict : Verdict :=
  if c.firstRefuses value modified then .preconditionFailed
  else if c.secondRefuses value modified then .notModified
  else .proceed

theorem verdict_proceed_iff :
    c.verdict value modified = .proceed ↔
      c.firstRefuses value modified = false ∧ c.secondRefuses value modified = false := by
  unfold verdict
  cases c.firstRefuses value modified <;> cases c.secondRefuses value modified <;> simp

end Conditions

end HttpConditions
