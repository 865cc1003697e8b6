import Templating.Number.Basic

/-!
# Paths

A path picks values out of a document.  It is a list of segments, each of which
replaces every value reached so far by the values that its selector picks from
it.  A child segment applies the selector to the value itself, a descendant
segment to the value and to everything inside it.

A selector is one step, several steps, a slice, all children, or the children
that pass a filter.  A step names one place: a member by its name, or an element
by its index, counted from the end if negative.

A filter is a formula over operands.  An operand is a literal, or the value that
some steps lead to from the child under test.  The same steps serve both, so a
filter reads the places that a path reads.
-/

namespace Templating

/-- One place inside a value. -/
inductive Step where
  /-- The member of that name, or the element whose written index it is. -/
  | name (text : Text)
  /-- The element at that position, or the member of that numeral. -/
  | index (n : Int)
deriving DecidableEq

/-- A constant in a filter. -/
inductive Literal where
  | null
  | bool (b : Bool)
  | num (n : Number)
  | str (t : Text)
deriving DecidableEq

/-- A value in a filter. -/
inductive Operand where
  /-- The value that steps lead to from the child under test. -/
  | current (steps : List Step)
  /-- A constant. -/
  | literal (l : Literal)
deriving DecidableEq

/-- The comparisons of a filter. -/
inductive Comparison where
  | equal
  | unequal
  | strictlyEqual
  | strictlyUnequal
  | less
  | lessOrEqual
  | greater
  | greaterOrEqual
deriving DecidableEq

/-- A test of one value. -/
inductive Filter where
  | or (left right : Filter)
  | and (left right : Filter)
  | not (inner : Filter)
  | compare (left : Operand) (comparison : Comparison) (right : Operand)
  | truthy (operand : Operand)
deriving DecidableEq

/-- What a segment picks from a value. -/
inductive Selector where
  /-- One place. -/
  | step (s : Step)
  /-- The elements from the first position up to, and without, the second. -/
  | slice (start stop : Option Int)
  /-- Every child. -/
  | wildcard
  /-- Several places, in the order written. -/
  | union (steps : List Step)
  /-- The children that pass a test. -/
  | filter (f : Filter)
deriving DecidableEq

/-- A selector and the values it is applied to. -/
inductive Segment where
  /-- To the value itself. -/
  | child (s : Selector)
  /-- To the value and everything inside it. -/
  | descendant (s : Selector)
deriving DecidableEq

/-- A path is its list of segments. -/
abbrev Path := List Segment

/-! ## Symbols -/

namespace Comparison

/-- How a comparison is written. -/
def symbol : Comparison → Text
  | .equal => ['=', '=']
  | .unequal => ['!', '=']
  | .strictlyEqual => ['=', '=', '=']
  | .strictlyUnequal => ['!', '=', '=']
  | .less => ['<']
  | .lessOrEqual => ['<', '=']
  | .greater => ['>']
  | .greaterOrEqual => ['>', '=']

/-- Every comparison.  No symbol comes after one that it extends, so the first
that fits is the longest. -/
def all : List Comparison :=
  [.strictlyEqual, .strictlyUnequal, .equal, .unequal, .lessOrEqual, .greaterOrEqual, .less,
    .greater]

theorem mem_all (c : Comparison) : c ∈ all := by cases c <;> decide

example : all.Pairwise fun c d => ¬c.symbol <+: d.symbol := by decide

end Comparison

end Templating
