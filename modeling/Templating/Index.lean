import Templating.Text.Numeral

/-!
# Indexes

An index names a fetched document, an element of an array or a unit of a
string.  It is a natural number below `2 ^ 64`.

Two notations are read.  A *written index* is what a placeholder or a path
holds: digits, possibly after a plus sign, leading zeros allowed.  A
*position key* is a key of a data path that is to name an element: the
canonical numeral and nothing else, so that `01` and `+1` stay ordinary keys.
-/

namespace Templating.Index

/-- Indexes lie below this bound. -/
def bound : Nat := Nat.pow 2 64

/-- An index of a number, if it is small enough. -/
def ofNat? (n : Nat) : Option Nat := if n < bound then some n else none

/-- Reads a written index. -/
def read? : Text → Option Nat
  | '+' :: t => (Text.readNat? t).bind ofNat?
  | t => (Text.readNat? t).bind ofNat?

/-- Reads a position key. -/
def readCanonical? (key : Text) : Option Nat :=
  if key = ['0'] ∨ key.head? ≠ some '0' then (Text.readNat? key).bind ofNat? else none

example : read? ['0', '1', '2'] = some 12 := by decide
example : read? ['+', '5'] = some 5 ∧ read? ['+'] = none ∧ read? ['-', '5'] = none := by decide
example : readCanonical? ['0'] = some 0 := by decide
example : readCanonical? ['0', '1'] = none ∧ readCanonical? ['+', '1'] = none := by decide
example : read? (Text.ofNat (2 ^ 64)) = none := by decide
example : read? (Text.ofNat (2 ^ 64 - 1)) = some (2 ^ 64 - 1) := by decide

end Templating.Index
