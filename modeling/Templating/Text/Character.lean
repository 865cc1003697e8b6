import Templating.Text.Basic

/-!
# Blanks and decimal digits

Two classes of characters of Unicode.

A blank is a character with the property `White_Space`.  There are 25 of them, and
the class has been stable for many versions of the standard.  Blanks may stand
between the parts of a placeholder and of a path, and are trimmed from a text
before it is read as a number.

A decimal digit is a character of general category `Nd`.  These come in runs of
ten, from zero to nine.  The table lists the first code point of each run.  The
placeholders that carry an index or a position accept every decimal digit, but
only the ASCII digits have a value for this library.  An index written in other
digits is recognised as a placeholder and then refused as a number.
-/

namespace Templating

/-! ## Blanks -/

/-- The ranges of blank code points, ends included, in ascending order. -/
def blankRanges : List (Nat × Nat) :=
  [(0x09, 0x0D), (0x20, 0x20), (0x85, 0x85), (0xA0, 0xA0), (0x1680, 0x1680), (0x2000, 0x200A),
    (0x2028, 0x2029), (0x202F, 0x202F), (0x205F, 0x205F), (0x3000, 0x3000)]

/-- Whether a character is a blank. -/
def isBlank (c : Char) : Bool :=
  blankRanges.any fun (low, high) => low ≤ c.toNat && c.toNat ≤ high

namespace Text

/-- A text without its leading blanks. -/
def skipBlanks (t : Text) : Text := t.dropWhile isBlank

/-- A text without its leading and trailing blanks. -/
def trim (t : Text) : Text := (skipBlanks (skipBlanks t).reverse).reverse

end Text

example : (blankRanges.map fun (low, high) => high + 1 - low).sum = 25 := by decide
example : Text.trim ['\u00A0', 'a', ' ', 'b', '\n'] = ['a', ' ', 'b'] := by decide

/-! ## Decimal digits -/

/-- The zeros of the runs of decimal digits, in ascending order. -/
def digitZeros : List Nat :=
  [0x0030, 0x0660, 0x06F0, 0x07C0, 0x0966, 0x09E6, 0x0A66, 0x0AE6, 0x0B66, 0x0BE6, 0x0C66, 0x0CE6,
    0x0D66, 0x0DE6, 0x0E50, 0x0ED0, 0x0F20, 0x1040, 0x1090, 0x17E0, 0x1810, 0x1946, 0x19D0, 0x1A80,
    0x1A90, 0x1B50, 0x1BB0, 0x1C40, 0x1C50, 0xA620, 0xA8D0, 0xA900, 0xA9D0, 0xA9F0, 0xAA50, 0xABF0,
    0xFF10, 0x104A0, 0x10D30, 0x10D40, 0x11066, 0x110F0, 0x11136, 0x111D0, 0x112F0, 0x11450,
    0x114D0, 0x11650, 0x116C0, 0x116D0, 0x116DA, 0x11730, 0x118E0, 0x11950, 0x11BF0, 0x11C50,
    0x11D50, 0x11DA0, 0x11F50, 0x16130, 0x16A60, 0x16AC0, 0x16B50, 0x16D70, 0x1CCF0, 0x1D7CE,
    0x1D7D8, 0x1D7E2, 0x1D7EC, 0x1D7F6, 0x1E140, 0x1E2F0, 0x1E4F0, 0x1E5F1, 0x1E950, 0x1FBF0]

/-- Whether a character is a decimal digit of any script. -/
def isDecimalDigit (c : Char) : Bool :=
  c.isDigit || digitZeros.any fun first => first ≤ c.toNat && c.toNat < first + 10

/-- The ASCII digits are decimal digits. -/
theorem isDecimalDigit_of_isDigit {c : Char} (h : c.isDigit = true) : isDecimalDigit c = true := by
  simp [isDecimalDigit, h]

example : digitZeros.length = 76 := by decide
example : digitZeros.Pairwise (· + 10 ≤ ·) := by decide
example : isDecimalDigit '٣' = true ∧ isDecimalDigit '½' = false := by decide

end Templating
