import Templating.Text.Basic

/-!
# Tokens of JSON

The readers of JSON strings and words, for a reader that goes through a text
once and stops at the first fault.

There are three kinds of fault.  The text may end early, it may be no JSON, or
it may be JSON of a shape that is not wanted.  Which one is reported is the one
met first, so each reader fails at the first character that rules JSON out.

A string is read in one of two ways.  Where its text is wanted, the escapes of
surrogates must come in pairs.  Where it is passed over, they need not.
-/

namespace Templating.Json

/-- Why a text cannot be read. -/
inductive Fault where
  /-- The text ends early. -/
  | ended
  /-- The text is no JSON. -/
  | invalid
  /-- The JSON is not of the shape that is wanted. -/
  | shape
deriving DecidableEq

/-- The outcome of reading: what was read, or the first fault. -/
abbrev Reading (α : Type) := Except Fault α

/-- Whether a character may stand between tokens. -/
def isSpace (c : Char) : Bool := c == ' ' || c == '\n' || c == '\t' || c == '\r'

/-- A text without its leading spaces. -/
def skipSpaces (t : Text) : Text := t.dropWhile isSpace

/-- Reads a fixed character behind spaces. -/
def expect (c : Char) (t : Text) : Reading Text :=
  match skipSpaces t with
  | [] => .error .ended
  | d :: t => if d = c then .ok t else .error .invalid

/-! ## Strings -/

/-- The value of a hexadecimal digit. -/
def hexDigit? (c : Char) : Option Nat :=
  if c.isDigit then some (c.toNat - '0'.toNat)
  else if 'a' ≤ c ∧ c ≤ 'f' then some (c.toNat - 'a'.toNat + 10)
  else if 'A' ≤ c ∧ c ≤ 'F' then some (c.toNat - 'A'.toNat + 10)
  else none

/-- The value of four hexadecimal digits. -/
def hexValue? (a b c d : Char) : Option Nat := do
  return (((← hexDigit? a) * 16 + (← hexDigit? b)) * 16 + (← hexDigit? c)) * 16 + (← hexDigit? d)

/-- The fault of an escape that lacks some of its four digits.  Fewer than four
bytes are an early end. -/
def hexFault (t : Text) : Fault := if Text.byteSize t < 4 then .ended else .invalid

/-- The character that a short escape stands for. -/
def shortEscape? : Char → Option Char
  | '"' => some '"'
  | '\\' => some '\\'
  | '/' => some '/'
  | 'b' => some '\x08'
  | 'f' => some '\x0c'
  | 'n' => some '\n'
  | 'r' => some '\r'
  | 't' => some '\t'
  | _ => none

/-- Whether a number is the first unit of a surrogate pair. -/
def isHighSurrogate (n : Nat) : Bool := 0xD800 ≤ n && n < 0xDC00

/-- Whether a number is the second unit of a surrogate pair. -/
def isLowSurrogate (n : Nat) : Bool := 0xDC00 ≤ n && n < 0xE000

/-- The character of a surrogate pair. -/
def pairChar (high low : Nat) : Char :=
  Char.ofNat (0x10000 + (high - 0xD800) * 0x400 + (low - 0xDC00))

/-- Reads a string from behind its opening quote.  When surrogates are `paired`,
`high` is the first unit of a pair whose second must come next. -/
def readStringFrom (paired : Bool) (high : Option Nat) : Text → Reading (Text × Text)
  | [] => .error .ended
  | '\\' :: [] => .error .ended
  | '\\' :: 'u' :: a :: b :: c :: d :: t =>
      match hexValue? a b c d, high with
      | none, _ => .error (hexFault (a :: b :: c :: d :: t))
      | some n, some high =>
          if isLowSurrogate n then
            (readStringFrom paired none t).map fun (text, rest) => (pairChar high n :: text, rest)
          else .error .invalid
      | some n, none =>
          if paired && isLowSurrogate n then .error .invalid
          else if paired && isHighSurrogate n then readStringFrom paired (some n) t
          else (readStringFrom paired none t).map fun (text, rest) => (Char.ofNat n :: text, rest)
  | '\\' :: 'u' :: t => .error (hexFault t)
  | '\\' :: c :: t =>
      match shortEscape? c, high with
      | some e, none => (readStringFrom paired none t).map fun (text, rest) => (e :: text, rest)
      | _, _ => .error .invalid
  | c :: t =>
      if high.isSome then .error .invalid
      else if c = '"' then .ok ([], t)
      else if c.toNat < 0x20 then .error .invalid
      else (readStringFrom paired none t).map fun (text, rest) => (c :: text, rest)

/-- Reads a string from behind its opening quote. -/
def readString : Text → Reading (Text × Text) := readStringFrom true none

/-- Passes over a string from behind its opening quote. -/
def skipString (t : Text) : Reading Text := (readStringFrom false none t).map (·.2)

/-! ## Words -/

/-- Reads the rest of a word. -/
def expectWord : Text → Text → Reading Text
  | [], t => .ok t
  | _ :: _, [] => .error .ended
  | w :: word, c :: t => if w = c then expectWord word t else .error .invalid

/-- The rest of a word by its first character. -/
def wordRest? (c : Char) : Option Text :=
  if c = 'n' then some ['u', 'l', 'l']
  else if c = 't' then some ['r', 'u', 'e']
  else if c = 'f' then some ['a', 'l', 's', 'e']
  else none

end Templating.Json
