import Templating.Path.Basic
import Templating.Path.Error
import Templating.Text.Character
import Templating.Text.Repeat

/-!
# Tokens of a path

The smallest parts of an expression: fixed characters, names, integers, number
literals and quoted texts.  A reader takes the text from its place on and gives
what it read with the text that follows, or the reason why it cannot.
-/

namespace Templating.Path

/-- The outcome of reading: what was read, or why it cannot be. -/
abbrev Reading (α : Type) := Except (PathError Text) α

/-! ## Characters and names -/

/-- Reads one fixed character. -/
def expect (c : Char) : Text → Reading Text
  | [] => .error .ended
  | d :: t => if d = c then .ok t else .error (.unexpected (d :: t) d)

/-- Whether a character may stand in a name without quotes. -/
def isNameChar (c : Char) : Bool := c.isAlphanum || c == '_' || c == '$' || c == '-'

/-- Reads a name of one or more name characters. -/
def readName (t : Text) : Reading (Text × Text) :=
  let name := t.takeWhile isNameChar
  if name = [] then .error (.atFront t) else .ok (name, t.dropWhile isNameChar)

/-- The character that an escaped character stands for. -/
def unescape (c : Char) : Char := if c = 'n' then '\n' else if c = 't' then '\t' else c

/-- Reads a quoted text from behind its opening quote to its closing quote. -/
def readQuoted (quote : Char) : Text → Reading (Text × Text)
  | [] => .error .ended
  | '\\' :: [] => .error .ended
  | '\\' :: c :: t => (readQuoted quote t).map fun (text, rest) => (unescape c :: text, rest)
  | c :: t =>
      if c = quote then .ok ([], t)
      else (readQuoted quote t).map fun (text, rest) => (c :: text, rest)

/-! ## Numbers -/

/-- Whether a character begins an integer or a number literal. -/
def startsNumber (c : Char) : Bool := c == '-' || c.isDigit

/-- Whether an integer fits in 64 bits with a sign. -/
def fitsSigned (n : Int) : Bool := -(Nat.pow 2 63 : Int) ≤ n && n < (Nat.pow 2 63 : Int)

/-- An optional minus sign and the digits after it, and what follows. -/
def spanInteger : Text → Text × Text
  | '-' :: t => ('-' :: (Text.spanDigits t).1, (Text.spanDigits t).2)
  | t => Text.spanDigits t

/-- Reads an integer of 64 bits. -/
def readInteger (t : Text) : Reading (Int × Text) :=
  let (numeral, rest) := spanInteger t
  match (Text.readInt? numeral).filter fitsSigned with
  | some n => .ok (n, rest)
  | none => .error (.badNumber numeral)

/-- A point and the digits after it, if there is a digit, and what follows. -/
def spanFraction : Text → Text × Text
  | '.' :: d :: t =>
      if d.isDigit then ('.' :: (Text.spanDigits (d :: t)).1, (Text.spanDigits (d :: t)).2)
      else ([], '.' :: d :: t)
  | t => ([], t)

/-- An optional sign and the digits after it, and what follows. -/
def spanSigned : Text → Text × Text
  | '-' :: t => ('-' :: (Text.spanDigits t).1, (Text.spanDigits t).2)
  | '+' :: t => ('+' :: (Text.spanDigits t).1, (Text.spanDigits t).2)
  | t => Text.spanDigits t

/-- The mark of an exponent with its sign and digits, and what follows. -/
def spanExponent : Text → Text × Text
  | c :: t => if c = 'e' ∨ c = 'E' then (c :: (spanSigned t).1, (spanSigned t).2) else ([], c :: t)
  | [] => ([], [])

/-- Reads a number literal.  An integer that fits stays one, and any other
number is the nearest double, which must be finite. -/
def readNumber (t : Text) : Reading (Number × Text) :=
  let (whole, t) := spanInteger t
  let (fraction, t) := spanFraction t
  let (power, t) := spanExponent t
  let numeral := whole ++ fraction ++ power
  match (Text.readInt? numeral).filter fitsSigned with
  | some n => .ok (.int n, t)
  | none =>
      match (Double.read? numeral).filter Double.isFinite with
      | some x => .ok (.double x, t)
      | none => .error (.badNumber numeral)

end Templating.Path
