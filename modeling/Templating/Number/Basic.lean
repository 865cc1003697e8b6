import Templating.Number.Double
import Templating.Text.Numeral

/-!
# Numbers

A number of a document is an integer or a double.  The two are told apart when
a value is written and when two documents are compared.  Everywhere else a
number is a double, an integer being rounded to the nearest.

`Double.read?` reads a decimal text.  The grammar is a sign, digits with at
most one point among them, and an exponent.  Sign and exponent may be missing,
and digits may stand on one side of the point only.  The result is the nearest
double, so a text out of range reads as an infinity or as zero.
-/

namespace Templating

/-- A number of a document. -/
inductive Number where
  /-- A whole number kept exactly. -/
  | int (n : Int)
  /-- A double. -/
  | double (x : Double)
deriving DecidableEq

/-- The double that a number counts as. -/
def Number.toDouble : Number → Double
  | .int n => .ofInt n
  | .double x => x

/-! ## Reading -/

/-- The digits at the front of a text, and what follows them. -/
def Text.spanDigits (t : Text) : Text × Text := (t.takeWhile Char.isDigit, t.dropWhile Char.isDigit)

/-- Whether a text begins with a minus sign, and what follows a sign. -/
def Text.splitSign : Text → Bool × Text
  | '-' :: t => (true, t)
  | '+' :: t => (false, t)
  | t => (false, t)

/-- Reads the exponent that ends a decimal text.  No text is exponent zero. -/
def Double.readExponent? : Text → Option Int
  | [] => some 0
  | c :: t =>
      if c = 'e' ∨ c = 'E' then
        let (negative, digits) := Text.splitSign t
        (Text.readNat? digits).map fun n => if negative then -(n : Int) else n
      else none

/-- The double nearest to a decimal text. -/
def Double.read? (t : Text) : Option Double :=
  let (negative, t) := Text.splitSign t
  let (before, t) := Text.spanDigits t
  let (behind, t) :=
    match t with
    | '.' :: rest => Text.spanDigits rest
    | _ => ([], t)
  if before ++ behind = [] then none
  else
    (Double.readExponent? t).map fun exponent =>
      .ofDecimal negative (Text.digitsValue (before ++ behind)) (exponent - behind.length)

example : Double.read? ['.', '1', 'e', '+', '1'] = some .one := by decide +kernel
example : Double.read? ['.'] = none ∧ Double.read? ['1', 'e'] = none := by decide +kernel

end Templating
