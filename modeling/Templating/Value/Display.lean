import Templating.Number.Shortest
import Templating.Value.Basic

/-!
# Display

The text that a value is spliced into a template with.  It is the text that a
script engine turns the value into.

* Strings stand for themselves and `null`, `true` and `false` for their names.
* An array is its elements joined by commas, with nothing for a null element.
* Every object has the same text.
* An integer is its decimal numeral.
* A double that is a whole number below `10 ^ 21` has its exact digits, without
  a point.  Any other double has its shortest decimal.  That is written with a
  point from `10 ^ (-6)` up to `10 ^ 21`, and with an exponent outside.
-/

namespace Templating

/-! ## Numbers -/

namespace Decimal

/-- A decimal written with a point, with at least one digit before it. -/
def positional (d : Decimal) : Text :=
  let digits := Text.ofNat d.digits
  let places := (-d.exponent).toNat
  if places = 0 then digits ++ List.replicate d.exponent.toNat '0'
  else
    let padded := List.replicate (places + 1 - digits.length) '0' ++ digits
    padded.take (padded.length - places) ++ '.' :: padded.drop (padded.length - places)

/-- A decimal written with one digit before the point and a power of ten.  The
power always carries a sign. -/
def scientific (d : Decimal) : Text :=
  let digits := Text.ofNat d.digits
  let fraction := digits.drop 1
  let power := d.exponent + fraction.length
  digits.take 1 ++ (if fraction = [] then [] else '.' :: fraction) ++
    'e' :: (if power < 0 then Text.ofInt power else '+' :: Text.ofInt power)

end Decimal

namespace Double

/-- The magnitude from which on a double is written with a point. -/
def positionalFrom : Nat := (ofDecimal false 1 (-6)).magnitude

/-- The magnitude from which on a double is written with an exponent. -/
def scientificFrom : Nat := (ofDecimal false 1 21).magnitude

/-- The text of the absolute value of a finite double other than zero. -/
def displayMagnitude (x : Double) : Text :=
  if positionalFrom ≤ x.magnitude ∧ x.magnitude < scientificFrom then
    match x.whole? with
    | some n => Text.ofNat n
    | none => x.shortest.positional
  else x.shortest.scientific

/-- The text of a double.  Zero has no sign. -/
def display (x : Double) : Text :=
  if x.isNaN then ['N', 'a', 'N']
  else if x.magnitude = 0 then ['0']
  else
    (if x.negative then ['-'] else []) ++
      if x.isFinite then x.displayMagnitude else ['I', 'n', 'f', 'i', 'n', 'i', 't', 'y']

end Double

/-- The text of a number. -/
def Number.display : Number → Text
  | .int n => Text.ofInt n
  | .double x => x.display

/-! ## Values -/

namespace Value

/-- The text of null where it stands alone. -/
def nullText : Text := ['n', 'u', 'l', 'l']

/-- The text of a truth value. -/
def boolText (b : Bool) : Text :=
  if b then ['t', 'r', 'u', 'e'] else ['f', 'a', 'l', 's', 'e']

/-- The text of every object. -/
def objectText : Text :=
  ['[', 'o', 'b', 'j', 'e', 'c', 't', ' ', 'O', 'b', 'j', 'e', 'c', 't', ']']

mutual

/-- The text of a value. -/
def display : Value → Text
  | .null => nullText
  | .bool b => boolText b
  | .num n => n.display
  | .str t => t
  | .arr items => Text.join ',' (displayItems items)
  | .obj _ => objectText

/-- The texts of the elements of an array.  A null element has none. -/
def displayItems : List Value → List Text
  | [] => []
  | .null :: rest => [] :: displayItems rest
  | v :: rest => display v :: displayItems rest

end

example : display (.arr [ofNat 1, .arr [.null, .bool true], .null]) =
    ['1', ',', ',', 't', 'r', 'u', 'e', ','] := by decide +kernel
example : Double.display ⟨true, 0, by decide⟩ = ['0'] := by decide +kernel
example : (Double.ofDecimal true 15 (-8)).display = ['-', '1', '.', '5', 'e', '-', '7'] := by
  decide +kernel
example : (Double.ofDecimal false 1 21).display = ['1', 'e', '+', '2', '1'] := by decide +kernel
example : (Double.ofDecimal false 25 (-3)).display = ['0', '.', '0', '2', '5'] := by decide +kernel
example : (Double.ofDecimal false 2 0).display = ['2'] := by decide +kernel

end Value

end Templating
