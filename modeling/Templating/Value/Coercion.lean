import Templating.Text.Character
import Templating.Value.Display

/-!
# Coercion

The filters of a path compare values with the typing rules of a script engine.
An operand is an `Option Value`, with `none` for the undefined value.

* `toNumber` makes a number of anything.  Undefined is not a number, null is
  zero, and a text is read after its blanks are trimmed.  A container is read
  through its text.
* `strictlyEqual` compares values of one kind.  Containers are compared by
  identity, which two operands never share.
* `looselyEqual` puts null and undefined into one class that equals nothing
  else.  A container is replaced by its text when the other side is none.  Then
  two texts are compared as texts and all else as numbers.
* `order?` compares two texts by their UTF-16 units and all else as numbers.
* `truthy` is false of undefined, null, false, zero and the empty text.
-/

namespace Templating.Value

/-! ## Numbers -/

/-- The name of infinity in a text. -/
def infinityText : Text := ['I', 'n', 'f', 'i', 'n', 'i', 't', 'y']

/-- The number that a text stands for. -/
def textToNumber (t : Text) : Double :=
  let t := Text.trim t
  if t = [] then .zero
  else if t = infinityText ∨ t = '+' :: infinityText then .infinity false
  else if t = '-' :: infinityText then .infinity true
  else (Double.read? t).getD .nan

/-- The number that an operand stands for. -/
def toNumber : Option Value → Double
  | none => .nan
  | some .null => .zero
  | some (.bool b) => if b then .one else .zero
  | some (.num n) => n.toDouble
  | some (.str t) => textToNumber t
  | some (.arr items) => textToNumber (Value.arr items).display
  | some (.obj members) => textToNumber (Value.obj members).display

/-- Whether an operand counts as true. -/
def truthy : Option Value → Bool
  | none => false
  | some .null => false
  | some (.bool b) => b
  | some (.num n) => !n.toDouble.isNaN && n.toDouble.magnitude != 0
  | some (.str t) => t ≠ []
  | some (.arr _) => true
  | some (.obj _) => true

/-! ## Equality -/

/-- Whether an operand is null or undefined. -/
def isNullish : Option Value → Bool
  | none => true
  | some v => v.isNull

/-- A container as its text, any other value as it is. -/
def primitive (v : Value) : Value := if v.isContainer then .str v.display else v

/-- Equality of values of one kind. -/
def strictlyEqual : Option Value → Option Value → Bool
  | none, none => true
  | some .null, some .null => true
  | some (.bool a), some (.bool b) => a == b
  | some (.num m), some (.num n) => m.toDouble.equals n.toDouble
  | some (.str s), some (.str t) => s == t
  | _, _ => false

/-- Equality of two values that are no containers and not null. -/
def primitivesEqual : Value → Value → Bool
  | .str s, .str t => s == t
  | v, w => (toNumber (some v)).equals (toNumber (some w))

/-- Equality after coercion. -/
def looselyEqual (left right : Option Value) : Bool :=
  match left, right with
  | some v, some w =>
      if v.isNull || w.isNull then v.isNull && w.isNull
      else if v.isContainer && w.isContainer then false
      else primitivesEqual v.primitive w.primitive
  | left, right => isNullish left && isNullish right

/-! ## Order -/

/-- The order of two operands, if they have one. -/
def order? : Option Value → Option Value → Option Ordering
  | some (.str s), some (.str t) => some (compare (Text.units s) (Text.units t))
  | left, right => (toNumber left).order? (toNumber right)

example : looselyEqual (some (.str [' ', '8', '0'])) (some (ofNat 80)) = true := by
  decide +kernel
example : looselyEqual (some (.arr [ofNat 1])) (some (.str ['1'])) = true := by decide +kernel
example : looselyEqual none (some .null) = true ∧ looselyEqual none (some (ofNat 0)) = false := by
  decide +kernel
example : order? (some (.str ['\uFFFD'])) (some (.str ['😀'])) = some .gt := by decide +kernel
example : order? (some (.str ['b'])) (some (ofNat 1)) = none := by decide +kernel

end Templating.Value
