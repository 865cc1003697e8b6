import Templating.Json.Token
import Templating.Number.Basic

/-!
# Numerals of JSON

A numeral is digits after an optional minus sign, then perhaps a point with more
digits, then perhaps a power of ten.  A zero before the point stands alone.

A numeral without point and power is an integer, kept exactly, if it fits in 64
bits with or without a sign and is not a negative zero.  Every other numeral is
a double.  The double is computed by the short way, in 64 bits and in doubles.

* The digits are gathered into a number below `2 ^ 64`.  Digits before the point
  that no longer fit are left out and count as a power of ten.  Digits behind
  the point that no longer fit are dropped.
* The number and the power of ten are each rounded to a double, and so is their
  product or quotient.  No double is as large as `10 ^ 309`, so a quotient by a
  power beyond `10 ^ 308` is taken in two steps.

So the double may lie beside the nearest one, and a numeral near the end of the
range may be out of range by its spelling.  A product that is infinite is out of
range, and the numeral is then no JSON here.
-/

namespace Templating.Json

/-! ## Grammar -/

/-- A numeral by its parts. -/
structure Numeral where
  /-- Whether it has a minus sign. -/
  negative : Bool
  /-- The digits before the point. -/
  whole : Text
  /-- The digits behind the point, if there is a point. -/
  fraction : Option Text
  /-- The power of ten, if one is written. -/
  power : Option Int
deriving DecidableEq

/-- Whether a character begins a number. -/
def startsNumber (c : Char) : Bool := c == '-' || c.isDigit

/-- Reads one or more digits. -/
def readDigits : Text → Reading (Text × Text)
  | [] => .error .ended
  | c :: t => if c.isDigit then .ok (Text.spanDigits (c :: t)) else .error .invalid

/-- Reads the digits before the point.  A zero stands alone. -/
def readWhole (t : Text) : Reading (Text × Text) := do
  let (digits, rest) ← readDigits t
  if digits.head? = some '0' ∧ digits.length ≠ 1 then .error .invalid else return (digits, rest)

/-- Reads a point and the digits behind it, if there is a point. -/
def readFraction : Text → Reading (Option Text × Text)
  | '.' :: t => (readDigits t).map fun (digits, rest) => (some digits, rest)
  | t => .ok (none, t)

/-- Reads the mark, the sign and the digits of a power of ten, if there is one. -/
def readPower : Text → Reading (Option Int × Text)
  | [] => .ok (none, [])
  | c :: t =>
      if c = 'e' ∨ c = 'E' then
        let (negative, t) := Text.splitSign t
        (readDigits t).map fun (digits, rest) =>
          let power : Int := Text.digitsValue digits
          (some (if negative then -power else power), rest)
      else .ok (none, c :: t)

/-- Reads the parts of a numeral. -/
def readNumeral (t : Text) : Reading (Numeral × Text) := do
  let (negative, t) := match t with
    | '-' :: t => (true, t)
    | t => (false, t)
  let (whole, t) ← readWhole t
  let (fraction, t) ← readFraction t
  let (power, t) ← readPower t
  return (⟨negative, whole, fraction, power⟩, t)

/-! ## Value -/

/-- The integer that a numeral stands for, if it is one. -/
def Numeral.int? (n : Numeral) : Option Int :=
  if n.fraction.isSome || n.power.isSome then none
  else
    let value := Text.digitsValue n.whole
    if n.negative then
      if 0 < value ∧ value ≤ Nat.pow 2 63 then some (-(value : Int)) else none
    else if value < Nat.pow 2 64 then some value
    else none

/-- Appends digits to a number while it stays below `2 ^ 64`.  Gives the number
and the digits left out. -/
def gather (n : Nat) : Text → Nat × Text
  | [] => (n, [])
  | c :: t =>
      let next := n * 10 + (c.toNat - '0'.toNat)
      if next < Nat.pow 2 64 then gather next t else (n, c :: t)

/-- The digits of a numeral as a number below `2 ^ 64`, and the power of ten that
belongs to it. -/
def Numeral.gathered (n : Numeral) : Nat × Int :=
  let (digits, beyond) := gather 0 n.whole
  let behind := n.fraction.getD []
  let (digits, dropped) := gather digits behind
  let shift : Int := beyond.length - (behind.length - dropped.length)
  (digits, shift + n.power.getD 0)

/-- The double nearest to a power of ten. -/
def tenPower (n : Nat) : Double := .ofRatio false (Nat.pow 10 n) 1

/-- The double for `digits · 10 ^ power` by a product or a quotient of doubles.
It is infinite when it is out of range. -/
def scaled (negative : Bool) (digits : Nat) (power : Int) : Double :=
  let x := Double.ofRatio negative digits 1
  let up := power.toNat
  let down := (-power).toNat
  if digits = 0 then x
  else if 308 < up then .infinity negative
  else if 0 < up then x.mul (tenPower up)
  else if down ≤ 308 then x.div (tenPower down)
  else if down ≤ 616 then (x.div (tenPower 308)).div (tenPower (down - 308))
  else .ofRatio negative 0 1

/-- The number that a numeral stands for, if it is in range. -/
def Numeral.value? (n : Numeral) : Option Number :=
  match n.int? with
  | some i => some (.int i)
  | none =>
      let (digits, power) := n.gathered
      let x := scaled n.negative digits power
      if x.isFinite then some (.double x) else none

/-- Reads a number.  One that is out of range is no JSON here. -/
def readNumber (t : Text) : Reading (Number × Text) := do
  let (numeral, rest) ← readNumeral t
  match numeral.value? with
  | some n => return (n, rest)
  | none => .error .invalid

/-- Passes over a number of any size.  A number cut short is no JSON here. -/
def skipNumber (t : Text) : Reading Text :=
  match readNumeral t with
  | .ok (_, rest) => .ok rest
  | .error _ => .error .invalid

example : (Numeral.mk true ['7'] none none).value? = some (.int (-7)) := by decide +kernel
example : (Numeral.mk true ['0'] none none).value? = some (.double ⟨true, 0, by decide⟩) := by
  decide +kernel
example : (Numeral.mk false ['1'] none (some 0)).value? = some (.double .one) := by decide +kernel
example : (scaled false 17976931348623157 292).isFinite = true := by decide +kernel
example : (scaled false 17976931348623158 292).isFinite = false := by decide +kernel
example : (scaled false 179769313486231590 291).isFinite = true := by decide +kernel
example : scaled false 5 (-324) = ⟨false, 1, by decide⟩ := by decide +kernel

end Templating.Json
