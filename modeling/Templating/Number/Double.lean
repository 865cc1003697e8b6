/-!
# Doubles

The numbers of a document that are no integers are IEEE doubles.  A double is
kept as its sign and its *magnitude*, the place of its absolute value among the
non-negative doubles counted from zero.  This is the lower 63 bits of the
encoding read as a number.  Infinity has the place `infinite`, and the places
above it are not numbers.

With `m = significand x` and `e = exponent x` the absolute value of a finite
double is `m · 2 ^ e · 2 ^ (-1074)`.  Everything is computed from that in
natural numbers, so nothing here rounds except `ofRatio` and what is built on
it, which round to the nearest double and ties to the even one.

Comparison goes by the order of places.  Zero equals its negative, and a double
that is not a number equals nothing and has no order.
-/

namespace Templating

/-- A double by sign and magnitude. -/
structure Double where
  /-- Whether the sign is a minus. -/
  negative : Bool
  /-- The place of the absolute value among the non-negative doubles. -/
  magnitude : Nat
  magnitude_lt : magnitude < Nat.pow 2 63 := by decide
deriving DecidableEq

namespace Double

/-! ## Particular doubles -/

/-- The magnitude of infinity. -/
def infinite : Nat := 2047 * Nat.pow 2 52

/-- Zero. -/
def zero : Double := ⟨false, 0, by decide⟩

/-- One. -/
def one : Double := ⟨false, 1023 * Nat.pow 2 52, by decide⟩

/-- Infinity with a sign. -/
def infinity (negative : Bool) : Double := ⟨negative, infinite, by decide⟩

/-- A double that is not a number. -/
def nan : Double := ⟨false, infinite + Nat.pow 2 51, by decide⟩

/-! ## Parts -/

/-- Whether a double is not a number. -/
def isNaN (x : Double) : Bool := infinite < x.magnitude

/-- Whether a double is a number other than an infinity. -/
def isFinite (x : Double) : Bool := x.magnitude < infinite

/-- The significand of a finite double, below `2 ^ 53`. -/
def significand (x : Double) : Nat :=
  if x.magnitude < Nat.pow 2 52 then x.magnitude else Nat.pow 2 52 + x.magnitude % Nat.pow 2 52

/-- The exponent of a finite double, in steps above the smallest. -/
def exponent (x : Double) : Nat := x.magnitude / Nat.pow 2 52 - 1

/-- The absolute value of a finite double, when it is a whole number. -/
def whole? (x : Double) : Option Nat :=
  let scaled := x.significand * Nat.pow 2 x.exponent
  if scaled % Nat.pow 2 1074 = 0 then some (scaled / Nat.pow 2 1074) else none

/-- The 64 bits of the encoding, as a number. -/
def toBits (x : Double) : Nat := (if x.negative then Nat.pow 2 63 else 0) + x.magnitude

/-! ## Rounding -/

/-- A quotient rounded to the nearest natural number, ties to the even one. -/
def roundHalfEven (num den : Nat) : Nat :=
  let floor := num / den
  let twice := 2 * (num % den)
  if twice < den ∨ (twice = den ∧ floor % 2 = 0) then floor else floor + 1

/-- The double nearest to a non-negative quotient, with a sign.  The unit is
chosen so that the significand has 53 bits where the range allows it.  A
significand rounded up to `2 ^ 53` is the first of the next exponent, and a
magnitude past infinity is infinity. -/
def ofRatio (negative : Bool) (num den : Nat) : Double :=
  let scaled := num * Nat.pow 2 1074
  let e := (scaled / den).log2 - 52
  ⟨negative, min (e * Nat.pow 2 52 + roundHalfEven scaled (den * Nat.pow 2 e)) infinite,
    Nat.lt_of_le_of_lt (Nat.min_le_right ..) (by decide)⟩

/-- The double nearest to an integer. -/
def ofInt (n : Int) : Double := ofRatio (n < 0) n.natAbs 1

/-- The double nearest to `digits · 10 ^ exponent`, with a sign.  A number of
more than 310 digits before the point is infinite, and one with more than 330
zeros after it is zero, so no power beyond those is computed. -/
def ofDecimal (negative : Bool) (digits : Nat) (exponent : Int) : Double :=
  let order := (Nat.toDigits 10 digits).length + exponent
  if digits = 0 ∨ order < -330 then ⟨negative, 0, by decide⟩
  else if 310 < order then infinity negative
  else if 0 ≤ exponent then ofRatio negative (digits * Nat.pow 10 exponent.toNat) 1
  else ofRatio negative digits (Nat.pow 10 (-exponent).toNat)

/-! ## Arithmetic -/

/-- The double nearest to the product of two finite doubles. -/
def mul (x y : Double) : Double :=
  ofRatio (x.negative != y.negative)
    (x.significand * y.significand * Nat.pow 2 (x.exponent + y.exponent)) (Nat.pow 2 2148)

/-- The double nearest to the quotient of two finite doubles, the second of them
not zero. -/
def div (x y : Double) : Double :=
  ofRatio (x.negative != y.negative) (x.significand * Nat.pow 2 x.exponent)
    (y.significand * Nat.pow 2 y.exponent)

/-! ## Comparison -/

/-- The place of a double on the line of all doubles, with both zeros at the
same place. -/
def place (x : Double) : Int := if x.negative then -(x.magnitude : Int) else x.magnitude

/-- Equality of doubles as numbers. -/
def equals (x y : Double) : Bool := !x.isNaN && !y.isNaN && x.place == y.place

/-- The order of two doubles, if both are numbers. -/
def order? (x y : Double) : Option Ordering :=
  if x.isNaN || y.isNaN then none else some (compare x.place y.place)

theorem equals_comm (x y : Double) : x.equals y = y.equals x := by
  rw [equals, equals, Bool.and_comm !x.isNaN, Bool.beq_comm]

example : ofInt 1 = one := by decide +kernel
example : (ofInt (2 ^ 53 + 1)).whole? = some (2 ^ 53) := by decide +kernel
example : (ofInt (-(2 ^ 53 + 3))).whole? = some (2 ^ 53 + 4) := by decide +kernel
example : (ofDecimal false 15 (-1)).toBits = 0x3FF8000000000000 := by decide +kernel
example : (ofDecimal true 5 (-324)).toBits = 0x8000000000000001 := by decide +kernel
example : ofDecimal false 1 309 = infinity false := by decide +kernel
example : (ofDecimal false 17976931348623158 292).isFinite = true := by decide +kernel
example : ofDecimal false 17976931348623159 292 = infinity false := by decide +kernel
example : (ofInt 3).div (ofInt (-2)) = ofDecimal true 15 (-1) := by decide +kernel
example : ((ofInt 1).div (ofInt 10)).mul (ofInt 3) ≠ ofDecimal false 3 (-1) := by decide +kernel
example : (⟨true, 0, by decide⟩ : Double).equals zero = true := by decide +kernel
example : nan.equals nan = false ∧ nan.order? zero = none := by decide +kernel

end Double

end Templating
