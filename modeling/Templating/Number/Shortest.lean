import Templating.Number.Double

/-!
# Shortest decimals

The decimal that a double is written with has the fewest digits that still read
back as that double, and among those the digits nearest to it.

The reals that round to a double form an interval around it.  Its ends belong
to it if the significand is even, since ties go to the even neighbour.  The
points `c · 10 ^ g` form a *grid* for each `g`.  A coarser grid has shorter
decimals, so the search goes through the grids from coarse to fine and stops at
the first that has a point in the interval.  If a grid has such a point, then
one of the two neighbours of the double on the grid is one, so only those two
are tried.  The nearer wins, and of two equally near the larger.

The search begins at the first power of ten above the double, since a coarser
grid has no point near it.  Every double is itself a point of the grid of
`10 ^ (-1074)`, so the search always ends with a hit.

All comparisons are of natural numbers, in units of `2 ^ (-1076)`.  In that
unit the double, the ends of its interval, and the points of a grid multiplied
by `gridDen` are whole.
-/

namespace Templating

/-- The decimal number `digits · 10 ^ exponent`. -/
structure Decimal where
  /-- The digits, read as a number. -/
  digits : Nat
  /-- The power of ten they are multiplied by. -/
  exponent : Int
deriving DecidableEq

namespace Double

/-- The absolute value of a finite double. -/
def center (x : Double) : Nat := 4 * x.significand * Nat.pow 2 x.exponent

/-- The lower end of the reals that round to a finite double.  Below a power of
two the doubles lie twice as close. -/
def lowerEnd (x : Double) : Nat :=
  x.center - (if x.significand = Nat.pow 2 52 ∧ 0 < x.exponent then 1 else 2) * Nat.pow 2 x.exponent

/-- The upper end of the reals that round to a finite double. -/
def upperEnd (x : Double) : Nat := x.center + 2 * Nat.pow 2 x.exponent

/-- What a whole step of the grid of `10 ^ g` is multiplied by. -/
def gridNum (g : Int) : Nat := Nat.pow 10 g.toNat * Nat.pow 2 1076

/-- What the double is multiplied by to be compared with the grid. -/
def gridDen (g : Int) : Nat := Nat.pow 10 (-g).toNat

/-- Whether the point `c · 10 ^ g` reads back as the double. -/
def readsBack (x : Double) (g : Int) (c : Nat) : Bool :=
  let point := c * gridNum g
  let low := x.lowerEnd * gridDen g
  let high := x.upperEnd * gridDen g
  if x.significand % 2 = 0 then low ≤ point && point ≤ high else low < point && point < high

/-- The point of a grid that reads back as the double and is nearest to it. -/
def nearestOn? (x : Double) (g : Int) : Option Nat :=
  let target := x.center * gridDen g
  let below := target / gridNum g
  match x.readsBack g below, x.readsBack g (below + 1) with
  | false, false => none
  | true, false => some below
  | false, true => some (below + 1)
  | true, true =>
      some (if target - below * gridNum g < (below + 1) * gridNum g - target then below
        else below + 1)

/-- The number of digits before the point of a finite double. -/
def wholeDigits (x : Double) : Nat :=
  let whole := x.center / Nat.pow 2 1076
  if whole = 0 then 0 else (Nat.toDigits 10 whole).length

/-- The shortest decimal that reads back as the absolute value of a finite
double other than zero. -/
def shortest (x : Double) : Decimal :=
  ((List.range (x.wholeDigits + 1075)).findSome? fun (i : Nat) =>
    let g := (x.wholeDigits : Int) - i
    (x.nearestOn? g).map (Decimal.mk · g)).getD ⟨0, 0⟩

example : shortest one = ⟨1, 0⟩ := by decide +kernel
example : shortest (ofDecimal false 1 (-1)) = ⟨1, -1⟩ := by decide +kernel
example : shortest (ofDecimal false 5 (-324)) = ⟨5, -324⟩ := by decide +kernel
example : shortest (ofDecimal false 17976931348623157 292) = ⟨17976931348623157, 292⟩ := by
  decide +kernel
example : shortest (ofInt (2 ^ 53)) = ⟨9007199254740992, 0⟩ := by decide +kernel

end Double

end Templating
