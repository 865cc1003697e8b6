import Mathlib.Algebra.Order.Ring.Int
import Mathlib.Algebra.Order.Ring.Nat
import Mathlib.Order.Monotone.Basic
import Mathlib.Tactic.Ring
import Templating.Number.Double

/-!
# The spacing of doubles

The finite doubles lie on a line, the non-negative ones in the order of their
magnitudes.  From one to the next it is a *stride*, a power of two that doubles
where the significand starts anew (`steps_succ`).  All distances are counted in
steps of the smallest stride, so that they are whole.  A whole number is `unit`
steps for each one.

A number is *nearest* to a double if it lies closer to it than to every other
double.  That is so exactly if it lies between the middles to the two neighbours
(`nearest_iff`).  From `2 ^ 53` on the neighbours of a double are whole numbers,
and so are the distances to them (`nearest_whole_iff`).
-/

namespace Templating.Double

/-! ## The line of doubles -/

/-- The distance of the double at a magnitude to the next, in steps. -/
def stride (magnitude : Nat) : Nat := 2 ^ (magnitude / 2 ^ 52 - 1)

/-- The distance of the double at a magnitude from zero, in steps. -/
def steps (magnitude : Nat) : Nat :=
  (if magnitude < 2 ^ 52 then magnitude else 2 ^ 52 + magnitude % 2 ^ 52) * stride magnitude

theorem steps_magnitude (x : Double) :
    steps x.magnitude = x.significand * Nat.pow 2 x.exponent := rfl

theorem stride_pos (m : Nat) : 0 < stride m := Nat.two_pow_pos _

theorem steps_succ (m : Nat) : steps (m + 1) = steps m + stride m := by
  rcases Nat.lt_trichotomy (m + 1) (2 ^ 52) with first | edge | later
  · -- The first doubles are one step apart.
    have here : m / 2 ^ 52 = 0 := Nat.div_eq_of_lt (by omega)
    have next : (m + 1) / 2 ^ 52 = 0 := Nat.div_eq_of_lt first
    rw [steps, steps, if_pos first, if_pos (by omega), stride, stride, here, next]
    rfl
  · obtain rfl : m = 2 ^ 52 - 1 := by omega
    rfl
  · have here : ¬m < 2 ^ 52 := by omega
    have next : ¬m + 1 < 2 ^ 52 := by omega
    rw [steps, steps, if_neg here, if_neg next]
    by_cases inner : m % 2 ^ 52 + 1 < 2 ^ 52
    · have same : (m + 1) / 2 ^ 52 = m / 2 ^ 52 := by omega
      have more : (m + 1) % 2 ^ 52 = m % 2 ^ 52 + 1 := by omega
      rw [stride, stride, same, more, ← Nat.add_assoc, Nat.succ_mul]
    · -- The significand starts anew, with strides twice as long.
      have whole : (m + 1) / 2 ^ 52 = m / 2 ^ 52 + 1 := by omega
      have anew : (m + 1) % 2 ^ 52 = 0 := by omega
      have last : m % 2 ^ 52 = 2 ^ 52 - 1 := by omega
      obtain ⟨e, exponent⟩ : ∃ e, m / 2 ^ 52 = e + 1 := ⟨m / 2 ^ 52 - 1, by omega⟩
      rw [stride, stride, whole, anew, last, exponent, Nat.add_sub_cancel, Nat.add_sub_cancel,
        Nat.pow_succ]
      omega

theorem steps_strictMono : StrictMono steps := by
  refine strictMono_nat_of_lt_succ fun m => ?_
  have longer := stride_pos m
  rw [steps_succ]
  omega

/-- A number with the sign of a double. -/
def toward (x : Double) (n : Int) : Int := if x.negative then -n else n

/-- The distance of a double from zero in steps, with its sign. -/
def value (x : Double) : Int := x.toward (steps x.magnitude)

theorem toward_toward (x : Double) (n : Int) : x.toward (x.toward n) = n := by
  unfold toward
  split
  · exact Int.neg_neg n
  · rfl

theorem natAbs_toward (x : Double) (n : Int) : (x.toward n).natAbs = n.natAbs := by
  unfold toward
  split
  · exact Int.natAbs_neg n
  · rfl

theorem toward_sub (x : Double) (a b : Int) : (x.toward a - x.toward b).natAbs = (a - b).natAbs := by
  unfold toward
  split
  · omega
  · rfl

theorem toward_mul (x : Double) (a b : Int) : x.toward (a * b) = x.toward a * b := by
  unfold toward
  split
  · exact (Int.neg_mul a b).symm
  · rfl

theorem toward_value (x : Double) : x.toward x.value = steps x.magnitude :=
  x.toward_toward (steps x.magnitude)

theorem toward_congr {x y : Double} (sign : y.negative = x.negative) (n : Int) :
    y.toward n = x.toward n := by
  rw [toward, toward, sign]

theorem toward_opposite {x y : Double} (sign : y.negative = !x.negative) (n : Int) :
    x.toward n = -y.toward n := by
  rw [toward, toward, sign]
  cases x.negative with
  | false => exact (Int.neg_neg n).symm
  | true => rfl

/-- The doubles of another value lie behind one of the neighbours. -/
theorem toward_value_le_or_ge {x y : Double} (other : y.value ≠ x.value) :
    x.toward y.value ≤ steps (x.magnitude - 1) ∨ (steps (x.magnitude + 1) : Int) ≤
      x.toward y.value := by
  by_cases sign : y.negative = x.negative
  · rw [← toward_congr sign, toward_value]
    rcases Nat.lt_trichotomy y.magnitude x.magnitude with less | same | more
    · exact Or.inl (Int.ofNat_le.mpr (steps_strictMono.monotone (Nat.le_pred_of_lt less)))
    · refine absurd ?_ other
      rw [value, value, toward_congr sign, same]
    · exact Or.inr (Int.ofNat_le.mpr (steps_strictMono.monotone more))
  · -- A double of the other sign is behind zero.
    rw [toward_opposite (Bool.eq_not_iff.mpr sign), toward_value]
    omega

/-! ## The nearest double -/

/-- The steps of one. -/
def unit : Nat := 2 ^ 1074

theorem unit_pos : 0 < unit := pow_pos Nat.two_pos 1074

/-- A whole number lies closer to a double than to every double of another value. -/
def Nearest (x : Double) (d : Int) : Prop :=
  ∀ y : Double, y.isFinite = true → y.value ≠ x.value →
    (d * unit - x.value).natAbs < (d * unit - y.value).natAbs

/-- The neighbour of a double at another magnitude, with its sign. -/
def withMagnitude (x : Double) (m : Nat) (small : m < Nat.pow 2 63) : Double := ⟨x.negative, m, small⟩

/-- The nearest numbers lie between the middles to the neighbours of a double. -/
theorem nearest_iff {x : Double} (pos : 0 < x.magnitude) (inner : x.magnitude + 1 < infinite)
    {d : Int} :
    x.Nearest d ↔
      (steps (x.magnitude - 1) + steps x.magnitude : Int) < 2 * (x.toward d * unit) ∧
        2 * (x.toward d * unit) < (steps x.magnitude + steps (x.magnitude + 1) : Int) := by
  have before : steps (x.magnitude - 1) < steps x.magnitude := steps_strictMono (by omega)
  have behind : steps x.magnitude < steps (x.magnitude + 1) := steps_strictMono (by omega)
  have last : infinite < Nat.pow 2 63 := by decide
  rw [← toward_mul]
  constructor
  · intro nearest
    let left := x.withMagnitude (x.magnitude - 1) (by omega)
    let right := x.withMagnitude (x.magnitude + 1) (by omega)
    have toLeft : x.toward left.value = steps (x.magnitude - 1) := toward_value left
    have toRight : x.toward right.value = steps (x.magnitude + 1) := toward_value right
    have here := toward_value x
    have fromLeft := nearest left (decide_eq_true (show x.magnitude - 1 < infinite by omega))
      fun same => by
        rw [same, here] at toLeft
        omega
    have fromRight := nearest right (decide_eq_true inner) fun same => by
      rw [same, here] at toRight
      omega
    rw [← toward_sub x, ← toward_sub x (d * unit) left.value, here, toLeft] at fromLeft
    rw [← toward_sub x, ← toward_sub x (d * unit) right.value, here, toRight] at fromRight
    omega
  · rintro ⟨above, below⟩ y - other
    rw [← toward_sub x, ← toward_sub x (d * unit) y.value, toward_value x]
    rcases toward_value_le_or_ge other with less | more
    · omega
    · omega

/-! ## Whole numbers -/

/-- The distance of the double at a magnitude to the next, for doubles that are this far apart by
whole numbers. -/
def gap (magnitude : Nat) : Nat := 2 ^ (magnitude / 2 ^ 52 - 1075)

theorem stride_eq_gap {m : Nat} (large : 1075 ≤ m / 2 ^ 52) : stride m = gap m * unit := by
  have split : m / 2 ^ 52 - 1 = (m / 2 ^ 52 - 1075) + 1074 := by omega
  rw [stride, split, pow_add, gap, unit]

theorem gap_pos (m : Nat) : 0 < gap m := Nat.two_pow_pos _

theorem gap_mono : Monotone gap := fun _ _ le =>
  Nat.pow_le_pow_right (by decide) (Nat.sub_le_sub_right (Nat.div_le_div_right le) _)

section Whole

variable {x : Double} {k : Int}

theorem steps_eq_natAbs (whole : x.value = k * unit) : steps x.magnitude = k.natAbs * unit := by
  rw [← Int.natAbs_natCast (steps x.magnitude), ← toward_value x, natAbs_toward, whole,
    Int.natAbs_mul, Int.natAbs_natCast]

/-- From `2 ^ 53` on a double is a number of gaps. -/
theorem exists_eq_mul_gap (whole : x.value = k * unit) (large : 2 ^ 53 ≤ k.natAbs) :
    1076 ≤ x.magnitude / 2 ^ 52 ∧
      ∃ c, 2 ^ 52 ≤ c ∧ c < 2 ^ 53 ∧ k.natAbs = c * gap x.magnitude := by
  have counted := steps_eq_natAbs whole
  have least : 2 ^ 53 * unit ≤ k.natAbs * unit := Nat.mul_le_mul_right _ large
  have far : 1076 ≤ x.magnitude / 2 ^ 52 := by
    by_contra near
    have short : stride x.magnitude ≤ unit := by
      rw [stride, unit]
      exact pow_le_pow_right₀ one_le_two (by omega)
    have few : steps x.magnitude < 2 ^ 53 * stride x.magnitude := by
      refine Nat.mul_lt_mul_of_pos_right ?_ (stride_pos _)
      split <;> omega
    have close := Nat.mul_le_mul_left (2 ^ 53) short
    omega
  refine ⟨far, 2 ^ 52 + x.magnitude % 2 ^ 52, by omega, by omega, ?_⟩
  rw [steps, if_neg (by omega), stride_eq_gap (by omega), ← Nat.mul_assoc] at counted
  exact (Nat.eq_of_mul_eq_mul_right unit_pos counted).symm

/-- A gap is small beside the double. -/
theorem mul_gap_le (whole : x.value = k * unit) (large : 2 ^ 53 ≤ k.natAbs) :
    2 ^ 52 * gap x.magnitude ≤ k.natAbs := by
  obtain ⟨-, c, most, -, count⟩ := exists_eq_mul_gap whole large
  rw [count]
  exact Nat.mul_le_mul_right _ most

theorem nearest_whole_iff (whole : x.value = k * unit) (large : 2 ^ 53 ≤ k.natAbs)
    (inner : x.magnitude + 1 < infinite) {d : Int} :
    x.Nearest d ↔
      2 * (k.natAbs : Int) < 2 * x.toward d + gap (x.magnitude - 1) ∧
        2 * x.toward d < 2 * k.natAbs + gap x.magnitude := by
  obtain ⟨far, -⟩ := exists_eq_mul_gap whole large
  have here := steps_eq_natAbs whole
  have next := steps_succ x.magnitude
  have last := steps_succ (x.magnitude - 1)
  rw [stride_eq_gap (by omega), here, ← Nat.add_mul] at next
  rw [Nat.sub_add_cancel (by omega), stride_eq_gap (by omega), here] at last
  have before : (steps (x.magnitude - 1) : Int) = (k.natAbs - gap (x.magnitude - 1)) * unit := by
    rw [sub_mul]
    exact eq_sub_of_add_eq (by exact_mod_cast last.symm)
  have positive : (0 : Int) < unit := Int.ofNat_lt.mpr unit_pos
  have above : (k.natAbs - gap (x.magnitude - 1)) * (unit : Int) + (k.natAbs * unit : Nat) =
      (2 * k.natAbs - gap (x.magnitude - 1)) * unit := by
    push_cast
    ring
  have below : ((k.natAbs * unit : Nat) : Int) + ((k.natAbs + gap x.magnitude) * unit : Nat) =
      (2 * k.natAbs + gap x.magnitude) * unit := by
    push_cast
    ring
  rw [nearest_iff (by omega) inner, before, here, next, above, below, ← mul_assoc,
    mul_lt_mul_iff_of_pos_right positive, mul_lt_mul_iff_of_pos_right positive, sub_lt_iff_lt_add]

end Whole

end Templating.Double
