import Templating.Proofs.Number.Spacing
import Templating.Proofs.Text.Significant
import Templating.Value.Display

/-!
# Large whole numbers

A double that is a whole number is displayed by all its digits, up to `10 ^ 21`.
From `2 ^ 53` on several whole numbers are nearest to the same double, and a script
engine writes one of them with the fewest significant digits
(`Double.IsShortest`).

Up to `2 ^ 55` that is the double itself.  From there on it is the double itself
exactly if neither multiple beside it of the least power of ten that does not
divide it lies within half of the gap to the next double
(`display_wholeNumber`).  The first double is `2 ^ 55` that is displayed by more
digits than needed.
-/

namespace Templating

open Text (significantDigits roundUnit Around)

theorem Text.ofInt_neg {n : Nat} (pos : 0 < n) : ofInt (-(n : Int)) = '-' :: ofNat n := by
  cases n with
  | zero => cases pos
  | succ n => rfl

namespace Double

/-! ## The range of a whole number -/

theorem unit_eq : Nat.pow 2 1074 = unit := by decide +kernel

theorem steps_scientificFrom : steps scientificFrom = 10 ^ 21 * unit := by decide +kernel

theorem steps_positionalFrom_le : steps positionalFrom ≤ 2 ^ 53 * unit := by decide +kernel

theorem scientificFrom_succ_lt : scientificFrom + 1 < infinite := by decide +kernel

section Whole

variable {x : Double} {k : Int}

theorem toward_eq_natAbs (whole : x.value = k * unit) : x.toward k = k.natAbs := by
  have counted := toward_value x
  rw [whole, toward_mul, steps_eq_natAbs whole, Nat.cast_mul] at counted
  exact Int.eq_of_mul_eq_mul_right (Int.natCast_ne_zero.mpr unit_pos.ne') counted

theorem whole?_eq (whole : x.value = k * unit) : x.whole? = some k.natAbs := by
  have counted : x.significand * Nat.pow 2 x.exponent = k.natAbs * unit :=
    (steps_magnitude x).symm.trans (steps_eq_natAbs whole)
  rw [whole?, counted, unit_eq, Nat.mul_mod_left, if_pos rfl, Nat.mul_div_cancel _ unit_pos]

theorem positionalFrom_le (whole : x.value = k * unit) (large : 2 ^ 53 ≤ k.natAbs) :
    positionalFrom ≤ x.magnitude := by
  refine steps_strictMono.le_iff_le.mp (steps_positionalFrom_le.trans ?_)
  rw [steps_eq_natAbs whole]
  exact Nat.mul_le_mul_right _ large

theorem lt_scientificFrom (whole : x.value = k * unit) (below : k.natAbs < 10 ^ 21) :
    x.magnitude < scientificFrom := by
  refine steps_strictMono.lt_iff_lt.mp ?_
  rw [steps_eq_natAbs whole, steps_scientificFrom]
  exact Nat.mul_lt_mul_of_pos_right below unit_pos

/-- A whole number is displayed by all its digits. -/
theorem display_eq_ofInt (whole : x.value = k * unit) (large : 2 ^ 53 ≤ k.natAbs)
    (below : k.natAbs < 10 ^ 21) : x.display = Text.ofInt k := by
  have first := positionalFrom_le whole large
  have last := lt_scientificFrom whole below
  have bound := scientificFrom_succ_lt
  have positive : 0 < positionalFrom := by decide +kernel
  have number : ¬x.isNaN = true := by
    rw [isNaN, decide_eq_true_iff]
    omega
  have finite : x.isFinite = true := decide_eq_true (show x.magnitude < infinite by omega)
  have digits : x.displayMagnitude = Text.ofNat k.natAbs := by
    rw [displayMagnitude, if_pos ⟨first, last⟩, whole?_eq whole]
  have sign := toward_eq_natAbs whole
  rw [display, if_neg number, if_neg (by omega), if_pos finite, digits]
  unfold toward at sign
  split at sign
  next minus =>
    have negative : k = -(k.natAbs : Int) := by omega
    rw [if_pos minus, negative, Text.ofInt_neg (by omega), Int.natAbs_neg]
    rfl
  next plus =>
    rw [if_neg plus, sign]
    rfl

/-! ## The fewest digits -/

/-- No whole number that is nearest to a double has fewer significant digits. -/
def IsShortest (x : Double) (k : Int) : Prop :=
  ∀ d, x.Nearest d → significantDigits k.natAbs ≤ significantDigits d.natAbs

/-- The whole numbers that are nearest to a double lie around it. -/
theorem isShortest_iff_around (whole : x.value = k * unit) (large : 2 ^ 53 ≤ k.natAbs)
    (below : k.natAbs < 10 ^ 21) :
    x.IsShortest k ↔
      ∀ m, Around k.natAbs (gap (x.magnitude - 1)) (gap x.magnitude) m →
        significantDigits k.natAbs ≤ significantDigits m := by
  have inner : x.magnitude + 1 < infinite := by
    have last := lt_scientificFrom whole below
    have bound := scientificFrom_succ_lt
    omega
  constructor
  · rintro shortest m ⟨left, right⟩
    have nearest : x.Nearest (x.toward m) := by
      rw [nearest_whole_iff whole large inner, toward_toward]
      omega
    have fewest := shortest _ nearest
    rwa [natAbs_toward, Int.natAbs_natCast] at fewest
  · intro shortest d nearest
    rw [nearest_whole_iff whole large inner] at nearest
    have narrow := mul_gap_le whole large
    have step := gap_mono (Nat.sub_le x.magnitude 1)
    have seen := natAbs_toward x d
    refine shortest _ ?_
    unfold Around
    omega

/-- The remainder by the least power of ten that does not divide a whole number tells how far the next
number with fewer digits is. -/
theorem isShortest_iff (whole : x.value = k * unit) (large : 2 ^ 53 ≤ k.natAbs)
    (below : k.natAbs < 10 ^ 21) :
    x.IsShortest k ↔
      gap (x.magnitude - 1) ≤ 2 * (k.natAbs % roundUnit k.natAbs) ∧
        gap x.magnitude ≤ 2 * (roundUnit k.natAbs - k.natAbs % roundUnit k.natAbs) := by
  have positive : 0 < k.natAbs := by omega
  have narrow := mul_gap_le whole large
  rw [isShortest_iff_around whole large below,
    Text.forall_significantDigits_le_iff positive (gap_pos _) (gap_pos _) (by omega),
    Text.forall_not_dvd_iff (gap_pos _) (gap_pos _) (Text.not_roundUnit_dvd positive)
      (Nat.pow_pos (by decide))]

/-- Below `2 ^ 55` the gaps are two or four, and a multiple of four is two away from the next even
number. -/
theorem isShortest_of_lt (whole : x.value = k * unit) (large : 2 ^ 53 ≤ k.natAbs)
    (small : k.natAbs < 2 ^ 55) : x.IsShortest k := by
  have positive : 0 < k.natAbs := by omega
  obtain ⟨far, c, -, -, count⟩ := exists_eq_mul_gap whole large
  have narrow := mul_gap_le whole large
  have step := gap_mono (Nat.sub_le x.magnitude 1)
  have other := mt Nat.dvd_of_mod_eq_zero (Text.not_roundUnit_dvd positive)
  have ten : 0 < roundUnit k.natAbs := Nat.pow_pos (by decide)
  have even : 2 ∣ roundUnit k.natAbs := Nat.dvd_trans (by decide) (Dvd.intro_left _ rfl : 10 ∣ _)
  have rest := Nat.mod_lt k.natAbs ten
  have parity := Nat.mod_mod_of_dvd k.natAbs even
  obtain ⟨e, exponent⟩ : ∃ e, x.magnitude / 2 ^ 52 - 1075 = e + 1 :=
    ⟨x.magnitude / 2 ^ 52 - 1076, by omega⟩
  have double : gap x.magnitude = 2 ^ e * 2 := by rw [gap, exponent, pow_succ]
  rw [double, ← Nat.mul_assoc] at count
  rw [isShortest_iff whole large (by omega)]
  rcases Nat.lt_trichotomy e 1 with zero | rfl | more
  · -- The next double is two away, and the number is no multiple itself.
    obtain rfl : e = 0 := by omega
    omega
  · -- The next double is four away, and no odd number is a multiple.
    omega
  · -- With a wider gap the number has reached `2 ^ 55`.
    have wide : 2 ^ 2 ≤ 2 ^ e := pow_le_pow_right₀ one_le_two more
    omega

end Whole

end Double

theorem Value.display_double (x : Double) : Value.display (.num (.double x)) = x.display := by
  rw [Value.display, Number.display]

/-- A double that is a whole number from `2 ^ 53` up to `10 ^ 21` is displayed by all its digits.  No
number that is nearest to it has fewer significant digits exactly if the multiples of the least power
of ten that does not divide it are too far away, as they are up to `2 ^ 55`. -/
theorem Value.display_wholeNumber {x : Double} {k : Int} (whole : x.value = k * Double.unit)
    (large : 2 ^ 53 ≤ k.natAbs) (below : k.natAbs < 10 ^ 21) :
    Value.display (.num (.double x)) = Text.ofInt k ∧
    (x.IsShortest k ↔
      Double.gap (x.magnitude - 1) ≤ 2 * (k.natAbs % roundUnit k.natAbs) ∧
        Double.gap x.magnitude ≤ 2 * (roundUnit k.natAbs - k.natAbs % roundUnit k.natAbs)) ∧
    (k.natAbs < 2 ^ 55 → x.IsShortest k) :=
  ⟨(Value.display_double x).trans (Double.display_eq_ofInt whole large below),
    Double.isShortest_iff whole large below, Double.isShortest_of_lt whole large⟩

/-- `-(2 ^ 54 + 4)` is displayed by the fewest digits. -/
theorem Value.display_wholeNumber_negative :
    let x : Double := ⟨true, 1077 * 2 ^ 52 + 1, by decide⟩
    let k : Int := -18014398509481988
    (x.value = k * Double.unit ∧ 2 ^ 53 ≤ k.natAbs ∧ k.natAbs < 10 ^ 21 ∧ k.natAbs < 2 ^ 55) ∧
      Value.display (.num (.double x)) = "-18014398509481988".toList ∧ x.IsShortest k := by
  intro x k
  have whole : x.value = k * Double.unit := by decide +kernel
  have large : 2 ^ 53 ≤ k.natAbs := by decide
  have below : k.natAbs < 10 ^ 21 := by decide
  have small : k.natAbs < 2 ^ 55 := by decide
  obtain ⟨digits, -, shortest⟩ := Value.display_wholeNumber whole large below
  exact ⟨⟨whole, large, below, small⟩, digits.trans (by decide), shortest small⟩

/-- `2 ^ 55` is displayed as `36028797018963968`, and `36028797018963970` is nearest to it too. -/
theorem Value.display_wholeNumber_notShortest :
    let x : Double := ⟨false, 1078 * 2 ^ 52, by decide⟩
    x.value = 2 ^ 55 * Double.unit ∧
      Value.display (.num (.double x)) = "36028797018963968".toList ∧
      x.Nearest 36028797018963970 ∧
      ¬∀ (x : Double) (k : Int), x.value = k * Double.unit → 2 ^ 53 ≤ k.natAbs →
        k.natAbs < 10 ^ 21 →
          ∃ d, Value.display (.num (.double x)) = Text.ofInt d ∧ x.IsShortest d := by
  intro x
  have whole : x.value = 2 ^ 55 * Double.unit := by decide +kernel
  have large : 2 ^ 53 ≤ (2 ^ 55 : Int).natAbs := by decide
  have below : (2 ^ 55 : Int).natAbs < 10 ^ 21 := by decide
  have inner : x.magnitude + 1 < Double.infinite := by decide
  have displayed : Value.display (.num (.double x)) = Text.ofInt (2 ^ 55) :=
    (Value.display_double x).trans (Double.display_eq_ofInt whole large below)
  have nearest : x.Nearest 36028797018963970 := by
    rw [Double.nearest_whole_iff whole large inner]
    decide +kernel
  refine ⟨whole, displayed.trans (by decide), nearest, fun shortest => ?_⟩
  obtain ⟨d, written, fewest⟩ := shortest x (2 ^ 55) whole large below
  have same := congrArg Text.readInt? (displayed.symm.trans written)
  rw [Text.readInt?_ofInt, Text.readInt?_ofInt, Option.some.injEq] at same
  have fewer := fewest _ nearest
  rw [← same] at fewer
  revert fewer
  decide

end Templating
