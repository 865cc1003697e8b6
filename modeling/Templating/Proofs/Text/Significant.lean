import Mathlib.Data.List.DropRight
import Mathlib.Tactic.Ring
import Templating.Proofs.Text.Numeral

/-!
# Significant digits

The *significant digits* of a number are those up to the last that is not zero.
A number has at most `k` of them exactly if it is a number below `10 ^ k` times a
power of ten.

Of the numbers in an interval around `n` one has fewer significant digits than
`n` exactly if the interval holds a multiple of the least power of ten that does
not divide `n` (`forall_significantDigits_le_iff`).  The two multiples of it
beside `n` are the nearest, so this is decided by a remainder
(`forall_not_dvd_iff`).
-/

namespace Templating.Text

/-- The number of digits of a number without the zeros at its end. -/
def significantDigits (n : Nat) : Nat := ((ofNat n).rdropWhile (· == '0')).length

/-- The number of zeros that a number ends with. -/
def trailingZeros (n : Nat) : Nat := ((ofNat n).rtakeWhile (· == '0')).length

theorem significantDigits_zero : significantDigits 0 = 0 := rfl

/-! ## Zeros at the end -/

theorem ofNat_mul_ten {n : Nat} (pos : 0 < n) : ofNat (n * 10) = ofNat n ++ ['0'] := by
  rw [← ofNat_ten_mul_add pos (c := '0') rfl, Nat.mul_comm]
  rfl

theorem significantDigits_mul_ten {n : Nat} (pos : 0 < n) :
    significantDigits (n * 10) = significantDigits n := by
  rw [significantDigits, ofNat_mul_ten pos, List.rdropWhile_concat_pos _ _ _ rfl, significantDigits]

theorem trailingZeros_mul_ten {n : Nat} (pos : 0 < n) :
    trailingZeros (n * 10) = trailingZeros n + 1 := by
  rw [trailingZeros, ofNat_mul_ten pos, List.rtakeWhile_concat_pos _ _ _ rfl, List.length_append,
    trailingZeros]
  rfl

theorem exists_ofNat_eq_concat (n : Nat) : ∃ t, ofNat n = t ++ [(n % 10).digitChar] := by
  rw [ofNat, Nat.toDigits_eq_if (by decide)]
  split
  next small => exact ⟨[], by rw [Nat.mod_eq_of_lt small, List.nil_append]⟩
  next => exact ⟨_, rfl⟩

/-- A number that is no multiple of ten ends with no zero. -/
theorem significantDigits_of_not_dvd {n : Nat} (ends : ¬10 ∣ n) :
    significantDigits n = (ofNat n).length ∧ trailingZeros n = 0 := by
  obtain ⟨t, written⟩ := exists_ofNat_eq_concat n
  have last : ¬((n % 10).digitChar == '0') = true := by
    rw [beq_iff_eq]
    exact digitChar_ne_zero (by omega) (by omega)
  rw [significantDigits, trailingZeros, written, List.rdropWhile_concat_neg (· == '0') _ _ last,
    List.rtakeWhile_concat_neg (· == '0') _ _ last]
  exact ⟨rfl, rfl⟩

theorem significantDigits_mul_pow {n : Nat} (pos : 0 < n) (k : Nat) :
    significantDigits (n * 10 ^ k) = significantDigits n := by
  induction k with
  | zero => rw [Nat.pow_zero, Nat.mul_one]
  | succ k ih =>
    rw [Nat.pow_succ, ← Nat.mul_assoc,
      significantDigits_mul_ten (Nat.mul_pos pos (Nat.pow_pos (by decide))), ih]

/-- A number is the number of its significant digits, which is no multiple of ten, with zeros
behind. -/
theorem exists_significand {n : Nat} (pos : 0 < n) :
    ∃ q, n = q * 10 ^ trailingZeros n ∧ ¬10 ∣ q ∧ significantDigits n = (ofNat q).length := by
  induction n using Nat.strongRecOn with
  | _ n ih =>
    by_cases round : 10 ∣ n
    · obtain ⟨m, rfl⟩ := round
      rw [Nat.mul_comm]
      have less : 0 < m := by omega
      obtain ⟨q, split, ends, digits⟩ := ih m (by omega) less
      refine ⟨q, ?_, ends, (significantDigits_mul_ten less).trans digits⟩
      rw [trailingZeros_mul_ten less, Nat.pow_succ, ← Nat.mul_assoc, ← split]
    · obtain ⟨digits, none⟩ := significantDigits_of_not_dvd round
      exact ⟨n, by rw [none, Nat.pow_zero, Nat.mul_one], round, digits⟩

/-! ## The number of significant digits -/

theorem length_ofNat_le_iff {n k : Nat} (pos : 0 < k) : (ofNat n).length ≤ k ↔ n < 10 ^ k :=
  Nat.length_toDigits_le_iff (by decide) pos

theorem length_ofNat_pos (n : Nat) : 0 < (ofNat n).length := Nat.length_toDigits_pos

theorem lt_pow_length_ofNat (n : Nat) : n < 10 ^ (ofNat n).length :=
  (length_ofNat_le_iff (length_ofNat_pos n)).mp le_rfl

theorem pow_length_ofNat_le {n : Nat} (pos : 0 < n) : 10 ^ ((ofNat n).length - 1) ≤ n := by
  by_contra small
  rw [not_le] at small
  rcases Nat.eq_zero_or_pos ((ofNat n).length - 1) with zero | more
  · rw [zero, Nat.pow_zero] at small
    omega
  · have shorter := (length_ofNat_le_iff more).mpr small
    omega

theorem significantDigits_pos {n : Nat} (pos : 0 < n) : 0 < significantDigits n := by
  obtain ⟨q, -, -, digits⟩ := exists_significand pos
  rw [digits]
  exact length_ofNat_pos q

theorem significantDigits_le_length (n : Nat) : significantDigits n ≤ (ofNat n).length :=
  (List.rdropWhile_prefix _ _).length_le

theorem significantDigits_le_of_lt {c k : Nat} (pos : 0 < c) (small : c < 10 ^ k) (j : Nat) :
    significantDigits (c * 10 ^ j) ≤ k := by
  rw [significantDigits_mul_pow pos]
  refine Nat.le_trans (significantDigits_le_length c) ?_
  rcases Nat.eq_zero_or_pos k with rfl | more
  · rw [Nat.pow_zero] at small
    omega
  · exact (length_ofNat_le_iff more).mpr small

/-! ## Shorter numbers nearby -/

/-- A number lies less than half of `before` below `n`, or less than half of `behind` above it. -/
def Around (n before behind m : Nat) : Prop := 2 * n < 2 * m + before ∧ 2 * m < 2 * n + behind

/-- The least power of ten that does not divide a number. -/
def roundUnit (n : Nat) : Nat := 10 ^ (trailingZeros n + 1)

theorem not_roundUnit_dvd {n : Nat} (pos : 0 < n) : ¬roundUnit n ∣ n := by
  obtain ⟨q, split, ends, -⟩ := exists_significand pos
  rintro ⟨c, multiple⟩
  have tens : q * 10 ^ trailingZeros n = 10 * c * 10 ^ trailingZeros n := by
    rw [← split, Nat.mul_comm, ← Nat.mul_assoc, ← Nat.pow_succ]
    exact multiple
  exact ends ⟨c, Nat.eq_of_mul_eq_mul_right (Nat.pow_pos (by decide)) tens⟩

section Around

variable {n before behind : Nat}

theorem Around.convex {l m p : Nat} (low : Around n before behind l)
    (high : Around n before behind p) (left : l ≤ m) (right : m ≤ p) :
    Around n before behind m := by
  unfold Around at *
  omega

theorem around_self (first : 0 < before) (second : 0 < behind) : Around n before behind n := by
  unfold Around
  omega

/-- The multiples of a number beside `n` are the nearest. -/
theorem forall_not_dvd_iff {u : Nat} (first : 0 < before) (second : 0 < behind) (other : ¬u ∣ n)
    (pos : 0 < u) :
    (∀ m, Around n before behind m → ¬u ∣ m) ↔
      before ≤ 2 * (n % u) ∧ behind ≤ 2 * (u - n % u) := by
  have rest := Nat.mod_lt n pos
  have split := Nat.div_add_mod n u
  constructor
  · intro none
    have below := mt (none (u * (n / u))) (not_not.mpr (Nat.dvd_mul_right u _))
    have above := mt (none (u * (n / u + 1))) (not_not.mpr (Nat.dvd_mul_right u _))
    rw [Nat.mul_add, Nat.mul_one] at above
    unfold Around at below above
    omega
  · rintro ⟨low, high⟩ _ ⟨left, right⟩ ⟨c, rfl⟩
    rcases Nat.lt_or_ge (n / u) c with more | less
    · have step := Nat.mul_le_mul_left u more
      rw [Nat.succ_eq_add_one, Nat.mul_add, Nat.mul_one] at step
      omega
    · have step := Nat.mul_le_mul_left u less
      omega

/-- A multiple around `n` of the least power of ten that does not divide `n` leads to a number with
fewer digits: itself, or the power of ten on the way to it. -/
theorem exists_fewer_of_dvd (pos : 0 < n) (first : 0 < before) (second : 0 < behind)
    (close : 9 * behind ≤ 2 * n) {m : Nat} (around : Around n before behind m)
    (divides : roundUnit n ∣ m) :
    ∃ l, Around n before behind l ∧ significantDigits l < significantDigits n := by
  obtain ⟨q, split, -, digits⟩ := exists_significand pos
  have digit := length_ofNat_pos q
  obtain ⟨c, rfl⟩ := divides
  rcases Nat.eq_zero_or_pos c with rfl | more
  · rw [Nat.mul_zero] at around
    exact ⟨0, around, significantDigits_zero ▸ significantDigits_pos pos⟩
  rw [roundUnit, Nat.mul_comm] at around
  by_cases short : c < 10 ^ ((ofNat q).length - 1)
  · have fewer := significantDigits_le_of_lt more short (trailingZeros n + 1)
    exact ⟨_, around, by omega⟩
  · -- The multiple has more places than `n`, so a power of ten comes before it.
    generalize trailingZeros n = zeros at split around
    have above : n ≤ 1 * 10 ^ ((ofNat q).length + zeros) := by
      rw [split, Nat.one_mul, Nat.pow_add]
      exact Nat.mul_le_mul_right _ (lt_pow_length_ofNat q).le
    have within : 1 * 10 ^ ((ofNat q).length + zeros) ≤ c * 10 ^ (zeros + 1) := by
      have places : (ofNat q).length + zeros = (ofNat q).length - 1 + (zeros + 1) := by omega
      rw [Nat.one_mul, places, Nat.pow_add]
      exact Nat.mul_le_mul_right _ (Nat.le_of_not_lt short)
    have power := (around_self first second).convex around above within
    have single := significantDigits_le_of_lt Nat.one_pos (k := 1) (by decide)
      ((ofNat q).length + zeros)
    refine ⟨_, power, ?_⟩
    by_contra few
    -- A single digit with zeros is too far from the next power of ten.
    have one : (ofNat q).length = 1 := by omega
    have small := lt_pow_length_ofNat q
    rw [one, Nat.pow_one] at small
    rw [one, Nat.one_mul, Nat.add_comm, Nat.pow_succ] at power
    have most : q * 10 ^ zeros ≤ 9 * 10 ^ zeros := Nat.mul_le_mul_right _ (by omega)
    obtain ⟨-, reached⟩ := power
    omega

/-- A number around `n` with fewer digits leads to a multiple of the least power of ten that does not
divide `n`: itself, or the power of ten on the way to it. -/
theorem exists_dvd_of_fewer (pos : 0 < n) (first : 0 < before) (second : 0 < behind) {m : Nat}
    (around : Around n before behind m) (fewer : significantDigits m < significantDigits n) :
    ∃ l, Around n before behind l ∧ roundUnit n ∣ l := by
  obtain ⟨q, split, ends, digits⟩ := exists_significand pos
  rcases Nat.eq_zero_or_pos m with rfl | more
  · exact ⟨0, around, Nat.dvd_zero _⟩
  obtain ⟨c, parts, -, length⟩ := exists_significand more
  by_cases rounder : trailingZeros n + 1 ≤ trailingZeros m
  · refine ⟨m, around, ?_⟩
    rw [parts]
    exact Nat.dvd_mul_left_of_dvd (Nat.pow_dvd_pow 10 rounder) c
  · -- The number has fewer places than `n`, so a power of ten comes between them.
    have digit := length_ofNat_pos c
    have above : m ≤ 10 ^ ((ofNat q).length - 1 + trailingZeros n) := by
      calc m = c * 10 ^ trailingZeros m := parts
        _ ≤ 10 ^ (ofNat c).length * 10 ^ trailingZeros m :=
            Nat.mul_le_mul_right _ (lt_pow_length_ofNat c).le
        _ = 10 ^ ((ofNat c).length + trailingZeros m) := (Nat.pow_add ..).symm
        _ ≤ 10 ^ ((ofNat q).length - 1 + trailingZeros n) :=
            Nat.pow_le_pow_right (by decide) (by omega)
    have within : 10 ^ ((ofNat q).length - 1 + trailingZeros n) ≤ n := by
      have positive : 0 < q := Nat.pos_of_ne_zero fun zero => ends (zero ▸ Nat.dvd_zero 10)
      calc 10 ^ ((ofNat q).length - 1 + trailingZeros n)
          = 10 ^ ((ofNat q).length - 1) * 10 ^ trailingZeros n := Nat.pow_add ..
        _ ≤ q * 10 ^ trailingZeros n := Nat.mul_le_mul_right _ (pow_length_ofNat_le positive)
        _ = n := split.symm
    have power := around.convex (around_self first second) above within
    exact ⟨_, power, Nat.pow_dvd_pow 10 (by omega)⟩

/-- Nothing around `n` has fewer significant digits exactly if no multiple of the least power of ten
that does not divide `n` is around it. -/
theorem forall_significantDigits_le_iff (pos : 0 < n) (first : 0 < before) (second : 0 < behind)
    (close : 9 * behind ≤ 2 * n) :
    (∀ m, Around n before behind m → significantDigits n ≤ significantDigits m) ↔
      ∀ m, Around n before behind m → ¬roundUnit n ∣ m := by
  constructor
  · intro shortest m around divides
    obtain ⟨l, near, fewer⟩ := exists_fewer_of_dvd pos first second close around divides
    exact absurd (shortest l near) (Nat.not_le_of_lt fewer)
  · intro none m around
    by_contra fewer
    obtain ⟨l, near, divides⟩ :=
      exists_dvd_of_fewer pos first second around (Nat.lt_of_not_le fewer)
    exact none l near divides

end Around

end Templating.Text
