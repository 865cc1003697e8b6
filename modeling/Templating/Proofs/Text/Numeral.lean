import Mathlib.Data.List.Basic
import Mathlib.Data.List.Induction
import Mathlib.Data.Nat.Digits.Defs
import Templating.Index

/-!
# Numerals

A *numeral* is a text of one or more ASCII digits.  Its value counts each digit
by its place (`placeValue`), and reading it finds that value
(`readNat?_eq_some_iff`).

Leading zeros do not count, so many numerals have the same value.  A *canonical*
one has no zero in front, unless it is `0`.  There is one for each number, and
that is the one that is written (`ofNat_placeValue`).

The two notations of an index follow.  A written index is a numeral, possibly
after a plus sign (`Index.read?_eq_some_iff`).  A position key is what is written
for a number and nothing else (`Index.readCanonical?_eq_some_iff`).
-/

namespace Templating

namespace Text

/-! ## Digits -/

/-- The value of an ASCII digit. -/
def digitValue (c : Char) : Nat := c.toNat - '0'.toNat

theorem toNat_of_isDigit {c : Char} (digit : c.isDigit = true) :
    c.toNat = 48 + digitValue c ∧ digitValue c < 10 := by
  have range : 48 ≤ c.toNat ∧ c.toNat ≤ 57 := Char.isDigit_iff_toNat.mp digit
  have value : digitValue c = c.toNat - 48 := rfl
  omega

theorem digitChar_digitValue {c : Char} (digit : c.isDigit = true) :
    (digitValue c).digitChar = c := by
  obtain ⟨code, small⟩ := toNat_of_isDigit digit
  rw [← Char.toNat_inj, Nat.toNat_digitChar_of_lt_ten small, code]

theorem digitChar_ne_zero {d : Nat} (pos : 0 < d) (small : d < 10) : d.digitChar ≠ '0' := by
  intro zero
  have code := congrArg Char.toNat zero
  rw [Nat.toNat_digitChar_of_lt_ten small] at code
  change 48 + d = 48 at code
  omega

/-! ## Numerals -/

/-- A text of one or more ASCII digits. -/
structure IsNumeral (t : Text) : Prop where
  nonempty : t ≠ []
  digits : ∀ c ∈ t, c.isDigit = true

/-- The value of a numeral.  The last digit counts once, the one before it ten
times, and so on. -/
def placeValue (t : Text) : Nat := Nat.ofDigits 10 (t.reverse.map digitValue)

theorem placeValue_concat (t : Text) (c : Char) :
    placeValue (t ++ [c]) = 10 * placeValue t + digitValue c := by
  simp [placeValue, Nat.ofDigits_cons, Nat.add_comm]

theorem digitsValue_eq_placeValue (t : Text) : digitsValue t = placeValue t := by
  induction t using List.reverseRecOn with
  | nil => rfl
  | append_singleton t c ih =>
    rw [placeValue_concat, ← ih, digitsValue, Nat.ofDigitChars_append, Nat.ofDigitChars_cons,
      Nat.ofDigitChars_nil]
    rfl

theorem readNat?_eq_some_iff {t : Text} {n : Nat} :
    readNat? t = some n ↔ IsNumeral t ∧ placeValue t = n := by
  rw [readNat?, digitsValue_eq_placeValue, Option.ite_none_right_eq_some, List.all_eq_true,
    Option.some.injEq]
  exact and_congr_left fun _ => ⟨fun h => ⟨h.1, h.2⟩, fun h => ⟨h.nonempty, h.digits⟩⟩

/-! ## Canonical numerals -/

theorem isNumeral_ofNat (n : Nat) : IsNumeral (ofNat n) :=
  ⟨Nat.toDigits_ne_nil, List.all_eq_true.mp (all_isDigit_ofNat n)⟩

theorem placeValue_ofNat (n : Nat) : placeValue (ofNat n) = n :=
  (readNat?_eq_some_iff.mp (readNat?_ofNat n)).2

/-- Ten times a number and a digit are written as the number and the digit. -/
theorem ofNat_ten_mul_add {n : Nat} (pos : 0 < n) {c : Char} (digit : c.isDigit = true) :
    ofNat (10 * n + digitValue c) = ofNat n ++ [c] := by
  have small := (toNat_of_isDigit digit).2
  rw [ofNat, ← Nat.toDigits_append_toDigits (by decide) pos small, Nat.toDigits_of_lt_base small,
    digitChar_digitValue digit]
  rfl

theorem ofNat_digitValue {c : Char} (digit : c.isDigit = true) : ofNat (digitValue c) = [c] := by
  rw [ofNat, Nat.toDigits_of_lt_base (toNat_of_isDigit digit).2, digitChar_digitValue digit]

/-- No number but zero is written with a zero in front. -/
theorem head?_ofNat {n : Nat} (pos : 0 < n) : (ofNat n).head? ≠ some '0' := by
  induction n using Nat.strongRecOn with
  | _ n ih =>
    rw [ofNat, Nat.toDigits_eq_if (by decide)]
    split
    next small => exact fun zero => digitChar_ne_zero pos small (Option.some.inj zero)
    next large =>
      have before := ih (n / 10) (by omega) (by omega)
      rwa [List.head?_append_of_ne_nil _ Nat.toDigits_ne_nil]

/-- A numeral without a zero in front is what is written for its value. -/
theorem ofNat_placeValue_of_head? {t : Text} (numeral : IsNumeral t)
    (lead : t.head? ≠ some '0') : ofNat (placeValue t) = t ∧ 0 < placeValue t := by
  induction t using List.reverseRecOn with
  | nil => exact absurd rfl numeral.nonempty
  | append_singleton t c ih =>
    have digit : c.isDigit = true := numeral.digits c (by simp)
    rw [placeValue_concat]
    by_cases empty : t = []
    · subst empty
      have single : 10 * placeValue [] + digitValue c = digitValue c := Nat.zero_add _
      have written := ofNat_digitValue digit
      refine ⟨by rw [single, written, List.nil_append], Nat.pos_of_ne_zero fun zero => ?_⟩
      rw [single] at zero
      rw [zero] at written
      exact lead (congrArg List.head? written).symm
    · rw [List.head?_append_of_ne_nil _ empty] at lead
      obtain ⟨written, pos⟩ :=
        ih ⟨empty, fun d member => numeral.digits d (List.mem_append_left _ member)⟩ lead
      exact ⟨by rw [ofNat_ten_mul_add pos digit, written], by omega⟩

/-- A canonical numeral is what is written for its value. -/
theorem ofNat_placeValue {t : Text} (numeral : IsNumeral t)
    (canonical : t = ['0'] ∨ t.head? ≠ some '0') : ofNat (placeValue t) = t := by
  rcases canonical with rfl | lead
  · rfl
  · exact (ofNat_placeValue_of_head? numeral lead).1

theorem canonical_ofNat (n : Nat) : ofNat n = ['0'] ∨ (ofNat n).head? ≠ some '0' := by
  rcases Nat.eq_zero_or_pos n with rfl | pos
  · exact Or.inl rfl
  · exact Or.inr (head?_ofNat pos)

end Text

/-! ## Indexes -/

namespace Index

open Text (IsNumeral placeValue)

theorem ofNat?_eq_some_iff {m n : Nat} : ofNat? m = some n ↔ m = n ∧ n < bound := by
  rw [ofNat?, Option.ite_none_right_eq_some, Option.some.injEq]
  exact ⟨fun ⟨small, same⟩ => ⟨same, same ▸ small⟩, fun ⟨same, small⟩ => ⟨same ▸ small, same⟩⟩

/-- What follows the plus sign that a text may begin with. -/
def unsigned : Text → Text
  | '+' :: t => t
  | t => t

theorem unsigned_of_head? {t : Text} (h : t.head? ≠ some '+') : unsigned t = t :=
  unsigned.eq_2 t fun _ begins => h (congrArg List.head? begins)

theorem unsigned_ofNat (n : Nat) : unsigned (Text.ofNat n) = Text.ofNat n := by
  refine unsigned_of_head? fun plus => ?_
  have digit := (Text.isNumeral_ofNat n).digits '+' (List.mem_of_head? plus)
  cases digit

theorem read?_eq (t : Text) : read? t = (Text.readNat? (unsigned t)).bind ofNat? := by
  unfold read?
  split
  next => rfl
  next noSign => rw [unsigned.eq_2 t noSign]

theorem read?_eq_some_iff {t : Text} {n : Nat} :
    read? t = some n ↔ IsNumeral (unsigned t) ∧ placeValue (unsigned t) = n ∧ n < bound := by
  rw [read?_eq, Option.bind_eq_some_iff]
  simp only [Text.readNat?_eq_some_iff, ofNat?_eq_some_iff]
  exact ⟨fun ⟨_, ⟨numeral, value⟩, same, small⟩ => ⟨numeral, value.trans same, small⟩,
    fun ⟨numeral, value, small⟩ => ⟨n, ⟨numeral, value⟩, rfl, small⟩⟩

theorem readCanonical?_eq_some_iff {key : Text} {i : Nat} :
    readCanonical? key = some i ↔ key = Text.ofNat i ∧ i < bound := by
  rw [readCanonical?, Option.ite_none_right_eq_some, Option.bind_eq_some_iff]
  simp only [Text.readNat?_eq_some_iff, ofNat?_eq_some_iff]
  constructor
  · rintro ⟨canonical, n, ⟨numeral, rfl⟩, rfl, small⟩
    exact ⟨(Text.ofNat_placeValue numeral canonical).symm, small⟩
  · rintro ⟨rfl, small⟩
    exact ⟨Text.canonical_ofNat i, i, ⟨Text.isNumeral_ofNat i, Text.placeValue_ofNat i⟩, rfl, small⟩

/-- A position key is a written index. -/
theorem read?_of_readCanonical? {key : Text} {i : Nat} (h : readCanonical? key = some i) :
    read? key = some i := by
  obtain ⟨rfl, small⟩ := readCanonical?_eq_some_iff.mp h
  rw [read?_eq_some_iff, unsigned_ofNat]
  exact ⟨Text.isNumeral_ofNat i, Text.placeValue_ofNat i, small⟩

end Index

end Templating
