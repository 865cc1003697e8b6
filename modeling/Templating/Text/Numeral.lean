import Templating.Text.Basic

/-!
# Decimal numerals

Natural numbers and integers as decimal texts, in both directions.  Writing
gives the canonical numeral, without leading zeros and with a sign only when it
is a minus.  Reading also takes leading zeros.  Only ASCII digits are read.

`readNat?_ofNat` and `readInt?_ofInt` say that a written numeral reads back.
-/

namespace Templating.Text

/-! ## Writing -/

/-- The decimal numeral of a natural number. -/
def ofNat (n : Nat) : Text := Nat.toDigits 10 n

/-- The decimal numeral of an integer. -/
def ofInt : Int → Text
  | .ofNat n => ofNat n
  | .negSucc n => '-' :: ofNat (n + 1)

/-! ## Reading -/

/-- The number that a run of ASCII digits stands for, zero for an empty run. -/
def digitsValue (digits : Text) : Nat := Nat.ofDigitChars 10 digits 0

/-- The natural number that a text of one or more ASCII digits stands for. -/
def readNat? (t : Text) : Option Nat :=
  if t ≠ [] ∧ t.all Char.isDigit then some (digitsValue t) else none

/-- The integer that a text of ASCII digits, after an optional minus sign,
stands for. -/
def readInt? : Text → Option Int
  | '-' :: t => (readNat? t).map fun n => -(n : Int)
  | t => (readNat? t).map fun n => (n : Int)

theorem all_isDigit_ofNat (n : Nat) : (ofNat n).all Char.isDigit = true :=
  List.all_eq_true.2 fun _ h => Nat.isDigit_of_mem_toDigits (by decide) (by decide) h

theorem readNat?_ofNat (n : Nat) : readNat? (ofNat n) = some n := by
  simp only [readNat?, all_isDigit_ofNat, digitsValue]
  simp [ofNat, Nat.ofDigitChars_ten_toDigits]

theorem ofNat_inj {m n : Nat} (same : ofNat m = ofNat n) : m = n := by
  have read := congrArg readNat? same
  rwa [readNat?_ofNat, readNat?_ofNat, Option.some.injEq] at read

theorem readInt?_ofInt (n : Int) : readInt? (ofInt n) = some n := by
  cases n with
  | negSucc n => simp [ofInt, readInt?, readNat?_ofNat, Int.negSucc_eq]
  | ofNat n =>
    have digits := all_isDigit_ofNat n
    have read := readNat?_ofNat n
    simp only [ofInt]
    generalize ofNat n = t at digits read
    unfold readInt?
    split
    · simp at digits
    · simp [read]

example : ofInt (-120) = ['-', '1', '2', '0'] := by decide
example : readInt? ['-', '0', '7'] = some (-7) := by decide
example : readInt? ['-'] = none ∧ readNat? ['+', '1'] = none := by decide

end Templating.Text
