import Templating.Proofs.Placeholder.Anatomy
import Templating.Proofs.Placeholder.DataPath
import Templating.Proofs.Text.Numeral

/-!
# The index of a document

The index of a document is read from a numeral of at most 64 bits, with any
number of leading zeros.  Anything else is refused, and the error says what was
written (`readDocumentIndex_numeral`).

One plus sign in front is passed over, although it is no digit.  A placeholder
never brings one, since the grammars of both kinds take digits only.  So the
index of a data path is refused exactly if one of its digits is of another script
or its value is too large, and that of a query only if its value is too large.
-/

namespace Templating

open Text (IsNumeral placeValue)

/-! ## Texts -/

/-- What a numeral denotes if its value fits into 64 bits. -/
structure Index.Denotes (t : Text) (n : Nat) : Prop where
  numeral : IsNumeral t
  value : placeValue t = n
  fits : n ≤ 2 ^ 64 - 1

theorem Index.read?_eq_some_iff_denotes {t : Text} {n : Nat} :
    read? t = some n ↔ Denotes (unsigned t) n := by
  have last : n < bound ↔ n ≤ 2 ^ 64 - 1 := Nat.lt_iff_le_pred (by decide)
  rw [read?_eq_some_iff, last]
  exact ⟨fun ⟨numeral, value, fits⟩ => ⟨numeral, value, fits⟩,
    fun ⟨numeral, value, fits⟩ => ⟨numeral, value, fits⟩⟩

theorem readDocumentIndex_eq_ok_iff {written : Text} {n : Nat} :
    readDocumentIndex written = .ok n ↔ Index.Denotes (Index.unsigned written) n := by
  rw [← Index.read?_eq_some_iff_denotes, readDocumentIndex]
  cases Index.read? written with
  | none => simp
  | some m => simp

theorem readDocumentIndex_eq_error {written : Text}
    (h : ∀ n, ¬Index.Denotes (Index.unsigned written) n) :
    readDocumentIndex written = .error (.badIndex written) := by
  rw [readDocumentIndex]
  cases read : Index.read? written with
  | none => rfl
  | some n => exact absurd (Index.read?_eq_some_iff_denotes.mp read) (h n)

theorem Index.denotes_unsigned_iff {t : Text} {n : Nat} :
    Denotes (unsigned t) n ↔ Denotes t n ∨ ∃ digits, t = '+' :: digits ∧ Denotes digits n := by
  by_cases plus : t.head? = some '+'
  · obtain ⟨digits, rfl⟩ := List.head?_eq_some_iff.mp plus
    have signed : ¬Denotes ('+' :: digits) n := fun h =>
      absurd (h.numeral.digits '+' List.mem_cons_self) (by decide)
    simp [unsigned, signed]
  · rw [unsigned_of_head? plus, or_iff_left]
    rintro ⟨digits, rfl, -⟩
    exact plus rfl

/-- The index of a document is what a numeral of at most 64 bits says, which may have one plus sign
in front.  Any other text is refused, and named as it is. -/
theorem readDocumentIndex_numeral (written : Text) :
    (∀ n, readDocumentIndex written = .ok n ↔
      Index.Denotes written n ∨ ∃ digits, written = '+' :: digits ∧ Index.Denotes digits n) ∧
    ((∃ n, readDocumentIndex written = .ok n) ∨
      readDocumentIndex written = .error (.badIndex written)) := by
  refine ⟨fun n => readDocumentIndex_eq_ok_iff.trans Index.denotes_unsigned_iff, ?_⟩
  by_cases denotes : ∃ n, Index.Denotes (Index.unsigned written) n
  · obtain ⟨n, denotes⟩ := denotes
    exact Or.inl ⟨n, readDocumentIndex_eq_ok_iff.mpr denotes⟩
  · exact Or.inr (readDocumentIndex_eq_error (not_exists.mp denotes))

/-- `+5` is read as an index, although it is not digits only. -/
theorem readDocumentIndex_plusSign :
    readDocumentIndex ['+', '5'] = .ok 5 ∧ (∀ n, ¬Index.Denotes ['+', '5'] n) ∧
      ¬∀ written n, readDocumentIndex written = .ok n ↔ Index.Denotes written n := by
  have read : readDocumentIndex ['+', '5'] = .ok 5 := rfl
  have signed (n : Nat) : ¬Index.Denotes ['+', '5'] n := fun h =>
    absurd (h.numeral.digits '+' List.mem_cons_self) (by decide)
  exact ⟨read, signed, fun digitsOnly => signed 5 ((digitsOnly _ 5).mp read)⟩

example : readDocumentIndex (Text.ofNat (2 ^ 64)) = .error (.badIndex (Text.ofNat (2 ^ 64))) := by
  decide
example : readDocumentIndex ['٣'] = .error (.badIndex ['٣']) := by decide

/-! ## Placeholders -/

section Placeholders

variable {index : Text}

theorem unsigned_of_isDecimalDigit (digits : ∀ c ∈ index, isDecimalDigit c = true) :
    Index.unsigned index = index := by
  refine Index.unsigned_of_head? fun plus => ?_
  have digit := digits '+' (List.mem_of_head? plus)
  revert digit
  decide

/-- Among decimal digits of any script, those of ASCII are read, if their value is not too
large. -/
theorem readDocumentIndex_of_isDecimalDigit (nonempty : index ≠ [])
    (digits : ∀ c ∈ index, isDecimalDigit c = true) :
    readDocumentIndex index =
      if index.all Char.isDigit ∧ placeValue index ≤ 2 ^ 64 - 1 then
        .ok (placeValue index)
      else .error (.badIndex index) := by
  have plain := unsigned_of_isDecimalDigit digits
  split
  next fair =>
    rw [readDocumentIndex_eq_ok_iff, plain]
    exact ⟨⟨nonempty, List.all_eq_true.mp fair.1⟩, rfl, fair.2⟩
  next unfair =>
    refine readDocumentIndex_eq_error fun n denotes => unfair ?_
    rw [plain] at denotes
    exact ⟨List.all_eq_true.mpr denotes.numeral.digits, denotes.value ▸ denotes.fits⟩

end Placeholders

theorem DataPathRef.readDocumentIndex_index {t rest : Text} {ref : DataPathRef}
    (read : read? t = some (ref, rest)) :
    readDocumentIndex ref.index =
      if ref.index.all Char.isDigit ∧ placeValue ref.index ≤ 2 ^ 64 - 1 then
        .ok (placeValue ref.index)
      else .error (.badIndex ref.index) := by
  obtain ⟨form, proper, rfl, -⟩ := read?_eq_some_iff.mp read
  exact readDocumentIndex_of_isDecimalDigit proper.index_ne_nil proper.digits

theorem QueryRef.readDocumentIndex_index {t rest : Text} {ref : QueryRef}
    (read : read? t = some (ref, rest)) :
    readDocumentIndex ref.index =
      if placeValue ref.index ≤ 2 ^ 64 - 1 then .ok (placeValue ref.index)
      else .error (.badIndex ref.index) := by
  obtain ⟨_, _, _, ⟨nonempty, digits, -, -⟩, -, -⟩ := exists_front read
  have decimal : ∀ c ∈ ref.index, isDecimalDigit c = true := fun c member =>
    isDecimalDigit_of_isDigit (digits c member)
  rw [readDocumentIndex_of_isDecimalDigit nonempty decimal]
  exact if_congr (and_iff_right (List.all_eq_true.mpr digits)) rfl rfl

end Templating
