import Templating.Proofs.Path.Grammar

/-!
# Tokens read alike wherever they stand

What a token reader takes from one text it takes from every text that begins
with the same token and stops behind it.  So whatever is read as a quoted text,
an integer or a number is one in the sense of the grammar.

The numeral of a number has three parts, each with a span function of its own.
For each of them the lemma says that the part is taken again from in front of
every text that does not go on with it.
-/

namespace Templating.Path

open Text (Stops stops_cons)

/-! ## Outcomes -/

variable {ε α β : Type}

theorem map_eq_ok {f : α → β} {x : Except ε α} {b : β} (h : x.map f = .ok b) :
    ∃ a, x = .ok a ∧ f a = b := by
  cases x with
  | error e => cases h
  | ok a => exact ⟨a, rfl, Except.ok.inj h⟩

theorem bind_eq_ok {f : α → Except ε β} {x : Except ε α} {b : β} (h : x >>= f = .ok b) :
    ∃ a, x = .ok a ∧ f a = .ok b := by
  cases x with
  | error e => cases h
  | ok a => exact ⟨a, rfl, h⟩

theorem map_eq_error {f : α → β} {x : Except ε α} {e : ε} (h : x.map f = .error e) :
    x = .error e := by
  cases x with
  | error e' =>
      cases h
      rfl
  | ok a => cases h

theorem bind_eq_error {f : α → Except ε β} {x : Except ε α} {e : ε} (h : x >>= f = .error e) :
    x = .error e ∨ ∃ a, x = .ok a ∧ f a = .error e := by
  cases x with
  | error e' =>
      cases h
      exact Or.inl rfl
  | ok a => exact Or.inr ⟨a, rfl, h⟩

/-! ## Kinds of characters -/

theorem isNameChar_of_isBlank {c : Char} (h : isBlank c = true) : isNameChar c = false := by
  simp only [isBlank, blankRanges, List.any_cons, List.any_nil, Bool.or_false, Bool.or_eq_true,
    Bool.and_eq_true, decide_eq_true_eq] at h
  have code : c.val.toNat = c.toNat := rfl
  have letters : c.isAlphanum = false := by
    show (decide (c.val ≥ 'A'.val ∧ c.val ≤ 'Z'.val) || (c.val ≥ 'a'.val && c.val ≤ 'z'.val) ||
      (c.val ≥ '0'.val && c.val ≤ '9'.val)) = false
    simp only [Bool.or_eq_false_iff, Bool.and_eq_false_iff, decide_eq_false_iff_not,
      UInt32.le_iff_toNat_le, code, ge_iff_le, Char.reduceVal, UInt32.reduceToNat]
    omega
  simp only [isNameChar, letters, Bool.false_or, Bool.or_eq_false_iff, beq_eq_false_iff_ne]
  refine ⟨⟨?_, ?_⟩, ?_⟩ <;> (rintro rfl; revert h; decide)

theorem isOperandChar_of_isBlank {c : Char} (h : isBlank c = true) : isOperandChar c = false := by
  simp only [isOperandChar, isNameChar_of_isBlank h, Bool.false_or, Bool.or_eq_false_iff,
    beq_eq_false_iff_ne]
  refine ⟨⟨?_, ?_⟩, ?_⟩ <;> (rintro rfl; revert h; decide)

theorem isNameChar_of_isOperandChar {c : Char} (h : isOperandChar c = false) :
    isNameChar c = false := by
  simp only [isOperandChar, Bool.or_eq_false_iff] at h
  exact h.1.1.1

theorem isDigit_of_isNameChar {c : Char} (h : isNameChar c = false) : c.isDigit = false := by
  simp only [isNameChar, Char.isAlphanum, Bool.or_eq_false_iff] at h
  exact h.1.1.1.2

theorem isAlpha_of_isNameChar {c : Char} (h : isNameChar c = false) : c.isAlpha = false := by
  simp only [isNameChar, Char.isAlphanum, Bool.or_eq_false_iff] at h
  exact h.1.1.1.1

theorem isNameChar_of_startsNumber {c : Char} (h : startsNumber c = true) :
    isNameChar c = true := by
  simp only [startsNumber, Bool.or_eq_true] at h
  simp only [isNameChar, Char.isAlphanum, Bool.or_eq_true]
  rcases h with minus | digit
  · exact Or.inr minus
  · exact Or.inl (Or.inl (Or.inl (Or.inr digit)))

/-! ## Quoted texts -/

theorem readQuoted_cons {quote c : Char} (plain : c ≠ '\\') (t : Text) :
    readQuoted quote (c :: t) =
      if c = quote then .ok ([], t)
      else (readQuoted quote t).map fun (text, rest) => (c :: text, rest) := by
  rw [readQuoted]
  · intro escape
    exact absurd escape plain
  · intro d u escape
    exact absurd escape plain

theorem quotedText_close {quote : Char} (plain : quote ≠ '\\') : QuotedText quote [quote] [] := by
  intro u _
  rw [List.singleton_append, readQuoted_cons plain, if_pos rfl]

section QuotedText

variable {quote : Char} {w text : Text}

theorem QuotedText.escaped (h : QuotedText quote w text) (c : Char) :
    QuotedText quote ('\\' :: c :: w) (unescape c :: text) := by
  intro u fits
  rw [List.cons_append, List.cons_append, readQuoted, h fits]
  rfl

theorem QuotedText.plain (h : QuotedText quote w text) {c : Char} (plain : c ≠ '\\')
    (other : c ≠ quote) : QuotedText quote (c :: w) (c :: text) := by
  intro u fits
  rw [List.cons_append, readQuoted_cons plain, if_neg other, h fits]
  rfl

end QuotedText

/-- What is read as it stands does not begin with the mark of an escape. -/
theorem ne_escape {c : Char} {t : Text} (notLast : c = '\\' → t = [] → False)
    (notEscape : ∀ d u, c = '\\' → t = d :: u → False) : c ≠ '\\' := by
  intro escape
  cases t with
  | nil => exact notLast escape rfl
  | cons d u => exact notEscape d u escape rfl

theorem sound_readQuoted (quote : Char) : Sound (readQuoted quote) (QuotedText quote) := by
  intro t text rest h
  fun_induction readQuoted quote t generalizing text with
  | case1 => cases h
  | case2 => cases h
  | case3 c t ih =>
      obtain ⟨⟨text', rest'⟩, inner, same⟩ := map_eq_ok h
      cases same
      obtain ⟨w, split, reads⟩ := ih inner
      exact ⟨'\\' :: c :: w, by rw [split]; rfl, reads.escaped c⟩
  | case4 t notLast notEscape =>
      cases h
      exact ⟨[quote], rfl, quotedText_close (ne_escape notLast notEscape)⟩
  | case5 c t notLast notEscape other ih =>
      obtain ⟨⟨text', rest'⟩, inner, same⟩ := map_eq_ok h
      cases same
      obtain ⟨w, split, reads⟩ := ih inner
      exact ⟨c :: w, by rw [split]; rfl, reads.plain (ne_escape notLast notEscape) other⟩

/-! ## The parts of a numeral -/

theorem spanDigits_append {w u : Text} (all : ∀ c ∈ w, c.isDigit = true)
    (stops : Stops Char.isDigit u) : Text.spanDigits (w ++ u) = (w, u) := by
  rw [Text.spanDigits, Text.takeWhile_append_of_stops all stops,
    Text.dropWhile_append_of_stops all stops]

/-- The front of a text that a span function takes, and takes again from every
text that begins with it and fits. -/
def Spanned (fits : Text → Prop) (span : Text → Text × Text) (t : Text) : Prop :=
  t = (span t).1 ++ (span t).2 ∧ ∀ ⦃u⦄, fits u → span ((span t).1 ++ u) = ((span t).1, u)

theorem spanned_spanDigits (t : Text) : Spanned (Stops Char.isDigit) Text.spanDigits t :=
  ⟨List.takeWhile_append_dropWhile.symm,
    fun _ fits => spanDigits_append (fun _ => Text.mem_takeWhile) fits⟩

/-- A sign and the digits behind it. -/
theorem spanned_cons {span : Text → Text × Text} {c : Char} {t : Text}
    (sign : ∀ u, span (c :: u) = (c :: (Text.spanDigits u).1, (Text.spanDigits u).2)) :
    Spanned (Stops Char.isDigit) span (c :: t) := by
  obtain ⟨split, again⟩ := spanned_spanDigits t
  rw [Spanned, sign t]
  refine ⟨congrArg (c :: ·) split, fun u fits => ?_⟩
  rw [List.cons_append, sign, again fits]

theorem spanInteger_of_ne {t : Text} (h : t.head? ≠ some '-') :
    spanInteger t = Text.spanDigits t := by
  rw [spanInteger]
  intro u minus
  rw [minus] at h
  exact h rfl

theorem spanned_spanInteger {t : Text} (taken : (spanInteger t).1 ≠ []) :
    Spanned (Stops Char.isDigit) spanInteger t := by
  by_cases sign : t.head? = some '-'
  · obtain ⟨u, rfl⟩ := List.head?_eq_some_iff.mp sign
    exact spanned_cons fun _ => rfl
  · obtain ⟨split, again⟩ := spanned_spanDigits t
    rw [spanInteger_of_ne sign] at taken
    rw [Spanned, spanInteger_of_ne sign]
    refine ⟨split, fun u fits => ?_⟩
    rw [spanInteger_of_ne ?_, again fits]
    obtain ⟨c, w, digits⟩ := List.exists_cons_of_ne_nil taken
    have digit : c.isDigit = true :=
      Text.mem_takeWhile (t := t) (digits ▸ List.mem_cons_self : c ∈ (Text.spanDigits t).1)
    rw [digits]
    rintro same
    cases same
    revert digit
    decide

theorem startsNumber_of_spanInteger {t v : Text} {c : Char} (h : (spanInteger t).1 = c :: v) :
    startsNumber c = true := by
  by_cases sign : t.head? = some '-'
  · obtain ⟨u, rfl⟩ := List.head?_eq_some_iff.mp sign
    cases h
    rfl
  · rw [spanInteger_of_ne sign] at h
    have digit : c.isDigit = true :=
      Text.mem_takeWhile (t := t) (h ▸ List.mem_cons_self : c ∈ (Text.spanDigits t).1)
    rw [startsNumber, digit, Bool.or_true]

/-- What may go on a fraction or come in front of one. -/
def isFractionChar (c : Char) : Bool := c.isDigit || c == '.'

theorem spanFraction_of_stops {u : Text} (fits : Stops isFractionChar u) :
    spanFraction u = ([], u) := by
  rw [spanFraction]
  rintro d v rfl
  cases stops_cons.mp fits

theorem spanned_spanFraction (t : Text) : Spanned (Stops isFractionChar) spanFraction t := by
  have digits {u : Text} (fits : Stops isFractionChar u) : Stops Char.isDigit u :=
    fits.mono fun _ other => (Bool.or_eq_false_iff.mp other).1
  fun_cases spanFraction t with
  | case1 d t digit =>
      obtain ⟨split, again⟩ := spanned_spanDigits (d :: t)
      have value : spanFraction ('.' :: d :: t) =
          ('.' :: (Text.spanDigits (d :: t)).1, (Text.spanDigits (d :: t)).2) := by
        rw [spanFraction, if_pos digit]
      rw [Spanned, value]
      refine ⟨congrArg ('.' :: ·) split, fun u fits => ?_⟩
      have taken : (Text.spanDigits (d :: t)).1 = d :: t.takeWhile Char.isDigit :=
        List.takeWhile_cons_of_pos digit
      have once := again (digits fits)
      rw [taken] at once ⊢
      rw [List.cons_append] at once
      rw [List.cons_append, List.cons_append, spanFraction, if_pos digit, once]
  | case2 d t other =>
      have value : spanFraction ('.' :: d :: t) = ([], '.' :: d :: t) := by
        rw [spanFraction, if_neg other]
      rw [Spanned, value]
      exact ⟨rfl, fun u fits => spanFraction_of_stops fits⟩
  | case3 t noPoint =>
      have value : spanFraction t = ([], t) := by
        rw [spanFraction]
        exact noPoint
      rw [Spanned, value]
      exact ⟨rfl, fun u fits => spanFraction_of_stops fits⟩

theorem digit_stops {u : Text} (fits : Stops isOperandChar u) : Stops Char.isDigit u :=
  fits.mono fun _ other => isDigit_of_isNameChar (isNameChar_of_isOperandChar other)

theorem spanSigned_of_ne {t : Text} (minus : t.head? ≠ some '-') (plus : t.head? ≠ some '+') :
    spanSigned t = Text.spanDigits t := by
  rw [spanSigned]
  · rintro u rfl
    exact minus rfl
  · rintro u rfl
    exact plus rfl

theorem spanned_spanSigned (t : Text) : Spanned (Stops isOperandChar) spanSigned t := by
  by_cases minus : t.head? = some '-'
  · obtain ⟨u, rfl⟩ := List.head?_eq_some_iff.mp minus
    obtain ⟨split, again⟩ := @spanned_cons spanSigned '-' u fun _ => rfl
    exact ⟨split, fun v fits => again (digit_stops fits)⟩
  by_cases plus : t.head? = some '+'
  · obtain ⟨u, rfl⟩ := List.head?_eq_some_iff.mp plus
    obtain ⟨split, again⟩ := @spanned_cons spanSigned '+' u fun _ => rfl
    exact ⟨split, fun v fits => again (digit_stops fits)⟩
  obtain ⟨split, again⟩ := spanned_spanDigits t
  rw [Spanned, spanSigned_of_ne minus plus]
  refine ⟨split, fun u fits => ?_⟩
  have sign {c : Char} (other : c.isDigit = false) (going : isOperandChar c = true) :
      ((Text.spanDigits t).1 ++ u).head? ≠ some c := by
    intro first
    cases taken : (Text.spanDigits t).1 with
    | nil =>
        rw [taken] at first
        have stopped := fits c first
        rw [going] at stopped
        cases stopped
    | cons d w =>
        rw [taken] at first
        cases first
        have digit : c.isDigit = true :=
          Text.mem_takeWhile (t := t) (taken ▸ List.mem_cons_self : c ∈ (Text.spanDigits t).1)
        rw [digit] at other
        cases other
  rw [spanSigned_of_ne (sign rfl rfl) (sign rfl rfl), again (digit_stops fits)]

theorem spanExponent_of_stops {u : Text} (fits : Stops isOperandChar u) :
    spanExponent u = ([], u) := by
  cases u with
  | nil => rfl
  | cons c u =>
      rw [spanExponent, if_neg]
      rintro (rfl | rfl)
      · cases stops_cons.mp fits
      · cases stops_cons.mp fits

theorem spanned_spanExponent (t : Text) : Spanned (Stops isOperandChar) spanExponent t := by
  cases t with
  | nil => exact ⟨rfl, fun u fits => spanExponent_of_stops fits⟩
  | cons c t =>
      by_cases mark : c = 'e' ∨ c = 'E'
      · obtain ⟨split, again⟩ := spanned_spanSigned t
        have value (v : Text) :
            spanExponent (c :: v) = (c :: (spanSigned v).1, (spanSigned v).2) := by
          rw [spanExponent, if_pos mark]
        rw [Spanned, value t]
        refine ⟨congrArg (c :: ·) split, fun u fits => ?_⟩
        rw [List.cons_append, value, again fits]
      · have value : spanExponent (c :: t) = ([], c :: t) := by
          rw [spanExponent, if_neg mark]
        rw [Spanned, value]
        exact ⟨rfl, fun u fits => spanExponent_of_stops fits⟩

/-- Neither digits nor a point are at the front of an exponent. -/
theorem spanExponent_stops (t : Text) {u : Text} (fits : Stops isOperandChar u) :
    Stops isFractionChar ((spanExponent t).1 ++ u) := by
  have behind : Stops isFractionChar u := by
    refine fits.mono fun c other => ?_
    rw [isFractionChar, isDigit_of_isNameChar (isNameChar_of_isOperandChar other), Bool.false_or]
    simp only [isOperandChar, Bool.or_eq_false_iff] at other
    exact other.1.1.2
  cases t with
  | nil => exact behind
  | cons c t =>
      rw [spanExponent]
      split
      next mark =>
        rcases mark with rfl | rfl
        · exact stops_cons.mpr rfl
        · exact stops_cons.mpr rfl
      next => exact behind

/-- No digit is at the front of a fraction. -/
theorem spanFraction_stops (t : Text) {u : Text} (fits : Stops isFractionChar u) :
    Stops Char.isDigit ((spanFraction t).1 ++ u) := by
  have behind : Stops Char.isDigit u :=
    fits.mono fun _ other => (Bool.or_eq_false_iff.mp other).1
  rw [spanFraction.eq_def]
  split
  next =>
    split
    next => exact stops_cons.mpr rfl
    next => exact behind
  next => exact behind

/-! ## Integers and numbers -/

theorem ne_nil_of_readInt? {w : Text} {n : Int} (h : Text.readInt? w = some n) : w ≠ [] := by
  rintro rfl
  cases h

theorem sound_readInteger : Sound readInteger IntegerText := by
  intro t n rest h
  simp only [readInteger] at h
  split at h
  next k value =>
    cases h
    have taken := ne_nil_of_readInt? (Option.filter_eq_some_iff.mp value).1
    obtain ⟨split, again⟩ := spanned_spanInteger taken
    obtain ⟨c, v, first⟩ := List.exists_cons_of_ne_nil taken
    refine ⟨_, split, ⟨c, v, first, startsNumber_of_spanInteger first⟩, fun u fits => ?_⟩
    simp only [readInteger, again fits, value]
  next => cases h

theorem spanInteger_ne_nil {c : Char} {t : Text} (h : startsNumber c = true) :
    (spanInteger (c :: t)).1 ≠ [] := by
  by_cases minus : c = '-'
  · rw [minus]
    exact List.cons_ne_nil _ _
  · have digit : c.isDigit = true := by
      rw [startsNumber, beq_false_of_ne minus, Bool.false_or] at h
      exact h
    have noSign : (c :: t).head? ≠ some '-' := fun first => minus (Option.some.inj first)
    rw [spanInteger_of_ne noSign, Text.spanDigits, List.takeWhile_cons_of_pos digit]
    exact List.cons_ne_nil _ _

/-- The numeral at the front of a text, and what follows. -/
def spanNumeral (t : Text) : Text × Text :=
  let fraction := spanFraction (spanInteger t).2
  let power := spanExponent fraction.2
  ((spanInteger t).1 ++ fraction.1 ++ power.1, power.2)

/-- What a numeral stands for. -/
def numberOf? (numeral : Text) : Option Number :=
  match (Text.readInt? numeral).filter fitsSigned with
  | some n => some (.int n)
  | none => ((Double.read? numeral).filter Double.isFinite).map .double

theorem readNumber_eq (t : Text) :
    readNumber t =
      match numberOf? (spanNumeral t).1 with
      | some n => .ok (n, (spanNumeral t).2)
      | none => .error (.badNumber (spanNumeral t).1) := by
  simp only [readNumber, numberOf?, spanNumeral]
  cases (Text.readInt? _).filter fitsSigned with
  | some n => rfl
  | none => cases (Double.read? _).filter Double.isFinite with
    | some x => rfl
    | none => rfl

theorem spanned_spanNumeral {t : Text} (taken : (spanInteger t).1 ≠ []) :
    Spanned (Stops isOperandChar) spanNumeral t := by
  obtain ⟨whole, wholeAgain⟩ := spanned_spanInteger taken
  obtain ⟨fraction, fractionAgain⟩ := spanned_spanFraction (spanInteger t).2
  obtain ⟨power, powerAgain⟩ := spanned_spanExponent (spanFraction (spanInteger t).2).2
  refine ⟨?_, fun u fits => ?_⟩
  · simp only [spanNumeral, List.append_assoc]
    rw [← power, ← fraction, ← whole]
  · have behindWhole := spanExponent_stops (spanFraction (spanInteger t).2).2 fits
    simp only [spanNumeral, List.append_assoc,
      wholeAgain (spanFraction_stops (spanInteger t).2 behindWhole), fractionAgain behindWhole,
      powerAgain fits]

theorem numberText_of_readNumber {c : Char} {t rest : Text} {n : Number}
    (starts : startsNumber c = true) (h : readNumber (c :: t) = .ok (n, rest)) :
    ∃ w, c :: t = w ++ rest ∧ NumberText w n := by
  have taken := spanInteger_ne_nil (t := t) starts
  obtain ⟨split, again⟩ := spanned_spanNumeral taken
  rw [readNumber_eq] at h
  split at h
  next k value =>
    cases h
    obtain ⟨d, v, first⟩ := List.exists_cons_of_ne_nil taken
    refine ⟨_, split, ⟨d, ?_, ?_, startsNumber_of_spanInteger first⟩, fun u fits => ?_⟩
    · exact v ++ (spanFraction (spanInteger (c :: t)).2).1 ++
        (spanExponent (spanFraction (spanInteger (c :: t)).2).2).1
    · simp only [spanNumeral, first, List.cons_append]
    · rw [readNumber_eq, again fits]
      simp only [value]
  next => cases h

end Templating.Path
