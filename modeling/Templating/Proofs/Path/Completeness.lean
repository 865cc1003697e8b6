import Templating.Proofs.Path.Soundness

/-!
# What is in the grammar is read

Every text of the grammar is read as what it stands for, wherever the text
behind it ends it (`Reads`).  What ends a part differs from part to part.  An
item is ended by everything but a digit, an operand by everything but an operand
character.  A term is ended by a closing parenthesis or an operator, a
conjunction by a closing parenthesis or `||`, and a filter by the parenthesis
only.

Behind its blanks every part begins with a character that tells its kind, so no
reader mistakes one kind for another.

With the other direction, `parse_eq_ok_iff` says that an expression is read as a
path if and only if it is a text of that path.
-/

namespace Templating.Path

open Text (Blanks Sequence Solid Stops TurnsTo many_of_sequence solid_cons stops_cons)

variable {α : Type}

/-! ## First characters -/

theorem isQuote_of_startsNumber {c : Char} (h : startsNumber c = true) : isQuote c = false := by
  apply Bool.eq_false_iff.mpr
  intro quote
  simp only [isQuote, Bool.or_eq_true, beq_iff_eq] at quote
  rcases quote with rfl | rfl
  · cases h
  · cases h

theorem isBlank_of_isNameChar {c : Char} (h : isNameChar c = true) : isBlank c = false := by
  apply Bool.eq_false_iff.mpr
  intro blank
  rw [isNameChar_of_isBlank blank] at h
  cases h

theorem isDigit_of_isBlank {c : Char} (h : isBlank c = true) : c.isDigit = false :=
  isDigit_of_isNameChar (isNameChar_of_isBlank h)

theorem IntegerText.solid {w : Text} {n : Int} (h : IntegerText w n) : Solid w := by
  obtain ⟨⟨c, v, rfl, starts⟩, -⟩ := h
  exact solid_cons (isBlank_of_isNameChar (isNameChar_of_startsNumber starts)) v

theorem ItemText.solid {w : Text} {s : Step} (h : ItemText w s) : Solid w := by
  cases h with
  | name quote _ => exact solid_cons (isBlank_of_isQuote quote) _
  | index integer => exact integer.solid

/-- What an operand may begin with. -/
def startsOperand (c : Char) : Bool := c == '@' || isQuote c || isNameChar c

theorem OperandText.starts {w : Text} {operand : Operand} (h : OperandText w operand) :
    ∃ c v, w = c :: v ∧ startsOperand c = true := by
  cases h with
  | current _ => exact ⟨_, _, rfl, rfl⟩
  | quoted quote _ =>
      refine ⟨_, _, rfl, ?_⟩
      rw [startsOperand, quote, Bool.or_true, Bool.true_or]
  | number number =>
      obtain ⟨⟨c, v, rfl, starts⟩, -⟩ := number
      exact ⟨c, v, rfl, by rw [startsOperand, isNameChar_of_startsNumber starts, Bool.or_true]⟩
  | trueWord => exact ⟨_, _, rfl, rfl⟩
  | falseWord => exact ⟨_, _, rfl, rfl⟩
  | nullWord => exact ⟨_, _, rfl, rfl⟩

theorem isBlank_of_startsOperand {c : Char} (h : startsOperand c = true) : isBlank c = false := by
  simp only [startsOperand, Bool.or_eq_true, beq_iff_eq] at h
  rcases h with (rfl | quote) | name
  · rfl
  · exact isBlank_of_isQuote quote
  · exact isBlank_of_isNameChar name

theorem OperandText.solid {w : Text} {operand : Operand} (h : OperandText w operand) :
    Solid w := by
  obtain ⟨c, v, rfl, starts⟩ := h.starts
  exact solid_cons (isBlank_of_startsOperand starts) v

/-! ## Blanks and fixed characters -/

theorem expect_skipBlanks {b : Text} {c : Char} (blank : Blanks b) (solid : isBlank c = false)
    (t : Text) : expect c (Text.skipBlanks (b ++ c :: t)) = .ok t := by
  rw [Text.skipBlanks_append blank, Text.skipBlanks_cons solid, expect, if_pos rfl]

/-- What is read as a part is read so behind blanks. -/
theorem Reads.spaced {fits : Text → Prop} {read : Text → Reading (α × Text)}
    {part : Text → α → Prop} (reads : ∀ ⦃w a⦄, part w a → Reads fits read w a)
    (solid : ∀ ⦃w a⦄, part w a → Solid w) {w : Text} {a : α} (h : Spaced part w a) :
    Reads fits (fun t => read (Text.skipBlanks t)) w a := by
  intro u behind
  cases h with
  | after blank here =>
      dsimp only
      rw [List.append_assoc, Text.skipBlanks_append blank, ((solid here).append u).skipBlanks_eq,
        reads here behind]

theorem stops_of_turnsTo_bracket {u : Text} (h : TurnsTo [']'] u) : Stops Char.isDigit u :=
  h.stops (fun _ => isDigit_of_isBlank) rfl

theorem turnsTo_bracket {b : Text} (blank : Blanks b) (u : Text) : TurnsTo [']'] (b ++ ']' :: u) :=
  Text.turnsTo_of_blanks blank rfl List.mem_cons_self u

/-! ## Steps and items -/

theorem ItemText.reads {w : Text} {s : Step} (h : ItemText w s) :
    Reads (Stops Char.isDigit) readItem w s := by
  intro u fits
  cases h with
  | name quote text =>
      rw [List.cons_append, readItem, if_pos quote, text trivial]
      rfl
  | index integer =>
      obtain ⟨⟨c, v, rfl, starts⟩, reads⟩ := integer
      have noQuote : ¬isQuote c = true := by
        rw [isQuote_of_startsNumber starts]
        exact Bool.false_ne_true
      rw [List.cons_append, readItem, if_neg noQuote, if_pos starts, ← List.cons_append, reads fits]
      rfl

theorem readItem_skipBlanks {w : Text} {s : Step} (h : Spaced ItemText w s) :
    Reads (Stops Char.isDigit) (fun t => readItem (Text.skipBlanks t)) w s :=
  Reads.spaced (fun _ _ => ItemText.reads) (fun _ _ => ItemText.solid) h

theorem readNextItem?_append {w u : Text} {s : Step} (h : Spaced NextItemText w s)
    (fits : Stops Char.isDigit u) : readNextItem? (w ++ u) = .ok (some (s, u)) := by
  cases h with
  | after blank next =>
      cases next with
      | comma item =>
          rw [readNextItem?, List.append_assoc, Text.skipBlanks_append blank, List.cons_append,
            Text.skipBlanks_cons rfl]
          simp only [readItem_skipBlanks item fits]
          rfl

theorem readNextItem?_of_turnsTo {u : Text} (h : TurnsTo [']'] u) :
    readNextItem? u = .ok none := by
  obtain ⟨c, v, skipped, first⟩ := h
  rw [readNextItem?, skipped, List.mem_singleton.mp first]
  rfl

theorem stops_of_nextItem {w : Text} {s : Step} (h : Spaced NextItemText w s) (u : Text) :
    Stops Char.isDigit (w ++ u) := by
  cases h with
  | @after b w _ blank next =>
      cases next with
      | @comma w _ item =>
          have turns : TurnsTo [','] (b ++ ',' :: (w ++ u)) :=
            Text.turnsTo_of_blanks blank rfl List.mem_cons_self (w ++ u)
          rw [List.append_assoc]
          exact turns.stops (fun _ => isDigit_of_isBlank) rfl

theorem many_nextItems {w u : Text} {steps : List Step}
    (h : Sequence (Spaced NextItemText) w steps) (behind : TurnsTo [']'] u) :
    Text.many readNextItem? (w ++ u) = .ok (steps, u) ∧ Stops Char.isDigit (w ++ u) :=
  many_of_sequence (fun _ _ _ => readNextItem?_append)
    (fun _ _ => Spaced.ne_nil fun _ _ => NextItemText.ne_nil)
    (fun _ _ u next => stops_of_nextItem next u) h (stops_of_turnsTo_bracket behind)
    (Or.inr (readNextItem?_of_turnsTo behind))

theorem readRelativeStep?_append {w u : Text} {s : Step} (h : RelativeText w s)
    (fits : Stops isNameChar u) : readRelativeStep? (w ++ u) = .ok (some (s, u)) := by
  cases h with
  | member some all =>
      rw [List.cons_append, readRelativeStep?, Text.takeWhile_append_of_stops all fits,
        Text.dropWhile_append_of_stops all fits, if_neg some]
  | item item blank =>
      have read := readItem_skipBlanks item (stops_of_turnsTo_bracket (turnsTo_bracket blank u))
      have close : expect ']' (Text.skipBlanks (_ ++ ']' :: u)) = .ok u :=
        expect_skipBlanks blank rfl u
      dsimp only at read
      simp only [List.cons_append, List.append_assoc, List.nil_append, readRelativeStep?, read,
        close, bind, Except.bind]
      rfl

theorem stops_of_relative {w : Text} {s : Step} (h : RelativeText w s) (u : Text) :
    Stops isNameChar (w ++ u) := by
  cases h with
  | member _ _ => exact stops_cons.mpr rfl
  | item _ _ => exact stops_cons.mpr rfl

/-! ## Operands -/

theorem readRelativeStep?_of_stops {u : Text} (fits : Stops isOperandChar u) :
    readRelativeStep? u = .ok none := by
  unfold readRelativeStep?
  split
  next => cases stops_cons.mp fits
  next => cases stops_cons.mp fits
  next => rfl

theorem stops_of_operand {u : Text} (fits : Stops isOperandChar u) : Stops isNameChar u :=
  fits.mono fun _ => isNameChar_of_isOperandChar

theorem many_relativeSteps {w u : Text} {steps : List Step} (h : Sequence RelativeText w steps)
    (fits : Stops isOperandChar u) : Text.many readRelativeStep? (w ++ u) = .ok (steps, u) :=
  (many_of_sequence (fun _ _ _ => readRelativeStep?_append) (fun _ _ => RelativeText.ne_nil)
    (fun _ _ u step => stops_of_relative step u) h (stops_of_operand fits)
    (Or.inr (readRelativeStep?_of_stops fits))).1

theorem readWord_append {w u : Text} (letters : w.all Char.isAlpha = true)
    (fits : Stops isOperandChar u) :
    readWord (w ++ u) = (readWord w).map fun (l, _) => (l, u) := by
  have ends : Stops Char.isAlpha u := (stops_of_operand fits).mono fun _ => isAlpha_of_isNameChar
  have letter := List.all_eq_true.mp letters
  have alone : w.takeWhile Char.isAlpha = w := by
    have taken := Text.takeWhile_append_of_stops letter Text.stops_nil
    rwa [List.append_nil] at taken
  simp only [readWord, Text.takeWhile_append_of_stops letter ends,
    Text.dropWhile_append_of_stops letter ends, alone]
  split
  next => rfl
  next =>
    split
    next => rfl
    next =>
      split
      next => rfl
      next => rfl

theorem readOperand_quoted {quote : Char} {w text : Text} (h : isQuote quote = true)
    (reads : QuotedText quote w text) (u : Text) :
    readOperand (quote :: (w ++ u)) = .ok (.literal (.str text), u) := by
  rw [readOperand, if_pos h, reads trivial]
  · rfl
  · rintro rfl
    cases h
  · rintro rfl
    cases h

theorem readOperand_number {w u : Text} {n : Number} (h : NumberText w n)
    (fits : Stops isOperandChar u) : readOperand (w ++ u) = .ok (.literal (.num n), u) := by
  obtain ⟨⟨c, v, rfl, starts⟩, reads⟩ := h
  have noQuote : ¬isQuote c = true := by
    rw [isQuote_of_startsNumber starts]
    exact Bool.false_ne_true
  rw [List.cons_append, readOperand, if_neg noQuote, if_pos starts, ← List.cons_append, reads fits]
  · rfl
  · rintro rfl
    cases starts
  · rintro rfl
    cases starts

theorem OperandText.reads {w : Text} {operand : Operand} (h : OperandText w operand) :
    Reads (Stops isOperandChar) readOperand w operand := by
  intro u fits
  cases h with
  | current steps =>
      rw [List.cons_append, readOperand, many_relativeSteps steps fits]
      rfl
  | quoted quote reads => exact readOperand_quoted quote reads u
  | number number => exact readOperand_number number fits
  | trueWord =>
      have word := readWord_append (w := ['t', 'r', 'u', 'e']) rfl fits
      exact congrArg (Except.map _) word
  | falseWord =>
      have word := readWord_append (w := ['f', 'a', 'l', 's', 'e']) rfl fits
      exact congrArg (Except.map _) word
  | nullWord =>
      have word := readWord_append (w := ['n', 'u', 'l', 'l']) rfl fits
      exact congrArg (Except.map _) word

theorem readOperand_skipBlanks {w : Text} {operand : Operand} (h : Spaced OperandText w operand) :
    Reads (Stops isOperandChar) (fun t => readOperand (Text.skipBlanks t)) w operand :=
  Reads.spaced (fun _ _ => OperandText.reads) (fun _ _ => OperandText.solid) h

/-! ## Comparisons -/

/-- The symbols of comparisons that begin others are told apart by `=`. -/
theorem readComparison?_append (comparison : Comparison) {t : Text} (h : Stops (· == '=') t) :
    readComparison? (comparison.symbol ++ t) = some (comparison, t) := by
  cases t with
  | nil => cases comparison <;> rfl
  | cons c t =>
      have other : c ≠ '=' := by simpa using stops_cons.mp h
      cases comparison <;>
        simp [readComparison?, Comparison.all, Comparison.symbol, Text.after?, other.symm]

theorem readComparison?_of_turnsTo {u : Text} (h : TurnsTo [')', '|', '&'] u) :
    readComparison? (Text.skipBlanks u) = none := by
  obtain ⟨c, v, skipped, first⟩ := h
  rw [skipped]
  simp only [List.mem_cons, List.not_mem_nil, or_false] at first
  rcases first with rfl | rfl | rfl
  · rfl
  · rfl
  · rfl

/-- What goes on a term, behind its blanks. -/
theorem stops_of_turnsTo {u : Text} (h : TurnsTo [')', '|', '&'] u) : Stops isOperandChar u :=
  h.stops (fun _ => isOperandChar_of_isBlank) rfl

theorem stops_of_symbol {b : Text} (blank : Blanks b) (comparison : Comparison) (t : Text) :
    Stops isOperandChar (b ++ (comparison.symbol ++ t)) := by
  have turns : TurnsTo ['=', '!', '<', '>'] (b ++ (comparison.symbol ++ t)) := by
    cases comparison <;> exact Text.turnsTo_of_blanks blank rfl (by decide) _
  exact turns.stops (fun _ => isOperandChar_of_isBlank) rfl

theorem stops_of_operandText {w : Text} {operand : Operand} (h : Spaced OperandText w operand)
    (u : Text) : Stops (· == '=') (w ++ u) := by
  cases h with
  | @after b w _ blank here =>
      obtain ⟨c, v, rfl, starts⟩ := here.starts
      have turns : TurnsTo [c] (b ++ c :: (v ++ u)) :=
        Text.turnsTo_of_blanks blank (isBlank_of_startsOperand starts) List.mem_cons_self (v ++ u)
      rw [List.append_assoc]
      have apart : c ≠ '=' := by
        rintro rfl
        cases starts
      refine turns.stops (fun d blank => beq_false_of_ne ?_) ?_
      · rintro rfl
        cases blank
      · rw [List.all_cons, List.all_nil, Bool.and_true, beq_false_of_ne apart, Bool.not_false]

theorem readComparing_truthy {w u : Text} {operand : Operand} (h : OperandText w operand)
    (fits : TurnsTo [')', '|', '&'] u) : readComparing (w ++ u) = .ok (.truthy operand, u) := by
  simp only [readComparing, h.reads (stops_of_turnsTo fits), bind, Except.bind,
    readComparison?_of_turnsTo fits]
  rfl

theorem readComparing_compare {w gap v u : Text} {left right : Operand} {comparison : Comparison}
    (leftText : OperandText w left) (blank : Blanks gap) (rightText : Spaced OperandText v right)
    (fits : TurnsTo [')', '|', '&'] u) :
    readComparing (w ++ (gap ++ (comparison.symbol ++ (v ++ u)))) =
      .ok (.compare left comparison right, u) := by
  have symbol : Text.skipBlanks (gap ++ (comparison.symbol ++ (v ++ u))) =
      comparison.symbol ++ (v ++ u) := by
    rw [Text.skipBlanks_append blank]
    cases comparison <;> exact Text.skipBlanks_cons rfl _
  have second := readOperand_skipBlanks rightText (stops_of_turnsTo fits)
  dsimp only at second
  simp only [readComparing, leftText.reads (stops_of_symbol blank comparison (v ++ u)), symbol,
    readComparison?_append comparison (stops_of_operandText rightText u), second, bind,
    Except.bind]
  rfl

/-! ## Chains -/

section Chains

variable {symbol : Text} {join : Filter → Filter → Filter} {ends : List Char} {mark : Char}
  {part : Text → Reading (Filter × Text)} {form : Text → Filter → Prop}

/-- A chain is its first part and links, joined to the left. -/
theorem Chained.exists_links {join : α → α → α} {part : Text → α → Prop} {w : Text} {a : α}
    (h : Chained symbol join part w a) :
    ∃ w' v a' as, w = w' ++ v ∧ part w' a' ∧ Sequence (Spaced (LinkText symbol part)) v as ∧
      a = as.foldl join a' := by
  induction h with
  | one here => exact ⟨_, [], _, [], (List.append_nil _).symm, here, .nil, rfl⟩
  | more _ link ih =>
      obtain ⟨w', v, a', as, rfl, here, links, rfl⟩ := ih
      refine ⟨w', _, a', as ++ [_], List.append_assoc _ _ _, here,
        links.append (.singleton link), ?_⟩
      rw [List.foldl_append]
      rfl

theorem readLink?_append (solid : isBlank mark = false)
    (reads : ∀ ⦃w f⦄, form w f → Reads (TurnsTo ends) part w f) {w u : Text} {f : Filter}
    (h : Spaced (LinkText (mark :: symbol) form) w f) (fits : TurnsTo ends u) :
    readLink? (mark :: symbol) part (w ++ u) = .ok (some (f, u)) := by
  cases h with
  | @after b w _ blank link =>
      cases link with
      | @link w _ here =>
          have found :
              Text.after? (mark :: symbol) (mark :: (symbol ++ (w ++ u))) = some (w ++ u) :=
            Text.after?_eq_some_iff.mpr rfl
          rw [readLink?, List.append_assoc, List.append_assoc, Text.skipBlanks_append blank,
            List.cons_append, Text.skipBlanks_cons solid, found]
          simp only [reads here fits]
          rfl

theorem turnsTo_of_link (solid : isBlank mark = false) {w : Text} {f : Filter}
    (h : Spaced (LinkText (mark :: symbol) form) w f) (u : Text) :
    TurnsTo (ends ++ [mark]) (w ++ u) := by
  cases h with
  | after blank link =>
      cases link with
      | link here =>
          rw [List.append_assoc, List.append_assoc]
          exact Text.turnsTo_of_blanks blank solid List.mem_append_cons_self _

theorem readLink?_of_turnsTo (outside : mark ∉ ends) {u : Text} (h : TurnsTo ends u) :
    readLink? (mark :: symbol) part u = .ok none := by
  obtain ⟨c, v, skipped, first⟩ := h
  have apart : mark ≠ c := by
    rintro rfl
    exact outside first
  rw [readLink?, skipped, Text.after?, if_neg apart]

/-- A part is ended by what ends its chain, and by the operator. -/
theorem Reads.chain (solid : isBlank mark = false) (outside : mark ∉ ends)
    (reads : ∀ ⦃w f⦄, form w f → Reads (TurnsTo (ends ++ [mark])) part w f) {w : Text} {f : Filter}
    (h : Chained (mark :: symbol) join form w f) :
    Reads (TurnsTo ends) (readChain (mark :: symbol) join part) w f := by
  intro u fits
  obtain ⟨w', v, first, others, rfl, here, links, rfl⟩ := h.exists_links
  have tail := many_of_sequence (fun _ _ _ => readLink?_append solid reads)
    (fun _ _ => Spaced.ne_nil fun _ _ => LinkText.ne_nil (List.cons_ne_nil _ _))
    (fun _ _ u link => turnsTo_of_link solid link u) links
    (fits.mono fun _ => List.mem_append_left [mark]) (Or.inr (readLink?_of_turnsTo outside fits))
  rw [readChain_eq, List.append_assoc, reads here tail.2]
  simp only [bind, Except.bind, tail.1]
  rfl

end Chains

theorem Reads.filter {term : Text → Reading (Filter × Text)} {form : Text → Filter → Prop}
    (reads : ∀ ⦃w f⦄, form w f → Reads (TurnsTo [')', '|', '&']) term w f) {w : Text} {f : Filter}
    (h : FilterForm form w f) : Reads (TurnsTo [')']) (readFilterOf term) w f := by
  have conjunctions {w : Text} {f : Filter} (h : ConjunctionForm form w f) :
      Reads (TurnsTo ([')'] ++ ['|'])) (readChain ['&', '&'] .and term) w f :=
    Reads.chain rfl (by decide) reads h
  exact Reads.chain rfl (by decide) (fun _ _ => conjunctions) h

/-! ## Terms -/

theorem turnsTo_parenthesis {b : Text} (blank : Blanks b) (u : Text) :
    TurnsTo [')'] (b ++ ')' :: u) :=
  Text.turnsTo_of_blanks blank rfl List.mem_cons_self u

/-- What begins an operand begins no other term. -/
theorem readTerm_operand {levels : Nat} {w : Text} {operand : Operand} (h : OperandText w operand)
    (u : Text) : readTerm (levels + 1) (w ++ u) = readComparing (w ++ u) := by
  obtain ⟨c, v, rfl, starts⟩ := h.starts
  rw [readTerm, List.cons_append, Text.skipBlanks_cons (isBlank_of_startsOperand starts)]
  split
  next same =>
    cases same
    cases starts
  next same =>
    cases same
    cases starts
  next => rfl

/-- A budget of levels that suffices for the grammar suffices for the reader. -/
theorem TermText.reads {levels : Nat} {w : Text} {f : Filter} (h : TermText levels w f) :
    Reads (TurnsTo [')', '|', '&']) (readTerm levels) w f := by
  induction levels generalizing w f with
  | zero => cases h
  | succ levels ih =>
      intro u fits
      cases h with
      | @after b w _ blank form =>
          have skipped : readTerm (levels + 1) (b ++ w ++ u) = readTerm (levels + 1) (w ++ u) := by
            rw [readTerm, readTerm, List.append_assoc, Text.skipBlanks_append blank]
          rw [skipped]
          cases form with
          | not inner =>
              rw [List.cons_append, readTerm, Text.skipBlanks_cons rfl]
              simp only [ih inner fits]
              rfl
          | @group w behind _ filter blank' =>
              have inner := Reads.filter (fun _ _ => ih) filter (turnsTo_parenthesis blank' u)
              have close : expect ')' (Text.skipBlanks (behind ++ ')' :: u)) = .ok u :=
                expect_skipBlanks blank' rfl u
              rw [List.cons_append, readTerm, Text.skipBlanks_cons rfl]
              simp only [List.append_assoc, List.cons_append, List.nil_append, inner, close, bind,
                Except.bind]
              rfl
          | truthy operand =>
              rw [readTerm_operand operand, readComparing_truthy operand fits]
          | compare left blank' right =>
              rw [List.append_assoc, readTerm_operand left, List.append_assoc, List.append_assoc,
                readComparing_compare left blank' right fits]

theorem FilterText.reads {w : Text} {f : Filter} (h : FilterText maxDepth w f) :
    Reads (TurnsTo [')']) readFilter w f :=
  Reads.filter (fun _ _ => TermText.reads) h

/-! ## Brackets -/

theorem endSlice_of_turnsTo (start stop : Option Int) {u : Text} (h : TurnsTo [']'] u) :
    endSlice start stop u = .ok (.slice start stop, Text.skipBlanks u) := by
  obtain ⟨c, v, skipped, first⟩ := h
  rw [endSlice, skipped, List.mem_singleton.mp first]
  rfl

theorem readSlice_append {w u : Text} {start stop : Option Int} (h : SliceEndText w stop)
    (fits : TurnsTo [']'] u) :
    readSlice start (w ++ u) = .ok (.slice start stop, Text.skipBlanks u) := by
  have ending := endSlice_of_turnsTo start stop fits
  rw [readSlice_eq]
  cases h with
  | «open» =>
      obtain ⟨c, v, skipped, first⟩ := fits
      rw [List.nil_append, skipped, List.mem_singleton.mp first]
      rfl
  | bound bound =>
      cases bound with
      | after blank integer =>
          rw [List.append_assoc, Text.skipBlanks_append blank,
            (integer.solid.append u).skipBlanks_eq]
          obtain ⟨⟨c, v, rfl, starts⟩, reads⟩ := integer
          have read := reads (stops_of_turnsTo_bracket fits)
          rw [List.cons_append] at read ⊢
          simp only [if_pos starts, read, bind, Except.bind]
          exact ending

/-- A sequence without the blanks in front of its first part. -/
theorem exists_unspaced {part : Text → α → Prop} {w : Text} {a : α} {as : List α}
    (h : Sequence (Spaced part) w (a :: as)) :
    ∃ b v v', Blanks b ∧ w = b ++ (v ++ v') ∧ part v a ∧
      Sequence (Spaced part) (v ++ v') (a :: as) := by
  cases h with
  | cons first others =>
      cases first with
      | after blank here =>
          refine ⟨_, _, _, blank, List.append_assoc _ _ _, here, ?_⟩
          exact .cons (.after Text.blanks_nil here) others

/-- Reads on behind the first item of a bracket. -/
def readOn (first : Step) (t : Text) : Reading (Selector × Text) :=
  match first, Text.skipBlanks t with
  | .index n, ':' :: t => readSlice (some n) t
  | _, t => do
      let (others, t) ← Text.many readNextItem? t
      match others with
      | [] => return (.step first, t)
      | _ => return (.union (first :: others), t)

/-- What begins an item begins nothing else in a bracket. -/
theorem readSelector_item {w u : Text} {s : Step} (h : ItemText w s)
    (fits : Stops Char.isDigit u) : readSelector (w ++ u) = readOn s u := by
  have reads := h.reads fits
  obtain ⟨c, v, rfl, begins⟩ : ∃ c v, w = c :: v ∧ (isQuote c = true ∨ startsNumber c = true) := by
    cases h with
    | name quote _ => exact ⟨_, _, rfl, Or.inl quote⟩
    | index integer =>
        obtain ⟨⟨c, v, rfl, starts⟩, -⟩ := integer
        exact ⟨c, v, rfl, Or.inr starts⟩
  rw [List.cons_append] at reads ⊢
  have apart (d : Char) (t : Text) (quote : isQuote d = false) (number : startsNumber d = false) :
      c :: (v ++ u) ≠ d :: t := by
    intro same
    rw [(List.cons.inj same).1, quote, number] at begins
    exact begins.elim Bool.false_ne_true Bool.false_ne_true
  rw [readSelector, readItems, reads]
  · rfl
  · exact fun t => apart ':' t rfl rfl
  · exact List.cons_ne_nil _ _
  · exact fun t => apart '*' t rfl rfl
  · exact fun t => apart '?' t rfl rfl
  · exact fun t => apart '(' t rfl rfl

theorem readOn_colon {n : Int} {t u : Text} (skipped : Text.skipBlanks t = ':' :: u) :
    readOn (.index n) t = readSlice (some n) u := by
  simp only [readOn, skipped]

theorem readOn_eq {first : Step} {t v : Text} {c : Char} (skipped : Text.skipBlanks t = c :: v)
    (other : c ≠ ':') :
    readOn first t = (Text.many readNextItem? (c :: v)).map fun (others, t) =>
      (if others = [] then .step first else .union (first :: others), t) := by
  rw [readOn, skipped]
  · cases Text.many readNextItem? (c :: v) with
    | error e => rfl
    | ok items =>
        obtain ⟨others, u⟩ := items
        cases others with
        | nil => rfl
        | cons s steps => rfl
  · intro n u _ colon
    rw [skipped] at colon
    exact other (List.cons.inj colon).1

theorem readSelector_filter {gap w behind : Text} {f : Filter} (gapBlank : Blanks gap)
    (filter : FilterText maxDepth w f) (blank : Blanks behind) (u : Text) :
    readSelector ('?' :: (gap ++ '(' :: (w ++ (behind ++ ')' :: u)))) = .ok (.filter f, u) := by
  have opening {t : Text} : expect '(' (Text.skipBlanks (gap ++ '(' :: t)) = .ok t :=
    expect_skipBlanks gapBlank rfl t
  have close : expect ')' (Text.skipBlanks (behind ++ ')' :: u)) = .ok u :=
    expect_skipBlanks blank rfl u
  simp only [readSelector, opening, filter.reads (turnsTo_parenthesis blank u), close, bind,
    Except.bind]
  rfl

/-- A bound and a colon behind it are the beginning of a slice. -/
theorem readSelector_slice {w gap v u : Text} {start : Int} {stop : Option Int}
    (integer : IntegerText w start) (gapBlank : Blanks gap) (ending : SliceEndText v stop)
    (fits : TurnsTo [']'] u) :
    readSelector (w ++ (gap ++ ':' :: (v ++ u))) =
      .ok (.slice (some start) stop, Text.skipBlanks u) := by
  have colon : Text.skipBlanks (gap ++ ':' :: (v ++ u)) = ':' :: (v ++ u) := by
    rw [Text.skipBlanks_append gapBlank, Text.skipBlanks_cons rfl]
  have turns : TurnsTo [':'] (gap ++ ':' :: (v ++ u)) :=
    Text.turnsTo_of_blanks gapBlank rfl List.mem_cons_self (v ++ u)
  have digits : Stops Char.isDigit (gap ++ ':' :: (v ++ u)) :=
    turns.stops (fun _ => isDigit_of_isBlank) rfl
  rw [readSelector_item (.index integer) digits, readOn_colon colon, readSlice_append ending fits]

theorem readSelector_step {w u : Text} {s : Step} (item : ItemText w s) (fits : TurnsTo [']'] u) :
    readSelector (w ++ u) = .ok (.step s, Text.skipBlanks u) := by
  obtain ⟨c, v, skipped, first⟩ := fits
  rw [List.mem_singleton.mp first] at skipped
  have none : Text.many readNextItem? ([] ++ ']' :: v) = .ok ([], ']' :: v) :=
    (many_nextItems .nil (turnsTo_bracket Text.blanks_nil v)).1
  have digits : Stops Char.isDigit u := stops_of_turnsTo_bracket ⟨_, v, skipped, List.mem_cons_self⟩
  rw [readSelector_item item digits, readOn_eq skipped (by decide), skipped,
    ← List.nil_append (_ :: v), none]
  rfl

/-- An item and a comma behind it are the beginning of a union. -/
theorem readSelector_union {w v u : Text} {s : Step} {steps : List Step} (item : ItemText w s)
    (others : Sequence (Spaced NextItemText) v steps) (several : steps ≠ [])
    (fits : TurnsTo [']'] u) : readSelector (w ++ (v ++ u)) = .ok (.union (s :: steps), u) := by
  have digits := (many_nextItems others fits).2
  obtain ⟨s', steps', rfl⟩ := List.exists_cons_of_ne_nil several
  obtain ⟨gap, _, v', gapBlank, rfl, next, commas⟩ := exists_unspaced others
  cases next with
  | @comma v _ next =>
      have comma : Text.skipBlanks (gap ++ (',' :: v ++ v') ++ u) = ',' :: (v ++ v' ++ u) := by
        rw [List.append_assoc, Text.skipBlanks_append gapBlank, List.cons_append,
          List.cons_append, Text.skipBlanks_cons rfl]
      have read := (many_nextItems commas fits).1
      rw [List.cons_append, List.cons_append] at read
      rw [readSelector_item item digits, readOn_eq comma (by decide), read]
      rfl

theorem readSelector_append {w b : Text} {s : Selector} (h : SelectorText w s) (blank : Blanks b)
    (u : Text) :
    ∃ v, readSelector (w ++ (b ++ ']' :: u)) = .ok (s, v) ∧ Text.skipBlanks v = ']' :: u := by
  have fits := turnsTo_bracket blank u
  have skipped : Text.skipBlanks (b ++ ']' :: u) = ']' :: u := by
    rw [Text.skipBlanks_append blank, Text.skipBlanks_cons rfl]
  have again := (Text.skipBlanks_skipBlanks (b ++ ']' :: u)).trans skipped
  cases h with
  | wildcard => exact ⟨_, rfl, skipped⟩
  | filter gapBlank filter behindBlank =>
      refine ⟨_, ?_, skipped⟩
      simp only [List.cons_append, List.append_assoc, List.nil_append]
      exact readSelector_filter gapBlank filter behindBlank _
  | sliceTo ending => exact ⟨_, readSlice_append ending fits, again⟩
  | slice integer gapBlank ending =>
      refine ⟨_, ?_, again⟩
      simp only [List.append_assoc, List.cons_append]
      exact readSelector_slice integer gapBlank ending fits
  | step item => exact ⟨_, readSelector_step item fits, again⟩
  | union item others several =>
      refine ⟨_, ?_, skipped⟩
      rw [List.append_assoc]
      exact readSelector_union item others several fits

theorem SelectorText.solid {w : Text} {s : Selector} (h : SelectorText w s) : Solid w := by
  cases h with
  | wildcard => exact solid_cons rfl _
  | filter _ _ _ => exact solid_cons rfl _
  | sliceTo _ => exact solid_cons rfl _
  | slice integer _ _ => exact integer.solid.append _
  | step item => exact item.solid
  | union item _ _ => exact item.solid.append _

theorem BracketText.reads {w : Text} {s : Selector} (h : BracketText w s) :
    Reads (fun _ => True) readBracket w s := by
  intro u _
  cases h with
  | close selector blank =>
      cases selector with
      | @after before w _ beforeBlank here =>
          obtain ⟨v, read, behind⟩ := readSelector_append here blank u
          simp only [readBracket, List.append_assoc, Text.skipBlanks_append beforeBlank,
            (here.solid.append _).skipBlanks_eq, List.singleton_append, read, behind, expect, bind,
            Except.bind]
          rfl

/-! ## Segments -/

theorem DottedText.reads {w : Text} {s : Selector} (h : DottedText w s) :
    Reads (Stops isNameChar) readDotted w s := by
  intro u fits
  cases h with
  | wildcard => rfl
  | @name name some all =>
      rw [readDotted, readName]
      · simp only [Text.takeWhile_append_of_stops all fits, Text.dropWhile_append_of_stops all fits,
          if_neg some]
        rfl
      · obtain ⟨c, v, rfl⟩ := List.exists_cons_of_ne_nil some
        rintro t same
        have first := all c List.mem_cons_self
        rw [(List.cons.inj same).1] at first
        cases first

/-- What begins a name or a wildcard is no point, no bracket and no blank. -/
theorem DottedText.exists_cons {w : Text} {s : Selector} (h : DottedText w s) :
    ∃ c v, w = c :: v ∧ c ≠ '.' ∧ c ≠ '[' := by
  cases h with
  | wildcard => exact ⟨_, _, rfl, by decide, by decide⟩
  | name some all =>
      obtain ⟨c, v, rfl⟩ := List.exists_cons_of_ne_nil some
      have first := all c List.mem_cons_self
      refine ⟨c, v, rfl, ?_, ?_⟩
      · rintro rfl
        cases first
      · rintro rfl
        cases first

/-- A point alone is in front of a child segment. -/
theorem readSegment?_point {c : Char} (noPoint : c ≠ '.') (t : Text) :
    readSegment? ('.' :: c :: t) = (readDotted (c :: t)).map fun (s, rest) =>
      some (.child s, rest) := by
  rw [readSegment?, Text.skipBlanks_cons rfl]
  split
  next same => cases same
  next same => exact absurd (List.cons.inj (List.cons.inj same).2).1 noPoint
  next same =>
    cases same
    rfl
  next same => cases same
  next point _ same => exact (point (List.cons.inj same).1.symm).elim

theorem readSegment?_append {w u : Text} {s : Segment} (h : Spaced SegmentText w s)
    (fits : Stops isNameChar u) : readSegment? (w ++ u) = .ok (some (s, u)) := by
  cases h with
  | @after b w _ blank here =>
      have skipped : readSegment? (b ++ w ++ u) = readSegment? (w ++ u) := by
        rw [readSegment?, readSegment?, List.append_assoc, Text.skipBlanks_append blank]
      rw [skipped]
      cases here with
      | dotted dotted =>
          have read := dotted.reads fits
          obtain ⟨c, v, rfl, noPoint, -⟩ := dotted.exists_cons
          rw [List.cons_append] at read
          rw [List.cons_append, List.cons_append, readSegment?_point noPoint, read]
          rfl
      | bracket bracket =>
          rw [List.cons_append, readSegment?, Text.skipBlanks_cons rfl]
          simp only [bracket.reads trivial]
          rfl
      | descendantDotted dotted =>
          have read := dotted.reads fits
          obtain ⟨c, v, rfl, -, noBracket⟩ := dotted.exists_cons
          rw [List.cons_append] at read
          rw [List.cons_append, List.cons_append, List.cons_append, readSegment?,
            Text.skipBlanks_cons rfl]
          simp only
          rw [readDescendant, read]
          · rfl
          · exact fun t same => noBracket (List.cons.inj same).1
      | descendantBracket bracket =>
          rw [List.cons_append, List.cons_append, List.cons_append, readSegment?,
            Text.skipBlanks_cons rfl]
          simp only [readDescendant, bracket.reads trivial]
          rfl

theorem SegmentText.exists_cons {w : Text} {s : Segment} (h : SegmentText w s) :
    ∃ c v, w = c :: v ∧ (c = '.' ∨ c = '[') := by
  cases h with
  | dotted _ => exact ⟨_, _, rfl, Or.inl rfl⟩
  | bracket _ => exact ⟨_, _, rfl, Or.inr rfl⟩
  | descendantDotted _ => exact ⟨_, _, rfl, Or.inl rfl⟩
  | descendantBracket _ => exact ⟨_, _, rfl, Or.inl rfl⟩

theorem stops_of_segment {w : Text} {s : Segment} (h : Spaced SegmentText w s) (u : Text) :
    Stops isNameChar (w ++ u) := by
  cases h with
  | @after b w _ blank here =>
      obtain ⟨c, v, rfl, first⟩ := here.exists_cons
      have turns : TurnsTo ['.', '['] (b ++ c :: (v ++ u)) := by
        rcases first with rfl | rfl
        · exact Text.turnsTo_of_blanks blank rfl (by decide) _
        · exact Text.turnsTo_of_blanks blank rfl (by decide) _
      rw [List.append_assoc]
      exact turns.stops (fun _ => isNameChar_of_isBlank) rfl

/-! ## Paths -/

/-- Blanks end the repetition of segments. -/
theorem readSegment?_of_blanks {u : Text} (blank : Blanks u) : readSegment? u = .ok none := by
  rw [readSegment?, Text.skipBlanks_eq_nil.mpr blank]

theorem stops_of_blanks {u : Text} (blank : Blanks u) : Stops isNameChar u :=
  fun c first => isNameChar_of_isBlank (blank c (List.mem_of_mem_head? first))

theorem many_segments {w behind : Text} {p : Path} (h : Sequence (Spaced SegmentText) w p)
    (blank : Blanks behind) : Text.many readSegment? (w ++ behind) = .ok (p, behind) :=
  (many_of_sequence (fun _ _ _ => readSegment?_append)
    (fun _ _ => Spaced.ne_nil fun _ _ => SegmentText.ne_nil)
    (fun _ _ u segment => stops_of_segment segment u) h (stops_of_blanks blank)
    (Or.inr (readSegment?_of_blanks blank))).1

theorem parse_of_pathText {e : Text} {p : Path} (h : PathText e p) : parse e = .ok p := by
  cases h with
  | rooted before segments blank =>
      rw [parse, Text.skipBlanks_append before, Text.skipBlanks_cons rfl]
      simp only [skipRoot, many_segments segments blank]
  | @bare w behind p segments blank =>
      cases p with
      | nil =>
          cases segments
          rw [List.nil_append, parse, Text.skipBlanks_eq_nil.mpr blank]
          rfl
      | cons s p =>
          obtain ⟨b, v, v', blank', rfl, first, segments⟩ := exists_unspaced segments
          obtain ⟨c, v, rfl, mark⟩ := first.exists_cons
          have read := many_segments segments blank
          have noRoot : skipRoot (Text.skipBlanks (b ++ (c :: v ++ v') ++ behind)) =
              c :: v ++ v' ++ behind := by
            rw [List.append_assoc, Text.skipBlanks_append blank']
            rcases mark with rfl | rfl
            · rfl
            · rfl
          rw [parse, noRoot, read]

/-- An expression is read as a path if and only if it is a text of that path. -/
theorem parse_eq_ok_iff {e : Text} {p : Path} : parse e = .ok p ↔ PathText e p :=
  ⟨pathText_of_parse, parse_of_pathText⟩

end Templating.Path
