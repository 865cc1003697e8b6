import Templating.Proofs.Path.Canonical

/-!
# What stands before an error can be continued

An expression is read from left to right, and the first character that no rule
accepts is reported with its place.  So the report is of use only if nothing before
that place is wrong.  A text is *viable* for a part of a path if something can follow
it that makes it a text of that part (`Viable`).

What stands before the reported character is viable, and so is the whole expression
if it ends too early (`Repairs`).  Every reader keeps to this (`FailsViably`).  What a
reader took before the error is in the grammar, by `Soundness`.  The text of the part
that failed is viable by the lemma on its own reader, and `Repairs.within` puts the
completion of the larger part behind its completion.

The budget of levels never runs out behind a viable text.  A term is read only while
a level is left for it, and one level is enough for an operand.
-/

namespace Templating.Path

open Text (Blanks Sequence blanks_nil exists_blanks many_eq_error)

variable {α β γ : Type} {part : Text → α → Prop} {whole : Text → γ → Prop}

/-! ## Viable texts -/

/-- A text goes on to a text of a part. -/
def Viable (part : Text → α → Prop) (w : Text) : Prop := ∃ more a, part (w ++ more) a

theorem viable_of {w : Text} {a : α} (h : part w a) : Viable part w :=
  ⟨[], a, (List.append_nil w).symm ▸ h⟩

/-- Where a part can be followed by what completes a larger one, a text that goes on
to the part goes on to the larger one. -/
theorem Viable.within {w : Text} (h : Viable part w) {u : Text}
    (completes : ∀ ⦃v a⦄, part v a → Viable whole (u ++ v)) : Viable whole (u ++ w) := by
  obtain ⟨more, a, here⟩ := h
  obtain ⟨more', b, there⟩ := completes here
  refine ⟨more ++ more', b, ?_⟩
  simpa only [List.append_assoc] using there

/-! ## Errors -/

/-- An error in a text leaves a viable text before it: the whole text where it ends
too early, and what stands before the character that is not accepted.  Other errors
are about what was read. -/
def Repairs (part : Text → α → Prop) (t : Text) : PathError Text → Prop
  | .ended => Viable part t
  | .unexpected place found =>
      ∃ w behind, t = w ++ place ∧ place = found :: behind ∧ Viable part w
  | .badNumber _ => True
  | .unsupported _ => True
  | .tooDeep _ => True

/-- A reader fails only behind a viable text. -/
def FailsViably (read : Text → Reading β) (part : Text → α → Prop) : Prop :=
  ∀ ⦃t e⦄, read t = .error e → Repairs part t e

theorem Repairs.within {t : Text} {e : PathError Text} (h : Repairs part t e) {u : Text}
    (completes : ∀ ⦃v a⦄, part v a → Viable whole (u ++ v)) : Repairs whole (u ++ t) e := by
  cases e with
  | ended => exact Viable.within h completes
  | unexpected place found =>
      obtain ⟨w, behind, rfl, first, viable⟩ := h
      exact ⟨u ++ w, behind, (List.append_assoc _ _ _).symm, first, viable.within completes⟩
  | badNumber _ => trivial
  | unsupported _ => trivial
  | tooDeep _ => trivial

/-- The error at the front of a text that a viable one stands before. -/
theorem repairs_atFront {w : Text} (viable : Viable part w) (u : Text) :
    Repairs part (w ++ u) (.atFront u) := by
  cases u with
  | nil =>
      rw [List.append_nil]
      exact viable
  | cons c u => exact ⟨w, u, rfl, rfl, viable⟩

theorem expect_eq_error {c : Char} {t : Text} {e : PathError Text} (h : expect c t = .error e) :
    e = .atFront t := by
  cases t with
  | nil =>
      cases h
      rfl
  | cons d t =>
      rw [expect] at h
      split at h
      next => cases h
      next =>
        cases h
        rfl

/-- A fixed character is missing behind a text that is viable with blanks behind
it. -/
theorem repairs_expect {c : Char} {t : Text} {e : PathError Text}
    (h : expect c (Text.skipBlanks t) = .error e) {w : Text}
    (viable : ∀ ⦃b⦄, Blanks b → Viable part (w ++ b)) : Repairs part (w ++ t) e := by
  obtain ⟨b, blank, gap⟩ := exists_blanks t
  have failed := repairs_atFront (viable blank) (Text.skipBlanks t)
  rw [← expect_eq_error h, List.append_assoc, ← gap] at failed
  exact failed

/-- Blanks in front change nothing. -/
theorem Repairs.spaced {t : Text} {e : PathError Text} (h : Repairs part (Text.skipBlanks t) e) :
    Repairs (Spaced part) t e := by
  obtain ⟨b, blank, gap⟩ := exists_blanks t
  rw [gap]
  exact h.within fun _ _ here => viable_of (.after blank here)

theorem FailsViably.spaced {read : Text → Reading β} (fails : FailsViably read part) :
    FailsViably (fun t => read (Text.skipBlanks t)) (Spaced part) :=
  fun _ _ h => (fails h).spaced

/-- A repetition fails behind some parts and the beginning of another one. -/
theorem FailsViably.many {item : Text → Reading (Option (α × Text))}
    (fails : FailsViably item part)
    (sound : ∀ ⦃t a rest⦄, item t = .ok (some (a, rest)) → ∃ w, t = w ++ rest ∧ part w a)
    (nonempty : ∀ ⦃w a⦄, part w a → w ≠ []) :
    FailsViably (Text.many item) fun w as => Sequence part w as ∧ as ≠ [] := by
  intro t e h
  obtain ⟨w, u, as, rfl, parts, failed⟩ := many_eq_error sound nonempty h
  refine (fails failed).within fun v a here => viable_of (a := as ++ [a]) ⟨?_, ?_⟩
  · exact parts.append (.singleton here)
  · exact List.append_ne_nil_of_right_ne_nil as (List.cons_ne_nil a [])

/-! ## Tokens -/

theorem not_escape_of_isQuote {quote : Char} (h : isQuote quote = true) : quote ≠ '\\' := by
  rintro rfl
  cases h

/-- An open quote can be closed, also behind the mark of an escape. -/
theorem failsViably_readQuoted {quote : Char} (isQ : isQuote quote = true) :
    FailsViably (readQuoted quote) (QuotedText quote) := by
  have close : QuotedText quote [quote] [] := quotedText_close (not_escape_of_isQuote isQ)
  intro t e h
  fun_induction readQuoted quote t with
  | case1 =>
      cases h
      exact ⟨[quote], [], close⟩
  | case2 =>
      cases h
      exact ⟨[quote, quote], _, close.escaped quote⟩
  | case3 c t ih =>
      exact (ih (map_eq_error h)).within (u := ['\\', c]) fun _ _ here => viable_of (here.escaped c)
  | case4 => cases h
  | case5 c t notLast notEscape other ih =>
      exact (ih (map_eq_error h)).within (u := [c]) fun _ _ here =>
        viable_of (here.plain (ne_escape notLast notEscape) other)

theorem exists_badNumber_of_readInteger {t : Text} {e : PathError Text}
    (h : readInteger t = .error e) : ∃ numeral, e = .badNumber numeral := by
  simp only [readInteger] at h
  split at h
  next => cases h
  next =>
    cases h
    exact ⟨_, rfl⟩

theorem exists_badNumber_of_readNumber {t : Text} {e : PathError Text}
    (h : readNumber t = .error e) : ∃ numeral, e = .badNumber numeral := by
  rw [readNumber_eq] at h
  split at h
  next => cases h
  next =>
    cases h
    exact ⟨_, rfl⟩

theorem readName_eq_error {t : Text} {e : PathError Text} (h : readName t = .error e) :
    e = .atFront t := by
  simp only [readName] at h
  split at h
  next =>
    cases h
    rfl
  next => cases h

theorem exists_unsupported_of_readWord {t : Text} {e : PathError Text}
    (h : readWord t = .error e) : ∃ construct, e = .unsupported construct := by
  simp only [readWord] at h
  split at h
  next => cases h
  next =>
    split at h
    next => cases h
    next =>
      split at h
      next => cases h
      next =>
        cases h
        exact ⟨_, rfl⟩

/-! ## Steps and items -/

/-- The name without a character, which can stand wherever an item is missing. -/
theorem itemText_empty : ItemText ['\'', '\''] (.name []) := itemText_write (s := .name []) trivial

theorem failsViably_readItem : FailsViably readItem ItemText := by
  have missing : Viable ItemText [] := ⟨_, _, itemText_empty⟩
  intro t e h
  cases t with
  | nil =>
      cases h
      exact missing
  | cons c t =>
      rw [readItem] at h
      split at h
      next isQ =>
        exact (failsViably_readQuoted isQ (map_eq_error h)).within (u := [c]) fun _ _ text =>
          viable_of (.name isQ text)
      next =>
        split at h
        next =>
          obtain ⟨numeral, rfl⟩ := exists_badNumber_of_readInteger (map_eq_error h)
          trivial
        next =>
          cases h
          exact repairs_atFront missing (c :: t)

theorem failsViably_readNextItem? : FailsViably readNextItem? (Spaced NextItemText) := by
  intro t e h
  obtain ⟨b, blank, gap⟩ := exists_blanks t
  rw [readNextItem?] at h
  split at h
  next u comma =>
    rw [gap, comma, List.append_cons]
    refine (failsViably_readItem.spaced (map_eq_error h)).within fun v s item => ?_
    rw [List.append_assoc]
    exact viable_of (.after blank (.comma item))
  next => cases h

theorem failsViably_readRelativeStep? : FailsViably readRelativeStep? RelativeText := by
  have closes {w b : Text} {s : Step} (item : Spaced ItemText w s) (blank : Blanks b) :
      Viable RelativeText ('[' :: (w ++ b)) := by
    refine ⟨[']'], s, ?_⟩
    rw [List.cons_append, List.append_assoc]
    exact .item item blank
  intro t e h
  unfold readRelativeStep? at h
  split at h
  next =>
    split at h
    next => cases h
    next => cases h
  next t =>
    rcases bind_eq_error h with failed | ⟨⟨s, u⟩, item, later⟩
    · refine (failsViably_readItem.spaced failed).within (u := ['[']) fun v s here => ?_
      have closed := closes here blanks_nil
      rwa [List.append_nil] at closed
    · obtain ⟨w, rfl, here⟩ := sound_readItem.spaced item
      rcases bind_eq_error later with failed | ⟨u', close, later⟩
      · exact repairs_expect (w := '[' :: w) failed fun b blank => closes here blank
      · cases later
  next => cases h

/-! ## Operands -/

theorem failsViably_readOperand : FailsViably readOperand OperandText := by
  have missing : Viable OperandText [] := ⟨_, _, .nullWord⟩
  intro t e h
  unfold readOperand at h
  split at h
  next =>
    cases h
    exact missing
  next t =>
    have steps := failsViably_readRelativeStep?.many (fun _ _ _ => sound_readRelativeStep?)
      (fun _ _ => RelativeText.ne_nil) (map_eq_error h)
    exact steps.within (u := ['@']) fun _ _ here => viable_of (.current here.1)
  next =>
    cases h
    trivial
  next c t _ _ =>
    split at h
    next isQ =>
      exact (failsViably_readQuoted isQ (map_eq_error h)).within (u := [c]) fun _ _ text =>
        viable_of (.quoted isQ text)
    next =>
      split at h
      next =>
        obtain ⟨numeral, rfl⟩ := exists_badNumber_of_readNumber (map_eq_error h)
        trivial
      next =>
        split at h
        next =>
          obtain ⟨construct, rfl⟩ := exists_unsupported_of_readWord (map_eq_error h)
          trivial
        next =>
          cases h
          exact repairs_atFront missing (c :: t)

/-! ## Filters -/

section Filters

variable {inner : Text → Filter → Prop}

/-- Behind an operator the operand is missing or begun, and nothing else. -/
theorem failsViably_readComparing : FailsViably readComparing (TermForm inner) := by
  intro t e h
  rw [readComparing] at h
  rcases bind_eq_error h with failed | ⟨⟨left, u⟩, first, later⟩
  · exact (failsViably_readOperand failed).within (u := []) fun _ _ here => viable_of (.truthy here)
  · obtain ⟨w, rfl, leftText⟩ := sound_readOperand first
    dsimp only at later
    split at later
    next => cases later
    next comparison v symbol =>
      obtain ⟨b, blank, gap⟩ := exists_blanks u
      rcases bind_eq_error later with failed | ⟨_, _, later⟩
      · have split : w ++ u = w ++ (b ++ comparison.symbol) ++ v := by
          rw [gap, eq_symbol_append symbol]
          simp only [List.append_assoc]
        rw [split]
        refine (failsViably_readOperand.spaced failed).within fun v' right here => ?_
        have compared : TermForm inner (w ++ (b ++ (comparison.symbol ++ v')))
            (.compare left comparison right) := .compare leftText blank here
        simpa only [List.append_assoc] using viable_of compared
      · cases later

variable {symbol : Text} {join : Filter → Filter → Filter} {read : Text → Reading (Filter × Text)}

theorem failsViably_readLink? (fails : FailsViably read inner) :
    FailsViably (readLink? symbol read) (Spaced (LinkText symbol inner)) := by
  intro t e h
  obtain ⟨b, blank, gap⟩ := exists_blanks t
  rw [readLink?] at h
  split at h
  next => cases h
  next u found =>
    rw [gap, Text.after?_eq_some_iff.mp found, ← List.append_assoc]
    refine (fails (map_eq_error h)).within fun v f here => ?_
    rw [List.append_assoc]
    exact viable_of (.after blank (.link here))

theorem FailsViably.chain (fails : FailsViably read inner) (sound : Sound read inner)
    (mark : symbol ≠ []) :
    FailsViably (readChain symbol join read) (Chained symbol join inner) := by
  intro t e h
  rw [readChain_eq] at h
  rcases bind_eq_error h with failed | ⟨⟨first, u⟩, head, later⟩
  · exact (fails failed).within (u := []) fun _ _ here => viable_of (.one here)
  · obtain ⟨w, rfl, firstText⟩ := sound head
    have links := (failsViably_readLink? fails).many (fun _ _ _ => sound_readLink? sound)
      (fun _ _ => Spaced.ne_nil fun _ _ => LinkText.ne_nil mark) (map_eq_error later)
    exact links.within fun _ _ here => viable_of ((Chained.one firstText).links here.1)

theorem FailsViably.filter (fails : FailsViably read inner) (sound : Sound read inner) :
    FailsViably (readFilterOf read) (FilterForm inner) :=
  (fails.chain sound (List.cons_ne_nil _ _)).chain (sound.chain (List.cons_ne_nil _ _))
    (List.cons_ne_nil _ _)

end Filters

/-- An open parenthesis can be closed behind a filter. -/
theorem viable_group {inner : Text → Filter → Prop} {w b : Text} {f : Filter}
    (filter : FilterForm inner w f) (blank : Blanks b) :
    Viable (TermForm inner) ('(' :: (w ++ b)) := by
  refine ⟨[')'], f, ?_⟩
  rw [List.cons_append, List.append_assoc]
  exact .group filter blank

theorem failsViably_readTerm (levels : Nat) : FailsViably (readTerm levels) (TermText levels) := by
  induction levels with
  | zero =>
      intro t e h
      cases h
      trivial
  | succ levels ih =>
      intro t e h
      refine Repairs.spaced ?_
      rw [readTerm] at h
      split at h
      next u mark =>
        rw [mark]
        exact (ih (map_eq_error h)).within (u := ['!']) fun _ _ here => viable_of (.not here)
      next u mark =>
        rw [mark]
        rcases bind_eq_error h with failed | ⟨⟨f, v⟩, inner, later⟩
        · refine (ih.filter (sound_readTerm levels) failed).within (u := ['(']) fun w f here => ?_
          have closed := viable_group here blanks_nil
          rwa [List.append_nil] at closed
        · obtain ⟨w, rfl, filter⟩ := (sound_readTerm levels).filter inner
          rcases bind_eq_error later with failed | ⟨_, _, later⟩
          · exact repairs_expect (w := '(' :: w) failed fun b blank => viable_group filter blank
          · cases later
      next => exact failsViably_readComparing h

theorem failsViably_readFilter : FailsViably readFilter (FilterText maxDepth) :=
  (failsViably_readTerm maxDepth).filter (sound_readTerm maxDepth)

/-- The child under test is a filter. -/
theorem filterText_current : FilterText maxDepth ['@'] (.truthy (.current [])) :=
  .one (.one (spaced_of (.truthy (.current .nil))))

/-! ## Brackets -/

/-- No error in a slice is about a place. -/
theorem repairs_readSlice {start : Option Int} {t u : Text} {e : PathError Text}
    (h : readSlice start t = .error e) : Repairs part u e := by
  have ending {stop : Option Int} {t : Text} (h : endSlice start stop t = .error e) :
      Repairs part u e := by
    rw [endSlice] at h
    split at h
    next =>
      cases h
      trivial
    next => cases h
  rw [readSlice_eq] at h
  split at h
  next => exact ending h
  next =>
    split at h
    next =>
      rcases bind_eq_error h with failed | ⟨_, _, later⟩
      · obtain ⟨numeral, rfl⟩ := exists_badNumber_of_readInteger failed
        trivial
      · exact ending later
    next => exact ending h

theorem failsViably_readItems : FailsViably readItems SelectorText := by
  intro t e h
  unfold readItems at h
  split at h
  next => exact repairs_readSlice h
  next =>
    rcases bind_eq_error h with failed | ⟨⟨first, u⟩, item, later⟩
    · exact (failsViably_readItem failed).within (u := []) fun _ _ here => viable_of (.step here)
    · obtain ⟨w, rfl, itemText⟩ := sound_readItem item
      obtain ⟨b, blank, gap⟩ := exists_blanks u
      dsimp only at later
      split at later
      next => exact repairs_readSlice later
      next =>
        rcases bind_eq_error later with failed | ⟨⟨others, v⟩, _, later⟩
        · rw [gap, ← List.append_assoc]
          refine (failsViably_readNextItem?.many (fun _ _ _ => sound_readNextItem?)
            (fun _ _ => Spaced.ne_nil fun _ _ => NextItemText.ne_nil) failed).within
              fun v steps here => ?_
          rw [List.append_assoc]
          exact viable_of (.union itemText (sequence_blanks blank here.2 here.1) here.2)
        · dsimp only at later
          split at later
          next => cases later
          next => cases later

/-- The parenthesis of a filter can be closed behind it. -/
theorem viable_filter {gap w b : Text} {f : Filter} (gapBlank : Blanks gap)
    (filter : FilterText maxDepth w f) (blank : Blanks b) :
    Viable SelectorText ('?' :: (gap ++ '(' :: (w ++ b))) := by
  refine ⟨[')'], .filter f, ?_⟩
  have closed := SelectorText.filter gapBlank filter blank
  simpa only [List.cons_append, List.append_assoc] using closed

theorem failsViably_readSelector : FailsViably readSelector SelectorText := by
  intro t e h
  unfold readSelector at h
  split at h
  next =>
    cases h
    exact ⟨_, _, .wildcard⟩
  next => cases h
  next t =>
    rcases bind_eq_error h with failed | ⟨u, opening, tested⟩
    · exact repairs_expect (w := ['?']) failed fun b blank =>
        ⟨['(', '@', ')'], _, .filter blank filterText_current blanks_nil⟩
    · obtain ⟨gap, gapBlank, rfl⟩ := exists_blanks_of_expect opening
      rcases bind_eq_error tested with failed | ⟨⟨f, v⟩, inner, later⟩
      · rw [List.append_cons, ← List.cons_append]
        refine (failsViably_readFilter failed).within fun w f here => ?_
        have closed := viable_filter gapBlank here blanks_nil
        simpa only [List.append_nil, List.cons_append, List.append_assoc, List.nil_append] using
          closed
      · obtain ⟨w, rfl, filter⟩ := sound_readFilter inner
        rcases bind_eq_error later with failed | ⟨_, _, later⟩
        · have closes := repairs_expect (w := '?' :: (gap ++ '(' :: w)) failed fun b blank => by
            have closed := viable_filter gapBlank filter blank
            simpa only [List.cons_append, List.append_assoc] using closed
          simpa only [List.cons_append, List.append_assoc] using closes
        · cases later
  next =>
    cases h
    trivial
  next => exact failsViably_readItems h

theorem viable_bracket {b w b' : Text} {s : Selector} (blank : Blanks b)
    (selector : SelectorText w s) (blank' : Blanks b') : Viable BracketText (b ++ w ++ b') := by
  refine ⟨[']'], s, ?_⟩
  rw [List.append_assoc]
  exact .close (.after blank selector) blank'

theorem failsViably_readBracket : FailsViably readBracket BracketText := by
  intro t e h
  obtain ⟨b, blank, gap⟩ := exists_blanks t
  rcases bind_eq_error h with failed | ⟨⟨s, u⟩, inner, later⟩
  · rw [gap]
    refine (failsViably_readSelector failed).within fun w s here => ?_
    have closed := viable_bracket blank here blanks_nil
    rwa [List.append_nil] at closed
  · rcases bind_eq_error later with failed | ⟨_, _, later⟩
    · obtain ⟨w, b', split, blank', selector⟩ := sound_readSelector inner
      rw [gap, split, ← List.append_assoc, ← List.append_assoc]
      refine repairs_expect failed fun b'' blank'' => ?_
      rw [List.append_assoc (b ++ w)]
      exact viable_bracket blank selector (blank'.append blank'')
    · cases later

/-! ## Segments -/

theorem failsViably_readDotted : FailsViably readDotted DottedText := by
  intro t e h
  unfold readDotted at h
  split at h
  next => cases h
  next =>
    rw [readName_eq_error (map_eq_error h)]
    exact repairs_atFront (w := []) ⟨_, _, .wildcard⟩ _

/-- Behind the points of a segment, or in its bracket. -/
theorem failsViably_readSegment? : FailsViably readSegment? (Spaced SegmentText) := by
  intro t e h
  refine Repairs.spaced ?_
  rw [readSegment?] at h
  split at h
  next => cases h
  next t points =>
    rw [points]
    have failed := map_eq_error h
    unfold readDescendant at failed
    split at failed
    next =>
      exact (failsViably_readBracket failed).within (u := ['.', '.', '[']) fun _ _ here =>
        viable_of (.descendantBracket here)
    next =>
      exact (failsViably_readDotted failed).within (u := ['.', '.']) fun _ _ here =>
        viable_of (.descendantDotted here)
  next t _ point =>
    rw [point]
    exact (failsViably_readDotted (map_eq_error h)).within (u := ['.']) fun _ _ here =>
      viable_of (.dotted here)
  next t bracket =>
    rw [bracket]
    exact (failsViably_readBracket (map_eq_error h)).within (u := ['[']) fun _ _ here =>
      viable_of (.bracket here)
  next c t _ _ _ first =>
    cases h
    rw [first]
    exact repairs_atFront (w := []) ⟨_, _, .dotted .wildcard⟩ (c :: t)

/-! ## Expressions -/

/-- An error in an expression, with its place as the text from there on. -/
theorem exists_of_parse_eq_error {e : Text} {reported : PathError Nat}
    (h : parse e = .error reported) :
    ∃ err, Repairs PathText e err ∧ reported = err.locate e := by
  rw [parse] at h
  split at h
  next => cases h
  next err failed =>
    cases h
    refine ⟨err, ?_, rfl⟩
    obtain ⟨b, blank, gap⟩ := exists_blanks e
    have segments := failsViably_readSegment?.many (fun _ _ _ => sound_readSegment?)
      (fun _ _ => Spaced.ne_nil fun _ _ => SegmentText.ne_nil) failed
    rw [gap]
    unfold skipRoot at segments
    split at segments
    next t root =>
      rw [root, List.append_cons]
      refine segments.within fun w p here => ?_
      have rooted := viable_of (PathText.rooted blank here.1 blanks_nil)
      simpa only [List.append_nil, List.append_assoc, List.cons_append, List.nil_append]
        using rooted
    next =>
      refine segments.within fun w p here => ?_
      have bare := viable_of (pathText_of_blanks blank here.1 blanks_nil)
      rwa [List.append_nil] at bare

/-- An unexpected character is reported where it stands, by the number of bytes before
it, and what stands before it can be continued to an expression that is read.  If an
expression is reported to end too early, it can be continued itself. -/
theorem parse_error_viable (e : Text) :
    (∀ position found, parse e = .error (.unexpected position found) →
      ∃ before behind, e = before ++ found :: behind ∧ Text.byteSize before = position ∧
        ∃ more p, parse (before ++ more) = .ok p) ∧
    (parse e = .error .ended → ∃ more p, parse (e ++ more) = .ok p) := by
  have continued {w : Text} (viable : Viable PathText w) : ∃ more p, parse (w ++ more) = .ok p := by
    obtain ⟨more, p, text⟩ := viable
    exact ⟨more, p, parse_of_pathText text⟩
  constructor
  · intro position found h
    obtain ⟨err, repairs, reported⟩ := exists_of_parse_eq_error h
    cases err with
    | unexpected place c =>
        obtain ⟨rfl, rfl⟩ := PathError.unexpected.inj reported
        obtain ⟨w, behind, rfl, rfl, viable⟩ := repairs
        refine ⟨w, behind, rfl, ?_, continued viable⟩
        rw [Text.byteSize_append, Nat.add_sub_cancel]
    | ended => cases reported
    | badNumber _ => cases reported
    | unsupported _ => cases reported
    | tooDeep _ => cases reported
  · intro h
    obtain ⟨err, repairs, reported⟩ := exists_of_parse_eq_error h
    cases err with
    | ended => exact continued repairs
    | unexpected _ _ => cases reported
    | badNumber _ => cases reported
    | unsupported _ => cases reported
    | tooDeep _ => cases reported

/-- In `['é'][?(!(@.b && (@ x` a character is in the way under three open terms, and
`['é'][?(!(@.b == "\` ends behind the mark of an escape. -/
theorem parse_error_viable_openFilter :
    let open₁ : Text := ['[', '\'', 'é', '\'', ']', '[', '?', '(', '!', '(', '@', '.', 'b', ' ']
    let e₁ : Text := open₁ ++ ['&', '&', ' ', '(', '@', ' ', 'x']
    let e₂ : Text := open₁ ++ ['=', '=', ' ', '"', '\\']
    (parse e₁ = .error (.unexpected 21 'x') ∧
      ∃ before behind, e₁ = before ++ 'x' :: behind ∧ Text.byteSize before = 21 ∧
        ∃ more p, parse (before ++ more) = .ok p) ∧
    parse e₂ = .error .ended ∧ ∃ more p, parse (e₂ ++ more) = .ok p := by
  intro open₁ e₁ e₂
  have unexpected : parse e₁ = .error (.unexpected 21 'x') := rfl
  have ended : parse e₂ = .error .ended := rfl
  exact ⟨⟨unexpected, (parse_error_viable e₁).1 21 'x' unexpected⟩, ended,
    (parse_error_viable e₂).2 ended⟩

end Templating.Path
