import Templating.Path.Printer
import Templating.Proofs.Path.Completeness

/-!
# Canonical texts are in the grammar

The text that is written for a part of a path, in any style, is a text of that
part, without a blank anywhere.

A filter is written for a position, and each position has a form of its own in
the grammar (`FilterAt`).  Where a filter is of a lower form than its position
asks for, it is written in parentheses, which make it a term and cost one level.
`filterAt_write` is by induction on the filter, for every style, every position and
every budget that its levels fit in.
-/

namespace Templating

open Templating.Path
open Text (Blanks Sequence Stops blanks_nil stops_cons)

/-! ## Quoted texts and integers -/

theorem quotedText_escape (t : Text) : QuotedText '\'' (escape '\'' t ++ ['\'']) t := by
  intro u _
  rw [List.append_assoc]
  exact readQuoted_escape rfl t u

theorem exists_digits (n : Nat) :
    ∃ c w, Text.ofNat n = c :: w ∧ ∀ d ∈ Text.ofNat n, d.isDigit = true := by
  have digits := List.all_eq_true.mp (Text.all_isDigit_ofNat n)
  have some : Text.ofNat n ≠ [] := by
    intro empty
    have read := Text.readNat?_ofNat n
    rw [empty] at read
    cases read
  obtain ⟨c, w, split⟩ := List.exists_cons_of_ne_nil some
  exact ⟨c, w, split, digits⟩

theorem exists_startsNumber (n : Int) : ∃ c w, Text.ofInt n = c :: w ∧ startsNumber c = true := by
  cases n with
  | ofNat n =>
      obtain ⟨c, w, split, digits⟩ := exists_digits n
      refine ⟨c, w, split, ?_⟩
      rw [startsNumber, digits c (split ▸ List.mem_cons_self), Bool.or_true]
  | negSucc n => exact ⟨_, _, rfl, rfl⟩

theorem spanInteger_ofInt (n : Int) {u : Text} (fits : Stops Char.isDigit u) :
    spanInteger (Text.ofInt n ++ u) = (Text.ofInt n, u) := by
  cases n with
  | ofNat n =>
      obtain ⟨c, w, split, digits⟩ := exists_digits n
      have noSign : (Text.ofNat n ++ u).head? ≠ some '-' := by
        rw [split]
        rintro same
        have digit := digits c (split ▸ List.mem_cons_self)
        rw [Option.some.inj same] at digit
        cases digit
      rw [Text.ofInt, spanInteger_of_ne noSign, spanDigits_append digits fits]
  | negSucc n =>
      obtain ⟨_, _, _, digits⟩ := exists_digits (n + 1)
      rw [Text.ofInt, List.cons_append, spanInteger, spanDigits_append digits fits]

theorem integerText_ofInt {n : Int} (fits : fitsSigned n = true) :
    IntegerText (Text.ofInt n) n := by
  refine ⟨exists_startsNumber n, fun u behind => ?_⟩
  have value : (Text.readInt? (Text.ofInt n)).filter fitsSigned = some n := by
    rw [Text.readInt?_ofInt, Option.filter_some, if_pos fits]
  simp only [readInteger, spanInteger_ofInt n behind, value]

theorem numberText_ofInt {n : Int} (fits : fitsSigned n = true) :
    NumberText (Text.ofInt n) (.int n) := by
  refine ⟨exists_startsNumber n, fun u behind => ?_⟩
  have fraction : spanFraction u = ([], u) := spanFraction_of_stops (spanExponent_stops [] behind)
  have value : numberOf? (Text.ofInt n) = some (.int n) := by
    rw [numberOf?, Text.readInt?_ofInt, Option.filter_some, if_pos fits]
  have taken : spanNumeral (Text.ofInt n ++ u) = (Text.ofInt n, u) := by
    simp only [spanNumeral, spanInteger_ofInt n (digit_stops behind), fraction,
      spanExponent_of_stops behind, List.append_nil]
  simp only [readNumber_eq, taken, value]

/-! ## Steps and operands -/

theorem itemText_write {s : Step} (h : s.WellFormed) : ItemText s.write s := by
  cases s with
  | name text => exact .name rfl (quotedText_escape text)
  | index n => exact .index (integerText_ofInt h)

/-- A written text has no blanks in front. -/
theorem spaced_of {α : Type} {part : Text → α → Prop} {w : Text} {a : α} (h : part w a) :
    Spaced part w a :=
  .after blanks_nil h

/-- A name that can stand without quotes is one of name characters. -/
theorem Step.bareName?_eq_some {s : Step} {name : Text} (h : s.bareName? = some name) :
    s = .name name ∧ name ≠ [] ∧ ∀ c ∈ name, isNameChar c = true := by
  cases s with
  | name text =>
      obtain ⟨plain, same⟩ := Option.ite_none_right_eq_some.mp h
      obtain rfl := Option.some.inj same
      exact ⟨rfl, plain.1, List.all_eq_true.mp plain.2⟩
  | index n => cases h

theorem relativeText_relative (bare : Bool) {s : Step} (h : s.WellFormed) :
    RelativeText (s.relative bare) s := by
  unfold Step.relative
  split
  next text plain =>
    obtain ⟨rfl, nonempty, chars⟩ := Step.bareName?_eq_some plain
    exact .member nonempty chars
  next => exact .item (spaced_of (itemText_write h)) blanks_nil

theorem sequence_writeRelative {steps : List Step} (h : ∀ s ∈ steps, s.WellFormed)
    (style : Style) : Sequence RelativeText (writeRelative style steps) steps := by
  induction steps generalizing style with
  | nil => exact .nil
  | cons s steps ih =>
      obtain ⟨first, others⟩ := List.forall_mem_cons.mp h
      exact .cons (relativeText_relative (style 0) first) (ih others (style.behind 1))

theorem operandText_write (style : Style) {operand : Operand} (h : operand.WellFormed) :
    OperandText (operand.write style) operand := by
  cases operand with
  | current steps => exact .current (sequence_writeRelative h style)
  | literal l =>
      cases l with
      | null => exact .nullWord
      | bool b =>
          cases b with
          | true => exact .trueWord
          | false => exact .falseWord
      | num n =>
          cases n with
          | int n => exact .number (numberText_ofInt h)
          | double x => exact absurd h id
      | str t => exact .quoted rfl (quotedText_escape t)

/-! ## Filters -/

section Filters

variable {k : Nat} {w : Text} {f : Filter}

/-- The form of a filter at a position, under a budget of levels. -/
def FilterAt (k : Nat) : Filter.Position → Text → Filter → Prop
  | .whole => FilterText k
  | .conjunct => ConjunctionForm (TermText k)
  | .term => TermText k

theorem filterAt_of_term (p : Filter.Position) (h : TermText k w f) : FilterAt k p w f := by
  cases p with
  | whole => exact .one (.one h)
  | conjunct => exact .one h
  | term => exact h

theorem filterAt_of_conjunction {p : Filter.Position} (low : p ≠ .term)
    (h : ConjunctionForm (TermText k) w f) : FilterAt k p w f := by
  cases p with
  | whole => exact .one h
  | conjunct => exact h
  | term => exact absurd rfl low

/-- Parentheses make a term of a filter, for one level. -/
theorem termText_parenthesize {cost : Nat} (fits : 1 + cost ≤ k)
    (inner : ∀ {k}, cost ≤ k → FilterText k w f) :
    TermText k (Filter.parenthesize true w) f := by
  obtain ⟨rest, rfl⟩ := Nat.exists_eq_add_of_le fits
  rw [show 1 + cost + rest = cost + rest + 1 by omega]
  exact spaced_of (.group (inner (Nat.le_add_right cost rest)) blanks_nil)

theorem filterAt_or {l r : Filter} {p : Filter.Position} {style : Style}
    (left : ∀ {k}, l.levels .whole ≤ k → FilterAt k .whole (l.write style .whole) l)
    (right : ∀ {k} {style : Style}, r.levels .conjunct ≤ k →
      FilterAt k .conjunct (r.write style .conjunct) r)
    (fits : (Filter.or l r).levels p ≤ k) :
    FilterAt k p ((Filter.or l r).write style p) (.or l r) := by
  have joined {k : Nat} (fits : max (l.levels .whole) (r.levels .conjunct) ≤ k) :
      FilterText k (l.write style .whole ++ ['|', '|'] ++
        r.write (style.behind l.stepCount) .conjunct) (.or l r) := by
    rw [List.append_assoc]
    exact .more (left (Nat.le_trans (Nat.le_max_left _ _) fits))
      (spaced_of (.link (right (Nat.le_trans (Nat.le_max_right _ _) fits))))
  by_cases here : p = .whole
  · subst here
    rw [Filter.levels, if_neg (fun apart => apart rfl), Nat.zero_add] at fits
    exact joined fits
  · rw [Filter.levels, if_pos here] at fits
    rw [Filter.write, decide_eq_true here]
    exact filterAt_of_term p (termText_parenthesize fits joined)

theorem filterAt_and {l r : Filter} {p : Filter.Position} {style : Style}
    (left : ∀ {k}, l.levels .conjunct ≤ k → FilterAt k .conjunct (l.write style .conjunct) l)
    (right : ∀ {k} {style : Style}, r.levels .term ≤ k →
      FilterAt k .term (r.write style .term) r)
    (fits : (Filter.and l r).levels p ≤ k) :
    FilterAt k p ((Filter.and l r).write style p) (.and l r) := by
  have joined {k : Nat} (fits : max (l.levels .conjunct) (r.levels .term) ≤ k) :
      ConjunctionForm (TermText k) (l.write style .conjunct ++ ['&', '&'] ++
        r.write (style.behind l.stepCount) .term) (.and l r) := by
    rw [List.append_assoc]
    exact .more (left (Nat.le_trans (Nat.le_max_left _ _) fits))
      (spaced_of (.link (right (Nat.le_trans (Nat.le_max_right _ _) fits))))
  by_cases here : p = .term
  · rw [Filter.levels, if_pos here] at fits
    rw [Filter.write, decide_eq_true here]
    exact filterAt_of_term p (termText_parenthesize fits fun fits => .one (joined fits))
  · rw [Filter.levels, if_neg here, Nat.zero_add] at fits
    rw [Filter.write, decide_eq_false here]
    exact filterAt_of_conjunction here (joined fits)

/-- The text of a filter for a position is of the form of that position, in every
style and under every budget that its levels fit in. -/
theorem filterAt_write (h : f.WellFormed) :
    ∀ {style : Style} {p : Filter.Position} {k : Nat}, f.levels p ≤ k →
      FilterAt k p (f.write style p) f := by
  induction f with
  | or l r left right => exact filterAt_or (left h.1) (right h.2)
  | and l r left right => exact filterAt_and (left h.1) (right h.2)
  | not inner ih =>
      intro style p k fits
      rw [Filter.levels] at fits
      obtain ⟨rest, rfl⟩ := Nat.exists_eq_add_of_le fits
      have fits' : inner.levels .term ≤ inner.levels .term + rest := Nat.le_add_right _ _
      rw [show 1 + inner.levels .term + rest = inner.levels .term + rest + 1 by omega, Filter.write]
      exact filterAt_of_term p (spaced_of (.not (ih h fits')))
  | compare left comparison right =>
      intro style p k fits
      rw [Filter.levels] at fits
      obtain ⟨rest, rfl⟩ := Nat.exists_eq_add_of_le' fits
      have form : TermForm (TermText rest)
          (left.write style ++ ([] ++ (comparison.symbol ++
            right.write (style.behind left.stepCount)))) _ :=
        .compare (operandText_write _ h.1) blanks_nil (spaced_of (operandText_write _ h.2))
      rw [Filter.write, List.append_assoc]
      exact filterAt_of_term p (spaced_of form)
  | truthy operand =>
      intro style p k fits
      rw [Filter.levels] at fits
      obtain ⟨rest, rfl⟩ := Nat.exists_eq_add_of_le' fits
      exact filterAt_of_term p (spaced_of (.truthy (operandText_write style h)))

end Filters

/-! ## Selectors -/

theorem sliceEndText_write {stop : Option Int} (h : ∀ n ∈ stop, fitsSigned n = true) :
    SliceEndText (writeBound stop) stop := by
  cases stop with
  | none => exact .open
  | some n => exact .bound (spaced_of (integerText_ofInt (h n rfl)))

theorem selectorText_write (style : Style) {s : Selector} (h : s.WellFormed) :
    SelectorText (s.write style) s := by
  cases s with
  | step s => exact .step (itemText_write h)
  | slice start stop =>
      have ending := sliceEndText_write h.2
      cases start with
      | none => exact .sliceTo ending
      | some n => exact .slice (integerText_ofInt (h.1 n rfl)) blanks_nil ending
  | wildcard => exact .wildcard
  | union steps =>
      obtain ⟨several, each⟩ := h
      match steps with
      | first :: second :: others =>
          have items : Sequence (Spaced NextItemText)
              ((second :: others).flatMap fun s => ',' :: s.write) ((second :: others).map id) := by
            refine Sequence.flatMap fun s member => spaced_of (.comma (spaced_of ?_))
            exact itemText_write (each s (List.mem_cons_of_mem first member))
          rw [List.map_id] at items
          rw [Selector.write, List.map_cons, Text.join_cons, List.flatMap_map]
          exact .union (itemText_write (each first List.mem_cons_self)) items
            (List.cons_ne_nil second others)
  | filter f =>
      exact .filter blanks_nil (filterAt_write h.1 h.2) blanks_nil

theorem bracketText_write (style : Style) {s : Selector} (h : s.WellFormed) :
    BracketText (s.write style ++ [']']) s :=
  .close (spaced_of (selectorText_write style h)) blanks_nil

/-! ## Segments and paths -/

theorem dottedText_bareName {s : Selector} {name : Text} (h : s.bareName? = some name) :
    DottedText name s := by
  cases s with
  | step s =>
      obtain ⟨rfl, nonempty, chars⟩ := Step.bareName?_eq_some h
      exact .name nonempty chars
  | slice _ _ => cases h
  | wildcard => cases h
  | union _ => cases h
  | filter _ => cases h

theorem segmentText_write {s : Segment} (style : Style) (h : s.selector.WellFormed) :
    SegmentText (s.write style) s := by
  cases s with
  | child s =>
      unfold Segment.write
      dsimp only
      split
      next name => exact .dotted (dottedText_bareName name)
      next => exact .bracket (bracketText_write style h)
  | descendant s =>
      unfold Segment.write
      dsimp only
      split
      next name => exact .descendantDotted (dottedText_bareName name)
      next => exact .descendantBracket (bracketText_write style h)

/-- The texts of well-formed segments, each in a style of its own, are read as those
segments. -/
theorem parse_write {segments : List (Style × Segment)}
    (h : ∀ s ∈ segments, s.2.selector.WellFormed) :
    parse (segments.flatMap fun s => s.2.write s.1) = .ok (segments.map Prod.snd) := by
  have parts : Sequence (Spaced SegmentText) (segments.flatMap fun s => s.2.write s.1)
      (segments.map Prod.snd) :=
    Sequence.flatMap fun s member => spaced_of (segmentText_write s.1 (h s member))
  rw [← List.append_nil (segments.flatMap _)]
  exact parse_of_pathText (.bare parts blanks_nil)

/-- A well-formed path is read from its canonical text. -/
theorem Path.WellFormed.parse_write {p : Path} (h : p.WellFormed) : parse p.write = .ok p := by
  have wellFormed : ∀ s ∈ p.map fun s => (Style.canonical, s), s.2.selector.WellFormed := by
    intro s member
    obtain ⟨s', segment, rfl⟩ := List.mem_map.mp member
    exact h s' segment
  have read := Templating.parse_write wellFormed
  rw [List.flatMap_map, List.map_map] at read
  exact read.trans (congrArg Except.ok (List.map_id p))

/-- The text of one segment is a path. -/
theorem parse_write_segment {s : Segment} (style : Style) (h : s.selector.WellFormed) :
    parse (s.write style) = .ok [s] := by
  have wellFormed : ∀ s' ∈ [(style, s)], s'.2.selector.WellFormed := List.forall_mem_singleton.mpr h
  have read := parse_write wellFormed
  rwa [List.flatMap_singleton] at read

end Templating
