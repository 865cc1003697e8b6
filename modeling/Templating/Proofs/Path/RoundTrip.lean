import Templating.Proofs.Path.Height
import Templating.Proofs.Path.Numerals

/-!
# Round trip

A path that was read is well-formed, if its number literals are integers.  Its
integers fit in 64 bits because they were read so.  Its unions have two items
because a bracket with one item is no union.  Its filters have levels enough,
because parentheses that the canonical text leaves out only cost more levels
where the filter was read.

A number literal is an integer if its numeral is a minus sign or none and digits,
for a number that fits.  The numerals of an expression are those pieces of it
that the numbers of its path were read from (`NumeralsIn`).

With the texts of `Canonical`, every path that can be read is read again from its
canonical text.
-/

namespace Templating

open Templating.Path
open Text (Sequence)

/-! ## Integers -/

/-- Every number is an integer. -/
def Integral (numbers : List Number) : Prop := ∀ n ∈ numbers, ∃ i, n = .int i

theorem integral_append {left right : List Number} :
    Integral (left ++ right) ↔ Integral left ∧ Integral right :=
  List.forall_mem_append

theorem Path.IntegerText.fits {w : Text} {n : Int} (h : IntegerText w n) :
    fitsSigned n = true := by
  have read := h.2 Text.stops_nil
  simp only [readInteger] at read
  split at read
  next k value =>
    obtain ⟨rfl, -⟩ := Prod.mk.inj (Except.ok.inj read)
    exact (Option.filter_eq_some_iff.mp value).2
  next => cases read

theorem numberOf?_eq_some {w : Text} {i : Int} (h : numberOf? w = some (.int i)) :
    fitsSigned i = true := by
  rw [numberOf?] at h
  split at h
  next k value =>
    cases h
    exact (Option.filter_eq_some_iff.mp value).2
  next =>
    obtain ⟨x, -, same⟩ := Option.map_eq_some_iff.mp h
    cases same

theorem numberOf?_of_readNumber {t rest : Text} {n : Number} (h : readNumber t = .ok (n, rest)) :
    numberOf? (spanNumeral t).1 = some n ∧ (spanNumeral t).2 = rest := by
  rw [readNumber_eq] at h
  split at h
  next value =>
    cases h
    exact ⟨value, rfl⟩
  next => cases h

theorem Path.NumberText.fits {w : Text} {i : Int} (h : NumberText w (.int i)) :
    fitsSigned i = true :=
  numberOf?_eq_some (numberOf?_of_readNumber (h.2 Text.stops_nil)).1

/-! ## Well-formed parts -/

theorem Path.ItemText.wellFormed {w : Text} {s : Step} (h : ItemText w s) : s.WellFormed := by
  cases h with
  | name _ _ => exact trivial
  | index integer => exact integer.fits

theorem wellFormed_of_spaced {w : Text} {s : Step} (h : Spaced ItemText w s) : s.WellFormed := by
  cases h with
  | after _ item => exact item.wellFormed

theorem Path.RelativeText.wellFormed {w : Text} {s : Step} (h : RelativeText w s) :
    s.WellFormed := by
  cases h with
  | member _ _ => exact trivial
  | item item _ => exact wellFormed_of_spaced item

theorem Path.OperandText.wellFormed {w : Text} {operand : Operand} (h : OperandText w operand)
    (whole : Integral operand.numbers) : operand.WellFormed := by
  cases h with
  | current steps => exact Sequence.forall_mem (fun _ _ step => step.wellFormed) steps
  | quoted _ _ => exact trivial
  | number number =>
      obtain ⟨i, rfl⟩ := whole _ List.mem_cons_self
      exact number.fits
  | trueWord => exact trivial
  | falseWord => exact trivial
  | nullWord => exact trivial

/-! ## Well-formed filters -/

section Filters

variable {k : Nat} {form : Text → Filter → Prop} {w : Text} {f : Filter}

theorem wellFormed_of_filter
    (each : ∀ ⦃w f⦄, form w f → Integral f.numbers → f.WellFormed) (h : FilterForm form w f) :
    Integral f.numbers → f.WellFormed := by
  have joined {f g : Filter} (left : Integral f.numbers → f.WellFormed)
      (right : Integral g.numbers → g.WellFormed) (whole : Integral (f.numbers ++ g.numbers)) :
      f.WellFormed ∧ g.WellFormed :=
    ⟨left (integral_append.mp whole).1, right (integral_append.mp whole).2⟩
  have conjunction {w : Text} {f : Filter} (h : ConjunctionForm form w f) :
      Integral f.numbers → f.WellFormed :=
    Chained.induct (P := fun f => Integral f.numbers → f.WellFormed) each
      (fun _ _ _ left term => joined left (each term)) h
  exact Chained.induct (P := fun f => Integral f.numbers → f.WellFormed) (fun _ _ => conjunction)
    (fun _ _ _ left right => joined left (conjunction right)) h

theorem wellFormed_of_term (h : TermText k w f) (whole : Integral f.numbers) : f.WellFormed := by
  induction k generalizing w f with
  | zero => cases h
  | succ k ih =>
      cases h with
      | after _ form =>
          cases form with
          | not inner =>
              have wellFormed := ih inner whole
              exact wellFormed
          | group filter _ => exact wellFormed_of_filter (fun _ _ => ih) filter whole
          | truthy operand => exact operand.wellFormed whole
          | compare left _ right =>
              obtain ⟨wholeLeft, wholeRight⟩ := integral_append.mp whole
              cases right with
              | after _ right => exact ⟨left.wellFormed wholeLeft, right.wellFormed wholeRight⟩

end Filters

/-! ## Well-formed paths -/

theorem Path.SelectorText.wellFormed {w : Text} {s : Selector} (h : SelectorText w s)
    (whole : Integral s.numbers) : s.WellFormed := by
  have bound {v : Text} {stop : Option Int} (ending : SliceEndText v stop) :
      ∀ n ∈ stop, fitsSigned n = true := by
    rintro n ⟨⟩
    cases ending with
    | bound bound =>
        cases bound with
        | after _ integer => exact integer.fits
  cases h with
  | wildcard => exact trivial
  | filter _ filter _ =>
      exact ⟨wellFormed_of_filter (fun _ _ => wellFormed_of_term) filter whole,
        levels_le_of_filterText filter⟩
  | sliceTo ending => exact ⟨fun n none => absurd none (Option.not_mem_none n), bound ending⟩
  | slice integer _ ending =>
      refine ⟨?_, bound ending⟩
      rintro n ⟨⟩
      exact integer.fits
  | step item => exact item.wellFormed
  | @union w v s steps item others several =>
      have each : ∀ s ∈ steps, s.WellFormed := by
        refine Sequence.forall_mem (fun w s next => ?_) others
        cases next with
        | after _ next =>
            cases next with
            | comma item => exact wellFormed_of_spaced item
      refine ⟨Nat.succ_le_succ (List.length_pos_iff.mpr several), fun s' member => ?_⟩
      rcases List.mem_cons.mp member with same | later
      · exact same ▸ item.wellFormed
      · exact each s' later

theorem Path.PathText.wellFormed {e : Text} {p : Path} (h : PathText e p)
    (whole : Integral p.numbers) : p.WellFormed := by
  intro s member
  obtain ⟨w, selector⟩ := h.exists_selectorText s member
  exact selector.wellFormed fun n number => whole n (List.mem_flatMap.mpr ⟨s, member, number⟩)

/-! ## Plain numerals -/

/-- A minus sign or none and digits, for an integer of 64 bits. -/
def PlainNumeral (w : Text) : Prop := ∃ i, Text.readInt? w = some i ∧ fitsSigned i = true

theorem startsNumber_of_readInt? {w : Text} {i : Int} (h : Text.readInt? w = some i) :
    ∃ c v, w = c :: v ∧ startsNumber c = true := by
  unfold Text.readInt? at h
  split at h
  next t => exact ⟨'-', t, rfl, rfl⟩
  next =>
    obtain ⟨n, read, -⟩ := Option.map_eq_some_iff.mp h
    rw [Text.readNat?] at read
    split at read
    next digits =>
      obtain ⟨c, v, rfl⟩ := List.exists_cons_of_ne_nil digits.1
      refine ⟨c, v, rfl, ?_⟩
      rw [startsNumber, List.all_eq_true.mp digits.2 c List.mem_cons_self, Bool.or_true]
    next => cases read

/-- A plain numeral is read as an integer. -/
theorem eq_int_of_plain {w : Text} {n : Number} (plain : PlainNumeral w)
    (read : readNumber w = .ok (n, [])) : ∃ i, n = .int i := by
  obtain ⟨i, value, fits⟩ := plain
  obtain ⟨c, v, rfl, starts⟩ := startsNumber_of_readInt? value
  obtain ⟨number, behind⟩ := numberOf?_of_readNumber read
  have split := (spanned_spanNumeral (spanInteger_ne_nil (t := v) starts)).1
  rw [behind, List.append_nil] at split
  rw [← split, numberOf?, value, Option.filter_some, if_pos fits] at number
  exact ⟨i, (Option.some.inj number).symm⟩

theorem integral_of_plain {t : Text} {numbers : List Number} {numerals : List Text}
    (h : NumeralsIn t numbers numerals) (plain : ∀ w ∈ numerals, PlainNumeral w) :
    Integral numbers := by
  intro n member
  have read : Except.ok (n, []) ∈ numerals.map readNumber := by
    rw [h.read]
    exact List.mem_map.mpr ⟨n, member, rfl⟩
  obtain ⟨w, numeral, read⟩ := List.mem_map.mp read
  exact eq_int_of_plain (plain w numeral) read

/-! ## Round trip -/

/-- Well-formed segments are read from their texts, with any of their names in quotes
or without.  Every path that was read from plain numerals is well-formed, and is
read from its canonical text. -/
theorem Path.parse_canonical :
    (∀ segments : List (Style × Segment), Path.WellFormed (segments.map Prod.snd) →
      parse (segments.flatMap fun s => s.2.write s.1) = .ok (segments.map Prod.snd)) ∧
    ∀ (e : Text) (p : Path), parse e = .ok p →
      (∃ numerals, NumeralsIn e p.numbers numerals) ∧
      ∀ numerals, NumeralsIn e p.numbers numerals → (∀ w ∈ numerals, PlainNumeral w) →
        p.WellFormed ∧ parse p.write = .ok p := by
  refine ⟨fun segments h => parse_write fun s member => h s.2 (List.mem_map.mpr ⟨s, member, rfl⟩),
    fun e p read => ?_⟩
  have form := pathText_of_parse read
  refine ⟨form.written, fun numerals numeralsIn plain => ?_⟩
  have wellFormed := form.wellFormed (integral_of_plain numeralsIn plain)
  exact ⟨wellFormed, wellFormed.parse_write⟩

/-- The path of `..a[?(!(@.b['c']&&7))]`. -/
def negatedFilter : Path :=
  [.descendant (.step (.name ['a'])), .child (.filter
    (.not (.and (.truthy (.current [.name ['b'], .name ['c']]))
      (.truthy (.literal (.num (.int 7)))))))]

/-- Two of the three names stand without quotes. -/
theorem Path.parse_canonical_negatedFilter :
    parse ['.', '.', 'a', '[', '?', '(', '!', '(', '@', '.', 'b', '[', '\'', 'c', '\'', ']', '&',
        '&', '7', ')', ')', ']'] = .ok negatedFilter ∧
      negatedFilter.WellFormed ∧ parse negatedFilter.write = .ok negatedFilter := by
  have wellFormed : negatedFilter.WellFormed := by
    intro s member
    simp only [negatedFilter, List.mem_cons, List.not_mem_nil, or_false] at member
    rcases member with rfl | rfl
    · exact trivial
    · have names : ∀ s ∈ [Step.name ['b'], .name ['c']], s.WellFormed := by
        simp [Step.WellFormed]
      exact ⟨⟨names, rfl⟩, by decide⟩
  have read := Path.parse_canonical.1 (List.zip [.bare, (· == 0)] negatedFilter) wellFormed
  have numeral : Text.InOrder [['7']] ['.', '.', 'a', '[', '?', '(', '!', '(', '@', '.', 'b', '[',
      '\'', 'c', '\'', ']', '&', '&', '7', ')', ')', ']'] :=
    ⟨['.', '.', 'a', '[', '?', '(', '!', '(', '@', '.', 'b', '[', '\'', 'c', '\'', ']', '&', '&'],
      [')', ')', ']'], rfl, trivial⟩
  have plain : ∀ w ∈ [['7']], PlainNumeral w := by
    intro w member
    rw [List.mem_singleton.mp member]
    exact ⟨7, rfl, rfl⟩
  exact ⟨read, (Path.parse_canonical.2 _ negatedFilter read).2 [['7']] ⟨numeral, rfl⟩ plain⟩

end Templating
