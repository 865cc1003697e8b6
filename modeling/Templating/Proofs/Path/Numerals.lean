import Templating.Path.Printer
import Templating.Proofs.Path.Soundness

/-!
# Numerals of a path

The number literals of a path are read from pieces of its expression.  There is
one piece for each literal, and the pieces stand in the expression in the order
of the literals (`NumeralsIn`).

Each form of the grammar is made of smaller ones, so the pieces of a text are
those of its parts, one part after the other.
-/

namespace Templating

open Templating.Path
open Text (Sequence)

/-- Texts that stand in a text one after the other. -/
def Text.InOrder : List Text → Text → Prop
  | [], _ => True
  | w :: ws, t => ∃ before behind, t = before ++ (w ++ behind) ∧ InOrder ws behind

theorem Text.InOrder.behind (b : Text) {ws : List Text} {t : Text} (h : InOrder ws t) :
    InOrder ws (b ++ t) := by
  cases ws with
  | nil => exact trivial
  | cons w ws =>
      obtain ⟨before, behind, rfl, later⟩ := h
      exact ⟨b ++ before, behind, (List.append_assoc b before _).symm, later⟩

theorem Text.InOrder.append {ws vs : List Text} {t u : Text} (left : InOrder ws t)
    (right : InOrder vs u) : InOrder (ws ++ vs) (t ++ u) := by
  induction ws generalizing t with
  | nil => exact right.behind t
  | cons w ws ih =>
      obtain ⟨before, behind, rfl, later⟩ := left
      refine ⟨before, behind ++ u, ?_, ih later⟩
      simp only [List.append_assoc]

/-! ## Numbers of a path -/

/-- The number that an operand is, if it is one. -/
def Operand.numbers : Operand → List Number
  | .literal (.num n) => [n]
  | _ => []

/-- The number literals of a filter, in their order. -/
def Filter.numbers : Filter → List Number
  | .or left right => left.numbers ++ right.numbers
  | .and left right => left.numbers ++ right.numbers
  | .not inner => inner.numbers
  | .compare left _ right => left.numbers ++ right.numbers
  | .truthy operand => operand.numbers

/-- The number literals of a selector. -/
def Selector.numbers : Selector → List Number
  | .filter f => f.numbers
  | _ => []

/-- The number literals of a path. -/
def Path.numbers (p : Path) : List Number := p.flatMap fun s => s.selector.numbers

/-- Pieces of a text, in their order, that numbers are read from. -/
structure NumeralsIn (t : Text) (numbers : List Number) (numerals : List Text) : Prop where
  inOrder : Text.InOrder numerals t
  read : numerals.map readNumber = numbers.map fun n => .ok (n, [])

/-! ## Numerals of a text -/

/-- The numbers are read from pieces of the text. -/
def Written (t : Text) (numbers : List Number) : Prop := ∃ numerals, NumeralsIn t numbers numerals

namespace Written

variable {t u : Text} {numbers others : List Number}

theorem nil (t : Text) : Written t [] := ⟨[], trivial, rfl⟩

theorem append (left : Written t numbers) (right : Written u others) :
    Written (t ++ u) (numbers ++ others) := by
  obtain ⟨ws, inOrder, read⟩ := left
  obtain ⟨vs, inOrder', read'⟩ := right
  refine ⟨ws ++ vs, inOrder.append inOrder', ?_⟩
  rw [List.map_append, List.map_append, read, read']

theorem behind (b : Text) (h : Written t numbers) : Written (b ++ t) numbers := (nil b).append h

theorem before (b : Text) (h : Written t numbers) : Written (t ++ b) numbers := by
  have joined := h.append (nil b)
  rwa [List.append_nil] at joined

end Written

/-! ## Filters -/

theorem Path.OperandText.written {w : Text} {operand : Operand} (h : OperandText w operand) :
    Written w operand.numbers := by
  cases h with
  | current _ => exact .nil _
  | quoted _ _ => exact .nil _
  | @number _ n number =>
      have read := number.2 Text.stops_nil
      rw [List.append_nil] at read
      refine ⟨[w], ⟨[], [], (List.append_nil w).symm, trivial⟩, ?_⟩
      rw [Operand.numbers, List.map_singleton, List.map_singleton, read]
  | trueWord => exact .nil _
  | falseWord => exact .nil _
  | nullWord => exact .nil _

section Filters

variable {form : Text → Filter → Prop}

theorem Path.Chained.written {symbol : Text} {join : Filter → Filter → Filter}
    (joined : ∀ f g, (join f g).numbers = f.numbers ++ g.numbers)
    (each : ∀ ⦃w f⦄, form w f → Written w f.numbers) {w : Text} {f : Filter}
    (h : Chained symbol join form w f) : Written w f.numbers := by
  induction h with
  | one here => exact each here
  | more _ link ih =>
      rw [joined]
      refine ih.append ?_
      cases link with
      | after _ link =>
          cases link with
          | link here => exact ((each here).behind symbol).behind _

theorem written_of_filter (each : ∀ ⦃w f⦄, form w f → Written w f.numbers) {w : Text} {f : Filter}
    (h : FilterForm form w f) : Written w f.numbers :=
  Chained.written (fun _ _ => rfl) (fun _ _ => Chained.written (fun _ _ => rfl) each) h

theorem written_of_term {levels : Nat} {w : Text} {f : Filter} (h : TermText levels w f) :
    Written w f.numbers := by
  induction levels generalizing w f with
  | zero => cases h
  | succ levels ih =>
      cases h with
      | after _ form =>
          refine Written.behind _ ?_
          cases form with
          | not inner => exact (ih inner).behind ['!']
          | group filter _ =>
              exact ((written_of_filter (fun _ _ => ih) filter).before _).behind ['(']
          | truthy operand => exact operand.written
          | compare left _ right =>
              refine left.written.append (Written.behind _ (Written.behind _ ?_))
              cases right with
              | after _ right => exact right.written.behind _

end Filters

/-! ## Paths -/

theorem Path.SelectorText.written {w : Text} {s : Selector} (h : SelectorText w s) :
    Written w s.numbers := by
  cases h with
  | wildcard => exact .nil _
  | @filter gap _ _ _ _ filter _ =>
      have inner := (written_of_filter (fun _ _ => written_of_term) filter).before
      exact (((inner _).behind ['(']).behind gap).behind ['?']
  | sliceTo _ => exact .nil _
  | slice _ _ _ => exact .nil _
  | step _ => exact .nil _
  | union _ _ _ => exact .nil _

theorem Path.BracketText.written {w : Text} {s : Selector} (h : BracketText w s) :
    Written w s.numbers := by
  cases h with
  | close selector _ =>
      cases selector with
      | after _ selector => exact (selector.written.behind _).before _

theorem Path.DottedText.written {w : Text} {s : Selector} (h : DottedText w s) :
    Written w s.numbers := by
  cases h with
  | wildcard => exact .nil _
  | name _ _ => exact .nil _

theorem Path.SegmentText.written {w : Text} {s : Segment} (h : SegmentText w s) :
    Written w s.selector.numbers := by
  cases h with
  | dotted dotted => exact dotted.written.behind ['.']
  | bracket bracket => exact bracket.written.behind ['[']
  | descendantDotted dotted => exact dotted.written.behind ['.', '.']
  | descendantBracket bracket => exact bracket.written.behind ['.', '.', '[']

theorem written_of_segments {w : Text} {p : Path} (h : Sequence (Spaced SegmentText) w p) :
    Written w p.numbers := by
  induction h with
  | nil => exact .nil []
  | cons segment _ ih =>
      cases segment with
      | after _ segment => exact (segment.written.behind _).append ih

theorem Path.PathText.written {e : Text} {p : Path} (h : PathText e p) : Written e p.numbers := by
  cases h with
  | rooted _ segments _ =>
      exact (((written_of_segments segments).before _).behind ['$']).behind _
  | bare segments _ => exact (written_of_segments segments).before _

end Templating
