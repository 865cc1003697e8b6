import Templating.Path.Parser
import Templating.Proofs.Text.Boundary
import Templating.Proofs.Text.Sequence

/-!
# The grammar of paths

The texts that stand for the parts of a path, as relations between a text and a
part.  They follow the grammar in words at the head of the parser, and name every
place where blanks may stand.

A token is a text that its reader takes for a value wherever the text behind it
does not go on with the token (`Reads`).  Everything larger is made of smaller
parts.  `Spaced` allows blanks before a part.  A `Sequence` lists its parts.  A
chain joins its parts to the left with an operator between them (`Chained`), as
`&&` and `||` do.

A term has a budget of levels, one for itself and the rest for the term inside
its `!` or the filter inside its parentheses (`TermText`).

Whatever is read is in the grammar (`Soundness`), and whatever is in the grammar
is read (`Completeness`).
-/

namespace Templating.Path

open Text (Blanks Sequence Stops)

variable {α : Type}

/-! ## Tokens -/

/-- A reader takes a text for a value before every text that fits. -/
def Reads (fits : Text → Prop) (read : Text → Reading (α × Text)) (w : Text) (a : α) : Prop :=
  ∀ ⦃u : Text⦄, fits u → read (w ++ u) = .ok (a, u)

/-- A reader takes only texts that stand for what it gives. -/
def Sound (read : Text → Reading (α × Text)) (part : Text → α → Prop) : Prop :=
  ∀ ⦃t : Text⦄ ⦃a : α⦄ ⦃rest : Text⦄, read t = .ok (a, rest) → ∃ w, t = w ++ rest ∧ part w a

/-- What may go on an operand that seems to have ended. -/
def isOperandChar (c : Char) : Bool := isNameChar c || c == '.' || c == '[' || c == '+'

/-- A text from behind an opening quote to its closing quote. -/
def QuotedText (quote : Char) : Text → Text → Prop := Reads (fun _ => True) (readQuoted quote)

/-- An integer. -/
def IntegerText (w : Text) (n : Int) : Prop :=
  (∃ c v, w = c :: v ∧ startsNumber c = true) ∧ Reads (Stops Char.isDigit) readInteger w n

/-- A number literal. -/
def NumberText (w : Text) (n : Number) : Prop :=
  (∃ c v, w = c :: v ∧ startsNumber c = true) ∧ Reads (Stops isOperandChar) readNumber w n

/-! ## Repetitions -/

/-- A part with the blanks before it. -/
inductive Spaced (part : Text → α → Prop) : Text → α → Prop where
  | after {before w : Text} {a : α} : Blanks before → part w a → Spaced part (before ++ w) a

theorem Spaced.blanks {part : Text → α → Prop} {b w : Text} {a : α} (blank : Blanks b)
    (h : Spaced part w a) : Spaced part (b ++ w) a := by
  cases h with
  | after before here =>
      rw [← List.append_assoc]
      exact .after (blank.append before) here

/-- Blanks in front of a sequence of one or more parts belong to the first. -/
theorem sequence_blanks {part : Text → α → Prop} {b w : Text} {as : List α} (blank : Blanks b)
    (some : as ≠ []) (h : Sequence (Spaced part) w as) : Sequence (Spaced part) (b ++ w) as := by
  cases h with
  | nil => exact absurd rfl some
  | cons first others =>
      rw [← List.append_assoc]
      exact .cons (first.blanks blank) others

/-- An operator and the part behind it. -/
inductive LinkText (symbol : Text) (part : Text → α → Prop) : Text → α → Prop where
  | link {w : Text} {a : α} : part w a → LinkText symbol part (symbol ++ w) a

/-- Parts with an operator between them, joined to the left. -/
inductive Chained (symbol : Text) (join : α → α → α) (part : Text → α → Prop) :
    Text → α → Prop where
  | one {w : Text} {a : α} : part w a → Chained symbol join part w a
  | more {w v : Text} {a b : α} :
      Chained symbol join part w a → Spaced (LinkText symbol part) v b →
        Chained symbol join part (w ++ v) (join a b)

/-! ## Steps and items -/

/-- A quoted name or an integer. -/
inductive ItemText : Text → Step → Prop where
  | name {quote : Char} {w text : Text} :
      isQuote quote = true → QuotedText quote w text → ItemText (quote :: w) (.name text)
  | index {w : Text} {n : Int} : IntegerText w n → ItemText w (.index n)

/-- A further item of a union, from its comma. -/
inductive NextItemText : Text → Step → Prop where
  | comma {w : Text} {s : Step} : Spaced ItemText w s → NextItemText (',' :: w) s

/-- A step of `@`. -/
inductive RelativeText : Text → Step → Prop where
  | member {name : Text} :
      name ≠ [] → (∀ c ∈ name, isNameChar c = true) → RelativeText ('.' :: name) (.name name)
  | item {w behind : Text} {s : Step} :
      Spaced ItemText w s → Blanks behind → RelativeText ('[' :: (w ++ (behind ++ [']']))) s

/-! ## Filters -/

/-- An operand. -/
inductive OperandText : Text → Operand → Prop where
  | current {w : Text} {steps : List Step} :
      Sequence RelativeText w steps → OperandText ('@' :: w) (.current steps)
  | quoted {quote : Char} {w text : Text} :
      isQuote quote = true → QuotedText quote w text →
        OperandText (quote :: w) (.literal (.str text))
  | number {w : Text} {n : Number} : NumberText w n → OperandText w (.literal (.num n))
  | trueWord : OperandText ['t', 'r', 'u', 'e'] (.literal (.bool true))
  | falseWord : OperandText ['f', 'a', 'l', 's', 'e'] (.literal (.bool false))
  | nullWord : OperandText ['n', 'u', 'l', 'l'] (.literal .null)

/-- Terms joined by `&&`. -/
def ConjunctionForm (term : Text → Filter → Prop) : Text → Filter → Prop :=
  Chained ['&', '&'] .and term

/-- Conjunctions joined by `||`. -/
def FilterForm (term : Text → Filter → Prop) : Text → Filter → Prop :=
  Chained ['|', '|'] .or (ConjunctionForm term)

/-- A term whose inner terms are given. -/
inductive TermForm (inner : Text → Filter → Prop) : Text → Filter → Prop where
  | not {w : Text} {f : Filter} : inner w f → TermForm inner ('!' :: w) (.not f)
  | group {w behind : Text} {f : Filter} :
      FilterForm inner w f → Blanks behind → TermForm inner ('(' :: (w ++ (behind ++ [')']))) f
  | truthy {w : Text} {operand : Operand} :
      OperandText w operand → TermForm inner w (.truthy operand)
  | compare {w gap v : Text} {left right : Operand} {comparison : Comparison} :
      OperandText w left → Blanks gap → Spaced OperandText v right →
        TermForm inner (w ++ (gap ++ (comparison.symbol ++ v))) (.compare left comparison right)

/-- A term under a budget of levels, with the blanks before it. -/
def TermText : Nat → Text → Filter → Prop
  | 0 => fun _ _ => False
  | levels + 1 => Spaced (TermForm (TermText levels))

/-- A filter under a budget of levels. -/
def FilterText (levels : Nat) : Text → Filter → Prop := FilterForm (TermText levels)

/-! ## Brackets -/

/-- A slice from behind its colon. -/
inductive SliceEndText : Text → Option Int → Prop where
  | open : SliceEndText [] none
  | bound {w : Text} {n : Int} : Spaced IntegerText w n → SliceEndText w (some n)

/-- What stands in a bracket, without the blanks around it. -/
inductive SelectorText : Text → Selector → Prop where
  | wildcard : SelectorText ['*'] .wildcard
  | filter {gap w behind : Text} {f : Filter} :
      Blanks gap → FilterText maxDepth w f → Blanks behind →
        SelectorText ('?' :: (gap ++ '(' :: (w ++ (behind ++ [')'])))) (.filter f)
  | sliceTo {w : Text} {stop : Option Int} :
      SliceEndText w stop → SelectorText (':' :: w) (.slice none stop)
  | slice {w gap v : Text} {start : Int} {stop : Option Int} :
      IntegerText w start → Blanks gap → SliceEndText v stop →
        SelectorText (w ++ (gap ++ ':' :: v)) (.slice (some start) stop)
  | step {w : Text} {s : Step} : ItemText w s → SelectorText w (.step s)
  | union {w v : Text} {s : Step} {steps : List Step} :
      ItemText w s → Sequence (Spaced NextItemText) v steps → steps ≠ [] →
        SelectorText (w ++ v) (.union (s :: steps))

/-- A bracket from behind its opening. -/
inductive BracketText : Text → Selector → Prop where
  | close {w behind : Text} {s : Selector} :
      Spaced SelectorText w s → Blanks behind → BracketText (w ++ (behind ++ [']'])) s

/-! ## Segments -/

/-- A selector behind a point. -/
inductive DottedText : Text → Selector → Prop where
  | wildcard : DottedText ['*'] .wildcard
  | name {name : Text} :
      name ≠ [] → (∀ c ∈ name, isNameChar c = true) → DottedText name (.step (.name name))

/-- A segment. -/
inductive SegmentText : Text → Segment → Prop where
  | dotted {w : Text} {s : Selector} : DottedText w s → SegmentText ('.' :: w) (.child s)
  | bracket {w : Text} {s : Selector} : BracketText w s → SegmentText ('[' :: w) (.child s)
  | descendantDotted {w : Text} {s : Selector} :
      DottedText w s → SegmentText ('.' :: '.' :: w) (.descendant s)
  | descendantBracket {w : Text} {s : Selector} :
      BracketText w s → SegmentText ('.' :: '.' :: '[' :: w) (.descendant s)

/-- An expression with its `$` or without it. -/
inductive PathText : Text → Path → Prop where
  | rooted {before w behind : Text} {p : Path} :
      Blanks before → Sequence (Spaced SegmentText) w p → Blanks behind →
        PathText (before ++ '$' :: (w ++ behind)) p
  | bare {w behind : Text} {p : Path} :
      Sequence (Spaced SegmentText) w p → Blanks behind → PathText (w ++ behind) p

end Templating.Path
