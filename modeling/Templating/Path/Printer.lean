import Templating.Path.Parser
import Templating.Value.Display

/-!
# Writing paths

Every path has a canonical text.  Each segment is a bracket, with two points in
front if it is a descendant segment.  Names and texts are quoted, with a
backslash before a backslash and before the quote.  Indexes are decimal.  A
filter has parentheses only where it would be read differently without them:
around an `||` under `&&` or under a `!`, around an `&&` under a `!`, and around
the right side of an operator when that side is the same operator.

A name of name characters may also stand behind a point, without quotes, as a
segment or as a step of `@`.  A *style* says for each step of a segment whether it
is written so where it can be.  Canonical texts quote every name.

A path is *well-formed* if an expression whose number literals are integers can
stand for it.  Its unions have two items at least, its integers fit in 64 bits,
and no filter opens more than `maxDepth` levels of terms at once.
-/

namespace Templating

/-! ## Quoted texts -/

namespace Path

/-- A text as it stands inside quotes. -/
def escape (quote : Char) : Text → Text
  | [] => []
  | c :: t => if c = '\\' ∨ c = quote then '\\' :: c :: escape quote t else c :: escape quote t

/-- A text in single quotes. -/
def quoted (t : Text) : Text := '\'' :: (escape '\'' t ++ ['\''])

/-- Reading a text in quotes gives back the text. -/
theorem readQuoted_escape {quote : Char} (h : isQuote quote = true) (t rest : Text) :
    readQuoted quote (escape quote t ++ quote :: rest) = .ok (t, rest) := by
  have kept : ∀ c, c = '\\' ∨ c = quote → unescape c = c := by
    simp only [isQuote, Bool.or_eq_true, beq_iff_eq] at h
    intro c hc
    rcases hc with rfl | rfl
    · decide
    · rcases h with rfl | rfl <;> decide
  have apart : quote ≠ '\\' := by
    rintro rfl
    exact absurd h (by decide)
  induction t with
  | nil =>
    rw [escape, List.nil_append]
    unfold readQuoted
    split <;> simp_all
  | cons c t ih =>
    rw [escape]
    split
    · next hc =>
      simp only [List.cons_append]
      rw [readQuoted, ih, kept c hc]
      rfl
    · next hc =>
      simp only [not_or] at hc
      simp only [List.cons_append]
      unfold readQuoted
      split <;> simp_all [Except.map]

end Path

/-! ## Styles -/

/-- Which steps of a segment are to stand without quotes, by their number from the left. -/
abbrev Style := Nat → Bool

/-- Every name has quotes. -/
def Style.canonical : Style := fun _ => false

/-- No name has quotes that can stand without them. -/
def Style.bare : Style := fun _ => true

/-- The style behind so many steps. -/
def Style.behind (style : Style) (steps : Nat) : Style := fun i => style (steps + i)

/-! ## Steps and filters -/

/-- A step as it stands in a bracket. -/
def Step.write : Step → Text
  | .name text => Path.quoted text
  | .index n => Text.ofInt n

/-- The name of a step, if it can stand without quotes. -/
def Step.bareName? : Step → Option Text
  | .name text => if text ≠ [] ∧ text.all Path.isNameChar then some text else none
  | .index _ => none

/-- A step of `@`.  A name that can stand without quotes is written so on
request. -/
def Step.relative (bare : Bool) (s : Step) : Text :=
  match bare, s.bareName? with
  | true, some text => '.' :: text
  | _, _ => '[' :: (s.write ++ [']'])

/-- The steps of `@`. -/
def writeRelative : Style → List Step → Text
  | _, [] => []
  | style, s :: steps => s.relative (style 0) ++ writeRelative (style.behind 1) steps

/-- A constant. -/
def Literal.write : Literal → Text
  | .null => Value.nullText
  | .bool b => Value.boolText b
  | .num n => n.display
  | .str t => Path.quoted t

/-- An operand. -/
def Operand.write (style : Style) : Operand → Text
  | .current steps => '@' :: writeRelative style steps
  | .literal l => l.write

/-- The steps of an operand. -/
def Operand.stepCount : Operand → Nat
  | .current steps => steps.length
  | .literal _ => 0

namespace Filter

/-- The steps of the operands of a filter. -/
def stepCount : Filter → Nat
  | .or left right => left.stepCount + right.stepCount
  | .and left right => left.stepCount + right.stepCount
  | .not inner => inner.stepCount
  | .compare left _ right => left.stepCount + right.stepCount
  | .truthy operand => operand.stepCount

/-- Where a filter stands, which decides whether it needs parentheses. -/
inductive Position where
  /-- Where a whole filter may stand. -/
  | whole
  /-- Under `||`, on its right, or under `&&`, on its left. -/
  | conjunct
  /-- Under `&&`, on its right, or under `!`. -/
  | term
deriving DecidableEq

/-- A text in parentheses, if there have to be some. -/
def parenthesize (needed : Bool) (t : Text) : Text := if needed then '(' :: (t ++ [')']) else t

/-- A filter as it is written at a position. -/
def write : Style → Position → Filter → Text
  | style, p, .or left right =>
      parenthesize (p ≠ .whole)
        (left.write style .whole ++ ['|', '|'] ++
          right.write (style.behind left.stepCount) .conjunct)
  | style, p, .and left right =>
      parenthesize (p = .term)
        (left.write style .conjunct ++ ['&', '&'] ++
          right.write (style.behind left.stepCount) .term)
  | style, _, .not inner => '!' :: inner.write style .term
  | style, _, .compare left comparison right =>
      left.write style ++ comparison.symbol ++ right.write (style.behind left.stepCount)
  | style, _, .truthy operand => operand.write style

/-- The levels of terms that are open at once when a filter is read at a
position.  Each `!`, each parenthesis and each operand or comparison is one. -/
def levels : Position → Filter → Nat
  | p, .or left right =>
      (if p ≠ .whole then 1 else 0) + max (left.levels .whole) (right.levels .conjunct)
  | p, .and left right =>
      (if p = .term then 1 else 0) + max (left.levels .conjunct) (right.levels .term)
  | _, .not inner => 1 + inner.levels .term
  | _, .compare .. => 1
  | _, .truthy _ => 1

end Filter

/-! ## Selectors and segments -/

/-- A bound of a slice. -/
def writeBound : Option Int → Text
  | none => []
  | some n => Text.ofInt n

/-- A selector as it stands in a bracket. -/
def Selector.write (style : Style) : Selector → Text
  | .step s => s.write
  | .slice start stop => writeBound start ++ ':' :: writeBound stop
  | .wildcard => ['*']
  | .union steps => Text.join ',' (steps.map Step.write)
  | .filter f => ['?', '('] ++ f.write style .whole ++ [')']

/-- The canonical text of a selector in its bracket. -/
def Selector.bracketed (s : Selector) : Text := '[' :: (s.write .canonical ++ [']'])

/-- The name that a selector picks, if it can stand without quotes. -/
def Selector.bareName? : Selector → Option Text
  | .step s => s.bareName?
  | _ => none

/-- A segment.  If its selector is a name, that is its first step. -/
def Segment.write (style : Style) : Segment → Text
  | .child s =>
      match style 0, s.bareName? with
      | true, some name => '.' :: name
      | _, _ => '[' :: (s.write style ++ [']'])
  | .descendant s =>
      match style 0, s.bareName? with
      | true, some name => '.' :: '.' :: name
      | _, _ => '.' :: '.' :: '[' :: (s.write style ++ [']'])

/-- The canonical text of a path. -/
def Path.write (p : Path) : Text := p.flatMap (Segment.write .canonical)

/-! ## Well-formed paths -/

/-- A step whose index fits in 64 bits. -/
def Step.WellFormed : Step → Prop
  | .name _ => True
  | .index n => Path.fitsSigned n = true

/-- A constant that is no double and no integer out of range. -/
def Literal.WellFormed : Literal → Prop
  | .num (.int n) => Path.fitsSigned n = true
  | .num (.double _) => False
  | _ => True

/-- An operand of well-formed parts. -/
def Operand.WellFormed : Operand → Prop
  | .current steps => ∀ s ∈ steps, s.WellFormed
  | .literal l => l.WellFormed

/-- A filter of well-formed parts. -/
def Filter.WellFormed : Filter → Prop
  | .or left right => left.WellFormed ∧ right.WellFormed
  | .and left right => left.WellFormed ∧ right.WellFormed
  | .not inner => inner.WellFormed
  | .compare left _ right => left.WellFormed ∧ right.WellFormed
  | .truthy operand => operand.WellFormed

/-- A selector of well-formed parts, with two items at least in a union and no
more than `maxDepth` levels in a filter. -/
def Selector.WellFormed : Selector → Prop
  | .step s => s.WellFormed
  | .slice start stop => (∀ n ∈ start, Path.fitsSigned n) ∧ ∀ n ∈ stop, Path.fitsSigned n
  | .wildcard => True
  | .union steps => 2 ≤ steps.length ∧ ∀ s ∈ steps, s.WellFormed
  | .filter f => f.WellFormed ∧ f.levels .whole ≤ Path.maxDepth

/-- The selector of a segment. -/
def Segment.selector : Segment → Selector
  | .child s => s
  | .descendant s => s

/-- A path of well-formed selectors. -/
def Path.WellFormed (p : Path) : Prop := ∀ s ∈ p, s.selector.WellFormed

example : Path.write
    [.child (.step (.name ['a', '\''])), .descendant (.union [.index (-1), .index 2])] =
    ['[', '\'', 'a', '\\', '\'', '\'', ']', '.', '.', '[', '-', '1', ',', '2', ']'] := by decide
example : Filter.write .canonical .whole
    (.not (.and (.truthy (.current [])) (.truthy (.literal .null)))) =
      ['!', '(', '@', '&', '&', 'n', 'u', 'l', 'l', ')'] := by decide
example : Filter.write (· == 1) .whole
    (.compare (.current [.name ['a']]) .less (.current [.name ['b']])) =
      ['@', '[', '\'', 'a', '\'', ']', '<', '@', '.', 'b'] := by decide

end Templating
