import Templating.Path.Token

/-!
# Reading paths

An expression is an optional `$` and a list of segments, with blanks allowed
before each.

```text
segment   = "." ("*" | name) | ".." ("*" | name | bracket) | bracket
bracket   = "[" ("*" | "?" "(" filter ")" | slice | items) "]"
slice     = [integer] ":" [integer]
items     = item { "," item }          item = quoted | integer
filter    = conjunction { "||" conjunction }
conjunction = term { "&&" term }
term      = "!" term | "(" filter ")" | operand [comparison operand]
operand   = "@" { "." name | "[" item "]" } | quoted | number | "true" | "false" | "null"
```

Blanks may stand between the parts of a bracket and of a filter, except before
and inside the steps of `@`.

A filter is read under a budget of levels.  Each term takes one for itself, and
each `!` and each parenthesis passes what is left to the term inside.  So the
recursion is on the budget, and the depth of a filter is bounded.
-/

namespace Templating.Path

/-! ## Steps and items -/

/-- Reads a quoted name or an integer as a step. -/
def readItem : Text → Reading (Step × Text)
  | [] => .error .ended
  | c :: t =>
      if isQuote c then (readQuoted c t).map fun (text, rest) => (.name text, rest)
      else if startsNumber c then (readInteger (c :: t)).map fun (n, rest) => (.index n, rest)
      else .error (.unexpected (c :: t) c)

/-- Reads a comma and the item after it, if there is a comma. -/
def readNextItem? (t : Text) : Reading (Option (Step × Text)) :=
  match Text.skipBlanks t with
  | ',' :: t => (readItem (Text.skipBlanks t)).map some
  | _ => .ok none

/-- Reads one step of `@`, if there is one.  A point that no name follows is
not part of the operand. -/
def readRelativeStep? : Text → Reading (Option (Step × Text))
  | '.' :: t =>
      if t.takeWhile isNameChar = [] then .ok none
      else .ok (some (.name (t.takeWhile isNameChar), t.dropWhile isNameChar))
  | '[' :: t => do
      let (step, t) ← readItem (Text.skipBlanks t)
      let t ← expect ']' (Text.skipBlanks t)
      return some (step, t)
  | _ => .ok none

/-! ## Filters -/

/-- The deepest nesting of the terms of a filter. -/
def maxDepth : Nat := 64

/-- Reads a word as a literal. -/
def readWord (t : Text) : Reading (Literal × Text) :=
  let word := t.takeWhile Char.isAlpha
  let rest := t.dropWhile Char.isAlpha
  if word = ['t', 'r', 'u', 'e'] then .ok (.bool true, rest)
  else if word = ['f', 'a', 'l', 's', 'e'] then .ok (.bool false, rest)
  else if word = ['n', 'u', 'l', 'l'] then .ok (.null, rest)
  else .error (.unsupported ("identifier '" ++ String.ofList word ++ "'"))

/-- Reads an operand. -/
def readOperand : Text → Reading (Operand × Text)
  | [] => .error .ended
  | '@' :: t => (Text.many readRelativeStep? t).map fun (steps, rest) => (.current steps, rest)
  | '$' :: _ => .error (.unsupported "root references inside filters")
  | c :: t =>
      if isQuote c then (readQuoted c t).map fun (text, rest) => (.literal (.str text), rest)
      else if startsNumber c then
        (readNumber (c :: t)).map fun (n, rest) => (.literal (.num n), rest)
      else if c.isAlpha then (readWord (c :: t)).map fun (l, rest) => (.literal l, rest)
      else .error (.unexpected (c :: t) c)

/-- Reads the symbol of a comparison, if there is one. -/
def readComparison? (t : Text) : Option (Comparison × Text) :=
  Comparison.all.findSome? fun c => (Text.after? c.symbol t).map fun rest => (c, rest)

/-- Reads an operand and, if there is a comparison behind it, the other one. -/
def readComparing (t : Text) : Reading (Filter × Text) := do
  let (left, t) ← readOperand t
  match readComparison? (Text.skipBlanks t) with
  | none => return (.truthy left, t)
  | some (comparison, t) =>
      let (right, t) ← readOperand (Text.skipBlanks t)
      return (.compare left comparison right, t)

/-- Reads one or more parts with a symbol between them and joins them to the
left. -/
def readChain (symbol : Text) (join : Filter → Filter → Filter)
    (part : Text → Reading (Filter × Text)) (t : Text) : Reading (Filter × Text) := do
  let (first, t) ← part t
  let (others, t) ← Text.many
    (fun t =>
      match Text.after? symbol (Text.skipBlanks t) with
      | none => .ok none
      | some t => (part t).map some) t
  return (others.foldl join first, t)

/-- Reads a filter out of terms. -/
def readFilterOf (term : Text → Reading (Filter × Text)) : Text → Reading (Filter × Text) :=
  readChain ['|', '|'] .or (readChain ['&', '&'] .and term)

/-- Reads a term under a budget of levels. -/
def readTerm : Nat → Text → Reading (Filter × Text)
  | 0, _ => .error (.tooDeep maxDepth)
  | levels + 1, t =>
      match Text.skipBlanks t with
      | '!' :: t => (readTerm levels t).map fun (inner, rest) => (.not inner, rest)
      | '(' :: t => do
          let (inner, t) ← readFilterOf (readTerm levels) t
          let t ← expect ')' (Text.skipBlanks t)
          return (inner, t)
      | t => readComparing t

/-- Reads a filter. -/
def readFilter : Text → Reading (Filter × Text) := readFilterOf (readTerm maxDepth)

/-! ## Brackets -/

/-- Reads the end of a slice from behind its colon. -/
def readSlice (start : Option Int) (t : Text) : Reading (Selector × Text) := do
  let t := Text.skipBlanks t
  let (stop, t) ←
    match t with
    | [] => pure (none, t)
    | c :: _ =>
        if startsNumber c then (readInteger t).map fun (n, rest) => (some n, rest)
        else pure (none, t)
  match Text.skipBlanks t with
  | ':' :: _ => .error (.unsupported "slice steps")
  | t => return (.slice start stop, t)

/-- Reads a slice, or one or more items. -/
def readItems : Text → Reading (Selector × Text)
  | ':' :: t => readSlice none t
  | t => do
      let (first, t) ← readItem t
      match first, Text.skipBlanks t with
      | .index n, ':' :: t => readSlice (some n) t
      | _, t =>
          let (others, t) ← Text.many readNextItem? t
          match others with
          | [] => return (.step first, t)
          | _ => return (.union (first :: others), t)

/-- Reads what stands in a bracket, from its first character that is no blank. -/
def readSelector : Text → Reading (Selector × Text)
  | [] => .error .ended
  | '*' :: t => .ok (.wildcard, t)
  | '?' :: t => do
      let t ← expect '(' (Text.skipBlanks t)
      let (f, t) ← readFilter t
      let t ← expect ')' (Text.skipBlanks t)
      return (.filter f, t)
  | '(' :: _ => .error (.unsupported "script expressions")
  | t => readItems t

/-- Reads a bracket from behind its opening. -/
def readBracket (t : Text) : Reading (Selector × Text) := do
  let (selector, t) ← readSelector (Text.skipBlanks t)
  let t ← expect ']' (Text.skipBlanks t)
  return (selector, t)

/-! ## Segments -/

/-- Reads the selector behind a point. -/
def readDotted : Text → Reading (Selector × Text)
  | '*' :: t => .ok (.wildcard, t)
  | t => (readName t).map fun (name, rest) => (.step (.name name), rest)

/-- Reads the selector behind two points. -/
def readDescendant : Text → Reading (Selector × Text)
  | '[' :: t => readBracket t
  | t => readDotted t

/-- Reads a segment, if the text goes on behind its blanks. -/
def readSegment? (t : Text) : Reading (Option (Segment × Text)) :=
  match Text.skipBlanks t with
  | [] => .ok none
  | '.' :: '.' :: t => (readDescendant t).map fun (s, rest) => some (.descendant s, rest)
  | '.' :: t => (readDotted t).map fun (s, rest) => some (.child s, rest)
  | '[' :: t => (readBracket t).map fun (s, rest) => some (.child s, rest)
  | c :: t => .error (.unexpected (c :: t) c)

/-- A text without one leading `$`. -/
def skipRoot : Text → Text
  | '$' :: t => t
  | t => t

/-- Reads an expression.  An error is located by bytes. -/
def parse (expression : Text) : Except (PathError Nat) Path :=
  match Text.many readSegment? (skipRoot (Text.skipBlanks expression)) with
  | .ok (segments, _) => .ok segments
  | .error e => .error (e.locate expression)

example : parse ['$'] = .ok [] := rfl
example : parse ['.', 'a', '[', '-', '1', ']', '.', '.', '*'] =
    .ok [.child (.step (.name ['a'])), .child (.step (.index (-1))), .descendant .wildcard] := rfl
example : parse ['[', '1', ':', ']'] = .ok [.child (.slice (some 1) none)] := rfl
example : parse ['[', '?', '(', '!', '@', '.', 'a', '&', '&', '1', '<', '2', ')', ']'] =
    .ok [.child (.filter (.and (.not (.truthy (.current [.name ['a']])))
      (.compare (.literal (.num (.int 1))) .less (.literal (.num (.int 2))))))] := rfl
example : parse [' ', 'a'] = .error (.unexpected 1 'a') := rfl
example : parse ['[', '(', ']'] = .error (.unsupported "script expressions") := rfl
example : parse ['[', '\'', 'a'] = .error .ended := rfl

end Templating.Path
