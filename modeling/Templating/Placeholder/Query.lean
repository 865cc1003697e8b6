import Templating.Placeholder.Basic
import Templating.Placeholder.Piece
import Templating.Text.Character

/-!
# Queries

```text
query    = "{reqsJsonPath[" digits "]" "[" quote expression quote "]" [fallback] "}"
fallback = "[" quote text quote "]"
```

The digits are ASCII.  Blanks may stand between the parts, except inside the
opening, before the `]` of the index and before the last brace.  The two quotes
of a pair are the same character.  An expression may hold that character too,
and whole placeholders.

So where an expression ends is a choice, and so is where a fallback ends.  The
shortest expression wins that leaves a complete placeholder, and with it the
shortest fallback.  `readUntil?` makes that choice: it tries the closing quotes
from left to right and takes the first behind which the rest can be read.
-/

namespace Templating

/-- The text up to the first closing quote behind which a reader succeeds, and
what it reads there. -/
def readUntil? {α : Type} (quote : Char) (behind : Text → Option α) : Text → Option (Text × α)
  | [] => none
  | c :: t =>
      match if c = quote then behind t else none with
      | some a => some ([], a)
      | none => (readUntil? quote behind t).map fun (text, a) => (c :: text, a)

/-- Reads a text in quotes after an opening bracket, with blanks before both.
The reader decides which quote closes it. -/
def readBracketed? {α : Type} (behind : Text → Option α) (t : Text) : Option (Text × α) :=
  match Text.skipBlanks t with
  | '[' :: t =>
      match Text.skipBlanks t with
      | [] => none
      | quote :: t => if isQuote quote then readUntil? quote behind t else none
  | _ => none

namespace QueryRef

/-- What a query begins with. -/
def opening : Text := ['{', 'r', 'e', 'q', 's', 'J', 's', 'o', 'n', 'P', 'a', 't', 'h', '[']

/-- Reads the end of a query from behind the closing quote of its fallback. -/
def readFallbackEnd? (t : Text) : Option Text := Text.after? [']', '}'] (Text.skipBlanks t)

/-- Reads the end of a query from behind the closing quote of its expression. -/
def readEnd? (t : Text) : Option (Option Text × Text) :=
  match Text.skipBlanks t with
  | ']' :: t =>
      match readBracketed? readFallbackEnd? t with
      | some (fallback, rest) => some (some fallback, rest)
      | none => (Text.after? ['}'] t).map fun rest => (none, rest)
  | _ => none

/-- Reads a query. -/
def read? (t : Text) : Option (QueryRef × Text) := do
  let t ← Text.after? opening t
  let index := t.takeWhile Char.isDigit
  guard (index ≠ [])
  let t ← Text.after? [']'] (t.dropWhile Char.isDigit)
  let (expression, fallback, rest) ← readBracketed? readEnd? t
  return (⟨index, expression, fallback⟩, rest)

end QueryRef

example : holes QueryRef.read?
    (QueryRef.opening ++ ['0', ']', '[', '\'', 'a', '\'', ']', 'b', '\'', ' ', ']', '}']) =
    [(QueryRef.opening ++ ['0', ']', '[', '\'', 'a', '\'', ']', 'b', '\'', ' ', ']', '}'],
      ⟨['0'], ['a', '\'', ']', 'b'], none⟩)] := by decide +kernel
example : holes QueryRef.read?
    (QueryRef.opening ++ ['0', ']', '[', '"', '"', ']', '[', '\'', 'x', '\'', ']', '}']) =
    [(QueryRef.opening ++ ['0', ']', '[', '"', '"', ']', '[', '\'', 'x', '\'', ']', '}'],
      ⟨['0'], [], some ['x']⟩)] := by decide +kernel

end Templating
