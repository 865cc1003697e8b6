import Templating.Placeholder.Basic
import Templating.Placeholder.Piece
import Templating.Text.Character
import Templating.Text.Repeat

/-!
# Positional placeholders and data paths

```text
position  = "{" digits "}"
data path = "{reqs[" digits "][" list "]" ["[" key "]"] "}"
list      = key { [","] key } [","]
key       = blanks quote text quote blanks
```

The digits are decimal digits of any script.  Braces around anything but digits
belong to the text.

A key or fallback is a non-empty text without quotes.  It may open with one quote
and close with the other.  Blanks stand around a key but not after a comma that
ends the list.

The list is gone through twice.  First it is matched as a whole, which shows
where it ends.  Then the quoted texts in it are looked for, from left to right.
These are the keys.
-/

namespace Templating

/-! ## Positional placeholders -/

/-- Reads a positional placeholder. -/
def PositionalRef.read? : Text → Option (PositionalRef × Text)
  | '{' :: t =>
      match t.takeWhile isDecimalDigit, t.dropWhile isDecimalDigit with
      | d :: digits, '}' :: rest => some (⟨d :: digits⟩, rest)
      | _, _ => none
  | _ => none

example : holes PositionalRef.read? ['a', '{', '1', '2', '}', '{', ' ', '1', '}', '{', '}'] =
    [(['{', '1', '2', '}'], ⟨['1', '2']⟩)] := by decide +kernel

/-! ## Quoted texts -/

/-- Reads a non-empty text without quotes between two quotes. -/
def readQuotedText? : Text → Option (Text × Text)
  | [] => none
  | quote :: t =>
      match t.takeWhile (!isQuote ·), t.dropWhile (!isQuote ·) with
      | c :: text, _ :: rest => if isQuote quote then some (c :: text, rest) else none
      | _, _ => none

/-- The quoted texts in a text, without their quotes. -/
def quotedTexts (t : Text) : List Text := (holes readQuotedText? t).map Prod.snd

/-! ## Lists of keys -/

/-- Reads a quoted key and the blanks around it. -/
def readQuotedKey? (t : Text) : Option (Text × Text) :=
  (readQuotedText? (Text.skipBlanks t)).map fun (key, rest) => (key, Text.skipBlanks rest)

/-- A text without one leading comma. -/
def skipComma : Text → Text
  | ',' :: t => t
  | t => t

/-- Reads a key of the list and the comma after it, if there is one. -/
def readListedKey? (t : Text) : Option (Text × Text) :=
  (readQuotedKey? t).map fun (key, rest) => (key, skipComma rest)

/-- Reads a list of one or more keys.  Gives the list as written. -/
def readKeyList? (t : Text) : Option (Text × Text) :=
  match Text.manyOf readListedKey? t with
  | ([], _) => none
  | (_ :: _, rest) => some (t.take (t.length - rest.length), rest)

/-- Reads a fallback in brackets. -/
def readBracketedKey? : Text → Option (Text × Text)
  | '[' :: t =>
      match readQuotedKey? t with
      | some (key, ']' :: rest) => some (key, rest)
      | _ => none
  | _ => none

namespace DataPathRef

/-- What a data path begins with. -/
def opening : Text := ['{', 'r', 'e', 'q', 's', '[']

/-- Reads the end of a data path from behind its keys. -/
def readEnd? (t : Text) : Option (Option Text × Text) :=
  match readBracketedKey? t with
  | some (fallback, '}' :: rest) => some (some fallback, rest)
  | some _ => none
  | none =>
      match t with
      | '}' :: rest => some (none, rest)
      | _ => none

/-- Reads a data path. -/
def read? (t : Text) : Option (DataPathRef × Text) := do
  let t ← Text.after? opening t
  let index := t.takeWhile isDecimalDigit
  guard (index ≠ [])
  let t ← Text.after? [']', '['] (t.dropWhile isDecimalDigit)
  let (list, t) ← readKeyList? t
  let t ← Text.after? [']'] t
  let (fallback, rest) ← readEnd? t
  return (⟨index, quotedTexts list, fallback⟩, rest)

end DataPathRef

example : holes DataPathRef.read?
    ['{', 'r', 'e', 'q', 's', '[', '7', ']', '[', '\'', 'a', '"', ' ', ',', '"', 'b', '"', ']', '[',
      '"', 'c', '"', ']', '}'] =
    [(['{', 'r', 'e', 'q', 's', '[', '7', ']', '[', '\'', 'a', '"', ' ', ',', '"', 'b', '"', ']',
      '[', '"', 'c', '"', ']', '}'], ⟨['7'], [['a'], ['b']], some ['c']⟩)] := by decide +kernel

end Templating
