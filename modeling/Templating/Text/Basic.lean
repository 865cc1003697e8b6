/-!
# Text

A text is a list of characters.  Templates, keys, URL segments and the strings
of a document are all texts.  Lists make every reader of this library a
structural recursion, and every statement about a part of a text a statement
about `++`.

Three measures of a text are used.  `byteSize` counts UTF-8 bytes, in which
spans and positions are given.  `units` lists UTF-16 units, in which a string
of a document is indexed and ordered.  The length counts characters and only
bounds recursions.

`after?` reads a fixed mark.  `splitOn` cuts a text at a separator and `join`
puts the parts back together.
-/

namespace Templating

/-- A text is its list of characters. -/
abbrev Text := List Char

/-- Whether a character opens and closes a quoted text. -/
def isQuote (c : Char) : Bool := c == '\'' || c == '"'

namespace Text

/-! ## Measures -/

/-- The number of bytes a text takes in UTF-8. -/
def byteSize : Text → Nat
  | [] => 0
  | c :: t => c.utf8Size + byteSize t

@[simp] theorem byteSize_nil : byteSize [] = 0 := rfl

@[simp] theorem byteSize_cons (c : Char) (t : Text) :
    byteSize (c :: t) = c.utf8Size + byteSize t := rfl

@[simp] theorem byteSize_append (s t : Text) : byteSize (s ++ t) = byteSize s + byteSize t := by
  induction s with
  | nil => simp
  | cons c s ih => simp [ih, Nat.add_assoc]

/-- The UTF-16 units of a character, a surrogate pair above U+FFFF. -/
def charUnits (c : Char) : List Nat :=
  if c.toNat < 0x10000 then [c.toNat]
  else [0xD800 + (c.toNat - 0x10000) / 0x400, 0xDC00 + (c.toNat - 0x10000) % 0x400]

/-- The UTF-16 units of a text. -/
def units (t : Text) : List Nat := t.flatMap charUnits

/-- A single UTF-16 unit as a text.  A surrogate is no character of its own and
becomes the replacement character. -/
def ofUnit (u : Nat) : Text :=
  if 0xD800 ≤ u ∧ u ≤ 0xDFFF then ['\uFFFD'] else [Char.ofNat u]

/-! ## Reading a mark -/

/-- What follows a mark that a text begins with. -/
def after? : Text → Text → Option Text
  | [], t => some t
  | _ :: _, [] => none
  | m :: mark, c :: t => if m = c then after? mark t else none

theorem after?_eq_some_iff {mark t rest : Text} : after? mark t = some rest ↔ t = mark ++ rest := by
  induction mark generalizing t with
  | nil => simp [after?]
  | cons m mark ih =>
    cases t with
    | nil => simp [after?]
    | cons c t =>
      by_cases h : m = c
      · simp [after?, h, ih]
      · simp [after?, h, Ne.symm h]

/-! ## Cutting and joining -/

/-- The parts of a text between the occurrences of a separator.  There is one
part more than there are separators, so a text without one is a single part. -/
def splitOn (separator : Char) : Text → List Text
  | [] => [[]]
  | c :: t =>
      if c = separator then [] :: splitOn separator t
      else
        match splitOn separator t with
        | [] => [[c]]
        | part :: parts => (c :: part) :: parts

/-- Parts written one after the other with a separator between neighbours. -/
def join (separator : Char) (parts : List Text) : Text := [separator].intercalate parts

theorem join_cons (separator : Char) (first : Text) (others : List Text) :
    join separator (first :: others) = first ++ others.flatMap (separator :: ·) := by
  induction others generalizing first with
  | nil => simp [join]
  | cons second others ih =>
      rw [List.flatMap_cons, List.cons_append, ← ih second]
      simp [join]

example : splitOn '/' ['/', 'a', '/', 'b'] = [[], ['a'], ['b']] := by decide
example : join ',' [['1'], [], ['2']] = ['1', ',', ',', '2'] := by decide
example : units ['é', '😀'] = [0xE9, 0xD83D, 0xDE00] := by decide
example : byteSize ['é', '😀'] = 6 := by decide

end Text

end Templating
