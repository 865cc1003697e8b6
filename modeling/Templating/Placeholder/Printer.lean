import Templating.Placeholder.Pattern
import Templating.Placeholder.Query

/-!
# Writing placeholders

How the three grammars are written.  What a reference leaves open is a choice of
the writer: which quotes a query uses, and which quotes and blanks stand around
each key of a data path.

A *quoted key* is a key with the quotes and blanks around it.  It is proper if
the key is not empty and holds no quote, so that it can be read back.
-/

namespace Templating

/-! ## Positional placeholders -/

/-- A positional placeholder as written. -/
def PositionalRef.write (ref : PositionalRef) : Text := '{' :: (ref.key ++ ['}'])

/-! ## Queries -/

/-- A text between two quotes in a bracket. -/
def bracketed (quote : Char) (t : Text) : Text := '[' :: quote :: (t ++ [quote, ']'])

/-- A query as written, with the quote of its expression and the quote of its
fallback. -/
def QueryRef.write (quote fallbackQuote : Char) (ref : QueryRef) : Text :=
  opening ++ ref.index ++ [']'] ++ bracketed quote ref.expression ++
    (match ref.fallback with
      | none => []
      | some fallback => bracketed fallbackQuote fallback) ++
    ['}']

/-! ## Data paths -/

/-- A key with what stands around it. -/
structure QuotedKey where
  /-- The blanks before the opening quote. -/
  before : Text
  /-- The opening quote. -/
  opening : Char
  /-- The key. -/
  key : Text
  /-- The closing quote. -/
  closing : Char
  /-- The blanks behind the closing quote. -/
  behind : Text

namespace QuotedKey

/-- Whether a key reads back. -/
def Proper (k : QuotedKey) : Prop :=
  k.before.all isBlank = true ∧ isQuote k.opening = true ∧ k.key ≠ [] ∧
    k.key.all (!isQuote ·) = true ∧ isQuote k.closing = true ∧ k.behind.all isBlank = true

instance (k : QuotedKey) : Decidable k.Proper := inferInstanceAs (Decidable (_ ∧ _))

/-- A key as written. -/
def write (k : QuotedKey) : Text := k.before ++ k.opening :: (k.key ++ k.closing :: k.behind)

end QuotedKey

/-- A data path as written, with its keys separated by commas. -/
def DataPathRef.write (index : Text) (keys : List QuotedKey) (fallback : Option QuotedKey) : Text :=
  opening ++ index ++ [']', '['] ++ Text.join ',' (keys.map QuotedKey.write) ++ [']'] ++
    (match fallback with
      | none => []
      | some k => '[' :: (k.write ++ [']'])) ++
    ['}']

example : DataPathRef.read?
    (DataPathRef.write ['0'] [⟨[' '], '"', ['a'], '\'', []⟩, ⟨[], '"', ['b'], '"', ['\n']⟩] none) =
    some (⟨['0'], [['a'], ['b']], none⟩, []) := by decide +kernel
example : QueryRef.read? (QueryRef.write '\'' '"' ⟨['1'], ['.', 'a'], some []⟩) =
    some (⟨['1'], ['.', 'a'], some []⟩, []) := by decide +kernel
example : PositionalRef.read? (PositionalRef.write ⟨['4']⟩) = some (⟨['4']⟩, []) := by
  decide +kernel

end Templating
