import Templating.Value.Display
import Templating.Value.Lookup

/-!
# Fallbacks

Three texts may stand in for a value that is missing: the one written in the
placeholder, the one the caller gives, and the standard one.  The caller's goes
before the one in the placeholder.  There is one exception.  In a data path the
text in the placeholder replaces a value that is not there at all, and only an
explicit null goes through the order above.

An empty text of the caller counts as none.
-/

namespace Templating

/-- The fallback texts of one placeholder. -/
structure Fallback where
  /-- The text written in the placeholder. -/
  inline : Option Text
  /-- The text the caller gives. -/
  custom : Option Text
  /-- The text when there is no other. -/
  standard : Text

namespace Fallback

/-- The fallback texts of a placeholder, with an empty custom text left out. -/
def ofTexts (inline custom : Option Text) (standard : Text) : Fallback :=
  ⟨inline, custom.filter (· ≠ []), standard⟩

/-- The text in place of a null, or of a query that picks nothing. -/
def text (f : Fallback) : Text := (f.custom <|> f.inline).getD f.standard

/-- The text for what a data path leads to. -/
def forLookup (f : Fallback) : Lookup → Text
  | .found v => v.display
  | .missing => f.inline.getD f.text
  | .null => f.text

/-- The text for what a query picks first. -/
def forFirst (f : Fallback) (first : Option Value) : Text :=
  match first.filter fun v => !v.isNull with
  | some v => v.display
  | none => f.text

end Fallback

end Templating
