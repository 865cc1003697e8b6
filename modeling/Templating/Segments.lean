import Templating.Entries
import Templating.Text.Numeral

/-!
# URL segments

The segments of the current URL, by position.  A position is kept as the text
that a placeholder names it with, the decimal numeral of its number.  A position
may be known and have no segment, as behind the end of the URL.  It then counts
as one that is not there.

A path is cut at every slash, so an absolute path has an empty segment in
front.
-/

namespace Templating

/-- Segments by position. -/
abbrev Segments := Entries Text (Option Text)

namespace Segments

/-- Segments numbered from zero. -/
def ofList (segments : List Text) : Segments :=
  segments.zipIdx.map fun (segment, i) => (Text.ofNat i, some segment)

/-- The segments of a URL path. -/
def ofPath (path : Text) : Segments := ofList (Text.splitOn '/' path)

/-- The segment at a position. -/
def segment? (segments : Segments) (key : Text) : Option Text := (Entries.get? segments key).join

example : segment? (ofPath ['/', 'a', '/', 'b']) ['2'] = some ['b'] := by decide
example : segment? (ofPath ['/', 'a']) ['0'] = some [] := by decide
example : segment? [(['0'], none)] ['0'] = none := by decide

end Segments

end Templating
