import Templating.Index
import Templating.Value.Basic

/-!
# Lookup

A list of keys is followed from the root of a document, one step a key.

* An object is asked for the member of that name.
* An array is asked for the element at a position, or for its `length`.
* A string is asked for the UTF-16 unit at a position, or for its `length` in
  units.
* Nothing else has anything inside.

The walk distinguishes nothing found from an explicit null, since the two are
replaced by different fallbacks.

`walk_append` says that following two lists of keys one after the other is
following their concatenation.
-/

namespace Templating

/-- What a walk came to. -/
inductive Lookup where
  /-- There is nothing at the path. -/
  | missing
  /-- There is an explicit null. -/
  | null
  /-- There is a value other than null. -/
  | found (v : Value)

namespace Lookup

/-- Whether nothing or null was found. -/
def isNullish : Lookup → Bool
  | .found _ => false
  | _ => true

/-- The lookup that ends at a value, or nowhere. -/
def ofValue? : Option Value → Lookup
  | none => .missing
  | some .null => .null
  | some v => .found v

end Lookup

namespace Value

/-- The key that asks an array or a string for its length. -/
def lengthKey : Text := ['l', 'e', 'n', 'g', 't', 'h']

/-- The part of a value that a key names. -/
def part? (v : Value) (key : Text) : Option Value :=
  match v with
  | .obj members => Entries.get? members key
  | .arr items =>
      if key = lengthKey then some (ofNat items.length)
      else (Index.readCanonical? key).bind (items[·]?)
  | .str t =>
      if key = lengthKey then some (ofNat (Text.units t).length)
      else ((Index.readCanonical? key).bind ((Text.units t)[·]?)).map fun u => .str (Text.ofUnit u)
  | _ => none

/-- The value that a list of keys leads to. -/
def walk (v : Value) (keys : List Text) : Option Value := keys.foldlM part? v

theorem walk_append (v : Value) (first second : List Text) :
    v.walk (first ++ second) = (v.walk first).bind (walk · second) := by
  simp [walk, List.foldlM_append]

/-- Looks a list of keys up from a root that may itself be missing. -/
def lookup (root : Option Value) (keys : List Text) : Lookup :=
  .ofValue? (root.bind (walk · keys))

example : (lookup (some (.arr [.null])) [['0']]).isNullish = true := by decide
example : (ofNat 3).walk [['0']] |>.isNone := by decide

end Value

end Templating
