/-!
# Entries

A finite map kept as a list of key and value pairs in the order in which the
keys first came.  Objects, fetched documents and URL segments are all kept so.
Inserting a key again replaces its value and keeps its place, so building a map
from pairs lets the later pair win.

`get?_insert` is the law of insertion.  `sameAs` compares two maps without
regard to their order.
-/

namespace Templating

/-- Keys with their values, in order of first insertion. -/
abbrev Entries (κ α : Type) := List (κ × α)

namespace Entries

variable {κ α : Type} [DecidableEq κ]

/-- The value kept under a key. -/
def get? : Entries κ α → κ → Option α
  | [], _ => none
  | (k, a) :: rest, key => if k = key then some a else get? rest key

/-- The map with a value kept under a key, in place of any value before. -/
def insert : Entries κ α → κ → α → Entries κ α
  | [], key, value => [(key, value)]
  | (k, a) :: rest, key, value =>
      if k = key then (k, value) :: rest else (k, a) :: insert rest key value

/-- The map without a key. -/
def erase (entries : Entries κ α) (key : κ) : Entries κ α :=
  entries.filter fun entry => entry.1 ≠ key

/-- The map of a list of pairs.  Of two pairs with one key the later wins. -/
def ofPairs (pairs : List (κ × α)) : Entries κ α :=
  pairs.foldl (fun entries pair => insert entries pair.1 pair.2) []

/-- Whether two maps hold the same keys with values that `same` accepts. -/
def sameAs (same : α → α → Bool) (left right : Entries κ α) : Bool :=
  left.length == right.length &&
    left.all fun entry =>
      match get? right entry.1 with
      | some value => same entry.2 value
      | none => false

theorem get?_insert (entries : Entries κ α) (key : κ) (value : α) (other : κ) :
    get? (insert entries key value) other =
      if key = other then some value else get? entries other := by
  induction entries with
  | nil => rfl
  | cons entry rest ih => grind [insert, get?]

/-- Inserting adds a key unless it is there already. -/
theorem length_insert (entries : Entries κ α) (key : κ) (value : α) :
    (insert entries key value).length =
      if (get? entries key).isSome then entries.length else entries.length + 1 := by
  induction entries with
  | nil => rfl
  | cons entry rest ih =>
    by_cases h : entry.1 = key
    · simp [insert, get?, h]
    · simp only [insert, get?, h, if_false, List.length_cons, ih]
      split <;> rfl

example : ofPairs [(1, 'a'), (2, 'b'), (1, 'c')] = [(1, 'c'), (2, 'b')] := by decide
example : sameAs (· == ·) [(1, 'a'), (2, 'b')] [(2, 'b'), (1, 'a')] = true := by decide

end Entries

end Templating
