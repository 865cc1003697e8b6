import Templating.Entries
import Templating.Number.Basic

/-!
# Values

A document is a JSON value.  An object keeps its members in the order in which
they were written, and so does everything computed from one.

A position or a filter may find no value at all.  That case is an
`Option Value`, with `none` for the undefined value.

`same` is equality of documents.  It does not look at the order of members, it
tells an integer from a double, and it compares doubles as numbers.

`children_induction` proves of every value what passes to it from its children, and
`family_eq_cons` makes its family of theirs.
-/

namespace Templating

/-- A JSON value. -/
inductive Value where
  | null
  | bool (b : Bool)
  | num (n : Number)
  | str (t : Text)
  | arr (items : List Value)
  | obj (members : List (Text × Value))

namespace Value

/-- Whether a value is null. -/
def isNull : Value → Bool
  | .null => true
  | _ => false

/-- Whether a value is an array or an object. -/
def isContainer : Value → Bool
  | .arr _ => true
  | .obj _ => true
  | _ => false

/-- A count as a value. -/
def ofNat (n : Nat) : Value := .num (.int n)

/-- The values directly inside a value, in order. -/
def children : Value → List Value
  | .arr items => items
  | .obj members => members.map (·.2)
  | _ => []

mutual

/-- What holds of a value if it holds of its children holds of every value. -/
theorem children_induction {motive : Value → Prop}
    (step : ∀ v, (∀ c ∈ v.children, motive c) → motive v) : ∀ v, motive v
  | .arr items => step _ (items_induction step items)
  | .obj members => step _ (members_induction step members)
  | .null => step _ (List.forall_mem_nil _)
  | .bool _ => step _ (List.forall_mem_nil _)
  | .num _ => step _ (List.forall_mem_nil _)
  | .str _ => step _ (List.forall_mem_nil _)

theorem items_induction {motive : Value → Prop}
    (step : ∀ v, (∀ c ∈ v.children, motive c) → motive v) :
    ∀ items : List Value, ∀ c ∈ items, motive c
  | [] => List.forall_mem_nil _
  | v :: rest => List.forall_mem_cons.mpr ⟨children_induction step v, items_induction step rest⟩

theorem members_induction {motive : Value → Prop}
    (step : ∀ v, (∀ c ∈ v.children, motive c) → motive v) :
    ∀ members : List (Text × Value), ∀ c ∈ members.map (·.2), motive c
  | [] => List.forall_mem_nil _
  | (_, v) :: rest =>
      List.forall_mem_cons.mpr ⟨children_induction step v, members_induction step rest⟩

end

/-! ## Equality of documents -/

/-- Equality of numbers that tells an integer from a double. -/
def sameNumber : Number → Number → Bool
  | .int m, .int n => m == n
  | .double x, .double y => x.equals y
  | _, _ => false

mutual

/-- Whether two values are the same document. -/
def same : Value → Value → Bool
  | .null, .null => true
  | .bool a, .bool b => a == b
  | .num m, .num n => sameNumber m n
  | .str s, .str t => s == t
  | .arr xs, .arr ys => sameItems xs ys
  | .obj xs, .obj ys => xs.length == ys.length && sameMembers xs ys
  | _, _ => false

/-- Whether two arrays hold the same values in order. -/
def sameItems : List Value → List Value → Bool
  | [], [] => true
  | x :: xs, y :: ys => same x y && sameItems xs ys
  | _, _ => false

/-- Whether each member of the first object is in the second. -/
def sameMembers : List (Text × Value) → List (Text × Value) → Bool
  | [], _ => true
  | (key, x) :: xs, ys =>
      (match Entries.get? ys key with
        | some y => same x y
        | none => false) && sameMembers xs ys

end

/-! ## Walking a value -/

mutual

/-- A value and everything inside it, each before what it holds. -/
def family : Value → List Value
  | .arr items => .arr items :: familyOfItems items
  | .obj members => .obj members :: familyOfMembers members
  | v => [v]

/-- The families of the elements of an array, one after the other. -/
def familyOfItems : List Value → List Value
  | [] => []
  | v :: rest => family v ++ familyOfItems rest

/-- The families of the members of an object, one after the other. -/
def familyOfMembers : List (Text × Value) → List Value
  | [] => []
  | (_, v) :: rest => family v ++ familyOfMembers rest

end

theorem familyOfItems_eq_flatMap (items : List Value) :
    familyOfItems items = items.flatMap family := by
  induction items with
  | nil => rfl
  | cons v rest ih => rw [familyOfItems, ih, List.flatMap_cons]

theorem familyOfMembers_eq_flatMap (members : List (Text × Value)) :
    familyOfMembers members = (members.map (·.2)).flatMap family := by
  induction members with
  | nil => rfl
  | cons member rest ih => rw [familyOfMembers, ih, List.map_cons, List.flatMap_cons]

theorem family_eq_cons (v : Value) : v.family = v :: v.children.flatMap family := by
  cases v with
  | arr items => rw [family, familyOfItems_eq_flatMap, children]
  | obj members => rw [family, familyOfMembers_eq_flatMap, children]
  | null => rfl
  | bool _ => rfl
  | num _ => rfl
  | str _ => rfl

mutual

/-- A value with every string in it replaced.  Keys are kept. -/
def mapStrings (f : Text → Text) : Value → Value
  | .str t => .str (f t)
  | .arr items => .arr (mapStringsOfItems f items)
  | .obj members => .obj (mapStringsOfMembers f members)
  | .null => .null
  | .bool b => .bool b
  | .num n => .num n

/-- The elements of an array with every string in them replaced. -/
def mapStringsOfItems (f : Text → Text) : List Value → List Value
  | [] => []
  | v :: rest => mapStrings f v :: mapStringsOfItems f rest

/-- The members of an object with every string in their values replaced. -/
def mapStringsOfMembers (f : Text → Text) : List (Text × Value) → List (Text × Value)
  | [] => []
  | (key, v) :: rest => (key, mapStrings f v) :: mapStringsOfMembers f rest

end

theorem mapStringsOfItems_eq_map (f : Text → Text) (items : List Value) :
    mapStringsOfItems f items = items.map (mapStrings f) := by
  induction items with
  | nil => rfl
  | cons v rest ih => simp [mapStringsOfItems, ih]

theorem mapStringsOfMembers_eq_map (f : Text → Text) (members : List (Text × Value)) :
    mapStringsOfMembers f members = members.map fun (key, v) => (key, mapStrings f v) := by
  induction members with
  | nil => rfl
  | cons member rest ih => simp [mapStringsOfMembers, ih]

example : same (.obj [(['a'], .null), (['b'], .bool true)])
    (.obj [(['b'], .bool true), (['a'], .null)]) = true := by decide
example : same (ofNat 1) (.num (.double .one)) = false := by decide
example : (family (.arr [.null, .obj [([], .bool true)]])).length = 4 := by decide

end Value

end Templating
