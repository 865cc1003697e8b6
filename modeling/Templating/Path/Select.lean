import Templating.Index
import Templating.Path.Parser
import Templating.Value.Coercion
import Templating.Value.Lookup

/-!
# Selection

What a path picks from a value, in document order.

`Step.find?` follows one step, `Selector.pick` lists what a selector picks from
one value, and `Path.select` runs the segments one after the other.  A filter
asks for an operand with `Operand.value?`, which follows the same steps and
also knows the `length` of arrays and strings.

`select_append` says that a concatenation of paths selects from what the first
path selected, and `select_cons` that a path selects from what its first segment
picked.
-/

namespace Templating

/-! ## Positions -/

/-- A position among so many elements, counted from the end if negative. -/
def fromEnd (length : Nat) (n : Int) : Int := if n < 0 then length + n else n

/-- The element at a position, if there is one. -/
def elementAt? (items : List Value) (n : Int) : Option Value :=
  let position := fromEnd items.length n
  if position < 0 then none else items[position.toNat]?

/-- A bound of a slice among so many elements, moved into their range. -/
def sliceBound (length : Nat) (n : Int) : Nat := min (fromEnd length n).toNat length

/-- The elements from the first bound up to, and without, the second. -/
def sliceOf (items : List Value) (start stop : Option Int) : List Value :=
  let low := (start.map (sliceBound items.length)).getD 0
  let high := (stop.map (sliceBound items.length)).getD items.length
  (items.take high).drop low

/-! ## Steps and operands -/

/-- The value that a step leads to. -/
def Step.find? (v : Value) : Step → Option Value
  | .name text =>
      match v with
      | .obj members => Entries.get? members text
      | .arr items => (Index.read? text).bind (items[·]?)
      | _ => none
  | .index n =>
      match v with
      | .obj members => Entries.get? members (Text.ofInt n)
      | .arr items => elementAt? items n
      | _ => none

/-- The value that a step leads to inside a filter, where arrays and strings
have a length. -/
def Step.part? (v : Value) (s : Step) : Option Value :=
  match v, s with
  | .arr items, .name text =>
      if text = Value.lengthKey then some (.ofNat items.length) else Step.find? v s
  | .str t, .name text =>
      if text = Value.lengthKey then some (.ofNat (Text.units t).length) else none
  | _, _ => Step.find? v s

/-- The value of a constant. -/
def Literal.value : Literal → Value
  | .null => .null
  | .bool b => .bool b
  | .num n => .num n
  | .str t => .str t

/-- The value of an operand for the child under test. -/
def Operand.value? (current : Value) : Operand → Option Value
  | .literal l => some l.value
  | .current steps => steps.foldlM Step.part? current

/-! ## Filters -/

/-- Whether two operands compare so. -/
def Comparison.holds (left right : Option Value) : Comparison → Bool
  | .equal => Value.looselyEqual left right
  | .unequal => !Value.looselyEqual left right
  | .strictlyEqual => Value.strictlyEqual left right
  | .strictlyUnequal => !Value.strictlyEqual left right
  | .less => (Value.order? left right).any Ordering.isLT
  | .lessOrEqual => (Value.order? left right).any Ordering.isLE
  | .greater => (Value.order? left right).any Ordering.isGT
  | .greaterOrEqual => (Value.order? left right).any Ordering.isGE

/-- Whether a value passes a filter. -/
def Filter.holds (current : Value) : Filter → Bool
  | .or left right => left.holds current || right.holds current
  | .and left right => left.holds current && right.holds current
  | .not inner => !inner.holds current
  | .compare left comparison right => comparison.holds (left.value? current) (right.value? current)
  | .truthy operand => Value.truthy (operand.value? current)

/-! ## Selectors and paths -/

/-- What a selector picks from a value. -/
def Selector.pick (v : Value) : Selector → List Value
  | .step s => (s.find? v).toList
  | .slice start stop =>
      match v with
      | .arr items => sliceOf items start stop
      | _ => []
  | .wildcard => v.children
  | .union steps => steps.filterMap (Step.find? v)
  | .filter f => v.children.filter f.holds

/-- What a segment picks from a value. -/
def Segment.pick (v : Value) : Segment → List Value
  | .child s => s.pick v
  | .descendant s => v.family.flatMap s.pick

namespace Path

/-- What a path picks from several values, in their order. -/
def selectFrom (values : List Value) (p : Path) : List Value :=
  p.foldl (fun reached segment => reached.flatMap segment.pick) values

/-- What a path picks from a document. -/
def select (p : Path) (root : Value) : List Value := selectFrom [root] p

/-- Reads an expression and lists what it picks from a document. -/
def query (root : Value) (expression : Text) : Except (PathError Nat) (List Value) :=
  (parse expression).map (select · root)

/-- Reads an expression and finds what it picks first from a document. -/
def queryFirst? (root : Value) (expression : Text) : Except (PathError Nat) (Option Value) :=
  (query root expression).map List.head?

theorem selectFrom_append (first second : Path) (values : List Value) :
    selectFrom values (first ++ second) = selectFrom (selectFrom values first) second := by
  simp [selectFrom]

/-- A path picks from several values what it picks from each. -/
theorem selectFrom_eq_flatMap (p : Path) (values : List Value) :
    selectFrom values p = values.flatMap fun v => selectFrom [v] p := by
  induction p generalizing values with
  | nil => simp [selectFrom]
  | cons segment rest ih =>
    have step : ∀ vs, selectFrom vs (segment :: rest) = selectFrom (vs.flatMap segment.pick) rest :=
      fun _ => rfl
    simp only [step]
    rw [ih, List.flatMap_assoc]
    congr 1
    funext v
    rw [ih ([v].flatMap _)]
    simp

theorem select_append (first second : Path) (root : Value) :
    select (first ++ second) root = (select first root).flatMap (select second) := by
  rw [select, selectFrom_append, selectFrom_eq_flatMap]
  rfl

theorem select_cons (segment : Segment) (rest : Path) (root : Value) :
    select (segment :: rest) root = (segment.pick root).flatMap (select rest) := by
  have first : select [segment] root = segment.pick root := by simp [select, selectFrom]
  rw [← first, ← select_append]
  rfl

end Path

end Templating
