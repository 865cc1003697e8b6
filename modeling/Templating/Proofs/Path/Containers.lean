import Templating.Path.Select
import Templating.Proofs.Value.Equality

/-!
# Containers in comparisons

Beside an operand that is no container, an array or an object is compared through its text.  Loose
equality puts the text in its place (`looselyEqual_display`).  An order does not.  It compares two
texts by their units, but a container beside a text is no text, so there both are read as numbers
(`order?_container`).

So a container compares as its text by every operator that coerces, except by order with a text.
There it does so only if the two numbers are in the order of the two texts (`holds_container`).  Most
texts are no numbers, and then no order holds at all (`holds_container_unordered`).
-/

namespace Templating

/-! ## Orders -/

theorem Double.order?_swap (x y : Double) : y.order? x = (x.order? y).map Ordering.swap := by
  rw [order?, order?, Bool.or_comm y.isNaN]
  split
  next => rfl
  next => exact congrArg some Std.OrientedOrd.eq_swap

namespace Value

/-- Operands are ordered as numbers unless both are texts. -/
theorem order?_of_not_isText {v w : Value} (h : (v.isText && w.isText) = false) :
    order? (some v) (some w) = (toNumber (some v)).order? (toNumber (some w)) := by
  unfold order?
  split
  next left right =>
    cases left
    cases right
    cases h
  next => rfl

theorem order?_swap (v w : Value) :
    order? (some w) (some v) = (order? (some v) (some w)).map Ordering.swap := by
  cases texts : v.isText && w.isText with
  | true =>
      obtain ⟨s, t, rfl, rfl⟩ := exists_texts texts
      exact congrArg some Std.OrientedOrd.eq_swap
  | false =>
      have swapped : (w.isText && v.isText) = false := by rw [Bool.and_comm, texts]
      rw [order?_of_not_isText texts, order?_of_not_isText swapped, Double.order?_swap]

/-! ## Containers -/

section Container

variable {a b : Value}

/-- A container is ordered as a number, which is that of its text. -/
theorem order?_container (container : a.isContainer = true) (b : Value) :
    order? (some a) (some b) = (textToNumber a.display).order? (toNumber (some b)) := by
  rcases exists_of_isContainer container with ⟨items, rfl⟩ | ⟨members, rfl⟩
  · exact order?_of_not_isText rfl
  · exact order?_of_not_isText rfl

/-- Beside anything but a text it is ordered as its text. -/
theorem order?_display (container : a.isContainer = true) (numeric : b.isText = false) :
    order? (some a) (some b) = order? (some (.str a.display)) (some b) := by
  rw [order?_container container, order?_of_not_isText (by rw [numeric, Bool.and_false])]
  rfl

end Container

end Value

/-! ## Comparisons -/

namespace Comparison

open Value

/-- Whether a comparison asks for an order. -/
def isOrder : Comparison → Bool
  | .less => true
  | .lessOrEqual => true
  | .greater => true
  | .greaterOrEqual => true
  | _ => false

/-- Whether a comparison coerces nothing. -/
def isStrict : Comparison → Bool
  | .strictlyEqual => true
  | .strictlyUnequal => true
  | _ => false

/-- A comparison answers alike for two pairs of values, whichever stands on the left. -/
def Agrees (c : Comparison) (p q : Value × Value) : Prop :=
  c.holds (some p.1) (some p.2) = c.holds (some q.1) (some q.2) ∧
    c.holds (some p.2) (some p.1) = c.holds (some q.2) (some q.1)

/-- A comparison that coerces sees loose equality or the order of its operands. -/
theorem holds_congr {c : Comparison} (coerces : c.isStrict = false) {l r l' r' : Option Value}
    (equal : c.isOrder = false → looselyEqual l r = looselyEqual l' r')
    (ordered : c.isOrder = true → order? l r = order? l' r') : c.holds l r = c.holds l' r' := by
  cases c with
  | equal => exact equal rfl
  | unequal => exact congrArg (!·) (equal rfl)
  | strictlyEqual => cases coerces
  | strictlyUnequal => cases coerces
  | less => exact congrArg (Option.any Ordering.isLT) (ordered rfl)
  | lessOrEqual => exact congrArg (Option.any Ordering.isLE) (ordered rfl)
  | greater => exact congrArg (Option.any Ordering.isGT) (ordered rfl)
  | greaterOrEqual => exact congrArg (Option.any Ordering.isGE) (ordered rfl)

section Agrees

variable {v w v' w' : Value}

/-- Both are symmetric, so the other side sees the same. -/
theorem agrees_of {c : Comparison} (coerces : c.isStrict = false)
    (equal : c.isOrder = false → looselyEqual (some v) (some w) = looselyEqual (some v') (some w'))
    (ordered : c.isOrder = true → order? (some v) (some w) = order? (some v') (some w')) :
    c.Agrees (v, w) (v', w') := by
  refine ⟨holds_congr coerces equal ordered, holds_congr coerces (fun other => ?_) fun order => ?_⟩
  · rw [looselyEqual_comm, equal other, looselyEqual_comm]
  · rw [order?_swap v, ordered order, ← order?_swap]

/-- No two orders pass the same tests. -/
theorem order_ext {o o' : Option Ordering} (below : o.any Ordering.isLT = o'.any Ordering.isLT)
    (atMost : o.any Ordering.isLE = o'.any Ordering.isLE)
    (above : o.any Ordering.isGT = o'.any Ordering.isGT) : o = o' := by
  have tested (o : Option Ordering) : o =
      if o.any Ordering.isLT then some .lt else if o.any Ordering.isGT then some .gt
        else if o.any Ordering.isLE then some .eq else none := by
    rcases o with _ | _ | _ | _ <;> rfl
  rw [tested o, below, atMost, above, ← tested o']

/-- The comparisons of order tell all orders apart. -/
theorem forall_isOrder_agrees_iff :
    (∀ c : Comparison, c.isOrder = true → c.Agrees (v, w) (v', w')) ↔
      order? (some v) (some w) = order? (some v') (some w') := by
  constructor
  · intro agree
    exact order_ext (agree .less rfl).1 (agree .lessOrEqual rfl).1 (agree .greater rfl).1
  · intro same c order
    have coerces : c.isStrict = false := by
      cases c with
      | strictlyEqual => cases order
      | strictlyUnequal => cases order
      | _ => rfl
    refine agrees_of coerces (fun other => ?_) fun _ => same
    rw [order] at other
    cases other

end Agrees

/-- A container beside a value that is no container compares as its text, on either side, by both
loose equalities, and by every order if the value is no text.  By order with a text, both are
compared as numbers.  That is comparing the two texts exactly if the numbers are in their order. -/
theorem holds_container {a b : Value} (container : a.isContainer = true)
    (plain : b.isContainer = false) :
    let text : Value := .str a.display
    let number (t : Text) : Value := .num (.double (textToNumber t))
    (∀ c : Comparison, c.isStrict = false → (c.isOrder = true → b.isText = false) →
      c.Agrees (a, b) (text, b)) ∧
    ∀ s, b = .str s →
      (∀ c : Comparison, c.isOrder = true → c.Agrees (a, b) (number a.display, number s)) ∧
      ((∀ c : Comparison, c.isOrder = true → c.Agrees (a, b) (text, b)) ↔
        (textToNumber a.display).order? (textToNumber s) =
          some (compare (Text.units a.display) (Text.units s))) := by
  intro text number
  refine ⟨fun c coerces numeric => ?_, ?_⟩
  · exact agrees_of coerces (fun _ => looselyEqual_display container plain) fun order =>
      order?_display container (numeric order)
  · rintro s rfl
    have numbers : order? (some a) (some (.str s)) =
        (textToNumber a.display).order? (textToNumber s) := order?_container container (.str s)
    have texts : order? (some text) (some (.str s)) =
        some (compare (Text.units a.display) (Text.units s)) := rfl
    refine ⟨forall_isOrder_agrees_iff.mpr numbers, ?_⟩
    rw [forall_isOrder_agrees_iff, numbers, texts]

/-- `[10]` is above `9` as its text is.  It is above the text `9` as well, although `10` comes
before `9` among the texts. -/
theorem holds_container_ten :
    let a : Value := .arr [.ofNat 10]
    let text : Value := .str ['1', '0']
    greater.Agrees (a, .ofNat 9) (text, .ofNat 9) ∧
      greater.holds (some a) (some (.str ['9'])) = true ∧
      ¬ ∀ c : Comparison, c.isOrder = true → c.Agrees (a, .str ['9']) (text, .str ['9']) := by
  intro a text
  have shown : text = .str a.display := rfl
  obtain ⟨numeric, -⟩ := holds_container (a := a) (b := .ofNat 9) rfl rfl
  obtain ⟨-, textual⟩ := holds_container (a := a) (b := .str ['9']) rfl rfl
  obtain ⟨numbers, orders⟩ := textual ['9'] rfl
  refine ⟨numeric .greater rfl fun _ => rfl, ?_, ?_⟩
  · rw [(numbers .greater rfl).1]
    decide +kernel
  · rw [shown, orders]
    decide +kernel

/-- `['b']` is not above the text `a`, although its text `b` is.  So a filter does not pass it. -/
theorem holds_container_unordered :
    let a : Value := .arr [.str ['b']]
    greater.holds (some a) (some (.str ['a'])) = false ∧
      greater.holds (some (.str a.display)) (some (.str ['a'])) = true ∧
      Path.query (.arr [a]) ['[', '?', '(', '@', '>', '\'', 'a', '\'', ')', ']'] = .ok [] ∧
      ¬ ∀ c : Comparison, c.isStrict = false → ∀ a b : Value, a.isContainer = true →
        b.isContainer = false → b.isNull = false → c.Agrees (a, b) (.str a.display, b) := by
  refine ⟨by decide +kernel, by decide +kernel, rfl, fun agree => ?_⟩
  have same := (agree .greater rfl (.arr [.str ['b']]) (.str ['a']) rfl rfl rfl).1
  revert same
  decide +kernel

end Comparison

end Templating
