import Templating.Path.Select

/-!
# Operands as paths

An operand of a filter follows its steps from the child under test, and the path of
these steps selects from that child.  The two go apart at the `length` of an array or
a string.  An operand counts the elements or the units, a path looks for a member.

Where no step asks for a length, both come to the same value (`toList_value?`).  A
filter depends on a value through its operands only (`holds_eq_holdsOf`), so it is then
decided by what the paths of its operands select (`operand_select`).
-/

namespace Templating

/-! ## Steps -/

/-- Whether a value has a length of its own inside a filter. -/
def Value.hasLength : Value → Bool
  | .arr _ => true
  | .str _ => true
  | _ => false

/-- A step of an operand is a step of a path, unless it asks for a length. -/
theorem Step.part?_eq_find? {v : Value} {s : Step}
    (h : s = .name Value.lengthKey → v.hasLength = false) : s.part? v = s.find? v := by
  cases s with
  | index n => cases v <;> rfl
  | name text =>
      have other (long : v.hasLength = true) : text ≠ Value.lengthKey := by
        rintro rfl
        exact absurd (h rfl) (by simp [long])
      cases v with
      | arr items => exact if_neg (other rfl)
      | str t => exact if_neg (other rfl)
      | obj members => rfl
      | null => rfl
      | bool _ => rfl
      | num _ => rfl

namespace Path

/-! ## The path of a list of steps -/

/-- The path that follows a list of steps. -/
def ofSteps (steps : List Step) : Path := steps.map fun s => .child (.step s)

theorem select_ofSteps_cons (s : Step) (steps : List Step) (root : Value) :
    (ofSteps (s :: steps)).select root = (s.find? root).toList.flatMap (ofSteps steps).select :=
  select_cons ..

/-- No array and no string on the way is asked for its length. -/
def AsksNoLength (steps : List Step) (root : Value) : Prop :=
  ∀ before after, steps = before ++ .name Value.lengthKey :: after →
    ∀ v ∈ (ofSteps before).select root, v.hasLength = false

section AsksNoLength

variable {s : Step} {steps : List Step} {root : Value}

theorem asksNoLength_nil : AsksNoLength [] root := by
  intro before after cut
  simp at cut

theorem asksNoLength_cons_iff :
    AsksNoLength (s :: steps) root ↔
      (s = .name Value.lengthKey → root.hasLength = false) ∧
        ∀ v ∈ s.find? root, AsksNoLength steps v := by
  constructor
  · intro h
    refine ⟨?_, ?_⟩
    · rintro rfl
      exact h [] steps rfl root List.mem_cons_self
    · rintro v next before after rfl w member
      refine h (s :: before) after rfl w ?_
      rw [select_ofSteps_cons, Option.mem_def.mp next, Option.toList_some, List.flatMap_singleton]
      exact member
  · rintro ⟨first, rest⟩ before after cut v member
    cases before with
    | nil =>
        obtain ⟨rfl, -⟩ := List.cons.inj cut
        rw [List.mem_singleton.mp member]
        exact first rfl
    | cons s' before =>
        obtain ⟨rfl, cutLater⟩ := List.cons.inj cut
        rw [select_ofSteps_cons] at member
        obtain ⟨w, next, later⟩ := List.mem_flatMap.mp member
        exact rest w (Option.mem_toList.mp next) before after cutLater v later

end AsksNoLength

instance decidableAsksNoLength : ∀ steps root, Decidable (AsksNoLength steps root)
  | [], _ => .isTrue asksNoLength_nil
  | _ :: steps, _ =>
      haveI := decidableAsksNoLength steps
      decidable_of_iff _ asksNoLength_cons_iff.symm

end Path

open Templating.Path

namespace Operand

/-- Whether an operand asks for no length, from a value on. -/
def AsksNoLength (c : Value) : Operand → Prop
  | .current steps => Path.AsksNoLength steps c
  | .literal _ => True

/-- The value of a literal, or what the path of the steps selects first. -/
def selected? (c : Value) : Operand → Option Value
  | .current steps => ((ofSteps steps).select c).head?
  | .literal l => some l.value

/-- An operand that asks for no length is all that the path of its steps selects. -/
theorem toList_value? {steps : List Step} {c : Value} (h : Path.AsksNoLength steps c) :
    ((current steps).value? c).toList = (ofSteps steps).select c := by
  induction steps generalizing c with
  | nil => rfl
  | cons s steps ih =>
      obtain ⟨first, rest⟩ := asksNoLength_cons_iff.mp h
      rw [select_ofSteps_cons, value?, List.foldlM_cons, Step.part?_eq_find? first]
      cases next : s.find? c with
      | none => rfl
      | some w =>
          rw [Option.toList_some, List.flatMap_singleton]
          exact ih (rest w next)

theorem value?_eq_selected? {c : Value} {operand : Operand} (h : operand.AsksNoLength c) :
    operand.value? c = operand.selected? c := by
  cases operand with
  | current steps => rw [selected?, ← toList_value? h, Option.head?_toList]
  | literal l => rfl

end Operand

namespace Filter

/-! ## Filters -/

/-- The operands of a filter, in the order written. -/
def operands : Filter → List Operand
  | .or left right => left.operands ++ right.operands
  | .and left right => left.operands ++ right.operands
  | .not inner => inner.operands
  | .compare left _ right => [left, right]
  | .truthy operand => [operand]

/-- Whether a filter holds where its operands have these values. -/
def holdsOf (value? : Operand → Option Value) : Filter → Bool
  | .or left right => left.holdsOf value? || right.holdsOf value?
  | .and left right => left.holdsOf value? && right.holdsOf value?
  | .not inner => !inner.holdsOf value?
  | .compare left comparison right => comparison.holds (value? left) (value? right)
  | .truthy operand => Value.truthy (value? operand)

/-- A filter depends on a value through its operands only. -/
theorem holds_eq_holdsOf {c : Value} {value? : Operand → Option Value} {f : Filter}
    (h : ∀ operand ∈ f.operands, operand.value? c = value? operand) :
    f.holds c = f.holdsOf value? := by
  induction f with
  | or left right leftIh rightIh =>
      rw [holds, holdsOf, leftIh fun o member => h o (List.mem_append_left _ member),
        rightIh fun o member => h o (List.mem_append_right _ member)]
  | and left right leftIh rightIh =>
      rw [holds, holdsOf, leftIh fun o member => h o (List.mem_append_left _ member),
        rightIh fun o member => h o (List.mem_append_right _ member)]
  | not inner ih => rw [holds, holdsOf, ih h]
  | compare left comparison right =>
      rw [holds, holdsOf, h left List.mem_cons_self,
        h right (List.mem_cons_of_mem _ List.mem_cons_self)]
  | truthy operand => rw [holds, holdsOf, h operand List.mem_cons_self]

end Filter

namespace Path

/-- An operand whose steps ask for no length has a value if the path of these steps
selects something, and that value is all it selects.  A comparison sees what the path
selects, on either side, and so does a whole filter.  The children that pass `@steps`
are those from which the path first selects something that counts as true. -/
theorem operand_select :
    (∀ steps c, AsksNoLength steps c →
      (((Operand.current steps).value? c).isSome ↔ (ofSteps steps).select c ≠ []) ∧
      (∀ v, (Operand.current steps).value? c = some v ↔ (ofSteps steps).select c = [v]) ∧
      ∀ comparison other,
        (Filter.compare (.current steps) comparison other).holds c =
          comparison.holds ((ofSteps steps).select c).head? (other.value? c) ∧
        (Filter.compare other comparison (.current steps)).holds c =
          comparison.holds (other.value? c) ((ofSteps steps).select c).head?) ∧
    (∀ steps (root : Value), (∀ c ∈ root.children, AsksNoLength steps c) →
      select [.child (.filter (.truthy (.current steps)))] root =
        root.children.filter fun c => Value.truthy ((ofSteps steps).select c).head?) ∧
    ∀ (f : Filter) c, (∀ operand ∈ f.operands, operand.AsksNoLength c) →
      f.holds c = f.holdsOf (Operand.selected? c) := by
  have first {steps c} (h : AsksNoLength steps c) :
      (Operand.current steps).value? c = ((ofSteps steps).select c).head? :=
    Operand.value?_eq_selected? h
  refine ⟨fun steps c h => ⟨?_, ?_, ?_⟩, fun steps root h => ?_, fun f c h => ?_⟩
  · rw [← Operand.toList_value? h]
    cases (Operand.current steps).value? c <;> simp
  · intro v
    rw [← Operand.toList_value? h]
    cases (Operand.current steps).value? c <;> simp
  · intro comparison other
    simp only [Filter.holds, first h, and_self]
  · rw [select_cons, show select [] = fun v => [v] from rfl, List.flatMap_singleton']
    exact List.filter_congr fun c member => congrArg Value.truthy (first (h c member))
  · exact Filter.holds_eq_holdsOf fun operand member =>
      Operand.value?_eq_selected? (h operand member)

/-- `@.a[-1].length` asks an object for its member `length`.  It finds one in the first
of two children and nothing in the second, whose array is empty. -/
theorem operand_select_memberLength :
    let steps : List Step := [.name ['a'], .index (-1), .name Value.lengthKey]
    let first : Value := .obj [(['a'], .arr [.null, .obj [(Value.lengthKey, .bool true)]])]
    let second : Value := .obj [(['a'], .arr [])]
    (∀ c ∈ (Value.arr [first, second]).children, AsksNoLength steps c) ∧
      (Operand.current steps).value? first = some (.bool true) ∧
      (Operand.current steps).value? second = none ∧
      select [.child (.filter (.truthy (.current steps)))] (.arr [first, second]) = [first] := by
  intro steps first second
  have fair : ∀ c ∈ (Value.arr [first, second]).children, AsksNoLength steps c := by decide
  have selected : (ofSteps steps).select first = [.bool true] := rfl
  refine ⟨fair, ?_, ?_, ?_⟩
  · exact ((operand_select.1 steps first (fair first List.mem_cons_self)).2.1 _).mpr selected
  · rfl
  · exact operand_select.2.1 steps (.arr [first, second]) fair

end Path

end Templating
