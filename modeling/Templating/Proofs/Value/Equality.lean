import Templating.Value.Coercion

/-!
# Laws of equality

Loose equality goes through its cases in order (`looselyEqual_eq`).  Null and undefined come first,
then two texts, two numbers and two containers.  A container beside anything else is replaced by its
text, on one side or the other, and last all is read as a number.  No case asks more of one operand
than of the other, so it does not matter on which side of a comparison an operand stands.

Strict equality holds between operands of one kind only (`Identical`).  In each kind it is what loose
equality comes to, so operands that are strictly equal are loosely equal.

`equality_laws` puts this together.
-/

namespace Templating.Value

/-! ## Null and undefined -/

theorem isNullish_iff {v : Option Value} : isNullish v = true ↔ v = none ∨ v = some .null := by
  cases v with
  | none => exact ⟨fun _ => Or.inl rfl, fun _ => rfl⟩
  | some v => cases v <;> simp [isNullish, isNull]

/-- Null and undefined equal each other and nothing else. -/
theorem looselyEqual_of_isNullish {l : Option Value} (h : isNullish l = true) (r : Option Value) :
    looselyEqual l r = isNullish r := by
  rcases isNullish_iff.mp h with rfl | rfl
  · cases r with
    | none => rfl
    | some w => rfl
  · cases r with
    | none => rfl
    | some w => rfl

/-! ## Loose equality -/

/-- Whether a value is a text. -/
def isText : Value → Bool
  | .str _ => true
  | _ => false

theorem exists_of_isText {v : Value} (h : v.isText = true) : ∃ t, v = .str t := by
  cases v with
  | str t => exact ⟨t, rfl⟩
  | null => cases h
  | bool _ => cases h
  | num _ => cases h
  | arr _ => cases h
  | obj _ => cases h

theorem exists_texts {v w : Value} (h : (v.isText && w.isText) = true) :
    ∃ s t, v = .str s ∧ w = .str t := by
  obtain ⟨left, right⟩ := Bool.and_eq_true_iff.mp h
  obtain ⟨s, rfl⟩ := exists_of_isText left
  obtain ⟨t, rfl⟩ := exists_of_isText right
  exact ⟨s, t, rfl, rfl⟩

/-- Primitives are compared as numbers unless both are texts. -/
theorem primitivesEqual_of_not_isText {v w : Value} (h : (v.isText && w.isText) = false) :
    primitivesEqual v w = (toNumber (some v)).equals (toNumber (some w)) := by
  unfold primitivesEqual
  split
  next => cases h
  next => rfl

theorem primitivesEqual_comm (v w : Value) : primitivesEqual v w = primitivesEqual w v := by
  cases texts : v.isText && w.isText with
  | true =>
      obtain ⟨s, t, rfl, rfl⟩ := exists_texts texts
      exact Bool.beq_comm
  | false =>
      have swapped : (w.isText && v.isText) = false := by rw [Bool.and_comm, texts]
      rw [primitivesEqual_of_not_isText texts, primitivesEqual_of_not_isText swapped,
        Double.equals_comm]

theorem looselyEqual_comm (l r : Option Value) : looselyEqual l r = looselyEqual r l := by
  cases l with
  | none =>
      cases r with
      | none => rfl
      | some w => exact Bool.and_comm true w.isNull
  | some v =>
      cases r with
      | none => exact Bool.and_comm v.isNull true
      | some w =>
          rw [looselyEqual, looselyEqual, Bool.or_comm v.isNull, Bool.and_comm v.isNull,
            Bool.and_comm v.isContainer, primitivesEqual_comm]

theorem exists_of_isContainer {v : Value} (container : v.isContainer = true) :
    (∃ items, v = .arr items) ∨ ∃ members, v = .obj members := by
  cases v with
  | arr items => exact Or.inl ⟨items, rfl⟩
  | obj members => exact Or.inr ⟨members, rfl⟩
  | null => cases container
  | bool _ => cases container
  | num _ => cases container
  | str _ => cases container

theorem isNull_of_isContainer {v : Value} (container : v.isContainer = true) : v.isNull = false := by
  rcases exists_of_isContainer container with ⟨items, rfl⟩ | ⟨members, rfl⟩
  · rfl
  · rfl

/-- Loose equality puts the text of a container in its place. -/
theorem looselyEqual_display {v w : Value} (container : v.isContainer = true)
    (plain : w.isContainer = false) :
    looselyEqual (some v) (some w) = looselyEqual (some (.str v.display)) (some w) := by
  have present := isNull_of_isContainer container
  have text : v.primitive = .str v.display := if_pos container
  have kept : (Value.str v.display).primitive = .str v.display := rfl
  rw [looselyEqual, looselyEqual, present, plain, text, kept]
  simp only [isNull, isContainer, Bool.and_false]

theorem looselyEqual_containers {v w : Value} (left : v.isContainer = true)
    (right : w.isContainer = true) : looselyEqual (some v) (some w) = false := by
  rw [looselyEqual, isNull_of_isContainer left, isNull_of_isContainer right, left, right]
  rfl

/-- Operands that are neither null nor containers are compared as they are. -/
theorem looselyEqual_of_plain {v w : Value} (present : v.isNull = false) (present' : w.isNull = false)
    (plain : v.isContainer = false) (plain' : w.isContainer = false) :
    looselyEqual (some v) (some w) = primitivesEqual v w := by
  rw [looselyEqual, primitive, primitive, present, present', plain, plain']
  rfl

/-- The cases of loose equality in their order. -/
theorem looselyEqual_eq (l r : Option Value) :
    looselyEqual l r =
      if isNullish l || isNullish r then isNullish l && isNullish r
      else
        match l, r with
        | some (.str s), some (.str t) => s == t
        | some (.num m), some (.num n) => strictlyEqual (some (.num m)) (some (.num n))
        | some v, some w =>
            if v.isContainer && w.isContainer then false
            else if v.isContainer then looselyEqual (some (.str v.display)) (some w)
            else if w.isContainer then looselyEqual (some v) (some (.str w.display))
            else (toNumber (some v)).equals (toNumber (some w))
        | l, r => (toNumber l).equals (toNumber r) := by
  split
  next nullish =>
    rcases Bool.or_eq_true_iff.mp nullish with left | right
    · rw [looselyEqual_of_isNullish left, left, Bool.true_and]
    · rw [looselyEqual_comm, looselyEqual_of_isNullish right, right, Bool.and_true]
  next present =>
    obtain ⟨left, right⟩ := Bool.or_eq_false_iff.mp (Bool.eq_false_iff.mpr present)
    split
    next => rfl
    next => rfl
    next v w texts _ =>
      cases container : v.isContainer with
      | true =>
          cases container' : w.isContainer with
          | true => exact looselyEqual_containers container container'
          | false => exact looselyEqual_display container container'
      | false =>
          cases container' : w.isContainer with
          | true =>
              rw [looselyEqual_comm, looselyEqual_display container' container, looselyEqual_comm]
              rfl
          | false =>
              have notTexts : (v.isText && w.isText) = false := by
                refine Bool.eq_false_iff.mpr fun both => ?_
                obtain ⟨s, t, first, second⟩ := exists_texts both
                exact texts s t first second
              exact (looselyEqual_of_plain left right container container').trans
                (primitivesEqual_of_not_isText notTexts)
    next undefined =>
      -- The undefined value was the first case.
      cases l with
      | none => cases left
      | some v =>
          cases r with
          | none => cases right
          | some w => exact (undefined v w rfl rfl).elim

/-! ## Strict equality -/

/-- Two operands are of one kind and equal in it.  Containers never are. -/
inductive Identical : Option Value → Option Value → Prop where
  | undefined : Identical none none
  | null : Identical (some .null) (some .null)
  | bool (b : Bool) : Identical (some (.bool b)) (some (.bool b))
  /-- Numbers are told apart as doubles. -/
  | num {m n : Number} :
      m.toDouble.equals n.toDouble = true → Identical (some (.num m)) (some (.num n))
  | str (t : Text) : Identical (some (.str t)) (some (.str t))

theorem strictlyEqual_iff {l r : Option Value} : strictlyEqual l r = true ↔ Identical l r := by
  constructor
  · intro h
    unfold strictlyEqual at h
    split at h
    next => exact .undefined
    next => exact .null
    next a b =>
      obtain rfl := eq_of_beq h
      exact .bool a
    next => exact .num h
    next s t =>
      obtain rfl := eq_of_beq h
      exact .str s
    next => cases h
  · intro h
    cases h with
    | undefined => rfl
    | null => rfl
    | bool b => exact beq_self_eq_true b
    | num equal => exact equal
    | str t => exact beq_self_eq_true t

theorem Identical.symm {l r : Option Value} (h : Identical l r) : Identical r l := by
  cases h with
  | undefined => exact .undefined
  | null => exact .null
  | bool b => exact .bool b
  | num equal => exact .num (by rw [Double.equals_comm, equal])
  | str t => exact .str t

theorem strictlyEqual_comm (l r : Option Value) : strictlyEqual l r = strictlyEqual r l :=
  Bool.eq_iff_iff.mpr <| strictlyEqual_iff.trans <|
    Iff.trans ⟨Identical.symm, Identical.symm⟩ strictlyEqual_iff.symm

/-- Operands that are equal in their kind are loosely equal. -/
theorem Identical.looselyEqual {l r : Option Value} (h : Identical l r) :
    looselyEqual l r = true := by
  cases h with
  | undefined => rfl
  | null => rfl
  | bool b => cases b <;> rfl
  | num equal => exact equal
  | str t => exact beq_self_eq_true t

/-! ## Both equalities -/

/-- Both equalities are symmetric, and the strict one implies the loose one.  Null and undefined
are loosely equal to each other and to nothing else. -/
theorem equality_laws (l r : Option Value) :
    looselyEqual l r = looselyEqual r l ∧ strictlyEqual l r = strictlyEqual r l ∧
      (strictlyEqual l r = true → looselyEqual l r = true) ∧
      (l = none ∨ l = some .null → (looselyEqual l r = true ↔ r = none ∨ r = some .null)) := by
  refine ⟨looselyEqual_comm l r, strictlyEqual_comm l r, fun strict => ?_, fun nullish => ?_⟩
  · exact (strictlyEqual_iff.mp strict).looselyEqual
  · rw [looselyEqual_of_isNullish (isNullish_iff.mpr nullish), isNullish_iff]

/-- An integer that rounds to a double is strictly equal to it, and so loosely equal on either
side.  Null equals the undefined value and does not equal zero. -/
theorem equality_laws_rounded :
    let whole : Option Value := some (.num (.int 9007199254740993))
    let rounded : Option Value := some (.num (.double (.ofInt 9007199254740992)))
    strictlyEqual whole rounded = true ∧ looselyEqual whole rounded = true ∧
      looselyEqual rounded whole = true ∧ looselyEqual (some .null) none = true ∧
      looselyEqual (some .null) (some (ofNat 0)) ≠ true := by
  intro whole rounded
  have strict : strictlyEqual whole rounded = true := by decide +kernel
  obtain ⟨symmetric, -, implied, -⟩ := equality_laws whole rounded
  have loose := implied strict
  have nullish (r : Option Value) := (equality_laws (some .null) r).2.2.2 (Or.inr rfl)
  refine ⟨strict, loose, symmetric ▸ loose, (nullish none).mpr (Or.inl rfl), fun equal => ?_⟩
  rcases (nullish (some (ofNat 0))).mp equal with undefined | null
  · cases undefined
  · cases null

end Templating.Value
