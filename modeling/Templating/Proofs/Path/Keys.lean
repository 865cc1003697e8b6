import Templating.Path.Select
import Templating.Proofs.Path.Canonical
import Templating.Proofs.Text.Numeral

/-!
# Lists of keys as paths

A list of keys can be followed as a data path does, or written as the query
`['k']['l']` and selected.  Both ask one value after the other for one key
(`Value.asked`), and both ask an object for the member of that name.  They differ
in three places.

* A data path asks arrays and strings for their `length`, a query asks neither.
* A data path asks strings for their units, to a query a string is empty inside.
* A data path takes the canonical numeral of a position only.  A query also takes
  `+1` and `01`, like the index of a document.

Where none of the three comes up, they read the same value (`query_keys`).
-/

namespace Templating

namespace Value

/-! ## One key -/

/-- Whether a value has an element at a position that the key is a written index of,
but not the canonical numeral. -/
def EvadesCanonical (v : Value) (key : Text) : Prop :=
  ∃ items i, v = .arr items ∧ Index.read? key = some i ∧ i < items.length ∧
    Index.readCanonical? key ≠ some i

/-- An array is read alike by every key but `length`, exactly if the key does not
evade the canonical numerals. -/
theorem part?_arr_eq_find?_iff {items : List Value} {key : Text} (h : key ≠ lengthKey) :
    part? (.arr items) key = Step.find? (.arr items) (.name key) ↔
      ¬EvadesCanonical (.arr items) key := by
  simp only [part?, if_neg h, Step.find?]
  constructor
  · rintro same ⟨_, i, ⟨⟩, read, inside, apart⟩
    cases canonical : Index.readCanonical? key with
    | none =>
        rw [canonical, read, Option.bind_some, List.getElem?_eq_getElem inside] at same
        cases same
    | some j =>
        rw [Index.read?_of_readCanonical? canonical] at read
        exact apart (canonical.trans read)
  · intro fair
    cases read : Index.read? key with
    | none =>
        cases canonical : Index.readCanonical? key with
        | none => rfl
        | some j =>
            rw [Index.read?_of_readCanonical? canonical] at read
            cases read
    | some i =>
        by_cases canonical : Index.readCanonical? key = some i
        · rw [canonical]
        · -- The position lies behind the elements, and there is no other.
          have behind : items.length ≤ i :=
            Nat.le_of_not_lt fun inside => fair ⟨items, i, rfl, read, inside, canonical⟩
          rw [Option.bind_some, List.getElem?_eq_none behind]
          cases other : Index.readCanonical? key with
          | none => rfl
          | some j =>
              rw [Index.read?_of_readCanonical? other] at read
              exact absurd (other.trans read) canonical

/-! ## Many keys -/

/-- Each value that a list of keys is followed through, with the key it is asked
for. -/
def asked : Value → List Text → List (Value × Text)
  | _, [] => []
  | v, key :: keys => (v, key) :: (v.part? key).toList.flatMap (asked · keys)

/-- Neither an array nor a string is asked for its length, nor a string for
anything else. -/
structure AsksParts (root : Value) (keys : List Text) : Prop where
  /-- No array is asked for its length. -/
  length : ∀ items, (.arr items, lengthKey) ∉ root.asked keys
  /-- No string is asked. -/
  string : ∀ t key, (.str t, key) ∉ root.asked keys

/-- No array is asked for an element in another way than by the canonical numeral of
its position. -/
def AsksCanonically (root : Value) (keys : List Text) : Prop :=
  ∀ q ∈ root.asked keys, ¬EvadesCanonical q.1 q.2

section Asked

variable {root w : Value} {key : Text} {keys : List Text}

theorem mem_asked_of_part? (h : root.part? key = some w) {q : Value × Text}
    (member : q ∈ w.asked keys) : q ∈ root.asked (key :: keys) := by
  rw [asked, h]
  exact List.mem_cons_of_mem _ (List.mem_append_left _ member)

theorem AsksParts.ne_lengthKey {items : List Value} (h : (arr items).AsksParts (key :: keys)) :
    key ≠ lengthKey := by
  rintro rfl
  exact h.length items List.mem_cons_self

theorem AsksParts.tail (h : root.AsksParts (key :: keys)) (next : root.part? key = some w) :
    w.AsksParts keys :=
  ⟨fun items member => h.length items (mem_asked_of_part? next member),
    fun t other member => h.string t other (mem_asked_of_part? next member)⟩

theorem AsksCanonically.tail (h : root.AsksCanonically (key :: keys))
    (next : root.part? key = some w) : w.AsksCanonically keys :=
  fun q member => h q (mem_asked_of_part? next member)

theorem part?_eq_find? (parts : root.AsksParts (key :: keys))
    (canonical : root.AsksCanonically (key :: keys)) :
    root.part? key = Step.find? root (.name key) := by
  cases root with
  | obj members => rfl
  | arr items =>
      exact (part?_arr_eq_find?_iff parts.ne_lengthKey).mpr (canonical _ List.mem_cons_self)
  | str t => exact absurd List.mem_cons_self (parts.string t key)
  | null => rfl
  | bool _ => rfl
  | num _ => rfl

/-- What a key names is what its step comes to. -/
theorem find?_of_part? (parts : root.AsksParts (key :: keys)) (next : root.part? key = some w) :
    Step.find? root (.name key) = some w := by
  cases root with
  | obj members => exact next
  | arr items =>
      rw [part?, if_neg parts.ne_lengthKey] at next
      obtain ⟨i, canonical, element⟩ := Option.bind_eq_some_iff.mp next
      rw [Step.find?, Index.read?_of_readCanonical? canonical]
      exact element
  | str t => exact absurd List.mem_cons_self (parts.string t key)
  | null => cases next
  | bool _ => cases next
  | num _ => cases next

end Asked

end Value

namespace Path

/-! ## The path of a list of keys -/

/-- The path that follows a list of keys. -/
def ofKeys (keys : List Text) : Path := keys.map fun key => .child (.step (.name key))

theorem parse_ofKeys (keys : List Text) : parse (ofKeys keys).write = .ok (ofKeys keys) := by
  have wellFormed : (ofKeys keys).WellFormed := by
    intro s member
    obtain ⟨key, -, rfl⟩ := List.mem_map.mp member
    exact trivial
  exact wellFormed.parse_write

theorem select_ofKeys_cons (key : Text) (keys : List Text) (root : Value) :
    (ofKeys (key :: keys)).select root =
      (Step.find? root (.name key)).toList.flatMap (ofKeys keys).select :=
  select_cons ..

theorem select_ofKeys {root : Value} {keys : List Text} (parts : root.AsksParts keys)
    (canonical : root.AsksCanonically keys) :
    (ofKeys keys).select root = (root.walk keys).toList := by
  induction keys generalizing root with
  | nil => rfl
  | cons key keys ih =>
      rw [select_ofKeys_cons, ← Value.part?_eq_find? parts canonical, Value.walk, List.foldlM_cons]
      cases next : root.part? key with
      | none => rfl
      | some w =>
          have rest := ih (parts.tail next) (canonical.tail next)
          rw [Option.toList_some, List.flatMap_singleton, rest]
          rfl

/-- What a list of keys leads to is all that the query of these keys picks, whatever
numerals are among them. -/
theorem select_ofKeys_of_walk {root v : Value} {keys : List Text} (parts : root.AsksParts keys)
    (walked : root.walk keys = some v) : (ofKeys keys).select root = [v] := by
  induction keys generalizing root with
  | nil =>
      cases walked
      rfl
  | cons key keys ih =>
      rw [Value.walk, List.foldlM_cons] at walked
      obtain ⟨w, next, rest⟩ := Option.bind_eq_some_iff.mp walked
      rw [select_ofKeys_cons, Value.find?_of_part? parts next, Option.toList_some,
        List.flatMap_singleton]
      exact ih (parts.tail next) rest

/-- A list of keys and the query of these keys read the same value of a document, if
the keys ask no string, no array for its length, and no array for an element but by
its canonical numeral.  Nothing is missing unless the query picks nothing, and null is
found if the query picks it. -/
theorem query_keys {root : Value} {keys : List Text} (parts : root.AsksParts keys)
    (canonical : root.AsksCanonically keys) :
    ∃ picked, query root (ofKeys keys).write = .ok picked ∧
      (Value.lookup (some root) keys = .missing ↔ picked = []) ∧
      (Value.lookup (some root) keys = .null ↔ picked = [.null]) ∧
      (∀ v, Value.lookup (some root) keys = .found v ↔ picked = [v] ∧ v ≠ .null) ∧
      Value.lookup (some root) keys = .ofValue? picked.head? := by
  have read : query root (ofKeys keys).write = .ok (root.walk keys).toList := by
    rw [query, parse_ofKeys, Except.map, select_ofKeys parts canonical]
  have found : Value.lookup (some root) keys = .ofValue? (root.walk keys) := rfl
  refine ⟨_, read, ?_⟩
  rw [found]
  cases root.walk keys with
  | none => simp [Lookup.ofValue?]
  | some v => cases v <;> simp [Lookup.ofValue?]

/-- `['it\'s']['1']['length']` asks an object, an array and an object that has a member
of the name `length`. -/
theorem query_keys_escaped :
    let key : Text := ['i', 't', '\'', 's']
    let keys : List Text := [key, ['1'], Value.lengthKey]
    let root : Value := .obj [(key, .arr [.null, .obj [(Value.lengthKey, .str ['x'])]])]
    root.AsksParts keys ∧ root.AsksCanonically keys ∧
      (ofKeys keys).write = ['[', '\'', 'i', 't', '\\', '\'', 's', '\'', ']',
        '[', '\'', '1', '\'', ']', '[', '\'', 'l', 'e', 'n', 'g', 't', 'h', '\'', ']'] ∧
      query root (ofKeys keys).write = .ok [.str ['x']] := by
  intro key keys root
  have asked : root.asked keys = [(root, key),
      (.arr [.null, .obj [(Value.lengthKey, .str ['x'])]], ['1']),
      (.obj [(Value.lengthKey, .str ['x'])], Value.lengthKey)] := rfl
  have parts : root.AsksParts keys := by
    constructor
    · intro items member
      rw [asked] at member
      simp [root, Value.lengthKey] at member
    · intro t other member
      rw [asked] at member
      simp [root] at member
  have canonical : root.AsksCanonically keys := by
    rintro ⟨v, other⟩ member ⟨items, i, rfl, read, inside, apart⟩
    simp only [asked, root, List.mem_cons, Prod.mk.injEq, reduceCtorEq, false_and, false_or,
      List.not_mem_nil, or_false] at member
    rw [member.2] at read apart
    exact apart read
  obtain ⟨picked, read, -, -, found, -⟩ := query_keys parts canonical
  have same : Value.lookup (some root) keys = .found (.str ['x']) := rfl
  rw [((found _).mp same).1] at read
  exact ⟨parts, canonical, by decide +kernel, read⟩

/-- `['+1']` picks an element that no data path finds under `+1`. -/
theorem query_keys_plusSign :
    let keys : List Text := [['+', '1']]
    let root : Value := .arr [.ofNat 10, .ofNat 20]
    root.AsksParts keys ∧ (ofKeys keys).write = ['[', '\'', '+', '1', '\'', ']'] ∧
      Value.lookup (some root) keys = .missing ∧
      query root (ofKeys keys).write = .ok [.ofNat 20] ∧
      ¬∀ picked, query root (ofKeys keys).write = .ok picked →
        (Value.lookup (some root) keys = .missing ↔ picked = []) := by
  intro keys root
  have asked : root.asked keys = [(root, ['+', '1'])] := rfl
  have parts : root.AsksParts keys := by
    constructor
    · intro items member
      rw [asked] at member
      simp [root, Value.lengthKey] at member
    · intro t other member
      rw [asked] at member
      simp [root] at member
  have read : query root (ofKeys keys).write = .ok [.ofNat 20] := by
    rw [query, parse_ofKeys]
    rfl
  have missing : Value.lookup (some root) keys = .missing := rfl
  refine ⟨parts, by decide +kernel, missing, read, fun agree => ?_⟩
  cases (agree _ read).mp missing

end Path

end Templating
