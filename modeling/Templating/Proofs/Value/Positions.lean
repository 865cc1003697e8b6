import Templating.Proofs.Text.Numeral
import Templating.Value.Lookup

/-!
# Positions

An array holds its elements and a string its UTF-16 units, each of them as a
string of its own.  Either is asked for its parts by their number
(`Value.Numbered`): it tells how many there are, and the keys that find one are
the canonical numerals of the numbers below.

A unit stands for itself, unless it is half of a surrogate pair.  That is no
character, and the replacement character stands for it.  In both cases the string
has one unit (`length_units_ofUnit`), so a walk that goes on from it finds what it
would find in a string of the document.

`lookup_positions` puts this together with the law of walks: the keys of two lists
are followed one list after the other.
-/

namespace Templating

/-! ## Units -/

namespace Text

/-- A UTF-16 unit that is half of a pair and no character of its own. -/
def IsSurrogate (u : Nat) : Prop := 0xD800 ≤ u ∧ u ≤ 0xDFFF

theorem lt_of_mem_charUnits {c : Char} {u : Nat} (h : u ∈ charUnits c) : u < 0x10000 := by
  have valid : c.toNat < 0xD800 ∨ 0xDFFF < c.toNat ∧ c.toNat < 0x110000 := c.valid
  unfold charUnits at h
  split at h
  next small =>
    obtain rfl := List.mem_singleton.mp h
    exact small
  next =>
    simp only [List.mem_cons, List.not_mem_nil, or_false] at h
    omega

theorem lt_of_mem_units {t : Text} {u : Nat} (h : u ∈ units t) : u < 0x10000 := by
  obtain ⟨c, -, member⟩ := List.mem_flatMap.mp h
  exact lt_of_mem_charUnits member

theorem ofUnit_of_isSurrogate {u : Nat} (half : IsSurrogate u) : ofUnit u = ['\uFFFD'] :=
  if_pos half

theorem units_ofUnit {u : Nat} (small : u < 0x10000) (whole : ¬IsSurrogate u) :
    units (ofUnit u) = [u] := by
  have valid : u.isValidChar := by
    simp only [IsSurrogate] at whole
    simp only [Nat.isValidChar]
    omega
  have code : (Char.ofNat u).toNat = u := by
    rw [Char.ofNat, dif_pos valid]
    rfl
  have single : ofUnit u = [Char.ofNat u] := if_neg whole
  rw [single, units, List.flatMap_singleton, charUnits, code, if_pos small]

/-- A unit is a text of one unit. -/
theorem length_units_ofUnit {u : Nat} (small : u < 0x10000) : (units (ofUnit u)).length = 1 := by
  by_cases half : IsSurrogate u
  · rw [ofUnit_of_isSurrogate half]
    rfl
  · rw [units_ofUnit small half]
    rfl

end Text

namespace Value

/-! ## Parts by their number -/

theorem lookup_single (v : Value) (key : Text) :
    lookup (some v) [key] = .ofValue? (v.part? key) := by
  rw [lookup, Option.bind_some, walk, List.foldlM_cons]
  cases v.part? key with
  | none => rfl
  | some w => rfl

theorem ofValue?_some (w : Value) :
    Lookup.ofValue? (some w) = if w.isNull then .null else .found w := by
  cases w <;> rfl

theorem ofValue?_ne_missing_iff {w : Option Value} :
    Lookup.ofValue? w ≠ .missing ↔ ∃ v, w = some v := by
  cases w with
  | none => simp [Lookup.ofValue?]
  | some v => cases v <;> simp [Lookup.ofValue?]

/-- A value tells a count.  No key but the canonical numerals of the positions below, counted from
zero, finds anything. -/
structure Numbered (v : Value) (n : Nat) : Prop where
  length : lookup (some v) [lengthKey] = .found (ofNat n)
  position : ∀ key, key ≠ lengthKey →
    (lookup (some v) [key] ≠ .missing ↔ ∃ i < n, key = Text.ofNat i)

/-- A value answers the key `length` with the number of its parts, and any other key with the part at
the position that the key names. -/
structure HasParts (v : Value) (parts : List Value) : Prop where
  length : v.part? lengthKey = some (ofNat parts.length)
  other : ∀ key, key ≠ lengthKey → v.part? key = (Index.readCanonical? key).bind (parts[·]?)

theorem hasParts_arr (items : List Value) : HasParts (.arr items) items where
  length := by rw [part?, if_pos rfl]
  other _ h := by rw [part?, if_neg h]

theorem hasParts_str (t : Text) :
    HasParts (.str t) ((Text.units t).map fun u => .str (Text.ofUnit u)) where
  length := by rw [part?, if_pos rfl, List.length_map]
  other key h := by
    simp only [part?, if_neg h, List.getElem?_map]
    cases Index.readCanonical? key with
    | none => rfl
    | some i => rfl

theorem ofNat_ne_lengthKey (i : Nat) : Text.ofNat i ≠ lengthKey := by
  intro same
  have digit := (Text.isNumeral_ofNat i).digits 'l' (by simp [same, lengthKey])
  cases digit

section Parts

variable {v : Value} {parts : List Value}

theorem HasParts.part?_eq_some_iff (h : HasParts v parts) (fits : parts.length ≤ Index.bound)
    {key : Text} (other : key ≠ lengthKey) {w : Value} :
    v.part? key = some w ↔ ∃ i, key = Text.ofNat i ∧ parts[i]? = some w := by
  rw [h.other key other, Option.bind_eq_some_iff]
  refine exists_congr fun i => ?_
  rw [Index.readCanonical?_eq_some_iff, and_assoc]
  refine and_congr_right fun _ => and_iff_right_of_imp fun element => ?_
  exact Nat.lt_of_lt_of_le (List.getElem?_eq_some_iff.mp element).1 fits

theorem HasParts.numbered (h : HasParts v parts) (fits : parts.length ≤ Index.bound) :
    Numbered v parts.length where
  length := by
    rw [lookup_single, h.length]
    rfl
  position key other := by
    rw [lookup_single, ofValue?_ne_missing_iff]
    constructor
    · rintro ⟨w, found⟩
      obtain ⟨i, rfl, element⟩ := (h.part?_eq_some_iff fits other).mp found
      exact ⟨i, (List.getElem?_eq_some_iff.mp element).1, rfl⟩
    · rintro ⟨i, inside, rfl⟩
      have element := List.getElem?_eq_getElem inside
      exact ⟨parts[i], (h.part?_eq_some_iff fits other).mpr ⟨i, rfl, element⟩⟩

theorem HasParts.lookup_ofNat (h : HasParts v parts) (fits : parts.length ≤ Index.bound) {i : Nat}
    {w : Value} (element : parts[i]? = some w) :
    lookup (some v) [Text.ofNat i] = if w.isNull then .null else .found w := by
  have found := (h.part?_eq_some_iff fits (ofNat_ne_lengthKey i)).mpr ⟨i, rfl, element⟩
  rw [lookup_single, found, ofValue?_some]

end Parts

/-- A string that stands for a UTF-16 unit.  It is as long as one unit. -/
structure IsUnit (u : Nat) (s : Text) : Prop where
  length : lookup (some (.str s)) [lengthKey] = .found (ofNat 1)
  half : Text.IsSurrogate u → s = ['\uFFFD']
  whole : ¬Text.IsSurrogate u → Text.units s = [u]

theorem isUnit_ofUnit {u : Nat} (small : u < 0x10000) : IsUnit u (Text.ofUnit u) where
  length := by
    rw [lookup_single, part?, if_pos rfl, Text.length_units_ofUnit small]
    rfl
  half := Text.ofUnit_of_isSurrogate
  whole := Text.units_ofUnit small

theorem exists_unit {t : Text} (fits : (Text.units t).length ≤ Index.bound) {i u : Nat}
    (unit : (Text.units t)[i]? = some u) :
    ∃ s, lookup (some (.str t)) [Text.ofNat i] = .found (.str s) ∧ IsUnit u s := by
  have parts := hasParts_str t
  have element : ((Text.units t).map fun u => str (Text.ofUnit u))[i]? =
      some (.str (Text.ofUnit u)) := by
    rw [List.getElem?_map, unit, Option.map_some]
  have found := parts.lookup_ofNat (by rwa [List.length_map]) element
  exact ⟨Text.ofUnit u, found, isUnit_ofUnit (Text.lt_of_mem_units (List.mem_of_getElem? unit))⟩

/-! ## Walks -/

/-- The keys of two lists are followed one list after the other.  Null ends the walk. -/
theorem lookup_append (root : Option Value) (first second : List Text) :
    lookup root (first ++ second) =
      match lookup root first with
      | .found v => lookup (some v) second
      | .null => if second = [] then .null else .missing
      | .missing => .missing := by
  have split : root.bind (walk · (first ++ second)) =
      (root.bind (walk · first)).bind (walk · second) := by
    rw [Option.bind_assoc]
    exact Option.bind_congr fun v _ => walk_append v first second
  rw [lookup, split, lookup]
  cases root.bind (walk · first) with
  | none => rfl
  | some v =>
      rw [ofValue?_some, Option.bind_some]
      cases v with
      | null => cases second <;> rfl
      | bool _ => rfl
      | num _ => rfl
      | str _ => rfl
      | arr _ => rfl
      | obj _ => rfl

/-- An array tells the number of its elements and a string that of its UTF-16 units, and each of them
is found by the canonical numeral of its position and by no other key, if the number is a word of 64
bits.  Keys that stand behind others go on from the value that those find. -/
theorem lookup_positions :
    (∀ items : List Value, items.length ≤ Index.bound →
      Numbered (.arr items) items.length ∧
      ∀ i w, items[i]? = some w →
        lookup (some (.arr items)) [Text.ofNat i] = if w.isNull then .null else .found w) ∧
    (∀ t : Text, (Text.units t).length ≤ Index.bound →
      Numbered (.str t) (Text.units t).length ∧
      ∀ i u, (Text.units t)[i]? = some u →
        ∃ s, lookup (some (.str t)) [Text.ofNat i] = .found (.str s) ∧ IsUnit u s) ∧
    ∀ (root : Option Value) (first second : List Text), lookup root (first ++ second) =
      match lookup root first with
      | .found v => lookup (some v) second
      | .null => if second = [] then .null else .missing
      | .missing => .missing := by
  refine ⟨fun items fits => ?_, fun t fits => ⟨?_, fun i u => exists_unit fits⟩, lookup_append⟩
  · have parts := hasParts_arr items
    exact ⟨parts.numbered fits, fun i w => parts.lookup_ofNat fits⟩
  · have numbered := (hasParts_str t).numbered
    rw [List.length_map] at numbered
    exact numbered fits

/-- An array of null and `a😀`, a string of three units.  The last two of them are halves of one
pair. -/
theorem lookup_positions_halves :
    let t : Text := ['a', '😀']
    let items : List Value := [.null, .str t]
    (items.length ≤ Index.bound ∧ items[1]? = some (.str t) ∧ ['0', '1'] ≠ lengthKey ∧
      lookup (some (.arr items)) [['1']] = .found (.str t) ∧
      lookup (some (.arr items)) [['0', '1']] = .missing) ∧
    ((Text.units t).length ≤ Index.bound ∧ (Text.units t)[2]? = some 0xDE00 ∧
      Text.IsSurrogate 0xDE00 ∧ lookup (some (.str t)) [lengthKey] = .found (ofNat 3) ∧
      lookup (some (.str t)) [['2']] = .found (.str ['\uFFFD'])) := by
  intro t items
  have few : items.length ≤ Index.bound := by decide
  have short : (Text.units t).length ≤ Index.bound := by decide
  have second : items[1]? = some (.str t) := rfl
  have third : (Text.units t)[2]? = some 0xDE00 := by decide
  have half : Text.IsSurrogate 0xDE00 := ⟨by decide, by decide⟩
  have other : ['0', '1'] ≠ lengthKey := by decide
  obtain ⟨arrays, strings, -⟩ := lookup_positions
  obtain ⟨array, element⟩ := arrays items few
  obtain ⟨string, unit⟩ := strings t short
  obtain ⟨s, found, isUnit⟩ := unit 2 0xDE00 third
  rw [isUnit.half half] at found
  refine ⟨⟨few, second, other, element 1 _ second, ?_⟩, short, third, half, string.length, found⟩
  -- `01` is the numeral of neither position.
  by_contra notMissing
  obtain ⟨i, inside, named⟩ := (array.position _ other).mp notMissing
  have only : i = 0 ∨ i = 1 := by
    have : i < 2 := inside
    omega
  rcases only with rfl | rfl
  · cases named
  · cases named

end Value

end Templating
