import Mathlib.Data.Option.Basic
import Templating.Proofs.Placeholder.KeyList

/-!
# The form of a data path

A *form* is what a data path is written of: an index, a list of keys with the
quotes, blanks and commas around them, and a fallback.  A data path is read where
a proper form is written, and nowhere else (`read?_eq_some_iff`).  What stands
behind it makes no difference.

A list with a comma between neighbours is the one that `DataPathRef.write` writes
(`separated_write`).
-/

namespace Templating

open Text (Stops)

namespace DataPathRef

/-- What makes a data path of an index, keys and a fallback. -/
structure Proper (index : Text) (keys : List QuotedKey) (fallback : Option QuotedKey) : Prop where
  /-- There is a digit. -/
  index_ne_nil : index ≠ []
  /-- The index is decimal digits. -/
  digits : ∀ c ∈ index, isDecimalDigit c = true
  /-- There is a key. -/
  keys_ne_nil : keys ≠ []
  /-- The keys are proper. -/
  keys : ∀ k ∈ keys, k.Proper
  /-- The fallback is proper. -/
  fallback : ∀ k ∈ fallback, k.Proper

/-- What a data path with this index, these keys and this fallback says. -/
def ofKeys (index : Text) (keys : List QuotedKey) (fallback : Option QuotedKey) : DataPathRef :=
  ⟨index, keys.map (·.key), fallback.map (·.key)⟩

/-- A data path as written, part by part. -/
structure Form where
  /-- The digits of the index. -/
  index : Text
  /-- The list of keys. -/
  items : List ListedKey
  /-- The fallback, if there is one. -/
  fallback : Option QuotedKey

/-- A fallback as written, in its bracket. -/
def fallbackText : Option QuotedKey → Text
  | none => []
  | some k => '[' :: (k.write ++ [']'])

namespace Form

/-- The keys of the list, without commas. -/
def keys (form : Form) : List QuotedKey := form.items.map (·.quoted)

/-- The list as written. -/
def list (form : Form) : Text := form.items.flatMap ListedKey.write

/-- Whether the form is that of a data path. -/
def Proper (form : Form) : Prop := DataPathRef.Proper form.index form.keys form.fallback

/-- A data path of this form. -/
def write (form : Form) : Text :=
  opening ++
    (form.index ++ ']' :: '[' :: (form.list ++ ']' :: (fallbackText form.fallback ++ ['}'])))

/-- What a data path of this form says. -/
def ref (form : Form) : DataPathRef := ofKeys form.index form.keys form.fallback

theorem Proper.items {form : Form} (proper : form.Proper) : ∀ k ∈ form.items, k.quoted.Proper :=
  fun _ member => proper.keys _ (List.mem_map_of_mem member)

/-- The quoted texts in the list are the keys. -/
theorem Proper.quotedTexts_list {form : Form} (proper : form.Proper) :
    quotedTexts form.list = form.ref.keys :=
  (Templating.quotedTexts_list proper.items).trans (List.map_map ..).symm

end Form

/-- An end is read where a proper fallback, or none, is written before a brace. -/
theorem readEnd?_eq_some_iff {t rest : Text} {fallback : Option Text} :
    readEnd? t = some (fallback, rest) ↔
      ∃ k : Option QuotedKey, (∀ k' ∈ k, k'.Proper) ∧ k.map (·.key) = fallback ∧
        t = fallbackText k ++ '}' :: rest := by
  constructor
  · intro h
    rw [readEnd?.eq_def] at h
    split at h
    next key rest' bracket =>
      cases h
      rw [readBracketedKey?.eq_def] at bracket
      split at bracket
      next u =>
        split at bracket
        next read =>
          cases bracket
          obtain ⟨k, proper, rfl, rfl⟩ := QuotedKey.exists_proper read
          refine ⟨some k, fun k' member => ?_, rfl, by simp [fallbackText]⟩
          exact Option.some.inj (Option.mem_def.mp member) ▸ proper
        next => cases bracket
      next => cases bracket
    next => cases h
    next =>
      split at h
      next =>
        cases h
        refine ⟨none, fun _ member => ?_, rfl, rfl⟩
        cases Option.mem_def.mp member
      next => cases h
  · rintro ⟨k, proper, rfl, rfl⟩
    cases k with
    | none => rfl
    | some k =>
        have read := (proper k rfl).read (']' :: '}' :: rest)
        rw [Text.skipBlanks_cons rfl] at read
        simp only [fallbackText, List.cons_append, List.append_assoc, List.nil_append, readEnd?,
          readBracketedKey?, read, Option.map_some]

/-- A data path is read where a proper form of it is written. -/
theorem read?_eq_some_iff {t rest : Text} {ref : DataPathRef} :
    read? t = some (ref, rest) ↔
      ∃ form : Form, form.Proper ∧ form.ref = ref ∧ t = form.write ++ rest := by
  constructor
  · intro h
    obtain ⟨u, opened, h⟩ := Option.bind_eq_some_iff.mp h
    obtain ⟨_, guarded, h⟩ := Option.bind_eq_some_iff.mp h
    obtain ⟨v, indexed, h⟩ := Option.bind_eq_some_iff.mp h
    obtain ⟨⟨list, w⟩, listed, h⟩ := Option.bind_eq_some_iff.mp h
    obtain ⟨x, closed, h⟩ := Option.bind_eq_some_iff.mp h
    obtain ⟨⟨fallback, rest'⟩, ended, same⟩ := Option.bind_eq_some_iff.mp h
    cases same
    obtain ⟨k, isFallback, rfl, rfl⟩ := readEnd?_eq_some_iff.mp ended
    obtain rfl : w = ']' :: (fallbackText k ++ '}' :: rest) := Text.after?_eq_some_iff.mp closed
    obtain ⟨items, nonempty, proper, rfl, rfl⟩ := readKeyList?_eq_some_iff.mp listed
    have split := List.takeWhile_append_dropWhile (p := isDecimalDigit) (l := u)
    rw [Text.after?_eq_some_iff.mp indexed] at split
    let form : Form := ⟨u.takeWhile isDecimalDigit, items, k⟩
    have isForm : form.Proper :=
      { index_ne_nil := (Option.guard_eq_some' _).mp guarded
        digits := fun _ => Text.mem_takeWhile
        keys_ne_nil := mt List.map_eq_nil_iff.mp nonempty
        keys := List.forall_mem_map.mpr proper
        fallback := isFallback }
    refine ⟨form, isForm, ?_, ?_⟩
    · exact congrArg (DataPathRef.mk _ · _) isForm.quotedTexts_list.symm
    · have whole : t = opening ++ _ :=
        (Text.after?_eq_some_iff.mp opened).trans (congrArg (opening ++ ·) split.symm)
      simpa [form, Form.write, Form.list] using whole
  · rintro ⟨form, proper, rfl, rfl⟩
    let behind := fallbackText form.fallback ++ '}' :: rest
    have stops : Stops isDecimalDigit (']' :: '[' :: (form.list ++ ']' :: behind)) :=
      Text.stops_cons.mpr (by decide)
    have opened : Text.after? opening (form.write ++ rest) =
        some (form.index ++ ']' :: '[' :: (form.list ++ ']' :: behind)) :=
      Text.after?_eq_some_iff.mpr (by simp [Form.write, behind])
    have numbered : (guard (form.index ≠ []) : Option Unit) = some () :=
      (Option.guard_eq_some' ()).mpr proper.index_ne_nil
    have indexed : Text.after? [']', '['] (']' :: '[' :: (form.list ++ ']' :: behind)) =
        some (form.list ++ ']' :: behind) := Text.after?_eq_some_iff.mpr rfl
    have nonempty : form.items ≠ [] := mt List.map_eq_nil_iff.mpr proper.keys_ne_nil
    have listed : readKeyList? (form.list ++ ']' :: behind) = some (form.list, ']' :: behind) :=
      readKeyList?_eq_some_iff.mpr ⟨form.items, nonempty, proper.items, rfl, rfl⟩
    have closed : Text.after? [']'] (']' :: behind) = some behind :=
      Text.after?_eq_some_iff.mpr rfl
    have ended : readEnd? behind = some (form.fallback.map (·.key), rest) :=
      readEnd?_eq_some_iff.mpr ⟨form.fallback, proper.fallback, rfl, rfl⟩
    simp only [read?, opened, Option.bind_eq_bind, Option.bind_some,
      Text.takeWhile_append_of_stops proper.digits stops,
      Text.dropWhile_append_of_stops proper.digits stops, numbered, indexed, listed, closed, ended,
      proper.quotedTexts_list]
    rfl

/-! ## Lists with a comma between neighbours -/

/-- The form of a data path whose list has a comma between neighbours and no
other. -/
def Form.separated (index : Text) (keys : List QuotedKey) (fallback : Option QuotedKey) : Form :=
  ⟨index, ListedKey.separated keys, fallback⟩

theorem quoted_separated : ∀ keys : List QuotedKey,
    (ListedKey.separated keys).map (·.quoted) = keys
  | [] => rfl
  | [_] => rfl
  | k :: k' :: keys => by rw [ListedKey.separated, List.map_cons, quoted_separated (k' :: keys)]

theorem flatMap_write_separated : ∀ keys : List QuotedKey,
    (ListedKey.separated keys).flatMap ListedKey.write = Text.join ',' (keys.map QuotedKey.write)
  | [] => rfl
  | [k] => by simp [ListedKey.separated, ListedKey.write, ListedKey.commaText, Text.join]
  | k :: k' :: keys => by
      rw [ListedKey.separated, List.flatMap_cons, flatMap_write_separated (k' :: keys),
        List.map_cons, List.map_cons, Text.join_cons, Text.join_cons]
      simp [ListedKey.write, ListedKey.commaText]

theorem Form.separated_proper {index : Text} {keys : List QuotedKey} {fallback : Option QuotedKey} :
    (separated index keys fallback).Proper ↔ DataPathRef.Proper index keys fallback := by
  rw [Form.Proper, Form.keys, separated, quoted_separated]

theorem Form.separated_ref (index : Text) (keys : List QuotedKey) (fallback : Option QuotedKey) :
    (separated index keys fallback).ref = ofKeys index keys fallback := by
  rw [Form.ref, Form.keys, separated, quoted_separated]

theorem Form.separated_write (index : Text) (keys : List QuotedKey) (fallback : Option QuotedKey) :
    (separated index keys fallback).write = DataPathRef.write index keys fallback := by
  rw [Form.write, Form.list, separated, flatMap_write_separated]
  cases fallback with
  | none => simp [fallbackText, DataPathRef.write]
  | some k => simp [fallbackText, DataPathRef.write]

end DataPathRef

end Templating
