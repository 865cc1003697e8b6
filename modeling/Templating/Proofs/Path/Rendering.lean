import Mathlib.Data.List.Basic
import Templating.Path.Select
import Templating.Proofs.Path.Height
import Templating.Render

/-!
# Paths in rendered values

Rendering a value replaces its strings by strings and leaves everything else in
place.  A path without filters never looks at a string, so it comes to the same
places in both values.  Picking and rendering can be done in either order
(`select_render`).

This holds of every replacement of strings, and of each way to pick in turn: one
step, the elements of a slice, the children, everything inside.  A filter is the
exception, because it compares the strings it finds.
-/

namespace Templating

/-- A map with other values has them under the same keys. -/
theorem Entries.get?_map {κ α β : Type} [DecidableEq κ] (g : α → β) (entries : Entries κ α)
    (key : κ) : get? (entries.map fun (k, a) => (k, g a)) key = (get? entries key).map g := by
  induction entries with
  | nil => rfl
  | cons entry rest ih =>
      by_cases here : entry.1 = key
      · simp [get?, here]
      · simp [get?, here, ih]

/-! ## Positions -/

theorem elementAt?_map (g : Value → Value) (items : List Value) (n : Int) :
    elementAt? (items.map g) n = (elementAt? items n).map g := by
  simp only [elementAt?, List.length_map, List.getElem?_map]
  split
  next => rfl
  next => rfl

theorem sliceOf_map (g : Value → Value) (items : List Value) (start stop : Option Int) :
    sliceOf (items.map g) start stop = (sliceOf items start stop).map g := by
  simp only [sliceOf, List.length_map, List.map_drop, List.map_take]

/-! ## Replaced strings -/

namespace Value

variable (f : Text → Text)

theorem mapStrings_arr (items : List Value) :
    mapStrings f (.arr items) = .arr (items.map (mapStrings f)) := by
  rw [mapStrings, mapStringsOfItems_eq_map]

theorem mapStrings_obj (members : List (Text × Value)) :
    mapStrings f (.obj members) = .obj (members.map fun (key, v) => (key, mapStrings f v)) := by
  rw [mapStrings, mapStringsOfMembers_eq_map]

theorem children_mapStrings (v : Value) :
    (mapStrings f v).children = v.children.map (mapStrings f) := by
  cases v with
  | arr items => rw [mapStrings_arr, children, children]
  | obj members =>
      rw [mapStrings_obj, children, children, List.map_map, List.map_map]
      rfl
  | null => rfl
  | bool _ => rfl
  | num _ => rfl
  | str _ => rfl

theorem family_mapStrings (v : Value) : (mapStrings f v).family = v.family.map (mapStrings f) := by
  induction v using children_induction with
  | step v ih =>
      rw [family_eq_cons, children_mapStrings, family_eq_cons v, List.map_cons, List.map_flatMap,
        List.flatMap_map]
      exact congrArg (_ :: ·) (List.flatMap_congr ih)

/-! ## Shapes -/

mutual

theorem mapStrings_mapStrings (g : Text → Text) :
    ∀ v : Value, mapStrings g (mapStrings f v) = mapStrings (g ∘ f) v
  | .arr items => congrArg Value.arr (mapStringsOfItems_mapStringsOfItems g items)
  | .obj members => congrArg Value.obj (mapStringsOfMembers_mapStringsOfMembers g members)
  | .null => rfl
  | .bool _ => rfl
  | .num _ => rfl
  | .str _ => rfl

theorem mapStringsOfItems_mapStringsOfItems (g : Text → Text) : ∀ items : List Value,
    mapStringsOfItems g (mapStringsOfItems f items) = mapStringsOfItems (g ∘ f) items
  | [] => rfl
  | v :: rest => by
      simp only [mapStringsOfItems, mapStrings_mapStrings g v,
        mapStringsOfItems_mapStringsOfItems g rest]

theorem mapStringsOfMembers_mapStringsOfMembers (g : Text → Text) :
    ∀ members : List (Text × Value), mapStringsOfMembers g (mapStringsOfMembers f members) =
      mapStringsOfMembers (g ∘ f) members
  | [] => rfl
  | (key, v) :: rest => by
      simp only [mapStringsOfMembers, mapStrings_mapStrings g v,
        mapStringsOfMembers_mapStringsOfMembers g rest]

end

/-- A value with every string in it empty, which is all of it but the strings. -/
def shape : Value → Value := mapStrings fun _ => []

theorem shape_mapStrings (v : Value) : (mapStrings f v).shape = v.shape :=
  mapStrings_mapStrings f (fun _ => []) v

end Value

/-! ## Picking -/

section Picking

variable (f : Text → Text)

theorem Step.find?_mapStrings (s : Step) (v : Value) :
    s.find? (v.mapStrings f) = (s.find? v).map (Value.mapStrings f) := by
  cases v with
  | arr items =>
      rw [Value.mapStrings_arr]
      cases s with
      | name text =>
          simp only [Step.find?]
          cases Index.read? text with
          | none => rfl
          | some i => exact List.getElem?_map
      | index n => exact elementAt?_map (Value.mapStrings f) items n
  | obj members =>
      rw [Value.mapStrings_obj]
      cases s with
      | name text => exact Entries.get?_map (Value.mapStrings f) members text
      | index n => exact Entries.get?_map (Value.mapStrings f) members (Text.ofInt n)
  | null => cases s <;> rfl
  | bool _ => cases s <;> rfl
  | num _ => cases s <;> rfl
  | str _ => cases s <;> rfl

theorem Selector.pick_mapStrings {s : Selector} (plain : ∀ g, s ≠ .filter g) (v : Value) :
    s.pick (v.mapStrings f) = (s.pick v).map (Value.mapStrings f) := by
  cases s with
  | step s =>
      rw [Selector.pick, Selector.pick, Step.find?_mapStrings]
      cases s.find? v <;> rfl
  | slice start stop =>
      cases v with
      | arr items =>
          rw [Value.mapStrings_arr]
          exact sliceOf_map (Value.mapStrings f) items start stop
      | obj _ => rfl
      | null => rfl
      | bool _ => rfl
      | num _ => rfl
      | str _ => rfl
  | wildcard => exact Value.children_mapStrings f v
  | union steps =>
      rw [Selector.pick, Selector.pick, List.map_filterMap]
      exact congrArg (steps.filterMap ·) (funext fun s => s.find?_mapStrings f v)
  | filter g => exact absurd rfl (plain g)

theorem Segment.pick_mapStrings {s : Segment} (plain : ∀ g, s.selector ≠ .filter g) (v : Value) :
    s.pick (v.mapStrings f) = (s.pick v).map (Value.mapStrings f) := by
  cases s with
  | child s => exact Selector.pick_mapStrings f plain v
  | descendant s =>
      rw [Segment.pick, Segment.pick, Value.family_mapStrings, List.flatMap_map, List.map_flatMap]
      exact congrArg (v.family.flatMap ·) (funext (Selector.pick_mapStrings f plain))

namespace Path

theorem selectFrom_mapStrings {p : Path} (plain : ∀ s ∈ p, ∀ g, s.selector ≠ .filter g) :
    ∀ values : List Value, selectFrom (values.map (Value.mapStrings f)) p =
      (selectFrom values p).map (Value.mapStrings f) := by
  induction p with
  | nil => exact fun _ => rfl
  | cons s p ih =>
      intro values
      have first : (values.map (Value.mapStrings f)).flatMap s.pick =
          (values.flatMap s.pick).map (Value.mapStrings f) := by
        rw [List.flatMap_map, List.map_flatMap]
        exact congrArg (values.flatMap ·)
          (funext (Segment.pick_mapStrings f (plain s List.mem_cons_self)))
      have rest := ih (fun s later => plain s (List.mem_cons_of_mem _ later))
        (values.flatMap s.pick)
      rw [← first] at rest
      exact rest

/-- A path without filters picks the same places, whatever the strings are. -/
theorem select_mapStrings {p : Path} (plain : p.filters = []) (v : Value) :
    p.select (v.mapStrings f) = (p.select v).map (Value.mapStrings f) := by
  refine selectFrom_mapStrings f (fun s member g same => ?_) [v]
  have filter : g ∈ p.filters := mem_filters.mpr ⟨s, member, same⟩
  rw [plain] at filter
  cases filter

end Path

end Picking

/-! ## Rendered values -/

/-- A path without filters picks from a rendered value what it picks from the value,
rendered, in the same order.  A rendered value differs from the value in its strings
only, and each of them is the string resolved as a template of its own. -/
theorem Path.select_render {p : Path} (plain : p.filters = []) (segments : Segments)
    (source : Source) (v : Value) :
    (p.select (v.render segments source) = (p.select v).map (Value.render segments source) ∧
      (v.render segments source).shape = v.shape ∧
      ∀ t, Value.render segments source (.str t) =
        .str (Pipeline.all.text source (some segments) none t)) ∧
    p.select (v.renderDataOnly source) = (p.select v).map (Value.renderDataOnly source) ∧
      (v.renderDataOnly source).shape = v.shape ∧
      ∀ t, Value.renderDataOnly source (.str t) =
        .str (Pipeline.dataOnly.text source none none t) :=
  ⟨⟨select_mapStrings _ plain v, Value.shape_mapStrings _ v, fun _ => rfl⟩,
    select_mapStrings _ plain v, Value.shape_mapStrings _ v, fun _ => rfl⟩

/-- The positional placeholder `{1}`, which is a key, a string and a name below. -/
def placeholderKey : Text := ['{', '1', '}']

/-- `['{1}'][*]` comes to the string under the key `{1}`, which rendering replaces,
and to the null behind it. -/
theorem Path.select_render_placeholderKey :
    let p : Path := [.child (.step (.name placeholderKey)), .child .wildcard]
    let v : Value := .obj [(placeholderKey, .arr [.str placeholderKey, .null])]
    p.filters = [] ∧
      p.select (v.render (Segments.ofPath ['/', 'a']) (Documents.source [])) =
        [.str ['a'], .null] ∧
      p.select (v.renderDataOnly (Documents.source [])) = [.str placeholderKey, .null] := by
  intro p v
  have commute := Path.select_render (p := p) rfl (Segments.ofPath ['/', 'a'])
    (Documents.source []) v
  have picked : p.select v = [.str placeholderKey, .null] := rfl
  have rendered : Pipeline.all.text (Documents.source []) (some (Segments.ofPath ['/', 'a'])) none
      placeholderKey = ['a'] := by decide +kernel
  have kept : Pipeline.dataOnly.text (Documents.source []) none none placeholderKey =
      placeholderKey := by decide +kernel
  rw [picked] at commute
  refine ⟨rfl, ?_, ?_⟩
  · rw [commute.1.1, List.map_cons, commute.1.2.2, rendered]
    rfl
  · rw [commute.2.1, List.map_cons, commute.2.2.2, kept]
    rfl

end Templating
