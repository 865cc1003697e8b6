import Mathlib.Data.List.Flatten
import Mathlib.Data.List.Nodup
import Templating.Path.Printer
import Templating.Path.Select

/-!
# The places of a selection

A selection is a list of values, and equal values may stand at several places of a
document.  A *node* is a value with its place: the positions to go through, among the
children of one value after the other.  `Path.nodes` selects nodes where `Path.select`
selects their values (`map_value_nodes`), and each node is found at its place
(`isIn_of_mem_nodes`).

The nodes of everything inside a document (`familyNodes`) come in the order of their
places, each place once.  That is the document order.  A selector other than a union
picks some of the children and keeps their order, so a path without unions selects
some of the nodes that it selects with wildcards instead, in the same order.
-/

namespace Templating

/-- A value and its place under another one. -/
structure Node where
  /-- The positions to go through, from the outside in. -/
  place : List Nat
  /-- The value there. -/
  value : Value

namespace Value

/-! ## Places -/

/-- The value at a place. -/
def at? (v : Value) (place : List Nat) : Option Value := place.foldlM (fun v i => v.children[i]?) v

theorem at?_cons (v : Value) (i : Nat) (place : List Nat) :
    v.at? (i :: place) = v.children[i]?.bind (at? · place) := rfl

theorem at?_append (v : Value) (outer inner : List Nat) :
    v.at? (outer ++ inner) = (v.at? outer).bind (at? · inner) := by
  simp [at?, List.foldlM_append]

end Value

theorem place_ne_of_lt {place place' : List Nat} (h : place < place') : place ≠ place' := by
  rintro rfl
  exact List.lt_irrefl _ h

namespace Node

/-! ## Nodes -/

/-- A node under a node, seen from where the outer one is. -/
def within (outer inner : Node) : Node := ⟨outer.place ++ inner.place, inner.value⟩

/-- Whether a node is found at its place under a value. -/
def IsIn (root : Value) (n : Node) : Prop := root.at? n.place = some n.value

/-- The nodes that the values of some nodes have, in order. -/
def expand (next : Value → List Node) (nodes : List Node) : List Node :=
  nodes.flatMap fun n => (next n.value).map n.within

theorem map_value_expand (next : Value → List Node) (nodes : List Node) :
    (expand next nodes).map value = (nodes.map value).flatMap fun v => (next v).map value := by
  simp only [expand, List.map_flatMap, List.flatMap_map, List.map_map]
  rfl

theorem mem_expand {next : Value → List Node} {nodes : List Node} {n : Node} :
    n ∈ expand next nodes ↔
      ∃ outer ∈ nodes, ∃ inner ∈ next outer.value, outer.within inner = n := by
  simp only [expand, List.mem_flatMap, List.mem_map]

theorem IsIn.within {root : Value} {outer inner : Node} (h : outer.IsIn root)
    (deeper : inner.IsIn outer.value) : (outer.within inner).IsIn root := by
  rw [IsIn, Node.within, Value.at?_append, h]
  exact deeper

theorem isIn_of_mem_expand {next : Value → List Node} {nodes : List Node} {root : Value}
    (first : ∀ n ∈ nodes, n.IsIn root) (later : ∀ v, ∀ n ∈ next v, n.IsIn v) :
    ∀ n ∈ expand next nodes, n.IsIn root := by
  intro n member
  obtain ⟨outer, reached, inner, found, rfl⟩ := mem_expand.mp member
  exact (first outer reached).within (later outer.value inner found)

/-- A node has itself at the empty place under it. -/
theorem expand_self (nodes : List Node) : expand (fun v => [⟨[], v⟩]) nodes = nodes := by
  simp [expand, Node.within]

/-- Fewer nodes with fewer nodes under each are fewer nodes, in the same order. -/
theorem expand_sublist {next next' : Value → List Node} {nodes nodes' : List Node}
    (first : nodes.Sublist nodes') (later : ∀ v, (next v).Sublist (next' v)) :
    (expand next nodes).Sublist (expand next' nodes') :=
  (first.flatMap _).trans (List.Sublist.flatMap_right nodes' fun _ _ => (later _).map _)

end Node

namespace Value

open Node

/-! ## Children and family -/

/-- The children of a value as nodes. -/
def childNodes (v : Value) : List Node := v.children.zipIdx.map fun (c, i) => ⟨[i], c⟩

theorem map_value_childNodes (v : Value) : v.childNodes.map Node.value = v.children := by
  rw [childNodes, List.map_map]
  exact List.zipIdx_map_fst 0 v.children

theorem getElem?_childNodes (v : Value) (i : Nat) :
    v.childNodes[i]? = v.children[i]?.map (Node.mk [i]) := by
  simp [childNodes, Function.comp_def]

theorem mem_childNodes {v : Value} {n : Node} :
    n ∈ v.childNodes ↔ ∃ i c, v.children[i]? = some c ∧ ⟨[i], c⟩ = n := by
  simp only [List.mem_iff_getElem?, getElem?_childNodes, Option.map_eq_some_iff]

theorem isIn_of_mem_childNodes {v : Value} {n : Node} (h : n ∈ v.childNodes) : n.IsIn v := by
  obtain ⟨i, c, child, rfl⟩ := mem_childNodes.mp h
  rw [IsIn, at?_cons, child]
  rfl

/-- Whatever is inside a child comes before whatever is inside a later one. -/
theorem pairwise_childNodes (v : Value) :
    v.childNodes.Pairwise fun m n => ∀ inner inner', m.place ++ inner < n.place ++ inner' := by
  rw [childNodes, List.pairwise_map, List.pairwise_iff_getElem]
  intro i j _ _ before inner inner'
  simp only [List.getElem_zipIdx, Nat.zero_add]
  exact List.cons_lt_cons_iff.mpr (.inl before)

mutual

/-- A value and everything inside it as nodes, each before what it holds. -/
def familyNodes : Value → List Node
  | .arr items => ⟨[], .arr items⟩ :: familyNodesOfItems 0 items
  | .obj members => ⟨[], .obj members⟩ :: familyNodesOfMembers 0 members
  | v => [⟨[], v⟩]

/-- The families of the elements of an array that stand from a position on. -/
def familyNodesOfItems (i : Nat) : List Value → List Node
  | [] => []
  | v :: rest => (familyNodes v).map (within ⟨[i], v⟩) ++ familyNodesOfItems (i + 1) rest

/-- The families of the members of an object that stand from a position on. -/
def familyNodesOfMembers (i : Nat) : List (Text × Value) → List Node
  | [] => []
  | (_, v) :: rest => (familyNodes v).map (within ⟨[i], v⟩) ++ familyNodesOfMembers (i + 1) rest

end

theorem familyNodesOfItems_eq_expand (items : List Value) (i : Nat) :
    familyNodesOfItems i items =
      expand familyNodes ((items.zipIdx i).map fun (c, i) => ⟨[i], c⟩) := by
  induction items generalizing i with
  | nil => rfl
  | cons v rest ih => rw [familyNodesOfItems, ih, List.zipIdx_cons, List.map_cons]; rfl

theorem familyNodesOfMembers_eq_expand (members : List (Text × Value)) (i : Nat) :
    familyNodesOfMembers i members =
      expand familyNodes (((members.map (·.2)).zipIdx i).map fun (c, i) => ⟨[i], c⟩) := by
  induction members generalizing i with
  | nil => rfl
  | cons member rest ih =>
      rw [familyNodesOfMembers, ih, List.map_cons, List.zipIdx_cons, List.map_cons]; rfl

theorem familyNodes_eq_cons (v : Value) :
    v.familyNodes = ⟨[], v⟩ :: expand familyNodes v.childNodes := by
  cases v with
  | arr items => rw [familyNodes, familyNodesOfItems_eq_expand]; rfl
  | obj members => rw [familyNodes, familyNodesOfMembers_eq_expand]; rfl
  | null => rfl
  | bool _ => rfl
  | num _ => rfl
  | str _ => rfl

theorem map_value_familyNodes (v : Value) : v.familyNodes.map Node.value = v.family := by
  induction v using children_induction with
  | step v ih =>
      rw [familyNodes_eq_cons, family_eq_cons, List.map_cons, map_value_expand,
        map_value_childNodes]
      exact congrArg (v :: ·) (List.flatMap_congr ih)

/-- The family of a value is all that is found at some place in it. -/
theorem mem_familyNodes {v : Value} {n : Node} : n ∈ v.familyNodes ↔ n.IsIn v := by
  induction v using children_induction generalizing n with
  | step v ih =>
      obtain ⟨place, w⟩ := n
      rw [familyNodes_eq_cons, List.mem_cons, mem_expand]
      constructor
      · rintro (same | ⟨outer, child, inner, deeper, same⟩)
        · cases same
          rfl
        · obtain ⟨i, c, here, rfl⟩ := mem_childNodes.mp child
          rw [← same]
          exact (isIn_of_mem_childNodes child).within
            ((ih c (List.mem_of_getElem? here)).mp deeper)
      · intro found
        cases place with
        | nil =>
            cases found
            exact .inl rfl
        | cons i place =>
            rw [IsIn, at?_cons] at found
            obtain ⟨c, here, deeper⟩ := Option.bind_eq_some_iff.mp found
            exact .inr ⟨_, mem_childNodes.mpr ⟨i, c, here, rfl⟩, ⟨place, w⟩,
              (ih c (List.mem_of_getElem? here)).mpr deeper, rfl⟩

/-- Beside the value itself, its family is all that is found further inside. -/
theorem mem_tail_familyNodes {v : Value} {n : Node} :
    n ∈ v.familyNodes.tail ↔ n.place ≠ [] ∧ n.IsIn v := by
  rw [← mem_familyNodes, familyNodes_eq_cons, List.tail_cons, List.mem_cons]
  constructor
  · intro member
    obtain ⟨outer, child, inner, -, rfl⟩ := mem_expand.mp member
    obtain ⟨i, c, -, rfl⟩ := mem_childNodes.mp child
    exact ⟨List.cons_ne_nil _ _, .inr member⟩
  · rintro ⟨proper, rfl | member⟩
    · exact absurd rfl proper
    · exact member

/-- The family of a value comes in the order of the places. -/
theorem pairwise_familyNodes (v : Value) :
    v.familyNodes.Pairwise fun m n => m.place < n.place := by
  induction v using children_induction with
  | step v ih =>
      rw [familyNodes_eq_cons, List.pairwise_cons, expand, List.pairwise_flatMap]
      -- The value is before all else, each child in order, and each child before the next.
      refine ⟨fun n member => ?_, fun outer child => ?_, ?_⟩
      · obtain ⟨outer, child, inner, -, rfl⟩ := mem_expand.mp member
        obtain ⟨i, c, -, rfl⟩ := mem_childNodes.mp child
        exact List.nil_lt_cons _ _
      · obtain ⟨i, c, here, rfl⟩ := mem_childNodes.mp child
        rw [List.pairwise_map]
        refine (ih c (List.mem_of_getElem? here)).imp fun before => ?_
        exact List.cons_lt_cons_iff.mpr (.inr ⟨rfl, before⟩)
      · refine v.pairwise_childNodes.imp fun before x first y second => ?_
        obtain ⟨inner, -, rfl⟩ := List.mem_map.mp first
        obtain ⟨inner', -, rfl⟩ := List.mem_map.mp second
        exact before inner.place inner'.place

end Value

/-! ## Selected nodes -/

/-- The position of the first entry under a key. -/
def Entries.position? {κ α : Type} [DecidableEq κ] (entries : Entries κ α) (key : κ) : Option Nat :=
  entries.findIdx? fun entry => entry.1 = key

theorem Entries.get?_eq_bind_position? {κ α : Type} [DecidableEq κ] (entries : Entries κ α)
    (key : κ) :
    get? entries key = (position? entries key).bind fun i => (entries.map (·.2))[i]? := by
  induction entries with
  | nil => rfl
  | cons entry rest ih =>
      by_cases here : entry.1 = key
      · simp [get?, position?, List.findIdx?_cons, here]
      · rw [get?, if_neg here, ih, position?, position?, List.findIdx?_cons,
          if_neg (by simp [here]), Option.bind_map]
        rfl

open Node

/-- The position of the child that a step leads to, if there is one. -/
def Step.position? (v : Value) : Step → Option Nat
  | .name text =>
      match v with
      | .obj members => Entries.position? members text
      | .arr _ => Index.read? text
      | _ => none
  | .index n =>
      match v with
      | .obj members => Entries.position? members (Text.ofInt n)
      | .arr items =>
          let position := fromEnd items.length n
          if position < 0 then none else some position.toNat
      | _ => none

/-- A step leads to the child at its position. -/
theorem Step.find?_eq_bind_position? (v : Value) (s : Step) :
    s.find? v = (s.position? v).bind (v.children[·]?) := by
  cases s with
  | name text =>
      cases v with
      | obj members => exact Entries.get?_eq_bind_position? members text
      | _ => rfl
  | index n =>
      cases v with
      | obj members => exact Entries.get?_eq_bind_position? members (Text.ofInt n)
      | arr items =>
          simp only [find?, position?, elementAt?]
          split
          next => rfl
          next => rfl
      | _ => rfl

/-- The node that a step leads to. -/
def Step.node? (v : Value) (s : Step) : Option Node := (s.position? v).bind (v.childNodes[·]?)

theorem Step.map_value_node? (v : Value) (s : Step) : (s.node? v).map Node.value = s.find? v := by
  rw [node?, find?_eq_bind_position?, Option.map_bind]
  congr 1
  funext i
  simp [Value.getElem?_childNodes, Function.comp_def]

theorem Step.node?_mem_childNodes {v : Value} {s : Step} {n : Node} (h : s.node? v = some n) :
    n ∈ v.childNodes := by
  obtain ⟨i, -, child⟩ := Option.bind_eq_some_iff.mp h
  exact List.mem_of_getElem? child

/-- The nodes that a selector picks from a value. -/
def Selector.nodes (v : Value) : Selector → List Node
  | .step s => (s.node? v).toList
  | .slice start stop =>
      match v with
      | .arr items =>
          let low := (start.map (sliceBound items.length)).getD 0
          let high := (stop.map (sliceBound items.length)).getD items.length
          ((Value.arr items).childNodes.take high).drop low
      | _ => []
  | .wildcard => v.childNodes
  | .union steps => steps.filterMap (Step.node? v)
  | .filter f => v.childNodes.filter fun n => f.holds n.value

/-- The nodes that a segment picks from a value. -/
def Segment.nodes (v : Value) : Segment → List Node
  | .child s => s.nodes v
  | .descendant s => expand s.nodes v.familyNodes

theorem Selector.map_value_nodes (v : Value) (s : Selector) :
    (s.nodes v).map Node.value = s.pick v := by
  cases s with
  | step s => rw [nodes, pick, ← Option.toList_map, Step.map_value_node?]
  | slice start stop =>
      cases v with
      | arr items =>
          simp only [nodes, pick, sliceOf, List.map_drop, List.map_take, Value.map_value_childNodes,
            Value.children]
      | _ => rfl
  | wildcard => exact v.map_value_childNodes
  | union steps =>
      rw [nodes, pick, List.map_filterMap]
      exact congrArg (steps.filterMap ·) (funext (Step.map_value_node? v))
  | filter f => rw [nodes, pick, ← v.map_value_childNodes, List.filter_map]; rfl

/-- A selector other than a union keeps the order of the children. -/
theorem Selector.nodes_sublist {s : Selector} (v : Value) (h : ∀ steps, s ≠ .union steps) :
    (s.nodes v).Sublist v.childNodes := by
  cases s with
  | step s =>
      cases found : s.node? v with
      | none => simp [nodes, found]
      | some n => simpa [nodes, found] using Step.node?_mem_childNodes found
  | slice start stop =>
      cases v with
      | arr items => exact (List.drop_sublist _ _).trans (List.take_sublist _ _)
      | _ => exact List.nil_sublist _
  | wildcard => exact List.Sublist.refl _
  | union steps => exact absurd rfl (h steps)
  | filter f => exact List.filter_sublist

theorem Selector.nodes_subset (v : Value) (s : Selector) : s.nodes v ⊆ v.childNodes := by
  by_cases union : ∃ steps, s = .union steps
  · obtain ⟨steps, rfl⟩ := union
    intro n member
    obtain ⟨s, -, found⟩ := List.mem_filterMap.mp member
    exact Step.node?_mem_childNodes found
  · exact (nodes_sublist v fun steps same => union ⟨steps, same⟩).subset

theorem Segment.map_value_nodes (v : Value) (s : Segment) :
    (s.nodes v).map Node.value = s.pick v := by
  cases s with
  | child s => exact s.map_value_nodes v
  | descendant s =>
      rw [nodes, pick, map_value_expand, v.map_value_familyNodes]
      exact List.flatMap_congr fun w _ => s.map_value_nodes w

theorem Segment.isIn_of_mem_nodes {v : Value} {s : Segment} {n : Node} (h : n ∈ s.nodes v) :
    n.IsIn v := by
  have picked (s : Selector) (w : Value) : ∀ n ∈ s.nodes w, n.IsIn w := fun n member =>
    Value.isIn_of_mem_childNodes (s.nodes_subset w member)
  cases s with
  | child s => exact picked s v n h
  | descendant s =>
      exact isIn_of_mem_expand (fun n member => Value.mem_familyNodes.mp member) (picked s) n h

namespace Path

/-- The nodes that a path picks from a document. -/
def nodes : Path → Value → List Node
  | [], root => [⟨[], root⟩]
  | s :: rest, root => expand (nodes rest) (s.nodes root)

/-- The values of the nodes are the values that the path selects. -/
theorem map_value_nodes (p : Path) (root : Value) :
    (p.nodes root).map Node.value = p.select root := by
  induction p generalizing root with
  | nil => rfl
  | cons s rest ih =>
      rw [nodes, map_value_expand, select_cons, s.map_value_nodes]
      exact List.flatMap_congr fun v _ => ih v

theorem isIn_of_mem_nodes (p : Path) (root : Value) : ∀ n ∈ p.nodes root, n.IsIn root := by
  induction p generalizing root with
  | nil => exact List.forall_mem_singleton.mpr rfl
  | cons s rest ih => exact isIn_of_mem_expand (fun _ => Segment.isIn_of_mem_nodes) ih

end Path

/-! ## Wildcards -/

/-- A segment with a wildcard for its selector. -/
def Segment.widened : Segment → Segment
  | .child _ => .child .wildcard
  | .descendant _ => .descendant .wildcard

theorem Segment.nodes_sublist_widened {s : Segment} (v : Value)
    (h : ∀ steps, s.selector ≠ .union steps) : (s.nodes v).Sublist (s.widened.nodes v) := by
  cases s with
  | child s => exact s.nodes_sublist v h
  | descendant s => exact expand_sublist (List.Sublist.refl _) fun w => s.nodes_sublist w h

namespace Path

/-- The path with a wildcard for every selector. -/
def widened (p : Path) : Path := p.map Segment.widened

/-- No selector of the path is a union. -/
def UnionFree (p : Path) : Prop := ∀ s ∈ p, ∀ steps, s.selector ≠ .union steps

/-- Every segment of the path is a child segment. -/
def ChildOnly (p : Path) : Prop := ∀ s ∈ p, ∃ selector, s = .child selector

theorem nodes_sublist_widened {p : Path} (h : p.UnionFree) (root : Value) :
    (p.nodes root).Sublist (p.widened.nodes root) := by
  induction p generalizing root with
  | nil => exact List.Sublist.refl _
  | cons s rest ih =>
      obtain ⟨first, later⟩ := List.forall_mem_cons.mp h
      exact expand_sublist (s.nodes_sublist_widened root first) (ih later)

/-- A path of child segments without unions selects in document order. -/
theorem nodes_sublist_familyNodes {p : Path} (h : p.UnionFree) (child : p.ChildOnly)
    (root : Value) : (p.nodes root).Sublist root.familyNodes := by
  induction p generalizing root with
  | nil =>
      rw [root.familyNodes_eq_cons]
      exact List.singleton_sublist.mpr List.mem_cons_self
  | cons s rest ih =>
      obtain ⟨first, later⟩ := List.forall_mem_cons.mp h
      obtain ⟨⟨selector, rfl⟩, children⟩ := List.forall_mem_cons.mp child
      rw [root.familyNodes_eq_cons]
      exact (expand_sublist (selector.nodes_sublist root first) (ih later children)).cons _

/-! ## Everything inside -/

/-- The nodes of everything inside a value, without the value itself. -/
theorem nodes_below (root : Value) :
    nodes [.descendant .wildcard] root = expand Value.childNodes root.familyNodes :=
  expand_self _

theorem mem_nodes_below {root : Value} {n : Node} :
    n ∈ nodes [.descendant .wildcard] root ↔ n.place ≠ [] ∧ n.IsIn root := by
  rw [nodes_below, mem_expand]
  constructor
  · rintro ⟨outer, reached, inner, child, rfl⟩
    have deeper := Value.isIn_of_mem_childNodes child
    obtain ⟨i, c, -, rfl⟩ := Value.mem_childNodes.mp child
    exact ⟨List.append_ne_nil_of_right_ne_nil _ (List.cons_ne_nil _ _),
      (Value.mem_familyNodes.mp reached).within deeper⟩
  · rintro ⟨proper, found⟩
    obtain ⟨place, v⟩ := n
    obtain rfl | ⟨outer, i, rfl⟩ := List.eq_nil_or_concat' place
    · exact absurd rfl proper
    · rw [IsIn, Value.at?_append] at found
      obtain ⟨w, here, deeper⟩ := Option.bind_eq_some_iff.mp found
      rw [Value.at?_cons] at deeper
      obtain ⟨c, child, same⟩ := Option.bind_eq_some_iff.mp deeper
      cases same
      exact ⟨⟨outer, w⟩, Value.mem_familyNodes.mpr here, ⟨[i], v⟩,
        Value.mem_childNodes.mpr ⟨i, v, child, rfl⟩, rfl⟩

/-- Nothing inside a value is picked twice at one place. -/
theorem nodup_place_nodes_below (root : Value) :
    ((nodes [.descendant .wildcard] root).map Node.place).Nodup := by
  -- A place without its last position is that of the value it was picked from.
  rw [nodes_below, List.Nodup, List.pairwise_map, expand, List.pairwise_flatMap]
  refine ⟨fun outer _ => ?_, ?_⟩
  · rw [List.pairwise_map]
    refine outer.value.pairwise_childNodes.imp fun before same => ?_
    exact place_ne_of_lt (before [] []) (congrArg (· ++ []) (List.append_cancel_left same))
  · refine root.pairwise_familyNodes.imp fun before x first y second same => ?_
    obtain ⟨inner, child, rfl⟩ := List.mem_map.mp first
    obtain ⟨inner', child', rfl⟩ := List.mem_map.mp second
    obtain ⟨i, c, -, rfl⟩ := Value.mem_childNodes.mp child
    obtain ⟨j, c', -, rfl⟩ := Value.mem_childNodes.mp child'
    exact place_ne_of_lt before (List.append_inj' same rfl).1

/-- Everything inside a value is picked as often as it stands there. -/
theorem select_below_perm (root : Value) :
    (select [.descendant .wildcard] root).Perm root.family.tail := by
  have once : root.familyNodes.tail.Nodup :=
    root.pairwise_familyNodes.tail.imp fun before same =>
      place_ne_of_lt before (congrArg Node.place same)
  have same : (nodes [.descendant .wildcard] root).Perm root.familyNodes.tail :=
    (List.perm_ext_iff_of_nodup (.of_map _ (nodup_place_nodes_below root)) once).mpr fun n =>
      mem_nodes_below.trans Value.mem_tail_familyNodes.symm
  rw [← map_value_nodes, ← root.map_value_familyNodes, ← List.map_tail]
  exact same.map _

/-- The values that a path selects are those of nodes found at their places.  Without
unions, it selects some of the nodes that it selects with wildcards for its selectors,
in the same order.  The wildcard under everything selects all that is inside a
document, each node once, and a path of child segments without unions selects in
document order, no node twice. -/
theorem select_widened (root : Value) :
    (∀ p : Path, (p.nodes root).map Node.value = p.select root ∧ ∀ n ∈ p.nodes root, n.IsIn root) ∧
    (∀ p : Path, p.UnionFree → (p.nodes root).Sublist (p.widened.nodes root) ∧
      (p.select root).Sublist (p.widened.select root)) ∧
    (((nodes [.descendant .wildcard] root).map Node.place).Nodup ∧
      (∀ n, n ∈ nodes [.descendant .wildcard] root ↔ n.place ≠ [] ∧ n.IsIn root) ∧
      (select [.descendant .wildcard] root).Perm root.family.tail) ∧
    ∀ p : Path, p.UnionFree → p.ChildOnly →
      (p.nodes root).Sublist root.familyNodes ∧
      (p.nodes root).Pairwise fun m n => m.place < n.place := by
  refine ⟨fun p => ⟨p.map_value_nodes root, p.isIn_of_mem_nodes root⟩, fun p h => ?_,
    ⟨nodup_place_nodes_below root, fun _ => mem_nodes_below, select_below_perm root⟩,
    fun p h child => ?_⟩
  · have fewer := nodes_sublist_widened h root
    refine ⟨fewer, ?_⟩
    rw [← p.map_value_nodes, ← p.widened.map_value_nodes]
    exact fewer.map _
  · have ordered := nodes_sublist_familyNodes h child root
    exact ⟨ordered, root.pairwise_familyNodes.sublist ordered⟩

/-- `[*][-1:]` picks the last element of each of two arrays, which are equal values at
two places. -/
theorem select_widened_lastElements :
    let one : Value := .ofNat 1
    let root : Value := .arr [.arr [one, one], .arr [one]]
    let p : Path := [.child .wildcard, .child (.slice (some (-1)) none)]
    p.UnionFree ∧ p.ChildOnly ∧ p.select root = [one, one] ∧
      p.nodes root = [⟨[0, 1], one⟩, ⟨[1, 0], one⟩] ∧
      p.widened.nodes root = [⟨[0, 0], one⟩, ⟨[0, 1], one⟩, ⟨[1, 0], one⟩] ∧
      (p.nodes root).Sublist (p.widened.nodes root) ∧
      (p.nodes root).Pairwise fun m n => m.place < n.place := by
  intro one root p
  have unionFree : p.UnionFree := by simp [p, UnionFree, Segment.selector]
  have childOnly : p.ChildOnly := by simp [p, ChildOnly]
  obtain ⟨values, fewer, -, ordered⟩ := select_widened root
  exact ⟨unionFree, childOnly, rfl, rfl, rfl, (fewer p unionFree).1,
    (ordered p unionFree childOnly).2⟩

end Path

end Templating
