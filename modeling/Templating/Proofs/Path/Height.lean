import Templating.Proofs.Path.Canonical

/-!
# The height of filters

Whether a value passes a filter is found by recursion on the filter, so the height
of a filter is what that recursion needs of a stack.

A filter is read under a budget of levels.  Each `!` and each parenthesis takes one,
so no more of them are nested than the budget allows.  An operator takes none.  A
chain is joined to the left, and each `&&` or `||` in it puts everything before it
one step deeper.

So the budget bounds the height of a filter apart from its operators, and it bounds
the whole height as soon as steps to a left operand are not counted
(`parse_filter_height`).  It does not bound the height itself: a chain on one level
is as high as it is long (`parse_filter_height_unbounded`).
-/

namespace Templating

open Templating.Path
open Text (Sequence)

/-! ## Heights -/

namespace Filter

/-- The height of a filter as a tree, a comparison or an operand being one high. -/
def height : Filter → Nat
  | .or left right => 1 + max left.height right.height
  | .and left right => 1 + max left.height right.height
  | .not inner => 1 + inner.height
  | .compare .. => 1
  | .truthy _ => 1

/-- The height of a filter when a step to a left operand is not counted, as if a
chain was gone through by a loop. -/
def rightHeight : Filter → Nat
  | .or left right => max left.rightHeight (1 + right.rightHeight)
  | .and left right => max left.rightHeight (1 + right.rightHeight)
  | .not inner => 1 + inner.rightHeight
  | .compare .. => 1
  | .truthy _ => 1

/-- How many times `&&` and `||` stand in a filter. -/
def operators : Filter → Nat
  | .or left right => left.operators + 1 + right.operators
  | .and left right => left.operators + 1 + right.operators
  | .not inner => inner.operators
  | .compare .. => 0
  | .truthy _ => 0

/-- On the way down from the root of a filter every step is from an operator or is
paid for with a level. -/
theorem height_le (f : Filter) : ∀ p, f.height ≤ f.levels p + f.operators := by
  induction f with
  | or l r left right =>
      intro p
      have wayLeft := left .whole
      have wayRight := right .conjunct
      simp only [height, levels, operators]
      omega
  | and l r left right =>
      intro p
      have wayLeft := left .conjunct
      have wayRight := right .term
      simp only [height, levels, operators]
      omega
  | not inner ih =>
      intro p
      have way := ih .term
      simp only [height, levels, operators]
      omega
  | compare _ _ _ => exact fun _ => Nat.le_refl 1
  | truthy _ => exact fun _ => Nat.le_refl 1

/-- What a position adds to twice the levels: nothing but an `||` stands under a
whole filter without a level of its own, and nothing but an `&&` under a conjunct. -/
def Position.slack : Position → Nat
  | .whole => 2
  | .conjunct => 1
  | .term => 0

/-- A level is good for two steps to the right, one from an `||` and one from an
`&&`. -/
theorem rightHeight_lt (f : Filter) : ∀ p, f.rightHeight < 2 * f.levels p + p.slack := by
  induction f with
  | or l r left right =>
      intro p
      have wayLeft := left .whole
      have wayRight := right .conjunct
      cases p <;> simp [rightHeight, levels, Position.slack] at * <;> omega
  | and l r left right =>
      intro p
      have wayLeft := left .conjunct
      have wayRight := right .term
      cases p <;> simp [rightHeight, levels, Position.slack] at * <;> omega
  | not inner ih =>
      intro p
      have way := ih .term
      simp only [rightHeight, levels, Position.slack] at *
      omega
  | compare _ _ _ =>
      intro p
      simp only [rightHeight, levels]
      omega
  | truthy _ =>
      intro p
      simp only [rightHeight, levels]
      omega

theorem levels_whole_le (f : Filter) : f.levels .whole ≤ f.levels .conjunct := by
  cases f <;> simp [levels]

theorem levels_conjunct_le (f : Filter) : f.levels .conjunct ≤ f.levels .term := by
  cases f <;> simp [levels]

/-- Parentheses cost one level at most. -/
theorem levels_term_le (f : Filter) : f.levels .term ≤ f.levels .whole + 1 := by
  cases f with
  | or l r =>
      simp only [levels, ne_eq, reduceCtorEq, not_false_eq_true, if_pos, not_true_eq_false, if_neg]
      omega
  | and l r =>
      simp only [levels, reduceCtorEq, if_pos, not_false_eq_true, if_neg]
      omega
  | not inner => simp [levels]
  | compare _ _ _ => simp [levels]
  | truthy _ => simp [levels]

end Filter

/-! ## Levels that are read -/

namespace Path

/-- What holds of every part, and of two joined parts if it holds of both, holds of
a chain. -/
theorem Chained.induct {α : Type} {symbol : Text} {join : α → α → α} {part : Text → α → Prop}
    {P : α → Prop} (one : ∀ ⦃w a⦄, part w a → P a)
    (more : ∀ ⦃a w b⦄, P a → part w b → P (join a b)) {w : Text} {a : α}
    (h : Chained symbol join part w a) : P a := by
  induction h with
  | one here => exact one here
  | more _ link ih =>
      cases link with
      | after _ link =>
          cases link with
          | link here => exact more ih here

section Levels

variable {k : Nat} {form : Text → Filter → Prop} {w : Text} {f : Filter}

theorem levels_le_of_conjunction (each : ∀ ⦃w f⦄, form w f → f.levels .term ≤ k)
    (h : ConjunctionForm form w f) : f.levels .conjunct ≤ k := by
  refine Chained.induct (P := fun f => f.levels .conjunct ≤ k) (fun _ f term => ?_)
    (fun _ _ _ fits term => ?_) h
  · exact Nat.le_trans f.levels_conjunct_le (each term)
  · rw [Filter.levels, if_neg (by decide), Nat.zero_add]
    exact Nat.max_le.mpr ⟨fits, each term⟩

theorem levels_le_of_filter (each : ∀ ⦃w f⦄, form w f → f.levels .term ≤ k)
    (h : FilterForm form w f) : f.levels .whole ≤ k := by
  refine Chained.induct (P := fun f => f.levels .whole ≤ k) (fun _ f conjunction => ?_)
    (fun _ _ _ fits conjunction => ?_) h
  · exact Nat.le_trans f.levels_whole_le (levels_le_of_conjunction each conjunction)
  · rw [Filter.levels, if_neg (by decide), Nat.zero_add]
    exact Nat.max_le.mpr ⟨fits, levels_le_of_conjunction each conjunction⟩

/-- The levels that a term was read under suffice for its canonical text. -/
theorem levels_le_of_term (h : TermText k w f) : f.levels .term ≤ k := by
  induction k generalizing w f with
  | zero => cases h
  | succ k ih =>
      cases h with
      | after _ form =>
          cases form with
          | not inner =>
              rw [Filter.levels, Nat.add_comm]
              exact Nat.succ_le_succ (ih inner)
          | group filter _ =>
              have inner := levels_le_of_filter (fun _ _ => ih) filter
              exact Nat.le_trans f.levels_term_le (Nat.succ_le_succ inner)
          | truthy _ =>
              rw [Filter.levels]
              exact Nat.le_add_left 1 k
          | compare _ _ _ =>
              rw [Filter.levels]
              exact Nat.le_add_left 1 k

theorem levels_le_of_filterText (h : FilterText k w f) : f.levels .whole ≤ k :=
  levels_le_of_filter (fun _ _ => levels_le_of_term) h

end Levels

/-! ## Selectors that are read -/

/-- What stands behind a point could also stand in a bracket. -/
theorem DottedText.exists_selectorText {w : Text} {s : Selector} (h : DottedText w s) :
    ∃ v, SelectorText v s := by
  cases h with
  | wildcard => exact ⟨_, .wildcard⟩
  | name _ _ => exact ⟨_, .step (itemText_write (s := .name w) trivial)⟩

theorem BracketText.exists_selectorText {w : Text} {s : Selector} (h : BracketText w s) :
    ∃ v, SelectorText v s := by
  cases h with
  | close selector _ =>
      cases selector with
      | after _ selector => exact ⟨_, selector⟩

theorem SegmentText.exists_selectorText {w : Text} {s : Segment} (h : SegmentText w s) :
    ∃ v, SelectorText v s.selector := by
  cases h with
  | dotted dotted => exact dotted.exists_selectorText
  | bracket bracket => exact bracket.exists_selectorText
  | descendantDotted dotted => exact dotted.exists_selectorText
  | descendantBracket bracket => exact bracket.exists_selectorText

/-- Every selector of a path that was read stands in some bracket. -/
theorem PathText.exists_selectorText {e : Text} {p : Path} (h : PathText e p) :
    ∀ s ∈ p, ∃ v, SelectorText v s.selector := by
  have each {w : Text} (segments : Sequence (Spaced SegmentText) w p) :
      ∀ s ∈ p, ∃ v, SelectorText v s.selector := by
    refine Sequence.forall_mem (fun w s segment => ?_) segments
    cases segment with
    | after _ segment => exact segment.exists_selectorText
  cases h with
  | rooted _ segments _ => exact each segments
  | bare segments _ => exact each segments

/-! ## Filters of a path -/

/-- The filters of a path. -/
def filters (p : Path) : List Filter :=
  p.filterMap fun s =>
    match s.selector with
    | .filter f => some f
    | _ => none

theorem mem_filters {p : Path} {f : Filter} : f ∈ p.filters ↔ ∃ s ∈ p, s.selector = .filter f := by
  rw [filters, List.mem_filterMap]
  refine exists_congr fun s => and_congr_right fun _ => ?_
  split
  next g here =>
    rw [here, Option.some.injEq, Selector.filter.injEq]
  next other => exact iff_of_false nofun (other f)

/-- In every path that is read, each filter stays within the limit of levels.  So it
is no higher than the limit and its operators allow, and without the steps to left
operands no higher than the limit alone allows. -/
theorem parse_filter_height {e : Text} {p : Path} (read : parse e = .ok p) :
    ∀ f ∈ p.filters, f.levels .whole ≤ maxDepth ∧ f.rightHeight ≤ 2 * maxDepth + 1 ∧
      f.height ≤ maxDepth + f.operators := by
  intro f member
  obtain ⟨s, inPath, same⟩ := mem_filters.mp member
  obtain ⟨w, selector⟩ := (pathText_of_parse read).exists_selectorText s inPath
  rw [same] at selector
  cases selector with
  | filter _ filter _ =>
      have fits : f.levels .whole ≤ maxDepth := levels_le_of_filterText filter
      have right : f.rightHeight < 2 * f.levels .whole + 2 := f.rightHeight_lt .whole
      have whole := f.height_le .whole
      refine ⟨fits, ?_, ?_⟩
      · omega
      · omega

theorem parse_filter_height_negated :
    let f : Filter := .or (.not (.and (.truthy (.current [])) (.truthy (.literal .null))))
      (.truthy (.current []))
    let e : Text := ['[', '?', '(', '!', '(', '@', '&', '&', 'n', 'u', 'l', 'l', ')', '|', '|', '@',
      ')', ']']
    parse e = .ok [.child (.filter f)] ∧ f ∈ Path.filters [.child (.filter f)] ∧
      f.levels .whole ≤ maxDepth ∧ f.rightHeight ≤ 2 * maxDepth + 1 ∧
        f.height ≤ maxDepth + f.operators := by
  intro f e
  have read : parse e = .ok [.child (.filter f)] := rfl
  have member : f ∈ Path.filters [.child (.filter f)] := List.mem_singleton_self f
  exact ⟨read, member, parse_filter_height read f member⟩

end Path

/-! ## Chains -/

namespace Filter

/-- The child under test, joined to itself so many times by `&&`. -/
def chain : Nat → Filter
  | 0 => .truthy (.current [])
  | n + 1 => .and (chain n) (.truthy (.current []))

theorem height_chain (n : Nat) : (chain n).height = n + 1 := by
  induction n with
  | zero => rfl
  | succ n ih =>
      simp only [chain, height, ih]
      omega

/-- A chain has as many terms as one likes on one level. -/
theorem levels_chain (n : Nat) : (chain n).levels .conjunct = 1 := by
  induction n with
  | zero => rfl
  | succ n ih => simp [chain, levels, ih]

theorem wellFormed_chain (n : Nat) : (chain n).WellFormed := by
  have operand : Operand.WellFormed (.current []) := fun s none => absurd none List.not_mem_nil
  induction n with
  | zero => exact operand
  | succ n ih => exact ⟨ih, operand⟩

end Filter

/-- Chains are read however long they are. -/
theorem Path.parse_chain (n : Nat) :
    parse (Path.write [.child (.filter (.chain n))]) = .ok [.child (.filter (.chain n))] := by
  have fits : (Filter.chain n).levels .whole ≤ maxDepth := by
    have low := (Filter.chain n).levels_whole_le
    rw [Filter.levels_chain] at low
    exact Nat.le_trans low (by decide)
  have wellFormed : (Selector.filter (.chain n)).WellFormed := ⟨Filter.wellFormed_chain n, fits⟩
  rw [write, List.flatMap_singleton]
  exact parse_write_segment .canonical wellFormed

/-- No bound holds for the height of every filter that is read. -/
theorem Path.parse_filter_height_unbounded :
    ¬∃ bound, ∀ (e : Text) (p : Path), parse e = .ok p → ∀ f ∈ p.filters, f.height ≤ bound := by
  rintro ⟨bound, bounded⟩
  have fits := bounded _ _ (parse_chain bound) (.chain bound) (List.mem_singleton_self _)
  rw [Filter.height_chain] at fits
  exact Nat.not_succ_le_self bound fits

end Templating
