import Templating.Path.Select
import Templating.Proofs.Path.Completeness

/-!
# Concatenated expressions

An expression behind another one continues it.  A text of a path is segments
with blanks before each and behind the last.  At the seam the blanks behind the
first expression fall to the first segment of the second one, and nothing that
was read before the seam reads on behind it, because every segment begins with a
point or a bracket.

So the segments are put together, and the second expression selects from each
value that the first one selected.  The second expression must not begin with
`$`, which is read at the front of an expression only.
-/

namespace Templating.Path

open Text (Blanks Sequence)

/-- Segments behind segments, with the blanks between them. -/
theorem exists_segments_append {w behind w' behind' : Text} {p q : Path}
    (first : Sequence (Spaced SegmentText) w p) (blank : Blanks behind)
    (second : Sequence (Spaced SegmentText) w' q) (blank' : Blanks behind') :
    ∃ v b, w ++ behind ++ (w' ++ behind') = v ++ b ∧ Sequence (Spaced SegmentText) v (p ++ q) ∧
      Blanks b := by
  cases q with
  | nil =>
      cases second
      rw [List.append_nil, List.nil_append, List.append_assoc]
      exact ⟨w, behind ++ behind', rfl, first, blank.append blank'⟩
  | cons s q =>
      refine ⟨w ++ (behind ++ w'), behind', ?_, ?_, blank'⟩
      · simp only [List.append_assoc]
      · exact first.append (sequence_blanks blank (List.cons_ne_nil s q) second)

theorem PathText.append {first second : Text} {p q : Path} (left : PathText first p)
    (right : PathText second q) (unrooted : (Text.skipBlanks second).head? ≠ some '$') :
    PathText (first ++ second) (p ++ q) := by
  cases right with
  | rooted before _ _ =>
      rw [Text.skipBlanks_append before, Text.skipBlanks_cons rfl] at unrooted
      exact absurd rfl unrooted
  | bare second blank' =>
      cases left with
      | rooted before first blank =>
          obtain ⟨v, b, joined, segments, behind⟩ :=
            exists_segments_append first blank second blank'
          rw [List.append_assoc, List.cons_append, joined]
          exact .rooted before segments behind
      | bare first blank =>
          obtain ⟨v, b, joined, segments, behind⟩ :=
            exists_segments_append first blank second blank'
          rw [joined]
          exact .bare segments behind

/-- A concatenation of expressions is read as the concatenation of their paths,
and picks, in order, what the second expression picks from each value that the
first one picks. -/
theorem query_append {first second : Text} {p q : Path} (left : parse first = .ok p)
    (right : parse second = .ok q) (unrooted : (Text.skipBlanks second).head? ≠ some '$') :
    parse (first ++ second) = .ok (p ++ q) ∧
      ∀ root, ∃ reached, ∃ picked : Value → List Value,
        query root first = .ok reached ∧ (∀ v, query v second = .ok (picked v)) ∧
          query root (first ++ second) = .ok (reached.flatMap picked) := by
  have joined : parse (first ++ second) = .ok (p ++ q) :=
    parse_of_pathText ((pathText_of_parse left).append (pathText_of_parse right) unrooted)
  refine ⟨joined, fun root => ⟨select p root, select q, ?_, fun v => ?_, ?_⟩⟩
  · rw [query, left]
    rfl
  · rw [query, right]
    rfl
  · rw [query, joined, ← select_append]
    rfl

theorem query_append_seam :
    parse (['$', '.', '.', 'a', ' '] ++ [' ', '[', '0', ']']) =
        .ok ([.descendant (.step (.name ['a']))] ++ [.child (.step (.index 0))]) ∧
      ∀ root, ∃ reached, ∃ picked : Value → List Value,
        query root ['$', '.', '.', 'a', ' '] = .ok reached ∧
          (∀ v, query v [' ', '[', '0', ']'] = .ok (picked v)) ∧
            query root (['$', '.', '.', 'a', ' '] ++ [' ', '[', '0', ']']) =
              .ok (reached.flatMap picked) :=
  query_append rfl rfl (by decide)

end Templating.Path
