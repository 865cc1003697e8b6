import Templating.Placeholder.Pattern
import Templating.Placeholder.Query

/-!
# What a template mentions

Before a template is resolved a caller may ask whether it has placeholders at
all, and which documents they name.  A query may hold placeholders in its
expression, and the documents they name count too.

`documentIndexes` lists the indexes in ascending order, each once.  An index
that is out of range names no document.  The recursion into expressions is
bounded by the length of the text, since an expression is shorter than the
placeholder that it stands in.
-/

namespace Templating

/-- Whether a text holds a placeholder of any grammar. -/
def hasPlaceholders (t : Text) : Bool :=
  holes DataPathRef.read? t ≠ [] || holes PositionalRef.read? t ≠ [] || holes QueryRef.read? t ≠ []

/-- A number put into an ascending list, unless it is there. -/
def insertAscending (n : Nat) : List Nat → List Nat
  | [] => [n]
  | m :: rest =>
      if n < m then n :: m :: rest else if n = m then m :: rest else m :: insertAscending n rest

/-- The indexes in a text and in the expressions inside it, to a depth. -/
def documentMentions : Nat → Text → List Nat
  | 0, _ => []
  | depth + 1, t =>
      (holes DataPathRef.read? t).filterMap (fun hole => Index.read? hole.2.index) ++
        (holes QueryRef.read? t).flatMap fun hole =>
          (Index.read? hole.2.index).toList ++ documentMentions depth hole.2.expression

/-- The indexes of the documents that a text names, in ascending order. -/
def documentIndexes (t : Text) : List Nat :=
  (documentMentions t.length t).foldr insertAscending []

theorem mem_insertAscending {n m : Nat} {ns : List Nat} :
    m ∈ insertAscending n ns ↔ m = n ∨ m ∈ ns := by
  induction ns with
  | nil => simp [insertAscending]
  | cons k ns ih => grind [insertAscending]

theorem pairwise_insertAscending {n : Nat} {ns : List Nat} (h : ns.Pairwise (· < ·)) :
    (insertAscending n ns).Pairwise (· < ·) := by
  induction ns with
  | nil => simp [insertAscending]
  | cons k ns ih => grind [insertAscending, mem_insertAscending, List.pairwise_cons]

example : [3, 1, 3, 2].foldr insertAscending [] = [1, 2, 3] := by decide

end Templating
