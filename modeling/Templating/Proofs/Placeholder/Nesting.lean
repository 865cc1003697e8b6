import Templating.Placeholder.Mention
import Templating.Placeholder.Printer
import Templating.Proofs.Placeholder.Anatomy
import Templating.Proofs.Resolve.PassBound

/-!
# Queries inside queries

An expression goes up to the first quote of its kind behind which an end can be
read.  So there is no such quote inside it, and the expression is *unclosed* for
its quote (`Unclosed`, `Parts.unclosed`).

A query inside the expression brings a quote with an end behind it.  So it uses
the other quote (`exists_quote_of_mem_holes`).  Its own expression is unclosed for
both quotes, and there are only two.  So it holds no query
(`holes_eq_nil_of_unclosed`).

As written, then, queries stand in queries at most once (`nesting_as_written`).
The documents that a text names are all named on three levels: in the text, in
the expressions of its queries and in the expressions inside these.  A resolution
finds queries deeper down only where it has replaced some.
-/

namespace Templating.QueryRef

/-! ## Unclosed texts -/

/-- No end can be read behind a quote of this kind within the text. -/
def Unclosed (quote : Char) (t : Text) : Prop := ∀ x y, t = x ++ quote :: y → readEnd? y = none

theorem Unclosed.middle {quote : Char} {x t y : Text} (h : Unclosed quote (x ++ (t ++ y))) :
    Unclosed quote t := by
  intro x' y' split
  apply readEnd?_eq_none_of_append (s := y)
  exact h (x ++ x') (y' ++ y) (by simp [split])

/-- The expression of a query is unclosed for the quote around it. -/
theorem Parts.unclosed {written rest : Text} {ref : QueryRef} (parts : Parts written rest ref) :
    Unclosed parts.quote ref.expression := by
  intro x y split
  exact readEnd?_eq_none_of_append (parts.shortest x y split)

/-! ## Queries in an unclosed text -/

/-- A query in a text that is unclosed for a quote uses the other one.  Its
expression is unclosed for both. -/
theorem exists_quote_of_mem_holes {quote : Char} {t w : Text} {ref : QueryRef}
    (unclosed : Unclosed quote t) (h : (w, ref) ∈ holes read? t) :
    ∃ quote', isQuote quote' = true ∧ quote? w = some quote' ∧ quote' ≠ quote ∧
      Unclosed quote ref.expression ∧ Unclosed quote' ref.expression := by
  obtain ⟨before, rest, split, found⟩ := exists_of_mem_holes read?_forward h
  obtain ⟨parts⟩ := exists_parts found
  have whole : t = (before ++ parts.front ++ parts.quote :: ref.expression) ++
      parts.quote :: (parts.tail ++ rest) := by
    have shape := congrArg (fun u => before ++ (u ++ rest)) parts.written_eq
    simpa [split] using shape
  refine ⟨parts.quote, parts.isQuote, parts.quote?_eq, ?_, ?_, parts.unclosed⟩
  · intro same
    have noEnd := unclosed _ _ (same ▸ whole)
    rw [parts.ends] at noEnd
    cases noEnd
  · refine Unclosed.middle (x := before ++ parts.front ++ [parts.quote])
      (y := parts.quote :: (parts.tail ++ rest)) ?_
    rw [whole] at unclosed
    simpa using unclosed

/-- A text that is unclosed for both quotes holds no query. -/
theorem holes_eq_nil_of_unclosed {t : Text}
    (unclosed : ∀ quote, isQuote quote = true → Unclosed quote t) : holes read? t = [] := by
  refine List.eq_nil_iff_forall_not_mem.mpr fun ⟨w, ref⟩ member => ?_
  obtain ⟨before, rest, -, found⟩ := exists_of_mem_holes read?_forward member
  obtain ⟨parts⟩ := exists_parts found
  obtain ⟨quote', -, here, other, -⟩ :=
    exists_quote_of_mem_holes (unclosed parts.quote parts.isQuote) member
  rw [parts.quote?_eq] at here
  exact other (Option.some.inj here).symm

/-- There are only two quotes. -/
theorem eq_or_eq_of_isQuote {a b c : Char} (isA : isQuote a = true) (isB : isQuote b = true)
    (other : b ≠ a) (isC : isQuote c = true) : c = a ∨ c = b := by
  simp only [isQuote, Bool.or_eq_true, beq_iff_eq] at isA isB isC
  grind

/-- A query in the expression of a query uses the other quote and holds no query
itself. -/
theorem nested_of_mem_holes {t : Text} {outer inner : Text × QueryRef}
    (isOuter : outer ∈ holes read? t) (isInner : inner ∈ holes read? outer.2.expression) :
    (∃ quote quote', quote? outer.1 = some quote ∧ quote? inner.1 = some quote' ∧
        quote' ≠ quote) ∧
      holes read? inner.2.expression = [] := by
  obtain ⟨before, rest, -, found⟩ := exists_of_mem_holes read?_forward isOuter
  obtain ⟨parts⟩ := exists_parts found
  obtain ⟨quote', isQ, here, other, unclosed, unclosed'⟩ :=
    exists_quote_of_mem_holes parts.unclosed isInner
  refine ⟨⟨parts.quote, quote', parts.quote?_eq, here, other⟩, ?_⟩
  refine holes_eq_nil_of_unclosed fun c isC => ?_
  rcases eq_or_eq_of_isQuote parts.isQuote isQ other isC with rfl | rfl
  · exact unclosed
  · exact unclosed'

/-! ## Levels of mentions -/

/-- A level more or less makes no difference where it makes none to the
expressions. -/
theorem documentMentions_congr {depth depth' : Nat} {t : Text}
    (h : ∀ hole ∈ holes read? t,
      documentMentions depth hole.2.expression = documentMentions depth' hole.2.expression) :
    documentMentions (depth + 1) t = documentMentions (depth' + 1) t := by
  have each : (holes read? t).map (fun hole =>
        (Index.read? hole.2.index).toList ++ documentMentions depth hole.2.expression) =
      (holes read? t).map fun hole =>
        (Index.read? hole.2.index).toList ++ documentMentions depth' hole.2.expression :=
    List.map_congr_left fun hole member => by rw [h hole member]
  simp only [documentMentions, List.flatMap_def, each]

/-- Three levels have every mention. -/
theorem documentMentions_add_three (n : Nat) (t : Text) :
    documentMentions (n + 3) t = documentMentions 3 t := by
  refine documentMentions_congr fun outer isOuter => ?_
  refine documentMentions_congr fun inner isInner => ?_
  refine documentMentions_congr fun hole isHole => ?_
  rw [(nested_of_mem_holes isOuter isInner).2] at isHole
  cases isHole

/-- A text with a query is longer than the opening of one. -/
theorem length_of_mem_holes {t : Text} {hole : Text × QueryRef} (h : hole ∈ holes read? t) :
    opening.length ≤ t.length := by
  obtain ⟨before, rest, split, found⟩ := exists_of_mem_holes read?_forward h
  obtain ⟨w, quote, v, ⟨-, -, -, -⟩, -, front⟩ := exists_front found
  rw [split, front]
  simp only [List.length_append]
  omega

theorem documentIndexes_eq (t : Text) :
    documentIndexes t = (documentMentions 3 t).foldr insertAscending [] := by
  rw [documentIndexes]
  match t with
  | [] => rfl
  | c :: t =>
      cases query : holes read? (c :: t) with
      | nil =>
          have alike : documentMentions (t.length + 1) (c :: t) = documentMentions 3 (c :: t) := by
            refine documentMentions_congr fun hole member => ?_
            rw [query] at member
            cases member
          rw [List.length_cons, alike]
      | cons hole later =>
          have long : opening.length ≤ (c :: t).length :=
            length_of_mem_holes (query ▸ List.mem_cons_self)
          obtain ⟨n, length⟩ : ∃ n, (c :: t).length = n + 3 :=
            Nat.exists_eq_add_of_le' (Nat.le_trans (by decide) long)
          rw [length, documentMentions_add_three]

/-! ## Nesting as written -/

/-- As written, queries stand in queries at most once, the inner ones with the
other quote.  What is below them names no further document, and a resolution of
it has nothing to do at any level. -/
theorem nesting_as_written (t : Text) :
    (∀ outer ∈ holes read? t, ∀ inner ∈ holes read? outer.2.expression,
      (∃ quote quote', quote? outer.1 = some quote ∧ quote? inner.1 = some quote' ∧
          quote' ≠ quote) ∧
        holes read? inner.2.expression = [] ∧
        ∀ env levels, settled env (queryPass env levels) inner.2.expression =
          .ofText inner.2.expression) ∧
      (∀ n, documentMentions (n + 3) t = documentMentions 3 t) ∧
      documentIndexes t = (documentMentions 3 t).foldr insertAscending [] := by
  refine ⟨fun outer isOuter inner isInner => ?_, fun n => documentMentions_add_three n t,
    documentIndexes_eq t⟩
  obtain ⟨quotes, none⟩ := nested_of_mem_holes isOuter isInner
  exact ⟨quotes, none, fun env levels =>
    settle_of_holes_eq_nil (queryPass_idle env levels) _ _ none⟩

/-- A query on the first document inside the expression of a query on the
second. -/
theorem nesting_as_written_pair :
    let inside := write '\'' '\'' ⟨['0'], ['.', 'a'], none⟩
    let t := write '"' '"' ⟨['1'], '.' :: inside, none⟩
    ∃ outer ∈ holes read? t, ∃ inner ∈ holes read? outer.2.expression,
      inner.1 = inside ∧
        (∃ quote quote', quote? outer.1 = some quote ∧ quote? inner.1 = some quote' ∧
          quote' ≠ quote) ∧
        holes read? inner.2.expression = [] ∧
        documentIndexes t = (documentMentions 3 t).foldr insertAscending [] := by
  intro inside t
  have isOuter : (t, ⟨['1'], '.' :: inside, none⟩) ∈ holes read? t := by decide +kernel
  have isInner : (inside, ⟨['0'], ['.', 'a'], none⟩) ∈ holes read? ('.' :: inside) := by
    decide +kernel
  obtain ⟨quotes, none, -⟩ := (nesting_as_written t).1 _ isOuter _ isInner
  exact ⟨_, isOuter, _, isInner, rfl, quotes, none, (nesting_as_written t).2.2⟩

end Templating.QueryRef
