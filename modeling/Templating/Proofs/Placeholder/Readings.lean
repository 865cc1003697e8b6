import Templating.Placeholder.Printer
import Templating.Proofs.Placeholder.Anatomy
import Templating.Proofs.Placeholder.Spans

/-!
# Readings of a query

The grammar of queries does not say which quote closes an expression, nor which one
closes a fallback.  So a text may be read as a query in several ways from one place.
`Reading` is the grammar without a choice.

All readings from one place have the same index and the same opening quote.  The reader
takes the one with the shortest expression, and of these the one with the shortest
fallback (`Reading.least_of_read?`).  It fails only where there is none
(`read?_eq_none_iff`).

With what `Spans` says of places, the queries found in a text are all there are, from
left to right, apart from those that begin inside another (`located_readings`).
-/

namespace Templating

open Text (Blanks byteSize)

/-- No text that can be closed is shorter than the one that is closed. -/
theorem prefix_of_readUntil? {α : Type} {quote : Char} {behind : Text → Option α} {a : α}
    {t text text' u : Text} (h : readUntil? quote behind t = some (text, a))
    (split : t = text' ++ quote :: u) (closes : behind u ≠ none) : text <+: text' := by
  obtain ⟨v, split', -, before⟩ := readUntil?_eq_some_iff.mp h
  rcases List.append_eq_append_iff.mp (split'.symm.trans split) with
    ⟨more, rfl, -⟩ | ⟨inside, longer, same⟩
  · exact List.prefix_append text more
  · cases inside with
    | nil =>
        rw [List.append_nil] at longer
        exact longer ▸ List.prefix_rfl
    | cons c inside =>
        -- The quote behind the other text stands inside this one and was tried first.
        obtain ⟨rfl, rfl⟩ := List.cons.inj same
        exact absurd (before text' inside longer) closes

namespace QueryRef

/-! ## The grammar -/

/-- A fallback in its bracket, up to the brace. -/
inductive FallbackReading (text : Text) : Text → Prop where
  | intro {b b' b'' : Text} {quote : Char} :
      Blanks b → Blanks b' → Blanks b'' → isQuote quote = true →
        FallbackReading text
          (b ++ '[' :: (b' ++ quote :: (text ++ quote :: (b'' ++ [']', '}']))))

/-- What is behind the expression and its quote, up to the brace. -/
inductive EndReading : Option Text → Text → Prop where
  | bare {b : Text} : Blanks b → EndReading none (b ++ [']', '}'])
  | fallback {b text w : Text} :
      Blanks b → FallbackReading text w → EndReading (some text) (b ++ ']' :: w)

/-- A text is a query that says so, by some choice of the closing quotes. -/
inductive Reading (ref : QueryRef) : Text → Prop where
  | intro {front tail : Text} {quote : Char} :
      FrontText ref.index front → isQuote quote = true → EndReading ref.fallback tail →
        Reading ref (front ++ quote :: (ref.expression ++ quote :: tail))

/-- A query is nowhere longer than another from the same place.  The fallbacks are
compared if the expressions are the same. -/
structure Least (ref ref' : QueryRef) : Prop where
  /-- The indexes are the same. -/
  index : ref.index = ref'.index
  /-- The expression begins the other one. -/
  expression : ref.expression <+: ref'.expression
  /-- There are both fallbacks or none, and the first begins the other one. -/
  fallback : ref.expression = ref'.expression → Option.Rel (· <+: ·) ref.fallback ref'.fallback

/-! ## Ends -/

theorem FallbackText.reading {text w : Text} (h : FallbackText text w) :
    FallbackReading text w := by
  cases h with
  | intro blank blank' blank'' isQ _ => exact .intro blank blank' blank'' isQ

theorem EndText.reading {fallback : Option Text} {w : Text} (h : EndText fallback w) :
    EndReading fallback w := by
  cases h with
  | bare blank => exact .bare blank
  | fallback blank isFallback => exact .fallback blank isFallback.reading

/-- Where a fallback can be read, one is read, and none that can be read is shorter. -/
theorem FallbackReading.exists_read {text w : Text} (h : FallbackReading text w) (rest : Text) :
    ∃ least behind, readBracketed? readFallbackEnd? (w ++ rest) = some (least, behind) ∧
      least <+: text := by
  obtain @⟨b, b', b'', quote, blank, blank', blank'', isQ⟩ := h
  have opened : readOpeningQuote?
      (b ++ '[' :: (b' ++ quote :: (text ++ quote :: (b'' ++ [']', '}']))) ++ rest) =
        some (quote, text ++ quote :: (b'' ++ ']' :: '}' :: rest)) :=
    readOpeningQuote?_eq_some_iff.mpr ⟨b, b', blank, blank', isQ, by simp⟩
  have closed : readFallbackEnd? (b'' ++ ']' :: '}' :: rest) ≠ none := by
    rw [readFallbackEnd?_eq_some_iff.mpr ⟨b'', blank'', rfl⟩]
    exact Option.some_ne_none rest
  rw [readBracketed?_eq, opened, Option.bind_some]
  cases read : readUntil? quote readFallbackEnd? (text ++ quote :: (b'' ++ ']' :: '}' :: rest)) with
  | none => exact absurd (readUntil?_eq_none_iff.mp read text _ rfl) closed
  | some found => exact ⟨found.1, found.2, read, prefix_of_readUntil? read rfl closed⟩

/-- Where an end can be read, one is read, and none that can be read is shorter. -/
theorem EndReading.exists_read {fallback : Option Text} {w : Text} (h : EndReading fallback w)
    (rest : Text) :
    ∃ least behind, readEnd? (w ++ rest) = some (least, behind) ∧
      Option.Rel (· <+: ·) least fallback := by
  cases h with
  | @bare b blank =>
      exact ⟨none, rest, readEnd?_eq_some_iff.mpr ⟨_, .bare blank, rfl⟩, .none⟩
  | @fallback b text w blank reading =>
      obtain ⟨least, behind, read, shorter⟩ := reading.exists_read rest
      refine ⟨some least, behind, ?_, .some shorter⟩
      rw [List.append_assoc, List.cons_append, readEnd?_eq blank, read]

/-! ## Whole queries -/

/-- What is read is a reading of what it covers. -/
theorem reading_of_read? {w rest : Text} {ref : QueryRef}
    (h : read? (w ++ rest) = some (ref, rest)) : Reading ref w := by
  obtain ⟨parts⟩ := exists_parts h
  obtain ⟨tail, ends, split⟩ := readEnd?_eq_some_iff.mp parts.ends
  rw [parts.written_eq, List.append_cancel_right split]
  exact .intro parts.isFront parts.isQuote ends.reading

/-- Where a query can be read, one is read, and none that can be read is shorter. -/
theorem Reading.exists_read {ref : QueryRef} {w : Text} (h : Reading ref w) (rest : Text) :
    ∃ least behind, read? (w ++ rest) = some (least, behind) ∧ least.Least ref := by
  obtain @⟨front, tail, quote, isFront, isQ, ends⟩ := h
  obtain ⟨fallback, behind, read, shorter⟩ := ends.exists_read rest
  have closes : readEnd? (tail ++ rest) ≠ none := by
    rw [read]
    exact Option.some_ne_none _
  have split : front ++ quote :: (ref.expression ++ quote :: tail) ++ rest =
      front ++ quote :: (ref.expression ++ quote :: (tail ++ rest)) := by simp
  rw [split, read?_front isFront isQ]
  cases found : readUntil? quote readEnd? (ref.expression ++ quote :: (tail ++ rest)) with
  | none => exact absurd (readUntil?_eq_none_iff.mp found _ _ rfl) closes
  | some answer =>
      obtain ⟨expression, fallback', behind'⟩ := answer
      refine ⟨⟨ref.index, expression, fallback'⟩, behind', rfl, rfl,
        prefix_of_readUntil? found rfl closes, fun same => ?_⟩
      -- With the same expression the same end is read.
      obtain ⟨u, split, ending, -⟩ := readUntil?_eq_some_iff.mp found
      have same : expression = ref.expression := same
      rw [same, List.append_cancel_left_eq] at split
      rw [← (List.cons.inj split).2, read] at ending
      cases ending
      exact shorter

/-- No reading from the same place is shorter than the query that is read. -/
theorem Reading.least_of_read? {ref ref' : QueryRef} {t rest w : Text}
    (h : read? t = some (ref, rest)) (reading : Reading ref' w) (here : w <+: t) :
    ref.Least ref' := by
  obtain ⟨rest', rfl⟩ := here
  obtain ⟨least, behind, read, shorter⟩ := reading.exists_read rest'
  cases h.symm.trans read
  exact shorter

/-- Nothing is read just where there is no reading. -/
theorem read?_eq_none_iff {t : Text} :
    read? t = none ↔ ∀ ref w, w <+: t → ¬ Reading ref w := by
  constructor
  · rintro none ref w ⟨rest, rfl⟩ reading
    obtain ⟨least, behind, read, -⟩ := reading.exists_read rest
    cases none.symm.trans read
  · refine fun unread => Option.eq_none_iff_forall_ne_some.mpr fun (ref, rest) found => ?_
    obtain ⟨c, covered, rfl⟩ := read?_forward found
    exact unread ref (c :: covered) ⟨rest, rfl⟩ (reading_of_read? found)

/-! ## Queries in a text -/

/-- The queries found in a text stand one behind the other.  Each is a reading of the text
from where its span begins to where it ends, and no reading from there is shorter.  Where
an opening is not covered by a span, there is no reading. -/
theorem located_readings (t : Text) :
    (located read? t).Pairwise (fun hole later => hole.1.stop ≤ later.1.start) ∧
    (∀ hole ∈ located read? t, ∃ before w rest, t = before ++ (w ++ rest) ∧
      hole.1.start = byteSize before ∧ hole.1.stop = hole.1.start + byteSize w ∧
      hole.1.start < hole.1.stop ∧ Reading hole.2 w ∧
      ∀ ref' w', w' <+: w ++ rest → Reading ref' w' → hole.2.Least ref') ∧
    ∀ before behind, t = before ++ (opening ++ behind) →
      (∀ hole ∈ located read? t, ¬ hole.1.Covers (byteSize before)) →
        ∀ ref' w', w' <+: opening ++ behind → ¬ Reading ref' w' := by
  refine ⟨pairwise_located read? t, fun hole member => ?_, fun before behind split uncovered => ?_⟩
  · obtain ⟨before, w, rest, split, start, stop, found⟩ :=
      exists_of_mem_located read?_forward member
    have nonempty : hole.1.start < hole.1.stop := by
      obtain ⟨c, covered, same⟩ := read?_forward found
      obtain rfl : w = c :: covered := List.append_cancel_right same
      have positive := Char.utf8Size_pos c
      rw [stop, Text.byteSize_cons]
      omega
    exact ⟨before, w, rest, split, start, stop, nonempty, reading_of_read? found,
      fun ref' w' here reading => reading.least_of_read? found here⟩
  · exact read?_eq_none_iff.mp (read_eq_none_of_uncovered read?_forward split uncovered)

/-- An opening without a reading, and behind it a query whose expression goes on behind a
quote and a bracket. -/
theorem located_readings_falseEnding :
    let ref : QueryRef := ⟨['0'], ['.', 'a', '\'', ']', 'b'], none⟩
    let t := opening ++ ref.write '\'' '\''
    located read? t = [(⟨14, 40⟩, ref)] ∧
      (∃ before w rest, t = before ++ (w ++ rest) ∧ byteSize before = 14 ∧ Reading ref w ∧
        ∀ ref' w', w' <+: w ++ rest → Reading ref' w' → ref.Least ref') ∧
      ∀ ref' w', w' <+: t → ¬ Reading ref' w' := by
  intro ref t
  have found : located read? t = [(⟨14, 40⟩, ref)] := by decide +kernel
  obtain ⟨-, each, elsewhere⟩ := located_readings t
  have uncovered : ∀ hole ∈ located read? t, ¬ hole.1.Covers (byteSize []) := by
    intro hole member covered
    rw [found] at member
    obtain rfl := List.mem_singleton.mp member
    exact absurd covered.1 (by decide)
  refine ⟨found, ?_, elsewhere [] (ref.write '\'' '\'') rfl uncovered⟩
  obtain ⟨before, w, rest, split, start, -, -, reading, least⟩ :=
    each (⟨14, 40⟩, ref) (found ▸ List.mem_singleton_self _)
  exact ⟨before, w, rest, split, start.symm, reading, least⟩

end QueryRef

end Templating
