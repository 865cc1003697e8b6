import Mathlib.Data.Option.Basic
import Templating.Proofs.Placeholder.Cutting
import Templating.Proofs.Placeholder.Extent
import Templating.Proofs.Text.Boundary

/-!
# The parts of a query

A query is a *front*, a quote, its expression, the same quote, and an *end*.  The
front goes up to the first quote and holds none (`FrontText`).  The end may hold a
fallback.

Where the expression ends is found by trying its quotes from left to right, and
so is where a fallback ends.  `readUntil?_eq_some_iff` says which quote is taken:
one behind which the rest can be read, with none before it of that kind.

A reader of an end goes by the first characters that are no blanks.  So most
characters are enough to settle what it reads from the text before them,
whatever follows (`readFallbackEnd?_append_cons`).  An end is read just where an
end is written, whatever follows (`readEnd?_eq_some_iff`), and so is a front
(`read?_front`).  Nothing like that holds of an end that was not read, since a
fallback may be opened in it that only later text closes.
-/

namespace Templating

open Text (Blanks)

/-! ## Closing quotes -/

section ClosingQuotes

variable {α : Type} {quote : Char} {behind : Text → Option α}

theorem readUntil?_closed {t : Text} {a : α} (closed : behind t = some a) :
    readUntil? quote behind (quote :: t) = some ([], a) := by
  rw [readUntil?, if_pos rfl, closed]

theorem readUntil?_open {c : Char} {t : Text} (goesOn : c = quote → behind t = none) :
    readUntil? quote behind (c :: t) =
      (readUntil? quote behind t).map fun (text, a) => (c :: text, a) := by
  rw [readUntil?]
  by_cases same : c = quote
  · rw [if_pos same, goesOn same]
  · rw [if_neg same]

/-- A text is not closed when nothing can be read behind any of its quotes. -/
theorem readUntil?_eq_none_iff {t : Text} :
    readUntil? quote behind t = none ↔ ∀ x y, t = x ++ quote :: y → behind y = none := by
  induction t with
  | nil =>
      refine ⟨fun _ x y split => ?_, fun _ => rfl⟩
      exact absurd split.symm (List.append_ne_nil_of_right_ne_nil x (List.cons_ne_nil quote y))
  | cons c t ih =>
      by_cases goesOn : c = quote → behind t = none
      · rw [readUntil?_open goesOn, Option.map_eq_none_iff, ih]
        constructor
        · intro later x y split
          cases x with
          | nil =>
              obtain ⟨same, rfl⟩ := List.cons.inj split
              exact goesOn same
          | cons d x => exact later x y (List.cons.inj split).2
        · intro every x y split
          exact every (c :: x) y (by rw [split, List.cons_append])
      · obtain ⟨rfl, some⟩ := Classical.not_imp.mp goesOn
        obtain ⟨a, closed⟩ := Option.ne_none_iff_exists'.mp some
        rw [readUntil?_closed closed]
        refine ⟨fun h => (Option.some_ne_none _ h).elim, fun every => ?_⟩
        exact absurd (every [] t rfl) some

/-- A text is closed by its first quote behind which the rest can be read. -/
theorem readUntil?_eq_some_iff {t text : Text} {a : α} :
    readUntil? quote behind t = some (text, a) ↔
      ∃ u, t = text ++ quote :: u ∧ behind u = some a ∧
        ∀ x y, text = x ++ quote :: y → behind (y ++ quote :: u) = none := by
  induction t generalizing text with
  | nil =>
      constructor
      · intro h
        cases h
      · rintro ⟨u, split, -⟩
        exact absurd split.symm (List.append_ne_nil_of_right_ne_nil text (List.cons_ne_nil quote u))
  | cons c t ih =>
      by_cases goesOn : c = quote → behind t = none
      · rw [readUntil?_open goesOn]
        constructor
        · intro h
          obtain ⟨⟨text', a'⟩, later, same⟩ := Option.map_eq_some_iff.mp h
          cases same
          obtain ⟨u, split, closed, before⟩ := ih.mp later
          refine ⟨u, by rw [split, List.cons_append], closed, fun x y inside => ?_⟩
          cases x with
          | nil =>
              obtain ⟨same, rfl⟩ := List.cons.inj inside
              rw [← split]
              exact goesOn same
          | cons d x => exact before x y (List.cons.inj inside).2
        · rintro ⟨u, split, closed, before⟩
          cases text with
          | nil =>
              obtain ⟨same, rfl⟩ := List.cons.inj split
              rw [goesOn same] at closed
              cases closed
          | cons d text =>
              obtain ⟨rfl, rest⟩ := List.cons.inj split
              have later := ih.mpr ⟨u, rest, closed, fun x y inside =>
                before (c :: x) y (by rw [inside, List.cons_append])⟩
              rw [later]
              rfl
      · obtain ⟨rfl, some⟩ := Classical.not_imp.mp goesOn
        obtain ⟨b, closes⟩ := Option.ne_none_iff_exists'.mp some
        rw [readUntil?_closed closes]
        constructor
        · intro h
          cases h
          refine ⟨t, rfl, closes, fun x y inside => ?_⟩
          exact absurd inside.symm (List.append_ne_nil_of_right_ne_nil x (List.cons_ne_nil c y))
        · rintro ⟨u, split, closed, before⟩
          cases text with
          | nil =>
              obtain ⟨-, rfl⟩ := List.cons.inj split
              rw [closes] at closed
              rw [Option.some.inj closed]
          | cons d text =>
              obtain ⟨rfl, rfl⟩ := List.cons.inj split
              exact absurd (before [] text rfl) some

/-- A text without its quote is closed by the first one. -/
theorem readUntil?_of_notMem {text u : Text} {a : α} (unquoted : quote ∉ text)
    (closed : behind u = some a) :
    readUntil? quote behind (text ++ quote :: u) = some (text, a) := by
  refine readUntil?_eq_some_iff.mpr ⟨u, rfl, closed, fun x y inside => ?_⟩
  rw [inside] at unquoted
  simp at unquoted

end ClosingQuotes

/-! ## Opening quotes -/

theorem Text.skipBlanks_append_cons {c : Char} (solid : isBlank c = false) (v s : Text) :
    Text.skipBlanks (v ++ c :: s) = Text.skipBlanks v ++ c :: s := by
  obtain ⟨b, blank, split⟩ := Text.exists_blanks v
  cases rest : Text.skipBlanks v with
  | nil =>
      rw [rest, List.append_nil] at split
      rw [split, Text.skipBlanks_append blank, Text.skipBlanks_cons solid, List.nil_append]
  | cons d u =>
      rw [rest] at split
      rw [split, List.append_assoc, Text.skipBlanks_append blank, List.cons_append,
        Text.skipBlanks_cons (Text.isBlank_of_skipBlanks rest)]

/-- Reads the bracket and the quote that open a text in a bracket.  Gives the
quote and what is behind it. -/
def readOpeningQuote? (t : Text) : Option (Char × Text) :=
  match Text.skipBlanks t with
  | '[' :: t =>
      match Text.skipBlanks t with
      | [] => none
      | quote :: t => if isQuote quote then some (quote, t) else none
  | _ => none

/-- A text in a bracket is read from behind its opening quote. -/
theorem readBracketed?_eq {α : Type} (behind : Text → Option α) (t : Text) :
    readBracketed? behind t =
      (readOpeningQuote? t).bind fun (quote, u) => readUntil? quote behind u := by
  rw [readBracketed?, readOpeningQuote?]
  cases Text.skipBlanks t with
  | nil => rfl
  | cons c v =>
      by_cases bracket : c = '['
      · subst bracket
        simp only
        cases Text.skipBlanks v with
        | nil => rfl
        | cons quote u =>
            by_cases isQ : isQuote quote = true
            · simp only [if_pos isQ, Option.bind_some]
            · simp only [if_neg isQ, Option.bind_none]
      · simp [bracket]

theorem readOpeningQuote?_eq_some_iff {t u : Text} {quote : Char} :
    readOpeningQuote? t = some (quote, u) ↔
      ∃ b b', Blanks b ∧ Blanks b' ∧ isQuote quote = true ∧ t = b ++ '[' :: (b' ++ quote :: u) := by
  constructor
  · intro h
    rw [readOpeningQuote?] at h
    split at h
    next v opened =>
      split at h
      next => cases h
      next c w quoted =>
        split at h
        next isQ =>
          cases h
          obtain ⟨b, blank, split⟩ := Text.exists_blanks t
          obtain ⟨b', blank', split'⟩ := Text.exists_blanks v
          exact ⟨b, b', blank, blank', isQ, by rw [split, opened, split', quoted]⟩
        next => cases h
    next => cases h
  · rintro ⟨b, b', blank, blank', isQ, rfl⟩
    have bracket (t : Text) : Text.skipBlanks ('[' :: t) = '[' :: t := Text.skipBlanks_cons rfl t
    simp only [readOpeningQuote?, Text.skipBlanks_append blank, bracket,
      Text.skipBlanks_append blank', Text.skipBlanks_cons (isBlank_of_isQuote isQ), if_pos isQ]

/-- A character that is no blank and no bracket settles what is opened before
it. -/
theorem readOpeningQuote?_append_cons {c : Char} (solid : isBlank c = false) (other : c ≠ '[')
    (v s : Text) :
    readOpeningQuote? (v ++ c :: s) =
      (readOpeningQuote? (v ++ [c])).map fun (quote, u) => (quote, u ++ s) := by
  simp only [readOpeningQuote?, Text.skipBlanks_append_cons solid]
  cases Text.skipBlanks v with
  | nil =>
      simp only [List.nil_append]
      split
      next same => exact absurd (List.cons.inj same).1 other
      next =>
        split
        next same => exact absurd (List.cons.inj same).1 other
        next => rfl
  | cons d w =>
      simp only [List.cons_append]
      by_cases bracket : d = '['
      · subst bracket
        simp only [Text.skipBlanks_append_cons solid]
        cases Text.skipBlanks w with
        | nil =>
            simp only [List.nil_append]
            by_cases isQ : isQuote c = true
            · simp only [if_pos isQ, Option.map_some, List.nil_append]
            · simp only [if_neg isQ, Option.map_none]
        | cons e w =>
            simp only [List.cons_append]
            by_cases isQ : isQuote e = true
            · simp only [if_pos isQ, Option.map_some, List.append_assoc, List.cons_append,
                List.nil_append]
            · simp only [if_neg isQ, Option.map_none]
      · split
        next same => exact absurd (List.cons.inj same).1 bracket
        next =>
          split
          next same => exact absurd (List.cons.inj same).1 bracket
          next => rfl

namespace QueryRef

/-! ## Ends -/

theorem readFallbackEnd?_eq_some_iff {t rest : Text} :
    readFallbackEnd? t = some rest ↔ ∃ b, Blanks b ∧ t = b ++ ']' :: '}' :: rest := by
  rw [readFallbackEnd?, Text.after?_eq_some_iff]
  constructor
  · intro closed
    obtain ⟨b, blank, split⟩ := Text.exists_blanks t
    exact ⟨b, blank, by rw [split, closed]; rfl⟩
  · rintro ⟨b, blank, rfl⟩
    rw [Text.skipBlanks_append blank, Text.skipBlanks_cons rfl]
    rfl

/-- A character that is no blank and no bracket settles whether a fallback ends
before it. -/
theorem readFallbackEnd?_append_cons {c : Char} (solid : isBlank c = false) (other : c ≠ ']')
    (v s : Text) :
    readFallbackEnd? (v ++ c :: s) = (readFallbackEnd? (v ++ [c])).map (· ++ s) := by
  simp only [readFallbackEnd?, Text.skipBlanks_append_cons solid]
  match Text.skipBlanks v with
  | [] => simp only [List.nil_append, Text.after?, Ne.symm other, ↓reduceIte, Option.map_none]
  | [d] =>
      simp only [List.cons_append, List.nil_append, Text.after?]
      by_cases closes : ']' = d
      · by_cases ends : '}' = c
        · simp only [if_pos closes, if_pos ends, Option.map_some, List.nil_append]
        · simp only [if_pos closes, if_neg ends, Option.map_none]
      · simp only [if_neg closes, Option.map_none]
  | d :: e :: w =>
      simp only [List.cons_append, Text.after?]
      by_cases closes : ']' = d
      · by_cases ends : '}' = e
        · simp only [if_pos closes, if_pos ends, Option.map_some, List.append_assoc,
            List.cons_append, List.nil_append]
        · simp only [if_pos closes, if_neg ends, Option.map_none]
      · simp only [if_neg closes, Option.map_none]

/-- A quote settles whether a fallback ends before it. -/
theorem readFallbackEnd?_append_quote {quote : Char} (isQ : isQuote quote = true) (y s : Text) :
    readFallbackEnd? (y ++ quote :: s) = none ↔ readFallbackEnd? (y ++ [quote]) = none := by
  have other : quote ≠ ']' := by
    rintro rfl
    cases isQ
  rw [readFallbackEnd?_append_cons (isBlank_of_isQuote isQ) other, Option.map_eq_none_iff]

/-- A fallback in its bracket, up to the brace.  No quote inside the fallback
closes it. -/
inductive FallbackText (text : Text) : Text → Prop where
  | intro {b b' b'' : Text} {quote : Char} :
      Blanks b → Blanks b' → Blanks b'' → isQuote quote = true →
        (∀ x y, text = x ++ quote :: y → readFallbackEnd? (y ++ [quote]) = none) →
          FallbackText text (b ++ '[' :: (b' ++ quote :: (text ++ quote :: (b'' ++ [']', '}']))))

/-- What is read as a fallback goes by the fallback alone. -/
theorem readFallback?_eq_some_iff {t text rest : Text} :
    readBracketed? readFallbackEnd? t = some (text, rest) ↔
      ∃ w, FallbackText text w ∧ t = w ++ rest := by
  constructor
  · intro h
    rw [readBracketed?_eq] at h
    obtain ⟨⟨quote, u⟩, opened, h⟩ := Option.bind_eq_some_iff.mp h
    obtain ⟨v, rfl, closed, before⟩ := readUntil?_eq_some_iff.mp h
    obtain ⟨b, b', blank, blank', isQ, rfl⟩ := readOpeningQuote?_eq_some_iff.mp opened
    obtain ⟨b'', blank'', rfl⟩ := readFallbackEnd?_eq_some_iff.mp closed
    refine ⟨_, .intro blank blank' blank'' isQ fun x y inside => ?_, by simp⟩
    exact (readFallbackEnd?_append_quote isQ y _).mp (before x y inside)
  · rintro ⟨_, @⟨b, b', b'', quote, blank, blank', blank'', isQ, before⟩, rfl⟩
    have split : b ++ '[' :: (b' ++ quote :: (text ++ quote :: (b'' ++ [']', '}']))) ++ rest =
        b ++ '[' :: (b' ++ quote :: (text ++ quote :: (b'' ++ ']' :: '}' :: rest))) := by simp
    have opened : readOpeningQuote?
        (b ++ '[' :: (b' ++ quote :: (text ++ quote :: (b'' ++ ']' :: '}' :: rest)))) =
          some (quote, text ++ quote :: (b'' ++ ']' :: '}' :: rest)) :=
      readOpeningQuote?_eq_some_iff.mpr ⟨b, b', blank, blank', isQ, rfl⟩
    have closed : readFallbackEnd? (b'' ++ ']' :: '}' :: rest) = some rest :=
      readFallbackEnd?_eq_some_iff.mpr ⟨b'', blank'', rfl⟩
    rw [split, readBracketed?_eq, opened]
    refine readUntil?_eq_some_iff.mpr ⟨_, rfl, closed, fun x y inside => ?_⟩
    exact (readFallbackEnd?_append_quote isQ y _).mpr (before x y inside)

/-- The two ways to read an end. -/
theorem readEnd?_eq {b : Text} (blank : Blanks b) (u : Text) :
    readEnd? (b ++ ']' :: u) =
      match readBracketed? readFallbackEnd? u with
      | some (fallback, rest) => some (some fallback, rest)
      | none => (Text.after? ['}'] u).map fun rest => (none, rest) := by
  rw [readEnd?, Text.skipBlanks_append blank, Text.skipBlanks_cons rfl]
  rfl

theorem exists_bracket_of_readEnd? {t : Text} {a : Option Text × Text} (h : readEnd? t = some a) :
    ∃ b u, Blanks b ∧ t = b ++ ']' :: u := by
  rw [readEnd?] at h
  split at h
  next u closed =>
    obtain ⟨b, blank, split⟩ := Text.exists_blanks t
    exact ⟨b, u, blank, by rw [split, closed]⟩
  next => cases h

theorem readEnd?_eq_none_iff {b : Text} (blank : Blanks b) (u : Text) :
    readEnd? (b ++ ']' :: u) = none ↔
      readBracketed? readFallbackEnd? u = none ∧ Text.after? ['}'] u = none := by
  rw [readEnd?_eq blank]
  cases readBracketed? readFallbackEnd? u with
  | none => simp
  | some found => simp

/-- A brace opens no fallback. -/
theorem readFallback?_brace (t : Text) : readBracketed? readFallbackEnd? ('}' :: t) = none := by
  rw [readBracketed?, Text.skipBlanks_cons rfl]
  rfl

/-- The end of a query, from behind the closing quote of its expression up to the
brace. -/
inductive EndText : Option Text → Text → Prop where
  | bare {b : Text} : Blanks b → EndText none (b ++ [']', '}'])
  | fallback {b text w : Text} :
      Blanks b → FallbackText text w → EndText (some text) (b ++ ']' :: w)

/-- What is read as an end goes by the end alone. -/
theorem readEnd?_eq_some_iff {t rest : Text} {fallback : Option Text} :
    readEnd? t = some (fallback, rest) ↔ ∃ w, EndText fallback w ∧ t = w ++ rest := by
  constructor
  · intro h
    obtain ⟨b, u, blank, rfl⟩ := exists_bracket_of_readEnd? h
    rw [readEnd?_eq blank] at h
    cases bracket : readBracketed? readFallbackEnd? u with
    | some found =>
        obtain ⟨text, rest'⟩ := found
        rw [bracket] at h
        cases h
        obtain ⟨w, isFallback, rfl⟩ := readFallback?_eq_some_iff.mp bracket
        exact ⟨_, .fallback blank isFallback, by simp⟩
    | none =>
        rw [bracket] at h
        obtain ⟨rest', brace, same⟩ := Option.map_eq_some_iff.mp h
        cases same
        rw [Text.after?_eq_some_iff.mp brace]
        exact ⟨_, .bare blank, by simp⟩
  · rintro ⟨_, ends, rfl⟩
    cases ends with
    | bare blank =>
        rw [List.append_assoc, List.cons_append, readEnd?_eq blank, List.singleton_append,
          readFallback?_brace]
        rfl
    | fallback blank isFallback =>
        rw [List.append_assoc, List.cons_append, readEnd?_eq blank,
          readFallback?_eq_some_iff.mpr ⟨_, isFallback, rfl⟩]

theorem FallbackText.exists_brace {text w : Text} (isFallback : FallbackText text w) :
    ∃ v, w = v ++ ['}'] := by
  obtain @⟨b, b', b'', quote, -, -, -, -, -⟩ := isFallback
  exact ⟨b ++ '[' :: (b' ++ quote :: (text ++ quote :: (b'' ++ [']']))), by simp⟩

theorem EndText.exists_brace {fallback : Option Text} {w : Text} (ends : EndText fallback w) :
    ∃ v, w = v ++ ['}'] := by
  cases ends with
  | @bare b blank => exact ⟨b ++ [']'], by simp⟩
  | @fallback b text w blank isFallback =>
      obtain ⟨v, rfl⟩ := isFallback.exists_brace
      exact ⟨b ++ ']' :: v, by simp⟩

/-- An end goes up to a brace. -/
theorem exists_brace_of_readEnd? {t rest : Text} {fallback : Option Text}
    (h : readEnd? t = some (fallback, rest)) : ∃ v, t = v ++ '}' :: rest := by
  obtain ⟨w, ends, rfl⟩ := readEnd?_eq_some_iff.mp h
  obtain ⟨v, rfl⟩ := ends.exists_brace
  exact ⟨v, by simp⟩

/-- An end that was read is read alike when more text follows. -/
theorem readEnd?_append {t rest : Text} {fallback : Option Text}
    (h : readEnd? t = some (fallback, rest)) (s : Text) :
    readEnd? (t ++ s) = some (fallback, rest ++ s) := by
  obtain ⟨w, ends, rfl⟩ := readEnd?_eq_some_iff.mp h
  exact readEnd?_eq_some_iff.mpr ⟨w, ends, List.append_assoc ..⟩

theorem readEnd?_eq_none_of_append {t s : Text} (h : readEnd? (t ++ s) = none) :
    readEnd? t = none := by
  cases read : readEnd? t with
  | none => rfl
  | some found =>
      obtain ⟨fallback, rest⟩ := found
      rw [readEnd?_append read s] at h
      cases h

/-! ## Fronts -/

/-- The front of a query, up to its first quote, with an index. -/
inductive FrontText (index : Text) : Text → Prop where
  | intro {b b' : Text} :
      index ≠ [] → (∀ c ∈ index, c.isDigit = true) → Blanks b → Blanks b' →
        FrontText index (opening ++ (index ++ ']' :: (b ++ '[' :: b')))

/-- What is read behind the opening of a query. -/
theorem read?_opening (u : Text) :
    read? (opening ++ u) =
      (guard (u.takeWhile Char.isDigit ≠ []) : Option Unit).bind fun _ =>
        (Text.after? [']'] (u.dropWhile Char.isDigit)).bind fun v =>
          (readBracketed? readEnd? v).bind fun (expression, fallback, rest) =>
            some (⟨u.takeWhile Char.isDigit, expression, fallback⟩, rest) := by
  have opens : Text.after? opening (opening ++ u) = some u := Text.after?_eq_some_iff.mpr rfl
  rw [read?, opens]
  rfl

/-- Behind a front and a quote only the end of the expression is left to find. -/
theorem read?_front {index w : Text} {quote : Char} (front : FrontText index w)
    (isQ : isQuote quote = true) (v : Text) :
    read? (w ++ quote :: v) =
      (readUntil? quote readEnd? v).map fun (expression, fallback, rest) =>
        (⟨index, expression, fallback⟩, rest) := by
  obtain @⟨b, b', nonempty, digits, blank, blank'⟩ := front
  have stops : Text.Stops Char.isDigit (']' :: (b ++ '[' :: (b' ++ quote :: v))) :=
    Text.stops_cons.mpr rfl
  have indexed : (guard (index ≠ []) : Option Unit) = some () := if_pos nonempty
  have closed : Text.after? [']'] (']' :: (b ++ '[' :: (b' ++ quote :: v))) =
      some (b ++ '[' :: (b' ++ quote :: v)) := Text.after?_eq_some_iff.mpr rfl
  have quoted : readOpeningQuote? (b ++ '[' :: (b' ++ quote :: v)) = some (quote, v) :=
    readOpeningQuote?_eq_some_iff.mpr ⟨b, b', blank, blank', isQ, rfl⟩
  have split : opening ++ (index ++ ']' :: (b ++ '[' :: b')) ++ quote :: v =
      opening ++ (index ++ ']' :: (b ++ '[' :: (b' ++ quote :: v))) := by simp
  rw [split, read?_opening, Text.takeWhile_append_of_stops digits stops,
    Text.dropWhile_append_of_stops digits stops, indexed, Option.bind_some, closed,
    Option.bind_some, readBracketed?_eq, quoted, Option.bind_some]
  simp only
  cases readUntil? quote readEnd? v with
  | none => rfl
  | some found => rfl

/-- A query that is read has a front. -/
theorem exists_front {t rest : Text} {ref : QueryRef} (h : read? t = some (ref, rest)) :
    ∃ w quote v, FrontText ref.index w ∧ isQuote quote = true ∧ t = w ++ quote :: v := by
  obtain ⟨u, opened, h⟩ := Option.bind_eq_some_iff.mp h
  obtain ⟨_, guarded, h⟩ := Option.bind_eq_some_iff.mp h
  obtain ⟨v, indexed, h⟩ := Option.bind_eq_some_iff.mp h
  obtain ⟨⟨expression, fallback, rest'⟩, bracket, same⟩ := Option.bind_eq_some_iff.mp h
  cases same
  rw [readBracketed?_eq] at bracket
  obtain ⟨⟨quote, x⟩, quoted, -⟩ := Option.bind_eq_some_iff.mp bracket
  obtain ⟨b, b', blank, blank', isQ, rfl⟩ := readOpeningQuote?_eq_some_iff.mp quoted
  have nonempty : u.takeWhile Char.isDigit ≠ [] := (Option.guard_eq_some' _).mp guarded
  refine ⟨_, quote, x, .intro nonempty (fun _ => Text.mem_takeWhile) blank blank', isQ, ?_⟩
  have split := List.takeWhile_append_dropWhile (p := Char.isDigit) (l := u)
  rw [Text.after?_eq_some_iff.mp indexed] at split
  rw [Text.after?_eq_some_iff.mp opened]
  simpa using split.symm

theorem isQuote_of_isDigit {c : Char} (digit : c.isDigit = true) : isQuote c = false := by
  apply Bool.eq_false_iff.mpr
  intro isQ
  simp only [isQuote, Bool.or_eq_true, beq_iff_eq] at isQ
  rcases isQ with rfl | rfl
  · cases digit
  · cases digit

/-- No quote is in a front. -/
theorem FrontText.isQuote_of_mem {index w : Text} (front : FrontText index w) {c : Char}
    (member : c ∈ w) : isQuote c = false := by
  obtain ⟨-, digits, blank, blank'⟩ := front
  have inOpening : opening.all (!isQuote ·) = true := rfl
  simp only [List.mem_append, List.mem_cons] at member
  rcases member with first | digit | rfl | space | rfl | space
  · simpa using List.all_eq_true.mp inOpening c first
  · exact isQuote_of_isDigit (digits c digit)
  · rfl
  · exact isQuote_of_isBlank (blank c space)
  · rfl
  · exact isQuote_of_isBlank (blank' c space)

/-! ## Whole queries -/

/-- The quote around the expression of a query as written.  It is the first quote
in the query. -/
def quote? (written : Text) : Option Char := written.find? isQuote

theorem quote?_front {index w : Text} {quote : Char} (front : FrontText index w)
    (isQ : isQuote quote = true) (v : Text) : quote? (w ++ quote :: v) = some quote := by
  have none : w.find? isQuote = none := by
    rw [List.find?_eq_none]
    intro c member
    rw [front.isQuote_of_mem member]
    exact Bool.false_ne_true
  rw [quote?, List.find?_append, none, Option.none_or, List.find?_cons, isQ]

/-- A query as written, before the text behind it: its front, its expression
between two quotes, and its end.  No quote before the second closes the
expression. -/
structure Parts (written rest : Text) (ref : QueryRef) where
  /-- The front. -/
  front : Text
  /-- The quote. -/
  quote : Char
  /-- What is behind the expression and its quote. -/
  tail : Text
  /-- The front holds the index. -/
  isFront : FrontText ref.index front
  /-- The quote is one. -/
  isQuote : isQuote quote = true
  /-- The query is its parts. -/
  written_eq : written = front ++ quote :: (ref.expression ++ quote :: tail)
  /-- What is behind the expression is the end of the query. -/
  ends : readEnd? (tail ++ rest) = some (ref.fallback, rest)
  /-- Behind no quote inside the expression an end can be read. -/
  shortest : ∀ x y, ref.expression = x ++ quote :: y →
    readEnd? (y ++ quote :: (tail ++ rest)) = none

/-- A query that is read has all its parts. -/
theorem exists_parts {written rest : Text} {ref : QueryRef}
    (h : read? (written ++ rest) = some (ref, rest)) : Nonempty (Parts written rest ref) := by
  obtain ⟨index, expression, fallback⟩ := ref
  obtain ⟨w, quote, v, front, isQ, split⟩ := exists_front h
  rw [split, read?_front front isQ] at h
  obtain ⟨⟨_, _, _⟩, found, same⟩ := Option.map_eq_some_iff.mp h
  cases same
  obtain ⟨u, rfl, ends, shortest⟩ := readUntil?_eq_some_iff.mp found
  obtain ⟨tail, rfl⟩ := readEnd?_suffix ends
  have same : written ++ rest = w ++ quote :: (expression ++ quote :: tail) ++ rest := by
    rw [split]
    simp
  exact ⟨⟨w, quote, tail, front, isQ, List.append_cancel_right same, ends, shortest⟩⟩

theorem Parts.quote?_eq {written rest : Text} {ref : QueryRef} (parts : Parts written rest ref) :
    quote? written = some parts.quote :=
  (congrArg quote? parts.written_eq).trans (quote?_front parts.isFront parts.isQuote _)

end QueryRef

end Templating
