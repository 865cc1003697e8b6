import Templating.Placeholder.Printer
import Templating.Proofs.Placeholder.Anatomy

/-!
# Queries with text behind them

Text behind a query may change how the query is read, in one way.  A quote inside
the expression may have been passed over although a bracket follows it, because
the bracket goes on with a fallback that nothing in the query closes.  Then the
query *leaves a fallback open* (`LeavesOpen`).  Text that closes the fallback makes
that quote the end of the expression.

The query `{reqsJsonPath[0]['a']["b']}` asks for `a']["b`.  With `"]}` behind it the
same text asks for `a` and has the fallback `b']}`
(`first_located_append_openFallback`).

There is no other way (`first_located_append`).  The last brace of the query
settles everything that is read inside the query but the end of an open fallback
(`readEnd?_append_brace`).
-/

namespace Templating.QueryRef

open Text (Blanks byteSize)

/-! ## Open fallbacks -/

/-- A text, from behind a quote of an expression, goes on with a bracket and opens
a fallback with this quote. -/
def OpensFallback (fallbackQuote : Char) (t : Text) : Prop :=
  ∃ b b' b'' v, Blanks b ∧ Blanks b' ∧ Blanks b'' ∧ isQuote fallbackQuote = true ∧
    t = b ++ ']' :: (b' ++ '[' :: (b'' ++ fallbackQuote :: v))

/-- A text closes a fallback that is open with this quote, and the query. -/
def ClosesFallback (fallbackQuote : Char) (t : Text) : Prop :=
  ∃ x b y, Blanks b ∧ t = x ++ fallbackQuote :: (b ++ ']' :: '}' :: y)

/-- A query opens a fallback with this quote behind a quote inside its
expression. -/
def LeavesOpen (p : Text) (ref : QueryRef) (fallbackQuote : Char) : Prop :=
  ∃ quote x y, quote? p = some quote ∧ ref.expression = x ++ quote :: y ∧
    OpensFallback fallbackQuote (y ++ [quote])

/-! ## Opening -/

/-- A bracket behind blanks stands before a character of another kind. -/
theorem exists_of_append_eq_bracket {b y u s : Text} {c : Char} (blank : Blanks b)
    (solid : isBlank c = false) (other : c ≠ ']') (h : y ++ c :: s = b ++ ']' :: u) :
    ∃ w, y = b ++ ']' :: w ∧ u = w ++ c :: s := by
  rcases List.append_eq_append_iff.mp h with ⟨a, rfl, split⟩ | ⟨a, rfl, split⟩
  · cases a with
    | nil => exact absurd (List.cons.inj split).1 other
    | cons d a =>
        obtain ⟨rfl, -⟩ := List.cons.inj split
        have isBlank := blank c (List.mem_append_right y List.mem_cons_self)
        rw [solid] at isBlank
        cases isBlank
  · cases a with
    | nil => exact absurd (List.cons.inj split).1.symm other
    | cons d a =>
        obtain ⟨rfl, rfl⟩ := List.cons.inj split
        exact ⟨a, rfl, rfl⟩

theorem opensFallback_iff {fallbackQuote : Char} {t : Text} :
    OpensFallback fallbackQuote t ↔
      ∃ b u v, Blanks b ∧ t = b ++ ']' :: u ∧ readOpeningQuote? u = some (fallbackQuote, v) := by
  constructor
  · rintro ⟨b, b', b'', v, blank, blank', blank'', isQ, rfl⟩
    have opened : readOpeningQuote? (b' ++ '[' :: (b'' ++ fallbackQuote :: v)) =
        some (fallbackQuote, v) :=
      readOpeningQuote?_eq_some_iff.mpr ⟨b', b'', blank', blank'', isQ, rfl⟩
    exact ⟨b, _, v, blank, rfl, opened⟩
  · rintro ⟨b, u, v, blank, rfl, opened⟩
    obtain ⟨b', b'', blank', blank'', isQ, rfl⟩ := readOpeningQuote?_eq_some_iff.mp opened
    exact ⟨b, b', b'', v, blank, blank', blank'', isQ, rfl⟩

/-- A quote settles what is opened before it or with it. -/
theorem opensFallback_append_cons {fallbackQuote quote : Char} (isQ : isQuote quote = true)
    (y s : Text) :
    OpensFallback fallbackQuote (y ++ quote :: s) ↔ OpensFallback fallbackQuote (y ++ [quote]) := by
  have solid := isBlank_of_isQuote isQ
  constructor
  · intro h
    obtain ⟨b, u, v, blank, split, opened⟩ := opensFallback_iff.mp h
    have other : quote ≠ ']' := by
      rintro rfl
      cases isQ
    obtain ⟨w, rfl, rfl⟩ := exists_of_append_eq_bracket blank solid other split
    have bracket : quote ≠ '[' := by
      rintro rfl
      cases isQ
    rw [readOpeningQuote?_append_cons solid bracket] at opened
    obtain ⟨⟨_, v'⟩, here, same⟩ := Option.map_eq_some_iff.mp opened
    cases same
    exact opensFallback_iff.mpr ⟨b, w ++ [quote], v', blank, by simp, here⟩
  · rintro ⟨b, b', b'', v, blank, blank', blank'', isQ', split⟩
    refine ⟨b, b', b'', v ++ s, blank, blank', blank'', isQ', ?_⟩
    have longer := congrArg (· ++ s) split
    simpa using longer

/-! ## Closing -/

theorem closesFallback_iff {fallbackQuote : Char} {t : Text} :
    ClosesFallback fallbackQuote t ↔ readUntil? fallbackQuote readFallbackEnd? t ≠ none := by
  rw [ne_eq, readUntil?_eq_none_iff]
  constructor
  · rintro ⟨x, b, y, blank, rfl⟩ never
    have ends : readFallbackEnd? (b ++ ']' :: '}' :: y) = some y :=
      readFallbackEnd?_eq_some_iff.mpr ⟨b, blank, rfl⟩
    rw [never x (b ++ ']' :: '}' :: y) rfl] at ends
    cases ends
  · intro h
    apply Classical.byContradiction
    intro never
    refine h fun x y split => ?_
    cases ends : readFallbackEnd? y with
    | none => rfl
    | some rest =>
        obtain ⟨b, blank, rfl⟩ := readFallbackEnd?_eq_some_iff.mp ends
        exact absurd ⟨x, b, rest, blank, split⟩ never

theorem ClosesFallback.append_left {fallbackQuote : Char} {t : Text}
    (h : ClosesFallback fallbackQuote t) (s : Text) : ClosesFallback fallbackQuote (s ++ t) := by
  obtain ⟨x, b, y, blank, rfl⟩ := h
  exact ⟨s ++ x, b, y, blank, by simp⟩

/-- A fallback is closed before a brace or behind it. -/
theorem ClosesFallback.of_append_brace {fallbackQuote : Char} (isQ : isQuote fallbackQuote = true)
    {z s : Text} (h : ClosesFallback fallbackQuote (z ++ '}' :: s)) :
    ClosesFallback fallbackQuote (z ++ ['}']) ∨ ClosesFallback fallbackQuote s := by
  have other : fallbackQuote ≠ '}' := by
    rintro rfl
    cases isQ
  obtain ⟨x, b, y, blank, split⟩ := h
  rcases List.append_eq_append_iff.mp split with ⟨a, rfl, inside⟩ | ⟨a, rfl, inside⟩
  · cases a with
    | nil => exact absurd (List.cons.inj inside).1.symm other
    | cons d a =>
        obtain ⟨-, rfl⟩ := List.cons.inj inside
        exact Or.inr ⟨a, b, y, blank, rfl⟩
  · cases a with
    | nil => exact absurd (List.cons.inj inside).1 other
    | cons d a =>
        obtain ⟨rfl, behind⟩ := List.cons.inj inside
        have ends : readFallbackEnd? (b ++ ']' :: '}' :: y) = some y :=
          readFallbackEnd?_eq_some_iff.mpr ⟨b, blank, rfl⟩
        rw [behind, List.append_eq, readFallbackEnd?_append_cons rfl (by decide)] at ends
        obtain ⟨y', ends, -⟩ := Option.map_eq_some_iff.mp ends
        obtain ⟨b', blank', split'⟩ := readFallbackEnd?_eq_some_iff.mp ends
        exact Or.inl ⟨x, b', y', blank', by rw [List.append_assoc, List.cons_append, split']⟩

/-! ## Ends behind a brace -/

theorem after?_append_brace (w s : Text) :
    Text.after? ['}'] (w ++ '}' :: s) = none ↔ Text.after? ['}'] (w ++ ['}']) = none := by
  cases w with
  | nil => simp [Text.after?]
  | cons d w => simp [Text.after?]

/-- Where no end is read up to a brace, one is read with more text just if that
text closes a fallback opened before the brace. -/
theorem readEnd?_append_brace {u : Text} (unread : readEnd? (u ++ ['}']) = none) (s : Text) :
    readEnd? (u ++ '}' :: s) ≠ none ↔
      ∃ quote, OpensFallback quote (u ++ ['}']) ∧ ClosesFallback quote s := by
  constructor
  · intro read
    obtain ⟨_, found⟩ := Option.ne_none_iff_exists'.mp read
    obtain ⟨b, v, blank, split⟩ := exists_bracket_of_readEnd? found
    obtain ⟨w, rfl, rfl⟩ := exists_of_append_eq_bracket blank rfl (by decide) split
    rw [List.append_assoc, List.cons_append, ne_eq, readEnd?_eq_none_iff blank,
      after?_append_brace] at read
    rw [List.append_assoc, List.cons_append, readEnd?_eq_none_iff blank] at unread
    have bracket : readBracketed? readFallbackEnd? (w ++ '}' :: s) ≠ none :=
      fun none => read ⟨none, unread.2⟩
    have noBracket := unread.1
    rw [readBracketed?_eq, readOpeningQuote?_append_cons rfl (by decide)] at bracket
    rw [readBracketed?_eq] at noBracket
    cases opened : readOpeningQuote? (w ++ ['}']) with
    | none =>
        rw [opened] at bracket
        exact absurd rfl bracket
    | some found =>
        obtain ⟨quote, z⟩ := found
        rw [opened] at bracket noBracket
        obtain ⟨b', b'', blank', blank'', isQ, split⟩ := readOpeningQuote?_eq_some_iff.mp opened
        refine ⟨quote, ⟨b, b', b'', z, blank, blank', blank'', isQ, by simp [split]⟩, ?_⟩
        -- The brace is not the quote, so it is the last character behind it.
        obtain ⟨z', rfl⟩ : ∃ z', z = z' ++ ['}'] := by
          rcases List.eq_nil_or_concat z with rfl | ⟨z', d, rfl⟩
          · have last : w ++ ['}'] = (b' ++ '[' :: b'') ++ [quote] := by simpa using split
            rw [← (List.append_singleton_inj.mp last).2] at isQ
            cases isQ
          · have last : w ++ ['}'] = (b' ++ '[' :: (b'' ++ quote :: z')) ++ [d] := by
              simpa using split
            exact ⟨z', by rw [(List.append_singleton_inj.mp last).2, List.concat_eq_append]⟩
        have closes : ClosesFallback quote (z' ++ '}' :: s) := by
          rw [closesFallback_iff]
          simpa using bracket
        refine (closes.of_append_brace isQ).resolve_left fun inside => ?_
        exact closesFallback_iff.mp inside noBracket
  · rintro ⟨quote, ⟨b, b', b'', v, blank, blank', blank'', isQ, split⟩, closes⟩ none
    have longer : u ++ '}' :: s = b ++ ']' :: (b' ++ '[' :: (b'' ++ quote :: (v ++ s))) := by
      have longer := congrArg (· ++ s) split
      simpa using longer
    have opened : readOpeningQuote? (b' ++ '[' :: (b'' ++ quote :: (v ++ s))) =
        some (quote, v ++ s) :=
      readOpeningQuote?_eq_some_iff.mpr ⟨b', b'', blank', blank'', isQ, rfl⟩
    rw [longer, readEnd?_eq_none_iff blank, readBracketed?_eq, opened] at none
    exact closesFallback_iff.mp (closes.append_left v) none.1

/-! ## Appending -/

/-- A whole query with text behind it is read as before if no quote inside its
expression becomes the end of it. -/
theorem read?_append_iff {p : Text} {ref : QueryRef} (parts : Parts p [] ref) (s rest : Text) :
    read? (p ++ s) = some (ref, rest) ↔
      rest = s ∧ ∀ x y, ref.expression = x ++ parts.quote :: y →
        readEnd? (y ++ parts.quote :: (parts.tail ++ s)) = none := by
  have ends : readEnd? (parts.tail ++ s) = some (ref.fallback, s) := by
    have whole := parts.ends
    rw [List.append_nil] at whole
    exact readEnd?_append whole s
  have split : p ++ s =
      parts.front ++ parts.quote :: (ref.expression ++ parts.quote :: (parts.tail ++ s)) := by
    have longer := congrArg (· ++ s) parts.written_eq
    simpa using longer
  rw [split, read?_front parts.isFront parts.isQuote, Option.map_eq_some_iff]
  constructor
  · rintro ⟨⟨expression, fallback, rest'⟩, found, same⟩
    obtain ⟨sameRef, rfl⟩ := Prod.mk.inj same
    obtain rfl : expression = ref.expression := congrArg QueryRef.expression sameRef
    obtain ⟨u, behind, read, shortest⟩ := readUntil?_eq_some_iff.mp found
    obtain ⟨-, rfl⟩ := List.cons.inj (List.append_cancel_left behind)
    rw [ends] at read
    cases read
    exact ⟨rfl, shortest⟩
  · rintro ⟨rfl, shortest⟩
    exact ⟨_, readUntil?_eq_some_iff.mpr ⟨_, rfl, ends, shortest⟩, rfl⟩

theorem eq_nil_of_byteSize {t : Text} (h : byteSize t = 0) : t = [] := by
  cases t with
  | nil => rfl
  | cons c t =>
      have positive := Char.utf8Size_pos c
      rw [Text.byteSize_cons] at h
      omega

/-- Text behind a whole query leaves it the first query of the text, read as
before, just if it closes no fallback that the query leaves open. -/
theorem first_located_append {p : Text} {ref : QueryRef}
    (whole : located read? p = [(⟨0, byteSize p⟩, ref)]) (s : Text) :
    (located read? (p ++ s)).head? = some (⟨0, byteSize p⟩, ref) ↔
      ∀ fallbackQuote, LeavesOpen p ref fallbackQuote → ¬ ClosesFallback fallbackQuote s := by
  obtain ⟨w, rest, split, found, size⟩ :=
    (head?_located_eq_some_iff read?_forward).mp (congrArg List.head? whole)
  have none : rest = [] := by
    rw [split, Text.byteSize_append] at size
    exact eq_nil_of_byteSize (by omega)
  subst none
  obtain ⟨parts⟩ : Nonempty (Parts p [] ref) := exists_parts (by rw [List.append_nil]; exact found)
  obtain ⟨v, tail⟩ := exists_brace_of_readEnd? parts.ends
  rw [List.append_nil] at tail
  have first : (located read? (p ++ s)).head? = some (⟨0, byteSize p⟩, ref) ↔
      ∀ x y, ref.expression = x ++ parts.quote :: y →
        readEnd? (y ++ parts.quote :: (parts.tail ++ s)) = none := by
    rw [head?_located_eq_some_iff read?_forward]
    constructor
    · rintro ⟨_, rest, -, read, -⟩
      exact ((read?_append_iff parts s rest).mp read).2
    · intro shortest
      exact ⟨p, s, rfl, (read?_append_iff parts s s).mpr ⟨rfl, shortest⟩, rfl⟩
  -- Each quote inside the expression was passed over up to the last brace.
  have each (x y : Text) (inside : ref.expression = x ++ parts.quote :: y) :
      readEnd? (y ++ parts.quote :: (parts.tail ++ s)) ≠ none ↔
        ∃ fallbackQuote, OpensFallback fallbackQuote (y ++ [parts.quote]) ∧
          ClosesFallback fallbackQuote s := by
    have unread := parts.shortest x y inside
    rw [List.append_nil, tail, ← List.cons_append, ← List.append_assoc] at unread
    have behind := readEnd?_append_brace unread s
    rw [List.append_assoc, List.cons_append] at behind
    simp only [List.append_assoc, List.cons_append,
      opensFallback_append_cons parts.isQuote] at behind
    simpa [tail] using behind
  rw [first]
  constructor
  · rintro shortest fallbackQuote ⟨quote, x, y, isQuote, inside, opens⟩ closes
    obtain rfl : parts.quote = quote := Option.some.inj (parts.quote?_eq.symm.trans isQuote)
    exact (each x y inside).mpr ⟨fallbackQuote, opens, closes⟩ (shortest x y inside)
  · intro settled x y inside
    apply Classical.byContradiction
    intro read
    obtain ⟨fallbackQuote, opens, closes⟩ := (each x y inside).mp read
    exact settled fallbackQuote ⟨parts.quote, x, y, parts.quote?_eq, inside, opens⟩ closes

/-- A query that leaves a fallback open is read as before with text behind it
that holds no bracket. -/
theorem first_located_append_noBracket :
    let ref : QueryRef := ⟨['0'], ['a', '\'', ']', '[', '"', 'b'], none⟩
    let p := write '\'' '\'' ref
    located read? p = [(⟨0, byteSize p⟩, ref)] ∧ LeavesOpen p ref '"' ∧
      (located read? (p ++ ['"', '}'])).head? = some (⟨0, byteSize p⟩, ref) := by
  intro ref p
  have whole : located read? p = [(⟨0, byteSize p⟩, ref)] := by decide +kernel
  have leavesOpen : LeavesOpen p ref '"' :=
    ⟨'\'', ['a'], [']', '[', '"', 'b'], by decide +kernel, rfl, [], [], [], ['b', '\''],
      Text.blanks_nil, Text.blanks_nil, Text.blanks_nil, rfl, rfl⟩
  refine ⟨whole, leavesOpen, (first_located_append whole ['"', '}']).mpr ?_⟩
  rintro fallbackQuote - ⟨x, b, y, -, split⟩
  have bracket : ']' ∈ ['"', '}'] := by
    rw [split]
    simp
  revert bracket
  decide

/-- The same query is read anew with the end of the fallback behind it.  So text
behind a query may change how it is read. -/
theorem first_located_append_openFallback :
    let ref : QueryRef := ⟨['0'], ['a', '\'', ']', '[', '"', 'b'], none⟩
    let p := write '\'' '\'' ref
    let s : Text := ['"', ']', '}']
    located read? p = [(⟨0, byteSize p⟩, ref)] ∧
      (located read? (p ++ s)).head? =
        some (⟨0, byteSize (p ++ s)⟩, ⟨['0'], ['a'], some ['b', '\'', ']', '}']⟩) ∧
      (located read? (p ++ s)).head? ≠ some (⟨0, byteSize p⟩, ref) := by
  decide +kernel

end Templating.QueryRef
