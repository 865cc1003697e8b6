import Templating.Proofs.Placeholder.Braces

/-!
# Templates written and read back

A template is written as a sequence of *slots*, each of which is a text and a
placeholder behind it, and a last text.  It is read back as it was written if two
things hold (`locateFrom_template`).  Each placeholder is read back whatever follows
it.  And no text holds the opening of a placeholder.

No placeholder begins in a text then, also not across its end.  For what is
behind a text begins with a brace, or is empty, and an opening has its only brace
in front.

`QueryRef.located_written` says so of queries whose expression and fallback do
not hold their own quotes, and `DataPathRef.located_paths` of all data paths.
-/

namespace Templating

open Text (byteSize)

variable {ρ : Type}

/-! ## Templates -/

/-- A placeholder in a template and the text before it. -/
structure Slot (ρ : Type) where
  /-- The text before the placeholder, up to the placeholder before. -/
  lead : Text
  /-- The placeholder as written. -/
  written : Text
  /-- What the placeholder says. -/
  ref : ρ

/-- The text of a template: its slots and the text behind them. -/
def template : List (Slot ρ) → Text → Text
  | [], last => last
  | slot :: slots, last => slot.lead ++ (slot.written ++ template slots last)

/-- The placeholders in the slots of a template that begin at a byte offset, with
their spans. -/
def slotSpans : Nat → List (Slot ρ) → List (Span × ρ)
  | _, [] => []
  | offset, slot :: slots =>
      let start := offset + byteSize slot.lead
      let stop := start + byteSize slot.written
      (⟨start, stop⟩, slot.ref) :: slotSpans stop slots

/-- Every placeholder that is read begins with this text, which has a brace in
front and no other. -/
structure OpensWith (read : Text → Option (ρ × Text)) (opening : Text) : Prop where
  /-- The only brace is in front. -/
  brace : ∃ u, opening = '{' :: u ∧ '{' ∉ u
  /-- What is read begins with the opening. -/
  begins : ∀ ⦃t ref rest⦄, read t = some (ref, rest) → opening <+: t

section Reading

variable {read : Text → Option (ρ × Text)} {opening : Text}

/-- Nothing is read from a text without an opening, if a brace or nothing
follows. -/
theorem OpensWith.unread (opens : OpensWith read opening) {s t : Text} (none : ¬ opening <:+: s)
    (next : ∀ c ∈ t.head?, c = '{') : Unread read s t := by
  intro u v split nonempty
  refine Option.eq_none_iff_forall_ne_some.mpr fun (ref, rest) found => ?_
  rcases List.prefix_or_prefix_of_prefix (opens.begins found) (List.prefix_append v t) with
    inside | ⟨x, across⟩
  · refine none (inside.isInfix.trans ?_)
    rw [split]
    exact (List.suffix_append u v).isInfix
  · -- The opening goes on with the brace that follows, but its brace is in front.
    obtain ⟨y, whole⟩ := opens.begins found
    rw [← across, List.append_assoc, List.append_cancel_left_eq] at whole
    obtain ⟨w, braced, single⟩ := opens.brace
    obtain ⟨c, v, rfl⟩ := List.exists_cons_of_ne_nil nonempty
    rw [braced] at across
    obtain ⟨-, rest⟩ := List.cons.inj across
    cases x with
    | nil =>
        refine none ?_
        rw [split, braced, ← across, List.append_nil]
        exact (List.suffix_append u (c :: v)).isInfix
    | cons d x =>
        have brace : d = '{' := next d (by rw [← whole]; rfl)
        refine single ?_
        rw [← rest, brace]
        simp

theorem OpensWith.holes_eq_nil (opens : OpensWith read opening) {t : Text}
    (none : ¬ opening <:+: t) : holes read t = [] := by
  have unread : Unread read t [] := opens.unread none fun c first => by cases first
  have whole := holes_append_of_unread unread
  rwa [List.append_nil] at whole

theorem locateFrom_plain (s : Text) :
    ∀ (offset : Nat) (parts : List (Piece ρ)),
      locateFrom offset (s.map Piece.plain ++ parts) = locateFrom (offset + byteSize s) parts := by
  induction s with
  | nil => exact fun _ _ => rfl
  | cons c s ih =>
      intro offset parts
      rw [List.map_cons, List.cons_append, locateFrom, ih, Text.byteSize_cons, Nat.add_assoc]

/-- A template is read back as it was written. -/
theorem locateFrom_template (forward : ReadsForward read) (opens : OpensWith read opening)
    {last : Text} (lastPlain : ¬ opening <:+: last) :
    ∀ {slots : List (Slot ρ)} (offset : Nat),
      (∀ slot ∈ slots, ¬ opening <:+: slot.lead ∧
        ∀ rest, read (slot.written ++ rest) = some (slot.ref, rest)) →
      locateFrom offset (pieces read (template slots last)) = slotSpans offset slots
  | [], offset, _ => by
      have unread : Unread read last [] := opens.unread lastPlain fun c first => by cases first
      have plain := locateFrom_plain (ρ := ρ) last offset []
      rw [List.append_nil] at plain
      rw [template, pieces_of_unread unread, plain]
      rfl
  | slot :: slots, offset, each => by
      obtain ⟨leadPlain, reads⟩ := each slot List.mem_cons_self
      have found := reads (template slots last)
      have unread : Unread read slot.lead (slot.written ++ template slots last) := by
        refine opens.unread leadPlain fun c first => ?_
        obtain ⟨u, braced, -⟩ := opens.brace
        obtain ⟨y, split⟩ := opens.begins found
        rw [braced] at split
        rw [← split] at first
        exact (Option.some.inj first).symm
      rw [template, pieces_append_of_unread unread, pieces_of_read forward found,
        locateFrom_plain, locateFrom,
        locateFrom_template forward opens lastPlain _ fun slot' member =>
          each slot' (List.mem_cons_of_mem slot member)]
      rfl

end Reading

/-! ## Queries -/

namespace QueryRef

theorem opensWith : OpensWith read? opening where
  brace := ⟨opening.tail, rfl, by decide⟩
  begins := by
    intro t ref rest h
    obtain ⟨u, opened, -⟩ := Option.bind_eq_some_iff.mp h
    rw [Text.after?_eq_some_iff.mp opened]
    exact List.prefix_append opening u

/-- A query is plain in these quotes if they do not stand inside what they
quote. -/
structure Plain (quote fallbackQuote : Char) (ref : QueryRef) : Prop where
  /-- There is a digit. -/
  index_ne_nil : ref.index ≠ []
  /-- The index is digits. -/
  digits : ∀ c ∈ ref.index, c.isDigit = true
  /-- The quote of the expression is one. -/
  isQuote : isQuote quote = true
  /-- It is not in the expression. -/
  expression : quote ∉ ref.expression
  /-- The quote of the fallback is one, and is not in the fallback. -/
  fallback : ∀ text ∈ ref.fallback, Templating.isQuote fallbackQuote = true ∧ fallbackQuote ∉ text

/-- A fallback as written, in its bracket. -/
def fallbackText (quote : Char) : Option Text → Text
  | none => []
  | some fallback => bracketed quote fallback

theorem write_append (quote fallbackQuote : Char) (ref : QueryRef) (rest : Text) :
    ref.write quote fallbackQuote ++ rest =
      opening ++ (ref.index ++ ']' :: ([] ++ '[' :: [])) ++
        quote :: (ref.expression ++
          quote :: ']' :: (fallbackText fallbackQuote ref.fallback ++ '}' :: rest)) := by
  obtain ⟨index, expression, fallback⟩ := ref
  cases fallback with
  | none => simp [write, bracketed, fallbackText]
  | some fallback => simp [write, bracketed, fallbackText]

/-- The end of a plain query is read, whatever follows. -/
theorem readEnd?_write {fallbackQuote : Char} {fallback : Option Text}
    (plain : ∀ text ∈ fallback, isQuote fallbackQuote = true ∧ fallbackQuote ∉ text) (rest : Text) :
    readEnd? (']' :: (fallbackText fallbackQuote fallback ++ '}' :: rest)) =
      some (fallback, rest) := by
  refine readEnd?_eq_some_iff.mpr ?_
  cases fallback with
  | none => exact ⟨_, .bare Text.blanks_nil, rfl⟩
  | some text =>
      obtain ⟨isQ, unquoted⟩ := plain text rfl
      have unclosed : ∀ x y, text = x ++ fallbackQuote :: y →
          readFallbackEnd? (y ++ [fallbackQuote]) = none := by
        rintro x y rfl
        simp at unquoted
      exact ⟨_, .fallback Text.blanks_nil
        (.intro Text.blanks_nil Text.blanks_nil Text.blanks_nil isQ unclosed),
        by simp [fallbackText, bracketed]⟩

/-- A plain query is read back, whatever follows. -/
theorem read?_write {quote fallbackQuote : Char} {ref : QueryRef}
    (plain : ref.Plain quote fallbackQuote) (rest : Text) :
    read? (ref.write quote fallbackQuote ++ rest) = some (ref, rest) := by
  have front : FrontText ref.index (opening ++ (ref.index ++ ']' :: ([] ++ '[' :: []))) :=
    .intro plain.index_ne_nil plain.digits Text.blanks_nil Text.blanks_nil
  rw [write_append, read?_front front plain.isQuote,
    readUntil?_of_notMem plain.expression (readEnd?_write plain.fallback rest), Option.map_some]

/-- A template of plain queries is read back as it was written. -/
theorem located_written {slots : List (Slot QueryRef)} {last : Text}
    (each : ∀ slot ∈ slots, ¬ opening <:+: slot.lead ∧ ∃ quote fallbackQuote,
      slot.ref.Plain quote fallbackQuote ∧ slot.written = slot.ref.write quote fallbackQuote)
    (lastPlain : ¬ opening <:+: last) :
    located read? (template slots last) = slotSpans 0 slots := by
  refine locateFrom_template read?_forward opensWith lastPlain 0 fun slot member => ?_
  obtain ⟨leadPlain, quote, fallbackQuote, plain, written⟩ := each slot member
  refine ⟨leadPlain, fun rest => ?_⟩
  rw [written, read?_write plain]

/-- A query whose expression holds a query in the other quotes and whose fallback
is empty, and right behind it one without an expression. -/
theorem located_written_nested :
    let inside := write '"' '"' ⟨['1'], ['.', 'a'], none⟩
    let first : QueryRef := ⟨['0'], '.' :: inside, some []⟩
    let second : QueryRef := ⟨['7'], [], none⟩
    let slots : List (Slot QueryRef) :=
      [⟨['{', 'é'], write '\'' '\'' first, first⟩, ⟨[], write '"' '"' second, second⟩]
    located read? (template slots ['}']) = [(⟨3, 52⟩, first), (⟨52, 73⟩, second)] := by
  intro inside first second slots
  have isFirst : first.Plain '\'' '\'' :=
    { index_ne_nil := by decide
      digits := List.all_eq_true.mp rfl
      isQuote := rfl
      expression := by decide
      fallback := fun text same => by obtain rfl := Option.some.inj same; decide }
  have isSecond : second.Plain '"' '"' :=
    { index_ne_nil := by decide
      digits := List.all_eq_true.mp rfl
      isQuote := rfl
      expression := List.not_mem_nil
      fallback := fun text same => by cases same }
  have each : ∀ slot ∈ slots, ¬ opening <:+: slot.lead ∧ ∃ quote fallbackQuote,
      slot.ref.Plain quote fallbackQuote ∧ slot.written = slot.ref.write quote fallbackQuote :=
    List.forall_mem_cons.mpr ⟨⟨by decide, '\'', '\'', isFirst, rfl⟩,
      List.forall_mem_singleton.mpr ⟨by decide, '"', '"', isSecond, rfl⟩⟩
  have spans : slotSpans 0 slots = [(⟨3, 52⟩, first), (⟨52, 73⟩, second)] := by decide +kernel
  exact (located_written each (by decide)).trans spans

end QueryRef

/-! ## Data paths -/

namespace DataPathRef

theorem opensWith : OpensWith read? opening where
  brace := ⟨opening.tail, rfl, by decide⟩
  begins := by
    intro t ref rest h
    obtain ⟨form, -, -, rfl⟩ := read?_eq_some_iff.mp h
    rw [Form.write, List.append_assoc]
    exact List.prefix_append opening _

/-- A data path is read back, whatever follows. -/
theorem read?_write {index : Text} {keys : List QuotedKey} {fallback : Option QuotedKey}
    (proper : Proper index keys fallback) (rest : Text) :
    read? (write index keys fallback ++ rest) = some (ofKeys index keys fallback, rest) :=
  read?_eq_some_iff.mpr ⟨.separated index keys fallback, Form.separated_proper.mpr proper,
    Form.separated_ref index keys fallback, by rw [Form.separated_write]⟩

/-- Every data path in a text has a proper form.  Its keys are the quoted texts in
the list. -/
theorem exists_form_of_mem_holes {t : Text} {hole : Text × DataPathRef}
    (h : hole ∈ holes read? t) :
    ∃ form : Form, form.Proper ∧ form.write = hole.1 ∧ form.ref = hole.2 ∧
      quotedTexts form.list = hole.2.keys := by
  obtain ⟨before, rest, -, found⟩ := exists_of_mem_holes read?_braced.forward h
  obtain ⟨form, proper, means, split⟩ := read?_eq_some_iff.mp found
  refine ⟨form, proper, (List.append_cancel_right split).symm, means, ?_⟩
  rw [proper.quotedTexts_list, means]

/-- A template of data paths is read back as it was written.  In any text, the
keys of a data path are the quoted texts in the list that was matched. -/
theorem located_paths {slots : List (Slot DataPathRef)} {last : Text}
    (each : ∀ slot ∈ slots, ¬ opening <:+: slot.lead ∧ ∃ index keys fallback,
      Proper index keys fallback ∧ slot.written = write index keys fallback ∧
        slot.ref = ofKeys index keys fallback)
    (lastPlain : ¬ opening <:+: last) :
    located read? (template slots last) = slotSpans 0 slots ∧
      ∀ t, ∀ hole ∈ holes read? t, ∃ form : Form, form.Proper ∧ form.write = hole.1 ∧
        form.ref = hole.2 ∧ quotedTexts form.list = hole.2.keys := by
  refine ⟨?_, fun t hole => exists_form_of_mem_holes⟩
  refine locateFrom_template read?_braced.forward opensWith lastPlain 0 fun slot member => ?_
  obtain ⟨leadPlain, index, keys, fallback, proper, written, means⟩ := each slot member
  refine ⟨leadPlain, fun rest => ?_⟩
  rw [written, means, read?_write proper]

/-- A key that holds an opening and a bracket, a key between unequal quotes with
blanks around it, and a fallback, behind half an opening. -/
theorem located_paths_openingInKey :
    let keys : List QuotedKey := [⟨[], '\'', opening ++ [']', ','], '\'', []⟩,
      ⟨[' '], '"', ['b'], '\'', ['\u00a0', '\n']⟩]
    let fallback : QuotedKey := ⟨['\t'], '\'', ['}'], '"', []⟩
    let ref := ofKeys ['0', '٣'] keys fallback
    let slots : List (Slot DataPathRef) :=
      [⟨['{', 'r'], write ['0', '٣'] keys fallback, ref⟩]
    located read? (template slots ['é', '}']) = [(⟨2, 39⟩, ref)] := by
  intro keys fallback ref slots
  have proper : Proper ['0', '٣'] keys fallback :=
    { index_ne_nil := by decide
      digits := List.all_eq_true.mp (by decide +kernel)
      keys_ne_nil := by decide
      keys := by decide +kernel
      fallback := fun k same => by obtain rfl := Option.some.inj same; decide +kernel }
  have each : ∀ slot ∈ slots, ¬ opening <:+: slot.lead ∧ ∃ index keys fallback,
      Proper index keys fallback ∧ slot.written = write index keys fallback ∧
        slot.ref = ofKeys index keys fallback :=
    List.forall_mem_singleton.mpr ⟨by decide, ['0', '٣'], keys, fallback, proper, rfl, rfl⟩
  have spans : slotSpans 0 slots = [(⟨2, 39⟩, ref)] := by decide +kernel
  exact (located_paths each (by decide)).1.trans spans

end DataPathRef

end Templating
