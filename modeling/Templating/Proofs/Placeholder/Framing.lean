import Templating.Proofs.Placeholder.Template

/-!
# Placeholders in a frame

Text in front of a template and text behind it are a *frame* if the template is
cut into the same placeholders with them as without.

In front that is any text in which every opening brace is followed by a character
that no placeholder has there (`Unopened`).  A placeholder that began in such a
text would have its second character in it too.

Behind it is any text without a closing brace.  A placeholder that ended in such a
text would have its last character in it.  Data paths, positional placeholders and
the ends of queries are read alike whatever follows them (`ReadsAlone`).  A query
is not, since its expression goes on where no end can be read.  But a text without
a closing brace makes no end of what is none (`QueryRef.read?_blind`).
-/

namespace Templating

variable {ρ : Type} {read : Text → Option (ρ × Text)}

/-! ## In front -/

/-- Every opening brace in a text is followed in it by a character that is no `r`
and no decimal digit. -/
def Unopened (p : Text) : Prop :=
  ∀ u v, p = u ++ '{' :: v → ∃ c ∈ v.head?, c ≠ 'r' ∧ isDecimalDigit c = false

theorem unopened_nil : Unopened [] := fun u v split =>
  absurd split.symm (List.append_ne_nil_of_right_ne_nil u (List.cons_ne_nil '{' v))

theorem unopened_cons {c : Char} {p : Text} :
    Unopened (c :: p) ↔
      (c = '{' → ∃ d ∈ p.head?, d ≠ 'r' ∧ isDecimalDigit d = false) ∧ Unopened p := by
  constructor
  · intro unopened
    exact ⟨fun brace => unopened [] p (by rw [brace, List.nil_append]),
      fun u v split => unopened (c :: u) v (by rw [split, List.cons_append])⟩
  · rintro ⟨first, later⟩ u v split
    cases u with
    | nil =>
        obtain ⟨brace, rfl⟩ := List.cons.inj split
        exact first brace
    | cons d u => exact later u v (List.cons.inj split).2

instance decidableUnopened : DecidablePred Unopened
  | [] => .isTrue unopened_nil
  | _ :: p =>
      have := decidableUnopened p
      -- Not by trying every character.
      have : Decidable (∃ d ∈ p.head?, d ≠ 'r' ∧ isDecimalDigit d = false) :=
        Option.decidableExistsMem p.head?
      decidable_of_iff' _ unopened_cons

/-- Every placeholder that is read begins with a brace and an `r` or a decimal
digit. -/
def ReadsOpened (read : Text → Option (ρ × Text)) : Prop :=
  ∀ ⦃t ref rest⦄, read t = some (ref, rest) →
    ∃ c u, t = '{' :: c :: u ∧ (c = 'r' ∨ isDecimalDigit c = true)

/-- No placeholder begins in such a text, whatever follows. -/
theorem Unopened.unread (opened : ReadsOpened read) {p : Text} (unopened : Unopened p) (t : Text) :
    Unread read p t := by
  intro u v split nonempty
  refine Option.eq_none_iff_forall_ne_some.mpr fun (ref, rest) found => ?_
  obtain ⟨c, w, begins, kind⟩ := opened found
  obtain ⟨d, v, rfl⟩ := List.exists_cons_of_ne_nil nonempty
  obtain ⟨rfl, begins⟩ := List.cons.inj begins
  obtain ⟨c', second, notR, notDigit⟩ := unopened u v split
  obtain ⟨v, rfl⟩ := List.head?_eq_some_iff.mp second
  obtain ⟨-, same⟩ := List.cons.inj begins
  obtain ⟨rfl, -⟩ := List.cons.inj same
  rcases kind with isR | digit
  · exact notR isR
  · rw [notDigit] at digit
    cases digit

/-! ## Behind -/

/-- What is read does not depend on the text behind it. -/
def ReadsAlone (read : Text → Option (ρ × Text)) : Prop :=
  ∀ ⦃w rest ref⦄, read (w ++ rest) = some (ref, rest) →
    ∀ rest', read (w ++ rest') = some (ref, rest')

/-- A reader that a text without a closing brace makes no difference to. -/
structure Blind (read : Text → Option (ρ × Text)) : Prop where
  /-- What is read goes up to a closing brace. -/
  closed : ∀ ⦃t ref rest⦄, read t = some (ref, rest) → ∃ v, t = v ++ '}' :: rest
  /-- The same is read before a text without a closing brace. -/
  append : ∀ ⦃s : Text⦄, '}' ∉ s → ∀ v,
    read (v ++ s) = (read v).map fun (ref, rest) => (ref, rest ++ s)

/-- A closing brace stands before a text without one. -/
theorem exists_of_append_eq_brace {v s x rest : Text} (unclosed : '}' ∉ s)
    (h : v ++ s = x ++ '}' :: rest) : ∃ rest', v = x ++ '}' :: rest' ∧ rest = rest' ++ s := by
  rcases List.append_eq_append_iff.mp h with ⟨a, -, split⟩ | ⟨a, rfl, split⟩
  · rw [split] at unclosed
    simp at unclosed
  · cases a with
    | nil =>
        rw [List.nil_append] at split
        rw [← split] at unclosed
        simp at unclosed
    | cons d a =>
        obtain ⟨rfl, rfl⟩ := List.cons.inj split
        exact ⟨a, rfl, rfl⟩

theorem ReadsAlone.blind (alone : ReadsAlone read)
    (closed : ∀ ⦃t ref rest⦄, read t = some (ref, rest) → ∃ v, t = v ++ '}' :: rest) :
    Blind read where
  closed := closed
  append := by
    intro s unclosed v
    have longer {ref : ρ} {rest : Text} (found : read v = some (ref, rest)) :
        read (v ++ s) = some (ref, rest ++ s) := by
      obtain ⟨x, rfl⟩ := closed found
      rw [List.append_cons] at found ⊢
      rw [List.append_assoc]
      exact alone found (rest ++ s)
    cases found : read v with
    | some answer => exact longer found
    | none =>
        refine Option.eq_none_iff_forall_ne_some.mpr fun (ref, rest) across => ?_
        obtain ⟨x, split⟩ := closed across
        obtain ⟨rest', rfl, rfl⟩ := exists_of_append_eq_brace unclosed split
        rw [List.append_assoc, List.cons_append, List.append_cons] at across
        have shorter := alone across rest'
        rw [← List.append_cons, found] at shorter
        cases shorter

namespace Blind

theorem forward (blind : Blind read) : ReadsForward read := by
  intro t ref rest found
  obtain ⟨v, rfl⟩ := blind.closed found
  cases v with
  | nil => exact ⟨'}', [], rfl⟩
  | cons c v => exact ⟨c, v ++ ['}'], by simp⟩

/-- Nothing is read from a text without a closing brace. -/
theorem eq_none (blind : Blind read) {s : Text} (unclosed : '}' ∉ s) : read s = none := by
  refine Option.eq_none_iff_forall_ne_some.mpr fun (ref, rest) found => ?_
  obtain ⟨v, rfl⟩ := blind.closed found
  simp at unclosed

theorem unread (blind : Blind read) {s : Text} (unclosed : '}' ∉ s) : Unread read s [] := by
  rintro u v rfl -
  rw [List.append_nil]
  exact blind.eq_none fun inside => unclosed (List.mem_append_right u inside)

/-- The quote that closes a text is the same before a text without a closing
brace. -/
theorem readUntil?_append (blind : Blind read) {s : Text} (unclosed : '}' ∉ s) (quote : Char) :
    ∀ v : Text, readUntil? quote read (v ++ s) =
      (readUntil? quote read v).map fun (text, ref, rest) => (text, ref, rest ++ s)
  | [] => by
      refine readUntil?_eq_none_iff.mpr fun x y split => blind.eq_none fun inside => unclosed ?_
      rw [List.nil_append] at split
      rw [split]
      exact List.mem_append_right x (List.mem_cons_of_mem quote inside)
  | c :: v => by
      have later := blind.readUntil?_append unclosed quote v
      have here := blind.append unclosed v
      rw [List.cons_append]
      by_cases goesOn : c = quote → read v = none
      · have goesOn' : c = quote → read (v ++ s) = none := fun same => by
          rw [here, goesOn same, Option.map_none]
        rw [readUntil?_open goesOn, readUntil?_open goesOn', later, Option.map_map, Option.map_map]
        rfl
      · obtain ⟨rfl, some⟩ := Classical.not_imp.mp goesOn
        obtain ⟨⟨ref, rest⟩, closes⟩ := Option.ne_none_iff_exists'.mp some
        rw [closes] at here
        rw [readUntil?_closed closes, readUntil?_closed here]
        rfl

end Blind

/-! ## Frames -/

/-- A text in a frame is cut as it is without. -/
theorem pieces_framed (opened : ReadsOpened read) (blind : Blind read) {p s : Text}
    (unopened : Unopened p) (unclosed : '}' ∉ s) (t : Text) :
    pieces read (p ++ (t ++ s)) =
      p.map Piece.plain ++ (pieces read t ++ s.map Piece.plain) := by
  have seam : Seam read t s := fun _ v _ _ => blind.append unclosed v
  rw [pieces_append_of_unread (unopened.unread opened (t ++ s)), pieces_append blind.forward seam,
    pieces_of_unread (blind.unread unclosed)]

/-! ## Readers -/

theorem OpensWith.readsOpened {u : Text} (opens : OpensWith read ('{' :: 'r' :: u)) :
    ReadsOpened read := by
  intro t ref rest found
  obtain ⟨v, rfl⟩ := opens.begins found
  exact ⟨'r', u ++ v, rfl, Or.inl rfl⟩

/-- What is read between braces goes up to a closing one. -/
theorem ReadsBraced.closed (braced : ReadsBraced read) {t rest : Text} {ref : ρ}
    (found : read t = some (ref, rest)) : ∃ v, t = v ++ '}' :: rest := by
  obtain ⟨inside, rfl⟩ := braced found
  exact ⟨'{' :: inside, rfl⟩

namespace DataPathRef

theorem read?_opened : ReadsOpened read? := opensWith.readsOpened

theorem read?_alone : ReadsAlone read? := by
  intro w rest ref found rest'
  obtain ⟨form, proper, same, split⟩ := read?_eq_some_iff.mp found
  obtain rfl := List.append_cancel_right split
  exact read?_eq_some_iff.mpr ⟨form, proper, same, rfl⟩

theorem read?_blind : Blind read? := read?_alone.blind fun _ _ _ => read?_braced.closed

end DataPathRef

namespace PositionalRef

theorem read?_opened : ReadsOpened read? := by
  intro t ref rest found
  obtain ⟨nonempty, digits, rfl⟩ := read?_eq_some_iff.mp found
  obtain ⟨d, key, split⟩ := List.exists_cons_of_ne_nil nonempty
  refine ⟨d, key ++ '}' :: rest, by simp [write, split], Or.inr (digits d ?_)⟩
  rw [split]
  exact List.mem_cons_self

theorem read?_alone : ReadsAlone read? := by
  intro w rest ref found rest'
  obtain ⟨nonempty, digits, split⟩ := read?_eq_some_iff.mp found
  obtain rfl := List.append_cancel_right split
  exact read?_eq_some_iff.mpr ⟨nonempty, digits, rfl⟩

theorem read?_blind : Blind read? := read?_alone.blind fun _ _ _ => read?_braced.closed

end PositionalRef

namespace QueryRef

theorem read?_opened : ReadsOpened read? := opensWith.readsOpened

theorem readEnd?_alone : ReadsAlone readEnd? := by
  intro w rest fallback found rest'
  obtain ⟨w', ends, split⟩ := readEnd?_eq_some_iff.mp found
  obtain rfl := List.append_cancel_right split
  exact readEnd?_eq_some_iff.mpr ⟨w, ends, rfl⟩

theorem readEnd?_blind : Blind readEnd? :=
  readEnd?_alone.blind fun _ _ _ => exists_brace_of_readEnd?

/-- A text without a closing brace makes no difference to the query before it. -/
theorem read?_blind : Blind read? where
  closed := fun _ _ _ => read?_braced.closed
  append := by
    intro s unclosed v
    -- With the front in the text before, the end is looked for in the same places.
    have behind {index w u : Text} {quote : Char} (front : FrontText index w)
        (isQ : isQuote quote = true) (split : v = w ++ quote :: u) :
        read? (v ++ s) = (read? v).map fun (ref, rest) => (ref, rest ++ s) := by
      rw [split, List.append_assoc, List.cons_append, read?_front front isQ, read?_front front isQ,
        readEnd?_blind.readUntil?_append unclosed, Option.map_map, Option.map_map]
      rfl
    cases found : read? v with
    | some answer =>
        obtain ⟨w, quote, u, front, isQ, split⟩ := exists_front found
        rw [behind front isQ split, found]
    | none =>
        refine Option.eq_none_iff_forall_ne_some.mpr fun (ref, rest) across => ?_
        obtain ⟨w, quote, u, front, isQ, split⟩ := exists_front across
        have read := across
        rw [split, read?_front front isQ] at read
        obtain ⟨⟨expression, fallback, rest'⟩, quoted, same⟩ := Option.map_eq_some_iff.mp read
        obtain ⟨x, rfl, ends⟩ := readUntil?_eq_some quoted
        obtain ⟨y, rfl⟩ := exists_brace_of_readEnd? ends
        have whole : v ++ s = (w ++ quote :: (expression ++ quote :: y)) ++ '}' :: rest' := by
          rw [split]
          simp
        obtain ⟨rest'', inside, -⟩ := exists_of_append_eq_brace unclosed whole
        rw [List.append_assoc, List.cons_append] at inside
        rw [behind front isQ inside, found] at across
        cases across

end QueryRef

end Templating
