import Templating.Placeholder.Printer
import Templating.Proofs.Placeholder.Anatomy
import Templating.Proofs.Placeholder.DataPath

/-!
# Braces

A placeholder of any grammar begins with an opening brace and ends with a closing
one.  A positional placeholder has only digits between them, so no brace stands
inside it, and it does not reach into a placeholder of another grammar or out of
it.  Hence a text is cut into positional placeholders in the same way before,
inside and behind such a placeholder (`seam_before_opening`,
`seam_behind_closing`).
-/

namespace Templating

/-- A reader reads only texts between two braces. -/
def ReadsBraced {ρ : Type} (read : Text → Option (ρ × Text)) : Prop :=
  ∀ ⦃t ref rest⦄, read t = some (ref, rest) → ∃ inside, t = '{' :: (inside ++ '}' :: rest)

theorem ReadsBraced.forward {ρ : Type} {read : Text → Option (ρ × Text)}
    (braced : ReadsBraced read) : ReadsForward read := by
  intro t ref rest h
  obtain ⟨inside, rfl⟩ := braced h
  exact ⟨'{', inside ++ ['}'], by simp⟩

/-- What stands in a text stands between braces. -/
theorem ReadsBraced.exists_of_stands {ρ : Type} {read : Text → Option (ρ × Text)}
    (braced : ReadsBraced read) {t before w behind : Text} (h : Stands read t before w behind) :
    ∃ inside, w = '{' :: (inside ++ ['}']) := by
  obtain ⟨ref, found⟩ := h.exists_read braced.forward
  obtain ⟨inside, split⟩ := braced found
  have same : w ++ behind = '{' :: (inside ++ ['}']) ++ behind := by
    rw [split]
    simp
  exact ⟨inside, List.append_cancel_right same⟩

/-- There is no placeholder in a text without an opening brace. -/
theorem ReadsBraced.holes_eq_nil {ρ : Type} {read : Text → Option (ρ × Text)}
    (braced : ReadsBraced read) {t : Text} (unopened : '{' ∉ t) : holes read t = [] := by
  refine List.eq_nil_iff_forall_not_mem.mpr fun (w, ref) member => unopened ?_
  obtain ⟨before, rest, split, found⟩ := exists_of_mem_holes braced.forward member
  obtain ⟨inside, opened⟩ := braced found
  rw [split, opened]
  simp

/-! ## Queries -/

namespace QueryRef

theorem FrontText.exists_brace {index w : Text} (front : FrontText index w) :
    ∃ u, w = '{' :: u := by
  cases front
  exact ⟨_, rfl⟩

theorem read?_braced : ReadsBraced read? := by
  intro t ⟨index, expression, fallback⟩ rest h
  obtain ⟨w, quote, v, front, isQ, rfl⟩ := exists_front h
  rw [read?_front front isQ] at h
  obtain ⟨⟨_, _, _⟩, found, same⟩ := Option.map_eq_some_iff.mp h
  cases same
  obtain ⟨u, rfl, ends⟩ := readUntil?_eq_some found
  obtain ⟨x, rfl⟩ := exists_brace_of_readEnd? ends
  obtain ⟨y, rfl⟩ := front.exists_brace
  exact ⟨y ++ quote :: (expression ++ quote :: x), by simp⟩

end QueryRef

/-! ## Data paths -/

theorem DataPathRef.read?_braced : ReadsBraced read? := by
  intro t ref rest h
  obtain ⟨form, -, -, rfl⟩ := read?_eq_some_iff.mp h
  refine ⟨opening.tail ++ (form.index ++ ']' :: '[' :: (form.list ++ ']' ::
    fallbackText form.fallback)), ?_⟩
  simp [Form.write, opening]

/-! ## Positional placeholders -/

namespace PositionalRef

/-- A positional placeholder is decimal digits between braces. -/
theorem read?_eq_some_iff {t rest : Text} {ref : PositionalRef} :
    read? t = some (ref, rest) ↔
      ref.key ≠ [] ∧ (∀ c ∈ ref.key, isDecimalDigit c = true) ∧ t = ref.write ++ rest := by
  constructor
  · intro h
    rw [read?.eq_def] at h
    split at h
    next u =>
      split at h
      next d digits rest' taken dropped =>
        cases h
        have split := List.takeWhile_append_dropWhile (p := isDecimalDigit) (l := u)
        rw [taken, dropped] at split
        refine ⟨List.cons_ne_nil d digits, fun c member => ?_, ?_⟩
        · rw [← taken] at member
          exact Text.mem_takeWhile member
        · rw [← split, write]
          simp
      next => cases h
    next => cases h
  · obtain ⟨key⟩ := ref
    rintro ⟨nonempty, digits, rfl⟩
    obtain ⟨d, key, rfl⟩ := List.exists_cons_of_ne_nil nonempty
    have stops : Text.Stops isDecimalDigit ('}' :: rest) := Text.stops_cons.mpr (by decide)
    have written : write ⟨d :: key⟩ ++ rest = '{' :: ((d :: key) ++ '}' :: rest) := by simp [write]
    simp only [written, read?, Text.takeWhile_append_of_stops digits stops,
      Text.dropWhile_append_of_stops digits stops]

theorem read?_braced : ReadsBraced read? := by
  intro t ref rest h
  obtain ⟨-, -, rfl⟩ := read?_eq_some_iff.mp h
  exact ⟨ref.key, by simp [write]⟩

/-- A text that is no positional placeholder is not made one by text behind it, if
it closes a brace itself or an opening brace comes next. -/
theorem read?_append_eq_none {v t : Text} (nonempty : v ≠ [])
    (apart : '}' ∈ v ∨ t.head? = some '{') (unread : read? v = none) : read? (v ++ t) = none := by
  refine Option.eq_none_iff_forall_ne_some.mpr fun (ref, rest) found => ?_
  obtain ⟨keyed, digits, split⟩ := read?_eq_some_iff.mp found
  have whole (u : Text) : v ≠ ref.write ++ u := by
    intro same
    rw [read?_eq_some_iff.mpr ⟨keyed, digits, same⟩] at unread
    cases unread
  rcases List.append_eq_append_iff.mp split with ⟨across, written, behind⟩ | ⟨u, same, -⟩
  · -- The placeholder ends behind the seam, so all before its last brace are digits.
    obtain ⟨c, v, rfl⟩ := List.exists_cons_of_ne_nil nonempty
    obtain ⟨rfl, inside⟩ := List.cons.inj written
    cases across with
    | nil => exact whole [] (by rw [written]; simp)
    | cons d across =>
        rcases apart with closes | opens
        · have closes : '}' ∈ v := (List.mem_cons.mp closes).resolve_left (by decide)
          rcases List.prefix_concat_iff.mp ⟨d :: across, inside.symm⟩ with all | before
          · rw [inside] at all
            simp at all
          · exact absurd (digits '}' (before.subset closes)) (by decide)
        · rw [behind] at opens
          cases opens
          have member : '{' ∈ ref.key ++ ['}'] := by simp [inside]
          rcases List.mem_append.mp member with digit | last
          · exact absurd (digits '{' digit) (by decide)
          · exact absurd last (by decide)
  · exact whole u same

theorem seam_of_apart {s t : Text}
    (apart : ∀ u v, s = u ++ v → v ≠ [] → '}' ∈ v ∨ t.head? = some '{') : Seam read? s t := by
  intro u v split nonempty
  cases found : read? v with
  | none => exact read?_append_eq_none nonempty (apart u v split nonempty) found
  | some answer =>
      obtain ⟨keyed, digits, rfl⟩ := read?_eq_some_iff.mp found
      exact read?_eq_some_iff.mpr ⟨keyed, digits, List.append_assoc ..⟩

/-- No positional placeholder stands across an opening brace. -/
theorem seam_before_opening (s t : Text) : Seam read? s ('{' :: t) :=
  seam_of_apart fun _ _ _ _ => Or.inr rfl

/-- No positional placeholder stands across a closing brace. -/
theorem seam_behind_closing (s t : Text) : Seam read? (s ++ ['}']) t := by
  refine seam_of_apart fun u v split nonempty => Or.inl ?_
  obtain ⟨v', d, rfl⟩ := (List.eq_nil_or_concat v).resolve_left nonempty
  rw [List.concat_eq_append, ← List.append_assoc] at split
  obtain ⟨-, last⟩ := List.append_inj' split rfl
  rw [List.concat_eq_append, ← last]
  exact List.mem_append_right v' (List.mem_singleton_self '}')

end PositionalRef

end Templating
