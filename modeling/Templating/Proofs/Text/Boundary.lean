import Templating.Text.Character

/-!
# Boundaries

Reading takes as many characters of a kind as there are.  So a reader takes the
same part of a text whatever follows, if what follows does not go on with that
kind.

A text *stops* a kind of characters if it is empty or begins with a character of
another kind.  It *turns to* a list of characters if the first character that is
no blank is in the list.  A text that turns to certain characters stops every
kind that has neither a blank nor any of them (`TurnsTo.stops`).
-/

namespace Templating

/-- A quote is no blank. -/
theorem isBlank_of_isQuote {c : Char} (h : isQuote c = true) : isBlank c = false := by
  simp only [isQuote, Bool.or_eq_true, beq_iff_eq] at h
  rcases h with rfl | rfl
  · rfl
  · rfl

theorem isQuote_of_isBlank {c : Char} (blank : isBlank c = true) : isQuote c = false := by
  apply Bool.eq_false_iff.mpr
  intro isQ
  rw [isBlank_of_isQuote isQ] at blank
  cases blank

namespace Text

/-! ## Runs -/

/-- A text does not go on with characters of a kind. -/
def Stops (kind : Char → Bool) (t : Text) : Prop := ∀ c ∈ t.head?, kind c = false

variable {kind : Char → Bool}

theorem stops_nil : Stops kind [] := by
  intro c h
  cases h

theorem stops_cons {c : Char} {t : Text} : Stops kind (c :: t) ↔ kind c = false := by
  simp [Stops]

theorem stops_dropWhile (t : Text) : Stops kind (t.dropWhile kind) := by
  intro c h
  have first := List.head?_dropWhile_not kind t
  rw [Option.mem_def.mp h] at first
  exact first

theorem takeWhile_append_of_stops {w u : Text} (all : ∀ c ∈ w, kind c = true)
    (stops : Stops kind u) : (w ++ u).takeWhile kind = w := by
  rw [List.takeWhile_append_of_pos all]
  cases u with
  | nil => rw [List.takeWhile_nil, List.append_nil]
  | cons c u => rw [List.takeWhile_cons_of_neg (by simp [stops_cons.mp stops]), List.append_nil]

theorem dropWhile_append_of_stops {w u : Text} (all : ∀ c ∈ w, kind c = true)
    (stops : Stops kind u) : (w ++ u).dropWhile kind = u := by
  rw [List.dropWhile_append_of_pos all]
  cases u with
  | nil => rfl
  | cons c u => rw [List.dropWhile_cons_of_neg (by simp [stops_cons.mp stops])]

theorem mem_takeWhile {c : Char} {t : Text} (h : c ∈ t.takeWhile kind) : kind c = true :=
  List.all_eq_true.mp (List.all_takeWhile (p := kind)) c h

/-- A kind of fewer characters is stopped as well. -/
theorem Stops.mono {kind' : Char → Bool} {t : Text} (h : Stops kind t)
    (fewer : ∀ c, kind c = false → kind' c = false) : Stops kind' t :=
  fun c first => fewer c (h c first)

/-! ## Blanks -/

/-- A text of blanks. -/
def Blanks (t : Text) : Prop := ∀ c ∈ t, isBlank c = true

theorem blanks_nil : Blanks [] := by
  intro c h
  cases h

theorem Blanks.append {s t : Text} (left : Blanks s) (right : Blanks t) : Blanks (s ++ t) := by
  intro c h
  exact (List.mem_append.mp h).elim (left c) (right c)

theorem skipBlanks_append {b : Text} (blank : Blanks b) (t : Text) :
    skipBlanks (b ++ t) = skipBlanks t :=
  List.dropWhile_append_of_pos blank

theorem skipBlanks_cons {c : Char} (solid : isBlank c = false) (t : Text) :
    skipBlanks (c :: t) = c :: t :=
  List.dropWhile_cons_of_neg (by simp [solid])

/-- A text is its leading blanks and the rest. -/
theorem exists_blanks (t : Text) : ∃ b, Blanks b ∧ t = b ++ skipBlanks t :=
  ⟨t.takeWhile isBlank, fun _ => mem_takeWhile, (List.takeWhile_append_dropWhile).symm⟩

theorem skipBlanks_eq_nil {t : Text} : skipBlanks t = [] ↔ Blanks t := by
  constructor
  · intro h
    obtain ⟨b, blank, split⟩ := exists_blanks t
    rw [split, h, List.append_nil]
    exact blank
  · intro blank
    rw [← List.append_nil t, skipBlanks_append blank]
    rfl

theorem isBlank_of_skipBlanks {t u : Text} {c : Char} (h : skipBlanks t = c :: u) :
    isBlank c = false := by
  have stops : Stops isBlank (skipBlanks t) := stops_dropWhile t
  rw [h] at stops
  exact stops_cons.mp stops

theorem skipBlanks_skipBlanks (t : Text) : skipBlanks (skipBlanks t) = skipBlanks t := by
  cases h : skipBlanks t with
  | nil => rfl
  | cons c u => exact skipBlanks_cons (isBlank_of_skipBlanks h) u

/-- A text begins with a character that is no blank. -/
def Solid (t : Text) : Prop := ∃ c u, t = c :: u ∧ isBlank c = false

theorem solid_cons {c : Char} (solid : isBlank c = false) (t : Text) : Solid (c :: t) :=
  ⟨c, t, rfl, solid⟩

theorem Solid.append {t : Text} (h : Solid t) (u : Text) : Solid (t ++ u) := by
  obtain ⟨c, v, rfl, solid⟩ := h
  exact solid_cons solid (v ++ u)

theorem Solid.skipBlanks_eq {t : Text} (h : Solid t) : skipBlanks t = t := by
  obtain ⟨c, v, rfl, solid⟩ := h
  exact skipBlanks_cons solid v

/-! ## What a text turns to -/

/-- The first character of a text that is no blank is one of these. -/
def TurnsTo (firsts : List Char) (t : Text) : Prop := ∃ c u, skipBlanks t = c :: u ∧ c ∈ firsts

theorem turnsTo_of_blanks {firsts : List Char} {b : Text} {c : Char} (blank : Blanks b)
    (solid : isBlank c = false) (first : c ∈ firsts) (t : Text) : TurnsTo firsts (b ++ c :: t) :=
  ⟨c, t, by rw [skipBlanks_append blank, skipBlanks_cons solid], first⟩

theorem TurnsTo.mono {firsts firsts' : List Char} {t : Text} (h : TurnsTo firsts t)
    (more : ∀ c ∈ firsts, c ∈ firsts') : TurnsTo firsts' t := by
  obtain ⟨c, u, skipped, first⟩ := h
  exact ⟨c, u, skipped, more c first⟩

/-- A kind without blanks and without the characters that a text turns to is
stopped by it. -/
theorem TurnsTo.stops {firsts : List Char} {t : Text} (h : TurnsTo firsts t)
    (blank : ∀ c, isBlank c = true → kind c = false)
    (others : (firsts.all fun c => !kind c) = true) : Stops kind t := by
  obtain ⟨c, u, skipped, first⟩ := h
  obtain ⟨b, blanks, split⟩ := exists_blanks t
  rw [split, skipped]
  cases b with
  | nil =>
      have other := List.all_eq_true.mp others c first
      rw [Bool.not_eq_true'] at other
      exact stops_cons.mpr other
  | cons d b => exact stops_cons.mpr (blank d (blanks d List.mem_cons_self))

end Text

end Templating
