import Templating.Placeholder.Piece

/-!
# Cutting at a place

What cutting does at one place of a text, and at the seam of two texts.

`pieces_eq_cons` opens one step of cutting.  So every placeholder that cutting
finds is read where it stands, with the rest of the text behind it
(`read_of_pieces_eq`).  `Stands` names the texts before and behind it.
`head?_located_eq_some_iff` says when the first placeholder stands at the front.

A reader may read across the seam of two texts.  Where it does not, cutting the
texts together is cutting each of them (`pieces_append`).  Where it reads nothing
from any place of the first text, that text stays whole
(`pieces_append_of_unread`).
-/

namespace Templating

variable {ρ : Type} {read : Text → Option (ρ × Text)}

/-! ## One step -/

/-- Cutting begins with a character that begins no placeholder, or with a
placeholder, and goes on behind it. -/
theorem pieces_eq_cons (forward : ReadsForward read) {t : Text} {piece : Piece ρ}
    {later : List (Piece ρ)} (h : pieces read t = piece :: later) :
    (∃ c rest, piece = .plain c ∧ t = c :: rest ∧ later = pieces read rest) ∨
      ∃ w ref rest, piece = .hole w ref ∧ t = w ++ rest ∧ read t = some (ref, rest) ∧
        later = pieces read rest := by
  cases t with
  | nil => cases h
  | cons c t =>
      cases found : read (c :: t) with
      | none =>
          rw [pieces_plain found] at h
          obtain ⟨rfl, rfl⟩ := List.cons.inj h
          exact Or.inl ⟨c, t, rfl, rfl, rfl⟩
      | some answer =>
          obtain ⟨ref, rest⟩ := answer
          obtain ⟨d, covered, split⟩ := forward found
          obtain ⟨rfl, rfl⟩ := List.cons.inj split
          rw [pieces_hole found] at h
          obtain ⟨rfl, rfl⟩ := List.cons.inj h
          exact Or.inr ⟨c :: covered, ref, rest, rfl, rfl, rfl, rfl⟩

/-! ## Placeholders where they stand -/

/-- A placeholder is read where cutting found it, and cutting goes on behind
it. -/
theorem read_of_pieces_eq (forward : ReadsForward read) {w : Text} {ref : ρ}
    {later : List (Piece ρ)} :
    ∀ {before : List (Piece ρ)} {t : Text}, pieces read t = before ++ .hole w ref :: later →
      read (w ++ later.flatMap Piece.text) = some (ref, later.flatMap Piece.text)
  | [], t, h => by
      rcases pieces_eq_cons forward h with
        ⟨c, rest, isPlain, -⟩ | ⟨w', ref', rest, isHole, rfl, found, rfl⟩
      · cases isPlain
      · cases isHole
        rw [flatMap_text_pieces forward]
        exact found
  | piece :: before, t, h => by
      rcases pieces_eq_cons forward h with
        ⟨c, rest, -, -, behind⟩ | ⟨w', ref', rest, -, -, -, behind⟩
      · exact read_of_pieces_eq forward behind.symm
      · exact read_of_pieces_eq forward behind.symm

theorem mem_holes {t w : Text} {ref : ρ} :
    (w, ref) ∈ holes read t ↔ .hole w ref ∈ pieces read t := by
  rw [holes, List.mem_filterMap]
  constructor
  · rintro ⟨piece, member, isHole⟩
    cases piece with
    | plain c => cases isHole
    | hole w' ref' =>
        cases isHole
        exact member
  · intro member
    exact ⟨.hole w ref, member, rfl⟩

/-- A placeholder stands in a text, between the text before it and the text behind
it. -/
def Stands (read : Text → Option (ρ × Text)) (t before w behind : Text) : Prop :=
  ∃ earlier ref later, pieces read t = earlier ++ .hole w ref :: later ∧
    before = earlier.flatMap Piece.text ∧ behind = later.flatMap Piece.text

theorem Stands.eq (forward : ReadsForward read) {t before w behind : Text}
    (h : Stands read t before w behind) : t = before ++ (w ++ behind) := by
  obtain ⟨earlier, ref, later, cut, rfl, rfl⟩ := h
  rw [← flatMap_text_pieces forward t, cut, List.flatMap_append, List.flatMap_cons]
  rfl

/-- A placeholder is read where it stands. -/
theorem Stands.exists_read (forward : ReadsForward read) {t before w behind : Text}
    (h : Stands read t before w behind) : ∃ ref, read (w ++ behind) = some (ref, behind) := by
  obtain ⟨earlier, ref, later, cut, rfl, rfl⟩ := h
  exact ⟨ref, read_of_pieces_eq forward cut⟩

/-- Every placeholder of a text was read inside the text. -/
theorem exists_of_mem_holes (forward : ReadsForward read) {t w : Text} {ref : ρ}
    (h : (w, ref) ∈ holes read t) :
    ∃ before rest, t = before ++ (w ++ rest) ∧ read (w ++ rest) = some (ref, rest) := by
  obtain ⟨earlier, later, cut⟩ := List.append_of_mem (mem_holes.mp h)
  have stands : Stands read t (earlier.flatMap Piece.text) w (later.flatMap Piece.text) :=
    ⟨earlier, ref, later, cut, rfl, rfl⟩
  exact ⟨_, _, stands.eq forward, read_of_pieces_eq forward cut⟩

/-- A placeholder at the front of a text is cut off. -/
theorem pieces_of_read (forward : ReadsForward read) {w rest : Text} {ref : ρ}
    (found : read (w ++ rest) = some (ref, rest)) :
    pieces read (w ++ rest) = .hole w ref :: pieces read rest := by
  obtain ⟨c, covered, split⟩ := forward found
  obtain rfl : w = c :: covered := List.append_cancel_right split
  rw [List.cons_append, pieces_hole found]

/-- A placeholder that is read to the end of a text is all there is to cut. -/
theorem pieces_of_read_whole (forward : ReadsForward read) {w : Text} {ref : ρ}
    (found : read w = some (ref, [])) : pieces read w = [.hole w ref] := by
  have cut : pieces read (w ++ []) = .hole w ref :: pieces read [] :=
    pieces_of_read forward (by rw [List.append_nil]; exact found)
  rwa [List.append_nil, pieces_nil] at cut

/-! ## The first placeholder -/

theorem le_start_of_mem_locateFrom {span : Span} {ref : ρ} :
    ∀ {parts : List (Piece ρ)} {offset : Nat},
      (span, ref) ∈ locateFrom offset parts → offset ≤ span.start
  | [], _, h => by cases h
  | .plain c :: parts, offset, h =>
      Nat.le_trans (Nat.le_add_right offset c.utf8Size) (le_start_of_mem_locateFrom h)
  | .hole w ref' :: parts, offset, h => by
      rcases List.mem_cons.mp h with same | later
      · cases same
        exact Nat.le_refl offset
      · exact Nat.le_trans (Nat.le_add_right offset _) (le_start_of_mem_locateFrom later)

/-- The first placeholder begins at the first byte just when one is read from the
whole text. -/
theorem head?_located_eq_some_iff (forward : ReadsForward read) {t : Text} {ref : ρ} {stop : Nat} :
    (located read t).head? = some (⟨0, stop⟩, ref) ↔
      ∃ w rest, t = w ++ rest ∧ read t = some (ref, rest) ∧ Text.byteSize w = stop := by
  constructor
  · intro h
    have member := List.mem_of_mem_head? h
    cases cut : pieces read t with
    | nil =>
        rw [located, cut] at h
        cases h
    | cons piece later =>
        rw [located, cut] at h member
        rcases pieces_eq_cons forward cut with
          ⟨c, rest, rfl, -⟩ | ⟨w, ref', rest, rfl, rfl, found, -⟩
        · rw [locateFrom, Nat.zero_add] at member
          have behind : c.utf8Size ≤ 0 := le_start_of_mem_locateFrom member
          have positive := Char.utf8Size_pos c
          omega
        · rw [locateFrom, List.head?_cons, Nat.zero_add] at h
          cases h
          exact ⟨w, rest, rfl, found, rfl⟩
  · rintro ⟨w, rest, rfl, found, rfl⟩
    obtain ⟨c, covered, split⟩ := forward found
    have same : w = c :: covered := List.append_cancel_right split
    subst same
    rw [located, List.cons_append, pieces_hole found, locateFrom, List.head?_cons, Nat.zero_add]

/-! ## Two texts side by side -/

/-- What a reader reads from a place in one text does not change when the other
follows. -/
def Seam (read : Text → Option (ρ × Text)) (s t : Text) : Prop :=
  ∀ ⦃u v : Text⦄, s = u ++ v → v ≠ [] →
    read (v ++ t) = (read v).map fun (ref, rest) => (ref, rest ++ t)

theorem Seam.tail {u s t : Text} (seam : Seam read (u ++ s) t) : Seam read s t :=
  fun u' _ split nonempty => seam (by rw [split, ← List.append_assoc]) nonempty

/-- Texts without a placeholder across their seam are cut apart. -/
theorem pieces_append (forward : ReadsForward read) {s t : Text} (seam : Seam read s t) :
    pieces read (s ++ t) = pieces read s ++ pieces read t := by
  induction hn : s.length using Nat.strongRecOn generalizing s with
  | ind n ih =>
      subst hn
      cases s with
      | nil => rfl
      | cons c s =>
          have across := seam (List.nil_append (c :: s)).symm (List.cons_ne_nil c s)
          cases found : read (c :: s) with
          | none =>
              rw [found, Option.map_none, List.cons_append] at across
              have rest := ih s.length (Nat.lt_succ_self _) (Seam.tail (u := [c]) seam) rfl
              rw [pieces_plain found, List.cons_append, pieces_plain across, rest]
              rfl
          | some answer =>
              obtain ⟨ref, rest⟩ := answer
              obtain ⟨d, covered, split⟩ := forward found
              obtain ⟨rfl, rfl⟩ := List.cons.inj split
              rw [found, Option.map_some, List.cons_append, List.append_assoc] at across
              have shorter : rest.length < (c :: (covered ++ rest)).length := by
                simp only [List.length_cons, List.length_append]
                omega
              have behind := ih rest.length shorter (Seam.tail (u := c :: covered) seam) rfl
              rw [pieces_hole found, List.cons_append, List.append_assoc, pieces_hole across,
                behind]
              rfl

/-! ## Texts without a placeholder -/

/-- Nothing is read from any place of one text, with the other behind it. -/
def Unread (read : Text → Option (ρ × Text)) (s t : Text) : Prop :=
  ∀ ⦃u v : Text⦄, s = u ++ v → v ≠ [] → read (v ++ t) = none

/-- A text in which nothing is read stays whole. -/
theorem pieces_append_of_unread {s t : Text} (unread : Unread read s t) :
    pieces read (s ++ t) = s.map Piece.plain ++ pieces read t := by
  induction s with
  | nil => rfl
  | cons c s ih =>
      have here : read (c :: (s ++ t)) = none :=
        unread (List.nil_append (c :: s)).symm (List.cons_ne_nil c s)
      have later : Unread read s t := fun u v split nonempty =>
        unread (u := c :: u) (congrArg (c :: ·) split) nonempty
      rw [List.cons_append, pieces_plain here, ih later, List.map_cons, List.cons_append]

theorem pieces_of_unread {s : Text} (unread : Unread read s []) :
    pieces read s = s.map Piece.plain := by
  have whole := pieces_append_of_unread unread
  rwa [List.append_nil, pieces_nil, List.append_nil] at whole

theorem filterMap_hole?_plain (s : Text) :
    (s.map Piece.plain).filterMap (Piece.hole? (ρ := ρ)) = [] := by
  rw [List.filterMap_map]
  exact List.filterMap_eq_nil_iff.mpr fun _ _ => rfl

theorem holes_append_of_unread {s t : Text} (unread : Unread read s t) :
    holes read (s ++ t) = holes read t := by
  rw [holes, pieces_append_of_unread unread, List.filterMap_append, filterMap_hole?_plain,
    List.nil_append, holes]

end Templating
