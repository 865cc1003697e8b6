import Templating.Proofs.Placeholder.Cutting

/-!
# Spans

Where the placeholders of a text stand, in bytes.  Their spans ascend and do not
overlap (`pairwise_located`).  Each span begins and ends between two characters, and
its placeholder is read there (`exists_of_mem_located`).  Where no span lies, nothing
can be read (`read_eq_none_of_uncovered`).  So cutting finds a placeholder wherever one
can be read, unless the place is covered by an earlier one.

Other texts may be put in the places of the spans (`Text.replaceSpans`).  As no
character between them is lost, this is putting them in the places of the cut
placeholders (`replaceSpans_spans`).
-/

namespace Templating

open Text (byteSize)

variable {ρ : Type} {read : Text → Option (ρ × Text)}

/-! ## Where placeholders stand -/

/-- Whether a byte offset lies in a span. -/
def Span.Covers (span : Span) (n : Nat) : Prop := span.start ≤ n ∧ n < span.stop

/-- The spans of the placeholders of a text. -/
def spans (read : Text → Option (ρ × Text)) (t : Text) : List Span := (located read t).map Prod.fst

theorem pairwise_locateFrom :
    ∀ (parts : List (Piece ρ)) (offset : Nat),
      (locateFrom offset parts).Pairwise fun hole later => hole.1.stop ≤ later.1.start
  | [], _ => .nil
  | .plain c :: parts, offset => pairwise_locateFrom parts (offset + c.utf8Size)
  | .hole w _ :: parts, offset =>
      .cons (fun _ later => le_start_of_mem_locateFrom later)
        (pairwise_locateFrom parts (offset + byteSize w))

/-- Placeholders stand one behind the other. -/
theorem pairwise_located (read : Text → Option (ρ × Text)) (t : Text) :
    (located read t).Pairwise fun hole later => hole.1.stop ≤ later.1.start :=
  pairwise_locateFrom (pieces read t) 0

theorem exists_of_mem_locateFrom {span : Span} {ref : ρ} :
    ∀ {parts : List (Piece ρ)} {offset : Nat}, (span, ref) ∈ locateFrom offset parts →
      ∃ earlier w later, parts = earlier ++ .hole w ref :: later ∧
        span.start = offset + byteSize (earlier.flatMap Piece.text) ∧
        span.stop = span.start + byteSize w
  | [], _, h => by cases h
  | .plain c :: parts, offset, h => by
      have inside : (span, ref) ∈ locateFrom (offset + c.utf8Size) parts := h
      obtain ⟨earlier, w, later, rfl, start, stop⟩ := exists_of_mem_locateFrom inside
      refine ⟨.plain c :: earlier, w, later, rfl, ?_, stop⟩
      rw [start, List.flatMap_cons, Piece.text, Text.byteSize_append]
      exact Nat.add_assoc _ _ _
  | .hole w ref' :: parts, offset, h => by
      rcases List.mem_cons.mp h with same | behind
      · cases same
        exact ⟨[], w, parts, rfl, rfl, rfl⟩
      · obtain ⟨earlier, w', later, rfl, start, stop⟩ := exists_of_mem_locateFrom behind
        refine ⟨.hole w ref' :: earlier, w', later, rfl, ?_, stop⟩
        rw [start, List.flatMap_cons, Piece.text, Text.byteSize_append, Nat.add_assoc]

/-- A placeholder is read where its span begins, and what is read goes up to where its
span ends. -/
theorem exists_of_mem_located (forward : ReadsForward read) {t : Text} {span : Span} {ref : ρ}
    (h : (span, ref) ∈ located read t) :
    ∃ before w rest, t = before ++ (w ++ rest) ∧ span.start = byteSize before ∧
      span.stop = span.start + byteSize w ∧ read (w ++ rest) = some (ref, rest) := by
  obtain ⟨earlier, w, later, cut, start, stop⟩ := exists_of_mem_locateFrom h
  have stands : Stands read t (earlier.flatMap Piece.text) w (later.flatMap Piece.text) :=
    ⟨earlier, ref, later, cut, rfl, rfl⟩
  rw [Nat.zero_add] at start
  exact ⟨_, w, _, stands.eq forward, start, stop, read_of_pieces_eq forward cut⟩

/-! ## Where none stands -/

/-- A place in two texts side by side is behind the first or inside it. -/
theorem exists_of_append_eq_cons {w rest before behind : Text} {c : Char}
    (h : w ++ rest = before ++ c :: behind) :
    (∃ before', before = w ++ before' ∧ rest = before' ++ c :: behind) ∨
      ∃ d inside, w = before ++ d :: inside := by
  rcases List.append_eq_append_iff.mp h with past | ⟨inside, rfl, same⟩
  · exact Or.inl past
  · cases inside with
    | nil => exact Or.inl ⟨[], by simp, same.symm⟩
    | cons d inside => exact Or.inr ⟨d, inside, rfl⟩

/-- Nothing is read from a place that no placeholder covers.  The induction goes along
the cut text, with the offset of its first byte. -/
theorem read_eq_none_of_locateFrom (forward : ReadsForward read) {c : Char} {behind : Text} :
    ∀ {parts : List (Piece ρ)} {t before : Text} (offset : Nat), pieces read t = parts →
      t = before ++ c :: behind →
        (∀ hole ∈ locateFrom offset parts, ¬ hole.1.Covers (offset + byteSize before)) →
          read (c :: behind) = none
  | [], t, before, _, cut, split, _ => by
      have none : t = [] := by rw [← flatMap_text_pieces forward t, cut, List.flatMap_nil]
      rw [none] at split
      have some : before ++ c :: behind ≠ [] :=
        List.append_ne_nil_of_right_ne_nil before (List.cons_ne_nil c behind)
      exact absurd split.symm some
  | piece :: later, t, before, offset, cut, split, uncovered => by
      rcases pieces_eq_cons forward cut with
        ⟨d, rest, rfl, rfl, behindPiece⟩ | ⟨w, ref, rest, rfl, rfl, -, behindPiece⟩
      · cases before with
        | nil =>
            -- The first piece is no placeholder, so none was read here.
            refine Option.eq_none_iff_forall_ne_some.mpr fun (ref, rest') found => ?_
            obtain ⟨e, covered, same⟩ := forward found
            rw [split, List.nil_append, same] at cut
            rw [same] at found
            rw [pieces_hole found] at cut
            cases (List.cons.inj cut).1
        | cons e before =>
            obtain ⟨rfl, split'⟩ := List.cons.inj split
            refine read_eq_none_of_locateFrom forward (offset + d.utf8Size) behindPiece.symm
              split' ?_
            intro hole member
            have apart := uncovered hole member
            rwa [Text.byteSize_cons, ← Nat.add_assoc] at apart
      · rcases exists_of_append_eq_cons split with ⟨before', rfl, split'⟩ | ⟨d, inside, rfl⟩
        · refine read_eq_none_of_locateFrom forward (offset + byteSize w) behindPiece.symm split' ?_
          intro hole member
          have apart := uncovered hole (List.mem_cons_of_mem _ member)
          rwa [Text.byteSize_append, ← Nat.add_assoc] at apart
        · have covered : Span.Covers ⟨offset, offset + byteSize (before ++ d :: inside)⟩
              (offset + byteSize before) := by
            have positive := Char.utf8Size_pos d
            simp only [Span.Covers, Text.byteSize_append, Text.byteSize_cons]
            omega
          exact absurd covered (uncovered _ List.mem_cons_self)

/-- Nothing is read from a place of a text that no placeholder covers. -/
theorem read_eq_none_of_uncovered (forward : ReadsForward read) {t before behind : Text}
    (split : t = before ++ behind)
    (uncovered : ∀ hole ∈ located read t, ¬ hole.1.Covers (byteSize before)) :
    read behind = none := by
  cases behind with
  | nil =>
      refine Option.eq_none_iff_forall_ne_some.mpr fun (ref, rest) found => ?_
      obtain ⟨c, covered, same⟩ := forward found
      cases same
  | cons c behind =>
      refine read_eq_none_of_locateFrom forward 0 rfl split fun hole member => ?_
      rw [Nat.zero_add]
      exact uncovered hole member

/-! ## Texts in the places of spans -/

namespace Text

/-- A text cut behind so many bytes.  A character across the cut is not divided. -/
def cut : Nat → Text → Text × Text
  | 0, t => ([], t)
  | _ + 1, [] => ([], [])
  | n + 1, c :: t =>
      let (before, behind) := cut (n + 1 - c.utf8Size) t
      (c :: before, behind)

/-- A text that begins at a byte offset, with what replaces them in the places of some
spans.  What is between the spans stays. -/
def replaceSpans (replace : Text → Text) : Nat → List Span → Text → Text
  | _, [], t => t
  | offset, span :: spans, t =>
      let (before, t) := cut (span.start - offset) t
      let (w, t) := cut (span.stop - span.start) t
      before ++ (replace w ++ replaceSpans replace span.stop spans t)

theorem cut_zero (t : Text) : cut 0 t = ([], t) := by
  cases t with
  | nil => rfl
  | cons c t => rfl

theorem cut_cons {n : Nat} {c : Char} (le : c.utf8Size ≤ n) (t : Text) :
    cut n (c :: t) = (c :: (cut (n - c.utf8Size) t).1, (cut (n - c.utf8Size) t).2) := by
  have positive := Char.utf8Size_pos c
  obtain ⟨m, rfl⟩ := Nat.exists_eq_add_one_of_ne_zero (by omega : n ≠ 0)
  rfl

/-- A cut between two texts gives the two. -/
theorem cut_append (s t : Text) : cut (byteSize s) (s ++ t) = (s, t) := by
  induction s with
  | nil => exact cut_zero t
  | cons c s ih =>
      rw [List.cons_append, byteSize_cons, cut_cons (Nat.le_add_right _ _), Nat.add_sub_cancel_left,
        ih]

/-- A character before the spans stays. -/
theorem replaceSpans_cons (replace : Text → Text) {offset : Nat} {c : Char} {spans : List Span}
    (before : ∀ span ∈ spans, offset + c.utf8Size ≤ span.start) (t : Text) :
    replaceSpans replace offset spans (c :: t) =
      c :: replaceSpans replace (offset + c.utf8Size) spans t := by
  cases spans with
  | nil => rfl
  | cons span spans =>
      have first := before span List.mem_cons_self
      have le : c.utf8Size ≤ span.start - offset := by omega
      simp only [replaceSpans, cut_cons le, Nat.sub_sub, List.cons_append]

/-- A span at the front is replaced. -/
theorem replaceSpans_append (replace : Text → Text) (offset : Nat) (w : Text) (spans : List Span)
    (t : Text) :
    replaceSpans replace offset (⟨offset, offset + byteSize w⟩ :: spans) (w ++ t) =
      replace w ++ replaceSpans replace (offset + byteSize w) spans t := by
  simp only [replaceSpans, Nat.sub_self, Nat.add_sub_cancel_left, cut_zero, cut_append,
    List.nil_append]

end Text

/-- The text of a piece, or what replaces it if it is a placeholder. -/
def Piece.replaced (replace : Text → Text) : Piece ρ → Text
  | .plain c => [c]
  | .hole written _ => replace written

theorem replaceSpans_locateFrom (replace : Text → Text) :
    ∀ (parts : List (Piece ρ)) (offset : Nat),
      Text.replaceSpans replace offset ((locateFrom offset parts).map Prod.fst)
          (parts.flatMap Piece.text) =
        parts.flatMap (Piece.replaced replace)
  | [], _ => rfl
  | .plain c :: parts, offset => by
      have behind : ∀ span ∈ (locateFrom (offset + c.utf8Size) parts).map Prod.fst,
          offset + c.utf8Size ≤ span.start := by
        intro span member
        obtain ⟨⟨_, ref⟩, located, rfl⟩ := List.mem_map.mp member
        exact le_start_of_mem_locateFrom located
      have first := Text.replaceSpans_cons replace behind (parts.flatMap Piece.text)
      rw [replaceSpans_locateFrom replace parts] at first
      exact first
  | .hole w ref :: parts, offset => by
      have first := Text.replaceSpans_append replace offset w
        ((locateFrom (offset + byteSize w) parts).map Prod.fst) (parts.flatMap Piece.text)
      rw [replaceSpans_locateFrom replace parts] at first
      exact first

/-- Replacing the spans of a text is replacing the placeholders that it is cut into. -/
theorem replaceSpans_spans (forward : ReadsForward read) (replace : Text → Text) (t : Text) :
    Text.replaceSpans replace 0 (spans read t) t =
      (pieces read t).flatMap (Piece.replaced replace) := by
  have cut := replaceSpans_locateFrom replace (pieces read t) 0
  rwa [flatMap_text_pieces forward] at cut

end Templating
