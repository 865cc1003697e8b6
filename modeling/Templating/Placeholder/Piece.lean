import Templating.Text.Basic

/-!
# Pieces

A template is cut into *pieces*: the placeholders of one grammar, and the
characters between them.  A reader says whether a placeholder begins at a place
and what follows it.  Cutting goes from left to right.  It takes a placeholder
wherever the reader finds one and goes on behind it, so placeholders never
overlap and none begins inside another.

As in `Text.many` the recursion is on the text, with a count of the characters
that the last placeholder still covers.  `pieces_plain` and `pieces_hole` are
the two equations of cutting, and `flatMap_text_pieces` says that no character is
lost.
-/

namespace Templating

/-- A part of a template. -/
inductive Piece (ρ : Type) where
  /-- A character outside every placeholder. -/
  | plain (c : Char)
  /-- A placeholder as written, and what it says. -/
  | hole (written : Text) (ref : ρ)
deriving DecidableEq

/-- A half-open range of byte offsets. -/
structure Span where
  /-- The offset of the first byte. -/
  start : Nat
  /-- The offset behind the last byte. -/
  stop : Nat
deriving DecidableEq

variable {ρ : Type}

/-- The text of a piece. -/
def Piece.text : Piece ρ → Text
  | .plain c => [c]
  | .hole written _ => written

/-- The placeholder in a piece, if there is one. -/
def Piece.hole? : Piece ρ → Option (Text × ρ)
  | .plain _ => none
  | .hole written ref => some (written, ref)

/-! ## Cutting -/

/-- Cuts a text behind so many characters that are covered already. -/
def piecesFrom (read : Text → Option (ρ × Text)) : Nat → Text → List (Piece ρ)
  | _, [] => []
  | covered + 1, _ :: t => piecesFrom read covered t
  | 0, c :: t =>
      match read (c :: t) with
      | none => .plain c :: piecesFrom read 0 t
      | some (ref, rest) =>
          .hole ((c :: t).take (t.length + 1 - rest.length)) ref ::
            piecesFrom read (t.length - rest.length) t

/-- The pieces of a text. -/
def pieces (read : Text → Option (ρ × Text)) (t : Text) : List (Piece ρ) := piecesFrom read 0 t

/-- The placeholders of a text, each as written with what it says. -/
def holes (read : Text → Option (ρ × Text)) (t : Text) : List (Text × ρ) :=
  (pieces read t).filterMap Piece.hole?

/-- The placeholders among pieces that begin at a byte offset, with their
spans. -/
def locateFrom : Nat → List (Piece ρ) → List (Span × ρ)
  | _, [] => []
  | offset, .plain c :: rest => locateFrom (offset + c.utf8Size) rest
  | offset, .hole written ref :: rest =>
      (⟨offset, offset + Text.byteSize written⟩, ref) ::
        locateFrom (offset + Text.byteSize written) rest

/-- The placeholders of a text with their spans. -/
def located (read : Text → Option (ρ × Text)) (t : Text) : List (Span × ρ) :=
  locateFrom 0 (pieces read t)

/-! ## Equations -/

/-- A reader gives back an end of what it reads, and covers something. -/
def ReadsForward (read : Text → Option (ρ × Text)) : Prop :=
  ∀ ⦃t ref rest⦄, read t = some (ref, rest) → ∃ c covered, t = c :: (covered ++ rest)

/-- Covered characters are passed over. -/
theorem piecesFrom_append (read : Text → Option (ρ × Text)) (covered rest : Text) :
    piecesFrom read covered.length (covered ++ rest) = pieces read rest := by
  induction covered with
  | nil => rfl
  | cons c covered ih => simpa [piecesFrom] using ih

theorem pieces_nil (read : Text → Option (ρ × Text)) : pieces read [] = [] := rfl

theorem pieces_plain {read : Text → Option (ρ × Text)} {c : Char} {t : Text}
    (h : read (c :: t) = none) : pieces read (c :: t) = .plain c :: pieces read t := by
  simp [pieces, piecesFrom, h]

theorem pieces_hole {read : Text → Option (ρ × Text)} {c : Char} {covered rest : Text} {ref : ρ}
    (h : read (c :: (covered ++ rest)) = some (ref, rest)) :
    pieces read (c :: (covered ++ rest)) = .hole (c :: covered) ref :: pieces read rest := by
  have hlen : (covered ++ rest).length - rest.length = covered.length := by simp
  have htake : (covered ++ rest).length + 1 - rest.length = covered.length + 1 := by
    simp only [List.length_append]; omega
  simp only [pieces, piecesFrom, h, hlen, htake, piecesFrom_append, List.take_succ_cons,
    List.take_left]

/-- The pieces of a text are the text. -/
theorem flatMap_text_pieces {read : Text → Option (ρ × Text)} (forward : ReadsForward read)
    (t : Text) : (pieces read t).flatMap Piece.text = t := by
  induction hn : t.length using Nat.strongRecOn generalizing t with
  | ind n ih =>
    subst hn
    match t with
    | [] => rfl
    | c :: t =>
      match h : read (c :: t) with
      | none => simp [pieces_plain h, Piece.text, ih t.length (by simp) t rfl]
      | some (ref, rest) =>
        obtain ⟨d, covered, same⟩ := forward h
        obtain ⟨rfl, rfl⟩ := List.cons.inj same
        simp [pieces_hole h, Piece.text, ih rest.length (by grind) rest rfl]

end Templating
