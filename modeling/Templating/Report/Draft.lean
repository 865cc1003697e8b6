import Templating.Placeholder.Piece
import Templating.Report.Resolution

/-!
# Drafts

A draft is a text on its way from a template to its resolution, with every note
taken so far, repeated ones included.  Resolving is putting drafts together.

* `Draft.concat` puts drafts side by side.
* `Draft.andThen` makes the next draft of the text and keeps the notes.
* `Draft.fill` answers each placeholder of a cut text with a draft and puts the
  answers in their places.
* `Draft.resolution` records the notes and ends the work.
-/

namespace Templating

/-- A text and what was noted while it was made. -/
structure Draft where
  /-- The text. -/
  text : Text
  /-- The notes, in the order in which they were taken. -/
  notes : List Diagnostic
  /-- Whether no repetition was cut off. -/
  settled : Bool

namespace Draft

/-- A text with nothing to note. -/
def ofText (t : Text) : Draft := ⟨t, [], true⟩

/-- A text with one note. -/
def noting (t : Text) (note : Diagnostic) : Draft := ⟨t, [note], true⟩

/-- A placeholder left as written, with the reason. -/
def refused (grammar : Grammar) (written : Text) (refusal : Refusal) : Draft :=
  noting written (.ofRefusal grammar written refusal)

/-- Drafts side by side. -/
def concat (parts : List Draft) : Draft :=
  ⟨parts.flatMap text, parts.flatMap notes, parts.all settled⟩

/-- The draft made of the text of a draft, with the notes on both. -/
def andThen (d : Draft) (next : Text → Draft) : Draft :=
  let e := next d.text
  ⟨e.text, d.notes ++ e.notes, d.settled && e.settled⟩

/-- The draft of one piece. -/
def ofPiece {ρ : Type} (answer : Text → ρ → Draft) : Piece ρ → Draft
  | .plain c => ofText [c]
  | .hole written ref => answer written ref

/-- A cut text with an answer in the place of every placeholder. -/
def fill {ρ : Type} (answer : Text → ρ → Draft) (parts : List (Piece ρ)) : Draft :=
  concat (parts.map (ofPiece answer))

/-- The resolution that a draft ends in, and the state that an observer of it
ends in. -/
def resolution {σ : Type} (observe : σ → Diagnostic → σ) (observer : σ) (d : Draft) :
    Resolution × σ :=
  let ledger := Ledger.ofNotes observe observer d.notes
  (⟨d.text, ledger.recorded, d.settled⟩, ledger.observer)

end Draft

end Templating
