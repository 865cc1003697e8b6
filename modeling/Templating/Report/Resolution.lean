import Templating.Report.Diagnostic

/-!
# Resolutions

A resolution is the text that comes out of a template, what was noted on the
way, and whether every repetition came to an end by itself.

What is noted twice is recorded once.  `Ledger.record` takes the notes one by
one.  It drops a note that repeats a recorded one and shows every other to an
observer, whose state it carries along.
-/

namespace Templating

/-- What resolving a template gives. -/
structure Resolution where
  /-- The text after substitution. -/
  text : Text
  /-- What did not resolve cleanly, in the order in which it happened. -/
  diagnostics : List Diagnostic
  /-- Whether no repetition was cut off while its text was changing. -/
  converged : Bool
deriving DecidableEq

namespace Resolution

/-- Whether every placeholder was replaced by a value. -/
def isClean (r : Resolution) : Bool := r.converged && r.diagnostics.isEmpty

/-- Whether something of a kind was recorded. -/
def has (r : Resolution) (kind : DiagnosticKind) : Bool := r.diagnostics.any (·.kind = kind)

/-- How many placeholders were replaced by a fallback. -/
def fellBackCount (r : Resolution) : Nat := r.diagnostics.countP (·.kind.fellBack)

end Resolution

/-! ## Recording -/

/-- What is recorded so far, and the state of the observer. -/
structure Ledger (σ : Type) where
  /-- The recorded notes, oldest first. -/
  recorded : List Diagnostic
  /-- The state of the observer. -/
  observer : σ

namespace Ledger

variable {σ : Type}

/-- Records a note unless it repeats a recorded one. -/
def record (observe : σ → Diagnostic → σ) (ledger : Ledger σ) (note : Diagnostic) : Ledger σ :=
  if ledger.recorded.any (·.repeats note) then ledger
  else ⟨ledger.recorded ++ [note], observe ledger.observer note⟩

/-- Records notes one after the other, for an observer in a given state. -/
def ofNotes (observe : σ → Diagnostic → σ) (observer : σ) (notes : List Diagnostic) : Ledger σ :=
  notes.foldl (record observe) ⟨[], observer⟩

end Ledger

end Templating
