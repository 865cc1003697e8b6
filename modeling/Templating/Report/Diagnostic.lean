import Templating.Placeholder.Basic

/-!
# Diagnostics

Resolution never fails.  What goes wrong with a placeholder is noted instead, as
a diagnostic that says what happened, to which placeholder, and why.

A *refusal* is a reason to leave a placeholder as it is written.
`Diagnostic.ofRefusal` makes a diagnostic of it.
-/

namespace Templating

/-- What may happen to a placeholder. -/
inductive DiagnosticKind where
  /-- The document was never fetched, and a fallback was used. -/
  | missingDocument
  /-- The document has no value there, or null, and a fallback was used. -/
  | missingValue
  /-- The placeholder cannot be used and was left as written. -/
  | malformed
  /-- The source failed and the placeholder was left as written. -/
  | documentUnavailable
  /-- The text was still changing after the last pass. -/
  | passLimitReached
  /-- The URL has no such segment and the placeholder was left as written. -/
  | missingSegment
deriving DecidableEq

/-- Every kind, in the order of a summary. -/
def DiagnosticKind.all : List DiagnosticKind :=
  [.missingDocument, .missingValue, .malformed, .documentUnavailable, .passLimitReached,
    .missingSegment]

/-- Whether a placeholder of this kind was replaced by a fallback. -/
def DiagnosticKind.fellBack (kind : DiagnosticKind) : Bool :=
  kind = .missingDocument || kind = .missingValue

/-- A note on one placeholder. -/
structure Diagnostic where
  /-- What happened. -/
  kind : DiagnosticKind
  /-- The grammar of the placeholder. -/
  grammar : Grammar
  /-- The placeholder as written. -/
  placeholder : Text
  /-- Why it happened. -/
  detail : String
deriving DecidableEq

/-! ## Refusals -/

/-- Why a placeholder is left as written. -/
inductive Refusal where
  /-- The placeholder cannot be used. -/
  | placeholder (error : PlaceholderError)
  /-- The source has no answer for the document. -/
  | unavailable (index : Nat) (reason : Text)
  /-- The configuration cannot be read. -/
  | badConfig (reason : String)
deriving DecidableEq

/-- The wording of a refusal. -/
def Refusal.message : Refusal → String
  | .placeholder error => "domain error: " ++ error.message
  | .unavailable index reason =>
      "document " ++ toString index ++ " unavailable: " ++ String.ofList reason
  | .badConfig reason => "invalid configuration: " ++ reason

/-- The kind of diagnostic that a refusal is. -/
def Refusal.kind : Refusal → DiagnosticKind
  | .unavailable .. => .documentUnavailable
  | _ => .malformed

/-- The note on a placeholder that is left as written. -/
def Diagnostic.ofRefusal (grammar : Grammar) (placeholder : Text) (refusal : Refusal) :
    Diagnostic :=
  ⟨refusal.kind, grammar, placeholder, refusal.message⟩

/-- Whether two notes say that the same happened to the same placeholder. -/
def Diagnostic.repeats (d e : Diagnostic) : Bool :=
  d.kind = e.kind && d.placeholder = e.placeholder

end Templating
