import Templating.Index
import Templating.Path.Error

/-!
# Placeholders

A template may hold placeholders of three grammars.

* A *data path* `{reqs[0]['spec','replicas']}` names a document and the keys to
  follow in it.
* A *query* `{reqsJsonPath[0]['.items[0].name']}` names a document and an
  expression to select with.
* A *positional* placeholder `{3}` names a segment of the URL.

The first two may end with a fallback `['text']`, the text to use when there is
no value.

This module has what a placeholder says once it is read, and why it may be of no
use.  The index of a document is kept as it is written, since it may stand for
no index at all.
-/

namespace Templating

/-- The grammars of placeholders. -/
inductive Grammar where
  | dataPath
  | query
  | positional
deriving DecidableEq

/-- The name of a grammar in a report. -/
def Grammar.name : Grammar → String
  | .dataPath => "data-path"
  | .query => "query"
  | .positional => "positional"

/-- What a data path says. -/
structure DataPathRef where
  /-- The index of the document, as written. -/
  index : Text
  /-- The keys to follow. -/
  keys : List Text
  /-- The fallback, if there is one. -/
  fallback : Option Text
deriving DecidableEq

/-- What a query says. -/
structure QueryRef where
  /-- The index of the document, as written. -/
  index : Text
  /-- The expression, which may hold placeholders itself. -/
  expression : Text
  /-- The fallback, if there is one. -/
  fallback : Option Text
deriving DecidableEq

/-- What a positional placeholder says. -/
structure PositionalRef where
  /-- The digits of the position, used as a key as they are. -/
  key : Text
deriving DecidableEq

/-! ## Errors -/

/-- Why a placeholder that was read cannot be used. -/
inductive PlaceholderError where
  /-- The index of the document is no index. -/
  | badIndex (written : Text)
  /-- The parts of the placeholder do not fit together. -/
  | malformed (reason : String)
  /-- The expression of a query is no path. -/
  | badPath (error : PathError Nat)
deriving DecidableEq

/-- The wording of an error. -/
def PlaceholderError.message : PlaceholderError → String
  | .badIndex written => "invalid document index: " ++ String.ofList written
  | .malformed reason => "malformed placeholder: " ++ reason
  | .badPath error => "query error: " ++ error.message

/-- Reads the index of a document. -/
def readDocumentIndex (written : Text) : Except PlaceholderError Nat :=
  match Index.read? written with
  | some n => .ok n
  | none => .error (.badIndex written)

end Templating
