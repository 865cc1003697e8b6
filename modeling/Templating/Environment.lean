import Templating.Fallback
import Templating.Report.Diagnostic
import Templating.Segments

/-!
# Environments

What a resolution reads besides the template.

* The documents fetched for the template are numbered.  A *source* answers which
  document has an index.  It may know of none, or it may fail to answer, for any
  reason that a placeholder can be refused for.  A source is a function, so it
  answers the same whenever it is asked.
* The segments of the URL, and a fallback that the caller gives.
* The settings say how often the queries of a text are resolved again while the
  text changes, and which text stands in when no fallback is given.
-/

namespace Templating

/-! ## Documents -/

/-- Fetched documents by index. -/
abbrev Documents := Entries Nat Value

/-- What answers for documents: the document if there is one, or why there is
no answer. -/
abbrev Source := Nat → Except Refusal (Option Value)

namespace Documents

/-- Documents numbered from zero. -/
def ofList (values : List Value) : Documents := values.zipIdx.map fun (v, i) => (i, v)

/-- Whether two maps hold the same documents. -/
def same (left right : Documents) : Bool := Entries.sameAs Value.same left right

/-- The source that knows these documents and always answers. -/
def source (documents : Documents) : Source := fun i => .ok (Entries.get? documents i)

end Documents

/-- A source that has no answer for some indexes, each for its reason. -/
def Source.failing (source : Source) (reasons : Entries Nat Text) : Source := fun i =>
  match Entries.get? reasons i with
  | some reason => .error (.unavailable i reason)
  | none => source i

/-! ## Settings -/

/-- The settings of a resolution. -/
structure Config where
  /-- The bound on the passes over a text. -/
  maxPasses : Nat
  /-- The fallback when there is no other. -/
  defaultFallback : Text
deriving DecidableEq

namespace Config

/-- The settings when nothing is set. -/
def standard : Config := ⟨10, "Undefined with no fallback".toList⟩

/-- The bound that is used.  There is always one pass. -/
def effectivePasses (config : Config) : Nat := max 1 config.maxPasses

end Config

/-! ## Environments -/

/-- Everything that a resolution reads besides the template. -/
structure Environment where
  /-- What answers for documents. -/
  source : Source
  /-- The segments of the URL, if they are known. -/
  segments : Option Segments
  /-- The fallback that the caller gives. -/
  custom : Option Text
  /-- The settings. -/
  config : Config

/-- The fallback texts of a placeholder with its own one. -/
def Environment.fallback (env : Environment) (inline : Option Text) : Fallback :=
  .ofTexts inline env.custom env.config.defaultFallback

end Templating
