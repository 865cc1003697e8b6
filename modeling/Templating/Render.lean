import Templating.Resolve.Query

/-!
# Pipelines

A pipeline is a fixed sequence of passes over a template.

* `dataPath`, `query` and `positional` resolve one grammar.
* `dataOnly` resolves data paths and then queries.  Positional placeholders stay
  as written everywhere, also inside expressions.
* `all` resolves data paths, then queries, then positional placeholders.  It
  takes no fallback from the caller.
* `foreign` is `all`, for a text in a language that has braces of its own.  Only
  the exact openings of placeholders are looked for, so those braces stay.

`Pipeline.run` gives the report, `Pipeline.watch` also shows each diagnostic to
an observer, and `Pipeline.text` gives the text alone under the standard
settings.

The body of a request is often kept as a JSON value.  Rendering it resolves
every string in it as a template of its own.  Keys, numbers, truth values and
nulls stay.
-/

namespace Templating

/-- The sequences of passes. -/
inductive Pipeline where
  | dataPath
  | query
  | positional
  | dataOnly
  | all
  | foreign
deriving DecidableEq

namespace Pipeline

/-- The draft of a template that has every grammar resolved. -/
def draftAll (env : Environment) (t : Text) : Draft :=
  let segments := env.segments.getD []
  let env := ⟨env.source, some segments, none, env.config⟩
  ((dataPathPass env t).andThen (resolveQueries env)).andThen (positionalPass segments)

/-- The draft of a template. -/
def draft (env : Environment) (t : Text) : Pipeline → Draft
  | .dataPath => dataPathPass env t
  | .query => resolveQueries env t
  | .positional => positionalPass (env.segments.getD []) t
  | .dataOnly =>
      let env := ⟨env.source, none, env.custom, env.config⟩
      (dataPathPass env t).andThen (resolveQueries env)
  | .all => draftAll env t
  | .foreign => draftAll env t

/-- The resolution of a template, and the state that an observer of its
diagnostics ends in. -/
def watch {σ : Type} (observe : σ → Diagnostic → σ) (observer : σ) (env : Environment) (t : Text)
    (p : Pipeline) : Resolution × σ :=
  (p.draft env t).resolution observe observer

/-- The resolution of a template. -/
def run (env : Environment) (t : Text) (p : Pipeline) : Resolution :=
  (p.watch (fun _ _ => ()) () env t).1

/-- The text of a template resolved under the standard settings. -/
def text (source : Source) (segments : Option Segments) (custom : Option Text) (t : Text)
    (p : Pipeline) : Text :=
  (p.run ⟨source, segments, custom, .standard⟩ t).text

end Pipeline

/-! ## Values -/

namespace Value

/-- A value with every string in it resolved in all grammars. -/
def render (segments : Segments) (source : Source) : Value → Value :=
  mapStrings fun t => Pipeline.all.text source (some segments) none t

/-- A value with the data paths and queries of every string in it resolved. -/
def renderDataOnly (source : Source) : Value → Value :=
  mapStrings fun t => Pipeline.dataOnly.text source none none t

end Value

end Templating
