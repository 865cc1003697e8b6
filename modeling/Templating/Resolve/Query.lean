import Templating.Path.Select
import Templating.Placeholder.Query
import Templating.Resolve.Single

/-!
# Resolving queries

Each query is replaced by the text of what its expression picks first, or by a
fallback.

An expression may hold queries itself, and these are resolved first.  A value
that comes out may hold queries too.  So a text is gone through again and again
until a pass leaves it as it is, for the whole text and for each expression.
`settle` is this repetition.  It stops at a bound on the passes.  If a query is
left then, the text counts as still changing.

Expressions inside expressions are resolved to a depth of `maxNesting`.
`queryPass` recurses on the levels that are left.  At none, every query is left
as written.

When the segments of the URL are known, positional placeholders inside an
expression are replaced before it is read.
-/

namespace Templating

/-- The deepest nesting of queries in one another's expressions. -/
def maxNesting : Nat := 32

/-! ## One query -/

/-- The draft of a query whose expression is resolved. -/
def answerSelection (env : Environment) (written : Text) (ref : QueryRef) (index : Nat)
    (expression : Text) : Draft :=
  match env.source index with
  | .error refusal => .refused .query written refusal
  | .ok none =>
      .noting (env.fallback ref.fallback).text
        ⟨.missingDocument, .query, written, notFetched index⟩
  | .ok (some document) =>
      match Path.queryFirst? document expression with
      | .error e => .refused .query written (.placeholder (.badPath e))
      | .ok first =>
          ⟨(env.fallback ref.fallback).forFirst first,
            if Value.isNullish first then
              [⟨.missingValue, .query, written, "no match for " ++ String.ofList expression⟩]
            else [],
            true⟩

/-- An expression with its positional placeholders replaced, if the segments of
the URL are known. -/
def fillExpression (env : Environment) (expression : Text) : Draft :=
  match env.segments with
  | some segments => positionalPass segments expression
  | none => .ofText expression

/-- The draft of one query.  What resolves its expression is missing when no
level is left. -/
def answerQuery (env : Environment) (resolveExpression : Option (Text → Draft)) (written : Text)
    (ref : QueryRef) : Draft :=
  match readDocumentIndex ref.index, resolveExpression with
  | .error e, _ => .refused .query written (.placeholder e)
  | .ok _, none =>
      .refused .query written
        (.placeholder (.malformed
          ("query placeholders nested deeper than " ++ toString maxNesting ++ " levels")))
  | .ok index, some resolve =>
      ((resolve ref.expression).andThen (fillExpression env)).andThen
        (answerSelection env written ref index)

/-! ## Passes -/

/-- The end of a repetition that is out of passes. -/
def outOfPasses (bound : Nat) (t : Text) : Draft :=
  match (holes QueryRef.read? t).head? with
  | none => .ofText t
  | some (written, _) =>
      ⟨t, [⟨.passLimitReached, .query, written,
        "text still changing after " ++ toString bound ++ " passes"⟩], false⟩

/-- Repeats a pass until it leaves the text as it is or no pass is left. -/
def settle (pass : Text → Draft) (bound : Nat) : Nat → Text → Draft
  | 0, t => outOfPasses bound t
  | left + 1, t =>
      let next := pass t
      if next.text = t then next else next.andThen (settle pass bound left)

/-- The repetition of a pass under the bound of the settings. -/
def settled (env : Environment) (pass : Text → Draft) : Text → Draft :=
  settle pass env.config.effectivePasses env.config.effectivePasses

/-- A text with its queries replaced, under so many levels of nesting. -/
def queryPass (env : Environment) : Nat → Text → Draft
  | 0 => fun t => .fill (answerQuery env none) (pieces QueryRef.read? t)
  | levels + 1 => fun t =>
      .fill (answerQuery env (some (settled env (queryPass env levels)))) (pieces QueryRef.read? t)

/-- A text with its queries replaced until it no longer changes. -/
def resolveQueries (env : Environment) : Text → Draft := settled env (queryPass env maxNesting)

end Templating
