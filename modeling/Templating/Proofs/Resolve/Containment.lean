import Templating.Proofs.Placeholder.Braces
import Templating.Proofs.Resolve.Settling

/-!
# Sources that never answer

When the source has no answer for any document, every data path and every query
is refused.  A refused placeholder is left as written, so the passes that resolve
them leave their text as it is, on every level of nesting.  What is left of the
full pipelines is their last pass, which replaces positional placeholders
(`full_run_text_of_unavailable`).

That pass goes over the whole text.  Positional placeholders end where the others
begin and end, so each data path and each query goes through it on its own.  It
stays as written if the URL has no segment for the positional placeholders inside
it.  Otherwise the pass rewrites a placeholder that was refused
(`full_run_text_inside`).
-/

namespace Templating

/-- A source that has no answer for any document. -/
def Source.Unavailable (source : Source) : Prop := ∀ i, ∃ refusal, source i = .error refusal

/-! ## Placeholders left as written -/

section Unavailable

variable {env : Environment}

/-- Every data path is refused. -/
theorem answerDataPath_of_unavailable (unavailable : env.source.Unavailable) (written : Text)
    (ref : DataPathRef) :
    ∃ refusal, answerDataPath env written ref = .refused .dataPath written refusal := by
  rw [answerDataPath]
  cases readDocumentIndex ref.index with
  | error e => exact ⟨.placeholder e, rfl⟩
  | ok index =>
      obtain ⟨refusal, asked⟩ := unavailable index
      simp only [asked]
      exact ⟨refusal, rfl⟩

/-- Every query with a resolved expression is refused. -/
theorem answerSelection_of_unavailable (unavailable : env.source.Unavailable) (written : Text)
    (ref : QueryRef) (index : Nat) (expression : Text) :
    ∃ refusal, answerSelection env written ref index expression =
      .refused .query written refusal := by
  obtain ⟨refusal, asked⟩ := unavailable index
  rw [answerSelection, asked]
  exact ⟨refusal, rfl⟩

/-- Every query is left as written, with a note on it.  What was noted on its
expression goes before. -/
theorem answerQuery_of_unavailable (unavailable : env.source.Unavailable)
    (resolve : Option (Text → Draft)) (written : Text) (ref : QueryRef) :
    (answerQuery env resolve written ref).text = written ∧
      ∃ refusal, .ofRefusal .query written refusal ∈ (answerQuery env resolve written ref).notes := by
  simp only [answerQuery]
  cases readDocumentIndex ref.index with
  | error e => exact ⟨rfl, .placeholder e, List.mem_singleton_self _⟩
  | ok index =>
      cases resolve with
      | none => exact ⟨rfl, .placeholder _, List.mem_singleton_self _⟩
      | some resolve =>
          obtain ⟨refusal, refused⟩ := answerSelection_of_unavailable unavailable written ref index
            ((resolve ref.expression).andThen (fillExpression env)).text
          simp only [Draft.andThen] at refused ⊢
          rw [refused]
          exact ⟨rfl, refusal, List.mem_append_right _ (List.mem_singleton_self _)⟩

/-- Data paths stay as written. -/
theorem dataPathPass_text_of_unavailable (unavailable : env.source.Unavailable) (t : Text) :
    (dataPathPass env t).text = t := by
  refine Draft.fill_text_of_holes DataPathRef.read?_braced.forward fun hole _ => ?_
  obtain ⟨refusal, refused⟩ := answerDataPath_of_unavailable unavailable hole.1 hole.2
  rw [refused]
  rfl

/-- Queries stay as written in a pass, however many levels are left. -/
theorem queryPass_text_of_unavailable (unavailable : env.source.Unavailable) (levels : Nat)
    (t : Text) : (queryPass env levels t).text = t := by
  have filled (resolve : Option (Text → Draft)) :
      (Draft.fill (answerQuery env resolve) (pieces QueryRef.read? t)).text = t :=
    Draft.fill_text_of_holes QueryRef.read?_forward fun hole _ =>
      (answerQuery_of_unavailable unavailable resolve hole.1 hole.2).1
  cases levels with
  | zero => exact filled none
  | succ levels => exact filled _

/-- Queries stay as written. -/
theorem resolveQueries_text_of_unavailable (unavailable : env.source.Unavailable) (t : Text) :
    (resolveQueries env t).text = t := by
  have fixed := queryPass_text_of_unavailable unavailable maxNesting t
  rw [resolveQueries, settled_of_fixed env fixed, fixed]

end Unavailable

/-! ## Positional placeholders -/

/-- A text stays as written when no position in it has a segment. -/
theorem positionalPass_text_of_missing {segments : Segments} {t : Text}
    (missing : ∀ hole ∈ holes PositionalRef.read? t, segments.segment? hole.2.key = none) :
    (positionalPass segments t).text = t := by
  refine Draft.fill_text_of_holes PositionalRef.read?_braced.forward fun hole found => ?_
  rw [answerPositional, missing hole found]
  rfl

theorem positionalPass_append_text (segments : Segments) {s t : Text}
    (seam : Seam PositionalRef.read? s t) :
    (positionalPass segments (s ++ t)).text =
      (positionalPass segments s).text ++ (positionalPass segments t).text := by
  rw [positionalPass, pieces_append PositionalRef.read?_braced.forward seam, Draft.fill_append_text]
  rfl

/-- What stands between braces goes through the pass on its own. -/
theorem positionalPass_braced_text (segments : Segments) {ρ : Type}
    {read : Text → Option (ρ × Text)} (braced : ReadsBraced read) {t before w behind : Text}
    (stands : Stands read t before w behind) :
    (positionalPass segments t).text =
      (positionalPass segments before).text ++
        ((positionalPass segments w).text ++ (positionalPass segments behind).text) := by
  have split := stands.eq braced.forward
  obtain ⟨inside, rfl⟩ := braced.exists_of_stands stands
  have first := positionalPass_append_text segments
    (PositionalRef.seam_before_opening before (inside ++ ['}'] ++ behind))
  have last := positionalPass_append_text segments
    (PositionalRef.seam_behind_closing ('{' :: inside) behind)
  rw [split, ← List.cons_append, ← last]
  exact first

/-! ## Full pipelines -/

theorem draftAll_text_of_unavailable {env : Environment} (unavailable : env.source.Unavailable)
    (t : Text) :
    (Pipeline.draftAll env t).text = (positionalPass (env.segments.getD []) t).text := by
  let inner : Environment := ⟨env.source, some (env.segments.getD []), none, env.config⟩
  have down : inner.source.Unavailable := unavailable
  have same : (resolveQueries inner (dataPathPass inner t).text).text = t := by
    rw [dataPathPass_text_of_unavailable down, resolveQueries_text_of_unavailable down]
  exact congrArg (fun u => (positionalPass (env.segments.getD []) u).text) same

/-- When no document can be had, a full pipeline replaces positional placeholders
and nothing else.  It replaces those inside a data path or a query as well, apart
from the text around it.  So that placeholder stays as written where no position
in it has a segment. -/
theorem full_run_text_of_unavailable {env : Environment} (unavailable : env.source.Unavailable)
    (t : Text) {p : Pipeline} (full : p = .all ∨ p = .foreign) :
    let segments := env.segments.getD []
    (p.run env t).text = (positionalPass segments t).text ∧
      ∀ before w behind,
        Stands DataPathRef.read? t before w behind ∨ Stands QueryRef.read? t before w behind →
          (p.run env t).text = (positionalPass segments before).text ++
            ((positionalPass segments w).text ++ (positionalPass segments behind).text) ∧
          ((∀ hole ∈ holes PositionalRef.read? w, segments.segment? hole.2.key = none) →
            (positionalPass segments w).text = w) := by
  intro segments
  have text : (p.run env t).text = (positionalPass segments t).text := by
    rcases full with rfl | rfl
    · exact draftAll_text_of_unavailable unavailable t
    · exact draftAll_text_of_unavailable unavailable t
  refine ⟨text, fun before w behind stands => ⟨?_, positionalPass_text_of_missing⟩⟩
  rw [text]
  rcases stands with path | query
  · exact positionalPass_braced_text segments DataPathRef.read?_braced path
  · exact positionalPass_braced_text segments QueryRef.read?_braced query

/-- A source without an answer, and a URL with the segment `a` at position one. -/
def unavailableEnvironment : Environment :=
  ⟨fun i => .error (.unavailable i []), some [(['1'], some ['a'])], none, .standard⟩

/-- A query between two positional placeholders stays as written. -/
theorem full_run_text_of_unavailable_around :
    let env := unavailableEnvironment
    let position := PositionalRef.write ⟨['1']⟩
    let w := QueryRef.write '\'' '\'' ⟨['0'], ['.', 'b'], none⟩
    let t := position ++ (w ++ position)
    env.source.Unavailable ∧ (Pipeline.all.run env t).text = ['a'] ++ (w ++ ['a']) := by
  intro env position w t
  have unavailable : env.source.Unavailable := fun i => ⟨.unavailable i [], rfl⟩
  have stands : Stands QueryRef.read? t position w position :=
    ⟨(position.map Piece.plain), ⟨['0'], ['.', 'b'], none⟩, (position.map Piece.plain),
      by decide +kernel, by decide, by decide⟩
  have missing : ∀ hole ∈ holes PositionalRef.read? w,
      (env.segments.getD []).segment? hole.2.key = none := by decide +kernel
  obtain ⟨split, kept⟩ :=
    (full_run_text_of_unavailable unavailable t (Or.inl rfl)).2 position w position (Or.inr stands)
  refine ⟨unavailable, ?_⟩
  rw [split, kept missing]
  decide +kernel

/-- A data path that is refused does not stay as written when it holds a positional
placeholder with a segment. -/
theorem full_run_text_inside :
    let env := unavailableEnvironment
    let path (key : Text) := DataPathRef.write ['0'] [⟨[], '\'', key, '\'', []⟩] none
    let w := path (PositionalRef.write ⟨['1']⟩)
    env.source.Unavailable ∧ Stands DataPathRef.read? w [] w [] ∧
      (Pipeline.all.run env w).text = path ['a'] ∧ (Pipeline.foreign.run env w).text = path ['a'] ∧
        path ['a'] ≠ w := by
  intro env path w
  refine ⟨fun i => ⟨.unavailable i [], rfl⟩, ?_, ?_⟩
  · exact ⟨[], ⟨['0'], [PositionalRef.write ⟨['1']⟩], none⟩, [], by decide +kernel, rfl, rfl⟩
  · decide +kernel

end Templating
