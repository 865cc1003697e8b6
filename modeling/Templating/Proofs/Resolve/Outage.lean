import Templating.Proofs.Resolve.Composition
import Templating.Proofs.Resolve.Containment

/-!
# Reports of an outage

When the source has no answer for any document, a template whose positional
placeholders stay is not changed (`dataPathPass_text_of_unavailable`,
`resolveQueries_text_of_unavailable`).  This module is about the report of it.

No answer is a fallback.  Every note is on a placeholder that was left as written,
also the notes on expressions, and nothing is cut off, since no pass changes its
text (`Draft.Contained`).  And no placeholder is passed over in silence: each data
path and each query of the template is noted, with its text as written.
-/

namespace Templating

/-! ## Contained drafts -/

/-- The kinds of notes on placeholders that are left as written. -/
def DiagnosticKind.contained : List DiagnosticKind :=
  [.documentUnavailable, .malformed, .missingSegment]

theorem DiagnosticKind.fellBack_of_contained {kind : DiagnosticKind} (h : kind ∈ contained) :
    kind.fellBack = false := by
  revert kind
  decide

namespace Draft

/-- Nothing is cut off, and every note is on a placeholder that is left as
written. -/
def Contained (d : Draft) : Prop :=
  d.settled = true ∧ ∀ note ∈ d.notes, note.kind ∈ DiagnosticKind.contained

theorem contained_ofText (t : Text) : (ofText t).Contained :=
  ⟨rfl, fun _ noted => nomatch noted⟩

theorem contained_noting (t : Text) {note : Diagnostic}
    (kind : note.kind ∈ DiagnosticKind.contained) : (noting t note).Contained :=
  ⟨rfl, List.forall_mem_singleton.mpr kind⟩

theorem contained_refused (grammar : Grammar) (written : Text) (refusal : Refusal) :
    (refused grammar written refusal).Contained := by
  refine contained_noting written ?_
  cases refusal with
  | placeholder e => exact List.mem_cons_of_mem _ List.mem_cons_self
  | unavailable index reason => exact List.mem_cons_self
  | badConfig reason => exact List.mem_cons_of_mem _ List.mem_cons_self

theorem contained_composable : Composable Contained :=
  composable_settled.and (composable_notes _)

/-- What is noted on a placeholder is noted on the filled text. -/
theorem mem_notes_fill {ρ : Type} {answer : Text → ρ → Draft} {parts : List (Piece ρ)}
    {written : Text} {ref : ρ} {note : Diagnostic} (member : .hole written ref ∈ parts)
    (noted : note ∈ (answer written ref).notes) : note ∈ (fill answer parts).notes :=
  List.mem_flatMap_of_mem (List.mem_map_of_mem (f := ofPiece answer) member) noted

end Draft

/-! ## Environments -/

section Unavailable

variable {env : Environment}

/-- A pass on queries is not repeated. -/
theorem settled_of_unavailable (unavailable : env.source.Unavailable) (levels : Nat) (t : Text) :
    settled env (queryPass env levels) t = queryPass env levels t :=
  settled_of_fixed env (queryPass_text_of_unavailable unavailable levels t)

theorem yields_contained (unavailable : env.source.Unavailable) :
    env.Yields Draft.Contained where
  composable := Draft.contained_composable
  dataPath := by
    intro written ref _
    obtain ⟨refusal, refused⟩ := answerDataPath_of_unavailable unavailable written ref
    rw [refused]
    exact Draft.contained_refused _ _ _
  positional := by
    intro written ref _ segments
    rw [answerPositional]
    cases segments.segment? ref.key with
    | none =>
        have kind : DiagnosticKind.missingSegment ∈ DiagnosticKind.contained := by decide
        exact Draft.contained_noting written kind
    | some segment => exact Draft.contained_ofText segment
  refused := fun _ _ _ _ => Draft.contained_refused _ _ _
  selection := by
    intro written ref index _ _ expression
    obtain ⟨refusal, refused⟩ :=
      answerSelection_of_unavailable unavailable written ref index expression
    rw [refused]
    exact Draft.contained_refused _ _ _
  repetition := by
    intro levels onPass t
    rw [settled_of_unavailable unavailable]
    exact onPass t

/-! ## Notes -/

theorem exists_note_of_dataPath (unavailable : env.source.Unavailable) {t : Text}
    {hole : Text × DataPathRef} (member : hole ∈ holes DataPathRef.read? t) :
    ∃ note ∈ (dataPathPass env t).notes, note.placeholder = hole.1 := by
  obtain ⟨refusal, refused⟩ := answerDataPath_of_unavailable unavailable hole.1 hole.2
  have noted : .ofRefusal .dataPath hole.1 refusal ∈ (answerDataPath env hole.1 hole.2).notes := by
    rw [refused]
    exact List.mem_singleton_self _
  exact ⟨_, Draft.mem_notes_fill (mem_holes.mp member) noted, rfl⟩

theorem exists_note_of_query (unavailable : env.source.Unavailable) {t : Text}
    {hole : Text × QueryRef} (member : hole ∈ holes QueryRef.read? t) :
    ∃ note ∈ (resolveQueries env t).notes, note.placeholder = hole.1 := by
  obtain ⟨-, refusal, noted⟩ := answerQuery_of_unavailable unavailable
    (some (settled env (queryPass env (maxNesting - 1)))) hole.1 hole.2
  rw [resolveQueries, settled_of_unavailable unavailable]
  exact ⟨_, Draft.mem_notes_fill (mem_holes.mp member) noted, rfl⟩

end Unavailable

/-! ## Reports -/

/-- A placeholder with a note on it has a diagnostic. -/
theorem exists_diagnostic {env : Environment} {t written : Text} {p : Pipeline}
    (h : ∃ note ∈ (p.draft env t).notes, note.placeholder = written) :
    ∃ d ∈ (p.run env t).diagnostics, d.placeholder = written := by
  obtain ⟨note, noted, rfl⟩ := h
  obtain ⟨d, recorded, -, placeholder⟩ := exists_diagnostic_of_mem_notes noted
  exact ⟨d, recorded, placeholder⟩

/-- Every pipeline converges in an outage.  It uses no fallback, and what it
reports are placeholders left as written. -/
theorem run_contained {env : Environment} (unavailable : env.source.Unavailable) (t : Text)
    (p : Pipeline) :
    (p.run env t).converged = true ∧ (p.run env t).fellBackCount = 0 ∧
      ∀ d ∈ (p.run env t).diagnostics, d.kind ∈ DiagnosticKind.contained := by
  have down (env' : Environment) (same : env'.source = env.source) : env'.source.Unavailable :=
    same ▸ unavailable
  obtain ⟨settled, kinds⟩ := Pipeline.draft_of_yields
    (fun env' same => yields_contained (down env' same)) p t
  have recorded : ∀ d ∈ (p.run env t).diagnostics, d.kind ∈ DiagnosticKind.contained :=
    fun d member => kinds d (mem_notes_of_mem_diagnostics member)
  refine ⟨settled, List.countP_eq_zero.mpr fun d member => ?_, recorded⟩
  rw [DiagnosticKind.fellBack_of_contained (recorded d member)]
  exact Bool.false_ne_true

/-- In an outage a template goes unchanged through every pipeline that leaves
positional placeholders in the text.  The resolution converges, uses no fallback,
and reports only placeholders that were left as written.  Every placeholder of the
grammars that the pipeline resolves is reported. -/
theorem run_of_unavailable {env : Environment} (unavailable : env.source.Unavailable) (t : Text)
    {p : Pipeline} (documents : p = .dataPath ∨ p = .query ∨ p = .dataOnly) :
    let r := p.run env t
    r.text = t ∧ r.converged = true ∧ r.fellBackCount = 0 ∧
      (∀ d ∈ r.diagnostics,
        d.kind = .documentUnavailable ∨ d.kind = .malformed ∨ d.kind = .missingSegment) ∧
      (p ≠ .query → ∀ hole ∈ holes DataPathRef.read? t,
        ∃ d ∈ r.diagnostics, d.placeholder = hole.1) ∧
      (p ≠ .dataPath → ∀ hole ∈ holes QueryRef.read? t,
        ∃ d ∈ r.diagnostics, d.placeholder = hole.1) := by
  intro r
  obtain ⟨converged, none, kinds⟩ := run_contained unavailable t p
  have kinds : ∀ d ∈ r.diagnostics,
      d.kind = .documentUnavailable ∨ d.kind = .malformed ∨ d.kind = .missingSegment := by
    intro d member
    simpa only [DiagnosticKind.contained, List.mem_cons, List.not_mem_nil, or_false] using
      kinds d member
  have down : env.dataOnly.source.Unavailable := unavailable
  have through : (dataPathPass env.dataOnly t).text = t := dataPathPass_text_of_unavailable down t
  rcases documents with rfl | rfl | rfl
  · refine ⟨dataPathPass_text_of_unavailable unavailable t, converged, none, kinds, ?_, nofun⟩
    exact fun _ _ member => exists_diagnostic (exists_note_of_dataPath unavailable member)
  · refine ⟨resolveQueries_text_of_unavailable unavailable t, converged, none, kinds, nofun, ?_⟩
    exact fun _ _ member => exists_diagnostic (exists_note_of_query unavailable member)
  · refine ⟨(resolveQueries_text_of_unavailable down _).trans through, converged, none, kinds,
      fun _ hole member => exists_diagnostic ?_, fun _ hole member => exists_diagnostic ?_⟩
    · obtain ⟨note, noted, same⟩ := exists_note_of_dataPath down member
      exact ⟨note, List.mem_append_left _ noted, same⟩
    · obtain ⟨note, noted, same⟩ := exists_note_of_query down (through.symm ▸ member)
      exact ⟨note, List.mem_append_right _ noted, same⟩

/-- A query with a query and two positions in its expression.  One position has a
segment, which is put in before the document is asked for and does not show. -/
theorem run_of_unavailable_nested :
    let env : Environment :=
      ⟨fun i => .error (.unavailable i ['d']), some [(['1'], some ['b'])], some ['c'], .standard⟩
    let inside := QueryRef.write '\'' '\'' ⟨['1'], ['.', 'a'], none⟩
    let positions := PositionalRef.write ⟨['1']⟩ ++ PositionalRef.write ⟨['9']⟩
    let w := QueryRef.write '"' '"' ⟨['0'], inside ++ positions, some ['f']⟩
    let r := Pipeline.query.run env ('x' :: w)
    env.source.Unavailable ∧ w ∈ (holes QueryRef.read? ('x' :: w)).map Prod.fst ∧
      r.text = 'x' :: w ∧ r.converged = true ∧ r.fellBackCount = 0 ∧
      (∃ d ∈ r.diagnostics, d.placeholder = w) ∧
      r.diagnostics.map (·.kind) = [.documentUnavailable, .missingSegment, .documentUnavailable] := by
  intro env inside positions w r
  have unavailable : env.source.Unavailable := fun i => ⟨.unavailable i ['d'], rfl⟩
  have occurs : w ∈ (holes QueryRef.read? ('x' :: w)).map Prod.fst := by decide +kernel
  obtain ⟨text, converged, none, -, -, reported⟩ :=
    run_of_unavailable unavailable ('x' :: w) (Or.inr (Or.inl rfl))
  obtain ⟨hole, member, same⟩ := List.mem_map.mp occurs
  refine ⟨unavailable, occurs, text, converged, none, ?_, by decide +kernel⟩
  obtain ⟨d, recorded, placeholder⟩ := reported nofun hole member
  exact ⟨d, recorded, placeholder.trans same⟩

end Templating
