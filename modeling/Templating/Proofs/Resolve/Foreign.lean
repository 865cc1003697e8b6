import Templating.Proofs.Placeholder.Template
import Templating.Proofs.Resolve.Containment
import Templating.Proofs.Resolve.PassBound
import Templating.Proofs.Text.Parts

/-!
# Text of another language

A text that holds the opening of neither a data path nor a query has no placeholder
of these grammars.  So a full pipeline asks for no document and only replaces
positional placeholders (`draftAll_of_holes_eq_nil`).

Braces around anything but decimal digits are left alone then.  But digits between
braces are a positional placeholder in any language, also where they are meant as
the quantifier of a pattern.  The text stays if the URL has no segment at any of these
positions (`foreign_run_of_noOpening`), and may change otherwise
(`foreign_run_quantifier`).

It does change otherwise, if no opening brace stands in the segments.  Each
placeholder that is replaced takes its brace with it, and no other brace comes in
(`positionalPass_text_eq_iff`).
-/

namespace Templating

/-! ## Counting a character -/

namespace Draft

variable {ρ : Type} {answer : Text → ρ → Draft} {c : Char} {parts : List (Piece ρ)}

/-- Pieces that get no more of a character, and are filled with as many, get as many each
as they had. -/
theorem count_eq_of_fill
    (each : ∀ piece ∈ parts, (ofPiece answer piece).text.count c ≤ piece.text.count c)
    (same : (fill answer parts).text.count c = (parts.flatMap Piece.text).count c) :
    ∀ piece ∈ parts, (ofPiece answer piece).text.count c = piece.text.count c := by
  rw [fill_text] at same
  exact Text.measure_eq_of_flatMap (fun _ _ => List.count_append) each same

end Draft

/-! ## Positional placeholders -/

theorem PositionalRef.count_brace_pos {t w : Text} {ref : PositionalRef}
    (member : .hole w ref ∈ pieces read? t) : 0 < w.count '{' := by
  obtain ⟨before, rest, -, found⟩ := exists_of_mem_holes read?_braced.forward (mem_holes.mpr member)
  obtain ⟨-, -, split⟩ := read?_eq_some_iff.mp found
  obtain rfl := List.append_cancel_right split
  exact List.count_pos_iff.mpr List.mem_cons_self

/-- A placeholder that is replaced by a segment without an opening brace loses its
own. -/
theorem count_brace_answerPositional {segments : Segments} {w : Text} {ref : PositionalRef}
    (braceless : ∀ segment ∈ segments.segment? ref.key, '{' ∉ segment) :
    (answerPositional segments w ref).text.count '{' =
      if segments.segment? ref.key = none then w.count '{' else 0 := by
  rw [answerPositional]
  cases known : segments.segment? ref.key with
  | none => rfl
  | some segment => exact List.count_eq_zero.mpr (braceless segment known)

/-- With segments that hold no opening brace, a text stays just when no position in
it has a segment. -/
theorem positionalPass_text_eq_iff {segments : Segments} {t : Text}
    (braceless : ∀ hole ∈ holes PositionalRef.read? t,
      ∀ segment ∈ segments.segment? hole.2.key, '{' ∉ segment) :
    (positionalPass segments t).text = t ↔
      ∀ hole ∈ holes PositionalRef.read? t, segments.segment? hole.2.key = none := by
  refine ⟨fun same => ?_, positionalPass_text_of_missing⟩
  have filled : (positionalPass segments t).text.count '{' =
      ((pieces PositionalRef.read? t).flatMap Piece.text).count '{' := by
    rw [same, flatMap_text_pieces PositionalRef.read?_braced.forward]
  have each : ∀ piece ∈ pieces PositionalRef.read? t,
      (Draft.ofPiece (answerPositional segments) piece).text.count '{' ≤ piece.text.count '{' := by
    intro piece member
    cases piece with
    | plain c => exact Nat.le_refl _
    | hole w ref =>
        simp only [Draft.ofPiece, Piece.text,
          count_brace_answerPositional (braceless (w, ref) (mem_holes.mpr member))]
        split
        next => exact Nat.le_refl _
        next => exact Nat.zero_le _
  intro hole member
  have kept := Draft.count_eq_of_fill each filled _ (mem_holes.mp member)
  have brace := PositionalRef.count_brace_pos (mem_holes.mp member)
  simp only [Draft.ofPiece, Piece.text,
    count_brace_answerPositional (braceless hole member)] at kept
  by_contra known
  rw [if_neg known] at kept
  omega

/-! ## Full pipelines -/

theorem dataPathPass_of_holes_eq_nil (env : Environment) {t : Text}
    (h : holes DataPathRef.read? t = []) : dataPathPass env t = .ofText t :=
  Draft.fill_of_holes_eq_nil DataPathRef.read?_braced.forward (answerDataPath env) h

/-- Without data paths and queries, only positional placeholders are replaced. -/
theorem draftAll_of_holes_eq_nil (env : Environment) {t : Text}
    (noPath : holes DataPathRef.read? t = []) (noQuery : holes QueryRef.read? t = []) :
    Pipeline.draftAll env t = positionalPass (env.segments.getD []) t := by
  have paths : dataPathPass env.full t = .ofText t := dataPathPass_of_holes_eq_nil env.full noPath
  have queries : resolveQueries env.full t = .ofText t :=
    settle_of_holes_eq_nil (queryPass_idle env.full maxNesting) _ _ noQuery
  have both : (dataPathPass env.full t).andThen (resolveQueries env.full) = .ofText t := by
    rw [paths, Draft.ofText_andThen, queries]
  calc Pipeline.draftAll env t
      = (Draft.ofText t).andThen (positionalPass (env.segments.getD [])) :=
        congrArg (Draft.andThen · (positionalPass (env.segments.getD []))) both
    _ = positionalPass (env.segments.getD []) t := Draft.ofText_andThen t _

/-- A text of another language, without the opening of a data path or a query, is
resolved as by the pipeline for positional placeholders, whatever the documents
are.  If it has no such placeholder it stays, with nothing to report.  It stays as
well if the URL has no segment at any position in it.  And if the segments hold no
opening brace, it stays only then. -/
theorem foreign_run_of_noOpening (env : Environment) {t : Text}
    (noPath : ¬ DataPathRef.opening <:+: t) (noQuery : ¬ QueryRef.opening <:+: t) :
    let segments := env.segments.getD []
    let positions := holes PositionalRef.read? t
    let r := Pipeline.foreign.run env t
    r = Pipeline.positional.run env t ∧
      (positions = [] → r = ⟨t, [], true⟩) ∧
      ((∀ hole ∈ positions, segments.segment? hole.2.key = none) → r.text = t) ∧
      ((∀ hole ∈ positions, ∀ segment ∈ segments.segment? hole.2.key, '{' ∉ segment) →
        r.text = t → ∀ hole ∈ positions, segments.segment? hole.2.key = none) := by
  intro segments positions r
  have draft : Pipeline.draftAll env t = positionalPass segments t :=
    draftAll_of_holes_eq_nil env (DataPathRef.opensWith.holes_eq_nil noPath)
      (QueryRef.opensWith.holes_eq_nil noQuery)
  have text : r.text = (positionalPass segments t).text := congrArg Draft.text draft
  refine ⟨?_, fun none => ?_, fun missing => ?_, fun braceless same => ?_⟩
  · exact congrArg (fun d => (Draft.resolution (fun _ _ => ()) () d).1) draft
  · have plain : positionalPass segments t = .ofText t :=
      Draft.fill_of_holes_eq_nil PositionalRef.read?_braced.forward (answerPositional segments) none
    exact congrArg (fun d => (Draft.resolution (fun _ _ => ()) () d).1) (draft.trans plain)
  · rw [text]
    exact positionalPass_text_of_missing missing
  · rw [text] at same
    exact (positionalPass_text_eq_iff braceless).mp same

/-- A selector of another language with a quantifier in it, at whose position no
segment is known. -/
theorem foreign_run_of_noOpening_missing :
    let env : Environment := ⟨fun i => .error (.unavailable i []), some [(['2'], none)], none, .standard⟩
    let t := "up\x7bpod=~\"web-[0-9]\x7b2\x7d\"\x7d".toList
    let r := Pipeline.foreign.run env t
    ¬ DataPathRef.opening <:+: t ∧ ¬ QueryRef.opening <:+: t ∧ r.text = t ∧
      r = Pipeline.positional.run env t ∧ r.diagnostics.map (·.kind) = [.missingSegment] := by
  intro env t r
  have noPath : ¬ DataPathRef.opening <:+: t := by decide +kernel
  have noQuery : ¬ QueryRef.opening <:+: t := by decide +kernel
  have missing : ∀ hole ∈ holes PositionalRef.read? t,
      (env.segments.getD []).segment? hole.2.key = none := by decide +kernel
  obtain ⟨same, -, stays, -⟩ := foreign_run_of_noOpening env noPath noQuery
  exact ⟨noPath, noQuery, stays missing, same, by decide +kernel⟩

/-- A quantifier is replaced when the URL has a segment at its position. -/
theorem foreign_run_quantifier :
    let segments := Segments.ofPath "/ns/prod".toList
    let env : Environment := ⟨fun _ => .ok none, some segments, none, .standard⟩
    let t := "up\x7bpod=~\"web-[0-9]\x7b2\x7d\"\x7d".toList
    ¬ DataPathRef.opening <:+: t ∧ ¬ QueryRef.opening <:+: t ∧
      (Pipeline.foreign.run env t).text = "up\x7bpod=~\"web-[0-9]prod\"\x7d".toList ∧
      (Pipeline.foreign.run env t).text ≠ t := by
  decide +kernel

end Templating
