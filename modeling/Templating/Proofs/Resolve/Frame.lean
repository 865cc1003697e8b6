import Templating.Proofs.Placeholder.Framing
import Templating.Proofs.Resolve.PassBound

/-!
# Resolutions in a frame

A step *keeps a frame* if a text in the frame is resolved as it is without, and
the frame stays around the result (`Frames`).

Whatever is put in the place of a placeholder, filling a text keeps a frame, since
the text is cut alike.  So every pass does.  One step after another keeps it
because the first leaves it for the second.  And a repetition keeps it because the
text in the frame changes just when the text without does, and holds a query just
when that does.

`run_framed` says so of reports.  Without a template in it, a frame stays as it is,
with nothing to report.
-/

namespace Templating

/-- A draft with a frame around its text. -/
def Draft.framed (p s : Text) (d : Draft) : Draft := ⟨p ++ (d.text ++ s), d.notes, d.settled⟩

/-- A step resolves a text in a frame as it resolves the text, and keeps the
frame. -/
def Frames (p s : Text) (step : Text → Draft) : Prop :=
  ∀ t, step (p ++ (t ++ s)) = (step t).framed p s

/-! ## Filling -/

namespace Draft

variable {ρ : Type} (answer : Text → ρ → Draft)

/-- Pieces side by side are filled side by side. -/
theorem fill_append (parts parts' : List (Piece ρ)) :
    fill answer (parts ++ parts') =
      ⟨(fill answer parts).text ++ (fill answer parts').text,
        (fill answer parts).notes ++ (fill answer parts').notes,
        (fill answer parts).settled && (fill answer parts').settled⟩ := by
  simp only [fill, concat, List.map_append, List.flatMap_append, List.all_append]

theorem fill_plain (t : Text) : fill answer (t.map Piece.plain) = ofText t := by
  rw [fill_of_hole?_eq_nil answer (filterMap_hole?_plain t), List.flatMap_map]
  exact congrArg ofText (List.flatMap_singleton' t)

theorem fill_framed (p s : Text) (parts : List (Piece ρ)) :
    fill answer (p.map Piece.plain ++ (parts ++ s.map Piece.plain)) =
      (fill answer parts).framed p s := by
  simp only [fill_append, fill_plain, ofText, framed, List.nil_append, List.append_nil,
    Bool.true_and, Bool.and_true]

end Draft

/-! ## Steps -/

section Steps

variable {p s : Text}

/-- A pass keeps a frame, whatever it puts in the place of placeholders. -/
theorem Frames.fill {ρ : Type} {read : Text → Option (ρ × Text)} (opened : ReadsOpened read)
    (blind : Blind read) (unopened : Unopened p) (unclosed : '}' ∉ s)
    (answer : Text → ρ → Draft) : Frames p s (fun t => .fill answer (pieces read t)) := by
  intro t
  simp only [pieces_framed opened blind unopened unclosed, Draft.fill_framed]

theorem Frames.andThen {first next : Text → Draft} (onFirst : Frames p s first)
    (onNext : Frames p s next) : Frames p s (fun t => (first t).andThen next) := by
  intro t
  simp only [onFirst t, Draft.andThen, Draft.framed, onNext (first t).text]

/-- A text in a frame has the same queries as the text. -/
theorem holes_framed (unopened : Unopened p) (unclosed : '}' ∉ s) (t : Text) :
    holes QueryRef.read? (p ++ (t ++ s)) = holes QueryRef.read? t := by
  have cut := pieces_framed QueryRef.read?_opened QueryRef.read?_blind unopened unclosed t
  rw [holes, cut, List.filterMap_append, List.filterMap_append, filterMap_hole?_plain,
    filterMap_hole?_plain, List.nil_append, List.append_nil, holes]

theorem Frames.outOfPasses (unopened : Unopened p) (unclosed : '}' ∉ s) (bound : Nat) :
    Frames p s (outOfPasses bound) := by
  intro t
  simp only [Templating.outOfPasses, holes_framed unopened unclosed]
  cases (holes QueryRef.read? t).head? with
  | none => rfl
  | some hole => rfl

/-- The repetition of a pass that keeps a frame keeps it. -/
theorem Frames.repeated (unopened : Unopened p) (unclosed : '}' ∉ s) {pass : Text → Draft}
    (onPass : Frames p s pass) (bound : Nat) :
    ∀ left : Nat, Frames p s (settle pass bound left)
  | 0 => .outOfPasses unopened unclosed bound
  | left + 1 => by
      intro t
      have later := Frames.repeated unopened unclosed onPass bound left (pass t).text
      have ends : ((pass t).framed p s).text = p ++ (t ++ s) ↔ (pass t).text = t := by
        rw [Draft.framed, List.append_cancel_left_eq, List.append_cancel_right_eq]
      simp only [settle, onPass t, ends]
      split
      next => rfl
      next => simp only [Draft.andThen, Draft.framed, later]

/-! ## Passes -/

variable (unopened : Unopened p) (unclosed : '}' ∉ s)
include unopened unclosed

theorem frames_dataPathPass (env : Environment) : Frames p s (dataPathPass env) :=
  .fill DataPathRef.read?_opened DataPathRef.read?_blind unopened unclosed _

theorem frames_positionalPass (segments : Segments) : Frames p s (positionalPass segments) :=
  .fill PositionalRef.read?_opened PositionalRef.read?_blind unopened unclosed _

theorem frames_queryPass (env : Environment) : ∀ levels : Nat, Frames p s (queryPass env levels)
  | 0 => .fill QueryRef.read?_opened QueryRef.read?_blind unopened unclosed _
  | _ + 1 => .fill QueryRef.read?_opened QueryRef.read?_blind unopened unclosed _

theorem frames_resolveQueries (env : Environment) : Frames p s (resolveQueries env) :=
  .repeated unopened unclosed (frames_queryPass unopened unclosed env maxNesting) _ _

/-! ## Pipelines -/

theorem frames_draft (env : Environment) (pipeline : Pipeline) :
    Frames p s (fun t => pipeline.draft env t) := by
  have both (env : Environment) :
      Frames p s (fun t => (dataPathPass env t).andThen (resolveQueries env)) :=
    (frames_dataPathPass unopened unclosed env).andThen
      (frames_resolveQueries unopened unclosed env)
  have full : Frames p s (Pipeline.draftAll env) :=
    (both env.full).andThen (frames_positionalPass unopened unclosed _)
  cases pipeline with
  | dataPath => exact frames_dataPathPass unopened unclosed env
  | query => exact frames_resolveQueries unopened unclosed env
  | positional => exact frames_positionalPass unopened unclosed _
  | dataOnly => exact both env.dataOnly
  | all => exact full
  | foreign => exact full

end Steps

/-- Nothing is resolved to nothing, with nothing to note. -/
theorem draft_nil (env : Environment) (pipeline : Pipeline) :
    pipeline.draft env [] = .ofText [] := by
  have queries (env : Environment) : resolveQueries env [] = .ofText [] :=
    settle_of_holes_eq_nil (queryPass_idle env maxNesting) _ _ rfl
  have both (env : Environment) :
      (dataPathPass env []).andThen (resolveQueries env) = .ofText [] :=
    (Draft.ofText_andThen [] (resolveQueries env)).trans (queries env)
  have full : Pipeline.draftAll env [] = .ofText [] :=
    congrArg (Draft.andThen · (positionalPass (env.segments.getD []))) (both env.full)
  cases pipeline with
  | dataPath => rfl
  | query => exact queries env
  | positional => rfl
  | dataOnly => exact both env.dataOnly
  | all => exact full
  | foreign => exact full

/-! ## Reports -/

/-- Every pipeline resolves a text in a frame as it resolves the text.  It leaves a
frame without a text as it is, with nothing to report. -/
theorem run_framed (env : Environment) (pipeline : Pipeline) {p s : Text} (unopened : Unopened p)
    (unclosed : '}' ∉ s) (t : Text) :
    let r := pipeline.run env t
    pipeline.run env (p ++ t ++ s) = ⟨p ++ r.text ++ s, r.diagnostics, r.converged⟩ ∧
      pipeline.run env (p ++ s) = ⟨p ++ s, [], true⟩ := by
  have around (t : Text) : pipeline.draft env (p ++ (t ++ s)) = (pipeline.draft env t).framed p s :=
    frames_draft unopened unclosed env pipeline t
  have alone := around []
  rw [List.nil_append, draft_nil] at alone
  simp only [Pipeline.run, Pipeline.watch, List.append_assoc, around t, alone]
  exact ⟨rfl, rfl⟩

/-- A query of another language in front, and behind it a digit that would make a
placeholder of the last brace of the text if a brace followed. -/
theorem run_framed_metric :
    let env : Environment := ⟨Documents.source [(0, chainedDocument)], none, none, .standard⟩
    let p := "metric\x7bjob=\"api\"\x7d > ".toList
    let s := ['1', ' ', '{']
    let t := QueryRef.write '\'' '\'' ⟨['0'], ['.', 'b'], none⟩ ++ ['{']
    Pipeline.foreign.run env (p ++ t ++ s) = ⟨p ++ ['x', '{'] ++ s, [], true⟩ ∧
      Pipeline.foreign.run env (p ++ s) = ⟨p ++ s, [], true⟩ := by
  intro env p s t
  have unopened : Unopened p := by decide +kernel
  have unclosed : '}' ∉ s := by decide
  have resolved : Pipeline.foreign.run env t = ⟨['x', '{'], [], true⟩ := by decide +kernel
  have framed := run_framed env .foreign unopened unclosed t
  rw [resolved] at framed
  exact framed

end Templating
