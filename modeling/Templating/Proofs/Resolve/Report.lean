import Templating.Proofs.Resolve.Answers
import Templating.Proofs.Resolve.Composition

/-!
# What a report says of itself

A report has a list of diagnostics, and it says whether every repetition converged.
The two are made apart.  A repetition that is cut off leaves a note and clears the
flag, and of the notes only those are recorded that do not repeat another.

They agree nevertheless.  A draft is not settled just when a repetition is noted
that was cut off (`Draft.Flagged`).  Every answer to a placeholder is so, putting
drafts together keeps it, and the end of the passes has both or none.  Recording
keeps the kinds of the notes, so a note that is dropped as a repetition has one of
its kind in the report.

`watch_faithful` puts this together with what is recorded for an observer.
-/

namespace Templating

/-! ## Flagged drafts -/

namespace Draft

/-- A draft is not settled just when a repetition is noted that was cut off. -/
def Flagged (d : Draft) : Prop :=
  d.settled = false ↔ ∃ note ∈ d.notes, note.kind = .passLimitReached

theorem flagged_ofText (t : Text) : (ofText t).Flagged := by
  constructor
  · intro unsettled
    cases unsettled
  · rintro ⟨note, noted, -⟩
    cases noted

/-- A settled draft with one note is flagged if the note is on something else. -/
theorem flagged_noting (t : Text) {note : Diagnostic} (other : note.kind ≠ .passLimitReached) :
    (noting t note).Flagged := by
  constructor
  · intro unsettled
    cases unsettled
  · rintro ⟨note', noted, cut⟩
    rw [List.mem_singleton.mp noted] at cut
    exact absurd cut other

theorem flagged_refused (grammar : Grammar) (written : Text) (refusal : Refusal) :
    (refused grammar written refusal).Flagged := by
  refine flagged_noting written ?_
  cases refusal with
  | placeholder e => exact nofun
  | unavailable index reason => exact nofun
  | badConfig reason => exact nofun

theorem flagged_composable : Composable Flagged where
  ofText := flagged_ofText
  andThen := by
    intro d next before after
    have unsettled : (d.andThen next).settled = false ↔
        d.settled = false ∨ (next d.text).settled = false := Bool.and_eq_false_iff
    rw [Flagged] at before after ⊢
    rw [unsettled, before, after]
    simp only [andThen, List.mem_append, or_and_right, exists_or]
  concat := by
    intro parts each
    have unsettled : (Draft.concat parts).settled = false ↔ ∃ d ∈ parts, d.settled = false := by
      simp only [Draft.concat, List.all_eq_false, Bool.not_eq_true]
    rw [Flagged, unsettled]
    constructor
    · rintro ⟨d, member, cut⟩
      obtain ⟨note, noted, kind⟩ := (each d member).mp cut
      exact ⟨note, List.mem_flatMap_of_mem member noted, kind⟩
    · rintro ⟨note, noted, kind⟩
      obtain ⟨d, member, noted⟩ := List.mem_flatMap.mp noted
      exact ⟨d, member, (each d member).mpr ⟨note, noted, kind⟩⟩

end Draft

/-! ## Answers -/

theorem ne_passLimitReached_of_fellBack {kind : DiagnosticKind} (fellBack : kind.fellBack = true) :
    kind ≠ .passLimitReached := by
  rintro rfl
  cases fellBack

theorem answerDataPath_flagged (env : Environment) (written : Text) (ref : DataPathRef) :
    (answerDataPath env written ref).Flagged := by
  generalize drafted : answerDataPath env written ref = d
  cases answerDataPath_eq_iff.mp drafted with
  | badIndex _ => exact Draft.flagged_refused _ _ _
  | unavailable _ _ => exact Draft.flagged_refused _ _ _
  | fallback _ _ _ _ fellBack =>
      exact Draft.flagged_noting _ (ne_passLimitReached_of_fellBack fellBack)
  | value _ _ _ => exact Draft.flagged_ofText _

theorem answerSelection_flagged (env : Environment) (written : Text) (ref : QueryRef) (index : Nat)
    (expression : Text) : (answerSelection env written ref index expression).Flagged := by
  generalize drafted : answerSelection env written ref index expression = d
  cases answerSelection_eq_iff.mp drafted with
  | unavailable _ => exact Draft.flagged_refused _ _ _
  | missingDocument _ => exact Draft.flagged_noting _ nofun
  | badPath _ _ => exact Draft.flagged_refused _ _ _
  | missingValue _ _ _ => exact Draft.flagged_noting _ nofun
  | value _ _ _ => exact Draft.flagged_ofText _

theorem answerPositional_flagged (segments : Segments) (written : Text) (ref : PositionalRef) :
    (answerPositional segments written ref).Flagged := by
  rw [answerPositional]
  cases segments.segment? ref.key with
  | none => exact Draft.flagged_noting _ nofun
  | some segment => exact Draft.flagged_ofText segment

/-- The end of the passes is noted just when it is not settled. -/
theorem outOfPasses_flagged (bound : Nat) (t : Text) : (outOfPasses bound t).Flagged := by
  rw [outOfPasses]
  cases (holes QueryRef.read? t).head? with
  | none => exact Draft.flagged_ofText t
  | some hole => exact iff_of_true rfl ⟨_, List.mem_singleton_self _, rfl⟩

theorem yields_flagged (env : Environment) : env.Yields Draft.Flagged where
  composable := Draft.flagged_composable
  dataPath := fun _ _ _ => answerDataPath_flagged env _ _
  positional := fun _ _ _ segments => answerPositional_flagged segments _ _
  refused := fun _ _ _ _ => Draft.flagged_refused _ _ _
  selection := fun _ _ _ _ _ expression => answerSelection_flagged env _ _ _ expression
  repetition := fun _ onPass =>
    Draft.flagged_composable.settle onPass (outOfPasses_flagged _) _

theorem draft_flagged (env : Environment) (p : Pipeline) (t : Text) : (p.draft env t).Flagged :=
  Pipeline.draft_of_yields (fun env' _ => yields_flagged env') p t

/-! ## Reports -/

/-- A kind is reported just when it is noted. -/
theorem run_has_iff {env : Environment} {t : Text} {p : Pipeline} {kind : DiagnosticKind} :
    (p.run env t).has kind = true ↔ ∃ note ∈ (p.draft env t).notes, note.kind = kind := by
  rw [Resolution.has, List.any_eq_true]
  constructor
  · rintro ⟨d, recorded, same⟩
    exact ⟨d, mem_notes_of_mem_diagnostics recorded, of_decide_eq_true same⟩
  · rintro ⟨note, noted, same⟩
    obtain ⟨d, recorded, kind, -⟩ := exists_diagnostic_of_mem_notes noted
    exact ⟨d, recorded, decide_eq_true (kind.trans same)⟩

theorem run_converged_iff (env : Environment) (t : Text) (p : Pipeline) :
    (p.run env t).converged = false ↔ (p.run env t).has .passLimitReached = true :=
  (draft_flagged env p t).trans run_has_iff.symm

/-- Whoever observes a resolution, it is the same, and the observer sees its
diagnostics. -/
theorem watch_eq {σ : Type} (observe : σ → Diagnostic → σ) (observer : σ) (env : Environment)
    (t : Text) (p : Pipeline) :
    p.watch observe observer env t =
      (p.run env t, (p.run env t).diagnostics.foldl observe observer) := by
  have recorded := Ledger.recorded_ofNotes_eq observe (fun _ _ => ()) observer ()
    (p.draft env t).notes
  have seen := (Ledger.faithful_ofNotes observe observer (p.draft env t).notes).observed
  simp only [Pipeline.run, Pipeline.watch, Draft.resolution, seen, recorded]

/-- No kind and placeholder is reported twice.  An observer sees the diagnostics
that are reported, in that order, and changes nothing.  A resolution did not
converge just when it reports a repetition that was cut off, so it is clean just
when it reports nothing. -/
theorem watch_faithful {σ : Type} (observe : σ → Diagnostic → σ) (observer : σ)
    (env : Environment) (t : Text) (p : Pipeline) :
    let r := p.run env t
    (r.diagnostics.map fun d => (d.kind, d.placeholder)).Nodup ∧
      p.watch observe observer env t = (r, r.diagnostics.foldl observe observer) ∧
      (r.converged = false ↔ ∃ d ∈ r.diagnostics, d.kind = .passLimitReached) ∧
      (r.isClean = true ↔ r.diagnostics = []) := by
  intro r
  have cut : r.converged = false ↔ ∃ d ∈ r.diagnostics, d.kind = .passLimitReached := by
    rw [run_converged_iff, Resolution.has, List.any_eq_true]
    simp only [decide_eq_true_eq]
    rfl
  refine ⟨(Ledger.faithful_ofNotes _ () (p.draft env t).notes).distinct,
    watch_eq observe observer env t p, cut, ?_⟩
  rw [Resolution.isClean, Bool.and_eq_true, List.isEmpty_iff]
  constructor
  · exact And.right
  · intro none
    refine ⟨?_, none⟩
    rw [← Bool.not_eq_false, cut, none]
    rintro ⟨d, member, -⟩
    cases member

end Templating
