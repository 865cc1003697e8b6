import Templating.Proofs.Placeholder.Whole
import Templating.Proofs.Resolve.Simulation

/-!
# Properties of every draft

The draft of a template is put together from answers to placeholders.  So a
property of drafts holds of it if it holds of the answers and passes from drafts
to what is put together from them (`Draft.Composable`).

Only a repetition may add something that no answer has.  `Environment.Yields` says
what is left to show in an environment, and `Environment.Yields.queryPass` carries
the property through every level of nesting, by induction on the levels.
`Pipeline.draft_of_yields` carries it to every pipeline.

From the draft it goes on to the report, which has the notes of the draft without
repetitions.
-/

namespace Templating

/-! ## Composable properties -/

namespace Draft

/-- A property that passes to a draft from the drafts it is made of. -/
structure Composable (P : Draft → Prop) : Prop where
  /-- A text with nothing to note has it. -/
  ofText : ∀ t : Text, P (ofText t)
  /-- From a draft, and from the draft made of its text, to both steps. -/
  andThen : ∀ ⦃d : Draft⦄ ⦃next : Text → Draft⦄, P d → P (next d.text) → P (d.andThen next)
  /-- From each of some drafts to the drafts side by side. -/
  concat : ∀ ⦃parts : List Draft⦄, (∀ d ∈ parts, P d) → P (concat parts)

/-- What holds of every note. -/
theorem composable_notes (P : Diagnostic → Prop) :
    Composable fun d => ∀ note ∈ d.notes, P note where
  ofText := fun _ _ noted => nomatch noted
  andThen := by
    intro d next before after note noted
    rcases List.mem_append.mp noted with old | new
    · exact before note old
    · exact after note new
  concat := by
    intro parts each note noted
    obtain ⟨d, member, inside⟩ := List.mem_flatMap.mp noted
    exact each d member note inside

theorem composable_settled : Composable fun d => d.settled = true where
  ofText := fun _ => rfl
  andThen := fun _ _ before after => Bool.and_eq_true_iff.mpr ⟨before, after⟩
  concat := fun _ each => List.all_eq_true.mpr each

namespace Composable

variable {P Q : Draft → Prop}

theorem and (first : Composable P) (second : Composable Q) : Composable fun d => P d ∧ Q d where
  ofText := fun t => ⟨first.ofText t, second.ofText t⟩
  andThen := fun _ _ before after =>
    ⟨first.andThen before.1 after.1, second.andThen before.2 after.2⟩
  concat := fun _ each =>
    ⟨first.concat fun d member => (each d member).1,
      second.concat fun d member => (each d member).2⟩

/-- From the answers to the placeholders of a text, each of them read from what is
quoted of it, to the filled text. -/
theorem fill (composable : Composable P) {ρ : Type} {read : Text → Option (ρ × Text)}
    (whole : ReadsWhole read) (forward : ReadsForward read) {answer : Text → ρ → Draft}
    (answers : ∀ ⦃written ref⦄, read written = some (ref, []) → P (answer written ref)) (t : Text) :
    P (fill answer (pieces read t)) := by
  refine composable.concat fun d member => ?_
  obtain ⟨piece, among, rfl⟩ := List.mem_map.mp member
  cases piece with
  | plain c => exact composable.ofText [c]
  | hole written ref => exact answers (whole.read_of_mem_holes forward (mem_holes.mpr among))

/-- From every pass, and from the end of the passes, to the repetition. -/
theorem settle (composable : Composable P) {pass : Text → Draft} {bound : Nat}
    (onPass : ∀ t, P (pass t)) (onEnd : ∀ t, P (outOfPasses bound t)) (left : Nat) (t : Text) :
    P (settle pass bound left t) := by
  induction left generalizing t with
  | zero => exact onEnd t
  | succ left ih =>
      simp only [Templating.settle]
      split
      next => exact onPass t
      next => exact composable.andThen (onPass t) (ih (pass t).text)

end Composable

end Draft

/-! ## Levels -/

/-- What is needed of an environment for every draft in it to have a property. -/
structure Environment.Yields (P : Draft → Prop) (env : Environment) : Prop where
  /-- The property is composable. -/
  composable : Draft.Composable P
  /-- The answers to data paths have it. -/
  dataPath : ∀ ⦃written ref⦄, DataPathRef.read? written = some (ref, []) →
    P (answerDataPath env written ref)
  /-- The answers to positional placeholders have it. -/
  positional : ∀ ⦃written ref⦄, PositionalRef.read? written = some (ref, []) →
    ∀ segments, P (answerPositional segments written ref)
  /-- A query that cannot be used has it. -/
  refused : ∀ ⦃written ref⦄, QueryRef.read? written = some (ref, []) →
    ∀ error, P (.refused .query written (.placeholder error))
  /-- The answers to queries with a resolved expression have it. -/
  selection : ∀ ⦃written ref index⦄, QueryRef.read? written = some (ref, []) →
    readDocumentIndex ref.index = .ok index →
      ∀ expression, P (answerSelection env written ref index expression)
  /-- The repetition of a pass has it if the pass has it. -/
  repetition : ∀ levels, (∀ t, P (queryPass env levels t)) →
    ∀ t, P (settled env (queryPass env levels) t)

namespace Environment.Yields

variable {P : Draft → Prop} {env : Environment}

theorem dataPathPass (yields : env.Yields P) (t : Text) : P (dataPathPass env t) :=
  yields.composable.fill DataPathRef.read?_whole DataPathRef.read?_blind.forward yields.dataPath t

theorem positionalPass (yields : env.Yields P) (segments : Segments) (t : Text) :
    P (positionalPass segments t) :=
  yields.composable.fill PositionalRef.read?_whole PositionalRef.read?_blind.forward
    (fun _ _ found => yields.positional found segments) t

theorem fillExpression (yields : env.Yields P) (expression : Text) :
    P (fillExpression env expression) := by
  rw [Templating.fillExpression]
  cases env.segments with
  | none => exact yields.composable.ofText expression
  | some segments => exact yields.positionalPass segments expression

/-- The answer to a query has the property if its resolved expression has it. -/
theorem answerQuery (yields : env.Yields P) {resolve : Option (Text → Draft)}
    (onExpressions : ∀ step ∈ resolve, ∀ t, P (step t)) {written : Text} {ref : QueryRef}
    (found : QueryRef.read? written = some (ref, [])) :
    P (answerQuery env resolve written ref) := by
  simp only [Templating.answerQuery]
  cases indexed : readDocumentIndex ref.index with
  | error e => exact yields.refused found e
  | ok index =>
      cases resolve with
      | none => exact yields.refused found _
      | some step =>
          have resolved : P (step ref.expression) := onExpressions step rfl ref.expression
          have filled := yields.composable.andThen resolved (yields.fillExpression _)
          exact yields.composable.andThen filled (yields.selection found indexed _)

/-- A pass has the property if the resolved expressions have it. -/
theorem fillQueries (yields : env.Yields P) {resolve : Option (Text → Draft)}
    (onExpressions : ∀ step ∈ resolve, ∀ t, P (step t)) (t : Text) :
    P (.fill (Templating.answerQuery env resolve) (pieces QueryRef.read? t)) :=
  yields.composable.fill QueryRef.read?_whole QueryRef.read?_forward
    (fun _ _ found => yields.answerQuery onExpressions found) t

theorem queryPass (yields : env.Yields P) (levels : Nat) (t : Text) : P (queryPass env levels t) := by
  induction levels generalizing t with
  | zero =>
      refine yields.fillQueries (fun step none => ?_) t
      cases none
  | succ levels ih =>
      refine yields.fillQueries (fun step some => ?_) t
      obtain rfl := Option.some.inj some
      exact yields.repetition levels ih

theorem resolveQueries (yields : env.Yields P) (t : Text) : P (resolveQueries env t) :=
  yields.repetition maxNesting (yields.queryPass maxNesting) t

end Environment.Yields

/-! ## Pipelines -/

/-- A property holds of every draft if all environments with that source yield
it. -/
theorem Pipeline.draft_of_yields {P : Draft → Prop} {env : Environment}
    (yields : ∀ env' : Environment, env'.source = env.source → env'.Yields P) (p : Pipeline)
    (t : Text) : P (p.draft env t) := by
  have here : env.Yields P := yields env rfl
  have both (env' : Environment) (same : env'.source = env.source) :
      P ((dataPathPass env' t).andThen (resolveQueries env')) :=
    here.composable.andThen ((yields env' same).dataPathPass t)
      ((yields env' same).resolveQueries _)
  have full : P (Pipeline.draftAll env t) :=
    here.composable.andThen (both env.full rfl) (here.positionalPass _ _)
  cases p with
  | dataPath => exact here.dataPathPass t
  | query => exact here.resolveQueries t
  | positional => exact here.positionalPass _ t
  | dataOnly => exact both env.dataOnly rfl
  | all => exact full
  | foreign => exact full

/-! ## Reports -/

section Reports

variable {env : Environment} {t : Text} {p : Pipeline}

theorem mem_notes_of_mem_diagnostics {d : Diagnostic} (h : d ∈ (p.run env t).diagnostics) :
    d ∈ (p.draft env t).notes :=
  Ledger.mem_of_mem_ofNotes (fun _ _ => ()) h

/-- Every note is reported, or one of the same kind on the same placeholder is. -/
theorem exists_diagnostic_of_mem_notes {note : Diagnostic} (h : note ∈ (p.draft env t).notes) :
    ∃ d ∈ (p.run env t).diagnostics, d.kind = note.kind ∧ d.placeholder = note.placeholder := by
  obtain ⟨d, recorded, repeats⟩ := Ledger.exists_repeats_of_mem_ofNotes (fun _ _ => ()) () h
  exact ⟨d, recorded, Diagnostic.repeats_iff.mp repeats⟩

end Reports

end Templating
