import Templating.Proofs.Resolve.Settling

/-!
# Passes that agree

Two environments may resolve queries alike wherever the first does so in some
regular way.  Such a way is a property of drafts, for instance that every
repetition is settled.  It has to be *hereditary*: a draft that has it is made of
drafts that have it.

`Simulates` says what is needed of the two environments outside the recursion.
`Simulates.agreesOn_queryPass` then carries the agreement through every level of nesting,
by induction on the levels.  `Inward.agreesOn_draft` carries it to every pipeline.
-/

namespace Templating

/-! ## Hereditary properties -/

namespace Draft

/-- A property that passes from a draft to the drafts it is made of. -/
structure Hereditary (P : Draft → Prop) : Prop where
  /-- From a draft with a further step to both parts. -/
  andThen : ∀ ⦃d : Draft⦄ ⦃next : Text → Draft⦄, P (d.andThen next) → P d ∧ P (next d.text)
  /-- From drafts side by side to each. -/
  concat : ∀ ⦃parts : List Draft⦄, P (concat parts) → ∀ d ∈ parts, P d

/-- The property that every repetition is settled. -/
def Settled (d : Draft) : Prop := d.settled = true

theorem settled_hereditary : Hereditary Settled where
  andThen := fun _ _ h => Bool.and_eq_true_iff.mp h
  concat := fun _ h => List.all_eq_true.mp h

/-- Answers that agree at every placeholder fill a text alike. -/
theorem fill_congr {ρ : Type} {answer answer' : Text → ρ → Draft} {parts : List (Piece ρ)}
    (h : ∀ written ref, .hole written ref ∈ parts → answer' written ref = answer written ref) :
    fill answer' parts = fill answer parts := by
  have pieces : parts.map (ofPiece answer') = parts.map (ofPiece answer) := by
    refine List.map_congr_left fun piece member => ?_
    cases piece with
    | plain c => rfl
    | hole written ref => exact h written ref member
  exact congrArg concat pieces

theorem andThen_congr {d : Draft} {next next' : Text → Draft}
    (h : next' d.text = next d.text) : d.andThen next' = d.andThen next := by
  simp only [andThen, h]

end Draft

/-! ## Agreement -/

/-- The second step does what the first does, wherever the first has a
property. -/
def AgreesOn (P : Draft → Prop) (step step' : Text → Draft) : Prop :=
  ∀ ⦃t : Text⦄, P (step t) → step' t = step t

variable {P : Draft → Prop}

theorem AgreesOn.refl (step : Text → Draft) : AgreesOn P step step := fun _ _ => rfl

/-- Agreement of two steps, one after the other. -/
theorem AgreesOn.andThen (hereditary : Draft.Hereditary P) {first first' next next' : Text → Draft}
    (onFirst : AgreesOn P first first') (onNext : AgreesOn P next next') :
    AgreesOn P (fun t => (first t).andThen next) (fun t => (first' t).andThen next') := by
  intro t h
  obtain ⟨before, after⟩ := hereditary.andThen h
  change (first' t).andThen next' = (first t).andThen next
  rw [onFirst before]
  exact Draft.andThen_congr (onNext after)

/-- Agreement of two passes whose answers agree. -/
theorem AgreesOn.fill {ρ : Type} (hereditary : Draft.Hereditary P)
    {answer answer' : Text → ρ → Draft} (read : Text → Option (ρ × Text))
    (onAnswers : ∀ written ref, P (answer written ref) → answer' written ref = answer written ref) :
    AgreesOn P (fun t => .fill answer (pieces read t))
      (fun t => .fill answer' (pieces read t)) := by
  intro t h
  refine Draft.fill_congr fun written ref member => onAnswers written ref ?_
  exact hereditary.concat h _ (List.mem_map_of_mem (f := Draft.ofPiece answer) member)

/-- Agreement of the repetitions of two passes that agree, under one bound. -/
theorem AgreesOn.repeated (hereditary : Draft.Hereditary P) {pass pass' : Text → Draft}
    (agree : AgreesOn P pass pass') (bound : Nat) :
    ∀ left : Nat, AgreesOn P (settle pass bound left) (settle pass' bound left)
  | 0 => .refl (outOfPasses bound)
  | left + 1 => by
      intro t h
      simp only [settle] at h ⊢
      by_cases same : (pass t).text = t
      · simp only [same, ↓reduceIte] at h ⊢
        have once : pass' t = pass t := agree h
        simp only [once, same, ↓reduceIte]
      · simp only [same, ↓reduceIte] at h ⊢
        obtain ⟨first, later⟩ := hereditary.andThen h
        have once : pass' t = pass t := agree first
        simp only [once, same, ↓reduceIte]
        exact Draft.andThen_congr (agree.repeated hereditary bound left later)

/-! ## Levels -/

/-- What is needed outside the recursion for two environments to resolve
queries alike wherever the first has a property. -/
structure Simulates (P : Draft → Prop) (env env' : Environment) : Prop where
  /-- The property is hereditary. -/
  hereditary : Draft.Hereditary P
  /-- The environments evaluate expressions alike. -/
  selection : ∀ written ref index,
    AgreesOn P (answerSelection env written ref index) (answerSelection env' written ref index)
  /-- They fill expressions alike. -/
  expression : AgreesOn P (fillExpression env) (fillExpression env')
  /-- They repeat passes that agree alike. -/
  repetition : ∀ ⦃pass pass' : Text → Draft⦄, Idle pass → Idle pass' → AgreesOn P pass pass' →
    AgreesOn P (settled env pass) (settled env' pass')

/-- Without a level left, every query is left as written in any environment. -/
theorem answerQuery_none (env env' : Environment) (written : Text) (ref : QueryRef) :
    answerQuery env' none written ref = answerQuery env none written ref := by
  simp only [answerQuery]
  cases readDocumentIndex ref.index with
  | error e => rfl
  | ok index => rfl

namespace Simulates

variable {env env' : Environment}

theorem answerQuery_eq (sim : Simulates P env env') {resolve resolve' : Text → Draft}
    (onExpressions : AgreesOn P resolve resolve') (written : Text) (ref : QueryRef)
    (h : P (answerQuery env (some resolve) written ref)) :
    answerQuery env' (some resolve') written ref = answerQuery env (some resolve) written ref := by
  simp only [answerQuery] at h ⊢
  cases indexed : readDocumentIndex ref.index with
  | error e => rfl
  | ok index =>
      simp only [indexed] at h ⊢
      have filled := onExpressions.andThen sim.hereditary sim.expression
      exact filled.andThen sim.hereditary (sim.selection written ref index) h

/-- The passes of the two environments agree at every level of nesting. -/
theorem agreesOn_queryPass (sim : Simulates P env env') :
    ∀ levels : Nat, AgreesOn P (queryPass env levels) (queryPass env' levels)
  | 0 =>
      .fill sim.hereditary QueryRef.read? fun written ref _ => answerQuery_none env env' written ref
  | levels + 1 => by
      have inner : AgreesOn P (settled env (queryPass env levels))
          (settled env' (queryPass env' levels)) :=
        sim.repetition (queryPass_idle env levels) (queryPass_idle env' levels)
          (sim.agreesOn_queryPass levels)
      exact .fill sim.hereditary QueryRef.read? (sim.answerQuery_eq inner)

theorem agreesOn_resolveQueries (sim : Simulates P env env') :
    AgreesOn P (resolveQueries env) (resolveQueries env') :=
  sim.repetition (queryPass_idle env maxNesting) (queryPass_idle env' maxNesting)
    (sim.agreesOn_queryPass maxNesting)

end Simulates

/-! ## Pipelines -/

/-- The environment that a pipeline without positional placeholders resolves
in. -/
def Environment.dataOnly (env : Environment) : Environment :=
  ⟨env.source, none, env.custom, env.config⟩

/-- The environment that a full pipeline resolves in. -/
def Environment.full (env : Environment) : Environment :=
  ⟨env.source, some (env.segments.getD []), none, env.config⟩

/-- What is needed of a relation between environments for it to hold inside every
pipeline. -/
structure Inward (R : Environment → Environment → Prop) : Prop where
  /-- Related environments know the same segments. -/
  segments : ∀ ⦃env env' : Environment⦄, R env env' → env'.segments = env.segments
  /-- The relation holds in pipelines without positional placeholders. -/
  dataOnly : ∀ ⦃env env' : Environment⦄, R env env' → R env.dataOnly env'.dataOnly
  /-- The relation holds in full pipelines. -/
  full : ∀ ⦃env env' : Environment⦄, R env env' → R env.full env'.full

/-- The drafts of every pipeline agree in related environments if those of data
paths and of queries do. -/
theorem Inward.agreesOn_draft {R : Environment → Environment → Prop} (inward : Inward R)
    (hereditary : Draft.Hereditary P)
    (dataPaths : ∀ ⦃env env' : Environment⦄, R env env' →
      AgreesOn P (dataPathPass env) (dataPathPass env'))
    (queries : ∀ ⦃env env' : Environment⦄, R env env' →
      AgreesOn P (resolveQueries env) (resolveQueries env'))
    {env env' : Environment} (related : R env env') (p : Pipeline) :
    AgreesOn P (fun t => p.draft env t) (fun t => p.draft env' t) := by
  have both {env env' : Environment} (related : R env env') :
      AgreesOn P (fun t => (dataPathPass env t).andThen (resolveQueries env))
        (fun t => (dataPathPass env' t).andThen (resolveQueries env')) :=
    (dataPaths related).andThen hereditary (queries related)
  have positional : AgreesOn P (positionalPass (env.segments.getD []))
      (positionalPass (env'.segments.getD [])) := by
    rw [inward.segments related]
    exact .refl _
  have full : AgreesOn P (Pipeline.draftAll env) (Pipeline.draftAll env') :=
    (both (inward.full related)).andThen hereditary positional
  cases p with
  | dataPath => exact dataPaths related
  | query => exact queries related
  | positional => exact positional
  | dataOnly => exact both (inward.dataOnly related)
  | all => exact full
  | foreign => exact full

end Templating
