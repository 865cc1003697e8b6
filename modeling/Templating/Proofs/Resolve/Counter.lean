import Templating.Proofs.Resolve.Session

/-!
# The counter of nested expressions

However long documents make a text, the counter of a session stays between zero and
`maxNesting`, and every call leaves it where it was (`Runs.nesting_eq`,
`Runs.bounded`).  It is put back before the document is asked for and before the
expression is read, so no error comes between.

Where the counter stands at the limit, every query is refused.  So the first pass of a
call leaves its text as it is, there is no second pass, and every query in the text
has a note (`Runs.atLimit`).

`Pipeline.performs_bounded` says so of whole templates, whose sessions make the drafts of
the pipelines.
-/

namespace Templating

/-! ## Balance -/

namespace Session

/-- The second state has every note and every call of the first. -/
structure Extends (s s' : Session) : Prop where
  notes : s.notes ⊆ s'.notes
  calls : s.calls ⊆ s'.calls

variable (s : Session)

theorem extends_refl : s.Extends s := ⟨List.Subset.refl _, List.Subset.refl _⟩

theorem Extends.trans {s s₁ s' : Session} (first : s.Extends s₁) (second : s₁.Extends s') :
    s.Extends s' :=
  ⟨List.Subset.trans first.notes second.notes, List.Subset.trans first.calls second.calls⟩

theorem extends_moveTo (n : Int) : s.Extends (s.moveTo n) :=
  ⟨List.Subset.refl _, List.Subset.refl _⟩

theorem extends_taking (d : Draft) : s.Extends (s.taking d) :=
  ⟨List.subset_append_left _ _, List.Subset.refl _⟩

theorem extends_returning (before : Int) (t result : Text) :
    s.Extends (s.returning before t result) :=
  ⟨List.Subset.refl _, List.subset_append_left _ _⟩

end Session

section Runs

variable {env : Environment} {task : Task} {s s' : Session} {u : Text}

/-- The counter is behind a task where it was before. -/
theorem Runs.nesting_eq (run : Runs env task s s' u) : s'.nesting = s.nesting := by
  induction run with
  | empty => rfl
  | call _ _ ih => exact ih
  | cutOff => rfl
  | unchanged _ ih => exact ih
  | changed _ _ _ ihPass ihLater => exact ihLater.trans ihPass
  | done => rfl
  | plain _ ih => exact ih
  | hole _ _ ihFirst ihRest => exact ihRest.trans ihFirst
  | badIndex _ => rfl
  | tooDeep _ _ => rfl
  | answered _ _ _ ih =>
      simp only [Session.taking, Session.leave, Session.enter, Session.moveTo] at ih ⊢
      omega

/-- What is noted stays noted, and no call is forgotten. -/
theorem Runs.extends (run : Runs env task s s' u) : s.Extends s' := by
  induction run with
  | @empty s => exact s.extends_returning _ _ _
  | call _ _ ih => exact ih.trans (Session.extends_returning _ _ _ _)
  | @cutOff s _ => exact s.extends_taking _
  | unchanged _ ih => exact ih
  | changed _ _ _ ihPass ihLater => exact ihPass.trans ihLater
  | @done s => exact s.extends_refl
  | plain _ ih => exact ih
  | hole _ _ ihFirst ihRest => exact ihFirst.trans ihRest
  | @badIndex s _ _ _ _ => exact s.extends_taking _
  | @tooDeep s _ _ _ _ _ => exact s.extends_taking _
  | @answered s s' _ _ _ _ _ _ _ ih =>
      have inside : s.Extends s' := (s.extends_moveTo _).trans ih
      exact (inside.trans (s'.extends_moveTo _)).trans (Session.extends_taking _ _)

/-! ## At the limit -/

/-- The text that a task is about. -/
def Task.text : Task → Text
  | .call t => t
  | .passes _ t => t
  | .pieces parts => parts.flatMap Piece.text
  | .query w _ => w

/-- The queries that a task comes to first, as written. -/
def Task.queries : Task → List Text
  | .call t => (holes QueryRef.read? t).map Prod.fst
  | .passes left t => if left = 0 then [] else (holes QueryRef.read? t).map Prod.fst
  | .pieces parts => (parts.filterMap Piece.hole?).map Prod.fst
  | .query w _ => [w]

/-- A placeholder is noted as malformed. -/
def Malformed (notes : List Diagnostic) (w : Text) : Prop :=
  ∃ note ∈ notes, note.kind = .malformed ∧ note.placeholder = w

theorem Malformed.mono {notes notes' : List Diagnostic} {w : Text} (malformed : Malformed notes w)
    (more : notes ⊆ notes') : Malformed notes' w := by
  obtain ⟨note, noted, same⟩ := malformed
  exact ⟨note, more noted, same⟩

theorem malformed_taking (env : Environment) (s : Session) (w : Text) (ref : QueryRef) :
    Malformed (s.taking (answerQuery env none w ref)).notes w := by
  obtain ⟨e, refused⟩ := exists_answerQuery_none_eq env w ref
  rw [refused]
  exact ⟨_, List.mem_append_right _ (List.mem_singleton_self _), rfl, rfl⟩

/-- At the limit a task leaves its text as it is, and notes the queries that it comes
to. -/
theorem Runs.atLimit (run : Runs env task s s' u) (limit : maxNesting ≤ s.nesting) :
    u = task.text ∧ ∀ w ∈ task.queries, Malformed s'.notes w := by
  induction run with
  | empty => exact ⟨rfl, fun w none => absurd none List.not_mem_nil⟩
  | call _ _ ih =>
      obtain ⟨text, noted⟩ := ih limit
      have one : env.config.effectivePasses ≠ 0 := by
        rw [Config.effectivePasses]
        omega
      rw [Task.queries, if_neg one] at noted
      exact ⟨text, noted⟩
  | cutOff => exact ⟨rfl, fun w none => absurd none List.not_mem_nil⟩
  | unchanged _ ih => exact ⟨rfl, (ih limit).2⟩
  | @changed s s₁ s' left t u v other pass later ihPass _ =>
      -- A pass that refuses every query gives back the text.
      have same : u = t := (ihPass limit).1.trans (flatMap_text_pieces QueryRef.read?_forward t)
      exact absurd same other
  | done => exact ⟨rfl, fun w none => absurd none List.not_mem_nil⟩
  | plain _ ih =>
      obtain ⟨text, noted⟩ := ih limit
      exact ⟨congrArg _ text, noted⟩
  | hole first rest ihFirst ihRest =>
      obtain ⟨textFirst, notedFirst⟩ := ihFirst limit
      obtain ⟨textRest, notedRest⟩ := ihRest (first.nesting_eq.symm ▸ limit)
      refine ⟨by rw [textFirst, textRest]; rfl, fun w member => ?_⟩
      rcases List.mem_cons.mp member with here | later
      · exact (notedFirst w (here ▸ List.mem_singleton_self _)).mono rest.extends.notes
      · exact notedRest w later
  | @badIndex s w ref _ _ =>
      exact ⟨rfl, fun v here => List.mem_singleton.mp here ▸ malformed_taking env s w ref⟩
  | @tooDeep s w ref _ _ _ =>
      exact ⟨rfl, fun v here => List.mem_singleton.mp here ▸ malformed_taking env s w ref⟩
  | answered _ below _ _ => exact absurd limit (Int.not_le.mpr below)

end Runs

/-! ## Bounded sessions -/

/-- What a call has done, given all notes up to now.  It left the counter where it was.
At the limit it returned its text, and every query in it is noted as malformed. -/
structure Call.Kept (notes : List Diagnostic) (c : Call) : Prop where
  balanced : c.after = c.before
  atLimit : c.before = maxNesting →
    c.result = c.text ∧ ∀ hole ∈ holes QueryRef.read? c.text, Malformed notes hole.1

theorem Call.Kept.mono {notes notes' : List Diagnostic} {c : Call} (kept : c.Kept notes)
    (more : notes ⊆ notes') : c.Kept notes' where
  balanced := kept.balanced
  atLimit := fun limit => ⟨(kept.atLimit limit).1,
    fun hole member => ((kept.atLimit limit).2 hole member).mono more⟩

/-- A session whose counter never left its range, and whose calls did as they should. -/
structure Session.Bounded (s : Session) : Prop where
  nesting : 0 ≤ s.nesting ∧ s.nesting ≤ maxNesting
  depths : ∀ n ∈ s.depths, 0 ≤ n ∧ n ≤ maxNesting
  calls : ∀ c ∈ s.calls, c.Kept s.notes

namespace Session.Bounded

variable {s : Session}

theorem start : Session.start.Bounded where
  nesting := by decide
  depths := fun n zero => by
    rw [List.mem_singleton.mp zero]
    decide
  calls := fun c none => absurd none List.not_mem_nil

theorem moveTo (bounded : s.Bounded) {n : Int} (range : 0 ≤ n ∧ n ≤ maxNesting) :
    (s.moveTo n).Bounded where
  nesting := range
  depths := fun m member => by
    rcases List.mem_append.mp member with before | now
    · exact bounded.depths m before
    · exact List.mem_singleton.mp now ▸ range
  calls := bounded.calls

theorem enter (bounded : s.Bounded) (below : s.nesting < maxNesting) : s.enter.Bounded :=
  bounded.moveTo ⟨by have := bounded.nesting.1; omega, below⟩

theorem leave (bounded : s.Bounded) (inside : 0 < s.nesting) : s.leave.Bounded :=
  bounded.moveTo ⟨by omega, by have := bounded.nesting.2; omega⟩

theorem taking (bounded : s.Bounded) (d : Draft) : (s.taking d).Bounded where
  nesting := bounded.nesting
  depths := bounded.depths
  calls := fun c member => (bounded.calls c member).mono (s.extends_taking d).notes

theorem returning (bounded : s.Bounded) {before : Int} {t result : Text}
    (kept : Call.Kept s.notes ⟨t, result, before, s.nesting⟩) :
    (s.returning before t result).Bounded where
  nesting := bounded.nesting
  depths := bounded.depths
  calls := fun c member => by
    rcases List.mem_append.mp member with old | new
    · exact bounded.calls c old
    · exact List.mem_singleton.mp new ▸ kept

end Session.Bounded

/-- A task keeps a session bounded. -/
theorem Runs.bounded {env : Environment} {task : Task} {s s' : Session} {u : Text}
    (run : Runs env task s s' u) (bounded : s.Bounded) : s'.Bounded := by
  induction run with
  | empty =>
      exact bounded.returning ⟨rfl, fun _ => ⟨rfl, fun hole none => absurd none List.not_mem_nil⟩⟩
  | @call s s' t u some passes ih =>
      refine (ih bounded).returning ⟨passes.nesting_eq, fun limit => ?_⟩
      have whole : Runs env (.call t) s (s'.returning s.nesting t u) u := .call some passes
      obtain ⟨text, noted⟩ := whole.atLimit (Int.le_of_eq limit.symm)
      exact ⟨text, fun hole member => noted hole.1 (List.mem_map_of_mem member)⟩
  | cutOff => exact bounded.taking _
  | unchanged _ ih => exact ih bounded
  | changed _ _ _ ihPass ihLater => exact ihLater (ihPass bounded)
  | done => exact bounded
  | plain _ ih => exact ih bounded
  | hole _ _ ihFirst ihRest => exact ihRest (ihFirst bounded)
  | badIndex _ => exact bounded.taking _
  | tooDeep _ _ => exact bounded.taking _
  | @answered s s' _ _ _ _ _ below inner ih =>
      have inside : 0 < s'.nesting := by
        have entered : s'.nesting = s.nesting + 1 := inner.nesting_eq
        have := bounded.nesting.1
        omega
      exact ((ih (bounded.enter below)).leave inside).taking _

/-! ## Templates -/

/-- A step of a pipeline. -/
inductive Stage where
  /-- To go over the text once. -/
  | once (pass : Text → Draft)
  /-- To resolve the queries of the text. -/
  | queries

/-- The steps of a pipeline, in the environment that it resolves in. -/
def Pipeline.stages (env : Environment) : Pipeline → List Stage
  | .dataPath => [.once (dataPathPass env)]
  | .query => [.queries]
  | .positional => [.once (positionalPass (env.segments.getD []))]
  | .dataOnly => [.once (dataPathPass env), .queries]
  | .all => [.once (dataPathPass env), .queries, .once (positionalPass (env.segments.getD []))]
  | .foreign => [.once (dataPathPass env), .queries, .once (positionalPass (env.segments.getD []))]

/-- The environment that a pipeline resolves in. -/
def Pipeline.inside (env : Environment) : Pipeline → Environment
  | .dataOnly => env.dataOnly
  | .all => env.full
  | .foreign => env.full
  | _ => env

/-- Taking the steps of a pipeline, each with the text of the step before, leads from one
state to another and gives a text. -/
inductive Performs (env : Environment) : List Stage → Session → Text → Session → Text → Prop where
  | done {s : Session} {t : Text} : Performs env [] s t s t
  | once {pass : Text → Draft} {stages : List Stage} {s s' : Session} {t u : Text}
      (later : Performs env stages (s.taking (pass t)) (pass t).text s' u) :
      Performs env (.once pass :: stages) s t s' u
  | queries {stages : List Stage} {s s₁ s' : Session} {t t₁ u : Text}
      (call : Runs env (.call t) s s₁ t₁) (later : Performs env stages s₁ t₁ s' u) :
      Performs env (.queries :: stages) s t s' u

/-- Resolving a template in a fresh session ends in a state and gives a text. -/
def Pipeline.Performs (env : Environment) (p : Pipeline) (t : Text) (s : Session) (u : Text) :
    Prop :=
  Templating.Performs (p.inside env) (p.stages (p.inside env)) .start t s u

section Performs

variable {env : Environment} {stages : List Stage} {s s' : Session} {t u : Text}

theorem Performs.deterministic {s'' : Session} {v : Text} (run : Performs env stages s t s' u)
    (other : Performs env stages s t s'' v) : s'' = s' ∧ v = u := by
  induction run with
  | done =>
      cases other
      exact ⟨rfl, rfl⟩
  | once _ ih =>
      cases other with
      | once later => exact ih later
  | queries call _ ih =>
      cases other with
      | queries call' later =>
          obtain ⟨rfl, rfl⟩ := call.deterministic call'
          exact ih later

theorem Performs.bounded (run : Performs env stages s t s' u) (bounded : s.Bounded) :
    s'.Bounded := by
  induction run with
  | done => exact bounded
  | once _ ih => exact ih (bounded.taking _)
  | queries call _ ih => exact ih (call.bounded bounded)

theorem Performs.nesting_eq (run : Performs env stages s t s' u) : s'.nesting = s.nesting := by
  induction run with
  | done => rfl
  | once _ ih => exact ih
  | queries call _ ih => exact ih.trans call.nesting_eq

/-! ## Drafts of templates -/

/-- The draft that a step makes of a text. -/
def Stage.draft (env : Environment) : Stage → Text → Draft
  | .once pass => pass
  | .queries => resolveQueries env

/-- The draft that some steps make of a text, one after the other. -/
def draftOf (env : Environment) : List Stage → Text → Draft
  | [], t => .ofText t
  | stage :: stages, t => (stage.draft env t).andThen (draftOf env stages)

/-- Outside every expression the steps of a pipeline end in their draft. -/
theorem exists_performs (env : Environment) (stages : List Stage) (s : Session)
    (outside : s.nesting = 0) (t : Text) :
    ∃ s', Performs env stages s t s' (draftOf env stages t).text ∧
      s.Took (draftOf env stages t) s' := by
  induction stages generalizing s t with
  | nil => exact ⟨s, .done, s.took_ofText t⟩
  | cons stage stages ih =>
      cases stage with
      | once pass =>
          obtain ⟨s', later, after⟩ := ih (s.taking (pass t)) outside (pass t).text
          exact ⟨s', .once later, (s.took_taking (pass t)).andThen after⟩
      | queries =>
          have levels : s.nesting + maxNesting = maxNesting := by omega
          obtain ⟨s₁, call, before⟩ := Session.Ends.of_levels env maxNesting t s levels
          have outside₁ : s₁.nesting = 0 := before.nesting.trans outside
          obtain ⟨s', later, after⟩ := ih s₁ outside₁ (resolveQueries env t).text
          exact ⟨s', .queries call later, before.andThen after⟩

theorem Pipeline.draft_eq_draftOf (env : Environment) (p : Pipeline) (t : Text) :
    p.draft env t = draftOf (p.inside env) (p.stages (p.inside env)) t := by
  have full : Pipeline.draftAll env t = draftOf env.full (Pipeline.all.stages env.full) t := by
    simp only [draftOf, Pipeline.stages, Stage.draft, Draft.andThen_ofText, ← Draft.andThen_assoc]
    rfl
  cases p with
  | dataPath => exact (Draft.andThen_ofText _).symm
  | query => exact (Draft.andThen_ofText _).symm
  | positional => exact (Draft.andThen_ofText _).symm
  | dataOnly =>
      simp only [draftOf, Pipeline.stages, Stage.draft, Draft.andThen_ofText]
      rfl
  | all => exact full
  | foreign => exact full

end Performs

/-- Every template is resolved in just one way, in a session that ends in the draft of
the template, whatever the documents are.  The counter stays between zero and the limit
and ends at zero, and every call leaves it as it was.  A call at the limit returns its
text, and every query in that text is reported as malformed. -/
theorem Pipeline.performs_bounded (env : Environment) (t : Text) (p : Pipeline) :
    ∃ s u, p.Performs env t s u ∧ (∀ s' u', p.Performs env t s' u' → s' = s ∧ u' = u) ∧
      s.draft u = p.draft env t ∧ s.nesting = 0 ∧
      (∀ n ∈ s.depths, 0 ≤ n ∧ n ≤ maxNesting) ∧
      ∀ c ∈ s.calls, c.after = c.before ∧
        (c.before = maxNesting → c.result = c.text ∧
          ∀ hole ∈ holes QueryRef.read? c.text, ∃ d ∈ (p.run env t).diagnostics,
            d.kind = .malformed ∧ d.placeholder = hole.1) := by
  have made := p.draft_eq_draftOf env t
  obtain ⟨s, run, took⟩ :=
    exists_performs (p.inside env) (p.stages (p.inside env)) .start rfl t
  rw [← made] at run took
  have bounded : s.Bounded := run.bounded .start
  have notes : s.notes = (p.draft env t).notes := took.notes
  have converged : s.converged = (p.draft env t).settled := took.converged
  refine ⟨s, (p.draft env t).text, run, fun s' u' other => run.deterministic other, ?_,
    run.nesting_eq, bounded.depths, fun c member => ⟨(bounded.calls c member).balanced, ?_⟩⟩
  · rw [Session.draft, notes, converged]
  · intro limit
    obtain ⟨text, noted⟩ := (bounded.calls c member).atLimit limit
    refine ⟨text, fun hole member => ?_⟩
    obtain ⟨note, noted, kind, same⟩ := noted hole member
    rw [notes] at noted
    obtain ⟨d, reported, kind', same'⟩ := exists_diagnostic_of_mem_notes noted
    exact ⟨d, reported, kind'.trans kind, same'.trans same⟩

/-! ## Documents that reach the limit -/

section Reached

variable {env : Environment} {s s' : Session} {t u : Text}

theorem Runs.exists_passes (run : Runs env (.call t) s s' u) (some : t ≠ []) :
    ∃ s₁, Runs env (.passes env.config.effectivePasses t) s s₁ u ∧
      s' = s₁.returning s.nesting t u := by
  cases run with
  | empty => exact absurd rfl some
  | call _ passes => exact ⟨_, passes, rfl⟩

theorem Runs.exists_pass {left : Nat} (run : Runs env (.passes (left + 1) t) s s' u) :
    ∃ s₁ v, Runs env (.pieces (pieces QueryRef.read? t)) s s₁ v ∧ s₁.Extends s' ∧
      (v ≠ t → Runs env (.passes left v) s₁ s' u) := by
  cases run with
  | unchanged pass => exact ⟨s', t, pass, s'.extends_refl, fun other => absurd rfl other⟩
  | changed _ pass later => exact ⟨_, _, pass, later.extends, fun _ => later⟩

/-- A single query below the limit is answered from its expression, which is resolved by
a call one level deeper. -/
theorem Runs.exists_inner {w : Text} {ref : QueryRef} {index : Nat}
    (run : Runs env (.pieces [.hole w ref]) s s' u)
    (good : readDocumentIndex ref.index = .ok index) (below : s.nesting < maxNesting) :
    ∃ s₁ e, Runs env (.call ref.expression) s.enter s₁ e ∧ s₁.Extends s' ∧
      u = (answerExpression env w ref index e).text := by
  cases run with
  | hole first rest =>
      cases rest
      rw [List.append_nil]
      cases first with
      | badIndex bad => cases bad.symm.trans good
      | tooDeep _ limit => exact absurd limit (Int.not_le.mpr below)
      | @answered _ s₁ _ e _ _ good' _ inner =>
          cases good.symm.trans good'
          exact ⟨s₁, e, inner, (s₁.extends_moveTo _).trans (Session.extends_taking _ _), rfl⟩

/-- A call for a text without queries returns it. -/
theorem Runs.eq_of_holes_eq_nil {levels : Nat} (run : Runs env (.call t) s s' u)
    (here : s.nesting + levels = maxNesting) (none : holes QueryRef.read? t = []) : u = t := by
  obtain ⟨s₁, whole, -⟩ := Session.Ends.of_levels env levels t s here
  have text : settled env (queryPass env levels) t = .ofText t :=
    settle_of_holes_eq_nil (queryPass_idle env levels) _ _ none
  rw [text] at whole
  exact (run.deterministic whole).2

end Reached

/-- A query for the member `a` of the first document. -/
def memberQuery : Text := QueryRef.write '\'' '\'' ⟨['0'], ['.', 'a'], none⟩

/-- A query with the expression that a query for the member `a` comes to. -/
def nestedQuery : Text := QueryRef.write '"' '"' ⟨['0'], memberQuery, none⟩

/-- The member `a` of the only document is a query with a query for that member in its
expression.  There are two passes. -/
def deepeningEnvironment : Environment :=
  ⟨Documents.source [(0, .obj [(['a'], .str nestedQuery)])], none, none, ⟨2, []⟩⟩

/-- From every depth, the query for the member leads to a call at the limit. -/
theorem Runs.exists_call_memberQuery {k : Nat} {s s' : Session} {u : Text}
    (run : Runs deepeningEnvironment (.call memberQuery) s s' u)
    (here : s.nesting + k = maxNesting) :
    ∃ c ∈ s'.calls, c.before = maxNesting ∧ c.text = memberQuery := by
  have memberPieces : pieces QueryRef.read? memberQuery =
      [.hole memberQuery ⟨['0'], ['.', 'a'], none⟩] := by decide +kernel
  have nestedPieces : pieces QueryRef.read? nestedQuery =
      [.hole nestedQuery ⟨['0'], memberQuery, none⟩] := by decide +kernel
  have answer : (answerExpression deepeningEnvironment memberQuery ⟨['0'], ['.', 'a'], none⟩ 0
      ['.', 'a']).text = nestedQuery := by decide +kernel
  have plain : holes QueryRef.read? ['.', 'a'] = [] := by decide +kernel
  have differs : nestedQuery ≠ memberQuery := by decide +kernel
  have first : readDocumentIndex ['0'] = .ok 0 := rfl
  induction k generalizing s s' u with
  | zero =>
      obtain ⟨s₁, -, rfl⟩ := run.exists_passes (by decide)
      exact ⟨_, List.mem_append_right _ (List.mem_singleton_self _), by simpa using here, rfl⟩
  | succ k ih =>
      have below : s.nesting < maxNesting := by omega
      obtain ⟨s₃, passes, rfl⟩ := run.exists_passes (by decide)
      -- The first pass puts in the member, which holds the query once more.
      obtain ⟨s₁, v, pass, -, later⟩ := Runs.exists_pass passes
      rw [memberPieces] at pass
      obtain ⟨_, e, inner, -, text⟩ := pass.exists_inner first below
      have entered : s.enter.nesting + k = maxNesting := by
        simp only [Session.enter, Session.moveTo]
        omega
      rw [inner.eq_of_holes_eq_nil entered plain, answer] at text
      rw [text] at later
      -- The second pass resolves it one level deeper.
      obtain ⟨s₂, _, pass', onward, -⟩ := Runs.exists_pass (later differs)
      rw [nestedPieces] at pass'
      have same : s₁.nesting = s.nesting := pass.nesting_eq
      obtain ⟨s₄, _, inner', kept, -⟩ := pass'.exists_inner first (same ▸ below)
      have deeper : s₁.enter.nesting + k = maxNesting := by
        simp only [Session.enter, Session.moveTo, same]
        omega
      obtain ⟨c, called, found⟩ := ih inner' deeper
      have all := (kept.trans onward).trans (s₃.extends_returning s.nesting memberQuery u)
      exact ⟨c, all.calls called, found⟩

/-- As written, queries stand in queries at most once.  With the values of documents they
come as deep as the limit. -/
theorem Pipeline.exists_call_at_limit :
    ∃ env t s u, Pipeline.query.Performs env t s u ∧
      ∃ c ∈ s.calls, c.before = maxNesting ∧ holes QueryRef.read? c.text ≠ [] := by
  obtain ⟨s, run, -⟩ := exists_performs deepeningEnvironment [.queries] .start rfl memberQuery
  refine ⟨deepeningEnvironment, memberQuery, s, _, run, ?_⟩
  cases run with
  | queries call later =>
      cases later
      obtain ⟨c, called, limit, text⟩ := call.exists_call_memberQuery (k := maxNesting) rfl
      refine ⟨c, called, limit, ?_⟩
      rw [text]
      decide +kernel

end Templating
