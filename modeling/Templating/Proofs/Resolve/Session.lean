import Templating.Proofs.Resolve.Composition
import Templating.Proofs.Resolve.PassBound

/-!
# Sessions

Drafts recurse on the levels of nesting that are left, and every level has its own
repetition.  A program for the same resolution carries a state along instead.  It
counts how many expressions enclose the text at hand.  The counter goes up before an
expression is resolved and down behind it, and a query is refused where the counter
stands at `maxNesting`.

`Runs` is this program, with a rule for each way through it.  Nothing in the rules
bounds the recursion: an expression is resolved by another call, whose text may come
from a document.  A call that does not end has no run.

Every call has just one run (`Runs.deterministic`, `Session.Ends.of_levels`).  It ends in
the draft of its text with the levels that the counter leaves.  The proof is by
induction on these levels.  At each it goes through a query, the pieces of a text, the
passes that are left and the call, as `Task` does.
-/

namespace Templating

/-! ## States -/

/-- A call that has returned. -/
structure Call where
  /-- The text it was given. -/
  text : Text
  /-- The text it returned. -/
  result : Text
  /-- The counter at its beginning. -/
  before : Int
  /-- The counter at its end. -/
  after : Int

/-- The state of a resolution, with the history of its counter and of its calls. -/
structure Session where
  /-- How many expressions enclose the text at hand. -/
  nesting : Int
  /-- Every value that the counter has had. -/
  depths : List Int
  /-- The notes taken. -/
  notes : List Diagnostic
  /-- Whether no repetition was cut off. -/
  converged : Bool
  /-- The calls that have returned. -/
  calls : List Call

namespace Session

/-- The state before a template. -/
def start : Session := ⟨0, [0], [], true, []⟩

/-- The state with another value of the counter. -/
def moveTo (s : Session) (n : Int) : Session := { s with nesting := n, depths := s.depths ++ [n] }

/-- The state inside an expression. -/
def enter (s : Session) : Session := s.moveTo (s.nesting + 1)

/-- The state behind an expression. -/
def leave (s : Session) : Session := s.moveTo (s.nesting - 1)

/-- The state with what is noted in a draft. -/
def taking (s : Session) (d : Draft) : Session :=
  { s with notes := s.notes ++ d.notes, converged := s.converged && d.settled }

/-- The state behind a call that began with the counter at some value. -/
def returning (s : Session) (before : Int) (t result : Text) : Session :=
  { s with calls := s.calls ++ [⟨t, result, before, s.nesting⟩] }

/-- The draft of a text that was made up to a state. -/
def draft (s : Session) (t : Text) : Draft := ⟨t, s.notes, s.converged⟩

end Session

/-! ## Runs -/

/-- The draft of a query from its resolved expression. -/
def answerExpression (env : Environment) (written : Text) (ref : QueryRef) (index : Nat)
    (expression : Text) : Draft :=
  (fillExpression env expression).andThen (answerSelection env written ref index)

/-- What is there to do. -/
inductive Task where
  /-- To resolve a text until it no longer changes. -/
  | call (t : Text)
  /-- To go on with so many passes. -/
  | passes (left : Nat) (t : Text)
  /-- To fill the rest of a cut text. -/
  | pieces (parts : List (Piece QueryRef))
  /-- To answer one query. -/
  | query (written : Text) (ref : QueryRef)

/-- Doing a task in one state leads to another state and gives a text. -/
inductive Runs (env : Environment) : Task → Session → Session → Text → Prop where
  /-- There is nothing to resolve in an empty text. -/
  | empty {s : Session} : Runs env (.call []) s (s.returning s.nesting [] []) []
  | call {s s' : Session} {t u : Text} (some : t ≠ [])
      (passes : Runs env (.passes env.config.effectivePasses t) s s' u) :
      Runs env (.call t) s (s'.returning s.nesting t u) u
  | cutOff {s : Session} {t : Text} :
      Runs env (.passes 0 t) s (s.taking (outOfPasses env.config.effectivePasses t)) t
  | unchanged {s s' : Session} {left : Nat} {t : Text}
      (pass : Runs env (.pieces (pieces QueryRef.read? t)) s s' t) :
      Runs env (.passes (left + 1) t) s s' t
  | changed {s s₁ s' : Session} {left : Nat} {t u v : Text} (other : u ≠ t)
      (pass : Runs env (.pieces (pieces QueryRef.read? t)) s s₁ u)
      (later : Runs env (.passes left u) s₁ s' v) :
      Runs env (.passes (left + 1) t) s s' v
  | done {s : Session} : Runs env (.pieces []) s s []
  | plain {s s' : Session} {c : Char} {parts : List (Piece QueryRef)} {u : Text}
      (rest : Runs env (.pieces parts) s s' u) :
      Runs env (.pieces (.plain c :: parts)) s s' (c :: u)
  | hole {s s₁ s' : Session} {w : Text} {ref : QueryRef} {parts : List (Piece QueryRef)}
      {u v : Text} (first : Runs env (.query w ref) s s₁ u)
      (rest : Runs env (.pieces parts) s₁ s' v) :
      Runs env (.pieces (.hole w ref :: parts)) s s' (u ++ v)
  /-- The index of the document is looked at first. -/
  | badIndex {s : Session} {w : Text} {ref : QueryRef} {e : PlaceholderError}
      (bad : readDocumentIndex ref.index = .error e) :
      Runs env (.query w ref) s (s.taking (answerQuery env none w ref)) w
  | tooDeep {s : Session} {w : Text} {ref : QueryRef} {index : Nat}
      (good : readDocumentIndex ref.index = .ok index) (limit : maxNesting ≤ s.nesting) :
      Runs env (.query w ref) s (s.taking (answerQuery env none w ref)) w
  /-- The counter is down again before anything can fail. -/
  | answered {s s' : Session} {w e : Text} {ref : QueryRef} {index : Nat}
      (good : readDocumentIndex ref.index = .ok index) (below : s.nesting < maxNesting)
      (inner : Runs env (.call ref.expression) s.enter s' e) :
      Runs env (.query w ref) s (s'.leave.taking (answerExpression env w ref index e))
        (answerExpression env w ref index e).text

/-! ## One run at most -/

variable {env : Environment}

theorem Runs.deterministic {task : Task} {s s₁ s₂ : Session} {u₁ u₂ : Text}
    (run : Runs env task s s₁ u₁) (other : Runs env task s s₂ u₂) : s₁ = s₂ ∧ u₁ = u₂ := by
  induction run generalizing s₂ u₂ with
  | empty =>
      cases other with
      | empty => exact ⟨rfl, rfl⟩
      | call some _ => exact absurd rfl some
  | call some _ ih =>
      cases other with
      | empty => exact absurd rfl some
      | call _ passes =>
          obtain ⟨rfl, rfl⟩ := ih passes
          exact ⟨rfl, rfl⟩
  | cutOff =>
      cases other
      exact ⟨rfl, rfl⟩
  | unchanged _ ih =>
      cases other with
      | unchanged pass => exact ih pass
      | changed differs pass _ => exact absurd (ih pass).2.symm differs
  | changed differs _ _ ihPass ihLater =>
      cases other with
      | unchanged pass => exact absurd (ihPass pass).2 differs
      | changed _ pass later =>
          obtain ⟨rfl, rfl⟩ := ihPass pass
          exact ihLater later
  | done =>
      cases other
      exact ⟨rfl, rfl⟩
  | plain _ ih =>
      cases other with
      | plain rest =>
          obtain ⟨rfl, rfl⟩ := ih rest
          exact ⟨rfl, rfl⟩
  | hole _ _ ihFirst ihRest =>
      cases other with
      | hole first rest =>
          obtain ⟨rfl, rfl⟩ := ihFirst first
          obtain ⟨rfl, rfl⟩ := ihRest rest
          exact ⟨rfl, rfl⟩
  | badIndex bad =>
      cases other with
      | badIndex _ => exact ⟨rfl, rfl⟩
      | tooDeep _ _ => exact ⟨rfl, rfl⟩
      | answered good _ _ => cases bad.symm.trans good
  | tooDeep good limit =>
      cases other with
      | badIndex _ => exact ⟨rfl, rfl⟩
      | tooDeep _ _ => exact ⟨rfl, rfl⟩
      | answered _ below _ => exact absurd limit (Int.not_le.mpr below)
  | answered good below _ ih =>
      cases other with
      | badIndex bad => cases bad.symm.trans good
      | tooDeep _ limit => exact absurd limit (Int.not_le.mpr below)
      | answered good' _ inner =>
          obtain ⟨rfl, rfl⟩ := ih inner
          cases good.symm.trans good'
          exact ⟨rfl, rfl⟩

/-! ## A run at least -/

/-- The second state is the first with the notes of a draft, and with the counter where
it was. -/
structure Session.Took (s : Session) (d : Draft) (s' : Session) : Prop where
  nesting : s'.nesting = s.nesting
  notes : s'.notes = s.notes ++ d.notes
  converged : s'.converged = (s.converged && d.settled)

/-- Doing a task in a state ends in a draft. -/
def Session.Ends (env : Environment) (s : Session) (task : Task) (d : Draft) : Prop :=
  ∃ s', Runs env task s s' d.text ∧ s.Took d s'

namespace Session

variable {s s₁ s' : Session}

theorem took_taking (s : Session) (d : Draft) : s.Took d (s.taking d) := ⟨rfl, rfl, rfl⟩

theorem took_ofText (s : Session) (t : Text) : s.Took (.ofText t) s :=
  ⟨rfl, (List.append_nil _).symm, (Bool.and_true _).symm⟩

theorem Took.andThen {d : Draft} {next : Text → Draft} (first : s.Took d s₁)
    (second : s₁.Took (next d.text) s') : s.Took (d.andThen next) s' where
  nesting := second.nesting.trans first.nesting
  notes := by rw [second.notes, first.notes, List.append_assoc, Draft.andThen]
  converged := by rw [second.converged, first.converged, Bool.and_assoc, Draft.andThen]

/-- What an expression took is taken behind it, where the counter is as before. -/
theorem Took.leave {d : Draft} (inside : s.enter.Took d s') : s.Took d s'.leave where
  nesting := by
    have inner : s'.nesting = s.nesting + 1 := inside.nesting
    simp only [Session.leave, moveTo]
    omega
  notes := inside.notes
  converged := inside.converged

end Session

/-- Without a level left every query is refused. -/
theorem exists_answerQuery_none_eq (env : Environment) (w : Text) (ref : QueryRef) :
    ∃ e, answerQuery env none w ref = .refused .query w (.placeholder e) := by
  simp only [answerQuery]
  cases readDocumentIndex ref.index with
  | error e => exact ⟨e, rfl⟩
  | ok index => exact ⟨_, rfl⟩

theorem answerQuery_none_text (env : Environment) (w : Text) (ref : QueryRef) :
    (answerQuery env none w ref).text = w := by
  obtain ⟨e, refused⟩ := exists_answerQuery_none_eq env w ref
  rw [refused]
  rfl

namespace Session.Ends

variable {n : Int}

/-- A query is refused where no level is left. -/
theorem query_none (s : Session) (limit : maxNesting ≤ s.nesting) (w : Text) (ref : QueryRef) :
    s.Ends env (.query w ref) (answerQuery env none w ref) := by
  refine ⟨s.taking (answerQuery env none w ref), ?_, s.took_taking _⟩
  rw [answerQuery_none_text]
  cases indexed : readDocumentIndex ref.index with
  | error e => exact .badIndex indexed
  | ok index => exact .tooDeep indexed limit

/-- Below the limit a query is answered if the call for its expression ends. -/
theorem query_some {s : Session} (below : s.nesting < maxNesting) {resolve : Text → Draft}
    {ref : QueryRef} (inner : s.enter.Ends env (.call ref.expression) (resolve ref.expression))
    (w : Text) : s.Ends env (.query w ref) (answerQuery env (some resolve) w ref) := by
  cases indexed : readDocumentIndex ref.index with
  | error e =>
      have same : answerQuery env (some resolve) w ref = answerQuery env none w ref := by
        simp only [answerQuery, indexed]
      rw [same]
      refine ⟨_, ?_, s.took_taking _⟩
      rw [answerQuery_none_text]
      exact .badIndex indexed
  | ok index =>
      obtain ⟨s', run, took⟩ := inner
      have split : answerQuery env (some resolve) w ref =
          (resolve ref.expression).andThen (answerExpression env w ref index) := by
        simp only [answerQuery, indexed]
        exact Draft.andThen_assoc _ _ _
      rw [split]
      exact ⟨_, .answered indexed below run, took.leave.andThen (took_taking _ _)⟩

/-- Pieces are filled if every query is answered. -/
theorem pieces {answer : Text → QueryRef → Draft}
    (each : ∀ w ref (s : Session), s.nesting = n → s.Ends env (.query w ref) (answer w ref)) :
    ∀ (parts : List (Piece QueryRef)) (s : Session), s.nesting = n →
      s.Ends env (.pieces parts) (.fill answer parts)
  | [], s, _ => ⟨s, .done, s.took_ofText []⟩
  | .plain c :: parts, s, here => by
      obtain ⟨s', run, took⟩ := pieces each parts s here
      exact ⟨s', .plain run, took.nesting, took.notes, took.converged⟩
  | .hole w ref :: parts, s, here => by
      obtain ⟨s₁, first, before⟩ := each w ref s here
      obtain ⟨s', rest, after⟩ := pieces each parts s₁ (before.nesting.trans here)
      have both : s.Took ((answer w ref).andThen fun _ => .fill answer parts) s' :=
        before.andThen after
      exact ⟨s', .hole first rest, both.nesting, both.notes, both.converged⟩

/-- A repetition ends if every pass does. -/
theorem passes {pass : Text → Draft}
    (each : ∀ t (s : Session), s.nesting = n →
      s.Ends env (.pieces (Templating.pieces QueryRef.read? t)) (pass t)) :
    ∀ (left : Nat) (t : Text) (s : Session), s.nesting = n →
      s.Ends env (.passes left t) (settle pass env.config.effectivePasses left t)
  | 0, t, s, _ => by
      refine ⟨_, ?_, s.took_taking _⟩
      rw [settle, outOfPasses_text]
      exact .cutOff
  | left + 1, t, s, here => by
      obtain ⟨s₁, run, before⟩ := each t s here
      simp only [settle]
      split
      next same =>
        rw [same] at run
        refine ⟨s₁, ?_, before⟩
        rw [same]
        exact .unchanged run
      next differs =>
        obtain ⟨s', later, after⟩ := passes each left (pass t).text s₁ (before.nesting.trans here)
        exact ⟨s', .changed differs run later, before.andThen after⟩

/-- A call ends if its passes do. -/
theorem call {pass : Text → Draft} (idle : Idle pass) {s : Session} {t : Text}
    (some : s.Ends env (.passes env.config.effectivePasses t)
      (settle pass env.config.effectivePasses env.config.effectivePasses t)) :
    s.Ends env (.call t) (settled env pass t) := by
  cases t with
  | nil =>
      have none : settled env pass [] = .ofText [] := settle_of_holes_eq_nil idle _ _ rfl
      rw [none]
      have took := s.took_ofText []
      exact ⟨_, .empty, took.nesting, took.notes, took.converged⟩
  | cons c t =>
      obtain ⟨s', run, took⟩ := some
      exact ⟨_, .call (List.cons_ne_nil c t) run, took.nesting, took.notes, took.converged⟩

/-- A call ends if every query is answered where the counter stands. -/
theorem call_of_queries {levels : Nat} {answer : Text → QueryRef → Draft}
    (filled : ∀ t, queryPass env levels t = .fill answer (Templating.pieces QueryRef.read? t))
    (each : ∀ w ref (s : Session), s.nesting = n → s.Ends env (.query w ref) (answer w ref))
    (t : Text) (s : Session) (here : s.nesting = n) :
    s.Ends env (.call t) (settled env (queryPass env levels) t) := by
  have onPass (t : Text) (s : Session) (here : s.nesting = n) :
      s.Ends env (.pieces (Templating.pieces QueryRef.read? t)) (queryPass env levels t) := by
    rw [filled]
    exact pieces each _ s here
  exact call (queryPass_idle env levels) (passes onPass _ t s here)

/-- Every call ends, in the draft of its text with the levels that are left. -/
theorem of_levels (env : Environment) (levels : Nat) (t : Text) (s : Session)
    (left : s.nesting + levels = maxNesting) :
    s.Ends env (.call t) (settled env (queryPass env levels) t) := by
  induction levels generalizing t s with
  | zero =>
      have limit : maxNesting ≤ s.nesting := by omega
      exact call_of_queries (fun _ => rfl)
        (fun w ref s' here => query_none s' (here ▸ limit) w ref) t s rfl
  | succ levels ih =>
      have each (w : Text) (ref : QueryRef) (s' : Session) (here : s'.nesting = s.nesting) :
          s'.Ends env (.query w ref)
            (answerQuery env (some (settled env (queryPass env levels))) w ref) := by
        have below : s'.nesting < maxNesting := by omega
        have deeper : s'.enter.nesting + levels = maxNesting := by
          simp only [Session.enter, moveTo]
          omega
        exact query_some below (ih ref.expression s'.enter deeper) w
      exact call_of_queries (fun _ => rfl) each t s rfl

end Session.Ends

end Templating
