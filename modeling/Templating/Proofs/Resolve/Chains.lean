import Templating.Proofs.Path.Canonical
import Templating.Proofs.Placeholder.Template
import Templating.Proofs.Resolve.Answers
import Templating.Proofs.Resolve.CutOff
import Templating.Proofs.Resolve.PassBound

/-!
# Chains of queries

A document may hold a chain of queries: the value of each is the next query, and the
value of the last is a text without queries.  A pass takes one step along the chain.  So
a chain of `n` queries takes `n` passes.  No further pass is needed to see that it is at
its end, since the text holds no query then.

`settle_of_passChain` says so of any pass, and `query_run_links` of the chain of the
members `p0`, `p1`, and so on.
-/

namespace Templating

/-! ## Repetitions -/

/-- A pass goes through so many texts, each of which is one query, and ends at a text
without queries. -/
structure PassChain (pass : Text → Draft) (n : Nat) (stage : Nat → Text) : Prop where
  /-- One pass makes the next text, with nothing to note. -/
  step : ∀ i < n, pass (stage i) = .ofText (stage (i + 1))
  /-- It is another text. -/
  apart : ∀ i < n, stage (i + 1) ≠ stage i
  /-- Before the end there is a query. -/
  query : ∀ i < n, ∃ ref, holes QueryRef.read? (stage i) = [(stage i, ref)]
  /-- At the end there is none. -/
  last : holes QueryRef.read? (stage n) = []

/-- A repetition goes along a chain to its end, or as far as it has passes.  The
induction is on the passes left. -/
theorem settle_of_passChain {pass : Text → Draft} {n : Nat} {stage : Nat → Text} (idle : Idle pass)
    (chain : PassChain pass n stage) (bound : Nat) :
    ∀ {left i : Nat}, i ≤ n →
      settle pass bound left (stage i) =
        if n ≤ i + left then .ofText (stage n)
        else ⟨stage (i + left), [cutOffNote bound (stage (i + left))], false⟩
  | left, i, within => by
      rcases Nat.lt_or_eq_of_le within with before | rfl
      · cases left with
        | zero =>
            obtain ⟨ref, found⟩ := chain.query i before
            rw [if_neg (by omega), settle, Nat.add_zero, outOfPasses_of_holes_eq_cons bound found]
        | succ left =>
            have moved : (pass (stage i)).text ≠ stage i := by
              rw [chain.step i before]
              exact chain.apart i before
            simp only [settle, moved, ↓reduceIte]
            rw [chain.step i before, Draft.ofText_andThen,
              settle_of_passChain idle chain bound before, Nat.succ_add_eq_add_succ]
      · rw [if_pos (Nat.le_add_right i left), settle_of_holes_eq_nil idle bound left chain.last]

/-! ## Expressions -/

/-- An expression without a brace is resolved to itself, with nothing to note. -/
theorem resolveExpression_of_unopened (env : Environment) (levels : Nat) {expression : Text}
    (unopened : '{' ∉ expression) :
    (settled env (queryPass env levels) expression).andThen (fillExpression env) =
      .ofText expression := by
  have resolved : settled env (queryPass env levels) expression = .ofText expression :=
    settle_of_holes_eq_nil (queryPass_idle env levels) _ _
      (QueryRef.read?_braced.holes_eq_nil unopened)
  rw [resolved, Draft.ofText_andThen, fillExpression]
  split
  next segments _ =>
    exact Draft.fill_of_holes_eq_nil PositionalRef.read?_braced.forward
      (answerPositional segments) (PositionalRef.read?_braced.holes_eq_nil unopened)
  next => rfl

/-! ## Maps with numbered keys -/

/-- A map of keys that are all different has each value under its key. -/
theorem Entries.get?_map_of_mem {ι κ α : Type} [DecidableEq κ] {key : ι → κ}
    (apart : ∀ i j, key i = key j → i = j) (value : ι → α) :
    ∀ {indexes : List ι} {i : ι}, i ∈ indexes →
      get? (indexes.map fun i => (key i, value i)) (key i) = some (value i)
  | j :: indexes, i, member => by
      rw [List.map_cons, get?]
      by_cases here : key j = key i
      · rw [if_pos here, apart j i here]
      · rw [if_neg here]
        have other : i ≠ j := fun same => here (congrArg key same.symm)
        exact get?_map_of_mem apart value ((List.mem_cons.mp member).resolve_left other)

/-! ## Links -/

namespace Link

/-- The name of a member that holds a link. -/
def name (i : Nat) : Text := 'p' :: Text.ofNat i

/-- What asks for that member of the first document. -/
def ref (i : Nat) : QueryRef := ⟨['0'], '.' :: name i, none⟩

/-- The query for that member. -/
def query (i : Nat) : Text := (ref i).write '\'' '\''

/-- The text after so many steps along `n` links: the query for the next member, or the
last text. -/
def stage (n : Nat) (last : Text) (i : Nat) : Text := if i < n then query i else last

/-- The document with `n` links.  Each member holds the query for the next, and the last
member holds the last text. -/
def document (n : Nat) (last : Text) : Value :=
  .obj ((List.range n).map fun i => (name i, .str (stage n last (i + 1))))

variable {n i : Nat} {last : Text}

theorem stage_of_lt (before : i < n) : stage n last i = query i := if_pos before

theorem stage_end : stage n last n = last := if_neg (Nat.lt_irrefl n)

theorem isDigit_of_mem {c : Char} (member : c ∈ Text.ofNat i) : c.isDigit = true :=
  List.all_eq_true.mp (Text.all_isDigit_ofNat i) c member

/-- A character of an expression is a point, a `p` or a digit. -/
theorem not_mem_expression {c : Char} (point : c ≠ '.') (letter : c ≠ 'p')
    (digit : c.isDigit = false) : c ∉ (ref i).expression := by
  intro member
  rcases List.mem_cons.mp member with same | member
  · exact point same
  · rcases List.mem_cons.mp member with same | member
    · exact letter same
    · rw [isDigit_of_mem member] at digit
      cases digit

theorem name_inj {i j : Nat} (same : name i = name j) : i = j :=
  Text.ofNat_inj (List.cons.inj same).2

/-! ### Reading -/

theorem read_query (i : Nat) : QueryRef.read? (query i) = some (ref i, []) := by
  have plain : (ref i).Plain '\'' '\'' :=
    { index_ne_nil := List.cons_ne_nil _ _
      digits := List.all_eq_true.mp rfl
      isQuote := rfl
      expression := not_mem_expression (by decide) (by decide) (by decide)
      fallback := fun _ none => by cases none }
  have read := QueryRef.read?_write plain []
  rwa [List.append_nil] at read

example : query 12 =
    QueryRef.opening ++ ['0', ']', '[', '\'', '.', 'p', '1', '2', '\'', ']', '}'] := by decide

theorem query_inj {i j : Nat} (same : query i = query j) : i = j := by
  have read := (read_query i).symm.trans ((congrArg QueryRef.read? same).trans (read_query j))
  have refs : ref i = ref j := congrArg Prod.fst (Option.some.inj read)
  have expressions := congrArg QueryRef.expression refs
  exact name_inj (List.cons.inj expressions).2

theorem isNameChar_of_mem {c : Char} (member : c ∈ name i) : Path.isNameChar c = true := by
  rcases List.mem_cons.mp member with rfl | member
  · rfl
  · refine eq_true_of_ne_false fun other => ?_
    have digit := isDigit_of_mem member
    rw [Path.isDigit_of_isNameChar other] at digit
    cases digit

/-- The expression of a link is a path to its member. -/
theorem parse_expression (i : Nat) :
    Path.parse (ref i).expression = .ok [.child (.step (.name (name i)))] := by
  have bare : Selector.bareName? (.step (.name (name i))) = some (name i) :=
    if_pos ⟨List.cons_ne_nil _ _, List.all_eq_true.mpr fun _ => isNameChar_of_mem⟩
  have written : Segment.write .bare (.child (.step (.name (name i)))) = (ref i).expression := by
    simp only [Segment.write, Style.bare, bare]
    rfl
  rw [← written]
  exact parse_write_segment .bare trivial

/-- It selects the next text. -/
theorem queryFirst?_document (before : i < n) :
    Path.queryFirst? (document n last) (ref i).expression =
      .ok (some (.str (stage n last (i + 1)))) := by
  have found : Step.find? (document n last) (.name (name i)) =
      some (.str (stage n last (i + 1))) :=
    Entries.get?_map_of_mem (fun _ _ => name_inj) (fun i => Value.str (stage n last (i + 1)))
      (List.mem_range.mpr before)
  rw [Path.queryFirst?, Path.query, parse_expression]
  simp [Path.select, Path.selectFrom, Segment.pick, Selector.pick, found, Except.map]

/-! ### One pass -/

/-- A pass leads from one link to the next. -/
theorem queryPass_query {env : Environment} (levels : Nat) (before : i < n)
    (asked : env.source 0 = .ok (some (document n last))) :
    queryPass env (levels + 1) (query i) = .ofText (stage n last (i + 1)) := by
  have passed : queryPass env (levels + 1) (query i) =
      answerQuery env (some (settled env (queryPass env levels))) (query i) (ref i) :=
    Draft.fill_of_read QueryRef.read?_forward _ (read_query i)
  have indexed : readDocumentIndex (ref i).index = .ok 0 := rfl
  have resolved := resolveExpression_of_unopened env levels
    (not_mem_expression (i := i) (by decide) (by decide) (by decide))
  have answered : answerSelection env (query i) (ref i) 0 (ref i).expression =
      .ofText (stage n last (i + 1)) :=
    answerSelection_eq_iff.mpr (.value asked (queryFirst?_document before) rfl)
  rw [passed]
  simp only [answerQuery, indexed, resolved, Draft.ofText_andThen, answered]

/-- The links are a chain of the pass. -/
theorem passChain {env : Environment} (levels : Nat) (plain : ¬ QueryRef.opening <:+: last)
    (asked : env.source 0 = .ok (some (document n last))) :
    PassChain (queryPass env (levels + 1)) n (stage n last) where
  step i before := by
    rw [stage_of_lt before]
    exact queryPass_query levels before asked
  apart i before same := by
    rw [stage_of_lt before] at same
    rcases Nat.lt_or_eq_of_le (Nat.succ_le_of_lt before) with later | rfl
    · rw [stage_of_lt later] at same
      exact Nat.succ_ne_self i (query_inj same)
    · rw [stage_end] at same
      obtain ⟨u, opened⟩ := QueryRef.opensWith.begins (read_query i)
      exact plain ⟨[], u, by rw [same]; exact opened⟩
  query i before := by
    refine ⟨ref i, ?_⟩
    rw [stage_of_lt before, holes, pieces_of_read_whole QueryRef.read?_forward (read_query i)]
    rfl
  last := by
    rw [stage_end]
    exact QueryRef.opensWith.holes_eq_nil plain

end Link

/-! ## Reports -/

/-- The query for the first of `n` links resolves to the last text, with nothing to
report, if the passes are `n` at least.  With `m` passes and less than `n` it resolves to
the query for the member `m`, which is reported as still changing. -/
theorem query_run_links (env : Environment) {n : Nat} {last : Text} (positive : 0 < n)
    (plain : ¬ QueryRef.opening <:+: last)
    (asked : env.source 0 = .ok (some (Link.document n last))) :
    let m := env.config.effectivePasses
    let r := Pipeline.query.run env (Link.query 0)
    (n ≤ m → r.text = last ∧ r.isClean = true) ∧
      (m < n → r = ⟨Link.query m, [cutOffNote m (Link.query m)], false⟩) := by
  intro m r
  have drafted : Pipeline.query.draft env (Link.stage n last 0) =
      if n ≤ 0 + m then .ofText (Link.stage n last n)
      else ⟨Link.stage n last (0 + m), [cutOffNote m (Link.stage n last (0 + m))], false⟩ :=
    settle_of_passChain (queryPass_idle env maxNesting)
      (Link.passChain (maxNesting - 1) plain asked) m (Nat.zero_le n)
  rw [Link.stage_of_lt positive, Nat.zero_add, Link.stage_end] at drafted
  refine ⟨fun reached => ?_, fun short => ?_⟩
  · rw [if_pos reached] at drafted
    simp only [r, Pipeline.run, Pipeline.watch, drafted]
    exact ⟨rfl, rfl⟩
  · rw [if_neg (Nat.not_le_of_lt short), Link.stage_of_lt short] at drafted
    simp only [r, Pipeline.run, Pipeline.watch, drafted]
    rfl

/-- Three links take three passes.  Two end at the query for the third. -/
theorem query_run_links_three :
    let last : Text := ['{', '1', '}']
    let env (passes : Nat) : Environment :=
      ⟨Documents.source [(0, Link.document 3 last)], some [(['1'], some ['x'])], none,
        ⟨passes, []⟩⟩
    ((Pipeline.query.run (env 3) (Link.query 0)).text = last ∧
      (Pipeline.query.run (env 3) (Link.query 0)).isClean = true) ∧
      Pipeline.query.run (env 2) (Link.query 0) =
        ⟨Link.query 2, [cutOffNote 2 (Link.query 2)], false⟩ := by
  intro last env
  have plain : ¬ QueryRef.opening <:+: last := by decide
  have enough := (query_run_links (env 3) (by decide) plain rfl).1 (by decide)
  have short := (query_run_links (env 2) (by decide) plain rfl).2 (by decide)
  exact ⟨enough, short⟩

end Templating
