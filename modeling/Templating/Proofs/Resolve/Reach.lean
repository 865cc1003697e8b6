import Templating.Proofs.Placeholder.Nesting

/-!
# What one pass reads

`documentIndexes` lists the documents that a text names, so that a caller can fetch
them before the text is resolved.  A pass asks for no other document.

An index is in the list if a data path names it, or a query, or a text that is the
expression of a query (`mem_documentIndexes`).  So the list of an expression is part
of the list of the text around it.  Under a bound of one, an expression is gone
through once, and the queries that are found in it are those that are written in
it.  So two sources that agree on the list of the text give the same draft of each
expression, by induction on the levels of nesting (`queryPass_withSource`).

A second pass may find a query that a value brought in, and that names any
document (`run_withSource_onePass`).
-/

namespace Templating

/-! ## The documents that a text names -/

theorem mem_foldr_insertAscending {i : Nat} {ns : List Nat} :
    i ∈ ns.foldr insertAscending [] ↔ i ∈ ns := by
  induction ns with
  | nil => rfl
  | cons n ns ih => rw [List.foldr_cons, mem_insertAscending, ih, List.mem_cons]

theorem pairwise_documentIndexes (t : Text) : (documentIndexes t).Pairwise (· < ·) := by
  rw [documentIndexes]
  induction documentMentions t.length t with
  | nil => exact List.Pairwise.nil
  | cons n ns ih => exact pairwise_insertAscending ih

theorem mem_documentIndexes_iff_mentions {i : Nat} {t : Text} :
    i ∈ documentIndexes t ↔ i ∈ documentMentions 3 t := by
  rw [QueryRef.documentIndexes_eq, mem_foldr_insertAscending]

/-- A text names the indexes of its data paths and queries, and those that the
expressions of its queries name. -/
theorem mem_documentIndexes {i : Nat} {t : Text} :
    i ∈ documentIndexes t ↔
      (∃ hole ∈ holes DataPathRef.read? t, Index.read? hole.2.index = some i) ∨
        ∃ hole ∈ holes QueryRef.read? t,
          Index.read? hole.2.index = some i ∨ i ∈ documentIndexes hole.2.expression := by
  rw [mem_documentIndexes_iff_mentions, ← QueryRef.documentMentions_add_three 1]
  simp only [mem_documentIndexes_iff_mentions]
  show i ∈ documentMentions (3 + 1) t ↔ _
  rw [documentMentions]
  simp only [List.mem_append, List.mem_filterMap, List.mem_flatMap, Option.mem_toList]

/-! ## Another source -/

/-- The environment with another source. -/
def Environment.withSource (env : Environment) (source : Source) : Environment :=
  { env with source := source }

section Answers

variable {env : Environment} {source : Source}

theorem read?_of_readDocumentIndex {w : Text} {i : Nat} (h : readDocumentIndex w = .ok i) :
    Index.read? w = some i := by
  rw [readDocumentIndex] at h
  split at h
  next n read =>
    cases h
    exact read
  next => cases h

theorem answerDataPath_withSource {ref : DataPathRef}
    (alike : ∀ i, Index.read? ref.index = some i → source i = env.source i) (written : Text) :
    answerDataPath (env.withSource source) written ref = answerDataPath env written ref := by
  simp only [answerDataPath]
  cases indexed : readDocumentIndex ref.index with
  | error e => rfl
  | ok i =>
      have same : (env.withSource source).source i = env.source i :=
        alike i (read?_of_readDocumentIndex indexed)
      simp only [same]
      rfl

theorem answerSelection_withSource {index : Nat} (same : source index = env.source index)
    (written : Text) (ref : QueryRef) (expression : Text) :
    answerSelection (env.withSource source) written ref index expression =
      answerSelection env written ref index expression := by
  have asked : (env.withSource source).source index = env.source index := same
  simp only [answerSelection, asked]
  rfl

/-- The answer to a query is the same if its expression is resolved alike. -/
theorem answerQuery_withSource {ref : QueryRef} {resolve resolve' : Text → Draft}
    (onExpression : resolve' ref.expression = resolve ref.expression)
    (alike : ∀ i, Index.read? ref.index = some i → source i = env.source i) (written : Text) :
    answerQuery (env.withSource source) (some resolve') written ref =
      answerQuery env (some resolve) written ref := by
  simp only [answerQuery]
  cases indexed : readDocumentIndex ref.index with
  | error e => rfl
  | ok i =>
      have same : source i = env.source i := alike i (read?_of_readDocumentIndex indexed)
      simp only [onExpression]
      exact Draft.andThen_congr (answerSelection_withSource same written ref _)

/-! ## One pass -/

theorem dataPathPass_withSource {t : Text}
    (alike : ∀ i ∈ documentIndexes t, source i = env.source i) :
    dataPathPass (env.withSource source) t = dataPathPass env t := by
  refine Draft.fill_congr fun written ref member => answerDataPath_withSource (fun i read => ?_) _
  exact alike i (mem_documentIndexes.mpr (Or.inl ⟨_, mem_holes.mpr member, read⟩))

/-- A repetition under a bound of one is the same if its pass over the text is. -/
theorem settled_withSource (once : env.config.effectivePasses = 1) {pass pass' : Text → Draft}
    {t : Text} (same : pass' t = pass t) :
    settled (env.withSource source) pass' t = settled env pass t := by
  have once' : (env.withSource source).config.effectivePasses = 1 := once
  simp only [settled, once, once', settle, same]

theorem queryPass_withSource (once : env.config.effectivePasses = 1) (levels : Nat) {t : Text}
    (alike : ∀ i ∈ documentIndexes t, source i = env.source i) :
    queryPass (env.withSource source) levels t = queryPass env levels t := by
  induction levels generalizing t with
  | zero =>
      exact Draft.fill_congr fun written ref _ =>
        answerQuery_none env (env.withSource source) written ref
  | succ levels ih =>
      refine Draft.fill_congr fun written ref member => ?_
      have named {i : Nat}
          (h : Index.read? ref.index = some i ∨ i ∈ documentIndexes ref.expression) :
          i ∈ documentIndexes t :=
        mem_documentIndexes.mpr (Or.inr ⟨(written, ref), mem_holes.mpr member, h⟩)
      have inside : queryPass (env.withSource source) levels ref.expression =
          queryPass env levels ref.expression :=
        ih fun i below => alike i (named (Or.inr below))
      exact answerQuery_withSource (settled_withSource once inside)
        (fun i read => alike i (named (Or.inl read))) written

end Answers

/-! ## Reports -/

/-- The list of the documents that a text names is ascending.  Two sources that
agree on it give the same resolution of the data paths of the text, and the same
resolution of its queries if the bound on the passes is one. -/
theorem run_withSource (t : Text) :
    (documentIndexes t).Pairwise (· < ·) ∧
      ∀ (env : Environment) (source : Source),
        (∀ i ∈ documentIndexes t, source i = env.source i) →
          Pipeline.dataPath.run (env.withSource source) t = Pipeline.dataPath.run env t ∧
            (env.config.effectivePasses = 1 →
              Pipeline.query.run (env.withSource source) t = Pipeline.query.run env t) := by
  refine ⟨pairwise_documentIndexes t, fun env source alike => ⟨?_, fun once => ?_⟩⟩
  · have drafts : dataPathPass (env.withSource source) t = dataPathPass env t :=
      dataPathPass_withSource alike
    simp only [Pipeline.run, Pipeline.watch, Pipeline.draft, drafts]
  · have drafts : resolveQueries (env.withSource source) t = resolveQueries env t :=
      settled_withSource once (queryPass_withSource once maxNesting alike)
    simp only [Pipeline.run, Pipeline.watch, Pipeline.draft, drafts]

/-- A query on the first document whose expression is a query on the second, behind
a data path whose index is too large.  The value is a query on the third document,
which a second pass would ask for. -/
theorem run_withSource_onePass :
    let query (index : Char) (expression : Text) : QueryRef := ⟨[index], expression, none⟩
    let value (index : Char) : Value := .str ((query index []).write '\'' '\'')
    let documents : Documents := [(0, .obj [(['a'], value '2')]), (1, .str ['.', 'a'])]
    let env : Environment := ⟨Documents.source documents, none, none, ⟨0, []⟩⟩
    let source := Documents.source (documents ++ [(2, .str ['x'])])
    let path := DataPathRef.write (List.replicate 20 '9') [⟨[], '"', ['b'], '"', []⟩] none
    let t := path ++ (query '0' ((query '1' []).write '\'' '\'')).write '"' '"'
    documentIndexes t = [0, 1] ∧ (∀ i ∈ documentIndexes t, source i = env.source i) ∧
      env.config.effectivePasses = 1 ∧
      Pipeline.dataPath.run (env.withSource source) t = Pipeline.dataPath.run env t ∧
      Pipeline.query.run (env.withSource source) t = Pipeline.query.run env t ∧
      Pipeline.query.run ((env.withPasses 2).withSource source) t ≠
        Pipeline.query.run (env.withPasses 2) t := by
  intro query value documents env source path t
  have named : documentIndexes t = [0, 1] := by decide +kernel
  have alike : ∀ i ∈ documentIndexes t, source i = env.source i := by
    rw [named]
    exact List.forall_mem_cons.mpr ⟨rfl, List.forall_mem_singleton.mpr rfl⟩
  have once : env.config.effectivePasses = 1 := rfl
  obtain ⟨-, same⟩ := run_withSource t
  obtain ⟨paths, queries⟩ := same env source alike
  exact ⟨named, alike, once, paths, queries once, by decide +kernel⟩

end Templating
