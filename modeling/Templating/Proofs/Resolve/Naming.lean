import Templating.Proofs.Report.Recording
import Templating.Proofs.Resolve.Answers
import Templating.Proofs.Resolve.Composition

/-!
# What diagnostics name

A diagnostic quotes a placeholder of some text on the way from a template to its
resolution.  The quoted text may stand in no template, but it is a placeholder by
itself, of the grammar that the diagnostic says (`Diagnostic.Named`).

A fallback is noted in two ways, by whether the document is there.  Which document is
asked for is written in the placeholder, and the source answers alike every time.  So
one text falls back in one way only, and counting the fallbacks in a report is counting
the texts that fell back (`run_diagnostics_named`).
-/

namespace Templating

/-! ## Named placeholders -/

/-- The kind of a fallback, by the document that was asked for. -/
def DiagnosticKind.ofDocument : Option Value → DiagnosticKind
  | none => .missingDocument
  | some _ => .missingValue

namespace Diagnostic

/-- What a diagnostic says of the placeholder that it quotes is so. -/
structure Named (source : Source) (d : Diagnostic) : Prop where
  /-- The quoted text is one placeholder of the grammar. -/
  whole : d.grammar.IsWhole d.placeholder
  /-- Missing segments, and nothing else, are noted on positional placeholders. -/
  positional : d.grammar = .positional ↔ d.kind = .missingSegment
  /-- What is cut off is noted on a query. -/
  query : d.kind = .passLimitReached → d.grammar = .query
  /-- A fallback is noted by the answer to the document that the placeholder names. -/
  fellBack : d.kind.fellBack = true → ∃ index document,
    NamesDocument d.placeholder index ∧ source index = .ok document ∧ d.kind = .ofDocument document

variable {source : Source}

/-- Two fallbacks of one text are of one kind. -/
theorem Named.kind_eq {d e : Diagnostic} (named : d.Named source) (named' : e.Named source)
    (fell : d.kind.fellBack = true) (fell' : e.kind.fellBack = true)
    (same : d.placeholder = e.placeholder) : d.kind = e.kind := by
  obtain ⟨i, document, names, asked, kind⟩ := named.fellBack fell
  obtain ⟨j, document', names', asked', kind'⟩ := named'.fellBack fell'
  -- The text names the document, and the source answers alike every time.
  obtain rfl : i = j := (same ▸ names).unique names'
  cases asked.symm.trans asked'
  exact kind.trans kind'.symm

/-- A placeholder that names a document and is left as written. -/
theorem named_ofRefusal {grammar : Grammar} {written : Text} (whole : grammar.IsWhole written)
    (document : grammar ≠ .positional) (refusal : Refusal) :
    (ofRefusal grammar written refusal).Named source := by
  cases refusal with
  | placeholder e => exact ⟨whole, iff_of_false document nofun, nofun, nofun⟩
  | unavailable index reason => exact ⟨whole, iff_of_false document nofun, nofun, nofun⟩
  | badConfig reason => exact ⟨whole, iff_of_false document nofun, nofun, nofun⟩

/-- A placeholder that names a document and is replaced by a fallback. -/
theorem named_of_fallback {note : Diagnostic} {index : Nat} {document : Option Value}
    (whole : note.grammar.IsWhole note.placeholder) (other : note.grammar ≠ .positional)
    (names : NamesDocument note.placeholder index) (asked : source index = .ok document)
    (kind : note.kind = .ofDocument document) : note.Named source where
  whole := whole
  positional := iff_of_false other (by rw [kind]; cases document <;> exact nofun)
  query := by rw [kind]; cases document <;> exact nofun
  fellBack := fun _ => ⟨index, document, names, asked, kind⟩

end Diagnostic

/-! ## Answers -/

namespace Draft

/-- Every note says of its placeholder what is so. -/
def Named (source : Source) (d : Draft) : Prop := ∀ note ∈ d.notes, note.Named source

variable {source : Source}

theorem named_ofText (t : Text) : (ofText t).Named source := fun _ noted => nomatch noted

theorem named_noting (t : Text) {note : Diagnostic} (named : note.Named source) :
    (noting t note).Named source :=
  List.forall_mem_singleton.mpr named

end Draft

theorem lookupNote?_eq_some {written : Text} {index : Nat} {keys : List Text}
    {document : Option Value} {found : Lookup} {note : Diagnostic}
    (h : lookupNote? written index keys document found = some note) :
    note.grammar = .dataPath ∧ note.placeholder = written ∧ note.kind = .ofDocument document := by
  cases found with
  | found v => cases h
  | missing => cases document <;> cases h <;> exact ⟨rfl, rfl, rfl⟩
  | null => cases document <;> cases h <;> exact ⟨rfl, rfl, rfl⟩

section Answers

variable {env : Environment} {written : Text}

theorem answerDataPath_named {ref : DataPathRef}
    (read : DataPathRef.read? written = some (ref, [])) :
    (answerDataPath env written ref).Named env.source := by
  have whole := DataPathRef.isWhole read
  generalize drafted : answerDataPath env written ref = d
  cases answerDataPath_eq_iff.mp drafted with
  | badIndex _ => exact Draft.named_noting _ (Diagnostic.named_ofRefusal whole nofun _)
  | unavailable _ _ => exact Draft.named_noting _ (Diagnostic.named_ofRefusal whole nofun _)
  | @fallback index document found note indexed asked _ noted _ =>
      obtain ⟨grammar, rfl, kind⟩ := lookupNote?_eq_some noted
      refine Draft.named_noting _
        (Diagnostic.named_of_fallback ?_ ?_ (.dataPath read indexed) asked kind)
      · rw [grammar]
        exact whole
      · rw [grammar]
        exact nofun
  | value _ _ _ => exact Draft.named_ofText _

theorem answerSelection_named {ref : QueryRef} {index : Nat}
    (read : QueryRef.read? written = some (ref, []))
    (indexed : readDocumentIndex ref.index = .ok index) (expression : Text) :
    (answerSelection env written ref index expression).Named env.source := by
  have whole := QueryRef.isWhole read
  have names : NamesDocument written index := .query read indexed
  generalize drafted : answerSelection env written ref index expression = d
  cases answerSelection_eq_iff.mp drafted with
  | unavailable _ => exact Draft.named_noting _ (Diagnostic.named_ofRefusal whole nofun _)
  | missingDocument asked =>
      exact Draft.named_noting _ (Diagnostic.named_of_fallback whole nofun names asked rfl)
  | badPath _ _ => exact Draft.named_noting _ (Diagnostic.named_ofRefusal whole nofun _)
  | missingValue asked _ _ =>
      exact Draft.named_noting _ (Diagnostic.named_of_fallback whole nofun names asked rfl)
  | value _ _ _ => exact Draft.named_ofText _

theorem answerPositional_named {ref : PositionalRef} {source : Source}
    (read : PositionalRef.read? written = some (ref, [])) (segments : Segments) :
    (answerPositional segments written ref).Named source := by
  rw [answerPositional]
  cases segments.segment? ref.key with
  | none =>
      exact Draft.named_noting _ ⟨PositionalRef.isWhole read, iff_of_true rfl rfl, nofun, nofun⟩
  | some segment => exact Draft.named_ofText segment

/-- What is cut off is noted on a query of the text. -/
theorem outOfPasses_named {source : Source} (bound : Nat) (t : Text) :
    (outOfPasses bound t).Named source := by
  rw [outOfPasses]
  cases first : (holes QueryRef.read? t).head? with
  | none => exact Draft.named_ofText t
  | some hole =>
      have read := QueryRef.read?_whole.read_of_mem_holes QueryRef.read?_forward
        (List.mem_of_mem_head? first)
      have other : Grammar.query ≠ .positional := by decide
      have cut : DiagnosticKind.passLimitReached ≠ .missingSegment := by decide
      exact List.forall_mem_singleton.mpr
        ⟨QueryRef.isWhole read, iff_of_false other cut, fun _ => rfl,
          fun fell => absurd fell Bool.false_ne_true⟩

theorem yields_named (env : Environment) : env.Yields (Draft.Named env.source) where
  composable := Draft.composable_notes _
  dataPath := fun _ _ => answerDataPath_named
  positional := fun _ _ => answerPositional_named
  refused := fun _ _ read _ =>
    Draft.named_noting _ (Diagnostic.named_ofRefusal (QueryRef.isWhole read) nofun _)
  selection := fun _ _ _ => answerSelection_named
  repetition := fun _ onPass =>
    (Draft.composable_notes _).settle onPass (outOfPasses_named _) _

end Answers

/-! ## Reports -/

/-- The texts that a report says to be replaced by a fallback. -/
def Resolution.fellBackTexts (r : Resolution) : List Text :=
  (r.diagnostics.filter (·.kind.fellBack)).map (·.placeholder)

theorem Resolution.length_fellBackTexts (r : Resolution) :
    r.fellBackTexts.length = r.fellBackCount := by
  rw [fellBackTexts, List.length_map, fellBackCount, List.countP_eq_length_filter]

section Reports

variable {env : Environment} {t : Text} {p : Pipeline}

theorem named_of_mem_diagnostics {d : Diagnostic} (h : d ∈ (p.run env t).diagnostics) :
    d.Named env.source := by
  have named : (p.draft env t).Named env.source :=
    Pipeline.draft_of_yields (fun env' same => same ▸ yields_named env') p t
  exact named d (mem_notes_of_mem_diagnostics h)

/-- No text is reported twice as replaced by a fallback. -/
theorem nodup_fellBackTexts : (p.run env t).fellBackTexts.Nodup := by
  have distinct : ((p.run env t).diagnostics.map Diagnostic.subject).Nodup :=
    (Ledger.faithful_ofNotes _ () (p.draft env t).notes).distinct
  rw [Resolution.fellBackTexts, List.Nodup, List.pairwise_map]
  refine ((List.pairwise_map.mp distinct).filter _).imp_of_mem ?_
  intro d e first second apart same
  obtain ⟨recorded, fell⟩ := List.mem_filter.mp first
  obtain ⟨recorded', fell'⟩ := List.mem_filter.mp second
  have kind := (named_of_mem_diagnostics recorded).kind_eq (named_of_mem_diagnostics recorded')
    fell fell' same
  exact apart (Prod.ext kind same)

/-- The texts that are reported as replaced are those of which it was noted. -/
theorem mem_fellBackTexts_iff {w : Text} :
    w ∈ (p.run env t).fellBackTexts ↔
      ∃ note ∈ (p.draft env t).notes, note.kind.fellBack = true ∧ note.placeholder = w := by
  simp only [Resolution.fellBackTexts, List.mem_map, List.mem_filter, and_assoc]
  constructor
  · rintro ⟨d, recorded, fell, rfl⟩
    exact ⟨d, mem_notes_of_mem_diagnostics recorded, fell, rfl⟩
  · rintro ⟨note, noted, fell, rfl⟩
    obtain ⟨d, recorded, kind, placeholder⟩ := exists_diagnostic_of_mem_notes noted
    exact ⟨d, recorded, kind ▸ fell, placeholder⟩

end Reports

/-- Every diagnostic quotes one whole placeholder of the grammar that it says.  The
grammar is that of positional placeholders just for missing segments, and that of
queries for a repetition that was cut off.  No text is reported both for a missing
document and for a missing value.  So each text that fell back is counted once. -/
theorem run_diagnostics_named (env : Environment) (t : Text) (p : Pipeline) :
    let r := p.run env t
    (∀ d ∈ r.diagnostics, d.grammar.IsWhole d.placeholder ∧
      (d.grammar = .positional ↔ d.kind = .missingSegment) ∧
      (d.kind = .passLimitReached → d.grammar = .query)) ∧
    (∀ d ∈ r.diagnostics, ∀ e ∈ r.diagnostics,
      d.kind = .missingDocument → e.kind = .missingValue → d.placeholder ≠ e.placeholder) ∧
    r.fellBackTexts.Nodup ∧
    (∀ w, w ∈ r.fellBackTexts ↔
      ∃ note ∈ (p.draft env t).notes, note.kind.fellBack = true ∧ note.placeholder = w) ∧
    r.fellBackCount = r.fellBackTexts.length := by
  intro r
  refine ⟨fun d recorded => ?_, fun d recorded e recorded' kind kind' same => ?_,
    nodup_fellBackTexts, fun w => mem_fellBackTexts_iff, r.length_fellBackTexts.symm⟩
  · have named := named_of_mem_diagnostics recorded
    exact ⟨named.whole, named.positional, named.query⟩
  · have agree := (named_of_mem_diagnostics recorded).kind_eq (named_of_mem_diagnostics recorded')
      (by rw [kind]; rfl) (by rw [kind']; rfl) same
    rw [kind, kind'] at agree
    cases agree

/-- Three placeholders fall back, two of them alike.  A fourth, in the fallback of a
query, is left as written. -/
theorem run_diagnostics_named_repeated :
    let env : Environment := ⟨Documents.source (.ofList [.obj []]), none, none, .standard⟩
    let gone : Text := DataPathRef.write ['1'] [⟨[], '\'', ['a'], '\'', []⟩] none
    let position : Text := PositionalRef.write ⟨['9']⟩
    let empty : Text := QueryRef.write '\'' '"' ⟨['0'], ['.', 'a'], some position⟩
    let r := Pipeline.all.run env (gone ++ (empty ++ gone))
    r.diagnostics.map (fun d => (d.kind, d.grammar, d.placeholder)) =
        [(.missingDocument, .dataPath, gone), (.missingValue, .query, empty),
          (.missingSegment, .positional, position)] ∧
      (∀ d ∈ r.diagnostics, d.grammar.IsWhole d.placeholder) ∧
      r.fellBackTexts = [gone, empty] ∧ r.fellBackCount = 2 := by
  intro env gone position empty r
  obtain ⟨named, -, -, -, counted⟩ := run_diagnostics_named env (gone ++ (empty ++ gone)) .all
  have texts : r.fellBackTexts = [gone, empty] := by decide +kernel
  refine ⟨by decide +kernel, fun d recorded => (named d recorded).1, texts, ?_⟩
  exact counted.trans (congrArg List.length texts)

end Templating
