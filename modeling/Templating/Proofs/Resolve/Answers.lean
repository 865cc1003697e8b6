import Templating.Resolve.Query

/-!
# Answers

What a placeholder is answered with goes by a few facts: whether its index is one,
what the source has at that index, and what is found in the document.
`DataPathAnswer` and `SelectionAnswer` have a case for each way this may turn out.
The answer is a refusal, a fallback with a note, or a value with nothing to note.

A case names all the facts that it goes by.  So an answer in one environment is
one in any other where the facts are the same.
-/

namespace Templating

/-! ## Fallbacks -/

theorem Fallback.forFirst_of_value (f : Fallback) {v : Value} (real : v.isNull = false) :
    f.forFirst (some v) = v.display := by
  rw [Fallback.forFirst, Option.filter_some_pos (by simp [real])]

theorem Fallback.forFirst_of_nullish (f : Fallback) {first : Option Value}
    (nullish : Value.isNullish first = true) : f.forFirst first = f.text := by
  cases first with
  | none => rfl
  | some v =>
      have null : v.isNull = true := nullish
      rw [Fallback.forFirst, Option.filter_some_neg (by simp [null])]

/-! ## Data paths -/

/-- A lookup is noted unless it comes to a value.  The note is on a fallback. -/
theorem lookupNote?_cases (written : Text) (index : Nat) (keys : List Text)
    (document : Option Value) (found : Lookup) :
    (∃ v, found = .found v ∧ lookupNote? written index keys document found = none) ∨
      ∃ note, lookupNote? written index keys document found = some note ∧
        note.kind.fellBack = true := by
  cases found with
  | found v => exact Or.inl ⟨v, rfl, rfl⟩
  | missing =>
      cases document with
      | none => exact Or.inr ⟨_, rfl, rfl⟩
      | some document => exact Or.inr ⟨_, rfl, rfl⟩
  | null =>
      cases document with
      | none => exact Or.inr ⟨_, rfl, rfl⟩
      | some document => exact Or.inr ⟨_, rfl, rfl⟩

/-- What a data path may be answered with. -/
inductive DataPathAnswer (env : Environment) (written : Text) (ref : DataPathRef) :
    Draft → Prop where
  | badIndex {e : PlaceholderError} :
      readDocumentIndex ref.index = .error e →
        DataPathAnswer env written ref (.refused .dataPath written (.placeholder e))
  | unavailable {index : Nat} {refusal : Refusal} :
      readDocumentIndex ref.index = .ok index → env.source index = .error refusal →
        DataPathAnswer env written ref (.refused .dataPath written refusal)
  | fallback {index : Nat} {document : Option Value} {found : Lookup} {note : Diagnostic} :
      readDocumentIndex ref.index = .ok index → env.source index = .ok document →
        Value.lookup document ref.keys = found →
          lookupNote? written index ref.keys document found = some note →
            note.kind.fellBack = true →
              DataPathAnswer env written ref
                (.noting ((env.fallback ref.fallback).forLookup found) note)
  | value {index : Nat} {document : Option Value} {v : Value} :
      readDocumentIndex ref.index = .ok index → env.source index = .ok document →
        Value.lookup document ref.keys = .found v →
          DataPathAnswer env written ref (.ofText v.display)

theorem answerDataPath_eq_iff {env : Environment} {written : Text} {ref : DataPathRef} {d : Draft} :
    answerDataPath env written ref = d ↔ DataPathAnswer env written ref d := by
  constructor
  · rintro rfl
    rw [answerDataPath]
    cases indexed : readDocumentIndex ref.index with
    | error e => exact .badIndex indexed
    | ok index =>
        simp only
        cases asked : env.source index with
        | error refusal => exact .unavailable indexed asked
        | ok document =>
            simp only
            rcases lookupNote?_cases written index ref.keys document
              (Value.lookup document ref.keys) with ⟨v, found, silent⟩ | ⟨note, noted, fellBack⟩
            · rw [silent, found]
              exact .value indexed asked found
            · rw [noted]
              exact .fallback indexed asked rfl noted fellBack
  · intro answer
    cases answer with
    | badIndex indexed => simp only [answerDataPath, indexed]
    | unavailable indexed asked => simp only [answerDataPath, indexed, asked]
    | fallback indexed asked found noted _ =>
        simp only [answerDataPath, indexed, asked, found, noted]
        rfl
    | value indexed asked found =>
        simp only [answerDataPath, indexed, asked, found]
        rfl

/-! ## Queries -/

/-- What a query may be answered with when its expression is resolved. -/
inductive SelectionAnswer (env : Environment) (written : Text) (ref : QueryRef) (index : Nat)
    (expression : Text) : Draft → Prop where
  | unavailable {refusal : Refusal} :
      env.source index = .error refusal →
        SelectionAnswer env written ref index expression (.refused .query written refusal)
  | missingDocument :
      env.source index = .ok none →
        SelectionAnswer env written ref index expression
          (.noting (env.fallback ref.fallback).text
            ⟨.missingDocument, .query, written, notFetched index⟩)
  | badPath {document : Value} {e : PathError Nat} :
      env.source index = .ok (some document) → Path.queryFirst? document expression = .error e →
        SelectionAnswer env written ref index expression
          (.refused .query written (.placeholder (.badPath e)))
  | missingValue {document : Value} {first : Option Value} :
      env.source index = .ok (some document) → Path.queryFirst? document expression = .ok first →
        Value.isNullish first = true →
          SelectionAnswer env written ref index expression
            (.noting (env.fallback ref.fallback).text
              ⟨.missingValue, .query, written, "no match for " ++ String.ofList expression⟩)
  | value {document v : Value} :
      env.source index = .ok (some document) → Path.queryFirst? document expression = .ok (some v) →
        v.isNull = false → SelectionAnswer env written ref index expression (.ofText v.display)

theorem answerSelection_eq_iff {env : Environment} {written expression : Text} {ref : QueryRef}
    {index : Nat} {d : Draft} :
    answerSelection env written ref index expression = d ↔
      SelectionAnswer env written ref index expression d := by
  constructor
  · rintro rfl
    rw [answerSelection]
    cases asked : env.source index with
    | error refusal => exact .unavailable asked
    | ok found =>
        cases found with
        | none => exact .missingDocument asked
        | some document =>
            simp only
            cases picked : Path.queryFirst? document expression with
            | error e => exact .badPath asked picked
            | ok first =>
                simp only
                cases nullish : Value.isNullish first with
                | true =>
                    rw [Fallback.forFirst_of_nullish _ nullish]
                    exact .missingValue asked picked nullish
                | false =>
                    obtain ⟨v, rfl⟩ : ∃ v, first = some v := by
                      cases first with
                      | none => cases nullish
                      | some v => exact ⟨v, rfl⟩
                    rw [Fallback.forFirst_of_value _ nullish]
                    exact .value asked picked nullish
  · intro answer
    cases answer with
    | unavailable asked => simp only [answerSelection, asked]
    | missingDocument asked => simp only [answerSelection, asked]
    | badPath asked picked => simp only [answerSelection, asked, picked]
    | missingValue asked picked nullish =>
        simp only [answerSelection, asked, picked, Fallback.forFirst_of_nullish _ nullish, nullish]
        rfl
    | @value document v asked picked real =>
        have nullish : Value.isNullish (some v) = false := real
        simp only [answerSelection, asked, picked, Fallback.forFirst_of_value _ real, nullish]
        rfl

end Templating
