import Templating.Proofs.Placeholder.Spans
import Templating.Proofs.Resolve.Composition

/-!
# Placeholders of one pass

A pass answers each placeholder by what is written in it.  What stands around it, and
what was answered before, have no part in that, although a session hands its counter and
its notes on from one placeholder to the next (`Session.Ends`).  So the same pass over the
placeholder alone answers it alike: it is read alone as it was in the text (`ReadsWhole`),
and it is all there is to cut (`pieces_of_read_whole`).

The text of a pass is therefore the text that it was given, with the text of the pass
over each placeholder in the place of its span (`fill_text_eq_replaceSpans`).  Data paths
and positional placeholders are resolved in one pass.  Queries are, if the bound on the
passes is one (`run_text_eq_replaceSpans`).
-/

namespace Templating

/-! ## One pass -/

namespace Draft

variable {ρ : Type} {read : Text → Option (ρ × Text)}

/-- Pieces are filled with their texts, and placeholders with what replaces them. -/
theorem fill_text_eq_flatMap {answer : Text → ρ → Draft} {replace : Text → Text}
    {parts : List (Piece ρ)}
    (replaced : ∀ w ref, .hole w ref ∈ parts → (answer w ref).text = replace w) :
    (fill answer parts).text = parts.flatMap (Piece.replaced replace) := by
  rw [fill_text]
  refine List.flatMap_congr fun piece member => ?_
  cases piece with
  | plain c => rfl
  | hole w ref => exact replaced w ref member

/-- A filled text is the text with every placeholder filled alone, in the place of its
span. -/
theorem fill_text_eq_replaceSpans (whole : ReadsWhole read) (forward : ReadsForward read)
    (answer : Text → ρ → Draft) (t : Text) :
    (fill answer (pieces read t)).text =
      Text.replaceSpans (fun w => (fill answer (pieces read w)).text) 0 (spans read t) t := by
  rw [replaceSpans_spans forward]
  refine fill_text_eq_flatMap fun w ref member => ?_
  rw [fill_of_read forward answer (whole.read_of_mem_holes forward (mem_holes.mpr member))]

end Draft

/-! ## Queries -/

/-- Under a bound of one a repetition gives the text of its pass. -/
theorem settled_text_of_once {env : Environment} (once : env.config.effectivePasses = 1)
    (pass : Text → Draft) (t : Text) : (settled env pass t).text = (pass t).text := by
  simp only [settled, once, settle]
  split
  next => rfl
  next => exact outOfPasses_text 1 (pass t).text

theorem queryPass_text_eq_replaceSpans (env : Environment) (levels : Nat) (t : Text) :
    (queryPass env levels t).text =
      Text.replaceSpans (fun w => (queryPass env levels w).text) 0 (spans QueryRef.read? t) t := by
  cases levels with
  | zero =>
      exact Draft.fill_text_eq_replaceSpans QueryRef.read?_whole QueryRef.read?_forward
        (answerQuery env none) t
  | succ levels =>
      exact Draft.fill_text_eq_replaceSpans QueryRef.read?_whole QueryRef.read?_forward
        (answerQuery env (some (settled env (queryPass env levels)))) t

/-! ## Reports -/

/-- The text of one pass is the text it was given, with the placeholders resolved one by
one and everything between them kept. -/
theorem run_text_eq_replaceSpans (env : Environment) (t : Text) :
    (Pipeline.dataPath.run env t).text =
        Text.replaceSpans (fun w => (Pipeline.dataPath.run env w).text) 0
          (spans DataPathRef.read? t) t ∧
      (Pipeline.positional.run env t).text =
        Text.replaceSpans (fun w => (Pipeline.positional.run env w).text) 0
          (spans PositionalRef.read? t) t ∧
      (env.config.effectivePasses = 1 →
        (Pipeline.query.run env t).text =
          Text.replaceSpans (fun w => (Pipeline.query.run env w).text) 0
            (spans QueryRef.read? t) t) := by
  refine ⟨?_, ?_, fun once => ?_⟩
  · exact Draft.fill_text_eq_replaceSpans DataPathRef.read?_whole DataPathRef.read?_blind.forward
      (answerDataPath env) t
  · exact Draft.fill_text_eq_replaceSpans PositionalRef.read?_whole
      PositionalRef.read?_blind.forward (answerPositional (env.segments.getD [])) t
  · have alone (w : Text) : (Pipeline.query.run env w).text = (queryPass env maxNesting w).text :=
      settled_text_of_once once (queryPass env maxNesting) w
    simp only [alone]
    exact queryPass_text_eq_replaceSpans env maxNesting t

/-- Two queries around a character of two bytes.  The value of the first is a query, which
is left for a second pass. -/
theorem run_text_eq_replaceSpans_onePass :
    let env : Environment := ⟨Documents.source [(0, chainedDocument)], none, none, ⟨1, []⟩⟩
    let query (name : Char) : Text := QueryRef.write '\'' '\'' ⟨['0'], ['.', name], none⟩
    let t := query 'a' ++ 'é' :: query 'b'
    env.config.effectivePasses = 1 ∧ spans QueryRef.read? t = [⟨0, 23⟩, ⟨25, 48⟩] ∧
      (Pipeline.query.run env t).text =
        Text.replaceSpans (fun w => (Pipeline.query.run env w).text) 0 [⟨0, 23⟩, ⟨25, 48⟩] t ∧
      (Pipeline.query.run env t).text = query 'b' ++ ['é', 'x'] := by
  intro env query t
  have once : env.config.effectivePasses = 1 := rfl
  have found : spans QueryRef.read? t = [⟨0, 23⟩, ⟨25, 48⟩] := by decide +kernel
  have spliced := (run_text_eq_replaceSpans env t).2.2 once
  rw [found] at spliced
  exact ⟨once, found, spliced, by decide +kernel⟩

end Templating
