import Templating.Proofs.Placeholder.Cutting
import Templating.Proofs.Resolve.Answers
import Templating.Proofs.Resolve.Settling
import Templating.Proofs.Text.Parts

/-!
# Clean resolutions

A resolution of queries is clean if it converged and nothing was recorded.  It
ends in a text that the pass leaves as it is, with nothing to note.  So every
query left in the text selects a value other than null, and the values in the
places of the queries give the text again.

That is possible.  A value may be the text of the very query that asks for it
(`query_run_isClean_selfReferring`).  More generally, if texts in the places of
the queries give the same text again, then one of them contains the query that
it replaces (`exists_infix_of_fill`).  Either each is the query.  Or, going from
left to right, the new text falls behind the old one and gets ahead of it.  It
ends level, so there is a query before which it is not ahead and behind which it
does not lag.  The text in the place of that query contains the query and more
(`Text.exists_longer_of_flatMap`).

So where no value contains the query that selects it, a clean resolution leaves
no query (`query_run_isClean`).
-/

namespace Templating

/-! ## Texts that are filled with themselves -/

namespace Draft

variable {ρ : Type} {answer : Text → ρ → Draft}

/-- If the answers give back the text, and one is not its placeholder, then one of them
contains its placeholder and more. -/
theorem exists_longer_of_fill {parts : List (Piece ρ)}
    (same : (fill answer parts).text = parts.flatMap Piece.text) {w : Text} {ref : ρ}
    (member : .hole w ref ∈ parts) (moved : (answer w ref).text ≠ w) :
    ∃ w ref, .hole w ref ∈ parts ∧ w <:+: (answer w ref).text ∧ (answer w ref).text ≠ w := by
  have level : (parts.flatMap fun piece => (ofPiece answer piece).text) =
      [] ++ parts.flatMap Piece.text := (fill_text parts).symm.trans same
  obtain ⟨piece, member', inside, more⟩ :=
    Text.exists_longer_of_flatMap level (Or.inr ⟨.hole w ref, member, moved⟩)
  cases piece with
  | plain c => exact absurd rfl more
  | hole w' ref' => exact ⟨w', ref', member', inside, more⟩

/-- If the answers give back the text, and there are any, then one of them contains its
placeholder. -/
theorem exists_infix_of_fill {parts : List (Piece ρ)}
    (same : (fill answer parts).text = parts.flatMap Piece.text)
    (nonempty : ∃ w ref, .hole w ref ∈ parts) :
    ∃ w ref, .hole w ref ∈ parts ∧ w <:+: (answer w ref).text := by
  obtain ⟨w, ref, member⟩ := nonempty
  by_cases written : (answer w ref).text = w
  · exact ⟨w, ref, member, [], [], by rw [List.nil_append, List.append_nil, written]⟩
  · obtain ⟨w', ref', member', inside, -⟩ := exists_longer_of_fill same member written
    exact ⟨w', ref', member', inside⟩

end Draft

/-! ## Answers without a note -/

/-- What a query asks for is there: the source has the document, the expression
resolves with nothing to note, and the first value that it picks is not null. -/
def Selects (env : Environment) (resolve : Text → Draft) (ref : QueryRef) (v : Value) : Prop :=
  ∃ index document expression,
    readDocumentIndex ref.index = .ok index ∧ env.source index = .ok (some document) ∧
      ((resolve ref.expression).andThen (fillExpression env)).text = expression ∧
      ((resolve ref.expression).andThen (fillExpression env)).notes = [] ∧
      Path.queryFirst? document expression = .ok (some v) ∧ v.isNull = false

theorem answerSelection_of_silent {env : Environment} {written expression : Text} {ref : QueryRef}
    {index : Nat} (silent : (answerSelection env written ref index expression).notes = []) :
    ∃ document v, env.source index = .ok (some document) ∧
      Path.queryFirst? document expression = .ok (some v) ∧ v.isNull = false ∧
      (answerSelection env written ref index expression).text = v.display := by
  generalize drafted : answerSelection env written ref index expression = d at silent ⊢
  cases answerSelection_eq_iff.mp drafted with
  | value asked picked real => exact ⟨_, _, asked, picked, real, rfl⟩
  | unavailable _ => cases silent
  | missingDocument _ => cases silent
  | badPath _ _ => cases silent
  | missingValue _ _ _ => cases silent

/-- A query that is answered without a note is answered with its value. -/
theorem exists_selects_of_answerQuery {env : Environment} {resolve : Text → Draft} {written : Text}
    {ref : QueryRef} (silent : (answerQuery env (some resolve) written ref).notes = []) :
    ∃ v, Selects env resolve ref v ∧
      (answerQuery env (some resolve) written ref).text = v.display := by
  simp only [answerQuery] at silent ⊢
  cases indexed : readDocumentIndex ref.index with
  | error e =>
      simp only [indexed] at silent
      cases silent
  | ok index =>
      simp only [indexed] at silent ⊢
      obtain ⟨inside, outside⟩ := List.append_eq_nil_iff.mp silent
      obtain ⟨document, v, asked, picked, real, text⟩ := answerSelection_of_silent outside
      exact ⟨v, ⟨index, document, _, indexed, asked, rfl, inside, picked, real⟩, text⟩

/-! ## Clean ends -/

/-- The queries of a text that a pass leaves as it is, with nothing to note, all
select values.  If there are any, one of them is contained in its value. -/
theorem holes_of_silent {env : Environment} {levels : Nat} {t : Text}
    (same : (queryPass env (levels + 1) t).text = t)
    (silent : (queryPass env (levels + 1) t).notes = []) :
    let resolve := settled env (queryPass env levels)
    (∀ hole ∈ holes QueryRef.read? t, ∃ v, Selects env resolve hole.2 v) ∧
      (holes QueryRef.read? t ≠ [] →
        ∃ hole ∈ holes QueryRef.read? t, ∃ v,
          Selects env resolve hole.2 v ∧ hole.1 <:+: v.display) := by
  intro resolve
  have each {w : Text} {ref : QueryRef} (member : .hole w ref ∈ pieces QueryRef.read? t) :
      ∃ v, Selects env resolve ref v ∧ (answerQuery env (some resolve) w ref).text = v.display := by
    refine exists_selects_of_answerQuery (List.flatMap_eq_nil_iff.mp silent _ ?_)
    exact List.mem_map_of_mem (f := Draft.ofPiece (answerQuery env (some resolve))) member
  refine ⟨fun hole member => ?_, fun nonempty => ?_⟩
  · obtain ⟨v, selects, -⟩ := each (mem_holes.mp member)
    exact ⟨v, selects⟩
  · obtain ⟨⟨w, ref⟩, member⟩ := List.exists_mem_of_ne_nil _ nonempty
    have filled : (Draft.fill (answerQuery env (some resolve)) (pieces QueryRef.read? t)).text =
        (pieces QueryRef.read? t).flatMap Piece.text := by
      rw [flatMap_text_pieces QueryRef.read?_forward]
      exact same
    obtain ⟨w, ref, member, inside⟩ :=
      Draft.exists_infix_of_fill filled ⟨w, ref, mem_holes.mp member⟩
    obtain ⟨v, selects, text⟩ := each member
    refine ⟨(w, ref), mem_holes.mpr member, v, selects, ?_⟩
    rw [← text]
    exact inside

/-- In the text of a clean resolution every query left selects a value, and none
is left unless one of them is contained in its own value. -/
theorem query_run_isClean (env : Environment) (t : Text)
    (clean : (Pipeline.query.run env t).isClean = true) :
    let resolved := (Pipeline.query.run env t).text
    let resolve := settled env (queryPass env (maxNesting - 1))
    (∀ hole ∈ holes QueryRef.read? resolved, ∃ v, Selects env resolve hole.2 v) ∧
      (holes QueryRef.read? resolved ≠ [] →
        ∃ hole ∈ holes QueryRef.read? resolved, ∃ v,
          Selects env resolve hole.2 v ∧ hole.1 <:+: v.display) := by
  obtain ⟨converged, unrecorded⟩ := Bool.and_eq_true_iff.mp clean
  have silent : (resolveQueries env t).notes = [] :=
    (Ledger.recorded_ofNotes_eq_nil (fun _ _ => ())).mp (List.isEmpty_iff.mp unrecorded)
  have fixed : FixedAfter (queryPass env maxNesting) (resolveQueries env t).notes
      (resolveQueries env t).text :=
    settle_fixed (queryPass_idle env maxNesting) _ _ t converged
  have none : (queryPass env maxNesting (resolveQueries env t).text).notes = [] := by
    refine List.eq_nil_iff_forall_not_mem.mpr fun note noted => ?_
    have before := fixed.notes note noted
    rw [silent] at before
    cases before
  exact holes_of_silent fixed.text none

/-- A document whose member `a` is a query for that member. -/
def selfReferringDocument : Value :=
  .obj [(['a'], .str (QueryRef.write '\'' '\'' ⟨['0'], ['.', 'a'], none⟩))]

/-- A query left by a clean resolution, which its value contains. -/
theorem query_run_isClean_contained :
    let env : Environment := ⟨Documents.source [(0, selfReferringDocument)], none, none, .standard⟩
    let t := QueryRef.write '"' '"' ⟨['0'], ['.', 'a'], none⟩
    let resolved := (Pipeline.query.run env t).text
    (Pipeline.query.run env t).isClean = true ∧ holes QueryRef.read? resolved ≠ [] ∧
      ∃ hole ∈ holes QueryRef.read? resolved, ∃ v,
        Selects env (settled env (queryPass env (maxNesting - 1))) hole.2 v ∧
          hole.1 <:+: v.display := by
  intro env t resolved
  have clean : (Pipeline.query.run env t).isClean = true := by decide +kernel
  have nonempty : holes QueryRef.read? resolved ≠ [] := by decide +kernel
  exact ⟨clean, nonempty, (query_run_isClean env t clean).2 nonempty⟩

/-- A clean resolution may leave a query in the text. -/
theorem query_run_isClean_selfReferring :
    let env : Environment := ⟨Documents.source [(0, selfReferringDocument)], none, none, .standard⟩
    let t := QueryRef.write '\'' '\'' ⟨['0'], ['.', 'a'], none⟩
    (Pipeline.query.run env t).isClean = true ∧
      holes QueryRef.read? (Pipeline.query.run env t).text ≠ [] := by
  decide +kernel

end Templating
