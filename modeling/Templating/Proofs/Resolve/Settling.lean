import Mathlib.Data.List.Basic
import Templating.Placeholder.Printer
import Templating.Proofs.Placeholder.Cutting
import Templating.Proofs.Placeholder.Extent
import Templating.Proofs.Report.Recording
import Templating.Render

/-!
# Settling

The repetition of a pass ends in one of three ways.  A pass leaves its text as
it is.  The passes are used up and no query is left.  Or they are used up and a
query is left.  Only the third end is not settled.

In the first two the pass leaves the result as it is.  In the first it was seen
to.  In the second there is nothing to replace (`queryPass_of_holes_eq_nil`).  So
a settled repetition ends in a fixed point of its pass, and what the pass notes
there was noted before (`settle_fixed`).

`query_run_text` carries this to reports.  A resolution of queries that converged
gives a text that the same resolution leaves as it is.
-/

namespace Templating

/-! ## Filled texts -/

namespace Draft

variable {ρ : Type}

section Text

variable {answer : Text → ρ → Draft}

theorem fill_text (parts : List (Piece ρ)) :
    (fill answer parts).text = parts.flatMap fun piece => (ofPiece answer piece).text :=
  List.flatMap_map _ _ _

theorem fill_append_text (parts parts' : List (Piece ρ)) :
    (fill answer (parts ++ parts')).text =
      (fill answer parts).text ++ (fill answer parts').text := by
  simp only [fill, concat, List.map_append, List.flatMap_append]

/-- Pieces whose placeholders are left as written are filled with themselves. -/
theorem fill_text_of_written {parts : List (Piece ρ)}
    (written : ∀ w ref, .hole w ref ∈ parts → (answer w ref).text = w) :
    (fill answer parts).text = parts.flatMap Piece.text := by
  rw [fill_text]
  refine List.flatMap_congr fun piece member => ?_
  cases piece with
  | plain c => rfl
  | hole w ref => exact written w ref member

end Text

/-- Pieces without a placeholder are filled with themselves. -/
theorem fill_of_hole?_eq_nil (answer : Text → ρ → Draft) :
    ∀ {parts : List (Piece ρ)}, parts.filterMap Piece.hole? = [] →
      fill answer parts = ofText (parts.flatMap Piece.text)
  | [], _ => rfl
  | .plain c :: parts, h => by
      have rest : fill answer parts = ofText (parts.flatMap Piece.text) :=
        fill_of_hole?_eq_nil answer h
      have split : fill answer (.plain c :: parts) =
          ⟨c :: (fill answer parts).text, (fill answer parts).notes,
            (fill answer parts).settled⟩ := rfl
      rw [split, rest]
      rfl
  | .hole written ref :: parts, h => by cases h

/-- A text stays if every placeholder in it is answered as written. -/
theorem fill_text_of_holes {read : Text → Option (ρ × Text)} (forward : ReadsForward read)
    {answer : Text → ρ → Draft} {t : Text}
    (written : ∀ hole ∈ holes read t, (answer hole.1 hole.2).text = hole.1) :
    (fill answer (pieces read t)).text = t := by
  rw [fill_text_of_written fun w ref member => written (w, ref) (mem_holes.mpr member)]
  exact flatMap_text_pieces forward t

/-- A text without a placeholder is filled with itself, with nothing to note. -/
theorem fill_of_holes_eq_nil {read : Text → Option (ρ × Text)} (forward : ReadsForward read)
    (answer : Text → ρ → Draft) {t : Text} (h : holes read t = []) :
    fill answer (pieces read t) = ofText t :=
  (fill_of_hole?_eq_nil answer h).trans (congrArg ofText (flatMap_text_pieces forward t))

/-- A placeholder that is read to the end of a text is filled with its answer. -/
theorem fill_of_read {read : Text → Option (ρ × Text)} (forward : ReadsForward read)
    (answer : Text → ρ → Draft) {w : Text} {ref : ρ} (found : read w = some (ref, [])) :
    fill answer (pieces read w) = answer w ref := by
  rw [pieces_of_read_whole forward found]
  simp [fill, concat, ofPiece]

/-- A step from a text with nothing to note is that step. -/
theorem ofText_andThen (t : Text) (next : Text → Draft) : (ofText t).andThen next = next t := by
  simp only [andThen, ofText, List.nil_append, Bool.true_and]

theorem andThen_ofText (d : Draft) : d.andThen ofText = d := by
  simp only [andThen, ofText, List.append_nil, Bool.and_true]

theorem andThen_assoc (d : Draft) (next later : Text → Draft) :
    (d.andThen next).andThen later = d.andThen fun t => (next t).andThen later := by
  simp only [andThen, List.append_assoc, Bool.and_assoc]

end Draft

/-- A pass leaves a text without queries as it is, with nothing to note. -/
theorem queryPass_of_holes_eq_nil (env : Environment) (levels : Nat) {t : Text}
    (h : holes QueryRef.read? t = []) : queryPass env levels t = .ofText t := by
  cases levels with
  | zero => exact Draft.fill_of_holes_eq_nil QueryRef.read?_forward (answerQuery env none) h
  | succ levels => exact Draft.fill_of_holes_eq_nil QueryRef.read?_forward (answerQuery env _) h

/-! ## The end of a repetition -/

theorem outOfPasses_text (bound : Nat) (t : Text) : (outOfPasses bound t).text = t := by
  rw [outOfPasses]
  split
  next => rfl
  next => rfl

theorem outOfPasses_of_holes_eq_nil (bound : Nat) {t : Text} (h : holes QueryRef.read? t = []) :
    outOfPasses bound t = .ofText t := by
  rw [outOfPasses, h]
  rfl

/-- A repetition out of passes is settled when no query is left. -/
theorem holes_eq_nil_of_settled {bound : Nat} {t : Text}
    (h : (outOfPasses bound t).settled = true) : holes QueryRef.read? t = [] := by
  rw [outOfPasses] at h
  split at h
  next none => exact List.head?_eq_none_iff.mp none
  next => cases h

/-- What it takes for a pass to leave every text without queries alone. -/
def Idle (pass : Text → Draft) : Prop :=
  ∀ ⦃t : Text⦄, holes QueryRef.read? t = [] → pass t = .ofText t

theorem queryPass_idle (env : Environment) (levels : Nat) : Idle (queryPass env levels) :=
  fun _ h => queryPass_of_holes_eq_nil env levels h

/-! ## Fixed points -/

/-- A text is a fixed point of a pass after certain notes if the pass leaves it
as it is, settled, and takes no note but those. -/
structure FixedAfter (pass : Text → Draft) (notes : List Diagnostic) (t : Text) : Prop where
  /-- The text stays. -/
  text : (pass t).text = t
  /-- Every repetition inside the pass is settled. -/
  settled : (pass t).settled = true
  /-- Every note is among the given ones. -/
  notes : ∀ note ∈ (pass t).notes, note ∈ notes

/-- A settled repetition ends in a fixed point of its pass. -/
theorem settle_fixed {pass : Text → Draft} (idle : Idle pass) (bound : Nat) :
    ∀ (left : Nat) (t : Text), (settle pass bound left t).settled = true →
      FixedAfter pass (settle pass bound left t).notes (settle pass bound left t).text
  | 0, t, h => by
      rw [settle] at h ⊢
      have none := holes_eq_nil_of_settled h
      rw [outOfPasses_of_holes_eq_nil bound none]
      refine ⟨?_, ?_, ?_⟩
      · exact congrArg Draft.text (idle none)
      · exact congrArg Draft.settled (idle none)
      · intro note noted
        rw [Draft.ofText, idle none] at noted
        cases noted
  | left + 1, t, h => by
      rw [settle] at h ⊢
      by_cases same : (pass t).text = t
      · simp only [same, ↓reduceIte] at h ⊢
        exact ⟨same, h, fun _ noted => noted⟩
      · simp only [same, ↓reduceIte] at h ⊢
        have later : (settle pass bound left (pass t).text).settled = true :=
          (Bool.and_eq_true_iff.mp h).2
        have fixed := settle_fixed idle bound left (pass t).text later
        exact ⟨fixed.text, fixed.settled,
          fun note noted => List.mem_append_right _ (fixed.notes note noted)⟩

/-- At a fixed point a repetition is the pass, unless no pass is allowed. -/
theorem settle_succ_of_fixed {pass : Text → Draft} {t : Text} (fixed : (pass t).text = t)
    (bound left : Nat) : settle pass bound (left + 1) t = pass t := by
  simp only [settle, fixed, ↓reduceIte]

theorem settled_of_fixed (env : Environment) {pass : Text → Draft} {t : Text}
    (fixed : (pass t).text = t) : settled env pass t = pass t := by
  obtain ⟨left, some⟩ : ∃ left, env.config.effectivePasses = left + 1 :=
    Nat.exists_eq_add_one_of_ne_zero (by rw [Config.effectivePasses]; omega)
  rw [settled, some]
  exact settle_succ_of_fixed fixed _ left

/-! ## Reports -/

/-- A resolution of queries that converged gives a fixed point of the pass.  The
same resolution leaves that text as it is, converges again, and reports nothing
of a placeholder that was not reported before. -/
theorem query_run_text (env : Environment) (t : Text)
    (converged : (Pipeline.query.run env t).converged = true) :
    let first := Pipeline.query.run env t
    let again := Pipeline.query.run env first.text
    (queryPass env maxNesting first.text).text = first.text ∧ again.text = first.text ∧
      again.converged = true ∧
      ∀ d ∈ again.diagnostics, ∃ e ∈ first.diagnostics,
        e.kind = d.kind ∧ e.placeholder = d.placeholder := by
  intro first again
  have fixed : FixedAfter (queryPass env maxNesting) (resolveQueries env t).notes first.text :=
    settle_fixed (queryPass_idle env maxNesting) _ _ t converged
  have replay : resolveQueries env first.text = queryPass env maxNesting first.text :=
    settled_of_fixed env fixed.text
  refine ⟨fixed.text, ?_, ?_, ?_⟩
  · exact (congrArg Draft.text replay).trans fixed.text
  · exact (congrArg Draft.settled replay).trans fixed.settled
  · intro d recorded
    have noted : d ∈ (resolveQueries env first.text).notes := Ledger.mem_of_mem_ofNotes _ recorded
    rw [replay] at noted
    obtain ⟨e, before, repeats⟩ :=
      Ledger.exists_repeats_of_mem_ofNotes (fun _ _ => ()) () (fixed.notes d noted)
    exact ⟨e, before, Diagnostic.repeats_iff.mp repeats⟩

/-- A document with the member `a`, a query for the member `b` of the same
document, and the member `b`, which is the text `x`. -/
def chainedDocument : Value :=
  .obj [(['a'], .str (QueryRef.write '\'' '\'' ⟨['0'], ['.', 'b'], none⟩)), (['b'], .str ['x'])]

/-- Three passes settle a query for `a` beside a query that is no path, which
stays and is reported by both resolutions. -/
theorem query_run_text_chained :
    let env : Environment := ⟨Documents.source [(0, chainedDocument)], none, none, ⟨3, []⟩⟩
    let broken := QueryRef.write '\'' '\'' ⟨['0'], ['b'], none⟩
    let t := QueryRef.write '"' '"' ⟨['0'], ['.', 'a'], none⟩ ++ broken
    let first := Pipeline.query.run env t
    let again := Pipeline.query.run env first.text
    first.converged = true ∧ first.text = 'x' :: broken ∧ again.text = first.text ∧
      again.converged = true ∧
      ∀ d ∈ again.diagnostics, ∃ e ∈ first.diagnostics,
        e.kind = d.kind ∧ e.placeholder = d.placeholder := by
  intro env broken t first again
  have converged : first.converged = true := by decide +kernel
  have text : first.text = 'x' :: broken := by decide +kernel
  exact ⟨converged, text, (query_run_text env t converged).2⟩

end Templating
