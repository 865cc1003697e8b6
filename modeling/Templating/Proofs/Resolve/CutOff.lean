import Templating.Proofs.Resolve.Clean

/-!
# Repetitions that are cut off

A repetition is cut off if each of its passes changes the text and a query is left
behind the last one.  It is then not settled, and the first query left is reported as
still changing (`settle_of_isCutOff`).  Where every pass is settled, a repetition is
unsettled in no other case (`isCutOff_of_settle`).

Whether anything is still changing is not looked at.  What is looked at is whether a
query is left, and a query may be left because the pass leaves it as written: its index
or its expression cannot be read, the source has no answer, or its value is its own
text.  If every query left is answered as written, one more pass leaves the text as it
is, and the report is a false alarm (`queryPass_cutOff_refused`).

If some query left is answered by another text, one more pass changes the text, unless
the answers make up for one another: one contains its query and more, and another is
shorter than its query (`Draft.OneWay`, `queryPass_cutOff`).
-/

namespace Templating

/-! ## Answers that do not make up for one another -/

namespace Draft

variable {ρ : Type} {answer : Text → ρ → Draft}

/-- No answer is shorter than its placeholder, or none contains its placeholder and
more.  So the text as a whole cannot stay while an answer changes a part of it. -/
def OneWay (answer : Text → ρ → Draft) (found : List (Text × ρ)) : Prop :=
  (∀ hole ∈ found, hole.1.length ≤ (answer hole.1 hole.2).text.length) ∨
    ∀ hole ∈ found, hole.1 <:+: (answer hole.1 hole.2).text →
      (answer hole.1 hole.2).text = hole.1

/-- If the answers give back the text and do not make up for one another, then every
placeholder is answered as written. -/
theorem OneWay.written {read : Text → Option (ρ × Text)} (forward : ReadsForward read) {t : Text}
    (oneWay : OneWay answer (holes read t)) (same : (fill answer (pieces read t)).text = t) :
    ∀ hole ∈ holes read t, (answer hole.1 hole.2).text = hole.1 := by
  rintro ⟨w, ref⟩ found
  have filled : (fill answer (pieces read t)).text = (pieces read t).flatMap Piece.text := by
    rw [flatMap_text_pieces forward, same]
  rcases oneWay with atLeast | atMost
  · have longer : ∀ piece ∈ pieces read t,
        piece.text.length ≤ (ofPiece answer piece).text.length := by
      intro piece member
      cases piece with
      | plain c => exact Nat.le_refl 1
      | hole w ref => exact atLeast (w, ref) (mem_holes.mpr member)
    rw [fill_text] at filled
    exact (Text.eq_of_flatMap_eq longer filled.symm (.hole w ref) (mem_holes.mp found)).symm
  · refine Decidable.byContradiction fun moved => ?_
    obtain ⟨w', ref', member, inside, more⟩ :=
      exists_longer_of_fill filled (mem_holes.mp found) moved
    exact more (atMost (w', ref') (mem_holes.mpr member) inside)

end Draft

/-! ## The cut -/

/-- Each of so many passes changes the text, and a query is left behind the last. -/
def IsCutOff (pass : Text → Draft) : Nat → Text → Prop
  | 0, t => holes QueryRef.read? t ≠ []
  | left + 1, t => (pass t).text ≠ t ∧ IsCutOff pass left (pass t).text

instance decidableIsCutOff (pass : Text → Draft) :
    ∀ (left : Nat) (t : Text), Decidable (IsCutOff pass left t)
  | 0, t => inferInstanceAs (Decidable (holes QueryRef.read? t ≠ []))
  | left + 1, t =>
      have := decidableIsCutOff pass left (pass t).text
      inferInstanceAs (Decidable ((pass t).text ≠ t ∧ IsCutOff pass left (pass t).text))

/-- The note on the first query that a cut leaves. -/
def cutOffNote (bound : Nat) (written : Text) : Diagnostic :=
  ⟨.passLimitReached, .query, written, "text still changing after " ++ toString bound ++ " passes"⟩

theorem outOfPasses_of_holes_eq_cons (bound : Nat) {t w : Text} {ref : QueryRef}
    {rest : List (Text × QueryRef)} (h : holes QueryRef.read? t = (w, ref) :: rest) :
    outOfPasses bound t = ⟨t, [cutOffNote bound w], false⟩ := by
  rw [outOfPasses, h]
  rfl

/-- A repetition that is cut off is not settled and reports the first query left. -/
theorem settle_of_isCutOff {pass : Text → Draft} (bound : Nat) :
    ∀ {left : Nat} {t : Text}, IsCutOff pass left t →
      (settle pass bound left t).settled = false ∧
        ∃ hole rest, holes QueryRef.read? (settle pass bound left t).text = hole :: rest ∧
          cutOffNote bound hole.1 ∈ (settle pass bound left t).notes
  | 0, t, cut => by
      obtain ⟨⟨w, ref⟩, rest, found⟩ := List.exists_cons_of_ne_nil cut
      rw [settle, outOfPasses_of_holes_eq_cons bound found]
      exact ⟨rfl, (w, ref), rest, found, List.mem_singleton_self _⟩
  | left + 1, t, ⟨changes, cut⟩ => by
      have again : settle pass bound (left + 1) t = (pass t).andThen (settle pass bound left) := by
        simp only [settle, changes, ↓reduceIte]
      obtain ⟨unsettled, hole, rest, found, noted⟩ := settle_of_isCutOff bound cut
      rw [again]
      refine ⟨?_, hole, rest, found, List.mem_append_right _ noted⟩
      rw [Draft.andThen, unsettled, Bool.and_false]

/-- A repetition of settled passes is settled unless it is cut off. -/
theorem isCutOff_of_settle {pass : Text → Draft} (ends : ∀ t, (pass t).settled = true)
    (bound : Nat) : ∀ {left : Nat} {t : Text},
      (settle pass bound left t).settled = false → IsCutOff pass left t
  | 0, t, unsettled => by
      intro none
      rw [settle, outOfPasses_of_holes_eq_nil bound none] at unsettled
      cases unsettled
  | left + 1, t, unsettled => by
      rw [settle] at unsettled
      by_cases same : (pass t).text = t
      · simp only [same, ↓reduceIte, ends t] at unsettled
        cases unsettled
      · simp only [same, ↓reduceIte, Draft.andThen, ends t, Bool.true_and] at unsettled
        exact ⟨same, isCutOff_of_settle ends bound unsettled⟩

/-! ## Queries -/

/-- A repetition of a pass over queries that is cut off is not settled and reports the
first query left.  One more pass leaves the text as it is if every query left is answered
as written.  It changes the text if one is not, and the answers do not make up for one
another. -/
theorem queryPass_cutOff (env : Environment) (levels : Nat) (t : Text)
    (cut : IsCutOff (queryPass env (levels + 1)) env.config.effectivePasses t) :
    let pass := queryPass env (levels + 1)
    let answer := answerQuery env (some (settled env (queryPass env levels)))
    let d := settled env pass t
    let left := holes QueryRef.read? d.text
    d.settled = false ∧
      (∃ hole rest, left = hole :: rest ∧
        cutOffNote env.config.effectivePasses hole.1 ∈ d.notes) ∧
      ((∀ hole ∈ left, (answer hole.1 hole.2).text = hole.1) → (pass d.text).text = d.text) ∧
      (Draft.OneWay answer left → (∃ hole ∈ left, (answer hole.1 hole.2).text ≠ hole.1) →
        (pass d.text).text ≠ d.text) := by
  intro pass answer d left
  obtain ⟨unsettled, reported⟩ := settle_of_isCutOff env.config.effectivePasses cut
  refine ⟨unsettled, reported, fun written => ?_, fun oneWay moves same => ?_⟩
  · exact Draft.fill_text_of_holes QueryRef.read?_forward written
  · obtain ⟨hole, found, moved⟩ := moves
    exact moved (oneWay.written QueryRef.read?_forward same hole found)

/-- The value of the first query is the whole text and that of the second is empty.  The
pass leaves the text as it is and answers neither as written. -/
example :
    let query (name : Char) : Text := QueryRef.write '\'' '\'' ⟨['0'], ['.', name], none⟩
    let t := query 'a' ++ query 'b'
    let env : Environment :=
      ⟨Documents.source [(0, .obj [(['a'], .str t), (['b'], .str [])])], none, none, .standard⟩
    let answer := answerQuery env (some (settled env (queryPass env (maxNesting - 1))))
    (queryPass env maxNesting t).text = t ∧
      ∀ hole ∈ holes QueryRef.read? t, (answer hole.1 hole.2).text ≠ hole.1 := by
  decide +kernel

/-- A document whose member `a` is a query for that member with an `x` before it. -/
def growingDocument : Value :=
  .obj [(['a'], .str ('x' :: QueryRef.write '\'' '\'' ⟨['0'], ['.', 'a'], none⟩))]

/-- A text that grows with every pass is cut off after three, and a fourth would change
it. -/
theorem queryPass_cutOff_growing :
    let env : Environment := ⟨Documents.source [(0, growingDocument)], none, none, ⟨3, []⟩⟩
    let pass := queryPass env maxNesting
    let query := QueryRef.write '\'' '\'' ⟨['0'], ['.', 'a'], none⟩
    let d := settled env pass query
    IsCutOff pass 3 query ∧ d.settled = false ∧ d.text = 'x' :: 'x' :: 'x' :: query ∧
      cutOffNote 3 query ∈ d.notes ∧ (pass d.text).text ≠ d.text := by
  intro env pass query d
  let answer := answerQuery env (some (settled env (queryPass env (maxNesting - 1))))
  let ref : QueryRef := ⟨['0'], ['.', 'a'], none⟩
  have cut : IsCutOff pass 3 query := by decide +kernel
  have text : d.text = 'x' :: 'x' :: 'x' :: query := by decide +kernel
  have left : holes QueryRef.read? d.text = [(query, ref)] := by decide +kernel
  have grown : (answer query ref).text = 'x' :: query := by decide +kernel
  have oneWay : Draft.OneWay answer (holes QueryRef.read? d.text) := by
    refine Or.inl fun hole found => ?_
    rw [left, List.mem_singleton] at found
    rw [found, grown]
    exact Nat.le_succ _
  have moves : ∃ hole ∈ holes QueryRef.read? d.text, (answer hole.1 hole.2).text ≠ hole.1 := by
    refine ⟨(query, ref), left ▸ List.mem_singleton_self _, ?_⟩
    rw [grown]
    exact List.cons_ne_self _ _
  obtain ⟨unsettled, ⟨hole, rest, found, noted⟩, -, changes⟩ :=
    queryPass_cutOff env (maxNesting - 1) query cut
  have first : hole = (query, ref) := (List.cons.inj (found.symm.trans left)).1
  rw [first] at noted
  exact ⟨cut, unsettled, text, noted, changes oneWay moves⟩

/-- One pass settles the first query.  The second is no path and stays, and one more pass
would leave the text as it is.  Still the report says that the text was changing. -/
theorem queryPass_cutOff_refused :
    let env : Environment :=
      ⟨Documents.source [(0, .obj [(['a'], .str ['x'])])], none, none,
        ⟨1, Config.standard.defaultFallback⟩⟩
    let broken := QueryRef.write '\'' '\'' ⟨['0'], ['b'], none⟩
    let t := QueryRef.write '\'' '\'' ⟨['0'], ['.', 'a'], none⟩ ++ broken
    let r := Pipeline.query.run env t
    IsCutOff (queryPass env maxNesting) env.config.effectivePasses t ∧ r.converged = false ∧
      r.text = 'x' :: broken ∧ r.has .passLimitReached = true ∧
      (queryPass env maxNesting r.text).text = r.text := by
  decide +kernel

end Templating
