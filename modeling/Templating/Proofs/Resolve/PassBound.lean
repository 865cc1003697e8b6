import Templating.Proofs.Resolve.Simulation

/-!
# The bound on passes

A repetition that is settled does not use the passes it is not given.  If its
last pass left the text as it is, it had come to its end before the bound.  If
the passes were used up and no query was left, every further pass would leave
the text as it is.

So a settled draft under one bound is the draft under every larger bound
(`settle_of_le`), at all levels of nesting at once (`simulates_withPasses`).
`run_withPasses_of_le` says the same of reports: raising the bound never changes
a resolution that converged.
-/

namespace Templating

/-- The environment with another bound on the passes. -/
def Environment.withPasses (env : Environment) (passes : Nat) : Environment :=
  { env with config := { env.config with maxPasses := passes } }

/-! ## One repetition -/

/-- A text without queries is settled at once, under any bound. -/
theorem settle_of_holes_eq_nil {pass : Text → Draft} (idle : Idle pass) (bound left : Nat)
    {t : Text} (h : holes QueryRef.read? t = []) : settle pass bound left t = .ofText t := by
  cases left with
  | zero => rw [settle, outOfPasses_of_holes_eq_nil bound h]
  | succ left =>
      have fixed : (pass t).text = t := congrArg Draft.text (idle h)
      rw [settle_succ_of_fixed fixed bound left, idle h]

/-- A settled repetition is the repetition of any pass that agrees with its own,
with as many passes or more. -/
theorem settle_of_le {pass pass' : Text → Draft} (idle : Idle pass')
    (agree : AgreesOn Draft.Settled pass pass') (bound bound' : Nat) :
    ∀ {left left' : Nat}, left ≤ left' →
      AgreesOn Draft.Settled (settle pass bound left) (settle pass' bound' left')
  | 0, left', _, t, h => by
      rw [settle] at h ⊢
      have none := holes_eq_nil_of_settled h
      rw [outOfPasses_of_holes_eq_nil bound none, settle_of_holes_eq_nil idle bound' left' none]
  | left + 1, left' + 1, le, t, h => by
      rw [settle] at h
      by_cases same : (pass t).text = t
      · simp only [same, ↓reduceIte] at h
        have once : pass' t = pass t := agree h
        rw [settle_succ_of_fixed same, settle_succ_of_fixed (once ▸ same), once]
      · simp only [same, ↓reduceIte] at h
        obtain ⟨first, later⟩ := Draft.settled_hereditary.andThen h
        have once : pass' t = pass t := agree first
        have rest := settle_of_le idle agree bound bound' (Nat.le_of_succ_le_succ le) later
        simp only [settle, once, same, ↓reduceIte]
        exact Draft.andThen_congr rest

/-! ## Environments -/

variable {n m : Nat}

theorem simulates_withPasses (env : Environment)
    (le : (env.withPasses n).config.effectivePasses ≤ (env.withPasses m).config.effectivePasses) :
    Simulates Draft.Settled (env.withPasses n) (env.withPasses m) where
  hereditary := Draft.settled_hereditary
  selection := fun _ _ _ => .refl _
  expression := .refl _
  repetition := fun _ _ _ idle agree => settle_of_le idle agree _ _ le

/-- Two environments that differ in the bound on the passes. -/
def BoundsApart (n m : Nat) (env env' : Environment) : Prop :=
  ∃ inner : Environment, env = inner.withPasses n ∧ env' = inner.withPasses m

theorem boundsApart_inward : Inward (BoundsApart n m) where
  segments := by
    rintro _ _ ⟨inner, rfl, rfl⟩
    rfl
  dataOnly := by
    rintro _ _ ⟨inner, rfl, rfl⟩
    exact ⟨inner.dataOnly, rfl, rfl⟩
  full := by
    rintro _ _ ⟨inner, rfl, rfl⟩
    exact ⟨inner.full, rfl, rfl⟩

/-- A settled draft of any pipeline stays the same under a larger bound. -/
theorem draft_withPasses_of_le (env : Environment)
    (le : (env.withPasses n).config.effectivePasses ≤ (env.withPasses m).config.effectivePasses)
    (p : Pipeline) (t : Text) (h : (p.draft (env.withPasses n) t).Settled) :
    p.draft (env.withPasses m) t = p.draft (env.withPasses n) t := by
  refine boundsApart_inward.agreesOn_draft Draft.settled_hereditary ?_ ?_ ⟨env, rfl, rfl⟩ p h
  · -- Data paths do not depend on the bound.
    rintro _ _ ⟨inner, rfl, rfl⟩
    exact .refl _
  · rintro _ _ ⟨inner, rfl, rfl⟩
    exact (simulates_withPasses inner le).agreesOn_resolveQueries

/-! ## Reports -/

/-- Raising the bound on the passes never changes a resolution that converged. -/
theorem run_withPasses_of_le (env : Environment) (p : Pipeline) (t : Text)
    (le : (env.withPasses n).config.effectivePasses ≤ (env.withPasses m).config.effectivePasses)
    (converged : (p.run (env.withPasses n) t).converged = true) :
    p.run (env.withPasses m) t = p.run (env.withPasses n) t := by
  have same := draft_withPasses_of_le env le p t converged
  simp only [Pipeline.run, Pipeline.watch, same]

/-- Two passes are enough for a query for `a`, since no query is left after them.
Seven passes give the same resolution. -/
theorem run_withPasses_chained :
    let env : Environment := ⟨Documents.source [(0, chainedDocument)], none, none, .standard⟩
    let t := QueryRef.write '"' '"' ⟨['0'], ['.', 'a'], none⟩
    (Pipeline.all.run (env.withPasses 2) t).converged = true ∧
      Pipeline.all.run (env.withPasses 7) t = Pipeline.all.run (env.withPasses 2) t := by
  intro env t
  have converged : (Pipeline.all.run (env.withPasses 2) t).converged = true := by decide +kernel
  exact ⟨converged, run_withPasses_of_le env .all t (by decide) converged⟩

end Templating
