import Templating.Proofs.Resolve.Answers
import Templating.Proofs.Resolve.Simulation

/-!
# Resolutions without fallbacks

Whoever gives a fallback text decides what a resolution says where a value is
missing.  Nowhere else does the text come in.  Every fallback that is put into a
draft is noted with it, so two choices of texts give the same draft wherever the
draft with the first has no such note (`Draft.NoFallback`).

`run_withFallbacks` says the same of reports.  Not every note is recorded, but
one that is not repeats the kind of one that is.  So a count of zero means that
there was no such note.
-/

namespace Templating

/-- The environment with other fallback texts. -/
def Environment.withFallbacks (env : Environment) (custom : Option Text) (standard : Text) :
    Environment :=
  { env with custom := custom, config := { env.config with defaultFallback := standard } }

/-- The property that no fallback is noted. -/
def Draft.NoFallback (d : Draft) : Prop := ∀ note ∈ d.notes, note.kind.fellBack = false

theorem Draft.noFallback_hereditary : Hereditary NoFallback where
  andThen := fun _ _ h =>
    ⟨fun note noted => h note (List.mem_append_left _ noted),
      fun note noted => h note (List.mem_append_right _ noted)⟩
  concat := fun _ h _ member note noted => h note (List.mem_flatMap_of_mem member noted)

/-! ## Answers -/

section Answers

variable (env : Environment) (custom custom' : Option Text) (standard standard' : Text)

theorem answerDataPath_withFallbacks (written : Text) (ref : DataPathRef)
    (h : (answerDataPath (env.withFallbacks custom standard) written ref).NoFallback) :
    answerDataPath (env.withFallbacks custom' standard') written ref =
      answerDataPath (env.withFallbacks custom standard) written ref := by
  generalize drafted : answerDataPath (env.withFallbacks custom standard) written ref = d at h ⊢
  refine answerDataPath_eq_iff.mpr ?_
  cases answerDataPath_eq_iff.mp drafted with
  | badIndex indexed => exact .badIndex indexed
  | unavailable indexed asked => exact .unavailable indexed asked
  | fallback _ _ _ _ fellBack =>
      rw [h _ (List.mem_singleton_self _)] at fellBack
      cases fellBack
  | value indexed asked found => exact .value indexed asked found

theorem answerSelection_withFallbacks (written : Text) (ref : QueryRef) (index : Nat) :
    AgreesOn Draft.NoFallback
      (answerSelection (env.withFallbacks custom standard) written ref index)
      (answerSelection (env.withFallbacks custom' standard') written ref index) := by
  intro expression h
  generalize drafted :
    answerSelection (env.withFallbacks custom standard) written ref index expression = d at h ⊢
  refine answerSelection_eq_iff.mpr ?_
  cases answerSelection_eq_iff.mp drafted with
  | unavailable asked => exact .unavailable asked
  | missingDocument _ => cases h _ (List.mem_singleton_self _)
  | badPath asked picked => exact .badPath asked picked
  | missingValue _ _ _ => cases h _ (List.mem_singleton_self _)
  | value asked picked real => exact .value asked picked real

end Answers

/-! ## Environments -/

theorem simulates_withFallbacks (env : Environment) (custom custom' : Option Text)
    (standard standard' : Text) :
    Simulates Draft.NoFallback (env.withFallbacks custom standard)
      (env.withFallbacks custom' standard') where
  hereditary := Draft.noFallback_hereditary
  selection := answerSelection_withFallbacks env custom custom' standard standard'
  expression := .refl _
  repetition := fun _ _ _ _ agree => agree.repeated Draft.noFallback_hereditary _ _

/-- Two environments that differ in their fallback texts. -/
def FallbacksApart (env env' : Environment) : Prop :=
  ∃ (inner : Environment) (custom custom' : Option Text) (standard standard' : Text),
    env = inner.withFallbacks custom standard ∧ env' = inner.withFallbacks custom' standard'

theorem fallbacksApart_inward : Inward FallbacksApart where
  segments := by
    rintro _ _ ⟨inner, custom, custom', standard, standard', rfl, rfl⟩
    rfl
  dataOnly := by
    rintro _ _ ⟨inner, custom, custom', standard, standard', rfl, rfl⟩
    exact ⟨inner.dataOnly, custom, custom', standard, standard', rfl, rfl⟩
  full := by
    rintro _ _ ⟨inner, custom, custom', standard, standard', rfl, rfl⟩
    exact ⟨inner.full, none, none, standard, standard', rfl, rfl⟩

/-- Drafts without a fallback agree. -/
theorem FallbacksApart.agreesOn_draft {env env' : Environment} (apart : FallbacksApart env env')
    (p : Pipeline) :
    AgreesOn Draft.NoFallback (fun t => p.draft env t) (fun t => p.draft env' t) := by
  refine fallbacksApart_inward.agreesOn_draft Draft.noFallback_hereditary ?_ ?_ apart p
  · rintro _ _ ⟨inner, custom, custom', standard, standard', rfl, rfl⟩
    exact .fill Draft.noFallback_hereditary DataPathRef.read?
      (answerDataPath_withFallbacks inner custom custom' standard standard')
  · rintro _ _ ⟨inner, custom, custom', standard, standard', rfl, rfl⟩
    exact (simulates_withFallbacks inner custom custom' standard standard').agreesOn_resolveQueries

/-! ## Reports -/

/-- When no fallback is counted, none was noted. -/
theorem noFallback_of_fellBackCount {p : Pipeline} {env : Environment} {t : Text}
    (none : (p.run env t).fellBackCount = 0) : (p.draft env t).NoFallback := by
  intro note noted
  obtain ⟨d, recorded, repeats⟩ :=
    Ledger.exists_repeats_of_mem_ofNotes (fun _ _ => ()) () noted
  rw [← (Diagnostic.repeats_iff.mp repeats).1]
  exact Bool.eq_false_iff.mpr (List.countP_eq_zero.mp none d recorded)

/-- A resolution that counts no fallback is the same under any other fallback
texts. -/
theorem run_withFallbacks (env : Environment) (custom custom' : Option Text)
    (standard standard' : Text) (p : Pipeline) (t : Text)
    (none : (p.run (env.withFallbacks custom standard) t).fellBackCount = 0) :
    p.run (env.withFallbacks custom' standard') t =
      p.run (env.withFallbacks custom standard) t := by
  have apart : FallbacksApart (env.withFallbacks custom standard)
      (env.withFallbacks custom' standard') :=
    ⟨env, custom, custom', standard, standard', rfl, rfl⟩
  have same := apart.agreesOn_draft p (noFallback_of_fellBackCount none)
  simp only [Pipeline.run, Pipeline.watch] at same ⊢
  rw [same]

/-- A data path with a fallback that is not needed, beside a query that is
refused. -/
theorem run_withFallbacks_unused :
    let env : Environment :=
      ⟨Documents.source [(0, .obj [(['a'], .str ['x'])])], none, none, .standard⟩
    let quoted (key : Text) : QuotedKey := ⟨[], '"', key, '"', []⟩
    let path := DataPathRef.write ['0'] [quoted ['a']] (some (quoted ['f']))
    let broken := QueryRef.write '\'' '\'' ⟨['0'], ['b'], some ['g']⟩
    let t := path ++ broken
    let first := Pipeline.dataOnly.run (env.withFallbacks (some ['c']) []) t
    first.text = 'x' :: broken ∧ first.fellBackCount = 0 ∧
      Pipeline.dataOnly.run (env.withFallbacks none ['d']) t = first := by
  intro env quoted path broken t first
  have text : first.text = 'x' :: broken := by decide +kernel
  have none : first.fellBackCount = 0 := by decide +kernel
  exact ⟨text, none, run_withFallbacks env (some ['c']) Option.none [] ['d'] .dataOnly t none⟩

end Templating
