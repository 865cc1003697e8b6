import Templating.Report.Resolution

/-!
# What is recorded

Recording drops a note that repeats a recorded one.  So every recorded note was
taken, and every note taken is recorded or repeats a recorded one.  In other
words, the pairs of a kind and a placeholder that are recorded are those of the
notes.

No pair is recorded twice, and an observer sees what is recorded and nothing else
(`Ledger.Faithful`).  What is recorded does not depend on who observes it.
-/

namespace Templating

theorem Diagnostic.repeats_iff {d e : Diagnostic} :
    d.repeats e = true ↔ d.kind = e.kind ∧ d.placeholder = e.placeholder := by
  simp [Diagnostic.repeats]

/-- What the recorded notes are told apart by. -/
def Diagnostic.subject (d : Diagnostic) : DiagnosticKind × Text := (d.kind, d.placeholder)

theorem Diagnostic.repeats_iff_subject {d e : Diagnostic} :
    d.repeats e = true ↔ d.subject = e.subject := by
  rw [repeats_iff, subject, subject, Prod.mk.injEq]

theorem Diagnostic.repeats_self (d : Diagnostic) : d.repeats d = true :=
  Diagnostic.repeats_iff.mpr ⟨rfl, rfl⟩

namespace Ledger

variable {σ : Type} (observe : σ → Diagnostic → σ)

/-! ## One note -/

theorem mem_record_of_mem {ledger : Ledger σ} {d : Diagnostic} (note : Diagnostic)
    (h : d ∈ ledger.recorded) : d ∈ (record observe ledger note).recorded := by
  rw [record]
  split
  · exact h
  · exact List.mem_append_left _ h

theorem eq_or_mem_of_mem_record {ledger : Ledger σ} {d note : Diagnostic}
    (h : d ∈ (record observe ledger note).recorded) : d = note ∨ d ∈ ledger.recorded := by
  rw [record] at h
  split at h
  · exact Or.inr h
  · rcases List.mem_append.mp h with old | new
    · exact Or.inr old
    · exact Or.inl (List.mem_singleton.mp new)

/-- The note just taken is recorded, or repeats what is. -/
theorem exists_repeats_of_record (ledger : Ledger σ) (note : Diagnostic) :
    ∃ d ∈ (record observe ledger note).recorded, d.repeats note = true := by
  rw [record]
  split
  next known =>
    obtain ⟨d, old, same⟩ := List.any_eq_true.mp known
    exact ⟨d, old, same⟩
  next => exact ⟨note, List.mem_append_right _ (List.mem_singleton_self note), note.repeats_self⟩

/-! ## Many notes -/

theorem mem_foldl_of_mem {d : Diagnostic} : ∀ (notes : List Diagnostic) {ledger : Ledger σ},
    d ∈ ledger.recorded → d ∈ (notes.foldl (record observe) ledger).recorded
  | [], _, h => h
  | note :: notes, _, h => mem_foldl_of_mem notes (mem_record_of_mem observe note h)

theorem mem_or_mem_of_mem_foldl {d : Diagnostic} :
    ∀ (notes : List Diagnostic) {ledger : Ledger σ},
      d ∈ (notes.foldl (record observe) ledger).recorded → d ∈ notes ∨ d ∈ ledger.recorded
  | [], _, h => Or.inr h
  | note :: notes, ledger, h => by
      rcases mem_or_mem_of_mem_foldl notes h with later | before
      · exact Or.inl (List.mem_cons_of_mem note later)
      · rcases eq_or_mem_of_mem_record observe before with same | old
        · exact Or.inl (same ▸ List.mem_cons_self)
        · exact Or.inr old

theorem exists_repeats_of_mem_foldl {note : Diagnostic} :
    ∀ {notes : List Diagnostic} (ledger : Ledger σ), note ∈ notes →
      ∃ d ∈ (notes.foldl (record observe) ledger).recorded, d.repeats note = true
  | first :: notes, ledger, h => by
      rcases List.mem_cons.mp h with same | later
      · obtain ⟨d, recorded, repeats⟩ := exists_repeats_of_record observe ledger first
        exact ⟨d, mem_foldl_of_mem observe notes recorded, same ▸ repeats⟩
      · exact exists_repeats_of_mem_foldl (record observe ledger first) later

/-- What is recorded was noted. -/
theorem mem_of_mem_ofNotes {observer : σ} {notes : List Diagnostic} {d : Diagnostic}
    (h : d ∈ (ofNotes observe observer notes).recorded) : d ∈ notes := by
  rcases mem_or_mem_of_mem_foldl observe notes h with noted | before
  · exact noted
  · cases before

/-- What is noted is recorded, or repeats what is. -/
theorem exists_repeats_of_mem_ofNotes {notes : List Diagnostic} {note : Diagnostic} (observer : σ)
    (h : note ∈ notes) :
    ∃ d ∈ (ofNotes observe observer notes).recorded, d.repeats note = true :=
  exists_repeats_of_mem_foldl observe ⟨[], observer⟩ h

/-- Nothing is recorded just when nothing is noted. -/
theorem recorded_ofNotes_eq_nil {observer : σ} {notes : List Diagnostic} :
    (ofNotes observe observer notes).recorded = [] ↔ notes = [] := by
  constructor
  · intro none
    refine List.eq_nil_iff_forall_not_mem.mpr fun note noted => ?_
    obtain ⟨d, recorded, -⟩ := exists_repeats_of_mem_ofNotes observe observer noted
    rw [none] at recorded
    cases recorded
  · rintro rfl
    rfl

/-! ## Faithful ledgers -/

/-- What holds of a ledger at all times, for an observer that began in a given
state. -/
structure Faithful (observer : σ) (ledger : Ledger σ) : Prop where
  /-- No kind and placeholder is recorded twice. -/
  distinct : (ledger.recorded.map Diagnostic.subject).Nodup
  /-- The observer has seen what is recorded, in that order. -/
  observed : ledger.observer = ledger.recorded.foldl observe observer

variable {observe}

theorem Faithful.record {observer : σ} {ledger : Ledger σ}
    (faithful : ledger.Faithful observe observer) (note : Diagnostic) :
    (ledger.record observe note).Faithful observe observer := by
  rw [Ledger.record]
  split
  next known => exact faithful
  next new =>
    refine ⟨?_, ?_⟩
    · have other : note.subject ∉ ledger.recorded.map Diagnostic.subject := by
        intro member
        obtain ⟨d, old, same⟩ := List.mem_map.mp member
        exact new (List.any_eq_true.mpr ⟨d, old, Diagnostic.repeats_iff_subject.mpr same⟩)
      rw [List.map_append]
      refine List.nodup_append.mpr ⟨faithful.distinct, List.pairwise_singleton _ _, ?_⟩
      intro subject old last single same
      rw [same, List.mem_singleton.mp single] at old
      exact other old
    · simp only [List.foldl_append, List.foldl_cons, List.foldl_nil, ← faithful.observed]

theorem Faithful.foldl {observer : σ} {ledger : Ledger σ}
    (faithful : ledger.Faithful observe observer) (notes : List Diagnostic) :
    (notes.foldl (Ledger.record observe) ledger).Faithful observe observer := by
  induction notes generalizing ledger with
  | nil => exact faithful
  | cons note notes ih => exact ih (faithful.record note)

variable (observe)

theorem faithful_ofNotes (observer : σ) (notes : List Diagnostic) :
    (ofNotes observe observer notes).Faithful observe observer := by
  have start : Faithful observe observer ⟨[], observer⟩ := ⟨List.nodup_nil, rfl⟩
  exact start.foldl notes

/-- Two ledgers that record the same go on to record the same, whoever observes. -/
theorem recorded_foldl_eq {τ : Type} (observe' : τ → Diagnostic → τ) (notes : List Diagnostic)
    {ledger : Ledger σ} {ledger' : Ledger τ} (same : ledger.recorded = ledger'.recorded) :
    (notes.foldl (record observe) ledger).recorded =
      (notes.foldl (record observe') ledger').recorded := by
  induction notes generalizing ledger ledger' with
  | nil => exact same
  | cons note notes ih =>
      refine ih ?_
      simp only [record, same]
      split
      next => exact same
      next => rfl

/-- What is recorded does not depend on who observes it. -/
theorem recorded_ofNotes_eq {τ : Type} (observe' : τ → Diagnostic → τ) (observer : σ)
    (observer' : τ) (notes : List Diagnostic) :
    (ofNotes observe observer notes).recorded = (ofNotes observe' observer' notes).recorded :=
  recorded_foldl_eq observe observe' notes rfl

end Ledger

end Templating
