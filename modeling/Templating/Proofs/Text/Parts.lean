import Templating.Text.Basic

/-!
# Texts made of parts

Two texts are made part by part, each part of one in the place of a part of the other.
What is known of the two as a whole goes down to the parts.

If a measure of texts adds up, and no part measures more than its counterpart, then the
whole texts measure the same only if the parts do (`measure_eq_of_flatMap`).  If no part is
shorter, the texts are the same only if the parts are (`eq_of_flatMap_eq`).

In general one text may fall behind the other and get ahead of it.  If they end level and
some part is not the same, then one part contains its counterpart and more
(`exists_longer_of_flatMap`).
-/

namespace Templating.Text

variable {α : Type} {f g : α → Text}

/-! ## Measures -/

section Measure

variable {measure : Text → Nat}

/-- Parts that measure no more measure no more together. -/
theorem measure_flatMap_le (additive : ∀ s t, measure (s ++ t) = measure s + measure t) :
    ∀ {parts : List α}, (∀ a ∈ parts, measure (f a) ≤ measure (g a)) →
      measure (parts.flatMap f) ≤ measure (parts.flatMap g)
  | [], _ => Nat.le_refl _
  | a :: parts, le => by
      obtain ⟨first, others⟩ := List.forall_mem_cons.mp le
      rw [List.flatMap_cons, List.flatMap_cons, additive, additive]
      exact Nat.add_le_add first (measure_flatMap_le additive others)

/-- If they measure the same together, each measures the same. -/
theorem measure_eq_of_flatMap (additive : ∀ s t, measure (s ++ t) = measure s + measure t) :
    ∀ {parts : List α}, (∀ a ∈ parts, measure (f a) ≤ measure (g a)) →
      measure (parts.flatMap f) = measure (parts.flatMap g) →
        ∀ a ∈ parts, measure (f a) = measure (g a)
  | [], _, _ => List.forall_mem_nil _
  | a :: parts, le, same => by
      obtain ⟨first, others⟩ := List.forall_mem_cons.mp le
      have rest := measure_flatMap_le additive others
      rw [List.flatMap_cons, List.flatMap_cons, additive, additive] at same
      refine List.forall_mem_cons.mpr ⟨by omega, ?_⟩
      exact measure_eq_of_flatMap additive others (by omega)

end Measure

/-! ## The same text -/

/-- Parts as long as their counterparts are the same if the texts are. -/
theorem eq_of_flatMap_of_lengths :
    ∀ {parts : List α}, (∀ a ∈ parts, (f a).length = (g a).length) →
      parts.flatMap f = parts.flatMap g → ∀ a ∈ parts, f a = g a
  | [], _, _ => List.forall_mem_nil _
  | a :: parts, lengths, same => by
      obtain ⟨first, others⟩ := List.forall_mem_cons.mp lengths
      rw [List.flatMap_cons, List.flatMap_cons] at same
      obtain ⟨head, tail⟩ := List.append_inj same first
      exact List.forall_mem_cons.mpr ⟨head, eq_of_flatMap_of_lengths others tail⟩

/-- If the texts are the same and no part is longer, each part is the same. -/
theorem eq_of_flatMap_eq {parts : List α} (atMost : ∀ a ∈ parts, (f a).length ≤ (g a).length)
    (same : parts.flatMap f = parts.flatMap g) : ∀ a ∈ parts, f a = g a := by
  have lengths := measure_eq_of_flatMap (fun _ _ => List.length_append) atMost
    (congrArg List.length same)
  exact eq_of_flatMap_of_lengths lengths same

/-- If the texts are the same after a lag, and there is a lag or a part is not the same,
then one part contains its counterpart and more.  The induction is on the parts.  The lag
is what the second text is ahead of the first, and as long as no part contains its
counterpart and more there is one behind every part, from the first that is not the
same. -/
theorem exists_longer_of_flatMap :
    ∀ {parts : List α} {lag : Text}, parts.flatMap f = lag ++ parts.flatMap g →
      lag ≠ [] ∨ (∃ a ∈ parts, f a ≠ g a) → ∃ a ∈ parts, g a <:+: f a ∧ f a ≠ g a
  | [], lag, same, start => by
      have level : lag = [] := by simpa using same.symm
      rcases start with lags | ⟨a, member, -⟩
      · exact absurd level lags
      · cases member
  | a :: parts, lag, same, start => by
      rw [List.flatMap_cons, List.flatMap_cons, ← List.append_assoc] at same
      have further (lag' : Text) (behind : parts.flatMap f = lag' ++ parts.flatMap g)
          (start' : lag' ≠ [] ∨ ∃ b ∈ parts, f b ≠ g b) :
          ∃ b ∈ a :: parts, g b <:+: f b ∧ f b ≠ g b := by
        obtain ⟨b, member, longer⟩ := exists_longer_of_flatMap behind start'
        exact ⟨b, List.mem_cons_of_mem a member, longer⟩
      by_cases level : lag = [] ∧ f a = g a
      · obtain ⟨rfl, here⟩ := level
        obtain ⟨b, member, apart⟩ := start.resolve_left (fun lags => lags rfl)
        have other : b ≠ a := by
          rintro rfl
          exact apart here
        rw [here, List.nil_append] at same
        refine further [] (List.append_cancel_left same) (Or.inr ⟨b, ?_, apart⟩)
        exact (List.mem_cons.mp member).resolve_left other
      · have covering (lead : Text) (covers : f a = lag ++ g a ++ lead) :
            ∃ b ∈ a :: parts, g b <:+: f b ∧ f b ≠ g b := by
          refine ⟨a, List.mem_cons_self, ⟨lag, lead, covers.symm⟩, fun here => ?_⟩
          have lengths := congrArg List.length (covers.symm.trans here)
          simp only [List.length_append] at lengths
          exact level ⟨List.eq_nil_of_length_eq_zero (by omega), here⟩
        rcases List.append_eq_append_iff.mp same with ⟨lag', ahead, behind⟩ | ⟨lead, covers, -⟩
        · cases lag' with
          | nil => exact covering [] (by rw [List.append_nil, ahead, List.append_nil])
          | cons c lag' => exact further (c :: lag') behind (Or.inl (List.cons_ne_nil c lag'))
        · exact covering lead covers

end Templating.Text
