import Templating.Text.Repeat

/-!
# Sequences

A *sequence* is a text made of parts, one after the other, each of which stands
for a value.  What `many` reads is a sequence of what its reader reads, and a
sequence is read back part by part.

`many_eq_ok` and `many_of_sequence` are the two directions.  Where a reader fails
behind some parts, the repetition fails there (`many_eq_error`).
-/

namespace Templating.Text

variable {ε α : Type} {part : Text → α → Prop}

/-- A text made of parts that stand for the values of a list. -/
inductive Sequence (part : Text → α → Prop) : Text → List α → Prop where
  /-- No part. -/
  | nil : Sequence part [] []
  /-- One part more, in front. -/
  | cons {w v : Text} {a : α} {as : List α} :
      part w a → Sequence part v as → Sequence part (w ++ v) (a :: as)

namespace Sequence

theorem singleton {w : Text} {a : α} (h : part w a) : Sequence part w [a] := by
  have one := Sequence.cons h .nil
  rwa [List.append_nil] at one

theorem append {w v : Text} {as bs : List α} (left : Sequence part w as)
    (right : Sequence part v bs) : Sequence part (w ++ v) (as ++ bs) := by
  induction left with
  | nil => exact right
  | cons first _ ih =>
      rw [List.append_assoc]
      exact .cons first ih

theorem flatMap {β : Type} {write : β → Text} {value : β → α} :
    ∀ {items : List β}, (∀ b ∈ items, part (write b) (value b)) →
      Sequence part (items.flatMap write) (items.map value)
  | [], _ => .nil
  | b :: items, h => by
      rw [List.flatMap_cons, List.map_cons]
      refine .cons (h b List.mem_cons_self) (flatMap fun c later => ?_)
      exact h c (List.mem_cons_of_mem b later)

/-- A property of the value of every part. -/
theorem forall_mem {P : α → Prop} (each : ∀ ⦃w a⦄, part w a → P a) {w : Text} {as : List α}
    (h : Sequence part w as) : ∀ a ∈ as, P a := by
  induction h with
  | nil =>
      intro a member
      cases member
  | cons first _ ih =>
      intro a member
      rcases List.mem_cons.mp member with same | later
      · exact same ▸ each first
      · exact ih a later

end Sequence

/-! ## Reading -/

variable {item : Text → Except ε (Option (α × Text))}

/-- A sequence is read back when what follows it ends the repetition.  Each part
is read as such before a text that fits, which every part and the text behind
the sequence have to be the beginning of. -/
theorem many_of_sequence {fits : Text → Prop}
    (reads : ∀ ⦃w a u⦄, part w a → fits u → item (w ++ u) = .ok (some (a, u)))
    (nonempty : ∀ ⦃w a⦄, part w a → w ≠ []) (begins : ∀ ⦃w a⦄ u, part w a → fits (w ++ u))
    {w u : Text} {as : List α} (h : Sequence part w as) (behind : fits u)
    (ends : u = [] ∨ item u = .ok none) :
    many item (w ++ u) = .ok (as, u) ∧ fits (w ++ u) := by
  induction h with
  | nil =>
      refine ⟨?_, behind⟩
      cases u with
      | nil => rfl
      | cons c u =>
          have declined : item (c :: u) = .ok none := ends.resolve_left (List.cons_ne_nil c u)
          simp only [List.nil_append, many, manyFrom, declined]
  | cons first _ ih =>
      rename_i w v a as _
      refine ⟨?_, List.append_assoc w v u ▸ begins (v ++ u) first⟩
      obtain ⟨c, covered, rfl⟩ := List.exists_cons_of_ne_nil (nonempty first)
      have read : item (c :: (covered ++ (v ++ u))) = .ok (some (a, v ++ u)) := reads first ih.2
      rw [List.append_assoc, List.cons_append, many_cons read, ih.1]
      rfl

/-- A repetition ends at once, or reads a part and goes on behind it. -/
theorem many_step
    (forward : ∀ ⦃t a rest⦄, item t = .ok (some (a, rest)) → ∃ w, w ≠ [] ∧ t = w ++ rest)
    {t behind : Text} {as : List α} (h : many item t = .ok (as, behind)) :
    as = [] ∧ t = behind ∧ (behind = [] ∨ item behind = .ok none) ∨
      ∃ a rest as', item t = .ok (some (a, rest)) ∧ many item rest = .ok (as', behind) ∧
        as = a :: as' := by
  cases t with
  | nil =>
      cases h
      exact Or.inl ⟨rfl, rfl, Or.inl rfl⟩
  | cons c t =>
      cases read : item (c :: t) with
      | error e =>
          simp only [many, manyFrom, read] at h
          cases h
      | ok taken =>
          cases taken with
          | none =>
              simp only [many, manyFrom, read] at h
              cases h
              exact Or.inl ⟨rfl, rfl, Or.inr read⟩
          | some taken =>
              obtain ⟨a, rest⟩ := taken
              obtain ⟨w, nonempty, split⟩ := forward read
              obtain ⟨d, covered, rfl⟩ := List.exists_cons_of_ne_nil nonempty
              rw [List.cons_append] at split
              obtain ⟨rfl, rfl⟩ := List.cons.inj split
              rw [many_cons read] at h
              cases later : many item rest with
              | error e =>
                  rw [later] at h
                  cases h
              | ok others =>
                  rw [later] at h
                  cases h
                  exact Or.inr ⟨a, rest, _, rfl, later, rfl⟩

/-- What a repetition reads is a sequence, and it ends where its reader
declines. -/
theorem many_eq_ok
    (sound : ∀ ⦃t a rest⦄, item t = .ok (some (a, rest)) → ∃ w, t = w ++ rest ∧ part w a)
    (nonempty : ∀ ⦃w a⦄, part w a → w ≠ []) {t behind : Text} {as : List α}
    (h : many item t = .ok (as, behind)) :
    ∃ w, t = w ++ behind ∧ Sequence part w as ∧ (behind = [] ∨ item behind = .ok none) := by
  induction hn : t.length using Nat.strongRecOn generalizing t as with
  | ind n ih =>
      subst hn
      have forward {t rest : Text} {a : α} (read : item t = .ok (some (a, rest))) :
          ∃ w, w ≠ [] ∧ t = w ++ rest := by
        obtain ⟨w, split, first⟩ := sound read
        exact ⟨w, nonempty first, split⟩
      rcases many_step (fun _ _ _ => forward) h with
        ⟨rfl, rfl, ends⟩ | ⟨a, rest, as', read, later, rfl⟩
      · exact ⟨[], rfl, .nil, ends⟩
      · obtain ⟨w, rfl, first⟩ := sound read
        have shorter : rest.length < (w ++ rest).length := by
          have positive := List.length_pos_iff.mpr (nonempty first)
          rw [List.length_append]
          omega
        obtain ⟨v, split, parts, ends⟩ := ih rest.length shorter later rfl
        refine ⟨w ++ v, ?_, .cons first parts, ends⟩
        rw [List.append_assoc, ← split]

/-- A repetition fails where its reader does, behind a sequence. -/
theorem many_eq_error
    (sound : ∀ ⦃t a rest⦄, item t = .ok (some (a, rest)) → ∃ w, t = w ++ rest ∧ part w a)
    (nonempty : ∀ ⦃w a⦄, part w a → w ≠ []) {t : Text} {e : ε} (h : many item t = .error e) :
    ∃ w u as, t = w ++ u ∧ Sequence part w as ∧ item u = .error e := by
  induction hn : t.length using Nat.strongRecOn generalizing t with
  | ind n ih =>
      subst hn
      cases t with
      | nil => cases h
      | cons c t =>
          cases read : item (c :: t) with
          | error e' =>
              simp only [many, manyFrom, read] at h
              cases h
              exact ⟨[], c :: t, [], rfl, .nil, read⟩
          | ok taken =>
              cases taken with
              | none =>
                  simp only [many, manyFrom, read] at h
                  cases h
              | some taken =>
                  obtain ⟨a, rest⟩ := taken
                  obtain ⟨w, split, first⟩ := sound read
                  obtain ⟨d, covered, rfl⟩ := List.exists_cons_of_ne_nil (nonempty first)
                  rw [List.cons_append] at split
                  obtain ⟨rfl, rfl⟩ := List.cons.inj split
                  rw [many_cons read] at h
                  cases later : many item rest with
                  | ok others =>
                      rw [later] at h
                      cases h
                  | error e' =>
                      rw [later] at h
                      cases h
                      have shorter : rest.length < (c :: (covered ++ rest)).length := by
                        simp only [List.length_cons, List.length_append]
                        omega
                      obtain ⟨v, u, as, rfl, parts, failed⟩ := ih rest.length shorter later rfl
                      refine ⟨c :: covered ++ v, u, a :: as, ?_, .cons first parts, failed⟩
                      simp only [List.cons_append, List.append_assoc]

/-- A repetition without failures is a repetition. -/
theorem many_eq_manyOf (item : Text → Option (α × Text)) (t : Text) :
    (many (fun t => .ok (item t)) t : Except Empty (List α × Text)) = .ok (manyOf item t) := by
  rw [manyOf]
  split
  next parts read => exact read

theorem manyOf_of_none {item : Text → Option (α × Text)} {t : Text} (declined : item t = none) :
    manyOf item t = ([], t) := by
  cases t with
  | nil => rfl
  | cons c t => simp only [manyOf, many, manyFrom, declined]

theorem manyOf_of_some {item : Text → Option (α × Text)} {w rest : Text} {a : α}
    (nonempty : w ≠ []) (read : item (w ++ rest) = some (a, rest)) :
    manyOf item (w ++ rest) = (a :: (manyOf item rest).1, (manyOf item rest).2) := by
  obtain ⟨c, covered, rfl⟩ := List.exists_cons_of_ne_nil nonempty
  let reader (t : Text) : Except Empty (Option (α × Text)) := .ok (item t)
  have behind : many reader (c :: (covered ++ rest)) = _ := many_cons (congrArg Except.ok read)
  rw [many_eq_manyOf, many_eq_manyOf] at behind
  exact Except.ok.inj behind

end Templating.Text
