import Templating.Path.Select
import Templating.Proofs.Path.Canonical

/-!
# Slices

The bounds of a slice may lie anywhere among the integers of 64 bits.  They are moved into the array
before anything is picked, so a slice always lies inside it (`sliceBounds`), and the sum of a length
and a negative bound needs no more than the 64 bits that both have (`fromEnd_word`).

A slice is then what stands at the positions between its bounds (`sliceOf_eq_filter`).  So two slices
with a common bound are side by side, and one position is the slice up to the next
(`toList_elementAt?_eq_sliceOf`).  The position before the end is an exception, because the next
is written `0` and counts from the front.

`query_slices` says all of this of expressions.
-/

namespace Templating

/-! ## Bounds -/

/-- The positions between which a slice lies.  The second is not before the first. -/
def sliceBounds (length : Nat) (start stop : Option Int) : Nat × Nat :=
  let low := (start.map (sliceBound length)).getD 0
  let high := (stop.map (sliceBound length)).getD length
  (low, max low high)

theorem sliceBound_le (length : Nat) (n : Int) : sliceBound length n ≤ length :=
  Nat.min_le_right _ _

theorem sliceBounds_le (length : Nat) (start stop : Option Int) :
    (sliceBounds length start stop).1 ≤ (sliceBounds length start stop).2 ∧
      (sliceBounds length start stop).2 ≤ length := by
  have low : (start.map (sliceBound length)).getD 0 ≤ length := by
    cases start with
    | none => exact Nat.zero_le length
    | some n => exact sliceBound_le length n
  have high : (stop.map (sliceBound length)).getD length ≤ length := by
    cases stop with
    | none => exact Nat.le_refl length
    | some n => exact sliceBound_le length n
  exact ⟨Nat.le_max_left _ _, Nat.max_le.mpr ⟨low, high⟩⟩

/-- A slice is the part of an array between its bounds. -/
theorem sliceOf_eq_extract (items : List Value) (start stop : Option Int) :
    sliceOf items start stop =
      items.extract (sliceBounds items.length start stop).1
        (sliceBounds items.length start stop).2 := by
  simp only [sliceOf, sliceBounds, List.extract_eq_take_drop, List.drop_take]
  congr 1
  omega

/-- A bound that counts from the end is reached by an addition of 64 bits, for every array that
has a length of 64 bits with a sign.  Nothing wraps around. -/
theorem fromEnd_word {length : Nat} (fits : length ≤ Int64.maxValue.toInt) (n : Int64) :
    (if n < 0 then Int64.ofNat length + n else n).toInt = fromEnd length n.toInt := by
  have negative : n < 0 ↔ n.toInt < 0 := Int64.lt_iff_toInt_lt
  have least := Int64.le_toInt n
  have most := Int64.toInt_maxValue_add_one
  simp only [fromEnd, negative]
  split
  next below =>
    rw [Int64.toInt_add, Int64.toInt_ofNat_of_lt (by omega)]
    exact Int.bmod_eq_of_le_mul_two (by omega) (by omega)
  next => rfl

/-! ## Positions -/

/-- What stands at positions from one on up to another. -/
theorem filter_zipIdx_eq {α : Type} (items : List α) (low high : Nat) :
    ∀ first : Nat,
      ((items.zipIdx first).filter fun item => low ≤ item.2 && item.2 < high).map Prod.fst =
        (items.take (high - first)).drop (low - first) := by
  induction items with
  | nil => simp
  | cons a items ih =>
      intro first
      rw [List.zipIdx_cons, List.filter_cons]
      by_cases inside : first < high
      · obtain ⟨more, further⟩ : ∃ more, high - first = more + 1 ∧ high - (first + 1) = more :=
          ⟨high - (first + 1), by omega, rfl⟩
        by_cases reached : low ≤ first
        · have here : low - first = 0 ∧ low - (first + 1) = 0 := by omega
          simp [inside, reached, ih, further, here]
        · obtain ⟨skip, before⟩ : ∃ skip, low - first = skip + 1 ∧ low - (first + 1) = skip :=
            ⟨low - (first + 1), by omega, rfl⟩
          simp [reached, ih, further, before]
      · have behind : high - first = 0 ∧ high - (first + 1) = 0 := by omega
        simp [inside, ih, behind]

/-- A bound moved into the range of an array. -/
def clampedBound (length : Nat) (n : Int) : Int :=
  max 0 (min length (if n < 0 then length + n else n))

theorem sliceBound_eq_clamped (length : Nat) (n : Int) :
    (sliceBound length n : Int) = clampedBound length n := by
  simp only [sliceBound, fromEnd, clampedBound]
  omega

/-- A slice picks what stands at the positions from its first bound on up to its second. -/
theorem sliceOf_eq_filter (items : List Value) (start stop : Int) :
    sliceOf items (some start) (some stop) =
      (items.zipIdx.filter fun item =>
        clampedBound items.length start ≤ item.2 ∧ item.2 < clampedBound items.length stop).map
          Prod.fst := by
  have positions := filter_zipIdx_eq items (sliceBound items.length start)
    (sliceBound items.length stop) 0
  rw [Nat.sub_zero, Nat.sub_zero] at positions
  simp only [← sliceBound_eq_clamped, Int.ofNat_le, Int.ofNat_lt]
  simpa [sliceOf] using positions.symm

/-! ## Slices side by side -/

theorem sliceOf_append (items : List Value) (n : Int) :
    sliceOf items none (some n) ++ sliceOf items (some n) none = items := by
  simp [sliceOf]

/-! ## Single positions -/

/-- The element at a position is the part up to the next. -/
theorem toList_elementAt? (items : List Value) (n : Int) :
    (elementAt? items n).toList =
      (items.take (fromEnd items.length n + 1).toNat).drop (fromEnd items.length n).toNat := by
  simp only [elementAt?]
  split
  next before =>
    rw [Int.toNat_of_nonpos (by omega : fromEnd items.length n + 1 ≤ 0), List.take_zero,
      List.drop_nil, Option.toList_none]
  next reached =>
    have next : (fromEnd items.length n + 1).toNat = (fromEnd items.length n).toNat + 1 := by omega
    rw [next, List.drop_take, Nat.add_sub_cancel_left, List.take_one, List.head?_drop]

/-- Nothing is left behind the end of a list, however far behind. -/
theorem drop_min {α : Type} {items : List α} {bound : Nat} (within : items.length ≤ bound)
    (n : Nat) : items.drop (min n bound) = items.drop n := by
  by_cases inside : n ≤ bound
  · rw [Nat.min_eq_left inside]
  · have beyond : bound ≤ n := Nat.le_of_not_le inside
    rw [Nat.min_eq_right beyond, List.drop_eq_nil_of_le within,
      List.drop_eq_nil_of_le (Nat.le_trans within beyond)]

/-- A position is the slice up to the next, unless that is counted from the front again. -/
theorem toList_elementAt?_eq_sliceOf (items : List Value) {n : Int} (inner : n ≠ -1) :
    (elementAt? items n).toList = sliceOf items (some n) (some (n + 1)) := by
  have next : fromEnd items.length (n + 1) = fromEnd items.length n + 1 := by
    simp only [fromEnd]
    omega
  simp only [sliceOf, sliceBound, Option.map_some, Option.getD_some]
  rw [toList_elementAt?, next, drop_min (List.length_take_le' _ _), ← List.take_eq_take_min]

/-- The last element is the slice from it on. -/
theorem toList_elementAt?_last (items : List Value) :
    (elementAt? items (-1)).toList = sliceOf items (some (-1)) none := by
  have last : (fromEnd items.length (-1) + 1).toNat = items.length := by
    simp only [fromEnd]
    omega
  simp only [sliceOf, sliceBound, Option.map_some, Option.map_none, Option.getD_some,
    Option.getD_none]
  rw [toList_elementAt?, last, drop_min (List.length_take_le' _ _)]

/-! ## Expressions -/

namespace Path

/-- An expression in one bracket picks what its selector picks. -/
theorem query_bracketed {s : Selector} (h : s.WellFormed) (root : Value) :
    query root s.bracketed = .ok (s.pick root) := by
  have read : parse s.bracketed = .ok [.child s] := parse_write_segment (s := .child s) .canonical h
  rw [query, read]
  simp [Except.map, select, selectFrom, Segment.pick]

theorem fitsSigned_iff {n : Int} :
    fitsSigned n = true ↔ Int64.minValue.toInt ≤ n ∧ n ≤ Int64.maxValue.toInt := by
  rw [fitsSigned, Bool.and_eq_true, decide_eq_true_iff, decide_eq_true_iff]
  exact and_congr_right fun _ => (Int.lt_add_one_iff : n < Int64.maxValue.toInt + 1 ↔ _)

theorem fitsSigned_toInt (n : Int64) : fitsSigned n.toInt = true :=
  fitsSigned_iff.mpr ⟨n.minValue_le_toInt, n.toInt_le⟩

theorem fitsSigned_next {n : Int64} (inner : n ≠ Int64.maxValue) :
    fitsSigned (n.toInt + 1) = true := by
  have least := n.minValue_le_toInt
  have most := n.toInt_le
  have apart : n.toInt ≠ Int64.maxValue.toInt := fun same => inner (Int64.toInt_inj.mp same)
  exact fitsSigned_iff.mpr (by omega)

theorem fitsSigned_map (n : Option Int64) : ∀ i ∈ n.map Int64.toInt, fitsSigned i = true := by
  intro i member
  obtain ⟨n, -, rfl⟩ := Option.map_eq_some_iff.mp member
  exact fitsSigned_toInt n

section Query

variable (items : List Value)

theorem query_slice {start stop : Option Int} (first : ∀ i ∈ start, fitsSigned i = true)
    (second : ∀ i ∈ stop, fitsSigned i = true) :
    query (.arr items) (Selector.slice start stop).bracketed = .ok (sliceOf items start stop) :=
  query_bracketed (s := .slice start stop) ⟨first, second⟩ (.arr items)

theorem query_index {n : Int} (fits : fitsSigned n = true) :
    query (.arr items) (Selector.step (.index n)).bracketed = .ok (elementAt? items n).toList :=
  query_bracketed (s := .step (.index n)) fits (.arr items)

theorem query_wildcard : query (.arr items) Selector.wildcard.bracketed = .ok items :=
  query_bracketed (s := .wildcard) trivial (.arr items)

end Query

/-- A slice lies inside its array.  Its bounds are found without overflow, by an addition of 64 bits
to the length, or to the largest number if that is less.  What is before a bound and what is behind
it is everything.  Between two bounds is what stands at the positions from one on up to the other.  A
position is the slice up to the next, and the last element is the slice from it on. -/
theorem query_slices (items : List Value) :
    let asked (s : Selector) := query (.arr items) s.bracketed
    (∀ start stop : Option Int64,
      let start := start.map Int64.toInt
      let stop := stop.map Int64.toInt
      let bounds := sliceBounds items.length start stop
      bounds.1 ≤ bounds.2 ∧ bounds.2 ≤ items.length ∧
        asked (.slice start stop) = .ok (items.extract bounds.1 bounds.2)) ∧
    (∀ n : Int64,
      let length := min items.length Int64.maxValue.toInt.toNat
      (if n < 0 then .ofNat length + n else n).toInt = fromEnd length n.toInt) ∧
    (∀ n : Int64, ∃ before behind, asked (.slice none (some n.toInt)) = .ok before ∧
      asked (.slice (some n.toInt) none) = .ok behind ∧ asked .wildcard = .ok (before ++ behind)) ∧
    (∀ start stop : Int64, asked (.slice (some start.toInt) (some stop.toInt)) =
      .ok ((items.zipIdx.filter fun item =>
        clampedBound items.length start.toInt ≤ item.2 ∧
          item.2 < clampedBound items.length stop.toInt).map Prod.fst)) ∧
    (∀ n : Int64, n ≠ -1 → n ≠ Int64.maxValue → ∃ picked,
      asked (.step (.index n.toInt)) = .ok picked ∧
        asked (.slice (some n.toInt) (some (n.toInt + 1))) = .ok picked) ∧
    ∃ picked, asked (.step (.index (-1))) = .ok picked ∧
      asked (.slice (some (-1)) none) = .ok picked := by
  intro asked
  have signed : 0 ≤ Int64.maxValue.toInt := by decide
  refine ⟨fun start stop => ?_, fun n => fromEnd_word (by omega) n, fun n => ?_,
    fun start stop => ?_, fun n inner apart => ?_, ?_⟩
  · obtain ⟨ordered, inside⟩ :=
      sliceBounds_le items.length (start.map Int64.toInt) (stop.map Int64.toInt)
    have picked := query_slice items (fitsSigned_map start) (fitsSigned_map stop)
    rw [sliceOf_eq_extract] at picked
    exact ⟨ordered, inside, picked⟩
  · refine ⟨_, _, query_slice items (fitsSigned_map none) (fitsSigned_map (some n)),
      query_slice items (fitsSigned_map (some n)) (fitsSigned_map none), ?_⟩
    exact (query_wildcard items).trans (congrArg Except.ok (sliceOf_append items n.toInt).symm)
  · rw [← sliceOf_eq_filter]
    exact query_slice items (fitsSigned_map (some start)) (fitsSigned_map (some stop))
  · have next : ∀ i ∈ some (n.toInt + 1), fitsSigned i = true := by
      rintro i ⟨⟩
      exact fitsSigned_next apart
    have before : n.toInt ≠ -1 := fun same => inner (Int64.toInt_inj.mp same)
    refine ⟨_, query_index items (fitsSigned_toInt n), ?_⟩
    rw [toList_elementAt?_eq_sliceOf items before]
    exact query_slice items (fitsSigned_map (some n)) next
  · refine ⟨_, query_index items (fitsSigned_toInt (-1)), ?_⟩
    rw [toList_elementAt?_last]
    exact query_slice items (fitsSigned_map (some (-1))) (fitsSigned_map none)

/-- The least position of 64 bits lies before three elements, and so does its slice.  The first of
them is also the third from the end. -/
theorem query_slices_least :
    let items : List Value := [.ofNat 7, .null, .ofNat 9]
    let least := Int64.minValue
    (least ≠ -1 ∧ least ≠ Int64.maxValue ∧
      query (.arr items) "[-9223372036854775808:-9223372036854775807]".toList = .ok []) ∧
      (-3 : Int64) ≠ -1 ∧ (-3 : Int64) ≠ Int64.maxValue ∧
        query (.arr items) "[-3:-2]".toList = .ok [.ofNat 7] := by
  intro items least
  have single := (query_slices items).2.2.2.2.1
  have inner : least ≠ -1 ∧ least ≠ Int64.maxValue := by decide
  have inner' : (-3 : Int64) ≠ -1 ∧ (-3 : Int64) ≠ Int64.maxValue := by decide
  obtain ⟨before, isBefore, sliceBefore⟩ := single least inner.1 inner.2
  obtain ⟨first, isFirst, sliceFirst⟩ := single (-3) inner'.1 inner'.2
  obtain rfl : [] = before := Except.ok.inj isBefore
  obtain rfl : [.ofNat 7] = first := Except.ok.inj isFirst
  exact ⟨⟨inner.1, inner.2, sliceBefore⟩, inner'.1, inner'.2, sliceFirst⟩

end Path

end Templating
