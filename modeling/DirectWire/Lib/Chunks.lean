import DirectWire.Lib.Outcome

/-!
# Slot bitmaps over a byte range

A range of `n` positions is cut into slots of `size` positions, the last one possibly shorter;
`covered size n bits` is the set of positions whose slot is marked.

* `forall_of_card_covered`, `exists_unmarked` — when the count of covered positions is `n`, and
  when it is not.
-/

namespace DirectWire.Lib

open Outcome List

variable {size n i j : Nat} {bits : List Bool}

/-- The positions below `n` whose slot is marked. -/
def covered (size n : Nat) (bits : List Bool) : Finset Nat :=
  (Finset.range n).filter fun j => bits[j / size]? = some true

theorem mem_covered : j ∈ covered size n bits ↔ j < n ∧ bits[j / size]? = some true := by
  simp [covered]

theorem div_eq_slot (hSize : 0 < size) : j / size = i ↔ i * size ≤ j ∧ j < i * size + size := by
  constructor
  · rintro rfl
    exact ⟨Nat.div_mul_le_self j size, Nat.lt_div_mul_add hSize⟩
  · rintro ⟨hLo, hHi⟩
    refine le_antisymm ?_ ((Nat.le_div_iff_mul_le hSize).mpr hLo)
    refine Nat.lt_succ_iff.mp ((Nat.div_lt_iff_lt_mul hSize).mpr ?_)
    rwa [Nat.succ_mul]

theorem covered_set (hSize : 0 < size) (hi : i < bits.length) :
    covered size n (bits.set i true) =
      covered size n bits ∪ Finset.Ico (i * size) (min (i * size + size) n) := by
  ext j
  rw [Finset.mem_union, mem_covered, mem_covered, Finset.mem_Ico, lt_min_iff, getElem?_set]
  -- a position is in the slot being marked, or its slot keeps its mark
  by_cases hSlot : j / size = i
  · have hRange := (div_eq_slot hSize).mp hSlot
    rw [if_pos hSlot.symm, if_pos (hSlot ▸ hi)]
    constructor
    · rintro ⟨hj, -⟩
      exact .inr ⟨hRange.1, hRange.2, hj⟩
    · rintro (⟨hj, -⟩ | ⟨-, -, hj⟩) <;> exact ⟨hj, rfl⟩
  · rw [if_neg (Ne.symm hSlot)]
    constructor
    · exact .inl
    · rintro (h | ⟨hLo, hHi, -⟩)
      · exact h
      · exact absurd ((div_eq_slot hSize).mpr ⟨hLo, hHi⟩) hSlot

/-- Marking a free slot covers its positions in addition. -/
theorem card_covered_set (hSize : 0 < size) (hFree : bits[i]? = some false) :
    (covered size n (bits.set i true)).card =
      (covered size n bits).card + (min (i * size + size) n - i * size) := by
  have hi : i < bits.length := (List.getElem?_eq_some_iff.mp hFree).1
  rw [covered_set hSize hi, Finset.card_union_of_disjoint, Nat.card_Ico]
  rw [Finset.disjoint_left]
  -- the positions of a free slot were not counted before
  intro j hj hSlot
  rw [Finset.mem_Ico, lt_min_iff] at hSlot
  rw [mem_covered, (div_eq_slot hSize).mpr ⟨hSlot.1, hSlot.2.1⟩, hFree] at hj
  simp at hj

theorem forall_of_card_covered (h : (covered size n bits).card = n) :
    ∀ j < n, bits[j / size]? = some true := by
  intro j hj
  have hAll : covered size n bits = Finset.range n :=
    Finset.eq_of_subset_of_card_le (Finset.filter_subset _ _) (by simp [h])
  exact (mem_covered.mp (hAll ▸ Finset.mem_range.mpr hj)).2

theorem exists_unmarked (hSize : 0 < size) (hSlots : n ≤ bits.length * size)
    (h : (covered size n bits).card ≠ n) : ∃ i, bits[i]? = some false ∧ i * size < n := by
  by_contra hNone
  push Not at hNone
  apply h
  rw [show covered size n bits = Finset.range n from ?_, Finset.card_range]
  ext j
  rw [mem_covered, Finset.mem_range]
  refine ⟨fun hj => hj.1, fun hj => ⟨hj, ?_⟩⟩
  -- otherwise every position lies in a marked slot
  have hIdx : j / size < bits.length := (Nat.div_lt_iff_lt_mul hSize).mpr (lt_of_lt_of_le hj hSlots)
  rw [getElem?_eq_getElem hIdx, Option.some.injEq]
  by_contra hFree
  have hOff := hNone (j / size) (by simpa [getElem?_eq_getElem hIdx] using hFree)
  have := Nat.div_mul_le_self j size
  omega

/-! ## Writing a part of a list -/

variable {ε α : Type} {xs ys zs : List α} {start : Nat}

theorem length_overwrite (h : overwrite xs start ys = (ok zs : Outcome ε _)) :
    zs.length = xs.length := by
  obtain ⟨hLen, rfl⟩ := overwrite_eq_ok.mp h
  simp
  omega

/-- Reading a list after a part of it was overwritten. -/
theorem getElem?_overwrite (h : overwrite xs start ys = (ok zs : Outcome ε _)) (j : Nat) :
    zs[j]? = if start ≤ j ∧ j < start + ys.length then ys[j - start]? else xs[j]? := by
  obtain ⟨hLen, rfl⟩ := overwrite_eq_ok.mp h
  have hTake : (xs.take start).length = start := by simp; omega
  -- before, inside and behind the part that is written
  rcases Nat.lt_or_ge j start with hj | hj
  · rw [if_neg (by omega), append_assoc, getElem?_append_left (by omega), getElem?_take_of_lt hj]
  rcases Nat.lt_or_ge j (start + ys.length) with hj' | hj'
  · rw [if_pos ⟨hj, hj'⟩, getElem?_append_left (by simp; omega),
      getElem?_append_right (by omega), hTake]
  · rw [if_neg (by omega), getElem?_append_right (by simp; omega), getElem?_drop]
    congr 1
    simp
    omega

end DirectWire.Lib
