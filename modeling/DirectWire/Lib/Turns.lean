import Mathlib.Tactic

/-!
# Players that take slots in turns

There are `m` slots and `n` players, each with a list of the slots in an order of its own. The
one whose turn it is takes the next slot of its list that is free. `Turns.step` is one look.

* `Turns.Sound.step` — a player has passed only slots that are taken by now;
* `Turns.owner_step`, `Turns.owner_second` — a slot that is taken, and the first two moves;
* `Turns.Fair.step` — the players' shares differ by at most one slot.
-/

namespace DirectWire.Lib

open Function Finset

structure Turns where
  owner : ℕ → Option ℕ
  cursor : ℕ → ℕ
  turn : ℕ

namespace Turns

variable (probe : ℕ → ℕ → ℕ) (n m : ℕ)

def start : Turns := ⟨fun _ => none, fun _ => 0, 0⟩

def slot (t : Turns) : ℕ := probe t.turn (t.cursor t.turn)

def advanced (t : Turns) : ℕ → ℕ := update t.cursor t.turn (t.cursor t.turn + 1)

def step (t : Turns) : Turns :=
  if t.owner (t.slot probe) = none then
    ⟨update t.owner (t.slot probe) (some t.turn), t.advanced,
      if t.turn + 1 = n then 0 else t.turn + 1⟩
  else { t with cursor := t.advanced }

def taken (t : Turns) : Finset ℕ := (range m).filter fun c => (t.owner c).isSome

/-- How much of the lists is left, up to their place `k`. -/
def effort (k : ℕ) (t : Turns) : ℕ := ∑ i ∈ range n, (k - t.cursor i)

structure Sound (t : Turns) : Prop where
  turn_lt : t.turn < n
  turn_le : t.turn ≤ (t.taken m).card
  past : ∀ i k, k < t.cursor i → t.owner (probe i k) ≠ none
  owner_lt : ∀ c i, t.owner c = some i → i < n ∧ i < m

variable {probe n m} {t : Turns}

theorem sound_start (h : 0 < n) : start.Sound probe n m := ⟨h, Nat.zero_le _, nofun, nofun⟩

theorem cursor_step : (t.step probe n).cursor = t.advanced := by
  unfold step
  split <;> rfl

theorem advanced_turn : t.advanced t.turn = t.cursor t.turn + 1 := update_self ..

theorem advanced_of_ne {i : ℕ} (h : i ≠ t.turn) : t.advanced i = t.cursor i := update_of_ne h ..

theorem owner_step_free (h : t.owner (t.slot probe) = none) :
    (t.step probe n).owner = update t.owner (t.slot probe) (some t.turn) := by
  rw [step, if_pos h]

theorem owner_step_owned (h : t.owner (t.slot probe) ≠ none) :
    (t.step probe n).owner = t.owner := by
  rw [step, if_neg h]

theorem owner_step {c i : ℕ} (h : t.owner c = some i) : (t.step probe n).owner c = some i := by
  by_cases hFree : t.owner (t.slot probe) = none
  · have hOther : c ≠ t.slot probe := by
      rintro rfl
      rw [h] at hFree
      cases hFree
    rw [owner_step_free hFree, update_of_ne hOther]
    exact h
  · rw [owner_step_owned hFree]
    exact h

theorem owner_step_ne_none {c : ℕ} (h : t.owner c ≠ none) : (t.step probe n).owner c ≠ none := by
  obtain ⟨i, hi⟩ := Option.ne_none_iff_exists'.mp h
  rw [owner_step hi]
  exact Option.some_ne_none _

theorem owner_step_slot : (t.step probe n).owner (t.slot probe) ≠ none := by
  by_cases hFree : t.owner (t.slot probe) = none
  · rw [owner_step_free hFree, update_self]
    exact Option.some_ne_none _
  · exact owner_step_ne_none hFree

/-! ## Counting the slots -/

theorem taken_start : start.taken m = ∅ := by
  simp [taken, start]

theorem card_taken_step_free (hSlot : t.slot probe < m) (hFree : t.owner (t.slot probe) = none) :
    ((t.step probe n).taken m).card = (t.taken m).card + 1 := by
  have hTaken : (t.step probe n).taken m = insert (t.slot probe) (t.taken m) := by
    ext c
    rw [taken, taken, owner_step_free hFree]
    by_cases hSame : c = t.slot probe
    · simp [hSame, hSlot]
    · simp [hSame]
  rw [hTaken, card_insert_of_notMem]
  simp [taken, hFree]

theorem taken_step_owned (hOwned : t.owner (t.slot probe) ≠ none) :
    (t.step probe n).taken m = t.taken m := by
  rw [taken, owner_step_owned hOwned]
  rfl

theorem card_taken_step_le (hSlot : t.slot probe < m) :
    ((t.step probe n).taken m).card ≤ (t.taken m).card + 1 := by
  by_cases hFree : t.owner (t.slot probe) = none
  · exact (card_taken_step_free hSlot hFree).le
  · rw [taken_step_owned hFree]
    omega

theorem exists_free (h : (t.taken m).card < m) : ∃ c < m, t.owner c = none := by
  by_contra hNone
  push Not at hNone
  have hAll : t.taken m = range m := by
    refine filter_true_of_mem fun c hc => ?_
    exact Option.isSome_iff_ne_none.mpr (hNone c (mem_range.mp hc))
  rw [hAll, card_range] at h
  omega

theorem card_taken_le : (t.taken m).card ≤ m := by
  rw [taken]
  simpa using card_le_card (filter_subset _ (range m))

theorem card_taken_lt {c : ℕ} (hc : c < m) (hFree : t.owner c = none) : (t.taken m).card < m := by
  have hSub : t.taken m ⊂ range m := by
    refine filter_ssubset.mpr ⟨c, mem_range.mpr hc, ?_⟩
    simp [hFree]
  simpa using card_lt_card hSub

theorem owner_of_card (h : (t.taken m).card = m) {c : ℕ} (hc : c < m) : t.owner c ≠ none := by
  have hAll : t.taken m = range m :=
    eq_of_subset_of_card_le (filter_subset _ _) (by rw [h, card_range])
  have hMem : c ∈ t.taken m := hAll ▸ mem_range.mpr hc
  exact Option.isSome_iff_ne_none.mp (mem_filter.mp hMem).2

/-! ## Steps -/

theorem Sound.step (h : t.Sound probe n m) (hSlot : t.slot probe < m) :
    (t.step probe n).Sound probe n m := by
  have hLt := h.turn_lt
  have hLe := h.turn_le
  constructor
  · unfold Turns.step
    split
    · dsimp only
      split <;> omega
    · exact hLt
  · by_cases hFree : t.owner (t.slot probe) = none
    · rw [card_taken_step_free hSlot hFree, Turns.step, if_pos hFree]
      dsimp only
      split <;> omega
    · rw [taken_step_owned hFree, Turns.step, if_neg hFree]
      exact hLe
  · intro i k hk
    rw [cursor_step] at hk
    by_cases hTurn : i = t.turn
    · subst hTurn
      rw [advanced_turn] at hk
      rcases Nat.lt_succ_iff_lt_or_eq.mp hk with hLess | rfl
      · exact owner_step_ne_none (h.past _ k hLess)
      · exact owner_step_slot
    · rw [advanced_of_ne hTurn] at hk
      exact owner_step_ne_none (h.past i k hk)
  · intro c i hi
    by_cases hFree : t.owner (t.slot probe) = none
    · rw [owner_step_free hFree] at hi
      by_cases hSame : c = t.slot probe
      · rw [hSame, update_self] at hi
        cases hi
        have hCard := card_taken_lt hSlot hFree
        exact ⟨hLt, by omega⟩
      · rw [update_of_ne hSame] at hi
        exact h.owner_lt c i hi
    · rw [owner_step_owned hFree] at hi
      exact h.owner_lt c i hi

theorem owner_second (hn : 1 < n) (hOther : probe 0 0 ≠ probe 1 0) :
    ((start.step probe n).step probe n).owner (probe 1 0) = some 1 := by
  have hFirst : start.owner (start.slot probe) = none := rfl
  have hTurn : (start.step probe n).turn = 1 := by
    rw [step, if_pos hFirst]
    exact if_neg (show 0 + 1 ≠ n by omega)
  have hCursor : (start.step probe n).cursor 1 = 0 := by
    rw [cursor_step]
    exact advanced_of_ne (show 1 ≠ 0 by omega)
  have hSlot : (start.step probe n).slot probe = probe 1 0 := by rw [slot, hTurn, hCursor]
  have hFree : (start.step probe n).owner ((start.step probe n).slot probe) = none := by
    have hNe : probe 1 0 ≠ start.slot probe := hOther.symm
    rw [hSlot, owner_step_free hFirst, update_of_ne hNe]
    rfl
  rw [owner_step_free hFree, hSlot, update_self, hTurn]

/-- While a slot is free, the player finds one on its list. -/
theorem Sound.cursor_lt (h : t.Sound probe n m) {k c : ℕ} (hFree : t.owner c = none)
    (hCovers : ∃ j < k, probe t.turn j = c) : t.cursor t.turn < k := by
  obtain ⟨j, hj, rfl⟩ := hCovers
  by_contra hPassed
  exact h.past t.turn j (by omega) hFree

/-- Every step uses up an entry of the lists. -/
theorem effort_step (hTurn : t.turn < n) {k : ℕ} (hLess : t.cursor t.turn < k) :
    (t.step probe n).effort n k < t.effort n k := by
  rw [effort, effort, cursor_step]
  refine sum_lt_sum (fun i _ => ?_) ⟨t.turn, mem_range.mpr hTurn, ?_⟩
  · by_cases hSame : i = t.turn
    · rw [hSame, advanced_turn]
      omega
    · rw [advanced_of_ne hSame]
  · rw [advanced_turn]
    omega

theorem effort_start (k : ℕ) : start.effort n k = n * k := by
  simp [effort, start]

/-! ## Shares -/

def held (m i : ℕ) (t : Turns) : ℕ := Nat.count (fun c => t.owner c = some i) m

/-- What player `i` of `n` has when `k` slots have been dealt out. -/
def share (n k i : ℕ) : ℕ := k / n + if i < k % n then 1 else 0

theorem succ_div_mod (hn : 0 < n) (k : ℕ) :
    (k + 1) / n = (if k % n + 1 = n then k / n + 1 else k / n) ∧
      (k + 1) % n = if k % n + 1 = n then 0 else k % n + 1 := by
  have hK := Nat.div_add_mod k n
  have hLt := Nat.mod_lt k hn
  split
  · exact (Nat.div_mod_unique hn).mpr ⟨by rw [Nat.mul_succ]; omega, hn⟩
  · exact (Nat.div_mod_unique hn).mpr ⟨by omega, by omega⟩

theorem share_succ (hn : 0 < n) (k : ℕ) {i : ℕ} (hi : i < n) :
    share n (k + 1) i = share n k i + if i = k % n then 1 else 0 := by
  obtain ⟨hDiv, hMod⟩ := succ_div_mod hn k
  have hLt := Nat.mod_lt k hn
  rw [share, share, hDiv, hMod]
  grind

theorem held_step_free (hSlot : t.slot probe < m) (hFree : t.owner (t.slot probe) = none)
    (i : ℕ) : (t.step probe n).held m i = t.held m i + if i = t.turn then 1 else 0 := by
  rw [held, held, Nat.count_eq_card_filter_range, Nat.count_eq_card_filter_range,
    owner_step_free hFree]
  split
  · subst i
    rw [← card_insert_of_notMem (a := t.slot probe) (by simp [hFree])]
    congr 1
    ext c
    by_cases hSame : c = t.slot probe <;> simp [hSame, hSlot]
  · rw [Nat.add_zero]
    congr 1
    ext c
    by_cases hSame : c = t.slot probe <;> grind

/-- The turns go round, and every player has its share of what has been taken. -/
structure Fair (n m : ℕ) (t : Turns) : Prop where
  turn_eq : t.turn = (t.taken m).card % n
  held_eq : ∀ i < n, t.held m i = share n (t.taken m).card i

theorem fair_start : start.Fair n m := by
  constructor
  · rw [taken_start]
    exact (Nat.zero_mod n).symm
  · intro i _
    rw [taken_start, card_empty]
    simp [held, share, start, Nat.count_eq_card_filter_range]

theorem Fair.step (h : t.Fair n m) (hn : 0 < n) (hSlot : t.slot probe < m) :
    (t.step probe n).Fair n m := by
  by_cases hFree : t.owner (t.slot probe) = none
  · constructor
    · rw [card_taken_step_free hSlot hFree, (succ_div_mod hn _).2, ← h.turn_eq, Turns.step,
        if_pos hFree]
    · intro i hi
      rw [card_taken_step_free hSlot hFree, share_succ hn _ hi, ← h.held_eq i hi, ← h.turn_eq,
        held_step_free hSlot hFree]
  · obtain ⟨hTurn, hHeld⟩ := h
    rw [← taken_step_owned hFree] at hTurn hHeld
    refine ⟨?_, fun i hi => ?_⟩
    · rw [← hTurn, Turns.step, if_neg hFree]
    · rw [← hHeld i hi, held, owner_step_owned hFree, held]

end Turns

/-! ## Probes in equal steps -/

/-- A list in equal steps has all slots, when their number is a prime. -/
theorem exists_probe {m offset skip c : ℕ} (hm : m.Prime) (hPos : 0 < skip) (hSkip : skip < m)
    (hc : c < m) : ∃ k < m, (offset + k * skip) % m = c := by
  have : Fact m.Prime := ⟨hm⟩
  have hUnit : (skip : ZMod m) ≠ 0 := by
    rw [Ne, ZMod.natCast_eq_zero_iff]
    exact Nat.not_dvd_of_pos_of_lt hPos hSkip
  -- the step is invertible, so the equation for the number of steps has a solution
  let k : ZMod m := (c - offset) * (skip : ZMod m)⁻¹
  refine ⟨k.val, ZMod.val_lt k, ?_⟩
  have hMod : ((offset + k.val * skip : ℕ) : ZMod m) = c := by
    push_cast
    rw [ZMod.natCast_zmod_val, inv_mul_cancel_right₀ hUnit]
    ring
  have hEq := (ZMod.natCast_eq_natCast_iff' _ _ _).mp hMod
  rwa [Nat.mod_eq_of_lt hc] at hEq

end DirectWire.Lib
