import Mathlib.Tactic
import Mathlib.Data.Finset.Card

/-!
# Windows of the largest elements

A window over a growing set keeps its `k` largest elements in increasing order: `IsTop.push` adds
a new largest element, `evict` drops from the front.
-/

namespace DirectWire.Lib

open List

/-- Drop elements from the front until at most `k` are left. -/
def evict {α : Type*} (k : Nat) : List α → List α
  | [] => []
  | a :: as => if (a :: as).length > k then evict k as else a :: as

section Evict

variable {α β : Type*} {k : Nat}

theorem evict_eq_drop (k : Nat) (as : List α) : evict k as = as.drop (as.length - k) := by
  induction as with
  | nil => simp [evict]
  | cons a as ih =>
    rw [evict]
    split
    · -- too long: the head goes, and the rest is one shorter
      rename_i hLong
      rw [length_cons] at hLong ⊢
      rw [ih, Nat.sub_add_comm (by omega), drop_succ_cons]
    · rename_i hShort
      have hZero : (a :: as).length - k = 0 := by omega
      rw [hZero, drop_zero]

theorem mem_of_mem_evict {a : α} {as : List α} (h : a ∈ evict k as) : a ∈ as := by
  rw [evict_eq_drop] at h
  exact mem_of_mem_drop h

end Evict

variable {α : Type*} [LinearOrder α] {k : Nat} {all : Finset α} {window : List α} {x : α}

/-- `window` lists the `k` largest elements of `all` in increasing order, or
all of them if there are fewer. -/
structure IsTop (k : Nat) (all : Finset α) (window : List α) : Prop where
  sorted : window.Pairwise (· < ·)
  mem : ∀ a ∈ window, a ∈ all
  length : window.length = min k all.card
  above : ∀ a ∈ all, a ∉ window → ∀ b ∈ window, a < b

theorem IsTop.empty (k : Nat) : IsTop k (∅ : Finset α) [] :=
  ⟨List.Pairwise.nil, by simp, by simp, by simp⟩

theorem IsTop.lt_of_above (hk : 0 < k) (h : IsTop k all window) (hx : ∀ b ∈ window, b < x) :
    ∀ a ∈ all, a < x := by
  intro a ha
  by_cases hMem : a ∈ window
  · exact hx a hMem
  · -- the window is not empty, since `all` is not
    have hCard : 0 < all.card := Finset.card_pos.mpr ⟨a, ha⟩
    have hLen : 0 < window.length := by
      rw [h.length]
      omega
    obtain ⟨b, hb⟩ := exists_mem_of_length_pos hLen
    exact (h.above a ha hMem b hb).trans (hx b hb)

theorem IsTop.push (hk : 0 < k) (h : IsTop k all window) (hx : ∀ b ∈ window, b < x) :
    IsTop k (insert x all) (evict k (window ++ [x])) := by
  have hAll := h.lt_of_above hk hx
  -- `x` is new, so the count grows by one
  have hNew : x ∉ all := fun hMem => lt_irrefl x (hAll x hMem)
  have hCard : (insert x all).card = all.card + 1 := Finset.card_insert_of_notMem hNew
  have hSorted : (window ++ [x]).Pairwise (· < ·) := by
    rw [pairwise_append]
    refine ⟨h.sorted, pairwise_singleton _ _, ?_⟩
    intro b hb y hy
    rw [mem_singleton.mp hy]
    exact hx b hb
  have hLen := h.length
  rw [evict_eq_drop]
  refine ⟨hSorted.sublist (drop_sublist _ _), ?_, ?_, ?_⟩
  · intro a ha
    rcases mem_append.mp (mem_of_mem_drop ha) with ha | ha
    · exact Finset.mem_insert_of_mem (h.mem a ha)
    · rw [mem_singleton.mp ha]
      exact Finset.mem_insert_self x all
  · rw [length_drop, length_append, length_singleton, hCard]
    omega
  · intro a ha hOut b hb
    -- either `a` was evicted just now, or it was below the window before
    by_cases hMem : a ∈ window ++ [x]
    · have hSplit := take_append_drop ((window ++ [x]).length - k) (window ++ [x])
      have hTaken : a ∈ (window ++ [x]).take ((window ++ [x]).length - k) := by
        rw [← hSplit] at hMem
        exact (mem_append.mp hMem).resolve_right hOut
      rw [← hSplit, pairwise_append] at hSorted
      exact hSorted.2.2 a hTaken b hb
    · have hParts : a ∉ window ∧ a ≠ x := by simpa using hMem
      have haAll : a ∈ all := Finset.mem_of_mem_insert_of_ne ha hParts.2
      rcases mem_append.mp (mem_of_mem_drop hb) with hb | hb
      · exact h.above a haAll hParts.1 b hb
      · rw [mem_singleton.mp hb]
        exact hAll a haAll

end DirectWire.Lib
