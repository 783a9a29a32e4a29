import Mathlib.Tactic
import Mathlib.Data.Nat.Bitwise
import Mathlib.Order.Bounds.Basic

/-!
# A set of numbers behind a window of bits

`Represents w S h b`: `h` is the largest element of `S`, and bit `i` of `b` stands for `h - i`.

* `Represents.advance`, `Represents.jump`, `Represents.mark` — a new largest element, one that is
  too far ahead, and an element inside the window.
-/

namespace DirectWire.Lib

/-- `h` is the largest element of `S`, and the first `w` bits of `b` say which
of the numbers `h, h - 1, …` are in `S`. -/
structure Represents (w : Nat) (S : Set Nat) (h b : Nat) : Prop where
  greatest : IsGreatest S h
  bits : ∀ i < w, b.testBit i = true ↔ i ≤ h ∧ h - i ∈ S

namespace Represents

variable {w h b n : Nat} {S : Set Nat}

section

variable (hRep : Represents w S h b)

include hRep

/-- Inside the window a bit answers membership. -/
theorem testBit_iff (hLe : n ≤ h) (hIn : h - n < w) : b.testBit (h - n) = true ↔ n ∈ S := by
  have hBack : h - (h - n) = n := by omega
  rw [hRep.bits _ hIn, hBack]
  exact and_iff_right (by omega)

omit hRep in
theorem first (w n : Nat) : Represents w {n} n 1 := by
  refine ⟨isGreatest_singleton, fun i hi => ?_⟩
  rw [Nat.testBit_one_eq_true_iff_self_eq_zero, Set.mem_singleton_iff]
  omega

theorem greatest_insert (hLt : h < n) : IsGreatest (insert n S) n := by
  refine ⟨Set.mem_insert n S, fun m hm => ?_⟩
  rcases Set.mem_insert_iff.mp hm with rfl | hOld
  · exact le_rfl
  · exact (hRep.greatest.2 hOld).trans hLt.le

theorem advance (hLt : h < n) : Represents w (insert n S) n ((b <<< (n - h)) % 2 ^ w ||| 1) := by
  refine ⟨hRep.greatest_insert hLt, fun i hi => ?_⟩
  rw [Nat.testBit_or, Nat.testBit_mod_two_pow, Nat.testBit_shiftLeft, Bool.or_eq_true,
    Nat.testBit_one_eq_true_iff_self_eq_zero, Set.mem_insert_iff]
  by_cases hZero : i = 0
  · subst hZero
    simp
  by_cases hFar : n - h ≤ i
  · -- the bit stood `n - h` places lower before
    have hOld := hRep.bits (i - (n - h)) (by omega)
    have hSame : h - (i - (n - h)) = n - i ∨ n < i := by omega
    simp only [hi, hFar, hZero, decide_true, Bool.true_and, or_false, hOld]
    constructor
    · rintro ⟨hLe, hMem⟩
      refine ⟨by omega, .inr ?_⟩
      rwa [hSame.resolve_right (by omega)] at hMem
    · rintro ⟨hLe, hEq | hMem⟩
      · omega
      · refine ⟨by omega, ?_⟩
        rwa [hSame.resolve_right (by omega)]
  · -- between the old top and the new one there is nothing
    have hNone : n - i ∉ S := by
      intro hMem
      have := hRep.greatest.2 hMem
      omega
    simp only [hFar, hZero, hNone, decide_false, Bool.false_and, Bool.and_false,
      Bool.false_eq_true, or_false, false_iff]
    omega

theorem jump (hFar : h + w ≤ n) (hLt : h < n) : Represents w (insert n S) n 1 := by
  refine ⟨hRep.greatest_insert hLt, fun i hi => ?_⟩
  have hNone : n - i ∉ S := by
    intro hMem
    have := hRep.greatest.2 hMem
    omega
  rw [Nat.testBit_one_eq_true_iff_self_eq_zero, Set.mem_insert_iff, or_iff_left hNone]
  omega

theorem mark (hLe : n ≤ h) : Represents w (insert n S) h (b ||| 2 ^ (h - n)) := by
  have hTop : IsGreatest (insert n S) h := by
    refine ⟨Set.mem_insert_of_mem n hRep.greatest.1, fun m hm => ?_⟩
    rcases Set.mem_insert_iff.mp hm with rfl | hOld
    · exact hLe
    · exact hRep.greatest.2 hOld
  refine ⟨hTop, fun i hi => ?_⟩
  rw [Nat.testBit_or, Bool.or_eq_true, Nat.testBit_two_pow, decide_eq_true_iff, hRep.bits i hi,
    Set.mem_insert_iff]
  constructor
  · rintro (⟨hIn, hMem⟩ | rfl)
    · exact ⟨hIn, .inr hMem⟩
    · exact ⟨by omega, .inl (by omega)⟩
  · rintro ⟨hIn, hEq | hMem⟩
    · exact .inr (by omega)
    · exact .inl ⟨hIn, hMem⟩

end

end Represents

end DirectWire.Lib
