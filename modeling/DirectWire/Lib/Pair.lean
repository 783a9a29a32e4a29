import Mathlib.Tactic
import Mathlib.Logic.Function.Basic

/-!
# Two parties

The two ends of a link. A system of two parties keeps what each end has in a
function of `Side`, changed at one end by `Function.update`; what is proved
for one side then holds for both.
-/

namespace DirectWire.Lib

inductive Side where
  | left
  | right
deriving DecidableEq, Repr

namespace Side

def other : Side → Side
  | left => right
  | right => left

@[simp] theorem other_other (s : Side) : s.other.other = s := by cases s <;> rfl

@[simp] theorem other_ne (s : Side) : s.other ≠ s := by cases s <;> decide

theorem forall_iff {p : Side → Prop} : (∀ s, p s) ↔ p left ∧ p right := by
  refine ⟨fun h => ⟨h left, h right⟩, fun h s => ?_⟩
  cases s with
  | left => exact h.1
  | right => exact h.2

theorem eq_or_eq_other (s t : Side) : t = s ∨ t = s.other := by
  cases s <;> cases t <;> simp [other]

end Side

end DirectWire.Lib
