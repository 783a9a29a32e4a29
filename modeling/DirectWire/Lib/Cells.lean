import Mathlib.Tactic

/-!
# Lists of cells

A list whose entries are changed in place or added at the end, and are named by their position.
-/

namespace DirectWire.Lib

variable {α : Type} {l : List α} {i j : Nat} {a x : α} {g : α → α} {P : α → Prop}

theorem getElem?_modify_eq_some (h : (l.modify i g)[j]? = some x) :
    ∃ y, l[j]? = some y ∧ (i = j ∧ x = g y ∨ i ≠ j ∧ x = y) := by
  rw [List.getElem?_modify] at h
  obtain ⟨y, hy, rfl⟩ := Option.map_eq_some_iff.mp h
  refine ⟨y, hy, ?_⟩
  split
  · exact .inl ⟨‹_›, rfl⟩
  · exact .inr ⟨‹_›, rfl⟩

theorem getElem?_concat_eq_some (h : (l ++ [a])[i]? = some x) :
    l[i]? = some x ∨ i = l.length ∧ x = a := by
  rw [List.getElem?_append] at h
  split at h
  · exact .inl h
  · obtain ⟨hLt, rfl⟩ := List.getElem?_eq_some_iff.mp h
    rw [List.length_singleton] at hLt
    exact .inr ⟨by omega, List.getElem_singleton _⟩

theorem modify_concat_length (l : List α) (a : α) (g : α → α) :
    (l ++ [a]).modify l.length g = l ++ [g a] := by
  induction l with
  | nil => rfl
  | cons b l ih => simp [ih]

theorem forall_mem_modify (h : ∀ x ∈ l, P x) (hg : ∀ x, P x → P (g x)) :
    ∀ x ∈ l.modify i g, P x := by
  intro x hx
  obtain ⟨j, hj⟩ := List.mem_iff_getElem?.mp hx
  obtain ⟨y, hy, ⟨-, rfl⟩ | ⟨-, rfl⟩⟩ := getElem?_modify_eq_some hj
  · exact hg y (h y (List.mem_of_getElem? hy))
  · exact h x (List.mem_of_getElem? hy)

theorem forall_mem_concat (h : ∀ x ∈ l, P x) (ha : P a) : ∀ x ∈ l ++ [a], P x := by
  intro x hx
  rcases List.mem_append.mp hx with hx | hx
  · exact h x hx
  · rw [List.mem_singleton.mp hx]
    exact ha

theorem getElem?_set_eq_some (h : (l.set i a)[j]? = some x) :
    i = j ∧ x = a ∨ i ≠ j ∧ l[j]? = some x := by
  rw [List.getElem?_set] at h
  split at h
  · rename_i hSame
    split at h
    · exact .inl ⟨hSame, (Option.some_inj.mp h).symm⟩
    · cases h
  · rename_i hOther
    exact .inr ⟨hOther, h⟩

theorem countP_set {p : α → Bool} (h : l[i]? = some x) (a : α) :
    (l.set i a).countP p + (if p x then 1 else 0) = l.countP p + if p a then 1 else 0 := by
  obtain ⟨hLt, rfl⟩ := List.getElem?_eq_some_iff.mp h
  rw [List.countP_set hLt]
  have hPos : (if p l[i] then 1 else 0) ≤ l.countP p := by
    split
    · exact List.countP_pos_iff.mpr ⟨l[i], List.getElem_mem hLt, ‹_›⟩
    · exact Nat.zero_le _
  omega

theorem set_map_range {f : Nat → α} (n : Nat) :
    ((List.range n).map f).set i a = (List.range n).map (Function.update f i a) := by
  refine List.ext_getElem (by simp) fun j hj _ => ?_
  by_cases hSame : i = j
  · simp [hSame]
  · simp [hSame, Function.update_of_ne (Ne.symm hSame)]

end DirectWire.Lib
