import Mathlib.Tactic

/-!
# The last entries of a history

`Spread n l`: each entry of `l` was not among the last `n` when it was added.

* `recent_concat`, `recent_concat_full` — the remembered entries after one more.
-/

namespace DirectWire.Lib

open List

variable {α : Type} {n : Nat} {l r : List α} {a : α}

/-- The last `n` entries. -/
def recent (n : Nat) (l : List α) : List α := l.drop (l.length - n)

theorem length_recent (n : Nat) (l : List α) : (recent n l).length = min n l.length := by
  rw [recent, length_drop]
  omega

theorem recent_of_length_le (h : l.length ≤ n) : recent n l = l := by
  rw [recent, Nat.sub_eq_zero_of_le h, drop_zero]

theorem recent_concat (h : l.length < n) : recent n (l ++ [a]) = recent n l ++ [a] := by
  rw [recent_of_length_le h.le, recent_of_length_le]
  rw [length_append, length_singleton]
  exact h

theorem recent_concat_full (h : n ≤ l.length) : recent n (l ++ [a]) = (recent n l ++ [a]).tail := by
  have hCut : (l ++ [a]).length - n = l.length - n + 1 := by
    rw [length_append, length_singleton]
    omega
  rw [recent, hCut, ← tail_drop, drop_append_of_le_length (by omega), recent]

theorem mem_recent_of_lt (h : r.length < n) : a ∈ recent n (l ++ a :: r) := by
  have hCut : (l ++ a :: r).length - n ≤ l.length := by
    rw [length_append, length_cons]
    omega
  rw [recent, drop_append_of_le_length hCut]
  exact mem_append_right _ mem_cons_self

/-- Each entry was new to the last `n` before it. -/
inductive Spread (n : Nat) : List α → Prop where
  | nil : Spread n []
  | concat {l : List α} {a : α} : Spread n l → a ∉ recent n l → Spread n (l ++ [a])

theorem spread_concat_iff : Spread n (l ++ [a]) ↔ Spread n l ∧ a ∉ recent n l := by
  constructor
  · intro h
    generalize hAll : l ++ [a] = all at h
    cases h with
    | nil => exact absurd hAll (by simp)
    | concat h hNew =>
      obtain ⟨rfl, hSame⟩ := append_inj' hAll rfl
      cases hSame
      exact ⟨h, hNew⟩
  · rintro ⟨h, hNew⟩
    exact h.concat hNew

theorem Spread.of_append (h : Spread n (l ++ r)) : Spread n l := by
  induction r using reverseRecOn with
  | nil => rwa [append_nil] at h
  | append_singleton r a ih =>
    rw [← append_assoc] at h
    exact ih (spread_concat_iff.mp h).1

theorem Spread.nodup_recent (h : Spread n l) : (recent n l).Nodup := by
  induction h with
  | nil =>
    rw [recent, drop_nil]
    exact nodup_nil
  | @concat l a _ hNew ih =>
    have hAll : (recent n l ++ [a]).Nodup := by
      rw [nodup_append]
      refine ⟨ih, nodup_singleton a, ?_⟩
      rintro b hb c hc rfl
      exact hNew (mem_singleton.mp hc ▸ hb)
    rcases Nat.lt_or_ge l.length n with hRoom | hFull
    · rwa [recent_concat hRoom]
    · rw [recent_concat_full hFull]
      exact (tail_sublist _).nodup hAll

theorem exists_last_occurrence [DecidableEq α] (h : a ∈ l) :
    ∃ before after, l = before ++ a :: after ∧ a ∉ after := by
  obtain ⟨before, after, hRev, hNot⟩ := eq_append_cons_of_mem (mem_reverse.mpr h)
  refine ⟨after.reverse, before.reverse, ?_, by simpa using hNot⟩
  have hBack := congrArg reverse hRev
  simpa using hBack

/-- Between two equal entries of the history there are `n` others. -/
theorem Spread.apart [DecidableEq α] {mid : List α} (h : Spread n (l ++ a :: (mid ++ a :: r))) :
    n ≤ (mid.filter (· ≠ a)).length := by
  -- the last time the entry occurs before the second one
  obtain ⟨before, after, hMid, hOther⟩ :=
    exists_last_occurrence (mem_cons_self (a := a) (l := mid))
  have hCut : l ++ a :: (mid ++ a :: r) = l ++ before ++ a :: after ++ [a] ++ r := by
    rw [← cons_append, hMid]
    simp
  rw [hCut] at h
  have hNew := (spread_concat_iff.mp h.of_append).2
  have hFar : n ≤ after.length := by
    by_contra hNear
    exact hNew (mem_recent_of_lt (by omega))
  have hSub : after.Sublist mid := by
    rcases cons_eq_append_iff.mp hMid with ⟨rfl, hSame⟩ | ⟨before, rfl, rfl⟩
    · cases hSame
      exact List.Sublist.refl _
    · exact (sublist_cons_self a after).trans (sublist_append_right before _)
  have hAll : after.filter (· ≠ a) = after := by
    rw [filter_eq_self]
    intro b hb
    simpa using fun hSame : b = a => hOther (hSame ▸ hb)
  calc n ≤ after.length := hFar
    _ = (after.filter (· ≠ a)).length := by rw [hAll]
    _ ≤ (mid.filter (· ≠ a)).length := (hSub.filter _).length_le

end DirectWire.Lib
