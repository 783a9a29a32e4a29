import Mathlib.Tactic

/-!
# Recency lists

A cache with a bounded number of entries, as the list of its entries with the one that was used
last in front. `Near` is an entry with only keys of a given set in front of it; it is not dropped
as long as fewer other keys than the capacity have been used (`Near.put`).
-/

namespace DirectWire.Lib.Lru

open List

variable {K V : Type} {l : List (K × V)} {k k' : K} {v v' : V}

/-- Every key in front of the entry is in `s`. -/
def Near (l : List (K × V)) (k : K) (v : V) (s : Finset K) : Prop :=
  ∃ front back, l = front ++ (k, v) :: back ∧ ∀ x ∈ front, x.1 ∈ s

variable {s : Finset K}

theorem Near.filter (h : Near l k v s) {p : K × V → Bool} (hp : p (k, v) = true) :
    Near (l.filter p) k v s := by
  obtain ⟨front, back, rfl, hFront⟩ := h
  refine ⟨front.filter p, back.filter p, ?_, fun x hx => hFront x (mem_of_mem_filter hx)⟩
  rw [filter_append, filter_cons_of_pos hp]

variable [DecidableEq K]

def get? (l : List (K × V)) (k : K) : Option V := (l.find? fun x => x.1 = k).map Prod.snd

def without (l : List (K × V)) (k : K) : List (K × V) := l.filter fun x => x.1 ≠ k

def touch (l : List (K × V)) (k : K) (v : V) : List (K × V) := (k, v) :: without l k

def put (capacity : Nat) (l : List (K × V)) (k : K) (v : V) : List (K × V) :=
  if k ∈ l.map Prod.fst then touch l k v
  else (k, v) :: if capacity ≤ l.length then l.dropLast else l

theorem put_eq_cons (capacity : Nat) (l : List (K × V)) (k : K) (v : V) :
    ∃ rest, put capacity l k v = (k, v) :: rest := by
  rw [put]
  split
  · exact ⟨_, rfl⟩
  · exact ⟨_, rfl⟩

theorem get?_eq_none (h : k ∉ l.map Prod.fst) : get? l k = none := by
  rw [get?, Option.map_eq_none_iff, find?_eq_none]
  rintro x hx hSame
  exact h (mem_map.mpr ⟨x, hx, of_decide_eq_true hSame⟩)

theorem get?_middle {pre post : List (K × V)}
    (h : ((pre ++ (k, v) :: post).map Prod.fst).Nodup) :
    get? (pre ++ (k, v) :: post) k = some v := by
  rw [map_append, map_cons, nodup_middle, nodup_cons, mem_append] at h
  rw [get?, find?_append, find?_eq_none.mpr, Option.none_or, find?_cons_of_pos]
  · rfl
  · exact decide_eq_true rfl
  · rintro x hx hSame
    exact h.1 (.inl (mem_map.mpr ⟨x, hx, of_decide_eq_true hSame⟩))

theorem Near.get? (h : Near l k v s) (hNodup : (l.map Prod.fst).Nodup) : get? l k = some v := by
  obtain ⟨pre, post, rfl, -⟩ := h
  exact get?_middle hNodup

theorem without_eq_self (h : k ∉ l.map Prod.fst) : without l k = l := by
  refine filter_eq_self.mpr fun x hx => decide_eq_true ?_
  rintro rfl
  exact h (mem_map_of_mem hx)

theorem without_middle {pre post : List (K × V)}
    (h : ((pre ++ (k, v) :: post).map Prod.fst).Nodup) :
    without (pre ++ (k, v) :: post) k = pre ++ post := by
  rw [map_append, map_cons, nodup_middle, nodup_cons, ← map_append] at h
  have hOut := without_eq_self h.1
  rw [without, filter_append] at hOut ⊢
  rw [filter_cons_of_neg (by simp)]
  exact hOut

section

variable (h : Near l k v s)

include h

theorem Near.without (hOther : k' ≠ k) : Near (without l k') k v s :=
  h.filter (decide_eq_true hOther.symm)

theorem Near.cons : Near ((k', v') :: l) k v (insert k' s) := by
  obtain ⟨front, back, rfl, hFront⟩ := h
  refine ⟨(k', v') :: front, back, rfl, fun x hx => ?_⟩
  rcases mem_cons.mp hx with rfl | hx
  · exact Finset.mem_insert_self ..
  · exact Finset.mem_insert_of_mem (hFront x hx)

theorem Near.touch (hOther : k' ≠ k) : Near (touch l k' v') k v (insert k' s) :=
  (h.without hOther).cons

theorem Near.dropLast (hNodup : (l.map Prod.fst).Nodup) (hLess : s.card + 1 < l.length) :
    Near l.dropLast k v s := by
  obtain ⟨front, back, rfl, hFront⟩ := h
  have hCard : front.length ≤ s.card := by
    rw [map_append, nodup_append] at hNodup
    rw [← length_map Prod.fst, ← toFinset_card_of_nodup hNodup.1]
    refine Finset.card_le_card fun x hx => ?_
    obtain ⟨y, hy, rfl⟩ := mem_map.mp (mem_toFinset.mp hx)
    exact hFront y hy
  have hBack : back ≠ [] := by
    rintro rfl
    rw [length_append, length_singleton] at hLess
    omega
  refine ⟨front, back.dropLast, ?_, hFront⟩
  rw [dropLast_append_cons, dropLast_cons_of_ne_nil hBack]

theorem Near.put {capacity : Nat} (hOther : k' ≠ k) (hNodup : (l.map Prod.fst).Nodup)
    (hLess : (insert k' s).card < capacity) : Near (put capacity l k' v') k v (insert k' s) := by
  rw [Lru.put]
  split
  · exact h.touch hOther
  · rename_i hNew
    split
    · rename_i hFull
      obtain ⟨front, back, rfl, hFront⟩ := h
      -- the new key is not in front, so the keys in front are one less
      have hNear : Near (front ++ (k, v) :: back) k v (s.erase k') := by
        refine ⟨front, back, rfl, fun x hx => Finset.mem_erase.mpr ⟨?_, hFront x hx⟩⟩
        rintro rfl
        exact hNew (mem_map_of_mem (mem_append_left _ hx))
      have hSame : insert k' (s.erase k') = insert k' s := by
        ext x
        by_cases hx : x = k' <;> simp [hx]
      have hCard : (s.erase k').card + 1 = (insert k' s).card := by
        rw [← hSame, Finset.card_insert_of_notMem (Finset.notMem_erase _ _)]
      exact hSame ▸ (hNear.dropLast hNodup (by omega)).cons
    · exact h.cons

end

end DirectWire.Lib.Lru
