import Mathlib.Tactic
import Mathlib.Data.List.Chain

/-!
# Doubly linked lists

A list without repetition is kept by two functions on the places of its elements, `next` and
`prev`. One place, `nil`, has no element; its links are the two ends, so that they form a ring.

* `Links.Holds` — the links are those of a list;
* `Links.Holds.pushFront`, `Links.Holds.unlink` — a new first element, and an element less.
-/

namespace DirectWire.Lib

open List Function

structure Links (ι : Type) where
  next : ι → ι
  prev : ι → ι

namespace Links

variable {ι : Type} {k k' : Links ι} {nil x : ι} {l pre post : List ι}

def Adjacent (k : Links ι) (a b : ι) : Prop := k.next a = b ∧ k.prev b = a

structure Holds (k : Links ι) (nil : ι) (l : List ι) : Prop where
  nodup : (nil :: l).Nodup
  chain : (nil :: (l ++ [nil])).IsChain k.Adjacent

theorem chain_congr (h : l.IsChain k.Adjacent) (hNext : ∀ a ∈ l.dropLast, k'.next a = k.next a)
    (hPrev : ∀ b ∈ l.tail, k'.prev b = k.prev b) : l.IsChain k'.Adjacent := by
  induction l with
  | nil => exact .nil
  | cons a l ih =>
    cases l with
    | nil => exact .singleton a
    | cons b =>
      obtain ⟨⟨hab, hba⟩, hRest⟩ := isChain_cons_cons.mp h
      refine isChain_cons_cons.mpr ⟨⟨?_, ?_⟩, ih hRest ?_ ?_⟩
      · rw [hNext a (by simp), hab]
      · rw [hPrev b (by simp), hba]
      · exact fun c hc => hNext c (mem_cons_of_mem a hc)
      · exact fun c hc => hPrev c (mem_cons_of_mem b hc)

theorem dropLast_concat_getLastD (nil : ι) (pre : List ι) :
    (nil :: pre).dropLast ++ [pre.getLastD nil] = nil :: pre := by
  have hLast := dropLast_append_getLast (cons_ne_nil nil pre)
  rwa [getLast_eq_getLastD] at hLast

theorem headD_cons_tail (nil : ι) (post : List ι) :
    post.headD nil :: (post ++ [nil]).tail = post ++ [nil] := by
  cases post <;> rfl

theorem getLastD_mem (nil : ι) (pre : List ι) : pre.getLastD nil ∈ nil :: pre := by
  rw [← dropLast_concat_getLastD]
  exact mem_append_right _ (mem_singleton_self _)

theorem headD_mem (nil : ι) (post : List ι) : post.headD nil ∈ nil :: post := by
  cases post <;> simp

theorem chain_append : (nil :: (pre ++ post ++ [nil])).IsChain k.Adjacent ↔
    (nil :: pre).IsChain k.Adjacent ∧ k.Adjacent (pre.getLastD nil) (post.headD nil) ∧
      (post ++ [nil]).IsChain k.Adjacent := by
  have hLast : (nil :: pre).getLast? = some (pre.getLastD nil) := by
    rw [getLast?_cons, getLastD_eq_getLast?]
  have hHead : (post ++ [nil]).head? = some (post.headD nil) := by
    cases post <;> rfl
  rw [append_assoc, ← cons_append, isChain_append, hLast, hHead]
  constructor
  · rintro ⟨hPre, hPost, hJoin⟩
    exact ⟨hPre, hJoin _ rfl _ rfl, hPost⟩
  · rintro ⟨hPre, hJoin, hPost⟩
    refine ⟨hPre, hPost, fun a ha b hb => ?_⟩
    cases ha
    cases hb
    exact hJoin

namespace Holds

theorem next_nil (h : k.Holds nil l) : k.next nil = l.headD nil := by
  have hChain : (nil :: ([] ++ l ++ [nil])).IsChain k.Adjacent := h.chain
  exact (chain_append.mp hChain).2.1.1

theorem prev_nil (h : k.Holds nil l) : k.prev nil = l.getLastD nil := by
  have hChain := h.chain
  rw [← append_nil l] at hChain
  exact (chain_append.mp hChain).2.1.2

theorem next_nil_eq_nil (h : k.Holds nil l) : k.next nil = nil ↔ l = [] := by
  rw [h.next_nil]
  cases l with
  | nil => simp
  | cons a =>
    have hOther : a ≠ nil := fun hSame => (nodup_cons.mp h.nodup).1 (by simp [hSame])
    simpa using hOther

theorem prev_nil_eq_nil (h : k.Holds nil l) : k.prev nil = nil ↔ l = [] := by
  rw [h.prev_nil]
  rcases eq_nil_or_concat l with rfl | ⟨l, a, rfl⟩
  · simp
  · have hOther : a ≠ nil := fun hSame => (nodup_cons.mp h.nodup).1 (by simp [hSame])
    simpa using hOther

section

variable (h : k.Holds nil (pre ++ x :: post))

include h

theorem around :
    (nil :: pre).IsChain k.Adjacent ∧ k.Adjacent (pre.getLastD nil) x ∧
      k.Adjacent x (post.headD nil) ∧ (post ++ [nil]).IsChain k.Adjacent := by
  obtain ⟨hPre, hBefore, hRest⟩ := chain_append.mp h.chain
  rw [cons_append, isChain_cons] at hRest
  refine ⟨hPre, hBefore, hRest.1 _ ?_, hRest.2⟩
  cases post <;> rfl

theorem prev_eq : k.prev x = pre.getLastD nil := h.around.2.1.2

theorem next_eq : k.next x = post.headD nil := h.around.2.2.1.1

end

theorem congr (h : k.Holds nil l) (hNext : ∀ a ∈ nil :: l, k'.next a = k.next a)
    (hPrev : ∀ a ∈ nil :: l, k'.prev a = k.prev a) : k'.Holds nil l := by
  refine ⟨h.nodup, chain_congr h.chain (fun a ha => hNext a ?_) fun b hb => hPrev b ?_⟩
  · rw [← cons_append, dropLast_concat] at ha
    exact ha
  · exact (perm_append_singleton nil l).subset hb

end Holds

variable [DecidableEq ι]

def pushFront (k : Links ι) (nil x : ι) : Links ι where
  next := update (update k.next x (k.next nil)) nil x
  prev := update (update k.prev x nil) (k.next nil) x

def unlink (k : Links ι) (x : ι) : Links ι where
  next := update k.next (k.prev x) (k.next x)
  prev := update k.prev (k.next x) (k.prev x)

theorem Holds.pushFront (h : k.Holds nil l) (hx : x ∉ nil :: l) :
    (k.pushFront nil x).Holds nil (x :: l) := by
  obtain ⟨hNil, hl⟩ := nodup_cons.mp h.nodup
  obtain ⟨hxNil, hxl⟩ := not_or.mp (mt mem_cons.mpr hx)
  have hHead : x ≠ l.headD nil := fun hSame => hx (hSame ▸ headD_mem nil l)
  have hTail : l.headD nil ∉ (l ++ [nil]).tail := by
    have hNodup : (l ++ [nil]).Nodup := (perm_append_singleton nil l).nodup_iff.mpr h.nodup
    rw [← headD_cons_tail] at hNodup
    exact (nodup_cons.mp hNodup).1
  have hChain : (nil :: ([] ++ l ++ [nil])).IsChain k.Adjacent := h.chain
  obtain ⟨-, -, hOld⟩ := chain_append.mp hChain
  have hNodup : (nil :: x :: l).Nodup :=
    nodup_cons.mpr ⟨by simpa [Ne.symm hxNil] using hNil, nodup_cons.mpr ⟨hxl, hl⟩⟩
  refine ⟨hNodup, ?_⟩
  rw [Links.pushFront, h.next_nil]
  change (nil :: ([x] ++ l ++ [nil])).IsChain _
  refine chain_append.mpr ⟨isChain_pair.mpr ⟨?_, ?_⟩, ⟨?_, ?_⟩, chain_congr hOld ?_ ?_⟩
  · exact update_self ..
  · exact (update_of_ne hHead ..).trans (update_self ..)
  · exact (update_of_ne hxNil ..).trans (update_self ..)
  · exact update_self ..
  · intro a ha
    rw [dropLast_concat] at ha
    refine (update_of_ne ?_ ..).trans (update_of_ne ?_ ..)
    · rintro rfl
      exact hNil ha
    · rintro rfl
      exact hxl ha
  · intro b hb
    refine (update_of_ne ?_ ..).trans (update_of_ne ?_ ..)
    · rintro rfl
      exact hTail hb
    · rintro rfl
      exact hx ((perm_append_singleton _ l).subset (mem_of_mem_tail hb))

theorem Holds.unlink (h : k.Holds nil (pre ++ x :: post)) :
    (k.unlink x).Holds nil (pre ++ post) := by
  obtain ⟨hPre, -, -, hPost⟩ := h.around
  have hNodup : (nil :: (pre ++ post)).Nodup :=
    h.nodup.sublist (((sublist_cons_self x post).append_left pre).cons_cons nil)
  obtain ⟨hNil, hBoth⟩ := nodup_cons.mp hNodup
  obtain ⟨hNilPre, hNilPost⟩ := not_or.mp (mt mem_append.mpr hNil)
  have hApart := disjoint_of_nodup_append hBoth
  have hBefore : (nil :: pre).Nodup := hNodup.sublist ((sublist_append_left ..).cons_cons nil)
  have hAfter : (post ++ [nil]).Nodup := by
    rw [(perm_append_singleton nil post).nodup_iff]
    exact hNodup.sublist ((sublist_append_right ..).cons_cons nil)
  rw [← dropLast_concat_getLastD, nodup_append_comm] at hBefore
  rw [← headD_cons_tail] at hAfter
  refine ⟨hNodup, ?_⟩
  rw [Links.unlink, h.prev_eq, h.next_eq]
  refine chain_append.mpr ⟨chain_congr hPre ?_ ?_, ⟨?_, ?_⟩, chain_congr hPost ?_ ?_⟩
  · refine fun a ha => update_of_ne ?_ _ _
    rintro rfl
    exact (nodup_cons.mp hBefore).1 ha
  · refine fun a ha => update_of_ne ?_ _ _
    rintro rfl
    rcases mem_cons.mp (headD_mem nil post) with hSame | hMem
    · exact hNilPre (hSame ▸ ha)
    · exact hApart ha hMem
  · exact update_self ..
  · exact update_self ..
  · refine fun a ha => update_of_ne ?_ _ _
    rw [dropLast_concat] at ha
    rintro rfl
    rcases mem_cons.mp (getLastD_mem nil pre) with hSame | hMem
    · exact hNilPost (hSame ▸ ha)
    · exact hApart hMem ha
  · refine fun a ha => update_of_ne ?_ _ _
    rintro rfl
    exact (nodup_cons.mp hAfter).1 ha

end Links

end DirectWire.Lib
