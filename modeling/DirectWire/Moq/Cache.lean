import DirectWire.Lib.Platform
import DirectWire.Lib.Bytes
import DirectWire.Lib.Window
import Mathlib.Data.List.Sort

/-!
# MoQ — the relay's group cache

`cache.rs`: the sliding window of groups a relay keeps for each track. The code takes for granted
that a group id between the oldest and the newest cached one belongs to a cached group.
-/

namespace DirectWire.Moq

open Lib Outcome List

structure Object where
  groupId : UInt64
  objectId : UInt64
  priority : UInt8
  timestampMs : UInt64
  payload : Bytes
deriving DecidableEq, Repr

structure GroupCache where
  capacity : Nat
  /-- The window: each group with the objects received of it. -/
  groups : List (UInt64 × List Object)
  droppedLate : Nat
deriving DecidableEq, Repr

variable {checks : Bool} {c c' : GroupCache} {obj : Object} {kept : Bool}

namespace GroupCache

def new (capacity : Nat) : Outcome Empty GroupCache :=
  if capacity > 0 then ok ⟨capacity, [], 0⟩
  else panic (.expectFailed "缓存容量至少为 1 个 group")

def isLate (c : GroupCache) (obj : Object) : Bool :=
  match c.groups.head? with
  | some (oldest, _) => obj.groupId < oldest
  | none => false

def isNewer (c : GroupCache) (obj : Object) : Bool :=
  match c.groups.getLast? with
  | some (newest, _) => newest < obj.groupId
  | none => true

/-- Insert by object id. The position is the partition point of the ids
below the new one. -/
def insertObject (obj : Object) (objs : List Object) : List Object :=
  objs.insertIdx (objs.takeWhile fun o => o.objectId < obj.objectId).length obj

def insertInGroup (obj : Object) : List (UInt64 × List Object) →
    Outcome Empty (List (UInt64 × List Object))
  | [] => panic (.expectFailed "group_id 落在窗口内必然存在对应 group")
  | (g, objs) :: rest =>
    if g = obj.groupId then ok ((g, insertObject obj objs) :: rest)
    else do
      let rest ← insertInGroup obj rest
      ok ((g, objs) :: rest)

def insert (checks : Bool) (c : GroupCache) (obj : Object) : Outcome Empty (GroupCache × Bool) :=
  if c.isLate obj then do
    let droppedLate ← addU checks c.droppedLate 1
    ok ({ c with droppedLate }, false)
  else if c.isNewer obj then
    -- a new group goes to the end and pushes the oldest out
    ok ({ c with groups := evict c.capacity (c.groups ++ [(obj.groupId, [obj])]) }, true)
  else do
    -- between the oldest and the newest id, but the group may be missing
    let groups ← insertInGroup obj c.groups
    ok ({ c with groups }, true)

def snapshotFromLatestGroup (c : GroupCache) : List Object :=
  match c.groups.getLast? with
  | some (_, objs) => objs
  | none => []

def groupIds (c : GroupCache) : List UInt64 := c.groups.map Prod.fst

/-! ## Inserting into a group -/

def ByObjectId (objs : List Object) : Prop := objs.Pairwise fun a b => a.objectId ≤ b.objectId

theorem insertObject_eq (obj : Object) (objs : List Object) :
    insertObject obj objs = objs.orderedInsert (fun a b => a.objectId ≤ b.objectId) obj := by
  induction objs with
  | nil => rfl
  | cons o objs ih =>
    rw [orderedInsert]
    by_cases hLt : o.objectId < obj.objectId
    · -- the partition point is behind the smaller id
      rw [if_neg (by simpa using hLt), ← ih]
      simp [insertObject, hLt]
    · rw [if_pos (by simpa using hLt)]
      simp [insertObject, hLt]

theorem insertObject_sorted {objs} (h : ByObjectId objs) : ByObjectId (insertObject obj objs) := by
  induction objs with
  | nil => exact pairwise_singleton _ _
  | cons o objs ih =>
    obtain ⟨hHead, hTail⟩ := pairwise_cons.mp h
    -- as an insertion into a sorted list, in front of an object with the same id
    rw [insertObject_eq, orderedInsert]
    split
    · rename_i hLe
      refine pairwise_cons.mpr ⟨fun b hb => ?_, h⟩
      rcases mem_cons.mp hb with rfl | hb
      · exact hLe
      · exact UInt64.le_trans hLe (hHead b hb)
    · rename_i hGt
      rw [← insertObject_eq]
      refine pairwise_cons.mpr ⟨fun b hb => ?_, ih hTail⟩
      rw [insertObject_eq, mem_orderedInsert] at hb
      rcases hb with rfl | hb
      · exact UInt64.le_of_lt (UInt64.not_le.mp hGt)
      · exact hHead b hb

theorem noPanic_insertInGroup (groups : List (UInt64 × List Object)) :
    (insertInGroup obj groups).NoPanic ↔ obj.groupId ∈ groups.map Prod.fst := by
  induction groups with
  | nil => simp [insertInGroup]
  | cons group rest ih =>
    obtain ⟨g, objs⟩ := group
    rw [insertInGroup, map_cons, mem_cons]
    by_cases hg : g = obj.groupId
    · simp [hg]
    · rw [if_neg hg, noPanic_bind, ih]
      simp [Ne.symm hg]

theorem insertInGroup_spec {groups groups'} (h : insertInGroup obj groups = ok groups') :
    groups'.map Prod.fst = groups.map Prod.fst ∧
      ((∀ g ∈ groups, ByObjectId g.2) → ∀ g ∈ groups', ByObjectId g.2) := by
  induction groups generalizing groups' with
  | nil => cases h
  | cons group rest ih =>
    obtain ⟨g, objs⟩ := group
    rw [insertInGroup] at h
    split at h
    · cases h
      refine ⟨rfl, fun hSorted x hx => ?_⟩
      rcases mem_cons.mp hx with rfl | hx
      · exact insertObject_sorted (hSorted (g, objs) (by simp))
      · exact hSorted x (mem_cons_of_mem _ hx)
    · rw [bind_eq_ok] at h
      obtain ⟨rest', hRest, h⟩ := h
      cases h
      obtain ⟨hIds, hKeep⟩ := ih hRest
      refine ⟨by simp [hIds], fun hSorted x hx => ?_⟩
      rcases mem_cons.mp hx with rfl | hx
      · exact hSorted (g, objs) (by simp)
      · exact hKeep (fun y hy => hSorted y (mem_cons_of_mem _ hy)) x hx

/-! ## One insert -/

/-- The code has a place for the object: it is late, opens a newer group, or
belongs to a cached group. A late object is counted, and the count must fit
where overflow is checked. -/
def Placed (checks : Bool) (c : GroupCache) (obj : Object) : Prop :=
  if c.isLate obj then c.droppedLate + 1 < usizeBound ∨ checks = false
  else c.isNewer obj = true ∨ obj.groupId ∈ c.groupIds

instance (checks : Bool) (c : GroupCache) (obj : Object) : Decidable (Placed checks c obj) :=
  inferInstanceAs (Decidable
    (if c.isLate obj then c.droppedLate + 1 < usizeBound ∨ checks = false
      else c.isNewer obj = true ∨ obj.groupId ∈ c.groupIds))

theorem noPanic_insert : (c.insert checks obj).NoPanic ↔ Placed checks c obj := by
  unfold GroupCache.insert Placed
  by_cases hLate : c.isLate obj = true
  · rw [if_pos hLate, if_pos hLate, noPanic_bind, noPanic_addU]
    simp
  · rw [if_neg hLate, if_neg hLate]
    by_cases hNewer : c.isNewer obj = true
    · simp [hNewer]
    · rw [if_neg hNewer, noPanic_bind, noPanic_insertInGroup]
      simp [hNewer, groupIds]

theorem insert_cases (h : c.insert checks obj = ok (c', kept)) :
    c'.capacity = c.capacity ∧
    ((kept = false ∧ c'.groups = c.groups) ∨
      (kept = true ∧ c.isNewer obj = true ∧
        c'.groups = evict c.capacity (c.groups ++ [(obj.groupId, [obj])])) ∨
      (kept = true ∧ insertInGroup obj c.groups = ok c'.groups)) := by
  unfold GroupCache.insert at h
  split at h
  · obtain ⟨n, -, h⟩ := bind_eq_ok.mp h
    cases h
    exact ⟨rfl, .inl ⟨rfl, rfl⟩⟩
  · split at h
    · rename_i hNewer
      cases h
      exact ⟨rfl, .inr (.inl ⟨rfl, hNewer, rfl⟩)⟩
    · obtain ⟨groups, hGroups, h⟩ := bind_eq_ok.mp h
      cases h
      exact ⟨rfl, .inr (.inr ⟨rfl, hGroups⟩)⟩

theorem lt_of_isNewer (hSorted : c.groupIds.Pairwise (· < ·)) (h : c.isNewer obj = true) :
    ∀ g ∈ c.groupIds, g < obj.groupId := by
  intro g hg
  rcases eq_nil_or_concat c.groups with hNil | ⟨front, last, hGroups⟩
  · rw [groupIds, hNil] at hg
    cases hg
  · rw [concat_eq_append] at hGroups
    have hLast : last.1 < obj.groupId := by
      simpa [isNewer, hGroups] using h
    rw [groupIds, hGroups, map_append, map_singleton] at hg hSorted
    rcases mem_append.mp hg with hg | hg
    · -- an older group is below the newest
      exact lt_trans ((pairwise_append.mp hSorted).2.2 g hg last.1 (by simp)) hLast
    · rw [mem_singleton.mp hg]
      exact hLast

end GroupCache

/-! ## Sequences of inserts -/

/-- A cache and the group ids of the objects it has not rejected. -/
structure CacheLog where
  cache : GroupCache
  accepted : Finset UInt64

namespace CacheLog

open GroupCache

variable {l l' : CacheLog}

def start (cache : GroupCache) : CacheLog := ⟨cache, ∅⟩

def insert (checks : Bool) (l : CacheLog) (obj : Object) : Outcome Empty CacheLog := do
  let (cache, kept) ← l.cache.insert checks obj
  ok ⟨cache, if kept then Insert.insert obj.groupId l.accepted else l.accepted⟩

structure WellFormed (l : CacheLog) : Prop where
  increasing : l.cache.groupIds.Pairwise (· < ·)
  bounded : l.cache.groups.length ≤ l.cache.capacity
  sorted : ∀ g ∈ l.cache.groups, ByObjectId g.2
  /-- The cached groups are the largest ones accepted. -/
  largest : IsTop l.cache.capacity l.accepted l.cache.groupIds

/-- Every insert of the sequence returns, and the cache is well formed
before the first and after each of them. -/
def Survives (checks : Bool) : CacheLog → List Object → Prop
  | l, [] => l.WellFormed
  | l, obj :: objs => l.WellFormed ∧ ∃ l', l.insert checks obj = ok l' ∧ Survives checks l' objs

def AllPlaced (checks : Bool) : CacheLog → List Object → Prop
  | _, [] => True
  | l, obj :: objs =>
    Placed checks l.cache obj ∧ ∀ l', l.insert checks obj = ok l' → AllPlaced checks l' objs

theorem WellFormed.of_top (hTop : IsTop l.cache.capacity l.accepted l.cache.groupIds)
    (hSorted : ∀ g ∈ l.cache.groups, ByObjectId g.2) : l.WellFormed := by
  refine ⟨hTop.sorted, ?_, hSorted, hTop⟩
  have hLen := hTop.length
  rw [groupIds, length_map] at hLen
  omega

theorem insert_wellFormed (hCap : 0 < l.cache.capacity) (h : l.WellFormed)
    (hInsert : l.insert checks obj = ok l') :
    l'.WellFormed ∧ l'.cache.capacity = l.cache.capacity := by
  rw [CacheLog.insert, bind_eq_ok] at hInsert
  obtain ⟨⟨cache, kept⟩, hCache, hInsert⟩ := hInsert
  cases hInsert
  obtain ⟨hCapacity, hCases⟩ := insert_cases hCache
  refine ⟨?_, hCapacity⟩
  have hTop := h.largest
  rw [← hCapacity] at hTop
  rcases hCases with ⟨rfl, hGroups⟩ | ⟨rfl, hNewer, hGroups⟩ | ⟨rfl, hGroups⟩
  · -- late: only the counter moves
    refine WellFormed.of_top ?_ (hGroups ▸ h.sorted)
    show IsTop cache.capacity l.accepted cache.groupIds
    rw [groupIds, hGroups]
    exact hTop
  · -- a newer group enters and the window slides
    have hPush := hTop.push (hCapacity ▸ hCap) (lt_of_isNewer h.increasing hNewer)
    refine WellFormed.of_top ?_ ?_
    · show IsTop cache.capacity (Insert.insert obj.groupId l.accepted) cache.groupIds
      rw [groupIds, hGroups, evict_eq_drop, map_drop, ← length_map, ← evict_eq_drop, map_append,
        map_singleton, ← hCapacity]
      exact hPush
    · intro g hg
      rw [hGroups] at hg
      rcases mem_append.mp (mem_of_mem_evict hg) with hg | hg
      · exact h.sorted g hg
      · rw [mem_singleton.mp hg]
        exact pairwise_singleton _ _
  · -- an object of a cached group
    obtain ⟨hIds, hKeep⟩ := insertInGroup_spec hGroups
    have hCached : obj.groupId ∈ l.cache.groupIds := by
      refine (noPanic_insertInGroup l.cache.groups).mp ?_
      rw [hGroups]
      exact noPanic_ok _
    refine WellFormed.of_top ?_ (hKeep h.sorted)
    show IsTop cache.capacity (Insert.insert obj.groupId l.accepted) cache.groupIds
    rw [groupIds, hIds, Finset.insert_eq_of_mem (hTop.mem _ hCached)]
    exact hTop

theorem noPanic_cacheLog_insert : (l.insert checks obj).NoPanic ↔ Placed checks l.cache obj := by
  rw [CacheLog.insert, noPanic_bind, noPanic_insert]
  simp

theorem survives_iff_of_wellFormed {objs} (hCap : 0 < l.cache.capacity) (h : l.WellFormed) :
    l.Survives checks objs ↔ l.AllPlaced checks objs := by
  induction objs generalizing l with
  | nil => exact ⟨fun _ => trivial, fun _ => h⟩
  | cons obj objs ih =>
    constructor
    · rintro ⟨-, l', hInsert, hRest⟩
      -- an insert that returned had a place for its object
      have hPlaced : Placed checks l.cache obj := by
        rw [← noPanic_cacheLog_insert, hInsert]
        exact noPanic_ok _
      refine ⟨hPlaced, fun l'' hInsert' => ?_⟩
      rw [hInsert] at hInsert'
      cases hInsert'
      obtain ⟨h', hCap'⟩ := insert_wellFormed hCap h hInsert
      exact (ih (hCap' ▸ hCap) h').mp hRest
    · rintro ⟨hPlaced, hRest⟩
      obtain ⟨l', hInsert⟩ := exists_ok_of_noPanic (noPanic_cacheLog_insert.mpr hPlaced)
      obtain ⟨h', hCap'⟩ := insert_wellFormed hCap h hInsert
      exact ⟨h, l', hInsert, (ih (hCap' ▸ hCap) h').mpr (hRest l' hInsert)⟩

/-- **The cache and arrival order.** From a new cache, every insert of the sequence returns and
leaves the window well formed exactly if each object is `Placed` when it comes: its group is cached,
or older or newer than all cached ones, and the count of late objects does not overflow. -/
theorem survives_iff {capacity : Nat} {cache : GroupCache} (objs : List Object)
    (hNew : GroupCache.new capacity = ok cache) :
    (start cache).Survives checks objs ↔ (start cache).AllPlaced checks objs := by
  unfold GroupCache.new at hNew
  split at hNew
  · rename_i hCap
    cases hNew
    refine survives_iff_of_wellFormed hCap (WellFormed.of_top (IsTop.empty capacity) ?_)
    intro g hg
    cases hg
  · cases hNew

def headOf (groupId : UInt64) : Object := ⟨groupId, 0, 0, 0, []⟩

/-- Groups 1, 3 and 4 in a cache of two, then a late object of group 1. -/
theorem survives_iff_increasing :
    GroupCache.new 2 = ok ⟨2, [], 0⟩ ∧
    (start ⟨2, [], 0⟩).Survives true [headOf 1, headOf 3, headOf 4, headOf 1] := by
  have h₁ : (start ⟨2, [], 0⟩).insert true (headOf 1) = ok ⟨⟨2, [(1, [headOf 1])], 0⟩, {1}⟩ := rfl
  have h₂ : CacheLog.insert true ⟨⟨2, [(1, [headOf 1])], 0⟩, {1}⟩ (headOf 3) =
      ok ⟨⟨2, [(1, [headOf 1]), (3, [headOf 3])], 0⟩, {3, 1}⟩ := rfl
  have h₃ : CacheLog.insert true ⟨⟨2, [(1, [headOf 1]), (3, [headOf 3])], 0⟩, {3, 1}⟩
      (headOf 4) = ok ⟨⟨2, [(3, [headOf 3]), (4, [headOf 4])], 0⟩, {4, 3, 1}⟩ := rfl
  refine ⟨by decide, (survives_iff _ (by decide : GroupCache.new 2 = ok ⟨2, [], 0⟩)).mpr ?_⟩
  refine ⟨by decide +kernel, fun l hl => ?_⟩
  rw [h₁] at hl
  cases hl
  refine ⟨by decide +kernel, fun l hl => ?_⟩
  rw [h₂] at hl
  cases hl
  refine ⟨by decide +kernel, fun l hl => ?_⟩
  rw [h₃] at hl
  cases hl
  exact ⟨by decide +kernel, fun _ _ => trivial⟩

/-- An object of group 2 lies inside the window of groups 1 and 3 and has no group. -/
theorem not_survives_gap :
    GroupCache.new 3 = ok ⟨3, [], 0⟩ ∧
    ¬ (start ⟨3, [], 0⟩).Survives true [headOf 1, headOf 3, headOf 2] := by
  have h₁ : (start ⟨3, [], 0⟩).insert true (headOf 1) = ok ⟨⟨3, [(1, [headOf 1])], 0⟩, {1}⟩ := rfl
  have h₂ : CacheLog.insert true ⟨⟨3, [(1, [headOf 1])], 0⟩, {1}⟩ (headOf 3) =
      ok ⟨⟨3, [(1, [headOf 1]), (3, [headOf 3])], 0⟩, {3, 1}⟩ := rfl
  have h₃ : CacheLog.insert true ⟨⟨3, [(1, [headOf 1]), (3, [headOf 3])], 0⟩, {3, 1}⟩
      (headOf 2) = panic (.expectFailed "group_id 落在窗口内必然存在对应 group") := rfl
  refine ⟨by decide, ?_⟩
  rintro ⟨-, l₁, hl₁, -, l₂, hl₂, -, l₃, hl₃, -⟩
  rw [h₁] at hl₁
  cases hl₁
  rw [h₂] at hl₂
  cases hl₂
  rw [h₃] at hl₃
  cases hl₃

end CacheLog

/-! ## The objects of a cached group -/

def newestGroup (objs : List Object) : List Object :=
  objs.filter fun o => objs.all fun p => p.groupId ≤ o.groupId

namespace GroupCache

theorem insertInGroup_eq_map {groups groups'} (hIds : (groups.map Prod.fst).Nodup)
    (h : insertInGroup obj groups = ok groups') :
    groups' = groups.map fun g =>
      if g.1 = obj.groupId then (g.1, insertObject obj g.2) else g := by
  induction groups generalizing groups' with
  | nil => cases h
  | cons group rest ih =>
    obtain ⟨g, objs⟩ := group
    obtain ⟨hHead, hTail⟩ := nodup_cons.mp hIds
    rw [insertInGroup] at h
    split at h
    · -- the id does not come again
      rename_i hg
      cases h
      have hRest : rest.map (fun g => if g.1 = obj.groupId then (g.1, insertObject obj g.2) else g)
          = rest := by
        refine (map_congr_left fun x hx => if_neg ?_).trans (map_id _)
        intro hx'
        refine hHead ?_
        rw [hg, ← hx']
        exact mem_map.mpr ⟨x, hx, rfl⟩
      rw [map_cons, hRest, if_pos hg]
    · rename_i hg
      obtain ⟨rest', hRest, h⟩ := bind_eq_ok.mp h
      cases h
      rw [map_cons, if_neg hg, ih hTail hRest]

/-- The cache when these objects were accepted, in this order. -/
structure Keeps (c : GroupCache) (accepted : List Object) : Prop where
  capacity : 0 < c.capacity
  wellFormed : (CacheLog.mk c (accepted.map Object.groupId).toFinset).WellFormed
  objects : ∀ g ∈ c.groups, g.2.Perm (accepted.filter fun o => o.groupId = g.1)

variable {accepted : List Object}

theorem Keeps.new {capacity} (h : GroupCache.new capacity = ok c) : c.Keeps [] := by
  unfold GroupCache.new at h
  split at h
  · rename_i hCap
    cases h
    refine ⟨hCap, CacheLog.WellFormed.of_top (IsTop.empty capacity) ?_, ?_⟩
    · intro g hg
      cases hg
    · intro g hg
      cases hg
  · cases h

section

variable (h : c.Keeps accepted)

include h

theorem Keeps.filter_newer (hNewer : c.isNewer obj = true) :
    accepted.filter (fun o => o.groupId = obj.groupId) = [] := by
  refine filter_eq_nil_iff.mpr fun o ho hSame => ?_
  have hAbove := lt_of_isNewer h.wellFormed.increasing hNewer
  have hMem : o.groupId ∈ (accepted.map Object.groupId).toFinset :=
    mem_toFinset.mpr (mem_map_of_mem ho)
  have hLt := h.wellFormed.largest.lt_of_above h.capacity hAbove o.groupId hMem
  exact absurd (of_decide_eq_true hSame) (ne_of_lt hLt)

theorem Keeps.insert_objects (hInsert : c.insert checks obj = ok (c', kept)) :
    ∀ g ∈ c'.groups, g.2.Perm
      ((if kept then accepted ++ [obj] else accepted).filter fun o => o.groupId = g.1) := by
  -- an object of another group is filtered out again
  have hOther : ∀ g ∈ c.groups, g.1 ≠ obj.groupId →
      g.2.Perm ((accepted ++ [obj]).filter fun o => o.groupId = g.1) := by
    intro g hg hne
    have hOut : [obj].filter (fun o => o.groupId = g.1) = [] := by simp [Ne.symm hne]
    rw [filter_append, hOut, append_nil]
    exact h.objects g hg
  intro g hg
  rcases (insert_cases hInsert).2 with ⟨rfl, hGroups⟩ | ⟨rfl, hNewer, hGroups⟩ | ⟨rfl, hGroups⟩
  · rw [hGroups] at hg
    exact h.objects g hg
  · rw [hGroups] at hg
    rcases mem_append.mp (mem_of_mem_evict hg) with hg | hg
    · have hLt := lt_of_isNewer h.wellFormed.increasing hNewer g.1 (mem_map_of_mem hg)
      exact hOther g hg (ne_of_lt hLt)
    · rw [mem_singleton.mp hg]
      simp [h.filter_newer hNewer]
  · have hIds : (c.groups.map Prod.fst).Nodup := h.wellFormed.increasing.imp ne_of_lt
    rw [insertInGroup_eq_map hIds hGroups] at hg
    obtain ⟨old, hOld, rfl⟩ := mem_map.mp hg
    by_cases hSame : old.1 = obj.groupId
    · -- the object is sorted in among those it had
      have hIn : [obj].filter (fun o => o.groupId = old.1) = [obj] := by simp [hSame]
      rw [if_pos hSame, if_pos rfl, filter_append, hIn, insertObject_eq]
      have hPerm := perm_orderedInsert (fun a b => a.objectId ≤ b.objectId) obj old.2
      have hAdded := (h.objects old hOld).cons obj
      exact hPerm.trans (hAdded.trans (perm_append_singleton obj _).symm)
    · rw [if_neg hSame]
      exact hOther old hOld hSame

theorem Keeps.insert (hInsert : c.insert checks obj = ok (c', kept)) :
    c'.Keeps (if kept then accepted ++ [obj] else accepted) := by
  have hLog : CacheLog.insert checks ⟨c, (accepted.map Object.groupId).toFinset⟩ obj =
      ok ⟨c', ((if kept then accepted ++ [obj] else accepted).map Object.groupId).toFinset⟩ := by
    rw [CacheLog.insert, hInsert]
    cases kept with
    | false => rfl
    | true =>
      have hSet : ((accepted ++ [obj]).map Object.groupId).toFinset =
          Insert.insert obj.groupId (accepted.map Object.groupId).toFinset := by
        ext g
        simp
      rw [if_pos rfl, hSet]
      rfl
  obtain ⟨hWellFormed, hCapacity⟩ := CacheLog.insert_wellFormed h.capacity h.wellFormed hLog
  exact ⟨hCapacity ▸ h.capacity, hWellFormed, h.insert_objects hInsert⟩

theorem Keeps.le_last {front last} (hGroups : c.groups = front ++ [last]) :
    ∀ o ∈ accepted, o.groupId ≤ last.1 := by
  intro o ho
  have hIds : c.groupIds = front.map Prod.fst ++ [last.1] := by
    rw [groupIds, hGroups, map_append, map_singleton]
  have hMem : o.groupId ∈ (accepted.map Object.groupId).toFinset :=
    mem_toFinset.mpr (mem_map_of_mem ho)
  by_cases hCached : o.groupId ∈ c.groupIds
  · have hSorted := h.wellFormed.increasing
    rw [hIds] at hSorted hCached
    rcases mem_append.mp hCached with hFront | hLast
    · exact le_of_lt ((pairwise_append.mp hSorted).2.2 _ hFront _ (mem_singleton_self _))
    · exact le_of_eq (mem_singleton.mp hLast)
  · -- older than the window
    refine le_of_lt (h.wellFormed.largest.above _ hMem hCached _ ?_)
    show last.1 ∈ c.groupIds
    rw [hIds]
    exact mem_append_right _ (mem_singleton_self _)

/-- **The snapshot.** All accepted objects of the newest group, by their ids. -/
theorem Keeps.snapshot :
    c.snapshotFromLatestGroup.Perm (newestGroup accepted) ∧
    ByObjectId c.snapshotFromLatestGroup := by
  rcases eq_nil_or_concat c.groups with hNil | ⟨front, last, hGroups⟩
  · -- nothing is cached, so nothing was accepted
    have hLen := h.wellFormed.largest.length
    have hCap := h.capacity
    have hNone : (accepted.map Object.groupId).toFinset.card = 0 := by
      simp only [groupIds, hNil, map_nil, length_nil] at hLen
      omega
    have hAccepted : accepted = [] := by
      rw [Finset.card_eq_zero, toFinset_eq_empty_iff, map_eq_nil_iff] at hNone
      exact hNone
    have hSnapshot : c.snapshotFromLatestGroup = [] := by simp [snapshotFromLatestGroup, hNil]
    rw [hSnapshot, hAccepted]
    exact ⟨List.Perm.refl _, List.Pairwise.nil⟩
  · rw [concat_eq_append] at hGroups
    have hLast : last ∈ c.groups := by
      rw [hGroups]
      exact mem_append_right _ (mem_singleton_self _)
    have hSnapshot : c.snapshotFromLatestGroup = last.2 := by
      simp [snapshotFromLatestGroup, hGroups]
    rw [hSnapshot]
    refine ⟨?_, h.wellFormed.sorted last hLast⟩
    -- to be of the last group is to be of the newest
    have hSame : newestGroup accepted = accepted.filter fun o => o.groupId = last.1 := by
      refine filter_congr fun o ho => Bool.eq_iff_iff.mpr ?_
      rw [all_eq_true, decide_eq_true_iff]
      constructor
      · intro hAll
        -- something of the last group was accepted
        obtain ⟨p, hp, hGroup⟩ : ∃ p ∈ accepted, p.groupId = last.1 := by
          have hMem := h.wellFormed.largest.mem last.1 (mem_map_of_mem hLast)
          exact mem_map.mp (mem_toFinset.mp hMem)
        have hLe : last.1 ≤ o.groupId := hGroup ▸ of_decide_eq_true (hAll p hp)
        exact le_antisymm (h.le_last hGroups o ho) hLe
      · intro hGroup p hp
        rw [hGroup]
        exact decide_eq_true (h.le_last hGroups p hp)
    rw [hSame]
    exact h.objects last hLast

end

end GroupCache

end DirectWire.Moq
