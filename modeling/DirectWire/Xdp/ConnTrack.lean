import DirectWire.Lib.Cells
import DirectWire.Lib.Linked
import DirectWire.Lib.Lru
import DirectWire.Lib.Map
import DirectWire.Lib.Outcome
import DirectWire.Lib.Run
import DirectWire.Xdp.Packet

/-!
# XDP edge — connection tracking

A hash map from flows to node numbers, a slab of nodes linked in the order of their last use, and
a stack of free nodes. Node numbers are `u32`, and the largest one means "none".

* `ConnTrack.Kept` — the links, the map and the free stack belong together;
* `ConnTrack.Shows` — what is kept, as a recency list (`Lib.Lru`), and for a capacity below
  `2 ^ 32` what each operation does to it.
-/

namespace DirectWire.Xdp

open Lib Outcome List Function

/-- The backend that was chosen, and when the flow was last seen. -/
structure ConnEntry where
  backendIp : UInt32
  lastSeenNs : UInt64
deriving DecidableEq, Repr

structure ConnNode where
  key : FiveTuple
  value : ConnEntry
  prev : UInt32
  next : UInt32
  used : Bool
deriving DecidableEq, Repr

/-- `NIL`, no node. -/
def noNode : UInt32 := 0xffffffff

instance : Inhabited ConnNode := ⟨⟨0, 0, 0, 0, 0⟩, ⟨0, 0⟩, noNode, noNode, false⟩

structure ConnTrack where
  map : Map FiveTuple UInt32
  nodes : List ConnNode
  free : List UInt32
  head : UInt32
  tail : UInt32
  capacity : Nat
  timeoutNs : UInt64
  evictions : UInt64

/-- `now.saturating_sub(last_seen) > timeout`. -/
def ConnEntry.expired (e : ConnEntry) (timeoutNs now : UInt64) : Bool :=
  timeoutNs.toNat < now.toNat - e.lastSeenNs.toNat

namespace ConnTrack

variable (c : ConnTrack) (idx : UInt32)

def new (capacity : Nat) (timeoutNs : UInt64) : Outcome Empty ConnTrack :=
  if 0 < capacity then ok ⟨∅, [], [], noNode, noNode, capacity, timeoutNs, 0⟩
  else panic (.expectFailed "assertion failed: capacity > 0")

/-! ## The slab and the links -/

def updateNode (g : ConnNode → ConnNode) : Outcome Empty ConnTrack := do
  let _ ← index c.nodes idx.toNat
  ok { c with nodes := c.nodes.modify idx.toNat g }

/-- The node after `idx`, or the head of the list if there is no such node. -/
def setNext (next : UInt32) : Outcome Empty ConnTrack :=
  if idx ≠ noNode then c.updateNode idx fun n => { n with next } else ok { c with head := next }

def setPrev (prev : UInt32) : Outcome Empty ConnTrack :=
  if idx ≠ noNode then c.updateNode idx fun n => { n with prev } else ok { c with tail := prev }

/-- A node as `alloc_node` makes it. -/
def newNode (key : FiveTuple) (value : ConnEntry) : ConnNode := ⟨key, value, noNode, noNode, true⟩

def allocNode (key : FiveTuple) (value : ConnEntry) : Outcome Empty (ConnTrack × UInt32) :=
  match c.free with
  | idx :: free => do
    let c ← { c with free }.updateNode idx fun _ => newNode key value
    ok (c, idx)
  | [] =>
    ok ({ c with nodes := c.nodes ++ [newNode key value] }, .ofNat c.nodes.length)

def linkHead : Outcome Empty ConnTrack :=
  if c.head ≠ noNode then c.updateNode c.head fun n => { n with prev := idx } else ok c

def pushHead : Outcome Empty ConnTrack := do
  let c ← c.updateNode idx fun n => { n with prev := noNode }
  let c ← c.updateNode idx fun n => { n with next := c.head }
  let c ← c.linkHead idx
  let c := { c with head := idx }
  ok (if c.tail = noNode then { c with tail := idx } else c)

def unlink : Outcome Empty ConnTrack := do
  let n ← index c.nodes idx.toNat
  let c ← c.setNext n.prev n.next
  c.setPrev n.next n.prev

def moveToHead : Outcome Empty ConnTrack :=
  if c.head = idx then ok c
  else do
    let c ← c.unlink idx
    c.pushHead idx

def removeAt : Outcome Empty ConnTrack := do
  let c ← c.unlink idx
  let n ← index c.nodes idx.toNat
  let c ← { c with map := c.map.erase n.key }.updateNode idx fun n => { n with used := false }
  ok { c with free := idx :: c.free }

/-! ## The operations -/

def lookup (c : ConnTrack) (key : FiveTuple) (now : UInt64) :
    Outcome Empty (ConnTrack × Option ConnEntry) :=
  match c.map.lookup key with
  | none => ok (c, none)
  | some idx => do
    let n ← index c.nodes idx.toNat
    if n.value.expired c.timeoutNs now then
      let c ← c.removeAt idx
      ok (c, none)
    else
      let c ← c.updateNode idx fun n => { n with value := { n.value with lastSeenNs := now } }
      let c ← c.moveToHead idx
      ok (c, some n.value)

/-- Make room for one more. `debug_assert!` goes with the overflow checks. -/
def makeRoom (checks : Bool) (c : ConnTrack) : Outcome Empty ConnTrack :=
  if c.capacity ≤ c.map.size then
    let victim := c.tail
    if checks ∧ victim = noNode then panic (.expectFailed "assertion failed: victim != NIL")
    else do
      let evictions ← addU64 checks c.evictions 1
      { c with evictions }.removeAt victim
  else ok c

def insert (checks : Bool) (c : ConnTrack) (key : FiveTuple) (value : ConnEntry) :
    Outcome Empty ConnTrack :=
  match c.map.lookup key with
  | some idx => do
    let c ← c.updateNode idx fun n => { n with value }
    c.moveToHead idx
  | none => do
    let c ← c.makeRoom checks
    let (c, idx) ← c.allocNode key value
    let c ← c.pushHead idx
    ok { c with map := c.map.insert key idx }

def expiredOf (c : ConnTrack) (now : UInt64) : List UInt32 → Outcome Empty (List UInt32)
  | [] => ok []
  | idx :: rest => do
    let n ← index c.nodes idx.toNat
    let rest ← c.expiredOf now rest
    ok (if n.value.expired c.timeoutNs now then idx :: rest else rest)

def removeAll (c : ConnTrack) : List UInt32 → Outcome Empty ConnTrack
  | [] => ok c
  | idx :: rest => do
    let c ← c.removeAt idx
    c.removeAll rest

/-- `map.values()` in the order of the map. -/
def values (ord : HashOrder FiveTuple) (c : ConnTrack) : List UInt32 :=
  (c.map.iterKeys ord).filterMap c.map.lookup

def sweepExpired (ord : HashOrder FiveTuple) (c : ConnTrack) (now : UInt64) :
    Outcome Empty (ConnTrack × Nat) := do
  let victims ← c.expiredOf now (c.values ord)
  let c ← c.removeAll victims
  ok (c, victims.length)

/-! ## What the operations do to the slab -/

variable {c c' : ConnTrack} {idx i x : UInt32} {g : ConnNode → ConnNode}

def nodeAt (c : ConnTrack) (i : UInt32) : ConnNode := c.nodes.getD i.toNat default

/-- The links of the nodes. Those of `noNode` are the head and the tail. -/
def links (c : ConnTrack) : Links UInt32 where
  next i := if i = noNode then c.head else (c.nodeAt i).next
  prev i := if i = noNode then c.tail else (c.nodeAt i).prev

theorem index_nodes (h : idx.toNat < c.nodes.length) :
    index c.nodes idx.toNat = (ok (c.nodeAt idx) : Outcome Empty _) := by
  refine index_of_getElem? ?_
  rw [nodeAt, getD_eq_getElem?_getD, getElem?_eq_getElem h, Option.getD_some]

theorem updateNode_eq (h : idx.toNat < c.nodes.length) :
    c.updateNode idx g = ok { c with nodes := c.nodes.modify idx.toNat g } := by
  rw [updateNode, index_nodes h, ok_bind]

theorem nodeAt_modify (h : idx.toNat < c.nodes.length) :
    ({ c with nodes := c.nodes.modify idx.toNat g } : ConnTrack).nodeAt =
      update c.nodeAt idx (g (c.nodeAt idx)) := by
  funext i
  by_cases hSame : i = idx
  · subst hSame
    simp [nodeAt, h]
  · have hOther : idx.toNat ≠ i.toNat := fun hNat => hSame (UInt32.toNat_inj.mp hNat).symm
    simp [nodeAt, hOther, update_of_ne hSame]

structure Relinked (c c' : ConnTrack) : Prop where
  map : c'.map = c.map
  length : c'.nodes.length = c.nodes.length
  free : c'.free = c.free
  capacity : c'.capacity = c.capacity
  timeoutNs : c'.timeoutNs = c.timeoutNs
  evictions : c'.evictions = c.evictions
  key : ∀ i, (c'.nodeAt i).key = (c.nodeAt i).key
  value : ∀ i, (c'.nodeAt i).value = (c.nodeAt i).value

theorem Relinked.trans {c''} (h : Relinked c c') (h' : Relinked c' c'') : Relinked c c'' where
  map := h'.map.trans h.map
  length := h'.length.trans h.length
  free := h'.free.trans h.free
  capacity := h'.capacity.trans h.capacity
  timeoutNs := h'.timeoutNs.trans h.timeoutNs
  evictions := h'.evictions.trans h.evictions
  key i := (h'.key i).trans (h.key i)
  value i := (h'.value i).trans (h.value i)

theorem relinked_ends (c : ConnTrack) (head tail : UInt32) : Relinked c { c with head, tail } :=
  ⟨rfl, rfl, rfl, rfl, rfl, rfl, fun _ => rfl, fun _ => rfl⟩

theorem relinked_modify (h : idx.toNat < c.nodes.length) (hKey : ∀ n, (g n).key = n.key)
    (hValue : ∀ n, (g n).value = n.value) :
    Relinked c { c with nodes := c.nodes.modify idx.toNat g } := by
  have hSame : ∀ i, (update c.nodeAt idx (g (c.nodeAt idx)) i).key = (c.nodeAt i).key ∧
      (update c.nodeAt idx (g (c.nodeAt idx)) i).value = (c.nodeAt i).value := by
    intro i
    by_cases hi : i = idx
    · rw [hi, update_self]
      exact ⟨hKey _, hValue _⟩
    · rw [update_of_ne hi]
      exact ⟨rfl, rfl⟩
  rw [← nodeAt_modify h] at hSame
  exact ⟨rfl, length_modify .., rfl, rfl, rfl, rfl, fun i => (hSame i).1, fun i => (hSame i).2⟩

def Valid (c : ConnTrack) (i : UInt32) : Prop := i = noNode ∨ i.toNat < c.nodes.length

theorem Relinked.valid (h : Relinked c c') (hi : c.Valid i) : c'.Valid i := by
  rw [Valid, h.length]
  exact hi

theorem links_next_nil (c : ConnTrack) : c.links.next noNode = c.head := by
  simp [links]

theorem links_prev_nil (c : ConnTrack) : c.links.prev noNode = c.tail := by
  simp [links]

theorem ite_eq_update (x y : UInt32) (f : UInt32 → UInt32) :
    (fun i => if i = noNode then x else f i) =
      update (fun i => if i = noNode then y else f i) noNode x := by
  funext j
  by_cases hj : j = noNode
  · rw [hj, update_self, if_pos rfl]
  · rw [update_of_ne hj, if_neg hj, if_neg hj]

theorem links_head (c : ConnTrack) (x : UInt32) :
    ({ c with head := x } : ConnTrack).links = ⟨update c.links.next noNode x, c.links.prev⟩ :=
  congrArg (Links.mk · _) (ite_eq_update ..)

theorem links_tail (c : ConnTrack) (x : UInt32) :
    ({ c with tail := x } : ConnTrack).links = ⟨c.links.next, update c.links.prev noNode x⟩ :=
  congrArg (Links.mk _) (ite_eq_update ..)

theorem links_modify (h : idx.toNat < c.nodes.length) (hNil : idx ≠ noNode) :
    ({ c with nodes := c.nodes.modify idx.toNat g } : ConnTrack).links =
      ⟨update c.links.next idx (g (c.nodeAt idx)).next,
        update c.links.prev idx (g (c.nodeAt idx)).prev⟩ := by
  rw [links, nodeAt_modify h]
  refine congrArg₂ Links.mk (funext fun j => ?_) (funext fun j => ?_)
  all_goals
    by_cases hj : j = idx
    · rw [hj, if_neg hNil, update_self, update_self]
    · rw [update_of_ne hj, update_of_ne hj]
      rfl

theorem setNext_spec (h : c.Valid i) (x : UInt32) : ∃ c', c.setNext i x = ok c' ∧ Relinked c c' ∧
    c'.links = ⟨update c.links.next i x, c.links.prev⟩ := by
  by_cases hNil : i = noNode
  · exact ⟨_, if_neg (not_not.mpr hNil), relinked_ends .., hNil ▸ links_head c x⟩
  · have hLt := h.resolve_left hNil
    refine ⟨_, (if_pos hNil).trans (updateNode_eq hLt), relinked_modify hLt (fun _ => rfl)
      fun _ => rfl, ?_⟩
    rw [links_modify hLt hNil]
    have hSame : (c.nodeAt i).prev = c.links.prev i := (if_neg hNil).symm
    rw [hSame, update_eq_self]

theorem setPrev_spec (h : c.Valid i) (x : UInt32) : ∃ c', c.setPrev i x = ok c' ∧ Relinked c c' ∧
    c'.links = ⟨c.links.next, update c.links.prev i x⟩ := by
  by_cases hNil : i = noNode
  · exact ⟨_, if_neg (not_not.mpr hNil), relinked_ends .., hNil ▸ links_tail c x⟩
  · have hLt := h.resolve_left hNil
    refine ⟨_, (if_pos hNil).trans (updateNode_eq hLt), relinked_modify hLt (fun _ => rfl)
      fun _ => rfl, ?_⟩
    rw [links_modify hLt hNil]
    have hSame : (c.nodeAt i).next = c.links.next i := (if_neg hNil).symm
    rw [hSame, update_eq_self]

section Lists

variable {order pre post : List UInt32}

theorem pushHead_spec (hHolds : c.links.Holds noNode order) (hValid : ∀ i ∈ order, c.Valid i)
    (hIdx : idx.toNat < c.nodes.length) (hNew : idx ∉ noNode :: order) :
    ∃ c', c.pushHead idx = ok c' ∧ Relinked c c' ∧ c'.links.Holds noNode (idx :: order) := by
  obtain ⟨hNil, hOut⟩ := not_or.mp (mt mem_cons.mpr hNew)
  -- the node's own links
  obtain ⟨c₁, h₁, r₁, l₁⟩ := setPrev_spec (.inr hIdx : c.Valid idx) noNode
  obtain ⟨c₂, h₂, r₂, l₂⟩ := setNext_spec (r₁.valid (.inr hIdx)) c₁.head
  rw [setPrev, if_pos hNil] at h₁
  rw [setNext, if_pos hNil] at h₂
  have hHead₁ : c₁.head = c.links.next noNode := by rw [← links_next_nil, l₁]
  have hHead₂ : c₂.head = c.links.next noNode := by
    rw [← links_next_nil, l₂, l₁]
    exact update_of_ne (Ne.symm hNil) ..
  have hTail₂ : c₂.tail = c.links.prev noNode := by
    rw [← links_prev_nil, l₂, l₁]
    exact update_of_ne (Ne.symm hNil) ..
  rw [pushHead, h₁, ok_bind, h₂, ok_bind]
  have hPushed := hHolds.pushFront hNew
  rw [Links.pushFront, ← hHead₂] at hPushed
  rw [hHead₁, ← hHead₂] at l₂
  by_cases hEmpty : order = []
  · -- the new node is the only one
    have hNone := hHolds.next_nil_eq_nil.mpr hEmpty
    refine ⟨{ c₂ with head := idx, tail := idx }, ?_, ?_, ?_⟩
    · rw [linkHead, if_neg (not_not.mpr (hHead₂.trans hNone)), ok_bind]
      dsimp only
      rw [if_pos (hTail₂.trans (hHolds.prev_nil_eq_nil.mpr hEmpty))]
    · exact (r₁.trans r₂).trans (relinked_ends ..)
    · rw [links_tail { c₂ with head := idx }, links_head, l₂, l₁]
      rwa [hHead₂, hNone] at hPushed ⊢
  · have hSome : c₂.head ≠ noNode := by
      rw [hHead₂]
      exact mt hHolds.next_nil_eq_nil.mp hEmpty
    have hHead : c.Valid c₂.head := by
      rw [hHead₂, hHolds.next_nil]
      rcases mem_cons.mp (Links.headD_mem noNode order) with hEnd | hMem
      · exact .inl hEnd
      · exact hValid _ hMem
    obtain ⟨c₃, h₃, r₃, l₃⟩ := setPrev_spec (r₂.valid (r₁.valid hHead)) idx
    have hTail₃ : c₃.tail ≠ noNode := by
      rw [← links_prev_nil, l₃]
      dsimp only
      rw [update_of_ne hSome.symm, links_prev_nil, hTail₂]
      exact mt hHolds.prev_nil_eq_nil.mp hEmpty
    rw [setPrev, if_pos hSome] at h₃
    refine ⟨{ c₃ with head := idx }, ?_, ?_, ?_⟩
    · rw [linkHead, if_pos hSome, h₃, ok_bind]
      dsimp only
      rw [if_neg hTail₃]
    · exact ((r₁.trans r₂).trans r₃).trans (relinked_ends ..)
    · rw [links_head, l₃, l₂, l₁]
      exact hPushed

theorem unlink_spec (hHolds : c.links.Holds noNode (pre ++ idx :: post))
    (hValid : ∀ i ∈ pre ++ idx :: post, c.Valid i) :
    ∃ c', c.unlink idx = ok c' ∧ Relinked c c' ∧ c'.links.Holds noNode (pre ++ post) := by
  have hNil : idx ≠ noNode := fun hSame =>
    (nodup_cons.mp hHolds.nodup).1 (hSame ▸ mem_append_right _ mem_cons_self)
  have hIdx := (hValid idx (mem_append_right _ mem_cons_self)).resolve_left hNil
  have hPrevSame : (c.nodeAt idx).prev = c.links.prev idx := (if_neg hNil).symm
  have hNextSame : (c.nodeAt idx).next = c.links.next idx := (if_neg hNil).symm
  have hPrev : c.Valid (c.links.prev idx) := by
    rw [hHolds.prev_eq]
    rcases mem_cons.mp (Links.getLastD_mem noNode pre) with hEnd | hMem
    · exact .inl hEnd
    · exact hValid _ (mem_append_left _ hMem)
  have hNext : c.Valid (c.links.next idx) := by
    rw [hHolds.next_eq]
    rcases mem_cons.mp (Links.headD_mem noNode post) with hEnd | hMem
    · exact .inl hEnd
    · exact hValid _ (mem_append_right _ (mem_cons_of_mem idx hMem))
  obtain ⟨c₁, h₁, r₁, l₁⟩ := setNext_spec hPrev (c.links.next idx)
  obtain ⟨c₂, h₂, r₂, l₂⟩ := setPrev_spec (r₁.valid hNext) (c.links.prev idx)
  refine ⟨c₂, ?_, r₁.trans r₂, ?_⟩
  · rw [unlink, index_nodes hIdx, ok_bind, hPrevSame, hNextSame, h₁, ok_bind, h₂]
  · rw [l₂, l₁]
    exact hHolds.unlink

/-! ## What belongs together -/

def entryAt (c : ConnTrack) (i : UInt32) : FiveTuple × ConnEntry :=
  ((c.nodeAt i).key, (c.nodeAt i).value)

structure Kept (c : ConnTrack) (order : List UInt32) : Prop where
  holds : c.links.Holds noNode order
  slab : (order ++ c.free).Perm ((range c.nodes.length).map .ofNat)
  map : c.map.entries.Perm (order.map fun i => ⟨(c.nodeAt i).key, i⟩)
  length_le : c.nodes.length ≤ c.capacity
  capacity_pos : 0 < c.capacity
  capacity_lt : c.capacity < 2 ^ 32

variable {timeoutNs now : UInt64} {value : ConnEntry}

theorem kept_new {capacity} (hLt : capacity < 2 ^ 32) (h : new capacity timeoutNs = ok c) :
    c.Kept [] ∧ c.capacity = capacity ∧ c.timeoutNs = timeoutNs := by
  unfold new at h
  split at h
  · rename_i hPos
    cases h
    refine ⟨⟨⟨nodup_singleton _, isChain_pair.mpr ⟨links_next_nil _, links_prev_nil _⟩⟩, .refl _,
      .refl _, ?_, hPos, hLt⟩, rfl, rfl⟩
    exact Nat.zero_le _
  · cases h

theorem toNat_lt_of_slab {l : List UInt32} {n : Nat} (h : l.Perm ((range n).map .ofNat))
    (hn : n < 2 ^ 32) (hi : i ∈ l) : i.toNat < n := by
  obtain ⟨j, hj, rfl⟩ := mem_map.mp (h.subset hi)
  have hLt := mem_range.mp hj
  rw [UInt32.toNat_ofNat', Nat.mod_eq_of_lt (by omega)]
  exact hLt

namespace Kept

section

variable (h : c.Kept order)

include h

theorem toNat_lt (hi : i ∈ order ++ c.free) : i.toNat < c.nodes.length :=
  toNat_lt_of_slab h.slab (h.length_le.trans_lt h.capacity_lt) hi

theorem ne_noNode (hi : i ∈ order ++ c.free) : i ≠ noNode := by
  rintro rfl
  have hLt := h.toNat_lt hi
  have hLe := h.length_le
  have hCapacity := h.capacity_lt
  change 2 ^ 32 - 1 < _ at hLt
  omega

theorem valid : ∀ i ∈ order, c.Valid i :=
  fun _ hi => .inr (h.toNat_lt (mem_append_left _ hi))

theorem nodup : (order ++ c.free).Nodup := by
  rw [h.slab.nodup_iff]
  refine nodup_range.map_on fun a ha b hb hSame => ?_
  have hLe := h.length_le
  have hCapacity := h.capacity_lt
  have ha := mem_range.mp ha
  have hb := mem_range.mp hb
  have hNat := congrArg UInt32.toNat hSame
  rwa [UInt32.toNat_ofNat', UInt32.toNat_ofNat', Nat.mod_eq_of_lt (by omega),
    Nat.mod_eq_of_lt (by omega)] at hNat

theorem length_eq : order.length + c.free.length = c.nodes.length := by
  have hLength := h.slab.length_eq
  simpa using hLength

theorem size_eq : c.map.size = order.length := by
  rw [Map.size, h.map.length_eq, length_map]

theorem lookup_eq_some {key} : c.map.lookup key = some i ↔ i ∈ order ∧ (c.nodeAt i).key = key := by
  rw [← Option.mem_def, AList.mem_lookup_iff, h.map.mem_iff, mem_map]
  constructor
  · rintro ⟨j, hj, hSame⟩
    cases hSame
    exact ⟨hj, rfl⟩
  · rintro ⟨hi, rfl⟩
    exact ⟨i, hi, rfl⟩

theorem nodup_keys : ((order.map c.entryAt).map Prod.fst).Nodup := by
  have hKeys := (h.map.map Sigma.fst).nodup_iff.mp c.map.nodupKeys
  rwa [map_map] at hKeys ⊢

theorem lookup_eq_none {key} :
    c.map.lookup key = none ↔ key ∉ (order.map c.entryAt).map Prod.fst := by
  rw [Option.eq_none_iff_forall_ne_some, map_map, mem_map]
  constructor
  · rintro hNone ⟨i, hi, rfl⟩
    exact hNone i (h.lookup_eq_some.mpr ⟨hi, rfl⟩)
  · rintro hNone i hi
    exact hNone ⟨i, h.lookup_eq_some.mp hi⟩

theorem relink {order'} (hSame : Relinked c c') (hHolds : c'.links.Holds noNode order')
    (hPerm : order'.Perm order) : c'.Kept order' where
  holds := hHolds
  slab := by
    rw [hSame.free, hSame.length]
    exact (hPerm.append_right _).trans h.slab
  map := by
    rw [hSame.map]
    refine h.map.trans ((hPerm.symm.map _).trans (.of_eq (map_congr_left fun i _ => ?_)))
    rw [hSame.key]
  length_le := by
    rw [hSame.length, hSame.capacity]
    exact h.length_le
  capacity_pos := by
    rw [hSame.capacity]
    exact h.capacity_pos
  capacity_lt := by
    rw [hSame.capacity]
    exact h.capacity_lt

theorem modify (hIdx : idx.toNat < c.nodes.length) (hNil : idx ≠ noNode)
    (hKey : ∀ n, (g n).key = n.key) (hNext : ∀ n, (g n).next = n.next)
    (hPrev : ∀ n, (g n).prev = n.prev) :
    ({ c with nodes := c.nodes.modify idx.toNat g } : ConnTrack).Kept order where
  holds := by
    have hNextSame : (c.nodeAt idx).next = c.links.next idx := (if_neg hNil).symm
    have hPrevSame : (c.nodeAt idx).prev = c.links.prev idx := (if_neg hNil).symm
    rw [links_modify hIdx hNil, hNext, hPrev, hNextSame, hPrevSame, update_eq_self, update_eq_self]
    exact h.holds
  slab := by
    rw [length_modify]
    exact h.slab
  map := by
    refine h.map.trans (.of_eq (map_congr_left fun i _ => ?_))
    rw [nodeAt_modify hIdx]
    by_cases hSame : i = idx
    · rw [hSame, update_self, hKey]
    · rw [update_of_ne hSame]
  length_le := (length_modify ..).trans_le h.length_le
  capacity_pos := h.capacity_pos
  capacity_lt := h.capacity_lt

end

theorem release (h : c.Kept (pre ++ idx :: post)) (hSame : Relinked c c')
    (hHolds : c'.links.Holds noNode (pre ++ post)) :
    ({ c' with map := c'.map.erase (c'.nodeAt idx).key, free := idx :: c'.free } :
      ConnTrack).Kept (pre ++ post) where
  holds := hHolds
  slab := by
    have hMove : (pre ++ post ++ idx :: c.free).Perm (pre ++ idx :: post ++ c.free) :=
      perm_middle.trans (perm_middle.symm.append_right c.free)
    rw [hSame.free, hSame.length]
    exact hMove.trans h.slab
  map := by
    have hErase := h.map.kerase (a := (c.nodeAt idx).key) c.map.nodupKeys
    have hNodup := (h.map.map Sigma.fst).nodup_iff.mp c.map.nodupKeys
    rw [map_append, map_cons] at hErase hNodup
    rw [map_append, map_cons, nodup_middle, nodup_cons] at hNodup
    rw [kerase_append_right fun hMem => hNodup.1 (mem_append_left _ hMem),
      kerase_cons_eq rfl, ← map_append] at hErase
    change (c'.map.erase (c'.nodeAt idx).key).entries.Perm
      ((pre ++ post).map fun i => ⟨(c'.nodeAt i).key, i⟩)
    simp only [hSame.map, hSame.key]
    exact hErase
  length_le := by
    rw [hSame.length, hSame.capacity]
    exact h.length_le
  capacity_pos := hSame.capacity ▸ h.capacity_pos
  capacity_lt := hSame.capacity ▸ h.capacity_lt

end Kept

structure SameBounds (c c' : ConnTrack) : Prop where
  capacity : c'.capacity = c.capacity
  timeoutNs : c'.timeoutNs = c.timeoutNs
  evictions : c'.evictions = c.evictions

theorem SameBounds.trans {c''} (h : SameBounds c c') (h' : SameBounds c' c'') : SameBounds c c'' :=
  ⟨h'.capacity.trans h.capacity, h'.timeoutNs.trans h.timeoutNs, h'.evictions.trans h.evictions⟩

structure Steady (c c' : ConnTrack) : Prop extends SameBounds c c' where
  entryAt : ∀ i, c'.entryAt i = c.entryAt i

theorem Relinked.steady (h : Relinked c c') : Steady c c' :=
  ⟨⟨h.capacity, h.timeoutNs, h.evictions⟩, fun i => congrArg₂ Prod.mk (h.key i) (h.value i)⟩

theorem Steady.map_entryAt (h : Steady c c') (order : List UInt32) :
    order.map c'.entryAt = order.map c.entryAt :=
  map_congr_left fun i _ => h.entryAt i

theorem moveToHead_spec (h : c.Kept (pre ++ idx :: post)) :
    ∃ c', c.moveToHead idx = ok c' ∧ c'.Kept (idx :: (pre ++ post)) ∧ Steady c c' := by
  have hMiddle : (pre ++ idx :: post).Perm (idx :: (pre ++ post)) := perm_middle
  by_cases hHead : c.head = idx
  · -- it is in front already
    have hFirst : pre = [] := by
      cases pre with
      | nil => rfl
      | cons a =>
        have hNodup := (nodup_cons.mp h.holds.nodup).2
        have hSame : a = idx := h.holds.next_nil.symm.trans ((links_next_nil c).trans hHead)
        rw [hSame] at hNodup
        exact absurd (mem_append_right _ mem_cons_self) (nodup_cons.mp hNodup).1
    subst hFirst
    exact ⟨c, if_pos hHead, h, ⟨rfl, rfl, rfl⟩, fun _ => rfl⟩
  · obtain ⟨c₁, h₁, r₁, k₁⟩ := unlink_spec h.holds h.valid
    have hNew : idx ∉ noNode :: (pre ++ post) := by
      have hNodup := nodup_cons.mp h.holds.nodup
      rw [nodup_middle, nodup_cons] at hNodup
      refine not_mem_cons_of_ne_of_not_mem ?_ hNodup.2.1
      rintro rfl
      exact hNodup.1 (mem_append_right _ mem_cons_self)
    have hIdx : idx.toNat < c.nodes.length :=
      h.toNat_lt (mem_append_left _ (mem_append_right _ mem_cons_self))
    have hValid : ∀ i ∈ pre ++ post, c₁.Valid i := fun i hi =>
      r₁.valid (h.valid i (hMiddle.symm.subset (mem_cons_of_mem idx hi)))
    obtain ⟨c₂, h₂, r₂, k₂⟩ := pushHead_spec k₁ hValid (r₁.length ▸ hIdx) hNew
    refine ⟨c₂, ?_, h.relink (r₁.trans r₂) k₂ hMiddle.symm, (r₁.trans r₂).steady⟩
    rw [moveToHead, if_neg hHead, h₁, ok_bind, h₂]

theorem removeAt_spec (h : c.Kept (pre ++ idx :: post)) :
    ∃ c', c.removeAt idx = ok c' ∧ c'.Kept (pre ++ post) ∧ Steady c c' := by
  obtain ⟨c₁, h₁, r₁, k₁⟩ := unlink_spec h.holds h.valid
  have hMem : idx ∈ pre ++ idx :: post ++ c.free :=
    mem_append_left _ (mem_append_right _ mem_cons_self)
  have hIdx : idx.toNat < c₁.nodes.length := r₁.length ▸ h.toNat_lt hMem
  have hKept := (h.release r₁ k₁).modify (g := fun n => { n with used := false }) hIdx
    (h.ne_noNode hMem) (fun _ => rfl) (fun _ => rfl) fun _ => rfl
  refine ⟨_, ?_, hKept, ?_⟩
  · rw [removeAt, h₁, ok_bind, index_nodes hIdx, ok_bind, updateNode]
    rw [index_nodes hIdx]
    rfl
  · refine ⟨⟨r₁.capacity, r₁.timeoutNs, r₁.evictions⟩, fun i => ?_⟩
    have hUsed : Relinked c₁ _ :=
      relinked_modify (g := fun n => { n with used := false }) hIdx (fun _ => rfl) fun _ => rfl
    exact (r₁.trans hUsed).steady.entryAt i

/-! ## The recency list -/

def Shows (c : ConnTrack) (l : List (FiveTuple × ConnEntry)) : Prop :=
  ∃ order, c.Kept order ∧ l = order.map c.entryAt

variable {l : List (FiveTuple × ConnEntry)} {key : FiveTuple}

theorem Shows.nodup_keys (h : c.Shows l) : (l.map Prod.fst).Nodup := by
  obtain ⟨order, hKept, rfl⟩ := h
  exact hKept.nodup_keys

def recentLookup (timeoutNs : UInt64) (l : List (FiveTuple × ConnEntry)) (key : FiveTuple)
    (now : UInt64) : List (FiveTuple × ConnEntry) × Option ConnEntry :=
  match Lru.get? l key with
  | none => (l, none)
  | some e =>
    if e.expired timeoutNs now then (Lru.without l key, none)
    else (Lru.touch l key { e with lastSeenNs := now }, some e)

theorem Kept.split (h : c.Kept order) (hFound : c.map.lookup key = some idx) :
    ∃ pre post value, order = pre ++ idx :: post ∧ c.entryAt idx = (key, value) ∧
      Lru.get? (order.map c.entryAt) key = some value ∧
      Lru.without (order.map c.entryAt) key = (pre ++ post).map c.entryAt := by
  obtain ⟨hMem, rfl⟩ := h.lookup_eq_some.mp hFound
  obtain ⟨pre, post, rfl⟩ := append_of_mem hMem
  have hNodup := h.nodup_keys
  rw [map_append, map_cons] at hNodup ⊢
  refine ⟨pre, post, _, rfl, rfl, Lru.get?_middle hNodup, ?_⟩
  rw [map_append]
  exact Lru.without_middle hNodup

theorem Kept.touch (h : c.Kept (pre ++ idx :: post)) (hKey : ∀ n, (g n).key = n.key)
    (hNext : ∀ n, (g n).next = n.next) (hPrev : ∀ n, (g n).prev = n.prev) :
    ∃ c₁ c', c.updateNode idx g = ok c₁ ∧ c₁.moveToHead idx = ok c' ∧
      c'.Kept (idx :: (pre ++ post)) ∧ SameBounds c c' ∧
      (idx :: (pre ++ post)).map c'.entryAt =
        ((c.nodeAt idx).key, (g (c.nodeAt idx)).value) :: (pre ++ post).map c.entryAt := by
  have hMem : idx ∈ pre ++ idx :: post ++ c.free :=
    mem_append_left _ (mem_append_right _ mem_cons_self)
  have hIdx := h.toNat_lt hMem
  have hKept := h.modify hIdx (h.ne_noNode hMem) hKey hNext hPrev
  obtain ⟨c', hMove, hKept', hSteady⟩ := moveToHead_spec hKept
  refine ⟨_, c', updateNode_eq hIdx, hMove, hKept', ⟨hSteady.capacity, hSteady.timeoutNs,
    hSteady.evictions⟩, ?_⟩
  have hNodup := (nodup_cons.mp h.holds.nodup).2
  rw [nodup_middle, nodup_cons] at hNodup
  rw [hSteady.map_entryAt, map_cons]
  refine congrArg₂ cons ?_ (map_congr_left fun i hi => ?_)
  · rw [entryAt, nodeAt_modify hIdx, update_self, hKey]
  · have hOther : i ≠ idx := fun hSame => hNodup.1 (hSame ▸ hi)
    rw [entryAt, nodeAt_modify hIdx, update_of_ne hOther, entryAt]

theorem Shows.lookup (h : c.Shows l) (key : FiveTuple) (now : UInt64) :
    ∃ c', c.lookup key now = ok (c', (recentLookup c.timeoutNs l key now).2) ∧
      c'.Shows (recentLookup c.timeoutNs l key now).1 ∧ SameBounds c c' := by
  obtain ⟨order, hKept, rfl⟩ := h
  cases hFound : c.map.lookup key with
  | none =>
    have hNone := Lru.get?_eq_none (hKept.lookup_eq_none.mp hFound)
    rw [ConnTrack.lookup, hFound, recentLookup, hNone]
    exact ⟨c, rfl, ⟨order, hKept, rfl⟩, rfl, rfl, rfl⟩
  | some idx =>
    obtain ⟨pre, post, value, rfl, hEntry, hGet, hWithout⟩ := hKept.split hFound
    have hIdx := hKept.toNat_lt (mem_append_left c.free (mem_append_right pre mem_cons_self))
    have hKey : (c.nodeAt idx).key = key := congrArg Prod.fst hEntry
    have hValue : (c.nodeAt idx).value = value := congrArg Prod.snd hEntry
    rw [ConnTrack.lookup, hFound, recentLookup, hGet]
    dsimp only
    rw [index_nodes hIdx, ok_bind, hValue]
    split
    · obtain ⟨c', hRemove, hKept', hSteady⟩ := removeAt_spec hKept
      refine ⟨c', by rw [hRemove, ok_bind], ⟨pre ++ post, hKept', ?_⟩, hSteady.toSameBounds⟩
      rw [hWithout, hSteady.map_entryAt]
    · obtain ⟨c₁, c', hUpdate, hMove, hKept', hBounds, hList⟩ := hKept.touch
        (g := fun n => { n with value := { n.value with lastSeenNs := now } }) (fun _ => rfl)
        (fun _ => rfl) fun _ => rfl
      refine ⟨c', by rw [hUpdate, ok_bind, hMove, ok_bind], ⟨_, hKept', ?_⟩, hBounds⟩
      rw [hList, Lru.touch, hWithout, hKey, hValue]

/-! ## A new entry -/

structure Allocated (c : ConnTrack) (order : List UInt32) (key : FiveTuple) (value : ConnEntry)
    (c' : ConnTrack) (idx : UInt32) : Prop where
  holds : c'.links.Holds noNode order
  notMem : idx ∉ noNode :: order
  toNat_lt : idx.toNat < c'.nodes.length
  entry : c'.entryAt idx = (key, value)
  others : ∀ i ∈ order, c'.entryAt i = c.entryAt i
  slab : (idx :: order ++ c'.free).Perm ((range c'.nodes.length).map .ofNat)
  map : c'.map = c.map
  length_le : c'.nodes.length ≤ c'.capacity
  bounds : SameBounds c c'

theorem holds_of_nodeAt (h : c.links.Holds noNode order) (hHead : c'.head = c.head)
    (hTail : c'.tail = c.tail) (hSame : ∀ i ∈ order, c'.nodeAt i = c.nodeAt i) :
    c'.links.Holds noNode order := by
  refine h.congr (fun i hi => ?_) fun i hi => ?_
  · rcases mem_cons.mp hi with rfl | hi
    · rw [links_next_nil, links_next_nil, hHead]
    · simp only [links, hSame i hi, hHead]
  · rcases mem_cons.mp hi with rfl | hi
    · rw [links_prev_nil, links_prev_nil, hTail]
    · simp only [links, hSame i hi, hTail]

theorem allocNode_spec (value : ConnEntry) (h : c.Kept order) (hRoom : order.length < c.capacity) :
    ∃ c' idx, c.allocNode key value = ok (c', idx) ∧ c.Allocated order key value c' idx := by
  cases hFree : c.free with
  | cons idx free =>
    have hMem : idx ∈ order ++ c.free := by simp [hFree]
    have hIdx := h.toNat_lt hMem
    have hOut : idx ∉ order := by
      have hNodup := h.nodup
      rw [hFree, nodup_middle, nodup_cons] at hNodup
      exact fun hIn => hNodup.1 (mem_append_left _ hIn)
    have hNode : ({ c with free, nodes := c.nodes.modify idx.toNat fun _ => newNode key value } :
        ConnTrack).nodeAt = update c.nodeAt idx (newNode key value) :=
      nodeAt_modify hIdx
    have hSame : ∀ i ∈ order, update c.nodeAt idx (newNode key value) i = c.nodeAt i := by
      intro i hi
      refine update_of_ne ?_ ..
      rintro rfl
      exact hOut hi
    refine ⟨{ c with free, nodes := c.nodes.modify idx.toNat fun _ => newNode key value }, idx, ?_,
      holds_of_nodeAt h.holds rfl rfl ?_, ?_, ?_, ?_, ?_, ?_, rfl, ?_, rfl, rfl, rfl⟩
    · rw [allocNode, hFree]
      dsimp only
      rw [updateNode]
      rw [index_nodes hIdx]
      rfl
    · rw [hNode]
      exact hSame
    · exact not_mem_cons_of_ne_of_not_mem (h.ne_noNode hMem) hOut
    · exact hIdx.trans_eq (length_modify ..).symm
    · rw [entryAt, hNode, update_self]
      rfl
    · intro i hi
      rw [entryAt, hNode, hSame i hi, entryAt]
    · have hSlab := h.slab
      rw [hFree] at hSlab
      rw [length_modify]
      exact perm_middle.symm.trans hSlab
    · exact (length_modify ..).trans_le h.length_le
  | nil =>
    have hLength : c.nodes.length = order.length := by simpa [hFree] using h.length_eq.symm
    have hCapacity := h.capacity_lt
    have hIdx : (UInt32.ofNat c.nodes.length).toNat = c.nodes.length := by
      rw [UInt32.toNat_ofNat', Nat.mod_eq_of_lt (by omega)]
    have hNew : ({ c with nodes := c.nodes ++ [newNode key value] } :
        ConnTrack).nodeAt (.ofNat c.nodes.length) = newNode key value := by
      simp [nodeAt, hIdx]
    have hSame : ∀ i ∈ order,
        ({ c with nodes := c.nodes ++ [newNode key value] } : ConnTrack).nodeAt i = c.nodeAt i := by
      intro i hi
      have hLt := h.toNat_lt (mem_append_left _ hi)
      simp [nodeAt, getElem?_append_left hLt]
    refine ⟨{ c with nodes := c.nodes ++ [newNode key value] }, .ofNat c.nodes.length,
      by rw [allocNode, hFree], holds_of_nodeAt h.holds rfl rfl hSame, ?_, ?_, ?_, ?_, ?_, rfl, ?_,
      rfl, rfl, rfl⟩
    · refine not_mem_cons_of_ne_of_not_mem (fun hNil => ?_) fun hIn => ?_
      · have hNat := congrArg UInt32.toNat hNil
        rw [hIdx] at hNat
        change _ = 2 ^ 32 - 1 at hNat
        omega
      · have hLt := h.toNat_lt (mem_append_left _ hIn)
        omega
    · rw [hIdx, length_append, length_singleton]
      omega
    · rw [entryAt, hNew]
      rfl
    · intro i hi
      rw [entryAt, hSame i hi, entryAt]
    · have hSlab := h.slab
      rw [hFree, append_nil] at hSlab ⊢
      rw [length_append, length_singleton, range_succ, map_append]
      exact (hSlab.cons _).trans (perm_append_singleton _ _).symm
    · rw [length_append, length_singleton]
      change c.nodes.length + 1 ≤ c.capacity
      omega

theorem makeRoom_spec (checks : Bool) (h : c.Kept order)
    (hCount : c.capacity ≤ order.length → c.evictions.toNat + 1 < 2 ^ 64 ∨ checks = false) :
    ∃ c', c.makeRoom checks = ok c' ∧
      c'.Kept (if c.capacity ≤ order.length then order.dropLast else order) ∧
      (∀ i, c'.entryAt i = c.entryAt i) ∧ c'.capacity = c.capacity ∧ c'.timeoutNs = c.timeoutNs ∧
      c'.evictions = if c.capacity ≤ order.length then c.evictions + 1 else c.evictions := by
  rw [makeRoom, h.size_eq]
  split
  · rename_i hFull
    have hPos := h.capacity_pos
    obtain ⟨pre, idx, rfl⟩ : ∃ pre idx, order = pre ++ [idx] := by
      rcases eq_nil_or_concat' order with rfl | hLast
      · rw [length_nil] at hFull
        omega
      · exact hLast
    obtain rfl : c.tail = idx := by
      rw [← links_prev_nil, h.holds.prev_nil]
      simp
    have hNil : c.tail ≠ noNode := h.ne_noNode (by simp)
    have hAdd : addU64 checks c.evictions 1 = (ok (c.evictions + 1) : Outcome Empty _) :=
      if_pos (hCount hFull)
    have hKept : ({ c with evictions := c.evictions + 1 } : ConnTrack).Kept (pre ++ c.tail :: []) :=
      ⟨h.holds, h.slab, h.map, h.length_le, h.capacity_pos, h.capacity_lt⟩
    obtain ⟨c', hRemove, hKept', hSteady⟩ := removeAt_spec hKept
    refine ⟨c', ?_, ?_, hSteady.entryAt, hSteady.capacity, hSteady.timeoutNs, hSteady.evictions⟩
    · dsimp only
      rw [if_neg fun hBad => hNil hBad.2, hAdd, ok_bind, hRemove]
    · rw [dropLast_concat]
      simpa using hKept'
  · exact ⟨c, rfl, h, fun _ => rfl, rfl, rfl, rfl⟩

theorem Allocated.kept {c₁} (h : c.Kept order) (hNew : c.map.lookup key = none)
    (hAlloc : c.Allocated order key value c₁ idx) :
    ∃ c', c₁.pushHead idx = ok c' ∧
      ({ c' with map := c'.map.insert key idx } : ConnTrack).Kept (idx :: order) ∧
      SameBounds c c' ∧
      (idx :: order).map c'.entryAt = (key, value) :: order.map c.entryAt := by
  have hLt : c₁.nodes.length < 2 ^ 32 := by
    have hLe := hAlloc.length_le
    rw [hAlloc.bounds.capacity] at hLe
    exact hLe.trans_lt h.capacity_lt
  have hValid : ∀ i ∈ order, c₁.Valid i := fun i hi =>
    .inr (toNat_lt_of_slab hAlloc.slab hLt (mem_append_left _ (mem_cons_of_mem idx hi)))
  obtain ⟨c', hPush, r, hHolds⟩ :=
    pushHead_spec hAlloc.holds hValid hAlloc.toNat_lt hAlloc.notMem
  have hKey : ∀ i ∈ order, (c'.nodeAt i).key = (c.nodeAt i).key := fun i hi =>
    (r.key i).trans (congrArg Prod.fst (hAlloc.others i hi))
  refine ⟨c', hPush, ⟨hHolds, ?_, ?_, ?_, ?_, ?_⟩, ?_, ?_⟩
  · change (idx :: order ++ c'.free).Perm ((range c'.nodes.length).map .ofNat)
    rw [r.free, r.length]
    exact hAlloc.slab
  · have hNewKey : key ∉ c.map.entries.keys := AList.lookup_eq_none.mp hNew
    have hOwn : (c₁.nodeAt idx).key = key := congrArg Prod.fst hAlloc.entry
    change (c'.map.insert key idx).entries.Perm (⟨(c'.nodeAt idx).key, idx⟩ :: order.map _)
    rw [r.map, hAlloc.map, AList.entries_insert, kerase_of_notMem_keys hNewKey, r.key, hOwn]
    refine (h.map.trans (.of_eq (map_congr_left fun i hi => ?_))).cons _
    rw [← hKey i hi]
    rfl
  · exact r.length.trans_le (hAlloc.length_le.trans_eq r.capacity.symm)
  · exact (r.capacity.trans hAlloc.bounds.capacity).symm ▸ h.capacity_pos
  · exact (r.capacity.trans hAlloc.bounds.capacity).symm ▸ h.capacity_lt
  · exact hAlloc.bounds.trans r.steady.toSameBounds
  · rw [r.steady.map_entryAt, map_cons, hAlloc.entry]
    exact congrArg _ (map_congr_left hAlloc.others)

theorem Shows.insert {checks} (h : c.Shows l)
    (hCount : key ∉ l.map Prod.fst → c.capacity ≤ l.length →
      c.evictions.toNat + 1 < 2 ^ 64 ∨ checks = false) :
    ∃ c', c.insert checks key value = ok c' ∧ c'.Shows (Lru.put c.capacity l key value) ∧
      c'.capacity = c.capacity ∧ c'.timeoutNs = c.timeoutNs ∧
      c'.evictions = if key ∉ l.map Prod.fst ∧ c.capacity ≤ l.length then c.evictions + 1
        else c.evictions := by
  obtain ⟨order, hKept, rfl⟩ := h
  cases hFound : c.map.lookup key with
  | some idx =>
    obtain ⟨pre, post, old, rfl, hEntry, hGet, hWithout⟩ := hKept.split hFound
    have hIn : key ∈ ((pre ++ idx :: post).map c.entryAt).map Prod.fst := by
      by_contra hOut
      rw [← hKept.lookup_eq_none, hFound] at hOut
      cases hOut
    obtain ⟨c₁, c', hUpdate, hMove, hKept', hBounds, hList⟩ := hKept.touch
      (g := fun n => { n with value }) (fun _ => rfl) (fun _ => rfl) fun _ => rfl
    refine ⟨c', ?_, ⟨_, hKept', ?_⟩, hBounds.capacity, hBounds.timeoutNs, ?_⟩
    · rw [ConnTrack.insert, hFound]
      dsimp only
      rw [hUpdate, ok_bind, hMove]
    · have hKey : (c.nodeAt idx).key = key := congrArg Prod.fst hEntry
      rw [hList, Lru.put, if_pos hIn, Lru.touch, hWithout, hKey]
    · rw [if_neg fun hBad => hBad.1 hIn, hBounds.evictions]
  | none =>
    have hOut := hKept.lookup_eq_none.mp hFound
    rw [List.length_map] at hCount ⊢
    obtain ⟨c₁, hRoom, hKept₁, hEntries, hCapacity, hTimeout, hEvictions⟩ :=
      makeRoom_spec checks hKept (hCount hOut)
    -- what is left still has no entry for the key
    generalize hLeft : (if c.capacity ≤ order.length then order.dropLast else order) = left
      at hKept₁
    have hSub : left.Sublist order := by
      rw [← hLeft]
      split
      · exact List.dropLast_sublist _
      · exact .refl _
    have hLess : left.length < c₁.capacity := by
      have hPos := hKept.capacity_pos
      rw [← hLeft, hCapacity]
      split
      · rw [List.length_dropLast]
        have hLe := hKept.length_eq
        have hMax := hKept.length_le
        omega
      · omega
    have hFound₁ : c₁.map.lookup key = none := by
      rw [hKept₁.lookup_eq_none, List.map_congr_left fun i _ => hEntries i]
      exact fun hIn => hOut (((hSub.map _).map _).subset hIn)
    obtain ⟨c₂, idx, hAllocate, hAlloc⟩ := allocNode_spec value hKept₁ hLess
    obtain ⟨c', hPush, hKept', hBounds, hList⟩ := hAlloc.kept hKept₁ hFound₁
    refine ⟨_, ?_, ⟨_, hKept', ?_⟩, hBounds.capacity.trans hCapacity,
      hBounds.timeoutNs.trans hTimeout, ?_⟩
    · rw [ConnTrack.insert, hFound]
      rw [hRoom, ok_bind, hAllocate, ok_bind]
      dsimp only
      rw [hPush, ok_bind]
    · change _ = (idx :: left).map c'.entryAt
      rw [hList, Lru.put, if_neg hOut, List.length_map, List.map_congr_left fun i _ => hEntries i,
        ← hLeft, apply_ite (List.map c.entryAt), List.map_dropLast]
    · refine (hBounds.evictions.trans hEvictions).trans (if_congr ?_ rfl rfl)
      exact (and_iff_right hOut).symm

theorem Shows.of_insert {checks} (h : c.Shows l) (hOk : c.insert checks key value = ok c') :
    c'.Shows (Lru.put c.capacity l key value) ∧ c'.capacity = c.capacity ∧
      c'.timeoutNs = c.timeoutNs := by
  have hCount : key ∉ l.map Prod.fst → c.capacity ≤ l.length →
      c.evictions.toNat + 1 < 2 ^ 64 ∨ checks = false := by
    intro hOut hFull
    obtain ⟨order, hKept, rfl⟩ := h
    rw [ConnTrack.insert, hKept.lookup_eq_none.mpr hOut] at hOk
    obtain ⟨c₁, hRoom, -⟩ := bind_eq_ok.mp hOk
    rw [length_map] at hFull
    rw [makeRoom, hKept.size_eq, if_pos hFull] at hRoom
    dsimp only at hRoom
    split at hRoom
    · cases hRoom
    · obtain ⟨evictions, hAdd, -⟩ := bind_eq_ok.mp hRoom
      unfold addU64 at hAdd
      split at hAdd
      · assumption
      · cases hAdd
  obtain ⟨c₁, hInsert, hShows, hCapacity, hTimeout, -⟩ := h.insert hCount
  obtain rfl : c₁ = c' := ok.inj (hInsert.symm.trans hOk)
  exact ⟨hShows, hCapacity, hTimeout⟩

theorem recentLookup_some {entry} (h : (recentLookup timeoutNs l key now).2 = some entry) :
    Lru.get? l key = some entry ∧
      (recentLookup timeoutNs l key now).1 = Lru.touch l key { entry with lastSeenNs := now } := by
  unfold recentLookup at h ⊢
  cases hGet : Lru.get? l key with
  | none => simp [hGet] at h
  | some e =>
    simp only [hGet] at h ⊢
    split at h
    · cases h
    · rename_i hLive
      cases h
      exact ⟨rfl, by rw [if_neg hLive]⟩

theorem recentLookup_none (h : (recentLookup timeoutNs l key now).2 = none) :
    (Lru.get? l key = none ∧ (recentLookup timeoutNs l key now).1 = l) ∨
      ∃ entry, Lru.get? l key = some entry ∧ entry.expired timeoutNs now = true ∧
        (recentLookup timeoutNs l key now).1 = Lru.without l key := by
  unfold recentLookup at h ⊢
  cases hGet : Lru.get? l key with
  | none => exact .inl ⟨rfl, rfl⟩
  | some e =>
    simp only [hGet] at h ⊢
    split at h
    · rename_i hExpired
      exact .inr ⟨e, rfl, hExpired, by rw [if_pos hExpired]⟩
    · cases h

/-! ## Sweeping -/

def expiredAt (c : ConnTrack) (now : UInt64) (i : UInt32) : Bool :=
  (c.entryAt i).2.expired c.timeoutNs now

theorem expiredOf_eq {idxs} (h : ∀ i ∈ idxs, i.toNat < c.nodes.length) :
    c.expiredOf now idxs = ok (idxs.filter (c.expiredAt now)) := by
  induction idxs with
  | nil => rfl
  | cons i idxs ih =>
    obtain ⟨hi, hRest⟩ := forall_mem_cons.mp h
    rw [expiredOf, index_nodes hi, ok_bind, ih hRest, ok_bind, filter_cons]
    rfl

theorem removeAll_spec {victims} (h : c.Kept order) (hNodup : victims.Nodup)
    (hSub : ∀ i ∈ victims, i ∈ order) :
    ∃ c', c.removeAll victims = ok c' ∧ c'.Kept (order.filter (· ∉ victims)) ∧ Steady c c' := by
  induction victims generalizing c order with
  | nil => exact ⟨c, rfl, by simpa using h, ⟨rfl, rfl, rfl⟩, fun _ => rfl⟩
  | cons idx victims ih =>
    obtain ⟨hOut, hNodup⟩ := nodup_cons.mp hNodup
    obtain ⟨hIn, hSub⟩ := forall_mem_cons.mp hSub
    obtain ⟨pre, post, rfl⟩ := append_of_mem hIn
    have hOrder := (nodup_cons.mp h.holds.nodup).2
    rw [nodup_middle, nodup_cons] at hOrder
    obtain ⟨c₁, hRemove, hKept, hSteady⟩ := removeAt_spec h
    have hLeft : ∀ i ∈ victims, i ∈ pre ++ post := by
      intro i hi
      have hMem := perm_middle.subset (hSub i hi)
      exact (mem_cons.mp hMem).resolve_left fun hSame => hOut (hSame ▸ hi)
    obtain ⟨c', hAll, hKept', hSteady'⟩ := ih hKept hNodup hLeft
    have hFilter : (pre ++ idx :: post).filter (· ∉ idx :: victims) =
        (pre ++ post).filter (· ∉ victims) := by
      rw [filter_append, filter_cons_of_neg (by simp), ← filter_append]
      refine filter_congr fun i hi => ?_
      have hOther : i ≠ idx := fun hSame => hOrder.1 (hSame ▸ hi)
      simp [hOther]
    refine ⟨c', ?_, hFilter ▸ hKept', hSteady.toSameBounds.trans hSteady'.toSameBounds,
      fun i => (hSteady'.entryAt i).trans (hSteady.entryAt i)⟩
    rw [removeAll, hRemove, ok_bind, hAll]

theorem Kept.nodes_perm (h : c.Kept order) : (c.map.entries.map Sigma.snd).Perm order := by
  refine (h.map.map Sigma.snd).trans (.of_eq ?_)
  rw [map_map]
  exact map_id order

theorem values_perm (ord : HashOrder FiveTuple) (h : c.Kept order) : (c.values ord).Perm order := by
  have hValues : (c.values ord).Perm (c.map.entries.map Sigma.snd) := by
    rw [← Map.filterMap_lookup]
    exact (ord.perm c.map.keys).filterMap _
  exact hValues.trans h.nodes_perm

theorem Shows.sweepExpired (ord : HashOrder FiveTuple) (h : c.Shows l) (now : UInt64) :
    ∃ c', c.sweepExpired ord now = ok (c', l.countP fun x => x.2.expired c.timeoutNs now) ∧
      c'.Shows (l.filter fun x => !x.2.expired c.timeoutNs now) ∧ SameBounds c c' := by
  obtain ⟨order, hKept, rfl⟩ := h
  have hPerm := values_perm ord hKept
  have hValid : ∀ i ∈ c.values ord, i.toNat < c.nodes.length := fun i hi =>
    hKept.toNat_lt (mem_append_left _ (hPerm.subset hi))
  have hNodup : (c.values ord).Nodup := hPerm.nodup_iff.mpr (nodup_cons.mp hKept.holds.nodup).2
  obtain ⟨c', hAll, hKept', hSteady⟩ := removeAll_spec hKept (hNodup.filter (c.expiredAt now))
    fun i hi => hPerm.subset (mem_of_mem_filter hi)
  refine ⟨c', ?_, ⟨_, hKept', ?_⟩, hSteady.toSameBounds⟩
  · rw [ConnTrack.sweepExpired, expiredOf_eq hValid, ok_bind, hAll, ok_bind,
      ← countP_eq_length_filter, hPerm.countP_eq, countP_map]
    rfl
  · rw [hSteady.map_entryAt, filter_map]
    refine congrArg _ (filter_congr fun i hi => ?_)
    have hIn : i ∈ c.values ord := hPerm.symm.subset hi
    simp [expiredAt, hIn]

/-! ## Runs -/

inductive ConnCall where
  | lookup (key : FiveTuple) (now : UInt64)
  | insert (key : FiveTuple) (value : ConnEntry)
  | sweepExpired (ord : HashOrder FiveTuple) (now : UInt64)

inductive ConnReply where
  | entry (e : Option ConnEntry)
  | done
  | swept (n : Nat)
deriving DecidableEq

def call (checks : Bool) (c : ConnTrack) : ConnCall → Outcome Empty (ConnTrack × ConnReply)
  | .lookup key now => do
    let (c, e) ← c.lookup key now
    ok (c, .entry e)
  | .insert key value => do
    let c ← c.insert checks key value
    ok (c, .done)
  | .sweepExpired ord now => do
    let (c, n) ← c.sweepExpired ord now
    ok (c, .swept n)

/-- What the table is meant to be: the pairs in the order of their last use, and the number of
those removed for want of room. -/
structure Recency where
  capacity : Nat
  timeoutNs : UInt64
  pairs : List (FiveTuple × ConnEntry)
  evictions : Nat

def Recency.call (r : Recency) : ConnCall → Recency × ConnReply
  | .lookup key now =>
    let (pairs, e) := recentLookup r.timeoutNs r.pairs key now
    ({ r with pairs }, .entry e)
  | .insert key value =>
    let full := key ∉ r.pairs.map Prod.fst ∧ r.capacity ≤ r.pairs.length
    ({ r with pairs := Lru.put r.capacity r.pairs key value
              evictions := if full then r.evictions + 1 else r.evictions }, .done)
  | .sweepExpired _ now =>
    ({ r with pairs := r.pairs.filter fun x => !x.2.expired r.timeoutNs now },
      .swept (r.pairs.countP fun x => x.2.expired r.timeoutNs now))

structure Refines (c : ConnTrack) (r : Recency) : Prop where
  shows : c.Shows r.pairs
  capacity : c.capacity = r.capacity
  timeoutNs : c.timeoutNs = r.timeoutNs
  evictions : c.evictions = .ofNat r.evictions

variable {r : Recency} {checks : Bool}

theorem Refines.call (h : c.Refines r) (hCount : r.evictions + 1 < 2 ^ 64 ∨ checks = false)
    (e : ConnCall) : ∃ c', c.call checks e = ok (c', (r.call e).2) ∧ c'.Refines (r.call e).1 := by
  obtain ⟨hShows, hCap, hTimeout, hEvictions⟩ := h
  have hKeep : ∀ {c' pairs}, c'.Shows pairs → SameBounds c c' → c'.Refines { r with pairs } :=
    fun hShows' hSame => ⟨hShows', hSame.capacity.trans hCap, hSame.timeoutNs.trans hTimeout,
      hSame.evictions.trans hEvictions⟩
  cases e with
  | lookup key now =>
    obtain ⟨c', hOk, hShows', hSame⟩ := hShows.lookup key now
    rw [hTimeout] at hOk hShows'
    exact ⟨c', by rw [ConnTrack.call, hOk]; rfl, hKeep hShows' hSame⟩
  | insert key value =>
    have hRoom : c.evictions.toNat + 1 < 2 ^ 64 ∨ checks = false :=
      hCount.imp_left fun hLt => by rw [hEvictions, UInt64.toNat_ofNat']; omega
    obtain ⟨c', hOk, hShows', hCap', hTimeout', hEvictions'⟩ :
        ∃ c', c.insert checks key value = ok c' ∧ _ := hShows.insert fun _ _ => hRoom
    rw [hCap] at hShows' hCap' hEvictions'
    refine ⟨c', by rw [ConnTrack.call, hOk]; rfl, hShows', hCap', hTimeout'.trans hTimeout, ?_⟩
    rw [hEvictions', Recency.call, hEvictions]
    split <;> simp
  | sweepExpired ord now =>
    obtain ⟨c', hOk, hShows', hSame⟩ := hShows.sweepExpired ord now
    rw [hTimeout] at hOk hShows'
    exact ⟨c', by rw [ConnTrack.call, hOk]; rfl, hKeep hShows' hSame⟩

/-- The table beside the list it is compared with, given the same calls. -/
def both (checks : Bool) (s : ConnTrack × Recency) (e : ConnCall) : Option (ConnTrack × Recency) :=
  (s.1.call checks e).toOption.map fun x => (x.1, (s.2.call e).1)

def Countable (s : ConnTrack × Recency) (_ : ConnCall) : Prop := s.2.evictions + 1 < 2 ^ 64

instance (s : ConnTrack × Recency) (e : ConnCall) : Decidable (Countable s e) := Nat.decLt ..

theorem refines_new {capacity} (hLt : capacity < 2 ^ 32) (h : new capacity timeoutNs = ok c) :
    c.Refines ⟨capacity, timeoutNs, [], 0⟩ := by
  obtain ⟨hKept, hCap, hTimeout⟩ := kept_new hLt h
  refine ⟨⟨[], hKept, rfl⟩, hCap, hTimeout, ?_⟩
  unfold new at h
  grind

variable {s : ConnTrack × Recency}

theorem Refines.both (h : s.1.Refines s.2)
    (hCount : s.2.evictions + 1 < 2 ^ 64 ∨ checks = false) (e : ConnCall) :
    ∃ s', both checks s e = some s' ∧ s'.1.Refines s'.2 ∧ s'.2 = (s.2.call e).1 := by
  obtain ⟨c', hOk, h'⟩ := h.call hCount e
  refine ⟨(c', (s.2.call e).1), ?_, h', rfl⟩
  rw [ConnTrack.both, hOk]
  rfl

/-- **The table is a recency list.** The capacity is below `2 ^ 32 - 1` (`hLt`), and the counter of
evictions does not overflow (`Countable`). After any calls the table shows the recency list of the
same calls, the nodes are shared out between the linked list and the free stack, and there are not
more entries than the capacity. The next call returns, with what the list returns. -/
theorem table_refines {capacity : Nat} (hLt : capacity < 2 ^ 32 - 1)
    (hNew : new capacity timeoutNs = ok c)
    (hRun : Run (both checks) Countable (c, ⟨capacity, timeoutNs, [], 0⟩) s) :
    (s.1.Refines s.2 ∧ s.1.evictions.toNat = s.2.evictions ∧ (s.2.pairs.map Prod.fst).Nodup) ∧
      (∃ order, s.1.links.Holds noNode order ∧ (s.1.map.entries.map Sigma.snd).Perm order ∧
        (order ++ s.1.free).Perm ((range s.1.nodes.length).map .ofNat)) ∧
      s.1.map.size ≤ s.1.capacity ∧
      ∀ e, Countable s e → ∃ c, s.1.call checks e = ok (c, (s.2.call e).2) ∧
        c.Refines (s.2.call e).1 := by
  have hInv : s.1.Refines s.2 ∧ s.2.evictions < 2 ^ 64 := by
    refine hRun.invariant (I := fun s => s.1.Refines s.2 ∧ s.2.evictions < 2 ^ 64)
      ⟨refines_new (by omega) hNew, Nat.two_pow_pos 64⟩ fun s s' e h hCount hStep => ?_
    obtain ⟨s'', hStep', hRefines, hNext⟩ := h.1.both (.inl hCount) e
    obtain rfl := Option.some.inj (hStep'.symm.trans hStep)
    refine ⟨hRefines, ?_⟩
    unfold Countable at hCount
    rw [hNext]
    cases e <;> grind [Recency.call]
  obtain ⟨hRefines, hLess⟩ := hInv
  obtain ⟨order, hKept, -⟩ := hRefines.shows
  have hNodes := hKept.length_eq
  have hMost := hKept.length_le
  refine ⟨⟨hRefines, ?_, hRefines.shows.nodup_keys⟩,
    ⟨order, hKept.holds, hKept.nodes_perm, hKept.slab⟩, ?_,
    fun e hCount => hRefines.call (.inl hCount) e⟩
  · rw [hRefines.evictions, UInt64.toNat_ofNat_of_lt' hLess]
  · rw [hKept.size_eq]
    omega

theorem table_refines_full : ∃ c s, new 1 5 = ok c ∧
    Run (both true) Countable (c, ⟨1, 5, [], 0⟩) s ∧ s.2.pairs = [(⟨2, 0, 0, 0, 0⟩, ⟨7, 9⟩)] ∧
      s.1.evictions.toNat = s.2.evictions := by
  obtain ⟨s, hRun, hTest⟩ := exists_run_of_exec (both true) Countable
    (⟨∅, [], [], noNode, noNode, 1, 5, 0⟩, ⟨1, 5, [], 0⟩)
    [.insert ⟨1, 0, 0, 0, 0⟩ ⟨6, 3⟩, .insert ⟨2, 0, 0, 0, 0⟩ ⟨7, 4⟩, .lookup ⟨2, 0, 0, 0, 0⟩ 9]
    (fun s => s.2.pairs == [(⟨2, 0, 0, 0, 0⟩, ⟨7, 9⟩)]) (by decide +kernel)
  exact ⟨_, s, rfl, hRun, beq_iff_eq.mp hTest, (table_refines (by decide) rfl hRun).1.2.1⟩

def alternate (n : Nat) : FiveTuple × ConnEntry := (⟨.ofNat (n % 2), 0, 0, 0, 0⟩, ⟨0, 0⟩)

theorem exists_alternated (h : new 1 0 = ok c) (n : Nat) :
    ∃ s, Run (both false) Always (c, ⟨1, 0, [], 0⟩) s ∧ s.1.Refines s.2 ∧
      s.2 = ⟨1, 0, [alternate n], n⟩ := by
  induction n with
  | zero =>
    obtain ⟨s, hStep, hRefines, hList⟩ := Refines.both (s := (c, ⟨1, 0, [], 0⟩))
      (refines_new (by decide) h) (.inr rfl) (.insert (alternate 0).1 (alternate 0).2)
    exact ⟨s, .step .start trivial hStep, hRefines, hList⟩
  | succ n ih =>
    obtain ⟨s, hRun, hRefines, hList⟩ := ih
    obtain ⟨s', hStep, h, hList'⟩ := hRefines.both (.inr rfl)
      (.insert (alternate (n + 1)).1 (alternate (n + 1)).2)
    refine ⟨s', .step hRun trivial hStep, h, ?_⟩
    have hNew : (alternate (n + 1)).1 ≠ (alternate n).1 := by
      rcases Nat.mod_two_eq_zero_or_one n with hn | hn <;> simp [alternate, Nat.add_mod, hn]
    rw [hList', hList, Recency.call, Lru.put]
    simp [hNew]

/-- Without overflow checks the counter is back at zero after `2 ^ 64` evictions. -/
theorem evictions_wrap : ∃ c s, new 1 0 = ok c ∧
    Run (both false) Always (c, ⟨1, 0, [], 0⟩) s ∧ s.2.evictions = 2 ^ 64 ∧ s.1.evictions = 0 := by
  obtain ⟨s, hRun, hRefines, hList⟩ := exists_alternated rfl (2 ^ 64)
  refine ⟨_, s, rfl, hRun, by rw [hList], ?_⟩
  rw [hRefines.evictions, hList]
  rfl

/-! ## Node numbers that wrap -/

theorem pushHead_relinked (hIdx : idx.toNat < c.nodes.length) (hHead : c.Valid c.head) :
    ∃ c', c.pushHead idx = ok c' ∧ Relinked c c' ∧ c'.head = idx := by
  let c₁ : ConnTrack := { c with
    nodes := c.nodes.modify idx.toNat fun n => { n with prev := noNode } }
  have r₁ : Relinked c c₁ := relinked_modify hIdx (fun _ => rfl) fun _ => rfl
  have hIdx₁ : idx.toNat < c₁.nodes.length := r₁.length ▸ hIdx
  let c₂ : ConnTrack := { c₁ with
    nodes := c₁.nodes.modify idx.toNat fun n => { n with next := c₁.head } }
  have r₂ : Relinked c₁ c₂ := relinked_modify hIdx₁ (fun _ => rfl) fun _ => rfl
  obtain ⟨c₃, h₃, r₃⟩ : ∃ c₃, c₂.linkHead idx = ok c₃ ∧ Relinked c₂ c₃ := by
    unfold linkHead
    split
    · rename_i hSome
      have hLt := ((r₁.trans r₂).valid hHead).resolve_left hSome
      exact ⟨_, updateNode_eq hLt, relinked_modify hLt (fun _ => rfl) fun _ => rfl⟩
    · exact ⟨c₂, rfl, relinked_ends ..⟩
  have hPush : c.pushHead idx =
      ok (if c₃.tail = noNode then { c₃ with head := idx, tail := idx }
        else { c₃ with head := idx }) := by
    rw [pushHead, updateNode_eq hIdx, ok_bind, updateNode_eq hIdx₁, ok_bind, h₃, ok_bind]
  refine ⟨_, hPush, ((r₁.trans r₂).trans r₃).trans ?_, ?_⟩
  · split <;> exact relinked_ends ..
  · split <;> rfl

/-- `n` flows have been entered in an empty table that has room for them, the one after the
other. -/
structure Entered (flow : Nat → FiveTuple) (first : ConnEntry) (n : Nat) (c : ConnTrack) :
    Prop where
  room : n < c.capacity
  free : c.free = []
  length : c.nodes.length = n
  size : c.map.size = n
  absent : ∀ j, n ≤ j → j < c.capacity → c.map.lookup (flow j) = none
  head : c.Valid c.head
  first : 0 < n → (c.nodeAt 0).value = first

theorem Entered.insert {flow : Nat → FiveTuple} {first n} (h : c.Entered flow first n)
    (hRoom : n + 1 < c.capacity) (hInj : ∀ j, n < j → j < c.capacity → flow j ≠ flow n)
    (hFirst : n = 0 → value = first) (checks : Bool) :
    ∃ c', c.insert checks (flow n) value = ok c' ∧ c'.Entered flow first (n + 1) ∧
      c'.capacity = c.capacity ∧ c'.timeoutNs = c.timeoutNs ∧
      c'.map.lookup (flow n) = some (.ofNat n) ∧ c'.head = .ofNat n := by
  have hNone := h.absent n le_rfl h.room
  let c₁ : ConnTrack := { c with nodes := c.nodes ++ [newNode (flow n) value] }
  have hLength : c₁.nodes.length = n + 1 := by
    rw [length_append, h.length, length_singleton]
  have hIdx : (UInt32.ofNat n).toNat < c₁.nodes.length := by
    rw [hLength, UInt32.toNat_ofNat']
    exact Nat.lt_succ_of_le (Nat.mod_le ..)
  have hHead : c₁.Valid c₁.head := h.head.imp_right fun hLt => by
    rw [hLength]
    exact (h.length ▸ hLt).trans (Nat.lt_succ_self n)
  have hAlloc : c.allocNode (flow n) value = ok (c₁, .ofNat n) := by
    unfold allocNode
    split
    · rename_i hFree
      rw [h.free] at hFree
      cases hFree
    · rw [h.length]
  obtain ⟨c₂, hPush, r, hFront⟩ := pushHead_relinked hIdx hHead
  refine ⟨{ c₂ with map := c₂.map.insert (flow n) (.ofNat n) }, ?_, ⟨?_, ?_, ?_, ?_, ?_, ?_, ?_⟩,
    r.capacity, r.timeoutNs, AList.lookup_insert _, hFront⟩
  · rw [ConnTrack.insert, hNone]
    rw [makeRoom, if_neg (by rw [h.size]; exact not_le.mpr h.room), ok_bind, hAlloc, ok_bind]
    dsimp only
    rw [hPush, ok_bind]
  · exact hRoom.trans_eq r.capacity.symm
  · exact r.free.trans h.free
  · exact r.length.trans hLength
  · change Map.size (c₂.map.insert _ _) = n + 1
    rw [r.map, Map.size_insert hNone, h.size]
  · intro j hj hLt
    change (c₂.map.insert _ _).lookup _ = none
    rw [r.map, Map.lookup_insert_ite, if_neg (hInj j hj (r.capacity ▸ hLt))]
    exact h.absent j (by omega) (r.capacity ▸ hLt)
  · refine .inr ?_
    change c₂.head.toNat < c₂.nodes.length
    rw [hFront, r.length]
    exact hIdx
  · intro _
    change (c₂.nodeAt 0).value = first
    rw [r.value]
    rcases Nat.eq_zero_or_pos n with rfl | hPos
    · have hNil : c.nodes = [] := length_eq_zero_iff.mp h.length
      rw [← hFirst rfl]
      simp [c₁, nodeAt, hNil, newNode]
    · have hLt : (0 : UInt32).toNat < c.nodes.length := h.length ▸ hPos
      rw [← h.first hPos, nodeAt, nodeAt, getD_eq_getElem?_getD, getD_eq_getElem?_getD,
        getElem?_append_left hLt]

end Lists

end ConnTrack

end DirectWire.Xdp
