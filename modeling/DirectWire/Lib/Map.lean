import Mathlib.Tactic
import Mathlib.Data.List.AList

/-!
# Hash maps

A hash map is one of Mathlib's association lists without repeated keys (`AList`). `HashOrder` is
an arbitrary choice of the order in which a map is iterated. `Map.All` is a property of every
entry, with the rule for each update.
-/

namespace DirectWire.Lib

/-- A hash map from `K` to `V`. -/
abbrev Map (K V : Type) := AList (fun _ : K => V)

/-- The order in which a hash map hands out its keys: any permutation. -/
structure HashOrder (K : Type) where
  order : List K → List K
  perm : ∀ keys, (order keys).Perm keys

def HashOrder.stored (K : Type) : HashOrder K := ⟨id, fun _ => List.Perm.refl _⟩

namespace Map

variable {K V : Type}

def size (m : Map K V) : Nat := m.entries.length

/-- The keys in the order `ord` iterates them. -/
def iterKeys (ord : HashOrder K) (m : Map K V) : List K := ord.order m.keys

/-- `m.retain(|k, v| keep(k, v))`. -/
def retain (keep : K → V → Bool) (m : Map K V) : Map K V :=
  ⟨m.entries.filter fun e => keep e.1 e.2,
    (List.filter_sublist.map _).nodup m.nodupKeys⟩

variable [DecidableEq K]

theorem lookup_insert_ite (m : Map K V) (k k' : K) (v : V) :
    (m.insert k v).lookup k' = if k' = k then some v else m.lookup k' := by
  split
  · rename_i h
    subst h
    exact AList.lookup_insert m
  · rename_i h
    exact AList.lookup_insert_ne h

theorem lookup_erase_ite (m : Map K V) (k k' : K) :
    (m.erase k).lookup k' = if k' = k then none else m.lookup k' := by
  split
  · rename_i h
    subst h
    exact AList.lookup_erase k' m
  · rename_i h
    exact AList.lookup_erase_ne h

theorem lookup_retain (keep : K → V → Bool) (m : Map K V) (k : K) :
    (m.retain keep).lookup k = (m.lookup k).filter (keep k) := by
  apply Option.ext
  intro v
  -- a key has one entry, so filtering entries filters the lookup
  have hret : v ∈ (m.retain keep).lookup k ↔
      (⟨k, v⟩ : Sigma fun _ : K => V) ∈ m.entries ∧ keep k v = true := by
    rw [AList.mem_lookup_iff]
    simp [retain, List.mem_filter]
  rw [← Option.mem_def, hret, ← AList.mem_lookup_iff]
  simp [Option.mem_def, Option.filter_eq_some_iff]

theorem filterMap_lookup (m : Map K V) : m.keys.filterMap m.lookup = m.entries.map Sigma.snd := by
  rw [AList.keys, List.keys, List.filterMap_map, ← List.filterMap_eq_map]
  exact List.filterMap_congr fun e he => AList.mem_lookup_iff.mpr he

theorem size_insert {m : Map K V} {k : K} (h : m.lookup k = none) (v : V) :
    Map.size (m.insert k v) = m.size + 1 := by
  have hNew : k ∉ m.entries.keys := AList.lookup_eq_none.mp h
  rw [size, AList.entries_insert, List.kerase_of_notMem_keys hNew, List.length_cons, size]

theorem size_replace {m : Map K V} {k : K} {v v' : V} (h : m.lookup k = some v) :
    Map.size (m.insert k v') = m.size := by
  have hKey : k ∈ m.entries.keys := AList.lookup_isSome.mp (by rw [h]; rfl)
  obtain ⟨w, l₁, l₂, -, hEq, hErase⟩ := List.exists_of_kerase hKey
  rw [size, AList.entries_insert, hErase, size, hEq]
  simp [Nat.add_assoc]

theorem erase_insert (m : Map K V) (k : K) (v : V) : (m.insert k v).erase k = m.erase k :=
  AList.ext (List.kerase_cons_eq rfl)

theorem size_ne_zero {m : Map K V} {k : K} {v : V} (h : m.lookup k = some v) : m.size ≠ 0 := by
  intro hZero
  have hMem := AList.mem_lookup_iff.mp (Option.mem_def.mpr h)
  rw [List.length_eq_zero_iff.mp hZero] at hMem
  cases hMem

/-- Every entry of the map satisfies `P`. -/
def All (P : K → V → Prop) (m : Map K V) : Prop := ∀ k v, m.lookup k = some v → P k v

variable {P Q : K → V → Prop} {m : Map K V}

theorem All.empty : All P (∅ : Map K V) := by
  intro k v h
  simp at h

theorem All.imp (h : All P m) (hPQ : ∀ k v, P k v → Q k v) : All Q m :=
  fun k v hv => hPQ k v (h k v hv)

theorem size_lt_card {s : Finset K} {k : K} (h : All (fun k _ => k ∈ s) m) (hk : k ∈ s)
    (hNew : m.lookup k = none) : m.size < s.card := by
  have hSub : insert k m.keys.toFinset ⊆ s := by
    refine Finset.insert_subset hk fun k' hk' => ?_
    obtain ⟨v, hv⟩ := Option.isSome_iff_exists.mp
      (AList.lookup_isSome.mpr (List.mem_toFinset.mp hk'))
    exact h k' v hv
  have hCard := Finset.card_le_card hSub
  rw [Finset.card_insert_of_notMem (mt List.mem_toFinset.mp (AList.lookup_eq_none.mp hNew)),
    List.toFinset_card_of_nodup m.keys_nodup] at hCard
  have hSize : m.keys.length = m.size := List.length_map ..
  omega

theorem All.insert {k : K} {v : V} (h : All P m) (hv : P k v) : All P (m.insert k v) := by
  intro k' v' h'
  rw [lookup_insert_ite] at h'
  split at h'
  · rename_i hk
    subst hk
    cases h'
    exact hv
  · exact h k' v' h'

theorem All.erase {k : K} (h : All P m) : All P (m.erase k) := by
  intro k' v' h'
  rw [lookup_erase_ite] at h'
  split at h'
  · cases h'
  · exact h k' v' h'

theorem All.retain {keep : K → V → Bool} (h : All P m) : All P (m.retain keep) := by
  intro k' v' h'
  rw [lookup_retain, Option.filter_eq_some_iff] at h'
  exact h k' v' h'.1

end Map

end DirectWire.Lib
