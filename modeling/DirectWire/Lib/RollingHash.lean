import DirectWire.Lib.Bytes

/-!
# Rolling hashes

Each step hashes the digest so far with the next value behind it. The digest has a fixed width,
so the hash gives every value back as long as the inputs that were hashed do not collide
(`roll_inj`). No hash into finitely many digests is injective outright.
-/

namespace DirectWire.Lib

open List

variable {n : Nat} (H : Bytes → Fixed n)

def roll : Fixed n → List Bytes → Fixed n
  | h, [] => h
  | h, v :: vs => roll (H (h.val ++ v)) vs

def rollInputs : Fixed n → List Bytes → List Bytes
  | _, [] => []
  | h, v :: vs => (h.val ++ v) :: rollInputs (H (h.val ++ v)) vs

def CollisionFree (inputs : List Bytes) : Prop :=
  ∀ x ∈ inputs, ∀ y ∈ inputs, H x = H y → x = y

instance decidableCollisionFree (inputs : List Bytes) : Decidable (CollisionFree H inputs) :=
  inferInstanceAs (Decidable (∀ x ∈ inputs, ∀ y ∈ inputs, H x = H y → x = y))

variable {H}

theorem CollisionFree.mono {inputs inputs' : List Bytes} (h : CollisionFree H inputs)
    (hSubset : inputs' ⊆ inputs) : CollisionFree H inputs' :=
  fun x hx y hy hEq => h x (hSubset hx) y (hSubset hy) hEq

theorem roll_append (h : Fixed n) (vs ws : List Bytes) :
    roll H h (vs ++ ws) = roll H (roll H h vs) ws := by
  induction vs generalizing h with
  | nil => rfl
  | cons v vs ih => exact ih (H (h.val ++ v))

theorem rollInputs_append (h : Fixed n) (vs ws : List Bytes) :
    rollInputs H h (vs ++ ws) = rollInputs H h vs ++ rollInputs H (roll H h vs) ws := by
  induction vs generalizing h with
  | nil => rfl
  | cons v vs ih =>
    rw [cons_append, rollInputs, ih]
    rfl

theorem rollInputs_mono {vs ws : List Bytes} (h : Fixed n) (hPrefix : vs <+: ws) :
    rollInputs H h vs ⊆ rollInputs H h ws := by
  obtain ⟨rest, rfl⟩ := hPrefix
  rw [rollInputs_append]
  exact subset_append_left _ _

theorem roll_inj {vs ws : List Bytes} {h : Fixed n} (hLen : vs.length = ws.length)
    (hFree : CollisionFree H (rollInputs H h vs ++ rollInputs H h ws))
    (hEq : roll H h vs = roll H h ws) : vs = ws := by
  -- from the last value back
  induction vs using reverseRecOn generalizing ws with
  | nil => exact (eq_nil_of_length_eq_zero hLen.symm).symm
  | append_singleton vs v ih =>
    rcases eq_nil_or_concat ws with rfl | ⟨ws, w, rfl⟩
    · simp at hLen
    · rw [concat_eq_append] at hLen hFree hEq ⊢
      have hLen' : vs.length = ws.length := by simpa using hLen
      rw [rollInputs_append, rollInputs_append] at hFree
      rw [roll_append, roll_append] at hEq
      -- the last inputs are equal, and their first parts have one width
      have hLast : (roll H h vs).val ++ v = (roll H h ws).val ++ w :=
        hFree _ (by simp [rollInputs]) _ (by simp [rollInputs]) hEq
      obtain ⟨hDigest, rfl⟩ := append_inj hLast (by simp)
      have hSubset : rollInputs H h vs ++ rollInputs H h ws ⊆
          rollInputs H h vs ++ rollInputs H (roll H h vs) [v] ++
            (rollInputs H h ws ++ rollInputs H (roll H h ws) [v]) := by
        intro x hx
        rcases mem_append.mp hx with hx | hx
        · exact mem_append_left _ (mem_append_left _ hx)
        · exact mem_append_right _ (mem_append_left _ hx)
      rw [ih hLen' (hFree.mono hSubset) (Subtype.ext hDigest)]

end DirectWire.Lib
