import DirectWire.Lib.Bytes

/-!
# Readers

A cursor over a byte string is what is left of it; reading is a state monad over that.
`Reader.Exact` says that a reader gets a value from the bytes a writer has made for it, leaves
what is behind them, and fails if some are missing; it has a rule for each combinator.
-/

namespace DirectWire.Lib

open Outcome List

abbrev Reader (ε α : Type) := StateT Bytes (Outcome ε) α

namespace Reader

variable {ε α β : Type} {e : ε}

/-- The next `n` bytes, or the error `e` if there are fewer. -/
def take (e : ε) (n : Nat) : Reader ε Bytes := fun r =>
  if n ≤ r.length then ok (r.take n, r.drop n) else err e

def fail (e : ε) : Reader ε α := fun _ => err e

def lift (x : Outcome ε α) : Reader ε α := fun r => x >>= fun a => ok (a, r)

/-- The same reader, `n` times. -/
def repeatN (m : Reader ε α) : Nat → Reader ε (List α)
  | 0 => pure []
  | n + 1 => do
    let a ← m
    let as ← repeatN m n
    pure (a :: as)

/-- The reader gets `a` from exactly these bytes, and fails with `e` on a part of them. -/
structure Exact (e : ε) (m : Reader ε α) (bytes : Bytes) (a : α) : Prop where
  reads : ∀ rest, m (bytes ++ rest) = ok (a, rest)
  cut : ∀ part left, bytes = part ++ left → left ≠ [] → m part = err e

theorem bind_apply (m : Reader ε α) (f : α → Reader ε β) (r : Bytes) :
    (m >>= f) r = m r >>= fun x => f x.1 x.2 := rfl

protected theorem Exact.pure (a : α) : Exact e (pure a : Reader ε α) [] a := by
  refine ⟨fun _ => rfl, fun part left hParts hLeft => ?_⟩
  exact absurd (append_eq_nil_iff.mp hParts.symm).2 hLeft

protected theorem Exact.bind {m : Reader ε α} {f : α → Reader ε β} {xs ys : Bytes} {a : α} {b : β}
    (h : Exact e m xs a) (hNext : Exact e (f a) ys b) : Exact e (m >>= f) (xs ++ ys) b := by
  constructor
  · intro rest
    rw [bind_apply, append_assoc, h.reads, ok_bind, hNext.reads]
  · intro part left hParts hLeft
    rw [bind_apply]
    rcases append_eq_append_iff.mp hParts with ⟨mid, rfl, rfl⟩ | ⟨mid, rfl, rfl⟩
    · rw [h.reads, ok_bind, hNext.cut mid left rfl hLeft]
    · cases mid with
      | nil =>
        -- the first one is whole, and nothing of the second is there
        have hWhole : m part = ok (a, []) := by
          have hReads := h.reads []
          rwa [append_nil, append_nil] at hReads
        rw [hWhole, ok_bind, hNext.cut [] ys rfl hLeft]
      | cons b mid =>
        rw [h.cut part (b :: mid) rfl (cons_ne_nil _ _), err_bind]

protected theorem Exact.map {m : Reader ε α} {xs : Bytes} {a : α} (h : Exact e m xs a) (g : α → β) :
    Exact e (do let a ← m; pure (g a)) xs (g a) := by
  have hBind := h.bind (f := fun a => pure (g a)) (Exact.pure (g a))
  rwa [append_nil] at hBind

protected theorem Exact.take (e : ε) (bytes : Bytes) :
    Exact e (take e bytes.length) bytes bytes := by
  constructor
  · intro rest
    rw [Reader.take, if_pos (by simp), take_left, drop_left]
  · rintro part left rfl hLeft
    have hPos := length_pos_iff.mpr hLeft
    rw [Reader.take, if_neg]
    rw [length_append]
    omega

protected theorem Exact.repeatN {γ : Type} {m : Reader ε α} {write : γ → Bytes} {g : γ → α}
    (h : ∀ x, Exact e m (write x) (g x)) (xs : List γ) :
    Exact e (repeatN m xs.length) (xs.flatMap write) (xs.map g) := by
  induction xs with
  | nil => exact Exact.pure []
  | cons x xs ih =>
    rw [flatMap_cons]
    exact (h x).bind (ih.map (g x :: ·))

/-- A big-endian integer of `w` bytes. -/
def word (e : ε) (w : Nat) : Reader ε Nat := do
  let bytes ← take e w
  pure (beNat bytes)

protected theorem Exact.word (e : ε) {w n : Nat} (h : n < 256 ^ w) :
    Exact e (word e w) (beBytes w n) n := by
  have hTake := Exact.take e (beBytes w n)
  rw [beBytes_length] at hTake
  have hMap := hTake.map beNat
  rwa [beNat_beBytes h] at hMap

end Reader

end DirectWire.Lib
