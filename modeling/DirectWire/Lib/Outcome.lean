import Mathlib.Tactic

/-!
# Outcomes of panicking code

A function of the source returns a value, returns an error, or panics. `Outcome ε α` is that
result, as a monad; only an error can be handled by a caller (`Outcome.attempt`). Code whose
return type has no error is modelled at `ε := Empty`.

* `Outcome.noPanic_bind`, `Outcome.Returns.bind` — the rules for sequencing;
* `slice`, `sliceFrom`, `unwrap`, `addU`, `subU` — the primitive steps that can panic.
-/

namespace DirectWire.Lib

inductive Panic where
  | outOfRange
  | overflow
  | unwrapNone
  | expectFailed (msg : String)
deriving DecidableEq, Repr

/-- The result of running code that may return an error or panic. -/
inductive Outcome (ε α : Type) where
  | ok (a : α)
  | err (e : ε)
  | panic (p : Panic)
deriving DecidableEq, Repr

namespace Outcome

variable {ε ε' α β : Type}

protected def bind (x : Outcome ε α) (f : α → Outcome ε β) : Outcome ε β :=
  match x with
  | ok a => f a
  | err e => err e
  | panic p => panic p

instance : Monad (Outcome ε) where
  pure := ok
  bind := Outcome.bind

@[simp] theorem pure_eq (a : α) : (pure a : Outcome ε α) = ok a := rfl

@[simp] theorem ok_bind (a : α) (f : α → Outcome ε β) : (ok a >>= f) = f a := rfl

@[simp] theorem err_bind (e : ε) (f : α → Outcome ε β) : (err e >>= f) = err e := rfl

@[simp] theorem panic_bind (p : Panic) (f : α → Outcome ε β) : (panic p >>= f) = panic p := rfl

variable {f : α → Outcome ε β} {x : Outcome ε α} {a : α}

/-- Inversion of a successful `do` block, one step at a time. -/
theorem bind_eq_ok {b : β} : (x >>= f) = ok b ↔ ∃ a, x = ok a ∧ f a = ok b := by
  cases x <;> simp

def attempt (x : Outcome ε α) : Outcome ε' (Except ε α) :=
  match x with
  | ok a => ok (.ok a)
  | err e => ok (.error e)
  | panic p => panic p

@[simp] theorem attempt_ok (a : α) :
    (ok a : Outcome ε α).attempt = (ok (.ok a) : Outcome ε' _) := rfl

@[simp] theorem attempt_err (e : ε) :
    (err e : Outcome ε α).attempt = (ok (.error e) : Outcome ε' _) := rfl

@[simp] theorem attempt_panic (p : Panic) :
    (panic p : Outcome ε α).attempt = (panic p : Outcome ε' _) := rfl

theorem attempt_eq_ok_ok : (x.attempt : Outcome ε' _) = ok (.ok a) ↔ x = ok a := by
  cases x <;> simp

theorem attempt_eq_ok_error {e : ε} : (x.attempt : Outcome ε' _) = ok (.error e) ↔ x = err e := by
  cases x <;> simp

def toOption : Outcome ε α → Option α
  | ok a => some a
  | _ => none

theorem toOption_eq_some : x.toOption = some a ↔ x = ok a := by
  cases x <;> simp [toOption]

/-! ## Panic freedom -/

def NoPanic (x : Outcome ε α) : Prop := ∀ p, x ≠ panic p

@[simp] theorem noPanic_ok (a : α) : (ok a : Outcome ε α).NoPanic := by
  intro p
  simp

@[simp] theorem noPanic_err (e : ε) : (err e : Outcome ε α).NoPanic := by
  intro p
  simp

@[simp] theorem noPanic_panic (p : Panic) : ¬ (panic p : Outcome ε α).NoPanic := fun h => h p rfl

@[simp] theorem noPanic_attempt : (x.attempt : Outcome ε' (Except ε α)).NoPanic ↔ x.NoPanic := by
  cases x <;> simp

theorem noPanic_bind : (x >>= f).NoPanic ↔ x.NoPanic ∧ ∀ a, x = ok a → (f a).NoPanic := by
  cases x <;> simp

theorem exists_ok_of_noPanic {x : Outcome Empty α} (h : x.NoPanic) : ∃ a, x = ok a := by
  cases x with
  | ok a => exact ⟨a, rfl⟩
  | err e => exact e.elim
  | panic p => exact absurd rfl (h p)

/-! ## Returning with a property -/

def Returns (x : Outcome ε α) (Q : α → Prop) : Prop := ∃ a, x = ok a ∧ Q a

variable {Q R : α → Prop}

theorem returns_ok (h : Q a) : (ok a : Outcome ε α).Returns Q := ⟨a, rfl, h⟩

theorem Returns.mono (h : x.Returns Q) (hImp : ∀ a, Q a → R a) : x.Returns R := by
  obtain ⟨a, hx, hQ⟩ := h
  exact ⟨a, hx, hImp a hQ⟩

theorem Returns.noPanic (h : x.Returns Q) : x.NoPanic := by
  obtain ⟨a, rfl, -⟩ := h
  exact noPanic_ok a

theorem Returns.bind {S : β → Prop} (h : x.Returns Q) (hRest : ∀ a, Q a → (f a).Returns S) :
    (x >>= f).Returns S := by
  obtain ⟨a, rfl, hQ⟩ := h
  exact hRest a hQ

theorem Returns.noPanic_bind (h : x.Returns Q) (hRest : ∀ a, Q a → (f a).NoPanic) :
    (x >>= f).NoPanic := by
  obtain ⟨a, rfl, hQ⟩ := h
  exact hRest a hQ

theorem NoPanic.returns_attempt (h : x.NoPanic) :
    (x.attempt : Outcome ε' _).Returns fun r => ∀ a, r = .ok a → x = ok a := by
  cases x with
  | ok a => exact ⟨_, rfl, fun _ hr => by cases hr; rfl⟩
  | err e => exact ⟨_, rfl, fun _ hr => by cases hr⟩
  | panic p => exact absurd rfl (h p)

end Outcome

open Outcome

/-! ## Primitive steps that can panic -/

variable {ε α : Type}

/-- `&xs[start..stop]`. -/
def slice (xs : List α) (start stop : Nat) : Outcome ε (List α) :=
  if start ≤ stop ∧ stop ≤ xs.length then ok ((xs.drop start).take (stop - start))
  else panic .outOfRange

/-- `&xs[start..]`. -/
def sliceFrom (xs : List α) (start : Nat) : Outcome ε (List α) :=
  if start ≤ xs.length then ok (xs.drop start) else panic .outOfRange

/-- `xs[i]`. -/
def index (xs : List α) (i : Nat) : Outcome ε α :=
  match xs[i]? with
  | some a => ok a
  | none => panic .outOfRange

/-- `xs[start..start + ys.len()].copy_from_slice(ys)`. -/
def overwrite (xs : List α) (start : Nat) (ys : List α) : Outcome ε (List α) :=
  if start + ys.length ≤ xs.length then
    ok (xs.take start ++ ys ++ xs.drop (start + ys.length))
  else panic .outOfRange

/-- `x.unwrap()`. -/
def unwrap : Option α → Outcome ε α
  | some a => ok a
  | none => panic .unwrapNone

/-- `x.ok_or(e)?`. -/
def okOr (x : Option α) (e : ε) : Outcome ε α :=
  match x with
  | some a => ok a
  | none => err e

/-- `usize::MAX + 1` on the 64-bit targets. -/
def usizeBound : Nat := 2 ^ 64

/-- `a + b` on `usize`. `checks` is the build's `overflow-checks` setting:
the sum that does not fit panics with it and wraps without. -/
def addU (checks : Bool) (a b : Nat) : Outcome ε Nat :=
  if a + b < usizeBound then ok (a + b)
  else if checks then panic .overflow else ok ((a + b) % usizeBound)

/-- `a - b` on `usize`. -/
def subU (checks : Bool) (a b : Nat) : Outcome ε Nat :=
  if b ≤ a then ok (a - b)
  else if checks then panic .overflow else ok (usizeBound + a - b)

/-- `a * b` on `usize`. -/
def mulU (checks : Bool) (a b : Nat) : Outcome ε Nat :=
  if a * b < usizeBound then ok (a * b)
  else if checks then panic .overflow else ok ((a * b) % usizeBound)

/-- `a + b` on `u32`. -/
def addU32 (checks : Bool) (a b : UInt32) : Outcome ε UInt32 :=
  if a.toNat + b.toNat < 2 ^ 32 ∨ checks = false then ok (a + b) else panic .overflow

/-- `a + b` on `u64`. -/
def addU64 (checks : Bool) (a b : UInt64) : Outcome ε UInt64 :=
  if a.toNat + b.toNat < 2 ^ 64 ∨ checks = false then ok (a + b) else panic .overflow

variable {start a b : Nat} {xs ys : List α} {x : Option α} {checks : Bool}

theorem slice_eq_ok {stop : Nat} :
    slice xs start stop = (ok ys : Outcome ε _) ↔
      (start ≤ stop ∧ stop ≤ xs.length) ∧ (xs.drop start).take (stop - start) = ys := by
  unfold slice
  split <;> simp_all

theorem sliceFrom_eq_ok :
    sliceFrom xs start = (ok ys : Outcome ε _) ↔ start ≤ xs.length ∧ xs.drop start = ys := by
  unfold sliceFrom
  split <;> simp_all

theorem index_of_getElem? {i : Nat} {a : α} (h : xs[i]? = some a) :
    index xs i = (ok a : Outcome ε α) := by
  rw [index, h]

theorem overwrite_eq_ok {zs : List α} :
    overwrite xs start ys = (ok zs : Outcome ε _) ↔
      start + ys.length ≤ xs.length ∧ xs.take start ++ ys ++ xs.drop (start + ys.length) = zs := by
  unfold overwrite
  split <;> simp_all

@[simp] theorem noPanic_slice {stop : Nat} :
    (slice xs start stop : Outcome ε _).NoPanic ↔ start ≤ stop ∧ stop ≤ xs.length := by
  unfold slice
  split <;> simp_all

@[simp] theorem noPanic_sliceFrom :
    (sliceFrom xs start : Outcome ε _).NoPanic ↔ start ≤ xs.length := by
  unfold sliceFrom
  split <;> simp_all

@[simp] theorem noPanic_index {i : Nat} : (index xs i : Outcome ε _).NoPanic ↔ i < xs.length := by
  unfold index
  split
  · rename_i h
    simpa using (List.getElem?_eq_some_iff.mp h).1
  · simp_all

@[simp] theorem noPanic_overwrite :
    (overwrite xs start ys : Outcome ε _).NoPanic ↔ start + ys.length ≤ xs.length := by
  unfold overwrite
  split <;> simp_all

@[simp] theorem noPanic_unwrap : (unwrap x : Outcome ε _).NoPanic ↔ x.isSome := by
  cases x <;> simp [unwrap]

@[simp] theorem noPanic_okOr {e : ε} : (okOr x e).NoPanic := by
  cases x <;> simp [okOr]

@[simp] theorem okOr_some (a : α) (e : ε) : okOr (some a) e = ok a := rfl

@[simp] theorem okOr_none (e : ε) : (okOr none e : Outcome ε α) = err e := rfl

theorem okOr_eq_ok {e : ε} {a : α} : okOr x e = ok a ↔ x = some a := by
  cases x <;> simp

@[simp] theorem unwrap_some (a : α) : (unwrap (some a) : Outcome ε α) = ok a := rfl

theorem unwrap_eq_ok {a : α} : unwrap x = (ok a : Outcome ε α) ↔ x = some a := by
  cases x <;> simp [unwrap]

theorem addU_of_lt (h : a + b < usizeBound) : addU checks a b = (ok (a + b) : Outcome ε _) := by
  simp [addU, h]

theorem noPanic_addU :
    (addU checks a b : Outcome ε _).NoPanic ↔ a + b < usizeBound ∨ checks = false := by
  unfold addU
  split
  · simp_all
  · cases checks <;> simp_all

theorem addU64_of_lt {a b : UInt64} (h : a.toNat + b.toNat < 2 ^ 64) :
    addU64 checks a b = (ok (a + b) : Outcome ε _) :=
  if_pos (.inl h)

theorem addU64_false (a b : UInt64) : addU64 false a b = (ok (a + b) : Outcome ε _) :=
  if_pos (.inr rfl)

theorem addU64_ofNat_one {k : Nat} (h : k + 1 < 2 ^ 64) :
    addU64 checks (.ofNat k) 1 = (ok (.ofNat (k + 1)) : Outcome ε _) := by
  rw [addU64_of_lt]
  · simp
  · rw [UInt64.toNat_ofNat', Nat.mod_eq_of_lt (by omega)]
    exact h

theorem addU64_eq_ok {a b c : UInt64} (h : addU64 checks a b = (ok c : Outcome ε _)) :
    c = a + b := by
  unfold addU64 at h
  split at h
  · cases h
    rfl
  · cases h

theorem toNat_add_one {a : UInt64} (h : a.toNat + 1 < 2 ^ 64) : (a + 1).toNat = a.toNat + 1 := by
  rw [UInt64.toNat_add]
  exact Nat.mod_eq_of_lt h

theorem noPanic_addU64 {a b : UInt64} :
    (addU64 checks a b : Outcome ε _).NoPanic ↔ (checks = true → a.toNat + b.toNat < 2 ^ 64) := by
  unfold addU64
  cases checks <;> split <;> simp_all

theorem subU_of_le (h : b ≤ a) : subU checks a b = (ok (a - b) : Outcome ε _) := by
  simp [subU, h]

/-! ## Loops -/

/-- `for k in ks { body }`, where the body updates `σ` and emits items. -/
def forEach {σ κ ω : Type} (body : σ → κ → Outcome ε (σ × List ω)) :
    σ → List κ → Outcome ε (σ × List ω)
  | s, [] => ok (s, [])
  | s, k :: ks => do
    let (s, out) ← body s k
    let (s, rest) ← forEach body s ks
    ok (s, out ++ rest)

section ForEach

variable {σ κ ω : Type} {body : σ → κ → Outcome ε (σ × List ω)}

variable {I : σ → Prop} {ks : List κ} {out : List ω} {s s' : σ}

theorem forEach_rel {R : σ → σ → List ω → Prop} (hRefl : ∀ s, R s s [])
    (hTrans : ∀ s t u o₁ o₂, R s t o₁ → R t u o₂ → R s u (o₁ ++ o₂))
    (hBody : ∀ s, ∀ k ∈ ks, ∀ s' out, I s → body s k = ok (s', out) → I s' ∧ R s s' out) (hI : I s)
    (h : forEach body s ks = ok (s', out)) : I s' ∧ R s s' out := by
  induction ks generalizing s out with
  | nil =>
    cases h
    exact ⟨hI, hRefl _⟩
  | cons k ks ih =>
    obtain ⟨⟨t, o₁⟩, hFirst, h⟩ := bind_eq_ok.mp h
    obtain ⟨⟨u, o₂⟩, hRest, h⟩ := bind_eq_ok.mp h
    cases h
    obtain ⟨hIt, hRel⟩ := hBody s k List.mem_cons_self t o₁ hI hFirst
    obtain ⟨hIu, hRel'⟩ := ih (fun s k hk => hBody s k (List.mem_cons_of_mem _ hk)) hIt hRest
    exact ⟨hIu, hTrans _ _ _ _ _ hRel hRel'⟩

theorem forEach_spec {Q : ω → Prop}
    (hBody : ∀ s k s' out, I s → body s k = ok (s', out) → I s' ∧ ∀ a ∈ out, Q a) (hI : I s)
    (h : forEach body s ks = ok (s', out)) : I s' ∧ ∀ a ∈ out, Q a :=
  forEach_rel (R := fun _ _ out => ∀ a ∈ out, Q a) (by simp)
    (fun _ _ _ _ _ h₁ h₂ => List.forall_mem_append.mpr ⟨h₁, h₂⟩) (fun s k _ => hBody s k) hI h

theorem noPanic_forEach_mem (hBody : ∀ s, ∀ k ∈ ks, I s → (body s k).NoPanic)
    (hKeep : ∀ s k s' out, I s → body s k = ok (s', out) → I s') (hI : I s) :
    (forEach body s ks).NoPanic := by
  induction ks generalizing s with
  | nil => simp [forEach]
  | cons k ks ih =>
    rw [forEach, noPanic_bind]
    -- the rest starts from a state that satisfies the invariant again
    refine ⟨hBody s k List.mem_cons_self hI, fun ⟨t, o₁⟩ h₁ => ?_⟩
    rw [noPanic_bind]
    refine ⟨ih (fun s k hk => hBody s k (List.mem_cons_of_mem _ hk)) (hKeep s k t o₁ hI h₁), ?_⟩
    exact fun _ _ => noPanic_ok _

theorem noPanic_forEach (hBody : ∀ s k, I s → (body s k).NoPanic)
    (hKeep : ∀ s k s' out, I s → body s k = ok (s', out) → I s') (ks : List κ) (hI : I s) :
    (forEach body s ks).NoPanic :=
  noPanic_forEach_mem (fun s k _ => hBody s k) hKeep hI

end ForEach

end DirectWire.Lib
