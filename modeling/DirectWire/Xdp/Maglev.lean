import DirectWire.Lib.Cells
import DirectWire.Lib.Outcome
import DirectWire.Lib.Run
import DirectWire.Lib.Turns
import DirectWire.Xdp.Packet

/-!
# XDP edge — Maglev tables

The backends take turns, and each takes the next free slot of its own order, from two hashes of
its address. The loop of the source is `Filling.step`, one look at a slot, and `fill`, which
returns nothing when `fuel` looks are not enough.

* `Filling.Shows.step` — the loop plays the game of `Lib.Turns`.
-/

namespace DirectWire.Xdp

open Lib Outcome List Turns

def u32Max : UInt32 := 0xffffffff

/-! ## The hashes -/

/-- The loop of `is_prime`. It is left with the divisor `n`, if not before. -/
def isPrimeFrom (checks : Bool) (n : Nat) : Nat → Nat → Outcome Empty Bool
  | 0, _ => ok true
  | fuel + 1, i => do
    let square ← mulU checks i i
    if square ≤ n then
      if n % i = 0 then ok false else isPrimeFrom checks n fuel (← addU checks i 1)
    else ok true

def isPrime (checks : Bool) (n : Nat) : Outcome Empty Bool :=
  if n < 2 then ok false else isPrimeFrom checks n n 2

def mix64 (x : UInt64) : UInt64 :=
  let x := x ^^^ (x >>> 30)
  let x := x * 0xbf58476d1ce4e5b9
  let x := x ^^^ (x >>> 27)
  let x := x * 0x94d049bb133111eb
  x ^^^ (x >>> 31)

def hashOffset (backend : UInt32) (m : UInt64) : UInt64 :=
  mix64 (backend.toUInt64 ^^^ 0x9e3779b97f4a7c15) % m

def hashSkip (backend : UInt32) (m : UInt64) : UInt64 :=
  mix64 (backend.toUInt64 ^^^ 0xc2b2ae3d27d4eb4f) % (m - 1) + 1

def flowHash (t : FiveTuple) : UInt64 :=
  let x := t.srcIp.toUInt64 <<< 32 ||| t.dstIp.toUInt64
  let x := x * 0x100000001b3
  let x := x ^^^ (t.srcPort.toUInt64 <<< 16 ||| t.dstPort.toUInt64)
  let x := x ^^^ (t.protocol.toUInt64 <<< 48)
  mix64 x

/-! ## Filling a table -/

/-- The variables of the loop of `build_lut`. -/
structure Filling where
  table : List UInt32
  next : List UInt64
  filled : Nat
  /-- The `i` of the `for` loop. -/
  turn : Nat
deriving DecidableEq, Repr

section BuildLut

variable (checks : Bool) (m : Nat) (backends : List UInt32)

def Filling.start : Filling :=
  ⟨replicate m u32Max, replicate backends.length 0, 0, 0⟩

/-- The body of the inner `loop`. When it has found a slot, it is the next backend's turn. -/
def Filling.step (f : Filling) : Outcome Empty Filling := do
  let backend ← index backends f.turn
  let next ← index f.next f.turn
  let m64 := UInt64.ofNat m
  let c := ((hashOffset backend m64 + next * hashSkip backend m64) % m64).toNat
  let f := { f with next := f.next.set f.turn (← addU64 checks next 1) }
  if (← index f.table c) = u32Max then
    ok { f with
      table := f.table.set c (UInt32.ofNat f.turn)
      filled := f.filled + 1
      turn := if f.turn + 1 = backends.length then 0 else f.turn + 1 }
  else ok f

/-- The three loops of `build_lut`, for `fuel` looks at a slot. -/
def fill : Nat → Filling → Option (Outcome Empty (List UInt32))
  | 0, _ => none
  | fuel + 1, f =>
    if f.filled = m then some (ok f.table)
    else match f.step checks m backends with
      | .ok f => fill fuel f
      | .panic p => some (panic p)

def buildLut (fuel : Nat) : Option (Outcome Empty (List UInt32)) :=
  match isPrime checks m with
  | .panic p => some (panic p)
  | .ok false => some (panic (.expectFailed "Maglev 表大小必须为质数"))
  | .ok true =>
    if backends.isEmpty then some (panic (.expectFailed "后端列表不能为空"))
    else fill checks m backends fuel (.start m backends)

end BuildLut

structure Maglev where
  m : Nat
  table : List UInt32
  backends : List UInt32
deriving DecidableEq, Repr

namespace Maglev

def new (checks : Bool) (m : Nat) : Outcome Empty Maglev := do
  if ← isPrime checks m then ok ⟨m, replicate m u32Max, []⟩
  else panic (.expectFailed "Maglev 表大小必须为质数")

def rebuild (checks : Bool) (fuel : Nat) (g : Maglev) (backends : List UInt32) :
    Option (Outcome Empty Maglev) :=
  (buildLut checks g.m backends fuel).map fun built => do ok { g with table := ← built, backends }

def loadTable (g : Maglev) (backends table : List UInt32) : Outcome Empty Maglev :=
  if table.length ≠ g.m then panic (.expectFailed "LUT 尺寸与表大小不符")
  else if table.all fun v => v.toNat < backends.length then ok { g with backends, table }
  else panic (.expectFailed "LUT 含越界后端索引")

def slot (g : Maglev) (flowKey : UInt64) : Nat := (flowKey % .ofNat g.m).toNat

def lookup (g : Maglev) (flowKey : UInt64) : Outcome Empty UInt32 := do
  index g.backends (← index g.table (g.slot flowKey)).toNat

end Maglev

/-! ## Trial division -/

theorem isPrimeFrom_eq {checks n} (hTwo : 2 ≤ n) (hn : n < 2 ^ 32) {fuel i} (hi : 2 ≤ i)
    (hFuel : n < fuel + i) (hNone : ∀ d, 2 ≤ d → d < i → ¬ d ∣ n) :
    isPrimeFrom checks n fuel i = ok (decide n.Prime) := by
  have hLe : i ≤ n := by
    by_contra hPassed
    exact hNone n hTwo (by omega) dvd_rfl
  induction fuel generalizing i with
  | zero => omega
  | succ fuel ih =>
    have hSquare : i * i < usizeBound := by
      have hMul : i * i ≤ n * n := Nat.mul_le_mul hLe hLe
      have hBound : n * n < 2 ^ 32 * 2 ^ 32 := Nat.mul_lt_mul'' hn hn
      rw [usizeBound]
      omega
    rw [isPrimeFrom, mulU, if_pos hSquare, ok_bind]
    split
    · rename_i hSmall
      split
      · rename_i hDvd
        -- a divisor other than one and the number itself
        have hLess : i < n := by nlinarith
        have hComposite : ¬ n.Prime := fun hPrime => by
          rcases (Nat.dvd_prime hPrime).mp (Nat.dvd_of_mod_eq_zero hDvd) with h | h <;> omega
        rw [decide_eq_false hComposite]
      · rename_i hNotDvd
        have hLess : i < n := by nlinarith
        rw [addU_of_lt (by rw [usizeBound]; omega), ok_bind]
        refine ih (by omega) (by omega) (fun d hd hdi => ?_) (by omega)
        rcases Nat.lt_succ_iff_lt_or_eq.mp hdi with hdi | rfl
        · exact hNone d hd hdi
        · exact fun hDvd => hNotDvd (Nat.mod_eq_zero_of_dvd hDvd)
    · rename_i hLarge
      have hPrime : n.Prime := by
        by_contra hComposite
        -- its least divisor would have been found
        have hMin := Nat.minFac_sq_le_self (by omega) hComposite
        refine hNone n.minFac (Nat.minFac_prime (by omega)).two_le ?_ (Nat.minFac_dvd n)
        nlinarith
      rw [decide_eq_true hPrime]

/-- Trial division decides primality. -/
theorem isPrime_eq {checks n} (hn : n < 2 ^ 32) : isPrime checks n = ok (decide n.Prime) := by
  unfold isPrime
  split
  · rename_i hSmall
    have hComposite : ¬ n.Prime := fun hPrime => by
      have := hPrime.two_le
      omega
    rw [decide_eq_false hComposite]
  · rename_i hTwo
    exact isPrimeFrom_eq (by omega) hn le_rfl (by omega) (fun d hd hLess => by omega)

/-! ## The loop plays in turns -/

variable {checks : Bool} {m : Nat} {backends : List UInt32}

def probe (m : Nat) (backends : List UInt32) (i k : Nat) : Nat :=
  let backend := backends.getD i 0
  ((hashOffset backend (.ofNat m)).toNat + k * (hashSkip backend (.ofNat m)).toNat) % m

theorem toNat_ofNat64 {k : Nat} (h : k < 2 ^ 64) : (UInt64.ofNat k).toNat = k :=
  UInt64.toNat_ofNat_of_lt' h

section Probes

variable (hm : m.Prime) (hBound : m < 2 ^ 32) (backend : UInt32)
include hm hBound

theorem toNat_hashOffset_lt : (hashOffset backend (.ofNat m)).toNat < m := by
  rw [hashOffset, UInt64.toNat_mod, toNat_ofNat64 (by omega)]
  exact Nat.mod_lt _ hm.pos

theorem toNat_hashSkip :
    0 < (hashSkip backend (.ofNat m)).toNat ∧ (hashSkip backend (.ofNat m)).toNat < m := by
  have hTwo := hm.two_le
  have hPred : (UInt64.ofNat m - 1).toNat = m - 1 := by
    have hOne : (1 : UInt64) ≤ .ofNat m := by
      rw [UInt64.le_iff_toNat_le, toNat_ofNat64 (by omega)]
      exact hm.one_le
    rw [UInt64.toNat_sub_of_le _ _ hOne, toNat_ofNat64 (by omega)]
    rfl
  have hRest := Nat.mod_lt (mix64 (backend.toUInt64 ^^^ 0xc2b2ae3d27d4eb4f)).toNat
    (show 0 < m - 1 by omega)
  have hSkip : (hashSkip backend (.ofNat m)).toNat =
      (mix64 (backend.toUInt64 ^^^ 0xc2b2ae3d27d4eb4f)).toNat % (m - 1) + 1 := by
    rw [hashSkip, UInt64.toNat_add, UInt64.toNat_mod, hPred]
    exact Nat.mod_eq_of_lt (by change _ + 1 < 2 ^ 64; omega)
  omega

theorem probe_lt_two_pow {k} (hk : k ≤ m) :
    (hashOffset backend (.ofNat m)).toNat + k * (hashSkip backend (.ofNat m)).toNat < 2 ^ 64 := by
  have hOffset := toNat_hashOffset_lt hm hBound backend
  obtain ⟨-, hSkip⟩ := toNat_hashSkip hm hBound backend
  have hMul : k * (hashSkip backend (.ofNat m)).toNat ≤ m * (m - 1) := Nat.mul_le_mul hk (by omega)
  have hPow : m * m < 2 ^ 32 * 2 ^ 32 := Nat.mul_lt_mul'' hBound hBound
  have hEq : m * (m - 1) + m = m * m := by
    rw [Nat.mul_sub_one, Nat.sub_add_cancel (Nat.le_mul_self m)]
  omega

theorem toNat_slot {k} (hk : k ≤ m) :
    ((hashOffset backend (.ofNat m) + .ofNat k * hashSkip backend (.ofNat m)) %
      UInt64.ofNat m).toNat =
    ((hashOffset backend (.ofNat m)).toNat + k * (hashSkip backend (.ofNat m)).toNat) % m := by
  rw [UInt64.toNat_mod, toNat_ofNat64 (by omega), UInt64.toNat_add, UInt64.toNat_mul,
    toNat_ofNat64 (by omega), Nat.add_mod_mod,
    Nat.mod_eq_of_lt (probe_lt_two_pow hm hBound backend hk)]

end Probes

theorem probe_lt (hm : m.Prime) (i k : Nat) : probe m backends i k < m := Nat.mod_lt _ hm.pos

theorem slot_lt (hm : m.Prime) {t : Turns} : t.slot (probe m backends) < m := by
  rw [slot]
  exact probe_lt hm _ _

def cell : Option Nat → UInt32
  | none => u32Max
  | some i => .ofNat i

theorem cell_eq_u32Max {o} (h : ∀ i, o = some i → i < 2 ^ 32 - 1) : cell o = u32Max ↔ o = none := by
  cases o with
  | none => simp [cell]
  | some i =>
    have hi := h i rfl
    refine iff_of_false (fun hMax => ?_) nofun
    have hNat := congrArg UInt32.toNat hMax
    rw [cell, UInt32.toNat_ofNat', Nat.mod_eq_of_lt (by omega)] at hNat
    change i = 2 ^ 32 - 1 at hNat
    omega

namespace Filling

structure Shows (m : Nat) (backends : List UInt32) (f : Filling) (t : Turns) : Prop where
  table : f.table = (range m).map fun c => cell (t.owner c)
  next : f.next = (range backends.length).map fun i => .ofNat (t.cursor i)
  filled : f.filled = (t.taken m).card
  turn : f.turn = t.turn

variable {f : Filling} {t : Turns}

theorem shows_start (m : Nat) (backends : List UInt32) :
    Shows m backends (start m backends) .start := by
  refine ⟨?_, ?_, ?_, rfl⟩
  · change replicate m u32Max = (range m).map fun _ => u32Max
    rw [map_const', length_range]
  · change replicate _ (0 : UInt64) = (range backends.length).map fun _ => 0
    rw [map_const', length_range]
  · rw [taken_start]
    rfl

variable (checks) in
theorem Shows.step (hm : m.Prime) (hBound : m < 2 ^ 32) (h : Shows m backends f t)
    (hSound : t.Sound (probe m backends) backends.length m) (hLess : t.cursor t.turn < m) :
    ∃ f', f.step checks m backends = ok f' ∧
      Shows m backends f' (t.step (probe m backends) backends.length) := by
  obtain ⟨hTable, hNext, hFilled, hTurn⟩ := h
  have hLt := hSound.turn_lt
  have hSlot : t.slot (probe m backends) < m := slot_lt hm
  have hBackend : index backends f.turn = (ok (backends.getD t.turn 0) : Outcome Empty _) := by
    refine index_of_getElem? ?_
    rw [hTurn, getD_eq_getElem?_getD, getElem?_eq_getElem hLt, Option.getD_some]
  have hCursor : index f.next f.turn = (ok (.ofNat (t.cursor t.turn)) : Outcome Empty _) := by
    refine index_of_getElem? ?_
    rw [hNext, hTurn, getElem?_map, getElem?_range hLt, Option.map_some]
  have hEntry : index f.table (t.slot (probe m backends)) =
      (ok (cell (t.owner (t.slot (probe m backends)))) : Outcome Empty _) := by
    refine index_of_getElem? ?_
    rw [hTable, getElem?_map, getElem?_range hSlot, Option.map_some]
  have hAdvanced : f.next.set f.turn (.ofNat (t.cursor t.turn + 1)) =
      (range backends.length).map fun i => UInt64.ofNat (t.advanced i) := by
    rw [hNext, hTurn, set_map_range]
    refine map_congr_left fun i _ => ?_
    rw [advanced, Function.apply_update (fun _ k => UInt64.ofNat k)]
  have hStep : f.step checks m backends =
      if cell (t.owner (t.slot (probe m backends))) = u32Max then
        ok ⟨f.table.set (t.slot (probe m backends)) (.ofNat f.turn),
          f.next.set f.turn (.ofNat (t.cursor t.turn + 1)), f.filled + 1,
          if f.turn + 1 = backends.length then 0 else f.turn + 1⟩
      else ok { f with next := f.next.set f.turn (.ofNat (t.cursor t.turn + 1)) } := by
    rw [← ok_bind (cell _) fun v => if v = u32Max then _ else _, ← hEntry, Filling.step, hBackend,
      ok_bind, hCursor, ok_bind, addU64_ofNat_one (by omega), ok_bind]
    rw [toNat_slot hm hBound _ hLess.le, slot, probe]
  have hFree := cell_eq_u32Max (o := t.owner (t.slot (probe m backends))) fun i hi => by
    have := (hSound.owner_lt _ _ hi).2
    omega
  rw [hStep]
  by_cases hOwner : t.owner (t.slot (probe m backends)) = none
  · rw [if_pos (hFree.mpr hOwner)]
    refine ⟨_, rfl, ?_, ?_, ?_, ?_⟩
    · dsimp only
      rw [hTable, hTurn, set_map_range, owner_step_free hOwner]
      refine map_congr_left fun c _ => ?_
      rw [Function.apply_update (fun _ o => cell o)]
      rfl
    · rw [cursor_step]
      exact hAdvanced
    · rw [card_taken_step_free hSlot hOwner, hFilled]
    · rw [Turns.step, if_pos hOwner, hTurn]
  · rw [if_neg (mt hFree.mp hOwner)]
    refine ⟨_, rfl, ?_, ?_, ?_, ?_⟩
    · rw [owner_step_owned hOwner]
      exact hTable
    · rw [cursor_step]
      exact hAdvanced
    · rw [taken_step_owned hOwner]
      exact hFilled
    · rw [Turns.step, if_neg hOwner]
      exact hTurn

theorem fill_succ {f' fuel} (hFilled : f.filled ≠ m) (hStep : f.step checks m backends = ok f') :
    fill checks m backends (fuel + 1) f = fill checks m backends fuel f' := by
  rw [fill, if_neg hFilled, hStep]

variable (checks) in
theorem Shows.exists_step (hm : m.Prime) (hBound : m < 2 ^ 32) (h : Shows m backends f t)
    (hSound : t.Sound (probe m backends) backends.length m) (hFilled : f.filled ≠ m) :
    t.cursor t.turn < m ∧ ∃ f', f.step checks m backends = ok f' ∧
      Shows m backends f' (t.step (probe m backends) backends.length) ∧
      (t.step (probe m backends) backends.length).Sound (probe m backends) backends.length m := by
  have hCard := t.card_taken_le (m := m)
  have hNotFull := h.filled
  obtain ⟨c, hc, hFree⟩ := exists_free (t := t) (m := m) (by omega)
  obtain ⟨hPos, hSkip⟩ := toNat_hashSkip hm hBound (backends.getD t.turn 0)
  have hLess := hSound.cursor_lt hFree (exists_probe hm hPos hSkip hc)
  obtain ⟨f', hStep, hShows⟩ := h.step checks hm hBound hSound hLess
  exact ⟨hLess, f', hStep, hShows, hSound.step (slot_lt hm)⟩

theorem Shows.filled_table (hBound : m < 2 ^ 32) (h : Shows m backends f t)
    (hSound : t.Sound (probe m backends) backends.length m) (hFilled : f.filled = m) :
    f.table.length = m ∧ (∀ v ∈ f.table, v.toNat < backends.length) ∧
      ∀ i, f.table.countP (fun v => v.toNat = i) = t.held m i := by
  have hCell : ∀ c < m, ∃ i, t.owner c = some i ∧ i < backends.length ∧
      (cell (t.owner c)).toNat = i := by
    intro c hc
    obtain ⟨i, hi⟩ := Option.ne_none_iff_exists'.mp (owner_of_card (h.filled.symm.trans hFilled) hc)
    obtain ⟨hLt, hLtm⟩ := hSound.owner_lt c i hi
    refine ⟨i, hi, hLt, ?_⟩
    rw [hi, cell, UInt32.toNat_ofNat', Nat.mod_eq_of_lt (by omega)]
  refine ⟨by rw [h.table]; simp, fun v hv => ?_, fun i => ?_⟩
  · rw [h.table] at hv
    obtain ⟨c, hc, rfl⟩ := mem_map.mp hv
    obtain ⟨i, -, hLt, hNat⟩ := hCell c (mem_range.mp hc)
    rw [hNat]
    exact hLt
  · rw [h.table, countP_map, held, Nat.count]
    refine countP_congr fun c hc => ?_
    obtain ⟨j, hOwner, -, hNat⟩ := hCell c (mem_range.mp hc)
    rw [Function.comp_apply, hNat, hOwner]
    simp

variable (checks) in
theorem fill_spec (hm : m.Prime) (hBound : m < 2 ^ 32) {fuel} (h : Shows m backends f t)
    (hSound : t.Sound (probe m backends) backends.length m)
    (hFuel : t.effort backends.length m < fuel) :
    ∃ f' t', fill checks m backends fuel f = some (ok f'.table) ∧ Shows m backends f' t' ∧
      t'.Sound (probe m backends) backends.length m ∧ f'.filled = m ∧
      (∀ c i, t.owner c = some i → t'.owner c = some i) ∧
      (t.Fair backends.length m → t'.Fair backends.length m) := by
  induction fuel generalizing f t with
  | zero => omega
  | succ fuel ih =>
    by_cases hFilled : f.filled = m
    · exact ⟨f, t, by rw [fill, if_pos hFilled], h, hSound, hFilled, fun _ _ => id, id⟩
    · obtain ⟨hLess, f', hStep, hShows, hSound'⟩ :=
        h.exists_step checks hm hBound hSound hFilled
      have hEffort : (t.step (probe m backends) _).effort _ m < _ :=
        effort_step hSound.turn_lt hLess
      obtain ⟨f'', t'', hFill, hShows'', hSound'', hFull, hKept, hFair⟩ :=
        ih hShows hSound' (by omega)
      refine ⟨f'', t'', by rw [fill_succ hFilled hStep, hFill], hShows'', hSound'', hFull, ?_, ?_⟩
      · exact fun c i hi => hKept c i (owner_step hi)
      · exact fun h => hFair (h.step (Nat.zero_lt_of_lt hSound.turn_lt) (slot_lt hm))

end Filling

theorem buildLut_eq_fill (hm : m.Prime) (hBound : m < 2 ^ 32) (hSome : backends ≠ [])
    (fuel : Nat) : buildLut checks m backends fuel =
      fill checks m backends fuel (.start m backends) := by
  unfold buildLut
  rw [isPrime_eq hBound, decide_eq_true hm]
  rw [isEmpty_eq_false_iff.mpr hSome]
  rfl

variable (checks) in
/-- For a prime `m` below `2 ^ 32` and some backends, `backends.length * m + 1` looks are enough, no
sum wraps or panics, and every slot has the number of a backend. -/
theorem buildLut_spec (hm : m.Prime) (hBound : m < 2 ^ 32) (hSome : backends ≠ []) {fuel}
    (hFuel : backends.length * m < fuel) :
    ∃ table, buildLut checks m backends fuel = some (ok table) ∧ table.length = m ∧
      ∀ v ∈ table, v.toNat < backends.length := by
  rw [buildLut_eq_fill hm hBound hSome]
  obtain ⟨f, t, hFill, hShows, hSound, hFull, -, -⟩ := Filling.fill_spec checks hm hBound
    (Filling.shows_start m backends)
    (sound_start (length_pos_iff.mpr hSome)) (by rwa [effort_start])
  obtain ⟨hLength, hIndex, -⟩ := hShows.filled_table hBound hSound hFull
  exact ⟨f.table, hFill, hLength, hIndex⟩

def Filling.look (checks : Bool) (m : Nat) (backends : List UInt32) (f : Filling) (_ : Unit) :
    Option Filling :=
  if f.filled = m then none else (f.step checks m backends).toOption

/-- **A table is built, with equal shares.** For a prime `m` below `2 ^ 32` and some backends, no
sum in the loop wraps. With more than `backends.length * m` looks, a table of `m` slots results, in
which each backend has `m / n` slots, and the first `m % n` of them one more. -/
theorem buildLut_balanced (hm : m.Prime) (hBound : m < 2 ^ 32) (hSome : backends ≠ []) :
    (∀ f, Run (Filling.look checks m backends) Always (.start m backends) f → f.filled ≠ m →
      ∀ b k, backends[f.turn]? = some b → f.next[f.turn]? = some k →
        (hashOffset b (.ofNat m)).toNat + k.toNat * (hashSkip b (.ofNat m)).toNat < 2 ^ 64) ∧
    ∀ fuel, backends.length * m < fuel → ∃ table,
      buildLut checks m backends fuel = some (ok table) ∧ table.length = m ∧
      (∀ v ∈ table, v.toNat < backends.length) ∧
      ∀ i < backends.length, table.countP (fun v => v.toNat = i) =
        m / backends.length + if i < m % backends.length then 1 else 0 := by
  have hStart : start.Sound (probe m backends) backends.length m :=
    sound_start (length_pos_iff.mpr hSome)
  constructor
  · intro f hRun hNotFull b k _ hNext
    obtain ⟨t, hShows, hSound⟩ : ∃ t, Filling.Shows m backends f t ∧
        t.Sound (probe m backends) backends.length m := by
      refine hRun.invariant (I := fun f => ∃ t, Filling.Shows m backends f t ∧
        t.Sound (probe m backends) backends.length m) ⟨_, Filling.shows_start m backends, hStart⟩ ?_
      rintro f f' e ⟨t, hShows, hSound⟩ - hLook
      unfold Filling.look at hLook
      split at hLook
      · cases hLook
      · obtain ⟨-, f'', hStep, hNext⟩ := hShows.exists_step checks hm hBound hSound ‹_›
        obtain rfl := ok.inj (hStep.symm.trans (toOption_eq_some.mp hLook))
        exact ⟨_, hNext⟩
    obtain ⟨hLess, -⟩ := hShows.exists_step checks hm hBound hSound hNotFull
    rw [hShows.next, hShows.turn, getElem?_map, getElem?_range hSound.turn_lt] at hNext
    cases hNext
    rw [toNat_ofNat64 (by omega)]
    exact probe_lt_two_pow hm hBound b hLess.le
  · intro fuel hFuel
    obtain ⟨f, t, hFill, hShows, hSound, hFull, -, hFair⟩ := Filling.fill_spec checks hm hBound
      (Filling.shows_start m backends) hStart (by rwa [effort_start])
    obtain ⟨hLength, hIndex, hCount⟩ := hShows.filled_table hBound hSound hFull
    refine ⟨f.table, by rw [buildLut_eq_fill hm hBound hSome, hFill], hLength, hIndex, ?_⟩
    intro i hi
    rw [hCount, (hFair fair_start).held_eq i hi, ← hShows.filled, hFull, share]

theorem buildLut_balanced_seven : ∃ table, buildLut true 7 [3, 5, 3] 22 = some (ok table) ∧
    table.countP (fun v => v.toNat = 0) = 3 ∧ table.countP (fun v => v.toNat = 2) = 2 := by
  have hPrime : Nat.Prime 7 := by norm_num
  obtain ⟨table, hBuild, -, -, hShares⟩ :=
    (buildLut_balanced hPrime (by decide) (cons_ne_nil 3 [5, 3])).2 22 (by decide)
  exact ⟨table, hBuild, hShares 0 (by decide), hShares 2 (by decide)⟩

variable (checks) in
/-- The second backend gets the first slot of its order, if it is free. -/
theorem buildLut_second (hm : m.Prime) (hBound : m < 2 ^ 32) (hTwo : 1 < backends.length)
    (hOther : probe m backends 0 0 ≠ probe m backends 1 0) {fuel}
    (hFuel : backends.length * m < fuel) :
    ∃ table, buildLut checks m backends fuel = some (ok table) ∧
      table[probe m backends 1 0]? = some 1 := by
  have hPrime := hm.two_le
  rw [buildLut_eq_fill hm hBound (length_pos_iff.mp (by omega))]
  -- the first two looks, and then the rest of the loop
  have hShows := Filling.shows_start m backends
  have hSound : start.Sound (probe m backends) backends.length m := sound_start (by omega)
  obtain ⟨hLess, f₁, hStep, hShows₁, hSound₁⟩ :=
    hShows.exists_step checks hm hBound hSound (show 0 ≠ m by omega)
  have hFilled₁ : f₁.filled ≠ m := by
    have hCard : ((start.step (probe m backends) backends.length).taken m).card ≤ _ :=
      card_taken_step_le (slot_lt hm)
    rw [taken_start, Finset.card_empty] at hCard
    rw [hShows₁.filled]
    omega
  obtain ⟨hLess₁, f₂, hStep₁, hShows₂, hSound₂⟩ :=
    hShows₁.exists_step checks hm hBound hSound₁ hFilled₁
  have hEffort : (start.step (probe m backends) _).effort _ m < _ :=
    effort_step hSound.turn_lt hLess
  have hEffort₁ : (step (probe m backends) _ _).effort _ m < _ := effort_step hSound₁.turn_lt hLess₁
  rw [effort_start] at hEffort
  obtain ⟨left, rfl⟩ : ∃ left, fuel = left + 1 + 1 := ⟨fuel - 2, by omega⟩
  obtain ⟨f, t, hFill, hShows, -, -, hKept, -⟩ :=
    Filling.fill_spec checks hm hBound hShows₂ hSound₂ (show _ < left by omega)
  refine ⟨f.table, ?_, ?_⟩
  · rw [Filling.fill_succ (show 0 ≠ m by omega) hStep, Filling.fill_succ hFilled₁ hStep₁, hFill]
  · rw [hShows.table, getElem?_map, getElem?_range (probe_lt hm _ _), Option.map_some,
      hKept _ _ (owner_second hTwo hOther)]
    rfl

end DirectWire.Xdp
