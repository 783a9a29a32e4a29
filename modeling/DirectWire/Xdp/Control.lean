import Mathlib.Data.List.Sort
import DirectWire.Xdp.ConnTrack
import DirectWire.Xdp.LutPublish

/-!
# XDP edge — the control agent

A backend is `up` after `rise` good results one after another, and `down` after `fall` bad ones;
when one changes, the agent publishes a table for the backends that are up, unless there are none
or they are those of the last table.

* `HealthChecker.lists_aliveBackends`, `Lists.unique` — the backends that are up, in order.
-/

namespace DirectWire.Xdp

open Lib Outcome List

/-! ## Health -/

inductive Health where
  | unknown
  | up
  | down
deriving DecidableEq, Repr

structure BackendHealth where
  state : Health
  lastOk : Option Bool
  /-- How many equal results there were one after another. -/
  streak : UInt32
  lastProbeNs : UInt64
deriving DecidableEq, Repr

/-- `u64::MAX`, as the time of a probe: there was none. -/
def neverProbed : UInt64 := 0xffffffffffffffff

def BackendHealth.nextStreak (checks : Bool) (h : BackendHealth) (good : Bool) :
    Outcome Empty UInt32 :=
  if h.lastOk = some good then addU32 checks h.streak 1 else ok 1

structure HealthChecker where
  backends : Map UInt32 BackendHealth
  intervalNs : UInt64
  fall : UInt32
  rise : UInt32

namespace HealthChecker

def new (intervalNs : UInt64) (fall rise : UInt32) : Outcome Empty HealthChecker :=
  if 1 ≤ fall ∧ 1 ≤ rise then ok ⟨∅, intervalNs, fall, rise⟩
  else panic (.expectFailed "assertion failed: fall >= 1 && rise >= 1")

def set (c : HealthChecker) (backend : UInt32) (h : BackendHealth) : HealthChecker :=
  { c with backends := c.backends.insert backend h }

def register (c : HealthChecker) (backend : UInt32) : HealthChecker :=
  c.set backend ⟨.unknown, none, 0, neverProbed⟩

def sorted (ord : HashOrder UInt32) (c : HealthChecker) (test : BackendHealth → Bool) :
    List UInt32 :=
  ((c.backends.iterKeys ord).filter fun b => (c.backends.lookup b).any test).insertionSort (· ≤ ·)

def probesDue (ord : HashOrder UInt32) (c : HealthChecker) (now : UInt64) : List UInt32 :=
  c.sorted ord fun h =>
    h.lastProbeNs = neverProbed || c.intervalNs.toNat ≤ now.toNat - h.lastProbeNs.toNat

def aliveBackends (ord : HashOrder UInt32) (c : HealthChecker) : List UInt32 :=
  c.sorted ord fun h => h.state = .up

def state (c : HealthChecker) (backend : UInt32) : Option Health :=
  (c.backends.lookup backend).map BackendHealth.state

def verdict (c : HealthChecker) (old : Health) (streak : UInt32) (good : Bool) : Health :=
  if good ∧ c.rise ≤ streak then .up
  else if ¬good ∧ c.fall ≤ streak then .down
  else old

def report (checks : Bool) (c : HealthChecker) (backend : UInt32) (good : Bool) (now : UInt64) :
    Outcome Empty (HealthChecker × Bool) :=
  match c.backends.lookup backend with
  | none => ok (c, false)
  | some h => do
    let streak ← h.nextStreak checks good
    let new := c.verdict h.state streak good
    if new ≠ h.state then ok (c.set backend ⟨new, some good, 0, now⟩, true)
    else ok (c.set backend ⟨h.state, some good, streak, now⟩, false)

end HealthChecker

/-! ## The sweeper and the agent -/

structure ConntrackSweeper where
  intervalNs : UInt64
  nextRunNs : UInt64
  totalSwept : UInt64
  rounds : UInt64
deriving DecidableEq, Repr

namespace ConntrackSweeper

def new (intervalNs : UInt64) : ConntrackSweeper := ⟨intervalNs, intervalNs, 0, 0⟩

def tick (checks : Bool) (ord : HashOrder FiveTuple) (s : ConntrackSweeper) (ct : ConnTrack)
    (now : UInt64) : Outcome Empty (ConntrackSweeper × ConnTrack × Option Nat) :=
  if now < s.nextRunNs then ok (s, ct, none)
  else do
    let nextRunNs ← addU64 checks now s.intervalNs
    let (ct, n) ← ct.sweepExpired ord now
    let totalSwept ← addU64 checks s.totalSwept (.ofNat n)
    let rounds ← addU64 checks s.rounds 1
    ok ({ s with nextRunNs, totalSwept, rounds }, ct, some n)

end ConntrackSweeper

structure AgentConfig where
  probeIntervalNs : UInt64
  fall : UInt32
  rise : UInt32
  sweepIntervalNs : UInt64
  lutSize : Nat
deriving DecidableEq, Repr

structure ControlAgent where
  health : HealthChecker
  lut : LutPublisher
  sweeper : ConntrackSweeper
  lastPublished : List UInt32
  publishCount : UInt64

/-- `LutSnapshot::lookup`. -/
def Lut.lookup (lut : Lut) (flowKey : UInt64) : Outcome Empty UInt32 := do
  index lut.backends (← index lut.table (flowKey % .ofNat lut.table.length).toNat).toNat

namespace ControlAgent

def new (checks : Bool) (fuel : Nat) (cfg : AgentConfig) (backends : List UInt32) :
    Option (Outcome Empty ControlAgent) :=
  match HealthChecker.new cfg.probeIntervalNs cfg.fall cfg.rise with
  | .panic p => some (panic p)
  | .ok health =>
    (LutPublisher.new checks fuel cfg.lutSize backends).map fun published => do
      let lut ← published
      ok {
        health := backends.foldl HealthChecker.register health
        lut
        sweeper := .new cfg.sweepIntervalNs
        lastPublished := backends
        publishCount := 1 }

def tick (checks : Bool) (ordTrack : HashOrder FiveTuple) (ord : HashOrder UInt32)
    (a : ControlAgent) (conntrack : ConnTrack) (now : UInt64) :
    Outcome Empty (ControlAgent × ConnTrack × List UInt32) := do
  let (sweeper, conntrack, _) ← a.sweeper.tick checks ordTrack conntrack now
  ok ({ a with sweeper }, conntrack, a.health.probesDue ord now)

/-- The call of `publish`, and what is noted after it. -/
def republish (checks : Bool) (fuel : Nat) (a : ControlAgent) (alive : List UInt32) :
    Option (Outcome Empty (ControlAgent × Option UInt64)) :=
  (a.lut.publish checks fuel alive).map fun published => do
    let (lut, version) ← published
    let publishCount ← addU64 checks a.publishCount 1
    ok ({ a with lut, lastPublished := alive, publishCount }, some version)

def reportProbe (checks : Bool) (fuel : Nat) (ord : HashOrder UInt32) (a : ControlAgent)
    (backend : UInt32) (good : Bool) (now : UInt64) :
    Option (Outcome Empty (ControlAgent × Option UInt64)) :=
  match a.health.report checks backend good now with
  | .panic p => some (panic p)
  | .ok (health, false) => some (ok ({ a with health }, none))
  | .ok (health, true) =>
    let alive := health.aliveBackends ord
    if alive.isEmpty || alive == a.lastPublished then some (ok ({ a with health }, none))
    else { a with health }.republish checks fuel alive

def active (a : ControlAgent) : Lut := a.lut.buffer a.lut.active

end ControlAgent

/-! ## What a result does to the states -/

variable {checks good : Bool} {fuel : Nat} {cfg : AgentConfig} {backends : List UInt32}
  {a a' : ControlAgent} {ord : HashOrder UInt32} {backend : UInt32} {now : UInt64}

namespace HealthChecker

variable {flipped : Bool} {c c' : HealthChecker} {b : UInt32} {l l' : List UInt32}

theorem state_set (c : HealthChecker) (b backend : UInt32) (h : BackendHealth) :
    (c.set backend h).state b = if b = backend then some h.state else c.state b := by
  rw [state, set, Map.lookup_insert_ite]
  split <;> rfl

def StreakFits (c : HealthChecker) (backend : UInt32) (good : Bool) : Prop :=
  ∀ h ∈ c.backends.lookup backend, h.lastOk = some good → h.streak.toNat + 1 < 2 ^ 32

instance (c : HealthChecker) (backend : UInt32) (good : Bool) :
    Decidable (c.StreakFits backend good) :=
  inferInstanceAs (Decidable (∀ h ∈ c.backends.lookup backend, _ → _))

theorem exists_nextStreak (checks : Bool) {h : BackendHealth}
    (hFits : checks = true → h.lastOk = some good → h.streak.toNat + 1 < 2 ^ 32) :
    ∃ streak, h.nextStreak checks good = ok streak := by
  unfold BackendHealth.nextStreak
  split
  · rename_i hSame
    refine ⟨h.streak + 1, if_pos ?_⟩
    cases checks with
    | false => exact .inr rfl
    | true => exact .inl (hFits rfl hSame)
  · exact ⟨1, rfl⟩

/-- A result changes at most the state of its backend, and says whether it does. -/
structure Reported (c : HealthChecker) (c' : HealthChecker) (flipped : Bool) : Prop where
  known : ∀ b, c'.state b = none ↔ c.state b = none
  same : flipped = false → ∀ b, c'.state b = c.state b

/-- What one result does to the states. -/
theorem report_spec (hFits : checks = true → c.StreakFits backend good) (now : UInt64) :
    ∃ c' flipped, c.report checks backend good now = ok (c', flipped) ∧ c.Reported c' flipped := by
  unfold report
  split
  · exact ⟨c, false, rfl, fun _ => Iff.rfl, fun _ _ => rfl⟩
  · rename_i h hLookup
    have hState : c.state backend = some h.state := by rw [state, hLookup, Option.map_some]
    obtain ⟨streak, hStreak⟩ := exists_nextStreak checks fun hChecks => hFits hChecks h hLookup
    rw [hStreak, ok_bind]
    dsimp only
    split
    · refine ⟨_, true, rfl, fun b => ?_, nofun⟩
      rw [state_set]
      split
      · simp_all
      · rfl
    · have hSame : ∀ b, (c.set backend ⟨h.state, some good, streak, now⟩).state b = c.state b := by
        intro b
        rw [state_set]
        split
        · simp_all
        · rfl
      exact ⟨_, false, rfl, fun b => by rw [hSame], fun _ => hSame⟩

/-! ## The backends that are up -/

/-- The list has the backends that are up, in ascending order. -/
structure Lists (c : HealthChecker) (l : List UInt32) : Prop where
  ascending : l.Pairwise (· < ·)
  mem_iff : ∀ b, b ∈ l ↔ c.state b = some .up

theorem lists_aliveBackends (ord : HashOrder UInt32) (c : HealthChecker) :
    c.Lists (c.aliveBackends ord) := by
  have hKeys : (c.backends.iterKeys ord).Nodup := (ord.perm _).nodup_iff.mpr c.backends.keys_nodup
  have hNodup : (c.aliveBackends ord).Nodup :=
    (perm_insertionSort _ _).nodup_iff.mpr (hKeys.filter _)
  refine ⟨?_, fun b => ?_⟩
  · have hLe : (c.aliveBackends ord).Pairwise (· ≤ ·) := pairwise_insertionSort _ _
    exact (hLe.and (nodup_iff_pairwise_ne.mp hNodup)).imp fun h => UInt32.lt_of_le_of_ne h.1 h.2
  · rw [aliveBackends, sorted, mem_insertionSort, mem_filter, Map.iterKeys,
      (ord.perm _).mem_iff, ← AList.mem_keys, ← AList.lookup_isSome, state]
    cases c.backends.lookup b <;> simp

theorem Lists.nodup (h : c.Lists l) : l.Nodup :=
  nodup_iff_pairwise_ne.mpr (h.ascending.imp fun hLess => UInt32.ne_of_lt hLess)

theorem Lists.unique (h : c.Lists l) (h' : c.Lists l') : l = l' := by
  have hPerm : l.Perm l' := by
    rw [perm_ext_iff_of_nodup h.nodup h'.nodup]
    intro b
    rw [h.mem_iff, h'.mem_iff]
  exact hPerm.eq_of_pairwise (fun a b _ _ hab hba => (UInt32.lt_asymm hab hba).elim)
    h.ascending h'.ascending

theorem Lists.congr (h : c.Lists l) (hSame : ∀ b, c'.state b = c.state b) : c'.Lists l :=
  ⟨h.ascending, fun b => by rw [h.mem_iff, hSame]⟩

theorem Lists.length_le {known : List UInt32} (h : c.Lists l)
    (hKnown : ∀ b, c.state b ≠ none → b ∈ known) : l.length ≤ known.length := by
  have hSub : l ⊆ known := by
    intro b hb
    refine hKnown b ?_
    rw [(h.mem_iff b).mp hb]
    nofun
  exact (h.nodup.subperm hSub).length_le

theorem state_foldl_register (bs : List UInt32) (c : HealthChecker) (b : UInt32) :
    (bs.foldl register c).state b = if b ∈ bs then some .unknown else c.state b := by
  induction bs generalizing c with
  | nil => simp
  | cons b' bs ih =>
    rw [foldl_cons, ih, register, state_set]
    by_cases hFirst : b = b' <;> by_cases hRest : b ∈ bs <;> simp [hFirst, hRest]

end HealthChecker

/-! ## The active table -/

namespace ControlAgent

/-- A table of the configured size, with numbers of backends in it. -/
structure Filled (cfg : AgentConfig) (lut : Lut) : Prop where
  length : lut.table.length = cfg.lutSize
  index_lt : ∀ slot ∈ lut.table, slot.toNat < lut.backends.length

structure Follows (cfg : AgentConfig) (backends : List UInt32) (a : ControlAgent) : Prop where
  size : a.lut.m = cfg.lutSize
  readers : ∀ i, a.lut.readers i = 0
  known : ∀ b, a.health.state b ≠ none → b ∈ backends
  last : a.lastPublished = a.active.backends
  count : a.publishCount = a.lut.version
  filled : Filled cfg a.active
  lists : (∃ b, a.health.state b = some .up) → a.health.Lists a.active.backends

theorem Follows.congr (h : a.Follows cfg backends) (hLut : a'.lut = a.lut)
    (hLast : a'.lastPublished = a.lastPublished) (hCount : a'.publishCount = a.publishCount)
    (hKnown : ∀ b, a'.health.state b = none ↔ a.health.state b = none)
    (hLists : (∃ b, a'.health.state b = some .up) → a'.health.Lists a.active.backends) :
    a'.Follows cfg backends := by
  have hActive : a'.active = a.active := by rw [active, active, hLut]
  refine ⟨hLut ▸ h.size, hLut ▸ h.readers, fun b hb => h.known b ?_, ?_, ?_, ?_, ?_⟩
  · exact fun hNone => hb ((hKnown b).mpr hNone)
  · rw [hLast, hActive, h.last]
  · rw [hCount, hLut, h.count]
  · rw [hActive]
    exact h.filled
  · rw [hActive]
    exact hLists

/-- What a call of `report_probe` returns, and what it does to the table. -/
structure Told (a a' : ControlAgent) (answer : Option UInt64) : Prop where
  isSome_iff : answer.isSome ↔ a'.active.backends ≠ a.active.backends
  version : ∀ v, answer = some v → v = a'.lut.version ∧ v.toNat = a.lut.version.toNat + 1
  kept : answer = none → a'.lut = a.lut
  kept_of_none_up : (∀ b, a'.health.state b ≠ some .up) → a'.lut = a.lut

theorem Told.of_kept (h : a'.lut = a.lut) : Told a a' none := by
  have hActive : a'.active = a.active := by rw [active, active, h]
  exact ⟨by simp [hActive], nofun, fun _ => h, fun _ => h⟩

theorem republish_eq {table alive} (hNone : ∀ i, a.lut.readers i = 0)
    (hBuild : buildLut checks a.lut.m alive fuel = some (ok table))
    (hVersion : addU64 checks a.lut.version 1 = (ok (a.lut.version + 1) : Outcome Empty _))
    (hCount : a.publishCount = a.lut.version) :
    a.republish checks fuel alive =
      some (ok ({ a with
        lut := a.lut.flipped ⟨alive, table⟩
        lastPublished := alive
        publishCount := a.lut.version + 1 }, some (a.lut.version + 1))) := by
  rw [republish, LutPublisher.publish, if_neg (not_not.mpr (hNone _)), hBuild, Option.map_some,
    Option.map_some, ok_bind, hVersion, ok_bind, ok_bind]
  rw [hCount, hVersion]
  rfl

theorem active_flipped {lut lastPublished publishCount} :
    active { a with lut := a.lut.flipped lut, lastPublished, publishCount } = lut :=
  LutPublisher.buffer_flipped a.lut lut

section Republished

variable {alive : List UInt32} (hPrime : cfg.lutSize.Prime) (hSize : cfg.lutSize < 2 ^ 32)
  (hFuel : backends.length * cfg.lutSize < fuel)

include hPrime hSize hFuel in
theorem exists_buildLut (checks : Bool) (hSome : alive ≠ [])
    (hLength : alive.length ≤ backends.length) :
    ∃ table, buildLut checks cfg.lutSize alive fuel = some (ok table) ∧
      Filled cfg ⟨alive, table⟩ := by
  have hEnough : alive.length * cfg.lutSize < fuel :=
    (Nat.mul_le_mul_right _ hLength).trans_lt hFuel
  obtain ⟨table, hBuild, hTable, hIndex⟩ := buildLut_spec checks hPrime hSize hSome hEnough
  exact ⟨table, hBuild, hTable, hIndex⟩

include hPrime hSize hFuel in
/-- One call of `report_probe` returns, and keeps `Follows`. -/
theorem reportProbe_spec (h : a.Follows cfg backends)
    (hFits : checks = true → a.health.StreakFits backend good)
    (hVersion : a.lut.version.toNat + 1 < 2 ^ 64) (ord : HashOrder UInt32) (now : UInt64) :
    ∃ a' answer, a.reportProbe checks fuel ord backend good now = some (ok (a', answer)) ∧
      a'.Follows cfg backends ∧ Told a a' answer := by
  obtain ⟨health, flipped, hReport, hReported⟩ := HealthChecker.report_spec hFits now
  rw [reportProbe, hReport]
  cases flipped with
  | false =>
    refine ⟨{ a with health }, none, rfl, ?_, .of_kept rfl⟩
    refine h.congr rfl rfl rfl hReported.known fun hUp => ?_
    have hSame := hReported.same rfl
    obtain ⟨b, hb⟩ := hUp
    exact (h.lists ⟨b, hSame b ▸ hb⟩).congr hSame
  | true =>
    have hLists := health.lists_aliveBackends ord
    dsimp only
    split
    · -- none is up, or the table is already theirs
      rename_i hOld
      refine ⟨{ a with health }, none, rfl, ?_, .of_kept rfl⟩
      refine h.congr rfl rfl rfl hReported.known fun ⟨b, hb⟩ => ?_
      have hMem := (hLists.mem_iff b).mpr hb
      have hSome : (health.aliveBackends ord).isEmpty = false :=
        isEmpty_eq_false_iff.mpr (ne_nil_of_mem hMem)
      rw [hSome, Bool.false_or, beq_iff_eq, h.last] at hOld
      exact hOld ▸ hLists
    · rename_i hNew
      rw [Bool.or_eq_true, not_or, List.isEmpty_iff, beq_iff_eq, h.last] at hNew
      have hKnown : ∀ b, health.state b ≠ none → b ∈ backends := fun b hb =>
        h.known b fun hNone => hb ((hReported.known b).mpr hNone)
      obtain ⟨table, hBuild, hFilled⟩ := exists_buildLut hPrime hSize hFuel checks hNew.1
        (hLists.length_le hKnown)
      rw [← h.size] at hBuild
      have hNext := toNat_add_one hVersion
      refine ⟨_, _, republish_eq (a := { a with health }) h.readers hBuild (addU64_of_lt hVersion)
        h.count, ?_, ?_⟩
      · refine ⟨h.size, h.readers, hKnown, ?_, rfl, ?_, ?_⟩
        · rw [active_flipped]
        · rw [active_flipped]
          exact hFilled
        · rw [active_flipped]
          exact fun _ => hLists
      · refine ⟨?_, ?_, nofun, fun hNone => ?_⟩
        · rw [active_flipped]
          simpa using hNew.2
        · rintro v ⟨⟩
          exact ⟨rfl, hNext⟩
        · refine absurd (eq_nil_iff_forall_not_mem.mpr fun b hb => ?_) hNew.1
          exact hNone b ((hLists.mem_iff b).mp hb)

end Republished

theorem Follows.lookup (h : a.Follows cfg backends) (hPrime : cfg.lutSize.Prime)
    (hSize : cfg.lutSize < 2 ^ 32) (hUp : ∃ b, a.health.state b = some .up) (flowKey : UInt64) :
    ∃ b, a.active.lookup flowKey = ok b ∧ a.health.state b = some .up := by
  have hPos : 0 < a.active.table.length := h.filled.length ▸ hPrime.pos
  have hFits : (UInt64.ofNat a.active.table.length).toNat = a.active.table.length := by
    rw [UInt64.toNat_ofNat', h.filled.length]
    exact Nat.mod_eq_of_lt (by omega)
  have hSlot : (flowKey % .ofNat a.active.table.length).toNat < a.active.table.length := by
    rw [UInt64.toNat_mod, hFits]
    exact Nat.mod_lt _ hPos
  obtain ⟨slot, hGet⟩ : ∃ slot, a.active.table[(flowKey % .ofNat _).toNat]? = some slot :=
    ⟨_, getElem?_eq_getElem hSlot⟩
  have hLess := h.filled.index_lt slot (mem_of_getElem? hGet)
  refine ⟨a.active.backends[slot.toNat], ?_, ?_⟩
  · rw [Lut.lookup, index_of_getElem? hGet, ok_bind, index_of_getElem? (getElem?_eq_getElem hLess)]
  · exact ((h.lists hUp).mem_iff _).mp (getElem_mem hLess)

/-! ## Runs -/

theorem new_spec (checks : Bool) (hPrime : cfg.lutSize.Prime) (hSize : cfg.lutSize < 2 ^ 32)
    (hFall : 1 ≤ cfg.fall) (hRise : 1 ≤ cfg.rise) (hSome : backends ≠ [])
    (hFuel : backends.length * cfg.lutSize < fuel) :
    ∃ a, new checks fuel cfg backends = some (ok a) ∧ a.Follows cfg backends := by
  obtain ⟨table, hBuild, hFilled⟩ := exists_buildLut hPrime hSize hFuel checks hSome le_rfl
  rw [new, HealthChecker.new, if_pos ⟨hFall, hRise⟩]
  rw [LutPublisher.new, hBuild]
  refine ⟨_, rfl, rfl, fun _ => rfl, fun b hb => ?_, rfl, rfl, hFilled, fun hUp => ?_⟩
  · rw [HealthChecker.state_foldl_register] at hb
    split at hb
    · assumption
    · exact absurd rfl hb
  · obtain ⟨b, hb⟩ := hUp
    rw [HealthChecker.state_foldl_register] at hb
    split at hb <;> cases hb

end ControlAgent

inductive AgentEvent where
  | tick (ordTrack : HashOrder FiveTuple) (ord : HashOrder UInt32) (conntrack : ConnTrack)
      (now : UInt64)
  | reportProbe (ord : HashOrder UInt32) (backend : UInt32) (good : Bool) (now : UInt64)

namespace ControlAgent

def step (checks : Bool) (fuel : Nat) (a : ControlAgent) : AgentEvent → Option ControlAgent
  | .tick ordTrack ord conntrack now =>
    match a.tick checks ordTrack ord conntrack now with
    | .ok (a, _, _) => some a
    | .panic _ => none
  | .reportProbe ord backend good now =>
    match a.reportProbe checks fuel ord backend good now with
    | some (.ok (a, _)) => some a
    | _ => none

def Counted (checks : Bool) (a : ControlAgent) : AgentEvent → Prop
  | .tick .. => True
  | .reportProbe _ backend good _ =>
    a.lut.version.toNat + 1 < 2 ^ 64 ∧ (checks = true → a.health.StreakFits backend good)

instance : (e : AgentEvent) → Decidable (Counted checks a e)
  | .tick .. => .isTrue trivial
  | .reportProbe _ backend good _ =>
    inferInstanceAs (Decidable (_ ∧ (checks = true → a.health.StreakFits backend good)))

theorem of_tick {ordTrack conntrack conntrack' due}
    (h : a.tick checks ordTrack ord conntrack now = ok (a', conntrack', due)) :
    ∃ sweeper, a' = { a with sweeper } := by
  obtain ⟨⟨sweeper, _, _⟩, -, hTick⟩ := bind_eq_ok.mp h
  cases hTick
  exact ⟨sweeper, rfl⟩

theorem Follows.sweeper (h : a.Follows cfg backends) (sweeper : ConntrackSweeper) :
    Follows cfg backends { a with sweeper } :=
  h.congr rfl rfl rfl (fun _ => Iff.rfl) h.lists

theorem Follows.step {e} (h : a.Follows cfg backends) (hPrime : cfg.lutSize.Prime)
    (hSize : cfg.lutSize < 2 ^ 32) (hFuel : backends.length * cfg.lutSize < fuel)
    (hCounted : Counted checks a e) (hStep : step checks fuel a e = some a') :
    a'.Follows cfg backends := by
  unfold ControlAgent.step at hStep
  split at hStep
  · split at hStep
    · rename_i hTick
      cases hStep
      obtain ⟨sweeper, rfl⟩ := of_tick hTick
      exact h.sweeper sweeper
    · cases hStep
  · rename_i ord backend good now
    obtain ⟨a₁, answer, hReport, hFollows, -⟩ :=
      reportProbe_spec hPrime hSize hFuel h hCounted.2 hCounted.1 ord now
    rw [hReport] at hStep
    cases hStep
    exact hFollows

/-- **The table follows the health.** The size of the table is a prime below `2 ^ 32`, `fall` and
`rise` are positive, there are backends, and the fuel is enough. Then the agent starts, and in every
run whose counters do not overflow (`Counted`): while a backend is up, the active table is for those
that are up, and each flow gets one of them; `tick` changes neither the table nor a state; and
`report_probe` returns, with what has changed (`Told`). -/
theorem follows (checks : Bool) (hPrime : cfg.lutSize.Prime) (hSize : cfg.lutSize < 2 ^ 32)
    (hFall : 1 ≤ cfg.fall) (hRise : 1 ≤ cfg.rise) (hSome : backends ≠ [])
    (hFuel : backends.length * cfg.lutSize < fuel) :
    ∃ start, new checks fuel cfg backends = some (ok start) ∧
      ∀ a, Run (step checks fuel) (Counted checks) start a →
        ((∃ b, a.health.state b = some .up) →
          a.health.Lists a.active.backends ∧ Filled cfg a.active ∧
            ∀ flowKey, ∃ b, a.active.lookup flowKey = ok b ∧ a.health.state b = some .up) ∧
        (∀ ordTrack ord conntrack now a' conntrack' due,
          a.tick checks ordTrack ord conntrack now = ok (a', conntrack', due) →
            a'.lut = a.lut ∧ a'.health = a.health) ∧
        ∀ ord backend good now, Counted checks a (.reportProbe ord backend good now) →
          ∃ a' answer, a.reportProbe checks fuel ord backend good now = some (ok (a', answer)) ∧
            Told a a' answer := by
  obtain ⟨start, hNew, hStart⟩ := new_spec checks hPrime hSize hFall hRise hSome hFuel
  refine ⟨start, hNew, fun a hRun => ?_⟩
  have hFollows : a.Follows cfg backends := hRun.invariant hStart
    fun _ _ _ h hCounted hStep => h.step hPrime hSize hFuel hCounted hStep
  refine ⟨fun hUp => ⟨hFollows.lists hUp, hFollows.filled, hFollows.lookup hPrime hSize hUp⟩,
    fun _ _ _ _ a' _ _ hTick => ?_, fun ord backend good now hCounted => ?_⟩
  · obtain ⟨sweeper, rfl⟩ := of_tick hTick
    exact ⟨rfl, rfl⟩
  · obtain ⟨a', answer, hReport, -, hTold⟩ :=
      reportProbe_spec hPrime hSize hFuel hFollows hCounted.2 hCounted.1 ord now
    exact ⟨a', answer, hReport, hTold⟩

def promptConfig : AgentConfig := ⟨0, 1, 1, 0, 3⟩

theorem new_prompt (checks : Bool) :
    ∃ start, new checks 7 promptConfig [10, 20] = some (ok start) ∧
      start.Follows promptConfig [10, 20] :=
  new_spec checks Nat.prime_three (by decide) (by decide) (by decide) (by decide) (by decide)

def result (backend : UInt32) (good : Bool) : AgentEvent := .reportProbe (.stored _) backend good 0

/-- The first good result makes a table for its backend. -/
theorem follows_first : ∃ start a, new true 7 promptConfig [10, 20] = some (ok start) ∧
    Run (step true 7) (Counted true) start a ∧ a.active.backends = [20] ∧
    ∀ flowKey, ∃ b, a.active.lookup flowKey = ok b ∧ a.health.state b = some .up := by
  obtain ⟨start, hNew, hAll⟩ := @follows 7 promptConfig [10, 20] true Nat.prime_three (by decide)
    (by decide) (by decide) (by decide) (by decide)
  have hTest : ((new true 7 promptConfig [10, 20]).bind toOption).any (fun start =>
      (exec (step true 7) (Counted true) start [result 20 true]).any fun a =>
        a.active.backends == [20] && a.health.state 20 == some .up) = true := by
    decide +kernel
  rw [hNew] at hTest
  obtain ⟨a, hRun, hSeen⟩ := exists_run_of_exec (step true 7) (Counted true) start
    [result 20 true] _ hTest
  rw [Bool.and_eq_true, beq_iff_eq, beq_iff_eq] at hSeen
  exact ⟨start, a, hNew, hRun, hSeen.1, ((hAll a hRun).1 ⟨20, hSeen.2⟩).2.2⟩

/-! ## Where it fails -/

/-- The second backend goes up and down, and each time there is a new version. -/
structure Swings (up : Bool) (n : Nat) (a : ControlAgent) : Prop where
  size : a.lut.m = 3
  readers : ∀ i, a.lut.readers i = 0
  count : a.publishCount = a.lut.version
  version : a.lut.version = .ofNat n
  last : a.lastPublished = if up then [10, 20] else [10]
  fall : a.health.fall = 1
  rise : a.health.rise = 1
  first : a.health.state 10 = some .up
  second : ∃ h, a.health.backends.lookup 20 = some h ∧ h.lastOk = some up ∧
    h.state = if up then .up else .down
  known : ∀ b, a.health.state b ≠ none → b = 10 ∨ b = 20

variable {n : Nat} {up : Bool}

theorem Swings.verdict (h : a.Swings up n) (old : Health) :
    a.health.verdict old 1 (!up) = if up then .down else .up := by
  unfold HealthChecker.verdict
  rw [h.fall, h.rise]
  cases up <;> rfl

def swung (up : Bool) : BackendHealth := ⟨if up then .down else .up, some (!up), 0, 0⟩

theorem Swings.report (h : a.Swings up n) :
    a.health.report false 20 (!up) 0 = ok (a.health.set 20 (swung up), true) := by
  obtain ⟨e, hLookup, hLast, hState⟩ := h.second
  have hStreak : e.nextStreak false (!up) = ok 1 := by
    refine if_neg ?_
    rw [hLast]
    cases up <;> decide
  rw [HealthChecker.report, hLookup]
  dsimp only
  rw [hStreak, ok_bind, h.verdict, hState, if_pos (by cases up <;> decide)]
  rfl

theorem Swings.lists (h : a.Swings up n) :
    (a.health.set 20 (swung up)).Lists (if up then [10] else [10, 20]) := by
  refine ⟨by cases up <;> decide, fun b => ?_⟩
  rw [HealthChecker.state_set]
  by_cases hSecond : b = 20
  · cases up <;> simp [hSecond, swung]
  · -- of the others, only the first is up
    have hOther : a.health.state b = some .up ↔ b = 10 := by
      constructor
      · intro hUp
        exact (h.known b (by rw [hUp]; nofun)).resolve_right hSecond
      · rintro rfl
        exact h.first
    rw [if_neg hSecond, hOther]
    cases up <;> simp [hSecond]

theorem Swings.next (h : a.Swings up n) :
    ∃ a', a.reportProbe false 7 (.stored _) 20 (!up) 0 =
        some (ok (a', some (.ofNat (n + 1)))) ∧ a'.Swings (!up) (n + 1) := by
  have hAlive := (HealthChecker.lists_aliveBackends (.stored _) _).unique h.lists
  have hEnough : (if up then [10] else [10, 20] : List UInt32).length * 3 < 7 := by
    cases up <;> decide
  obtain ⟨table, hBuild, -⟩ := buildLut_spec false Nat.prime_three (by decide)
    (by cases up <;> decide) hEnough
  rw [← h.size] at hBuild
  have hVersion : a.lut.version + 1 = .ofNat (n + 1) := by
    rw [h.version]
    simp
  have hCall : a.reportProbe false 7 (.stored _) 20 (!up) 0 =
      { a with health := a.health.set 20 (swung up) }.republish false 7
        (if up then [10] else [10, 20]) := by
    rw [reportProbe, h.report]
    dsimp only
    rw [hAlive, h.last, if_neg (by cases up <;> decide)]
  have hAgain := republish_eq (a := { a with health := a.health.set 20 (swung up) }) h.readers
    hBuild (addU64_false _ _) h.count
  rw [hVersion] at hAgain
  refine ⟨_, hCall.trans hAgain, ?_⟩
  refine ⟨h.size, h.readers, hVersion.symm, hVersion, ?_, h.fall, h.rise, ?_,
    ⟨swung up, AList.lookup_insert _, rfl, ?_⟩, fun b hb => ?_⟩
  · cases up <;> rfl
  · change (a.health.set 20 (swung up)).state 10 = _
    rw [HealthChecker.state_set, if_neg (by decide), h.first]
  · cases up <;> rfl
  · change (a.health.set 20 (swung up)).state b ≠ none at hb
    rw [HealthChecker.state_set] at hb
    by_cases hSecond : b = 20
    · exact .inr hSecond
    · rw [if_neg hSecond] at hb
      exact h.known b hb

theorem exists_swings {start : ControlAgent}
    (hNew : new false 7 promptConfig [10, 20] = some (ok start)) (k : Nat) :
    ∃ a up, Run (step false 7) Always start a ∧ a.Swings up (k + 2) := by
  induction k with
  | zero =>
    have hTest : ((new false 7 promptConfig [10, 20]).bind toOption).any (fun start =>
        (exec (step false 7) Always start [result 10 true, result 20 false]).any fun a =>
          a.lut.m == 3 && (a.lut.readers false == 0 && a.lut.readers true == 0) &&
          a.publishCount == a.lut.version && a.lut.version == 2 && a.lastPublished == [10] &&
          a.health.fall == 1 && a.health.rise == 1 && a.health.state 10 == some .up &&
          a.health.backends.lookup 20 == some ⟨.down, some false, 0, 0⟩ &&
          a.health.backends.keys.all (fun b => b == 10 || b == 20)) = true := by
      decide +kernel
    rw [hNew] at hTest
    obtain ⟨a, hRun, hSeen⟩ := exists_run_of_exec (step false 7) Always start
      [result 10 true, result 20 false] _ hTest
    simp only [Bool.and_eq_true, beq_iff_eq, all_eq_true, Bool.or_eq_true] at hSeen
    obtain ⟨⟨⟨⟨⟨⟨⟨⟨⟨hSize, hReaders⟩, hCount⟩, hVersion⟩, hLast⟩, hFall⟩, hRise⟩, hFirst⟩,
      hSecond⟩, hKeys⟩ := hSeen
    refine ⟨a, false, hRun, hSize, fun i => ?_, hCount, hVersion, hLast, hFall, hRise, hFirst,
      ⟨_, hSecond, rfl, rfl⟩, fun b hb => hKeys b ?_⟩
    · cases i
      · exact hReaders.1
      · exact hReaders.2
    · rw [← AList.mem_keys, ← AList.lookup_isSome, Option.isSome_iff_ne_none]
      intro hNone
      exact hb (by rw [HealthChecker.state, hNone, Option.map_none])
  | succ k ih =>
    obtain ⟨a, up, hRun, hSwings⟩ := ih
    obtain ⟨a', hCall, hNext⟩ := hSwings.next
    refine ⟨a', !up, hRun.step trivial (e := result 20 (!up)) ?_, hNext⟩
    rw [result, step, hCall]

/-- The first backend is up, with so many good results since. -/
structure Rises (n : Nat) (a : ControlAgent) : Prop where
  rise : a.health.rise = 1
  first : a.health.backends.lookup 10 = some ⟨.up, some true, .ofNat n, 0⟩

theorem Rises.nextStreak (hLess : n + 1 < 2 ^ 32) :
    BackendHealth.nextStreak true ⟨.up, some true, .ofNat n, 0⟩ true = ok (.ofNat (n + 1)) := by
  rw [BackendHealth.nextStreak, if_pos rfl, addU32, if_pos]
  · simp
  · left
    rw [UInt32.toNat_ofNat', Nat.mod_eq_of_lt (by omega)]
    exact hLess

theorem Rises.next (h : a.Rises n) (hLess : n + 1 < 2 ^ 32) :
    ∃ a', a.reportProbe true 7 (.stored _) 10 true 0 = some (ok (a', none)) ∧ a'.Rises (n + 1) := by
  have hVerdict : a.health.verdict .up (.ofNat (n + 1)) true = .up := by
    unfold HealthChecker.verdict
    split
    · rfl
    · simp
  have hReport : a.health.report true 10 true 0 =
      ok (a.health.set 10 ⟨.up, some true, .ofNat (n + 1), 0⟩, false) := by
    rw [HealthChecker.report, h.first]
    dsimp only
    rw [Rises.nextStreak hLess, ok_bind, hVerdict, if_neg (by simp)]
  rw [reportProbe, hReport]
  exact ⟨_, rfl, h.rise, AList.lookup_insert _⟩

theorem exists_rises {start} (hNew : new true 7 promptConfig [10, 20] = some (ok start))
    (hLess : n < 2 ^ 32) : ∃ a, Run (step true 7) Always start a ∧ a.Rises n := by
  induction n with
  | zero =>
    have hTest : ((new true 7 promptConfig [10, 20]).bind toOption).any (fun start =>
        (exec (step true 7) Always start [result 10 true]).any fun a => a.health.rise == 1 &&
          a.health.backends.lookup 10 == some ⟨.up, some true, 0, 0⟩) = true := by
      decide +kernel
    rw [hNew] at hTest
    obtain ⟨a, hRun, hSeen⟩ := exists_run_of_exec (step true 7) Always start
      [result 10 true] _ hTest
    rw [Bool.and_eq_true, beq_iff_eq, beq_iff_eq] at hSeen
    exact ⟨a, hRun, hSeen.1, hSeen.2⟩
  | succ n ih =>
    obtain ⟨a, hRun, hRises⟩ := ih (by omega)
    obtain ⟨a', hCall, hNext⟩ := hRises.next hLess
    refine ⟨a', hRun.step trivial (e := result 10 true) ?_, hNext⟩
    rw [result, step, hCall]

/-- After `2 ^ 64 - 2` publications the next version is zero; and `2 ^ 32` more good results of one
backend end in a panic. -/
theorem not_follows :
    (∃ start a a', new false 7 promptConfig [10, 20] = some (ok start) ∧
      Run (step false 7) Always start a ∧ a.lut.version = 0xffffffffffffffff ∧
      ∃ good, a.reportProbe false 7 (.stored _) 20 good 0 = some (ok (a', some 0))) ∧
    (∃ start a, new true 7 promptConfig [10, 20] = some (ok start) ∧
      Run (step true 7) Always start a ∧
      a.reportProbe true 7 (.stored _) 10 true 0 = some (panic .overflow)) := by
  constructor
  · obtain ⟨start, hNew, -⟩ := new_prompt false
    obtain ⟨a, up, hRun, hSwings⟩ := exists_swings hNew (2 ^ 64 - 3)
    obtain ⟨a', hCall, -⟩ := hSwings.next
    exact ⟨start, a, a', hNew, hRun, hSwings.version, !up, hCall⟩
  · obtain ⟨start, hNew, -⟩ := new_prompt true
    obtain ⟨a, hRun, hRises⟩ := exists_rises hNew (n := 2 ^ 32 - 1) (by decide)
    refine ⟨start, a, hNew, hRun, ?_⟩
    have hStreak : BackendHealth.nextStreak true ⟨.up, some true, .ofNat (2 ^ 32 - 1), 0⟩ true =
        panic .overflow := by decide
    rw [reportProbe, HealthChecker.report, hRises.first]
    dsimp only
    rw [hStreak]
    rfl

end ControlAgent

end DirectWire.Xdp
