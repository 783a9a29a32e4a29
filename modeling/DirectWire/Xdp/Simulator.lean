import DirectWire.Lib.Run
import DirectWire.Xdp.Admission
import DirectWire.Xdp.ConnTrack
import DirectWire.Xdp.Maglev

/-!
# XDP edge — the simulator

A packet passes the rate limit and the SYN check, and then goes to the backend that its flow had
before, or to the one of the Maglev table. `SimRun` is a simulator with the packets forwarded.
-/

namespace DirectWire.Xdp

open Lib Outcome List

structure SimConfig (F : Type) where
  ratePerSec : F
  rateBurst : F
  rateMaxEntries : Nat
  conntrackCapacity : Nat
  conntrackTimeoutNs : UInt64
  synWindowNs : UInt64
  synThreshold : UInt32
  synAckRatio : UInt32

structure SimStats where
  passed : UInt64
  droppedRate : UInt64
  droppedSynflood : UInt64
  forwarded : UInt64
  connHits : UInt64
  connMisses : UInt64
deriving DecidableEq, Repr

def SimStats.zero : SimStats := ⟨0, 0, 0, 0, 0, 0⟩

def SimStats.total (checks : Bool) (s : SimStats) : Outcome Empty UInt64 := do
  addU64 checks (← addU64 checks (← addU64 checks s.passed s.droppedRate) s.droppedSynflood)
    s.forwarded

structure XdpSimulator (F : Type) where
  limiter : RateLimiter F
  synGuard : SynFloodGuard
  conntrack : ConnTrack
  maglev : Maglev
  stats : SimStats

variable {F : Type} {fl : Floats F} {checks : Bool} {s s' : XdpSimulator F} {pkt : Packet}
  {now : UInt64} {action : Action}

namespace XdpSimulator

def new (checks : Bool) (fuel : Nat) (cfg : SimConfig F) (backends : List UInt32)
    (maglevSize : Nat) : Option (Outcome Empty (XdpSimulator F)) :=
  match Maglev.new checks maglevSize with
  | .panic p => some (panic p)
  | .ok maglev =>
    (maglev.rebuild checks fuel backends).map fun rebuilt => do
      let maglev ← rebuilt
      let conntrack ← ConnTrack.new cfg.conntrackCapacity cfg.conntrackTimeoutNs
      ok {
        limiter := .new cfg.ratePerSec cfg.rateBurst cfg.rateMaxEntries
        synGuard := .new cfg.synWindowNs cfg.synThreshold cfg.synAckRatio
        conntrack
        maglev
        stats := .zero }

def setBackends (checks : Bool) (fuel : Nat) (s : XdpSimulator F) (backends : List UInt32) :
    Option (Outcome Empty (XdpSimulator F)) :=
  (s.maglev.rebuild checks fuel backends).map fun rebuilt => do ok { s with maglev := ← rebuilt }

def applyLut (s : XdpSimulator F) (backends table : List UInt32) :
    Outcome Empty (XdpSimulator F) := do
  ok { s with maglev := ← s.maglev.loadTable backends table }

/-- `conntrack_mut().sweep_expired(now)`. -/
def sweep (ord : HashOrder FiveTuple) (s : XdpSimulator F) (now : UInt64) :
    Outcome Empty (XdpSimulator F) := do
  let (conntrack, _) ← s.conntrack.sweepExpired ord now
  ok { s with conntrack }

def route (checks : Bool) (s : XdpSimulator F) (pkt : Packet) (now : UInt64) :
    Outcome Empty (XdpSimulator F × Action) := do
  let (conntrack, hit) ← s.conntrack.lookup pkt.tuple now
  let s := { s with conntrack }
  match hit with
  | some entry =>
    let s := { s with stats := { s.stats with connHits := ← addU64 checks s.stats.connHits 1 } }
    let s := { s with stats := { s.stats with forwarded := ← addU64 checks s.stats.forwarded 1 } }
    ok (s, .forward entry.backendIp)
  | none =>
    let s := { s with stats := { s.stats with connMisses := ← addU64 checks s.stats.connMisses 1 } }
    let backend ← s.maglev.lookup (flowHash pkt.tuple)
    let conntrack ← s.conntrack.insert checks pkt.tuple ⟨backend, now⟩
    let s := { s with conntrack }
    let s := { s with stats := { s.stats with forwarded := ← addU64 checks s.stats.forwarded 1 } }
    ok (s, .forward backend)

def process (fl : Floats F) (checks : Bool) (s : XdpSimulator F) (pkt : Packet) (now : UInt64) :
    Outcome Empty (XdpSimulator F × Action) := do
  let src := pkt.tuple.srcIp
  let (limiter, allowed) ← s.limiter.allow fl checks src now
  let s := { s with limiter }
  if !allowed then
    let droppedRate ← addU64 checks s.stats.droppedRate 1
    ok ({ s with stats := { s.stats with droppedRate } }, .drop)
  else if pkt.tuple.protocol = protoTcp then
    let (synGuard, flagged) ← s.synGuard.observe checks src pkt.isSyn pkt.isAck now
    let s := { s with synGuard }
    if flagged then
      let droppedSynflood ← addU64 checks s.stats.droppedSynflood 1
      ok ({ s with stats := { s.stats with droppedSynflood } }, .drop)
    else s.route checks pkt now
  else s.route checks pkt now

/-! ## What a packet does -/

inductive Verdict (checks : Bool) (s s' : XdpSimulator F) (pkt : Packet) (now : UInt64) :
    Action → Prop where
  | dropRate (hTrack : s'.conntrack = s.conntrack)
      (hStats : s'.stats = { s.stats with droppedRate := s.stats.droppedRate + 1 }) :
      Verdict checks s s' pkt now .drop
  | dropSynflood (hTrack : s'.conntrack = s.conntrack)
      (hStats : s'.stats = { s.stats with droppedSynflood := s.stats.droppedSynflood + 1 }) :
      Verdict checks s s' pkt now .drop
  | hit {entry} (hLookup : s.conntrack.lookup pkt.tuple now = ok (s'.conntrack, some entry))
      (hStats : s'.stats = { s.stats with
        connHits := s.stats.connHits + 1
        forwarded := s.stats.forwarded + 1 }) :
      Verdict checks s s' pkt now (.forward entry.backendIp)
  | miss {conntrack backend} (hLookup : s.conntrack.lookup pkt.tuple now = ok (conntrack, none))
      (hInsert : conntrack.insert checks pkt.tuple ⟨backend, now⟩ = ok s'.conntrack)
      (hStats : s'.stats = { s.stats with
        connMisses := s.stats.connMisses + 1
        forwarded := s.stats.forwarded + 1 }) : Verdict checks s s' pkt now (.forward backend)

theorem verdict_of_route {s₁ : XdpSimulator F} (h : s₁.route checks pkt now = ok (s', action))
    (hTrack : s₁.conntrack = s.conntrack) (hStats : s₁.stats = s.stats) :
    Verdict checks s s' pkt now action := by
  obtain ⟨⟨conntrack, hit⟩, hLookup, h⟩ := bind_eq_ok.mp h
  rw [hTrack] at hLookup
  cases hit with
  | some entry =>
    obtain ⟨hits, hHits, h⟩ := bind_eq_ok.mp h
    obtain ⟨forwarded, hForwarded, h⟩ := bind_eq_ok.mp h
    cases h
    refine .hit hLookup ?_
    rw [addU64_eq_ok hForwarded, addU64_eq_ok hHits, ← hStats]
  | none =>
    obtain ⟨misses, hMisses, h⟩ := bind_eq_ok.mp h
    obtain ⟨backend, -, h⟩ := bind_eq_ok.mp h
    obtain ⟨conntrack', hInsert, h⟩ := bind_eq_ok.mp h
    obtain ⟨forwarded, hForwarded, h⟩ := bind_eq_ok.mp h
    cases h
    refine .miss hLookup hInsert ?_
    rw [addU64_eq_ok hForwarded, addU64_eq_ok hMisses, ← hStats]

theorem verdict_of_process (h : s.process fl checks pkt now = ok (s', action)) :
    Verdict checks s s' pkt now action := by
  obtain ⟨⟨limiter, allowed⟩, -, h⟩ := bind_eq_ok.mp h
  dsimp only at h
  split at h
  · obtain ⟨droppedRate, hRate, h⟩ := bind_eq_ok.mp h
    cases h
    refine .dropRate rfl ?_
    rw [← addU64_eq_ok hRate]
  · split at h
    · obtain ⟨⟨synGuard, flagged⟩, -, h⟩ := bind_eq_ok.mp h
      split at h
      · obtain ⟨droppedSynflood, hSynflood, h⟩ := bind_eq_ok.mp h
        cases h
        refine .dropSynflood rfl ?_
        rw [← addU64_eq_ok hSynflood]
      · exact verdict_of_route h rfl rfl
    · exact verdict_of_route h rfl rfl

end XdpSimulator

/-! ## Runs -/

structure Forwarded where
  tuple : FiveTuple
  backend : UInt32
  time : UInt64
deriving DecidableEq, Repr

structure SimRun (F : Type) where
  sim : XdpSimulator F
  clock : UInt64
  processed : Nat
  log : List Forwarded

inductive SimEvent where
  | process (pkt : Packet) (now : UInt64)
  | setBackends (backends : List UInt32) (fuel : Nat)
  | applyLut (backends table : List UInt32)
  | sweep (ord : HashOrder FiveTuple) (now : UInt64)

namespace SimRun

variable {F : Type}

def start (sim : XdpSimulator F) : SimRun F := ⟨sim, 0, 0, []⟩

def logged (pkt : Packet) (now : UInt64) : Action → List Forwarded
  | .forward backend => [⟨pkt.tuple, backend, now⟩]
  | _ => []

def step (fl : Floats F) (checks : Bool) (r : SimRun F) : SimEvent → Option (SimRun F)
  | .process pkt now =>
    if now < r.clock then none
    else match r.sim.process fl checks pkt now with
      | .ok (sim, action) =>
        some ⟨sim, now, r.processed + 1, r.log ++ logged pkt now action⟩
      | .panic _ => none
  | .setBackends backends fuel =>
    match r.sim.setBackends checks fuel backends with
    | some (.ok sim) => some { r with sim }
    | _ => none
  | .applyLut backends table =>
    match r.sim.applyLut backends table with
    | .ok sim => some { r with sim }
    | .panic _ => none
  | .sweep ord now =>
    if now < r.clock then none
    else match r.sim.sweep ord now with
      | .ok sim => some { r with sim, clock := now }
      | .panic _ => none

variable {fl : Floats F} {checks : Bool} {r r' : SimRun F} {e : SimEvent}

inductive Act (checks : Bool) (r : SimRun F) : SimEvent → SimRun F → Prop where
  | process {pkt now sim action} (hClock : r.clock ≤ now)
      (hVerdict : XdpSimulator.Verdict checks r.sim sim pkt now action) :
      Act checks r (.process pkt now)
        ⟨sim, now, r.processed + 1, r.log ++ logged pkt now action⟩
  | setBackends {backends fuel maglev} :
      Act checks r (.setBackends backends fuel) { r with sim := { r.sim with maglev } }
  | applyLut {backends table maglev} :
      Act checks r (.applyLut backends table) { r with sim := { r.sim with maglev } }
  | sweep {ord now conntrack n} (hClock : r.clock ≤ now)
      (hSweep : r.sim.conntrack.sweepExpired ord now = ok (conntrack, n)) :
      Act checks r (.sweep ord now)
        { r with sim := { r.sim with conntrack }, clock := now }

theorem act_of_step (h : r.step fl checks e = some r') : Act checks r e r' := by
  cases e with
  | process pkt now =>
    unfold step at h
    dsimp only at h
    split at h
    · cases h
    rename_i hClock
    split at h
    · rename_i sim action hProcess
      cases h
      exact .process (UInt64.not_lt.mp hClock) (XdpSimulator.verdict_of_process hProcess)
    · cases h
  | setBackends backends fuel =>
    unfold step at h
    dsimp only at h
    split at h
    · rename_i sim hSet
      cases h
      obtain ⟨rebuilt, -, hSim⟩ := Option.map_eq_some_iff.mp hSet
      obtain ⟨maglev, -, hSim⟩ := bind_eq_ok.mp hSim
      cases hSim
      exact .setBackends
    · cases h
  | applyLut backends table =>
    unfold step at h
    dsimp only at h
    split at h
    · rename_i sim hApply
      cases h
      obtain ⟨maglev, -, hSim⟩ := bind_eq_ok.mp hApply
      cases hSim
      exact .applyLut
    · cases h
  | sweep ord now =>
    unfold step at h
    dsimp only at h
    split at h
    · cases h
    rename_i hClock
    split at h
    · rename_i sim hSweep
      cases h
      obtain ⟨⟨conntrack, n⟩, hSwept, hSim⟩ := bind_eq_ok.mp hSweep
      cases hSim
      exact .sweep (UInt64.not_lt.mp hClock) hSwept
    · cases h

/-! ## Affinity -/

def flows (log : List Forwarded) : Finset FiveTuple := (log.map Forwarded.tuple).toFinset

theorem flows_concat (log : List Forwarded) (x : Forwarded) :
    flows (log ++ [x]) = insert x.tuple (flows log) := by
  ext t
  simp [flows]

def Last (log : List Forwarded) (x : Forwarded) (since : List Forwarded) : Prop :=
  ∃ before, log = before ++ x :: since ∧ ∀ y ∈ since, y.tuple ≠ x.tuple

/-- The connection table remembers the flows that were seen last. -/
structure Remembers (r : SimRun F) (l : List (FiveTuple × ConnEntry)) : Prop where
  shows : r.sim.conntrack.Shows l
  near : ∀ x since, Last r.log x since →
    r.clock.toNat - x.time.toNat ≤ r.sim.conntrack.timeoutNs.toNat →
    (flows since).card < r.sim.conntrack.capacity →
    Lru.Near l x.tuple ⟨x.backend, x.time⟩ (flows since)

variable {log since : List Forwarded} {z : Forwarded} {l : List (FiveTuple × ConnEntry)}
  {processed : Nat} {sim s s' : XdpSimulator F} {now : UInt64} {action : Action} {pkt : Packet}
  {c : ConnTrack} {cfg : SimConfig F}

theorem last_concat {x} (h : Last (log ++ [z]) x since) :
    x = z ∧ since = [] ∨
      ∃ since', since = since' ++ [z] ∧ Last log x since' ∧ z.tuple ≠ x.tuple := by
  obtain ⟨before, hLog, hOther⟩ := h
  rcases eq_nil_or_concat' since with rfl | ⟨since', z', rfl⟩
  · obtain ⟨-, hSame⟩ := append_inj' hLog rfl
    cases hSame
    exact .inl ⟨rfl, rfl⟩
  · rw [← cons_append, ← append_assoc] at hLog
    obtain ⟨rfl, hSame⟩ := append_inj' hLog rfl
    cases hSame
    exact .inr ⟨since', rfl, ⟨before, rfl, fun y hy => hOther y (mem_append_left _ hy)⟩,
      hOther z (mem_append_right _ (mem_singleton_self z))⟩

section

variable (h : r.Remembers l)

include h

theorem Remembers.forwarded {l'} (hClock : r.clock ≤ z.time) (hShows : sim.conntrack.Shows l')
    (hTimeout : sim.conntrack.timeoutNs = r.sim.conntrack.timeoutNs)
    (hCapacity : sim.conntrack.capacity = r.sim.conntrack.capacity)
    (hFirst : ∃ rest, l' = (z.tuple, ⟨z.backend, z.time⟩) :: rest)
    (hOthers : ∀ k v s, Lru.Near l k v s → z.tuple ≠ k →
      (insert z.tuple s).card < r.sim.conntrack.capacity → Lru.Near l' k v (insert z.tuple s)) :
    Remembers ⟨sim, z.time, processed, r.log ++ [z]⟩ l' where
  shows := hShows
  near x since hLast hTime hCard := by
    have hLe := UInt64.le_iff_toNat_le.mp hClock
    rcases last_concat hLast with ⟨rfl, rfl⟩ | ⟨since, rfl, hLast, hOther⟩
    · obtain ⟨rest, rfl⟩ := hFirst
      exact ⟨[], _, rfl, nofun⟩
    · rw [flows_concat] at hCard ⊢
      change _ < sim.conntrack.capacity at hCard
      change z.time.toNat - _ ≤ sim.conntrack.timeoutNs.toNat at hTime
      rw [hCapacity] at hCard
      rw [hTimeout] at hTime
      have hFewer := Finset.card_le_card (Finset.subset_insert z.tuple (flows since))
      exact hOthers _ _ _ (h.near x since hLast (by omega) (by omega)) hOther hCard

def Agrees (r : SimRun F) (z : Forwarded) : Prop :=
  ∀ x since, Last r.log x since → x.tuple = z.tuple →
    z.time.toNat - x.time.toNat ≤ r.sim.conntrack.timeoutNs.toNat →
    (flows since).card < r.sim.conntrack.capacity → x.backend = z.backend

theorem Remembers.later (hClock : r.clock ≤ now) (hTrack : sim.conntrack = r.sim.conntrack) :
    Remembers ⟨sim, now, processed, r.log⟩ l where
  shows := hTrack ▸ h.shows
  near x since hLast hTime hCard := by
    have hLe := UInt64.le_iff_toNat_le.mp hClock
    change now.toNat - _ ≤ sim.conntrack.timeoutNs.toNat at hTime
    change _ < sim.conntrack.capacity at hCard
    rw [hTrack] at hTime hCard
    exact h.near x since hLast (by omega) hCard

theorem Remembers.get? (hClock : r.clock ≤ z.time) {x} (hLast : Last r.log x since)
    (hSame : x.tuple = z.tuple)
    (hTime : z.time.toNat - x.time.toNat ≤ r.sim.conntrack.timeoutNs.toNat)
    (hCard : (flows since).card < r.sim.conntrack.capacity) :
    Lru.get? l z.tuple = some ⟨x.backend, x.time⟩ := by
  have hLe := UInt64.le_iff_toNat_le.mp hClock
  have hNear := h.near x since hLast (by omega) hCard
  rw [← hSame]
  exact hNear.get? h.shows.nodup_keys

theorem Remembers.verdict (hClock : r.clock ≤ now)
    (hVerdict : XdpSimulator.Verdict checks r.sim sim pkt now action) :
    (∃ l', Remembers ⟨sim, now, processed, r.log ++ logged pkt now action⟩ l') ∧
      (∀ z ∈ logged pkt now action, r.Agrees z) ∧
      sim.conntrack.timeoutNs = r.sim.conntrack.timeoutNs ∧
      sim.conntrack.capacity = r.sim.conntrack.capacity := by
  cases hVerdict with
  | dropRate hTrack _ | dropSynflood hTrack _ =>
    refine ⟨⟨l, ?_⟩, nofun, by rw [hTrack], by rw [hTrack]⟩
    change Remembers ⟨sim, now, processed, r.log ++ []⟩ l
    rw [append_nil]
    exact h.later hClock hTrack
  | @hit entry hLookup _ =>
    obtain ⟨c', hLookup', hShows, hBounds⟩ := h.shows.lookup pkt.tuple now
    obtain ⟨rfl, hFound⟩ := Prod.mk.inj (ok.inj (hLookup'.symm.trans hLookup))
    obtain ⟨hGet, hList⟩ := ConnTrack.recentLookup_some hFound
    rw [hList] at hShows
    refine ⟨⟨_, h.forwarded (z := ⟨pkt.tuple, entry.backendIp, now⟩) hClock hShows hBounds.timeoutNs
      hBounds.capacity ⟨_, rfl⟩ fun k v s hNear hOther _ => hNear.touch hOther⟩, ?_,
      hBounds.timeoutNs, hBounds.capacity⟩
    intro z hz x since hLast hSame hTime hCard
    obtain rfl := mem_singleton.mp hz
    have hOld := h.get? hClock hLast hSame hTime hCard
    exact (congrArg ConnEntry.backendIp (Option.some_inj.mp (hGet.symm.trans hOld))).symm
  | @miss conntrack backend hLookup hInsert _ =>
    obtain ⟨c', hLookup', hShows, hBounds⟩ := h.shows.lookup pkt.tuple now
    obtain ⟨rfl, hNone⟩ := Prod.mk.inj (ok.inj (hLookup'.symm.trans hLookup))
    obtain ⟨hPut, hCapacity, hTimeout⟩ := hShows.of_insert hInsert
    have hNear : ∀ k v s, Lru.Near l k v s → pkt.tuple ≠ k → Lru.Near
        (ConnTrack.recentLookup r.sim.conntrack.timeoutNs l pkt.tuple now).1 k v s := by
      intro k v s hNear hOther
      rcases ConnTrack.recentLookup_none hNone with ⟨-, hList⟩ | ⟨-, -, -, hList⟩
      · rwa [hList]
      · rw [hList]
        exact hNear.without hOther
    refine ⟨⟨_, h.forwarded (z := ⟨pkt.tuple, backend, now⟩) hClock hPut
      (hTimeout.trans hBounds.timeoutNs) (hCapacity.trans hBounds.capacity) (Lru.put_eq_cons ..)
      fun k v s hOld hOther hCard => ?_⟩, ?_, hTimeout.trans hBounds.timeoutNs,
      hCapacity.trans hBounds.capacity⟩
    · exact (hNear k v s hOld hOther).put hOther hShows.nodup_keys (hBounds.capacity ▸ hCard)
    · intro z hz x since hLast hSame hTime hCard
      obtain rfl := mem_singleton.mp hz
      -- it would have been found
      have hOld := h.get? hClock hLast hSame hTime hCard
      rcases ConnTrack.recentLookup_none hNone with ⟨hGet, -⟩ | ⟨entry, hGet, hExpired, -⟩
      · rw [hGet] at hOld
        cases hOld
      · obtain rfl := Option.some_inj.mp (hGet.symm.trans hOld)
        have hLate : r.sim.conntrack.timeoutNs.toNat < now.toNat - x.time.toNat :=
          of_decide_eq_true hExpired
        change now.toNat - _ ≤ _ at hTime
        omega

theorem Remembers.sweep (hClock : r.clock ≤ now)
    (hShows : c.Shows (l.filter fun x => !x.2.expired r.sim.conntrack.timeoutNs now))
    (hBounds : ConnTrack.SameBounds r.sim.conntrack c) :
    Remembers { r with sim := { r.sim with conntrack := c }, clock := now }
      (l.filter fun x => !x.2.expired r.sim.conntrack.timeoutNs now) where
  shows := hShows
  near x since hLast hTime hCard := by
    have hLe := UInt64.le_iff_toNat_le.mp hClock
    change now.toNat - _ ≤ c.timeoutNs.toNat at hTime
    change _ < c.capacity at hCard
    rw [hBounds.timeoutNs] at hTime
    rw [hBounds.capacity] at hCard
    refine (h.near x since hLast (by omega) hCard).filter ?_
    simpa [ConnEntry.expired] using hTime

end

/-- Each packet goes where the last one of its flow went, if that is not too long ago and not too
many other flows were forwarded since. -/
def Affine (timeoutNs : UInt64) (capacity : Nat) (log : List Forwarded) : Prop :=
  ∀ before z after, log = before ++ z :: after → ∀ x since, Last before x since →
    x.tuple = z.tuple → z.time.toNat - x.time.toNat ≤ timeoutNs.toNat →
    (flows since).card < capacity → x.backend = z.backend

theorem Affine.append {timeoutNs capacity more} (h : Affine timeoutNs capacity log)
    (hShort : more.length ≤ 1)
    (hMore : ∀ z ∈ more, ∀ x since, Last log x since → x.tuple = z.tuple →
      z.time.toNat - x.time.toNat ≤ timeoutNs.toNat → (flows since).card < capacity →
      x.backend = z.backend) : Affine timeoutNs capacity (log ++ more) := by
  match more, hShort with
  | [], _ => rwa [append_nil]
  | [z], _ =>
    intro before z' after hLog
    rcases eq_nil_or_concat' after with rfl | ⟨after, w, rfl⟩
    · obtain ⟨rfl, hSame⟩ := append_inj' hLog rfl
      cases hSame
      exact hMore z (mem_singleton_self z)
    · rw [← cons_append, ← append_assoc] at hLog
      obtain ⟨hOld, -⟩ := append_inj' hLog rfl
      exact h before z' after hOld

structure Steered (cfg : SimConfig F) (r : SimRun F) : Prop where
  capacity : r.sim.conntrack.capacity = cfg.conntrackCapacity
  timeoutNs : r.sim.conntrack.timeoutNs = cfg.conntrackTimeoutNs
  remembers : ∃ l, r.Remembers l
  steered : Affine cfg.conntrackTimeoutNs cfg.conntrackCapacity r.log

theorem Steered.act (h : r.Steered cfg) (hAct : Act checks r e r') : r'.Steered cfg := by
  obtain ⟨l, hRemembers⟩ := h.remembers
  cases hAct with
  | @process pkt now sim action hClock hVerdict =>
    obtain ⟨hMemory, hAgrees, hTimeout, hCapacity⟩ := hRemembers.verdict hClock hVerdict
    refine ⟨hCapacity.trans h.capacity, hTimeout.trans h.timeoutNs, hMemory, ?_⟩
    refine h.steered.append (by cases action <;> simp [logged]) fun z hz => ?_
    rw [← h.timeoutNs, ← h.capacity]
    exact hAgrees z hz
  | setBackends | applyLut =>
    exact ⟨h.capacity, h.timeoutNs, ⟨l, hRemembers.later (UInt64.le_refl _) rfl⟩, h.steered⟩
  | @sweep ord now conntrack n hClock hSweep =>
    obtain ⟨c', hSweep', hShows, hBounds⟩ := hRemembers.shows.sweepExpired ord now
    obtain ⟨rfl, -⟩ := Prod.mk.inj (ok.inj (hSweep'.symm.trans hSweep))
    exact ⟨hBounds.capacity.trans h.capacity, hBounds.timeoutNs.trans h.timeoutNs,
      ⟨_, hRemembers.sweep hClock hShows hBounds⟩, h.steered⟩

/-! ## Counters -/

/-- The counters, as long as fewer than `2 ^ 64` packets have been processed. -/
structure Counts (processed : Nat) (s : SimStats) : Prop where
  passed : s.passed = 0
  total : s.droppedRate.toNat + s.droppedSynflood.toNat + s.forwarded.toNat = processed
  forwarded : s.connHits.toNat + s.connMisses.toNat = s.forwarded.toNat

theorem Counts.verdict (h : Counts processed s.stats) (hLess : processed + 1 < 2 ^ 64)
    (hVerdict : XdpSimulator.Verdict checks s s' pkt now action) :
    Counts (processed + 1) s'.stats := by
  have hTotal := h.total
  have hForwarded := h.forwarded
  cases hVerdict with
  | dropRate _ hStats =>
    have hAdd := toNat_add_one (a := s.stats.droppedRate) (by omega)
    rw [hStats]
    exact ⟨h.passed, by dsimp only; omega, hForwarded⟩
  | dropSynflood _ hStats =>
    have hAdd := toNat_add_one (a := s.stats.droppedSynflood) (by omega)
    rw [hStats]
    exact ⟨h.passed, by dsimp only; omega, hForwarded⟩
  | hit _ hStats =>
    have hAdd := toNat_add_one (a := s.stats.forwarded) (by omega)
    have hHits := toNat_add_one (a := s.stats.connHits) (by omega)
    rw [hStats]
    exact ⟨h.passed, by dsimp only; omega, by dsimp only; omega⟩
  | miss _ _ hStats =>
    have hAdd := toNat_add_one (a := s.stats.forwarded) (by omega)
    have hMisses := toNat_add_one (a := s.stats.connMisses) (by omega)
    rw [hStats]
    exact ⟨h.passed, by dsimp only; omega, by dsimp only; omega⟩

theorem Counts.total_eq {s} (h : Counts processed s) (hLess : processed < 2 ^ 64) :
    ∃ total, s.total checks = ok total ∧ total.toNat = processed := by
  obtain ⟨hPassed, hTotal, -⟩ := h
  have hRate : (s.passed + s.droppedRate).toNat = s.droppedRate.toNat := by
    rw [hPassed, UInt64.zero_add]
  have hDropped : (s.passed + s.droppedRate + s.droppedSynflood).toNat =
      s.droppedRate.toNat + s.droppedSynflood.toNat := by
    rw [UInt64.toNat_add, hRate]
    exact Nat.mod_eq_of_lt (by omega)
  refine ⟨s.passed + s.droppedRate + s.droppedSynflood + s.forwarded, ?_, ?_⟩
  · rw [SimStats.total, addU64_of_lt, ok_bind, addU64_of_lt, ok_bind, addU64_of_lt]
    · rw [hDropped]
      omega
    · rw [hRate]
      omega
    · rw [hPassed]
      exact (Nat.zero_add _).trans_lt s.droppedRate.toNat_lt
  · rw [UInt64.toNat_add, hDropped, hTotal]
    exact Nat.mod_eq_of_lt hLess

theorem counts_act (h : r.processed < 2 ^ 64 → Counts r.processed r.sim.stats)
    (hAct : Act checks r e r') (hLess : r'.processed < 2 ^ 64) :
    Counts r'.processed r'.sim.stats := by
  cases hAct with
  | process _ hVerdict => exact (h (Nat.lt_of_succ_lt hLess)).verdict hLess hVerdict
  | setBackends | applyLut | sweep => exact h hLess

theorem of_new {fuel m backends} (h : XdpSimulator.new checks fuel cfg backends m = some (ok sim)) :
    ConnTrack.new cfg.conntrackCapacity cfg.conntrackTimeoutNs = ok sim.conntrack ∧
      sim.stats = .zero := by
  unfold XdpSimulator.new at h
  split at h
  · cases h
  · obtain ⟨rebuilt, -, hSim⟩ := Option.map_eq_some_iff.mp h
    obtain ⟨maglev, -, hSim⟩ := bind_eq_ok.mp hSim
    obtain ⟨conntrack, hTrack, hSim⟩ := bind_eq_ok.mp hSim
    cases hSim
    exact ⟨hTrack, rfl⟩

theorem steered_start {fuel m backends}
    (h : XdpSimulator.new checks fuel cfg backends m = some (ok sim))
    (hCapacity : cfg.conntrackCapacity < 2 ^ 32) : (start sim).Steered cfg := by
  obtain ⟨hTrack, -⟩ := of_new h
  obtain ⟨hKept, hSame, hTimeout⟩ := ConnTrack.kept_new hCapacity hTrack
  refine ⟨hSame, hTimeout, ⟨[], ⟨⟨[], hKept, rfl⟩, ?_⟩⟩, ?_⟩
  · rintro x since ⟨before, hLog, -⟩
    exact absurd hLog.symm (append_ne_nil_of_right_ne_nil _ (cons_ne_nil _ _))
  · intro before z after hLog
    exact absurd hLog.symm (append_ne_nil_of_right_ne_nil _ (cons_ne_nil _ _))

/-- **A flow keeps its backend.** The capacity of the table is below `2 ^ 32`, and fewer than `2 ^
64` packets were processed. Then each packet goes where the last one of its flow went, if that is
not longer ago than the timeout and fewer other flows than the capacity were forwarded since; the
counters add up to the packets processed, and hits and misses to those forwarded. -/
theorem same_backend {fuel m : Nat} {cfg : SimConfig F} {backends : List UInt32}
    {sim : XdpSimulator F}
    (hNew : XdpSimulator.new checks fuel cfg backends m = some (ok sim))
    (hCapacity : cfg.conntrackCapacity < 2 ^ 32)
    (hRun : Run (step fl checks) Always (start sim) r) (hCount : r.processed < 2 ^ 64) :
    Affine cfg.conntrackTimeoutNs cfg.conntrackCapacity r.log ∧
      (∃ total, r.sim.stats.total checks = ok total ∧ total.toNat = r.processed) ∧
      r.sim.stats.connHits.toNat + r.sim.stats.connMisses.toNat = r.sim.stats.forwarded.toNat := by
  have hSteered : r.Steered cfg := hRun.invariant (steered_start hNew hCapacity)
    fun _ _ _ h _ hStep => h.act (act_of_step hStep)
  have hCounts : Counts r.processed r.sim.stats := by
    refine hRun.invariant (I := fun r => r.processed < 2 ^ 64 → Counts r.processed r.sim.stats)
      (fun _ => ?_) (fun _ _ _ h _ hStep => counts_act h (act_of_step hStep)) hCount
    change Counts 0 sim.stats
    rw [(of_new hNew).2]
    exact ⟨rfl, rfl, rfl⟩
  exact ⟨hSteered.steered, hCounts.total_eq hCount, hCounts.forwarded⟩

def wholeFloats : Floats Nat :=
  ⟨id, (· + ·), (· - ·), (· * ·), (· / ·), min, fun a b => a ≤ b, fun a b => a < b⟩

def openConfig (capacity : Nat) (timeoutNs : UInt64) : SimConfig Nat :=
  ⟨1, 1, 0, capacity, timeoutNs, 1, 1, 1⟩

def twoBackends (capacity : Nat) (timeoutNs : UInt64) : XdpSimulator Nat where
  limiter := .new 1 1 0
  synGuard := .new 1 1 1
  conntrack := ⟨∅, [], [], noNode, noNode, capacity, timeoutNs, 0⟩
  maglev := ⟨3, [1, 0, 0], [10, 20]⟩
  stats := .zero

theorem new_twoBackends {capacity} (hPos : 0 < capacity) (timeoutNs : UInt64) :
    XdpSimulator.new false 9 (openConfig capacity timeoutNs) [10, 20] 3 =
      some (ok (twoBackends capacity timeoutNs)) := by
  have hBuild : buildLut false 3 [10, 20] 9 = some (ok [1, 0, 0]) := by decide +kernel
  have hMaglev : Maglev.new false 3 = ok ⟨3, [u32Max, u32Max, u32Max], []⟩ := by decide +kernel
  rw [XdpSimulator.new, hMaglev]
  dsimp only
  rw [Maglev.rebuild, hBuild, Option.map_some, Option.map_some, ok_bind, ok_bind, ConnTrack.new,
    openConfig, if_pos hPos]
  rfl

def udpFlow (j : Nat) : FiveTuple := ⟨.ofNat j, .ofNat (j / 2 ^ 32), 0, 0, protoUdp⟩

def packetOf (t : FiveTuple) : Packet := ⟨t, 0, 64⟩

/-- A flow keeps its backend when that is no longer in the table. -/
theorem same_backend_removed : ∃ r,
    Run (step wholeFloats false) Always (start (twoBackends 2 5)) r ∧
    r.log = [⟨udpFlow 0, 20, 0⟩, ⟨udpFlow 1, 10, 3⟩, ⟨udpFlow 0, 20, 5⟩] ∧
    Affine 5 2 r.log ∧ ∃ total, r.sim.stats.total false = ok total ∧ total.toNat = 3 := by
  obtain ⟨r, hRun, hTest⟩ := exists_run_of_exec (step wholeFloats false) Always
    (start (twoBackends 2 5))
    [.process (packetOf (udpFlow 0)) 0, .setBackends [10] 9, .process (packetOf (udpFlow 1)) 3,
      .sweep (.stored _) 4, .process (packetOf (udpFlow 0)) 5]
    (fun r => decide (r.log = [⟨udpFlow 0, 20, 0⟩, ⟨udpFlow 1, 10, 3⟩, ⟨udpFlow 0, 20, 5⟩]) &&
      r.processed == 3) (by decide +kernel)
  simp only [Bool.and_eq_true, decide_eq_true_eq, beq_iff_eq] at hTest
  have hNew : XdpSimulator.new false 9 (openConfig 2 5) [10, 20] 3 = some (ok (twoBackends 2 5)) :=
    new_twoBackends (by decide) 5
  obtain ⟨hAffine, hTotal, -⟩ := same_backend hNew (by decide) hRun (by rw [hTest.2]; decide)
  exact ⟨r, hRun, hTest.1, hAffine, hTest.2 ▸ hTotal⟩

/-! ## Where it fails -/

theorem udpFlow_ne {i j} (hLess : i < j) (hj : j < 2 ^ 64) : udpFlow j ≠ udpFlow i := by
  intro hSame
  have hLow := congrArg (fun t => t.srcIp.toNat) hSame
  have hHigh := congrArg (fun t => t.dstIp.toNat) hSame
  simp only [udpFlow, UInt32.toNat_ofNat'] at hLow hHigh
  omega

theorem process_udp {s : XdpSimulator Nat} (pkt : Packet) (now : UInt64)
    (hBuckets : s.limiter.buckets = ∅) (hMax : s.limiter.maxEntries = 0)
    (hUdp : pkt.tuple.protocol = protoUdp) :
    ∃ overflowCount, s.process wholeFloats false pkt now =
      XdpSimulator.route false { s with limiter := { s.limiter with overflowCount } } pkt now := by
  refine ⟨s.limiter.overflowCount + 1, ?_⟩
  have hAllow : s.limiter.allow wholeFloats false pkt.tuple.srcIp now =
      ok ({ s.limiter with overflowCount := s.limiter.overflowCount + 1 }, true) := by
    have hNone : s.limiter.buckets.lookup pkt.tuple.srcIp = none := by
      rw [hBuckets]
      rfl
    rw [RateLimiter.allow, hNone]
    rw [hMax, if_pos (Nat.zero_le _), addU64_false, ok_bind, ← hMax]
  rw [XdpSimulator.process, hAllow, ok_bind]
  dsimp only
  rw [if_neg (by decide), if_neg (by rw [hUdp]; decide)]

theorem route_miss {c₁ c₂ backend} (hLookup : s.conntrack.lookup pkt.tuple now = ok (c₁, none))
    (hBackend : s.maglev.lookup (flowHash pkt.tuple) = ok backend)
    (hInsert : c₁.insert false pkt.tuple ⟨backend, now⟩ = ok c₂) :
    ∃ stats, s.route false pkt now = ok ({ s with conntrack := c₂, stats }, .forward backend) := by
  refine ⟨{ s.stats with
    connMisses := s.stats.connMisses + 1
    forwarded := s.stats.forwarded + 1 }, ?_⟩
  rw [XdpSimulator.route, hLookup, ok_bind]
  dsimp only
  rw [addU64_false, ok_bind, hBackend, ok_bind, hInsert, ok_bind, addU64_false, ok_bind]

theorem route_hit {entry} (hLookup : s.conntrack.lookup pkt.tuple now = ok (c, some entry)) :
    ∃ stats, s.route false pkt now =
      ok ({ s with conntrack := c, stats }, .forward entry.backendIp) := by
  refine ⟨{ s.stats with
    connHits := s.stats.connHits + 1
    forwarded := s.stats.forwarded + 1 }, ?_⟩
  rw [XdpSimulator.route, hLookup, ok_bind]
  dsimp only
  rw [addU64_false, ok_bind, addU64_false, ok_bind]

def slotBackend (flowKey : UInt64) : UInt32 := if flowKey % 3 = 0 then 20 else 10

theorem lookup_slots (flowKey : UInt64) :
    Maglev.lookup ⟨3, [1, 0, 0], [10, 20]⟩ flowKey = ok (slotBackend flowKey) := by
  have hLt : (flowKey % 3).toNat < 3 := by
    rw [UInt64.toNat_mod]
    exact Nat.mod_lt _ (by decide)
  have hSlot : Maglev.slot ⟨3, [1, 0, 0], [10, 20]⟩ flowKey = (flowKey % 3).toNat := rfl
  have hZero : flowKey % 3 = 0 ↔ (flowKey % 3).toNat = 0 := UInt64.toNat_inj.symm
  rw [Maglev.lookup, hSlot, slotBackend]
  simp only [hZero]
  generalize (flowKey % 3).toNat = slot at hLt
  interval_cases slot <;> rfl

structure IsOpen (r : SimRun Nat) : Prop where
  buckets : r.sim.limiter.buckets = ∅
  maxEntries : r.sim.limiter.maxEntries = 0
  maglev : r.sim.maglev = ⟨3, [1, 0, 0], [10, 20]⟩
  clock : r.clock = 0

theorem IsOpen.forward {r : SimRun Nat} (h : r.IsOpen) {t : FiveTuple} {backend : UInt32}
    (hUdp : t.protocol = protoUdp)
    (hRoute : ∀ s : XdpSimulator Nat, s.conntrack = r.sim.conntrack → s.maglev = r.sim.maglev →
      ∃ stats, s.route false (packetOf t) 0 =
        ok ({ s with conntrack := c, stats }, .forward backend)) :
    ∃ r', r.step wholeFloats false (.process (packetOf t) 0) = some r' ∧ r'.IsOpen ∧
      r'.sim.conntrack = c ∧ r'.processed = r.processed + 1 ∧
      r'.log = r.log ++ [⟨t, backend, 0⟩] := by
  obtain ⟨overflowCount, hProcess⟩ := process_udp (packetOf t) 0 h.buckets h.maxEntries hUdp
  obtain ⟨stats, hRouted⟩ :=
    hRoute { r.sim with limiter := { r.sim.limiter with overflowCount } } rfl rfl
  refine ⟨⟨{ r.sim with
    limiter := { r.sim.limiter with overflowCount }
    conntrack := c
    stats }, 0, r.processed + 1, r.log ++ [⟨t, backend, 0⟩]⟩, ?_,
    ⟨h.buckets, h.maxEntries, h.maglev, rfl⟩, rfl, rfl, rfl⟩
  rw [step, if_neg (by rw [h.clock]; decide), hProcess, hRouted]
  rfl

theorem exists_crowd (capacity : Nat) (hCapacity : capacity < 2 ^ 64) (n : Nat)
    (hn : n < capacity) :
    ∃ r, Run (step wholeFloats false) Always (start (twoBackends capacity 0)) r ∧ r.IsOpen ∧
      r.sim.conntrack.Entered udpFlow ⟨20, 0⟩ n ∧ r.sim.conntrack.capacity = capacity ∧
      r.sim.conntrack.timeoutNs = 0 ∧
      ∀ k, n = k + 1 → r.sim.conntrack.map.lookup (udpFlow k) = some (.ofNat k) ∧
        r.sim.conntrack.head = .ofNat k ∧
        ∃ before, r.log = before ++ [⟨udpFlow k, slotBackend (flowHash (udpFlow k)), 0⟩] := by
  induction n with
  | zero =>
    refine ⟨_, .start, ⟨rfl, rfl, rfl, rfl⟩, ⟨hn, rfl, rfl, rfl, fun _ _ _ => rfl, .inl rfl, nofun⟩,
      rfl, rfl, nofun⟩
  | succ n ih =>
    obtain ⟨r, hRun, hOpen, hEntered, hSame, hTimeout, -⟩ := ih (by omega)
    have hFirst : n = 0 → (⟨slotBackend (flowHash (udpFlow n)), 0⟩ : ConnEntry) = ⟨20, 0⟩ := by
      rintro rfl
      decide +kernel
    obtain ⟨c, hInsert, hEntered', hCapacity', hTimeout', hFound, hHead⟩ := hEntered.insert
      (hSame ▸ hn) (fun j hLess hj => udpFlow_ne hLess (by omega)) hFirst false
    obtain ⟨r', hStep, hOpen', rfl, -, hLog⟩ := hOpen.forward (t := udpFlow n) (c := c) rfl (by
      intro s hTrack hMaglev
      have hNone : s.conntrack.lookup (udpFlow n) 0 = ok (r.sim.conntrack, none) := by
        rw [hTrack, ConnTrack.lookup, hEntered.absent n le_rfl hEntered.room]
      have hSlot : s.maglev.lookup (flowHash (udpFlow n)) =
          ok (slotBackend (flowHash (udpFlow n))) := by
        rw [hMaglev, hOpen.maglev, lookup_slots]
      exact route_miss hNone hSlot hInsert)
    refine ⟨r', hRun.step trivial hStep, hOpen', hEntered', hCapacity'.trans hSame,
      hTimeout'.trans hTimeout, fun k hk => ?_⟩
    obtain rfl : n = k := Nat.succ.inj hk
    exact ⟨hFound, hHead, r.log, hLog⟩

theorem exists_diverted : ∃ r, Run (step wholeFloats false) Always
    (start (twoBackends (2 ^ 32 + 2) 0)) r ∧ ¬ Affine 0 (2 ^ 32 + 2) r.log := by
  obtain ⟨r, hRun, hOpen, hEntered, -, hTimeout, hLast⟩ :=
    exists_crowd (2 ^ 32 + 2) (by decide) (2 ^ 32 + 1) (by decide)
  obtain ⟨hFound, hHead, before, hLog⟩ := hLast (2 ^ 32) rfl
  have hZero : UInt32.ofNat (2 ^ 32) = 0 := rfl
  rw [hZero] at hFound hHead
  have hLt : (0 : UInt32).toNat < r.sim.conntrack.nodes.length := by
    rw [hEntered.length]
    decide
  have hValue := hEntered.first (Nat.succ_pos _)
  have hLookup : r.sim.conntrack.lookup (udpFlow (2 ^ 32)) 0 =
      ok ({ r.sim.conntrack with nodes := r.sim.conntrack.nodes.modify (0 : UInt32).toNat fun n =>
        { n with value := { n.value with lastSeenNs := 0 } } }, some ⟨20, 0⟩) := by
    rw [ConnTrack.lookup, hFound]
    dsimp only
    rw [ConnTrack.index_nodes hLt, ok_bind, hValue, if_neg (by rw [hTimeout]; decide),
      ConnTrack.updateNode_eq hLt, ok_bind, ConnTrack.moveToHead, if_pos hHead, ok_bind]
  obtain ⟨r', hStep, -, -, -, hLog'⟩ := hOpen.forward (t := udpFlow (2 ^ 32)) rfl
    fun s hTrack _ => route_hit ((congrArg (ConnTrack.lookup · _ _) hTrack).trans hLookup)
  refine ⟨r', hRun.step trivial hStep, fun hAffine => ?_⟩
  have hNone : ∀ y ∈ ([] : List Forwarded), y.tuple ≠ udpFlow (2 ^ 32) := by simp
  have hSame := hAffine r.log _ [] hLog' _ [] ⟨before, hLog, hNone⟩ rfl (by decide) (by decide)
  have hTen : slotBackend (flowHash (udpFlow (2 ^ 32))) = 10 := by decide +kernel
  rw [hTen] at hSame
  cases hSame

theorem exists_many (n : Nat) :
    ∃ r, Run (step wholeFloats false) Always (start (twoBackends 1 0)) r ∧ r.processed = n ∧
      r.IsOpen ∧ ∃ l, r.sim.conntrack.Shows l := by
  induction n with
  | zero =>
    obtain ⟨hKept, -⟩ := ConnTrack.kept_new (c := (twoBackends 1 0).conntrack) (by decide)
      (show ConnTrack.new 1 0 = _ from rfl)
    exact ⟨_, .start, rfl, ⟨rfl, rfl, rfl, rfl⟩, [], [], hKept, rfl⟩
  | succ n ih =>
    obtain ⟨r, hRun, rfl, hOpen, l, hShows⟩ := ih
    obtain ⟨c, hLookup, hShows', -⟩ := hShows.lookup (udpFlow 0) 0
    cases hFound : (ConnTrack.recentLookup r.sim.conntrack.timeoutNs l (udpFlow 0) 0).2 with
    | some =>
      rw [hFound] at hLookup
      obtain ⟨r', hStep, hOpen', rfl, hProcessed, -⟩ := hOpen.forward (t := udpFlow 0) rfl
        fun s hTrack _ => route_hit (by rw [hTrack]; exact hLookup)
      exact ⟨r', hRun.step trivial hStep, hProcessed, hOpen', _, hShows'⟩
    | none =>
      rw [hFound] at hLookup
      obtain ⟨c', hInsert, hShows'', -⟩ := hShows'.insert fun _ _ => .inr rfl
      obtain ⟨r', hStep, hOpen', rfl, hProcessed, -⟩ := hOpen.forward (t := udpFlow 0) rfl
        fun s hTrack hMaglev => route_miss (by rw [hTrack]; exact hLookup)
          (by rw [hMaglev, hOpen.maglev]; exact lookup_slots _) hInsert
      exact ⟨r', hRun.step trivial hStep, hProcessed, hOpen', _, hShows''⟩

def counted (s : SimStats) : UInt64 := s.passed + s.droppedRate + s.droppedSynflood + s.forwarded

theorem counted_verdict (h : XdpSimulator.Verdict checks s s' pkt now action) :
    counted s'.stats = counted s.stats + 1 := by
  cases h with
  | dropRate _ hStats | dropSynflood _ hStats | hit _ hStats | miss _ _ hStats =>
    simp only [hStats, counted]
    ac_rfl

theorem counted_eq (hZero : sim.stats = .zero) (hRun : Run (step fl checks) Always (start sim) r) :
    counted r.sim.stats = .ofNat r.processed := by
  induction hRun with
  | start =>
    rw [start, hZero]
    rfl
  | step _ _ hStep ih =>
    cases act_of_step hStep with
    | process _ hVerdict =>
      rw [counted_verdict hVerdict, ih, UInt64.ofNat_add]
      rfl
    | setBackends | applyLut | sweep => exact ih

/-- The node numbers of a large table wrap, and so do the counters after `2 ^ 64` packets. -/
theorem not_same_backend :
    (∃ sim r, XdpSimulator.new false 9 (openConfig (2 ^ 32 + 2) 0) [10, 20] 3 = some (ok sim) ∧
      Run (step wholeFloats false) Always (start sim) r ∧
      ¬ Affine (openConfig (2 ^ 32 + 2) 0).conntrackTimeoutNs
        (openConfig (2 ^ 32 + 2) 0).conntrackCapacity r.log) ∧
    ∃ sim r, XdpSimulator.new false 9 (openConfig 1 0) [10, 20] 3 = some (ok sim) ∧
      Run (step wholeFloats false) Always (start sim) r ∧ r.processed = 2 ^ 64 ∧
      r.sim.stats.total false = ok 0 := by
  refine ⟨?_, ?_⟩
  · obtain ⟨r, hRun, hNot⟩ := exists_diverted
    exact ⟨_, r, new_twoBackends (by decide) 0, hRun, hNot⟩
  · obtain ⟨r, hRun, hProcessed, -⟩ := exists_many (2 ^ 64)
    refine ⟨_, r, new_twoBackends (by decide) 0, hRun, hProcessed, ?_⟩
    have hTotal : counted r.sim.stats = 0 := by
      rw [counted_eq rfl hRun, hProcessed]
      rfl
    rw [SimStats.total, addU64_false, ok_bind, addU64_false, ok_bind, addU64_false]
    exact congrArg ok hTotal

end SimRun

end DirectWire.Xdp
