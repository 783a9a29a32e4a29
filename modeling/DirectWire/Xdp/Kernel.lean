import DirectWire.Lib.Bytes
import DirectWire.Lib.Map
import DirectWire.Lib.Run
import DirectWire.Xdp.Maglev

/-!
# XDP edge — the kernel data path

`xdp_edge_main` on the fields of a frame. The BPF maps are its state; `Env` has the clock, and
what the kernel does when an LRU map is written.
-/

namespace DirectWire.Xdp.Kernel

open Lib Outcome List

abbrev Mac := BitVec 48

def maxBackends : Nat := 256
def maglevLutSize : Nat := 65537
def ratelimitSize : UInt64 := 0x100000

def tokOne : UInt64 := 0x10000

def ethPIp : UInt16 := 0x0800

structure BackendInfo where
  ip : UInt32
  dmac : Mac
deriving DecidableEq, Repr

structure ConnValue where
  backendIdx : UInt32
  lastSeenNs : UInt64
deriving DecidableEq, Repr

structure TokenBucket where
  tokens : UInt64
  lastNs : UInt64
deriving DecidableEq, Repr

structure SynWindow where
  syn : UInt32
  ack : UInt32
  startNs : UInt64
deriving DecidableEq, Repr

structure EdgeConfig where
  ratePerNsFp : UInt64
  rateBurst : UInt64
  synWindowNs : UInt64
  synThreshold : UInt32
  synAckRatio : UInt32
  gatewayIp : UInt32
  gatewaySmac : Mac
deriving DecidableEq, Repr

inductive StatIdx where
  | forward | dropRate | dropSyn | connHit | connMiss | dropNomac | rlEvict
deriving DecidableEq, Repr

/-- The BPF maps. `occupancy` is the one entry of `rl_state`. -/
structure Maps where
  backends : List BackendInfo
  maglevLut : List UInt32
  conntrack : Map FiveTuple ConnValue
  ratelimit : Map UInt32 TokenBucket
  occupancy : UInt64
  synTrack : Map UInt32 SynWindow
  config : EdgeConfig
  stats : StatIdx → UInt64

/-- What the program reads of a frame. The fields of a header are there when the frame is
long enough. -/
structure Frame where
  len : Nat
  hProto : UInt16
  ihl : BitVec 4
  tos : UInt8
  totLen : UInt16
  protocol : UInt8
  saddr : UInt32
  daddr : UInt32
  srcPort : UInt16
  dstPort : UInt16
  syn : Bool
  ack : Bool
deriving DecidableEq, Repr

def Frame.flowKey (f : Frame) : FiveTuple :=
  ⟨f.saddr, f.daddr, f.srcPort, f.dstPort, f.protocol⟩

/-- The outer header: version 4, without options, do not fragment, TTL 64, IPIP. -/
structure OuterHeader where
  tos : UInt8
  totLen : UInt16
  saddr : UInt32
  daddr : UInt32
  check : UInt16
deriving DecidableEq, Repr

structure Encapsulated where
  hDest : Mac
  hSource : Mac
  outer : OuterHeader
deriving DecidableEq, Repr

inductive Verdict where
  | pass
  | drop
  | tx (frame : Encapsulated)
deriving DecidableEq, Repr

def Verdict.sentTo : Verdict → Option UInt32
  | tx frame => some frame.outer.daddr
  | _ => none

/-- What becomes of an update of an LRU map: it fails, or the map keeps some entries. -/
abbrev Update (K : Type) := Option (K → Bool)

structure Env where
  nowNs : UInt64
  /-- `bpf_xdp_adjust_head` finds room. -/
  headroom : Bool
  rateUpdate : Update UInt32
  synUpdate : Update UInt32
  connUpdate : Update FiveTuple

/-! ## The program -/

/-- `bpf_map_update_elem` on an LRU map. -/
def lruUpdate {K V : Type} [DecidableEq K] (m : Map K V) (k : K) (v : V) : Update K → Map K V
  | none => m
  | some kept => Map.retain (fun k _ => kept k) (m.insert k v)

/-- After an update for `k` the map has what it should for `k'`. -/
def keeps {K : Type} [DecidableEq K] (u : Update K) (k k' : K) : Bool :=
  match u with
  | none => k ≠ k'
  | some kept => kept k'

def flowHash (k : FiveTuple) : UInt32 :=
  let h := k.srcIp.toUInt64 <<< 32 ||| k.dstIp.toUInt64
  let h := h * 0x100000001b3
  let h := h ^^^ (k.srcPort.toUInt64 <<< 16 ||| k.dstPort.toUInt64)
  let h := h ^^^ (k.protocol.toUInt64 <<< 48)
  let h := h ^^^ (h >>> 30)
  let h := h * 0xbf58476d1ce4e5b9
  let h := h ^^^ (h >>> 27)
  let h := h * 0x94d049bb133111eb
  let h := h ^^^ (h >>> 31)
  h.toUInt32

/-- The slot of a flow in `maglev_lut`. -/
def slot (k : FiveTuple) : UInt32 := flowHash k % 65537

def rateAllow (tb : TokenBucket) (nowNs ratePerNsFp burst : UInt64) : TokenBucket × Bool :=
  let elapsed := nowNs - tb.lastNs
  -- positive as a signed number
  let tb := if 0 < elapsed ∧ elapsed < 0x8000000000000000 then
      let tokens := tb.tokens + (elapsed * ratePerNsFp) >>> 16
      ⟨if burst < tokens then burst else tokens, nowNs⟩
    else tb
  if tokOne ≤ tb.tokens then ({ tb with tokens := tb.tokens - tokOne }, true) else (tb, false)

def synIsFlood (w : SynWindow) (nowNs : UInt64) (isSyn isAck : Bool) (cfg : EdgeConfig) :
    SynWindow × Bool :=
  let w := if cfg.synWindowNs ≤ nowNs - w.startNs then ⟨0, 0, nowNs⟩ else w
  let w := if isSyn then { w with syn := w.syn + 1 }
    else if isAck then { w with ack := w.ack + 1 } else w
  (w, cfg.synThreshold ≤ w.syn && w.ack * cfg.synAckRatio < w.syn)

def ipChecksum (header : Bytes) : UInt16 :=
  let word (i : Nat) := (header.getD (2 * i) 0).toNat * 256 + (header.getD (2 * i + 1) 0).toNat
  let sum := ((range 10).map word).sum
  let sum := sum % 0x10000 + sum / 0x10000
  let sum := sum % 0x10000 + sum / 0x10000
  ~~~ (UInt16.ofNat sum)

def OuterHeader.bytes (o : OuterHeader) : Bytes :=
  [0x45, o.tos] ++ beBytes 2 o.totLen.toNat ++ [0, 0] ++ [0x40, 0] ++ [64, 4] ++
    leBytes 2 o.check.toNat ++ leBytes 4 o.saddr.toNat ++ leBytes 4 o.daddr.toNat

namespace Maps

def bumpStat (m : Maps) (idx : StatIdx) : Maps :=
  { m with stats := Function.update m.stats idx (m.stats idx + 1) }

def rateSource (env : Env) (saddr : UInt32) (m : Maps) : Maps :=
  match m.ratelimit.lookup saddr, env.rateUpdate with
  | none, some kept =>
    let init := ⟨m.config.rateBurst, env.nowNs⟩
    let m := { m with
      ratelimit := lruUpdate m.ratelimit saddr init (some kept)
      occupancy := m.occupancy + 1 }
    if ratelimitSize < m.occupancy then m.bumpStat .rlEvict else m
  | _, _ => m

def rateLimit (env : Env) (saddr : UInt32) (m : Maps) : Maps × Bool :=
  let m := m.rateSource env saddr
  match m.ratelimit.lookup saddr with
  | none => (m, true)
  | some tb =>
    let (tb, allowed) := rateAllow tb env.nowNs m.config.ratePerNsFp m.config.rateBurst
    let m := { m with ratelimit := m.ratelimit.insert saddr tb }
    if allowed then (m, true) else (m.bumpStat .dropRate, false)

def synSource (env : Env) (saddr : UInt32) (m : Maps) : Maps :=
  match m.synTrack.lookup saddr with
  | some _ => m
  | none => { m with synTrack := lruUpdate m.synTrack saddr ⟨0, 0, env.nowNs⟩ env.synUpdate }

def synCheck (env : Env) (frame : Frame) (m : Maps) : Maps × Bool :=
  let m := m.synSource env frame.saddr
  match m.synTrack.lookup frame.saddr with
  | none => (m, false)
  | some w =>
    let (w, flood) := synIsFlood w env.nowNs (frame.syn && !frame.ack) frame.ack m.config
    let m := { m with synTrack := m.synTrack.insert frame.saddr w }
    if flood then (m.bumpStat .dropSyn, true) else (m, false)

def chooseBackend (env : Env) (fk : FiveTuple) (m : Maps) : Maps × Option BackendInfo :=
  match m.conntrack.lookup fk with
  | some cv =>
    let m := m.bumpStat .connHit
    ({ m with conntrack := m.conntrack.insert fk { cv with lastSeenNs := env.nowNs } },
      m.backends[cv.backendIdx.toNat]?)
  | none =>
    let m := m.bumpStat .connMiss
    match m.maglevLut[(slot fk).toNat]? with
    | none => (m, none)
    | some bidx =>
      match m.backends[bidx.toNat]? with
      | none => (m, none)
      | some be =>
        ({ m with conntrack := lruUpdate m.conntrack fk ⟨bidx, env.nowNs⟩ env.connUpdate }, some be)

def ipipEncapTx (env : Env) (frame : Frame) (be : BackendInfo) (m : Maps) : Maps × Verdict :=
  if !env.headroom then (m, .drop)
  else if frame.len + 20 < 14 + 20 + 20 then (m, .drop)
  else if be.dmac = 0 then (m.bumpStat .dropNomac, .drop)
  else
    let outer : OuterHeader := ⟨frame.tos, frame.totLen + 20, m.config.gatewayIp, be.ip, 0⟩
    (m, .tx ⟨be.dmac, m.config.gatewaySmac, { outer with check := ipChecksum outer.bytes }⟩)

def forward (env : Env) (frame : Frame) (m : Maps) : Maps × Verdict :=
  match m.chooseBackend env frame.flowKey with
  | (m, none) => (m, .pass)
  | (m, some be) => (m.bumpStat .forward).ipipEncapTx env frame be

def xdpEdgeMain (env : Env) (frame : Frame) (m : Maps) : Maps × Verdict :=
  if frame.len < 14 then (m, .pass)
  else if frame.hProto ≠ ethPIp then (m, .pass)
  else if frame.len < 14 + 20 then (m, .drop)
  else if frame.protocol ≠ protoTcp ∧ frame.protocol ≠ protoUdp then (m, .pass)
  else
    match m.rateLimit env frame.saddr with
    | (m, false) => (m, .drop)
    | (m, true) =>
      if frame.protocol = protoTcp then
        if frame.len < 14 + frame.ihl.toNat * 4 + 20 then (m, .drop)
        else match m.synCheck env frame with
          | (m, true) => (m, .drop)
          | (m, false) => m.forward env frame
      else if frame.len < 14 + frame.ihl.toNat * 4 + 8 then (m, .drop)
      else m.forward env frame

def publish (alive : List BackendInfo) (table : List UInt32) (m : Maps) : Maps :=
  { m with
    backends := m.backends.mapIdx fun i old => alive.getD i old
    maglevLut := m.maglevLut.mapIdx fun i old => table.getD i old }

def boot (config : EdgeConfig) : Maps :=
  ⟨replicate maxBackends ⟨0, 0⟩, replicate maglevLutSize 0, ∅, ∅, 0, ∅, config,
    fun _ => 0⟩

end Maps

/-! ## The two hashes -/

theorem flowHash_eq (t : FiveTuple) : flowHash t = (Xdp.flowHash t).toUInt32 := rfl

theorem toUInt32_mod_eq_iff (h : UInt64) :
    (h.toUInt32 % 65537).toNat = (h % 65537).toNat ↔ 65537 ∣ h.toNat / 2 ^ 32 := by
  have hLow : (65537 : UInt32).toNat = 65537 := rfl
  have hWide : (65537 : UInt64).toNat = 65537 := rfl
  rw [UInt32.toNat_mod, UInt64.toNat_mod, UInt64.toNat_toUInt32, hLow, hWide]
  omega

/-- **The slot of the kernel.** It is taken from the lower half of the hash, that of the simulator
from all of it. In a table of the size the kernel has (`hm`), a flow has the same slot in both
exactly if 65537 divides the upper half. -/
theorem slot_eq_iff (t : FiveTuple) (g : Maglev) (hm : g.m = maglevLutSize) :
    (slot t).toNat = g.slot (Xdp.flowHash t) ↔ 65537 ∣ (Xdp.flowHash t).toNat / 2 ^ 32 := by
  have hSize : UInt64.ofNat maglevLutSize = 65537 := rfl
  rw [slot, flowHash_eq, Maglev.slot, hm, hSize]
  exact toUInt32_mod_eq_iff _

theorem slot_eq_iff_sixth :
    (slot ⟨6, 2, 3, 47126, 17⟩).toNat =
      (⟨65537, [], []⟩ : Maglev).slot (Xdp.flowHash ⟨6, 2, 3, 47126, 17⟩) :=
  (slot_eq_iff ⟨6, 2, 3, 47126, 17⟩ ⟨65537, [], []⟩ rfl).mpr (by decide +kernel)

/-- Slots 55373 and 46841. -/
theorem not_slot_eq : ¬ ∀ (t : FiveTuple) (g : Maglev), g.m = maglevLutSize →
    (slot t).toNat = g.slot (Xdp.flowHash t) := by
  intro h
  have hSame := h ⟨1, 2, 3, 4, 17⟩ ⟨65537, [], []⟩ rfl
  revert hSame
  decide +kernel

/-! ## What a packet does to the maps that choose the backend -/

theorem lookup_lruUpdate {K V : Type} [DecidableEq K] {m : Map K V} {k k' : K} {v : V}
    {u : Update K} (h : keeps u k k' = true) :
    (lruUpdate m k v u).lookup k' = if k' = k then some v else m.lookup k' := by
  cases u with
  | none => rw [lruUpdate, if_neg (Ne.symm (of_decide_eq_true h))]
  | some kept =>
    have hKept : kept k' = true := h
    rw [lruUpdate, Map.lookup_retain, Map.lookup_insert_ite, hKept]
    generalize (if k' = k then some v else m.lookup k') = entry
    cases entry <;> rfl

namespace Maps

variable {env : Env} {frame : Frame} {m m' : Maps}

variable {alive : List BackendInfo}

theorem getElem?_backends_publish {table i} :
    (m.publish alive table).backends[i]? = (m.backends[i]?).map (alive.getD i) :=
  getElem?_mapIdx

structure SameRouting (m m' : Maps) : Prop where
  backends : m'.backends = m.backends
  maglevLut : m'.maglevLut = m.maglevLut
  conntrack : m'.conntrack = m.conntrack

theorem SameRouting.refl (m : Maps) : SameRouting m m := ⟨rfl, rfl, rfl⟩

theorem SameRouting.trans {m''} (h : SameRouting m m') (h' : SameRouting m' m'') :
    SameRouting m m'' :=
  ⟨h'.backends.trans h.backends, h'.maglevLut.trans h.maglevLut, h'.conntrack.trans h.conntrack⟩

theorem sameRouting_bumpStat (m : Maps) (idx : StatIdx) : SameRouting m (m.bumpStat idx) :=
  ⟨rfl, rfl, rfl⟩

theorem sameRouting_rateSource (env : Env) (saddr : UInt32) (m : Maps) :
    SameRouting m (m.rateSource env saddr) := by
  unfold rateSource
  split
  · dsimp only
    split
    · exact ⟨rfl, rfl, rfl⟩
    · exact ⟨rfl, rfl, rfl⟩
  · exact .refl m

theorem sameRouting_rateLimit (env : Env) (saddr : UInt32) (m : Maps) :
    SameRouting m (m.rateLimit env saddr).1 := by
  refine (sameRouting_rateSource env saddr m).trans ?_
  unfold rateLimit
  dsimp only
  split
  · exact .refl _
  · split
    · exact ⟨rfl, rfl, rfl⟩
    · exact ⟨rfl, rfl, rfl⟩

theorem sameRouting_synSource (env : Env) (saddr : UInt32) (m : Maps) :
    SameRouting m (m.synSource env saddr) := by
  unfold synSource
  split
  · exact .refl m
  · exact ⟨rfl, rfl, rfl⟩

theorem sameRouting_synCheck (env : Env) (frame : Frame) (m : Maps) :
    SameRouting m (m.synCheck env frame).1 := by
  refine (sameRouting_synSource env frame.saddr m).trans ?_
  unfold synCheck
  dsimp only
  split
  · exact .refl _
  · split
    · exact ⟨rfl, rfl, rfl⟩
    · exact ⟨rfl, rfl, rfl⟩

/-- What a packet can do to the maps that choose the backend. -/
theorem xdpEdgeMain_cases (env : Env) (frame : Frame) (m : Maps) :
    ∃ m₁, SameRouting m m₁ ∧ (m.xdpEdgeMain env frame = (m₁, .pass) ∨
      m.xdpEdgeMain env frame = (m₁, .drop) ∨
      m.xdpEdgeMain env frame = m₁.forward env frame) := by
  have hRate := sameRouting_rateLimit env frame.saddr m
  unfold xdpEdgeMain
  split
  · exact ⟨m, .refl m, .inl rfl⟩
  split
  · exact ⟨m, .refl m, .inl rfl⟩
  split
  · exact ⟨m, .refl m, .inr (.inl rfl)⟩
  split
  · exact ⟨m, .refl m, .inl rfl⟩
  split
  · rename_i m₁ hLimit
    rw [hLimit] at hRate
    exact ⟨m₁, hRate, .inr (.inl rfl)⟩
  · rename_i m₁ hLimit
    rw [hLimit] at hRate
    have hSyn := sameRouting_synCheck env frame m₁
    split
    · split
      · exact ⟨m₁, hRate, .inr (.inl rfl)⟩
      split
      · rename_i m₂ hCheck
        rw [hCheck] at hSyn
        exact ⟨m₂, hRate.trans hSyn, .inr (.inl rfl)⟩
      · rename_i m₂ hCheck
        rw [hCheck] at hSyn
        exact ⟨m₂, hRate.trans hSyn, .inr (.inr rfl)⟩
    · split
      · exact ⟨m₁, hRate, .inr (.inl rfl)⟩
      · exact ⟨m₁, hRate, .inr (.inr rfl)⟩

/-- What a packet of a flow does: the maps afterwards, and the address it is sent to. -/
inductive Routed (env : Env) (fk : FiveTuple) (m : Maps) : Maps → Option UInt32 → Prop where
  | unsent {m' : Maps} (hSame : SameRouting m m') : Routed env fk m m' none
  | known {m' sent cv} (hEntry : m.conntrack.lookup fk = some cv)
      (hBackends : m'.backends = m.backends)
      (hTrack : m'.conntrack = m.conntrack.insert fk { cv with lastSeenNs := env.nowNs })
      (hSent : ∀ ip, sent = some ip →
        ∃ be, m.backends[cv.backendIdx.toNat]? = some be ∧ be.ip = ip) : Routed env fk m m' sent
  | new {m' sent bidx be} (hMiss : m.conntrack.lookup fk = none)
      (hBackends : m'.backends = m.backends) (hBackend : m.backends[bidx.toNat]? = some be)
      (hTrack : m'.conntrack = lruUpdate m.conntrack fk ⟨bidx, env.nowNs⟩ env.connUpdate)
      (hSent : ∀ ip, sent = some ip → be.ip = ip) : Routed env fk m m' sent

theorem ipipEncapTx_spec (env : Env) (frame : Frame) (be : BackendInfo) (m : Maps) :
    SameRouting m (m.ipipEncapTx env frame be).1 ∧
      ∀ ip, (m.ipipEncapTx env frame be).2.sentTo = some ip → be.ip = ip := by
  unfold ipipEncapTx
  split
  · exact ⟨.refl m, nofun⟩
  split
  · exact ⟨.refl m, nofun⟩
  split
  · exact ⟨sameRouting_bumpStat m _, nofun⟩
  · exact ⟨.refl m, fun ip hip => Option.some_inj.mp hip⟩

theorem routed_forward (env : Env) (frame : Frame) (m : Maps) :
    Routed env frame.flowKey m (m.forward env frame).1 (m.forward env frame).2.sentTo := by
  unfold forward chooseBackend
  cases hEntry : m.conntrack.lookup frame.flowKey with
  | some cv =>
    dsimp only
    cases hBackend : (m.bumpStat .connHit).backends[cv.backendIdx.toNat]? with
    | none => exact .known hEntry rfl rfl nofun
    | some be =>
      obtain ⟨hSame, hSent⟩ := ipipEncapTx_spec env frame be _
      exact .known hEntry hSame.backends hSame.conntrack fun ip hip => ⟨be, hBackend, hSent ip hip⟩
  | none =>
    dsimp only
    cases hSlot : (m.bumpStat .connMiss).maglevLut[(slot frame.flowKey).toNat]? with
    | none => exact .unsent (sameRouting_bumpStat m _)
    | some bidx =>
      dsimp only
      cases hBackend : (m.bumpStat .connMiss).backends[bidx.toNat]? with
      | none => exact .unsent (sameRouting_bumpStat m _)
      | some be =>
        obtain ⟨hSame, hSent⟩ := ipipEncapTx_spec env frame be _
        exact .new hEntry hSame.backends hBackend hSame.conntrack hSent

theorem Routed.of_sameRouting {fk : FiveTuple} {sent : Option UInt32} {m₁ : Maps}
    (hSame : SameRouting m m₁) (h : Routed env fk m₁ m' sent) : Routed env fk m m' sent := by
  obtain ⟨hBackends, hLut, hTrack⟩ := hSame
  cases h with
  | unsent hSame' => exact .unsent (SameRouting.trans ⟨hBackends, hLut, hTrack⟩ hSame')
  | known hEntry hb hc hSent =>
    rw [hBackends] at hb hSent
    rw [hTrack] at hEntry hc
    exact .known hEntry hb hc hSent
  | new hMiss hb hBackend hc hSent =>
    rw [hBackends] at hb hBackend
    rw [hTrack] at hMiss hc
    exact .new hMiss hb hBackend hc hSent

theorem routed_xdpEdgeMain (env : Env) (frame : Frame) (m : Maps) :
    Routed env frame.flowKey m (m.xdpEdgeMain env frame).1 (m.xdpEdgeMain env frame).2.sentTo := by
  obtain ⟨m₁, hSame, hMain | hMain | hMain⟩ := xdpEdgeMain_cases env frame m
  · rw [hMain]
    exact .unsent hSame
  · rw [hMain]
    exact .unsent hSame
  · rw [hMain]
    exact .of_sameRouting hSame (routed_forward env frame m₁)

end Maps

/-! ## The edge: publishes and packets -/

inductive Entry where
  | published (ips : List UInt32)
  | sent (flow : FiveTuple) (ip : UInt32)
deriving DecidableEq, Repr

structure Edge where
  maps : Maps
  log : List Entry

inductive EdgeEvent where
  /-- The control plane publishes the backends that are alive. -/
  | publish (alive : List BackendInfo)
  | packet (env : Env) (frame : Frame)

namespace Edge

def boot (config : EdgeConfig) : Edge := ⟨.boot config, []⟩

/-- `publish` writes what `build_lut` returns; its looks are enough by `buildLut_spec`. -/
def step (checks : Bool) (s : Edge) : EdgeEvent → Option Edge
  | .publish alive =>
    let ips := alive.map (·.ip)
    match buildLut checks maglevLutSize ips (ips.length * maglevLutSize + 1) with
    | some (.ok table) => some ⟨s.maps.publish alive table, s.log ++ [.published ips]⟩
    | _ => none
  | .packet env frame =>
    let (maps, verdict) := s.maps.xdpEdgeMain env frame
    some ⟨maps, s.log ++ (verdict.sentTo.map (.sent frame.flowKey)).toList⟩

def retains (flow : FiveTuple) : EdgeEvent → Bool
  | .publish _ => true
  | .packet env frame => keeps env.connUpdate frame.flowKey flow

/-- A list that is published has the same address as before at the index in the flow's entry, if
it is long enough to have one there, or does not have that address any more. -/
def staysPut (flow : FiveTuple) (s : Edge) : EdgeEvent → Bool
  | .publish alive =>
    (s.maps.conntrack.lookup flow).all fun cv =>
      (alive[cv.backendIdx.toNat]?).all fun be =>
        (s.maps.backends[cv.backendIdx.toNat]?).all fun old =>
          be.ip = old.ip || old.ip ∉ alive.map (·.ip)
  | .packet _ _ => true

/-- Once the flow has been forwarded to an address that is in every list published since,
its packets go there. -/
def Affine (flow : FiveTuple) (log : List Entry) : Prop :=
  ∀ before after ip, log = before ++ .sent flow ip :: after →
    (∀ ips, .published ips ∈ after → ip ∈ ips) → ∀ ip', .sent flow ip' ∈ after → ip' = ip

def Leads (flow : FiveTuple) (ip : UInt32) (m : Maps) : Prop :=
  ∃ cv be, m.conntrack.lookup flow = some cv ∧ m.backends[cv.backendIdx.toNat]? = some be ∧
    be.ip = ip

/-- The flow was forwarded to an address that has been listed ever since. -/
def Listed (flow : FiveTuple) (ip : UInt32) (log : List Entry) : Prop :=
  ∃ before after, log = before ++ .sent flow ip :: after ∧ ∀ ips, .published ips ∈ after → ip ∈ ips

structure Steady (flow : FiveTuple) (s : Edge) : Prop where
  affine : Affine flow s.log
  leads : ∀ ip, Listed flow ip s.log → Leads flow ip s.maps

variable {checks : Bool} {flow : FiveTuple} {s s' : Edge} {m m' : Maps} {ip : UInt32}

theorem Leads.unique {ip'} (h : Leads flow ip m) (h' : Leads flow ip' m) : ip' = ip := by
  obtain ⟨cv, be, hEntry, hBackend, rfl⟩ := h
  obtain ⟨cv', be', hEntry', hBackend', rfl⟩ := h'
  rw [hEntry] at hEntry'
  cases hEntry'
  rw [hBackend] at hBackend'
  cases hBackend'
  rfl

variable {alive : List BackendInfo} {env : Env}

theorem Leads.publish {table} (h : Leads flow ip s.maps)
    (hStays : s.staysPut flow (.publish alive) = true) (hIn : ip ∈ alive.map (·.ip)) :
    Leads flow ip (s.maps.publish alive table) := by
  obtain ⟨cv, be, hEntry, hBackend, rfl⟩ := h
  refine ⟨cv, alive.getD cv.backendIdx.toNat be, hEntry, ?_, ?_⟩
  · rw [Maps.getElem?_backends_publish, hBackend, Option.map_some]
  · rw [getD_eq_getElem?_getD]
    cases hNew : alive[cv.backendIdx.toNat]? with
    | none => rfl
    | some =>
      simp only [staysPut, hEntry, hBackend, hNew, Option.all_some, Bool.or_eq_true,
        decide_eq_true_eq] at hStays
      exact hStays.resolve_right fun hGone => hGone hIn

theorem Leads.keep {cv cv'} (h : Leads flow ip m) (hEntry : m.conntrack.lookup flow = some cv)
    (hBackends : m'.backends = m.backends) (hEntry' : m'.conntrack.lookup flow = some cv')
    (hIdx : cv'.backendIdx = cv.backendIdx) : Leads flow ip m' := by
  obtain ⟨_, be, hOld, hBackend, rfl⟩ := h
  rw [hEntry] at hOld
  cases hOld
  exact ⟨cv', be, hEntry', by rw [hBackends, hIdx, hBackend], rfl⟩

theorem Leads.routed {fk sent} (h : Leads flow ip m) (hRouted : m.Routed env fk m' sent)
    (hKept : keeps env.connUpdate fk flow = true) : Leads flow ip m' := by
  have ⟨cv, be, hEntry, hBackend, hIp⟩ := h
  cases hRouted with
  | unsent hSame => exact h.keep hEntry hSame.backends (by rw [hSame.conntrack, hEntry]) rfl
  | known hOwn hBackends hTrack _ =>
    by_cases hFlow : flow = fk
    · subst hFlow
      rw [hEntry] at hOwn
      cases hOwn
      have hNow := Map.lookup_insert_ite m.conntrack flow flow ⟨cv.backendIdx, env.nowNs⟩
      rw [if_pos rfl, ← hTrack] at hNow
      exact h.keep hEntry hBackends hNow rfl
    · refine h.keep hEntry hBackends ?_ rfl
      rw [hTrack, Map.lookup_insert_ite, if_neg hFlow, hEntry]
  | new hMiss hBackends _ hTrack _ =>
    by_cases hFlow : flow = fk
    · rw [hFlow, hMiss] at hEntry
      cases hEntry
    · refine h.keep hEntry hBackends ?_ rfl
      rw [hTrack, lookup_lruUpdate hKept, if_neg hFlow, hEntry]

theorem leads_of_sent (hRouted : m.Routed env flow m' (some ip))
    (hKept : keeps env.connUpdate flow flow = true) : Leads flow ip m' := by
  cases hRouted with
  | known hEntry hBackends hTrack hSent =>
    obtain ⟨be, hBackend, hIp⟩ := hSent ip rfl
    refine ⟨⟨_, env.nowNs⟩, be, ?_, by rw [hBackends, hBackend], hIp⟩
    rw [hTrack, Map.lookup_insert_ite, if_pos rfl]
  | new hMiss hBackends hBackend hTrack hSent =>
    refine ⟨⟨_, env.nowNs⟩, _, ?_, by rw [hBackends]; exact hBackend, hSent ip rfl⟩
    rw [hTrack, lookup_lruUpdate hKept, if_pos rfl]

theorem step_publish (h : s.step checks (.publish alive) = some s') :
    ∃ table, s' = ⟨s.maps.publish alive table, s.log ++ [.published (alive.map (·.ip))]⟩ := by
  unfold step at h
  dsimp only at h
  split at h
  · rename_i table _
    cases h
    exact ⟨table, rfl⟩
  · cases h

theorem step_packet {frame} : s.step checks (.packet env frame) =
    some ⟨(s.maps.xdpEdgeMain env frame).1, s.log ++
      ((s.maps.xdpEdgeMain env frame).2.sentTo.map (.sent frame.flowKey)).toList⟩ := rfl

theorem concat_split {log before after : List Entry} {x y : Entry}
    (h : log ++ [x] = before ++ y :: after) :
    y = x ∧ after = [] ∨ ∃ after', after = after' ++ [x] ∧ log = before ++ y :: after' := by
  rcases eq_nil_or_concat' after with rfl | ⟨after', z, rfl⟩
  · cases append_inj_right' h rfl
    exact .inl ⟨rfl, rfl⟩
  · rw [← cons_append, ← append_assoc] at h
    obtain ⟨rfl, hEnd⟩ := append_inj' h rfl
    cases hEnd
    exact .inr ⟨after', rfl, rfl⟩

theorem Listed.of_concat {log x} (h : Listed flow ip (log ++ [x])) :
    x = .sent flow ip ∨ Listed flow ip log ∧ ∀ ips, x = .published ips → ip ∈ ips := by
  obtain ⟨before, after, hLog, hListed⟩ := h
  rcases concat_split hLog with ⟨rfl, -⟩ | ⟨after', rfl, rfl⟩
  · exact .inl rfl
  · refine .inr ⟨⟨before, after', rfl, fun ips hMem => hListed ips (mem_append_left _ hMem)⟩, ?_⟩
    rintro ips rfl
    exact hListed ips (mem_append_right _ (mem_singleton.mpr rfl))

theorem Affine.concat {log x} (h : Affine flow log)
    (hNext : ∀ ip ip', x = .sent flow ip' → Listed flow ip log → ip' = ip) :
    Affine flow (log ++ [x]) := by
  intro before after ip hLog hListed ip' hLater
  rcases concat_split hLog with ⟨-, rfl⟩ | ⟨after', rfl, rfl⟩
  · cases hLater
  · have hBefore : ∀ ips, .published ips ∈ after' → ip ∈ ips := fun ips hMem =>
      hListed ips (mem_append_left _ hMem)
    rcases mem_append.mp hLater with hOld | hNew
    · exact h before after' ip rfl hBefore ip' hOld
    · exact hNext ip ip' (mem_singleton.mp hNew).symm ⟨before, after', rfl, hBefore⟩

theorem Steady.step {e} (h : s.Steady flow) (hKept : retains flow e = true)
    (hStays : s.staysPut flow e = true) (hStep : s.step checks e = some s') : s'.Steady flow := by
  cases e with
  | publish =>
    obtain ⟨table, rfl⟩ := step_publish hStep
    refine ⟨h.affine.concat nofun, fun ip hListed => ?_⟩
    obtain ⟨hOld, hIn⟩ := hListed.of_concat.resolve_left nofun
    exact (h.leads ip hOld).publish hStays (hIn _ rfl)
  | packet env frame =>
    rw [step_packet] at hStep
    cases hStep
    have hRouted := Maps.routed_xdpEdgeMain env frame s.maps
    have hLeads : ∀ ip, Listed flow ip s.log → Leads flow ip (s.maps.xdpEdgeMain env frame).1 :=
      fun ip hListed => (h.leads ip hListed).routed hRouted hKept
    cases hSent : (s.maps.xdpEdgeMain env frame).2.sentTo with
    | none =>
      rw [Option.map_none, Option.toList_none, append_nil]
      exact ⟨h.affine, hLeads⟩
    | some target =>
      rw [hSent] at hRouted
      -- where the packet goes, the flow is led from now on
      have hNew : frame.flowKey = flow → Leads flow target (s.maps.xdpEdgeMain env frame).1 := by
        rintro rfl
        exact leads_of_sent hRouted hKept
      refine ⟨h.affine.concat fun ip ip' hEq hListed => ?_, fun ip hListed => ?_⟩
      · cases hEq
        exact (hLeads ip hListed).unique (hNew rfl)
      · rcases hListed.of_concat with hEq | ⟨hOld, -⟩
        · cases hEq
          exact hNew rfl
        · exact hLeads ip hOld

/-- **Affinity of flows.** In a run from the boot of the program, whatever is published and whatever
packets come, let the conntrack map keep the flow's entry (`retains`) and let no publish put another
address in the place of one that it still lists (`staysPut`). Then the flow, once it was forwarded
to an address that is in every list published since, goes to no other. -/
theorem affine (config : EdgeConfig)
    (hRun : Run (step checks) (fun s e => retains flow e = true ∧ s.staysPut flow e = true)
      (boot config) s) : Affine flow s.log := by
  have hBoot : (boot config).Steady flow := by
    refine ⟨fun before after ip hLog => ?_, ?_⟩
    · cases append_eq_nil_iff.mp hLog.symm |>.2
    · rintro ip ⟨before, after, hLog, -⟩
      cases append_eq_nil_iff.mp hLog.symm |>.2
  exact (hRun.invariant hBoot fun _ _ _ h hOk hStep => h.step hOk.1 hOk.2 hStep).affine

end Edge

/-! ## A packet that goes through -/

namespace Maps

variable {env : Env} {frame : Frame} {m m₁ : Maps}

theorem rateSource_spec {saddr : UInt32} (hKept : keeps env.rateUpdate saddr saddr = true) :
    (m.rateSource env saddr).ratelimit.lookup saddr =
        some ((m.ratelimit.lookup saddr).getD ⟨m.config.rateBurst, env.nowNs⟩) ∧
      (m.rateSource env saddr).config = m.config := by
  have hUpdate := lookup_lruUpdate (m := m.ratelimit)
    (v := (⟨m.config.rateBurst, env.nowNs⟩ : TokenBucket)) hKept
  rw [if_pos rfl] at hUpdate
  unfold rateSource
  split
  · rename_i kept hNew hSome
    rw [hSome] at hUpdate
    dsimp only
    rw [hNew]
    split
    · exact ⟨hUpdate, rfl⟩
    · exact ⟨hUpdate, rfl⟩
  · rename_i hKnown
    cases hTb : m.ratelimit.lookup saddr with
    | some => exact ⟨rfl, rfl⟩
    | none =>
      cases hu : env.rateUpdate with
      | none => simp [hu, keeps] at hKept
      | some kept => exact absurd hu (hKnown kept hTb)

theorem rateLimit_spec {saddr tb tb'} (hKept : keeps env.rateUpdate saddr saddr = true)
    (hTb : (m.ratelimit.lookup saddr).getD ⟨m.config.rateBurst, env.nowNs⟩ = tb)
    (hAllow : rateAllow tb env.nowNs m.config.ratePerNsFp m.config.rateBurst = (tb', true)) :
    ∃ m₁, m.rateLimit env saddr = (m₁, true) ∧ SameRouting m m₁ ∧
      m₁.ratelimit.lookup saddr = some tb' ∧ m₁.config = m.config := by
  have hSame := sameRouting_rateLimit env saddr m
  obtain ⟨hSource, hConfig⟩ := rateSource_spec (m := m) hKept
  unfold rateLimit at hSame ⊢
  dsimp only at hSame ⊢
  rw [hSource, hTb, hConfig] at hSame ⊢
  dsimp only at hSame ⊢
  rw [hAllow] at hSame ⊢
  exact ⟨_, rfl, hSame, (Map.lookup_insert_ite ..).trans (if_pos rfl), rfl⟩

theorem xdpEdgeMain_udp (hProto : frame.hProto = ethPIp) (hUdp : frame.protocol = protoUdp)
    (hHeader : 5 ≤ frame.ihl.toNat) (hLen : 14 + frame.ihl.toNat * 4 + 8 ≤ frame.len)
    (hRate : m.rateLimit env frame.saddr = (m₁, true)) :
    m.xdpEdgeMain env frame = m₁.forward env frame := by
  unfold xdpEdgeMain
  rw [if_neg (by omega), if_neg (by simp [hProto]), if_neg (by omega), if_neg (by simp [hUdp]),
    hRate]
  dsimp only
  rw [if_neg (by rw [hUdp]; decide), if_neg (by omega)]

variable {be : BackendInfo}

theorem ipipEncapTx_sent (hRoom : env.headroom = true) (hLen : 14 + 20 ≤ frame.len)
    (hMac : be.dmac ≠ 0) :
    (m.ipipEncapTx env frame be).1 = m ∧ (m.ipipEncapTx env frame be).2.sentTo = some be.ip := by
  unfold ipipEncapTx
  rw [hRoom, Bool.not_true, if_neg Bool.false_ne_true, if_neg (by omega), if_neg hMac]
  exact ⟨rfl, rfl⟩

theorem forward_known {cv} (hEntry : m.conntrack.lookup frame.flowKey = some cv)
    (hBackend : m.backends[cv.backendIdx.toNat]? = some be) (hRoom : env.headroom = true)
    (hLen : 14 + 20 ≤ frame.len) (hMac : be.dmac ≠ 0) :
    (m.forward env frame).2.sentTo = some be.ip := by
  have hBumped : (m.bumpStat .connHit).backends[cv.backendIdx.toNat]? = some be := hBackend
  unfold forward chooseBackend
  rw [hEntry]
  dsimp only
  rw [hBumped]
  exact (ipipEncapTx_sent hRoom hLen hMac).2

theorem forward_new {bidx} (hMiss : m.conntrack.lookup frame.flowKey = none)
    (hSlot : m.maglevLut[(slot frame.flowKey).toNat]? = some bidx)
    (hBackend : m.backends[bidx.toNat]? = some be) (hRoom : env.headroom = true)
    (hLen : 14 + 20 ≤ frame.len) (hMac : be.dmac ≠ 0) :
    (m.forward env frame).2.sentTo = some be.ip ∧
      (m.forward env frame).1 = ({ m.bumpStat .connMiss with
        conntrack := lruUpdate m.conntrack frame.flowKey ⟨bidx, env.nowNs⟩ env.connUpdate } :
          Maps).bumpStat .forward := by
  have hSlot' : (m.bumpStat .connMiss).maglevLut[(slot frame.flowKey).toNat]? = some bidx := hSlot
  have hBackend' : (m.bumpStat .connMiss).backends[bidx.toNat]? = some be := hBackend
  unfold forward chooseBackend
  rw [hMiss]
  dsimp only
  rw [hSlot']
  dsimp only
  rw [hBackend']
  exact (ipipEncapTx_sent hRoom hLen hMac).symm

end Maps

/-! ## A list that gets shorter -/

namespace Edge

def plainConfig : EdgeConfig := ⟨0, 0x100000, 0, 0, 0, 99, 7⟩

def calmEnv : Env := ⟨5, true, some fun _ => true, some fun _ => true, some fun _ => true⟩

def udpFrame : Frame := ⟨60, ethPIp, 5, 0, 46, protoUdp, 3, 2, 3, 31332, false, false⟩

def resolved (ips : List UInt32) : List BackendInfo := ips.map fun ip => ⟨ip, 1⟩

theorem prime_maglevLutSize : maglevLutSize.Prime := by
  unfold maglevLutSize
  norm_num

theorem step_resolved {checks : Bool} {s : Edge} {ips table : List UInt32}
    (hBuild : buildLut checks maglevLutSize ips (ips.length * maglevLutSize + 1) =
      some (ok table)) : s.step checks (.publish (resolved ips)) =
        some ⟨s.maps.publish (resolved ips) table, s.log ++ [.published ips]⟩ := by
  have hIps : (resolved ips).map (·.ip) = ips := by simp [resolved, Function.comp_def]
  unfold step
  dsimp only
  rw [hIps, hBuild]

theorem exists_publish (checks : Bool) (s : Edge) {ips} (hSome : ips ≠ []) :
    ∃ table, s.step checks (.publish (resolved ips)) =
      some ⟨s.maps.publish (resolved ips) table, s.log ++ [.published ips]⟩ := by
  obtain ⟨table, hBuild, -, -⟩ := buildLut_spec checks prime_maglevLutSize (by decide) hSome
    (Nat.lt_succ_self _)
  exact ⟨table, step_resolved hBuild⟩

/-- The state after `publish [10, 20, 30]` and a packet of the flow, which goes to the second
backend. -/
structure Placed (s : Edge) : Prop where
  log : s.log = [.published [10, 20, 30], .sent udpFrame.flowKey 20]
  entry : s.maps.conntrack.lookup udpFrame.flowKey = some ⟨1, 5⟩
  bucket : s.maps.ratelimit.lookup 3 = some ⟨0xf0000, 5⟩
  config : s.maps.config = plainConfig
  backend : s.maps.backends[1]? = some ⟨20, 1⟩

theorem exists_placed (checks : Bool) : ∃ s₁ s₂,
    (boot plainConfig).step checks (.publish (resolved [10, 20, 30])) = some s₁ ∧
      s₁.step checks (.packet calmEnv udpFrame) = some s₂ ∧ s₂.Placed := by
  -- the first slot in the order of the second backend is the slot of the flow
  have hOther : probe maglevLutSize [10, 20, 30] 0 0 ≠ probe maglevLutSize [10, 20, 30] 1 0 := by
    decide +kernel
  have hOwn : probe maglevLutSize [10, 20, 30] 1 0 = (slot udpFrame.flowKey).toNat := by
    decide +kernel
  obtain ⟨table, hBuild, hTable⟩ := buildLut_second checks prime_maglevLutSize (by decide)
    (show 1 < [10, 20, 30].length by decide) hOther (Nat.lt_succ_self _)
  rw [hOwn] at hTable
  obtain ⟨m, hm⟩ : ∃ m, m = (boot plainConfig).maps.publish (resolved [10, 20, 30]) table :=
    ⟨_, rfl⟩
  have hSlot : m.maglevLut[(slot udpFrame.flowKey).toNat]? = some 1 := by
    have hLt : (slot udpFrame.flowKey).toNat < maglevLutSize := by decide +kernel
    rw [hm, Maps.publish, getElem?_mapIdx, boot, Maps.boot, getElem?_replicate_of_lt hLt,
      Option.map_some, getD_eq_getElem?_getD, hTable, Option.getD_some]
  have hBackend : m.backends[1]? = some ⟨20, 1⟩ := by
    rw [hm, Maps.getElem?_backends_publish, boot, Maps.boot, getElem?_replicate_of_lt (by decide)]
    rfl
  have hConfig : m.config = plainConfig := by rw [hm]; rfl
  have hFresh : m.ratelimit = ∅ := by rw [hm]; rfl
  have hEmpty : m.conntrack = ∅ := by rw [hm]; rfl
  obtain ⟨m₁, hRate, hSame, hBucket, hConfig₁⟩ : ∃ m₁, m.rateLimit calmEnv 3 = (m₁, true) ∧
      m.SameRouting m₁ ∧ m₁.ratelimit.lookup 3 = some ⟨0xf0000, 5⟩ ∧ m₁.config = m.config := by
    refine Maps.rateLimit_spec rfl rfl ?_
    rw [hConfig, hFresh]
    decide +kernel
  have hMain : m.xdpEdgeMain calmEnv udpFrame = m₁.forward calmEnv udpFrame :=
    Maps.xdpEdgeMain_udp rfl rfl (by decide) (by decide) hRate
  obtain ⟨hSent, hMaps⟩ : (m₁.forward calmEnv udpFrame).2.sentTo = some 20 ∧ _ :=
    Maps.forward_new (by rw [hSame.conntrack, hEmpty]; rfl) (by rw [hSame.maglevLut, hSlot])
      (by rw [hSame.backends]; exact hBackend) rfl (by decide) (by decide)
  refine ⟨⟨m, (boot plainConfig).log ++ [.published [10, 20, 30]]⟩, _, ?_, step_packet,
    ?_, ?_, ?_, ?_, ?_⟩
  · rw [step_resolved hBuild, hm]
  · rw [hMain, hSent]
    rfl
  · rw [hMain, hMaps]
    exact (lookup_lruUpdate rfl).trans (if_pos rfl)
  · rw [hMain, hMaps]
    exact hBucket
  · rw [hMain, hMaps]
    exact hConfig₁.trans hConfig
  · rw [hMain, hMaps]
    exact (congrArg (·[1]?) hSame.backends).trans hBackend

theorem next_packet (checks : Bool) {s : Edge} {ip : UInt32}
    (hEntry : s.maps.conntrack.lookup udpFrame.flowKey = some ⟨1, 5⟩)
    (hBucket : s.maps.ratelimit.lookup 3 = some ⟨0xf0000, 5⟩)
    (hConfig : s.maps.config = plainConfig) (hBackend : s.maps.backends[1]? = some ⟨ip, 1⟩) :
    ∃ s', s.step checks (.packet calmEnv udpFrame) = some s' ∧
      s'.log = s.log ++ [.sent udpFrame.flowKey ip] := by
  obtain ⟨m₁, hRate, hSame, -, -⟩ : ∃ m₁, s.maps.rateLimit calmEnv 3 = (m₁, true) ∧
      s.maps.SameRouting m₁ ∧ m₁.ratelimit.lookup 3 = some ⟨0xe0000, 5⟩ ∧
      m₁.config = s.maps.config := by
    refine Maps.rateLimit_spec rfl rfl ?_
    rw [hConfig, hBucket]
    decide +kernel
  have hMain : s.maps.xdpEdgeMain calmEnv udpFrame = m₁.forward calmEnv udpFrame :=
    Maps.xdpEdgeMain_udp rfl rfl (by decide) (by decide) hRate
  have hSent : (m₁.forward calmEnv udpFrame).2.sentTo = some ip :=
    Maps.forward_known (by rw [hSame.conntrack]; exact hEntry)
      (by rw [hSame.backends]; exact hBackend) rfl (by decide) (show (1 : Mac) ≠ 0 by decide)
  refine ⟨_, step_packet, ?_⟩
  rw [hMain, hSent]
  rfl

/-- Backends 10, 20 and 30, then 10 and 20: the flow stays with 20. -/
theorem affine_shortened : ∃ s, Run (step true) (fun s e => retains udpFrame.flowKey e = true ∧
      s.staysPut udpFrame.flowKey e = true) (boot plainConfig) s ∧
    s.log = [.published [10, 20, 30], .sent udpFrame.flowKey 20, .published [10, 20],
      .sent udpFrame.flowKey 20] ∧ Affine udpFrame.flowKey s.log := by
  obtain ⟨s₁, s₂, hFirst, hSecond, hPlaced⟩ := exists_placed true
  obtain ⟨table, hThird⟩ := exists_publish true s₂ (show [10, 20] ≠ [] by decide)
  obtain ⟨s₄, hFourth, hLog⟩ := next_packet (s := ⟨s₂.maps.publish (resolved [10, 20]) table,
      s₂.log ++ [.published [10, 20]]⟩) true hPlaced.entry hPlaced.bucket hPlaced.config
    (by rw [Maps.getElem?_backends_publish, hPlaced.backend]; rfl)
  have hStays : s₂.staysPut udpFrame.flowKey (.publish (resolved [10, 20])) = true := by
    simp [staysPut, hPlaced.entry, hPlaced.backend, resolved]
  have hRun : Run (step true) (fun s e => retains udpFrame.flowKey e = true ∧
      s.staysPut udpFrame.flowKey e = true) (boot plainConfig) s₄ :=
    (((Run.start.step ⟨rfl, rfl⟩ hFirst).step ⟨rfl, rfl⟩ hSecond).step ⟨rfl, hStays⟩ hThird).step
      ⟨rfl, rfl⟩ hFourth
  refine ⟨s₄, hRun, ?_, affine plainConfig hRun⟩
  rw [hLog, hPlaced.log]
  rfl

/-- The list 10, 20, 30 is published, then 20, and then 20, 30: the flow goes from 20 to 30. -/
theorem not_affine : ¬ ∀ (checks : Bool) (config : EdgeConfig) (flow : FiveTuple) (s : Edge),
    Run (step checks) (fun _ e => retains flow e = true) (boot config) s → Affine flow s.log := by
  intro hAll
  obtain ⟨s₁, s₂, hFirst, hSecond, hPlaced⟩ := exists_placed true
  obtain ⟨table, hThird⟩ := exists_publish true s₂ (show [20] ≠ [] by decide)
  obtain ⟨table', hFourth⟩ := exists_publish true
    ⟨s₂.maps.publish (resolved [20]) table, s₂.log ++ [.published [20]]⟩
    (show [20, 30] ≠ [] by decide)
  obtain ⟨s₅, hFifth, hLog⟩ := next_packet (s := ⟨(s₂.maps.publish (resolved [20]) table).publish
      (resolved [20, 30]) table', s₂.log ++ [.published [20]] ++ [.published [20, 30]]⟩)
    true hPlaced.entry hPlaced.bucket hPlaced.config
    (by rw [Maps.getElem?_backends_publish, Maps.getElem?_backends_publish, hPlaced.backend]; rfl)
  have hRun : Run (step true) (fun _ e => retains udpFrame.flowKey e = true)
      (boot plainConfig) s₅ :=
    .step (.step (.step (.step (.step .start rfl hFirst) rfl hSecond) rfl hThird) rfl hFourth) rfl
      hFifth
  have hAffine := hAll true plainConfig udpFrame.flowKey s₅ hRun
  rw [hLog, hPlaced.log] at hAffine
  have hSame := hAffine [.published [10, 20, 30]]
    [.published [20], .published [20, 30], .sent udpFrame.flowKey 30] 20 rfl (by simp) 30 (by simp)
  cases hSame

end Edge

end DirectWire.Xdp.Kernel
