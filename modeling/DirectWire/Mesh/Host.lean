import DirectWire.Mesh.Node
import DirectWire.Mesh.Quic

/-!
# Mesh — direct connections, commands and timers of a node

`node.rs`: the handlers of the actor around the relay data plane. `Host` is the actor with the
direct connections to peers, which stand in a map of their own beside the peers, and the numbering
of pings: `onNewConn`, `onConnClosed`, `onSendTo`, `onProbeTick`, `Actor.onGmCheck`. What a handler
does with a connection is listed in `direct effects`.
-/

namespace DirectWire.Mesh

open Lib Outcome

variable {A : Algorithms}

/-! ## The GM-PQ timer -/

def GmState.isReady : Option (GmState A) → Bool
  | some (.ready _) => true
  | _ => false

def Actor.onGmCheck (env : Env A) (a : Actor A) (peer : NodeId) (gen : UInt64) :
    Outcome Empty (Actor A) :=
  match a.peers.lookup peer with
  | none => ok a
  | some p =>
    -- a timer of an older attempt
    if p.gmGen ≠ gen then ok a
    else if GmState.isReady p.gm ∨ p.gm.isNone then ok a
    else
      let a := (a.setPeer peer { p with gm := none, gmFailed := true }).log
        ("GM-PQ handshake timed out, falling back to X25519+ed25519 (peer=" ++
          NodeId.short A peer ++ ")")
      -- the queue is kept; X25519 starts for it unless it is there already
      if ¬ p.pending.isEmpty ∧ p.hs.isNone ∧ p.session.isNone then a.hsBegin env peer else ok a

/-! ## State -/

/-- A direct connection, with the number the endpoint knows it by. -/
structure Conn extends Connection where
  stableId : Nat

inductive DirectEffect where
  | close (stableId : Nat) (reason : Bytes)
  /-- The event `DirectReady`. -/
  | directReady (peer : NodeId)
  /-- The read loop of a connection, which reports when the connection closes. -/
  | readLoop (peer : NodeId) (stableId : Nat)
deriving DecidableEq

structure Host (A : Algorithms) where
  actor : Actor A
  /-- The connection held for a peer, and whether this node dialled it. -/
  direct : Map NodeId (Conn × Bool)
  /-- Packets sent and lost at the last measurement of a direct path. -/
  lastDirectCounters : Map NodeId (UInt64 × UInt64)
  pingSeq : UInt64
  /-- `cfg.probe_interval`. -/
  probeInterval : Duration
  directEffects : List DirectEffect

structure ConnStats where
  rtt : Duration
  sentPackets : UInt64
  lostPackets : UInt64

def durationMax : Duration := (2 ^ 64 - 1) * 10 ^ 9 + 999999999

/-- `d * n`, which panics when the result does not fit. -/
def mulDuration {ε : Type} (d : Duration) (n : Nat) : Outcome ε Duration :=
  if d * n ≤ durationMax then ok (d * n) else panic .overflow

namespace Host

variable (env : Env A) (h : Host A)

def start (actor : Actor A) (probeInterval : Duration) : Host A :=
  ⟨actor, ∅, ∅, 0, probeInterval, []⟩

def addDirect (es : List DirectEffect) : Host A := { h with directEffects := h.directEffects ++ es }

def onActor (r : Outcome Empty (Actor A)) : Outcome Empty (Host A) := do
  let actor ← r
  ok { h with actor }

/-! ## Direct connections -/

def holdConn (peerId : NodeId) (conn : Conn) (outgoing : Bool) (before : List DirectEffect) :
    Outcome Empty (Host A) := do
  let p ← h.actor.getPeer peerId
  let h := { h with
    actor := h.actor.setPeer peerId { p with paths := p.paths.onDirectUp }
    direct := h.direct.insert peerId (conn, outgoing) }
  ok (h.addDirect (before ++ [.readLoop peerId conn.stableId]))

def onNewConn (conn : Conn) (outgoing : Bool) : Outcome Empty (Host A) :=
  match connPeerId conn.toConnection with
  | none => ok (h.addDirect [.close conn.stableId (ascii "no identity")])
  | some peerId => do
    let h ← h.onActor (h.actor.ensurePeer env peerId)
    -- the connection the smaller id dialled is the one to keep
    let preferOutgoing := decide (NodeId.lt h.actor.nodeId peerId)
    match h.direct.lookup peerId with
    | some (old, oldOutgoing) =>
      let oldPreferred := oldOutgoing == preferOutgoing
      let newPreferred := outgoing == preferOutgoing
      if oldPreferred || !newPreferred then
        ok (h.addDirect [.close conn.stableId (ascii "duplicate")])
      else
        h.holdConn peerId conn outgoing [.close old.stableId (ascii "superseded")]
    | none => h.holdConn peerId conn outgoing [.directReady peerId]

def directDown (peer : NodeId) : Outcome Empty (Host A) := do
  let p ← h.actor.getPeer peer
  let (sw, paths) := p.paths.onDirectDown env.now
  let actor := h.actor.setPeer peer { p with paths }
  let actor := match sw with
    | some sw => actor.emit (.pathSwitch peer sw)
    | none => actor
  ok { h with actor, direct := h.direct.erase peer }

def onConnClosed (peer : NodeId) (sid : Nat) : Outcome Empty (Host A) :=
  match h.actor.peers.lookup peer with
  | none => ok h
  | some _ =>
    -- a connection that was replaced must not clear its successor
    if (h.direct.lookup peer).map (·.1.stableId) = some sid then h.directDown env peer
    else ok h

/-! ## Commands -/

/-- Send a message of the application. `written` is what writing it to the
direct connection gives. -/
def onSendTo (written : Except String Unit) (h : Host A) (peer : NodeId) (payload : Bytes) :
    Outcome Empty (Host A) := do
  let h ← h.onActor (h.actor.ensurePeer env peer)
  let p ← h.actor.getPeer peer
  let relayed (h : Host A) : Outcome Empty (Host A) :=
    h.onActor (h.actor.relaySendInner env peer ([innerData] ++ payload))
  if p.paths.active = .direct ∧ (h.direct.lookup peer).isSome then
    match written with
    | .ok _ => ok h
    | .error e => do
      -- the message goes through the relay instead
      let h := { h with actor := h.actor.log ("direct send failed, falling back to relay: " ++ e) }
      let h ← h.directDown env peer
      relayed h
  else relayed h

/-! ## Probing -/

def intervalLoss (last : Option (UInt64 × UInt64)) (sent lost : UInt64) : ℚ :=
  match last with
  | none => 0
  | some (s0, l0) =>
    let ds := sent.toNat - s0.toNat
    let dl := lost.toNat - l0.toNat
    if ds > 0 then dl / ds else 0

/-- Measure the direct path; the events are emitted at the end of the tick. -/
def probeDirect (stats : Conn → ConnStats) (h : Host A) (pid : NodeId) :
    Outcome Empty (Host A × List NodeEvent) :=
  match h.direct.lookup pid with
  | none => ok (h, [])
  | some (conn, _) => do
    let p ← h.actor.getPeer pid
    let s := stats conn
    let loss := intervalLoss (h.lastDirectCounters.lookup pid) s.sentPackets s.lostPackets
    let (sw, paths) := p.paths.onSample .direct ⟨some s.rtt, some loss⟩ env.now
    let switched := match sw with
      | some sw => [.pathSwitch pid sw]
      | none => []
    ok ({ h with
      actor := h.actor.setPeer pid { p with paths }
      lastDirectCounters := h.lastDirectCounters.insert pid (s.sentPackets, s.lostPackets) },
      [.rttSample pid .direct s.rtt.millis (loss * 100)] ++ switched)

def expirePing (p : Peer A) (id : UInt64) : Peer A :=
  let outcomes := if p.pingOutcomes.length ≥ lossWindow then p.pingOutcomes.drop 1
    else p.pingOutcomes
  { p with pings := p.pings.erase id, pingOutcomes := outcomes ++ [false] }

def expirePings (order : HashOrder UInt64) (h : Host A) (pid : NodeId) :
    Outcome Empty (Host A) := do
  let p ← h.actor.getPeer pid
  let limit ← mulDuration h.probeInterval 3
  let expired := (p.pings.iterKeys order).filter fun id =>
    (p.pings.lookup id).any fun t0 => durationSince env.now t0 > limit
  if expired.isEmpty then ok h
  else ok { h with actor := h.actor.setPeer pid (expired.foldl expirePing p) }

def sendPing (pid : NodeId) : Outcome Empty (Host A) := do
  let p ← h.actor.getPeer pid
  if p.session.isSome ∨ (h.actor.gmReady p).isSome then do
    let id ← addU64 h.actor.build.overflowChecks h.pingSeq 1
    let actor := h.actor.setPeer pid { p with pings := p.pings.insert id env.now }
    { h with pingSeq := id }.onActor
      (actor.relaySendInner env pid ([innerPing] ++ beBytes 8 id.toNat))
  else ok h

def probePeer (stats : Conn → ConnStats) (order : HashOrder UInt64) (h : Host A) (pid : NodeId) :
    Outcome Empty (Host A × List NodeEvent) := do
  let (h, events) ← h.probeDirect env stats pid
  let h ← h.expirePings env order pid
  let h ← h.sendPing env pid
  ok (h, events)

def emitAll (events : List NodeEvent) : Host A :=
  { h with actor := events.foldl Actor.emit h.actor }

def onProbeTick (stats : Conn → ConnStats) (peerOrder : HashOrder NodeId)
    (pingOrder : HashOrder UInt64) (h : Host A) : Outcome Empty (Host A) := do
  let (h, events) ← forEach (probePeer env stats pingOrder) h (h.actor.peers.iterKeys peerOrder)
  ok (h.emitAll events)

def onGmCheck (env : Env A) (h : Host A) (peer : NodeId) (gen : UInt64) : Outcome Empty (Host A) :=
  h.onActor (h.actor.onGmCheck env peer gen)

def onRelayData (env : Env A) (h : Host A) (source : NodeId) (payload : Bytes) :
    Outcome Empty (Host A) :=
  h.onActor (h.actor.onRelayData env source payload)

end Host

/-! ## Events -/

/-- What the loop of the actor can be woken by, with what the handler then
reads from outside. -/
inductive HostEvent (A : Algorithms) where
  | sendTo (env : Env A) (written : Except String Unit) (peer : NodeId) (payload : Bytes)
  | relayData (env : Env A) (source : NodeId) (payload : Bytes)
  | gmCheck (env : Env A) (peer : NodeId) (gen : UInt64)
  | probeTick (env : Env A) (stats : Conn → ConnStats) (peerOrder : HashOrder NodeId)
      (pingOrder : HashOrder UInt64)
  | newConn (env : Env A) (conn : Conn) (outgoing : Bool)
  | connClosed (env : Env A) (peer : NodeId) (sid : Nat)

def Host.handle (h : Host A) : HostEvent A → Outcome Empty (Host A)
  | .sendTo env written peer payload => h.onSendTo env written peer payload
  | .relayData env source payload => h.onRelayData env source payload
  | .gmCheck env peer gen => h.onGmCheck env peer gen
  | .probeTick env stats peerOrder pingOrder => h.onProbeTick env stats peerOrder pingOrder
  | .newConn env conn outgoing => h.onNewConn env conn outgoing
  | .connClosed env peer sid => h.onConnClosed env peer sid

end DirectWire.Mesh
