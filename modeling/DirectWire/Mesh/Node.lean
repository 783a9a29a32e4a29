import DirectWire.Mesh.Gmpq
import DirectWire.Mesh.Path

/-!
# Mesh — the relay data plane of a node

`node.rs`, restricted to what a message through the relay goes through. A node sends over a GM-PQ
session that is ready, else over an X25519 session, else it queues the message and starts a
handshake. What it receives is told apart by its first byte.

A handler returns the next actor; what it sends and reports is appended to `effects`. `Env` holds
clocks and randomness. `Effect.plain` records each decrypted message that is handed on.
-/

namespace DirectWire.Mesh

open Lib Outcome

/-! ## State -/

inductive NodeEvent where
  | rttSample (peer : NodeId) (path : PathKind) (rttMs lossPct : ℚ)
  | pathSwitch (peer : NodeId) (switch : PathSwitch)
  | sessionReady (peer : NodeId) (suite : String)
  | message (source : NodeId) (via : PathKind) (payload : Bytes)
  | log (text : String)
deriving DecidableEq

inductive Effect where
  /-- A `RelayData` frame handed to the relay connection. -/
  | send (target : NodeId) (payload : Bytes)
  | emit (event : NodeEvent)
  /-- The timer that checks on a GM-PQ handshake after three seconds. -/
  | gmTimer (peer : NodeId) (gen : UInt64)
  | plain (source : NodeId) (inner : Bytes)
deriving DecidableEq

structure Env (A : Algorithms) where
  now : Instant
  unixSecs : UInt64
  /-- The system clock counts seconds in an `i64`. -/
  unixSecs_lt : unixSecs.toNat < 2 ^ 63
  eph : Fixed 32
  rand₁ : A.kem.Rand
  rand₂ : A.kem.Rand

structure Peer (A : Algorithms) where
  session : Option SessionCipher
  gm : Option (GmState A)
  /-- The GM-PQ handshake failed; it is not tried again. -/
  gmFailed : Bool
  gmGen : UInt64
  hs : Option HsState
  pending : List Bytes
  paths : PathManager
  pings : Map UInt64 Instant
  pingOutcomes : List Bool

namespace Peer

variable {A : Algorithms}

def new (build : Build) (now : Instant) : Outcome Empty (Peer A) := do
  let paths ← PathManager.new build.instantMin now
  ok ⟨none, none, false, 0, none, [], paths, ∅, []⟩

def relayLossPct (p : Peer A) : ℚ :=
  if p.pingOutcomes.isEmpty then 0
  else (p.pingOutcomes.filter (!·)).length / p.pingOutcomes.length * 100

end Peer

/-- A node. A node with a GM-PQ identity has a cookie issuer: both are made
when it starts and stay. -/
structure Actor (A : Algorithms) where
  build : Build
  identity : NodeIdentity
  gmId : Option (GmIdentity A)
  gmCookie : Option GmPq.CookieIssuer
  gmAnchor : Option GmPq.PinFileAnchor
  /-- `cfg.gmpq`. -/
  gmpq : Bool
  peers : Map NodeId (Peer A)
  effects : List Effect
  cookie_of_id : gmId.isSome → gmCookie.isSome

def innerData : UInt8 := 0x01

def innerPing : UInt8 := 0x02

def innerPong : UInt8 := 0x03

def lossWindow : Nat := 20

namespace Actor

variable {A : Algorithms} (env : Env A) (a : Actor A)

/-- A node as it starts: with GM-PQ enabled it has a cookie issuer, and the
identity it generated unless that failed. -/
def start (build : Build) (identity : NodeIdentity) (gmpq : Bool)
    (generated : Option (GmIdentity A)) (cookieSecret : Fixed 32)
    (gmAnchor : Option GmPq.PinFileAnchor) : Actor A where
  build
  identity
  gmId := if gmpq then generated else none
  gmCookie := if gmpq then some ⟨cookieSecret, 30⟩ else none
  gmAnchor
  gmpq
  peers := ∅
  effects := []
  cookie_of_id := by cases gmpq <;> simp

def nodeId (a : Actor A) : NodeId := a.identity.nodeId A

def getPeer (id : NodeId) : Outcome Empty (Peer A) := unwrap (a.peers.lookup id)

def setPeer (id : NodeId) (p : Peer A) : Actor A := { a with peers := a.peers.insert id p }

def addEffect (e : Effect) : Actor A := { a with effects := a.effects ++ [e] }

def emit (a : Actor A) (event : NodeEvent) : Actor A := a.addEffect (.emit event)

def log (a : Actor A) (text : String) : Actor A := a.emit (.log text)

def sendData (target : NodeId) (payload : Bytes) : Actor A := a.addEffect (.send target payload)

def gmSend (target : NodeId) (kind : UInt8) (body : Bytes) : Actor A :=
  a.sendData target ([gmTag, kind] ++ body)

def ensurePeer (id : NodeId) : Outcome Empty (Actor A) :=
  match a.peers.lookup id with
  | some _ => ok a
  | none => do
    let p ← Peer.new a.build env.now
    ok (a.setPeer id p)

def anchor : GmPq.TrustAnchor :=
  match a.gmAnchor with
  | some pins => pins.verify A.gm
  | none => GmPq.allowAllAnchor

/-! ## Starting handshakes -/

/-- The first message of a GM-PQ handshake: MSG1 from the client, a KICK
from the server. -/
def gmOffer (gm : GmIdentity A) (peer : NodeId) : Outcome Empty (Actor A) := do
  let p ← a.getPeer peer
  -- the roles follow from the ids, so both ends agree on them
  if NodeId.lt a.nodeId peer then
    let offer ← ((GmPq.Initiator.new A.gm gm.sk gm.pk : GmPq.Initiator A.kem.toKem).writeMsg1
      A.gm env.rand₁).attempt
    match offer with
    | .ok (ePk, init) =>
      ok ((a.setPeer peer { p with gm := some (.clientWaitCookie init ePk) }).gmSend peer
        gmMsg1 ePk)
    | .error _ => ok (a.setPeer peer { p with gmFailed := true })
  else
    ok ((a.setPeer peer { p with gm := some .serverWaitMsg1 }).gmSend peer gmKick [])

def gmArmTimer (peer : NodeId) : Outcome Empty (Actor A) := do
  let p ← a.getPeer peer
  -- a timer of an older attempt finds another generation and does nothing
  let gen ← addU64 a.build.overflowChecks p.gmGen 1
  ok ((a.setPeer peer { p with gmGen := gen }).addEffect (.gmTimer peer gen))

def gmStart (peer : NodeId) : Outcome Empty (Actor A) :=
  match a.gmId with
  | none => ok a
  | some gm => do
    let p ← a.getPeer peer
    if p.gm.isSome ∨ p.gmFailed then ok a
    else
      -- the timer runs also after an offer that failed
      let a ← a.gmOffer env gm peer
      a.gmArmTimer peer

def hsBegin (pid : NodeId) : Outcome Empty (Actor A) := do
  let p ← a.getPeer pid
  if p.hs.isNone then
    let (hs, msg) := hsStart A a.identity pid env.eph
    ok ((a.setPeer pid { p with hs := some hs }).sendData pid msg)
  else ok a

/-! ## Sending -/

def gmReady (p : Peer A) : Option GmPq.Session :=
  match a.build.gmPq, p.gm with
  | true, some (.ready session) => some session
  | _, _ => none

def queueInner (pid : NodeId) (inner : Bytes) : Outcome Empty (Actor A) := do
  let p ← a.getPeer pid
  let a := a.setPeer pid { p with pending := p.pending ++ [inner] }
  if a.build.gmPq ∧ a.gmpq ∧ ¬ p.gmFailed ∧ a.gmId.isSome then
    -- with a handshake under way the message just waits for its end
    if p.gm.isNone then a.gmStart env pid else ok a
  else a.hsBegin env pid

def relaySendInner (pid : NodeId) (inner : Bytes) : Outcome Empty (Actor A) := do
  let a ← a.ensurePeer env pid
  let p ← a.getPeer pid
  -- an unbound GM-PQ session does not count; X25519 is used if there is one
  match a.gmReady p, p.session with
  | some session, _ => do
    let (pkt, session) ← session.send A.gm inner
    ok ((a.setPeer pid { p with gm := some (.ready session) }).gmSend pid gmData pkt)
  | none, some sess => do
    let sealed ← (sess.sealText A a.build.overflowChecks inner).attempt
    match sealed with
    | .ok (ct, sess) => ok ((a.setPeer pid { p with session := some sess }).sendData pid ct)
    | .error e => ok (a.log ("encryption failed: " ++ CryptoError.display e))
  | none, none => a.queueInner env pid inner

def sendAll (env : Env A) (a : Actor A) (pid : NodeId) : List Bytes → Outcome Empty (Actor A)
  | [] => ok a
  | inner :: rest => do
    let a ← a.relaySendInner env pid inner
    a.sendAll env pid rest

def flushPending (pid : NodeId) : Outcome Empty (Actor A) := do
  let p ← a.getPeer pid
  -- taken first: a message that finds no session is queued again
  (a.setPeer pid { p with pending := [] }).sendAll env pid p.pending

/-! ## Decrypted messages -/

def onPong (source : NodeId) (id : UInt64) : Outcome Empty (Actor A) := do
  let p ← a.getPeer source
  match p.pings.lookup id with
  | none => ok a
  | some t0 =>
    let rtt := durationSince env.now t0
    -- the window keeps the last outcomes; a lost ping is entered elsewhere
    let outcomes := if p.pingOutcomes.length ≥ lossWindow then p.pingOutcomes.drop 1
      else p.pingOutcomes
    let p := { p with pings := p.pings.erase id, pingOutcomes := outcomes ++ [true] }
    let loss := p.relayLossPct / 100
    let (sw, paths) := p.paths.onSample .relay ⟨some rtt, some loss⟩ env.now
    let a := (a.setPeer source { p with paths }).emit
      (.rttSample source .relay rtt.millis (loss * 100))
    match sw with
    | some sw => ok (a.emit (.pathSwitch source sw))
    | none => ok a

def onPlainInner (source : NodeId) (inner : Bytes) : Outcome Empty (Actor A) := do
  let a := a.addEffect (.plain source inner)
  if inner.head? = some innerData then
    let payload ← sliceFrom inner 1
    ok (a.emit (.message source .relay payload))
  else if inner.head? = some innerPing ∧ inner.length ≥ 9 then
    -- the pong echoes the ping's id and nothing more
    let id ← slice inner 1 9
    a.relaySendInner env source ([innerPong] ++ id)
  else if inner.head? = some innerPong ∧ inner.length ≥ 9 then
    let id ← sliceArray inner 1 8
    a.onPong env source (UInt64.ofNat (beNat id.val))
  -- an unknown kind, or a ping that is too short
  else ok a

/-! ## GM-PQ frames -/

def onGmKick (source : NodeId) : Outcome Empty (Actor A) := do
  let p ← a.getPeer source
  if p.gm.isNone ∧ ¬ p.gmFailed then
    if NodeId.lt a.nodeId source then a.gmStart env source
    else ok (a.setPeer source { p with gm := some .serverWaitMsg1 })
  else ok a

def acceptsMsg1 : Option (GmState A) → Bool
  | none | some .serverWaitMsg1 => true
  | _ => false

def onGmMsg1 (source : NodeId) (body : Bytes) : Outcome Empty (Actor A) := do
  -- only the server takes MSG1
  if NodeId.lt a.nodeId source then ok a
  else
    let p ← a.getPeer source
    if acceptsMsg1 p.gm then
      let issuer ← unwrap a.gmCookie
      let cookie := issuer.issue A.gm env.unixSecs source.val body
      ok ((a.setPeer source { p with gm := some (.serverWaitRetry body) }).gmSend source
        Mesh.gmCookie cookie)
    else ok a

/-- `gm.take()`: the state, and the actor without it. -/
def takeGm (id : NodeId) : Outcome Empty (Option (GmState A) × Actor A) := do
  let p ← a.getPeer id
  ok (p.gm, a.setPeer id { p with gm := none })

def setGm (id : NodeId) (gm : GmState A) : Outcome Empty (Actor A) := do
  let p ← a.getPeer id
  ok (a.setPeer id { p with gm := some gm })

def onGmCookie (source : NodeId) (body : Bytes) : Outcome Empty (Actor A) := do
  -- the state is taken before it is looked at
  let (gm, a) ← a.takeGm source
  match gm with
  | some (.clientWaitCookie init ePk) => do
    let a ← a.setGm source (.clientWaitMsg2 init)
    ok (a.gmSend source gmMsg1Retry (body ++ ePk))
  | _ => ok a

def cookieEchoed (source : NodeId) (ePk body : Bytes) : Outcome Empty Bool := do
  if body.length < GmPq.cookieLen then ok false
  else
    let echo ← slice body 0 GmPq.cookieLen
    let ePk2 ← sliceFrom body GmPq.cookieLen
    if ePk2 ≠ ePk then ok false
    else
      -- present whenever the identity is
      let issuer ← unwrap a.gmCookie
      let verdict ← (issuer.verify A.gm a.build.overflowChecks env.unixSecs source.val ePk
        echo).attempt
      ok (match verdict with
        | .ok _ => true
        | .error _ => false)

def gmRespond (gm : GmIdentity A) (ePk : Bytes) :
    Outcome GmPq.Error (Bytes × GmPq.Responder A.kem.toKem) := do
  let resp ← (GmPq.Responder.new A.gm gm.sk gm.pk : GmPq.Responder A.kem.toKem).readMsg1 A.gm ePk
  resp.writeMsg2 A.gm env.rand₁ env.rand₂

def onGmMsg1Retry (source : NodeId) (body : Bytes) : Outcome Empty (Actor A) := do
  let (gm, a) ← a.takeGm source
  match gm with
  | some (.serverWaitRetry ePk) => do
    let verified ← a.cookieEchoed env source ePk body
    if ¬ verified then ok (a.log "GM-PQ cookie verification failed")
    else
      let id ← unwrap a.gmId
      let m2 ← (gmRespond env id ePk).attempt
      match m2 with
      | .ok (m2, resp) => do
        let a ← a.setGm source (.serverWaitMsg3 resp)
        ok (a.gmSend source Mesh.gmMsg2 m2)
      | .error e => ok (a.log ("GM-PQ msg1 handling failed: " ++ e.display))
  -- any other state has been taken and is not put back
  | _ => ok a

def bindSession (session : GmPq.Session) : Outcome Empty (Bytes × GmPq.Session) := do
  let id ← unwrap a.gmId
  session.send A.gm (buildBind A a.identity id.pk session.sessionId)

def onGmMsg2 (source : NodeId) (body : Bytes) : Outcome Empty (Actor A) := do
  let (gm, a) ← a.takeGm source
  match gm with
  | some (.clientWaitMsg2 init) => do
    let res ← (do
      let init ← init.readMsg2 A.gm body
      GmPq.Initiator.writeMsg3WithAuth A.gm init env.rand₁ env.rand₂ a.anchor).attempt
    match res with
    | .ok (m3, session, init) => do
      -- the key that message 2 authenticated, for the check of BIND
      let peerGmPk := init.peerStatic.getD []
      let (pkt, session) ← a.bindSession session
      let a ← a.setGm source (.readyUnbound session peerGmPk)
      ok ((a.gmSend source gmMsg3 m3).gmSend source gmData pkt)
    | .error e => ok (a.log ("GM-PQ msg2 handling failed: " ++ e.display))
  | _ => ok a

def onGmMsg3 (source : NodeId) (body : Bytes) : Outcome Empty (Actor A) := do
  let (gm, a) ← a.takeGm source
  match gm with
  | some (.serverWaitMsg3 resp) => do
    let res ← (GmPq.Responder.readMsg3WithAuth A.gm resp body a.anchor).attempt
    match res with
    | .ok ((session, clientPk), _) => do
      let (pkt, session) ← a.bindSession session
      let a ← a.setGm source (.readyUnbound session clientPk)
      ok (a.gmSend source gmData pkt)
    | .error e => ok (a.log ("GM-PQ msg3 rejected: " ++ e.display))
  | _ => ok a

def gmDropped (source : NodeId) (reason : String) : Actor A :=
  a.log ("GM-PQ dropped: " ++ reason ++ " (peer=" ++ NodeId.short A source ++ ")")

def promoteGm : Option (GmState A) → Option (GmState A)
  | some (.readyUnbound session _) => some (.ready session)
  | _ => none

def gmBound (source : NodeId) : Outcome Empty (Actor A) := do
  let p ← a.getPeer source
  let a := a.setPeer source { p with gm := promoteGm p.gm }
  (a.emit (.sessionReady source "sm2+ml-kem-768+sm4-gcm")).flushPending env source

def onGmDataUnbound (source : NodeId) (session : GmPq.Session) (peerGmPk body : Bytes) :
    Outcome Empty (Actor A) := do
  let (received, session) ← session.recv A.gm body
  -- the replay window moved, also if the packet is then dropped
  let a ← a.setGm source (.readyUnbound session peerGmPk)
  match received with
  | .ok pt =>
    if bindPrefix.isPrefixOf pt then do
      let bound ← (parseBind A pt source peerGmPk session.sessionId).attempt
      match bound with
      | .ok _ => a.gmBound env source
      | .error e => ok (a.gmDropped source e)
    else ok (a.gmDropped source "data received before BIND")
  | .error _ => ok (a.gmDropped source "GM-PQ decryption failed")

def onGmData (source : NodeId) (body : Bytes) : Outcome Empty (Actor A) := do
  let p ← a.getPeer source
  match p.gm with
  | some (.readyUnbound session peerGmPk) => a.onGmDataUnbound env source session peerGmPk body
  | some (.ready session) => do
    let (received, session) ← session.recv A.gm body
    let a ← a.setGm source (.ready session)
    match received with
    | .ok pt => a.onPlainInner env source pt
    | .error _ => ok (a.gmDropped source "GM-PQ decryption failed/replay")
  | _ => ok a

def onGmFrame (source : NodeId) (kind : UInt8) (body : Bytes) : Outcome Empty (Actor A) :=
  if ¬ a.gmpq ∨ a.gmId.isNone then ok a
  else if kind = gmKick then a.onGmKick env source
  else if kind = gmMsg1 then a.onGmMsg1 env source body
  else if kind = Mesh.gmCookie then a.onGmCookie source body
  else if kind = gmMsg1Retry then a.onGmMsg1Retry env source body
  else if kind = gmMsg2 then a.onGmMsg2 env source body
  else if kind = gmMsg3 then a.onGmMsg3 source body
  else if kind = gmData then a.onGmData env source body
  else ok a

/-! ## Relay data -/

def sessionReady (env : Env A) (a : Actor A) (source : NodeId) : Outcome Empty (Actor A) :=
  (a.emit (.sessionReady source "x25519+ed25519")).flushPending env source

def onHsInit (source : NodeId) (payload : Bytes) : Outcome Empty (Actor A) := do
  let p ← a.getPeer source
  if p.session.isSome then ok a
  -- both started: the smaller id stays the initiator
  else if p.hs.isSome ∧ NodeId.lt a.nodeId source then ok a
  else
    let accepted ← (hsAccept A a.identity source payload env.eph).attempt
    match accepted with
    | .ok (cipher, resp) =>
      ((a.setPeer source { p with session := some cipher, hs := none }).sendData source
        resp).sessionReady env source
    | .error e => ok (a.log ("handshake init rejected: " ++ CryptoError.display e))

def onHsResp (source : NodeId) (payload : Bytes) : Outcome Empty (Actor A) := do
  let p ← a.getPeer source
  if p.session.isSome then ok a
  else
    match p.hs with
    | none => ok a
    | some hs => do
      let a := a.setPeer source { p with hs := none }
      let finished ← (hsFinish A a.identity hs payload).attempt
      match finished with
      | .ok cipher =>
        (a.setPeer source { p with hs := none, session := some cipher }).sessionReady env source
      | .error e => ok (a.log ("handshake resp rejected: " ++ CryptoError.display e))

def onHandshake (source : NodeId) (payload : Bytes) : Outcome Empty (Actor A) :=
  if payload[1]? = some hsKindInit then a.onHsInit env source payload
  else if payload[1]? = some hsKindResp then a.onHsResp env source payload
  else ok (a.log "unknown handshake message")

def onCiphertext (source : NodeId) (payload : Bytes) : Outcome Empty (Actor A) := do
  let p ← a.getPeer source
  match p.session with
  | none => ok (a.log "ciphertext arrived before the handshake completed; dropping")
  | some sess => do
    let opened ← (sess.openText A a.build.overflowChecks payload).attempt
    match opened with
    | .ok (inner, sess) =>
      (a.setPeer source { p with session := some sess }).onPlainInner env source inner
    | .error e => ok (a.log ("relay ciphertext decrypt failed: " ++ CryptoError.display e))

def onRelayData (source : NodeId) (payload : Bytes) : Outcome Empty (Actor A) := do
  let a ← a.ensurePeer env source
  if a.build.gmPq ∧ payload.head? = some gmTag then
    -- the kind byte defaults to zero, the body is sliced without a check
    let kind := payload.getD 1 0
    let body ← sliceFrom payload 2
    a.onGmFrame env source kind body
  else if payload.head? = some hsTag then a.onHandshake env source payload
  else a.onCiphertext env source payload

end Actor

/-! ## A node to run the model on -/

def plainPeer (session : Option SessionCipher) (gm : Option (GmState plainAlgorithms)) :
    Peer plainAlgorithms :=
  ⟨session, gm, false, 0, none, [], ⟨.relay, false, .default, .default, 8 / 10, 500 * 10 ^ 6, 0⟩,
    ∅, []⟩

/-- A node that starts with a GM-PQ identity, in a build with the feature. -/
def plainNode (sk : UInt8) : Actor plainAlgorithms :=
  .start ⟨true, true, -(3600 * second)⟩ ⟨GmPq.padTo 32 [sk]⟩ true
    (some ⟨((sk, sk) : UInt8 × UInt8), plainAlgorithms.kem.publicOf ((sk, sk) : UInt8 × UInt8)⟩)
    (GmPq.padTo 32 [7]) none

def plainEnv : Env plainAlgorithms where
  now := 0
  unixSecs := 0
  unixSecs_lt := by decide
  eph := GmPq.padTo 32 [3]
  rand₁ := ((4, 4) : UInt8 × UInt8)
  rand₂ := ((5, 5) : UInt8 × UInt8)

def plainId : NodeId := GmPq.padTo 32 [2]

def plainSession : GmPq.Session := .new (GmPq.padTo 16 [1]) (GmPq.padTo 16 [2]) (GmPq.padTo 32 [3])

end DirectWire.Mesh
