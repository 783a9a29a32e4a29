import DirectWire.Mesh.Frames
import DirectWire.Mesh.Host

/-!
# Mesh — the machine of one peer

What matters for the sessions and handshakes with one peer is its `PeerCore`. The relations here
say what the node does to it, one for each function of the source that has a say, with what is
sent, reported and timed for that peer. Each step has the guards of its branch of the source. The
one thing the machine leaves open is whether a pong answers a ping that is still in flight. That
every handler is one step of this machine is shown in `Mesh.Refine`; the results about whole runs
speak of the machine.
-/

namespace DirectWire.Mesh

open Lib Outcome

/-! ## The machine of a peer -/

inductive GmPhase where
  | idle
  | waitMsg1
  | waitRetry
  | waitMsg3
  | waitCookie
  | waitMsg2
  | unbound
  | ready
deriving DecidableEq

def GmState.phase {A : Algorithms} : Option (GmState A) → GmPhase
  | none => .idle
  | some .serverWaitMsg1 => .waitMsg1
  | some (.serverWaitRetry _) => .waitRetry
  | some (.serverWaitMsg3 _) => .waitMsg3
  | some (.clientWaitCookie _ _) => .waitCookie
  | some (.clientWaitMsg2 _) => .waitMsg2
  | some (.readyUnbound _ _) => .unbound
  | some (.ready _) => .ready

structure NodeSetup (A : Algorithms) where
  build : Build
  identity : NodeIdentity
  gmId : Option (GmIdentity A)
  gmCookie : Option GmPq.CookieIssuer
  gmAnchor : Option GmPq.PinFileAnchor
  gmpq : Bool

/-- The sessions and handshakes with a peer, and the messages that wait. -/
structure PeerCore (A : Algorithms) where
  session : Option SessionCipher
  gm : Option (GmState A)
  gmFailed : Bool
  gmGen : UInt64
  hs : Option HsState
  pending : List Bytes

variable {A : Algorithms}

def Peer.core (p : Peer A) : PeerCore A :=
  ⟨p.session, p.gm, p.gmFailed, p.gmGen, p.hs, p.pending⟩

namespace PeerCore

def fresh : PeerCore A := ⟨none, none, false, 0, none, []⟩

def queue (q : PeerCore A) (inner : Bytes) : PeerCore A :=
  { q with pending := q.pending ++ [inner] }

def phase (q : PeerCore A) : GmPhase := GmState.phase q.gm

def keys (q : PeerCore A) : Option (Fixed 32 × Fixed 32) := q.session.map fun s => (s.send, s.recv)

end PeerCore

namespace NodeSetup

def nodeId (c : NodeSetup A) : NodeId := c.identity.nodeId A

def anchor (c : NodeSetup A) : GmPq.TrustAnchor :=
  match c.gmAnchor with
  | some pins => pins.verify A.gm
  | none => GmPq.allowAllAnchor

def GmOn (c : NodeSetup A) : Prop := c.gmpq = true ∧ c.gmId.isSome = true

def TriesGm (c : NodeSetup A) (q : PeerCore A) : Prop :=
  c.build.gmPq = true ∧ c.gmpq = true ∧ q.gmFailed = false ∧ c.gmId.isSome = true

def UsesGm (c : NodeSetup A) (q : PeerCore A) : Prop :=
  c.build.gmPq = true ∧ GmState.isReady q.gm = true

def bindSession (c : NodeSetup A) (session : GmPq.Session) :
    Outcome Empty (Bytes × GmPq.Session) := do
  let id ← unwrap c.gmId
  session.send A.gm (buildBind A c.identity id.pk session.sessionId)

/-- MSG1_RETRY brings back a good cookie, and the ephemeral key it was given for. -/
def Echoes (c : NodeSetup A) (env : Env A) (X : NodeId) (ePk body : Bytes) : Prop :=
  GmPq.cookieLen ≤ body.length ∧ body.drop GmPq.cookieLen = ePk ∧
    ∃ issuer, c.gmCookie = some issuer ∧ issuer.verify A.gm c.build.overflowChecks env.unixSecs
      X.val ePk (body.take GmPq.cookieLen) = ok ()

end NodeSetup

section Machine

variable (c : NodeSetup A) (env : Env A) (X : NodeId)

inductive GmStarts (q : PeerCore A) : PeerCore A → List Effect → Prop where
  | offer {gm ePk init gen} (hId : c.gmId = some gm) (hRole : NodeId.lt c.nodeId X)
      (hOffer : (GmPq.Initiator.new A.gm gm.sk gm.pk : GmPq.Initiator A.kem.toKem).writeMsg1
        A.gm env.rand₁ = ok (ePk, init))
      (hGen : addU64 c.build.overflowChecks q.gmGen 1 = (ok gen : Outcome Empty _)) :
      GmStarts q { q with gm := some (.clientWaitCookie init ePk), gmGen := gen }
        [.send X ([gmTag, gmMsg1] ++ ePk), .gmTimer X gen]
  -- no GM-PQ with this peer from now on, but the timer runs all the same
  | fail {gm e gen} (hId : c.gmId = some gm) (hRole : NodeId.lt c.nodeId X)
      (hOffer : (GmPq.Initiator.new A.gm gm.sk gm.pk : GmPq.Initiator A.kem.toKem).writeMsg1
        A.gm env.rand₁ = err e)
      (hGen : addU64 c.build.overflowChecks q.gmGen 1 = (ok gen : Outcome Empty _)) :
      GmStarts q { q with gmFailed := true, gmGen := gen } [.gmTimer X gen]
  | kick {gen} (hRole : ¬ NodeId.lt c.nodeId X)
      (hGen : addU64 c.build.overflowChecks q.gmGen 1 = (ok gen : Outcome Empty _)) :
      GmStarts q { q with gm := some .serverWaitMsg1, gmGen := gen }
        [.send X [gmTag, gmKick], .gmTimer X gen]

/-- A message is queued, and a handshake started unless one is under way. -/
inductive Queues (inner : Bytes) (q : PeerCore A) : PeerCore A → List Effect → Prop where
  | gm {q' out} (hTries : c.TriesGm q) (hNone : q.gm = none)
      (hStarts : GmStarts c env X (q.queue inner) q' out) : Queues inner q q' out
  | gmWaits (hTries : c.TriesGm q) (hSome : q.gm.isSome = true) :
      Queues inner q (q.queue inner) []
  | hs (hTries : ¬ c.TriesGm q) (hNone : q.hs = none) :
      Queues inner q { q.queue inner with hs := some (hsStart A c.identity X env.eph).1 }
        [.send X (hsStart A c.identity X env.eph).2]
  | hsWaits (hTries : ¬ c.TriesGm q) (hSome : q.hs.isSome = true) :
      Queues inner q (q.queue inner) []

/-- `relay_send_inner`. -/
inductive Sends (inner : Bytes) (q : PeerCore A) : PeerCore A → List Effect → Prop where
  | gm {session session' pkt} (hBuild : c.build.gmPq = true) (hReady : q.gm = some (.ready session))
      (hSend : session.send A.gm inner = (ok (pkt, session') : Outcome Empty _)) :
      Sends inner q { q with gm := some (.ready session') } [.send X ([gmTag, gmData] ++ pkt)]
  | sealed {s s' ct} (hGm : ¬ c.UsesGm q) (hSession : q.session = some s)
      (hSeal : s.sealText A c.build.overflowChecks inner = ok (ct, s')) :
      Sends inner q { q with session := some s' } [.send X ct]
  -- encryption fails, and the message is gone
  | lost {s e} (hGm : ¬ c.UsesGm q) (hSession : q.session = some s)
      (hSeal : s.sealText A c.build.overflowChecks inner = err e) : Sends inner q q []
  | queued {q' out} (hGm : ¬ c.UsesGm q) (hSession : q.session = none)
      (hQueues : Queues c env X inner q q' out) : Sends inner q q' out

/-- `flush_pending`: messages are sent one after another. -/
inductive Flushes : List Bytes → PeerCore A → PeerCore A → List Effect → Prop where
  | nil {q} : Flushes [] q q []
  | cons {inner rest q q₁ q₂ out₁ out₂} (hFirst : Sends c env X inner q q₁ out₁)
      (hRest : Flushes rest q₁ q₂ out₂) : Flushes (inner :: rest) q q₂ (out₁ ++ out₂)

/-- `on_plain_inner`: a decrypted message is handed on. -/
inductive Hands (inner : Bytes) (q : PeerCore A) : PeerCore A → List Effect → Prop where
  | data {payload} (hInner : inner = innerData :: payload) :
      Hands inner q q [.plain X inner, .emit (.message X .relay payload)]
  | ping {q' out} (hSends : Sends c env X ([innerPong] ++ (inner.drop 1).take 8) q q' out)
      (hInner : inner.head? = some innerPing ∧ 9 ≤ inner.length) :
      Hands inner q q' (.plain X inner :: out)
  | pong {rtt loss} (hInner : inner.head? = some innerPong ∧ 9 ≤ inner.length) :
      Hands inner q q [.plain X inner, .emit (.rttSample X .relay rtt loss)]
  -- an unknown kind, one that is too short, or a pong that comes too late
  | nothing (hData : inner.head? ≠ some innerData)
      (hPing : ¬ (inner.head? = some innerPing ∧ 9 ≤ inner.length)) :
      Hands inner q q [.plain X inner]

/-- A frame that the node does not look at. -/
inductive GmIgnores (kind : UInt8) (q : PeerCore A) : Prop where
  | off (hOff : ¬ c.GmOn)
  | kick (hKind : kind = gmKick) (hWhy : ¬ (q.gm = none ∧ q.gmFailed = false))
  | msg1 (hKind : kind = gmMsg1)
      (hWhy : NodeId.lt c.nodeId X ∨ Actor.acceptsMsg1 q.gm = false)
  | data (hKind : kind = gmData) (hUnbound : q.phase ≠ .unbound) (hReady : q.phase ≠ .ready)
  | unknown (hKind : kind ∉ [gmKick, gmMsg1, gmData] ++ Actor.controlKinds)

/-- The frame a handshake waits for does not pass. -/
inductive GmRejects (body : Bytes) (q : PeerCore A) : Prop where
  | echo {ePk} (hState : q.gm = some (.serverWaitRetry ePk)) (hEcho : ¬ c.Echoes env X ePk body)
  | respond {ePk gm e} (hState : q.gm = some (.serverWaitRetry ePk)) (hId : c.gmId = some gm)
      (hRespond : Actor.gmRespond env gm ePk = err e)
  | msg2 {init e} (hState : q.gm = some (.clientWaitMsg2 init))
      (hWrite : (do
        let init ← init.readMsg2 A.gm body
        GmPq.Initiator.writeMsg3WithAuth A.gm init env.rand₁ env.rand₂ c.anchor) = err e)
  | msg3 {resp e} (hState : q.gm = some (.serverWaitMsg3 resp))
      (hRead : GmPq.Responder.readMsg3WithAuth A.gm resp body c.anchor = err e)

/-- `on_gm_frame`. -/
inductive GmFrame (kind : UInt8) (body : Bytes) (q : PeerCore A) :
    PeerCore A → List Effect → Prop where
  | ignore (hWhy : GmIgnores c X kind q) : GmFrame kind body q q []
  | start {q' out} (hOn : c.GmOn) (hKind : kind = gmKick) (hNone : q.gm = none)
      (hOk : q.gmFailed = false) (hStarts : GmStarts c env X q q' out)
      (hRole : NodeId.lt c.nodeId X) : GmFrame kind body q q' out
  -- the server waits for MSG1 and starts no timer
  | serve (hOn : c.GmOn) (hKind : kind = gmKick) (hRole : ¬ NodeId.lt c.nodeId X)
      (hNone : q.gm = none) (hOk : q.gmFailed = false) :
      GmFrame kind body q { q with gm := some .serverWaitMsg1 } []
  | cookie {issuer} (hOn : c.GmOn) (hKind : kind = gmMsg1) (hRole : ¬ NodeId.lt c.nodeId X)
      (hAccepts : Actor.acceptsMsg1 q.gm = true) (hIssuer : c.gmCookie = some issuer) :
      GmFrame kind body q { q with gm := some (.serverWaitRetry body) }
        [.send X ([gmTag, Mesh.gmCookie] ++ issuer.issue A.gm env.unixSecs X.val body)]
  | retry {init ePk} (hOn : c.GmOn) (hKind : kind = Mesh.gmCookie)
      (hState : q.gm = some (.clientWaitCookie init ePk)) :
      GmFrame kind body q { q with gm := some (.clientWaitMsg2 init) }
        [.send X ([gmTag, gmMsg1Retry] ++ (body ++ ePk))]
  | respond {ePk m2 gm resp} (hOn : c.GmOn) (hKind : kind = gmMsg1Retry)
      (hState : q.gm = some (.serverWaitRetry ePk)) (hId : c.gmId = some gm)
      (hRespond : Actor.gmRespond env gm ePk = ok (m2, resp)) (hEcho : c.Echoes env X ePk body) :
      GmFrame kind body q { q with gm := some (.serverWaitMsg3 resp) }
        [.send X ([gmTag, gmMsg2] ++ m2)]
  | finishClient {init init₁ init₂ m3 pkt session session'} (hOn : c.GmOn) (hKind : kind = gmMsg2)
      (hState : q.gm = some (.clientWaitMsg2 init)) (hRead : init.readMsg2 A.gm body = ok init₁)
      (hWrite : GmPq.Initiator.writeMsg3WithAuth A.gm init₁ env.rand₁ env.rand₂ c.anchor =
        ok (m3, session, init₂)) (hBind : c.bindSession session = ok (pkt, session')) :
      GmFrame kind body q
        { q with gm := some (.readyUnbound session' (init₂.peerStatic.getD [])) }
        [.send X ([gmTag, gmMsg3] ++ m3), .send X ([gmTag, gmData] ++ pkt)]
  | finishServer {resp resp' pkt clientPk session session'} (hOn : c.GmOn) (hKind : kind = gmMsg3)
      (hState : q.gm = some (.serverWaitMsg3 resp))
      (hRead : GmPq.Responder.readMsg3WithAuth A.gm resp body c.anchor =
        ok ((session, clientPk), resp')) (hBind : c.bindSession session = ok (pkt, session')) :
      GmFrame kind body q { q with gm := some (.readyUnbound session' clientPk) }
        [.send X ([gmTag, gmData] ++ pkt)]
  -- the state is taken out before it is looked at, so a frame out of turn ends the handshake
  | drop (hOn : c.GmOn) (hKind : kind ∈ Actor.controlKinds)
      (hWhy : ¬ Actor.Awaits kind q.gm ∨ GmRejects c env X body q) :
      GmFrame kind body q { q with gm := none } []
  | unbound {session session' pk r} (hOn : c.GmOn) (hKind : kind = gmData)
      (hState : q.gm = some (.readyUnbound session pk))
      (hRecv : session.recv A.gm body = ok (r, session'))
      (hNot : ∀ pt id, r = .ok pt → parseBind A pt X pk session'.sessionId ≠ ok id) :
      GmFrame kind body q { q with gm := some (.readyUnbound session' pk) } []
  | bound {session session' pk pt id q' out} (hOn : c.GmOn) (hKind : kind = gmData)
      (hState : q.gm = some (.readyUnbound session pk))
      (hRecv : session.recv A.gm body = ok (.ok pt, session'))
      (hBind : parseBind A pt X pk session'.sessionId = ok id) (hFlush : Flushes c env X q.pending
        { q with gm := some (.ready session'), pending := [] } q' out) : GmFrame kind body q q' out
  | undecryptable {session session' e} (hOn : c.GmOn) (hKind : kind = gmData)
      (hState : q.gm = some (.ready session))
      (hRecv : session.recv A.gm body = ok (.error e, session')) :
      GmFrame kind body q { q with gm := some (.ready session') } []
  | data {session session' pt q' out} (hOn : c.GmOn) (hKind : kind = gmData)
      (hState : q.gm = some (.ready session))
      (hRecv : session.recv A.gm body = ok (.ok pt, session'))
      (hHands : Hands c env X pt { q with gm := some (.ready session') } q' out) :
      GmFrame kind body q q' out

inductive HsFrame (payload : Bytes) (q : PeerCore A) : PeerCore A → List Effect → Prop where
  | ignoreInit (hKind : payload[1]? = some hsKindInit)
      (hWhy : q.session.isSome = true ∨ (q.hs.isSome = true ∧ NodeId.lt c.nodeId X)) :
      HsFrame payload q q []
  | rejectInit {e} (hKind : payload[1]? = some hsKindInit)
      (hReject : hsAccept A c.identity X payload env.eph = err e) (hSession : q.session = none)
      (hTurn : ¬ (q.hs.isSome = true ∧ NodeId.lt c.nodeId X)) : HsFrame payload q q []
  | accept {cipher resp q' out} (hKind : payload[1]? = some hsKindInit)
      (hSession : q.session = none) (hTurn : ¬ (q.hs.isSome = true ∧ NodeId.lt c.nodeId X))
      (hAccept : hsAccept A c.identity X payload env.eph = ok (cipher, resp))
      (hFlush : Flushes c env X q.pending
        { q with session := some cipher, hs := none, pending := [] } q' out) :
      HsFrame payload q q' (.send X resp :: out)
  | ignoreResp (hKind : payload[1]? = some hsKindResp)
      (hWhy : q.session.isSome = true ∨ q.hs = none) : HsFrame payload q q []
  -- here too the handshake is taken out first
  | rejectResp {hs e} (hKind : payload[1]? = some hsKindResp) (hSession : q.session = none)
      (hHs : q.hs = some hs) (hReject : hsFinish A c.identity hs payload = err e) :
      HsFrame payload q { q with hs := none } []
  | finish {hs cipher q' out} (hKind : payload[1]? = some hsKindResp) (hSession : q.session = none)
      (hHs : q.hs = some hs) (hFinish : hsFinish A c.identity hs payload = ok cipher)
      (hFlush : Flushes c env X q.pending
        { q with session := some cipher, hs := none, pending := [] } q' out) :
      HsFrame payload q q' out
  | unknown (hInit : payload[1]? ≠ some hsKindInit) (hResp : payload[1]? ≠ some hsKindResp) :
      HsFrame payload q q []

inductive CipherFrame (payload : Bytes) (q : PeerCore A) : PeerCore A → List Effect → Prop where
  | noSession (hSession : q.session = none) : CipherFrame payload q q []
  | undecryptable {s e} (hSession : q.session = some s)
      (hOpen : s.openText A c.build.overflowChecks payload = err e) : CipherFrame payload q q []
  | opens {s s' inner q' out} (hSession : q.session = some s)
      (hOpen : s.openText A c.build.overflowChecks payload = ok (inner, s'))
      (hHands : Hands c env X inner { q with session := some s' } q' out) :
      CipherFrame payload q q' out

/-- `on_relay_data`: the first byte tells what a payload is. -/
inductive Receives (payload : Bytes) (q : PeerCore A) : PeerCore A → List Effect → Prop where
  | gm {kind body q' out} (hBuild : c.build.gmPq = true)
      (hPayload : payload = [gmTag, kind] ++ body) (hFrame : GmFrame c env X kind body q q' out) :
      Receives payload q q' out
  | hs {q' out} (hTag : payload.head? = some hsTag) (hFrame : HsFrame c env X payload q q' out) :
      Receives payload q q' out
  | cipher {q' out} (hGm : ¬ (c.build.gmPq = true ∧ payload.head? = some gmTag))
      (hHs : payload.head? ≠ some hsTag) (hFrame : CipherFrame c env X payload q q' out) :
      Receives payload q q' out

/-- `on_gm_check`. -/
inductive Checks (gen : UInt64) (q : PeerCore A) : PeerCore A → List Effect → Prop where
  -- the timer of an earlier handshake, or of one that has ended
  | stale (hWhy : q.gmGen ≠ gen ∨ GmState.isReady q.gm = true ∨ q.gm = none) : Checks gen q q []
  | falls (hGen : q.gmGen = gen) (hReady : GmState.isReady q.gm = false) (hSome : q.gm ≠ none)
      (hNoNeed : ¬ (q.pending ≠ [] ∧ q.hs = none ∧ q.session = none)) :
      Checks gen q { q with gm := none, gmFailed := true } []
  | restarts (hGen : q.gmGen = gen) (hReady : GmState.isReady q.gm = false) (hSome : q.gm ≠ none)
      (hNeed : q.pending ≠ [] ∧ q.hs = none ∧ q.session = none) :
      Checks gen q
        { q with gm := none, gmFailed := true, hs := some (hsStart A c.identity X env.eph).1 }
        [.send X (hsStart A c.identity X env.eph).2]

end Machine

/-! ## Sending over a session -/

theorem PeerCore.phase_eq_idle {q : PeerCore A} : q.phase = .idle ↔ q.gm = none := by
  unfold phase
  cases q.gm with
  | none => simp [GmState.phase]
  | some g => cases g <;> simp [GmState.phase]

theorem PeerCore.isReady_iff {q : PeerCore A} : GmState.isReady q.gm = true ↔ q.phase = .ready := by
  unfold phase
  cases q.gm with
  | none => simp [GmState.phase, GmState.isReady]
  | some g => cases g <;> simp [GmState.phase, GmState.isReady]

theorem PeerCore.phase_eq_unbound {q : PeerCore A} :
    q.phase = .unbound ↔ ∃ session pk, q.gm = some (.readyUnbound session pk) := by
  unfold phase
  cases q.gm with
  | none => simp [GmState.phase]
  | some g => cases g <;> simp [GmState.phase]

theorem PeerCore.phase_eq_ready {q : PeerCore A} :
    q.phase = .ready ↔ ∃ session, q.gm = some (.ready session) := by
  unfold phase
  cases q.gm with
  | none => simp [GmState.phase]
  | some g => cases g <;> simp [GmState.phase]

theorem PeerCore.phase_of_gm {q : PeerCore A} {g : GmState A} (h : q.gm = some g) :
    q.phase = GmState.phase (some g) := by
  rw [phase, h]

/-- The two differ only in the counters of their sessions. -/
structure PeerCore.Alike (q q' : PeerCore A) : Prop where
  keys : q'.keys = q.keys
  phase : q'.phase = q.phase
  gmFailed : q'.gmFailed = q.gmFailed
  gmGen : q'.gmGen = q.gmGen
  hs : q'.hs = q.hs
  pending : q'.pending = q.pending

namespace PeerCore

variable {q q₁ q₂ : PeerCore A}

theorem Alike.refl (q : PeerCore A) : Alike q q := ⟨rfl, rfl, rfl, rfl, rfl, rfl⟩

theorem Alike.trans (h : Alike q q₁) (h' : Alike q₁ q₂) : Alike q q₂ :=
  ⟨h'.keys.trans h.keys, h'.phase.trans h.phase, h'.gmFailed.trans h.gmFailed,
    h'.gmGen.trans h.gmGen, h'.hs.trans h.hs, h'.pending.trans h.pending⟩

theorem keys_eq_none : q.keys = none ↔ q.session = none := Option.map_eq_none_iff

theorem Alike.session_eq_none (h : Alike q q₁) : q₁.session = none ↔ q.session = none := by
  rw [← keys_eq_none, h.keys, keys_eq_none]

theorem Alike.gm_eq_none (h : Alike q q₁) : q₁.gm = none ↔ q.gm = none := by
  rw [← phase_eq_idle, h.phase, phase_eq_idle]

end PeerCore

def NodeSetup.Carries (c : NodeSetup A) (q : PeerCore A) : Prop := q.session ≠ none ∨ c.UsesGm q

variable {c : NodeSetup A} {env : Env A} {X : NodeId} {q q' : PeerCore A} {out : List Effect}

theorem NodeSetup.usesGm_iff : c.UsesGm q ↔ c.build.gmPq = true ∧ q.phase = .ready := by
  unfold NodeSetup.UsesGm
  rw [PeerCore.isReady_iff]

theorem NodeSetup.carries_of_ready {session} (hBuild : c.build.gmPq = true)
    (h : q.gm = some (.ready session)) : c.Carries q :=
  .inr (usesGm_iff.mpr ⟨hBuild, PeerCore.phase_of_gm h⟩)

theorem NodeSetup.Carries.alike (h : c.Carries q) (hAlike : PeerCore.Alike q q') :
    c.Carries q' := by
  rcases h with h | h
  · exact .inl fun hNone => h (hAlike.session_eq_none.mp hNone)
  · right
    rw [NodeSetup.usesGm_iff] at h ⊢
    exact ⟨h.1, hAlike.phase.trans h.2⟩

theorem Sends.alike {inner} (h : Sends c env X inner q q' out) (hCarries : c.Carries q) :
    PeerCore.Alike q q' := by
  cases h with
  | gm hBuild hReady =>
    refine ⟨rfl, ?_, rfl, rfl, rfl, rfl⟩
    exact (PeerCore.phase_of_gm hReady).symm
  | sealed hGm hSession hSeal =>
    refine ⟨?_, rfl, rfl, rfl, rfl, rfl⟩
    rw [SessionCipher.sealText_ok hSeal, PeerCore.keys, PeerCore.keys, hSession]
    rfl
  | lost => exact .refl q
  | queued hGm hSession => exact (hCarries.elim (· hSession) hGm).elim

theorem Flushes.alike {inners} (h : Flushes c env X inners q q' out) (hCarries : c.Carries q) :
    PeerCore.Alike q q' := by
  induction h with
  | nil => exact .refl _
  | cons hFirst hRest ih =>
    have hSent := hFirst.alike hCarries
    exact hSent.trans (ih (hCarries.alike hSent))

theorem Hands.alike {inner} (h : Hands c env X inner q q' out) (hCarries : c.Carries q) :
    PeerCore.Alike q q' := by
  cases h with
  | ping hSends => exact hSends.alike hCarries
  | data | pong | nothing => exact .refl q

theorem CipherFrame.alike {payload} (h : CipherFrame c env X payload q q' out) :
    PeerCore.Alike q q' := by
  cases h with
  | noSession | undecryptable => exact .refl q
  | opens hSession hOpen hHands =>
    rename_i s s' inner
    have hOpened : PeerCore.Alike q { q with session := some s' } := by
      refine ⟨?_, rfl, rfl, rfl, rfl, rfl⟩
      rw [SessionCipher.openText_ok hOpen, PeerCore.keys, PeerCore.keys, hSession]
      rfl
    exact hOpened.trans (hHands.alike (.inl (by simp)))

/-! ## The receiving side of the X25519 session -/

def PeerCore.recv (q : PeerCore A) : Option (Fixed 32 × UInt64) :=
  q.session.map fun s => (s.recv, s.recvCtr)

/-- Nothing was received over the X25519 session, and no message was handed on. -/
def PeerCore.Unread (q q' : PeerCore A) (out : List Effect) : Prop :=
  q'.recv = q.recv ∧ ∀ source inner, .plain source inner ∉ out

theorem GmStarts.unread (h : GmStarts c env X q q' out) : q.Unread q' out := by
  cases h with
  | offer | fail | kick => exact ⟨rfl, by simp⟩

theorem Queues.unread {inner} (h : Queues c env X inner q q' out) : q.Unread q' out := by
  cases h with
  | gm _ _ hStarts => exact hStarts.unread
  | gmWaits | hs | hsWaits => exact ⟨rfl, by simp⟩

theorem Sends.unread {inner} (h : Sends c env X inner q q' out) : q.Unread q' out := by
  cases h with
  | gm | lost => exact ⟨rfl, by simp⟩
  | sealed _ hSession hSeal =>
    -- sealing moves the sending count only
    refine ⟨?_, by simp⟩
    rw [SessionCipher.sealText_ok hSeal, PeerCore.recv, PeerCore.recv, hSession]
    rfl
  | queued _ _ hQueues => exact hQueues.unread

theorem Flushes.recv_eq {inners} (h : Flushes c env X inners q q' out) : q'.recv = q.recv := by
  induction h with
  | nil => rfl
  | cons hFirst _ ih => exact ih.trans hFirst.unread.1

theorem Hands.handed {inner} (h : Hands c env X inner q q' out) :
    ∃ rest, out = .plain X inner :: rest ∧ q.Unread q' rest := by
  cases h with
  | data | pong | nothing => exact ⟨_, rfl, rfl, by simp⟩
  | ping hSends => exact ⟨_, rfl, hSends.unread⟩

theorem GmFrame.recv_eq {kind body} (h : GmFrame c env X kind body q q' out) :
    q'.recv = q.recv := by
  cases h with
  | start _ _ _ _ hStarts => exact hStarts.unread.1
  | bound _ _ _ _ _ hFlush => exact hFlush.recv_eq
  | data _ _ _ _ hHands =>
    obtain ⟨rest, -, hUnread⟩ := hHands.handed
    exact hUnread.1
  | _ => rfl

theorem HsFrame.eq_of_session {payload} (h : HsFrame c env X payload q q' out)
    (hSome : q.session ≠ none) : q' = q := by
  cases h with
  | accept _ hSession | rejectResp _ hSession | finish _ hSession => exact absurd hSession hSome
  | _ => rfl

theorem CipherFrame.recv_eq {payload key ctr} (h : CipherFrame c env X payload q q' out)
    (hRecv : q.recv = some (key, ctr)) :
    q'.recv = some (key, ctr) ∨ q'.recv = some (key, ctr + 1) := by
  cases h with
  | noSession | undecryptable => exact .inl hRecv
  | opens hSession hOpen hHands =>
    obtain ⟨rest, -, hUnread⟩ := hHands.handed
    right
    rw [hUnread.1, SessionCipher.openText_ok hOpen]
    rw [PeerCore.recv, hSession] at hRecv
    cases hRecv
    rfl

end DirectWire.Mesh
