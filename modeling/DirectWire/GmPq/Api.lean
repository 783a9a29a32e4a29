import DirectWire.GmPq.Channel
import DirectWire.GmPq.Tickets
import DirectWire.GmPq.Party

/-!
# GM-PQ — connecting and accepting

The rest of `api.rs`: the client's full and resumed handshake, and the server, which answers a
full one with a cookie first. What comes in on a stream is arbitrary; readings of the clock and
what the random source returns are arguments. The ticket cache outlives a call that fails.

```
  client                                server
  MSG1      e_i                   ->
            <-                          COOKIE
  MSG1_RETRY cookie ‖ e_i         ->
            <-                          MSG2  e_r ‖ ct_ee ‖ AEAD(s_r)
  MSG3                            ->
            <-                          ticket push

  MSG1_PSK  ticket ‖ e_i ‖ early  ->
            <-                          MSG2  flag ‖ e_r ‖ ct_ee ‖ AEAD(s_r)
```

`clientConnectResume_resumed` and `serverAccept_resumed` list what a resumed handshake has done.
-/

namespace DirectWire.GmPq

open Lib Outcome Party

/-! ## Frames -/

def tMsg1 : UInt8 := 0x01

def tCookie : UInt8 := 0x02

def tMsg1Retry : UInt8 := 0x03

def tMsg2 : UInt8 := 0x04

def tMsg3 : UInt8 := 0x05

def tMsg1Psk : UInt8 := 0x06

def tPskReject : UInt8 := 0x07

def ticketPushPrefix : Bytes := ascii "TKT1"

def lib {α : Type} : Outcome Error α → Outcome ApiError α
  | .ok a => ok a
  | .err e => err (.lib e)
  | .panic p => panic p

theorem lib_eq_ok {α : Type} {x : Outcome Error α} {a : α} : lib x = ok a ↔ x = ok a := by
  cases x <;> simp [lib]

/-- `type ‖ len ‖ payload`. -/
def writeFrame (s : Stream) (ty : UInt8) (payload : Bytes) : Stream :=
  ((s.writeAll [ty]).writeAll (lenBytes payload.length)).writeAll payload

def nextFrame (input : List Bytes) : Outcome ApiError ((UInt8 × Bytes) × List Bytes) :=
  match readExact 5 input with
  | (none, _) => err .io
  | (some hdr, input) =>
    let n := beNat (hdr.drop 1)
    if n > maxFrame then err (.lib (.invalidEncoding "frame length exceeds limit"))
    else
      match readExact n input with
      | (none, _) => err .io
      | (some buf, input) => do
        let ty ← index hdr 0
        ok ((ty, buf), input)

def readFrame (s : Stream) : Outcome ApiError ((UInt8 × Bytes) × Stream) := do
  let (frame, input) ← nextFrame s.input
  ok (frame, { s with input })

def expectFrame (s : Stream) (want : UInt8) : Outcome ApiError (Bytes × Stream) := do
  let ((got, payload), s) ← readFrame s
  if got ≠ want then
    err (.lib (.handshakeState "unexpected frame type (protocol disorder or injection)"))
  else ok (payload, s)

/-! ## Client -/

structure ClientOutcome where
  channel : SecureChannel
  /-- A ticket and its pre-shared key, for the next connection. -/
  resumption : Option (Bytes × Fixed 32)
  resumed : Bool
  earlyDataAccepted : Bool
deriving DecidableEq

structure ClientRand (K : Kem) where
  eph : K.Rand
  se : K.Rand
  ss : K.Rand

section Client

variable (P : Primitives)

def recvTicketPush (channel : SecureChannel) :
    Outcome ApiError (Option (Bytes × Fixed 32) × SecureChannel) :=
  match channel.recvMsg P with
  | .panic p => panic p
  | .ok (.error e, _) => err e
  | .ok (.ok msg, channel) =>
    if ticketPushPrefix.isPrefixOf msg then do
      let body := msg.drop ticketPushPrefix.length
      if body.length < 2 + 32 then
        err (.lib (.invalidEncoding "ticket push too short"))
      else
        let tlen := beNat (body.take 2)
        if body.length ≠ 2 + tlen + 32 then
          err (.lib (.invalidEncoding "ticket push length mismatch"))
        else
          let ticket ← slice body 2 (2 + tlen)
          let rest ← sliceFrom body (2 + tlen)
          let psk ← Fixed.ofBytes 32 rest
          ok (some (ticket, psk), channel)
    else err (.lib (.handshakeState "expected ticket push"))

variable {K : StaticAuth}

def clientConnectFull (rand : ClientRand K.toKem) (stream : Stream) (staticSk : K.SecretKey)
    (staticPk : Bytes) (anchor : TrustAnchor) : Outcome ApiError ClientOutcome := do
  let init : Initiator K.toKem := Initiator.new P staticSk staticPk
  let (ePk, init) ← lib (init.writeMsg1 P rand.eph)
  let stream := writeFrame stream tMsg1 ePk
  let (cookie, stream) ← expectFrame stream tCookie
  let stream := writeFrame stream tMsg1Retry (cookie ++ ePk)
  let (m2, stream) ← expectFrame stream tMsg2
  let init ← lib (init.readMsg2 P m2)
  let (m3, session, init) ← lib (init.writeMsg3WithAuth P rand.se rand.ss anchor)
  let stream := writeFrame stream tMsg3 m3
  let (resumption, channel) ←
    recvTicketPush P { stream, session, peerStatic := init.peerStatic.getD [] }
  ok { channel, resumption, resumed := false, earlyDataAccepted := false }

def sealEarly (init : Initiator K.toKem) : Option Bytes → Outcome Error (Bytes × Initiator K.toKem)
  | none => ok ([], init)
  | some ed => init.sealEarlyData P ed

/-- The client's resumption; a rejected ticket leads to a full handshake, with
new randomness. -/
def clientConnectResume (rand again : ClientRand K.toKem) (stream : Stream)
    (staticSk : K.SecretKey) (staticPk : Bytes) (anchor : TrustAnchor) (ticket : Bytes)
    (psk : Fixed 32) (earlyData : Option Bytes) : Outcome ApiError ClientOutcome := do
  let init : Initiator K.toKem := Initiator.newWithPsk P staticSk staticPk psk
  let (ePk, init) ← lib (init.writeMsg1 P rand.eph)
  let (encEarly, init) ← lib (sealEarly P init earlyData)
  let stream := writeFrame stream tMsg1Psk (ticket ++ ePk ++ encEarly)
  let ((ty, m2Raw), stream) ← readFrame stream
  if ty = tPskReject then
    let sk ← lib (okOr init.staticSk (.handshakeState "static secret key already consumed"))
    clientConnectFull P again stream sk init.staticPk anchor
  else if ty = tMsg2 then
    match m2Raw with
    | [] => err (.lib (.invalidEncoding "MSG2 missing early_accepted flag"))
    | accepted :: m2 =>
      let init ← lib (init.readMsg2 P m2)
      let (m3, session, init) ← lib (init.writeMsg3WithAuth P rand.se rand.ss anchor)
      let stream := writeFrame stream tMsg3 m3
      let (resumption, channel) ←
        recvTicketPush P { stream, session, peerStatic := init.peerStatic.getD [] }
      ok { channel, resumption, resumed := true, earlyDataAccepted := accepted == 1 }
  else err (.lib (.handshakeState "expected MSG2 or PSK_REJECT"))

end Client

/-! ## Server -/

structure ServerConfig where
  cookie : CookieIssuer
  tickets : TicketIssuer
  cache : TicketCache
  anchor : TrustAnchor
  clientTag : Bytes
  ticketTtlSecs : UInt64

structure ServerOutcome where
  channel : SecureChannel
  earlyData : Option Bytes
  resumed : Bool
deriving DecidableEq

structure ServerEnv (K : Kem) where
  eph : K.Rand
  ee : K.Rand
  psk : Fixed 32
  ticketId : Fixed 16
  nonce : Fixed 12
  cookieIssued : UInt64
  cookieChecked : UInt64
  ticketOpened : UInt64
  ticketChecked : UInt64
  ticketIssued : UInt64
  /-- The build's `overflow-checks` setting. -/
  checks : Bool

inductive ResumeAttempt where
  | done (out : ServerOutcome)
  /-- The ticket is not good; the stream goes back to the caller. -/
  | fallback (stream : Stream)

section Server

variable (P : Primitives) {K : StaticAuth} (env : ServerEnv K.toKem) (stream : Stream)
  (staticSk : K.SecretKey) (staticPk : Bytes) (cfg : ServerConfig)

def finishServer (session : Session) (clientPk : Bytes) (cfg : ServerConfig) :
    Outcome ApiError SecureChannel := do
  let (ticket, psk) ← cfg.tickets.issue P env.checks env.psk env.ticketId env.nonce
    env.ticketIssued clientPk cfg.ticketTtlSecs
  let push := ticketPushPrefix ++ beBytes 2 (UInt16.ofNat ticket.length).toNat ++ ticket ++ psk.val
  SecureChannel.sendMsg P { stream, session, peerStatic := clientPk } push

def cookieRoundtrip (ePk : Bytes) : Outcome ApiError (Bytes × Stream) := do
  let (retry, stream) ← expectFrame stream tMsg1Retry
  if retry.length < cookieLen then
    err (.lib (.invalidEncoding "MSG1_RETRY too short"))
  else if retry.drop cookieLen ≠ ePk then
    err (.lib (.handshakeState "echoed e_i differs from msg1"))
  else
    let _ ← lib (cfg.cookie.verify P env.checks env.cookieChecked cfg.clientTag ePk
      (retry.take cookieLen))
    ok (ePk, stream)

def fullHandshake (ePk : Bytes) : Outcome ApiError ServerOutcome := do
  let resp : Responder K.toKem := Responder.new P staticSk staticPk
  let resp ← lib (resp.readMsg1 P ePk)
  let (m2, resp) ← lib (resp.writeMsg2 P env.eph env.ee)
  let stream := writeFrame stream tMsg2 m2
  let (m3, stream) ← expectFrame stream tMsg3
  let ((session, clientPk), _) ← lib (resp.readMsg3WithAuth P m3 cfg.anchor)
  let channel ← finishServer P env stream session clientPk cfg
  ok { channel, earlyData := none, resumed := false }

/-- Message 1 is answered with a cookie, and only then with a handshake. -/
def challenge (ePk : Bytes) : Outcome ApiError ServerOutcome := do
  let cookie := cfg.cookie.issue P env.cookieIssued cfg.clientTag ePk
  let stream := writeFrame stream tCookie cookie
  let (ePk, stream) ← cookieRoundtrip P env stream cfg ePk
  fullHandshake P env stream staticSk staticPk cfg ePk

/-- Message 2 of a resumption, with the flag in front, and what follows it. -/
def answerResumption (ticket : TicketPayload) (resp : Responder K.toKem)
    (earlyData : Option Bytes) : Outcome ApiError ResumeAttempt := do
  let (m2, resp) ← lib (resp.writeMsg2 P env.eph env.ee)
  let flag : UInt8 := if earlyData.isSome then 1 else 0
  let stream := writeFrame stream tMsg2 (flag :: m2)
  let (m3, stream) ← expectFrame stream tMsg3
  let ((session, clientPk), _) ← lib (resp.readMsg3WithAuth P m3 cfg.anchor)
  -- a ticket in another client's hands was stolen
  if sm3 P [clientPk] ≠ ticket.clientPkFingerprint then err (.lib .peerAuth)
  else
    let channel ← finishServer P env stream session clientPk cfg
    ok (.done { channel, earlyData, resumed := true })

def resumeWith (ticket : TicketPayload) (ePk encEarly : Bytes) : Outcome ApiError ResumeAttempt :=
  match (Responder.newWithPsk P staticSk staticPk ticket.psk : Responder K.toKem).readMsg1
      P ePk with
  | .panic p => panic p
  | .err _ => ok (.fallback stream)
  | .ok resp =>
    if encEarly = [] then answerResumption P env stream cfg ticket resp none
    else
      match resp.openEarlyData P encEarly with
      | .panic p => panic p
      | .err _ => ok (.fallback stream)
      | .ok ed => answerResumption P env stream cfg ticket resp (some ed)

def tryResume (payload : Bytes) : Outcome ApiError ResumeAttempt × TicketCache :=
  if payload.length < ticketLen + K.publicKeyLen then (ok (.fallback stream), cfg.cache)
  else
    let rest := payload.drop ticketLen
    match cfg.tickets.openTicket P env.ticketOpened (payload.take ticketLen) with
    | .panic p => (panic p, cfg.cache)
    | .err _ => (ok (.fallback stream), cfg.cache)
    | .ok ticket =>
      match cfg.cache.checkAndInsert env.ticketChecked ticket.ticketId ticket.expiresAt with
      | (.error _, cache) => (ok (.fallback stream), cache)
      | (.ok _, cache) =>
        (resumeWith P env stream staticSk staticPk cfg ticket (rest.take K.publicKeyLen)
          (rest.drop K.publicKeyLen), cache)

def serverAccept : Outcome ApiError ServerOutcome × TicketCache :=
  match readFrame stream with
  | .panic p => (panic p, cfg.cache)
  | .err e => (err e, cfg.cache)
  | .ok ((ty, payload), stream) =>
    if ty = tMsg1 then (challenge P env stream staticSk staticPk cfg payload, cfg.cache)
    else if ty = tMsg1Psk then
      match tryResume P env stream staticSk staticPk cfg payload with
      | (.panic p, cache) => (panic p, cache)
      | (.err e, cache) => (err e, cache)
      | (.ok (.done out), cache) => (ok out, cache)
      | (.ok (.fallback stream), cache) =>
        (do
          let stream := writeFrame stream tPskReject []
          let (ePk, stream) ← expectFrame stream tMsg1
          challenge P env stream staticSk staticPk cfg ePk, cache)
    else (err (.lib (.handshakeState "expected MSG1 or MSG1_PSK")), cfg.cache)

end Server

/-! ## What a resumption has done -/

section Frames

variable {s s' : Stream}

theorem readFrame_eq_ok {frame} (h : readFrame s = ok (frame, s')) :
    nextFrame s.input = ok (frame, s'.input) := by
  obtain ⟨⟨frame, input⟩, hNext, h⟩ := bind_eq_ok.mp h
  cases h
  exact hNext

theorem expectFrame_eq_ok {want payload} (h : expectFrame s want = ok (payload, s')) :
    nextFrame s.input = ok ((want, payload), s'.input) := by
  obtain ⟨⟨⟨got, payload⟩, s₁⟩, hRead, h⟩ := bind_eq_ok.mp h
  dsimp only at h
  split at h
  · cases h
  · rename_i hWant
    cases h
    rw [← not_not.mp hWant]
    exact readFrame_eq_ok hRead

end Frames

section Resumed

variable {P : Primitives} {K : StaticAuth}

variable {channel : SecureChannel} {out : ClientOutcome} {rand : ClientRand K.toKem}
  {staticPk payload : Bytes} {staticSk : K.SecretKey} {stream stream₁ : Stream} {cfg : ServerConfig}
  {env : ServerEnv K.toKem} {ticket : TicketPayload}

theorem recvTicketPush_sessionId {channel' resumption}
    (h : recvTicketPush P channel = ok (resumption, channel')) :
    channel'.session.sessionId = channel.session.sessionId := by
  unfold recvTicketPush at h
  split at h
  · cases h
  · cases h
  · rename_i msg channel₁ hRecv
    rw [← SecureChannel.recvMsg_sessionId hRecv]
    split at h
    · dsimp only at h
      split at h
      · cases h
      · split at h
        · cases h
        · iterate 3 obtain ⟨_, -, h⟩ := bind_eq_ok.mp h
          cases h
          rfl
    · cases h

theorem clientConnectFull_resumed {anchor}
    (h : clientConnectFull P rand stream staticSk staticPk anchor = ok out) :
    out.resumed = false := by
  simp only [clientConnectFull] at h
  iterate 6 obtain ⟨_, -, h⟩ := bind_eq_ok.mp h
  cases h
  rfl

structure ClientResumed (P : Primitives) (rand : ClientRand K.toKem) (stream : Stream)
    (staticSk : K.SecretKey) (staticPk : Bytes) (anchor : TrustAnchor) (psk : Fixed 32)
    (earlyData : Option Bytes) (out : ClientOutcome) where
  ePk : Bytes
  encEarly : Bytes
  flag : UInt8
  m2 : Bytes
  m3 : Bytes
  (i₁ i₂ i₃ i₄ : Initiator K.toKem)
  session : Session
  wrote1 : (Initiator.create P staticSk staticPk (some psk)).writeMsg1 P rand.eph = ok (ePk, i₁)
  sealed : sealEarly P i₁ earlyData = ok (encEarly, i₂)
  frame : ∃ rest, nextFrame stream.input = ok ((tMsg2, flag :: m2), rest)
  read2 : i₂.readMsg2 P m2 = ok i₃
  wrote3 : i₃.writeMsg3WithAuth P rand.se rand.ss anchor = ok (m3, session, i₄)
  sessionId : out.channel.session.sessionId = session.sessionId
  accepted : out.earlyDataAccepted = (flag == 1)

theorem clientConnectResume_resumed {again anchor ticket psk earlyData}
    (h : clientConnectResume P rand again stream staticSk staticPk anchor ticket psk earlyData =
      ok out) (hResumed : out.resumed = true) :
    Nonempty (ClientResumed P rand stream staticSk staticPk anchor psk earlyData out) := by
  simp only [clientConnectResume] at h
  obtain ⟨⟨ePk, i₁⟩, hWrite1, h⟩ := bind_eq_ok.mp h
  obtain ⟨⟨encEarly, i₂⟩, hSeal, h⟩ := bind_eq_ok.mp h
  obtain ⟨⟨⟨ty, m2Raw⟩, stream₁⟩, hFrame, h⟩ := bind_eq_ok.mp h
  dsimp only at h
  split at h
  · -- a full handshake is not a resumption
    obtain ⟨sk, -, h⟩ := bind_eq_ok.mp h
    rw [clientConnectFull_resumed h] at hResumed
    cases hResumed
  · split at h
    · rename_i hTy
      split at h
      · cases h
      · rename_i flag m2
        obtain ⟨i₃, hRead2, h⟩ := bind_eq_ok.mp h
        obtain ⟨⟨m3, session, i₄⟩, hWrite3, h⟩ := bind_eq_ok.mp h
        obtain ⟨⟨resumption, channel⟩, hPush, h⟩ := bind_eq_ok.mp h
        cases h
        have hNext := readFrame_eq_ok hFrame
        rw [hTy] at hNext
        exact ⟨{
          ePk, encEarly, flag, m2, m3, i₁, i₂, i₃, i₄, session
          wrote1 := lib_eq_ok.mp hWrite1
          sealed := lib_eq_ok.mp hSeal
          frame := ⟨_, hNext⟩
          read2 := lib_eq_ok.mp hRead2
          wrote3 := lib_eq_ok.mp hWrite3
          sessionId := recvTicketPush_sessionId hPush
          accepted := rfl }⟩
    · cases h

theorem finishServer_spec {session clientPk}
    (h : finishServer P env stream session clientPk cfg = ok channel) :
    channel.session.sessionId = session.sessionId ∧ channel.peerStatic = clientPk := by
  obtain ⟨⟨ticket, psk⟩, -, hSend⟩ := bind_eq_ok.mp h
  obtain ⟨packet, hPacket, -⟩ := SecureChannel.sendMsg_spec hSend
  exact ⟨Session.send_sessionId hPacket, SecureChannel.sendMsg_peerStatic hSend⟩

theorem fullHandshake_resumed {ePk out}
    (h : fullHandshake P env stream staticSk staticPk cfg ePk = ok out) : out.resumed = false := by
  simp only [fullHandshake] at h
  iterate 5 obtain ⟨_, -, h⟩ := bind_eq_ok.mp h
  cases h
  rfl

theorem challenge_resumed {ePk : Bytes} {out : ServerOutcome}
    (h : challenge P env stream staticSk staticPk cfg ePk = ok out) : out.resumed = false := by
  simp only [challenge] at h
  obtain ⟨_, -, h⟩ := bind_eq_ok.mp h
  exact fullHandshake_resumed h

structure ServerResumed (P : Primitives) (env : ServerEnv K.toKem) (stream : Stream)
    (staticSk : K.SecretKey) (staticPk : Bytes) (cfg : ServerConfig) (out : ServerOutcome) where
  payload : Bytes
  ticket : TicketPayload
  m2 : Bytes
  m3 : Bytes
  (r₁ r₂ r₃ : Responder K.toKem)
  session : Session
  frames : ∃ rest rest', nextFrame stream.input = ok ((tMsg1Psk, payload), rest) ∧
    nextFrame rest = ok ((tMsg3, m3), rest')
  opened : cfg.tickets.openTicket P env.ticketOpened (payload.take ticketLen) = ok ticket
  read1 : (Responder.create P staticSk staticPk (some ticket.psk)).readMsg1 P
    ((payload.drop ticketLen).take K.publicKeyLen) = ok r₁
  /-- Early data that does not open is no early data: the server falls back. -/
  early : (payload.drop ticketLen).drop K.publicKeyLen = [] ∧ out.earlyData = none ∨
    (payload.drop ticketLen).drop K.publicKeyLen ≠ [] ∧ ∃ ed, out.earlyData = some ed ∧
      r₁.openEarlyData P ((payload.drop ticketLen).drop K.publicKeyLen) = ok ed
  wrote2 : r₁.writeMsg2 P env.eph env.ee = ok (m2, r₂)
  read3 : r₂.readMsg3WithAuth P m3 cfg.anchor = ok ((session, out.channel.peerStatic), r₃)
  fingerprint : sm3 P [out.channel.peerStatic] = ticket.clientPkFingerprint
  sessionId : out.channel.session.sessionId = session.sessionId

variable {env : ServerEnv K.toKem} {stream : Stream} {staticSk : K.SecretKey} {staticPk : Bytes}
  {cfg : ServerConfig} {out : ServerOutcome}

section

variable (hFrame : nextFrame stream.input = ok ((tMsg1Psk, payload), stream₁.input))
  (hTicket : cfg.tickets.openTicket P env.ticketOpened (payload.take ticketLen) = ok ticket)

include hFrame hTicket

theorem answerResumption_resumed {r₁ earlyData}
    (hRead1 : (Responder.create P staticSk staticPk (some ticket.psk)).readMsg1 P
      ((payload.drop ticketLen).take K.publicKeyLen) = ok r₁)
    (hEarly : (payload.drop ticketLen).drop K.publicKeyLen = [] ∧ earlyData = none ∨
      (payload.drop ticketLen).drop K.publicKeyLen ≠ [] ∧ ∃ ed, earlyData = some ed ∧
        r₁.openEarlyData P ((payload.drop ticketLen).drop K.publicKeyLen) = ok ed)
    (h : answerResumption P env stream₁ cfg ticket r₁ earlyData = ok (.done out)) :
    Nonempty (ServerResumed P env stream staticSk staticPk cfg out) := by
  simp only [answerResumption] at h
  obtain ⟨⟨m2, r₂⟩, hWrite2, h⟩ := bind_eq_ok.mp h
  obtain ⟨⟨m3, stream₂⟩, hFrame3, h⟩ := bind_eq_ok.mp h
  obtain ⟨⟨⟨session, clientPk⟩, r₃⟩, hRead3, h⟩ := bind_eq_ok.mp h
  split at h
  · cases h
  · rename_i hFingerprint
    obtain ⟨channel, hFinish, h⟩ := bind_eq_ok.mp h
    cases h
    obtain ⟨hSession, hPeer⟩ := finishServer_spec hFinish
    subst hPeer
    have hNext := expectFrame_eq_ok hFrame3
    exact ⟨{
      payload, ticket, m2, m3, r₁, r₂, r₃, session
      frames := ⟨_, _, hFrame, hNext⟩
      opened := hTicket
      read1 := hRead1
      early := hEarly
      wrote2 := lib_eq_ok.mp hWrite2
      read3 := lib_eq_ok.mp hRead3
      fingerprint := not_not.mp hFingerprint
      sessionId := hSession }⟩

theorem resumeWith_resumed (h : resumeWith P env stream₁ staticSk staticPk cfg ticket
      ((payload.drop ticketLen).take K.publicKeyLen)
      ((payload.drop ticketLen).drop K.publicKeyLen) = ok (.done out)) :
    Nonempty (ServerResumed P env stream staticSk staticPk cfg out) := by
  unfold resumeWith at h
  split at h
  · cases h
  · cases h
  · rename_i r₁ hRead1
    split at h
    · rename_i hNone
      exact answerResumption_resumed hFrame hTicket hRead1 (.inl ⟨hNone, rfl⟩) h
    · rename_i hSome
      split at h
      · cases h
      · cases h
      · rename_i ed hOpen
        exact answerResumption_resumed hFrame hTicket hRead1 (.inr ⟨hSome, ed, rfl, hOpen⟩) h

omit hTicket in
theorem tryResume_resumed
    (h : (tryResume P env stream₁ staticSk staticPk cfg payload).1 = ok (.done out)) :
    Nonempty (ServerResumed P env stream staticSk staticPk cfg out) := by
  unfold tryResume at h
  split at h
  · cases h
  · dsimp only at h
    split at h
    · cases h
    · cases h
    · rename_i ticket hTicket
      split at h
      · cases h
      · exact resumeWith_resumed hFrame hTicket h

end

theorem serverAccept_resumed (h : (serverAccept P env stream staticSk staticPk cfg).1 = ok out)
    (hResumed : out.resumed = true) :
    Nonempty (ServerResumed P env stream staticSk staticPk cfg out) := by
  unfold serverAccept at h
  split at h
  · cases h
  · cases h
  · rename_i ty payload stream₁ hRead
    have hNext := readFrame_eq_ok hRead
    split at h
    · rw [challenge_resumed h] at hResumed
      cases hResumed
    · split at h
      · rename_i hTy
        subst hTy
        split at h
        · cases h
        · cases h
        · rename_i out' cache hTry
          cases h
          exact tryResume_resumed hNext (congrArg Prod.fst hTry)
        · obtain ⟨_, -, h⟩ := bind_eq_ok.mp h
          rw [challenge_resumed h] at hResumed
          cases hResumed
      · cases h

def ServerResumed.replied (w : ServerResumed P env stream staticSk staticPk cfg out) :
    PartyRun P K where
  config := ⟨.responder, staticSk, staticPk, some w.ticket.psk⟩
  ops := [.readMsg1 ((w.payload.drop ticketLen).take K.publicKeyLen), .writeMsg2 env.eph env.ee]
  party := .replied w.r₂
  reached := by
    rw [start, exec_cons trivial (step_readMsg1 w.read1),
      exec_cons trivial (step_writeMsg2 w.wrote2)]
    rfl

def ServerResumed.run (w : ServerResumed P env stream staticSk staticPk cfg out) :
    PartyRun P K where
  config := ⟨.responder, staticSk, staticPk, some w.ticket.psk⟩
  ops := [.readMsg1 ((w.payload.drop ticketLen).take K.publicKeyLen), .writeMsg2 env.eph env.ee,
    .readMsg3 w.m3 (some cfg.anchor)]
  party := .accepted w.r₃ w.session
  reached := by
    rw [start, exec_cons trivial (step_readMsg1 w.read1),
      exec_cons trivial (step_writeMsg2 w.wrote2),
      exec_cons trivial (step_readMsg3 w.read3)]
    rfl

def ClientResumed.run {rand : ClientRand K.toKem} {anchor : TrustAnchor} {psk : Fixed 32}
    {earlyData : Option Bytes} {out : ClientOutcome}
    (w : ClientResumed P rand stream staticSk staticPk anchor psk earlyData out) :
    PartyRun P K where
  config := ⟨.initiator, staticSk, staticPk, some psk⟩
  ops := .writeMsg1 rand.eph :: (earlyData.toList.map .sealEarlyData ++
    [.readMsg2 w.m2, .writeMsg3 rand.se rand.ss (some anchor)])
  party := .connected w.i₄ w.session
  reached := by
    rw [start, exec_cons trivial (step_writeMsg1 w.wrote1)]
    have hRest : exec (step P ⟨.initiator, staticSk, staticPk, some psk⟩) Always
        (.offered w.i₂) [.readMsg2 w.m2, .writeMsg3 rand.se rand.ss (some anchor)] =
        some (.connected w.i₄ w.session) := by
      rw [exec_cons trivial (step_readMsg2 w.read2),
        exec_cons trivial (step_writeMsg3 w.wrote3)]
      rfl
    cases earlyData with
    | none =>
      have hSealed : ok (([] : Bytes), w.i₁) = ok (w.encEarly, w.i₂) := w.sealed
      have hSame : w.i₁ = w.i₂ := congrArg Prod.snd (ok.inj hSealed)
      rw [hSame]
      exact hRest
    | some ed =>
      have hSealed : w.i₁.sealEarlyData P ed = ok (w.encEarly, w.i₂) := w.sealed
      show exec _ Always _ (Op.sealEarlyData ed :: _) = _
      rw [exec_cons trivial (step_sealEarlyData rfl hSealed)]
      exact hRest

end Resumed

end DirectWire.GmPq
