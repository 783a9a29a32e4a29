import DirectWire.GmPq.Party
import DirectWire.GmPq.Total
import DirectWire.Mesh.Frames

/-!
# Mesh — which payloads crash a node

What can make a handler of the relay data plane panic are its counters and one slice. `Peer.Room n`
says that each counter of a peer can be raised `n` times. The slice is in `on_relay_data`: a
payload that is only the GM-PQ tag has no kind byte, and `&payload[2..]` is out of range.
-/

namespace DirectWire.Mesh

open Lib Outcome

variable {A : Algorithms} {n : Nat}

/-! ## Room -/

/-- The session of a channel has `n` sequence numbers left. -/
def GmState.Room (n : Nat) : GmState A → Prop
  | .readyUnbound session _ | .ready session => session.tx.txSeq.toNat + n < 2 ^ 64
  | _ => True

namespace Peer

/-- Each counter that sending to a peer raises can be raised `n` times. Where
overflow checks are off, only the sequence numbers of a channel run out. -/
structure Room (checks : Bool) (n : Nat) (p : Peer A) : Prop where
  fits : n < 2 ^ 64
  gm : ∀ g, p.gm = some g → g.Room n
  gen : checks = true → p.gmGen.toNat + n < 2 ^ 64
  send : checks = true → ∀ s, p.session = some s → s.sendCtr.toNat + n < 2 ^ 64

def CanOpen (checks : Bool) (p : Peer A) : Prop :=
  checks = true → ∀ s, p.session = some s → s.recvCtr.toNat + 1 < 2 ^ 64

variable {checks : Bool} {p : Peer A}

theorem Room.mono {m} (h : p.Room checks n) (hLe : m ≤ n) : p.Room checks m where
  fits := hLe.trans_lt h.fits
  gm g hg := by
    have hRoom := h.gm g hg
    cases g with
    -- only the two states with a session count packets
    | readyUnbound | ready =>
      simp only [GmState.Room] at hRoom ⊢
      omega
    | _ => trivial
  gen hChecks := by
    have := h.gen hChecks
    omega
  send hChecks s hs := by
    have := h.send hChecks s hs
    omega

theorem Room.withGm {g : GmState A} (h : p.Room checks n) (hGm : g.Room n) :
    Room checks n { p with gm := some g } :=
  ⟨h.fits, by rintro _ ⟨⟩; exact hGm, h.gen, h.send⟩

theorem Room.withSession {s} (h : p.Room checks n)
    (hSend : checks = true → s.sendCtr.toNat + n < 2 ^ 64) :
    Room checks n { p with session := some s } :=
  ⟨h.fits, h.gm, h.gen, by rintro hChecks _ ⟨⟩; exact hSend hChecks⟩

theorem new_returns (checks : Bool) {build : Build} {now : Instant} (hRoom : n < 2 ^ 64)
    (hNow : build.instantMin + 3600 * second ≤ now) :
    (new build now : Outcome Empty (Peer A)).Returns fun p =>
      p.Room checks n ∧ p.CanOpen checks ∧ p.pending = [] := by
  obtain ⟨paths, hPaths⟩ := exists_ok_of_noPanic (PathManager.noPanic_new.mpr hNow)
  simp only [new, hPaths, ok_bind]
  refine returns_ok ⟨⟨hRoom, ?_, ?_, ?_⟩, ?_, rfl⟩
  · rintro _ ⟨⟩
  · exact fun _ => by simpa using hRoom
  · rintro _ _ ⟨⟩
  · rintro _ _ ⟨⟩

end Peer

namespace Actor

variable {env : Env A} {a : Actor A} {pid source : NodeId} {p : Peer A}

def HasRoom (a : Actor A) (id : NodeId) (n : Nat) : Prop :=
  ∃ p, a.peers.lookup id = some p ∧ p.Room a.build.overflowChecks n

theorem hasRoom_setPeer (h : p.Room a.build.overflowChecks n) : (a.setPeer pid p).HasRoom pid n :=
  ⟨p, lookup_setPeer_self, h⟩

/-! ## Starting handshakes -/

theorem gmOffer_returns (hKem : A.kem.Total) (gm : GmIdentity A)
    (hPeer : a.peers.lookup pid = some p) (hRoom : p.Room a.build.overflowChecks n) :
    (a.gmOffer env gm pid).Returns (·.HasRoom pid n) := by
  simp only [gmOffer, getPeer_eq_ok.mpr hPeer, ok_bind]
  split
  · refine (GmPq.Initiator.noPanic_writeMsg1 hKem.toKem _ _).returns_attempt.bind fun offer _ => ?_
    split
    · exact returns_ok (hasRoom_setPeer (hRoom.withGm trivial))
    · exact returns_ok (hasRoom_setPeer ⟨hRoom.fits, hRoom.gm, hRoom.gen, hRoom.send⟩)
  · exact returns_ok (hasRoom_setPeer (hRoom.withGm trivial))

theorem gmArmTimer_returns (h : a.HasRoom pid (n + 1)) :
    (a.gmArmTimer pid).Returns (·.HasRoom pid n) := by
  obtain ⟨p, hPeer, hRoom⟩ := h
  -- `gm_gen += 1`, the only counter a handshake takes a number of
  have hGen : a.build.overflowChecks = true → p.gmGen.toNat + 1 < 2 ^ 64 := fun hChecks => by
    have := hRoom.gen hChecks
    omega
  have hNoPanic : (addU64 a.build.overflowChecks p.gmGen 1 : Outcome Empty UInt64).NoPanic :=
    noPanic_addU64.mpr hGen
  obtain ⟨gen, hAdd⟩ := exists_ok_of_noPanic hNoPanic
  cases addU64_eq_ok hAdd
  simp only [gmArmTimer, getPeer_eq_ok.mpr hPeer, ok_bind, hAdd]
  have hKeep := hRoom.mono (Nat.le_succ n)
  refine returns_ok (hasRoom_setPeer ⟨hKeep.fits, hKeep.gm, fun hChecks => ?_, hKeep.send⟩)
  have hNext := toNat_add_one (hGen hChecks)
  have := hRoom.gen hChecks
  dsimp only
  omega

theorem gmStart_returns (hKem : A.kem.Total) (h : a.HasRoom pid (n + 1)) :
    (a.gmStart env pid).Returns (·.HasRoom pid n) := by
  obtain ⟨p, hPeer, hRoom⟩ := h
  have hSame : a.HasRoom pid n := ⟨p, hPeer, hRoom.mono (Nat.le_succ n)⟩
  unfold gmStart
  split
  · exact returns_ok hSame
  · simp only [getPeer_eq_ok.mpr hPeer, ok_bind]
    split
    · exact returns_ok hSame
    · exact (gmOffer_returns hKem _ hPeer hRoom).bind fun _ hOffer => gmArmTimer_returns hOffer

theorem hsBegin_returns (h : a.HasRoom pid n) : (a.hsBegin env pid).Returns (·.HasRoom pid n) := by
  obtain ⟨p, hPeer, hRoom⟩ := h
  simp only [hsBegin, getPeer_eq_ok.mpr hPeer, ok_bind]
  split
  · exact returns_ok (hasRoom_setPeer ⟨hRoom.fits, hRoom.gm, hRoom.gen, hRoom.send⟩)
  · exact returns_ok ⟨p, hPeer, hRoom⟩

/-! ## Sending -/

variable {session : GmPq.Session} {cipher : SessionCipher}

theorem send_returns (plaintext : Bytes) (hSeq : session.tx.txSeq.toNat + (n + 1) < 2 ^ 64) :
    (session.send A.gm plaintext : Outcome Empty _).Returns
      fun r => r.2.tx.txSeq.toNat + n < 2 ^ 64 := by
  obtain ⟨⟨pkt, session'⟩, hSend⟩ := exists_ok_of_noPanic
    (GmPq.Session.noPanic_send (P := A.gm) (ε := Empty) (s := session) plaintext (by omega))
  refine ⟨_, hSend, ?_⟩
  have hNext := (GmPq.Session.send_spec hSend).2.1
  dsimp only
  omega

theorem queueInner_returns (hKem : A.kem.Total) (inner : Bytes)
    (hPeer : a.peers.lookup pid = some p) (hRoom : p.Room a.build.overflowChecks (n + 1)) :
    (a.queueInner env pid inner).Returns (·.HasRoom pid n) := by
  simp only [queueInner, getPeer_eq_ok.mpr hPeer, ok_bind]
  have hQueued : Peer.Room a.build.overflowChecks (n + 1)
      { p with pending := p.pending ++ [inner] } :=
    ⟨hRoom.fits, hRoom.gm, hRoom.gen, hRoom.send⟩
  split
  · split
    · exact gmStart_returns hKem (hasRoom_setPeer hQueued)
    · exact returns_ok (hasRoom_setPeer (hQueued.mono (Nat.le_succ n)))
  · exact hsBegin_returns (hasRoom_setPeer (hQueued.mono (Nat.le_succ n)))

theorem ensurePeer_known (hPeer : a.peers.lookup pid = some p) : a.ensurePeer env pid = ok a := by
  rw [ensurePeer, hPeer]

theorem relaySendInner_returns (hKem : A.kem.Total) (inner : Bytes) (h : a.HasRoom pid (n + 1)) :
    (a.relaySendInner env pid inner).Returns (·.HasRoom pid n) := by
  obtain ⟨p, hPeer, hRoom⟩ := h
  have hKeep := hRoom.mono (Nat.le_succ n)
  simp only [relaySendInner, ensurePeer_known hPeer, getPeer_eq_ok.mpr hPeer, ok_bind]
  split
  · -- over the GM-PQ session
    rename_i session hReady
    have hSeq := hRoom.gm _ (gmReady_eq_some hReady).2
    refine (send_returns inner hSeq).bind fun r hNext => ?_
    exact returns_ok (hasRoom_setPeer (hKeep.withGm hNext))
  · -- over the X25519 session
    rename_i sess _ hSession
    have hCtr : a.build.overflowChecks = true → sess.sendCtr.toNat + 1 < 2 ^ 64 := fun hChecks => by
      have := hRoom.send hChecks sess hSession
      omega
    refine (sess.noPanic_sealText inner hCtr).returns_attempt.bind fun sealed hSealed => ?_
    split
    · cases SessionCipher.sealText_ok (hSealed _ rfl)
      refine returns_ok (hasRoom_setPeer (hKeep.withSession fun hChecks => ?_))
      have := hRoom.send hChecks sess hSession
      rw [toNat_add_one (hCtr hChecks)]
      omega
    · exact returns_ok ⟨p, hPeer, hKeep⟩
  · exact queueInner_returns hKem inner hPeer hRoom

theorem sendAll_returns (hKem : A.kem.Total) (inners : List Bytes)
    (h : a.HasRoom pid (inners.length + n)) :
    (a.sendAll env pid inners).Returns (·.HasRoom pid n) := by
  -- one number of each counter per message, so the room shrinks with the list
  induction inners generalizing a with
  | nil => exact returns_ok (by simpa using h)
  | cons inner rest ih =>
    have hNext : a.HasRoom pid (rest.length + n + 1) := by
      rw [List.length_cons, Nat.add_right_comm] at h
      exact h
    exact (relaySendInner_returns hKem inner hNext).bind fun b hb => ih hb

theorem flushPending_returns (hKem : A.kem.Total) (hPeer : a.peers.lookup pid = some p)
    (hRoom : p.Room a.build.overflowChecks (p.pending.length + n)) :
    (a.flushPending env pid).Returns (·.HasRoom pid n) := by
  simp only [flushPending, getPeer_eq_ok.mpr hPeer, ok_bind]
  exact sendAll_returns hKem _ (hasRoom_setPeer ⟨hRoom.fits, hRoom.gm, hRoom.gen, hRoom.send⟩)

/-! ## Decrypted messages -/

theorem onPong_returns (id : UInt64) (h : a.HasRoom source n) :
    (a.onPong env source id).Returns (·.HasRoom source n) := by
  obtain ⟨p, hPeer, hRoom⟩ := h
  simp only [onPong, getPeer_eq_ok.mpr hPeer, ok_bind]
  split
  · exact returns_ok ⟨p, hPeer, hRoom⟩
  · -- a sample moves no counter
    split <;> exact returns_ok (hasRoom_setPeer ⟨hRoom.fits, hRoom.gm, hRoom.gen, hRoom.send⟩)

theorem onPlainInner_returns (hKem : A.kem.Total) (inner : Bytes) (h : a.HasRoom source (n + 1)) :
    (a.onPlainInner env source inner).Returns (·.HasRoom source n) := by
  have hRoom : (a.addEffect (.plain source inner)).HasRoom source (n + 1) := h
  have hKeep : (a.addEffect (.plain source inner)).HasRoom source n := by
    obtain ⟨p, hPeer, hRoom⟩ := hRoom
    exact ⟨p, hPeer, hRoom.mono (Nat.le_succ n)⟩
  simp only [onPlainInner]
  split
  · rename_i hHead
    -- a message with a first byte has something from its second byte on
    have hLen : 1 ≤ inner.length := by
      cases inner with
      | nil => cases hHead
      | cons => simp
    obtain ⟨payload, hPayload⟩ := exists_ok_of_noPanic (noPanic_sliceFrom.mpr hLen)
    rw [hPayload, ok_bind]
    exact returns_ok hKeep
  · split
    · rename_i hPing
      have hSlice : (slice inner 1 9 : Outcome Empty Bytes).NoPanic :=
        noPanic_slice.mpr ⟨by omega, hPing.2⟩
      obtain ⟨id, hId⟩ := exists_ok_of_noPanic hSlice
      rw [hId, ok_bind]
      exact relaySendInner_returns hKem _ hRoom
    · split
      · rename_i hPong
        have hSlice : (sliceArray inner 1 8 : Outcome Empty (Fixed 8)).NoPanic :=
          noPanic_sliceArray.mpr hPong.2
        obtain ⟨id, hId⟩ := exists_ok_of_noPanic hSlice
        rw [hId, ok_bind]
        exact onPong_returns _ hKeep
      · exact returns_ok hKeep

/-! ## GM-PQ frames -/

theorem setGm_eq {g} (hPeer : a.peers.lookup source = some p) :
    a.setGm source g = ok (a.setPeer source { p with gm := some g }) := by
  rw [setGm, getPeer_eq_ok.mpr hPeer, ok_bind]

theorem onGmKick_noPanic (hKem : A.kem.Total) (h : a.HasRoom source 1) :
    (a.onGmKick env source).NoPanic := by
  obtain ⟨p, hPeer, hRoom⟩ := h
  simp only [onGmKick, getPeer_eq_ok.mpr hPeer, ok_bind]
  split
  · split
    · exact (gmStart_returns hKem ⟨p, hPeer, hRoom⟩).noPanic
    · exact noPanic_ok _
  · exact noPanic_ok _

theorem onGmMsg1_noPanic (body : Bytes) (hId : a.gmId.isSome)
    (hPeer : a.peers.lookup source = some p) : (a.onGmMsg1 env source body).NoPanic := by
  obtain ⟨issuer, hIssuer⟩ := Option.isSome_iff_exists.mp (a.cookie_of_id hId)
  simp only [onGmMsg1, getPeer_eq_ok.mpr hPeer, ok_bind, hIssuer, unwrap_some]
  split
  · exact noPanic_ok _
  · split <;> exact noPanic_ok _

theorem onGmCookie_noPanic (body : Bytes) (hPeer : a.peers.lookup source = some p) :
    (a.onGmCookie source body).NoPanic := by
  simp only [onGmCookie, takeGm_eq hPeer, ok_bind]
  split
  · rw [setGm_eq lookup_setPeer_self, ok_bind]
    exact noPanic_ok _
  · exact noPanic_ok _

theorem cookieEchoed_noPanic (ePk body : Bytes) (hId : a.gmId.isSome) :
    (a.cookieEchoed env source ePk body).NoPanic := by
  obtain ⟨issuer, hIssuer⟩ := Option.isSome_iff_exists.mp (a.cookie_of_id hId)
  -- the check adds five seconds to the clock
  have hClock : env.unixSecs.toNat + 5 < 2 ^ 64 := by
    have := env.unixSecs_lt
    omega
  unfold cookieEchoed
  split
  · exact noPanic_ok _
  · rename_i hLen
    simp only [noPanic_bind, noPanic_slice, noPanic_sliceFrom, hIssuer, unwrap_some, ok_bind]
    refine ⟨⟨by omega, by omega⟩, fun echo _ => ⟨by omega, fun ePk2 _ => ?_⟩⟩
    split
    · exact noPanic_ok _
    · simp only [noPanic_bind, noPanic_attempt]
      exact ⟨issuer.noPanic_verify _ _ _ hClock, fun _ _ => noPanic_ok _⟩

theorem gmRespond_noPanic (hKem : A.kem.Total) (gm : GmIdentity A) (ePk : Bytes) :
    (gmRespond env gm ePk).NoPanic := by
  simp only [gmRespond, noPanic_bind]
  exact ⟨GmPq.Responder.noPanic_readMsg1 hKem.toKem _ _,
    fun _ _ => GmPq.Responder.noPanic_writeMsg2 hKem.toKem _ _ _⟩

theorem onGmMsg1Retry_noPanic (hKem : A.kem.Total) (body : Bytes) (hId : a.gmId.isSome)
    (hPeer : a.peers.lookup source = some p) : (a.onGmMsg1Retry env source body).NoPanic := by
  obtain ⟨gm, hGm⟩ := Option.isSome_iff_exists.mp hId
  simp only [onGmMsg1Retry, takeGm_eq hPeer, ok_bind]
  split
  · refine noPanic_bind.mpr ⟨cookieEchoed_noPanic _ body hId, fun _ _ => ?_⟩
    split
    · exact noPanic_ok _
    · have hGm' : (a.setPeer source { p with gm := none }).gmId = some gm := hGm
      rw [hGm', unwrap_some, ok_bind]
      refine noPanic_bind.mpr ⟨noPanic_attempt.mpr (gmRespond_noPanic hKem gm _), fun m2 _ => ?_⟩
      split
      · rw [setGm_eq lookup_setPeer_self, ok_bind]
        exact noPanic_ok _
      · exact noPanic_ok _
  · exact noPanic_ok _

theorem anchor_noPanic (role : GmPq.Role) (pk : Bytes) : (a.anchor role pk).NoPanic := by
  unfold anchor
  cases a.gmAnchor with
  | none => exact noPanic_ok _
  | some =>
    simp only [GmPq.PinFileAnchor.verify]
    split
    · exact noPanic_ok _
    · exact noPanic_err _

theorem bindSession_noPanic {key} (hId : a.gmId.isSome) (hNew : session.tx = GmPq.Aead.new key) :
    (a.bindSession session).NoPanic := by
  obtain ⟨gm, hGm⟩ := Option.isSome_iff_exists.mp hId
  rw [bindSession, hGm, unwrap_some, ok_bind]
  exact GmPq.Session.noPanic_send _ (by simp [hNew, GmPq.Aead.new])

theorem onGmMsg2_noPanic (hKem : A.kem.Total) (body : Bytes) (hId : a.gmId.isSome)
    (hPeer : a.peers.lookup source = some p) : (a.onGmMsg2 env source body).NoPanic := by
  simp only [onGmMsg2, takeGm_eq hPeer, ok_bind]
  split
  · rename_i init _
    -- message 2 stores the key that message 3 unwraps
    have hRes : (do
        let init ← init.readMsg2 A.gm body
        GmPq.Initiator.writeMsg3WithAuth A.gm init env.rand₁ env.rand₂
          (a.setPeer source { p with gm := none }).anchor).NoPanic :=
      noPanic_bind.mpr ⟨GmPq.Initiator.noPanic_readMsg2 hKem.toKem _ _, fun _ hRead => by
        obtain ⟨ctEe, ee, -, rfl⟩ := GmPq.Initiator.readMsg2_state hRead
        exact GmPq.Initiator.noPanic_writeMsg3WithAuth hKem rfl _ _ anchor_noPanic⟩
    refine hRes.returns_attempt.noPanic_bind fun res hOk => ?_
    split
    · obtain ⟨init₂, -, hWrite⟩ := bind_eq_ok.mp (hOk _ rfl)
      -- the session is new, so BIND is its packet number zero
      obtain ⟨_, _, _, _, _, hNew, -⟩ :=
        GmPq.Party.writeMsg3_spec (show GmPq.Party.writeMsg3 A.gm _ _ _ (some _) = _ from hWrite)
      refine noPanic_bind.mpr ⟨bindSession_noPanic hId hNew, fun r _ => ?_⟩
      rw [setGm_eq lookup_setPeer_self, ok_bind]
      exact noPanic_ok _
    · exact noPanic_ok _
  · exact noPanic_ok _

theorem onGmMsg3_noPanic (hKem : A.kem.Total) (body : Bytes) (hId : a.gmId.isSome)
    (hPeer : a.peers.lookup source = some p) : (a.onGmMsg3 source body).NoPanic := by
  simp only [onGmMsg3, takeGm_eq hPeer, ok_bind]
  split
  · rename_i resp _
    have hRes : (GmPq.Responder.readMsg3WithAuth A.gm resp body
        (a.setPeer source { p with gm := none }).anchor).NoPanic :=
      GmPq.Responder.noPanic_readMsg3WithAuth hKem _ _ anchor_noPanic
    refine hRes.returns_attempt.noPanic_bind fun res hOk => ?_
    split
    · rename_i _ session clientPk resp'
      have hRead : GmPq.Party.readMsg3 A.gm resp body
          (some (a.setPeer source { p with gm := none }).anchor) = ok (session, resp') := by
        simp only [GmPq.Party.readMsg3, hOk _ rfl, ok_bind]
      obtain ⟨_, -, hNew, -⟩ := GmPq.Party.readMsg3_spec hRead
      refine noPanic_bind.mpr ⟨bindSession_noPanic hId hNew, fun r _ => ?_⟩
      rw [setGm_eq lookup_setPeer_self, ok_bind]
      exact noPanic_ok _
    · exact noPanic_ok _
  · exact noPanic_ok _

theorem promoteGm_room {gm : Option (GmState A)} (h : ∀ g, gm = some g → g.Room n) :
    ∀ g, promoteGm gm = some g → g.Room n := by
  intro g hg
  unfold promoteGm at hg
  split at hg
  · rename_i session peerGmPk
    cases hg
    exact h (.readyUnbound session peerGmPk) rfl
  · cases hg

theorem gmBound_noPanic (hKem : A.kem.Total) (hPeer : a.peers.lookup source = some p)
    (hRoom : p.Room a.build.overflowChecks p.pending.length) : (a.gmBound env source).NoPanic := by
  simp only [gmBound, getPeer_eq_ok.mpr hPeer, ok_bind]
  apply Returns.noPanic (Q := (·.HasRoom source 0))
  exact flushPending_returns hKem lookup_setPeer_self
    ⟨hRoom.fits, promoteGm_room hRoom.gm, hRoom.gen, hRoom.send⟩

theorem recv_returns (session : GmPq.Session) (packet : Bytes) :
    (session.recv A.gm packet : Outcome Empty _).Returns fun r => r.2.tx = session.tx := by
  obtain ⟨⟨received, session'⟩, hRecv⟩ := exists_ok_of_noPanic
    (GmPq.Session.noPanic_recv (P := A.gm) session packet)
  exact ⟨_, hRecv, (GmPq.Session.recv_spec hRecv).1⟩

theorem onGmDataUnbound_noPanic (hKem : A.kem.Total) (peerGmPk body : Bytes)
    (hPeer : a.peers.lookup source = some p)
    (hRoom : p.Room a.build.overflowChecks p.pending.length)
    (hGm : p.gm = some (.readyUnbound session peerGmPk)) :
    (a.onGmDataUnbound env source session peerGmPk body).NoPanic := by
  simp only [onGmDataUnbound]
  refine (recv_returns session body).noPanic_bind fun r hTx => ?_
  obtain ⟨received, session'⟩ := r
  simp only [setGm_eq hPeer, ok_bind]
  split
  · split
    · refine noPanic_bind.mpr ⟨noPanic_attempt.mpr (noPanic_parseBind _ _ _ _ _), fun _ _ => ?_⟩
      split
      · -- the messages that waited are sent now, one number each; receiving moves the window
        -- and not the sending count
        have hSeq := hRoom.gm _ hGm
        simp only [GmState.Room, ← hTx] at hSeq
        exact gmBound_noPanic hKem lookup_setPeer_self (hRoom.withGm hSeq)
      · exact noPanic_ok _
    · exact noPanic_ok _
  · exact noPanic_ok _

theorem onGmData_noPanic (hKem : A.kem.Total) (body : Bytes)
    (hPeer : a.peers.lookup source = some p)
    (hRoom : p.Room a.build.overflowChecks (p.pending.length + 1)) :
    (a.onGmData env source body).NoPanic := by
  simp only [onGmData, getPeer_eq_ok.mpr hPeer, ok_bind]
  split
  · rename_i session peerGmPk hGm
    exact onGmDataUnbound_noPanic hKem _ _ hPeer (hRoom.mono (Nat.le_succ _)) hGm
  · rename_i session hGm
    refine (recv_returns session body).noPanic_bind fun r hTx => ?_
    obtain ⟨received, session'⟩ := r
    simp only [setGm_eq hPeer, ok_bind]
    split
    · -- one answer at most, to a ping
      have hOne := hRoom.mono (Nat.le_add_left 1 _)
      have hSeq := hOne.gm _ hGm
      simp only [GmState.Room, ← hTx] at hSeq
      apply Returns.noPanic (Q := (·.HasRoom source 0))
      exact onPlainInner_returns hKem _ (hasRoom_setPeer (hOne.withGm hSeq))
    · exact noPanic_ok _
  · exact noPanic_ok _

theorem onGmFrame_noPanic (hKem : A.kem.Total) (kind : UInt8) (body : Bytes)
    (hPeer : a.peers.lookup source = some p)
    (hRoom : p.Room a.build.overflowChecks (p.pending.length + 1)) :
    (a.onGmFrame env source kind body).NoPanic := by
  have hOne : a.HasRoom source 1 := ⟨p, hPeer, hRoom.mono (Nat.le_add_left 1 _)⟩
  refine onGmFrame_elim (Q := NoPanic) kind body ?_ ?_ ?_ ?_ ?_ ?_ ?_ ?_
  · exact noPanic_ok _
  · exact onGmKick_noPanic hKem hOne
  · exact fun hId => onGmMsg1_noPanic body hId hPeer
  · exact onGmCookie_noPanic body hPeer
  · exact fun hId => onGmMsg1Retry_noPanic hKem body hId hPeer
  · exact fun hId => onGmMsg2_noPanic hKem body hId hPeer
  · exact fun hId => onGmMsg3_noPanic hKem body hId hPeer
  · exact onGmData_noPanic hKem body hPeer hRoom

/-! ## Relay data -/

theorem derive_sendCtr (shared : Fixed 32) (i r : NodeId) (role : HsRole) :
    (derive A shared i r role).sendCtr = 0 := by
  cases role <;> rfl

theorem sessionReady_noPanic (hKem : A.kem.Total)
    (hPeer : a.peers.lookup source = some { p with session := some cipher, hs := none })
    (hNew : cipher.sendCtr = 0) (hRoom : p.Room a.build.overflowChecks p.pending.length) :
    (a.sessionReady env source).NoPanic := by
  have hSession : Peer.Room a.build.overflowChecks p.pending.length
      { p with session := some cipher, hs := none } := by
    refine ⟨hRoom.fits, hRoom.gm, hRoom.gen, ?_⟩
    rintro _ _ ⟨⟩
    -- a session that starts at zero has room for whatever fits a counter
    rw [hNew, UInt64.toNat_zero, Nat.zero_add]
    exact hRoom.fits
  apply Returns.noPanic (Q := (·.HasRoom source 0))
  exact flushPending_returns hKem hPeer hSession

theorem onHandshake_noPanic (hKem : A.kem.Total) (payload : Bytes)
    (hPeer : a.peers.lookup source = some p)
    (hRoom : p.Room a.build.overflowChecks p.pending.length) :
    (a.onHandshake env source payload).NoPanic := by
  unfold onHandshake
  split
  · simp only [onHsInit, getPeer_eq_ok.mpr hPeer, ok_bind]
    split
    · exact noPanic_ok _
    split
    · exact noPanic_ok _
    refine (noPanic_hsAccept A a.identity source payload env.eph).returns_attempt.noPanic_bind
      fun accepted hAccepted => ?_
    split
    · obtain ⟨peerPub, sig, -, -, rfl, -⟩ := hsAccept_eq_ok.mp (hAccepted _ rfl)
      exact sessionReady_noPanic hKem lookup_setPeer_self (derive_sendCtr ..) hRoom
    · exact noPanic_ok _
  split
  · simp only [onHsResp, getPeer_eq_ok.mpr hPeer, ok_bind]
    split
    · exact noPanic_ok _
    split
    · exact noPanic_ok _
    rename_i hs _
    refine (noPanic_hsFinish A a.identity hs payload).returns_attempt.noPanic_bind
      fun finished hFinished => ?_
    split
    · obtain ⟨peerPub, sig, -, -, rfl⟩ := hsFinish_eq_ok.mp (hFinished _ rfl)
      exact sessionReady_noPanic hKem lookup_setPeer_self (derive_sendCtr ..) hRoom
    · exact noPanic_ok _
  · exact noPanic_ok _

theorem onCiphertext_noPanic (hKem : A.kem.Total) (payload : Bytes)
    (hPeer : a.peers.lookup source = some p) (hRoom : p.Room a.build.overflowChecks 1)
    (hOpen : p.CanOpen a.build.overflowChecks) :
    (a.onCiphertext env source payload).NoPanic := by
  simp only [onCiphertext, getPeer_eq_ok.mpr hPeer, ok_bind]
  split
  · exact noPanic_ok _
  · rename_i sess hSession
    have hCtr := fun hChecks => hOpen hChecks sess hSession
    refine (sess.noPanic_openText payload hCtr).returns_attempt.noPanic_bind
      fun opened hOpened => ?_
    split
    · cases SessionCipher.openText_ok (hOpened _ rfl)
      have hSend := fun hChecks => hRoom.send hChecks sess hSession
      apply Returns.noPanic (Q := (·.HasRoom source 0))
      exact onPlainInner_returns hKem _ (hasRoom_setPeer (hRoom.withSession hSend))
    · exact noPanic_ok _

/-- One more payload can be taken from a peer: a known one has a number for
every message that waits and one more, and a new one can be set up. -/
structure CanTake (env : Env A) (a : Actor A) (source : NodeId) : Prop where
  known : ∀ p, a.peers.lookup source = some p →
    p.Room a.build.overflowChecks (p.pending.length + 1) ∧ p.CanOpen a.build.overflowChecks
  unknown : a.peers.lookup source = none → a.build.instantMin + 3600 * second ≤ env.now

theorem ensurePeer_returns (h : a.CanTake env source) :
    (a.ensurePeer env source).Returns fun b => b.build = a.build ∧
      ∃ p, b.peers.lookup source = some p ∧
        p.Room b.build.overflowChecks (p.pending.length + 1) ∧
        p.CanOpen b.build.overflowChecks := by
  -- the room of a known peer is assumed, a new one starts with all of it
  cases hPeer : a.peers.lookup source with
  | some p =>
    rw [ensurePeer_known hPeer]
    exact returns_ok ⟨rfl, p, hPeer, h.known p hPeer⟩
  | none =>
    simp only [ensurePeer, hPeer]
    have hNew := Peer.new_returns (A := A) a.build.overflowChecks (show 1 < 2 ^ 64 by decide)
      (h.unknown hPeer)
    refine hNew.bind fun p ⟨hRoom, hOpen, hPending⟩ => returns_ok ⟨rfl, p, lookup_setPeer_self, ?_⟩
    rw [hPending]
    exact ⟨hRoom, hOpen⟩

theorem two_le_length {payload : Bytes} (hTag : payload.head? = some gmTag)
    (hMore : payload ≠ [gmTag]) : 2 ≤ payload.length := by
  match payload, hTag, hMore with
  | [_], hTag, hMore =>
    cases hTag
    exact absurd rfl hMore
  | _ :: _ :: _, _, _ => simp

/-- **Payloads that crash a node.** The KEM does not panic (`hKem`), and clock and counters have
room for what a payload may need (`CanTake`). Then `on_relay_data` returns, whatever the state of
the peer, except for one payload in a build with GM-PQ: the tag alone. -/
theorem onRelayData_noPanic_iff (hKem : A.kem.Total) (payload : Bytes)
    (hTake : a.CanTake env source) :
    (a.onRelayData env source payload).NoPanic ↔ ¬ (a.build.gmPq = true ∧ payload = [gmTag]) := by
  obtain ⟨b, hEnsure, hBuild, p, hPeer, hRoom, hOpen⟩ := ensurePeer_returns hTake
  simp only [onRelayData, hEnsure, ok_bind, hBuild]
  constructor
  · rintro hReturns ⟨hGm, rfl⟩
    rw [if_pos ⟨hGm, rfl⟩] at hReturns
    -- `&payload[2..]` of one byte
    exact hReturns _ rfl
  · intro hTag
    split
    · rename_i hFrame
      have hLen : 2 ≤ payload.length := two_le_length hFrame.2 fun hAlone => hTag ⟨hFrame.1, hAlone⟩
      obtain ⟨body, hBody⟩ := exists_ok_of_noPanic (noPanic_sliceFrom.mpr hLen)
      rw [hBody, ok_bind]
      exact onGmFrame_noPanic hKem _ body hPeer hRoom
    · split
      · exact onHandshake_noPanic hKem payload hPeer (hRoom.mono (Nat.le_succ _))
      · exact onCiphertext_noPanic hKem payload hPeer (hRoom.mono (Nat.le_add_left 1 _)) hOpen

/-- It answers the first message of a GM-PQ handshake, whatever the body. -/
theorem onRelayData_noPanic_msg1 :
    ((plainNode 1).onRelayData plainEnv plainId [gmTag, gmMsg1, 0xff]).NoPanic :=
  (onRelayData_noPanic_iff (GmPq.defaultHybrid_total _ _ _) _
    ⟨fun _ h => (by cases h), fun _ => by decide⟩).mpr (by rintro ⟨-, ⟨⟩⟩)

/-- A node that has just started gets the GM-PQ tag alone. -/
theorem not_onRelayData_noPanic :
    (plainNode 1).onRelayData plainEnv plainId [gmTag] = panic .outOfRange := rfl

end Actor

end DirectWire.Mesh
