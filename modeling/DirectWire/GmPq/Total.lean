import DirectWire.GmPq.Party

/-!
# GM-PQ — the handshake does not panic

For a KEM that does not panic, no bytes received from a peer make a step panic. The one `unwrap`
that depends on the state is in message 3: the ephemeral key of the responder is there whenever
its sealed static key is (`Initiator.readMsg2_stores`). A session panics only when it has used up
its sequence numbers.
-/

namespace DirectWire.GmPq

open Lib Outcome

variable {P : Primitives}

theorem Aead.noPanic_openPacket (a : Aead) (aad packet : Bytes) :
    (a.openPacket P aad packet).NoPanic := by
  unfold Aead.openPacket
  split
  · exact noPanic_err _
  · simp only [noPanic_bind, noPanic_sliceArray, noPanic_slice, noPanic_okOr]
    refine ⟨by omega, fun _ _ => ⟨⟨by omega, by omega⟩, fun _ _ => ⟨by omega, fun _ _ => ?_⟩⟩⟩
    -- a failed tag is an error, not a panic
    exact ⟨trivial, fun _ _ => noPanic_ok _⟩

theorem noPanic_openStatic (a : Aead) (aad : Fixed 32) (data : Bytes) :
    (openStatic P a aad data).NoPanic := by
  have hOpen := a.noPanic_openPacket (P := P) aad.val (beBytes 8 0 ++ data)
  unfold openStatic asPeerAuth
  split
  · exact noPanic_err _
  · exact hOpen

namespace Session

theorem noPanic_recv (s : Session) (packet : Bytes) : (s.recv P packet).NoPanic := by
  simp only [recv, noPanic_bind, noPanic_attempt]
  refine ⟨s.rx.noPanic_openPacket _ _, fun opened _ => ?_⟩
  split
  · exact noPanic_ok _
  · split <;> exact noPanic_ok _

theorem noPanic_send {ε : Type} {s : Session} (plaintext : Bytes)
    (hRoom : s.tx.txSeq.toNat + 1 < 2 ^ 64) : (s.send (ε := ε) P plaintext).NoPanic := by
  simp only [send, Aead.sealNext, if_pos hRoom, ok_bind]
  exact noPanic_ok _

end Session

/-! ## The handshake -/

namespace Initiator

variable {K : Kem} {i i' : Initiator K}

theorem noPanic_writeMsg1 (hK : K.Total) (i : Initiator K) (r : K.Rand) :
    (i.writeMsg1 P r).NoPanic := by
  unfold writeMsg1
  split
  · exact noPanic_err _
  · rw [noPanic_bind]
    exact ⟨hK.keypair r, fun _ _ => noPanic_ok _⟩

theorem noPanic_readMsg2 (hK : K.Total) (i : Initiator K) (msg : Bytes) :
    (i.readMsg2 P msg).NoPanic := by
  simp only [readMsg2]
  split
  · exact noPanic_err _
  · simp only [noPanic_bind, noPanic_slice, noPanic_sliceFrom, noPanic_okOr]
    refine ⟨by omega, fun _ _ => ⟨by omega, fun _ _ => ⟨by omega, fun _ _ => ?_⟩⟩⟩
    refine ⟨hK.validatePublic _, fun _ _ => ⟨trivial, fun _ _ => ?_⟩⟩
    exact ⟨hK.decapsulate _ _, fun _ _ => noPanic_ok _⟩

theorem noPanic_writeMsg3Inner (hK : K.Total) (hEph : i.peerEphPk.isSome) (rSe rSs : K.Rand)
    {signer : Option (Fixed 32 → Outcome Error Bytes)}
    {peerCheck : Option (Bytes → Outcome Error Unit)}
    (hSigner : ∀ h, (signWith signer h).NoPanic) (hCheck : ∀ pk, (checkWith peerCheck pk).NoPanic) :
    (i.writeMsg3Inner P rSe rSs signer peerCheck).NoPanic := by
  simp only [writeMsg3Inner, noPanic_bind, noPanic_okOr, noPanic_unwrap, true_and]
  -- the `unwrap` of the ephemeral key is the one place that could panic
  refine fun _ _ => ⟨hEph, fun _ _ => ⟨noPanic_openStatic _ _ _, fun _ _ => ?_⟩⟩
  refine ⟨hK.validatePublic _, fun _ _ => ⟨hCheck _, fun _ _ => ?_⟩⟩
  refine ⟨hK.encapsulate _ _, fun _ _ => ⟨hK.encapsulate _ _, fun _ _ => ?_⟩⟩
  exact ⟨hSigner _, fun _ _ => noPanic_ok _⟩

theorem noPanic_writeMsg3WithAuth {K : StaticAuth} {i : Initiator K.toKem} (hK : K.Total)
    (hEph : i.peerEphPk.isSome) (rSe rSs : K.Rand) {anchor : TrustAnchor}
    (hAnchor : ∀ role pk, (anchor role pk).NoPanic) :
    (writeMsg3WithAuth P i rSe rSs anchor).NoPanic := by
  simp only [writeMsg3WithAuth, noPanic_bind, noPanic_okOr, true_and]
  intro sk _
  refine noPanic_writeMsg3Inner (i := { i with staticSk := none }) hK.toKem hEph rSe rSs ?_ ?_
  · intro h
    exact hK.sign sk h
  · intro pk
    exact hAnchor .responder pk

end Initiator

namespace Responder

variable {K : Kem}

theorem noPanic_readMsg1 (hK : K.Total) (r : Responder K) (msg : Bytes) :
    (r.readMsg1 P msg).NoPanic := by
  simp only [readMsg1, noPanic_bind]
  exact ⟨hK.validatePublic _, fun _ _ => noPanic_ok _⟩

theorem noPanic_writeMsg2 (hK : K.Total) (r : Responder K) (rEph rEe : K.Rand) :
    (r.writeMsg2 P rEph rEe).NoPanic := by
  simp only [writeMsg2, noPanic_bind, noPanic_okOr, true_and]
  exact fun _ _ => ⟨hK.keypair _, fun _ _ => ⟨hK.encapsulate _ _, fun _ _ => noPanic_ok _⟩⟩

theorem noPanic_readMsg3Inner (hK : K.Total) (r : Responder K) (msg : Bytes) :
    (r.readMsg3Inner P msg).NoPanic := by
  simp only [readMsg3Inner]
  split
  · exact noPanic_err _
  · simp only [noPanic_bind, noPanic_slice, noPanic_sliceFrom, noPanic_okOr]
    refine ⟨by omega, fun _ _ => ⟨by omega, fun _ _ => ⟨by omega, fun _ _ => ?_⟩⟩⟩
    refine ⟨trivial, fun _ _ => ⟨hK.decapsulate _ _, fun _ _ => ?_⟩⟩
    exact ⟨hK.decapsulate _ _, fun _ _ => ⟨noPanic_openStatic _ _ _, fun _ _ => noPanic_ok _⟩⟩

theorem noPanic_readMsg3WithAuth {K : StaticAuth} (hK : K.Total) (r : Responder K.toKem)
    (msg : Bytes) {anchor : TrustAnchor} (hAnchor : ∀ role pk, (anchor role pk).NoPanic) :
    (readMsg3WithAuth P r msg anchor).NoPanic := by
  simp only [readMsg3WithAuth, noPanic_bind]
  refine ⟨noPanic_readMsg3Inner hK.toKem r msg, fun _ _ => ?_⟩
  split
  · exact noPanic_err _
  · simp only [noPanic_bind]
    refine ⟨hK.validatePublic _, fun _ _ => ⟨hK.verify _ _ _, fun _ _ => ?_⟩⟩
    exact ⟨hAnchor _ _, fun _ _ => noPanic_ok _⟩

end Responder

end DirectWire.GmPq
