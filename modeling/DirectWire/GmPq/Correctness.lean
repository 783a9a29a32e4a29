import DirectWire.GmPq.Handshake

/-!
# GM-PQ — the handshake succeeds between honest parties

The two symmetric states are related after each message: equal after message 1 (`exchange1`), up
to the sealed key that the initiator has not opened yet after message 2 (`exchange2`), and split
after message 3 (`exchange3`). `handshake_correct` puts the three together, for every lawful KEM.
-/

namespace DirectWire.GmPq

open Lib Outcome Initiator

variable {P : Primitives} {K : StaticAuth}

/-! ## Sealed static keys -/

theorem sealStatic_eq (key : Fixed 16) (aad : Fixed 32) (plaintext : Bytes) :
    beBytes 8 0 ++ sealStatic P (Aead.new key) aad plaintext =
      (Aead.new key).sealWithSeq P 0 aad.val plaintext := by
  have hSeq : ((0 : UInt64)).toNat = 0 := rfl
  simp only [sealStatic, Aead.sealWithSeq, hSeq]
  rw [List.append_assoc, List.drop_append_of_le_length (by simp),
    List.drop_of_length_le (by simp), List.nil_append]

theorem openStatic_sealStatic (hGcm : P.GcmCorrect) (key : Fixed 16) (aad : Fixed 32)
    (plaintext : Bytes) :
    openStatic P (Aead.new key) aad (sealStatic P (Aead.new key) aad plaintext) =
      ok (0, plaintext) := by
  rw [openStatic, sealStatic_eq, Aead.openPacket_sealWithSeq hGcm _ _ rfl]
  rfl

theorem sealStatic_length (key : Fixed 16) (aad : Fixed 32) (plaintext : Bytes) :
    16 ≤ (sealStatic P (Aead.new key) aad plaintext).length := by
  have hLen := congrArg List.length (sealStatic_eq (P := P) key aad plaintext)
  simp only [Aead.sealWithSeq, List.length_append, beBytes_length, Fixed.length_val] at hLen
  omega

/-! ## The two ends between messages -/

structure Identities (K : StaticAuth) where
  iSk : K.SecretKey
  iPk : Bytes
  rSk : K.SecretKey
  rPk : Bytes
  iHonest : K.Honest iSk iPk
  rHonest : K.Honest rSk rPk

/-- Both ends still hold the static keys they started with. -/
structure Holds (ids : Identities K) (i : Initiator K.toKem) (r : Responder K.toKem) : Prop where
  iSk : i.staticSk = some ids.iSk
  iPk : i.staticPk = ids.iPk
  rSk : r.staticSk = ids.rSk
  rPk : r.staticPk = ids.rPk

/-- After message 1: equal states, and the responder holds the initiator's
ephemeral key. -/
structure AfterMsg1 (ids : Identities K) (i : Initiator K.toKem) (r : Responder K.toKem) :
    Prop where
  holds : Holds ids i r
  ss : r.ss = i.ss
  eph : ∃ eSk ePk, K.Honest eSk ePk ∧ i.ephSk = some eSk ∧ r.peerEphPk = some ePk

/-- After message 2: the responder is ahead by the sealed key, which the
initiator holds with the responder's ephemeral key. -/
structure AfterMsg2 (P : Primitives) (ids : Identities K) (i : Initiator K.toKem)
    (r : Responder K.toKem) : Prop where
  holds : Holds ids i r
  sealedKey : ∃ enc, i.encPeerStatic = some enc ∧ r.ss = i.ss.mixHash P enc ∧
    openStatic P (Aead.new (i.ss.encryptionKey P infoStaticEnc)) i.ss.h enc = ok (0, ids.rPk)
  eph : ∃ eSk ePk, K.Honest eSk ePk ∧ r.ephSk = some eSk ∧ i.peerEphPk = some ePk

variable {ids : Identities K} {i : Initiator K.toKem} {r : Responder K.toKem}

theorem exchange1 (hK : K.Lawful) (ids : Identities K) (psk : Option (Fixed 32)) (rI : K.Rand) :
    ∃ m1 i' r', (create P ids.iSk ids.iPk psk).writeMsg1 P rI = ok (m1, i') ∧
      (Responder.create P ids.rSk ids.rPk psk).readMsg1 P m1 = ok r' ∧ AfterMsg1 ids i' r' := by
  obtain ⟨eSk, ePk, hKey⟩ := hK.keypair_ok rI
  have hHonest : K.Honest eSk ePk := ⟨rI, hKey⟩
  have hValid := hK.validate_ok eSk ePk hHonest
  set i₀ : Initiator K.toKem := create P ids.iSk ids.iPk psk
  set r₀ : Responder K.toKem := Responder.create P ids.rSk ids.rPk psk
  -- both constructors start from the same symmetric state
  have hSs : r₀.ss = i₀.ss := by cases psk <;> rfl
  have hNone : i₀.ephSk = none := by cases psk <;> rfl
  have hHolds : Holds ids i₀ r₀ := by cases psk <;> exact ⟨rfl, rfl, rfl, rfl⟩
  have hWrite : i₀.writeMsg1 P rI =
      ok (ePk, { i₀ with ss := i₀.ss.mixHash P ePk, ephSk := some eSk }) := by
    simp [writeMsg1, hNone, hKey]
  have hRead : r₀.readMsg1 P ePk =
      ok { r₀ with ss := r₀.ss.mixHash P ePk, peerEphPk := some ePk } := by
    simp [Responder.readMsg1, hValid]
  refine ⟨_, _, _, hWrite, hRead, ?_⟩
  exact
    { holds := ⟨hHolds.iSk, hHolds.iPk, hHolds.rSk, hHolds.rPk⟩
      ss := by simp only [hSs]
      eph := ⟨eSk, ePk, hHonest, rfl, rfl⟩ }

theorem exchange2 (hGcm : P.GcmCorrect) (hK : K.Lawful) (h : AfterMsg1 ids i r)
    (rEph rEe : K.Rand) :
    ∃ m2 i' r', r.writeMsg2 P rEph rEe = ok (m2, r') ∧ i.readMsg2 P m2 = ok i' ∧
      AfterMsg2 P ids i' r' := by
  obtain ⟨eSk, ePk, hEph, hISk, hRPk⟩ := h.eph
  obtain ⟨fSk, fPk, hKey⟩ := hK.keypair_ok rEph
  have hFresh : K.Honest fSk fPk := ⟨rEph, hKey⟩
  obtain ⟨ct, secret, hEnc, hDec, hCtLen⟩ := hK.exists_encapsulate hEph rEe
  have hPkLen := hK.publicKey_length fSk fPk hFresh
  have hValid := hK.validate_ok fSk fPk hFresh
  -- the state both ends derive the static key's key from
  let ss := ((i.ss.mixHash P fPk).mixHash P ct).mixKey P secret.val
  let enc := sealStatic P (Aead.new (ss.encryptionKey P infoStaticEnc)) ss.h ids.rPk
  have hEncLen : 16 ≤ enc.length := sealStatic_length _ _ _
  have hWrite : r.writeMsg2 P rEph rEe = ok (fPk ++ ct ++ enc,
      { r with
        ss := ss.mixHash P enc
        ephSk := some fSk
        drawn := r.drawn ++ [secret]
        sealed := r.sealed ++ [staticCall (ss.encryptionKey P infoStaticEnc) ss.h ids.rPk] }) := by
    simp only [Responder.writeMsg2, hRPk, okOr_some, ok_bind, hKey, hEnc, h.ss, h.holds.rPk]
    rfl
  have hRead : i.readMsg2 P (fPk ++ ct ++ enc) = ok
      { i with
        ss
        encPeerStatic := some enc
        peerEphPk := some fPk
        peerCtEe := some ct } := by
    -- the message is cut where the responder put it together
    have hLong : ¬ (fPk ++ ct ++ enc).length < K.publicKeyLen + K.ciphertextLen + 16 := by
      simp only [List.length_append]
      omega
    simp only [readMsg2, if_neg hLong, slice_first hPkLen,
      slice_second hPkLen (show K.publicKeyLen + ct.length = K.publicKeyLen + K.ciphertextLen by
        rw [hCtLen]),
      sliceFrom_third (show fPk.length + ct.length = K.publicKeyLen + K.ciphertextLen by
        rw [hPkLen, hCtLen]),
      ok_bind, hValid, hISk, okOr_some, hDec]
    rfl
  refine ⟨_, _, _, hWrite, hRead, ?_⟩
  exact
    { holds := ⟨h.holds.iSk, h.holds.iPk, h.holds.rSk, h.holds.rPk⟩
      sealedKey := ⟨enc, rfl, rfl, openStatic_sealStatic hGcm _ _ _⟩
      eph := ⟨fSk, fPk, hFresh, rfl, rfl⟩ }

structure Matching (s t : Session) : Prop where
  sessionId : s.sessionId = t.sessionId
  txRx : s.tx.key = t.rx.key
  rxTx : s.rx.key = t.tx.key

theorem exchange3 (hGcm : P.GcmCorrect) (hK : K.Lawful) (h : AfterMsg2 P ids i r) (rSe rSs : K.Rand)
    {anchorI anchorR} (hAnchorI : anchorI .responder ids.rPk = ok ())
    (hAnchorR : anchorR .initiator ids.iPk = ok ()) :
    ∃ m3 sI i' sR r', i.writeMsg3WithAuth P rSe rSs anchorI = ok (m3, sI, i') ∧
      r.readMsg3WithAuth P m3 anchorR = ok ((sR, ids.iPk), r') ∧
      Matching sI sR ∧ i'.peerStatic = some ids.rPk := by
  obtain ⟨enc, hEncStatic, hAhead, hOpen⟩ := h.sealedKey
  obtain ⟨eSk, ePk, hEph, hREph, hIEph⟩ := h.eph
  obtain ⟨ctSe, secSe, hSe, hDecSe, hSeLen⟩ := hK.exists_encapsulate hEph rSe
  obtain ⟨ctSs, secSs, hSs, hDecSs, hSsLen⟩ := hK.exists_encapsulate ids.rHonest rSs
  have hValidR := hK.validate_ok ids.rSk ids.rPk ids.rHonest
  have hValidI := hK.validate_ok ids.iSk ids.iPk ids.iHonest
  have hPkLen := hK.publicKey_length ids.iSk ids.iPk ids.iHonest
  -- the state both ends sign and seal under
  let ss := (((i.ss.mixHash P enc).mixKey P (secSe.val ++ secSs.val)).mixHash P ctSe).mixHash P ctSs
  obtain ⟨sig, hSig⟩ := hK.sign_ok ids.iSk ids.iPk ids.iHonest ss.h
  have hVerify := hK.verify_sign ids.iSk ids.iPk ids.iHonest ss.h sig hSig
  have hSigLen := hK.signature_length ids.iSk ids.iPk ids.iHonest ss.h sig hSig
  let key3 := ss.encryptionKey P infoStaticEnc
  let encSi := sealStatic P (Aead.new key3) ss.h (ids.iPk ++ sig)
  have hEncLen : 16 ≤ encSi.length := sealStatic_length _ _ _
  -- both ends hold `key3`, so what one seals the other opens
  have hOpenSi : openStatic P (Aead.new key3) ss.h encSi = ok (0, ids.iPk ++ sig) :=
    openStatic_sealStatic hGcm _ _ _
  let final := ss.mixHash P encSi
  let keys := final.split P
  have hWrite : i.writeMsg3WithAuth P rSe rSs anchorI =
      ok (ctSe ++ ctSs ++ encSi, Session.new keys.1 keys.2.1 keys.2.2,
        { i with
          ss := final
          staticSk := none
          encPeerStatic := none
          peerEphPk := none
          peerStatic := some ids.rPk
          drawn := i.drawn ++ [secSe, secSs]
          sealed := i.sealed ++ [staticCall key3 ss.h (ids.iPk ++ sig)] }) := by
    simp only [writeMsg3WithAuth, h.holds.iSk, okOr_some, ok_bind,
      writeMsg3Inner, hEncStatic, hIEph, unwrap_some, hOpen, hValidR,
      checkWith, hAnchorI, hSe, hSs, signWith, h.holds.iPk]
    rw [hSig, ok_bind]
  have hRead : r.readMsg3WithAuth P (ctSe ++ ctSs ++ encSi) anchorR =
      ok ((Session.new keys.2.1 keys.1 keys.2.2, ids.iPk),
        { r with ss := final, ephSk := none, done := some (keys.2.1, keys.1, keys.2.2) }) := by
    -- the two ciphertexts have equal lengths, so they are cut right
    have hLong : ¬ (ctSe ++ ctSs ++ encSi).length < 2 * K.ciphertextLen + 16 := by
      simp only [List.length_append]
      omega
    -- the responder computes the state the initiator sealed under
    have hInner : r.readMsg3Inner P (ctSe ++ ctSs ++ encSi) =
        ok ((Session.new keys.2.1 keys.1 keys.2.2, ids.iPk ++ sig, ss.h),
          { r with ss := final, ephSk := none, done := some (keys.2.1, keys.1, keys.2.2) }) := by
      simp only [Responder.readMsg3Inner, if_neg hLong, slice_first hSeLen,
        slice_second hSeLen (show K.ciphertextLen + ctSs.length = 2 * K.ciphertextLen by omega),
        sliceFrom_third (show ctSe.length + ctSs.length = 2 * K.ciphertextLen by omega),
        ok_bind, hREph, okOr_some, hDecSe, h.holds.rSk, hDecSs, hAhead]
      rw [hOpenSi, ok_bind]
    have hPlainLen : ¬ (ids.iPk ++ sig).length ≠ K.publicKeyLen + K.signatureLen := by
      simp only [List.length_append, ne_eq, not_not]
      omega
    simp only [Responder.readMsg3WithAuth, hInner, ok_bind, if_neg hPlainLen,
      List.take_left' hPkLen, List.drop_left' hPkLen, hValidI, hVerify, hAnchorR]
  exact ⟨_, _, _, _, _, hWrite, hRead, ⟨rfl, rfl, rfl⟩, rfl⟩

/-! ## The whole handshake -/

/-- **Handshake correctness.** The AEAD opens what it has sealed (`hGcm`), the KEM is lawful (`hK`),
and each anchor trusts the key of the other party. Then the two complete every step, with one
session id, crossed keys and each other's static key, with or without a pre-shared key. -/
theorem handshake_correct (hGcm : P.GcmCorrect) (hK : K.Lawful) (ids : Identities K)
    (psk : Option (Fixed 32)) (rI rEph rEe rSe rSs : K.Rand) {anchorI anchorR : TrustAnchor}
    (hAnchorI : anchorI .responder ids.rPk = ok ())
    (hAnchorR : anchorR .initiator ids.iPk = ok ()) :
    ∃ m1 i₁ r₁ m2 r₂ i₂ m3 sI i₃ sR pk r₃,
      (create P ids.iSk ids.iPk psk).writeMsg1 P rI = ok (m1, i₁) ∧
      (Responder.create P ids.rSk ids.rPk psk).readMsg1 P m1 = ok r₁ ∧
      r₁.writeMsg2 P rEph rEe = ok (m2, r₂) ∧
      i₁.readMsg2 P m2 = ok i₂ ∧
      i₂.writeMsg3WithAuth P rSe rSs anchorI = ok (m3, sI, i₃) ∧
      r₂.readMsg3WithAuth P m3 anchorR = ok ((sR, pk), r₃) ∧
      sI.sessionId = sR.sessionId ∧ sI.tx.key = sR.rx.key ∧ sI.rx.key = sR.tx.key ∧
      i₃.peerStatic = some ids.rPk ∧ pk = ids.iPk := by
  obtain ⟨m1, i₁, r₁, hWrite1, hRead1, h1⟩ := exchange1 (P := P) hK ids psk rI
  obtain ⟨m2, i₂, r₂, hWrite2, hRead2, h2⟩ := exchange2 hGcm hK h1 rEph rEe
  obtain ⟨m3, sI, i₃, sR, r₃, hWrite3, hRead3, hMatch, hPeer⟩ :=
    exchange3 hGcm hK h2 rSe rSs hAnchorI hAnchorR
  exact ⟨m1, i₁, r₁, m2, r₂, i₂, m3, sI, i₃, sR, ids.iPk, r₃, hWrite1, hRead1, hWrite2, hRead2,
    hWrite3, hRead3, hMatch.sessionId, hMatch.txRx, hMatch.rxTx, hPeer, rfl⟩

/-- Two honest parties with the keys 1 and 2, a pre-shared key, and anchors
that trust only the other's key. -/
theorem handshake_correct_plain :
    ∃ m1 i₁ r₁ m2 r₂ i₂ m3 sI i₃ sR pk r₃,
      (create plainPrimitives (K := plainAuth.toKem) (1 : UInt8) [1]
        (some (padTo 32 [7]))).writeMsg1 plainPrimitives (3 : UInt8) = ok (m1, i₁) ∧
      (Responder.create plainPrimitives (K := plainAuth.toKem) (2 : UInt8) [2]
        (some (padTo 32 [7]))).readMsg1 plainPrimitives m1 = ok r₁ ∧
      r₁.writeMsg2 plainPrimitives (4 : UInt8) (5 : UInt8) = ok (m2, r₂) ∧
      i₁.readMsg2 plainPrimitives m2 = ok i₂ ∧
      writeMsg3WithAuth (K := plainAuth) plainPrimitives i₂ (6 : UInt8) (8 : UInt8)
        (fun _ pk => if pk = [2] then ok () else err .peerAuth) = ok (m3, sI, i₃) ∧
      Responder.readMsg3WithAuth (K := plainAuth) plainPrimitives r₂ m3
        (fun _ pk => if pk = [1] then ok () else err .peerAuth) = ok ((sR, pk), r₃) ∧
      sI.sessionId = sR.sessionId ∧ sI.tx.key = sR.rx.key ∧ sI.rx.key = sR.tx.key ∧
      i₃.peerStatic = some [2] ∧ pk = [1] :=
  handshake_correct (K := plainAuth) plainPrimitives_gcmCorrect plainAuth_lawful
    ⟨(1 : UInt8), [1], (2 : UInt8), [2], ⟨(1 : UInt8), rfl⟩, ⟨(2 : UInt8), rfl⟩⟩
    (some (padTo 32 [7])) (3 : UInt8) (4 : UInt8) (5 : UInt8) (6 : UInt8) (8 : UInt8) rfl rfl

end DirectWire.GmPq
