import DirectWire.GmPq.Hybrid
import DirectWire.Lib.Platform

/-!
# Mesh — identities and the relay session

`identity/mod.rs` and `crypto.rs`: a node is its ed25519 public key, and the relay session is a
signed ephemeral X25519 exchange followed by ChaCha20-Poly1305 under a counter in each direction.
The counters are not on the wire: the next ciphertext opens when the two agree
(`SessionCipher.openText_of_matching`).
-/

namespace DirectWire.Mesh

open Lib Outcome

/-- The algorithms a node takes from outside, those of the GM-PQ stack
included. -/
structure Algorithms where
  ed25519Public : Fixed 32 → Fixed 32
  ed25519Sign : Fixed 32 → Bytes → Fixed 64
  ed25519Verify : Fixed 32 → Bytes → Fixed 64 → Bool
  x25519Public : Fixed 32 → Fixed 32
  x25519 : Fixed 32 → Fixed 32 → Fixed 32
  sha256 : Bytes → Fixed 32
  aeadEncrypt : Fixed 32 → Fixed 12 → Bytes → Option Bytes
  aeadDecrypt : Fixed 32 → Fixed 12 → Bytes → Option Bytes
  gm : GmPq.Primitives
  kem : GmPq.StaticAuth

def Algorithms.AeadCorrect (A : Algorithms) : Prop :=
  ∀ key nonce plaintext, ∃ ct, A.aeadEncrypt key nonce plaintext = some ct ∧
    A.aeadDecrypt key nonce ct = some plaintext

def Algorithms.DhCommutes (A : Algorithms) : Prop :=
  ∀ a b, A.x25519 a (A.x25519Public b) = A.x25519 b (A.x25519Public a)

def Algorithms.SignaturesVerify (A : Algorithms) : Prop :=
  ∀ sk msg, A.ed25519Verify (A.ed25519Public sk) msg (A.ed25519Sign sk msg) = true

structure Build where
  overflowChecks : Bool
  /-- Feature `gm-pq`. -/
  gmPq : Bool
  instantMin : Instant
deriving DecidableEq

/-! ## Identities -/

abbrev NodeId := Fixed 32

def NodeId.lt (a b : NodeId) : Prop := a.val < b.val

instance (a b : NodeId) : Decidable (NodeId.lt a b) := inferInstanceAs (Decidable (a.val < b.val))

theorem NodeId.lt_asymm {a b} (h : NodeId.lt a b) : ¬ NodeId.lt b a :=
  @List.lt_asymm _ _ _ a.val b.val h

theorem NodeId.lt_of_not_lt {a b} (hNe : a ≠ b) (h : ¬ NodeId.lt a b) : NodeId.lt b a := by
  by_contra hLt
  exact hNe (Subtype.ext (List.le_antisymm (List.not_lt.mp hLt) (List.not_lt.mp h)))

structure NodeIdentity where
  sk : Fixed 32
deriving DecidableEq

def hexDigit (x : UInt8) : Char := "0123456789abcdef".toList.getD x.toNat '0'

def hexEncode (b : Bytes) : String :=
  String.ofList (b.flatMap fun x : UInt8 => [hexDigit (x >>> 4), hexDigit (x &&& 0xf)])

section

variable (A : Algorithms)

def NodeIdentity.nodeId (me : NodeIdentity) : NodeId := A.ed25519Public me.sk

def NodeIdentity.sign (me : NodeIdentity) (msg : Bytes) : Fixed 64 := A.ed25519Sign me.sk msg

def verify (id : NodeId) (msg : Bytes) (sig : Fixed 64) : Bool := A.ed25519Verify id msg sig

def NodeId.short (id : NodeId) : String := hexEncode ((A.sha256 id.val).val.take 8)

end

/-! ## The handshake -/

def hsTag : UInt8 := 0x48

def hsKindInit : UInt8 := 0x01

def hsKindResp : UInt8 := 0x02

def hsMsgLen : Nat := 2 + 32 + 64

/-- The message of a `CryptoError`. -/
abbrev CryptoError := String

/-- How a `CryptoError` is shown. -/
def CryptoError.display (e : CryptoError) : String := "crypto: " ++ e

structure SessionCipher where
  send : Fixed 32
  recv : Fixed 32
  sendCtr : UInt64
  recvCtr : UInt64
deriving DecidableEq

structure HsState where
  eph : Fixed 32
  peer : NodeId
deriving DecidableEq

def signCtx (tag : Bytes) (ephPub : Fixed 32) (sender receiver : NodeId) : Bytes :=
  tag ++ ephPub.val ++ sender.val ++ receiver.val

def parseHsMsg (msg : Bytes) (kind : UInt8) : Outcome CryptoError (Fixed 32 × Fixed 64) := do
  if msg.length ≠ hsMsgLen then
    err "malformed handshake message"
  else
    let tag ← index msg 0
    let got ← index msg 1
    if tag ≠ hsTag ∨ got ≠ kind then
      err "malformed handshake message"
    else
      let ephPub ← sliceArray msg 2 32
      let sig ← sliceArray msg 34 64
      ok (ephPub, sig)

def hsInitLabel : Bytes := ascii "p2p-mesh/hs-init"

def hsRespLabel : Bytes := ascii "p2p-mesh/hs-resp"

section

variable (A : Algorithms)

def kdf (shared : Fixed 32) (dir : Bytes) (i r : NodeId) : Fixed 32 :=
  A.sha256 (ascii "p2p-mesh/hs-v1" ++ shared.val ++ dir ++ i.val ++ r.val)

inductive HsRole where
  | initiator
  | responder
deriving DecidableEq, Repr

def derive (shared : Fixed 32) (initiator responder : NodeId) (role : HsRole) : SessionCipher :=
  let kI2r := kdf A shared (ascii "i2r") initiator responder
  let kR2i := kdf A shared (ascii "r2i") initiator responder
  match role with
  | .initiator => ⟨kI2r, kR2i, 0, 0⟩
  | .responder => ⟨kR2i, kI2r, 0, 0⟩

def hsMsg (kind : UInt8) (label : Bytes) (me : NodeIdentity) (peer : NodeId) (eph : Fixed 32) :
    Bytes :=
  let ephPub := A.x25519Public eph
  let sig := me.sign A (signCtx label ephPub (me.nodeId A) peer)
  [hsTag, kind] ++ ephPub.val ++ sig.val

def hsStart (me : NodeIdentity) (peer : NodeId) (eph : Fixed 32) : HsState × Bytes :=
  (⟨eph, peer⟩, hsMsg A hsKindInit hsInitLabel me peer eph)

/-- The responder: check the signature, then the session and the answer. -/
def hsAccept (me : NodeIdentity) (peer : NodeId) (msg : Bytes) (eph : Fixed 32) :
    Outcome CryptoError (SessionCipher × Bytes) := do
  let (peerPub, sig) ← parseHsMsg msg hsKindInit
  if ¬ verify A peer (signCtx hsInitLabel peerPub peer (me.nodeId A)) sig then
    err "hs-init signature verification failed (wrong identity or tampered)"
  else
    -- the initiator's id comes first on both sides
    let shared := A.x25519 eph peerPub
    ok (derive A shared peer (me.nodeId A) .responder, hsMsg A hsKindResp hsRespLabel me peer eph)

def hsFinish (me : NodeIdentity) (hs : HsState) (msg : Bytes) :
    Outcome CryptoError SessionCipher := do
  let (peerPub, sig) ← parseHsMsg msg hsKindResp
  if ¬ verify A hs.peer (signCtx hsRespLabel peerPub hs.peer (me.nodeId A)) sig then
    err "hs-resp signature verification failed (wrong identity or tampered)"
  else
    ok (derive A (A.x25519 hs.eph peerPub) (me.nodeId A) hs.peer .initiator)

end

/-! ## The session -/

def nonceBytes (ctr : UInt64) : Fixed 12 := ⟨[0, 0, 0, 0] ++ beBytes 8 ctr.toNat, by simp⟩

namespace SessionCipher

variable (A : Algorithms) (checks : Bool)

/-- `seal`: encrypt under the count of messages sent. -/
def sealText (s : SessionCipher) (plaintext : Bytes) :
    Outcome CryptoError (Bytes × SessionCipher) := do
  let ct ← okOr (A.aeadEncrypt s.send (nonceBytes s.sendCtr) plaintext) "AEAD encryption failed"
  -- the count moves only after a successful encryption
  let sendCtr ← addU64 checks s.sendCtr 1
  ok (ct, { s with sendCtr })

/-- `open`: decrypt under the count of messages opened. -/
def openText (s : SessionCipher) (ciphertext : Bytes) :
    Outcome CryptoError (Bytes × SessionCipher) := do
  let pt ← okOr (A.aeadDecrypt s.recv (nonceBytes s.recvCtr) ciphertext)
    "AEAD decryption failed (tampered or wrong peer identity)"
  -- the nonce is not on the wire: both ends count, and a failure counts nothing
  let recvCtr ← addU64 checks s.recvCtr 1
  ok (pt, { s with recvCtr })

variable {A checks} {s t : SessionCipher}

theorem noPanic_sealText (plaintext : Bytes)
    (hRoom : checks = true → s.sendCtr.toNat + 1 < 2 ^ 64) :
    (s.sealText A checks plaintext).NoPanic := by
  simp only [sealText, noPanic_bind, noPanic_okOr, noPanic_addU64, true_and]
  exact fun _ _ => ⟨hRoom, fun _ _ => noPanic_ok _⟩

theorem noPanic_openText (ciphertext : Bytes)
    (hRoom : checks = true → s.recvCtr.toNat + 1 < 2 ^ 64) :
    (s.openText A checks ciphertext).NoPanic := by
  simp only [openText, noPanic_bind, noPanic_okOr, noPanic_addU64, true_and]
  exact fun _ _ => ⟨hRoom, fun _ _ => noPanic_ok _⟩

theorem sealText_ok {plaintext ct} (h : s.sealText A checks plaintext = ok (ct, t)) :
    t = { s with sendCtr := s.sendCtr + 1 } := by
  simp only [sealText] at h
  obtain ⟨ct', -, h⟩ := bind_eq_ok.mp h
  obtain ⟨ctr, hCtr, h⟩ := bind_eq_ok.mp h
  cases h
  rw [addU64_eq_ok hCtr]

theorem openText_ok {pt ciphertext} (h : s.openText A checks ciphertext = ok (pt, t)) :
    t = { s with recvCtr := s.recvCtr + 1 } := by
  simp only [openText] at h
  obtain ⟨pt', -, h⟩ := bind_eq_ok.mp h
  obtain ⟨ctr, hCtr, h⟩ := bind_eq_ok.mp h
  cases h
  rw [addU64_eq_ok hCtr]

theorem openText_of_matching (hAead : A.AeadCorrect) (hKey : s.send = t.recv)
    (hCtr : s.sendCtr = t.recvCtr) (hRoom : t.recvCtr.toNat + 1 < 2 ^ 64) {plaintext ct}
    (hEnc : A.aeadEncrypt s.send (nonceBytes s.sendCtr) plaintext = some ct) :
    t.openText A checks ct = ok (plaintext, { t with recvCtr := t.recvCtr + 1 }) := by
  obtain ⟨ct', hEnc', hDec⟩ := hAead s.send (nonceBytes s.sendCtr) plaintext
  -- encryption is a function, so the ciphertext is the one that decrypts
  have hCt : ct' = ct := Option.some_inj.mp (hEnc'.symm.trans hEnc)
  subst hCt
  rw [hKey, hCtr] at hDec
  simp only [openText, hDec, okOr_some, ok_bind,
    addU64_of_lt (show t.recvCtr.toNat + (1 : UInt64).toNat < 2 ^ 64 from hRoom)]

end SessionCipher

theorem noPanic_parseHsMsg (msg : Bytes) (kind : UInt8) : (parseHsMsg msg kind).NoPanic := by
  unfold parseHsMsg
  split
  · exact noPanic_err _
  · rename_i hLen
    have hLen : msg.length = 98 := not_not.mp hLen
    simp only [noPanic_bind, noPanic_index]
    refine ⟨by omega, fun _ _ => ⟨by omega, fun _ _ => ?_⟩⟩
    split
    · exact noPanic_err _
    · simp only [noPanic_bind, noPanic_sliceArray]
      exact ⟨by omega, fun _ _ => ⟨by omega, fun _ _ => noPanic_ok _⟩⟩

theorem noPanic_hsAccept (A : Algorithms) (me : NodeIdentity) (peer : NodeId) (msg : Bytes)
    (eph : Fixed 32) : (hsAccept A me peer msg eph).NoPanic := by
  simp only [hsAccept, noPanic_bind]
  refine ⟨noPanic_parseHsMsg _ _, fun _ _ => ?_⟩
  split <;> simp

theorem noPanic_hsFinish (A : Algorithms) (me : NodeIdentity) (hs : HsState) (msg : Bytes) :
    (hsFinish A me hs msg).NoPanic := by
  simp only [hsFinish, noPanic_bind]
  refine ⟨noPanic_parseHsMsg _ _, fun _ _ => ?_⟩
  split <;> simp

theorem hsAccept_eq_ok {A me peer msg resp eph cipher} :
    hsAccept A me peer msg eph = ok (cipher, resp) ↔ ∃ peerPub sig,
      parseHsMsg msg hsKindInit = ok (peerPub, sig) ∧
      verify A peer (signCtx hsInitLabel peerPub peer (me.nodeId A)) sig = true ∧
      cipher = derive A (A.x25519 eph peerPub) peer (me.nodeId A) .responder ∧
      resp = hsMsg A hsKindResp hsRespLabel me peer eph := by
  rw [hsAccept, bind_eq_ok]
  constructor
  · rintro ⟨⟨peerPub, sig⟩, hParse, h⟩
    dsimp only at h
    split at h
    · cases h
    · rename_i hVerify
      cases h
      exact ⟨peerPub, sig, hParse, not_not.mp hVerify, rfl, rfl⟩
  · rintro ⟨peerPub, sig, hParse, hVerify, rfl, rfl⟩
    exact ⟨(peerPub, sig), hParse, if_neg (not_not.mpr hVerify)⟩

theorem hsFinish_eq_ok {A me hs msg cipher} :
    hsFinish A me hs msg = ok cipher ↔ ∃ peerPub sig,
      parseHsMsg msg hsKindResp = ok (peerPub, sig) ∧
      verify A hs.peer (signCtx hsRespLabel peerPub hs.peer (me.nodeId A)) sig = true ∧
      cipher = derive A (A.x25519 hs.eph peerPub) (me.nodeId A) hs.peer .initiator := by
  rw [hsFinish, bind_eq_ok]
  constructor
  · rintro ⟨⟨peerPub, sig⟩, hParse, h⟩
    dsimp only at h
    split at h
    · cases h
    · rename_i hVerify
      cases h
      exact ⟨peerPub, sig, hParse, not_not.mp hVerify, rfl⟩
  · rintro ⟨peerPub, sig, hParse, hVerify, rfl⟩
    exact ⟨(peerPub, sig), hParse, if_neg (not_not.mpr hVerify)⟩

theorem parseHsMsg_eq_ok {msg kind ephPub sig} (h : parseHsMsg msg kind = ok (ephPub, sig)) :
    (msg.drop 2).take 32 = ephPub.val ∧ (msg.drop 34).take 64 = sig.val := by
  unfold parseHsMsg at h
  split at h
  · cases h
  · obtain ⟨tag, -, h⟩ := bind_eq_ok.mp h
    obtain ⟨got, -, h⟩ := bind_eq_ok.mp h
    split at h
    · cases h
    · obtain ⟨pub', hPub, h⟩ := bind_eq_ok.mp h
      obtain ⟨sig', hSig, h⟩ := bind_eq_ok.mp h
      cases h
      exact ⟨(sliceArray_eq_ok.mp hPub).2, (sliceArray_eq_ok.mp hSig).2⟩

theorem signCtx_inj {tag tag' pub pub' sender sender' receiver receiver'}
    (h : signCtx tag pub sender receiver = signCtx tag' pub' sender' receiver') :
    tag = tag' ∧ pub = pub' ∧ sender = sender' ∧ receiver = receiver' := by
  have hLen : ∀ x y : Fixed 32, x.val.length = y.val.length := fun x y =>
    x.property.trans y.property.symm
  obtain ⟨h, hReceiver⟩ := List.append_inj' h (hLen _ _)
  obtain ⟨h, hSender⟩ := List.append_inj' h (hLen _ _)
  obtain ⟨hTag, hPub⟩ := List.append_inj' h (hLen _ _)
  exact ⟨hTag, Subtype.ext hPub, Subtype.ext hSender, Subtype.ext hReceiver⟩

/-! ## Messages of an honest peer -/

section Honest

variable {A : Algorithms} {kind : UInt8} {label : Bytes} {me you : NodeIdentity} {peer : NodeId}
  {eph e f : Fixed 32}

theorem parseHsMsg_hsMsg : parseHsMsg (hsMsg A kind label me peer eph) kind =
    ok (A.x25519Public eph, me.sign A (signCtx label (A.x25519Public eph) (me.nodeId A) peer)) := by
  have hLen : (hsMsg A kind label me peer eph).length = hsMsgLen := by
    simp [hsMsg, hsMsgLen]
  have hSig : ∀ sig : Fixed 64, sig.val.take 64 = sig.val := fun sig =>
    List.take_of_length_le sig.property.le
  rw [parseHsMsg, if_neg (not_not.mpr hLen)]
  simp [hsMsg, index, sliceArray, hSig]

end Honest

/-! ## Algorithms to run the model on -/

def plainMask (nonce : Fixed 12) : UInt8 := 0x48 + nonce.val.getLastD 0

/-- The AEAD masks each byte and appends the nonce, which it checks when it
decrypts. The KEM is the default hybrid. -/
def plainAlgorithms : Algorithms where
  ed25519Public sk := sk
  ed25519Sign _ msg := GmPq.padTo 64 msg
  ed25519Verify _ _ _ := true
  x25519Public sk := sk
  x25519 sk _ := sk
  sha256 b := GmPq.padTo 32 b
  aeadEncrypt _ nonce plaintext := some (plaintext.map (· ^^^ plainMask nonce) ++ nonce.val)
  aeadDecrypt _ nonce ct :=
    if ct.drop (ct.length - 12) = nonce.val then
      some ((ct.take (ct.length - 12)).map (· ^^^ plainMask nonce))
    else none
  gm := GmPq.plainPrimitives
  kem := GmPq.defaultHybrid GmPq.plainPrimitives GmPq.plainSm2 GmPq.plainMlKem

theorem plainAlgorithms_aeadCorrect : plainAlgorithms.AeadCorrect := by
  intro key nonce plaintext
  refine ⟨_, rfl, ?_⟩
  have hLen : (plaintext.map (· ^^^ plainMask nonce) ++ nonce.val).length - 12 =
      (plaintext.map (· ^^^ plainMask nonce)).length := by
    simp [nonce.property]
  -- masking twice with one mask is the identity
  have hUnmask : (· ^^^ plainMask nonce) ∘ (· ^^^ plainMask nonce) = id := by
    funext b
    change b ^^^ plainMask nonce ^^^ plainMask nonce = b
    rw [UInt8.xor_assoc, UInt8.xor_self, UInt8.xor_zero]
  simp only [plainAlgorithms, hLen, List.drop_left', List.take_left', if_pos]
  simp [hUnmask]

end DirectWire.Mesh
