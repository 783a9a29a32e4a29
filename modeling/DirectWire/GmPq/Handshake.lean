import DirectWire.GmPq.Kem
import DirectWire.GmPq.Session
import DirectWire.GmPq.Trust

/-!
# GM-PQ — the three-message handshake

`handshake/mod.rs`: Noise XX with KEM encapsulations, and an optional pre-shared key.

```
  message 1  e_i
  message 2  e_r ‖ ct_ee ‖ AEAD(s_r)
  message 3  ct_se ‖ ct_ss ‖ AEAD(s_i ‖ signature)
```

A caller drops the state machine when a step fails. Three logs are kept beside the code:
`extracted`, what went into the chaining key; `drawn`, the secrets a party encapsulated; and
`sealed`, its SM4-GCM encryptions.
-/

namespace DirectWire.GmPq

open Lib Outcome

def prologue : Bytes := ascii "gm-pq-stack-handshake/v1"

def infoStaticEnc : Bytes := ascii "static-key-enc"

def infoSplit : Bytes := ascii "transport-split"

def infoEarly : Bytes := ascii "early-data"

def pskLabel : Bytes := ascii "psk"

/-! ## The symmetric state -/

structure SymmetricState where
  ck : Fixed 32
  h : Fixed 32
  /-- The chaining keys and inputs extracted from so far, oldest first. -/
  extracted : List (Fixed 32 × Bytes)
deriving DecidableEq

namespace SymmetricState

variable (P : Primitives) (s : SymmetricState)

def new (protoName : Bytes) : SymmetricState :=
  let h := sm3 P [prologue, protoName]
  ⟨h, h, []⟩

def mixHash (data : Bytes) : SymmetricState := { s with h := sm3 P [s.h.val, data] }

def mixKey (ikm : Bytes) : SymmetricState :=
  { s with ck := hkdfExtract P (some s.ck.val) ikm, extracted := s.extracted ++ [(s.ck, ikm)] }

def newWithPsk (protoName : Bytes) (psk : Fixed 32) : SymmetricState :=
  (new P protoName).mixKey P (pskLabel ++ psk.val)

def encryptionKey (info : Bytes) : Fixed 16 := hkdfExpand P s.ck info 16

def earlyDataAead : Aead := Aead.new (s.encryptionKey P infoEarly)

def split : Fixed 16 × Fixed 16 × Fixed 32 :=
  let material := hkdfExpand P s.ck infoSplit 32
  (⟨material.val.take 16, by simp⟩, ⟨material.val.drop 16, by simp⟩, s.h)

end SymmetricState

/-! ## Sealed static keys -/

/-- The encryption of `seal_static` and `seal_early_data`: sequence number
zero. -/
def staticCall (key : Fixed 16) (aad : Fixed 32) (plaintext : Bytes) : GcmCall :=
  (Aead.new key).callWithSeq 0 aad.val plaintext

section

variable (P : Primitives)

/-- `ciphertext ‖ tag`, without the sequence number. -/
def sealStatic (a : Aead) (aad : Fixed 32) (pk : Bytes) : Bytes :=
  (a.sealWithSeq P 0 aad.val pk).drop 8

def asPeerAuth {α : Type} : Outcome Error α → Outcome Error α
  | .err .authFailed => err .peerAuth
  | x => x

def openStatic (a : Aead) (aad : Fixed 32) (data : Bytes) : Outcome Error (UInt64 × Bytes) :=
  asPeerAuth (a.openPacket P aad.val (beBytes 8 0 ++ data))

end

/-! ## Initiator -/

structure Initiator (K : Kem) where
  ss : SymmetricState
  staticSk : Option K.SecretKey
  staticPk : Bytes
  ephSk : Option K.SecretKey
  /-- The sealed static key of message 2, opened for message 3. -/
  encPeerStatic : Option Bytes
  peerEphPk : Option Bytes
  peerCtEe : Option Bytes
  peerStatic : Option Bytes
  drawn : List (Fixed 32)
  sealed : List GcmCall

namespace Initiator

variable {K : Kem} (P : Primitives) (i : Initiator K)

def new (staticSk : K.SecretKey) (staticPk : Bytes) : Initiator K :=
  ⟨SymmetricState.new P K.name, some staticSk, staticPk, none, none, none, none, none, [], []⟩

def newWithPsk (staticSk : K.SecretKey) (staticPk : Bytes) (psk : Fixed 32) : Initiator K :=
  { new P staticSk staticPk with ss := SymmetricState.newWithPsk P K.name psk }

def create (staticSk : K.SecretKey) (staticPk : Bytes) : Option (Fixed 32) → Initiator K
  | none => new P staticSk staticPk
  | some psk => newWithPsk P staticSk staticPk psk

def writeMsg1 (r : K.Rand) : Outcome Error (Bytes × Initiator K) := do
  if i.ephSk.isSome then
    err (.handshakeState "msg1 can only be written once")
  else
    let (eSk, ePk) ← K.keypair r
    ok (ePk, { i with ss := i.ss.mixHash P ePk, ephSk := some eSk })

def sealEarlyData (plaintext : Bytes) : Outcome Error (Bytes × Initiator K) :=
  if i.ephSk.isNone then err (.handshakeState "must write msg1 first")
  else
    let aead := i.ss.earlyDataAead P
    -- the sequence number is always zero and is not sent
    let packet := aead.sealWithSeq P 0 i.ss.h.val plaintext
    ok (packet.drop 8, { i with sealed := i.sealed ++ [staticCall aead.key i.ss.h plaintext] })

def readMsg2 (msg : Bytes) : Outcome Error (Initiator K) := do
  let expect := K.publicKeyLen + K.ciphertextLen
  -- what follows the two fixed parts is at least a tag
  if msg.length < expect + 16 then
    err (.invalidEncoding "invalid msg2 length")
  else
    let ephPk ← slice msg 0 K.publicKeyLen
    let ctEe ← slice msg K.publicKeyLen expect
    let encStatic ← sliceFrom msg expect
    let _ ← K.validatePublic ephPk
    let ss := (i.ss.mixHash P ephPk).mixHash P ctEe
    -- borrowed and not taken: message 3 does not need it, a second message 2 would
    let ephSk ← okOr i.ephSk (.handshakeState "missing ephemeral secret key")
    let ssEe ← K.decapsulate ephSk ctEe
    ok { i with
      ss := ss.mixKey P ssEe.val
      encPeerStatic := some encStatic
      peerEphPk := some ephPk
      peerCtEe := some ctEe }

def signWith (signer : Option (Fixed 32 → Outcome Error Bytes)) (h : Fixed 32) :
    Outcome Error Bytes :=
  match signer with
  | none => ok []
  | some sign => sign h

def checkWith (peerCheck : Option (Bytes → Outcome Error Unit)) (pk : Bytes) : Outcome Error Unit :=
  match peerCheck with
  | none => ok ()
  | some check => check pk

def writeMsg3Inner (rSe rSs : K.Rand) (signer : Option (Fixed 32 → Outcome Error Bytes))
    (peerCheck : Option (Bytes → Outcome Error Unit)) :
    Outcome Error (Bytes × Session × Initiator K) := do
  let encStatic ← okOr i.encPeerStatic (.handshakeState "must read msg2 first")
  let peerEphPk ← unwrap i.peerEphPk
  let aead := Aead.new (i.ss.encryptionKey P infoStaticEnc)
  -- sealed under the state before it was mixed in
  let (_, sRPk) ← openStatic P aead i.ss.h encStatic
  let _ ← K.validatePublic sRPk
  let _ ← checkWith peerCheck sRPk
  let ss := i.ss.mixHash P encStatic
  let (ctSe, ssSe) ← K.encapsulate rSe peerEphPk
  -- only the owner of the opened static key can get this secret back
  let (ctSs, ssSs) ← K.encapsulate rSs sRPk
  let ss := ((ss.mixKey P (ssSe.val ++ ssSs.val)).mixHash P ctSe).mixHash P ctSs
  -- the signature covers everything up to the two ciphertexts
  let sig ← signWith signer ss.h
  let plaintext := i.staticPk ++ sig
  let key3 := ss.encryptionKey P infoStaticEnc
  let encSi := sealStatic P (Aead.new key3) ss.h plaintext
  let call := staticCall key3 ss.h plaintext
  let ss := ss.mixHash P encSi
  let (kI2r, kR2i, sessionId) := ss.split P
  ok (ctSe ++ ctSs ++ encSi, Session.new kI2r kR2i sessionId,
    { i with
      ss
      encPeerStatic := none
      peerEphPk := none
      peerStatic := some sRPk
      drawn := i.drawn ++ [ssSe, ssSs]
      sealed := i.sealed ++ [call] })

def writeMsg3 (rSe rSs : K.Rand) : Outcome Error (Bytes × Session × Initiator K) :=
  i.writeMsg3Inner P rSe rSs none none

/-- Message 3 with a signature, checking the responder against the anchor. -/
def writeMsg3WithAuth {K : StaticAuth} (i : Initiator K.toKem) (rSe rSs : K.Rand)
    (anchor : TrustAnchor) : Outcome Error (Bytes × Session × Initiator K.toKem) := do
  let sk ← okOr i.staticSk (.handshakeState "static secret key already consumed")
  -- `take`: a second message 3 has no key to sign with
  writeMsg3Inner P { i with staticSk := none } rSe rSs (some (K.sign sk))
    (some (anchor .responder))

end Initiator

/-! ## Responder -/

structure Responder (K : Kem) where
  ss : SymmetricState
  staticSk : K.SecretKey
  staticPk : Bytes
  ephSk : Option K.SecretKey
  peerEphPk : Option Bytes
  done : Option (Fixed 16 × Fixed 16 × Fixed 32)
  drawn : List (Fixed 32)
  sealed : List GcmCall

namespace Responder

variable {K : Kem} (P : Primitives) (s : Responder K)

def new (staticSk : K.SecretKey) (staticPk : Bytes) : Responder K :=
  ⟨SymmetricState.new P K.name, staticSk, staticPk, none, none, none, [], []⟩

def newWithPsk (staticSk : K.SecretKey) (staticPk : Bytes) (psk : Fixed 32) : Responder K :=
  { new P staticSk staticPk with ss := SymmetricState.newWithPsk P K.name psk }

def create (staticSk : K.SecretKey) (staticPk : Bytes) : Option (Fixed 32) → Responder K
  | none => new P staticSk staticPk
  | some psk => newWithPsk P staticSk staticPk psk

def readMsg1 (msg : Bytes) : Outcome Error (Responder K) := do
  let _ ← K.validatePublic msg
  ok { s with ss := s.ss.mixHash P msg, peerEphPk := some msg }

def openEarlyData (data : Bytes) : Outcome Error Bytes := do
  if s.peerEphPk.isNone then
    err (.handshakeState "must read msg1 first")
  else
    let (_, plaintext) ← openStatic P (s.ss.earlyDataAead P) s.ss.h data
    ok plaintext

def writeMsg2 (rEph rEe : K.Rand) : Outcome Error (Bytes × Responder K) := do
  let peerEph ← okOr s.peerEphPk (.handshakeState "must read msg1 first")
  let (eSk, ePk) ← K.keypair rEph
  let ss := s.ss.mixHash P ePk
  let (ctEe, ssEe) ← K.encapsulate rEe peerEph
  let ss := (ss.mixHash P ctEe).mixKey P ssEe.val
  let keyS := ss.encryptionKey P infoStaticEnc
  let encStatic := sealStatic P (Aead.new keyS) ss.h s.staticPk
  let call := staticCall keyS ss.h s.staticPk
  ok (ePk ++ ctEe ++ encStatic,
    { s with
      ss := ss.mixHash P encStatic
      ephSk := some eSk
      drawn := s.drawn ++ [ssEe]
      sealed := s.sealed ++ [call] })

/-- Message 3: the session, the opened static key with what follows it, and
the transcript hash that was signed. -/
def readMsg3Inner (msg : Bytes) : Outcome Error ((Session × Bytes × Fixed 32) × Responder K) := do
  let expect := 2 * K.ciphertextLen
  if msg.length < expect + 16 then
    err (.invalidEncoding "invalid msg3 length")
  else
    let ctSe ← slice msg 0 K.ciphertextLen
    let ctSs ← slice msg K.ciphertextLen expect
    let encStatic ← sliceFrom msg expect
    -- `take`: the ephemeral key is used for one message 3
    let ephSk ← okOr s.ephSk (.handshakeState "msg3 read twice")
    let ssSe ← K.decapsulate ephSk ctSe
    let ssSs ← K.decapsulate s.staticSk ctSs
    let ss := ((s.ss.mixKey P (ssSe.val ++ ssSs.val)).mixHash P ctSe).mixHash P ctSs
    -- the hash the initiator signed, before its sealed key is mixed in
    let hSign := ss.h
    let aead := Aead.new (ss.encryptionKey P infoStaticEnc)
    let (_, staticPlain) ← openStatic P aead ss.h encStatic
    let ss := ss.mixHash P encStatic
    let (kI2r, kR2i, sessionId) := ss.split P
    -- the responder sends under the second key and receives under the first
    ok ((Session.new kR2i kI2r sessionId, staticPlain, hSign),
      { s with ss, ephSk := none, done := some (kR2i, kI2r, sessionId) })

def readMsg3 (msg : Bytes) : Outcome Error (Session × Responder K) := do
  -- a signature is not expected here, and makes the length wrong
  let ((session, staticPlain, _), s) ← s.readMsg3Inner P msg
  if staticPlain.length ≠ K.publicKeyLen then
    err (.invalidEncoding "invalid msg3 static public key length")
  else
    let _ ← K.validatePublic staticPlain
    ok (session, s)

/-- Message 3 with the initiator's signature, checking the initiator against
the anchor: the session and the initiator's static key. -/
def readMsg3WithAuth {K : StaticAuth} (s : Responder K.toKem) (msg : Bytes)
    (anchor : TrustAnchor) : Outcome Error ((Session × Bytes) × Responder K.toKem) := do
  let ((session, staticPlain, hSign), s) ← s.readMsg3Inner P msg
  -- `pk ‖ signature`
  if staticPlain.length ≠ K.publicKeyLen + K.signatureLen then
    err (.invalidEncoding "msg3 missing initiator signature")
  else
    let pk := staticPlain.take K.publicKeyLen
    let sig := staticPlain.drop K.publicKeyLen
    let _ ← K.validatePublic pk
    let _ ← K.verify pk hSign sig
    -- trust is asked for last, of a key that has signed
    let _ ← anchor .initiator pk
    ok ((session, pk), s)

end Responder

end DirectWire.GmPq
