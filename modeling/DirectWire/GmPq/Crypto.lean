import DirectWire.Lib.Bytes

/-!
# GM-PQ — primitives and the AEAD frame

`crypto.rs` and the error type of `lib.rs`. SM3, HKDF, HMAC and SM4-GCM come from a library
outside the repository; they are the fields of `Primitives`.

An `Aead` frames SM4-GCM as `seq ‖ ciphertext ‖ tag`, with the sequence number as the nonce
(`Aead.openPacket_sealWithSeq`). Each encryption is also described by a `GcmCall`.
-/

namespace DirectWire.GmPq

open Lib Outcome

/-- The errors of the library. An error of a stream is not one of them here. -/
inductive Error where
  | sm
  | invalidEncoding (msg : String)
  | authFailed
  | handshakeState (msg : String)
  | replay
  | peerAuth
deriving DecidableEq, Repr

/-- The text an error is shown as. What an algorithm error says is up to the
algorithm library. -/
def Error.display : Error → String
  | .sm => "national-crypto algorithm error"
  | .invalidEncoding m => "invalid encoding: " ++ m
  | .authFailed => "AEAD authentication failed"
  | .handshakeState m => "handshake state error: " ++ m
  | .replay => "replayed packet detected"
  | .peerAuth => "peer identity verification failed"

structure Primitives where
  sm3 : Bytes → Fixed 32
  hkdfExtract : Option Bytes → Bytes → Fixed 32
  /-- Output of any length the library asks for (16 and 32 bytes). -/
  hkdfExpand : Fixed 32 → Bytes → (len : Nat) → Fixed len
  hmacSm3 : Bytes → Bytes → Fixed 32
  /-- Key, nonce, associated data and plaintext to ciphertext and tag. -/
  gcmEncrypt : Fixed 16 → Fixed 12 → Bytes → Bytes → Bytes × Fixed 16
  gcmDecrypt : Fixed 16 → Fixed 12 → Bytes → Bytes → Fixed 16 → Option Bytes

def Primitives.GcmCorrect (P : Primitives) : Prop :=
  ∀ key nonce aad plaintext,
    P.gcmDecrypt key nonce aad (P.gcmEncrypt key nonce aad plaintext).1
      (P.gcmEncrypt key nonce aad plaintext).2 = some plaintext

def kdfDomain : Bytes := ascii "gm-pq-stack v0.1"

section

variable (P : Primitives)

def sm3 (parts : List Bytes) : Fixed 32 := P.sm3 parts.flatten

def hkdfExtract (salt : Option Bytes) (ikm : Bytes) : Fixed 32 := P.hkdfExtract salt ikm

def hkdfExpand (prk : Fixed 32) (info : Bytes) (len : Nat) : Fixed len :=
  P.hkdfExpand prk (kdfDomain ++ info) len

end

/-! ## The AEAD frame -/

structure GcmCall where
  key : Fixed 16
  nonce : Fixed 12
  aad : Bytes
  plaintext : Bytes
deriving DecidableEq

structure Aead where
  key : Fixed 16
  txSeq : UInt64
deriving DecidableEq

namespace Aead

def new (key : Fixed 16) : Aead := ⟨key, 0⟩

def nonce (seq : UInt64) : Fixed 12 :=
  ⟨List.replicate 4 0 ++ beBytes 8 seq.toNat, by simp⟩

/-- The encryption `seal_with_seq` makes. -/
def callWithSeq (a : Aead) (seq : UInt64) (aad plaintext : Bytes) : GcmCall :=
  ⟨a.key, nonce seq, aad, plaintext⟩

variable (P : Primitives)

/-- `seq ‖ ciphertext ‖ tag`. -/
def sealWithSeq (a : Aead) (seq : UInt64) (aad plaintext : Bytes) : Bytes :=
  let call := a.callWithSeq seq aad plaintext
  let r := P.gcmEncrypt call.key call.nonce call.aad call.plaintext
  beBytes 8 seq.toNat ++ r.1 ++ r.2.val

/-- `seal`: seal under the next sequence number. -/
def sealNext {ε : Type} (a : Aead) (aad plaintext : Bytes) : Outcome ε (Bytes × Aead) :=
  if a.txSeq.toNat + 1 < 2 ^ 64 then
    ok (a.sealWithSeq P a.txSeq aad plaintext, { a with txSeq := a.txSeq + 1 })
  else panic (.expectFailed "sequence number exhausted (2^64 message ceiling)")

/-- `open`: decrypt a packet to its sequence number and plaintext. -/
def openPacket (a : Aead) (aad packet : Bytes) : Outcome Error (UInt64 × Bytes) := do
  if packet.length < 8 + 16 then
    err (.invalidEncoding "AEAD packet too short")
  else
    let seqBytes ← sliceArray packet 0 8
    let seq := UInt64.ofNat (beNat seqBytes.val)
    -- at least 24 bytes, so the cuts do not cross
    let ctEnd := packet.length - 16
    let ct ← slice packet 8 ctEnd
    let tag ← sliceArray packet ctEnd 16
    let plaintext ← okOr (P.gcmDecrypt a.key (nonce seq) aad ct tag) .authFailed
    ok (seq, plaintext)

variable {P}

theorem nonce_injective {seq seq'} (h : nonce seq = nonce seq') : seq = seq' := by
  have hBytes : beBytes 8 seq.toNat = beBytes 8 seq'.toNat := by
    -- behind the four zero bytes
    have hVal := congrArg Subtype.val h
    exact List.append_cancel_left hVal
  have hNat : seq.toNat = seq'.toNat := by
    rw [← beNat_beBytes (u64_lt_pow seq), hBytes, beNat_beBytes (u64_lt_pow seq')]
  exact UInt64.toNat_inj.mp hNat

/-- **AEAD round trip.** -/
theorem openPacket_sealWithSeq (hGcm : P.GcmCorrect) (a b : Aead) (hKey : b.key = a.key)
    (seq : UInt64) (aad plaintext : Bytes) :
    b.openPacket P aad (a.sealWithSeq P seq aad plaintext) = ok (seq, plaintext) := by
  set ct := (P.gcmEncrypt a.key (nonce seq) aad plaintext).1 with hCt
  set tag := (P.gcmEncrypt a.key (nonce seq) aad plaintext).2 with hTag
  have hPacket : a.sealWithSeq P seq aad plaintext = beBytes 8 seq.toNat ++ ct ++ tag.val := rfl
  have hLen : (beBytes 8 seq.toNat ++ ct ++ tag.val).length = 8 + ct.length + 16 := by
    simp
    omega
  have hEnd : (beBytes 8 seq.toNat ++ ct ++ tag.val).length - 16 = 8 + ct.length := by omega
  -- the three fields of the packet
  have hSeq : sliceArray (beBytes 8 seq.toNat ++ ct ++ tag.val) 0 8 =
      (ok ⟨beBytes 8 seq.toNat, beBytes_length _ _⟩ : Outcome Error _) :=
    sliceArray_first (beBytes_length _ _)
  have hBody : slice (beBytes 8 seq.toNat ++ ct ++ tag.val) 8 (8 + ct.length) =
      (ok ct : Outcome Error _) :=
    slice_second (beBytes_length _ _) rfl
  have hMac : sliceArray (beBytes 8 seq.toNat ++ ct ++ tag.val) (8 + ct.length) 16 =
      (ok tag : Outcome Error _) :=
    sliceArray_third (by rw [beBytes_length]) tag.property
  rw [hPacket, Aead.openPacket, if_neg (by omega)]
  simp only [hEnd, hSeq, hBody, hMac, ok_bind, beNat_beBytes (u64_lt_pow seq),
    UInt64.ofNat_toNat, hKey]
  rw [hCt, hTag, hGcm, okOr_some, ok_bind]

end Aead

/-! ## Primitives for concrete runs -/

/-- Pad with zeros, or cut, to `n` bytes. -/
def padTo (n : Nat) (b : Bytes) : Fixed n :=
  ⟨b.take n ++ List.replicate (n - b.length) 0, by simp; omega⟩

/-- Primitives that hide nothing: hashes pad or cut their input and the
cipher is the identity with a zero tag. -/
def plainPrimitives : Primitives where
  sm3 b := padTo 32 b
  hkdfExtract _ ikm := padTo 32 ikm
  hkdfExpand prk _ len := padTo len prk.val
  hmacSm3 _ b := padTo 32 b
  gcmEncrypt _ _ _ plaintext := (plaintext, padTo 16 [])
  gcmDecrypt _ _ _ ct _ := some ct

theorem plainPrimitives_gcmCorrect : plainPrimitives.GcmCorrect := fun _ _ _ _ => rfl

end DirectWire.GmPq
