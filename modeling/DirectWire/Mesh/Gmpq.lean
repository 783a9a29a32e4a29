import DirectWire.GmPq.Handshake
import DirectWire.Mesh.Crypto

/-!
# Mesh — the GM-PQ channel of a peer

`gmpq.rs`, and the channel state of `node.rs`. The GM-PQ static key is not
the node's identity, so after the handshake both sides send a BIND message
through the session: an ed25519 signature over the key, the node id and the
session id.
-/

namespace DirectWire.Mesh

open Lib Outcome

def gmTag : UInt8 := 0x47

def gmMsg1 : UInt8 := 0x01

def gmCookie : UInt8 := 0x02

def gmMsg1Retry : UInt8 := 0x03

def gmMsg2 : UInt8 := 0x04

def gmMsg3 : UInt8 := 0x05

def gmData : UInt8 := 0xD0

def gmKick : UInt8 := 0x4B

def bindPrefix : Bytes := ascii "BND1"

structure GmIdentity (A : Algorithms) where
  sk : A.kem.SecretKey
  pk : Bytes

/-- Where the GM-PQ handshake with a peer stands. The node with the smaller
id is the client. -/
inductive GmState (A : Algorithms) where
  | serverWaitMsg1
  | serverWaitRetry (ePk : Bytes)
  | serverWaitMsg3 (resp : GmPq.Responder A.kem.toKem)
  | clientWaitCookie (init : GmPq.Initiator A.kem.toKem) (ePk : Bytes)
  | clientWaitMsg2 (init : GmPq.Initiator A.kem.toKem)
  | readyUnbound (session : GmPq.Session) (peerGmPk : Bytes)
  | ready (session : GmPq.Session)

/-! ## The BIND message -/

section

variable (A : Algorithms)

def bindingMsg (gmPk : Bytes) (id : NodeId) (sessionId : Fixed 32) : Bytes :=
  ascii "p2p-mesh/gmpq-bind" ++ (GmPq.sm3 A.gm [gmPk]).val ++ id.val ++ sessionId.val

def signBinding (me : NodeIdentity) (gmPk : Bytes) (sessionId : Fixed 32) : Fixed 64 :=
  me.sign A (bindingMsg A gmPk (me.nodeId A) sessionId)

def verifyBinding (peer : NodeId) (peerGmPk : Bytes) (sessionId : Fixed 32) (sig : Fixed 64) :
    Bool :=
  verify A peer (bindingMsg A peerGmPk peer sessionId) sig

def buildBind (me : NodeIdentity) (gmPk : Bytes) (sessionId : Fixed 32) : Bytes :=
  bindPrefix ++ (me.nodeId A).val ++ (signBinding A me gmPk sessionId).val

def parseBind (plaintext : Bytes) (expectedPeer : NodeId) (peerGmPk : Bytes)
    (sessionId : Fixed 32) : Outcome String NodeId := do
  if plaintext.length ≠ 4 + 32 + 64 ∨ ¬ bindPrefix.isPrefixOf plaintext then
    err "malformed BIND message"
  else
    -- `BND1 ‖ node id ‖ signature`
    let id : NodeId ← sliceArray plaintext 4 32
    let sig ← sliceArray plaintext 36 64
    if id ≠ expectedPeer then
      err "BIND NodeId does not match the expected peer"
    -- the session id in the signed text ties it to this handshake
    else if ¬ verifyBinding A id peerGmPk sessionId sig then
      err ("BIND signature verification failed " ++
        "(identity binding mismatch / session split by a MITM)")
    else ok id

end

theorem noPanic_parseBind (A : Algorithms) (plaintext : Bytes) (expectedPeer : NodeId)
    (peerGmPk : Bytes) (sessionId : Fixed 32) :
    (parseBind A plaintext expectedPeer peerGmPk sessionId).NoPanic := by
  unfold parseBind
  split
  · exact noPanic_err _
  · rename_i hShape
    have hLen : plaintext.length = 100 := by
      by_contra hLen
      exact hShape (.inl hLen)
    simp only [noPanic_bind, noPanic_sliceArray]
    refine ⟨by omega, fun _ _ => ⟨by omega, fun _ _ => ?_⟩⟩
    split
    · exact noPanic_err _
    · split <;> simp

/-- The plaintext is a BIND message of a node: its id, and its signature over the
fingerprint of a static key, the id and a session. -/
def IsBind (A : Algorithms) (peer : NodeId) (peerGmPk : Bytes) (sessionId : Fixed 32)
    (plaintext : Bytes) : Prop :=
  ∃ sig : Fixed 64, plaintext = bindPrefix ++ peer.val ++ sig.val ∧
    verify A peer (bindingMsg A peerGmPk peer sessionId) sig = true

theorem isBind_of_parseBind {A plaintext expectedPeer id peerGmPk sessionId}
    (h : parseBind A plaintext expectedPeer peerGmPk sessionId = ok id) :
    IsBind A expectedPeer peerGmPk sessionId plaintext := by
  unfold parseBind at h
  split at h
  · cases h
  · rename_i hShape
    rw [not_or, not_not, not_not] at hShape
    obtain ⟨hLen, hPrefix⟩ := hShape
    obtain ⟨got, hGot, h⟩ := bind_eq_ok.mp h
    obtain ⟨sig, hSig, h⟩ := bind_eq_ok.mp h
    split at h
    · cases h
    · rename_i hPeer
      split at h
      · cases h
      · rename_i hVerify
        have hPeer : got = expectedPeer := not_not.mp hPeer
        subst hPeer
        refine ⟨sig, ?_, not_not.mp hVerify⟩
        -- the three parts are the whole plaintext
        have hTake : bindPrefix = plaintext.take 4 :=
          List.prefix_iff_eq_take.mp (List.isPrefixOf_iff_prefix.mp hPrefix)
        have hId := (sliceArray_eq_ok.mp hGot).2
        have hRest := (sliceArray_eq_ok.mp hSig).2
        have hAll : (plaintext.drop 36).take 64 = plaintext.drop 36 :=
          List.take_of_length_le (by rw [List.length_drop]; omega)
        rw [← hId, ← hRest, hTake, hAll, List.append_assoc, show 36 = 4 + 32 from rfl,
          ← List.drop_drop, List.take_append_drop, List.take_append_drop]

end DirectWire.Mesh
