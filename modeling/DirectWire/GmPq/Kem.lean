import DirectWire.GmPq.Crypto

/-!
# GM-PQ — key encapsulation

`kem/mod.rs`: the interface of a KEM, and of a KEM whose keys can also
sign. The handshake is generic over it. An operation that draws randomness
takes what it drew as an argument of type `Rand`.

`Lawful` is what the handshake relies on, for honest keys only: keys that
`keypair` returned.
-/

namespace DirectWire.GmPq

open Lib Outcome

structure Kem where
  name : Bytes
  publicKeyLen : Nat
  ciphertextLen : Nat
  SecretKey : Type
  /-- What one operation draws from the random source. -/
  Rand : Type
  keypair : Rand → Outcome Error (SecretKey × Bytes)
  encapsulate : Rand → Bytes → Outcome Error (Bytes × Fixed 32)
  decapsulate : SecretKey → Bytes → Outcome Error (Fixed 32)
  publicOf : SecretKey → Bytes
  validatePublic : Bytes → Outcome Error Unit

structure StaticAuth extends Kem where
  signatureLen : Nat
  sign : SecretKey → Fixed 32 → Outcome Error Bytes
  verify : Bytes → Fixed 32 → Bytes → Outcome Error Unit

def Kem.Honest (K : Kem) (sk : K.SecretKey) (pk : Bytes) : Prop := ∃ r, K.keypair r = ok (sk, pk)

/-- The operations succeed on honest keys, with outputs of the declared
lengths, and undo each other. -/
structure StaticAuth.Lawful (K : StaticAuth) : Prop where
  keypair_ok : ∀ r, ∃ sk pk, K.keypair r = ok (sk, pk)
  publicKey_length : ∀ sk pk, K.Honest sk pk → pk.length = K.publicKeyLen
  validate_ok : ∀ sk pk, K.Honest sk pk → K.validatePublic pk = ok ()
  encapsulate_ok : ∀ sk pk, K.Honest sk pk → ∀ r, ∃ ct secret, K.encapsulate r pk = ok (ct, secret)
  ciphertext_length : ∀ sk pk, K.Honest sk pk → ∀ r ct secret,
    K.encapsulate r pk = ok (ct, secret) → ct.length = K.ciphertextLen
  decapsulate_encapsulate : ∀ sk pk, K.Honest sk pk → ∀ r ct secret,
    K.encapsulate r pk = ok (ct, secret) → K.decapsulate sk ct = ok secret
  sign_ok : ∀ sk pk, K.Honest sk pk → ∀ h, ∃ sig, K.sign sk h = ok sig
  signature_length : ∀ sk pk, K.Honest sk pk → ∀ h sig,
    K.sign sk h = ok sig → sig.length = K.signatureLen
  verify_sign : ∀ sk pk, K.Honest sk pk → ∀ h sig, K.sign sk h = ok sig → K.verify pk h sig = ok ()

theorem StaticAuth.Lawful.exists_encapsulate {K : StaticAuth} (h : K.Lawful) {sk : K.SecretKey}
    {pk : Bytes} (hKey : K.Honest sk pk) (r : K.Rand) :
    ∃ ct secret, K.encapsulate r pk = ok (ct, secret) ∧ K.decapsulate sk ct = ok secret ∧
      ct.length = K.ciphertextLen := by
  obtain ⟨ct, secret, hEnc⟩ := h.encapsulate_ok sk pk hKey r
  exact ⟨ct, secret, hEnc, h.decapsulate_encapsulate sk pk hKey r ct secret hEnc,
    h.ciphertext_length sk pk hKey r ct secret hEnc⟩

/-- No operation of the KEM panics, whatever bytes it is given. -/
structure Kem.Total (K : Kem) : Prop where
  keypair : ∀ r, (K.keypair r).NoPanic
  encapsulate : ∀ r pk, (K.encapsulate r pk).NoPanic
  decapsulate : ∀ sk ct, (K.decapsulate sk ct).NoPanic
  validatePublic : ∀ pk, (K.validatePublic pk).NoPanic

structure StaticAuth.Total (K : StaticAuth) : Prop extends toKem : Kem.Total K.toKem where
  sign : ∀ sk h, (K.sign sk h).NoPanic
  verify : ∀ pk h sig, (K.verify pk h sig).NoPanic

/-! ## A KEM for concrete runs -/

/-- A KEM that hides nothing: a key is one byte, its own public key and its
own signature, and the secret is the drawn byte followed by the key. -/
def plainAuth : StaticAuth where
  name := ascii "plain"
  publicKeyLen := 1
  ciphertextLen := 1
  SecretKey := UInt8
  Rand := UInt8
  keypair r := ok (r, [r])
  encapsulate r pk := ok ([r], padTo 32 (r :: pk))
  decapsulate sk ct := ok (padTo 32 (ct ++ [sk]))
  publicOf sk := [sk]
  validatePublic pk := if pk.length = 1 then ok () else err (.invalidEncoding "key length")
  signatureLen := 1
  sign sk _ := ok [sk]
  verify pk _ sig := if sig = pk then ok () else err .authFailed

theorem plainAuth_honest {sk : UInt8} {pk : Bytes} (h : plainAuth.Honest sk pk) : pk = [sk] := by
  obtain ⟨r, hKey⟩ := h
  cases hKey
  rfl

theorem plainAuth_lawful : plainAuth.Lawful where
  keypair_ok r := ⟨r, [r], rfl⟩
  publicKey_length _ _ h := by
    rw [plainAuth_honest h]
    rfl
  validate_ok _ _ h := by
    rw [plainAuth_honest h]
    rfl
  encapsulate_ok _ pk _ r := ⟨[r], padTo 32 (r :: pk), rfl⟩
  ciphertext_length _ _ _ _ _ _ hEnc := by
    cases hEnc
    rfl
  decapsulate_encapsulate _ _ h _ _ _ hEnc := by
    cases hEnc
    rw [plainAuth_honest h]
    rfl
  sign_ok sk _ _ _ := ⟨[sk], rfl⟩
  signature_length _ _ _ _ _ hSig := by
    cases hSig
    rfl
  verify_sign _ _ h _ _ hSig := by
    cases hSig
    rw [plainAuth_honest h]
    exact if_pos rfl

end DirectWire.GmPq
