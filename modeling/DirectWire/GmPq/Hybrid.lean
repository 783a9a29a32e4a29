import DirectWire.GmPq.Kem
import DirectWire.Lib.RollingHash

/-!
# GM-PQ — the KEMs of the stack

`kem/sm2.rs`, `kem/mlkem.rs` and `kem/hybrid.rs`. The curve and lattice arithmetic comes from
libraries outside the repository and is a parameter here.
-/

namespace DirectWire.GmPq

open Lib Outcome

/-! ## SM2 -/

structure Sm2Lib where
  PrivateKey : Type
  Rand : Type
  generateKeypair : Rand → PrivateKey × Fixed 65
  ecdh : PrivateKey → Fixed 65 → Option (Fixed 32)
  publicKey : PrivateKey → Fixed 65
  sign : Fixed 32 → PrivateKey → Fixed 64
  verify : Fixed 32 → Fixed 65 → Fixed 64 → Bool

namespace Sm2Kem

variable (L : Sm2Lib)

/-- A length check; the curve equation is checked by `ecdh`. -/
def validatePublic (pk : Bytes) : Outcome Error Unit :=
  if pk.length ≠ 65 then
    err (.invalidEncoding "SM2 public key must be a 65-byte uncompressed point")
  else ok ()

def encapsulate (r : L.Rand) (peerPublic : Bytes) : Outcome Error (Bytes × Fixed 32) := do
  let _ ← validatePublic peerPublic
  -- `try_into().unwrap()` on a slice whose length was checked
  let peer ← Fixed.ofBytes 65 peerPublic
  let (ephSk, ephPk) := L.generateKeypair r
  -- the ephemeral key is the ciphertext; a point off the curve fails here
  let ss ← okOr (L.ecdh ephSk peer) .sm
  ok (ephPk.val, ss)

def decapsulate (sk : L.PrivateKey) (ct : Bytes) : Outcome Error (Fixed 32) := do
  let _ ← validatePublic ct
  let ephPeer ← Fixed.ofBytes 65 ct
  okOr (L.ecdh sk ephPeer) .sm

def verify (pk : Bytes) (transcriptHash : Fixed 32) (sig : Bytes) : Outcome Error Unit := do
  let _ ← validatePublic pk
  if sig.length ≠ 64 then
    err (.invalidEncoding "SM2 signature must be 64 bytes (r||s)")
  else
    let pubKey ← Fixed.ofBytes 65 pk
    let sigArr ← Fixed.ofBytes 64 sig
    -- a bad signature and a wrong peer are the same error
    if L.verify transcriptHash pubKey sigArr then ok () else err .peerAuth

end Sm2Kem

def sm2Kem (L : Sm2Lib) : StaticAuth where
  name := ascii "SM2-ECDH"
  publicKeyLen := 65
  ciphertextLen := 65
  SecretKey := L.PrivateKey
  Rand := L.Rand
  keypair r := ok ((L.generateKeypair r).1, (L.generateKeypair r).2.val)
  encapsulate := Sm2Kem.encapsulate L
  decapsulate := Sm2Kem.decapsulate L
  publicOf sk := (L.publicKey sk).val
  validatePublic := Sm2Kem.validatePublic
  signatureLen := 64
  sign sk h := ok (L.sign h sk).val
  verify := Sm2Kem.verify L

/-! ## ML-KEM-768 -/

structure MlKemLib where
  DecapsulationKey : Type
  EncapsulationKey : Type
  Rand : Type
  generateKeypair : Rand → DecapsulationKey × Fixed 1184
  decodeKey : Fixed 1184 → Option EncapsulationKey
  encapsulate : EncapsulationKey → Rand → Fixed 1088 × Fixed 32
  /-- Implicit rejection: a forged ciphertext gives a random-looking secret. -/
  decapsulate : DecapsulationKey → Fixed 1088 → Fixed 32
  encapsulationKey : DecapsulationKey → Fixed 1184

namespace MlKem768Kem

variable (L : MlKemLib)

def validatePublic (pk : Bytes) : Outcome Error Unit :=
  if pk.length ≠ 1184 then err (.invalidEncoding "ML-KEM public key must be 1184 bytes")
  else ok ()

def encapsulate (r : L.Rand) (peerPublic : Bytes) : Outcome Error (Bytes × Fixed 32) := do
  let _ ← validatePublic peerPublic
  let ekBytes ← okOr (if h : peerPublic.length = 1184 then some ⟨peerPublic, h⟩ else none)
    (.invalidEncoding "invalid ML-KEM public key length")
  -- the only check of the key's contents
  let ek ← okOr (L.decodeKey ekBytes) (.invalidEncoding "ML-KEM public key decode failed")
  let (ct, ss) := L.encapsulate ek r
  ok (ct.val, ss)

def decapsulate (sk : L.DecapsulationKey) (ct : Bytes) : Outcome Error (Fixed 32) := do
  -- a wrong length is an error, a wrong ciphertext is not
  if ct.length ≠ 1088 then
    err (.invalidEncoding "invalid ML-KEM ciphertext length")
  else
    let ctArr ← Fixed.ofBytes 1088 ct
    ok (L.decapsulate sk ctArr)

end MlKem768Kem

def mlKem768Kem (L : MlKemLib) : Kem where
  name := ascii "ML-KEM-768"
  publicKeyLen := 1184
  ciphertextLen := 1088
  SecretKey := L.DecapsulationKey
  Rand := L.Rand
  keypair r := ok ((L.generateKeypair r).1, (L.generateKeypair r).2.val)
  encapsulate := MlKem768Kem.encapsulate L
  decapsulate := MlKem768Kem.decapsulate L
  publicOf sk := (L.encapsulationKey sk).val
  validatePublic := MlKem768Kem.validatePublic

/-! ## The combiner -/

def combinerLabel : Bytes := ascii "gm-pq-stack/hybrid/v1"

/-- The secret binds both component secrets to both ciphertexts and keys. -/
def combine (P : Primitives) (ssC : Fixed 32) (ctC pkC : Bytes) (ssP : Fixed 32) (ctP pkP : Bytes) :
    Fixed 32 :=
  sm3 P [[0x01], ssC.val, ssP.val, ctC, ctP, pkC, pkP, combinerLabel]

namespace HybridKem

variable (P : Primitives) (C : StaticAuth) (Q : Kem)

def keypair (r : C.Rand × Q.Rand) : Outcome Error ((C.SecretKey × Q.SecretKey) × Bytes) := do
  let (skC, pkC) ← C.keypair r.1
  let (skP, pkP) ← Q.keypair r.2
  ok ((skC, skP), pkC ++ pkP)

def validatePublic (pk : Bytes) : Outcome Error Unit := do
  if pk.length ≠ C.publicKeyLen + Q.publicKeyLen then
    err (.invalidEncoding "invalid hybrid public key length")
  else
    let pkC ← slice pk 0 C.publicKeyLen
    -- the classical part comes first in keys and ciphertexts
    let _ ← C.validatePublic pkC
    let pkP ← sliceFrom pk C.publicKeyLen
    Q.validatePublic pkP

def encapsulate (r : C.Rand × Q.Rand) (peerPublic : Bytes) : Outcome Error (Bytes × Fixed 32) := do
  let _ ← validatePublic C Q peerPublic
  -- `split_at` panics like a slice past the end
  let pkC ← slice peerPublic 0 C.publicKeyLen
  let pkP ← sliceFrom peerPublic C.publicKeyLen
  let (ctC, ssC) ← C.encapsulate r.1 pkC
  let (ctP, ssP) ← Q.encapsulate r.2 pkP
  ok (ctC ++ ctP, combine P ssC ctC pkC ssP ctP pkP)

def decapsulate (sk : C.SecretKey × Q.SecretKey) (ct : Bytes) : Outcome Error (Fixed 32) := do
  if ct.length ≠ C.ciphertextLen + Q.ciphertextLen then
    err (.invalidEncoding "invalid hybrid ciphertext length")
  else
    let ctC ← slice ct 0 C.ciphertextLen
    let ctP ← sliceFrom ct C.ciphertextLen
    let ssC ← C.decapsulate sk.1 ctC
    let ssP ← Q.decapsulate sk.2 ctP
    -- the public keys are recomputed from the secret ones
    ok (combine P ssC ctC (C.publicOf sk.1) ssP ctP (Q.publicOf sk.2))

def verify (pk : Bytes) (transcriptHash : Fixed 32) (sig : Bytes) : Outcome Error Unit := do
  let _ ← validatePublic C Q pk
  let pkC ← slice pk 0 C.publicKeyLen
  C.verify pkC transcriptHash sig

end HybridKem

def hybridKem (P : Primitives) (C : StaticAuth) (Q : Kem) : StaticAuth where
  name := ascii "SM2-ECDH+ML-KEM-768"
  publicKeyLen := C.publicKeyLen + Q.publicKeyLen
  ciphertextLen := C.ciphertextLen + Q.ciphertextLen
  SecretKey := C.SecretKey × Q.SecretKey
  Rand := C.Rand × Q.Rand
  keypair := HybridKem.keypair C Q
  encapsulate := HybridKem.encapsulate P C Q
  decapsulate := HybridKem.decapsulate P C Q
  publicOf sk := C.publicOf sk.1 ++ Q.publicOf sk.2
  validatePublic := HybridKem.validatePublic C Q
  signatureLen := C.signatureLen
  sign sk h := C.sign sk.1 h
  verify := HybridKem.verify C Q

def defaultHybrid (P : Primitives) (L : Sm2Lib) (M : MlKemLib) : StaticAuth :=
  hybridKem P (sm2Kem L) (mlKem768Kem M)

/-! ## No operation panics -/

theorem Sm2Kem.validatePublic_ok {pk u} (h : validatePublic pk = ok u) : pk.length = 65 := by
  unfold validatePublic at h
  split at h
  · cases h
  · rename_i hLen
    exact not_not.mp hLen

theorem Sm2Kem.noPanic_validatePublic (pk : Bytes) : (validatePublic pk).NoPanic := by
  unfold validatePublic
  split <;> simp

theorem sm2Kem_total (L : Sm2Lib) : (sm2Kem L).Total where
  keypair _ := noPanic_ok _
  encapsulate r pk := by
    simp only [sm2Kem, Sm2Kem.encapsulate, noPanic_bind, noPanic_okOr, Fixed.noPanic_ofBytes]
    -- the length check before it makes the conversion safe
    refine ⟨Sm2Kem.noPanic_validatePublic pk, fun _ h => ⟨Sm2Kem.validatePublic_ok h, ?_⟩⟩
    intro _ _
    exact ⟨trivial, fun _ _ => noPanic_ok _⟩
  decapsulate sk ct := by
    simp only [sm2Kem, Sm2Kem.decapsulate, noPanic_bind, noPanic_okOr, Fixed.noPanic_ofBytes]
    exact ⟨Sm2Kem.noPanic_validatePublic ct, fun _ h => ⟨Sm2Kem.validatePublic_ok h, by simp⟩⟩
  validatePublic := Sm2Kem.noPanic_validatePublic
  sign _ _ := noPanic_ok _
  verify pk h sig := by
    simp only [sm2Kem, Sm2Kem.verify, noPanic_bind]
    refine ⟨Sm2Kem.noPanic_validatePublic pk, fun _ hPk => ?_⟩
    split
    · exact noPanic_err _
    · rename_i hSig
      simp only [noPanic_bind, Fixed.noPanic_ofBytes]
      refine ⟨Sm2Kem.validatePublic_ok hPk, fun _ _ => ⟨not_not.mp hSig, fun _ _ => ?_⟩⟩
      split <;> simp

theorem mlKem768Kem_total (L : MlKemLib) : (mlKem768Kem L).Total where
  keypair _ := noPanic_ok _
  encapsulate r pk := by
    simp only [mlKem768Kem, MlKem768Kem.encapsulate, noPanic_bind, noPanic_okOr]
    refine ⟨?_, fun _ _ => ⟨trivial, fun _ _ => ⟨trivial, fun _ _ => noPanic_ok _⟩⟩⟩
    unfold MlKem768Kem.validatePublic
    split <;> simp
  decapsulate sk ct := by
    simp only [mlKem768Kem, MlKem768Kem.decapsulate]
    split
    · exact noPanic_err _
    · rename_i hLen
      simp only [noPanic_bind, Fixed.noPanic_ofBytes]
      exact ⟨not_not.mp hLen, fun _ _ => noPanic_ok _⟩
  validatePublic pk := by
    simp only [mlKem768Kem, MlKem768Kem.validatePublic]
    split <;> simp

section Combiner

variable {P : Primitives} {C : StaticAuth} {Q : Kem}

theorem HybridKem.validatePublic_ok {pk u} (h : HybridKem.validatePublic C Q pk = ok u) :
    pk.length = C.publicKeyLen + Q.publicKeyLen := by
  unfold HybridKem.validatePublic at h
  split at h
  · cases h
  · rename_i hLen
    exact not_not.mp hLen

theorem HybridKem.noPanic_validatePublic (hC : C.Total) (hQ : Q.Total) (pk : Bytes) :
    (HybridKem.validatePublic C Q pk).NoPanic := by
  unfold HybridKem.validatePublic
  split
  · exact noPanic_err _
  · rename_i hLen
    have hLen := not_not.mp hLen
    simp only [noPanic_bind, noPanic_slice, noPanic_sliceFrom]
    refine ⟨by omega, fun pkC _ => ⟨hC.validatePublic pkC, fun _ _ => ⟨by omega, fun pkP _ => ?_⟩⟩⟩
    exact hQ.validatePublic pkP

theorem hybridKem_total (hC : C.Total) (hQ : Q.Total) : (hybridKem P C Q).Total where
  keypair r := by
    simp only [hybridKem, HybridKem.keypair, noPanic_bind]
    exact ⟨hC.keypair _, fun _ _ => ⟨hQ.keypair _, fun _ _ => noPanic_ok _⟩⟩
  encapsulate r pk := by
    simp only [hybridKem, HybridKem.encapsulate, noPanic_bind, noPanic_slice, noPanic_sliceFrom]
    refine ⟨HybridKem.noPanic_validatePublic hC hQ pk, fun _ hPk => ?_⟩
    have hLen := HybridKem.validatePublic_ok hPk
    -- a key of the whole length can be cut at the first part's length
    refine ⟨by omega, fun pkC _ => ⟨by omega, fun pkP _ => ⟨hC.encapsulate _ _, fun _ _ => ?_⟩⟩⟩
    exact ⟨hQ.encapsulate _ _, fun _ _ => noPanic_ok _⟩
  decapsulate sk ct := by
    simp only [hybridKem, HybridKem.decapsulate]
    split
    · exact noPanic_err _
    · rename_i hLen
      have hLen := not_not.mp hLen
      simp only [noPanic_bind, noPanic_slice, noPanic_sliceFrom]
      refine ⟨by omega, fun ctC _ => ⟨by omega, fun ctP _ => ⟨hC.decapsulate _ _, fun _ _ => ?_⟩⟩⟩
      exact ⟨hQ.decapsulate _ _, fun _ _ => noPanic_ok _⟩
  validatePublic := HybridKem.noPanic_validatePublic hC hQ
  sign _ _ := hC.sign _ _
  verify pk h sig := by
    simp only [hybridKem, HybridKem.verify, noPanic_bind, noPanic_slice]
    refine ⟨HybridKem.noPanic_validatePublic hC hQ pk, fun _ hPk => ?_⟩
    have hLen := HybridKem.validatePublic_ok hPk
    exact ⟨by omega, fun _ _ => hC.verify _ _ _⟩

end Combiner

/-- **No operation of the default hybrid panics.** -/
theorem defaultHybrid_total (P : Primitives) (L : Sm2Lib) (M : MlKemLib) :
    (defaultHybrid P L M).Total :=
  hybridKem_total (sm2Kem_total L) (mlKem768Kem_total M)

/-! ## Correctness and binding -/

structure Kem.Correct (K : Kem) : Prop where
  publicKey : ∀ sk pk, K.Honest sk pk → pk.length = K.publicKeyLen ∧ K.publicOf sk = pk
  decapsulate : ∀ sk pk, K.Honest sk pk → ∀ r ct ss, K.encapsulate r pk = ok (ct, ss) →
    ct.length = K.ciphertextLen ∧ K.decapsulate sk ct = ok ss

section Combiner

variable {P : Primitives} {C : StaticAuth} {Q : Kem}

theorem HybridKem.honest {sk : C.SecretKey × Q.SecretKey} {pk : Bytes}
    (h : (hybridKem P C Q).Honest sk pk) :
    ∃ pkC pkP, C.Honest sk.1 pkC ∧ Q.Honest sk.2 pkP ∧ pk = pkC ++ pkP := by
  obtain ⟨r, h⟩ := h
  obtain ⟨⟨skC, pkC⟩, hC, h⟩ := bind_eq_ok.mp h
  obtain ⟨⟨skP, pkP⟩, hQ, h⟩ := bind_eq_ok.mp h
  cases h
  exact ⟨pkC, pkP, ⟨_, hC⟩, ⟨_, hQ⟩, rfl⟩

theorem HybridKem.encapsulate_ok {r pkC pkP ct ss} (hPk : pkC.length = C.publicKeyLen)
    (h : encapsulate P C Q r (pkC ++ pkP) = ok (ct, ss)) :
    ∃ ctC ssC ctP ssP, C.encapsulate r.1 pkC = ok (ctC, ssC) ∧
      Q.encapsulate r.2 pkP = ok (ctP, ssP) ∧ ct = ctC ++ ctP ∧
      ss = combine P ssC ctC pkC ssP ctP pkP := by
  obtain ⟨-, -, h⟩ := bind_eq_ok.mp h
  obtain ⟨headKey, hHead, h⟩ := bind_eq_ok.mp h
  obtain ⟨tailKey, hTail, h⟩ := bind_eq_ok.mp h
  obtain ⟨⟨ctC, ssC⟩, hC, h⟩ := bind_eq_ok.mp h
  obtain ⟨⟨ctP, ssP⟩, hQ, h⟩ := bind_eq_ok.mp h
  obtain rfl : pkC = headKey := by simpa [← hPk] using (slice_eq_ok.mp hHead).2
  obtain rfl : pkP = tailKey := by simpa [← hPk] using (sliceFrom_eq_ok.mp hTail).2
  cases h
  exact ⟨ctC, ssC, ctP, ssP, hC, hQ, rfl, rfl⟩

variable (C Q) in
def Sized (ctC pkC ctP pkP : Bytes) : Prop :=
  ctC.length = C.ciphertextLen ∧ ctP.length = Q.ciphertextLen ∧
    pkC.length = C.publicKeyLen ∧ pkP.length = Q.publicKeyLen

def combined (ssC : Fixed 32) (ctC pkC : Bytes) (ssP : Fixed 32) (ctP pkP : Bytes) : Bytes :=
  [[0x01], ssC.val, ssP.val, ctC, ctP, pkC, pkP, combinerLabel].flatten

/-- **The hybrid is correct and binding.** Made of two correct KEMs (`hC`, `hQ`), it decapsulates
what was encapsulated for an honest key. If SM3 does not collide on what two secrets are combined
from, equal secrets are combined from equal secrets, ciphertexts and public keys. -/
theorem hybridKem_binds (hC : C.toKem.Correct) (hQ : Q.Correct) :
    (∀ sk pk r ct ss, (hybridKem P C Q).Honest sk pk →
      (hybridKem P C Q).encapsulate r pk = ok (ct, ss) →
      (hybridKem P C Q).decapsulate sk ct = ok ss) ∧
    ∀ ssC ssC' ctC ctC' pkC pkC' ssP ssP' ctP ctP' pkP pkP',
      Sized C Q ctC pkC ctP pkP → Sized C Q ctC' pkC' ctP' pkP' →
      CollisionFree P.sm3
        [combined ssC ctC pkC ssP ctP pkP, combined ssC' ctC' pkC' ssP' ctP' pkP'] →
      combine P ssC ctC pkC ssP ctP pkP = combine P ssC' ctC' pkC' ssP' ctP' pkP' →
      ssC = ssC' ∧ ssP = ssP' ∧ ctC = ctC' ∧ ctP = ctP' ∧ pkC = pkC' ∧ pkP = pkP' := by
  constructor
  · intro sk pk r ct ss hKey hEnc
    obtain ⟨pkC, pkP, hKeyC, hKeyP, rfl⟩ := HybridKem.honest hKey
    obtain ⟨hLen, hPkC⟩ := hC.publicKey _ _ hKeyC
    obtain ⟨-, hPkP⟩ := hQ.publicKey _ _ hKeyP
    obtain ⟨ctC, ssC, ctP, ssP, hEncC, hEncP, rfl, rfl⟩ := HybridKem.encapsulate_ok hLen hEnc
    obtain ⟨hLenC, hDecC⟩ := hC.decapsulate _ _ hKeyC _ _ _ hEncC
    obtain ⟨hLenP, hDecP⟩ := hQ.decapsulate _ _ hKeyP _ _ _ hEncP
    have hHead : slice (ctC ++ ctP) 0 C.ciphertextLen = (ok ctC : Outcome Error _) := by
      simp [slice_eq_ok, ← hLenC]
    have hTail : sliceFrom (ctC ++ ctP) C.ciphertextLen = (ok ctP : Outcome Error _) := by
      simp [sliceFrom_eq_ok, ← hLenC]
    simp [hybridKem, HybridKem.decapsulate, hLenC, hLenP, hHead, hTail, hDecC, hDecP, hPkC, hPkP]
  · intro ssC ssC' ctC ctC' pkC pkC' ssP ssP' ctP ctP' pkP pkP' hSized hSized' hFree h
    have hFlat := hFree _ (.head _) _ (.tail _ (.head _)) h
    -- parts of equal lengths start at the same places
    have hParts := List.eq_iff_flatten_eq.mpr ⟨hFlat, by simp_all [Sized]⟩
    simpa [Subtype.ext_iff] using hParts

end Combiner

theorem plainAuth_correct : plainAuth.toKem.Correct where
  publicKey sk pk h := by
    rw [plainAuth_honest h]
    exact ⟨rfl, rfl⟩
  decapsulate sk pk h r ct ss hEnc := by
    cases hEnc
    rw [plainAuth_honest h]
    exact ⟨rfl, rfl⟩

theorem hybridKem_binds_plain : (hybridKem plainPrimitives plainAuth plainAuth.toKem).decapsulate
    ((1, 2) : UInt8 × UInt8) [3, 4] = ok (combine plainPrimitives (padTo 32 [3, 1]) [3] [1]
      (padTo 32 [4, 2]) [4] [2]) :=
  (hybridKem_binds plainAuth_correct plainAuth_correct).1 _ [1, 2] ((3, 4) : UInt8 × UInt8) _ _
    ⟨((1, 2) : UInt8 × UInt8), rfl⟩ rfl

/-! ## Libraries for concrete runs -/

def plainSm2 : Sm2Lib where
  PrivateKey := UInt8
  Rand := UInt8
  generateKeypair r := (r, padTo 65 [r])
  ecdh _ _ := some (padTo 32 [])
  publicKey sk := padTo 65 [sk]
  sign _ sk := padTo 64 [sk]
  verify _ _ _ := true

def plainMlKem : MlKemLib where
  DecapsulationKey := UInt8
  EncapsulationKey := Fixed 1184
  Rand := UInt8
  generateKeypair r := (r, padTo 1184 [r])
  decodeKey := some
  encapsulate _ r := (padTo 1088 [r], padTo 32 [])
  decapsulate _ _ := padTo 32 []
  encapsulationKey sk := padTo 1184 [sk]

end DirectWire.GmPq
