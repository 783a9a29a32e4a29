import DirectWire.Mesh.Crypto

/-!
# Mesh — dialling by key

`quic/mod.rs`: a node signs its own certificate with its identity key. There is no X.509 parser:
the key is what follows the first occurrence of the SPKI prefix of ed25519 keys. The part of the TLS
library that decides on a connection is a parameter, of which `CallsVerifier` is assumed.
-/

namespace DirectWire.Mesh

open Lib Outcome

/-! ## The key in a certificate -/

def ed25519SpkiPrefix : Bytes :=
  [0x30, 0x2a, 0x30, 0x05, 0x06, 0x03, 0x2b, 0x65, 0x70, 0x03, 0x21, 0x00]

/-- `der.get(start..stop)` into an array. -/
def getArray (der : Bytes) (start n : Nat) : Option (Fixed n) :=
  (sliceArray der start n : Outcome Empty _).toOption

def extractNodeId (der : Bytes) : Option NodeId := do
  let pos ← windowPosition ed25519SpkiPrefix der
  getArray der (pos + 12) 32

/-! ## The verifiers -/

abbrev SignatureScheme := UInt16

def SignatureScheme.ed25519 : SignatureScheme := 0x0807

structure DigitallySigned where
  scheme : SignatureScheme
  signature : Bytes

inductive TlsError where
  | general (msg : String)
  /-- The peer sent no certificate where one is required. -/
  | noCertificatesPresented
deriving DecidableEq, Repr

inductive TlsVersion where
  | tls12
  | tls13
deriving DecidableEq, Repr

/-- `xs.try_into().ok()` into an array. -/
def asArray (n : Nat) (b : Bytes) : Option (Fixed n) :=
  if h : b.length = n then some ⟨b, h⟩ else none

theorem asArray_eq_some {n b y} : asArray n b = some y ↔ b = y.val := by
  unfold asArray
  split
  · rw [Option.some_inj, ← Subtype.val_inj]
  · rename_i hLen
    refine ⟨fun h => (by cases h), ?_⟩
    rintro rfl
    exact absurd y.property hLen

section

variable (A : Algorithms)

/-- Check the signature over the handshake against the key in the
certificate. -/
def verifyTls13 (message cert : Bytes) (dss : DigitallySigned) : Outcome TlsError Unit := do
  if dss.scheme ≠ .ed25519 then
    err (.general "only ed25519 certificates are supported")
  else
    let id ← okOr (extractNodeId cert) (.general "certificate is missing an ed25519 public key")
    let sig ← okOr (asArray 64 dss.signature) (.general "invalid signature length")
    if ¬ verify A id message sig then
      err (.general "CertificateVerify signature verification failed")
    else ok ()

/-- The verifier of a configuration: that of a client expects one peer, that
of a server takes any. -/
inductive Verifier where
  | nodeServer (expected : NodeId)
  | nodeClient

namespace Verifier

/-- `verify_server_cert` of a client. -/
def verifyServerCert (expected : NodeId) (endEntity : Bytes) : Outcome TlsError Unit := do
  let id ← okOr (extractNodeId endEntity)
    (.general "peer certificate is missing an ed25519 public key")
  if id ≠ expected then
    err (.general ("peer identity mismatch: expected " ++ NodeId.short A expected ++ " got " ++
      NodeId.short A id))
  else ok ()

/-- `verify_client_cert` of a server. -/
def verifyClientCert (endEntity : Bytes) : Outcome TlsError Unit := do
  let _ ← okOr (extractNodeId endEntity)
    (.general "client certificate is missing an ed25519 public key")
  ok ()

def clientAuthMandatory : Bool := true

def verifyCert : Verifier → Bytes → Outcome TlsError Unit
  | nodeServer expected => verifyServerCert A expected
  | nodeClient => verifyClientCert

/-- `verify_tls12_signature` and `verify_tls13_signature`, which both
verifiers share. -/
def verifySignature (version : TlsVersion) (message cert : Bytes) (dss : DigitallySigned) :
    Outcome TlsError Unit :=
  match version with
  | .tls12 => err (.general "QUIC uses TLS 1.3 only")
  | .tls13 => verifyTls13 A message cert dss

end Verifier

/-! ## Connections -/

structure PeerHandshake where
  version : TlsVersion
  certs : List Bytes
  /-- What CertificateVerify signs: the handshake so far. -/
  message : Bytes
  dss : DigitallySigned

structure Connection where
  peerIdentity : Option (List Bytes)

/-- What the TLS library does with the verifier before a connection is there:
it has the first certificate and the signature of the handshake checked, and
keeps the certificates. A client may come without one if the server does not
insist. -/
def CallsVerifier (connect : Verifier → PeerHandshake → Outcome TlsError Connection) : Prop :=
  ∀ v hs conn, connect v hs = ok conn → conn.peerIdentity = some hs.certs ∧
    (∃ cert rest, hs.certs = cert :: rest ∧ v.verifyCert A cert = ok () ∧
      Verifier.verifySignature A hs.version hs.message cert hs.dss = ok ()) ∨
    hs.certs = [] ∧ v = .nodeClient ∧ Verifier.clientAuthMandatory = false

/-- A library of this kind. -/
def tlsConnect (v : Verifier) (hs : PeerHandshake) : Outcome TlsError Connection :=
  match hs.certs, v with
  | [], .nodeServer _ => err .noCertificatesPresented
  | [], .nodeClient =>
    if Verifier.clientAuthMandatory then err .noCertificatesPresented else ok ⟨none⟩
  | endEntity :: _, v => do
    v.verifyCert A endEntity
    Verifier.verifySignature A hs.version hs.message endEntity hs.dss
    ok ⟨some hs.certs⟩

end

def connPeerId (conn : Connection) : Option NodeId := do
  let certs ← conn.peerIdentity
  let cert ← certs.head?
  extractNodeId cert

variable {A : Algorithms}

theorem verifyTls13_ok {message cert dss} (h : verifyTls13 A message cert dss = ok ()) :
    ∃ id sig, extractNodeId cert = some id ∧ dss.scheme = .ed25519 ∧
      dss.signature = sig.val ∧ verify A id message sig = true := by
  rw [verifyTls13] at h
  split at h
  · cases h
  · rename_i hScheme
    obtain ⟨id, hId, h⟩ := bind_eq_ok.mp h
    obtain ⟨sig, hSig, h⟩ := bind_eq_ok.mp h
    split at h
    · cases h
    · rename_i hVerify
      exact ⟨id, sig, okOr_eq_ok.mp hId, not_not.mp hScheme,
        asArray_eq_some.mp (okOr_eq_ok.mp hSig), not_not.mp hVerify⟩

theorem Verifier.verifyServerCert_ok {expected : NodeId} {cert : Bytes}
    (h : verifyServerCert A expected cert = ok ()) : extractNodeId cert = some expected := by
  obtain ⟨id, hId, h⟩ := bind_eq_ok.mp h
  split at h
  · cases h
  · rename_i hSame
    rw [okOr_eq_ok.mp hId, not_not.mp hSame]

theorem verifyTls13_of_verifySignature {version message cert dss}
    (h : Verifier.verifySignature A version message cert dss = ok ()) :
    verifyTls13 A message cert dss = ok () := by
  cases version with
  | tls12 => cases h
  | tls13 => exact h

theorem tlsConnect_callsVerifier : CallsVerifier A (tlsConnect A) := by
  intro v hs conn h
  unfold tlsConnect at h
  split at h
  · cases h
  · cases h
  · rename_i cert rest hCerts
    obtain ⟨⟨⟩, hCert, h⟩ := bind_eq_ok.mp h
    obtain ⟨⟨⟩, hSig, h⟩ := bind_eq_ok.mp h
    cases h
    exact .inl ⟨rfl, cert, rest, hCerts, hCert, hSig⟩

/-- **Dial-by-key authentication.** Let the TLS library have the first certificate and the signature
over the handshake checked by the verifier (`hTls`), and let it accept a connection. Then the id
read off the connection is the key under which that signature verified, and the expected one if it
was dialled. -/
theorem tlsConnect_authenticated
    {connect : Verifier → PeerHandshake → Outcome TlsError Connection} {v : Verifier}
    {hs : PeerHandshake} {conn : Connection} (hTls : CallsVerifier A connect)
    (h : connect v hs = ok conn) :
    ∃ id sig, connPeerId conn = some id ∧ hs.dss.scheme = .ed25519 ∧
      hs.dss.signature = sig.val ∧ verify A id hs.message sig = true ∧
      ∀ expected, v = .nodeServer expected → id = expected := by
  obtain ⟨hChain, cert, rest, hCerts, hCert, hSig⟩ | ⟨-, -, hMandatory⟩ := hTls v hs conn h
  swap
  · cases hMandatory
  obtain ⟨id, sig, hId, hScheme, hBytes, hVerify⟩ :=
    verifyTls13_ok (verifyTls13_of_verifySignature hSig)
  refine ⟨id, sig, ?_, hScheme, hBytes, hVerify, ?_⟩
  · -- the library keeps the chain it checked, so the third search reads the same bytes
    rw [connPeerId, hChain, hCerts]
    exact hId
  · rintro expected rfl
    have hPinned := Verifier.verifyServerCert_ok hCert
    exact Option.some_inj.mp (hId.symm.trans hPinned)

/-- A certificate with the prefix twice: the first key counts, for the pin, the
signature and the connection. -/
def twoKeyCert : Bytes :=
  ascii "noise" ++ ed25519SpkiPrefix ++ (GmPq.padTo 32 [1]).val ++ ed25519SpkiPrefix ++
    (GmPq.padTo 32 [2]).val

theorem tlsConnect_authenticated_twoKeys :
    let hs : PeerHandshake :=
      ⟨.tls13, [twoKeyCert, []], [9], ⟨.ed25519, (GmPq.padTo 64 [9]).val⟩⟩
    ∃ conn, tlsConnect plainAlgorithms (.nodeServer (GmPq.padTo 32 [1])) hs = ok conn ∧
      ∃ id sig, connPeerId conn = some id ∧ hs.dss.signature = sig.val ∧
        verify plainAlgorithms id hs.message sig = true ∧ id = GmPq.padTo 32 [1] := by
  intro hs
  have hOk : tlsConnect plainAlgorithms (.nodeServer (GmPq.padTo 32 [1])) hs =
      ok ⟨some [twoKeyCert, []]⟩ := by rfl
  obtain ⟨id, sig, hId, -, hBytes, hVerify, hPinned⟩ :=
    tlsConnect_authenticated tlsConnect_callsVerifier hOk
  exact ⟨_, hOk, id, sig, hId, hBytes, hVerify, hPinned _ rfl⟩

end DirectWire.Mesh
