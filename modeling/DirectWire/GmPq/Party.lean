import DirectWire.GmPq.Handshake
import DirectWire.Lib.Run

/-!
# GM-PQ — runs of one party

A `Party` is an initiator or a responder at one point of the protocol; `step` is the next call
its user makes, in the order of `api.rs`. What a party receives is arbitrary. Each call has one
specification, which says what it adds to the party's `Logs` and which keys it used.
-/

namespace DirectWire.GmPq

open Lib Outcome

/-! ## Keys -/

inductive Purpose where
  | early
  | static
  | i2r
  | r2i
deriving DecidableEq, Repr

instance : Fintype Purpose where
  elems := {.early, .static, .i2r, .r2i}
  complete p := by cases p <;> decide

def Purpose.key (P : Primitives) (ck : Fixed 32) : Purpose → Fixed 16
  | .early => hkdfExpand P ck infoEarly 16
  | .static => hkdfExpand P ck infoStaticEnc 16
  | .i2r => ⟨(hkdfExpand P ck infoSplit 32).val.take 16, by simp⟩
  | .r2i => ⟨(hkdfExpand P ck infoSplit 32).val.drop 16, by simp⟩

abbrev Query := Fixed 32 × Bytes

def Query.ck (P : Primitives) (q : Query) : Fixed 32 := hkdfExtract P (some q.1.val) q.2

structure Logs where
  drawn : List (Fixed 32)
  extracted : List Query
  sealed : List GcmCall

def Initiator.logs {K : Kem} (i : Initiator K) : Logs := ⟨i.drawn, i.ss.extracted, i.sealed⟩

def Responder.logs {K : Kem} (r : Responder K) : Logs := ⟨r.drawn, r.ss.extracted, r.sealed⟩

/-! ## What each call does -/

section Specs

variable {P : Primitives} {K : Kem}

variable {i i' : Initiator K} {r r' : Responder K} {msg : Bytes}

theorem Initiator.writeMsg1_state {r} (h : i.writeMsg1 P r = ok (msg, i')) :
    ∃ eSk, K.keypair r = ok (eSk, msg) ∧
      i' = { i with ss := i.ss.mixHash P msg, ephSk := some eSk } := by
  unfold Initiator.writeMsg1 at h
  split at h
  · cases h
  · obtain ⟨⟨eSk, ePk⟩, hKey, h⟩ := bind_eq_ok.mp h
    cases h
    exact ⟨eSk, hKey, rfl⟩

theorem Initiator.sealEarlyData_state {plaintext packet}
    (h : i.sealEarlyData P plaintext = ok (packet, i')) :
    i' = { i with
      sealed := i.sealed ++ [staticCall (Purpose.early.key P i.ss.ck) i.ss.h plaintext] } := by
  unfold Initiator.sealEarlyData at h
  split at h
  · cases h
  · cases h
    rfl

theorem Initiator.readMsg2_state (h : i.readMsg2 P msg = ok i') :
    ∃ (ctEe : Bytes) (ee : Fixed 32),
      ctEe = (msg.drop K.publicKeyLen).take K.ciphertextLen ∧
      i' = { i with
        ss := ((i.ss.mixHash P (msg.take K.publicKeyLen)).mixHash P ctEe).mixKey P ee.val
        encPeerStatic := some (msg.drop (K.publicKeyLen + K.ciphertextLen))
        peerEphPk := some (msg.take K.publicKeyLen)
        peerCtEe := some ctEe } := by
  simp only [Initiator.readMsg2] at h
  split at h
  · cases h
  · obtain ⟨ephPk, hEph, h⟩ := bind_eq_ok.mp h
    obtain ⟨ctEe, hCt, h⟩ := bind_eq_ok.mp h
    obtain ⟨encStatic, hEnc, h⟩ := bind_eq_ok.mp h
    obtain ⟨_, -, h⟩ := bind_eq_ok.mp h
    obtain ⟨ephSk, -, h⟩ := bind_eq_ok.mp h
    obtain ⟨ssEe, -, h⟩ := bind_eq_ok.mp h
    cases h
    obtain ⟨-, rfl⟩ := slice_eq_ok.mp hEph
    obtain ⟨-, rfl⟩ := slice_eq_ok.mp hCt
    obtain ⟨-, rfl⟩ := sliceFrom_eq_ok.mp hEnc
    refine ⟨_, ssEe, rfl, ?_⟩
    simp only [Nat.add_sub_cancel_left, Nat.sub_zero, List.drop_zero]

/-- Message 3 mixes two secrets the initiator has just drawn, and everything
it seals from then on is under keys of that chaining key. -/
def Initiator.Finishes (P : Primitives) (i i' : Initiator K) (s : Session) : Prop :=
  ∃ (se ss hSign : Fixed 32) (plaintext : Bytes),
    let q : Query := (i.ss.ck, se.val ++ ss.val)
    i'.logs = ⟨i.drawn ++ [se, ss], i.ss.extracted ++ [q],
      i.sealed ++ [staticCall (Purpose.static.key P (q.ck P)) hSign plaintext]⟩ ∧
    s.tx = Aead.new (Purpose.i2r.key P (q.ck P)) ∧ s.sealed = []

theorem Initiator.writeMsg3Inner_spec {rSe rSs} {signer : Option (Fixed 32 → Outcome Error Bytes)}
    {peerCheck : Option (Bytes → Outcome Error Unit)} {s}
    (h : i.writeMsg3Inner P rSe rSs signer peerCheck = ok (msg, s, i')) : i.Finishes P i' s := by
  simp only [Initiator.writeMsg3Inner] at h
  obtain ⟨encStatic, -, h⟩ := bind_eq_ok.mp h
  obtain ⟨peerEphPk, -, h⟩ := bind_eq_ok.mp h
  obtain ⟨⟨_, sRPk⟩, -, h⟩ := bind_eq_ok.mp h
  obtain ⟨_, -, h⟩ := bind_eq_ok.mp h
  obtain ⟨_, -, h⟩ := bind_eq_ok.mp h
  obtain ⟨⟨ctSe, se⟩, -, h⟩ := bind_eq_ok.mp h
  obtain ⟨⟨ctSs, ss⟩, -, h⟩ := bind_eq_ok.mp h
  obtain ⟨sig, -, h⟩ := bind_eq_ok.mp h
  cases h
  -- eight calls succeeded; the two that encapsulate drew `se` and `ss`
  exact ⟨se, ss, _, _, rfl, rfl, rfl⟩

theorem Responder.readMsg1_state (h : r.readMsg1 P msg = ok r') :
    r' = { r with ss := r.ss.mixHash P msg, peerEphPk := some msg } := by
  simp only [Responder.readMsg1] at h
  obtain ⟨_, -, h⟩ := bind_eq_ok.mp h
  cases h
  rfl

theorem Responder.writeMsg2_state {rEph rEe} (h : r.writeMsg2 P rEph rEe = ok (msg, r')) :
    ∃ eI eSk eR ctEe ee encR, r.peerEphPk = some eI ∧ K.keypair rEph = ok (eSk, eR) ∧
      K.encapsulate rEe eI = ok (ctEe, ee) ∧ msg = eR ++ ctEe ++ encR ∧
      let ss := ((r.ss.mixHash P eR).mixHash P ctEe).mixKey P ee.val
      r' = { r with
        ss := ss.mixHash P encR
        ephSk := some eSk
        drawn := r.drawn ++ [ee]
        sealed := r.sealed ++ [staticCall (Purpose.static.key P ss.ck) ss.h r.staticPk] } := by
  simp only [Responder.writeMsg2] at h
  obtain ⟨eI, hEph, h⟩ := bind_eq_ok.mp h
  obtain ⟨⟨eSk, eR⟩, hKey, h⟩ := bind_eq_ok.mp h
  obtain ⟨⟨ctEe, ee⟩, hEnc, h⟩ := bind_eq_ok.mp h
  cases h
  exact ⟨eI, eSk, eR, ctEe, ee, _, okOr_eq_ok.mp hEph, hKey, hEnc, rfl, rfl⟩

/-- The secrets of message 3 are the peer's choice; the chaining key below
them is the responder's own. -/
def Responder.Accepts (P : Primitives) (r r' : Responder K) (s : Session) : Prop :=
  ∃ ikm : Bytes,
    let q : Query := (r.ss.ck, ikm)
    r'.logs = { r.logs with extracted := r.ss.extracted ++ [q] } ∧
    s.tx = Aead.new (Purpose.r2i.key P (q.ck P)) ∧ s.sealed = []

theorem Responder.readMsg3Inner_spec {plain s hSign}
    (h : r.readMsg3Inner P msg = ok ((s, plain, hSign), r')) : r.Accepts P r' s := by
  simp only [Responder.readMsg3Inner] at h
  split at h
  · cases h
  · obtain ⟨ctSe, -, h⟩ := bind_eq_ok.mp h
    obtain ⟨ctSs, -, h⟩ := bind_eq_ok.mp h
    obtain ⟨encStatic, -, h⟩ := bind_eq_ok.mp h
    obtain ⟨ephSk, -, h⟩ := bind_eq_ok.mp h
    obtain ⟨se, -, h⟩ := bind_eq_ok.mp h
    obtain ⟨ss, -, h⟩ := bind_eq_ok.mp h
    obtain ⟨⟨_, staticPlain⟩, -, h⟩ := bind_eq_ok.mp h
    cases h
    -- both secrets come out of the peer's ciphertexts
    exact ⟨se.val ++ ss.val, rfl, rfl, rfl⟩

end Specs

/-! ## Parties -/

structure Config (K : StaticAuth) where
  role : Role
  staticSk : K.SecretKey
  staticPk : Bytes
  psk : Option (Fixed 32)

/-- The calls a party's user makes. A missing anchor is the variant without
authentication. -/
inductive Op (K : StaticAuth) where
  | writeMsg1 (r : K.Rand)
  | sealEarlyData (plaintext : Bytes)
  | readMsg2 (msg : Bytes)
  | writeMsg3 (rSe rSs : K.Rand) (anchor : Option TrustAnchor)
  | readMsg1 (msg : Bytes)
  | writeMsg2 (rEph rEe : K.Rand)
  | readMsg3 (msg : Bytes) (anchor : Option TrustAnchor)
  | send (plaintext : Bytes)
  | recv (packet : Bytes)

def Op.earlyData {K : StaticAuth} : Op K → List Bytes
  | .sealEarlyData plaintext => [plaintext]
  | _ => []

/-- The states of an initiator, then those of a responder. -/
inductive Party (K : StaticAuth) where
  | fresh (i : Initiator K.toKem)
  | offered (i : Initiator K.toKem)
  | keyed (i : Initiator K.toKem)
  | connected (i : Initiator K.toKem) (s : Session)
  | idle (r : Responder K.toKem)
  | greeted (r : Responder K.toKem)
  | replied (r : Responder K.toKem)
  | accepted (r : Responder K.toKem) (s : Session)

namespace Party

variable {K : StaticAuth}

def logs : Party K → Logs
  | fresh i | offered i | keyed i => i.logs
  | idle r | greeted r | replied r => r.logs
  | connected i s => { i.logs with sealed := i.sealed ++ s.sealed }
  | accepted r s => { r.logs with sealed := r.sealed ++ s.sealed }

variable (P : Primitives) (c : Config K)

def start : Party K :=
  match c.role with
  | .initiator => .fresh (Initiator.create P c.staticSk c.staticPk c.psk)
  | .responder => .idle (Responder.create P c.staticSk c.staticPk c.psk)

def writeMsg3 (i : Initiator K.toKem) (rSe rSs : K.Rand) :
    Option TrustAnchor → Outcome Error (Bytes × Session × Initiator K.toKem)
  | none => i.writeMsg3 P rSe rSs
  | some anchor => Initiator.writeMsg3WithAuth P i rSe rSs anchor

def readMsg3 (r : Responder K.toKem) (msg : Bytes) :
    Option TrustAnchor → Outcome Error (Session × Responder K.toKem)
  | none => r.readMsg3 P msg
  | some anchor => do
    let ((s, _), r) ← Responder.readMsg3WithAuth P r msg anchor
    ok (s, r)

variable {P} in
theorem writeMsg3_spec {i i' : Initiator K.toKem} {rSe rSs : K.Rand} {anchor : Option TrustAnchor}
    {msg : Bytes} {s : Session} (h : writeMsg3 P i rSe rSs anchor = ok (msg, s, i')) :
    i.Finishes P i' s := by
  cases anchor with
  | none => exact Initiator.writeMsg3Inner_spec h
  | some =>
    simp only [writeMsg3, Initiator.writeMsg3WithAuth] at h
    obtain ⟨sk, -, h⟩ := bind_eq_ok.mp h
    -- taking the signing key out changes no log
    obtain ⟨se, ss, hSign, plaintext, hFinish⟩ := Initiator.writeMsg3Inner_spec h
    exact ⟨se, ss, hSign, plaintext, hFinish⟩

variable {P} in
theorem readMsg3_inner {r r' : Responder K.toKem} {msg : Bytes} {anchor : Option TrustAnchor}
    {s : Session} (h : readMsg3 P r msg anchor = ok (s, r')) :
    ∃ plain hSign, r.readMsg3Inner P msg = ok ((s, plain, hSign), r') := by
  cases anchor with
  | none =>
    simp only [readMsg3, Responder.readMsg3] at h
    obtain ⟨⟨⟨_, _, _⟩, _⟩, hInner, h⟩ := bind_eq_ok.mp h
    split at h
    · cases h
    · obtain ⟨_, -, h⟩ := bind_eq_ok.mp h
      cases h
      exact ⟨_, _, hInner⟩
  | some anchor =>
    simp only [readMsg3, Responder.readMsg3WithAuth] at h
    obtain ⟨_, h, hRest⟩ := bind_eq_ok.mp h
    obtain ⟨⟨⟨_, _, _⟩, _⟩, hInner, h⟩ := bind_eq_ok.mp h
    split at h
    · cases h
    · obtain ⟨_, -, h⟩ := bind_eq_ok.mp h
      obtain ⟨_, -, h⟩ := bind_eq_ok.mp h
      obtain ⟨_, -, h⟩ := bind_eq_ok.mp h
      cases h
      cases hRest
      exact ⟨_, _, hInner⟩

variable {P} in
theorem readMsg3_spec {r r' : Responder K.toKem} {msg : Bytes} {anchor : Option TrustAnchor}
    {s : Session} (h : readMsg3 P r msg anchor = ok (s, r')) : r.Accepts P r' s := by
  obtain ⟨plain, hSign, hInner⟩ := readMsg3_inner h
  exact Responder.readMsg3Inner_spec hInner

/-- One call; `none` when it is out of order, fails or panics. -/
def step : Party K → Op K → Option (Party K)
  | .fresh i, .writeMsg1 r => (i.writeMsg1 P r).toOption.map fun x => .offered x.2
  -- early data needs a ticket, and a ticket comes with a pre-shared key
  | .offered i, .sealEarlyData plaintext =>
    if c.psk.isSome then (i.sealEarlyData P plaintext).toOption.map fun x => .offered x.2 else none
  | .offered i, .readMsg2 msg => (i.readMsg2 P msg).toOption.map .keyed
  | .keyed i, .writeMsg3 rSe rSs anchor =>
    (writeMsg3 P i rSe rSs anchor).toOption.map fun x => .connected x.2.2 x.2.1
  | .idle r, .readMsg1 msg => (r.readMsg1 P msg).toOption.map .greeted
  | .greeted r, .writeMsg2 rEph rEe => (r.writeMsg2 P rEph rEe).toOption.map fun x => .replied x.2
  | .replied r, .readMsg3 msg anchor =>
    (readMsg3 P r msg anchor).toOption.map fun x => .accepted x.2 x.1
  | .connected i s, .send plaintext =>
    (s.send (ε := Empty) P plaintext).toOption.map fun x => .connected i x.2
  | .connected i s, .recv packet => (s.recv P packet).toOption.map fun x => .connected i x.2
  | .accepted r s, .send plaintext =>
    (s.send (ε := Empty) P plaintext).toOption.map fun x => .accepted r x.2
  | .accepted r s, .recv packet => (s.recv P packet).toOption.map fun x => .accepted r x.2
  -- the state machine of the API: any other call is out of order
  | _, _ => none

variable {P c} {i i' : Initiator K.toKem} {r r' : Responder K.toKem} {msg : Bytes} {s : Session}

theorem step_writeMsg1 {rand} (h : i.writeMsg1 P rand = ok (msg, i')) :
    step P c (.fresh i) (.writeMsg1 rand) = some (.offered i') := by
  rw [step, h]
  rfl

theorem step_sealEarlyData {plaintext} (hSome : c.psk.isSome = true)
    (h : i.sealEarlyData P plaintext = ok (msg, i')) :
    step P c (.offered i) (.sealEarlyData plaintext) = some (.offered i') := by
  rw [step, if_pos hSome, h]
  rfl

theorem step_readMsg2 (h : i.readMsg2 P msg = ok i') :
    step P c (.offered i) (.readMsg2 msg) = some (.keyed i') := by
  rw [step, h]
  rfl

theorem step_writeMsg3 {rSe rSs : K.Rand} {anchor : TrustAnchor}
    (h : i.writeMsg3WithAuth P rSe rSs anchor = ok (msg, s, i')) :
    step P c (.keyed i) (.writeMsg3 rSe rSs (some anchor)) = some (.connected i' s) := by
  rw [step, writeMsg3, h]
  rfl

theorem step_readMsg1 (h : r.readMsg1 P msg = ok r') :
    step P c (.idle r) (.readMsg1 msg) = some (.greeted r') := by
  rw [step, h]
  rfl

theorem step_writeMsg2 {rEph rEe} (h : r.writeMsg2 P rEph rEe = ok (msg, r')) :
    step P c (.greeted r) (.writeMsg2 rEph rEe) = some (.replied r') := by
  rw [step, h]
  rfl

theorem step_readMsg3 {anchor pk} (h : r.readMsg3WithAuth P msg anchor = ok ((s, pk), r')) :
    step P c (.replied r) (.readMsg3 msg (some anchor)) = some (.accepted r' s) := by
  rw [step, readMsg3, h]
  rfl

end Party

structure PartyRun (P : Primitives) (K : StaticAuth) where
  config : Config K
  ops : List (Op K)
  party : Party K
  reached : exec (Party.step P config) Always (Party.start P config) ops = some party

namespace PartyRun

variable {P : Primitives} {K : StaticAuth}

def ofOps (config : Config K) (ops : List (Op K))
    (h : (exec (Party.step P config) Always (Party.start P config) ops).isSome = true) :
    PartyRun P K :=
  ⟨config, ops, _, (Option.some_get h).symm⟩

theorem eq_of_ops {a b : PartyRun P K} (hConfig : a.config = b.config) (hOps : a.ops = b.ops) :
    a = b := by
  obtain ⟨config, ops, party, reached⟩ := a
  obtain ⟨config', ops', party', reached'⟩ := b
  obtain rfl : config = config' := hConfig
  obtain rfl : ops = ops' := hOps
  obtain rfl : party = party' := Option.some_inj.mp (reached.symm.trans reached')
  rfl

def earlyData (a : PartyRun P K) : List Bytes := a.ops.flatMap Op.earlyData

def drawn (a : PartyRun P K) : List (Fixed 32) := a.party.logs.drawn

def extracted (a : PartyRun P K) : List Query := a.party.logs.extracted

def sealed (a : PartyRun P K) : List GcmCall := a.party.logs.sealed

end PartyRun

end DirectWire.GmPq
