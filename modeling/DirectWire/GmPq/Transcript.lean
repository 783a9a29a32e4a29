import DirectWire.Lib.RollingHash
import DirectWire.GmPq.Party

/-!
# GM-PQ — the transcript of a run

The transcript hash takes in seven values, the same for both ends and in the same order:

```
  e_i   e_r   ct_ee   AEAD(s_r)   ct_se   ct_ss   AEAD(s_i ‖ signature)
```

A pre-shared key is in the chaining key from the start and not in the transcript. A `Flow` is all
of this as one end sees it. `PartyRun.told` says of every run where it stands in its flow, under
which keys and with which associated data it has sealed and opened, and what it has signed.
-/

namespace DirectWire.GmPq

open Lib Outcome List Option Initiator SymmetricState

/-! ## Symmetric states -/

def startHash (P : Primitives) (protoName : Bytes) : Fixed 32 := sm3 P [prologue, protoName]

namespace SymmetricState

variable (P : Primitives)

def start (protoName : Bytes) : Option (Fixed 32) → SymmetricState
  | none => new P protoName
  | some psk => newWithPsk P protoName psk

variable {P} {s : SymmetricState} {protoName : Bytes}

@[simp] theorem mixHash_h (data : Bytes) : (s.mixHash P data).h = P.sm3 (s.h.val ++ data) := by
  simp [mixHash, sm3]

@[simp] theorem mixKey_h (ikm : Bytes) : (s.mixKey P ikm).h = s.h := rfl

@[simp] theorem start_h (psk : Option (Fixed 32)) :
    (start P protoName psk).h = startHash P protoName := by
  cases psk <;> rfl

end SymmetricState

structure Flow where
  eI : Bytes
  eR : Bytes
  ctEe : Bytes
  ee : Fixed 32
  encR : Bytes
  /-- The secrets of `ct_se` and `ct_ss`, one behind the other. -/
  secrets : Bytes
  ctSe : Bytes
  ctSs : Bytes
  /-- The sealed static key of the initiator, with its signature. -/
  encI : Bytes

namespace Flow

def values (f : Flow) : List Bytes := [f.eI, f.eR, f.ctEe, f.encR, f.ctSe, f.ctSs, f.encI]

section

variable (P : Primitives) (f : Flow) (s : SymmetricState)

def ss1 : SymmetricState := s.mixHash P f.eI

def ss2 : SymmetricState := (((f.ss1 P s).mixHash P f.eR).mixHash P f.ctEe).mixKey P f.ee.val

def ss3 : SymmetricState :=
  ((((f.ss2 P s).mixHash P f.encR).mixKey P f.secrets).mixHash P f.ctSe).mixHash P f.ctSs

def ss4 : SymmetricState := (f.ss3 P s).mixHash P f.encI

end

variable {P : Primitives} {f : Flow} {s : SymmetricState}

theorem ss1_h : (f.ss1 P s).h = roll P.sm3 s.h [f.eI] := mixHash_h _

theorem ss2_h : (f.ss2 P s).h = roll P.sm3 s.h [f.eI, f.eR, f.ctEe] := by
  simp only [ss2, ss1, mixKey_h, mixHash_h, roll]

theorem ss3_h : (f.ss3 P s).h = roll P.sm3 s.h [f.eI, f.eR, f.ctEe, f.encR, f.ctSe, f.ctSs] := by
  simp only [ss3, ss2, ss1, mixKey_h, mixHash_h, roll]

theorem ss4_h : (f.ss4 P s).h = roll P.sm3 s.h f.values := by
  simp only [ss4, ss3, ss2, ss1, mixKey_h, mixHash_h, roll, values]

theorem ss4_extracted : (f.ss4 P s).extracted =
    s.extracted ++ [(s.ck, f.ee.val)] ++ [((f.ss2 P s).ck, f.secrets)] := rfl

theorem start_subset : s.extracted ⊆ (f.ss4 P s).extracted := by
  rw [ss4_extracted, append_assoc]
  exact subset_append_left _ _

theorem ee_mem : (s.ck, f.ee.val) ∈ (f.ss4 P s).extracted := by
  rw [ss4_extracted]
  exact mem_append_left _ (mem_append_right _ (mem_singleton_self _))

theorem secrets_mem : ((f.ss2 P s).ck, f.secrets) ∈ (f.ss4 P s).extracted := by
  rw [ss4_extracted]
  exact mem_append_right _ (mem_singleton_self _)

end Flow

/-! ## What each call does to the state -/

section Calls

variable {P : Primitives} {K : Kem}

theorem Initiator.create_ss (sk : K.SecretKey) (pk : Bytes) (psk : Option (Fixed 32)) :
    (create P sk pk psk).ss = start P K.name psk := by
  cases psk <;> rfl

theorem Responder.create_ss (sk : K.SecretKey) (pk : Bytes) (psk : Option (Fixed 32)) :
    (Responder.create P sk pk psk).ss = start P K.name psk := by
  cases psk <;> rfl

variable {i i' : Initiator K} {msg : Bytes} {r r' : Responder K}

/-- The values of message 3, with the secrets of its ciphertexts. -/
structure Msg3 where
  ctSe : Bytes
  se : Fixed 32
  ctSs : Bytes
  ss : Fixed 32
  /-- The sealed static key of the initiator, with its signature. -/
  encI : Bytes

/-- The state in which the key is sealed, from the state with message 2. -/
def Msg3.mix (P : Primitives) (m : Msg3) (s : SymmetricState) : SymmetricState :=
  ((s.mixKey P (m.se.val ++ m.ss.val)).mixHash P m.ctSe).mixHash P m.ctSs

theorem Msg3.mix_h (m : Msg3) (s : SymmetricState) :
    (m.mix P s).h = roll P.sm3 s.h [m.ctSe, m.ctSs] := by
  simp only [Msg3.mix, mixHash_h, mixKey_h, roll]

structure Initiator.Writes (P : Primitives) (i i' : Initiator K) (rSe rSs : K.Rand)
    (signer : Option (Fixed 32 → Outcome Error Bytes)) (msg : Bytes) (s : Session)
    (encR : Bytes) (m : Msg3) : Prop where
  enc : i.encPeerStatic = some encR
  ctSe : ∃ eR, i.peerEphPk = some eR ∧ K.encapsulate rSe eR = ok (m.ctSe, m.se)
  ctSs : ∃ sR, i'.peerStatic = some sR ∧ K.encapsulate rSs sR = ok (m.ctSs, m.ss)
  msg : msg = m.ctSe ++ m.ctSs ++ m.encI
  state : i'.ss = (m.mix P (i.ss.mixHash P encR)).mixHash P m.encI
  /-- The hash that is signed is the associated data of the sealed key. -/
  sealed : let ss := m.mix P (i.ss.mixHash P encR)
    ∃ sig, signWith signer ss.h = ok sig ∧ i'.sealed =
      i.sealed ++ [staticCall (Purpose.static.key P ss.ck) ss.h (i.staticPk ++ sig)]
  session : s = Session.new (i'.ss.split P).1 (i'.ss.split P).2.1 i'.ss.h

theorem Initiator.writeMsg3Inner_state {rSe rSs} {signer : Option (Fixed 32 → Outcome Error Bytes)}
    {peerCheck : Option (Bytes → Outcome Error Unit)} {s}
    (h : i.writeMsg3Inner P rSe rSs signer peerCheck = ok (msg, s, i')) :
    ∃ encR m, i.Writes P i' rSe rSs signer msg s encR m := by
  simp only [writeMsg3Inner] at h
  obtain ⟨encR, hEnc, h⟩ := bind_eq_ok.mp h
  obtain ⟨eR, hEph, h⟩ := bind_eq_ok.mp h
  obtain ⟨⟨_, sR⟩, -, h⟩ := bind_eq_ok.mp h
  obtain ⟨_, -, h⟩ := bind_eq_ok.mp h
  obtain ⟨_, -, h⟩ := bind_eq_ok.mp h
  obtain ⟨⟨ctSe, se⟩, hSe, h⟩ := bind_eq_ok.mp h
  obtain ⟨⟨ctSs, ss⟩, hSs, h⟩ := bind_eq_ok.mp h
  obtain ⟨sig, hSig, h⟩ := bind_eq_ok.mp h
  cases h
  exact ⟨encR, ⟨ctSe, se, ctSs, ss, _⟩,
    { enc := okOr_eq_ok.mp hEnc
      ctSe := ⟨eR, unwrap_eq_ok.mp hEph, hSe⟩
      ctSs := ⟨sR, rfl, hSs⟩
      msg := rfl
      state := rfl
      sealed := ⟨sig, hSig, rfl⟩
      session := rfl }⟩

/-- What a read message 3 has done: the plaintext behind its last part, and the
hash the signature is checked against. -/
structure Responder.Reads (P : Primitives) (r r' : Responder K) (msg : Bytes) (s : Session)
    (plain : Bytes) (hSign : Fixed 32) (m : Msg3) : Prop where
  ctSe : m.ctSe = msg.take K.ciphertextLen
  ctSs : m.ctSs = (msg.drop K.ciphertextLen).take K.ciphertextLen
  encI : m.encI = msg.drop (2 * K.ciphertextLen)
  opened : ∃ seq, openStatic P (Aead.new (Purpose.static.key P (m.mix P r.ss).ck)) (m.mix P r.ss).h
    m.encI = ok (seq, plain)
  hSign : hSign = (m.mix P r.ss).h
  state : r'.ss = (m.mix P r.ss).mixHash P m.encI
  sealed : r'.sealed = r.sealed
  session : s = Session.new (r'.ss.split P).2.1 (r'.ss.split P).1 r'.ss.h

theorem Responder.readMsg3Inner_state {plain s hSign}
    (h : r.readMsg3Inner P msg = ok ((s, plain, hSign), r')) :
    ∃ m, r.Reads P r' msg s plain hSign m := by
  simp only [Responder.readMsg3Inner] at h
  split at h
  · cases h
  · obtain ⟨ctSe, hSe, h⟩ := bind_eq_ok.mp h
    obtain ⟨ctSs, hSs, h⟩ := bind_eq_ok.mp h
    obtain ⟨encI, hEnc, h⟩ := bind_eq_ok.mp h
    obtain ⟨ephSk, -, h⟩ := bind_eq_ok.mp h
    obtain ⟨se, -, h⟩ := bind_eq_ok.mp h
    obtain ⟨ss, -, h⟩ := bind_eq_ok.mp h
    obtain ⟨⟨seq, plain⟩, hOpen, h⟩ := bind_eq_ok.mp h
    cases h
    have hSe' := (slice_eq_ok.mp hSe).2
    have hSs' := (slice_eq_ok.mp hSs).2
    have hEnc' := (sliceFrom_eq_ok.mp hEnc).2
    have hLen : 2 * K.ciphertextLen - K.ciphertextLen = K.ciphertextLen := by omega
    rw [Nat.sub_zero, drop_zero] at hSe'
    rw [hLen] at hSs'
    exact ⟨⟨ctSe, se, ctSs, ss, encI⟩,
      { ctSe := hSe'.symm
        ctSs := hSs'.symm
        encI := hEnc'.symm
        opened := ⟨seq, hOpen⟩
        hSign := rfl
        state := rfl
        sealed := rfl
        session := rfl }⟩

end Calls

/-! ## Acts -/

inductive Act where
  | mixes (value : Bytes)
  | signs (h : Fixed 32)
  | opens (call : GcmCall)
deriving DecidableEq

def Act.value : Act → Option Bytes
  | .mixes value => some value
  | _ => none

def Act.signed : Act → Option (Fixed 32)
  | .signs h => some h
  | _ => none

def Act.opened : Act → Option GcmCall
  | .opens call => some call
  | _ => none

namespace Party

variable {K : StaticAuth} (P : Primitives)

/-- What a call mixes into the transcript hash, and what it signs and opens with
it, in order. -/
def acts : Party K → Op K → List Act
  | .fresh _, .writeMsg1 r =>
    match K.keypair r with
    | .ok (_, eI) => [.mixes eI]
    | _ => []
  | .offered _, .readMsg2 msg =>
    [.mixes (msg.take K.publicKeyLen), .mixes ((msg.drop K.publicKeyLen).take K.ciphertextLen)]
  | .keyed i, .writeMsg3 rSe rSs anchor =>
    match writeMsg3 P i rSe rSs anchor with
    | .ok (msg, _, i') =>
      let encR := i.encPeerStatic.getD []
      match K.encapsulate rSe (i.peerEphPk.getD []), K.encapsulate rSs (i'.peerStatic.getD []) with
      | .ok (ctSe, _), .ok (ctSs, _) =>
        [.mixes encR, .mixes ctSe, .mixes ctSs] ++
          -- only the variant with authentication signs
          (if anchor.isSome then [.signs (roll P.sm3 i.ss.h [encR, ctSe, ctSs])] else []) ++
          [.mixes (msg.drop (ctSe ++ ctSs).length)]
      | _, _ => []
    | _ => []
  | .idle _, .readMsg1 msg => [.mixes msg]
  | .greeted r, .writeMsg2 rEph rEe =>
    match r.writeMsg2 P rEph rEe, K.keypair rEph, K.encapsulate rEe (r.peerEphPk.getD []) with
    | .ok (msg, _), .ok (_, eR), .ok (ctEe, _) =>
      [.mixes eR, .mixes ctEe, .mixes (msg.drop (eR ++ ctEe).length)]
    | _, _, _ => []
  | .replied r, .readMsg3 msg _ =>
    match r.readMsg3Inner P msg with
    | .ok ((_, plain, hSign), r') =>
      [.mixes (msg.take K.ciphertextLen),
        .mixes ((msg.drop K.ciphertextLen).take K.ciphertextLen),
        .opens (staticCall (Purpose.static.key P r'.ss.ck) hSign plain),
        .mixes (msg.drop (2 * K.ciphertextLen))]
    | _ => []
  | _, _ => []

variable {P}

theorem op_of_signs {p : Party K} {op : Op K} {h : Fixed 32} (hMem : .signs h ∈ acts P p op) :
    ∃ rSe rSs anchor, op = .writeMsg3 rSe rSs (some anchor) := by
  unfold acts at hMem
  split at hMem
  case h_3 i rSe rSs anchor =>
    cases anchor with
    | some anchor => exact ⟨rSe, rSs, anchor, rfl⟩
    | none =>
      split at hMem
      · dsimp only at hMem
        split at hMem <;> simp at hMem
      · cases hMem
  case h_1 i r => split at hMem <;> simp at hMem
  case h_5 r rEph rEe => split at hMem <;> simp at hMem
  case h_6 r msg anchor => split at hMem <;> simp at hMem
  all_goals simp at hMem

end Party

namespace PartyRun

variable {P : Primitives} {K : StaticAuth} (a : PartyRun P K)

def acts : List Act := observe (Party.step P a.config) (Party.acts P) (Party.start P a.config) a.ops

def transcript : List Bytes := a.acts.filterMap Act.value

def signed : List (Fixed 32) := a.acts.filterMap Act.signed

def opened : List GcmCall := a.acts.filterMap Act.opened

end PartyRun

theorem PartyRun.wrote_of_signed {P : Primitives} {K : StaticAuth} {a : PartyRun P K}
    {h : Fixed 32} (hMem : h ∈ a.signed) :
    ∃ rSe rSs anchor, Op.writeMsg3 rSe rSs (some anchor) ∈ a.ops := by
  have hActs : Act.signs h ∈ a.acts := by
    obtain ⟨act, hAct, hSome⟩ := mem_filterMap.mp hMem
    cases act with
    | mixes value | opens call => cases hSome
    | signs h' =>
      cases hSome
      exact hAct
  revert hActs
  refine observe_invariant _
    (I := fun ops acts _ => Act.signs h ∈ acts →
      ∃ rSe rSs anchor, Op.writeMsg3 rSe rSs (some anchor) ∈ ops) nofun ?_ a.reached
  intro ops acts p op p' hI _ _ hSigns
  rcases mem_append.mp hSigns with hSigns | hSigns
  · obtain ⟨rSe, rSs, anchor, hOp⟩ := hI hSigns
    exact ⟨rSe, rSs, anchor, mem_append_left _ hOp⟩
  · obtain ⟨rSe, rSs, anchor, rfl⟩ := Party.op_of_signs hSigns
    exact ⟨rSe, rSs, anchor, mem_append_right _ (mem_singleton_self _)⟩

/-! ## Where a run stands in its flow -/

namespace Party

variable {P : Primitives} {K : StaticAuth}

def ss0 (P : Primitives) (c : Config K) : SymmetricState := SymmetricState.start P K.name c.psk

def SealsEarly (P : Primitives) (c : Config K) (early : List Bytes) (f : Flow) (call : GcmCall) :
    Prop :=
  c.psk.isSome = true ∧ ∃ x ∈ early, call =
    staticCall (Purpose.early.key P (f.ss1 P (ss0 P c)).ck) (f.ss1 P (ss0 P c)).h x

def SealsStatic (P : Primitives) (c : Config K) (f : Flow) (call : GcmCall) : Prop :=
  ∃ x, call = staticCall (Purpose.static.key P (f.ss3 P (ss0 P c)).ck) (f.ss3 P (ss0 P c)).h x

/-- The session at the end of a flow, sending in one direction. -/
structure Yields (P : Primitives) (c : Config K) (f : Flow) (dir : Purpose) (s : Session) :
    Prop where
  sessionId : s.sessionId = (f.ss4 P (ss0 P c)).h
  key : s.tx.key = dir.key P (f.ss4 P (ss0 P c)).ck
  sealed : ∀ call ∈ s.sealed, call.key = s.tx.key

/-- Where a party stands that has sealed the early data `early` and shown `acts`. -/
def Told (P : Primitives) (c : Config K) (early : List Bytes) (acts : List Act) : Party K → Prop
  | .fresh i => c.role = .initiator ∧ acts = [] ∧ early = [] ∧
      i = create P c.staticSk c.staticPk c.psk
  | .offered i => c.role = .initiator ∧ ∃ f : Flow, acts = [.mixes f.eI] ∧
      i.ss = f.ss1 P (ss0 P c) ∧ ∀ call ∈ i.sealed, SealsEarly P c early f call
  | .keyed i => c.role = .initiator ∧ ∃ f : Flow,
      acts = [.mixes f.eI, .mixes f.eR, .mixes f.ctEe] ∧
      i.ss = f.ss2 P (ss0 P c) ∧ i.encPeerStatic = some f.encR ∧ i.peerEphPk = some f.eR ∧
      ∀ call ∈ i.sealed, SealsEarly P c early f call
  | .connected i s => c.role = .initiator ∧ ∃ f : Flow,
      acts.filterMap Act.value = f.values ∧
      (∀ h ∈ acts.filterMap Act.signed, h = (f.ss3 P (ss0 P c)).h) ∧
      i.ss = f.ss4 P (ss0 P c) ∧ f.secrets.length = 64 ∧ Yields P c f .i2r s ∧
      ∀ call ∈ i.sealed, SealsEarly P c early f call ∨ SealsStatic P c f call
  | .idle r => c.role = .responder ∧ acts = [] ∧
      r = Responder.create P c.staticSk c.staticPk c.psk
  | .greeted r => c.role = .responder ∧ ∃ f : Flow, acts = [.mixes f.eI] ∧
      r.ss = f.ss1 P (ss0 P c) ∧ r.peerEphPk = some f.eI ∧ r.sealed = []
  | .replied r => c.role = .responder ∧ ∃ f : Flow,
      acts = [.mixes f.eI, .mixes f.eR, .mixes f.ctEe, .mixes f.encR] ∧
      r.ss = (f.ss2 P (ss0 P c)).mixHash P f.encR ∧
      ∀ call ∈ r.sealed, call.key = Purpose.static.key P (f.ss2 P (ss0 P c)).ck
  | .accepted r s => c.role = .responder ∧ ∃ f : Flow, ∃ plain,
      acts = [.mixes f.eI, .mixes f.eR, .mixes f.ctEe, .mixes f.encR, .mixes f.ctSe,
        .mixes f.ctSs, .opens (staticCall (Purpose.static.key P (f.ss3 P (ss0 P c)).ck)
          (f.ss3 P (ss0 P c)).h plain), .mixes f.encI] ∧
      r.ss = f.ss4 P (ss0 P c) ∧ f.secrets.length = 64 ∧ Yields P c f .r2i s ∧
      ∀ call ∈ r.sealed, call.key = Purpose.static.key P (f.ss2 P (ss0 P c)).ck

variable {c : Config K} {early : List Bytes} {acts : List Act}

theorem told_start : Told P c [] [] (start P c) := by
  obtain ⟨role, sk, pk, psk⟩ := c
  cases role with
  | initiator => exact ⟨rfl, rfl, rfl, rfl⟩
  | responder => exact ⟨rfl, rfl, rfl⟩

def hello (eI : Bytes) : Flow := ⟨eI, [], [], padTo 32 [], [], [], [], [], []⟩

variable {i i' : Initiator K.toKem} {msg packet : Bytes} {anchor : Option TrustAnchor}
  {rSe rSs : K.Rand} {s : Session} {r r' : Responder K.toKem}

theorem told_offered {r} (hTold : Told P c early acts (.fresh i))
    (h : i.writeMsg1 P r = ok (msg, i')) :
    Told P c early (acts ++ Party.acts P (.fresh i) (.writeMsg1 r)) (.offered i') := by
  obtain ⟨eSk, hKey, rfl⟩ := writeMsg1_state h
  obtain ⟨hRole, rfl, rfl, rfl⟩ := hTold
  have hNone : (create P c.staticSk c.staticPk c.psk).sealed = [] := by
    cases c.psk <;> rfl
  refine ⟨hRole, hello msg, ?_, ?_, ?_⟩
  · simp only [Party.acts, hKey]
    rfl
  · rw [create_ss]
    rfl
  · show ∀ call ∈ (create P c.staticSk c.staticPk c.psk).sealed, _
    rw [hNone]
    exact nofun

theorem told_early {plaintext} (hTold : Told P c early acts (.offered i))
    (hSome : c.psk.isSome = true) (h : i.sealEarlyData P plaintext = ok (packet, i')) :
    Told P c (early ++ [plaintext]) acts (.offered i') := by
  obtain rfl := sealEarlyData_state h
  obtain ⟨hRole, f, hActs, hSs, hSealed⟩ := hTold
  refine ⟨hRole, f, hActs, hSs, fun call hMem => ?_⟩
  rcases mem_append.mp hMem with hMem | hMem
  · obtain ⟨-, x, hx, hCall⟩ := hSealed call hMem
    exact ⟨hSome, x, mem_append_left _ hx, hCall⟩
  · rw [mem_singleton] at hMem
    refine ⟨hSome, plaintext, mem_append_right _ (mem_singleton_self _), ?_⟩
    rw [hMem, hSs]

theorem told_keyed (hTold : Told P c early acts (.offered i)) (h : i.readMsg2 P msg = ok i') :
    Told P c early (acts ++ Party.acts P (.offered i) (.readMsg2 msg)) (.keyed i') := by
  obtain ⟨ctEe, ee, rfl, rfl⟩ := readMsg2_state h
  obtain ⟨hRole, f, rfl, hSs, hSealed⟩ := hTold
  -- message 2 fills in the next values of the flow
  refine ⟨hRole, { f with
    eR := msg.take K.publicKeyLen
    ctEe := (msg.drop K.publicKeyLen).take K.ciphertextLen
    ee
    encR := msg.drop (K.publicKeyLen + K.ciphertextLen) }, rfl, ?_, rfl, rfl, hSealed⟩
  show ((i.ss.mixHash P _).mixHash P _).mixKey P _ = _
  rw [hSs]
  rfl

theorem writeMsg3_state (h : writeMsg3 P i rSe rSs anchor = ok (msg, s, i')) :
    ∃ signer encR m, i.Writes P i' rSe rSs signer msg s encR m ∧
      (anchor.isSome = true → ∃ sk, i.staticSk = some sk ∧ signer = some (K.sign sk)) := by
  cases anchor with
  | none =>
    obtain ⟨encR, m, hWrites⟩ := writeMsg3Inner_state h
    exact ⟨none, encR, m, hWrites, nofun⟩
  | some =>
    obtain ⟨sk, hSk, h⟩ := bind_eq_ok.mp h
    obtain ⟨encR, m, hWrites⟩ := writeMsg3Inner_state h
    -- taking the key out changes nothing that is read here
    exact ⟨some (K.sign sk), encR, m,
      { enc := hWrites.enc
        ctSe := hWrites.ctSe
        ctSs := hWrites.ctSs
        msg := hWrites.msg
        state := hWrites.state
        sealed := hWrites.sealed
        session := hWrites.session }, fun _ => ⟨sk, okOr_eq_ok.mp hSk, rfl⟩⟩

theorem acts_writeMsg3 {encR m} {signer : Option (Fixed 32 → Outcome Error Bytes)}
    (h : writeMsg3 P i rSe rSs anchor = ok (msg, s, i'))
    (hWrites : i.Writes P i' rSe rSs signer msg s encR m) :
    Party.acts P (.keyed i) (.writeMsg3 rSe rSs anchor) =
      [.mixes encR, .mixes m.ctSe, .mixes m.ctSs] ++
        (if anchor.isSome then [.signs (m.mix P (i.ss.mixHash P encR)).h] else []) ++
        [.mixes m.encI] := by
  obtain ⟨eR, hEr, hSe⟩ := hWrites.ctSe
  obtain ⟨sR, hSr, hSs⟩ := hWrites.ctSs
  have hHash : roll P.sm3 i.ss.h [encR, m.ctSe, m.ctSs] = (m.mix P (i.ss.mixHash P encR)).h := by
    rw [Msg3.mix_h, mixHash_h, roll]
  simp only [Party.acts, h, hWrites.enc, hEr, hSr, getD_some, hSe, hSs, hWrites.msg,
    drop_left, hHash]

theorem told_connected (hTold : Told P c early acts (.keyed i))
    (h : writeMsg3 P i rSe rSs anchor = ok (msg, s, i')) :
    Told P c early (acts ++ Party.acts P (.keyed i) (.writeMsg3 rSe rSs anchor))
      (.connected i' s) := by
  obtain ⟨signer, encR, m, hWrites, -⟩ := writeMsg3_state h
  obtain ⟨hRole, f, rfl, hSs, hEncR, -, hSealed⟩ := hTold
  obtain rfl : f.encR = encR := some_inj.mp (hEncR.symm.trans hWrites.enc)
  set g : Flow := { f with
    secrets := m.se.val ++ m.ss.val, ctSe := m.ctSe, ctSs := m.ctSs, encI := m.encI } with hG
  have hMix : m.mix P (i.ss.mixHash P f.encR) = g.ss3 P (ss0 P c) := by
    rw [hSs]
    rfl
  have hEnd : i'.ss = g.ss4 P (ss0 P c) := by
    rw [hWrites.state, hMix]
    rfl
  rw [acts_writeMsg3 h hWrites, hMix]
  refine ⟨hRole, g, ?_, ?_, hEnd, by simp [hG], ?_, ?_⟩
  · cases anchor <;> rfl
  · cases anchor with
    | none => exact nofun
    | some => simp [Act.signed]
  · rw [hWrites.session, hEnd]
    exact ⟨rfl, rfl, nofun⟩
  · obtain ⟨sig, -, hAdded⟩ := hWrites.sealed
    rw [hMix] at hAdded
    rw [hAdded]
    intro call hMem
    rcases mem_append.mp hMem with hMem | hMem
    · exact .inl (hSealed call hMem)
    · exact .inr ⟨_, mem_singleton.mp hMem⟩

theorem told_greeted (hTold : Told P c early acts (.idle r)) (h : r.readMsg1 P msg = ok r') :
    Told P c early (acts ++ Party.acts P (.idle r) (.readMsg1 msg)) (.greeted r') := by
  obtain rfl := Responder.readMsg1_state h
  obtain ⟨hRole, rfl, rfl⟩ := hTold
  refine ⟨hRole, hello msg, rfl, ?_, rfl, ?_⟩
  · rw [Responder.create_ss]
    rfl
  · cases hPsk : c.psk <;> rfl

theorem told_replied {rEph rEe} (hTold : Told P c early acts (.greeted r))
    (h : r.writeMsg2 P rEph rEe = ok (msg, r')) :
    Told P c early (acts ++ Party.acts P (.greeted r) (.writeMsg2 rEph rEe)) (.replied r') := by
  obtain ⟨eI, eSk, eR, ctEe, ee, encR, hEph, hKey, hEnc, rfl, rfl⟩ := Responder.writeMsg2_state h
  obtain ⟨hRole, f, rfl, hSs, hFirst, hNone⟩ := hTold
  have hActs : Party.acts P (.greeted r) (.writeMsg2 rEph rEe) =
      [.mixes eR, .mixes ctEe, .mixes encR] := by
    simp only [Party.acts, h, hKey, hEph, getD_some, hEnc, drop_left]
  rw [hActs]
  refine ⟨hRole, { f with eR, ctEe, ee, encR }, rfl, ?_, ?_⟩
  · show (((r.ss.mixHash P eR).mixHash P ctEe).mixKey P ee.val).mixHash P encR = _
    rw [hSs]
    rfl
  · intro call hMem
    rw [hNone, nil_append] at hMem
    rw [mem_singleton.mp hMem, hSs]
    rfl

theorem told_accepted {plain hSign} (hTold : Told P c early acts (.replied r))
    (h : r.readMsg3Inner P msg = ok ((s, plain, hSign), r')) :
    Told P c early (acts ++ Party.acts P (.replied r) (.readMsg3 msg anchor)) (.accepted r' s) := by
  obtain ⟨m, hReads⟩ := Responder.readMsg3Inner_state h
  obtain ⟨hRole, f, rfl, hSs, hSealed⟩ := hTold
  set g : Flow := { f with
    secrets := m.se.val ++ m.ss.val, ctSe := m.ctSe, ctSs := m.ctSs, encI := m.encI } with hG
  have hMix : m.mix P r.ss = g.ss3 P (ss0 P c) := by
    rw [hSs]
    rfl
  have hEnd : r'.ss = g.ss4 P (ss0 P c) := by
    rw [hReads.state, hMix]
    rfl
  refine ⟨hRole, g, plain, ?_, hEnd, by simp [hG], ?_, ?_⟩
  · have hCk : r'.ss.ck = (g.ss3 P (ss0 P c)).ck := by
      rw [hEnd]
      rfl
    simp only [Party.acts, h, hCk, hReads.hSign, hMix, hG, hReads.ctSe, hReads.ctSs, hReads.encI]
    rfl
  · rw [hReads.session, hEnd]
    exact ⟨rfl, rfl, nofun⟩
  · rw [hReads.sealed]
    exact hSealed

theorem Yields.send {f dir s' plaintext} (h : Yields P c f dir s)
    (hSend : s.send (ε := Empty) P plaintext = ok (packet, s')) : Yields P c f dir s' := by
  obtain ⟨hKey, -, hSealed⟩ := Session.send_spec hSend
  refine ⟨(Session.send_sessionId hSend).trans h.sessionId, hKey.trans h.key, ?_⟩
  intro call hMem
  rw [hSealed] at hMem
  rw [hKey]
  rcases mem_append.mp hMem with hMem | hMem
  · exact h.sealed call hMem
  · rw [mem_singleton.mp hMem]
    rfl

theorem Yields.recv {f dir s' r} (h : Yields P c f dir s) (hRecv : s.recv P packet = ok (r, s')) :
    Yields P c f dir s' := by
  obtain ⟨hTx, hSealed⟩ := Session.recv_spec hRecv
  refine ⟨(Session.recv_sessionId hRecv).trans h.sessionId, ?_, ?_⟩
  · rw [hTx]
    exact h.key
  · rw [hSealed, hTx]
    exact h.sealed

theorem told_step {p p' op} (hTold : Told P c early acts p) (h : step P c p op = some p') :
    Told P c (early ++ op.earlyData) (acts ++ Party.acts P p op) p' := by
  unfold step at h
  split at h <;> simp only [Op.earlyData, append_nil]
  case h_1 i r =>
    obtain ⟨⟨msg, i'⟩, hCall, rfl⟩ := map_eq_some_iff.mp h
    exact told_offered hTold (toOption_eq_some.mp hCall)
  case h_2 i plaintext =>
    split at h
    · rename_i hSome
      obtain ⟨⟨packet, i'⟩, hCall, rfl⟩ := map_eq_some_iff.mp h
      simp only [Party.acts, append_nil]
      exact told_early hTold hSome (toOption_eq_some.mp hCall)
    · cases h
  case h_3 i msg =>
    obtain ⟨i', hCall, rfl⟩ := map_eq_some_iff.mp h
    exact told_keyed hTold (toOption_eq_some.mp hCall)
  case h_4 i rSe rSs anchor =>
    obtain ⟨⟨msg, s, i'⟩, hCall, rfl⟩ := map_eq_some_iff.mp h
    exact told_connected hTold (toOption_eq_some.mp hCall)
  case h_5 r msg =>
    obtain ⟨r', hCall, rfl⟩ := map_eq_some_iff.mp h
    exact told_greeted hTold (toOption_eq_some.mp hCall)
  case h_6 r rEph rEe =>
    obtain ⟨⟨msg, r'⟩, hCall, rfl⟩ := map_eq_some_iff.mp h
    exact told_replied hTold (toOption_eq_some.mp hCall)
  case h_7 r msg anchor =>
    obtain ⟨⟨s, r'⟩, hCall, rfl⟩ := map_eq_some_iff.mp h
    obtain ⟨plain, hSign, hInner⟩ := readMsg3_inner (toOption_eq_some.mp hCall)
    exact told_accepted hTold hInner
  -- a session shows nothing
  case h_8 | h_10 =>
    obtain ⟨⟨packet, s'⟩, hCall, rfl⟩ := map_eq_some_iff.mp h
    obtain ⟨hRole, f, hFirst, hSecond, hSs, hLen, hYields, hSealed⟩ := hTold
    simp only [Party.acts, append_nil]
    exact ⟨hRole, f, hFirst, hSecond, hSs, hLen, hYields.send (toOption_eq_some.mp hCall), hSealed⟩
  case h_9 | h_11 =>
    obtain ⟨⟨_, s'⟩, hCall, rfl⟩ := map_eq_some_iff.mp h
    obtain ⟨hRole, f, hFirst, hSecond, hSs, hLen, hYields, hSealed⟩ := hTold
    simp only [Party.acts, append_nil]
    exact ⟨hRole, f, hFirst, hSecond, hSs, hLen, hYields.recv (toOption_eq_some.mp hCall), hSealed⟩
  case h_12 => cases h

end Party

theorem PartyRun.told {P K} (a : PartyRun P K) :
    Party.Told P a.config a.earlyData a.acts a.party := by
  refine observe_invariant _
    (I := fun ops acts p => Party.Told P a.config (ops.flatMap Op.earlyData) acts p)
    Party.told_start ?_ a.reached
  intro ops acts p op p' hTold _ hStep
  rw [flatMap_append, flatMap_singleton]
  exact Party.told_step hTold hStep

end DirectWire.GmPq
