import DirectWire.GmPq.Authentication

/-!
# GM-PQ — what both ends know of early data

An attacker has the network between `client_connect_resume` and `server_accept`. `Secure` says of
all honest runs that their hashes, extractions and keys do not collide, that no ephemeral key was
drawn twice, and that a message 3 which opens at a responder was sealed by one of the runs if the
ephemeral key it answered is from one of them; `EarlyGenuine` is the same for early data.

Neither the pre-shared key nor the early data is in the transcript: the ends agree on the key
since message 3 opens under it, and the early data is sealed under it and bound to `e_i`. The byte
that says whether the server took the early data is under no key.
-/

namespace DirectWire.GmPq

open Lib Outcome List Option Party SymmetricState

section

variable {P : Primitives} {K : StaticAuth}

/-! ## Ideal cryptography -/

def PartyRun.ephemeral (a : PartyRun P K) : Option Bytes :=
  match a.config.role with
  | .initiator => a.transcript.head?
  | .responder => none

def PartyRun.h1 (a : PartyRun P K) : Fixed 32 :=
  roll P.sm3 (startHash P K.name) (a.transcript.take 1)

def PartyRun.earlyCall (a : PartyRun P K) (plaintext : Bytes) : GcmCall :=
  staticCall (Purpose.early.key P (ss0 P a.config).ck) a.h1 plaintext

/-- The algorithms seen as ideal by the handshakes that honest parties have made,
each as far as it went. -/
structure Secure (runs : List (PartyRun P K)) : Prop where
  ideal : Ideal runs
  hash : CollisionFree P.sm3 (runs.flatMap PartyRun.hashed)
  fresh : ∀ a ∈ runs, ∀ b ∈ runs, ∀ e, a.ephemeral = some e → b.ephemeral = some e → a = b
  /-- The secret of `ct_ee` is known to the two ends if the ephemeral key is from
  one of the runs, and it is in the key that message 3 is opened under. -/
  aead : ∀ b ∈ runs, (∃ a ∈ runs, ∃ e, a.ephemeral = some e ∧ b.transcript.head? = some e) →
    ∀ call ∈ b.opened, call ∈ runs.flatMap PartyRun.sealed

/-- Early data that opens at a responder was sealed by a run, if the pre-shared
key is known to no one but the responder and an initiator among the runs. -/
def EarlyGenuine (runs : List (PartyRun P K)) (b : PartyRun P K) (data : Bytes) : Prop :=
  (∃ a ∈ runs, a.config.role = .initiator ∧ a.config.psk = b.config.psk) →
    ∀ seq ed, openStatic P ((ss0 P b.config).earlyDataAead P) b.h1 data = ok (seq, ed) →
      b.earlyCall ed ∈ runs.flatMap PartyRun.sealed

variable {runs : List (PartyRun P K)} {a b : PartyRun P K}

theorem Ideal.eq_of_ck (h : Ideal runs) (ha : a ∈ runs) (hb : b ∈ runs) {q q'}
    (hq : q ∈ a.extracted) (hq' : q' ∈ b.extracted) (hCk : q.ck P = q'.ck P) : q = q' :=
  h.extract q (mem_flatMap.mpr ⟨a, ha, hq⟩) q' (mem_flatMap.mpr ⟨b, hb, hq'⟩) hCk

theorem Ideal.eq_of_key (h : Ideal runs) (ha : a ∈ runs) (hb : b ∈ runs) {q q' : Query}
    (hq : q ∈ a.extracted) (hq' : q' ∈ b.extracted) {purpose purpose' : Purpose}
    (hKey : purpose.key P (q.ck P) = purpose'.key P (q'.ck P)) : purpose = purpose' ∧ q = q' := by
  obtain ⟨hCk, hPurpose⟩ := h.expand q (mem_flatMap.mpr ⟨a, ha, hq⟩) q'
    (mem_flatMap.mpr ⟨b, hb, hq'⟩) purpose purpose' hKey
  exact ⟨hPurpose, h.eq_of_ck ha hb hq hq' hCk⟩

/-! ## What a run has sealed -/

/-- Why a run has made an encryption: early data, the static key of an
initiator, or anything else under a key that is neither. -/
inductive PartyRun.Sealing (a : PartyRun P K) (call : GcmCall) : Prop where
  | early (p : Fixed 32) (e x : Bytes) (role : a.config.role = .initiator)
      (first : a.transcript.take 1 = [e]) (psk : a.config.psk = some p)
      (query : pskQuery P K.name p ∈ a.extracted) (mem : x ∈ a.earlyData)
      (eq : call = a.earlyCall x)
  | static (f : Flow) (x : Bytes) (role : a.config.role = .initiator)
      (values : a.transcript = f.values)
      (extracted : a.extracted = (f.ss4 P (ss0 P a.config)).extracted)
      (length : f.secrets.length = 64)
      (eq : call = staticCall (Purpose.static.key P (f.ss3 P (ss0 P a.config)).ck)
        (f.ss3 P (ss0 P a.config)).h x)
  | other (purpose : Purpose) (q : Query) (mem : q ∈ a.extracted) (purpose_ne : purpose ≠ .early)
      (length : purpose = .static → q.2.length = 32) (key : call.key = purpose.key P (q.ck P))

variable {p id : Fixed 32} {call : GcmCall} {f g : Flow} {s : Session}

theorem ss0_of_psk {c : Config K} (h : c.psk = some p) :
    (ss0 P c).ck = (pskQuery P K.name p).ck P ∧ (ss0 P c).extracted = [pskQuery P K.name p] := by
  rw [ss0, h]
  exact ⟨rfl, rfl⟩

theorem PartyRun.Sealing.of_early (hRole : a.config.role = .initiator)
    (hFirst : a.transcript.take 1 = [f.eI])
    (hExtracted : (ss0 P a.config).extracted ⊆ a.extracted)
    (h : Party.SealsEarly P a.config a.earlyData f call) : a.Sealing call := by
  obtain ⟨hSome, x, hx, hCall⟩ := h
  obtain ⟨p, hPsk⟩ := isSome_iff_exists.mp hSome
  refine .early p f.eI x hRole hFirst hPsk (hExtracted ?_) hx ?_
  · rw [(ss0_of_psk hPsk).2]
    exact mem_singleton_self _
  · rw [hCall, PartyRun.earlyCall, PartyRun.h1, hFirst, Flow.ss1_h, ss0, start_h]
    rfl

theorem PartyRun.take_one {rest} (h : a.acts = .mixes f.eI :: rest) :
    a.transcript.take 1 = [f.eI] := by
  rw [PartyRun.transcript, h]
  rfl

theorem PartyRun.Sealing.of_session {dir} (hDir : dir ≠ .early) (hStatic : dir ≠ .static)
    (hExtracted : a.extracted = (f.ss4 P (ss0 P a.config)).extracted)
    (hYields : Party.Yields P a.config f dir s) (h : call ∈ s.sealed) : a.Sealing call := by
  refine .other dir ((f.ss2 P (ss0 P a.config)).ck, f.secrets) ?_ hDir
    (fun hIs => absurd hIs hStatic) ?_
  · rw [hExtracted]
    exact Flow.secrets_mem
  · rw [hYields.sealed call h, hYields.key]
    rfl

theorem PartyRun.Sealing.of_static2 (hMem : ((ss0 P a.config).ck, f.ee.val) ∈ a.extracted)
    (h : call.key = Purpose.static.key P (f.ss2 P (ss0 P a.config)).ck) : a.Sealing call :=
  .other .static _ hMem (by decide) (fun _ => f.ee.property) h

theorem PartyRun.sealed_cases (h : call ∈ a.sealed) : a.Sealing call := by
  have hTold := a.told
  have hLogs : a.extracted = a.party.logs.extracted := rfl
  rw [PartyRun.sealed] at h
  cases hParty : a.party with
  | fresh i =>
    rw [hParty] at hTold h
    obtain ⟨-, -, -, rfl⟩ := hTold
    cases hPsk : a.config.psk <;> rw [hPsk] at h <;> cases h
  | offered i =>
    rw [hParty] at hTold h hLogs
    obtain ⟨hRole, f, hActs, hSs, hSealed⟩ := hTold
    refine .of_early hRole (PartyRun.take_one hActs) ?_ (hSealed call h)
    rw [hLogs]
    show _ ⊆ i.ss.extracted
    rw [hSs]
    exact List.Subset.refl _
  | keyed i =>
    rw [hParty] at hTold h hLogs
    obtain ⟨hRole, f, hActs, hSs, -, -, hSealed⟩ := hTold
    refine .of_early hRole (PartyRun.take_one hActs) ?_ (hSealed call h)
    rw [hLogs]
    show _ ⊆ i.ss.extracted
    rw [hSs]
    exact subset_append_left _ _
  | connected i s =>
    rw [hParty] at hTold h hLogs
    obtain ⟨hRole, f, hValues, -, hSs, hLen, hYields, hSealed⟩ := hTold
    have hExtracted : a.extracted = (f.ss4 P (ss0 P a.config)).extracted := by
      rw [hLogs, ← hSs]
      rfl
    rcases mem_append.mp h with h | h
    · rcases hSealed call h with hEarly | ⟨x, hStatic⟩
      · refine .of_early hRole ?_ ?_ hEarly
        · rw [PartyRun.transcript, hValues]
          rfl
        · rw [hExtracted]
          exact Flow.start_subset
      · exact .static f x hRole hValues hExtracted hLen hStatic
    · exact .of_session (by decide) (by decide) hExtracted hYields h
  | idle r =>
    rw [hParty] at hTold h
    obtain ⟨-, -, rfl⟩ := hTold
    cases hPsk : a.config.psk <;> rw [hPsk] at h <;> cases h
  | greeted r =>
    rw [hParty] at hTold h
    obtain ⟨-, f, -, -, -, hNone⟩ := hTold
    have hMem : call ∈ r.sealed := h
    rw [hNone] at hMem
    cases hMem
  | replied r =>
    rw [hParty] at hTold h hLogs
    obtain ⟨-, f, -, hSs, hSealed⟩ := hTold
    refine .of_static2 ?_ (hSealed call h)
    rw [hLogs]
    show _ ∈ r.ss.extracted
    rw [hSs]
    exact mem_append_right _ (mem_singleton_self _)
  | accepted r s =>
    rw [hParty] at hTold h hLogs
    obtain ⟨-, f, -, -, hSs, -, hYields, hSealed⟩ := hTold
    have hExtracted : a.extracted = (f.ss4 P (ss0 P a.config)).extracted := by
      rw [hLogs, ← hSs]
      rfl
    rcases mem_append.mp h with h | h
    · refine .of_static2 ?_ (hSealed call h)
      rw [hExtracted]
      exact Flow.ee_mem
    · exact .of_session (by decide) (by decide) hExtracted hYields h

/-! ## One session id -/

structure PartyRun.Connected (a : PartyRun P K) (f : Flow) (id : Fixed 32) : Prop where
  role : a.config.role = .initiator
  values : a.transcript = f.values
  sessionId : id = roll P.sm3 (startHash P K.name) f.values

theorem PartyRun.connected_spec {i} (h : a.party = .connected i s) :
    ∃ f, a.Connected f s.sessionId := by
  have hTold := a.told
  rw [h] at hTold
  obtain ⟨hRole, f, hValues, -, -, -, hYields, -⟩ := hTold
  refine ⟨f, hRole, hValues, ?_⟩
  rw [hYields.sessionId, Flow.ss4_h, ss0, start_h]

/-- The end of a responder's run, with what it has opened. -/
structure PartyRun.Accepted (b : PartyRun P K) (f : Flow) (id : Fixed 32) : Prop where
  values : b.transcript = f.values
  sessionId : id = roll P.sm3 (startHash P K.name) f.values
  extracted : b.extracted = (f.ss4 P (ss0 P b.config)).extracted
  length : f.secrets.length = 64
  opened : ∃ plain, staticCall (Purpose.static.key P (f.ss3 P (ss0 P b.config)).ck)
    (f.ss3 P (ss0 P b.config)).h plain ∈ b.opened

theorem PartyRun.accepted_spec {r} (h : b.party = .accepted r s) :
    ∃ f, b.Accepted f s.sessionId := by
  have hTold := b.told
  have hLogs : b.extracted = b.party.logs.extracted := rfl
  rw [h] at hTold hLogs
  obtain ⟨-, f, plain, hActs, hSs, hLen, hYields, -⟩ := hTold
  refine ⟨f, ?_, ?_, ?_, hLen, plain, ?_⟩
  · rw [PartyRun.transcript, hActs]
    rfl
  · rw [hYields.sessionId, Flow.ss4_h, ss0, start_h]
  · rw [hLogs, ← hSs]
    rfl
  · rw [PartyRun.opened, hActs]
    exact mem_singleton_self _

theorem Secure.eq_of_roll (h : Secure runs) (ha : a ∈ runs) (hb : b ∈ runs) {vs ws}
    (hVs : vs <+: a.transcript) (hWs : ws <+: b.transcript) (hLen : vs.length = ws.length)
    (hEq : roll P.sm3 (startHash P K.name) vs = roll P.sm3 (startHash P K.name) ws) : vs = ws := by
  refine roll_inj hLen (h.hash.mono ?_) hEq
  intro x hx
  rcases mem_append.mp hx with hx | hx
  · exact mem_flatMap.mpr ⟨a, ha, rollInputs_mono _ hVs hx⟩
  · exact mem_flatMap.mpr ⟨b, hb, rollInputs_mono _ hWs hx⟩

theorem PartyRun.ephemeral_eq (hRole : a.config.role = .initiator)
    (hValues : a.transcript = f.values) : a.ephemeral = some f.eI := by
  rw [PartyRun.ephemeral, hRole, hValues]
  rfl

section

variable (h : Secure runs) (ha : a ∈ runs) (hb : b ∈ runs) (hA : a.Connected f id)
  (hB : b.Accepted g id)

include h ha hb hA hB

theorem Secure.values_eq : f.values = g.values := by
  refine h.eq_of_roll ha hb ?_ ?_ rfl (hA.sessionId.symm.trans hB.sessionId)
  · rw [hA.values]
  · rw [hB.values]

theorem Secure.exists_sealer :
    ∃ f' : Flow, a.extracted = (f'.ss4 P (ss0 P a.config)).extracted ∧
      (f'.ss2 P (ss0 P a.config)).ck = (g.ss2 P (ss0 P b.config)).ck := by
  have hFirst : f.eI = g.eI := congrArg (headD · []) (h.values_eq ha hb hA hB)
  have hEph := PartyRun.ephemeral_eq hA.role hA.values
  -- the ephemeral key is honest, so message 3 was sealed by a run
  obtain ⟨plain, hOpened⟩ := hB.opened
  have hHead : b.transcript.head? = some f.eI := by
    rw [hB.values, hFirst]
    rfl
  have hSealed := h.aead b hb ⟨a, ha, f.eI, hEph, hHead⟩ _ hOpened
  obtain ⟨c, hc, hCall⟩ := mem_flatMap.mp hSealed
  have hQuery : ((g.ss2 P (ss0 P b.config)).ck, g.secrets) ∈ b.extracted := by
    rw [hB.extracted]
    exact Flow.secrets_mem
  cases PartyRun.sealed_cases hCall with
  | early p e x role first psk query mem eq =>
    -- not under a key for early data
    have hKey : Purpose.static.key P (g.ss3 P (ss0 P b.config)).ck =
        Purpose.early.key P ((pskQuery P K.name p).ck P) := by
      rw [← (ss0_of_psk psk).1]
      exact congrArg GcmCall.key eq
    cases (h.ideal.eq_of_key hb hc hQuery query hKey).1
  | static f' x role values extracted length eq =>
    have hKey : Purpose.static.key P (g.ss3 P (ss0 P b.config)).ck =
        Purpose.static.key P (f'.ss3 P (ss0 P c.config)).ck := congrArg GcmCall.key eq
    have hQuery' : ((f'.ss2 P (ss0 P c.config)).ck, f'.secrets) ∈ c.extracted := by
      rw [extracted]
      exact Flow.secrets_mem
    have hSame := (h.ideal.eq_of_key hb hc hQuery hQuery' hKey).2
    -- the associated data is the transcript, and the transcript tells the run
    have hAad : (g.ss3 P (ss0 P b.config)).h = (f'.ss3 P (ss0 P c.config)).h :=
      Subtype.ext (congrArg GcmCall.aad eq)
    rw [Flow.ss3_h, Flow.ss3_h, ss0, ss0, start_h, start_h] at hAad
    have hPrefix : [g.eI, g.eR, g.ctEe, g.encR, g.ctSe, g.ctSs] <+: b.transcript := by
      rw [hB.values]
      exact ⟨[g.encI], rfl⟩
    have hPrefix' : [f'.eI, f'.eR, f'.ctEe, f'.encR, f'.ctSe, f'.ctSs] <+: c.transcript := by
      rw [values]
      exact ⟨[f'.encI], rfl⟩
    have hSix := h.eq_of_roll hb hc hPrefix hPrefix' rfl hAad
    have hEph' : c.ephemeral = some f.eI := by
      rw [PartyRun.ephemeral_eq role values, hFirst]
      exact congrArg (fun l => some (l.headD [])) hSix.symm
    obtain rfl : c = a := h.fresh c hc a ha f.eI hEph' hEph
    exact ⟨f', extracted, (congrArg Prod.fst hSame).symm⟩
  | other purpose q mem purpose_ne length key =>
    have hKey : Purpose.static.key P (g.ss3 P (ss0 P b.config)).ck = purpose.key P (q.ck P) := key
    obtain ⟨rfl, rfl⟩ := h.ideal.eq_of_key hb hc hQuery mem hKey
    -- two secrets are not one
    have hLen : g.secrets.length = 32 := length rfl
    rw [hB.length] at hLen
    cases hLen

theorem Secure.psk_agrees {p'} (hPsk : a.config.psk = some p) (hPsk' : b.config.psk = some p') :
    p = p' := by
  obtain ⟨f', hExtracted, hCk⟩ := h.exists_sealer ha hb hA hB
  obtain ⟨hCkA, hPskA⟩ := ss0_of_psk (P := P) hPsk
  obtain ⟨hCkB, hPskB⟩ := ss0_of_psk (P := P) hPsk'
  have hExtracted' := hB.extracted
  -- back along the chaining key: first the secret of `ct_ee`
  have hEe : ((ss0 P a.config).ck, f'.ee.val) ∈ a.extracted := by
    rw [hExtracted]
    exact Flow.ee_mem
  have hEe' : ((ss0 P b.config).ck, g.ee.val) ∈ b.extracted := by
    rw [hExtracted']
    exact Flow.ee_mem
  have hStart : (ss0 P a.config).ck = (ss0 P b.config).ck :=
    congrArg Prod.fst (h.ideal.eq_of_ck ha hb hEe hEe' hCk)
  -- then the pre-shared key
  have hMem : pskQuery P K.name p ∈ a.extracted := by
    rw [hExtracted]
    exact Flow.start_subset (by rw [hPskA]; exact mem_singleton_self _)
  have hMem' : pskQuery P K.name p' ∈ b.extracted := by
    rw [hExtracted']
    exact Flow.start_subset (by rw [hPskB]; exact mem_singleton_self _)
  rw [hCkA, hCkB] at hStart
  exact pskQuery_inj (h.ideal.eq_of_ck ha hb hMem hMem' hStart)

theorem Secure.early_agrees {ed} (hPsk : b.config.psk = some p)
    (hSealed : b.earlyCall ed ∈ runs.flatMap PartyRun.sealed) : ed ∈ a.earlyData := by
  have hFirst : f.eI = g.eI := congrArg (headD · []) (h.values_eq ha hb hA hB)
  obtain ⟨c, hc, hCall⟩ := mem_flatMap.mp hSealed
  obtain ⟨hCk, hExtracted⟩ := ss0_of_psk (P := P) hPsk
  have hQuery : pskQuery P K.name p ∈ b.extracted := by
    rw [hB.extracted]
    exact Flow.start_subset (by rw [hExtracted]; exact mem_singleton_self _)
  have hKeyB : (b.earlyCall ed).key = Purpose.early.key P ((pskQuery P K.name p).ck P) := by
    rw [← hCk]
    rfl
  cases PartyRun.sealed_cases hCall with
  | early p' e x role first psk query mem eq =>
    -- the associated data has the ephemeral key, which tells the run
    have hAad : b.h1 = c.h1 := Subtype.ext (congrArg GcmCall.aad eq)
    have hOneB : b.transcript.take 1 = [g.eI] := by
      rw [hB.values]
      rfl
    have hStart : ∀ r : PartyRun P K, r.transcript.take 1 <+: r.transcript := fun r =>
      ⟨_, take_append_drop 1 r.transcript⟩
    have hOne : b.transcript.take 1 = c.transcript.take 1 := by
      refine h.eq_of_roll hb hc (hStart b) (hStart c) ?_ hAad
      rw [hOneB, first]
      rfl
    have hEph : c.ephemeral = some f.eI := by
      rw [PartyRun.ephemeral, role, hFirst]
      have hHead : c.transcript.head? = (c.transcript.take 1).head? := by
        rw [head?_take, if_neg one_ne_zero]
      rw [hHead, ← hOne, hOneB]
      rfl
    obtain rfl : c = a := h.fresh c hc a ha f.eI hEph (PartyRun.ephemeral_eq hA.role hA.values)
    obtain rfl : ed = x := congrArg GcmCall.plaintext eq
    exact mem
  | static f' x role values extracted length eq =>
    have hQuery' : ((f'.ss2 P (ss0 P c.config)).ck, f'.secrets) ∈ c.extracted := by
      rw [extracted]
      exact Flow.secrets_mem
    have hKey : Purpose.early.key P ((pskQuery P K.name p).ck P) =
        Purpose.static.key P (f'.ss3 P (ss0 P c.config)).ck := by
      rw [← hKeyB, eq]
      rfl
    cases (h.ideal.eq_of_key hb hc hQuery hQuery' hKey).1
  | other purpose q mem purpose_ne length key =>
    exact absurd (h.ideal.eq_of_key hb hc hQuery mem (hKeyB.symm.trans key)).1.symm purpose_ne

end

/-! ## The two calls -/

variable {env : ServerEnv K.toKem} {stream : Stream} {staticSk : K.SecretKey} {staticPk : Bytes}

theorem ClientResumed.run_earlyData {rand anchor psk earlyData out}
    (w : ClientResumed P rand stream staticSk staticPk anchor psk earlyData out) :
    w.run.earlyData = earlyData.toList := by
  cases earlyData <;> rfl

theorem ServerResumed.early_opened {cfg out}
    (w : ServerResumed P env stream staticSk staticPk cfg out) {ed} (h : out.earlyData = some ed) :
    ∃ seq, openStatic P ((ss0 P w.run.config).earlyDataAead P) w.run.h1
      ((w.payload.drop ticketLen).drop K.publicKeyLen) = ok (seq, ed) := by
  have hOpen : w.r₁.openEarlyData P ((w.payload.drop ticketLen).drop K.publicKeyLen) = ok ed := by
    rcases w.early with ⟨-, hNone⟩ | ⟨-, ed', hSome, hOpen⟩
    · rw [hNone] at h
      cases h
    · rw [hSome] at h
      cases h
      exact hOpen
  rw [Responder.readMsg1_state w.read1] at hOpen
  obtain ⟨⟨seq, plaintext⟩, hOpen, hEq⟩ := bind_eq_ok.mp hOpen
  cases hEq
  refine ⟨seq, ?_⟩
  -- message 1 is the first value of the transcript, and changes no key
  have hHash : w.run.h1 = P.sm3 ((startHash P K.name).val ++
      (w.payload.drop ticketLen).take K.publicKeyLen) := rfl
  rw [hHash]
  rw [Responder.create_ss, mixHash_h, start_h] at hOpen
  exact hOpen

/-- What is in the first frame that comes in. -/
def Stream.firstPayload (s : Stream) : Bytes :=
  match nextFrame s.input with
  | .ok ((_, payload), _) => payload
  | .err _ | .panic _ => []

theorem ServerResumed.early_isSome {cfg out}
    (w : ServerResumed P env stream staticSk staticPk cfg out) :
    out.earlyData.isSome = true ↔ ticketLen + K.publicKeyLen < stream.firstPayload.length := by
  obtain ⟨rest, rest', hFrame, -⟩ := w.frames
  have hEmpty : (w.payload.drop ticketLen).drop K.publicKeyLen = [] ↔
      w.payload.length ≤ ticketLen + K.publicKeyLen := by
    rw [drop_drop, drop_eq_nil_iff]
  rw [Stream.firstPayload, hFrame, ← Nat.not_le, ← hEmpty]
  rcases w.early with ⟨hNil, hNone⟩ | ⟨hNil, ed, hSome, -⟩
  · rw [hNone]
    exact iff_of_false nofun (not_not.mpr hNil)
  · rw [hSome]
    exact iff_of_true rfl hNil

/-- **Early data.** The two calls return on streams that the attacker writes, both with a resumed
session and one session id; the runs of both are among `runs`, on which the cryptography is ideal
(`hSecure`, and `EarlyGenuine` for the server's early data). Then they agree on the early data
exactly if the attacker has seen to it that the flag in front of message 2, as the client gets it,
is set if and only if something follows the ephemeral key in the MSG1_PSK that the server gets:
neither of the two is protected. What the server has as early data is the client's in any case. -/
theorem early_data_agrees (runs : List (PartyRun P K)) (hSecure : Secure runs)
    (rand again : ClientRand K.toKem) (cStream : Stream) (cSk : K.SecretKey) (cPk : Bytes)
    (cAnchor : TrustAnchor) (ticket : Bytes) (psk : Fixed 32) (earlyData : Option Bytes)
    (cOut : ClientOutcome) (env : ServerEnv K.toKem) (sStream : Stream) (sSk : K.SecretKey)
    (sPk : Bytes) (cfg : ServerConfig) (sOut : ServerOutcome)
    (hConnect : clientConnectResume P rand again cStream cSk cPk cAnchor ticket psk earlyData =
      ok cOut)
    (hAccept : (serverAccept P env sStream sSk sPk cfg).1 = ok sOut)
    (hResumed : cOut.resumed = true ∧ sOut.resumed = true)
    (hId : cOut.channel.session.sessionId = sOut.channel.session.sessionId)
    (hClient : ∀ w : ClientResumed P rand cStream cSk cPk cAnchor psk earlyData cOut, w.run ∈ runs)
    (hServer : ∀ w : ServerResumed P env sStream sSk sPk cfg sOut, w.run ∈ runs ∧
      EarlyGenuine runs w.run ((w.payload.drop ticketLen).drop K.publicKeyLen)) :
    ((cOut.earlyDataAccepted = true ↔ sOut.earlyData.isSome = true) ∧
      ∀ ed, sOut.earlyData = some ed → earlyData = some ed) ↔
    (cStream.firstPayload.head? = some 1 ↔
      ticketLen + K.publicKeyLen < sStream.firstPayload.length) := by
  obtain ⟨wc⟩ := clientConnectResume_resumed hConnect hResumed.1
  obtain ⟨ws⟩ := serverAccept_resumed hAccept hResumed.2
  have hData : ∀ ed, sOut.earlyData = some ed → earlyData = some ed := by
    intro ed hEd
    have ha := hClient wc
    obtain ⟨hb, hGenuine⟩ := hServer ws
    obtain ⟨f, hA⟩ := PartyRun.connected_spec (a := wc.run) rfl
    obtain ⟨g, hB⟩ := PartyRun.accepted_spec (b := ws.run) rfl
    rw [← wc.sessionId, hId, ws.sessionId] at hA
    -- the pre-shared key is the client's, so what opens under it was sealed
    have hPsk := hSecure.psk_agrees ha hb hA hB rfl rfl
    obtain ⟨seq, hOpen⟩ := ws.early_opened hEd
    have hSealed := hGenuine ⟨wc.run, ha, rfl, congrArg some hPsk⟩ seq ed hOpen
    have hMem := hSecure.early_agrees ha hb hA hB rfl hSealed
    rw [wc.run_earlyData] at hMem
    exact mem_toList.mp hMem
  have hFlag : cOut.earlyDataAccepted = true ↔ cStream.firstPayload.head? = some 1 := by
    obtain ⟨rest, hFrame⟩ := wc.frame
    rw [Stream.firstPayload, hFrame, wc.accepted, beq_iff_eq]
    exact some_inj.symm
  rw [and_iff_left hData, hFlag, ws.early_isSome]

end

/-! ## Two resumptions on concrete streams -/

def resumingServer : PartyRun labelPrimitives plainAuth :=
  .ofOps serverConfig
    [.readMsg1 [3], .writeMsg2 (4 : UInt8) (5 : UInt8),
      .readMsg3 ([6, 8, 1, 1] ++ replicate 16 0) (some allowAllAnchor)] (by decide +kernel)

def resumptionRuns : List (PartyRun labelPrimitives plainAuth) := [resumingClient, resumingServer]

theorem resumptionRuns_secure : Secure resumptionRuns where
  ideal := ⟨by decide +kernel, by decide +kernel, by decide +kernel⟩
  hash := by decide +kernel
  fresh a ha b hb e hEphA hEphB := by
    -- the server has no ephemeral key of an initiator
    have hClient : ∀ a ∈ resumptionRuns, a.ephemeral = some e → a = resumingClient := by
      intro a ha hEph
      rcases mem_cons.mp ha with rfl | ha
      · rfl
      · rw [mem_singleton.mp ha] at hEph
        cases hEph
    rw [hClient a ha hEphA, hClient b hb hEphB]
  aead b hb _ := by
    revert b
    decide +kernel

/-- What the server sends, given what is behind the client's ephemeral key. -/
def resumptionOutput (encEarly : Bytes) : Bytes :=
  ((serverAccept labelPrimitives resumptionEnv (resumptionInput encEarly) (2 : UInt8) [2]
    resumptionConfig).1.toOption.map (·.channel.stream.output)).getD []

def resumptionRand : ClientRand plainAuth.toKem := ⟨(3 : UInt8), (6 : UInt8), (8 : UInt8)⟩

def resumptionConnect (input : Bytes) : Outcome ApiError ClientOutcome :=
  clientConnectResume labelPrimitives (K := plainAuth) resumptionRand resumptionRand ⟨[input], []⟩
    (1 : UInt8) [1] allowAllAnchor ticketBytes (padTo 32 [7]) (some [9])

theorem resumptionConnect_run {input} (flag : UInt8)
    (hFrame : (nextFrame input).toOption.map Prod.fst =
      some (tMsg2, flag :: ([4, 5, 2] ++ replicate 16 0))) {out}
    (w : ClientResumed labelPrimitives (K := plainAuth) resumptionRand ⟨input, []⟩ (1 : UInt8) [1]
      allowAllAnchor (padTo 32 [7]) (some [9]) out) : w.run = resumingClient := by
  obtain ⟨rest, hNext⟩ := w.frame
  rw [hNext] at hFrame
  have hM2 : w.m2 = [4, 5, 2] ++ replicate 16 0 :=
    congrArg (fun f : UInt8 × Bytes => f.2.tail) (some_inj.mp hFrame)
  refine PartyRun.eq_of_ops rfl ?_
  show Op.writeMsg1 _ :: ([Op.sealEarlyData [9]] ++ [.readMsg2 w.m2, .writeMsg3 _ _ _]) = _
  rw [hM2]
  rfl

theorem resumptionAccept_run {stream} (encEarly : Bytes)
    (hFrame : (nextFrame stream.input).toOption.bind (fun x => (nextFrame x.2).toOption.map
      (fun y => (x.1.2, y.1.2))) = some (ticketBytes ++ [3] ++ encEarly,
        [6, 8, 1, 1] ++ replicate 16 0)) {out}
    (w : ServerResumed labelPrimitives (K := plainAuth) resumptionEnv stream (2 : UInt8) [2]
      resumptionConfig out) :
    w.run = resumingServer ∧ (w.payload.drop ticketLen).drop plainAuth.publicKeyLen = encEarly := by
  obtain ⟨rest, rest', hNext, hNext'⟩ := w.frames
  have hBoth : (w.payload, w.m3) =
      (ticketBytes ++ [3] ++ encEarly, [6, 8, 1, 1] ++ replicate 16 0) := by
    simpa [hNext, hNext', toOption] using hFrame
  have hPayload : w.payload = ticketBytes ++ ([3] ++ encEarly) := by
    rw [← append_assoc]
    exact congrArg Prod.fst hBoth
  have hM3 : w.m3 = [6, 8, 1, 1] ++ replicate 16 0 := congrArg Prod.snd hBoth
  have hLen : ticketBytes.length = ticketLen := by decide
  have hRest : w.payload.drop ticketLen = [3] ++ encEarly := by
    rw [hPayload, ← hLen, drop_left]
  have hTicket : resumptionConfig.tickets.openTicket labelPrimitives resumptionEnv.ticketOpened
      ticketBytes = ok resumptionTicket := by
    decide +kernel
  have hOpened := w.opened
  rw [hPayload, ← hLen, take_left, hTicket] at hOpened
  have hSame : resumptionTicket = w.ticket := ok.inj hOpened
  constructor
  · refine PartyRun.eq_of_ops ?_ ?_
    · show Config.mk _ _ _ (some w.ticket.psk) = _
      rw [← hSame]
      rfl
    · show [Op.readMsg1 ((w.payload.drop ticketLen).take _), .writeMsg2 _ _, .readMsg3 w.m3 _] = _
      rw [hM3, hRest]
      rfl
  · rw [hRest]
    rfl

/-- Nothing is changed on the way: the server has the early data, and the client
knows. -/
theorem early_data_agrees_unchanged : ∃ cOut sOut,
    resumptionConnect (resumptionOutput ([9] ++ replicate 16 0)) = ok cOut ∧
    (serverAccept labelPrimitives resumptionEnv (resumptionInput ([9] ++ replicate 16 0))
      (2 : UInt8) [2] resumptionConfig).1 = ok sOut ∧
    (cOut.earlyDataAccepted = true ↔ sOut.earlyData.isSome = true) ∧
    ∀ ed, sOut.earlyData = some ed → some [9] = some ed := by
  have hBoth : (resumptionConnect (resumptionOutput ([9] ++ replicate 16 0))).toOption.any
      (fun cOut => (serverAccept labelPrimitives resumptionEnv
        (resumptionInput ([9] ++ replicate 16 0)) (2 : UInt8) [2]
        resumptionConfig).1.toOption.any fun sOut =>
        decide ((cOut.resumed = true ∧ sOut.resumed = true) ∧
          cOut.channel.session.sessionId = sOut.channel.session.sessionId)) = true := by
    decide +kernel
  obtain ⟨cOut, hConnect, hRest⟩ := (any_eq_true _ _).mp hBoth
  obtain ⟨sOut, hAccept, hRest⟩ := (any_eq_true _ _).mp hRest
  obtain ⟨hResumed, hId⟩ := of_decide_eq_true hRest
  have hConnect := toOption_eq_some.mp hConnect
  have hAccept := toOption_eq_some.mp hAccept
  refine ⟨cOut, sOut, hConnect, hAccept, (early_data_agrees resumptionRuns resumptionRuns_secure
    resumptionRand resumptionRand _ (1 : UInt8) [1] allowAllAnchor ticketBytes (padTo 32 [7])
    (some [9]) cOut resumptionEnv _ (2 : UInt8) [2] resumptionConfig sOut hConnect hAccept hResumed
    hId (fun w => ?_) fun w => ?_).mpr (by decide +kernel)⟩
  · rw [resumptionConnect_run 1 (by decide +kernel) w]
    exact mem_cons_self
  · obtain ⟨hRun, hData⟩ := resumptionAccept_run ([9] ++ replicate 16 0) (by decide +kernel) w
    rw [hRun, hData]
    refine ⟨mem_cons_of_mem _ (mem_singleton_self _), ?_⟩
    rintro - seq ed hOpen
    -- the client has sealed what opens
    have hPlain : openStatic labelPrimitives
        ((ss0 labelPrimitives resumingServer.config).earlyDataAead labelPrimitives)
        resumingServer.h1 ([9] ++ replicate 16 0) = ok (0, [9]) := by
      decide +kernel
    rw [hPlain] at hOpen
    cases hOpen
    decide +kernel

/-- An attacker drops the early data and sets the flag. -/
theorem not_early_data_agrees : ∃ cOut sOut,
    resumptionConnect ((resumptionOutput []).set 5 1) = ok cOut ∧
    (serverAccept labelPrimitives resumptionEnv (resumptionInput []) (2 : UInt8) [2]
      resumptionConfig).1 = ok sOut ∧
    cOut.resumed = true ∧ sOut.resumed = true ∧
    cOut.channel.session.sessionId = sOut.channel.session.sessionId ∧
    Secure resumptionRuns ∧
    (∀ w : ClientResumed labelPrimitives (K := plainAuth) resumptionRand
      ⟨[(resumptionOutput []).set 5 1], []⟩ (1 : UInt8) [1] allowAllAnchor (padTo 32 [7])
      (some [9]) cOut, w.run ∈ resumptionRuns) ∧
    (∀ w : ServerResumed labelPrimitives (K := plainAuth) resumptionEnv (resumptionInput [])
      (2 : UInt8) [2] resumptionConfig sOut, w.run ∈ resumptionRuns ∧
      EarlyGenuine resumptionRuns w.run
        ((w.payload.drop ticketLen).drop plainAuth.publicKeyLen)) ∧
    cOut.earlyDataAccepted = true ∧ sOut.earlyData = none := by
  have hBoth : (resumptionConnect ((resumptionOutput []).set 5 1)).toOption.any (fun cOut =>
      (serverAccept labelPrimitives resumptionEnv (resumptionInput []) (2 : UInt8) [2]
        resumptionConfig).1.toOption.any fun sOut =>
        decide (cOut.resumed = true ∧ sOut.resumed = true ∧
          cOut.channel.session.sessionId = sOut.channel.session.sessionId ∧
          cOut.earlyDataAccepted = true ∧ sOut.earlyData = none)) = true := by
    decide +kernel
  obtain ⟨cOut, hConnect, hRest⟩ := (any_eq_true _ _).mp hBoth
  obtain ⟨sOut, hAccept, hRest⟩ := (any_eq_true _ _).mp hRest
  obtain ⟨hC, hS, hId, hTaken, hNone⟩ := of_decide_eq_true hRest
  refine ⟨cOut, sOut, toOption_eq_some.mp hConnect, toOption_eq_some.mp hAccept, hC, hS, hId,
    resumptionRuns_secure, fun w => ?_, fun w => ?_, hTaken, hNone⟩
  · rw [resumptionConnect_run 1 (by decide +kernel) w]
    exact mem_cons_self
  · obtain ⟨hRun, hData⟩ := resumptionAccept_run [] (by decide +kernel) w
    rw [hRun, hData]
    refine ⟨mem_cons_of_mem _ (mem_singleton_self _), ?_⟩
    -- nothing is there to open
    rintro - seq ed hOpen
    cases hOpen

end DirectWire.GmPq
