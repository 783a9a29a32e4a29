import DirectWire.GmPq.Transcript
import DirectWire.GmPq.Nonce
import DirectWire.GmPq.Api

/-!
# GM-PQ — the responder knows whom it talks to

What a responder accepts at the end is a signature on its transcript hash. An initiator signs
only in message 3, and the hash it signs gives its six values back.
-/

namespace DirectWire.GmPq

open Lib Outcome List PartyRun Responder

section

variable {P : Primitives} {K : StaticAuth}

namespace PartyRun

variable (a : PartyRun P K)

def hashed : List Bytes := rollInputs P.sm3 (startHash P K.name) a.transcript

def msg3Values (K : Kem) (msg : Bytes) : List Bytes :=
  [msg.take K.ciphertextLen, (msg.drop K.ciphertextLen).take K.ciphertextLen]

def hashedWith (msg : Bytes) : List Bytes :=
  rollInputs P.sm3 (startHash P K.name) (a.transcript ++ msg3Values K.toKem msg)

end PartyRun

/-- Whatever signature of an honest key the message holds was made by a run
under that key, on the hash it is checked against. -/
def Unforged (honest : Bytes → Prop) (runs : List (PartyRun P K)) (r : Responder K.toKem)
    (msg : Bytes) : Prop :=
  ∀ s pk sig hSign r', r.readMsg3Inner P msg = ok ((s, pk ++ sig, hSign), r') →
    pk.length = K.publicKeyLen → honest pk → K.verify pk hSign sig = ok () →
      ∃ a ∈ runs, a.config.staticPk = pk ∧ hSign ∈ a.signed

variable {a b : PartyRun P K}

theorem PartyRun.signed_spec {h} (hMem : h ∈ a.signed) :
    a.config.role = .initiator ∧ ∃ f : Flow, a.transcript = f.values ∧
      h = roll P.sm3 (startHash P K.name) [f.eI, f.eR, f.ctEe, f.encR, f.ctSe, f.ctSs] := by
  have hTold := a.told
  unfold signed at hMem
  unfold transcript
  generalize a.party = p, a.acts = acts at hTold hMem ⊢
  cases p with
  | connected =>
    obtain ⟨hRole, f, hValues, hSigned, -⟩ := hTold
    refine ⟨hRole, f, hValues, ?_⟩
    rw [hSigned h hMem, Flow.ss3_h, Party.ss0, SymmetricState.start_h]
  -- nothing is signed before message 3, or by a responder
  | fresh | idle =>
    obtain ⟨-, rfl, -⟩ := hTold
    cases hMem
  | offered | keyed | greeted | replied =>
    obtain ⟨-, f, rfl, -⟩ := hTold
    cases hMem
  | accepted r s =>
    obtain ⟨-, f, plain, rfl, -⟩ := hTold
    cases hMem

variable {r r' : Responder K.toKem} {msg : Bytes} {s : Session}

theorem PartyRun.replied_spec (h : b.party = .replied r) :
    b.config.role = .responder ∧ ∃ f : Flow, b.transcript = [f.eI, f.eR, f.ctEe, f.encR] ∧
      r.ss.h = roll P.sm3 (startHash P K.name) [f.eI, f.eR, f.ctEe, f.encR] := by
  have hTold := b.told
  rw [h] at hTold
  obtain ⟨hRole, f, hActs, hSs, -⟩ := hTold
  refine ⟨hRole, f, ?_, ?_⟩
  · rw [transcript, hActs]
    rfl
  · rw [hSs, SymmetricState.mixHash_h, Flow.ss2_h, Party.ss0, SymmetricState.start_h]
    rfl

theorem Responder.readMsg3WithAuth_spec {pk anchor}
    (h : r.readMsg3WithAuth P msg anchor = ok ((s, pk), r')) :
    ∃ sig hSign, r.readMsg3Inner P msg = ok ((s, pk ++ sig, hSign), r') ∧
      pk.length = K.publicKeyLen ∧ K.verify pk hSign sig = ok () ∧
      anchor .initiator pk = ok () := by
  simp only [readMsg3WithAuth] at h
  obtain ⟨⟨⟨s, plain, hSign⟩, r'⟩, hInner, h⟩ := bind_eq_ok.mp h
  dsimp only at h
  split at h
  · cases h
  · rename_i hLen
    obtain ⟨_, -, h⟩ := bind_eq_ok.mp h
    obtain ⟨_, hVerify, h⟩ := bind_eq_ok.mp h
    obtain ⟨_, hAnchor, h⟩ := bind_eq_ok.mp h
    cases h
    refine ⟨plain.drop K.publicKeyLen, hSign, ?_, ?_, hVerify, hAnchor⟩
    · rw [take_append_drop]
      exact hInner
    · rw [length_take]
      omega

theorem PartyRun.hSign_eq {plain hSign} (hParty : b.party = .replied r)
    (h : r.readMsg3Inner P msg = ok ((s, plain, hSign), r')) :
    hSign = roll P.sm3 (startHash P K.name) (b.transcript ++ msg3Values K.toKem msg) := by
  obtain ⟨m, hReads⟩ := readMsg3Inner_state h
  obtain ⟨-, f, hTranscript, hHash⟩ := replied_spec hParty
  rw [hReads.hSign, Msg3.mix_h, hHash, hTranscript, hReads.ctSe, hReads.ctSs, ← roll_append]
  rfl

theorem exists_initiator {honest : Bytes → Prop} {runs : List (PartyRun P K)} {pk : Bytes}
    {anchor : TrustAnchor} (hParty : b.party = .replied r)
    (h : r.readMsg3WithAuth P msg anchor = ok ((s, pk), r'))
    (hUnforged : Unforged honest runs r msg)
    (hFree : CollisionFree P.sm3 (b.hashedWith msg ++ runs.flatMap hashed))
    (hHonest : honest pk) :
    ∃ a ∈ runs, a.config.role = .initiator ∧ a.config.staticPk = pk ∧
      (∃ rSe rSs anchor', Op.writeMsg3 rSe rSs (some anchor') ∈ a.ops) ∧
      ∃ encI, a.transcript = b.transcript ++ msg3Values K.toKem msg ++ [encI] := by
  obtain ⟨sig, hSign, hInner, hLen, hVerify, -⟩ := readMsg3WithAuth_spec h
  obtain ⟨a, ha, hPk, hSigned⟩ := hUnforged s pk sig hSign r' hInner hLen hHonest hVerify
  obtain ⟨hRole, f, hValues, hHash⟩ := signed_spec hSigned
  refine ⟨a, ha, hRole, hPk, wrote_of_signed hSigned, f.encI, ?_⟩
  -- one hash, of six values at either end
  obtain ⟨-, g, hTranscript, -⟩ := replied_spec hParty
  have hSame : b.transcript ++ msg3Values K.toKem msg =
      [f.eI, f.eR, f.ctEe, f.encR, f.ctSe, f.ctSs] := by
    refine roll_inj ?_ (hFree.mono ?_) ((hSign_eq hParty hInner).symm.trans hHash)
    · rw [hTranscript]
      rfl
    · intro x hx
      rcases mem_append.mp hx with hx | hx
      · exact mem_append_left _ hx
      · refine mem_append_right _ (mem_flatMap.mpr ⟨a, ha, ?_⟩)
        refine rollInputs_mono _ ?_ hx
        rw [hValues]
        exact ⟨[f.encI], rfl⟩
  rw [hSame, hValues]
  rfl

/-- **Authentication of the initiator.** A responder accepts an honest key at the end of a message 3
in which no signature of such a key is forged (`Unforged`), and SM3 does not collide on what it and
the runs have hashed. Then its anchor trusts the key, and a run of an initiator under that key has
written a message 3 and has the responder's six values. A server that resumes a session has accepted
its client in this way, and the ticket names the client's key. -/
theorem initiator_authenticated (honest : Bytes → Prop) (runs : List (PartyRun P K)) :
    (∀ (b : PartyRun P K) (r r' : Responder K.toKem) (msg pk : Bytes) (anchor : TrustAnchor)
      (s : Session), b.party = .replied r →
      r.readMsg3WithAuth P msg anchor = ok ((s, pk), r') →
      Unforged honest runs r msg →
      CollisionFree P.sm3 (b.hashedWith msg ++ runs.flatMap hashed) →
      honest pk →
        anchor .initiator pk = ok () ∧
        ∃ a ∈ runs, a.config.role = .initiator ∧ a.config.staticPk = pk ∧
          (∃ rSe rSs anchor', Op.writeMsg3 rSe rSs (some anchor') ∈ a.ops) ∧
          ∃ eI eR ctEe encR encI, b.transcript = [eI, eR, ctEe, encR] ∧
            a.transcript = [eI, eR, ctEe, encR, msg.take K.ciphertextLen,
              (msg.drop K.ciphertextLen).take K.ciphertextLen, encI]) ∧
    (∀ (env : ServerEnv K.toKem) (stream : Stream) (sk : K.SecretKey) (pk : Bytes)
      (cfg : ServerConfig) (out : ServerOutcome),
      (serverAccept P env stream sk pk cfg).1 = ok out → out.resumed = true →
        (∃ (b : PartyRun P K) (r r' : Responder K.toKem) (msg : Bytes) (s : Session),
          b.party = .replied r ∧
          r.readMsg3WithAuth P msg cfg.anchor = ok ((s, out.channel.peerStatic), r')) ∧
        ∃ payload rest ticket, nextFrame stream.input = ok ((tMsg1Psk, payload), rest) ∧
          cfg.tickets.openTicket P env.ticketOpened (payload.take ticketLen) = ok ticket ∧
          sm3 P [out.channel.peerStatic] = ticket.clientPkFingerprint) := by
  constructor
  · intro b r r' msg pk anchor s hParty hRead hUnforged hFree hHonest
    obtain ⟨sig, hSign, -, -, -, hAnchor⟩ := readMsg3WithAuth_spec hRead
    obtain ⟨a, ha, hRole, hPk, hWrote, encI, hValues⟩ :=
      exists_initiator hParty hRead hUnforged hFree hHonest
    obtain ⟨-, f, hTranscript, -⟩ := replied_spec hParty
    refine ⟨hAnchor, a, ha, hRole, hPk, hWrote, f.eI, f.eR, f.ctEe, f.encR, encI, hTranscript, ?_⟩
    rw [hValues, hTranscript]
    rfl
  · intro env stream sk pk cfg out hAccept hResumed
    obtain ⟨w⟩ := serverAccept_resumed hAccept hResumed
    obtain ⟨rest, -, hFrame, -⟩ := w.frames
    exact ⟨⟨w.replied, w.r₂, w.r₃, w.m3, w.session, rfl, w.read3⟩,
      w.payload, rest, w.ticket, hFrame, w.opened, w.fingerprint⟩

end

/-! ## A resumption on concrete streams -/

def resumptionTicket : TicketPayload := ⟨padTo 32 [7], padTo 16 [1], 100, padTo 32 [1]⟩

def ticketBytes : Bytes := replicate 12 0 ++ resumptionTicket.plain ++ replicate 16 0

/-- What the server of the resumption gets: the ticket, the client's ephemeral
key 3 and what is behind it, then message 3. -/
def resumptionInput (encEarly : Bytes) : Stream where
  input := [(writeFrame (writeFrame ⟨[], []⟩ tMsg1Psk (ticketBytes ++ [3] ++ encEarly)) tMsg3
    ([6, 8, 1, 1] ++ replicate 16 0)).output]
  output := []

def resumptionConfig : ServerConfig :=
  ⟨⟨padTo 32 [], 60⟩, ⟨padTo 16 []⟩, TicketCache.new, allowAllAnchor, [], 60⟩

def resumptionEnv : ServerEnv plainAuth.toKem :=
  ⟨(4 : UInt8), (5 : UInt8), padTo 32 [8], padTo 16 [2], padTo 12 [], 0, 0, 50, 50, 50, false⟩

def resumingClient : PartyRun labelPrimitives plainAuth :=
  .ofOps clientConfig
    [.writeMsg1 (3 : UInt8), .sealEarlyData [9], .readMsg2 ([4, 5, 2] ++ replicate 16 0),
      .writeMsg3 (6 : UInt8) (8 : UInt8) (some allowAllAnchor)] (by decide +kernel)

/-- The server has the client's six values, and the ticket it opens is for the
client's key. -/
theorem initiator_authenticated_resumption :
    (∃ a ∈ [resumingClient], a.config.staticPk = [1] ∧ ∃ encI, a.transcript =
      [[3], [4], [5], [2] ++ replicate 16 0, [6], [8], encI]) ∧
    ∃ out payload rest ticket,
      (serverAccept labelPrimitives resumptionEnv (resumptionInput []) (2 : UInt8) [2]
        resumptionConfig).1 = ok out ∧ out.resumed = true ∧
      nextFrame (resumptionInput []).input = ok ((tMsg1Psk, payload), rest) ∧
      resumptionConfig.tickets.openTicket labelPrimitives resumptionEnv.ticketOpened
        (payload.take ticketLen) = ok ticket ∧
      sm3 labelPrimitives [out.channel.peerStatic] = ticket.clientPkFingerprint := by
  obtain ⟨hFirst, hSecond⟩ := initiator_authenticated (· = [1]) [resumingClient]
  constructor
  · obtain ⟨r₁, m2, r₂, s, r₃, hRead1, hWrite2, hRead3⟩ : ∃ r₁ m2 r₂ s r₃,
        (create labelPrimitives (2 : UInt8) [2] (some (padTo 32 [7])) :
          Responder plainAuth.toKem).readMsg1 labelPrimitives [3] = ok r₁ ∧
        r₁.writeMsg2 labelPrimitives (4 : UInt8) (5 : UInt8) = ok (m2, r₂) ∧
        readMsg3WithAuth (K := plainAuth) labelPrimitives r₂
          ([6, 8, 1, 1] ++ replicate 16 0) allowAllAnchor = ok ((s, [1]), r₃) :=
      ⟨_, _, _, _, _, rfl, rfl, rfl⟩
    -- the server's run up to message 2
    let b : PartyRun labelPrimitives plainAuth :=
      { config := serverConfig
        ops := [.readMsg1 [3], .writeMsg2 (4 : UInt8) (5 : UInt8)]
        party := .replied r₂
        reached := (exec_cons trivial (Party.step_readMsg1 hRead1)).trans
          (exec_cons trivial (Party.step_writeMsg2 hWrite2)) }
    have hTranscript : b.transcript = [[3], [4], [5], [2] ++ replicate 16 0] := by
      show (observe (Party.step labelPrimitives serverConfig) (Party.acts labelPrimitives)
        (Party.start labelPrimitives serverConfig)
        [.readMsg1 [3], .writeMsg2 (4 : UInt8) (5 : UInt8)]).filterMap Act.value = _
      decide +kernel
    have hUnforged : Unforged (· = [1]) [resumingClient] r₂
        ([6, 8, 1, 1] ++ replicate 16 0) := by
      intro s pk sig hSign r' hInner _ hPk _
      refine ⟨resumingClient, mem_singleton_self _, hPk.symm, ?_⟩
      rw [hSign_eq (b := b) rfl hInner, hTranscript]
      decide +kernel
    have hFree : CollisionFree labelPrimitives.sm3
        (b.hashedWith ([6, 8, 1, 1] ++ replicate 16 0) ++
          [resumingClient].flatMap hashed) := by
      rw [hashedWith, hTranscript]
      decide +kernel
    obtain ⟨-, a, ha, -, hPk, -, eI, eR, ctEe, encR, encI, hB, hA⟩ :=
      hFirst b r₂ r₃ _ [1] allowAllAnchor s rfl hRead3 hUnforged hFree rfl
    rw [hTranscript] at hB
    cases hB
    exact ⟨a, ha, hPk, encI, hA⟩
  · have hRun : (serverAccept labelPrimitives resumptionEnv (resumptionInput []) (2 : UInt8) [2]
        resumptionConfig).1.toOption.any (·.resumed) = true := by
      decide +kernel
    obtain ⟨out, hOut, hResumed⟩ := (Option.any_eq_true _ _).mp hRun
    have hAccept := toOption_eq_some.mp hOut
    obtain ⟨-, payload, rest, ticket, hRest⟩ :=
      hSecond resumptionEnv _ (2 : UInt8) [2] resumptionConfig out hAccept hResumed
    exact ⟨out, payload, rest, ticket, hAccept, hResumed, hRest⟩

end DirectWire.GmPq
