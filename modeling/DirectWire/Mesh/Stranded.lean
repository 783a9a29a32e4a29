import DirectWire.Mesh.Timed

/-!
# Mesh — messages that wait for a session

A message for a peer without a session is stranded when no handshake and no timer that would get
it out is under way. Four kinds of steps strand one (`Strands`), each told from the event and the
state it comes to:

* the peer has started a GM-PQ handshake, and then the application sends: no timer runs;
* the key of MSG1 cannot be made: the node gives up on GM-PQ and starts nothing;
* a GM-PQ control frame that is out of turn, or not good, ends the handshake messages wait for;
* a RESP that is not good does.

`not_stranded`: in a run without such steps no message is stranded. `exists_stranded`: MSG1 of a
client that then stays silent, and a message.
-/

namespace DirectWire.Mesh

open Lib Outcome PeerCore

variable {A : Algorithms}

/-- The messages for a peer wait, and nothing under way will send them. `T` says
which timers are scheduled. -/
def PeerCore.Stranded (T : UInt64 → Prop) (q : PeerCore A) : Prop :=
  q.pending ≠ [] ∧ q.session = none ∧ q.phase ≠ .ready ∧ q.hs = none ∧
    ¬ (q.phase ≠ .idle ∧ T q.gmGen)

instance decidableStranded (T : UInt64 → Prop) [DecidablePred T] (q : PeerCore A) :
    Decidable (q.Stranded T) :=
  inferInstanceAs (Decidable (_ ∧ _ ∧ _ ∧ _ ∧ ¬ (_ ∧ _)))

/-- The steps that strand a message, by the event and what it finds. -/
inductive PeerStrands (c : NodeSetup A) (T : UInt64 → Prop) (X : NodeId) :
    HostEvent A → PeerCore A → Prop where
  /-- The application sends while a GM-PQ handshake without a timer is under way. -/
  | untimed {env written payload q} (hTries : c.TriesGm q) (hSession : q.session = none)
      (hHs : q.hs = none) (hGm : q.phase ≠ .idle ∧ q.phase ≠ .ready) (hTimer : ¬ T q.gmGen) :
      PeerStrands c T X (.sendTo env written X payload) q
  /-- The application sends, and MSG1 cannot be made. -/
  | offer {env written payload q gm e} (hTries : c.TriesGm q) (hSession : q.session = none)
      (hHs : q.hs = none) (hGm : q.phase = .idle) (hRole : NodeId.lt c.nodeId X)
      (hId : c.gmId = some gm)
      (hOffer : (GmPq.Initiator.new A.gm gm.sk gm.pk : GmPq.Initiator A.kem.toKem).writeMsg1
        A.gm env.rand₁ = err e) : PeerStrands c T X (.sendTo env written X payload) q
  /-- Messages wait for a GM-PQ handshake, and a control frame comes that it does not wait for, or
  that does not pass its checks. -/
  | endsGm {env kind body q} (hOn : c.GmOn) (hPending : q.pending ≠ []) (hHs : q.hs = none)
      (hGm : q.phase ≠ .idle) (hKind : kind ∈ Actor.controlKinds)
      (hWhy : ¬ Actor.Awaits kind q.gm ∨ GmRejects c env X body q) :
      PeerStrands c T X (.relayData env X ([gmTag, kind] ++ body)) q
  /-- Messages wait for an X25519 handshake, and a RESP comes that `hs_finish` rejects. -/
  | endsHs {env payload q hs e} (hTag : payload.head? = some hsTag)
      (hKind : payload[1]? = some hsKindResp) (hPending : q.pending ≠ [])
      (hSession : q.session = none) (hHs : q.hs = some hs)
      (hReject : hsFinish A c.identity hs payload = err e)
      (hTimer : ¬ (q.phase ≠ .idle ∧ T q.gmGen)) : PeerStrands c T X (.relayData env X payload) q

/-! ## The machine of a peer -/

/-- Messages do not wait when there is a session, and those that wait are
waiting for the end of a handshake. -/
structure Attended (T : UInt64 → Prop) (q : PeerCore A) : Prop where
  carried : q.session ≠ none ∨ q.phase = .ready → q.pending = []
  awaited : q.pending ≠ [] → q.hs ≠ none ∨ (q.phase ≠ .idle ∧ T q.gmGen)

namespace Attended

variable {T T' : UInt64 → Prop} {c : NodeSetup A} {env : Env A} {X : NodeId} {e : HostEvent A}
  {q q' : PeerCore A} {out : List Effect}

theorem of_empty (h : q.pending = []) : Attended T q :=
  ⟨fun _ => h, fun hPending => (hPending h).elim⟩

theorem alike (h : Attended T q) (hAlike : PeerCore.Alike q q') (hKeep : T q.gmGen → T' q.gmGen) :
    Attended T' q' := by
  constructor
  · intro hCarried
    rw [hAlike.phase, ne_eq, hAlike.session_eq_none] at hCarried
    rw [hAlike.pending]
    exact h.carried hCarried
  · intro hPending
    rw [hAlike.pending] at hPending
    rw [hAlike.hs, hAlike.phase, hAlike.gmGen]
    exact (h.awaited hPending).imp id (And.imp id hKeep)

theorem hs_ne_none (h : Attended T q) (hGm : q.phase = .idle) (hPending : q.pending ≠ []) :
    q.hs ≠ none :=
  (h.awaited hPending).resolve_right fun hTimed => hTimed.1 hGm

theorem setGm {g : GmState A} (h : Attended T q) (hReady : GmState.phase (some g) ≠ .ready)
    (hIdle : GmState.phase (some g) ≠ .idle) (hKeep : T q.gmGen → T' q.gmGen) :
    Attended T' { q with gm := some g } := by
  constructor
  · rintro (hSession | hPhase)
    · exact h.carried (.inl hSession)
    · exact (hReady hPhase).elim
  · intro hPending
    exact (h.awaited hPending).imp id fun hTimed => ⟨hIdle, hKeep hTimed.2⟩

theorem starts (hStarts : GmStarts c env X q q' out)
    (hNew : ∀ gen, .gmTimer X gen ∈ out → T' gen) (hCarried : q.session ≠ none → q.pending = [])
    (hHs : q.pending ≠ [] → q.hs ≠ none ∨ ∀ gm e, c.gmId = some gm → NodeId.lt c.nodeId X →
      (GmPq.Initiator.new A.gm gm.sk gm.pk : GmPq.Initiator A.kem.toKem).writeMsg1
        A.gm env.rand₁ ≠ err e)
    (hReady : q.phase ≠ .ready) : Attended T' q' := by
  cases hStarts with
  | offer hId hRole hOffer hGen | kick hRole hGen =>
    refine ⟨fun h => h.elim hCarried fun hPhase => ?_, fun _ => .inr ⟨?_, hNew _ (by simp)⟩⟩
    · cases hPhase
    · exact GmPhase.noConfusion
  | fail hId hRole hOffer =>
    -- nothing was started, so the messages must have been waiting for X25519
    refine ⟨fun h => h.elim hCarried fun hPhase => (hReady hPhase).elim, fun hPending => ?_⟩
    exact .inl ((hHs hPending).resolve_right fun hMade => hMade _ _ hId hRole hOffer)

theorem flushed {inners} (hFlush : Flushes c env X inners q q' out) (hCarries : c.Carries q)
    (hEmpty : q.pending = []) : Attended T' q' :=
  of_empty ((hFlush.alike hCarries).pending.trans hEmpty)

section Steps

variable (hBuild : c.build.gmPq = true)
include hBuild

section

variable (h : Attended T q)

include h

theorem sends {written payload} (hSends : Sends c env X ([innerData] ++ payload) q q' out)
    (hKeep : ∀ gen, T gen → T' gen) (hNew : ∀ gen, .gmTimer X gen ∈ out → T' gen)
    (hNot : ¬ PeerStrands c T X (.sendTo env written X payload) q) : Attended T' q' := by
  by_cases hCarries : c.Carries q
  · exact h.alike (hSends.alike hCarries) (hKeep _)
  have hSession : q.session = none := by
    by_contra hSession
    exact hCarries (.inl hSession)
  have hReady : q.phase ≠ .ready := fun hPhase =>
    hCarries (.inr (NodeSetup.usesGm_iff.mpr ⟨hBuild, hPhase⟩))
  -- without a session the message is queued
  have hQueues : Queues c env X ([innerData] ++ payload) q q' out := by
    cases hSends with
    | gm _ hState => exact (hReady (phase_of_gm hState)).elim
    | sealed _ hSome _ | lost _ hSome => exact (by rw [hSession] at hSome; cases hSome)
    | queued _ _ hQueues => exact hQueues
  have hVacuous : ∀ {q₁ : PeerCore A}, q₁.session = q.session → q₁.phase = q.phase →
      (q₁.session ≠ none ∨ q₁.phase = .ready) → q₁.pending = [] := by
    intro q₁ hSame hPhase hCarried
    rw [hSame, hPhase] at hCarried
    exact hCarried.elim (fun hSome => (hSome hSession).elim) fun hR => (hReady hR).elim
  cases hQueues with
  | gm hTries hNone hStarts =>
    refine starts hStarts hNew (fun hSome => (hSome hSession).elim) (fun _ => ?_) hReady
    by_cases hHs : q.hs = none
    · right
      intro gm err hId hRole hOffer
      exact hNot (.offer hTries hSession hHs (phase_eq_idle.mpr hNone) hRole hId hOffer)
    · exact .inl hHs
  | gmWaits hTries hSome =>
    refine ⟨hVacuous rfl rfl, fun _ => ?_⟩
    by_cases hHs : q.hs = none
    · -- a timer runs, or this step is one of those excluded
      right
      have hIdle : q.phase ≠ .idle := fun hPhase => by
        rw [phase_eq_idle.mp hPhase] at hSome
        cases hSome
      by_contra hTimer
      refine hNot (.untimed hTries hSession hHs ⟨hIdle, hReady⟩ fun hT => ?_)
      exact hTimer ⟨hIdle, hKeep _ hT⟩
    · exact .inl hHs
  | hs => exact ⟨hVacuous rfl rfl, fun _ => .inl (Option.some_ne_none _)⟩
  | hsWaits hTries hSome =>
    exact ⟨hVacuous rfl rfl, fun _ => .inl (Option.isSome_iff_ne_none.mp hSome)⟩

theorem gmFrame {kind body} (hFrame : GmFrame c env X kind body q q' out)
    (hKeep : ∀ gen, T gen → T' gen) (hNew : ∀ gen, .gmTimer X gen ∈ out → T' gen)
    (hNot : ¬ PeerStrands c T X (.relayData env X ([gmTag, kind] ++ body)) q) :
    Attended T' q' := by
  cases hFrame with
  | ignore => exact h.alike (.refl q) (hKeep _)
  | start hOn hKind hNone hOk hStarts =>
    -- a KICK that a client answers with MSG1
    have hIdle := phase_eq_idle.mpr hNone
    refine starts hStarts hNew (fun hSome => h.carried (.inl hSome)) ?_ (by rw [hIdle]; simp)
    exact fun hPending => .inl (h.hs_ne_none hIdle hPending)
  | serve | cookie | retry | respond | finishClient | finishServer | unbound =>
    exact h.setGm (by simp [GmState.phase]) (by simp [GmState.phase]) (hKeep _)
  | drop hOn hKind hWhy =>
    -- harmless while an X25519 handshake is under way too
    refine ⟨fun hCarried => ?_, fun hPending => ?_⟩
    · exact hCarried.elim (fun hSome => h.carried (.inl hSome)) GmPhase.noConfusion
    · by_contra hNothing
      have hHs : q.hs = none := by
        by_contra hHs
        exact hNothing (.inl hHs)
      have hIdle : q.phase ≠ .idle := fun hIdle => h.hs_ne_none hIdle hPending hHs
      exact hNot (.endsGm hOn hPending hHs hIdle hKind hWhy)
  | bound hOn hKind hState hRecv hBind hFlush =>
    exact flushed hFlush (NodeSetup.carries_of_ready hBuild rfl) rfl
  | undecryptable hOn hKind hState =>
    exact of_empty (h.carried (.inr (phase_of_gm hState)))
  | data hOn hKind hState hRecv hHands =>
    have hAlike := hHands.alike (NodeSetup.carries_of_ready hBuild rfl)
    exact of_empty (hAlike.pending.trans (h.carried (.inr (phase_of_gm hState))))

omit hBuild in
theorem hsFrame {payload} (hTag : payload.head? = some hsTag)
    (hFrame : HsFrame c env X payload q q' out) (hKeep : ∀ gen, T gen → T' gen)
    (hNot : ¬ PeerStrands c T X (.relayData env X payload) q) : Attended T' q' := by
  cases hFrame with
  | ignoreInit | rejectInit | ignoreResp | unknown => exact h.alike (.refl q) (hKeep _)
  | accept hKind hSession hTurn hAccept hFlush | finish hKind hSession hHs hFinish hFlush =>
    exact flushed hFlush (.inl (by simp)) rfl
  | rejectResp hKind hSession hHs hReject =>
    refine ⟨h.carried, fun hPending => .inr ?_⟩
    by_contra hTimer
    refine hNot (.endsHs hTag hKind hPending hSession hHs hReject fun hTimed => ?_)
    exact hTimer ⟨hTimed.1, hKeep _ hTimed.2⟩

omit hBuild in
theorem checks {gen} (hChecks : Checks c env X gen q q' out) (hKeep : ∀ g, T g → g ≠ gen → T' g) :
    Attended T' q' := by
  cases hChecks with
  | stale hWhy =>
    rcases hWhy with hGen | hReady | hNone
    · exact h.alike (.refl q) fun hT => hKeep _ hT hGen
    · exact of_empty (h.carried (.inr (isReady_iff.mp hReady)))
    · refine ⟨h.carried, fun hPending => .inl ?_⟩
      exact h.hs_ne_none (phase_eq_idle.mpr hNone) hPending
  | falls hGen hReady hSome hNoNeed =>
    -- messages that wait without an X25519 handshake would have been the need for one
    refine ⟨fun hCarried => ?_, fun hPending => .inl fun hHs => ?_⟩
    · exact hCarried.elim (fun hSession => h.carried (.inl hSession)) GmPhase.noConfusion
    · refine hNoNeed ⟨hPending, hHs, ?_⟩
      by_contra hSession
      exact hPending (h.carried (.inl hSession))
  | restarts =>
    refine ⟨fun hCarried => ?_, fun _ => .inl (Option.some_ne_none _)⟩
    exact hCarried.elim (fun hSession => h.carried (.inl hSession)) GmPhase.noConfusion

theorem step {direct} (hStep : PeerStep c X direct e q q' out)
    (hKeep : ∀ gen, T gen → (X, gen) ∉ e.timer → T' gen)
    (hNew : ∀ gen, .gmTimer X gen ∈ out → T' gen) (hNot : ¬ PeerStrands c T X e q) :
    Attended T' q' := by
  cases hStep with
  | idle hPasses =>
    -- an event about another peer does not use up a timer of this one
    refine h.alike (.refl q) fun hT => hKeep _ hT fun hTimer => ?_
    cases e with
    | gmCheck env peer gen =>
      cases List.mem_singleton.mp hTimer
      exact hPasses rfl
    | _ => cases hTimer
  | send hSends =>
    exact h.sends hBuild hSends (fun g hT => hKeep g hT (by simp [HostEvent.timer])) hNew hNot
  | ping hHas hSends =>
    refine h.alike (hSends.alike (hHas.imp Option.isSome_iff_ne_none.mp id)) fun hT => ?_
    exact hKeep _ hT (by simp [HostEvent.timer])
  | receive hReceives =>
    have hKeeps : ∀ gen, T gen → T' gen := fun g hT => hKeep g hT (by simp [HostEvent.timer])
    cases hReceives with
    | gm _ hPayload hFrame =>
      subst hPayload
      exact h.gmFrame hBuild hFrame hKeeps hNew hNot
    | hs hTag hFrame => exact h.hsFrame hTag hFrame hKeeps hNot
    | cipher hGm hHs hFrame => exact h.alike hFrame.alike (hKeeps _)
  | check hChecks =>
    refine h.checks hChecks fun g hT hNe => hKeep g hT ?_
    simpa [HostEvent.timer] using hNe

end

end Steps

end Attended

/-! ## Runs of a node -/

namespace Timed

variable {s s' s₀ : Timed A} {e : HostEvent A}

def Strands (s : Timed A) (e : HostEvent A) : Prop :=
  ∃ X, PeerStrands s.setup (s.Scheduled X) X e (s.core X)

structure Inv (s : Timed A) : Prop where
  build : s.setup.build.gmPq = true
  counted : s.Counted
  attended : ∀ X, Attended (s.Scheduled X) (s.core X)

theorem Start.inv (h : s.Start) (hBuild : s.setup.build.gmPq = true) : s.Inv where
  build := hBuild
  counted X gen := by
    rw [h.handled]
    exact Nat.zero_le _
  attended X := by
    rw [h.core_eq]
    exact ⟨fun _ => rfl, fun h => (h rfl).elim⟩

theorem Inv.step (h : s.Inv) (hNot : ¬ s.Strands e) (hStep : s.step e = some s') : s'.Inv := by
  obtain ⟨hSetup, hPeers⟩ := step_refines hStep
  refine ⟨by rw [hSetup]; exact h.build, step_counted hStep h.counted, fun X => ?_⟩
  obtain ⟨out, hPeer, hEffects⟩ := hPeers X
  refine (h.attended X).step h.build hPeer ?_ ?_ ?_
  · intro gen hWas hOther
    exact step_keeps hStep hWas hOther
  · intro gen hOut
    exact step_schedules hStep h.counted hEffects hOut
  · intro hStrands
    exact hNot ⟨X, hStrands⟩

/-- **No message is stranded.** A node built with GM-PQ starts without peers and timers and takes
any events, as long as none of them is one that `Strands` names for the state it comes to. Then in
every state reached, messages that wait for a peer without a session wait for an X25519 handshake,
or for a GM-PQ handshake with a scheduled timer of its own generation, which falls back to one. -/
theorem not_stranded (hStart : s₀.Start) (hBuild : s₀.setup.build.gmPq = true)
    (hRun : Run step (fun s e => ¬ s.Strands e) s₀ s) (X : NodeId) :
    ¬ (s.core X).Stranded (s.Scheduled X) := by
  have hInv : s.Inv := hRun.invariant (hStart.inv hBuild) fun s s' e hInv hOk hStep =>
    hInv.step hOk hStep
  rintro ⟨hPending, -, -, hHs, hGm⟩
  exact ((hInv.attended X).awaited hPending).elim (· hHs) hGm

def plainTimed (sk : UInt8) : Timed plainAlgorithms := ⟨.start (plainNode sk) second, []⟩

theorem plainTimed_start (sk : UInt8) : (plainTimed sk).Start := ⟨rfl, rfl⟩

def plainSendTo : HostEvent plainAlgorithms := .sendTo plainEnv (.ok ()) plainId [9]

/-- The client starts a handshake for its first message, and with it the timer. -/
theorem not_stranded_plain : ∃ s : Timed plainAlgorithms, (s.core plainId).pending ≠ [] ∧
    ¬ (s.core plainId).Stranded (s.Scheduled plainId) := by
  obtain ⟨s, hStep, hPending⟩ := (Option.any_eq_true
    (fun s : Timed plainAlgorithms => decide ((s.core plainId).pending ≠ []))
    ((plainTimed 1).step plainSendTo)).mp (by decide +kernel)
  refine ⟨s, of_decide_eq_true hPending,
    not_stranded (plainTimed_start 1) rfl (.step .start ?_ hStep) plainId⟩
  rintro ⟨X, hStrands⟩
  cases hStrands with
  | untimed _ _ _ hGm => exact hGm.1 (by rw [(plainTimed_start 1).core_eq]; rfl)
  | offer _ _ _ _ _ hId hOffer =>
    cases hId
    cases hOffer

/-- MSG1 of a client opens a handshake at the server, without a timer. -/
theorem exists_stranded : ∃ (s₀ s : Timed plainAlgorithms) (X : NodeId), s₀.Start ∧
    s₀.setup.build.gmPq = true ∧ Run step Always s₀ s ∧ (s.core X).Stranded (s.Scheduled X) := by
  obtain ⟨s, hRun, hStranded⟩ := exists_run_of_exec step Always (plainTimed 3)
    [.relayData plainEnv plainId [gmTag, gmMsg1, 5], plainSendTo]
    (fun s => decide ((s.core plainId).Stranded (s.Scheduled plainId))) (by decide +kernel)
  exact ⟨_, s, plainId, plainTimed_start 3, rfl, hRun, of_decide_eq_true hStranded⟩

end Timed

end DirectWire.Mesh
