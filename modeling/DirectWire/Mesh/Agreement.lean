import DirectWire.Mesh.Relayed

/-!
# Mesh — two X25519 nodes agree on a session

Two nodes without GM-PQ over a relay that keeps order. Either may start a handshake, and both may
do so at once: the larger id then drops its own. `Stage` says where the two stand, with what is on
the way; every step keeps it, also a restart of a node that the other has no session with and
hears nothing more from.
-/

namespace DirectWire.Mesh

open Lib Outcome Function Side

variable {A : Algorithms}

/-! ## A node without GM-PQ -/

def NodeSetup.X25519Only (c : NodeSetup A) : Prop := c.build.gmPq = false ∨ c.gmpq = false

section Machine

variable {c : NodeSetup A} {env : Env A} {X : NodeId} {e : HostEvent A} {q q' : PeerCore A}
  {direct : Bool} {out : List Effect}

section

variable (hOnly : c.X25519Only)

include hOnly

theorem NodeSetup.X25519Only.not_triesGm : ¬ c.TriesGm q := by
  rintro ⟨hBuild, hConfig, -, -⟩
  rcases hOnly with h | h
  · rw [h] at hBuild
    cases hBuild
  · rw [h] at hConfig
    cases hConfig

theorem NodeSetup.X25519Only.not_gmOn (hBuild : c.build.gmPq = true) : ¬ c.GmOn := by
  rintro ⟨hConfig, -⟩
  rcases hOnly with h | h
  · rw [h] at hBuild
    cases hBuild
  · rw [h] at hConfig
    cases hConfig

theorem NodeSetup.X25519Only.gmFrame {kind body} (hBuild : c.build.gmPq = true)
    (hFrame : GmFrame c env X kind body q q' out) : q' = q ∧ out = [] := by
  have hOff := hOnly.not_gmOn hBuild
  cases hFrame with
  | ignore => exact ⟨rfl, rfl⟩
  | start hOn | serve hOn | cookie hOn | retry hOn | respond hOn | finishClient hOn
  | finishServer hOn | drop hOn | unbound hOn | bound hOn | undecryptable hOn | data hOn =>
    exact (hOff hOn).elim

theorem Sends.gm_eq_none {inner} (h : Sends c env X inner q q' out) (hGm : q.gm = none) :
    q'.gm = none := by
  cases h with
  | gm hBuild hReady hSend => exact (by rw [hGm] at hReady; cases hReady)
  | sealed | lost => exact hGm
  | queued hNot hSession hQueues =>
    cases hQueues with
    | gm hTries | gmWaits hTries => exact (hOnly.not_triesGm hTries).elim
    | hs | hsWaits => exact hGm

theorem PeerStep.gm_eq_none (hStep : PeerStep c X direct e q q' out) (hGm : q.gm = none) :
    q'.gm = none := by
  cases hStep with
  | idle => exact hGm
  | send hSends | ping hHas hSends => exact hSends.gm_eq_none hOnly hGm
  | receive hReceives =>
    cases hReceives with
    | gm hBuild hPayload hFrame =>
      rw [(hOnly.gmFrame hBuild hFrame).1]
      exact hGm
    | hs hTag hFrame =>
      -- only a new session is flushed; the other cases leave the peer as it is
      cases hFrame with
      | accept hKind hNone hTurn hAccept hFlush | finish hKind hNone hHs hFinish hFlush =>
        exact (hFlush.alike (.inl (by simp))).gm_eq_none.mpr hGm
      | _ => exact hGm
    | cipher hTag hHs hFrame => exact hFrame.alike.gm_eq_none.mpr hGm
  | check hChecks =>
    cases hChecks with
    | stale => exact hGm
    | falls | restarts => rfl

theorem PeerStep.alike_of_session (hStep : PeerStep c X direct e q q' out) (hGm : q.gm = none)
    (hSession : q.session ≠ none) : PeerCore.Alike q q' := by
  cases hStep with
  | idle => exact .refl q
  | send hSends | ping hHas hSends => exact hSends.alike (.inl hSession)
  | receive hReceives =>
    cases hReceives with
    | gm hBuild hPayload hFrame =>
      rw [(hOnly.gmFrame hBuild hFrame).1]
      exact .refl q
    | hs hTag hFrame =>
      cases hFrame with
      | ignoreInit | rejectInit | ignoreResp | unknown => exact .refl q
      | accept hKind hNone | rejectResp hKind hNone | finish hKind hNone =>
        exact (hSession hNone).elim
    | cipher hTag hHs hFrame => exact hFrame.alike
  | check hChecks =>
    cases hChecks with
    | stale => exact .refl q
    | falls hGen hReady hSome | restarts hGen hReady hSome => exact (hSome hGm).elim

theorem PeerStep.local_cases (hStep : PeerStep c X direct e q q' out) (hLocal : e.isFrom X = false)
    (hGm : q.gm = none) (hSession : q.session = none) :
    (q' = q ∧ out = []) ∨ (∃ inner, q.hs ≠ none ∧ q' = q.queue inner ∧ out = []) ∨
      ∃ inner eph, q.hs = none ∧ q' = { q.queue inner with hs := some ⟨eph, X⟩ } ∧
        out = [.send X (hsStart A c.identity X eph).2] := by
  have hNotReady : ¬ c.UsesGm q := by
    rw [NodeSetup.usesGm_iff, PeerCore.phase_eq_idle.mpr hGm]
    simp
  cases hStep with
  | idle => exact .inl ⟨rfl, rfl⟩
  | send hSends =>
    cases hSends with
    | gm hBuild hReady hSend => exact (by rw [hGm] at hReady; cases hReady)
    | sealed hNot hSome hSeal => exact (by rw [hSession] at hSome; cases hSome)
    | lost => exact .inl ⟨rfl, rfl⟩
    | queued hNot hNone hQueues =>
      cases hQueues with
      | gm hTries | gmWaits hTries => exact (hOnly.not_triesGm hTries).elim
      | hs hTries hNone => exact .inr (.inr ⟨_, _, hNone, rfl, rfl⟩)
      | hsWaits hTries hSome =>
        exact .inr (.inl ⟨_, Option.isSome_iff_ne_none.mp hSome, rfl, rfl⟩)
  | ping hHas hSends =>
    rcases hHas with hSome | hReady
    · rw [hSession] at hSome
      cases hSome
    · exact (hNotReady hReady).elim
  | receive => exact (by simp [HostEvent.isFrom] at hLocal)
  | check hChecks =>
    cases hChecks with
    | stale => exact .inl ⟨rfl, rfl⟩
    | falls hGen hReady hSome | restarts hGen hReady hSome => exact (hSome hGm).elim

end

variable {eph : Fixed 32} {you : NodeIdentity} {cipher : SessionCipher}

theorem PeerStep.hsFrame {kind label peer}
    (hStep : PeerStep c X direct (.relayData env X (hsMsg A kind label you peer eph)) q q' out) :
    HsFrame c env X (hsMsg A kind label you peer eph) q q' out := by
  have hHead : (hsMsg A kind label you peer eph).head? = some hsTag := rfl
  cases hStep with
  | idle hOther => exact (hOther rfl).elim
  | receive hReceives =>
    cases hReceives with
    | gm hBuild hPayload =>
      rw [hPayload] at hHead
      exact absurd (Option.some.inj hHead : gmTag = hsTag) (by decide)
    | hs hTag hFrame => exact hFrame
    | cipher hTag hHs => exact (hHs hHead).elim

def PeerCore.Derived (q : PeerCore A) (cipher : SessionCipher) : Prop :=
  q.keys = some (cipher.send, cipher.recv)

theorem PeerCore.Derived.session_ne_none (h : q.Derived cipher) : q.session ≠ none := by
  intro hNone
  rw [Derived, PeerCore.keys_eq_none.mpr hNone] at h
  cases h

theorem PeerStep.init_cases (hSigs : A.SignaturesVerify) (hX : X = you.nodeId A)
    (hStep : PeerStep c X direct (.relayData env X (hsStart A you c.nodeId eph).2) q q' out)
    (hSession : q.session = none) :
    (q.hs ≠ none ∧ NodeId.lt c.nodeId X ∧ q' = q ∧ out = []) ∨
      (¬ (q.hs ≠ none ∧ NodeId.lt c.nodeId X) ∧
        q'.Derived (derive A (A.x25519 env.eph (A.x25519Public eph)) X c.nodeId .responder) ∧
        ∃ rest, frames out = hsMsg A hsKindResp hsRespLabel c.identity X env.eph :: rest) := by
  have hFrame : HsFrame c env X (hsStart A you c.nodeId eph).2 q q' out := hStep.hsFrame
  have hAccept : hsAccept A c.identity X (hsStart A you c.nodeId eph).2 env.eph =
      ok (derive A (A.x25519 env.eph (A.x25519Public eph)) X c.nodeId .responder,
        hsMsg A hsKindResp hsRespLabel c.identity X env.eph) := by
    rw [hX, hsAccept, hsStart, parseHsMsg_hsMsg, ok_bind]
    exact if_neg (not_not.mpr (hSigs _ _))
  have hNotResp : (hsStart A you c.nodeId eph).2[1]? ≠ some hsKindResp := by
    show some hsKindInit ≠ some hsKindResp
    decide
  cases hFrame with
  | ignoreInit hKind hWhy =>
    rcases hWhy with hSome | ⟨hHs, hLt⟩
    · rw [hSession] at hSome
      cases hSome
    · exact .inl ⟨Option.isSome_iff_ne_none.mp hHs, hLt, rfl, rfl⟩
  | rejectInit hKind hReject =>
    rw [hAccept] at hReject
    cases hReject
  | accept hKind hNone hTurn hAccepted hFlush =>
    rw [hAccept] at hAccepted
    cases hAccepted
    refine .inr ⟨fun hBoth => hTurn ⟨Option.isSome_iff_ne_none.mpr hBoth.1, hBoth.2⟩, ?_, _, rfl⟩
    exact (hFlush.alike (.inl (by simp))).keys
  | ignoreResp hKind | rejectResp hKind | finish hKind => exact (hNotResp hKind).elim
  | unknown hInit => exact (hInit rfl).elim

theorem PeerStep.resp_finishes (hSigs : A.SignaturesVerify) {e f} (hX : X = you.nodeId A)
    (hStep : PeerStep c X direct (.relayData env X (hsMsg A hsKindResp hsRespLabel you c.nodeId f))
      q q' out) (hSession : q.session = none) (hHs : q.hs = some ⟨e, X⟩) :
    q'.Derived (derive A (A.x25519 e (A.x25519Public f)) c.nodeId X .initiator) := by
  have hFinish : hsFinish A c.identity ⟨e, X⟩ (hsMsg A hsKindResp hsRespLabel you c.nodeId f) =
      ok (derive A (A.x25519 e (A.x25519Public f)) c.nodeId X .initiator) := by
    rw [hX, hsFinish, parseHsMsg_hsMsg, ok_bind]
    exact if_neg (not_not.mpr (hSigs _ _))
  have hNotInit : (hsMsg A hsKindResp hsRespLabel you c.nodeId f)[1]? ≠ some hsKindInit := by
    show some hsKindResp ≠ some hsKindInit
    decide
  cases hStep.hsFrame with
  | ignoreInit hKind | rejectInit hKind | accept hKind => exact (hNotInit hKind).elim
  | ignoreResp hKind hWhy =>
    rcases hWhy with hSome | hNone
    · rw [hSession] at hSome
      cases hSome
    · rw [hHs] at hNone
      cases hNone
  | rejectResp hKind hNone hState hReject =>
    rw [hHs] at hState
    cases hState
    rw [hFinish] at hReject
    cases hReject
  | finish hKind hNone hState hFinished hFlush =>
    rw [hHs] at hState
    cases hState
    rw [hFinish] at hFinished
    cases hFinished
    exact (hFlush.alike (.inl (by simp))).keys
  | unknown hInit hResp => exact (hResp rfl).elim

structure PeerCore.Blank (q : PeerCore A) : Prop where
  session : q.session = none
  hs : q.hs = none
  pending : q.pending = []

structure PeerCore.Asking (q : PeerCore A) (X : NodeId) (e : Fixed 32) : Prop where
  session : q.session = none
  hs : q.hs = some ⟨e, X⟩

section

variable (hOnly : c.X25519Only) (hStep : PeerStep c X direct e q q' out) (hGm : q.gm = none)

include hOnly hStep hGm

theorem PeerCore.Blank.step (h : q.Blank) (hLocal : e.isFrom X = false) :
    (q'.Blank ∧ frames out = []) ∨
      ∃ eph, q'.Asking X eph ∧ frames out = [(hsStart A c.identity X eph).2] := by
  rcases hStep.local_cases hOnly hLocal hGm h.session with
    ⟨rfl, rfl⟩ | ⟨inner, hSome, -⟩ | ⟨inner, eph, -, rfl, rfl⟩
  · exact .inl ⟨h, rfl⟩
  · exact (hSome h.hs).elim
  · exact .inr ⟨eph, ⟨h.session, rfl⟩, rfl⟩

theorem PeerCore.Asking.step (h : q.Asking X eph) (hLocal : e.isFrom X = false) :
    q'.Asking X eph ∧ frames out = [] := by
  rcases hStep.local_cases hOnly hLocal hGm h.session with
    ⟨rfl, rfl⟩ | ⟨inner, -, rfl, rfl⟩ | ⟨inner, eph, hNone, -⟩
  · exact ⟨h, rfl⟩
  · exact ⟨⟨h.session, h.hs⟩, rfl⟩
  · rw [h.hs] at hNone
    cases hNone

theorem PeerCore.Derived.step (h : q.Derived cipher) : q'.Derived cipher :=
  (hStep.alike_of_session hOnly hGm h.session_ne_none).keys.trans h

end

end Machine

/-! ## Where the two ends stand -/

section Stages

variable (c : Side → NodeSetup A)

def initMsg (i : Side) (e : Fixed 32) : Bytes := (hsStart A (c i).identity (c i.other).nodeId e).2

def respMsg (r : Side) (f : Fixed 32) : Bytes :=
  hsMsg A hsKindResp hsRespLabel (c r).identity (c r.other).nodeId f

/-- The session of the end `i` that asked with `e` and was answered with `f`. -/
def askerCipher (i : Side) (e f : Fixed 32) : SessionCipher :=
  derive A (A.x25519 e (A.x25519Public f)) (c i).nodeId (c i.other).nodeId .initiator

/-- The session of the end that answered `i`. -/
def answererCipher (i : Side) (e f : Fixed 32) : SessionCipher :=
  derive A (A.x25519 f (A.x25519Public e)) (c i).nodeId (c i.other).nodeId .responder

variable {c} in
theorem PeerCore.Asking.ignores {i q q' e f env out direct} (h : q.Asking (c i.other).nodeId e)
    (hSigs : A.SignaturesVerify) (hLt : NodeId.lt (c i).nodeId (c i.other).nodeId)
    (hStep : PeerStep (c i) (c i.other).nodeId direct
      (.relayData env (c i.other).nodeId (initMsg c i.other f)) q q' out) : q' = q ∧ out = [] := by
  rw [initMsg, other_other] at hStep
  rcases hStep.init_cases hSigs rfl h.session with ⟨-, -, hSame, hNone⟩ | ⟨hNot, -⟩
  · exact ⟨hSame, hNone⟩
  · exact (hNot ⟨by rw [h.hs]; simp, hLt⟩).elim

inductive Stage (core : Side → PeerCore A) (queue : Side → List Bytes) : Prop where
  | idle (hBlank : ∀ t, (core t).Blank) (hQueue : ∀ t, queue t = [])
  | asked (i : Side) (e : Fixed 32) (hAsks : (core i).Asking (c i.other).nodeId e)
      (hBlank : (core i.other).Blank) (hInit : queue i.other = [initMsg c i e])
      (hQueue : queue i = [])
  /-- Both have asked; `i` has the smaller id. -/
  | crossed (i : Side) (e f : Fixed 32) (hLt : NodeId.lt (c i).nodeId (c i.other).nodeId)
      (hAsks : (core i).Asking (c i.other).nodeId e)
      (hAsks' : (core i.other).Asking (c i).nodeId f) (hInit : queue i.other = [initMsg c i e])
      (hQueue : queue i = [] ∨ queue i = [initMsg c i.other f])
  /-- The answer may be behind the first message of the end that answers. -/
  | answered (i : Side) (e f : Fixed 32) (hAsks : (core i).Asking (c i.other).nodeId e)
      (hDerived : (core i.other).Derived (answererCipher c i e f)) (hInit : queue i.other = [])
      (hQueue : ∃ rest, queue i = respMsg c i.other f :: rest ∨
        (NodeId.lt (c i).nodeId (c i.other).nodeId ∧
          ∃ g, queue i = initMsg c i.other g :: respMsg c i.other f :: rest))
  | agreed (i : Side) (e f : Fixed 32) (hAsker : (core i).Derived (askerCipher c i e f))
      (hAnswerer : (core i.other).Derived (answererCipher c i e f))

namespace Stage

variable {c} {core core' : Side → PeerCore A} {queue queue' : Side → List Bytes} {side : Side}
  {out : List Effect}

theorem of_both_ask (hIds : ∀ t : Side, (c t).nodeId ≠ (c t.other).nodeId) {i e f}
    (hAsks : (core i).Asking (c i.other).nodeId e) (hAsks' : (core i.other).Asking (c i).nodeId f)
    (hInit : queue i.other = [initMsg c i e]) (hInit' : queue i = [initMsg c i.other f]) :
    Stage c core queue := by
  by_cases hLt : NodeId.lt (c i).nodeId (c i.other).nodeId
  · exact .crossed i e f hLt hAsks hAsks' hInit (.inr hInit')
  · refine .crossed i.other f e ?_ ?_ ?_ ?_ (.inr ?_)
    · rw [other_other]
      exact NodeId.lt_of_not_lt (hIds i) hLt
    · rwa [other_other]
    · rwa [other_other]
    · rwa [other_other]
    · rwa [other_other]

section Steps

variable (hOnly : ∀ t, (c t).X25519Only) (hGm : ∀ t, (core t).gm = none)
include hOnly hGm

theorem act (hIds : ∀ t : Side, (c t).nodeId ≠ (c t.other).nodeId) {e : HostEvent A} {direct}
    (h : Stage c core queue)
    (hStep : PeerStep (c side) (c side.other).nodeId direct e (core side) (core' side) out)
    (hLocal : e.isFrom (c side.other).nodeId = false) (hOther : core' side.other = core side.other)
    (hQueue : queue' side = queue side)
    (hSent : queue' side.other = queue side.other ++ frames out) : Stage c core' queue' := by
  cases h with
  | idle hBlank hEmpty =>
    rcases (hBlank side).step (hOnly side) hStep (hGm side) hLocal with
      ⟨hBlank', hNone⟩ | ⟨eph, hAsks, hInit⟩
    · refine .idle (fun t => ?_) fun t => ?_
      · rcases eq_or_eq_other side t with rfl | rfl
        · exact hBlank'
        · rw [hOther]
          exact hBlank _
      · rcases eq_or_eq_other side t with rfl | rfl
        · exact hQueue.trans (hEmpty _)
        · rw [hSent, hNone, hEmpty]
          rfl
    · refine .asked side eph hAsks ?_ ?_ (hQueue.trans (hEmpty _))
      · rw [hOther]
        exact hBlank _
      · rw [hSent, hInit, hEmpty]
        rfl
  | asked i eph hAsks hBlank hInit hEmpty =>
    rcases eq_or_eq_other i side with rfl | rfl
    · obtain ⟨hAsks', hNone⟩ := hAsks.step (hOnly _) hStep (hGm _) hLocal
      refine .asked _ eph hAsks' (by rwa [hOther]) ?_ (hQueue.trans hEmpty)
      rw [hSent, hNone, hInit]
      rfl
    · rw [other_other] at hStep hLocal hOther hSent
      rcases hBlank.step (hOnly _) hStep (hGm _) hLocal with
        ⟨hBlank', hNone⟩ | ⟨eph', hAsks', hInit'⟩
      · refine .asked i eph (by rwa [hOther]) hBlank' (hQueue.trans hInit) ?_
        rw [hSent, hNone, hEmpty]
        rfl
      · -- both have asked now
        have hSent' : queue' i = [initMsg c i.other eph'] := by
          rw [hSent, hInit', hEmpty, initMsg, other_other]
          rfl
        exact of_both_ask hIds (by rwa [hOther]) hAsks' (hQueue.trans hInit) hSent'
  | crossed i eph eph' hLt hAsks hAsks' hInit hWay =>
    rcases eq_or_eq_other i side with rfl | rfl
    · obtain ⟨hKept, hNone⟩ := hAsks.step (hOnly _) hStep (hGm _) hLocal
      refine .crossed _ eph eph' hLt hKept (by rwa [hOther]) ?_ (by rwa [hQueue])
      rw [hSent, hNone, hInit]
      rfl
    · rw [other_other] at hStep hLocal hOther hSent
      obtain ⟨hKept, hNone⟩ := hAsks'.step (hOnly _) hStep (hGm _) hLocal
      rw [hNone, List.append_nil] at hSent
      exact .crossed i eph eph' hLt (by rwa [hOther]) hKept (hQueue.trans hInit) (by rwa [hSent])
  | answered i eph eph' hAsks hDerived hInit hWay =>
    obtain ⟨rest, hWay⟩ := hWay
    rcases eq_or_eq_other i side with rfl | rfl
    · obtain ⟨hKept, hNone⟩ := hAsks.step (hOnly _) hStep (hGm _) hLocal
      refine .answered _ eph eph' hKept (by rwa [hOther]) ?_ ⟨rest, by rwa [hQueue]⟩
      rw [hSent, hNone, hInit]
      rfl
    · rw [other_other] at hStep hOther hSent
      -- what the end with the session sends comes after its answer
      refine .answered i eph eph' (by rwa [hOther]) (hDerived.step (hOnly _) hStep (hGm _))
        (hQueue.trans hInit) ⟨rest ++ frames out, ?_⟩
      rw [hSent]
      rcases hWay with hWay | ⟨hLt, g, hWay⟩
      · exact .inl (by rw [hWay]; rfl)
      · exact .inr ⟨hLt, g, by rw [hWay]; rfl⟩
  | agreed i eph eph' hAsker hAnswerer =>
    rcases eq_or_eq_other i side with rfl | rfl
    · exact .agreed _ eph eph' (hAsker.step (hOnly _) hStep (hGm _)) (by rwa [hOther])
    · rw [other_other] at hOther
      exact .agreed i eph eph' (by rwa [hOther]) (hAnswerer.step (hOnly _) hStep (hGm _))

theorem deliver (hSigs : A.SignaturesVerify) {env payload rest direct} (h : Stage c core queue)
    (hHead : queue side = payload :: rest)
    (hStep : PeerStep (c side) (c side.other).nodeId direct
      (.relayData env (c side.other).nodeId payload) (core side) (core' side) out)
    (hOther : core' side.other = core side.other) (hQueue : queue' side = rest)
    (hSent : queue' side.other = queue side.other ++ frames out) : Stage c core' queue' := by
  cases h with
  | idle hBlank hEmpty =>
    rw [hEmpty] at hHead
    cases hHead
  | asked i eph hAsks hBlank hInit hEmpty =>
    rcases eq_or_eq_other i side with rfl | rfl
    · rw [hEmpty] at hHead
      cases hHead
    · rw [other_other] at hStep hOther hSent
      rw [hInit] at hHead
      cases hHead
      rcases hStep.init_cases hSigs rfl hBlank.session with
        ⟨hSome, -⟩ | ⟨-, hDerived, more, hResp⟩
      · exact (hSome hBlank.hs).elim
      · -- the answer goes out before anything that is encrypted
        refine .answered i eph env.eph (by rwa [hOther]) hDerived hQueue ⟨more, .inl ?_⟩
        rw [hSent, hResp, hEmpty, respMsg, other_other]
        rfl
  | crossed i eph eph' hLt hAsks hAsks' hInit hWay =>
    rcases eq_or_eq_other i side with rfl | rfl
    · -- the smaller id ignores what the larger asks
      rcases hWay with hWay | hWay
      · rw [hWay] at hHead
        cases hHead
      · rw [hWay] at hHead
        cases hHead
        obtain ⟨hSame, rfl⟩ := hAsks.ignores hSigs hLt hStep
        refine .crossed _ eph eph' hLt (by rwa [hSame]) (by rwa [hOther]) ?_ (.inl hQueue)
        rw [hSent, hInit]
        rfl
    · -- the larger drops its own handshake and answers
      rw [other_other] at hStep hOther hSent
      rw [hInit] at hHead
      cases hHead
      rcases hStep.init_cases hSigs rfl hAsks'.session with
        ⟨-, hGt, -⟩ | ⟨-, hDerived, more, hResp⟩
      · exact (NodeId.lt_asymm hLt hGt).elim
      · refine .answered i eph env.eph (by rwa [hOther]) hDerived hQueue ⟨more, ?_⟩
        rw [hSent, hResp, respMsg, other_other]
        rcases hWay with hWay | hWay
        · exact .inl (by rw [hWay]; rfl)
        · exact .inr ⟨hLt, eph', by rw [hWay]; rfl⟩
  | answered i eph eph' hAsks hDerived hInit hWay =>
    obtain ⟨more, hWay⟩ := hWay
    rcases eq_or_eq_other i side with rfl | rfl
    · rcases hWay with hWay | ⟨hLt, g, hWay⟩
      · -- the answer is first: the handshake finishes
        rw [hWay] at hHead
        cases hHead
        rw [respMsg, other_other] at hStep
        exact .agreed _ eph eph' (hStep.resp_finishes hSigs rfl hAsks.session hAsks.hs)
          (by rwa [hOther])
      · rw [hWay] at hHead
        cases hHead
        obtain ⟨hSame, rfl⟩ := hAsks.ignores hSigs hLt hStep
        refine .answered _ eph eph' (by rwa [hSame]) (by rwa [hOther]) ?_ ⟨more, .inl hQueue⟩
        rw [hSent, hInit]
        rfl
    · rw [hInit] at hHead
      cases hHead
  | agreed i eph eph' hAsker hAnswerer =>
    rcases eq_or_eq_other i side with rfl | rfl
    · exact .agreed _ eph eph' (hAsker.step (hOnly _) hStep (hGm _)) (by rwa [hOther])
    · rw [other_other] at hOther
      exact .agreed i eph eph' (by rwa [hOther]) (hAnswerer.step (hOnly _) hStep (hGm _))

end Steps

section

variable (h : Stage c core queue)

include h

theorem restart (hBlank : (core' side).Blank) (hOther : core' side.other = core side.other)
    (hSession : (core side.other).session = none) (hSilent : queue side.other = []) :
    Stage c core' queue := by
  cases h with
  | idle hWas hEmpty =>
    refine .idle (fun t => ?_) hEmpty
    rcases eq_or_eq_other side t with rfl | rfl
    · exact hBlank
    · rw [hOther]
      exact hWas _
  | asked i eph hAsks hWas hInit hEmpty =>
    rcases eq_or_eq_other i side with rfl | rfl
    · rw [hInit] at hSilent
      cases hSilent
    · rw [other_other] at hOther
      exact .asked i eph (by rwa [hOther]) hBlank hInit hEmpty
  | crossed i eph eph' hLt hAsks hAsks' hInit hWay =>
    rcases eq_or_eq_other i side with rfl | rfl
    · rw [hInit] at hSilent
      cases hSilent
    · -- only the first message of the other end is left
      rw [other_other] at hOther hSilent
      exact .asked i eph (by rwa [hOther]) hBlank hInit hSilent
  | answered i eph eph' hAsks hDerived hInit hWay =>
    rcases eq_or_eq_other i side with rfl | rfl
    · exact (hDerived.session_ne_none hSession).elim
    · rw [other_other] at hSilent
      obtain ⟨rest, hWay | ⟨-, g, hWay⟩⟩ := hWay
      · rw [hWay] at hSilent
        cases hSilent
      · rw [hWay] at hSilent
        cases hSilent
  | agreed i eph eph' hAsker hAnswerer =>
    rcases eq_or_eq_other i side with rfl | rfl
    · exact (hAnswerer.session_ne_none hSession).elim
    · rw [other_other] at hSession
      exact (hAsker.session_ne_none hSession).elim

theorem session_of_quiet (hQuiet : ∀ t, queue t = []) {t} (hPeer : (core t.other).session ≠ none) :
    (core t).session ≠ none := by
  cases h with
  | idle hBlank => exact (hPeer (hBlank _).session).elim
  | asked i eph hAsks hBlank hInit | crossed i eph eph' hLt hAsks hAsks' hInit =>
    rw [hQuiet] at hInit
    cases hInit
  | answered i eph eph' hAsks hDerived hInit hWay =>
    rw [hQuiet] at hWay
    obtain ⟨rest, hWay | ⟨-, g, hWay⟩⟩ := hWay
    · cases hWay
    · cases hWay
  | agreed i eph eph' hAsker hAnswerer =>
    rcases eq_or_eq_other i t with rfl | rfl
    · exact hAsker.session_ne_none
    · exact hAnswerer.session_ne_none

end

end Stage

end Stages

/-! ## Two nodes to run the model on -/

def dhAlgorithms : Algorithms :=
  { plainAlgorithms with
    x25519 := fun a b => ⟨List.zipWith (· ^^^ ·) a.val b.val, by simp⟩ }

theorem dhAlgorithms_dhCommutes : dhAlgorithms.DhCommutes := by
  intro a b
  refine Subtype.ext (List.zipWith_comm_of_comm ?_)
  exact UInt8.xor_comm

theorem dhAlgorithms_signaturesVerify : dhAlgorithms.SignaturesVerify := fun _ _ => rfl

def dhEnv (eph : UInt8) : Env dhAlgorithms where
  now := 0
  unixSecs := 0
  unixSecs_lt := plainEnv.unixSecs_lt
  eph := GmPq.padTo 32 [eph]
  rand₁ := ((4, 4) : UInt8 × UInt8)
  rand₂ := ((5, 5) : UInt8 × UInt8)

/-! ## Runs -/

namespace Relayed

variable {s s' s₀ : Relayed A} {ev : RelayedEvent A}

/-- A node restarts only while the other has no session with it and none of its
frames is on the way. -/
def RestartsUnknown (s : Relayed A) : RelayedEvent A → Prop
  | .restart side => (s.core side.other).session = none ∧ s.queue side.other = []
  | _ => True

instance decidableRestartsUnknown (s : Relayed A) (ev : RelayedEvent A) :
    Decidable (s.RestartsUnknown ev) :=
  match ev with
  | .restart _ => inferInstanceAs (Decidable (_ ∧ _))
  | .act _ _ | .deliver _ _ => .isTrue trivial

structure Plain (s : Relayed A) : Prop where
  only : ∀ t, (s.setup t).X25519Only
  ids : s.id .left ≠ s.id .right

theorem Plain.ids_ne (h : s.Plain) (t : Side) : (s.setup t).nodeId ≠ (s.setup t.other).nodeId := by
  cases t with
  | left => exact h.ids
  | right => exact h.ids.symm

structure StageInv (s : Relayed A) : Prop extends s.Plain where
  gm : ∀ t, (s.core t).gm = none
  stage : Stage s.setup s.core s.queue

theorem Start.stageInv (h : s.Start) (hPlain : s.Plain) : s.StageInv where
  toPlain := hPlain
  gm t := by
    rw [h.core_eq]
    rfl
  stage := by
    refine .idle (fun t => ?_) h.queue
    rw [h.core_eq]
    exact ⟨rfl, rfl, rfl⟩

theorem restart_core (s : Relayed A) (side : Side) :
    let s' : Relayed A := { s with node := update s.node side (s.node side).restart }
    s'.setup = s.setup ∧ s'.core side = .fresh ∧ s'.core side.other = s.core side.other := by
  intro s'
  have hSetup : s'.setup = s.setup := by
    funext t
    show (update s.node side (s.node side).restart t).setup = _
    by_cases ht : t = side
    · subst ht
      rw [update_self]
      rfl
    · rw [update_of_ne ht]
      rfl
  refine ⟨hSetup, ?_, core_congr hSetup (update_of_ne side.other_ne _ _)⟩
  show (update s.node side (s.node side).restart side).core _ = _
  rw [update_self]
  exact Timed.Start.core_eq ⟨rfl, rfl⟩ _

theorem StageInv.step (hSigs : A.SignaturesVerify) (h : s.StageInv) (hOk : s.RestartsUnknown ev)
    (hStep : s.step ev = some s') : s'.StageInv := by
  -- what one end has made a step in keeps both nodes and their lack of GM-PQ
  have hKeeps : ∀ {q : Side → List Bytes} {side : Side} {e : HostEvent A} {out : List Effect},
      Moves { s with queue := q } s' side e out → Stage s.setup s'.core s'.queue → s'.StageInv := by
    intro q side e out hMoves hStage
    have hSetup : s'.setup = s.setup := hMoves.setup
    refine ⟨⟨by rw [hSetup]; exact h.only, by unfold id; rw [hSetup]; exact h.ids⟩, fun t => ?_,
      by rwa [hSetup]⟩
    rcases eq_or_eq_other side t with rfl | rfl
    · exact hMoves.peer.gm_eq_none (h.only _) (h.gm _)
    · rw [hMoves.other]
      exact h.gm _
  rcases step_cases hStep with ⟨side, e, out, rfl, hLocal, hMoves⟩ |
    ⟨side, env, payload, rest, out, rfl, hHead, hMoves⟩ | ⟨side, rfl, rfl⟩
  · refine hKeeps hMoves ?_
    exact h.stage.act h.only h.gm h.toPlain.ids_ne hMoves.peer hLocal hMoves.other hMoves.queue
      hMoves.sent
  · refine hKeeps hMoves (h.stage.deliver h.only h.gm hSigs hHead hMoves.peer hMoves.other ?_ ?_)
    · rw [hMoves.queue]
      exact update_self ..
    · rw [hMoves.sent]
      exact congrArg (· ++ frames out) (update_of_ne side.other_ne _ _)
  · obtain ⟨hSetup, hFresh, hOther⟩ := restart_core s side
    refine ⟨⟨by rw [hSetup]; exact h.only, by unfold id; rw [hSetup]; exact h.ids⟩, fun t => ?_, ?_⟩
    · rcases eq_or_eq_other side t with rfl | rfl
      · rw [hFresh]
        rfl
      · rw [hOther]
        exact h.gm _
    · rw [hSetup]
      refine h.stage.restart ?_ hOther hOk.1 hOk.2
      rw [hFresh]
      exact ⟨rfl, rfl, rfl⟩

theorem run_stage (hSigs : A.SignaturesVerify) (hStart : s₀.Start) (hPlain : s₀.Plain)
    (hRun : Run step RestartsUnknown s₀ s) : s.StageInv :=
  hRun.invariant (hStart.stageInv hPlain) fun _ _ _ hInv hOk hStep => hInv.step hSigs hOk hStep

def dhPair : Relayed dhAlgorithms where
  node side :=
    let sk : UInt8 := match side with
      | .left => 1
      | .right => 2
    ⟨.start (.start ⟨true, true, -(3600 * second)⟩ ⟨GmPq.padTo 32 [sk]⟩ false none
      (GmPq.padTo 32 [7]) none) second, []⟩
  queue _ := []

theorem dhPair_start : dhPair.Start := ⟨fun _ => ⟨rfl, rfl⟩, fun _ => rfl⟩

theorem dhPair_plain : dhPair.Plain := ⟨fun _ => .inr rfl, by decide⟩

def dhSend (side : Side) (eph : UInt8) : RelayedEvent dhAlgorithms :=
  .act side (.sendTo (dhEnv eph) (.ok ()) (dhPair.id side.other) [9])

/-- **Recovery.** The nodes may restart, each while the other has no session with it and none of its
frames is on the way (`RestartsUnknown`). Whenever nothing is on the way, no node without a session
has a handshake or messages waiting while the other has a session. -/
theorem quiet_recovers (hSigs : A.SignaturesVerify) (hStart : s₀.Start) (hPlain : s₀.Plain)
    (hRun : Run step RestartsUnknown s₀ s) (hQuiet : ∀ t, s.queue t = []) (t : Side) :
    ¬ ((s.core t).session = none ∧ ((s.core t).hs ≠ none ∨ (s.core t).pending ≠ []) ∧
      (s.core t.other).session ≠ none) := by
  have hInv := run_stage hSigs hStart hPlain hRun
  rintro ⟨hNone, -, hPeer⟩
  exact hInv.stage.session_of_quiet hQuiet hPeer hNone

/-- A node restarts before it has heard of the other. -/
theorem quiet_recovers_early : ∃ s : Relayed dhAlgorithms, (s.core .right).session ≠ none ∧
    ∀ t, ¬ ((s.core t).session = none ∧ ((s.core t).hs ≠ none ∨ (s.core t).pending ≠ []) ∧
      (s.core t.other).session ≠ none) := by
  obtain ⟨s, hRun, hTest⟩ := exists_run_of_exec step RestartsUnknown dhPair
    [dhSend .left 3, .restart .right, .deliver .right (dhEnv 4), .deliver .left (dhEnv 5),
      .deliver .right (dhEnv 6)]
    (fun s => decide ((s.core .right).session ≠ none ∧ s.queue .left = [] ∧ s.queue .right = []))
    (by decide +kernel)
  obtain ⟨hSession, hLeft, hRight⟩ := of_decide_eq_true hTest
  exact ⟨s, hSession, quiet_recovers dhAlgorithms_signaturesVerify dhPair_start dhPair_plain hRun
    (forall_iff.mpr ⟨hLeft, hRight⟩)⟩

/-- A node restarts after the session was set up, and the other ignores its next handshake. -/
theorem not_quiet_recovers : ∃ (s₀ s : Relayed dhAlgorithms) (t : Side),
    dhAlgorithms.SignaturesVerify ∧ s₀.Start ∧ s₀.Plain ∧ Run step Always s₀ s ∧
      (∀ t, s.queue t = []) ∧ (s.core t).session = none ∧ (s.core t).hs ≠ none ∧
      (s.core t).pending ≠ [] ∧ (s.core t.other).session ≠ none := by
  obtain ⟨s, hRun, hTest⟩ := exists_run_of_exec step Always dhPair
    [dhSend .left 3, .deliver .right (dhEnv 4), .deliver .left (dhEnv 5), .deliver .right (dhEnv 6),
      .restart .right, dhSend .right 7, .deliver .left (dhEnv 8)]
    (fun s => decide ((s.queue .left = [] ∧ s.queue .right = []) ∧ (s.core .right).session = none ∧
      (s.core .right).hs ≠ none ∧ (s.core .right).pending ≠ [] ∧ (s.core .left).session ≠ none))
    (by decide +kernel)
  obtain ⟨⟨hLeft, hRight⟩, hStuck⟩ := of_decide_eq_true hTest
  exact ⟨dhPair, s, .right, dhAlgorithms_signaturesVerify, dhPair_start, dhPair_plain, hRun,
    forall_iff.mpr ⟨hLeft, hRight⟩, hStuck⟩

end Relayed

end DirectWire.Mesh
