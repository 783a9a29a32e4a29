import DirectWire.Mesh.Agreement

/-!
# Mesh — the X25519 handshake under an active relay

A relay delivers any frame to any honest node, under any source, as often and as late as it likes;
it cannot sign for an honest node. The signature of an answer covers the answerer's ephemeral key
and the two ids, and not the ephemeral key it answers.
-/

namespace DirectWire.Mesh

open Lib Outcome List Function

variable {A : Algorithms}

/-! ## What a node does in its handshakes -/

inductive HsObs where
  | started (eph : Fixed 32)
  /-- Accepted a first message, and signed and sent the answer. -/
  | accepted (init : Bytes) (eph : Fixed 32) (keys : Fixed 32 × Fixed 32)
  | finished (eph : Fixed 32) (resp : Bytes) (keys : Fixed 32 × Fixed 32)
deriving DecidableEq

namespace HsObs

def isStart : HsObs → Bool
  | .started _ => true
  | _ => false

def isFinish : HsObs → Bool
  | .finished _ _ _ => true
  | _ => false

def drawn : HsObs → Option (Fixed 32)
  | .started eph | .accepted _ eph _ => some eph
  | .finished _ _ _ => none

end HsObs

def startedSince (q q' : PeerCore A) : List HsObs :=
  match q.hs, q'.hs with
  | none, some hs => [.started hs.eph]
  | _, _ => []

def establishedSince (e : HostEvent A) (q q' : PeerCore A) : List HsObs :=
  match e, q.keys, q'.keys with
  | .relayData env _ payload, none, some keys =>
    -- the handlers look at the kind of the message in the same way
    if payload[1]? = some hsKindInit then [.accepted payload env.eph keys]
    else q.hs.toList.map fun hs => .finished hs.eph payload keys
  | _, _, _ => []

def hsObs (e : HostEvent A) (q q' : PeerCore A) : List HsObs :=
  startedSince q q' ++ establishedSince e q q'

inductive HsMove (c : NodeSetup A) (X : NodeId) (e : HostEvent A) (q q' : PeerCore A) :
    List HsObs → Prop where
  | keep (hHs : q'.hs = q.hs) : HsMove c X e q q' []
  | start {eph} (hBefore : q.hs = none) (hHs : q'.hs = some ⟨eph, X⟩) :
      HsMove c X e q q' [.started eph]
  | drop (hHs : q'.hs = none) : HsMove c X e q q' []
  | accept {env payload resp cipher} (hEvent : e = .relayData env X payload)
      (hAccept : hsAccept A c.identity X payload env.eph = ok (cipher, resp)) (hHs : q'.hs = none) :
      HsMove c X e q q' [.accepted payload env.eph (cipher.send, cipher.recv)]
  | finish {env payload hs cipher} (hEvent : e = .relayData env X payload)
      (hBefore : q.hs = some hs) (hFinish : hsFinish A c.identity hs payload = ok cipher)
      (hHs : q'.hs = none) : HsMove c X e q q' [.finished hs.eph payload (cipher.send, cipher.recv)]

section Moves

variable {c : NodeSetup A} {env : Env A} {X : NodeId} {e : HostEvent A} {q q' : PeerCore A}
  {direct : Bool} {out : List Effect}

theorem establishedSince_of_keys (h : q'.keys = q.keys) : establishedSince e q q' = [] := by
  unfold establishedSince
  split
  · rename_i hBefore hAfter
    rw [h, hBefore] at hAfter
    cases hAfter
  · rfl

theorem startedSince_of_none (h : q'.hs = none) : startedSince q q' = [] := by
  rw [startedSince, h]
  cases q.hs <;> rfl

theorem hsObs_of_same (hHs : q'.hs = q.hs) (hKeys : q'.keys = q.keys) : hsObs e q q' = [] := by
  rw [hsObs, establishedSince_of_keys hKeys, startedSince, hHs]
  cases q.hs <;> rfl

theorem HsMove.of_same (hHs : q'.hs = q.hs) (hKeys : q'.keys = q.keys) :
    HsMove c X e q q' (hsObs e q q') := by
  rw [hsObs_of_same hHs hKeys]
  exact .keep hHs

theorem HsMove.of_start {eph} (hBefore : q.hs = none) (hHs : q'.hs = some ⟨eph, X⟩)
    (hKeys : q'.keys = q.keys) : HsMove c X e q q' (hsObs e q q') := by
  have hObs : hsObs e q q' = [.started eph] := by
    rw [hsObs, establishedSince_of_keys hKeys, startedSince, hBefore, hHs]
    rfl
  rw [hObs]
  exact .start hBefore hHs

theorem HsMove.of_alike (h : PeerCore.Alike q q') : HsMove c X e q q' (hsObs e q q') :=
  .of_same h.hs h.keys

theorem GmStarts.hs_keys (h : GmStarts c env X q q' out) : q'.hs = q.hs ∧ q'.keys = q.keys := by
  cases h <;> exact ⟨rfl, rfl⟩

theorem Sends.hsMove {inner} (h : Sends c env X inner q q' out) :
    HsMove c X e q q' (hsObs e q q') := by
  by_cases hNone : q.session = none
  swap
  · exact .of_alike (h.alike (.inl hNone))
  -- without a session a message may start a handshake
  cases h with
  | gm => exact .of_same rfl rfl
  | sealed hGm hSession | lost hGm hSession =>
    exact absurd (hNone.symm.trans hSession) (by simp)
  | queued hGm hSession hQueues =>
    cases hQueues with
    | gm hTries hNone hStarts => exact .of_same hStarts.hs_keys.1 hStarts.hs_keys.2
    | gmWaits | hsWaits => exact .of_same rfl rfl
    | hs hTries hNone => exact .of_start hNone rfl rfl

theorem GmFrame.hs_keys {kind body} (hBuild : c.build.gmPq = true)
    (h : GmFrame c env X kind body q q' out) : q'.hs = q.hs ∧ q'.keys = q.keys := by
  cases h with
  | start hOn hKind hNone hOk hStarts => exact hStarts.hs_keys
  | bound hOn hKind hState hRecv hBind hFlush =>
    have hAlike := hFlush.alike (.inr ⟨hBuild, rfl⟩)
    exact ⟨hAlike.hs, hAlike.keys⟩
  | data hOn hKind hState hRecv hHands =>
    have hAlike := hHands.alike (.inr ⟨hBuild, rfl⟩)
    exact ⟨hAlike.hs, hAlike.keys⟩
  | _ => exact ⟨rfl, rfl⟩

theorem HsFrame.hsMove {payload} (h : HsFrame c env X payload q q' out) :
    HsMove c X (.relayData env X payload) q q' (hsObs (.relayData env X payload) q q') := by
  cases h with
  | accept hKind hSession hTurn hAccept hFlush =>
    rename_i cipher resp out
    have hAlike := hFlush.alike (.inl (by simp))
    have hHs : q'.hs = none := hAlike.hs
    have hKeys : q'.keys = some (cipher.send, cipher.recv) := hAlike.keys
    have hObs : hsObs (.relayData env X payload) q q' =
        [.accepted payload env.eph (cipher.send, cipher.recv)] := by
      rw [hsObs, startedSince_of_none hHs, nil_append]
      simp only [establishedSince, PeerCore.keys_eq_none.mpr hSession, hKeys, hKind, if_true]
    rw [hObs]
    exact .accept rfl hAccept hHs
  | finish hKind hSession hHs hFinish hFlush =>
    rename_i hs cipher
    have hAlike := hFlush.alike (.inl (by simp))
    have hAfter : q'.hs = none := hAlike.hs
    have hKeys : q'.keys = some (cipher.send, cipher.recv) := hAlike.keys
    have hObs : hsObs (.relayData env X payload) q q' =
        [.finished hs.eph payload (cipher.send, cipher.recv)] := by
      rw [hsObs, startedSince_of_none hAfter, nil_append]
      simp only [establishedSince, PeerCore.keys_eq_none.mpr hSession, hKeys, hKind, hHs]
      rfl
    rw [hObs]
    exact .finish rfl hHs hFinish hAfter
  | rejectResp =>
    have hKeys : PeerCore.keys { q with hs := none } = q.keys := rfl
    rw [hsObs, startedSince_of_none rfl, establishedSince_of_keys hKeys]
    exact .drop rfl
  | _ => exact .of_same rfl rfl

theorem PeerStep.hsMove (h : PeerStep c X direct e q q' out) :
    HsMove c X e q q' (hsObs e q q') := by
  cases h with
  | idle => exact .of_same rfl rfl
  | send hSends | ping hHas hSends => exact hSends.hsMove
  | receive hReceives =>
    cases hReceives with
    | gm hBuild hPayload hFrame =>
      obtain ⟨hHs, hKeys⟩ := hFrame.hs_keys hBuild
      exact .of_same hHs hKeys
    | hs hTag hFrame => exact hFrame.hsMove
    | cipher hGm hHs hFrame => exact .of_alike hFrame.alike
  | check hChecks =>
    cases hChecks with
    | stale | falls => exact .of_same rfl rfl
    | restarts hGen hReady hSome hNeed => exact .of_start hNeed.2.1 rfl rfl

def HostEvent.target : HostEvent A → Option NodeId
  | .sendTo _ _ peer _ | .relayData _ peer _ | .gmCheck _ peer _ => some peer
  | _ => none

theorem PeerStep.hsObs_eq_nil (h : PeerStep c X direct e q q' out) (hOther : e.target ≠ some X) :
    hsObs e q q' = [] := by
  cases h with
  | idle => exact hsObs_of_same rfl rfl
  | send | receive | check => exact absurd rfl hOther
  | ping hHas hSends =>
    have hAlike := hSends.alike (hHas.imp_left Option.isSome_iff_ne_none.mp)
    exact hsObs_of_same hAlike.hs hAlike.keys

end Moves

/-! ## The system -/

/-- Honest nodes, and what each has done in the handshakes with each peer. -/
structure ActiveRelay (ι : Type) (A : Algorithms) where
  node : ι → Timed A
  log : ι → NodeId → List HsObs

inductive ActiveEvent (ι : Type) (A : Algorithms) where
  /-- A node handles an event; any frame from any source is one. -/
  | act (i : ι) (e : HostEvent A)
  | restart (i : ι)

namespace ActiveRelay

variable {ι : Type}

def setup (s : ActiveRelay ι A) (i : ι) : NodeSetup A := (s.node i).setup

def id (s : ActiveRelay ι A) (i : ι) : NodeId := (s.setup i).nodeId

def core (s : ActiveRelay ι A) (i : ι) (X : NodeId) : PeerCore A := (s.node i).core X

def step [DecidableEq ι] (s : ActiveRelay ι A) : ActiveEvent ι A → Option (ActiveRelay ι A)
  | .act i e => ((s.node i).step e).map fun next =>
    { node := update s.node i next
      log := update s.log i fun X =>
        s.log i X ++ hsObs e (s.core i X) (next.core X) }
  | .restart i => some { s with node := update s.node i (s.node i).restart }

structure Start (s : ActiveRelay ι A) : Prop where
  node : ∀ i, (s.node i).Start
  log : ∀ i X, s.log i X = []

def Signed (s : ActiveRelay ι A) (i : ι) (msg : Bytes) : Prop :=
  ∃ X, (∃ eph, .started eph ∈ s.log i X ∧
      msg = signCtx hsInitLabel (A.x25519Public eph) (s.id i) X) ∨
    ∃ init eph keys, .accepted init eph keys ∈ s.log i X ∧
      msg = signCtx hsRespLabel (A.x25519Public eph) (s.id i) X

/-- No frame has a signature for a handshake that verifies under the id of an
honest node and is not of what that node has signed. -/
def Unforged (s : ActiveRelay ι A) : ActiveEvent ι A → Prop
  | .act _ (.relayData _ _ payload) => ∀ kind ephPub sig,
    parseHsMsg payload kind = ok (ephPub, sig) →
      ∀ i label, label = hsInitLabel ∨ label = hsRespLabel → ∀ pub X,
        verify A (s.id i) (signCtx label pub (s.id i) X) sig = true →
          s.Signed i (signCtx label pub (s.id i) X)
  | _ => True

def drawnPublics (s : ActiveRelay ι A) (i : ι) (X : NodeId) : List (Fixed 32) :=
  ((s.log i X).filterMap HsObs.drawn).map A.x25519Public

def Fresh (s : ActiveRelay ι A) : Prop :=
  (∀ i X, (s.drawnPublics i X).Nodup) ∧
    ∀ i X j Y, (i, X) ≠ (j, Y) → (s.drawnPublics i X).Disjoint (s.drawnPublics j Y)

def starts (s : ActiveRelay ι A) (i : ι) (X : NodeId) : Nat := (s.log i X).countP HsObs.isStart

def finishes (s : ActiveRelay ι A) (i : ι) (X : NodeId) : Nat := (s.log i X).countP HsObs.isFinish

/-! ## What stands behind the log -/

variable {s s' s₀ : ActiveRelay ι A} {ev : ActiveEvent ι A} {i j : ι} {X : NodeId}

def hsKeys (A : Algorithms) (shared : Fixed 32) (initiator responder : NodeId) (role : HsRole) :
    Fixed 32 × Fixed 32 :=
  let cipher := derive A shared initiator responder role
  (cipher.send, cipher.recv)

def Backed (s : ActiveRelay ι A) (i : ι) (X : NodeId) : HsObs → Prop
  | .started _ => True
  | .accepted init eph keys => ∃ ephPub sig, parseHsMsg init hsKindInit = ok (ephPub, sig) ∧
      keys = hsKeys A (A.x25519 eph ephPub) X (s.id i) .responder ∧
      ∀ j, s.id j = X → s.Signed j (signCtx hsInitLabel ephPub X (s.id i))
  | .finished eph resp keys => .started eph ∈ s.log i X ∧
      ∃ ephPub sig, parseHsMsg resp hsKindResp = ok (ephPub, sig) ∧
      keys = hsKeys A (A.x25519 eph ephPub) (s.id i) X .initiator ∧
      ∀ j, s.id j = X → s.Signed j (signCtx hsRespLabel ephPub X (s.id i))

structure Grows (s s' : ActiveRelay ι A) : Prop where
  id : ∀ i, s'.id i = s.id i
  log : ∀ i X o, o ∈ s.log i X → o ∈ s'.log i X

theorem Signed.mono (hGrows : Grows s s') {msg} (h : s.Signed i msg) : s'.Signed i msg := by
  obtain ⟨X, h⟩ := h
  refine ⟨X, ?_⟩
  rw [hGrows.id]
  rcases h with ⟨eph, hLog, hMsg⟩ | ⟨init, eph, keys, hLog, hMsg⟩
  · exact .inl ⟨eph, hGrows.log _ _ _ hLog, hMsg⟩
  · exact .inr ⟨init, eph, keys, hGrows.log _ _ _ hLog, hMsg⟩

theorem Backed.mono (hGrows : Grows s s') {o} (h : s.Backed i X o) : s'.Backed i X o := by
  have hSigned : ∀ {msg : Bytes}, (∀ j, s.id j = X → s.Signed j msg) →
      ∀ j, s'.id j = X → s'.Signed j msg := by
    intro msg hBy j hId
    exact (hBy j (by rw [← hGrows.id]; exact hId)).mono hGrows
  cases o with
  | started => exact trivial
  | accepted =>
    obtain ⟨ephPub, sig, hParse, hKeys, hBy⟩ := h
    refine ⟨ephPub, sig, hParse, ?_, ?_⟩
    · rw [hGrows.id]
      exact hKeys
    · rw [hGrows.id]
      exact hSigned hBy
  | finished =>
    obtain ⟨hStarted, ephPub, sig, hParse, hKeys, hBy⟩ := h
    refine ⟨hGrows.log _ _ _ hStarted, ephPub, sig, hParse, ?_, ?_⟩
    · rw [hGrows.id]
      exact hKeys
    · rw [hGrows.id]
      exact hSigned hBy

theorem Unforged.signed {env source payload kind ephPub sig label Y}
    (h : s.Unforged (.act i (.relayData env source payload)))
    (hParse : parseHsMsg payload kind = ok (ephPub, sig))
    (hLabel : label = hsInitLabel ∨ label = hsRespLabel)
    (hVerify : verify A X (signCtx label ephPub X Y) sig = true) :
    ∀ j, s.id j = X → s.Signed j (signCtx label ephPub X Y) := by
  intro j hId
  rw [← hId] at hVerify ⊢
  exact h kind ephPub sig hParse j label hLabel ephPub Y hVerify

structure Inv (s : ActiveRelay ι A) : Prop where
  hs : ∀ i X hs, (s.core i X).hs = some hs → hs.peer = X ∧ .started hs.eph ∈ s.log i X
  count : ∀ i X, s.finishes i X + (s.core i X).hs.toList.length ≤ s.starts i X
  backed : ∀ i X, ∀ o ∈ s.log i X, s.Backed i X o

theorem Start.inv (h : s.Start) : s.Inv := by
  have hCore : ∀ i X, s.core i X = .fresh := fun i X => (h.node i).core_eq X
  refine ⟨fun i X hs hHs => ?_, fun i X => ?_, fun i X o ho => ?_⟩
  · rw [hCore] at hHs
    cases hHs
  · rw [hCore, finishes, starts, h.log]
    exact le_rfl
  · rw [h.log] at ho
    cases ho

theorem Signed.started {pub} (h : s.Signed i (signCtx hsInitLabel pub (s.id i) X)) :
    ∃ eph, .started eph ∈ s.log i X ∧ pub = A.x25519Public eph := by
  obtain ⟨Y, ⟨eph, hLog, hMsg⟩ | ⟨init, eph, keys, hLog, hMsg⟩⟩ := h
  · obtain ⟨-, hPub, -, rfl⟩ := signCtx_inj hMsg
    exact ⟨eph, hLog, hPub⟩
  · exact absurd (signCtx_inj hMsg).1 (by decide)

theorem Signed.accepted {pub} (h : s.Signed i (signCtx hsRespLabel pub (s.id i) X)) :
    ∃ init eph keys, .accepted init eph keys ∈ s.log i X ∧ pub = A.x25519Public eph := by
  obtain ⟨Y, ⟨eph, hLog, hMsg⟩ | ⟨init, eph, keys, hLog, hMsg⟩⟩ := h
  · exact absurd (signCtx_inj hMsg).1 (by decide)
  · obtain ⟨-, hPub, -, rfl⟩ := signCtx_inj hMsg
    exact ⟨init, eph, keys, hLog, hPub⟩

theorem Inv.answered (h : s.Inv) {e resp keys}
    (hFinished : .finished e resp keys ∈ s.log i (s.id j)) :
    .started e ∈ s.log i (s.id j) ∧ ∃ init f keys' sig sig' e',
      .accepted init f keys' ∈ s.log j (s.id i) ∧ .started e' ∈ s.log i (s.id j) ∧
      parseHsMsg init hsKindInit = ok (A.x25519Public e', sig) ∧
      parseHsMsg resp hsKindResp = ok (A.x25519Public f, sig') ∧
      keys = hsKeys A (A.x25519 e (A.x25519Public f)) (s.id i) (s.id j) .initiator ∧
      keys' = hsKeys A (A.x25519 f (A.x25519Public e')) (s.id i) (s.id j) .responder := by
  -- the answer was signed by the peer, when it accepted a first message, and that was signed
  -- by the node
  obtain ⟨hStarted, ephPub, sig', hResp, hKeys, hBy⟩ := h.backed i _ _ hFinished
  obtain ⟨init, f, keys', hAccepted, rfl⟩ := (hBy j rfl).accepted
  obtain ⟨initPub, sig, hInit, hKeys', hBy'⟩ := h.backed j _ _ hAccepted
  obtain ⟨e', hStarted', rfl⟩ := (hBy' i rfl).started
  exact ⟨hStarted, init, f, keys', sig, sig', e', hAccepted, hStarted', hInit, hResp, hKeys, hKeys'⟩

theorem started_unique (hOnce : s.starts i X ≤ 1) {e e'} (h : .started e ∈ s.log i X)
    (h' : .started e' ∈ s.log i X) : e = e' := by
  rw [starts, countP_eq_length_filter] at hOnce
  have hMem := mem_filter.mpr ⟨h, show (HsObs.started e).isStart = true from rfl⟩
  have hMem' := mem_filter.mpr ⟨h', show (HsObs.started e').isStart = true from rfl⟩
  rcases Nat.le_one_iff_eq_zero_or_eq_one.mp hOnce with hNone | hOne
  · rw [length_eq_zero_iff.mp hNone] at hMem
    cases hMem
  · obtain ⟨o, ho⟩ := length_eq_one_iff.mp hOne
    rw [ho, mem_singleton] at hMem hMem'
    cases hMem.trans hMem'.symm
    rfl

theorem mem_drawnPublics {init eph keys} (h : .accepted init eph keys ∈ s.log i X) :
    A.x25519Public eph ∈ s.drawnPublics i X :=
  mem_map_of_mem (mem_filterMap.mpr ⟨_, h, rfl⟩)

/-! ## Steps -/

variable [DecidableEq ι]

inductive Advance (s s' : ActiveRelay ι A) (ev : ActiveEvent ι A) (j : ι) (X : NodeId) : Prop where
  | move {e obs} (hEvent : ev = .act j e)
      (hMove : HsMove (s.setup j) X e (s.core j X) (s'.core j X) obs)
      (hLog : s'.log j X = s.log j X ++ obs)
  | restart (hHs : (s'.core j X).hs = none) (hLog : s'.log j X = s.log j X)
  | other (hHs : (s'.core j X).hs = (s.core j X).hs) (hLog : s'.log j X = s.log j X)

theorem step_cases (h : s.step ev = some s') :
    (∀ j, s'.setup j = s.setup j) ∧ ∀ j X, Advance s s' ev j X := by
  cases ev with
  | act i e =>
    obtain ⟨next, hNext, rfl⟩ := Option.map_eq_some_iff.mp h
    obtain ⟨hSetup, hPeers⟩ := Timed.step_refines hNext
    refine ⟨fun j => ?_, fun j X => ?_⟩
    · by_cases hj : j = i
      · subst hj
        simpa [setup] using hSetup
      · simp [setup, hj]
    · by_cases hj : j = i
      · subst hj
        obtain ⟨out, hPeer, -⟩ := hPeers X
        refine .move rfl ?_ (congrFun (update_self j _ s.log) X)
        show HsMove _ X e _ ((update s.node j next j).core X) _
        rw [update_self]
        exact hPeer.hsMove
      · exact .other (by simp [core, hj]) (by simp [hj])
  | restart i =>
    cases h
    refine ⟨fun j => ?_, fun j X => ?_⟩
    · by_cases hj : j = i
      · subst hj
        show (update s.node j (s.node j).restart j).setup = _
        rw [update_self]
        rfl
      · simp [setup, hj]
    · by_cases hj : j = i
      · subst hj
        refine .restart ?_ rfl
        show ((update s.node j (s.node j).restart j).core X).hs = none
        rw [update_self]
        rfl
      · exact .other (by simp [core, hj]) rfl

theorem step_grows (h : s.step ev = some s') : Grows s s' := by
  obtain ⟨hSetup, hAll⟩ := step_cases h
  refine ⟨fun i => by rw [id, hSetup, id], fun i X o ho => ?_⟩
  cases hAll i X with
  | move hEvent hMove hLog =>
    rw [hLog]
    exact mem_append_left _ ho
  | restart hHs hLog | other hHs hLog => rwa [hLog]

theorem Inv.hs_step (h : s.Inv) (hStep : s.step ev = some s') (i : ι) (X : NodeId) (hs : HsState)
    (hHs : (s'.core i X).hs = some hs) : hs.peer = X ∧ .started hs.eph ∈ s'.log i X := by
  have hGrows := step_grows hStep
  have hOld : (s.core i X).hs = some hs → hs.peer = X ∧ .started hs.eph ∈ s'.log i X :=
    fun hBefore => ⟨(h.hs i X hs hBefore).1, hGrows.log _ _ _ (h.hs i X hs hBefore).2⟩
  cases (step_cases hStep).2 i X with
  | restart hNone => exact absurd (hNone.symm.trans hHs) (by simp)
  | other hSame => exact hOld (hSame.symm.trans hHs)
  | move hEvent hMove hLog =>
    cases hMove with
    | keep hSame => exact hOld (hSame.symm.trans hHs)
    | start hBefore hAfter =>
      cases hAfter.symm.trans hHs
      rw [hLog]
      exact ⟨rfl, by simp⟩
    | drop hNone | accept hRelay hAccept hNone | finish hRelay hBefore hFinish hNone =>
      exact absurd (hNone.symm.trans hHs) (by simp)

theorem Inv.count_step (h : s.Inv) (hStep : s.step ev = some s') (i : ι) (X : NodeId) :
    s'.finishes i X + (s'.core i X).hs.toList.length ≤ s'.starts i X := by
  have hBefore := h.count i X
  unfold finishes starts at hBefore ⊢
  cases (step_cases hStep).2 i X with
  | restart hNone hLog =>
    rw [hLog, hNone]
    exact (Nat.le_add_right _ _).trans hBefore
  | other hSame hLog =>
    rw [hLog, hSame]
    exact hBefore
  | move hEvent hMove hLog =>
    rw [hLog, countP_append, countP_append]
    cases hMove with
    | keep hSame =>
      rw [hSame]
      exact hBefore
    | start hNone hAfter =>
      -- one more is started, and it is the one under way
      rw [hNone] at hBefore
      rw [hAfter]
      exact Nat.succ_le_succ hBefore
    | drop hNone | accept hRelay hAccept hNone =>
      rw [hNone]
      exact (Nat.le_add_right _ _).trans hBefore
    | finish hRelay hWas hFinish hNone =>
      -- one more is finished and none is under way
      rw [hWas] at hBefore
      rw [hNone]
      exact hBefore

theorem Inv.backed_step (h : s.Inv) (hOk : s.Unforged ev) (hStep : s.step ev = some s') (i : ι)
    (X : NodeId) : ∀ o ∈ s'.log i X, s'.Backed i X o := by
  have hGrows := step_grows hStep
  have hOld : ∀ o ∈ s.log i X, s'.Backed i X o := fun o ho => (h.backed i X o ho).mono hGrows
  cases (step_cases hStep).2 i X with
  | restart hNone hLog | other hSame hLog =>
    rw [hLog]
    exact hOld
  | move hEvent hMove hLog =>
    subst hEvent
    rw [hLog]
    refine forall_mem_append.mpr ⟨hOld, ?_⟩
    cases hMove with
    | keep hSame | drop hNone => exact fun o ho => by cases ho
    | start => simp [Backed]
    | accept hRelay hAccept =>
      subst hRelay
      -- the signature has verified, so the sender has made it
      obtain ⟨ephPub, sig, hParse, hVerify, rfl, rfl⟩ := hsAccept_eq_ok.mp hAccept
      refine forall_mem_singleton.mpr (Backed.mono hGrows ⟨ephPub, sig, hParse, rfl, ?_⟩)
      exact hOk.signed hParse (.inl rfl) hVerify
    | finish hRelay hWas hFinish =>
      subst hRelay
      obtain ⟨ephPub, sig, hParse, hVerify, rfl⟩ := hsFinish_eq_ok.mp hFinish
      obtain ⟨hPeer, hStarted⟩ := h.hs i X _ hWas
      rw [hPeer] at hVerify ⊢
      refine forall_mem_singleton.mpr (Backed.mono hGrows ⟨hStarted, ephPub, sig, hParse, rfl, ?_⟩)
      exact hOk.signed hParse (.inr rfl) hVerify

theorem Inv.step (h : s.Inv) (hOk : s.Unforged ev) (hStep : s.step ev = some s') : s'.Inv :=
  ⟨h.hs_step hStep, h.count_step hStep, h.backed_step hOk hStep⟩

/-! ## Two nodes to run the model on -/

section Vouch

def vouchId : Side → NodeId
  | .left => GmPq.padTo 32 [1]
  | .right => GmPq.padTo 32 [2]

def vouchable : List Bytes :=
  [signCtx hsInitLabel (GmPq.padTo 32 [11]) (vouchId .left) (vouchId .right),
    signCtx hsRespLabel (GmPq.padTo 32 [12]) (vouchId .right) (vouchId .left),
    signCtx hsInitLabel (GmPq.padTo 32 [13]) (vouchId .left) (vouchId .right)]

def vouch (msg : Bytes) : Fixed 64 := GmPq.padTo 64 [UInt8.ofNat (vouchable.idxOf msg)]

def vouchAlgorithms : Algorithms :=
  { dhAlgorithms with
    ed25519Sign := fun _ msg => vouch msg
    ed25519Verify := fun _ msg sig => sig = vouch msg }

theorem vouchAlgorithms_dhCommutes : vouchAlgorithms.DhCommutes := dhAlgorithms_dhCommutes

theorem msg_of_vouch {msg sig k} (h : sig = vouch msg) (hHead : sig.val[0]? = some k) :
    vouchable.idxOf msg = k.toNat := by
  have hLe : vouchable.idxOf msg ≤ 3 := idxOf_le_length
  rw [h] at hHead
  have hByte : UInt8.ofNat (vouchable.idxOf msg) = k := Option.some_inj.mp hHead
  rw [← hByte, UInt8.toNat_ofNat']
  omega

theorem msg_of_idxOf {msg k} (h : vouchable.idxOf msg = k) (hk : k < 3) :
    vouchable[k]? = some msg := by
  have hMem : msg ∈ vouchable := idxOf_lt_length_iff.mp (by rw [h]; exact hk)
  rw [← h]
  exact getElem?_idxOf hMem

def vouchEnv (eph : UInt8) : Env vouchAlgorithms where
  now := 0
  unixSecs := 0
  unixSecs_lt := plainEnv.unixSecs_lt
  eph := GmPq.padTo 32 [eph]
  rand₁ := ((4, 4) : UInt8 × UInt8)
  rand₂ := ((5, 5) : UInt8 × UInt8)

def vouchPair : ActiveRelay Side vouchAlgorithms where
  node side := ⟨.start (.start ⟨true, true, -(3600 * second)⟩ ⟨vouchId side⟩ false none
    (GmPq.padTo 32 [7]) none) second, []⟩
  log _ _ := []

theorem vouchPair_start : vouchPair.Start := ⟨fun _ => ⟨rfl, rfl⟩, fun _ _ => rfl⟩

def vouchedSig (s : ActiveRelay Side vouchAlgorithms) (k : UInt8) : Bool :=
  if k = 0 then .started (GmPq.padTo 32 [11]) ∈ s.log .left (vouchId .right)
  else if k = 1 then (s.log .right (vouchId .left)).any fun
    | .accepted _ eph _ => eph = GmPq.padTo 32 [12]
    | _ => false
  else k = 9

/-- The event is about the other node, and the signature of a frame is no news. -/
def vouched (s : ActiveRelay Side vouchAlgorithms) : ActiveEvent Side vouchAlgorithms → Bool
  | .act side e => e.target = some (vouchId side.other) && match e with
    | .relayData _ _ payload => s.id .left = vouchId .left && s.id .right = vouchId .right &&
      payload[34]?.any s.vouchedSig
    | _ => true
  | .restart _ => false

variable {s : ActiveRelay Side vouchAlgorithms} {ev : ActiveEvent Side vouchAlgorithms}

theorem signed_of_vouchedSig (hLeft : s.id .left = vouchId .left)
    (hRight : s.id .right = vouchId .right) {k} (h : s.vouchedSig k = true) {i label pub X}
    (hIdx : vouchable.idxOf (signCtx label pub (s.id i) X) = k.toNat) :
    s.Signed i (signCtx label pub (s.id i) X) := by
  unfold vouchedSig at h
  split at h
  · rename_i hk
    subst hk
    have hMsg := Option.some_inj.mp (msg_of_idxOf hIdx (by decide))
    obtain ⟨rfl, rfl, hId, rfl⟩ := signCtx_inj hMsg
    cases i with
    | left => exact ⟨vouchId .right, .inl ⟨_, of_decide_eq_true h, rfl⟩⟩
    | right =>
      rw [hRight] at hId
      exact absurd hId (by decide)
  · split at h
    · rename_i hk
      subst hk
      have hMsg := Option.some_inj.mp (msg_of_idxOf hIdx (by decide))
      obtain ⟨rfl, rfl, hId, rfl⟩ := signCtx_inj hMsg
      cases i with
      | left =>
        rw [hLeft] at hId
        exact absurd hId (by decide)
      | right =>
        obtain ⟨o, ho, hAccepted⟩ := any_eq_true.mp h
        split at hAccepted
        · rename_i init eph keys
          cases of_decide_eq_true hAccepted
          exact ⟨vouchId .left, .inr ⟨init, _, keys, ho, rfl⟩⟩
        · cases hAccepted
    · have hLe : vouchable.idxOf (signCtx label pub (s.id i) X) ≤ 3 := idxOf_le_length
      rw [hIdx, of_decide_eq_true h] at hLe
      exact absurd hLe (by decide)

theorem unforged_of_vouched (h : s.vouched ev = true) : s.Unforged ev := by
  unfold Unforged
  split
  · rename_i side env source payload
    simp only [vouched, Bool.and_eq_true, decide_eq_true_eq] at h
    obtain ⟨-, ⟨hLeft, hRight⟩, h⟩ := h
    obtain ⟨k, hByte, hk⟩ := (Option.any_eq_true _ _).mp h
    intro kind ephPub sig hParse i label hLabel pub X hVerify
    have hHead : sig.val[0]? = some k := by
      rw [← (parseHsMsg_eq_ok hParse).2, ← hByte]
      simp
    exact signed_of_vouchedSig hLeft hRight hk (msg_of_vouch (of_decide_eq_true hVerify) hHead)
  · exact trivial

theorem log_of_vouched (hRun : Run step (fun s ev => s.vouched ev = true) vouchPair s) (i : Side)
    (X : NodeId) (hX : X ≠ vouchId i.other) : s.log i X = [] := by
  refine hRun.invariant (I := fun s => s.log i X = []) rfl fun s s' ev hNil hOk hStep => ?_
  cases ev with
  | restart j => cases hOk
  | act j e =>
    obtain ⟨next, hNext, rfl⟩ := Option.map_eq_some_iff.mp hStep
    by_cases hi : i = j
    · subst hi
      obtain ⟨out, hPeer, -⟩ := (Timed.step_refines hNext).2 X
      have hTarget : e.target ≠ some X := by
        rw [of_decide_eq_true (Bool.and_eq_true_iff.mp hOk).1]
        exact fun hEq => hX (Option.some_inj.mp hEq).symm
      show update s.log i _ i X = []
      rw [update_self, hNil]
      exact hPeer.hsObs_eq_nil hTarget
    · show update s.log j _ i X = []
      rw [update_of_ne hi]
      exact hNil

theorem fresh_of_vouched (hRun : Run step (fun s ev => s.vouched ev = true) vouchPair s)
    (h : (s.drawnPublics .left (vouchId .right) ++ s.drawnPublics .right (vouchId .left)).Nodup) :
    s.Fresh := by
  obtain ⟨hLeft, hRight, hAcross⟩ := nodup_append.mp h
  have hNil : ∀ i X, X ≠ vouchId i.other → s.drawnPublics i X = [] := by
    intro i X hX
    rw [drawnPublics, log_of_vouched hRun i X hX]
    rfl
  refine ⟨fun i X => ?_, fun i X j Y hNe pub hi hj => ?_⟩
  · by_cases hX : X = vouchId i.other
    · subst hX
      cases i with
      | left => exact hLeft
      | right => exact hRight
    · rw [hNil i X hX]
      exact nodup_nil
  · -- a key of two logs: both are logs of the one node about the other
    have hX : X = vouchId i.other := by
      by_contra hX
      rw [hNil i X hX] at hi
      cases hi
    have hY : Y = vouchId j.other := by
      by_contra hY
      rw [hNil j Y hY] at hj
      cases hj
    subst hX
    subst hY
    cases i with
    | left =>
      cases j with
      | left => exact hNe rfl
      | right => exact hAcross pub hi pub hj rfl
    | right =>
      cases j with
      | left => exact hAcross pub hj pub hi rfl
      | right => exact hNe rfl

def vouchSend (eph : UInt8) : ActiveEvent Side vouchAlgorithms :=
  .act .left (.sendTo (vouchEnv eph) (.ok ()) (vouchId .right) [9])

def vouchInit : Bytes :=
  hsMsg vouchAlgorithms hsKindInit hsInitLabel ⟨vouchId .left⟩ (vouchId .right)
    (GmPq.padTo 32 [11])

def vouchResp : Bytes :=
  hsMsg vouchAlgorithms hsKindResp hsRespLabel ⟨vouchId .right⟩ (vouchId .left)
    (GmPq.padTo 32 [12])

def vouchAccept : ActiveEvent Side vouchAlgorithms :=
  .act .right (.relayData (vouchEnv 12) (vouchId .left) vouchInit)

def vouchAnswer (payload : Bytes) : ActiveEvent Side vouchAlgorithms :=
  .act .left (.relayData (vouchEnv 0) (vouchId .right) payload)

end Vouch

/-- **The handshake agrees, if it is the only one.** Diffie-Hellman commutes (`hDh`), no signature
of an honest node is forged (`Unforged`), no ephemeral key is drawn twice (`hFresh`), and node `i`
has started at most one handshake with `j` (`hOnce`). If `i` finishes it, `j` has accepted its INIT,
and both have one secret and the keys of the two roles. It is finished at most once, and its RESP
finishes no handshake of `i` with another node. -/
theorem finish_agrees (hDh : A.DhCommutes) (hStart : s₀.Start) (hRun : Run step Unforged s₀ s)
    (hFresh : s.Fresh) (i j : ι) (hOnce : s.starts i (s.id j) ≤ 1) :
    (∀ e resp keys, .finished e resp keys ∈ s.log i (s.id j) → ∃ init f keys' sig sig' shared,
      .accepted init f keys' ∈ s.log j (s.id i) ∧
      parseHsMsg init hsKindInit = ok (A.x25519Public e, sig) ∧
      parseHsMsg resp hsKindResp = ok (A.x25519Public f, sig') ∧
      A.x25519 e (A.x25519Public f) = shared ∧ A.x25519 f (A.x25519Public e) = shared ∧
      keys = hsKeys A shared (s.id i) (s.id j) .initiator ∧
      keys' = hsKeys A shared (s.id i) (s.id j) .responder) ∧
    s.finishes i (s.id j) ≤ 1 ∧
    ∀ j' e e' resp keys keys', .finished e resp keys ∈ s.log i (s.id j) →
      .finished e' resp keys' ∈ s.log i (s.id j') → j' = j := by
  have hInv := hRun.invariant hStart.inv fun _ _ _ h hOk hStep => h.step hOk hStep
  refine ⟨fun e resp keys hFinished => ?_, ?_, fun j' e e' resp keys keys' h h' => ?_⟩
  · obtain ⟨hStarted, init, f, keys', sig, sig', e', hAccepted, hStarted', hInit, hResp, hKeys,
      hKeys'⟩ := hInv.answered hFinished
    -- the peer may have answered any handshake of the node, but there is only this one
    cases started_unique hOnce hStarted hStarted'
    exact ⟨init, f, keys', sig, sig', _, hAccepted, hInit, hResp, rfl, (hDh e f).symm, hKeys,
      by rw [hDh e f]; exact hKeys'⟩
  · exact (Nat.le_add_right _ _).trans ((hInv.count i (s.id j)).trans hOnce)
  · obtain ⟨-, init, f, k, sig, sig', a, hAccepted, -, -, hResp, -⟩ := hInv.answered h
    obtain ⟨-, init', f', k', sig₂, sig₂', a', hAccepted', -, -, hResp', -⟩ := hInv.answered h'
    have hPub := (Prod.mk.inj (ok.inj (hResp.symm.trans hResp'))).1
    -- two peers would have drawn the same key
    by_contra hNe
    refine hFresh.2 j' (s.id i) j (s.id i) (fun hEq => hNe (Prod.mk.inj hEq).1)
      (mem_drawnPublics hAccepted') ?_
    rw [← hPub]
    exact mem_drawnPublics hAccepted

/-- The node starts a handshake, the other accepts it, and the answer comes. -/
theorem finish_agrees_plain : ∃ (s : ActiveRelay Side vouchAlgorithms) (e f : Fixed 32)
    (init resp : Bytes) (keys keys' : Fixed 32 × Fixed 32), s.starts .left (s.id .right) = 1 ∧
    .finished e resp keys ∈ s.log .left (s.id .right) ∧
    .accepted init f keys' ∈ s.log .right (s.id .left) := by
  obtain ⟨s, hRun, hTest⟩ := exists_run_of_exec step (fun s ev => s.vouched ev = true) vouchPair
    [vouchSend 11, vouchAccept, vouchAnswer vouchResp]
    (fun s => s.id .right = vouchId .right &&
      (s.drawnPublics .left (vouchId .right) ++ s.drawnPublics .right (vouchId .left)).Nodup &&
      s.starts .left (vouchId .right) = 1 &&
      (s.log .left (vouchId .right)).any HsObs.isFinish) (by decide +kernel)
  simp only [Bool.and_eq_true, decide_eq_true_eq] at hTest
  obtain ⟨⟨⟨hId, hNodup⟩, hOnce⟩, hFinish⟩ := hTest
  rw [← hId] at hOnce hFinish
  obtain ⟨o, ho, hFinished⟩ := any_eq_true.mp hFinish
  cases o with
  | started eph | accepted init eph keys => cases hFinished
  | finished e resp keys =>
    obtain ⟨init, f, keys', sig, sig', shared, hAccepted, -⟩ :=
      (finish_agrees vouchAlgorithms_dhCommutes vouchPair_start
        (hRun.mono fun _ _ => unforged_of_vouched) (fresh_of_vouched hRun hNodup) .left .right
        hOnce.le).1 e resp keys ho
    exact ⟨s, e, f, init, resp, keys, keys', hOnce, ho, hAccepted⟩

/-- A handshake is given up and another started, which the answer to the first finishes. -/
theorem not_finish_agrees : ∃ (A : Algorithms) (s₀ s : ActiveRelay Side A), A.DhCommutes ∧
    A.SignaturesVerify ∧ s₀.Start ∧ Run step Unforged s₀ s ∧ s.Fresh ∧
    ∃ e resp keys, .finished e resp keys ∈ s.log .left (s.id .right) ∧
      ∀ init f keys' sig, .accepted init f keys' ∈ s.log .right (s.id .left) →
        parseHsMsg init hsKindInit ≠ ok (A.x25519Public e, sig) := by
  obtain ⟨s, hRun, hTest⟩ := exists_run_of_exec step (fun s ev => s.vouched ev = true) vouchPair
    [vouchSend 11, vouchAccept,
      vouchAnswer ([hsTag, hsKindResp] ++ replicate 32 0 ++ replicate 64 9),
      vouchSend 13, vouchAnswer vouchResp]
    (fun s => s.id .right = vouchId .right && s.id .left = vouchId .left &&
      (s.drawnPublics .left (vouchId .right) ++ s.drawnPublics .right (vouchId .left)).Nodup &&
      (s.log .left (vouchId .right)).any (fun
        | .finished e _ _ => e = GmPq.padTo 32 [13]
        | _ => false) &&
      (s.log .right (vouchId .left)).all fun
        | .accepted init _ _ => init = vouchInit
        | _ => true) (by decide +kernel)
  simp only [Bool.and_eq_true, decide_eq_true_eq] at hTest
  obtain ⟨⟨⟨⟨hRight, hLeft⟩, hNodup⟩, hFinish⟩, hAccept⟩ := hTest
  obtain ⟨o, ho, hFinished⟩ := any_eq_true.mp hFinish
  split at hFinished
  · rename_i e resp keys
    refine ⟨vouchAlgorithms, vouchPair, s, vouchAlgorithms_dhCommutes,
      fun _ _ => decide_eq_true rfl, vouchPair_start,
      hRun.mono fun _ _ => unforged_of_vouched, fresh_of_vouched hRun hNodup,
      e, resp, keys, by rw [hRight]; exact ho, fun init f keys' sig hAccepted hParse => ?_⟩
    -- the only first message that was accepted has another key
    rw [hLeft] at hAccepted
    have hInit : init = vouchInit := of_decide_eq_true (all_eq_true.mp hAccept _ hAccepted)
    rw [hInit, vouchInit, parseHsMsg_hsMsg, of_decide_eq_true hFinished] at hParse
    exact absurd (Prod.mk.inj (ok.inj hParse)).1 (by decide)
  · cases hFinished

end ActiveRelay

end DirectWire.Mesh
