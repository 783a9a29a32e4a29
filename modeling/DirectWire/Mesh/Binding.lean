import DirectWire.Mesh.Channel

/-!
# Mesh — a GM-PQ session is used only after it is bound

What ties a session to the node it is meant for is the BIND message: the node's id and its
signature over the fingerprint of the authenticated key, the id and the session.

The history of a peer is written beside the run, from what each handler computes: that a handshake
has finished, that a packet of the session was opened, what was encrypted on it, and what was
reported from what was opened.
-/

namespace DirectWire.Mesh

open Lib Outcome List

variable {A : Algorithms}

/-! ## The history of a peer -/

inductive GmObs where
  /-- A handshake has finished with a session and the peer's static key. -/
  | established (sessionId : Fixed 32) (peerGmPk : Bytes)
  | received (plaintext : Bytes)
  | sealed (plaintext : Bytes)
  /-- An event for the application, from what was opened. -/
  | reported (event : NodeEvent)
deriving DecidableEq

namespace GmObs

/-- The session is used: for a message of the node, a ping or a pong, or for an
event. -/
def Uses : GmObs → Prop
  | .sealed plaintext => plaintext.head? = some innerData ∨ plaintext.head? = some innerPing ∨
      plaintext.head? = some innerPong
  | .reported _ => True
  | .established _ _ | .received _ => False

def isEstablished : GmObs → Bool
  | .established _ _ => true
  | _ => false

end GmObs

section Observe

def GmState.session : Option (GmState A) → Option GmPq.Session
  | some (.readyUnbound session _) | some (.ready session) => some session
  | _ => none

/-- The handshake that a frame finishes: the session, and the static key that was
authenticated. -/
def finished (c : NodeSetup A) (env : Env A) (gm : Option (GmState A)) (kind : UInt8)
    (body : Bytes) : Option (GmPq.Session × Bytes) :=
  match gm with
  -- the client has its session when it has written MSG3
  | some (.clientWaitMsg2 init) =>
    if kind = gmMsg2 then
      (init.readMsg2 A.gm body >>= fun init =>
        GmPq.Initiator.writeMsg3WithAuth A.gm init env.rand₁ env.rand₂ c.anchor).toOption.map
          fun (_, session, init) => (session, init.peerStatic.getD [])
    else none
  | some (.serverWaitMsg3 resp) =>
    if kind = gmMsg3 then
      (GmPq.Responder.readMsg3WithAuth A.gm resp body c.anchor).toOption.map Prod.fst
    else none
  | _ => none

def opened (gm : Option (GmState A)) (kind : UInt8) (body : Bytes) : Option Bytes :=
  match GmState.session gm with
  | some session =>
    if kind = gmData then
      match session.recv A.gm body with
      | ok (.ok plaintext, _) => some plaintext
      | _ => none
    else none
  | none => none

def gmFrameOf (c : NodeSetup A) (X : NodeId) : HostEvent A → Option (Env A × UInt8 × Bytes)
  | .relayData env source (tag :: kind :: body) =>
    if c.build.gmPq = true ∧ source = X ∧ tag = gmTag then some (env, kind, body) else none
  | _ => none

def sealedSince (gm gm' : Option (GmState A)) : List GmObs :=
  match GmState.session gm' with
  -- a session that was not there before has encrypted all of it in this step
  | some session =>
    (session.sealed.drop ((GmState.session gm).elim 0 (·.sealed.length))).map
      fun call => .sealed call.plaintext
  | none => []

def reports (out : List Effect) : List GmObs :=
  out.filterMap fun
    | .emit (.message source via payload) => some (.reported (.message source via payload))
    | .emit (.rttSample peer path rtt loss) => some (.reported (.rttSample peer path rtt loss))
    | _ => none

def frameObs (c : NodeSetup A) (env : Env A) (kind : UInt8) (body : Bytes) (q q' : PeerCore A)
    (out : List Effect) : List GmObs :=
  (finished c env q.gm kind body).toList.map
    (fun (session, pk) => .established session.sessionId pk) ++
      ((opened q.gm kind body).toList.map .received ++ (sealedSince q.gm q'.gm ++ reports out))

def gmObs (c : NodeSetup A) (X : NodeId) (e : HostEvent A) (q q' : PeerCore A)
    (out : List Effect) : List GmObs :=
  match gmFrameOf c X e with
  | none => sealedSince q.gm q'.gm
  | some (env, kind, body) => frameObs c env kind body q q' out

end Observe

/-! ## What a history says -/

variable {X : NodeId} {sid : Fixed 32} {pk : Bytes} {hist more pre post : List GmObs} {o : GmObs}

def Current (hist : List GmObs) (sid : Fixed 32) (pk : Bytes) : Prop :=
  ∃ before after, hist = before ++ .established sid pk :: after ∧
    ∀ o ∈ after, o.isEstablished = false

/-- A BIND of the peer was opened on the session of the last handshake, for the
key that handshake has authenticated. -/
def Bound (A : Algorithms) (X : NodeId) (hist : List GmObs) : Prop :=
  ∃ before sid pk after plaintext, hist = before ++ .established sid pk :: after ∧
    (∀ o ∈ after, o.isEstablished = false) ∧ .received plaintext ∈ after ∧
    IsBind A X pk sid plaintext

theorem Bound.append (h : Bound A X hist) (hMore : ∀ o ∈ more, o.isEstablished = false) :
    Bound A X (hist ++ more) := by
  obtain ⟨before, sid, pk, after, pt, rfl, hAfter, hReceived, hBind⟩ := h
  refine ⟨before, sid, pk, after ++ more, pt, by simp, ?_, mem_append_left _ hReceived, hBind⟩
  exact forall_mem_append.mpr ⟨hAfter, hMore⟩

theorem Current.bound (h : Current hist sid pk) {plaintext} (hBind : IsBind A X pk sid plaintext) :
    Bound A X (hist ++ [.received plaintext]) := by
  -- nothing was established since, so the BIND is of the current session
  obtain ⟨before, after, rfl, hAfter⟩ := h
  refine ⟨before, sid, pk, after ++ [.received plaintext], plaintext, by simp, ?_, by simp, hBind⟩
  exact forall_mem_append.mpr ⟨hAfter, by simp [GmObs.isEstablished]⟩

def UsesBound (A : Algorithms) (X : NodeId) (hist : List GmObs) : Prop :=
  ∀ pre o post, hist = pre ++ o :: post → o.Uses → Bound A X pre

theorem UsesBound.append (h : UsesBound A X hist)
    (hMore : ∀ pre o post, more = pre ++ o :: post → o.Uses → Bound A X (hist ++ pre)) :
    UsesBound A X (hist ++ more) := by
  intro pre o post hSplit hUses
  rcases append_eq_append_iff.mp hSplit with ⟨rest, rfl, hRest⟩ | ⟨rest, rfl, hRest⟩
  · exact hMore rest o post hRest hUses
  · -- the use is in the old part, or it is the first of the new one
    cases rest with
    | nil =>
      rw [append_nil] at *
      have := hMore [] o post hRest.symm hUses
      rwa [append_nil] at this
    | cons o' rest =>
      cases hRest
      exact h pre o rest rfl hUses

theorem UsesBound.append_unused (h : UsesBound A X hist) (hMore : ∀ o ∈ more, ¬ o.Uses) :
    UsesBound A X (hist ++ more) :=
  h.append fun pre o post hSplit hUses =>
    (hMore o (by rw [hSplit]; exact mem_append_right _ mem_cons_self) hUses).elim

theorem UsesBound.append_bound (h : UsesBound A X hist) (hBound : Bound A X hist)
    (hMore : ∀ o ∈ more, o.isEstablished = false) : UsesBound A X (hist ++ more) :=
  h.append fun pre o post hSplit _ =>
    hBound.append fun o' ho' => hMore o' (by rw [hSplit]; exact mem_append_left _ ho')

/-! ## Steps -/

def GmCarried (gm gm' : Option (GmState A)) : Prop :=
  gm' = gm ∨ ∃ session session', gm = some (.ready session) ∧ gm' = some (.ready session')

variable {gm gm' : Option (GmState A)}

theorem GmCarried.trans {gm''} (h : GmCarried gm gm') (h' : GmCarried gm' gm'') :
    GmCarried gm gm'' := by
  rcases h with rfl | ⟨s₁, s₂, rfl, rfl⟩
  · exact h'
  · rcases h' with rfl | ⟨s₃, s₄, -, rfl⟩
    · exact .inr ⟨s₁, s₂, rfl, rfl⟩
    · exact .inr ⟨s₁, s₄, rfl, rfl⟩

variable {c : NodeSetup A} {env : Env A} {e : HostEvent A} {q q' : PeerCore A} {out : List Effect}
  {direct : Bool}
  {inner : Bytes}

theorem Sends.carried (h : Sends c env X inner q q' out) (hCarries : c.Carries q) :
    GmCarried q.gm q'.gm := by
  cases h with
  | gm hBuild hReady => exact .inr ⟨_, _, hReady, rfl⟩
  | sealed | lost => exact .inl rfl
  | queued hGm hSession => exact (hCarries.elim (· hSession) hGm).elim

theorem Flushes.carried {inners} (h : Flushes c env X inners q q' out) (hCarries : c.Carries q) :
    GmCarried q.gm q'.gm := by
  induction h with
  | nil => exact .inl rfl
  | cons hFirst hRest ih =>
    exact (hFirst.carried hCarries).trans (ih (hCarries.alike (hFirst.alike hCarries)))

theorem Hands.carried (h : Hands c env X inner q q' out) (hCarries : c.Carries q) :
    GmCarried q.gm q'.gm := by
  cases h with
  | ping hSends => exact hSends.carried hCarries
  | data | pong | nothing => exact .inl rfl

theorem GmStarts.carried (h : GmStarts c env X q q' out) :
    GmCarried q.gm q'.gm ∨ GmState.session q'.gm = none := by
  cases h with
  | offer | kick => exact .inr rfl
  | fail => exact .inl (.inl rfl)

theorem Sends.carried_or (h : Sends c env X inner q q' out) :
    GmCarried q.gm q'.gm ∨ GmState.session q'.gm = none := by
  cases h with
  | gm hBuild hReady => exact .inl (.inr ⟨_, _, hReady, rfl⟩)
  | sealed | lost => exact .inl (.inl rfl)
  | queued hGm hSession hQueues =>
    cases hQueues with
    | gm hTries hNone hStarts => exact hStarts.carried
    | gmWaits | hs | hsWaits => exact .inl (.inl rfl)

theorem HsFrame.carried {payload} (h : HsFrame c env X payload q q' out) :
    GmCarried q.gm q'.gm := by
  cases h with
  | accept hKind hSession hTurn hAccept hFlush | finish hKind hSession hHs hFinish hFlush =>
    exact hFlush.carried (.inl (by simp))
  | _ => exact .inl rfl

theorem CipherFrame.carried {payload} (h : CipherFrame c env X payload q q' out) :
    GmCarried q.gm q'.gm := by
  cases h with
  | opens hSession hOpen hHands => exact hHands.carried (.inl (by simp))
  | _ => exact .inl rfl

/-! ## The history follows the node -/

/-- What the history says of a session that the node holds, and of all uses. -/
structure Watch (X : NodeId) (gm : Option (GmState A)) (hist : List GmObs) : Prop where
  unbound : ∀ session pk, gm = some (.readyUnbound session pk) → Current hist session.sessionId pk
  ready : ∀ session, gm = some (.ready session) → Bound A X hist
  uses : UsesBound A X hist

theorem sealedSince_established : ∀ o ∈ sealedSince gm gm', o.isEstablished = false := by
  intro o ho
  unfold sealedSince at ho
  split at ho
  · obtain ⟨call, -, rfl⟩ := mem_map.mp ho
    rfl
  · cases ho

theorem reports_established {out} : ∀ o ∈ reports out, o.isEstablished = false := by
  intro o ho
  obtain ⟨e, -, hEq⟩ := mem_filterMap.mp ho
  split at hEq
  · cases hEq
    rfl
  · cases hEq
    rfl
  · cases hEq

theorem sealedSince_eq_nil
    (h : (GmState.session gm').map (·.sealed) = (GmState.session gm).map (·.sealed)) :
    sealedSince gm gm' = [] := by
  unfold sealedSince
  split
  · rename_i session hSession
    rw [hSession] at h
    obtain ⟨before, hBefore, hSealed⟩ := Option.map_eq_some_iff.mp h.symm
    rw [hBefore, Option.elim_some, hSealed, drop_length]
    rfl
  · rfl

theorem sealedSince_of_none (h : GmState.session gm' = none) : sealedSince gm gm' = [] := by
  rw [sealedSince, h]

namespace Watch

theorem of_none (h : UsesBound A X hist) (hNone : GmState.session gm = none) : Watch X gm hist := by
  refine ⟨fun session pk hState => ?_, fun session hState => ?_, h⟩
  · rw [hState] at hNone
    cases hNone
  · rw [hState] at hNone
    cases hNone

theorem of_ready {session session'} (h : Watch (A := A) X (some (.ready session)) hist)
    (hMore : ∀ o ∈ more, o.isEstablished = false) :
    Watch (A := A) X (some (.ready session')) (hist ++ more) := by
  have hBound := h.ready session rfl
  refine ⟨fun _ _ hState => ?_, fun _ _ => hBound.append hMore, h.uses.append_bound hBound hMore⟩
  cases hState

theorem carried (h : Watch X gm hist) (hCarried : GmCarried gm gm') :
    Watch X gm' (hist ++ sealedSince gm gm') := by
  rcases hCarried with rfl | ⟨session, session', rfl, rfl⟩
  · rw [sealedSince_eq_nil rfl, append_nil]
    exact h
  · -- a ready session is bound, whatever is encrypted on it
    exact h.of_ready sealedSince_established

theorem carried_or (h : Watch X gm hist)
    (hOr : GmCarried gm gm' ∨ GmState.session gm' = none) :
    Watch X gm' (hist ++ sealedSince gm gm') := by
  rcases hOr with hCarried | hNone
  · exact h.carried hCarried
  · rw [sealedSince_of_none hNone, append_nil]
    exact of_none h.uses hNone

section Frames

variable {kind : UInt8} {body pt : Bytes} {session session' : GmPq.Session}

theorem opened_of_recv (hSession : GmState.session gm = some session)
    (hRecv : session.recv A.gm body = ok (.ok pt, session')) : opened gm gmData body = some pt := by
  simp [opened, hSession, hRecv]

theorem recv_of_opened (h : opened gm kind body = some pt) : kind = gmData ∧
    ∃ session session', GmState.session gm = some session ∧
      session.recv A.gm body = ok (.ok pt, session') := by
  unfold opened at h
  split at h
  · rename_i session hSession
    split at h
    · rename_i hKind
      split at h
      · rename_i pt' session' hRecv
        cases h
        exact ⟨hKind, session, session', hSession, hRecv⟩
      · cases h
    · cases h
  · cases h

theorem session_of_finished (h : finished c env gm kind body = some (session, pk)) :
    GmState.session gm = none := by
  unfold finished at h
  split at h
  · rfl
  · rfl
  · cases h

theorem gmFrame_finished (hFrame : GmFrame c env X kind body q q' out)
    (h : finished c env q.gm kind body = some (session, pk)) :
    GmState.session q'.gm = none ∨ ∃ pkt session', c.bindSession session = ok (pkt, session') ∧
      session.sealed = [] ∧ q'.gm = some (.readyUnbound session' pk) := by
  have hNone := session_of_finished h
  cases hFrame with
  | ignore => exact .inl hNone
  -- the frame may still be ignored, or end the handshake
  | start hOn hKind hGm hOk hStarts =>
    rcases hStarts.carried with hCarried | hAfter
    · rcases hCarried with hSame | ⟨s₁, s₂, hReady, -⟩
      · rw [hSame]
        exact .inl hNone
      · rw [hGm] at hReady
        cases hReady
    · exact .inl hAfter
  | serve | cookie | retry | respond | drop => exact .inl rfl
  | finishClient hOn hKind hState hRead hWrite hBind =>
    right
    subst hKind
    rw [hState] at h
    simp only [finished, if_true, hRead, ok_bind, hWrite] at h
    cases h
    have hAuth : GmPq.Party.writeMsg3 A.gm _ _ _ (some c.anchor) = _ := hWrite
    obtain ⟨-, -, -, -, -, -, hSealed⟩ := GmPq.Party.writeMsg3_spec hAuth
    exact ⟨_, _, hBind, hSealed, rfl⟩
  | @finishServer resp resp' _ _ _ _ hOn hKind hState hRead hBind =>
    right
    subst hKind
    rw [hState] at h
    simp only [finished, if_true, hRead] at h
    cases h
    have hAuth : GmPq.Party.readMsg3 A.gm resp body (some c.anchor) = ok (session, resp') := by
      rw [GmPq.Party.readMsg3, hRead]
      rfl
    obtain ⟨-, -, -, hSealed⟩ := GmPq.Party.readMsg3_spec hAuth
    exact ⟨_, _, hBind, hSealed, rfl⟩
  | unbound _ _ hState | bound _ _ hState | undecryptable _ _ hState | data _ _ hState =>
    rw [hState] at hNone
    cases hNone

theorem waits (h : Watch (A := A) X (some (.readyUnbound session pk)) hist)
    (hId : session'.sessionId = session.sessionId)
    (hMore : ∀ o ∈ more, o.isEstablished = false ∧ ¬ o.Uses) :
    Watch (A := A) X (some (.readyUnbound session' pk)) (hist ++ more) := by
  have hUses := h.uses.append_unused fun o ho => (hMore o ho).2
  refine ⟨fun s₁ pk₁ hState => ?_, fun _ hState => ?_, hUses⟩
  · cases hState
    rw [hId]
    obtain ⟨before, after, rfl, hAfter⟩ := h.unbound session pk rfl
    refine ⟨before, after ++ more, by simp, ?_⟩
    exact forall_mem_append.mpr ⟨hAfter, fun o ho => (hMore o ho).1⟩
  · cases hState

theorem received_unused : ∀ o ∈ [GmObs.received pt], o.isEstablished = false ∧ ¬ o.Uses := by
  intro o ho
  rw [mem_singleton.mp ho]
  exact ⟨rfl, fun hUses => hUses⟩

theorem session_eq_some (h : GmState.session gm = some session) :
    (∃ pk, gm = some (.readyUnbound session pk)) ∨ gm = some (.ready session) := by
  unfold GmState.session at h
  split at h
  · cases h
    exact .inl ⟨_, rfl⟩
  · cases h
    exact .inr rfl
  · cases h

theorem sealedSince_recv {r} (hRecv : session.recv A.gm body = ok (r, session')) :
    sealedSince (A := A) (some (.readyUnbound session pk)) (some (.readyUnbound session' pk)) =
      [] := by
  refine sealedSince_eq_nil ?_
  show some session'.sealed = some session.sealed
  rw [(GmPq.Session.recv_spec hRecv).2]

theorem bind (h : Watch (A := A) X (some (.readyUnbound session pk)) hist)
    (hBind : IsBind A X pk session.sessionId pt) (hMore : ∀ o ∈ more, o.isEstablished = false) :
    Watch (A := A) X (some (.ready session')) (hist ++ .received pt :: more) := by
  have hBound := (h.unbound session pk rfl).bound hBind
  have hUses : UsesBound A X (hist ++ [.received pt]) :=
    h.uses.append_unused fun o ho => (received_unused o ho).2
  rw [append_cons]
  refine ⟨fun _ _ hState => ?_, fun _ _ => hBound.append hMore, hUses.append_bound hBound hMore⟩
  cases hState

theorem buildBind_not_uses {me gmPk sid} : ¬ (GmObs.sealed (buildBind A me gmPk sid)).Uses := by
  have hHead : (buildBind A me gmPk sid).head? = some 66 := rfl
  show ¬ (_ = _ ∨ _ = _ ∨ _ = _)
  rw [hHead]
  decide

theorem establish (h : UsesBound A X hist) {pkt}
    (hBind : c.bindSession session = ok (pkt, session')) (hNew : session.sealed = [])
    (hBefore : GmState.session gm = none) :
    Watch (A := A) X (some (.readyUnbound session' pk)) (hist ++
      .established session.sessionId pk :: sealedSince gm (some (.readyUnbound session' pk))) := by
  obtain ⟨id, -, hSend⟩ := bind_eq_ok.mp hBind
  -- the one thing encrypted on the new session is our own BIND
  have hSealed : session'.sealed = _ := (GmPq.Session.send_spec hSend).2.2
  have hObs : sealedSince gm (some (.readyUnbound session' pk)) =
      [.sealed (buildBind A c.identity id.pk session.sessionId)] := by
    rw [sealedSince, hBefore]
    show map _ (drop 0 session'.sealed) = _
    rw [hSealed, hNew]
    rfl
  rw [hObs]
  refine ⟨fun s₁ pk₁ hState => ?_, fun _ hState => ?_, h.append_unused ?_⟩
  · cases hState
    rw [GmPq.Session.send_sessionId hSend]
    exact ⟨hist, _, rfl, by simp [GmObs.isEstablished]⟩
  · cases hState
  · intro o ho hUses
    rcases mem_cons.mp ho with rfl | ho
    · exact hUses
    · rw [mem_singleton.mp ho] at hUses
      exact buildBind_not_uses hUses

theorem reports_of_opened_none (hFrame : GmFrame c env X kind body q q' out)
    (h : opened q.gm kind body = none) : reports out = [] := by
  cases hFrame with
  | start hOn hKind hGm hOk hStarts => cases hStarts <;> rfl
  | bound hOn hKind hState hRecv hBind hFlush | data hOn hKind hState hRecv hHands =>
    rw [hKind, hState, opened_of_recv rfl hRecv] at h
    cases h
  | _ => rfl

theorem gmFrame_opened (hBuild : c.build.gmPq = true) (h : Watch X q.gm hist)
    (hFrame : GmFrame c env X kind body q q' out) (hOpened : opened q.gm kind body = some pt) :
    Watch X q'.gm (hist ++ .received pt :: (sealedSince q.gm q'.gm ++ reports out)) := by
  obtain ⟨rfl, session, session', hSession, hRecv⟩ := recv_of_opened hOpened
  have hMore : ∀ o ∈ sealedSince q.gm q'.gm ++ reports out, o.isEstablished = false :=
    forall_mem_append.mpr ⟨sealedSince_established, reports_established⟩
  cases hFrame with
  | ignore =>
    rw [sealedSince_eq_nil rfl]
    rcases session_eq_some hSession with ⟨pk, hState⟩ | hState
    · rw [hState] at h ⊢
      exact h.waits rfl received_unused
    · rw [hState] at h ⊢
      exact h.of_ready fun o ho => (received_unused o ho).1
  | unbound hOn hKind hState hRecv' =>
    rw [hState] at h ⊢
    rw [sealedSince_recv hRecv']
    exact h.waits (GmPq.Session.recv_sessionId hRecv') received_unused
  | bound hOn hKind hState hRecv' hBind hFlush =>
    rw [hState] at h
    rw [hState, opened_of_recv rfl hRecv'] at hOpened
    cases hOpened
    -- what was opened is the BIND; the queue is flushed after it
    have hIsBind := isBind_of_parseBind hBind
    rw [GmPq.Session.recv_sessionId hRecv'] at hIsBind
    rcases hFlush.carried (.inr ⟨hBuild, rfl⟩) with hSame | ⟨s₁, s₂, -, hReady⟩
    · rw [hSame] at hMore ⊢
      exact h.bind hIsBind hMore
    · rw [hReady] at hMore ⊢
      exact h.bind hIsBind hMore
  | undecryptable hOn hKind hState =>
    rw [hState] at h
    exact h.of_ready (forall_mem_cons.mpr ⟨rfl, hMore⟩)
  | data hOn hKind hState hRecv' hHands =>
    rw [hState] at h
    rcases hHands.carried (.inr ⟨hBuild, rfl⟩) with hSame | ⟨s₁, s₂, -, hReady⟩
    · rw [hSame] at hMore ⊢
      exact h.of_ready (forall_mem_cons.mpr ⟨rfl, hMore⟩)
    · rw [hReady] at hMore ⊢
      exact h.of_ready (forall_mem_cons.mpr ⟨rfl, hMore⟩)
  -- the other frames open nothing
  | start _ hKind | serve _ hKind | cookie _ hKind | retry _ hKind | respond _ hKind
  | finishClient _ hKind | finishServer _ hKind | drop _ hKind => exact absurd hKind (by decide)

theorem gmFrame_quiet (h : Watch X q.gm hist) (hFrame : GmFrame c env X kind body q q' out)
    (hFinished : finished c env q.gm kind body = none) (hOpened : opened q.gm kind body = none) :
    Watch X q'.gm (hist ++ sealedSince q.gm q'.gm) := by
  cases hFrame with
  | ignore => exact h.carried (.inl rfl)
  | start hOn hKind hGm hOk hStarts => exact h.carried_or hStarts.carried
  | unbound hOn hKind hState hRecv =>
    rw [hState] at h ⊢
    rw [sealedSince_recv hRecv]
    exact h.waits (GmPq.Session.recv_sessionId hRecv) (by simp)
  | undecryptable hOn hKind hState => exact h.carried (.inr ⟨_, _, hState, rfl⟩)
  | finishClient hOn hKind hState hRead hWrite hBind =>
    subst hKind
    simp only [hState, finished, if_true, hRead, ok_bind, hWrite] at hFinished
    cases hFinished
  | finishServer hOn hKind hState hRead hBind =>
    subst hKind
    simp only [hState, finished, if_true, hRead] at hFinished
    cases hFinished
  | bound hOn hKind hState hRecv hBind hFlush | data hOn hKind hState hRecv hHands =>
    rw [hKind, hState, opened_of_recv rfl hRecv] at hOpened
    cases hOpened
  | _ => exact h.carried_or (.inr rfl)

theorem gmFrame (hBuild : c.build.gmPq = true) (h : Watch X q.gm hist)
    (hFrame : GmFrame c env X kind body q q' out) :
    Watch X q'.gm (hist ++ frameObs c env kind body q q' out) := by
  unfold frameObs
  cases hFinished : finished c env q.gm kind body with
  | some r =>
    -- the handshake has finished: there was no session to open anything with
    obtain ⟨session, pk⟩ := r
    have hBefore := session_of_finished hFinished
    have hOpened : opened q.gm kind body = none := by rw [opened, hBefore]
    rw [hOpened, reports_of_opened_none hFrame hOpened, append_nil]
    rcases gmFrame_finished hFrame hFinished with hNone | ⟨pkt, session', hBind, hNew, hState⟩
    · rw [sealedSince_of_none hNone]
      refine of_none (h.uses.append_unused fun o ho hUses => ?_) hNone
      rw [mem_singleton.mp ho] at hUses
      exact hUses
    · rw [hState]
      exact establish h.uses hBind hNew hBefore
  | none =>
    cases hOpened : opened q.gm kind body with
    | some => exact h.gmFrame_opened hBuild hFrame hOpened
    | none =>
      rw [reports_of_opened_none hFrame hOpened, append_nil]
      exact h.gmFrame_quiet hFrame hFinished hOpened

end Frames

theorem other (h : Watch X q.gm hist) (hOther : gmFrameOf c X e = none)
    (hOr : GmCarried q.gm q'.gm ∨ GmState.session q'.gm = none) :
    Watch X q'.gm (hist ++ gmObs c X e q q' out) := by
  rw [gmObs, hOther]
  exact h.carried_or hOr

theorem gmFrameOf_eq_none {payload} (h : ¬ (c.build.gmPq = true ∧ payload.head? = some gmTag)) :
    gmFrameOf c X (.relayData env X payload) = none := by
  unfold gmFrameOf
  split
  · rename_i env' source tag kind body hEvent
    cases hEvent
    exact if_neg fun hFrame => h ⟨hFrame.1, congrArg some hFrame.2.2⟩
  · rfl

theorem gmFrameOf_of_passes (h : e.Passes c X direct q) : gmFrameOf c X e = none := by
  unfold gmFrameOf
  split
  · exact if_neg fun hFrame => h hFrame.2.1
  · rfl

theorem receives {payload} (h : Watch X q.gm hist) (hReceives : Receives c env X payload q q' out) :
    Watch X q'.gm (hist ++ gmObs c X (.relayData env X payload) q q' out) := by
  cases hReceives with
  | gm hBuild hPayload hFrame =>
    rename_i kind body
    have hGm : gmFrameOf c X (.relayData env X payload) = some (env, kind, body) := by
      rw [hPayload]
      exact if_pos ⟨hBuild, rfl, rfl⟩
    rw [gmObs, hGm]
    exact h.gmFrame hBuild hFrame
  | hs hTag hFrame =>
    refine h.other (gmFrameOf_eq_none ?_) (.inl hFrame.carried)
    rw [hTag]
    exact fun hGm => absurd hGm.2 (by decide)
  | cipher hGm hHs hFrame => exact h.other (gmFrameOf_eq_none hGm) (.inl hFrame.carried)

theorem step (h : Watch X q.gm hist) (hStep : PeerStep c X direct e q q' out) :
    Watch X q'.gm (hist ++ gmObs c X e q q' out) := by
  cases hStep with
  | idle hPasses => exact h.other (gmFrameOf_of_passes hPasses) (.inl (.inl rfl))
  | send hSends | ping hHas hSends => exact h.other rfl hSends.carried_or
  | receive hReceives => exact h.receives hReceives
  | check hChecks =>
    refine h.other rfl ?_
    cases hChecks with
    | stale => exact .inl (.inl rfl)
    | falls | restarts => exact .inr rfl

end Watch

/-! ## The node beside its histories -/

/-- A node, and what was seen of the GM-PQ sessions with each peer. -/
structure Watched (A : Algorithms) where
  node : Timed A
  seen : NodeId → List GmObs

namespace Watched

def step (s : Watched A) (e : HostEvent A) : Option (Watched A) :=
  (s.node.step e).map fun next =>
    { node := next
      seen := fun X => s.seen X ++ gmObs s.node.setup X e (s.node.core X) (next.core X)
        ((next.host.effectsFor X).drop (s.node.host.effectsFor X).length) }

structure Start (s : Watched A) : Prop where
  node : s.node.Start
  seen : ∀ X, s.seen X = []

def Inv (s : Watched A) : Prop := ∀ X, Watch X (s.node.core X).gm (s.seen X)

variable {s₀ s s' : Watched A}

theorem Start.inv (h : s.Start) : s.Inv := by
  intro X
  rw [h.node.core_eq X, h.seen X]
  refine Watch.of_none (fun pre o post hSplit => ?_) rfl
  simp at hSplit

theorem Inv.step (h : s.Inv) (hStep : s.step e = some s') : s'.Inv := by
  intro X
  obtain ⟨next, hNext, rfl⟩ := Option.map_eq_some_iff.mp hStep
  obtain ⟨out, hPeer, hEffects⟩ := (Timed.step_refines hNext).2 X
  show Watch X (next.core X).gm (s.seen X ++ gmObs _ X e _ _ (drop _ _))
  rw [hEffects, drop_left]
  exact (h X).step hPeer

/-- **A session is used only after it is bound.** Whatever a node has encrypted for the application
or reported of what a peer has sent (`Uses`) comes, in every run, after a BIND that was opened since
the last handshake with the peer: its id, with a signature under it that covers the key the
handshake has authenticated, the id and the session (`Bound`). -/
theorem used_after_bind (hStart : s₀.Start) (hRun : Run step Always s₀ s) {X : NodeId}
    {pre post : List GmObs} {o : GmObs} (hSeen : s.seen X = pre ++ o :: post) (hUses : o.Uses) :
    Bound A X pre := by
  have hInv : s.Inv := hRun.invariant hStart.inv fun _ _ _ h _ hStep => h.step hStep
  exact (hInv X).uses pre o post hSeen hUses

def toClient (n : Nat) : Bytes :=
  ((exec Relayed.step Always Relayed.gmPair (Relayed.gmHandshake.take n)).bind fun s =>
    (s.queue .left).head?).getD []

/-- The client of a handshake: its message is encrypted once the BIND of the
server has come. -/
theorem used_after_bind_client : ∃ s pre post,
    Run step Always ⟨Relayed.gmPair.node .left, fun _ => []⟩ s ∧
    s.seen (Relayed.gmPair.id .right) = pre ++ .sealed [1, 9] :: post ∧
      Bound plainAlgorithms (Relayed.gmPair.id .right) pre := by
  obtain ⟨s, hRun, hTest⟩ := exists_run_of_exec step Always
    ⟨Relayed.gmPair.node .left, fun _ => []⟩
    [.sendTo plainEnv (.ok ()) (Relayed.gmPair.id .right) [9],
      .relayData plainEnv (Relayed.gmPair.id .right) (toClient 2),
      .relayData plainEnv (Relayed.gmPair.id .right) (toClient 4),
      .relayData plainEnv (Relayed.gmPair.id .right) (toClient 6)]
    (fun s => decide ((s.seen (Relayed.gmPair.id .right)).getLast? = some (.sealed [1, 9])))
    (by decide +kernel)
  have hSeen := dropLast_append_getLast? _ (of_decide_eq_true hTest)
  exact ⟨s, _, _, hRun, hSeen.symm,
    used_after_bind ⟨⟨rfl, rfl⟩, fun _ => rfl⟩ hRun hSeen.symm (.inl rfl)⟩

end Watched

end DirectWire.Mesh
