import DirectWire.Mesh.Relayed

/-!
# Mesh — the two ends of a GM-PQ channel

The GM-PQ handshake of two nodes over a relay that keeps order, with all that can happen beside
it. `GmMove` says how a step of one end changes its phase, whether it has fallen back, and the
kinds of the frames on the way; `Pending` says which message of the handshake is under way.

An end that is up waits for the BIND of the other, and may fall back after its own BIND has left.
A ciphertext of X25519 that starts with the tag of GM-PQ may end the channel too.
-/

namespace DirectWire.Mesh

open Lib Outcome List NodeId

variable {A : Algorithms}

/-! ## Kinds of frames -/

def gmKind : Bytes → Option UInt8
  | tag :: kind :: _ => if tag = gmTag then some kind else none
  | _ => none

def kinds (payloads : List Bytes) : List UInt8 := payloads.filterMap gmKind

@[simp] theorem kinds_append (xs ys : List Bytes) : kinds (xs ++ ys) = kinds xs ++ kinds ys :=
  filterMap_append

theorem gmKind_eq_none {payload} (h : payload.head? ≠ some gmTag) : gmKind payload = none := by
  unfold gmKind
  split
  · rename_i tag kind rest
    exact if_neg fun hTag => h (by rw [hTag]; rfl)
  · rfl

/-! ## Moves of one end -/

inductive Cause where
  | other
  | check
  | frame (kind : UInt8)

def Cause.kinds : Cause → List UInt8
  | .frame kind => [kind]
  | _ => []

/-- How a step changes the phase of an end and whether it has fallen back, and
the kinds of what it sends. -/
inductive GmMove (client : Prop) : Cause → GmPhase → Bool → GmPhase → Bool → List UInt8 → Prop where
  -- data is sent over a ready session only
  | keep {w ph f sent} (hSent : ∀ k ∈ sent, k = gmData ∧ ph = .ready) :
      GmMove client w ph f ph f sent
  | start {w} (hClient : client) : GmMove client w .idle false .waitCookie false [gmMsg1]
  | startFails {w} (hClient : client) : GmMove client w .idle false .idle true []
  | kick {w} (hServer : ¬ client) : GmMove client w .idle false .waitMsg1 false [gmKick]
  | serve {w} (hServer : ¬ client) : GmMove client w .idle false .waitMsg1 false []
  | cookie {ph f} (hServer : ¬ client) (hPhase : ph = .idle ∨ ph = .waitMsg1) :
      GmMove client (.frame gmMsg1) ph f .waitRetry f [Mesh.gmCookie]
  | retry {f} : GmMove client (.frame Mesh.gmCookie) .waitCookie f .waitMsg2 f [gmMsg1Retry]
  | respond {f} : GmMove client (.frame gmMsg1Retry) .waitRetry f .waitMsg3 f [gmMsg2]
  -- MSG3 and BIND go out together, in this order
  | finishClient {f} : GmMove client (.frame gmMsg2) .waitMsg2 f .unbound f [gmMsg3, gmData]
  | finishServer {f} : GmMove client (.frame gmMsg3) .waitMsg3 f .unbound f [gmData]
  | drop {kind ph f} (hKind : kind ∈ Actor.controlKinds) :
      GmMove client (.frame kind) ph f .idle f []
  | bound {f sent} (hSent : ∀ k ∈ sent, k = gmData) :
      GmMove client (.frame gmData) .unbound f .ready f sent
  | falls {ph f} (hIdle : ph ≠ .idle) (hReady : ph ≠ .ready) :
      GmMove client .check ph f .idle true []

theorem GmMove.silent {client w ph f} : GmMove client w ph f ph f [] :=
  .keep fun k hk => by cases hk

def HostEvent.cause (X : NodeId) : HostEvent A → Cause
  | .relayData _ source payload =>
    match gmKind payload with
    | some kind => if source = X then .frame kind else .other
    | none => .other
  | .gmCheck _ peer _ => if peer = X then .check else .other
  | _ => .other

/-- The key that messages to the peer are encrypted under in the X25519 session. -/
def PeerCore.sendKey (q : PeerCore A) : Option (Fixed 32) := q.keys.map Prod.fst

/-- None of the payloads is a ciphertext under the key that starts with the tag
of GM-PQ. -/
def Untagged (A : Algorithms) (key : Option (Fixed 32)) (payloads : List Bytes) : Prop :=
  ∀ p ∈ payloads, ∀ k n pt, key = some k → A.aeadEncrypt k (nonceBytes n) pt = some p →
    p.head? ≠ some gmTag

variable {key : Option (Fixed 32)} {k : UInt8}

theorem Untagged.append {xs ys} :
    Untagged A key (xs ++ ys) ↔ Untagged A key xs ∧ Untagged A key ys := by
  unfold Untagged
  simp only [forall_mem_append]

theorem Untagged.of_cons {x ys} (h : Untagged A key (x :: ys)) : Untagged A key ys := by
  rw [← singleton_append] at h
  exact (Untagged.append.mp h).2

section Machine

variable {c : NodeSetup A} {env : Env A} {X : NodeId} {e : HostEvent A} {q q' : PeerCore A}
  {direct : Bool} {out : List Effect} {w : Cause}

theorem PeerCore.Alike.sendKey (h : PeerCore.Alike q q') : q'.sendKey = q.sendKey := by
  unfold PeerCore.sendKey
  rw [h.keys]

variable {inner : Bytes}

theorem kinds_sealed {s s' checks ct} (hSession : q.session = some s)
    (hSeal : s.sealText A checks inner = ok (ct, s')) (hUntagged : Untagged A q.sendKey [ct]) :
    kinds [ct] = [] := by
  simp only [SessionCipher.sealText] at hSeal
  obtain ⟨ct', hEnc, hSeal⟩ := bind_eq_ok.mp hSeal
  obtain ⟨ctr, -, hSeal⟩ := bind_eq_ok.mp hSeal
  cases hSeal
  have hKey : q.sendKey = some s.send := by
    rw [PeerCore.sendKey, PeerCore.keys, hSession]
    rfl
  have hHead := hUntagged ct mem_cons_self s.send s.sendCtr inner hKey (okOr_eq_ok.mp hEnc)
  rw [kinds, filterMap_cons_none (gmKind_eq_none hHead)]
  rfl

theorem Sends.kinds_data (h : Sends c env X inner q q' out) (hCarries : c.Carries q)
    (hUntagged : Untagged A q.sendKey (frames out)) :
    ∀ k ∈ kinds (frames out), k = gmData ∧ q.phase = .ready := by
  intro k hk
  cases h with
  | gm hBuild hReady =>
    exact ⟨mem_singleton.mp hk, PeerCore.phase_of_gm hReady⟩
  | sealed hGm hSession hSeal =>
    have hNone := kinds_sealed hSession hSeal hUntagged
    exact absurd (hNone ▸ hk) not_mem_nil
  | lost hGm hSession => cases hk
  | queued hGm hSession => exact (hCarries.elim (· hSession) hGm).elim

theorem Flushes.kinds_data {inners} (h : Flushes c env X inners q q' out) (hCarries : c.Carries q)
    (hUntagged : Untagged A q.sendKey (frames out)) :
    ∀ k ∈ kinds (frames out), k = gmData ∧ q.phase = .ready := by
  induction h with
  | nil =>
    intro k hk
    cases hk
  | cons hFirst hRest ih =>
    rw [frames_append, Untagged.append] at hUntagged
    have hAlike := hFirst.alike hCarries
    rw [frames_append, kinds_append, forall_mem_append]
    refine ⟨hFirst.kinds_data hCarries hUntagged.1, ?_⟩
    rw [← hAlike.phase]
    exact ih (hCarries.alike hAlike) (by rw [hAlike.sendKey]; exact hUntagged.2)

theorem Hands.kinds_data (h : Hands c env X inner q q' out) (hCarries : c.Carries q)
    (hUntagged : Untagged A q.sendKey (frames out)) :
    ∀ k ∈ kinds (frames out), k = gmData ∧ q.phase = .ready := by
  cases h with
  | ping hSends => exact hSends.kinds_data hCarries hUntagged
  | data hInner | pong | nothing => exact fun k hk => by cases hk

theorem GmStarts.move (h : GmStarts c env X q q' out) (hNone : q.gm = none)
    (hOk : q.gmFailed = false) : GmMove (lt c.nodeId X) w q.phase q.gmFailed q'.phase
      q'.gmFailed (kinds (frames out)) := by
  rw [PeerCore.phase_eq_idle.mpr hNone, hOk]
  cases h with
  | offer hId hRole =>
    show GmMove _ w _ _ _ q.gmFailed _
    rw [hOk]
    exact .start hRole
  | fail hId hRole =>
    show GmMove _ w _ _ q.phase true _
    rw [PeerCore.phase_eq_idle.mpr hNone]
    exact .startFails hRole
  | kick hRole =>
    show GmMove _ w _ _ _ q.gmFailed _
    rw [hOk]
    exact .kick hRole

section

variable (hUntagged : Untagged A q'.sendKey (frames out))

include hUntagged

theorem Sends.move (h : Sends c env X inner q q' out) :
    GmMove (lt c.nodeId X) w q.phase q.gmFailed q'.phase q'.gmFailed (kinds (frames out)) := by
  by_cases hCarries : c.Carries q
  · -- what goes over a session changes neither phase
    have hAlike := h.alike hCarries
    rw [hAlike.phase, hAlike.gmFailed]
    exact .keep (h.kinds_data hCarries (by rwa [← hAlike.sendKey]))
  · cases h with
    | gm hBuild hReady =>
      exact (hCarries (NodeSetup.carries_of_ready hBuild hReady)).elim
    | sealed hGm hSession | lost hGm hSession =>
      exact (hCarries (.inl (by rw [hSession]; simp))).elim
    | queued hGm hSession hQueues =>
      cases hQueues with
      | gm hTries hNone hStarts =>
        exact hStarts.move hNone hTries.2.2.1
      | gmWaits | hs | hsWaits => exact .silent

omit hUntagged in
theorem GmMove.of_alike {client q₁ sent} (hAlike : PeerCore.Alike q₁ q')
    (hPhase : q₁.phase = q.phase) (hFailed : q₁.gmFailed = q.gmFailed)
    (hSent : ∀ k ∈ sent, k = gmData ∧ q₁.phase = .ready) :
    GmMove client w q.phase q.gmFailed q'.phase q'.gmFailed sent := by
  rw [hAlike.phase, hAlike.gmFailed, hPhase, hFailed]
  exact .keep fun k hk => ⟨(hSent k hk).1, hPhase ▸ (hSent k hk).2⟩

theorem GmFrame.move {kind body} (hBuild : c.build.gmPq = true)
    (h : GmFrame c env X kind body q q' out) :
    GmMove (lt c.nodeId X) (.frame kind) q.phase q.gmFailed q'.phase q'.gmFailed
      (kinds (frames out)) := by
  cases h with
  | ignore => exact .silent
  | start hOn hKind hNone hOk hStarts => exact hStarts.move hNone hOk
  | serve hOn hKind hRole hNone hOk =>
    rw [PeerCore.phase_eq_idle.mpr hNone]
    show GmMove _ _ _ q.gmFailed _ q.gmFailed _
    rw [hOk]
    exact .serve hRole
  | cookie hOn hKind hRole hAccepts hIssuer =>
    subst hKind
    refine .cookie hRole ?_
    unfold Actor.acceptsMsg1 at hAccepts
    split at hAccepts
    · rename_i hState
      exact .inl (PeerCore.phase_eq_idle.mpr hState)
    · rename_i hState
      exact .inr (PeerCore.phase_of_gm hState)
    · cases hAccepts
  | retry hOn hKind hState =>
    subst hKind
    rw [PeerCore.phase_of_gm hState]
    exact .retry
  | respond hOn hKind hState =>
    subst hKind
    rw [PeerCore.phase_of_gm hState]
    exact .respond
  | finishClient hOn hKind hState =>
    subst hKind
    rw [PeerCore.phase_of_gm hState]
    exact .finishClient
  | finishServer hOn hKind hState =>
    subst hKind
    rw [PeerCore.phase_of_gm hState]
    exact .finishServer
  | drop hOn hKind => exact .drop hKind
  | unbound hOn hKind hState | undecryptable hOn hKind hState =>
    rw [PeerCore.phase_of_gm hState]
    exact .silent
  | bound hOn hKind hState hRecv hBind hFlush =>
    subst hKind
    have hAlike := hFlush.alike (NodeSetup.carries_of_ready hBuild rfl)
    rw [PeerCore.phase_of_gm hState, hAlike.phase, hAlike.gmFailed]
    refine .bound fun k hk => ?_
    rw [hAlike.sendKey] at hUntagged
    exact (hFlush.kinds_data (NodeSetup.carries_of_ready hBuild rfl) hUntagged k hk).1
  | data hOn hKind hState hRecv hHands =>
    have hAlike := hHands.alike (NodeSetup.carries_of_ready hBuild rfl)
    refine .of_alike hAlike (PeerCore.phase_of_gm hState).symm rfl ?_
    rw [hAlike.sendKey] at hUntagged
    exact hHands.kinds_data (NodeSetup.carries_of_ready hBuild rfl) hUntagged

theorem HsFrame.move {payload} (h : HsFrame c env X payload q q' out) :
    GmMove (lt c.nodeId X) w q.phase q.gmFailed q'.phase q'.gmFailed (kinds (frames out)) := by
  cases h with
  | ignoreInit | rejectInit | ignoreResp | rejectResp | unknown => exact .silent
  | accept hKind hSession hTurn hAccept hFlush =>
    have hAlike := hFlush.alike (.inl (by simp))
    -- the answer is no GM-PQ frame
    obtain ⟨-, -, -, -, -, rfl⟩ := hsAccept_eq_ok.mp hAccept
    have hUntagged' := hUntagged.of_cons
    exact .of_alike hAlike rfl rfl (hFlush.kinds_data (.inl (by simp)) (by rwa [← hAlike.sendKey]))
  | finish hKind hSession hHs hFinish hFlush =>
    have hAlike := hFlush.alike (.inl (by simp))
    exact .of_alike hAlike rfl rfl (hFlush.kinds_data (.inl (by simp)) (by rwa [← hAlike.sendKey]))

theorem CipherFrame.move {payload} (h : CipherFrame c env X payload q q' out) :
    GmMove (lt c.nodeId X) w q.phase q.gmFailed q'.phase q'.gmFailed (kinds (frames out)) := by
  cases h with
  | noSession | undecryptable => exact .silent
  | opens hSession hOpen hHands =>
    have hAlike := hHands.alike (.inl (by simp))
    exact .of_alike hAlike rfl rfl (hHands.kinds_data (.inl (by simp)) (by rwa [← hAlike.sendKey]))

theorem PeerStep.move (h : PeerStep c X direct e q q' out) :
    GmMove (lt c.nodeId X) (e.cause X) q.phase q.gmFailed q'.phase q'.gmFailed
      (kinds (frames out)) := by
  cases h with
  | idle => exact .silent
  | send hSends | ping hHas hSends => exact hSends.move hUntagged
  | receive hReceives =>
    cases hReceives with
    | gm hBuild hPayload hFrame =>
      subst hPayload
      show GmMove _ (if X = X then .frame _ else .other) _ _ _ _ _
      rw [if_pos rfl]
      exact hFrame.move hUntagged hBuild
    | hs hTag hFrame | cipher hGm hHs hFrame => exact hFrame.move hUntagged
  | check hChecks =>
    rw [HostEvent.cause, if_pos rfl]
    cases hChecks with
    | stale => exact .silent
    | falls hGen hReady hSome hNoNeed | restarts hGen hReady hSome hNeed =>
      refine .falls (fun hIdle => hSome (PeerCore.phase_eq_idle.mp hIdle)) fun hR => ?_
      rw [PeerCore.isReady_iff.mpr hR] at hReady
      cases hReady

end

theorem PeerStep.gen_of_falls {gen} (h : PeerStep c X direct (.gmCheck env X gen) q q' out)
    (hBefore : q.phase ≠ .idle) (hAfter : q'.phase = .idle) : gen = q.gmGen := by
  cases h with
  | idle => exact (hBefore hAfter).elim
  | check hChecks =>
    cases hChecks with
    | stale => exact (hBefore hAfter).elim
    | falls hGen | restarts hGen => exact hGen.symm

end Machine

/-! ## The two ends -/

def control (l : List UInt8) : List UInt8 := l.filter fun k => k ≠ gmData ∧ k ≠ gmKick

@[simp] theorem control_append (xs ys : List UInt8) :
    control (xs ++ ys) = control xs ++ control ys :=
  filter_append ..

theorem control_frame (hk : k ≠ gmData ∧ k ≠ gmKick) (l : List UInt8) :
    control ((Cause.frame k).kinds ++ l) = k :: control l :=
  filter_cons_of_pos (by simpa using hk)

theorem control_data {l} (h : ∀ k ∈ l, k = gmData) : control l = [] := by
  refine filter_eq_nil_iff.mpr fun k hk => ?_
  simp [h k hk]

theorem control_of_mem (h : k ∈ Actor.controlKinds) : k ≠ gmData ∧ k ≠ gmKick := by
  simp only [Actor.controlKinds, mem_cons, not_mem_nil, or_false] at h
  obtain rfl | rfl | rfl | rfl := h <;> decide

/-- The session is there; an end that is unbound waits for the other's BIND. -/
def GmPhase.Up (ph : GmPhase) : Prop := ph = .unbound ∨ ph = .ready

/-- The message of the handshake that is on the way, to the server and to the
client, and what the client waits for meanwhile, unless it has fallen back. -/
inductive Pending (pc : GmPhase) (fc : Bool) (ps : GmPhase) : List UInt8 → List UInt8 → Prop where
  | nothing : Pending pc fc ps [] []
  | msg1 (h : pc = .waitCookie ∨ (pc = .idle ∧ fc = true)) : Pending pc fc ps [gmMsg1] []
  | cookie (h : pc = .waitCookie ∨ (pc = .idle ∧ fc = true)) :
      Pending pc fc ps [] [Mesh.gmCookie]
  | retry (h : pc = .waitMsg2 ∨ (pc = .idle ∧ fc = true)) : Pending pc fc ps [gmMsg1Retry] []
  | msg2 (h : pc = .waitMsg2 ∨ (pc = .idle ∧ fc = true)) : Pending pc fc ps [] [gmMsg2]
  /-- After the client has fallen back, the server must not have waited for MSG3. -/
  | msg3 (h : pc.Up ∨ (pc = .idle ∧ fc = true) ∧ (ps = .idle ∨ ps = .waitMsg1)) :
      Pending pc fc ps [gmMsg3] []

namespace Pending

variable {pc pc' ps ps' : GmPhase} {fc : Bool} {cs ct cs' ct' xs ys : List UInt8} {k : UInt8}

theorem length_le (h : Pending pc fc ps cs ct) : cs.length + ct.length ≤ 1 := by
  cases h <;> decide

theorem of_suffix (h : Pending pc fc ps cs ct) (hFewer : cs' <:+ cs) (hFewer' : ct' <:+ ct) :
    Pending pc fc ps cs' ct' := by
  have hOne := h.length_le
  by_cases hSame : cs'.length = cs.length ∧ ct'.length = ct.length
  · rwa [hFewer.eq_of_length hSame.1, hFewer'.eq_of_length hSame.2]
  · have hLess := hFewer.length_le
    have hLess' := hFewer'.length_le
    obtain rfl : cs' = [] := length_eq_zero_iff.mp (by omega)
    obtain rfl : ct' = [] := length_eq_zero_iff.mp (by omega)
    exact .nothing

theorem client_head (h : Pending pc fc ps cs (k :: ys)) : cs = [] ∧ ys = [] ∧
    ((k = Mesh.gmCookie ∧ (pc = .waitCookie ∨ (pc = .idle ∧ fc = true))) ∨
      (k = gmMsg2 ∧ (pc = .waitMsg2 ∨ (pc = .idle ∧ fc = true)))) := by
  cases h with
  | cookie h => exact ⟨rfl, rfl, .inl ⟨rfl, h⟩⟩
  | msg2 h => exact ⟨rfl, rfl, .inr ⟨rfl, h⟩⟩

theorem server_head (h : Pending pc fc ps (k :: xs) ct) : ct = [] ∧ xs = [] ∧
    ((k = gmMsg1 ∧ (pc = .waitCookie ∨ (pc = .idle ∧ fc = true))) ∨
      (k = gmMsg1Retry ∧ (pc = .waitMsg2 ∨ (pc = .idle ∧ fc = true))) ∨
      (k = gmMsg3 ∧ (pc.Up ∨ (pc = .idle ∧ fc = true) ∧ (ps = .idle ∨ ps = .waitMsg1)))) := by
  cases h with
  | msg1 h => exact ⟨rfl, rfl, .inl ⟨rfl, h⟩⟩
  | retry h => exact ⟨rfl, rfl, .inr (.inl ⟨rfl, h⟩)⟩
  | msg3 h => exact ⟨rfl, rfl, .inr (.inr ⟨rfl, h⟩)⟩

theorem of_idle (h : Pending .idle false ps cs ct) : cs = [] ∧ ct = [] := by
  cases h with
  | nothing => exact ⟨rfl, rfl⟩
  | msg1 h | cookie h | retry h | msg2 h => simp at h
  | msg3 h => simp [GmPhase.Up] at h

theorem server_moves (h : Pending pc fc ps cs ct)
    (hPs : ps = .idle ∨ ps = .waitMsg1 → ps' = .idle ∨ ps' = .waitMsg1) :
    Pending pc fc ps' cs ct := by
  cases h with
  | nothing => exact .nothing
  | msg1 h => exact .msg1 h
  | cookie h => exact .cookie h
  | retry h => exact .retry h
  | msg2 h => exact .msg2 h
  | msg3 h => exact .msg3 (h.imp (fun hUp => hUp) (And.imp_right hPs))

theorem client_binds (h : Pending .unbound fc ps cs ct) : Pending .ready fc ps cs ct := by
  cases h with
  | nothing => exact .nothing
  | msg1 h | cookie h | retry h | msg2 h => simp at h
  | msg3 => exact .msg3 (.inl (.inr rfl))

theorem client_falls (h : Pending pc fc ps cs ct) (hReady : pc ≠ .ready)
    (hPs : pc = .unbound → ps = .idle) : Pending .idle true ps cs ct := by
  cases h with
  | nothing => exact .nothing
  | msg1 => exact .msg1 (.inr ⟨rfl, rfl⟩)
  | cookie => exact .cookie (.inr ⟨rfl, rfl⟩)
  | retry => exact .retry (.inr ⟨rfl, rfl⟩)
  | msg2 => exact .msg2 (.inr ⟨rfl, rfl⟩)
  | msg3 h =>
    refine .msg3 (.inr ⟨⟨rfl, rfl⟩, ?_⟩)
    rcases h with (hUnbound | hR) | ⟨-, hServer⟩
    · exact .inl (hPs hUnbound)
    · exact (hReady hR).elim
    · exact hServer

end Pending

/-- What holds of the two ends and of the frames on the way. -/
structure Settled (pc : GmPhase) (fc : Bool) (ps : GmPhase) (toServer toClient : List UInt8) :
    Prop where
  pending : Pending pc fc ps (control toServer) (control toClient)
  data : gmData ∈ toClient ∨ pc = .ready → ps.Up
  up : ps.Up → pc.Up ∧ control toServer = []

namespace Settled

variable {client : Prop} {w : Cause} {pc pc' ps ps' : GmPhase} {fc fc' fs fs' : Bool}
  {toServer toClient rest sent : List UInt8}

theorem of_down (hPending : Pending pc fc ps (control toServer) (control toClient))
    (hDown : ¬ ps.Up) (hData : gmData ∉ toClient) (hReady : pc ≠ .ready) :
    Settled pc fc ps toServer toClient :=
  ⟨hPending, fun h => (h.elim hData hReady).elim, fun h => (hDown h).elim⟩

theorem noData (h : Settled pc fc ps toServer toClient) (hDown : ¬ ps.Up) :
    gmData ∉ toClient ∧ pc ≠ .ready :=
  ⟨fun hData => hDown (h.data (.inl hData)), fun hReady => hDown (h.data (.inr hReady))⟩

theorem client_step (h : Settled pc fc ps toServer (w.kinds ++ rest)) (hClient : client)
    (hMove : GmMove client w pc fc pc' fc' sent)
    (hFalls : w = .check → pc = .unbound → pc' = .idle → ps = .idle) :
    Settled pc' fc' ps (toServer ++ sent) rest := by
  -- before the client is up, the server is not either
  have hBefore : ¬ pc.Up → pc' ≠ .ready →
      Pending pc' fc' ps (control (toServer ++ sent)) (control rest) →
      Settled pc' fc' ps (toServer ++ sent) rest := by
    intro hPc hReady hPending
    have hDown : ¬ ps.Up := fun hUp => hPc (h.up hUp).1
    exact of_down hPending hDown (fun hData => (h.noData hDown).1 (mem_append_right _ hData)) hReady
  have hPending : Pending pc fc ps (control toServer) (control rest) := by
    refine h.pending.of_suffix (suffix_refl _) ?_
    rw [control_append]
    exact suffix_append _ _
  have hFrame : ∀ {k : UInt8}, w = .frame k → k ≠ gmData ∧ k ≠ gmKick →
      Pending pc fc ps (control toServer) (k :: control rest) := by
    rintro k rfl hk
    rw [← control_frame hk]
    exact h.pending
  cases hMove with
  | keep hSent =>
    have hNone : control sent = [] := control_data fun k hk => (hSent k hk).1
    refine ⟨?_, fun hData => h.data (hData.imp (mem_append_right _) fun hR => hR), fun hUp => ?_⟩
    · rw [control_append, hNone, append_nil]
      exact hPending
    · rw [control_append, hNone, append_nil]
      exact h.up hUp
  | start =>
    obtain ⟨hServer, hRest⟩ := hPending.of_idle
    refine hBefore (by simp [GmPhase.Up]) (by simp) ?_
    rw [control_append, hServer, hRest]
    exact .msg1 (.inl rfl)
  | startFails =>
    obtain ⟨hServer, hRest⟩ := hPending.of_idle
    refine hBefore (by simp [GmPhase.Up]) (by simp) ?_
    rw [append_nil, hServer, hRest]
    exact .nothing
  | kick hRole | serve hRole | cookie hRole => exact (hRole hClient).elim
  | retry =>
    obtain ⟨hServer, hRest, -⟩ := (hFrame rfl (by decide)).client_head
    refine hBefore (by simp [GmPhase.Up]) (by simp) ?_
    rw [control_append, hServer, hRest]
    exact .retry (.inl rfl)
  | respond | finishServer =>
    -- these messages are never on the way to the client
    obtain ⟨-, -, ⟨hk, -⟩ | ⟨hk, -⟩⟩ := (hFrame rfl (by decide)).client_head
    all_goals exact absurd hk (by decide)
  | finishClient =>
    obtain ⟨hServer, hRest, -⟩ := (hFrame rfl (by decide)).client_head
    refine hBefore (by simp [GmPhase.Up]) (by simp) ?_
    rw [control_append, hServer, hRest]
    exact .msg3 (.inl (.inl rfl))
  | drop hKind =>
    obtain ⟨hServer, hRest, hWaits⟩ := (hFrame rfl (control_of_mem hKind)).client_head
    have hNotUp : ¬ pc.Up := by
      rcases hWaits with ⟨-, rfl | ⟨rfl, -⟩⟩ | ⟨-, rfl | ⟨rfl, -⟩⟩ <;> simp [GmPhase.Up]
    refine hBefore hNotUp (by simp) ?_
    rw [append_nil, hServer, hRest]
    exact .nothing
  | bound hSent =>
    -- the data it was bound by is from a server that is up
    have hNone : control sent = [] := control_data hSent
    have hUp : ps.Up := h.data (.inl mem_cons_self)
    refine ⟨?_, fun _ => hUp, fun _ => ⟨.inr rfl, ?_⟩⟩
    · rw [control_append, hNone, append_nil]
      exact hPending.client_binds
    · rw [control_append, hNone, append_nil]
      exact (h.up hUp).2
  | falls hIdle hReady =>
    -- an end that is unbound falls back only after the server has, so the server is down
    have hDown : ¬ ps.Up := by
      intro hUp
      rcases (h.up hUp).1 with hUnbound | hR
      · rw [hFalls rfl hUnbound rfl] at hUp
        simp [GmPhase.Up] at hUp
      · exact hReady hR
    refine of_down ?_ hDown ?_ (by simp)
    · rw [append_nil]
      exact hPending.client_falls hReady fun hUnbound => hFalls rfl hUnbound rfl
    · exact fun hData => (h.noData hDown).1 (mem_append_right _ hData)

theorem server_step (h : Settled pc fc ps (w.kinds ++ rest) toClient) (hServer : ¬ client)
    (hMove : GmMove client w ps fs ps' fs' sent)
    (hFalls : w = .check → ps = .unbound → ps' = .idle → pc = .idle) :
    Settled pc fc ps' rest (toClient ++ sent) := by
  have hPending : Pending pc fc ps (control rest) (control toClient) := by
    refine h.pending.of_suffix ?_ (suffix_refl _)
    rw [control_append]
    exact suffix_append _ _
  have hFrame : ∀ {k : UInt8}, w = .frame k → k ≠ gmData ∧ k ≠ gmKick →
      Pending pc fc ps (k :: control rest) (control toClient) := by
    rintro k rfl hk
    rw [← control_frame hk]
    exact h.pending
  -- a message of the handshake finds a server that is not up
  have hNotUp : ∀ {k : UInt8}, w = .frame k → k ≠ gmData ∧ k ≠ gmKick → ¬ ps.Up := by
    rintro k rfl hk hUp
    have hNone := (h.up hUp).2
    rw [control_frame hk] at hNone
    cases hNone
  have hStays : ¬ ps.Up → ¬ ps'.Up → gmData ∉ sent →
      Pending pc fc ps' (control rest) (control (toClient ++ sent)) →
      Settled pc fc ps' rest (toClient ++ sent) := by
    intro hDown hDown' hSent hPending
    refine of_down hPending hDown' (fun hData => ?_) (h.noData hDown).2
    exact (mem_append.mp hData).elim (h.noData hDown).1 hSent
  cases hMove with
  | keep hSent =>
    have hNone : control sent = [] := control_data fun k hk => (hSent k hk).1
    refine ⟨?_, ?_, fun hUp => ?_⟩
    · rw [control_append, hNone, append_nil]
      exact hPending
    · rintro (hData | hReady)
      · rcases mem_append.mp hData with hData | hData
        · exact h.data (.inl hData)
        · exact .inr (hSent _ hData).2
      · exact h.data (.inr hReady)
    · have hBoth := (h.up hUp).2
      rw [control_append] at hBoth
      exact ⟨(h.up hUp).1, (append_eq_nil_iff.mp hBoth).2⟩
  | start hRole | startFails hRole => exact (hServer hRole).elim
  | kick | serve =>
    refine hStays (by simp [GmPhase.Up]) (by simp [GmPhase.Up]) (by decide) ?_
    rw [control_append]
    exact (append_nil (control toClient)).symm ▸ hPending.server_moves fun _ => .inr rfl
  | cookie hRole hPhase =>
    obtain ⟨hClient, hRest, hWaits⟩ := (hFrame rfl (by decide)).server_head
    refine hStays (hNotUp rfl (by decide)) (by simp [GmPhase.Up]) (by decide) ?_
    rw [control_append, hClient, hRest]
    rcases hWaits with ⟨-, hWaits⟩ | ⟨hk, -⟩ | ⟨hk, -⟩
    · exact .cookie hWaits
    · exact absurd hk (by decide)
    · exact absurd hk (by decide)
  | retry | finishClient =>
    obtain ⟨-, -, ⟨hk, -⟩ | ⟨hk, -⟩ | ⟨hk, -⟩⟩ := (hFrame rfl (by decide)).server_head
    all_goals exact absurd hk (by decide)
  | respond =>
    obtain ⟨hClient, hRest, hWaits⟩ := (hFrame rfl (by decide)).server_head
    refine hStays (hNotUp rfl (by decide)) (by simp [GmPhase.Up]) (by decide) ?_
    rw [control_append, hClient, hRest]
    rcases hWaits with ⟨hk, -⟩ | ⟨-, hWaits⟩ | ⟨hk, -⟩
    · exact absurd hk (by decide)
    · exact .msg2 hWaits
    · exact absurd hk (by decide)
  | finishServer =>
    obtain ⟨hClient, hRest, ⟨hk, -⟩ | ⟨hk, -⟩ | ⟨-, hWaits⟩⟩ := (hFrame rfl (by decide)).server_head
    · exact absurd hk (by decide)
    · exact absurd hk (by decide)
    · -- the server waited for MSG3, so the client has not fallen back
      have hUp : pc.Up := hWaits.resolve_right fun hLost => by simp at hLost
      refine ⟨?_, fun _ => .inl rfl, fun _ => ⟨hUp, hRest⟩⟩
      rw [control_append, hClient, hRest]
      exact .nothing
  | drop hKind =>
    obtain ⟨hClient, hRest, -⟩ := (hFrame rfl (control_of_mem hKind)).server_head
    refine hStays (hNotUp rfl (control_of_mem hKind)) (by simp [GmPhase.Up]) (by decide) ?_
    rw [append_nil, hClient, hRest]
    exact .nothing
  | bound hSent =>
    -- the client was up when this server got up, and has not fallen back since
    have hNone : control sent = [] := control_data hSent
    obtain ⟨hUp, hBoth⟩ := h.up (.inl rfl)
    rw [control_append] at hBoth
    refine ⟨?_, fun _ => .inr rfl, fun _ => ⟨hUp, (append_eq_nil_iff.mp hBoth).2⟩⟩
    rw [control_append, hNone, append_nil]
    exact hPending.server_moves fun hPs => by simp at hPs
  | falls hIdle hReady =>
    have hDown : ¬ ps.Up := by
      rintro (rfl | hR)
      · have hUp := (h.up (.inl rfl)).1
        rw [hFalls rfl rfl rfl] at hUp
        simp [GmPhase.Up] at hUp
      · exact hReady hR
    refine hStays hDown (by simp [GmPhase.Up]) (by decide) ?_
    rw [append_nil]
    exact hPending.server_moves fun _ => .inl rfl

end Settled

/-! ## Runs -/

theorem HostEvent.cause_kinds_of_local {X : NodeId} {e : HostEvent A}
    (h : e.isFrom X = false) : (e.cause X).kinds = [] := by
  cases e with
  | relayData env source =>
    have hNe : source ≠ X := by simpa [HostEvent.isFrom] using h
    simp only [HostEvent.cause, if_neg hNe]
    split <;> rfl
  | gmCheck =>
    simp only [HostEvent.cause]
    split <;> rfl
  | _ => rfl

theorem kinds_cons (env : Env A) (X : NodeId) (payload : Bytes) (rest : List Bytes) :
    kinds (payload :: rest) =
      ((HostEvent.relayData env X payload).cause X).kinds ++ kinds rest := by
  unfold kinds
  cases hKind : gmKind payload with
  | none => simp [filterMap_cons_none hKind, HostEvent.cause, hKind, Cause.kinds]
  | some => simp [filterMap_cons_some hKind, HostEvent.cause, hKind, Cause.kinds]

namespace Relayed

variable {s s' s₀ : Relayed A} {ev : RelayedEvent A} {i : Side}

/-- The timer of an end runs out while it waits for the BIND of the other, which
has not given up on the channel. -/
def GivesUp (s : Relayed A) : RelayedEvent A → Prop
  | .act side (.gmCheck _ peer gen) => peer = s.id side.other ∧ gen = (s.core side).gmGen ∧
      (s.core side).phase = .unbound ∧ (s.core side.other).phase ≠ .idle
  | _ => False

/-- No end restarts or gives up in the last phase, and no ciphertext of an X25519
session that an end sends looks like a GM-PQ frame. -/
structure KeepsChannel (s : Relayed A) (ev : RelayedEvent A) : Prop where
  runs : s.NoRestart ev
  patient : ¬ s.GivesUp ev
  untagged : ∀ s' side, s.step ev = some s' →
    Untagged A (s'.core side).sendKey ((s'.queue side.other).drop (s.queue side.other).length)

/-- What holds in every state, with `i` the client. -/
structure ChannelInv (s : Relayed A) (i : Side) : Prop where
  role : lt (s.id i) (s.id i.other)
  settled : Settled (s.core i).phase (s.core i).gmFailed (s.core i.other).phase
    (kinds (s.queue i.other)) (kinds (s.queue i))

theorem ChannelInv.moves {side e out} {q : Side → List Bytes} (h : s.ChannelInv i)
    (hMoves : Moves { s with queue := q } s' side e out)
    (hTaken : kinds (s.queue side) = (e.cause (s.id side.other)).kinds ++ kinds (q side))
    (hOther : q side.other = s.queue side.other)
    (hUntagged : Untagged A (s'.core side).sendKey (frames out))
    (hFalls : e.cause (s.id side.other) = .check → (s.core side).phase = .unbound →
      (s'.core side).phase = .idle → (s.core side.other).phase = .idle) : s'.ChannelInv i := by
  have hMove := hMoves.peer.move hUntagged
  have hSetup : s'.setup = s.setup := hMoves.setup
  have hCore : s'.core side.other = s.core side.other := hMoves.other
  have hQueue : s'.queue side = q side := hMoves.queue
  have hSent : s'.queue side.other = s.queue side.other ++ frames out := by
    rw [← hOther]
    exact hMoves.sent
  refine ⟨by unfold id; rw [hSetup]; exact h.role, ?_⟩
  have hSettled := h.settled
  -- the end that moved is the client or the server
  rcases Side.eq_or_eq_other i side with rfl | rfl
  · rw [hTaken] at hSettled
    rw [hCore, hSent, hQueue, kinds_append]
    exact hSettled.client_step h.role hMove hFalls
  · rw [hTaken] at hSettled
    rw [Side.other_other] at hCore hSent hFalls
    rw [hCore, hSent, hQueue, kinds_append]
    refine hSettled.server_step ?_ hMove ?_
    · rw [Side.other_other]
      exact lt_asymm h.role
    · rwa [Side.other_other]

theorem ChannelInv.step (h : s.ChannelInv i) (hOk : s.KeepsChannel ev)
    (hStep : s.step ev = some s') : s'.ChannelInv i := by
  rcases step_cases hStep with ⟨side, e, out, rfl, hLocal, hMoves⟩ |
    ⟨side, env, payload, rest, out, rfl, hHead, hMoves⟩ | ⟨side, rfl, -⟩
  · refine h.moves hMoves ?_ rfl ?_ ?_
    · rw [HostEvent.cause_kinds_of_local hLocal]
      rfl
    · have hUntagged := hOk.untagged s' side hStep
      rwa [hMoves.sent, drop_left] at hUntagged
    · -- the timer was that of this handshake, so the other end has given up before
      intro hCause hUnbound hIdle
      cases e with
      | gmCheck env peer gen =>
        have hPeer : peer = s.id side.other := by
          by_contra hNe
          rw [HostEvent.cause, if_neg hNe] at hCause
          cases hCause
        subst hPeer
        have hGen := hMoves.peer.gen_of_falls (by rw [hUnbound]; simp) hIdle
        by_contra hOther
        exact hOk.patient ⟨rfl, hGen, hUnbound, hOther⟩
      | relayData env source payload =>
        simp only [HostEvent.cause] at hCause
        split at hCause
        · split at hCause <;> cases hCause
        · cases hCause
      | _ => cases hCause
  · have hOther : Function.update s.queue side rest side.other = s.queue side.other :=
      Function.update_of_ne side.other_ne _ _
    refine h.moves hMoves ?_ hOther ?_ ?_
    · rw [hHead, kinds_cons env (s.id side.other), Function.update_self]
    · have hUntagged := hOk.untagged s' side hStep
      rw [hMoves.sent] at hUntagged
      dsimp only at hUntagged
      rwa [hOther, drop_left] at hUntagged
    · intro hCause
      simp only [HostEvent.cause] at hCause
      split at hCause
      · split at hCause <;> cases hCause
      · cases hCause
  · exact hOk.runs.elim

def gmPair : Relayed plainAlgorithms where
  node side :=
    let sk : UInt8 := match side with
      | .left => 1
      | .right => 2
    ⟨.start (plainNode sk) second, []⟩
  queue _ := []

/-- The client has a message, and the handshake for it runs until the server has
the client's BIND. -/
def gmHandshake : List (RelayedEvent plainAlgorithms) :=
  [.act .left (.sendTo plainEnv (.ok ()) (gmPair.id .right) [9]), .deliver .right plainEnv,
    .deliver .left plainEnv, .deliver .right plainEnv, .deliver .left plainEnv,
    .deliver .right plainEnv, .deliver .right plainEnv]

end Relayed

end DirectWire.Mesh
