import DirectWire.Mesh.Refine
import DirectWire.Mesh.Room

/-!
# Mesh — messages over an honest relay

Two nodes hold the two ends of an X25519 session, and the relay delivers every payload once and in
order. But the payloads are told apart by their first byte: a ciphertext that starts with a tag is
never opened, and the counts differ from then on.
-/

namespace DirectWire.Mesh

open Lib Outcome List

variable {A : Algorithms}

/-! ## The link -/

/-- A payload that is not taken for a ciphertext, because of its first byte. -/
def Tagged (build : Build) (payload : Bytes) : Prop :=
  (build.gmPq = true ∧ payload.head? = some gmTag) ∨ payload.head? = some hsTag

instance (build : Build) (payload : Bytes) : Decidable (Tagged build payload) :=
  inferInstanceAs (Decidable (_ ∨ _))

namespace Actor

def sentTo (a : Actor A) (id : NodeId) : List Bytes :=
  a.effects.filterMap fun
    | .send target payload => if target = id then some payload else none
    | _ => none

/-- The sending key and count of the X25519 session with a peer, when
messages to it go over that session. -/
def sendSide (a : Actor A) (id : NodeId) : Option (Fixed 32 × UInt64) :=
  (a.peers.lookup id).bind fun p =>
    match a.gmReady p with
    | some _ => none
    | none => p.session.map fun s => (s.send, s.sendCtr)

end Actor

/-- A sender, a receiver, and the payloads between them that the relay has
not delivered yet. -/
structure Link (A : Algorithms) where
  sender : Actor A
  receiver : Actor A
  queue : List Bytes

inductive LinkEvent (A : Algorithms) where
  /-- The sender passes a message to `relay_send_inner`. -/
  | send (env : Env A) (inner : Bytes)
  /-- The relay delivers the oldest payload, if there is one. -/
  | deliver (env : Env A)

def inners : List (LinkEvent A) → List Bytes
  | [] => []
  | .send _ inner :: events => inner :: inners events
  | .deliver _ :: events => inners events

/-- How many payloads a schedule leaves undelivered, of `n` at its start. -/
def undelivered : Nat → List (LinkEvent A) → Nat
  | n, [] => n
  | n, .send _ _ :: events => undelivered (n + 1) events
  | n, .deliver _ :: events => undelivered (n - 1) events

namespace Link

def step (l : Link A) : LinkEvent A → Outcome Empty (Link A)
  | .send env inner => do
    let sender ← l.sender.relaySendInner env l.receiver.nodeId inner
    -- what this call gave to the relay
    let sent := (sender.sentTo l.receiver.nodeId).drop (l.sender.sentTo l.receiver.nodeId).length
    ok { l with sender, queue := l.queue ++ sent }
  | .deliver env =>
    match l.queue with
    | [] => ok l
    | payload :: queue => do
      let receiver ← l.receiver.onRelayData env l.sender.nodeId payload
      ok { l with receiver, queue }

def run (l : Link A) : List (LinkEvent A) → Outcome Empty (Link A)
  | [] => ok l
  | e :: events => do
    let l ← l.step e
    l.run events

end Link

/-- The ciphertexts of messages sealed one after another from a count on. -/
def ciphertexts (A : Algorithms) (key : Fixed 32) : Nat → List Bytes → List Bytes
  | _, [] => []
  | ctr, inner :: rest =>
    (A.aeadEncrypt key (nonceBytes (UInt64.ofNat ctr)) inner).getD [] ::
      ciphertexts A key (ctr + 1) rest

@[simp] theorem length_ciphertexts (key : Fixed 32) (ctr : Nat) (msgs : List Bytes) :
    (ciphertexts A key ctr msgs).length = msgs.length := by
  induction msgs generalizing ctr with
  | nil => rfl
  | cons inner rest ih => simp [ciphertexts, ih]

theorem ciphertexts_append (key : Fixed 32) (ctr : Nat) (xs ys : List Bytes) :
    ciphertexts A key ctr (xs ++ ys) =
      ciphertexts A key ctr xs ++ ciphertexts A key (ctr + xs.length) ys := by
  induction xs generalizing ctr with
  | nil => simp [ciphertexts]
  | cons x xs ih =>
    simp only [cons_append, ciphertexts, ih, length_cons]
    rw [Nat.add_right_comm, Nat.add_assoc]

/-! ## Sending -/

namespace Actor

variable {env : Env A} {a : Actor A} {b : Actor A} {id source : NodeId} {key : Fixed 32}
  {ctr : UInt64}

theorem sendSide_eq_some (h : a.sendSide id = some (key, ctr)) :
    ∃ p s, a.peers.lookup id = some p ∧ a.gmReady p = none ∧ p.session = some s ∧
      s.send = key ∧ s.sendCtr = ctr := by
  obtain ⟨p, hPeer, h⟩ := Option.bind_eq_some_iff.mp h
  split at h
  · cases h
  · rename_i hReady
    obtain ⟨s, hSession, h⟩ := Option.map_eq_some_iff.mp h
    cases h
    exact ⟨p, s, hPeer, hReady, hSession, rfl, rfl⟩

theorem sendSide_of_session {p s} (hPeer : a.peers.lookup id = some p) (hReady : a.gmReady p = none)
    (hSession : p.session = some s) : a.sendSide id = some (s.send, s.sendCtr) := by
  rw [sendSide, hPeer, Option.bind_some, hReady, hSession]
  rfl

theorem relaySendInner_sends (hAead : A.AeadCorrect) (env : Env A) (inner : Bytes)
    (hSend : a.sendSide id = some (key, ctr)) (hCtr : ctr.toNat + 1 < 2 ^ 64) :
    ∃ b, a.relaySendInner env id inner = ok b ∧ b.sendSide id = some (key, ctr + 1) ∧
      b.identity = a.identity ∧
      b.sentTo id = a.sentTo id ++ ciphertexts A key ctr.toNat [inner] := by
  obtain ⟨p, s, hPeer, hReady, hSession, rfl, rfl⟩ := sendSide_eq_some hSend
  obtain ⟨ct, hEnc, -⟩ := hAead s.send (nonceBytes s.sendCtr) inner
  -- the count is below its end, so sealing gives the next one
  have hSeal : s.sealText A a.build.overflowChecks inner =
      ok (ct, { s with sendCtr := s.sendCtr + 1 }) := by
    simp only [SessionCipher.sealText, hEnc, okOr_some, ok_bind,
      addU64_of_lt (show s.sendCtr.toNat + (1 : UInt64).toNat < 2 ^ 64 from hCtr)]
  refine ⟨(a.setPeer id { p with session := some { s with sendCtr := s.sendCtr + 1 } }).sendData id
    ct, ?_, ?_, rfl, ?_⟩
  · simp only [relaySendInner, ensurePeer_known hPeer, getPeer_eq_ok.mpr hPeer, ok_bind, hReady,
      hSession, hSeal, attempt_ok]
  · exact sendSide_of_session (p := { p with session := some { s with sendCtr := s.sendCtr + 1 } })
      lookup_setPeer_self hReady rfl
  · simp [sentTo, sendData, addEffect, setPeer, ciphertexts, UInt64.ofNat_toNat, hEnc]

/-! ## Receiving -/

theorem recvSide_eq_some (h : a.recvSide id = some (key, ctr)) :
    ∃ p s, a.peers.lookup id = some p ∧ p.session = some s ∧ s.recv = key ∧ s.recvCtr = ctr := by
  obtain ⟨p, hPeer, h⟩ := Option.bind_eq_some_iff.mp h
  obtain ⟨s, hSession, h⟩ := Option.map_eq_some_iff.mp h
  cases h
  exact ⟨p, s, hPeer, hSession, rfl, rfl⟩

theorem recvSide_eq_recv (a : Actor A) (id : NodeId) : a.recvSide id = (a.core id).recv := by
  rw [recvSide, core]
  cases a.peers.lookup id with
  | none | some => rfl

def plainOf : Effect → Option Bytes
  | .plain _ inner => some inner
  | _ => none

theorem plainFrom_eq (a : Actor A) (id : NodeId) :
    a.plainFrom id = (a.effectsFor id).filterMap plainOf := by
  rw [effectsFor, filterMap_filter, plainFrom]
  refine filterMap_congr fun e _ => ?_
  cases e with
  | plain => simp [Effect.isFor, plainOf]
  | _ => simp [plainOf]

theorem Acts.handed {q c inner out} (h : Acts a b source q out)
    (hHands : Hands c env source inner (a.core source) q out) :
    b.recvSide source = a.recvSide source ∧ b.plainFrom source = a.plainFrom source ++ [inner] := by
  obtain ⟨rest, rfl, hRecv, hRest⟩ := hHands.handed
  constructor
  · rw [recvSide_eq_recv, recvSide_eq_recv, h.core, hRecv]
  · have hNone : rest.filterMap plainOf = [] := by
      refine filterMap_eq_nil_iff.mpr fun e he => ?_
      cases e with
      | plain other inner => exact absurd he (hRest other inner)
      | _ => rfl
    rw [plainFrom_eq, plainFrom_eq, h.effects, filterMap_append]
    rw [filterMap_cons, hNone]
    rfl

theorem onRelayData_opens (hAead : A.AeadCorrect) (hKem : A.kem.Total) {n} (env : Env A) {inner ct}
    (hRecv : a.recvSide source = some (key, ctr)) (hCtr : ctr.toNat + 1 < 2 ^ 64)
    (hRoom : a.HasRoom source (n + 1)) (hCt : ciphertexts A key ctr.toNat [inner] = [ct])
    (hTag : ¬ Tagged a.build ct) :
    ∃ b, a.onRelayData env source ct = ok b ∧ b.recvSide source = some (key, ctr + 1) ∧
      b.plainFrom source = a.plainFrom source ++ [inner] ∧ b.build = a.build ∧
      b.identity = a.identity ∧ b.HasRoom source n := by
  obtain ⟨p, s, hPeer, hSession, rfl, rfl⟩ := recvSide_eq_some hRecv
  obtain ⟨p', hPeer', hRoom⟩ := hRoom
  cases hPeer.symm.trans hPeer'
  have hEnc : A.aeadEncrypt s.recv (nonceBytes s.recvCtr) inner = some ct := by
    obtain ⟨ct', hEnc, -⟩ := hAead s.recv (nonceBytes s.recvCtr) inner
    simp only [ciphertexts, UInt64.ofNat_toNat, hEnc, Option.getD_some, cons.injEq, and_true] at hCt
    rw [hEnc, hCt]
  -- the receiver's own session, turned round, is the sender of this ciphertext
  have hOpened : s.openText A a.build.overflowChecks ct =
      ok (inner, { s with recvCtr := s.recvCtr + 1 }) :=
    SessionCipher.openText_of_matching (s := { s with send := s.recv, sendCtr := s.recvCtr }) hAead
      rfl rfl hCtr hEnc
  -- the message is handed on by the node with the count raised
  have hSend := fun hChecks => hRoom.send hChecks s hSession
  have hReturns : ((a.setPeer source { p with session := some { s with
      recvCtr := s.recvCtr + 1 } }).onPlainInner env source inner).Returns (·.HasRoom source n) :=
    onPlainInner_returns hKem inner (hasRoom_setPeer (hRoom.withSession hSend))
  obtain ⟨b, hPlain, hRoom'⟩ := hReturns
  obtain ⟨q, out, hActs, hHands⟩ := onPlainInner_does env _ source inner b hPlain
  obtain ⟨hSide, hFrom⟩ := hActs.handed hHands
  refine ⟨b, ?_, ?_, hFrom, congrArg NodeSetup.build hActs.setup,
    congrArg NodeSetup.identity hActs.setup, hRoom'⟩
  · obtain ⟨hGm, hHs⟩ := not_or.mp hTag
    simp only [onRelayData, ensurePeer_known hPeer, if_neg hGm, if_neg hHs, onCiphertext,
      getPeer_eq_ok.mpr hPeer, ok_bind, hSession, hOpened, attempt_ok]
    exact hPlain
  · rw [hSide, recvSide, lookup_setPeer_self]
    rfl

theorem onRelayData_recvSide {payload} (hRecv : a.recvSide source = some (key, ctr))
    (hCtr : ctr.toNat + 1 < 2 ^ 64) (h : a.onRelayData env source payload = ok b) :
    (∃ ctr', b.recvSide source = some (key, ctr') ∧
      ctr'.toNat ≤ ctr.toNat + if Tagged a.build payload then 0 else 1) ∧
      b.build = a.build ∧ b.identity = a.identity := by
  obtain ⟨q, out, hActs, hReceives⟩ := onRelayData_does env a source payload b h
  refine ⟨?_, congrArg NodeSetup.build hActs.setup, congrArg NodeSetup.identity hActs.setup⟩
  rw [recvSide_eq_recv] at hRecv
  rw [recvSide_eq_recv, hActs.core]
  -- a tagged payload is a frame or a handshake message, and opens nothing
  cases hReceives with
  | gm hBuild hPayload hFrame => exact ⟨ctr, hFrame.recv_eq.trans hRecv, Nat.le_add_right _ _⟩
  | hs hTag hFrame =>
    have hSome : (a.core source).session ≠ none := fun hNone => by
      rw [PeerCore.recv, hNone] at hRecv
      cases hRecv
    rw [hFrame.eq_of_session hSome]
    exact ⟨ctr, hRecv, Nat.le_add_right _ _⟩
  | cipher hGm hHs hFrame =>
    have hTag : ¬ Tagged a.build payload := not_or.mpr ⟨hGm, hHs⟩
    rw [if_neg hTag]
    rcases hFrame.recv_eq hRecv with hSame | hNext
    · exact ⟨ctr, hSame, Nat.le_succ _⟩
    · exact ⟨ctr + 1, hNext, (toNat_add_one hCtr).le⟩

end Actor

/-! ## Whole schedules -/

namespace Link

variable {l l' : Link A} {key : Fixed 32} {sent recvd : UInt64} {events : List (LinkEvent A)}

theorem step_send (hAead : A.AeadCorrect) (env : Env A) (inner : Bytes)
    (hSend : l.sender.sendSide l.receiver.nodeId = some (key, sent))
    (hCtr : sent.toNat + 1 < 2 ^ 64) :
    ∃ sender, l.step (.send env inner) =
        ok { l with sender, queue := l.queue ++ ciphertexts A key sent.toNat [inner] } ∧
      sender.sendSide l.receiver.nodeId = some (key, sent + 1) ∧
      sender.nodeId = l.sender.nodeId := by
  obtain ⟨sender, hRelay, hSide, hIdentity, hSent⟩ :=
    Actor.relaySendInner_sends hAead env inner hSend hCtr
  refine ⟨sender, ?_, hSide, congrArg (NodeIdentity.nodeId A) hIdentity⟩
  simp only [step, hRelay, ok_bind, hSent, drop_left]

/-- The two ends of a session, and what is under way between them: the
ciphertexts of the messages in `waiting`, from the receiver's count on. -/
structure Matched (l : Link A) (key : Fixed 32) (sent recvd : UInt64) (waiting : List Bytes) :
    Prop where
  send : l.sender.sendSide l.receiver.nodeId = some (key, sent)
  recv : l.receiver.recvSide l.sender.nodeId = some (key, recvd)
  queue : l.queue = ciphertexts A key recvd.toNat waiting
  count : sent.toNat = recvd.toNat + waiting.length

/-- The receiver has handed on the messages, each once and in order, and the
counts of the two ends are equal. -/
def HandsOn (l l' : Link A) (key : Fixed 32) (msgs : List Bytes) : Prop :=
  l'.receiver.plainFrom l.sender.nodeId = l.receiver.plainFrom l.sender.nodeId ++ msgs ∧
    ∃ count, l'.sender.sendSide l.receiver.nodeId = some (key, count) ∧
      l'.receiver.recvSide l.sender.nodeId = some (key, count)

theorem Matched.send_step (hAead : A.AeadCorrect) (env : Env A) (inner : Bytes) {waiting}
    (h : l.Matched key sent recvd waiting) (hCtr : sent.toNat + 1 < 2 ^ 64) :
    ∃ next, l.step (.send env inner) = ok next ∧
      next.Matched key (sent + 1) recvd (waiting ++ [inner]) ∧
      next.queue = l.queue ++ ciphertexts A key sent.toNat [inner] ∧
      next.sender.nodeId = l.sender.nodeId ∧ next.receiver = l.receiver := by
  obtain ⟨sender, hStep, hSide, hId⟩ := step_send hAead env inner h.send hCtr
  refine ⟨_, hStep, ⟨hSide, ?_, ?_, ?_⟩, rfl, hId, rfl⟩
  · simpa only [hId] using h.recv
  · rw [ciphertexts_append, ← h.count, ← h.queue]
  · simp [toNat_add_one hCtr, h.count, Nat.add_assoc]

theorem Matched.deliver_step (hAead : A.AeadCorrect) (hKem : A.kem.Total) (env : Env A)
    {n inner waiting} (h : l.Matched key sent recvd (inner :: waiting))
    (hCtr : recvd.toNat + 1 < 2 ^ 64) (hRoom : l.receiver.HasRoom l.sender.nodeId (n + 1))
    (hTags : ∀ ct ∈ l.queue, ¬ Tagged l.receiver.build ct) :
    ∃ next, l.step (.deliver env) = ok next ∧ next.Matched key sent (recvd + 1) waiting ∧
      next.queue = l.queue.tail ∧ next.sender = l.sender ∧
      next.receiver.nodeId = l.receiver.nodeId ∧ next.receiver.build = l.receiver.build ∧
      next.receiver.plainFrom l.sender.nodeId = l.receiver.plainFrom l.sender.nodeId ++ [inner] ∧
      next.receiver.HasRoom l.sender.nodeId n := by
  -- the head of the queue is the ciphertext of the first message under way
  obtain ⟨ct, hCt⟩ : ∃ ct, ciphertexts A key recvd.toNat [inner] = [ct] := ⟨_, rfl⟩
  have hNext := toNat_add_one hCtr
  have hQueue : l.queue = ct :: ciphertexts A key (recvd.toNat + 1) waiting := by
    rw [h.queue, ← singleton_append, ciphertexts_append, hCt]
    rfl
  have hTag : ¬ Tagged l.receiver.build ct := hTags ct (by simp [hQueue])
  obtain ⟨receiver, hRelay, hSide, hPlain, hBuild, hIdentity, hRoom'⟩ :=
    Actor.onRelayData_opens hAead hKem env h.recv hCtr hRoom hCt hTag
  have hId : receiver.nodeId = l.receiver.nodeId := congrArg (NodeIdentity.nodeId A) hIdentity
  refine ⟨{ l with receiver, queue := ciphertexts A key (recvd.toNat + 1) waiting }, ?_,
    ⟨?_, hSide, ?_, ?_⟩, ?_, rfl, hId, hBuild, hPlain, hRoom'⟩
  · simp only [step, hQueue, hRelay, ok_bind]
  · simpa only [hId] using h.send
  · rw [hNext]
  · rw [hNext, h.count, length_cons]
    omega
  · rw [hQueue, tail_cons]

theorem run_handsOn (hAead : A.AeadCorrect) (hKem : A.kem.Total) {waiting}
    (hMatched : l.Matched key sent recvd waiting)
    (hNumbers : sent.toNat + (inners events).length < 2 ^ 64)
    (hRoom : l.receiver.HasRoom l.sender.nodeId (waiting.length + (inners events).length))
    (hDrains : undelivered waiting.length events = 0)
    (hTags : ∀ ct ∈ l.queue ++ ciphertexts A key sent.toNat (inners events),
      ¬ Tagged l.receiver.build ct) :
    (l.run events).Returns fun l' => l.HandsOn l' key (waiting ++ inners events) := by
  induction events generalizing l sent recvd waiting with
  | nil =>
    -- the schedule has drained the queue, so nothing is under way
    have hNone : waiting = [] := length_eq_zero_iff.mp hDrains
    subst hNone
    have hCounts : sent = recvd := UInt64.toNat_inj.mp hMatched.count
    subst hCounts
    exact returns_ok ⟨by simp [inners], sent, hMatched.send, hMatched.recv⟩
  | cons e events ih =>
    cases e with
    | send env inner =>
      simp only [inners, length_cons] at hNumbers hRoom hTags
      have hOne : sent.toNat + 1 < 2 ^ 64 := by omega
      have hNext := toNat_add_one hOne
      obtain ⟨next, hStep, hAfter, hQueue, hId, hReceiver⟩ :=
        hMatched.send_step hAead env inner hOne
      rw [run, hStep, ok_bind]
      refine (ih hAfter ?_ ?_ ?_ ?_).mono fun l' hDone => ?_
      · omega
      · simpa only [hId, hReceiver, length_append, length_singleton, Nat.add_assoc,
          Nat.add_comm 1] using hRoom
      · simpa [undelivered] using hDrains
      · simpa [hQueue, hReceiver, hNext, ciphertexts] using hTags
      · simpa only [HandsOn, hId, hReceiver, inners, append_assoc, singleton_append] using hDone
    | deliver env =>
      simp only [inners] at hNumbers hRoom hTags
      cases waiting with
      | nil =>
        -- nothing to deliver
        have hQueue : l.queue = [] := hMatched.queue
        simp only [run, step, hQueue, ok_bind]
        exact ih hMatched hNumbers hRoom hDrains hTags
      | cons inner waiting =>
        have hOne : recvd.toNat + 1 < 2 ^ 64 := by
          have := hMatched.count
          simp only [length_cons] at this
          omega
        rw [length_cons, Nat.add_right_comm] at hRoom
        obtain ⟨next, hStep, hAfter, hQueue, hSender, hId, hBuild, hPlain, hRoom'⟩ :=
          hMatched.deliver_step hAead hKem env hOne hRoom
            fun ct hCt => hTags ct (mem_append_left _ hCt)
        rw [run, hStep, ok_bind]
        refine (ih hAfter hNumbers ?_ ?_ ?_).mono fun l' hDone => ?_
        · rw [hSender]
          exact hRoom'
        · simpa [undelivered] using hDrains
        · -- what is left of the queue was in it before
          intro ct hCt
          rw [hQueue] at hCt
          rw [hBuild]
          refine hTags ct ?_
          simp only [mem_append] at hCt ⊢
          exact hCt.imp_left mem_of_mem_tail
        · simpa only [HandsOn, hSender, hId, hPlain, inners, append_assoc,
            cons_append, nil_append] using hDone

theorem step_deliver (env : Env A) {payload queue next}
    (hRecv : l.receiver.recvSide l.sender.nodeId = some (key, recvd))
    (hCtr : recvd.toNat + 1 < 2 ^ 64) (hQueue : l.queue = payload :: queue)
    (hStep : l.step (.deliver env) = ok next) :
    next.sender = l.sender ∧ next.queue = queue ∧ next.receiver.nodeId = l.receiver.nodeId ∧
      next.receiver.build = l.receiver.build ∧
      ∃ recvd', next.receiver.recvSide l.sender.nodeId = some (key, recvd') ∧
        recvd'.toNat ≤ recvd.toNat + [payload].countP (¬ Tagged l.receiver.build ·) := by
  simp only [step, hQueue] at hStep
  obtain ⟨receiver, hRelay, hStep⟩ := bind_eq_ok.mp hStep
  cases hStep
  obtain ⟨⟨recvd', hSide, hUp⟩, hBuild, hIdentity⟩ :=
    Actor.onRelayData_recvSide hRecv hCtr hRelay
  refine ⟨rfl, rfl, congrArg (NodeIdentity.nodeId A) hIdentity, hBuild, recvd', hSide, ?_⟩
  by_cases hTag : Tagged l.receiver.build payload
  · simpa [hTag] using hUp
  · simpa [hTag] using hUp

theorem run_counts (hAead : A.AeadCorrect)
    (hSend : l.sender.sendSide l.receiver.nodeId = some (key, sent))
    (hRecv : l.receiver.recvSide l.sender.nodeId = some (key, recvd))
    (hNumbers : sent.toNat + (inners events).length < 2 ^ 64)
    (hRoom : recvd.toNat + (l.queue.length + (inners events).length) < 2 ^ 64)
    (hRun : l.run events = ok l') :
    (∃ sent', l'.sender.sendSide l.receiver.nodeId = some (key, sent') ∧
      sent'.toNat = sent.toNat + (inners events).length) ∧
    ∃ recvd', l'.receiver.recvSide l.sender.nodeId = some (key, recvd') ∧
      recvd'.toNat ≤ recvd.toNat + (l.queue ++ ciphertexts A key sent.toNat (inners events)).countP
        (¬ Tagged l.receiver.build ·) := by
  induction events generalizing l sent recvd with
  | nil =>
    cases hRun
    exact ⟨⟨sent, hSend, rfl⟩, recvd, hRecv, Nat.le_add_right _ _⟩
  | cons e events ih =>
    obtain ⟨next, hStep, hNextRun⟩ := bind_eq_ok.mp hRun
    cases e with
    | send env inner =>
      simp only [inners, length_cons] at hNumbers hRoom ⊢
      have hOne : sent.toNat + 1 < 2 ^ 64 := by omega
      have hNext := toNat_add_one hOne
      obtain ⟨sender, hStep', hSide, hId⟩ := step_send hAead env inner hSend hOne
      cases hStep'.symm.trans hStep
      have hRecv' : l.receiver.recvSide sender.nodeId = some (key, recvd) := by rw [hId, hRecv]
      have hQueue : (l.queue ++ ciphertexts A key sent.toNat [inner]).length =
          l.queue.length + 1 := by
        simp
      obtain ⟨⟨sent', hSent, hCount⟩, recvd', hRecvd, hLe⟩ :=
        ih hSide hRecv' (by omega) (by simp only [hQueue]; omega) hNextRun
      refine ⟨⟨sent', hSent, by omega⟩, recvd', ?_, ?_⟩
      · simpa only [hId] using hRecvd
      · simpa [hNext, ciphertexts] using hLe
    | deliver env =>
      simp only [inners] at hNumbers hRoom ⊢
      cases hQueue : l.queue with
      | nil =>
        simp only [step, hQueue] at hStep
        cases hStep
        simpa only [hQueue] using ih hSend hRecv hNumbers hRoom hNextRun
      | cons payload queue =>
        rw [hQueue, length_cons] at hRoom
        obtain ⟨hSender, hRest, hId, hBuild, recvd₁, hSide, hUp⟩ :=
          step_deliver env hRecv (by omega) hQueue hStep
        -- one payload fewer is left, so the numbers still suffice
        have hAtMost : recvd₁.toNat ≤ recvd.toNat + 1 :=
          hUp.trans (Nat.add_le_add_left countP_le_length _)
        rw [← hSender] at hSend hSide
        rw [← hId] at hSend
        obtain ⟨hSent, recvd', hRecvd, hLe⟩ :=
          ih hSend hSide hNumbers (by rw [hRest]; omega) hNextRun
        rw [hId] at hSent
        rw [hSender] at hRecvd
        rw [hRest, hBuild] at hLe
        refine ⟨hSent, recvd', hRecvd, ?_⟩
        rw [cons_append, ← singleton_append, countP_append]
        omega

/-- **Delivery over an honest relay.** The AEAD opens what it has sealed (`hAead`), the KEM does not
panic (`hKem`), the nodes have the two ends of a session with equal counts (`hSend`, `hRecv`) and
numbers left (`hNumbers`, `hRoom`), nothing is on the way, and the schedule delivers everything
(`hDrains`). Then the messages are handed on, once each and in order, exactly if no ciphertext
starts with a tag. -/
theorem run_delivers_iff (hAead : A.AeadCorrect) (hKem : A.kem.Total) {count : UInt64}
    (hQueue : l.queue = []) (hSend : l.sender.sendSide l.receiver.nodeId = some (key, count))
    (hRecv : l.receiver.recvSide l.sender.nodeId = some (key, count))
    (hNumbers : count.toNat + (inners events).length < 2 ^ 64)
    (hRoom : l.receiver.HasRoom l.sender.nodeId (inners events).length)
    (hDrains : undelivered 0 events = 0) :
    (∃ l', l.run events = ok l' ∧ l.HandsOn l' key (inners events)) ↔
      ∀ ct ∈ ciphertexts A key count.toNat (inners events), ¬ Tagged l.receiver.build ct := by
  constructor
  · rintro ⟨l', hRun, -, final, hSent, hRecvd⟩
    have hEnough : count.toNat + (l.queue.length + (inners events).length) < 2 ^ 64 := by
      rw [hQueue, length_nil]
      omega
    obtain ⟨⟨sent', hSent', hCount⟩, recvd', hRecvd', hLe⟩ :=
      run_counts hAead hSend hRecv hNumbers hEnough hRun
    cases hSent.symm.trans hSent'
    cases hRecvd.symm.trans hRecvd'
    rw [hQueue, nil_append] at hLe
    -- every ciphertext was counted, so none has a tag
    have hAll : (ciphertexts A key count.toNat (inners events)).countP
        (¬ Tagged l.receiver.build ·) = (ciphertexts A key count.toNat (inners events)).length := by
      refine le_antisymm countP_le_length ?_
      rw [length_ciphertexts]
      omega
    simpa using countP_eq_length.mp hAll
  · intro hTags
    have hMatched : l.Matched key count count [] := ⟨hSend, hRecv, hQueue, rfl⟩
    have hArrives := run_handsOn hAead hKem hMatched hNumbers (by simpa using hRoom) hDrains
      (by simpa [hQueue] using hTags)
    exact hArrives

/-! ### Two runs -/

def plainKey : Fixed 32 := GmPq.padTo 32 [1]

def plainLink : Link plainAlgorithms where
  sender := (plainNode 1).setPeer (plainNode 2).nodeId
    (plainPeer (some ⟨plainKey, GmPq.padTo 32 [2], 0, 0⟩) none)
  receiver := (plainNode 2).setPeer (plainNode 1).nodeId
    (plainPeer (some ⟨GmPq.padTo 32 [2], plainKey, 0, 0⟩) none)
  queue := []

/-- Two pings, delivered after both are sent; the receiver answers each. -/
def twoPings : List (LinkEvent plainAlgorithms) :=
  [.send plainEnv [innerPing, 0, 0, 0, 0, 0, 0, 0, 7],
    .send plainEnv [innerPing, 0, 0, 0, 0, 0, 0, 0, 8], .deliver plainEnv, .deliver plainEnv]

/-- Two messages whose ciphertexts have no tag arrive. -/
theorem run_delivers_twoPings :
    ∃ l', plainLink.run twoPings = ok l' ∧
      plainLink.HandsOn l' plainKey
        [[innerPing, 0, 0, 0, 0, 0, 0, 0, 7], [innerPing, 0, 0, 0, 0, 0, 0, 0, 8]] := by
  have hSend : plainLink.sender.sendSide plainLink.receiver.nodeId = some (plainKey, 0) := rfl
  have hRoom : plainLink.receiver.HasRoom plainLink.sender.nodeId (inners twoPings).length :=
    Actor.hasRoom_setPeer ⟨by decide, by rintro _ ⟨⟩, by decide, by rintro _ _ ⟨⟩; decide⟩
  exact (run_delivers_iff plainAlgorithms_aeadCorrect (GmPq.defaultHybrid_total _ _ _) rfl hSend rfl
    (by decide) hRoom rfl).mpr (by decide +kernel)

def threeMessages : List (LinkEvent plainAlgorithms) :=
  [.send plainEnv [innerData, 10], .deliver plainEnv, .send plainEnv [innerData, 11],
    .deliver plainEnv, .send plainEnv [innerData, 12], .deliver plainEnv]

/-- The second message is dropped, and the third does not open. -/
theorem not_run_delivers :
    plainAlgorithms.AeadCorrect ∧ plainLink.queue = [] ∧
      plainLink.sender.sendSide plainLink.receiver.nodeId = some (plainKey, 0) ∧
      plainLink.receiver.recvSide plainLink.sender.nodeId = some (plainKey, 0) ∧
      undelivered 0 threeMessages = 0 ∧
      ∃ l', plainLink.run threeMessages = ok l' ∧
        l'.receiver.plainFrom plainLink.sender.nodeId = [[innerData, 10]] ∧
        l'.sender.sendSide plainLink.receiver.nodeId = some (plainKey, 3) ∧
        l'.receiver.recvSide plainLink.sender.nodeId = some (plainKey, 1) :=
  ⟨plainAlgorithms_aeadCorrect, rfl, rfl, rfl, rfl, _, rfl, rfl, rfl, rfl⟩

end Link

end DirectWire.Mesh
