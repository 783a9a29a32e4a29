import DirectWire.Homa.Endpoint
import DirectWire.Homa.Rpc

/-!
# Homa — what a failed call leaves behind

`RpcClient::call_with_timeout` over `Transport::send_impl`, one call among any others. It holds no
lock from one step to the next, so that between two of them the dispatcher, the I/O threads and
other calls may do what they like.
-/

namespace DirectWire.Homa

open Lib Outcome List

def Action.datagram? : Action → Option Datagram
  | .send dest bytes => some (dest, bytes)
  | .deliver _ _ _ => none

/-- Where the call is. -/
inductive Place where
  /-- An attempt begins. -/
  | start
  | registered
  /-- `fetch_add` has given the message its id. -/
  | numbered (msgId : UInt64) (now deadline : Instant)
  /-- A short message goes to the socket, datagram by datagram. -/
  | direct (msgId : UInt64) (rest : List Datagram)
  | queueing (msgId : UInt64) (actions : List Action) (deadline : Instant)
  /-- The call waits until all of the message is queued. -/
  | waiting (msgId : UInt64) (deadline : Instant)
  /-- In `recv_timeout`. -/
  | sent (msgId : UInt64)
  | expired (msgId : UInt64)
  /-- The waiter is removed. -/
  | removed (msgId : UInt64)
  | confirming (msgId : UInt64) (body : Bytes)
  | returned (result : Except CallError Bytes)
deriving DecidableEq

namespace Place

def msgId : Place → Option UInt64
  | .start | .registered | .returned _ => none
  | .numbered msgId _ _ | .direct msgId _ | .queueing msgId _ _ | .waiting msgId _ | .sent msgId
  | .expired msgId | .removed msgId | .confirming msgId _ => some msgId

/-- What the call itself has still to hand over. -/
def datagrams : Place → List Datagram
  | .direct _ rest => rest
  | .queueing _ actions _ => actions.filterMap Action.datagram?
  | _ => []

/-- A response has come, which leaves the message to the sender core. -/
def Answered : Place → Prop
  | .confirming _ _ | .returned (.ok _) => True
  | _ => False

/-- The waiter is removed, or not yet made. -/
def NoWaiter : Place → Prop
  | .start | .removed _ | .returned (.error _) => True
  | _ => False

end Place

/-- The client and its transport, as far as the call has to do with them. -/
structure Calling where
  place : Place
  /-- The attempts that are over. -/
  attempt : Nat
  /-- The ids of the messages of the call. -/
  mine : List UInt64
  /-- The numbers that have an entry in `waiters`. -/
  waiters : Finset UInt64
  transport : Transport
  /-- What the sending threads have taken from the queue. -/
  batches : List Datagram
  emitted : List Datagram

/-- What `recv_timeout` returns is left open. Other calls do what they do with a
message in one step. -/
inductive CallingEvent where
  | register
  | number (now : Instant)
  | start
  /-- `socket.send_to`, with its error if it fails. -/
  | direct (error : Option String)
  | queue
  /-- A round of the loop that waits for the sender core. -/
  | check (now : Instant)
  | receive (body : Option Bytes)
  | confirm
  | remove
  | finish
  | respond
  /-- Another call registers, or removes its waiter. -/
  | waiter (rpcId : UInt64) (present : Bool)
  /-- Another call sends a message, itself or through the queue. -/
  | send (dest : SocketAddr) (data : Bytes) (now : Instant) (retransmit queued : Bool)
  | forget (dest : SocketAddr) (msgId : UInt64) (confirmed : Bool)
  | packet (src : SocketAddr) (datagram : Bytes) (now : Instant) (ord : HashOrder MsgKey)
  | tick (now : Instant) (ordOut ordIn : HashOrder MsgKey)
  | batch
  | flush (n : Nat)

namespace Calling

def new (cfg : TransportConfig) (sendTimeout : Duration) : Calling :=
  ⟨.start, 0, [], ∅, .new cfg sendTimeout, [], []⟩

/-- The id is drawn; `fetch_add` wraps around. -/
def drawn (t : Transport) : Transport := { t with msgCounter := t.msgCounter + 1 }

/-- The sender core begins the message. Only a message of at most the
unscheduled window is sent again, and by the calling thread itself. -/
def begin (s : Calling) (r : Request) (msgId : UInt64) (now deadline : Instant) : Calling :=
  let frame := encodeFrame r.rpcId r.payload
  if frame.length ≤ s.transport.sender.cfg.unscheduledBytes then
    let (sender, actions) := s.transport.sender.startRetransmit r.server msgId frame now
    { s with
      transport := { s.transport with sender }
      place := .direct msgId (actions.filterMap Action.datagram?) }
  else
    let (sender, actions) := s.transport.sender.start r.server msgId frame now
    { s with transport := { s.transport with sender }, place := .queueing msgId actions deadline }

/-- A round of the loop at the end of `send_impl`. -/
def check (s : Calling) (r : Request) (msgId : UInt64) (deadline now : Instant) : Calling :=
  if s.transport.sender.isDone r.server msgId then { s with place := .sent msgId }
  else if deadline ≤ now then { s with
    transport := s.transport.finish r.server msgId
    place := .returned (.error (.send "homa send_to timeout")) }
  else s

/-- The dispatcher looks at the number only. -/
def afterResponse (waiters : Finset UInt64) (frame : Bytes) : Finset UInt64 :=
  match decodeFrame frame with
  | some (rpcId, _) => waiters.erase rpcId
  | none => waiters

def next (r : Request) (attempt : Nat) : Place :=
  if attempt < r.attempts then .start
  else .returned (.error (.timedOut (RpcClient.timeoutMessage r)))

def step (checks : Bool) (r : Request) (s : Calling) (e : CallingEvent) : Option Calling :=
  match e, s.place with
  | .register, .start =>
    some { s with waiters := insert r.rpcId s.waiters, place := .registered }
  | .number now, .registered =>
    (Link.returned (addInstant now s.transport.sendTimeout)).map fun deadline => { s with
      transport := drawn s.transport
      mine := s.transport.msgCounter :: s.mine
      place := .numbered s.transport.msgCounter now deadline }
  | .start, .numbered msgId now deadline => some (s.begin r msgId now deadline)
  | .direct _, .direct msgId [] => some { s with place := .sent msgId }
  | .direct none, .direct msgId (x :: rest) =>
    some { s with place := .direct msgId rest, emitted := s.emitted ++ [x] }
  -- the waiter and the message stay
  | .direct (some error), .direct _ (_ :: _) =>
    some { s with place := .returned (.error (.send error)) }
  | .queue, .queueing msgId actions deadline =>
    some { s with transport := s.transport.drain actions, place := .waiting msgId deadline }
  | .check now, .waiting msgId deadline => some (s.check r msgId deadline now)
  | .receive (some body), .sent msgId => some { s with place := .confirming msgId body }
  | .receive none, .sent msgId => some { s with place := .expired msgId }
  | .confirm, .confirming msgId body =>
    some { s with transport := s.transport.confirm r.server msgId, place := .returned (.ok body) }
  | .remove, .expired msgId =>
    some { s with waiters := s.waiters.erase r.rpcId, place := .removed msgId }
  | .finish, .removed msgId =>
    some { s with
      transport := s.transport.finish r.server msgId
      attempt := s.attempt + 1
      place := next r (s.attempt + 1) }
  | .respond, _ => s.transport.completed.head?.map fun (_, frame) => { s with
      transport := { s.transport with completed := s.transport.completed.tail }
      waiters := afterResponse s.waiters frame }
  | .waiter rpcId present, _ =>
    some { s with waiters := if present then insert rpcId s.waiters else s.waiters.erase rpcId }
  | .send dest data now retransmit queued, _ =>
    let msgId := s.transport.msgCounter
    let (sender, actions) := s.transport.sender.startInner dest msgId data now retransmit
    let transport := { drawn s.transport with sender }
    some (if queued then { s with transport := transport.drain actions }
      else { s with transport, emitted := s.emitted ++ actions.filterMap Action.datagram? })
  | .forget dest msgId confirmed, _ =>
    some { s with
      transport := if confirmed then s.transport.confirm dest msgId
        else s.transport.finish dest msgId }
  | .packet src datagram now ord, _ =>
    (Link.returned (s.transport.processPacket checks ord src datagram now)).map fun transport =>
      { s with transport }
  | .tick now ordOut ordIn, _ =>
    (Link.returned (s.transport.tick checks ordOut ordIn now)).map fun transport =>
      { s with transport }
  | .batch, _ =>
    let (batch, tx) := s.transport.tx.takeBatch flushBudget
    some { s with transport := { s.transport with tx }, batches := s.batches ++ batch.getD [] }
  | .flush n, _ => s.batches[n]?.map fun x => { s with
      batches := s.batches.eraseIdx n
      -- an error of the socket is ignored
      emitted := s.emitted ++ [x] }
  | _, _ => none

/-- What is on its way to the socket. -/
def queued (s : Calling) : List Datagram := s.transport.tx.packets ++ s.batches

/-- A condition on the event and the state it comes to. -/
def Orderly (r : Request) (s : Calling) (e : CallingEvent) : Prop :=
  match e, s.place with
  | .direct error, _ => error = none
  | .check now, .waiting msgId deadline =>
    s.transport.sender.isDone r.server msgId = true ∨ now < deadline
  | .finish, .removed msgId => ∀ x ∈ s.queued, ¬ Concerns (r.server, msgId) x
  -- ids and numbers that come again are not looked at
  | .number _, _ | .send _ _ _ _ _, _ => s.transport.msgCounter ∉ s.mine
  | .waiter rpcId _, _ => rpcId ≠ r.rpcId
  | _, _ => True

instance decidableOrderly (r : Request) (s : Calling) (e : CallingEvent) :
    Decidable (Orderly r s e) := by
  unfold Orderly
  split <;> infer_instance

/-! ## Messages that are over -/

/-- Nothing of the message is in the sender core or on its way to the socket,
and the call is at another one, or at none. -/
structure Past (r : Request) (s : Calling) (id : UInt64) : Prop where
  out : s.transport.sender.out.lookup (r.server, id) = none
  queued : ∀ x ∈ s.queued, ¬ Concerns (r.server, id) x
  own : ∀ x ∈ s.place.datagrams, ¬ Concerns (r.server, id) x
  current : s.place.msgId ≠ some id

/-- A message of the call that is not over is the one it is at, or was answered. -/
structure Inv (r : Request) (s : Calling) : Prop where
  waiter : s.place.NoWaiter → r.rpcId ∉ s.waiters
  mine : ∀ id ∈ s.mine, s.place.Answered ∨ s.place.msgId = some id ∨ Past r s id

variable {checks : Bool} {r : Request} {s s' : Calling} {e : CallingEvent} {id : UInt64}

theorem forall_datagrams {actions : List Action} {key : MsgKey} :
    (∀ x ∈ actions.filterMap Action.datagram?, ¬ Concerns key x) ↔
      ∀ a ∈ actions, ¬ a.Concerns key := by
  rw [forall_mem_filterMap]
  refine forall₂_congr fun a _ => ?_
  cases a with
  | send dest bytes => simp [Action.datagram?, Action.Concerns]
  | deliver => simp [Action.datagram?, Action.Concerns]

/-- A message that is over stays so, and nothing of it is emitted. -/
structure Quiet (r : Request) (s s' : Calling) (id : UInt64) : Prop where
  past : Past r s' id
  emitted : ∃ new, s'.emitted = s.emitted ++ new ∧ ∀ x ∈ new, ¬ Concerns (r.server, id) x

theorem Past.quiet (h : Past r s id) (hMsgId : s'.place.msgId ≠ some id)
    (hOwn : ∀ x ∈ s'.place.datagrams, ¬ Concerns (r.server, id) x)
    (hOut : s'.transport.sender.out.lookup (r.server, id) = none)
    (hQueued : ∀ x ∈ s'.queued, Concerns (r.server, id) x → x ∈ s.queued)
    (hEmitted : s'.emitted = s.emitted) : Quiet r s s' id :=
  ⟨⟨hOut, fun x hMem hX => h.queued x (hQueued x hMem hX) hX, hOwn, hMsgId⟩, [],
    by rw [hEmitted, append_nil], nofun⟩

theorem Past.moved (h : Past r s id) (hMsgId : s'.place.msgId ≠ some id)
    (hOwn : ∀ x ∈ s'.place.datagrams, ¬ Concerns (r.server, id) x)
    (hSender : s'.transport.sender = s.transport.sender) (hQueued : s'.queued = s.queued)
    (hEmitted : s'.emitted = s.emitted) : Quiet r s s' id :=
  h.quiet hMsgId hOwn (by rw [hSender]; exact h.out) (by rw [hQueued]; exact fun x hMem _ => hMem)
    hEmitted

theorem Past.silent (h : Past r s id) (hSilent : s.transport.Silent (r.server, id) s'.transport)
    (hPlace : s'.place = s.place) (hBatches : s'.batches = s.batches)
    (hEmitted : s'.emitted = s.emitted) : Quiet r s s' id := by
  refine h.quiet ?_ ?_ hSilent.out (fun x hMem hX => ?_) hEmitted
  · rw [hPlace]
    exact h.current
  · rw [hPlace]
    exact h.own
  · rw [Calling.queued, hBatches] at hMem
    exact mem_append.mpr ((mem_append.mp hMem).imp_left fun hTx => hSilent.queued x hTx hX)

/-- What a step keeps. -/
structure Turn (r : Request) (s s' : Calling) : Prop where
  inv : Inv r s'
  mine : ∀ id ∈ s.mine, id ∈ s'.mine
  quiet : ∀ id ∈ s.mine, Past r s id → Quiet r s s' id

theorem Inv.turn (hI : Inv r s) (hMine : s'.mine = s.mine)
    (hQuiet : ∀ id ∈ s.mine, Past r s id → Quiet r s s' id)
    (hWaiter : s'.place.NoWaiter → r.rpcId ∉ s'.waiters)
    (hPlace : ∀ id, s.place.Answered ∨ s.place.msgId = some id →
      s'.place.Answered ∨ s'.place.msgId = some id ∨ Past r s' id) : Turn r s s' := by
  refine ⟨⟨hWaiter, fun id hMem => ?_⟩, by simp [hMine], hQuiet⟩
  rw [hMine] at hMem
  rcases hI.mine id hMem with hAnswered | hCurrent | hPast
  · exact hPlace id (.inl hAnswered)
  · exact hPlace id (.inr hCurrent)
  · exact .inr (.inr (hQuiet id hMem hPast).past)

theorem begin_turn {msgId now deadline} (hI : Inv r s)
    (hNumbered : s.place = .numbered msgId now deadline) :
    Turn r s (s.begin r msgId now deadline) := by
  have hKey : ∀ id, Past r s id → (r.server, id) ≠ (r.server, msgId) := by
    rintro _ hPast ⟨⟩
    exact hPast.current (by rw [hNumbered]; rfl)
  have hOther : ∀ id, s.place.Answered ∨ s.place.msgId = some id → some msgId = some id := by
    rw [hNumbered]
    exact fun _ h => h.resolve_left fun h => h
  unfold begin
  dsimp only
  split
  all_goals
    refine hI.turn rfl (fun id _ hPast => ?_) nofun (fun id h => .inr (.inl (hOther id h)))
    refine hPast.quiet (fun h => hKey id hPast ?_)
      (forall_datagrams.mpr (SenderCore.pump_concerns (hKey id hPast)))
      (SenderCore.startInner_silent hPast.out (hKey id hPast)).1 (fun x hMem _ => hMem) rfl
    cases h
    rfl

/-- The call goes on with the message it is at. -/
theorem Inv.onward {place'} {waiters' : Finset UInt64} (hI : Inv r s)
    (hMsgId : place'.msgId = s.place.msgId) (hOwn : place'.datagrams = [])
    (hWaiter : place'.NoWaiter → r.rpcId ∉ waiters') (hAnswered : ¬ s.place.Answered) :
    Turn r s { s with place := place', waiters := waiters' } := by
  refine hI.turn rfl (fun id _ hPast => hPast.moved ?_ ?_ rfl rfl rfl) hWaiter (fun id h => ?_)
  · rw [hMsgId]
    exact hPast.current
  · rw [hOwn]
    exact nofun
  · exact .inr (.inl (hMsgId.trans (h.resolve_left hAnswered)))

/-- The call stays where it is, and others do not make its waiter. -/
theorem Inv.transport {t} {waiters' : Finset UInt64} (hI : Inv r s)
    (hSilent : ∀ key, s.transport.sender.out.lookup key = none → s.transport.Silent key t)
    (hWaiter : r.rpcId ∈ waiters' → r.rpcId ∈ s.waiters) :
    Turn r s { s with transport := t, waiters := waiters' } :=
  hI.turn rfl (fun _ _ hPast => hPast.silent (hSilent _ hPast.out) rfl rfl rfl)
    (fun hPlace hMem => hI.waiter hPlace (hWaiter hMem)) (fun _ h => h.imp_right .inl)

theorem number_turn {now deadline} (hI : Inv r s) (hPlace : s.place = .registered)
    (hNew : s.transport.msgCounter ∉ s.mine) :
    Turn r s { s with
      transport := drawn s.transport
      mine := s.transport.msgCounter :: s.mine
      place := .numbered s.transport.msgCounter now deadline } := by
  have hQuiet : ∀ id ∈ s.mine, Past r s id → Quiet r s { s with
      transport := drawn s.transport
      mine := s.transport.msgCounter :: s.mine
      place := .numbered s.transport.msgCounter now deadline } id := fun id hMem hPast =>
    hPast.moved (fun hEq => hNew (Option.some.inj hEq ▸ hMem)) nofun rfl rfl rfl
  refine ⟨⟨nofun, forall_mem_cons.mpr ⟨.inr (.inl rfl), fun id hMem => ?_⟩⟩,
    fun id hMem => mem_cons_of_mem _ hMem, hQuiet⟩
  have hMine := hI.mine id hMem
  rw [hPlace] at hMine
  rcases hMine with hAnswered | hCurrent | hPast
  · cases hAnswered
  · cases hCurrent
  · exact .inr (.inr (hQuiet id hMem hPast).past)

theorem next_idle (r : Request) (attempt : Nat) :
    (next r attempt).msgId = none ∧ (next r attempt).datagrams = [] := by
  unfold next
  split
  · exact ⟨rfl, rfl⟩
  · exact ⟨rfl, rfl⟩

theorem finish_turn {msgId} (hI : Inv r s) (hPlace : s.place = .removed msgId)
    (hQueued : ∀ x ∈ s.queued, ¬ Concerns (r.server, msgId) x) :
    Turn r s { s with
      transport := s.transport.finish r.server msgId
      attempt := s.attempt + 1
      place := next r (s.attempt + 1) } := by
  obtain ⟨hMsgId, hOwn⟩ := next_idle r (s.attempt + 1)
  refine hI.turn rfl (fun id _ hPast => ?_) (fun _ => hI.waiter (by rw [hPlace]; trivial))
    (fun id h => .inr (.inr ?_))
  · exact hPast.quiet (by rw [hMsgId]; nofun) (by rw [hOwn]; nofun)
      (SenderCore.finish_silent hPast.out _ _) (fun _ hMem _ => hMem) rfl
  · rw [hPlace] at h
    cases h.resolve_left fun h => h
    refine ⟨?_, hQueued, by rw [hOwn]; nofun, by rw [hMsgId]; nofun⟩
    simp only [Transport.finish, SenderCore.finish, Map.lookup_erase_ite, if_pos]

theorem mem_afterResponse {waiters : Finset UInt64} {frame : Bytes} {rpcId : UInt64}
    (h : rpcId ∈ afterResponse waiters frame) : rpcId ∈ waiters := by
  unfold afterResponse at h
  split at h
  · exact Finset.mem_of_mem_erase h
  · exact h

theorem step_turn (hI : Inv r s) (hOk : Orderly r s e) (h : step checks r s e = some s') :
    Turn r s s' := by
  obtain ⟨place, attempt, mine, waiters, transport, batches, emitted⟩ := s
  have hSame : ∀ id, place.Answered ∨ place.msgId = some id →
      place.Answered ∨ place.msgId = some id ∨ Past r s' id := fun id h => h.imp_right .inl
  unfold step at h
  dsimp only at h
  -- the steps of the call, in the order of `step`
  split at h
  · cases h
    exact hI.onward rfl rfl nofun id
  · obtain ⟨deadline, -, rfl⟩ := Option.map_eq_some_iff.mp h
    exact number_turn hI rfl hOk
  · cases h
    exact begin_turn hI rfl
  · cases h
    exact hI.onward rfl rfl nofun id
  · -- a datagram that the call itself emits is of the message it is at
    rename_i msgId x rest
    cases h
    refine hI.turn rfl (fun id _ hPast => ?_) nofun hSame
    obtain ⟨hX, hRest⟩ := forall_mem_cons.mp hPast.own
    exact ⟨⟨hPast.out, hPast.queued, hRest, hPast.current⟩, [x], rfl, forall_mem_singleton.mpr hX⟩
  · -- the socket refuses nothing
    cases hOk
  · cases h
    refine hI.turn rfl (fun id _ hPast => ?_) nofun hSame
    refine hPast.quiet hPast.current nofun ?_ (fun x hMem hX => ?_) rfl
    · rw [Transport.drain_sender]
      exact hPast.out
    · refine mem_append.mpr ((mem_append.mp hMem).imp_left fun hTx => ?_)
      exact Transport.drain_queued (forall_datagrams.mp hPast.own) x hTx hX
  · cases h
    unfold check
    split
    · exact hI.onward rfl rfl nofun id
    · rename_i hNotDone
      rw [if_neg (not_le.mpr (hOk.resolve_left hNotDone))]
      exact hI.transport (fun _ hOut => ⟨hOut, fun _ hMem _ => hMem⟩) id
  · cases h
    exact hI.turn rfl (fun id _ hPast => hPast.moved hPast.current nofun rfl rfl rfl) nofun
      (fun _ _ => .inl trivial)
  · cases h
    exact hI.onward rfl rfl nofun id
  · cases h
    exact hI.turn rfl (fun id _ hPast => hPast.quiet nofun nofun
      (SenderCore.confirm_silent hPast.out _ _) (fun _ hMem _ => hMem) rfl) nofun
      (fun _ _ => .inl trivial)
  · -- the one step that removes the waiter
    cases h
    exact hI.onward rfl rfl (fun _ => Finset.notMem_erase _ _) id
  · cases h
    exact finish_turn hI rfl hOk
  -- the steps of others
  · obtain ⟨⟨src, frame⟩, -, rfl⟩ := Option.map_eq_some_iff.mp h
    exact hI.transport (fun _ hOut => ⟨hOut, fun _ hMem _ => hMem⟩) mem_afterResponse
  · cases h
    refine hI.transport (fun _ hOut => ⟨hOut, fun _ hMem _ => hMem⟩) fun hMem => ?_
    split at hMem
    · exact Finset.mem_of_mem_insert_of_ne hMem (Ne.symm hOk)
    · exact Finset.mem_of_mem_erase hMem
  · rename_i dest data now retransmit queued
    cases h
    have hSilent : ∀ id ∈ mine, transport.sender.out.lookup (r.server, id) = none →
        SenderCore.Silent (r.server, id)
          (transport.sender.startInner dest transport.msgCounter data now retransmit) := by
      refine fun id hMem hOut => SenderCore.startInner_silent hOut ?_
      rintro ⟨⟩
      exact hOk hMem
    cases queued with
    | true =>
      refine hI.turn rfl (fun id hMem hPast => ?_) hI.waiter hSame
      obtain ⟨hOut, hActions⟩ := hSilent id hMem hPast.out
      refine hPast.silent ⟨?_, Transport.drain_queued hActions⟩ rfl rfl rfl
      simp only [if_pos, Transport.drain_sender]
      exact hOut
    | false =>
      refine hI.turn rfl (fun id hMem hPast => ?_) hI.waiter hSame
      obtain ⟨hOut, hActions⟩ := hSilent id hMem hPast.out
      exact ⟨⟨hOut, hPast.queued, hPast.own, hPast.current⟩, _, rfl,
        forall_datagrams.mpr hActions⟩
  · cases h
    refine hI.transport (fun _ hOut => ⟨?_, fun _ hMem _ => ?_⟩) id
    · split
      · exact SenderCore.confirm_silent hOut _ _
      · exact SenderCore.finish_silent hOut _ _
    · split at hMem
      · exact hMem
      · exact hMem
  · obtain ⟨t, hReturned, rfl⟩ := Option.map_eq_some_iff.mp h
    exact hI.transport (fun _ hOut => Transport.processPacket_silent hOut
      (Link.returned_eq_some hReturned)) id
  · obtain ⟨t, hReturned, rfl⟩ := Option.map_eq_some_iff.mp h
    exact hI.transport (fun _ hOut => Transport.tick_silent hOut
      (Link.returned_eq_some hReturned)) id
  · cases h
    have hTaken := TxInner.takeBatch_perm flushBudget transport.tx
    refine hI.turn rfl (fun id _ hPast => hPast.quiet hPast.current hPast.own hPast.out
      (fun x hMem _ => ?_) rfl) hI.waiter hSame
    rcases mem_append.mp hMem with hLeft | hMem
    · exact mem_append_left _ (hTaken.mem_iff.mp (mem_append_right _ hLeft))
    · rcases mem_append.mp hMem with hOld | hBatch
      · exact mem_append_right _ hOld
      · exact mem_append_left _ (hTaken.mem_iff.mp (mem_append_left _ hBatch))
  · rename_i n
    obtain ⟨x, hAt, rfl⟩ := Option.map_eq_some_iff.mp h
    refine hI.turn rfl (fun id _ hPast => ?_) hI.waiter hSame
    obtain ⟨hTx, hBatches⟩ := forall_mem_append.mp hPast.queued
    exact ⟨⟨hPast.out, forall_mem_append.mpr ⟨hTx, fun y hMem =>
      hBatches y (mem_of_mem_eraseIdx hMem)⟩, hPast.own, hPast.current⟩, [x], rfl,
      forall_mem_singleton.mpr (hBatches x (mem_of_getElem? hAt))⟩
  · cases h

theorem run_inv {cfg sendTimeout}
    (hRun : Run (step checks r) (Orderly r) (new cfg sendTimeout) s) : Inv r s :=
  hRun.invariant ⟨fun _ => Finset.notMem_empty _, nofun⟩
    fun _ _ _ hI hOk h => (step_turn hI hOk h).inv

theorem Past.run (hPast : Past r s id) (hI : Inv r s) (hMine : id ∈ s.mine)
    (hRun : Run (step checks r) (Orderly r) s s') :
    ∃ later, s'.emitted = s.emitted ++ later ∧ ∀ x ∈ later, ¬ Concerns (r.server, id) x := by
  refine (hRun.invariant (I := fun t => (Inv r t ∧ id ∈ t.mine ∧ Past r t id) ∧
    ∃ later, t.emitted = s.emitted ++ later ∧ ∀ x ∈ later, ¬ Concerns (r.server, id) x)
    ⟨⟨hI, hMine, hPast⟩, [], by simp, nofun⟩ ?_).2
  rintro t t' e ⟨⟨hI, hMine, hPast⟩, later, hLater, hClean⟩ hOk h
  have hTurn := step_turn hI hOk h
  obtain ⟨hPast', new, hNew, hClean'⟩ := hTurn.quiet id hMine hPast
  refine ⟨⟨hTurn.inv, hTurn.mine id hMine, hPast'⟩, later ++ new, ?_,
    forall_mem_append.mpr ⟨hClean, hClean'⟩⟩
  rw [hNew, hLater, append_assoc]

end Calling

/-- **A call that fails leaves nothing behind.** Other calls, arrivals, timers and the sending
threads act between its steps as they like, as long as every step is `Orderly`: the socket takes
each datagram of a short request, a long request is queued before the deadline of `send_pokeable`,
a message is given up only when no packet of it is in the send queue or in a batch, and no id or
number comes again. Whatever error the call returns, its waiter and the entries of all its messages
are then gone, and no packet of them is emitted in any continuation of the run. -/
theorem failed_call_clean {checks : Bool} {cfg : TransportConfig} {sendTimeout : Duration}
    {r : Request} {s : Calling} {error : CallError}
    (hRun : Run (Calling.step checks r) (Calling.Orderly r) (.new cfg sendTimeout) s)
    (hReturned : s.place = .returned (.error error)) :
    r.rpcId ∉ s.waiters ∧ ∀ msgId ∈ s.mine,
      s.transport.sender.out.lookup (r.server, msgId) = none ∧
        ∀ s', Run (Calling.step checks r) (Calling.Orderly r) s s' →
          ∃ later, s'.emitted = s.emitted ++ later ∧
            ∀ x ∈ later, ¬ Concerns (r.server, msgId) x := by
  have hI := Calling.run_inv hRun
  refine ⟨hI.waiter (by rw [hReturned]; trivial), fun msgId hMem => ?_⟩
  have hPast : Calling.Past r s msgId := by
    have hMine := hI.mine msgId hMem
    rw [hReturned] at hMine
    rcases hMine with hAnswered | hCurrent | hPast
    · cases hAnswered
    · cases hCurrent
    · exact hPast
  exact ⟨hPast.out, fun s' hLater => hPast.run hI hMem hLater⟩

def shortCfg : TransportConfig :=
  { sampleCfg with packetSize := 16, packetSize_pos := by decide, unscheduledBytes := 16 }

def shortRequest : Request := ⟨.v4 2 2, [7], 1, 1⟩

def oneAttempt : List CallingEvent := [.register, .number 0, .start]

/-- No response comes, while another call sends a message. -/
theorem failed_call_clean_expired : ∃ s : Calling,
    s.emitted.length = 2 ∧ s.mine = [1] ∧
      (∃ message, s.place = .returned (.error (.timedOut message))) ∧
      1 ∉ s.waiters ∧ s.transport.sender.out.lookup (.v4 2 2, 1) = none := by
  obtain ⟨s, hRun, hTest⟩ := exists_run_of_exec (Calling.step true shortRequest)
    (Calling.Orderly shortRequest) (.new shortCfg 30)
    (oneAttempt ++ [.direct none, .send (.v4 2 2) [9] 5 true false, .direct none,
      .receive none, .remove, .finish])
    (fun s => decide (s.emitted.length = 2 ∧ s.mine = [1] ∧
      s.place = .returned (.error (.timedOut (RpcClient.timeoutMessage shortRequest)))))
    (by decide +kernel)
  obtain ⟨hEmitted, hMine, hReturned⟩ := of_decide_eq_true hTest
  have hClean := failed_call_clean hRun hReturned
  refine ⟨s, hEmitted, hMine, ⟨_, hReturned⟩, hClean.1, (hClean.2 1 ?_).1⟩
  rw [hMine]
  exact mem_cons_self

/-- The socket refuses the only datagram of a short request, the call returns the error, and the
next tick that is due sends the request. -/
theorem not_failed_call_clean : ∃ s s' : Calling,
    Run (Calling.step true shortRequest) Always (.new shortCfg 30) s ∧
      s.place = .returned (.error (.send "refused")) ∧ s.mine = [1] ∧ 1 ∈ s.waiters ∧
      s.transport.sender.out.lookup (.v4 2 2, 1) ≠ none ∧ s.queued = [] ∧ s.emitted = [] ∧
      Run (Calling.step true shortRequest) Always s s' ∧
      ∃ x ∈ s'.emitted, Concerns (.v4 2 2, 1) x := by
  obtain ⟨s, hRun, hTest⟩ := exists_run_of_exec (Calling.step true shortRequest) Always
    (.new shortCfg 30) (oneAttempt ++ [.direct (some "refused")])
    (fun s => decide (s.place = .returned (.error (.send "refused")) ∧ s.mine = [1] ∧
      1 ∈ s.waiters ∧ s.transport.sender.out.lookup (.v4 2 2, 1) ≠ none ∧
      s.queued = [] ∧ s.emitted = [] ∧
      (exec (Calling.step true shortRequest) Always s
        [.tick 1000 (.stored _) (.stored _), .batch, .flush 0]).any
          (fun s' => decide (∃ x ∈ s'.emitted, Concerns (.v4 2 2, 1) x)) = true))
    (by decide +kernel)
  obtain ⟨hReturned, hMine, hWaiter, hEntry, hQueued, hEmitted, hLater⟩ := of_decide_eq_true hTest
  obtain ⟨s', hRun', hSent⟩ := exists_run_of_exec _ _ s _ _ hLater
  exact ⟨s, s', hRun, hReturned, hMine, hWaiter, hEntry, hQueued, hEmitted, hRun',
    of_decide_eq_true hSent⟩

end DirectWire.Homa
