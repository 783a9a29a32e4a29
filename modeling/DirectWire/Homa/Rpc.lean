import DirectWire.Lib.Bytes
import DirectWire.Lib.Map
import DirectWire.Lib.Platform
import DirectWire.Lib.Run

/-!
# Homa — the RPC layer

`rpc/mod.rs`: a client numbers its calls and sends a request until an answer comes or the attempts
are used up. A server notes every client and number it has seen; the handler for a new one runs in
a pool of threads, and a repeated one gets the stored response.

A transition is what one thread does between two points where another may come in. The transport
is a network that keeps what was sent and hands over any of it at any time.
-/

namespace DirectWire.Homa

open Lib Function

/-! ## Frames -/

def rpcHdr : Nat := 8

def encodeFrame (rpcId : UInt64) (body : Bytes) : Bytes := leBytes 8 rpcId.toNat ++ body

def decodeFrame (frame : Bytes) : Option (UInt64 × Bytes) :=
  if frame.length < rpcHdr then none
  else some (UInt64.ofNat (leNat (frame.take 8)), frame.drop rpcHdr)

/-- A frame decodes to what it was made of. -/
theorem decodeFrame_encodeFrame (rpcId : UInt64) (body : Bytes) :
    decodeFrame (encodeFrame rpcId body) = some (rpcId, body) := by
  have hLen : (leBytes 8 rpcId.toNat).length = 8 := leBytes_length _ _
  have hEnough : ¬ (encodeFrame rpcId body).length < rpcHdr := by
    rw [encodeFrame, List.length_append, hLen, rpcHdr]
    omega
  rw [decodeFrame, if_neg hEnough, encodeFrame, rpcHdr, List.take_left' hLen, List.drop_left' hLen,
    leNat_leBytes (u64_lt_pow rpcId), UInt64.ofNat_toNat]

/-! ## The client -/

/-- The arguments of `call_with_timeout`, and the number drawn for the call. -/
structure Request where
  server : SocketAddr
  payload : Bytes
  maxAttempts : UInt32
  rpcId : UInt64
deriving DecidableEq

def Request.attempts (r : Request) : Nat := max r.maxAttempts.toNat 1

inductive CallError where
  /-- `send_pokeable` has failed. -/
  | send (error : String)
  | timedOut (message : String)
deriving DecidableEq

inductive Stage where
  | start
  /-- The waiter is registered, the request not yet sent. -/
  | registered
  /-- In `recv_timeout`. -/
  | waiting
  /-- `recv_timeout` has returned an error. -/
  | expired
  | ok (body : Bytes)
  | failed (error : CallError)
deriving DecidableEq

/-- The local state of a call: the attempts before this one, and what is in the
channel that was made for this one. -/
structure Progress where
  attempt : Nat
  inbox : List Bytes
  stage : Stage

/-- The sender of a channel: the call and the attempt it was made for. -/
structure Channel where
  call : Nat
  attempt : Nat
deriving DecidableEq

structure RpcClient where
  nextId : UInt64
  waiters : Map UInt64 Channel
  /-- The calls that were made, in the order of their numbers. -/
  calls : List Request
  progress : Nat → Progress
  /-- What the dispatcher has taken from the waiters and not yet sent on. -/
  dispatcher : Option (Channel × Bytes)

namespace RpcClient

def new : RpcClient := ⟨1, ∅, [], fun _ => ⟨0, [], .start⟩, none⟩

def callAt (k : RpcClient) (i : Nat) (stage : Stage) : Option Request :=
  if (k.progress i).stage = stage then k.calls[i]? else none

def setStage (k : RpcClient) (i : Nat) (stage : Stage) : RpcClient :=
  { k with progress := update k.progress i { k.progress i with stage } }

theorem setStage_progress (k : RpcClient) (i : Nat) (stage : Stage) :
    (k.setStage i stage).progress i = { k.progress i with stage } :=
  update_self _ _ _

/-- `call_with_timeout` is entered: `fetch_add` wraps around. -/
def callWithTimeout (k : RpcClient) (server : SocketAddr) (payload : Bytes)
    (maxAttempts : UInt32) : RpcClient :=
  { k with
    nextId := k.nextId + 1
    calls := k.calls ++ [⟨server, payload, maxAttempts, k.nextId⟩]
    progress := update k.progress k.calls.length ⟨0, [], .start⟩ }

def register (k : RpcClient) (i : Nat) (r : Request) : RpcClient :=
  { k with
    waiters := k.waiters.insert r.rpcId ⟨i, (k.progress i).attempt⟩
    progress := update k.progress i ⟨(k.progress i).attempt, [], .registered⟩ }

def timeoutMessage (r : Request) : String :=
  "rpc " ++ toString r.rpcId.toNat ++ " timeout after " ++ toString r.maxAttempts.toNat ++
    " attempts"

def giveUp (k : RpcClient) (i : Nat) (r : Request) : RpcClient :=
  let attempt := (k.progress i).attempt + 1
  -- whoever's sender it is: the map knows it by the number only
  { k with
    waiters := k.waiters.erase r.rpcId
    progress := update k.progress i
      (if attempt < r.attempts then ⟨attempt, [], .start⟩
        else ⟨attempt, [], .failed (.timedOut (timeoutMessage r))⟩) }

/-- The dispatcher has received a message; it does not look at the source. -/
def onResponse (k : RpcClient) (frame : Bytes) : RpcClient :=
  match decodeFrame frame with
  | none => k
  | some (rpcId, body) =>
    match k.waiters.lookup rpcId with
    -- nobody waits for this number, or not any more
    | none => k
    | some tx => { k with waiters := k.waiters.erase rpcId, dispatcher := some (tx, body) }

/-- `tx.send`: the channel of an earlier attempt has no receiver any more. -/
def dispatch (k : RpcClient) (tx : Channel) (body : Bytes) : RpcClient :=
  let p := k.progress tx.call
  { k with
    dispatcher := none
    progress := update k.progress tx.call
      (if p.attempt = tx.attempt then { p with inbox := p.inbox ++ [body] } else p) }

end RpcClient

/-! ## The server -/

inductive Job where
  | replay (src : SocketAddr) (resp : Bytes)
  | handle (src : SocketAddr) (rpcId : UInt64) (frame : Bytes)
deriving DecidableEq

inductive Task where
  | handling (src : SocketAddr) (rpcId : UInt64) (frame : Bytes)
  | computed (src : SocketAddr) (rpcId : UInt64) (resp : Bytes)
  | answering (src : SocketAddr) (resp : Bytes)
deriving DecidableEq

def Job.task : Job → Task
  | .replay src resp => .answering src resp
  | .handle src rpcId frame => .handling src rpcId frame

def serverPoolSize : Nat := 32

structure RpcServer where
  dedup : Map (SocketAddr × UInt64) (Option Bytes)
  submitting : Option Job
  jobs : List Job
  running : List Task

namespace RpcServer

def new : RpcServer := ⟨∅, none, [], []⟩

def onRequest (v : RpcServer) (src : SocketAddr) (frame : Bytes) : RpcServer :=
  match decodeFrame frame with
  | none => v
  | some (rpcId, _) =>
    match v.dedup.lookup (src, rpcId) with
    | some (some cached) => { v with submitting := some (.replay src cached) }
    -- the handler is at work on it
    | some none => v
    -- noted under the same lock, before the handler runs
    | none =>
      { v with
        dedup := v.dedup.insert (src, rpcId) none
        submitting := some (.handle src rpcId frame) }

def submit (v : RpcServer) (job : Job) : RpcServer :=
  { v with submitting := none, jobs := v.jobs ++ [job] }

/-- The handler has returned, or panicked: then the worker drops the job. -/
def handled (v : RpcServer) (src : SocketAddr) (rpcId : UInt64) (frame : Bytes)
    (result : Option Bytes) : RpcServer :=
  { v with
    running := (result.map fun body => Task.computed src rpcId (encodeFrame rpcId body)).toList ++
      v.running.erase (.handling src rpcId frame) }

def store (v : RpcServer) (src : SocketAddr) (rpcId : UInt64) (resp : Bytes) : RpcServer :=
  { v with
    dedup := v.dedup.insert (src, rpcId) (some resp)
    running := .answering src resp :: v.running.erase (.computed src rpcId resp) }

def answered (v : RpcServer) (src : SocketAddr) (resp : Bytes) : RpcServer :=
  { v with running := v.running.erase (.answering src resp) }

end RpcServer

/-! ## The system -/

structure Message where
  src : SocketAddr
  dst : SocketAddr
  frame : Bytes
deriving DecidableEq

/-- One run of a handler: for whom, on what, and what it returned, if it did. -/
structure Execution where
  client : SocketAddr
  rpcId : UInt64
  body : Bytes
  result : Option Bytes
deriving DecidableEq

def Execution.key (x : Execution) : SocketAddr × UInt64 := (x.client, x.rpcId)

/-- Clients and servers, one of them at an address, with all messages that may
arrive and all runs of the servers' handlers. -/
structure Rpc where
  serves : SocketAddr → Bool
  client : SocketAddr → RpcClient
  server : SocketAddr → RpcServer
  sent : List Message
  runs : SocketAddr → List Execution

inductive RpcEvent where
  | call (c server : SocketAddr) (payload : Bytes) (maxAttempts : UInt32)
  | register (c : SocketAddr) (i : Nat)
  /-- `send_pokeable`, with its error if it fails. -/
  | send (c : SocketAddr) (i : Nat) (error : Option String)
  /-- `recv_timeout` returns what is in the channel. -/
  | receive (c : SocketAddr) (i : Nat)
  /-- `recv_timeout` returns an error. -/
  | expire (c : SocketAddr) (i : Nat)
  | giveUp (c : SocketAddr) (i : Nat)
  /-- `transport.recv` hands over a message. -/
  | arrive (m : Message)
  | dispatch (c : SocketAddr)
  | submit (a : SocketAddr)
  | take (a : SocketAddr)
  | handled (a src : SocketAddr) (rpcId : UInt64) (frame : Bytes) (result : Option Bytes)
  | store (a src : SocketAddr) (rpcId : UInt64) (resp : Bytes)
  | answer (a src : SocketAddr) (resp : Bytes)

namespace Rpc

def setClient (s : Rpc) (c : SocketAddr) (k : RpcClient) : Rpc :=
  { s with client := update s.client c k }

def setServer (s : Rpc) (a : SocketAddr) (v : RpcServer) : Rpc :=
  { s with server := update s.server a v }

def transmit (s : Rpc) (m : Message) : Rpc := { s with sent := m :: s.sent }

def step (s : Rpc) : RpcEvent → Option Rpc
  | .call c server payload maxAttempts =>
    if s.serves c then none
    else some (s.setClient c ((s.client c).callWithTimeout server payload maxAttempts))
  | .register c i => ((s.client c).callAt i .start).map fun r =>
    s.setClient c ((s.client c).register i r)
  | .send c i error => ((s.client c).callAt i .registered).map fun r =>
    -- after an error the waiter stays registered, and the sender core, which has the message, may
    -- still send it
    (s.setClient c ((s.client c).setStage i (error.elim .waiting (.failed <| .send ·)))).transmit
      ⟨c, r.server, encodeFrame r.rpcId r.payload⟩
  | .receive c i => ((s.client c).callAt i .waiting).bind fun _ =>
    ((s.client c).progress i).inbox.head?.map fun body =>
      s.setClient c ((s.client c).setStage i (.ok body))
  | .expire c i => ((s.client c).callAt i .waiting).bind fun _ =>
    if ((s.client c).progress i).inbox = [] then
      some (s.setClient c ((s.client c).setStage i .expired))
    else none
  | .giveUp c i => ((s.client c).callAt i .expired).map fun r =>
    s.setClient c ((s.client c).giveUp i r)
  | .arrive m =>
    if m ∉ s.sent then none
    else if s.serves m.dst then
      -- the loop comes back to `recv` when it has submitted
      if (s.server m.dst).submitting = none then
        some (s.setServer m.dst ((s.server m.dst).onRequest m.src m.frame))
      else none
    else if (s.client m.dst).dispatcher = none then
      some (s.setClient m.dst ((s.client m.dst).onResponse m.frame))
    else none
  | .dispatch c => (s.client c).dispatcher.map fun (tx, body) =>
    s.setClient c ((s.client c).dispatch tx body)
  | .submit a => (s.server a).submitting.map fun job => s.setServer a ((s.server a).submit job)
  | .take a =>
    match (s.server a).jobs with
    | [] => none
    | job :: rest =>
      -- a worker is idle
      if (s.server a).running.length < serverPoolSize then
        some (s.setServer a
          { s.server a with jobs := rest, running := job.task :: (s.server a).running })
      else none
  | .handled a src rpcId frame result =>
    if .handling src rpcId frame ∈ (s.server a).running then
      -- the handler may return anything, also different bodies for the same request
      some { s.setServer a ((s.server a).handled src rpcId frame result) with
        runs := update s.runs a
          (⟨src, rpcId, frame.drop rpcHdr, result⟩ :: s.runs a) }
    else none
  | .store a src rpcId resp =>
    if .computed src rpcId resp ∈ (s.server a).running then
      some (s.setServer a ((s.server a).store src rpcId resp))
    else none
  | .answer a src resp =>
    if .answering src resp ∈ (s.server a).running then
      some ((s.setServer a ((s.server a).answered src resp)).transmit ⟨a, src, resp⟩)
    else none

structure Start (s : Rpc) : Prop where
  client : ∀ c, s.client c = .new
  server : ∀ a, s.server a = .new
  sent : s.sent = []
  runs : ∀ a, s.runs a = []

def ToServers (s : Rpc) : RpcEvent → Prop
  | .call _ server _ _ => s.serves server = true
  | _ => True

instance decidableToServers (s : Rpc) (ev : RpcEvent) : Decidable (s.ToServers ev) :=
  match ev with
  | .call _ _ _ _ => inferInstanceAs (Decidable (_ = _))
  | .register _ _ | .send _ _ _ | .receive _ _ | .expire _ _ | .giveUp _ _ | .arrive _
  | .dispatch _ | .submit _ | .take _ | .handled _ _ _ _ _ | .store _ _ _ _ | .answer _ _ _ =>
    .isTrue trivial

end Rpc

/-! ## Steps -/

/-- What a client can do, when its calls may go to the addresses `To` and the
messages `In` may arrive. -/
inductive ClientStep (To : SocketAddr → Prop) (In : Bytes → Prop) (k : RpcClient) :
    RpcClient → Prop where
  | call {server payload maxAttempts} (hTo : To server) :
      ClientStep To In k (k.callWithTimeout server payload maxAttempts)
  | register {i r} (hCall : k.calls[i]? = some r) : ClientStep To In k (k.register i r)
  | stage {i stage} (hBody : ∀ body, stage = .ok body → body ∈ (k.progress i).inbox) :
      ClientStep To In k (k.setStage i stage)
  | giveUp {i r} (hCall : k.calls[i]? = some r) : ClientStep To In k (k.giveUp i r)
  | response {frame} (hIn : In frame) : ClientStep To In k (k.onResponse frame)
  | dispatch {tx body} (hTaken : k.dispatcher = some (tx, body)) :
      ClientStep To In k (k.dispatch tx body)

/-- What a server can do, with the runs of its handler, when the messages `In`
may arrive. -/
inductive ServerStep (In : SocketAddr → Bytes → Prop) (v : RpcServer) (runs : List Execution) :
    RpcServer → List Execution → Prop where
  | request {src frame} (hIn : In src frame) (hIdle : v.submitting = none) :
      ServerStep In v runs (v.onRequest src frame) runs
  | submit {job} (hJob : v.submitting = some job) : ServerStep In v runs (v.submit job) runs
  | take {job rest} (hJobs : v.jobs = job :: rest) :
      ServerStep In v runs { v with jobs := rest, running := job.task :: v.running } runs
  | handled {src rpcId frame result} (hTask : .handling src rpcId frame ∈ v.running) :
      ServerStep In v runs (v.handled src rpcId frame result)
        (⟨src, rpcId, frame.drop rpcHdr, result⟩ :: runs)
  | store {src rpcId resp} (hTask : .computed src rpcId resp ∈ v.running) :
      ServerStep In v runs (v.store src rpcId resp) runs
  | answer {src resp} (hTask : .answering src resp ∈ v.running) :
      ServerStep In v runs (v.answered src resp) runs

namespace Rpc

/-- A step of the system is a step of each client and each server, or none, and
a message that is sent is a request or an answer. -/
structure Advance (s s' : Rpc) : Prop where
  serves : s'.serves = s.serves
  client : ∀ c, s'.client c = s.client c ∨
    ClientStep (fun a => s.serves c = false ∧ s.serves a = true)
      (fun frame => s.serves c = false ∧ ∃ src, ⟨src, c, frame⟩ ∈ s.sent)
      (s.client c) (s'.client c)
  server : ∀ a, s'.server a = s.server a ∧ s'.runs a = s.runs a ∨
    ServerStep (fun src frame => s.serves a = true ∧ ⟨src, a, frame⟩ ∈ s.sent)
      (s.server a) (s.runs a) (s'.server a) (s'.runs a)
  sent : ∀ m ∈ s'.sent, m ∈ s.sent ∨
    (∃ r ∈ (s.client m.src).calls, m.dst = r.server ∧ m.frame = encodeFrame r.rpcId r.payload) ∨
    .answering m.dst m.frame ∈ (s.server m.src).running

variable {s s' : Rpc} {ev : RpcEvent}

theorem Advance.of_client {c k}
    (h : ClientStep (fun a => s.serves c = false ∧ s.serves a = true)
      (fun frame => s.serves c = false ∧ ∃ src, ⟨src, c, frame⟩ ∈ s.sent) (s.client c) k) :
    Advance s (s.setClient c k) := by
  refine ⟨rfl, fun c' => ?_, fun a => .inl ⟨rfl, rfl⟩, fun m hm => .inl hm⟩
  by_cases hc : c' = c
  · subst hc
    right
    show ClientStep _ _ _ (update s.client c' k c')
    rw [update_self]
    exact h
  · exact .inl (update_of_ne hc _ _)

theorem Advance.of_server {a v runs}
    (h : ServerStep (fun src frame => s.serves a = true ∧ ⟨src, a, frame⟩ ∈ s.sent)
      (s.server a) (s.runs a) v runs) :
    Advance s { s.setServer a v with runs := update s.runs a runs } := by
  refine ⟨rfl, fun c => .inl rfl, fun a' => ?_, fun m hm => .inl hm⟩
  by_cases ha : a' = a
  · subst ha
    right
    show ServerStep _ _ _ (update s.server a' v a') (update s.runs a' runs a')
    rw [update_self, update_self]
    exact h
  · exact .inl ⟨update_of_ne ha _ _, update_of_ne ha _ _⟩

theorem Advance.of_server_quiet {a v}
    (h : ServerStep (fun src frame => s.serves a = true ∧ ⟨src, a, frame⟩ ∈ s.sent)
      (s.server a) (s.runs a) v (s.runs a)) : Advance s (s.setServer a v) := by
  have hAdvance := Advance.of_server h
  rw [update_eq_self] at hAdvance
  exact hAdvance

theorem Advance.transmit {m} (h : Advance s s')
    (hMessage : (∃ r ∈ (s.client m.src).calls, m.dst = r.server ∧
        m.frame = encodeFrame r.rpcId r.payload) ∨
      .answering m.dst m.frame ∈ (s.server m.src).running) : Advance s (s'.transmit m) := by
  refine ⟨h.serves, h.client, h.server, fun m' hm' => ?_⟩
  rcases List.mem_cons.mp hm' with rfl | hm'
  · exact .inr hMessage
  · exact h.sent m' hm'

theorem callAt_eq_some {k : RpcClient} {i : Nat} {stage : Stage} {r : Request}
    (h : k.callAt i stage = some r) : k.calls[i]? = some r := by
  unfold RpcClient.callAt at h
  split at h
  · exact h
  · cases h

/-- A step is a step of one client or of one server. -/
theorem step_advance (hOk : s.ToServers ev) (h : s.step ev = some s') : Advance s s' := by
  cases ev with
  | call c server payload maxAttempts =>
    simp only [step] at h
    split at h
    · cases h
    · rename_i hServes
      cases h
      exact .of_client (.call ⟨by simpa using hServes, hOk⟩)
  | register =>
    obtain ⟨r, hCall, rfl⟩ := Option.map_eq_some_iff.mp h
    exact .of_client (.register (callAt_eq_some hCall))
  | send c i error =>
    obtain ⟨r, hCall, rfl⟩ := Option.map_eq_some_iff.mp h
    -- the one step of a client that sends a message
    refine (Advance.of_client (.stage fun body hOk => ?_)).transmit (.inl ⟨r, ?_⟩)
    · cases error <;> cases hOk
    · exact ⟨List.mem_of_getElem? (callAt_eq_some hCall), rfl, rfl⟩
  | receive c i =>
    obtain ⟨r, hCall, h⟩ := Option.bind_eq_some_iff.mp h
    obtain ⟨body, hBody, rfl⟩ := Option.map_eq_some_iff.mp h
    refine .of_client (.stage fun body' hOk => ?_)
    cases hOk
    exact List.mem_of_mem_head? hBody
  | expire c i =>
    obtain ⟨r, hCall, h⟩ := Option.bind_eq_some_iff.mp h
    split at h
    · cases h
      exact .of_client (.stage fun body hOk => by cases hOk)
    · cases h
  | giveUp =>
    obtain ⟨r, hCall, rfl⟩ := Option.map_eq_some_iff.mp h
    exact .of_client (.giveUp (callAt_eq_some hCall))
  | arrive m =>
    simp only [step] at h
    split at h
    · cases h
    · rename_i hSent
      have hSent := not_not.mp hSent
      split at h
      · rename_i hServes
        split at h
        · rename_i hIdle
          cases h
          exact .of_server_quiet (.request ⟨hServes, hSent⟩ hIdle)
        · cases h
      · rename_i hServes
        split at h
        · cases h
          exact .of_client (.response ⟨by simpa using hServes, m.src, hSent⟩)
        · cases h
  | dispatch =>
    obtain ⟨⟨tx, body⟩, hTaken, rfl⟩ := Option.map_eq_some_iff.mp h
    exact .of_client (.dispatch hTaken)
  | submit =>
    obtain ⟨job, hJob, rfl⟩ := Option.map_eq_some_iff.mp h
    exact .of_server_quiet (.submit hJob)
  | take a =>
    simp only [step] at h
    split at h
    · cases h
    · rename_i job rest hJobs
      split at h
      · cases h
        exact .of_server_quiet (.take hJobs)
      · cases h
  | handled a src rpcId frame result =>
    simp only [step] at h
    split at h
    · rename_i hTask
      cases h
      exact .of_server (.handled hTask)
    · cases h
  | store a src rpcId resp =>
    simp only [step] at h
    split at h
    · rename_i hTask
      cases h
      exact .of_server_quiet (.store hTask)
    · cases h
  | answer a src resp =>
    simp only [step] at h
    split at h
    · rename_i hTask
      cases h
      exact (Advance.of_server_quiet (.answer hTask)).transmit (.inr hTask)
    · cases h

end Rpc

end DirectWire.Homa
