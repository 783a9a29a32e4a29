import DirectWire.Homa.Calls

/-!
# Homa — the server on its own

The server of `rpc/mod.rs` under any requests from anywhere. The table knows a request by its
source and number and is never cleared, so a client that is started anew at the same address gets
the answers of its predecessor. A request is noted as being in progress before its handler runs,
and when the handler panics the note stays.
-/

namespace DirectWire.Homa

open Lib List Option

structure Assigned (α : Type) where
  request : Bytes
  item : α
deriving DecidableEq

/-- A response that was sent, with the request it was sent for. -/
structure Reply where
  src : SocketAddr
  request : Bytes
  resp : Bytes
deriving DecidableEq

structure Service where
  dedup : Map (SocketAddr × UInt64) (Option Bytes)
  submitting : Option (Assigned Job)
  jobs : List (Assigned Job)
  running : List (Assigned Task)
  runs : List Execution
  requests : List (SocketAddr × Bytes)
  replies : List Reply

inductive ServiceEvent where
  | request (src : SocketAddr) (frame : Bytes)
  | submit
  | take
  | handled (worker : Nat) (result : Option Bytes)
  | store (worker : Nat)
  | answer (worker : Nat)

def Task.body? : Task → Option Bytes
  | .handling _ _ frame => some (frame.drop rpcHdr)
  | .computed _ _ _ | .answering _ _ => none

namespace Service

def new : Service := ⟨∅, none, [], [], [], [], []⟩

def server (s : Service) : RpcServer :=
  ⟨s.dedup, s.submitting.map (·.item), s.jobs.map (·.item), s.running.map (·.item)⟩

def onRequest (s : Service) (src : SocketAddr) (frame : Bytes) : Service :=
  let v := s.server.onRequest src frame
  { s with
    dedup := v.dedup
    submitting := v.submitting.map (⟨frame, ·⟩)
    requests := s.requests ++ [(src, frame)] }

def step (s : Service) : ServiceEvent → Option Service
  | .request src frame => if s.submitting = none then some (s.onRequest src frame) else none
  | .submit => s.submitting.map fun a => { s with submitting := none, jobs := s.jobs ++ [a] }
  | .take =>
    match s.jobs with
    | [] => none
    | a :: rest =>
      if s.running.length < serverPoolSize then
        some { s with jobs := rest, running := ⟨a.request, a.item.task⟩ :: s.running }
      else none
  | .handled n result =>
    match s.running[n]? with
    | some ⟨request, .handling src rpcId frame⟩ =>
      -- a worker whose handler panics drops the job
      some { s with
        running := (result.map fun body =>
          ⟨request, Task.computed src rpcId (encodeFrame rpcId body)⟩).toList ++
            s.running.eraseIdx n
        runs := ⟨src, rpcId, frame.drop rpcHdr, result⟩ :: s.runs }
    | _ => none
  | .store n =>
    match s.running[n]? with
    | some ⟨request, .computed src rpcId resp⟩ =>
      some { s with
        dedup := s.dedup.insert (src, rpcId) (some resp)
        running := ⟨request, .answering src resp⟩ :: s.running.eraseIdx n }
    | _ => none
  | .answer n =>
    match s.running[n]? with
    | some ⟨request, .answering src resp⟩ =>
      some { s with
        running := s.running.eraseIdx n
        replies := s.replies ++ [⟨src, request, resp⟩] }
    | _ => none

def Obeys (handler : Bytes → Option Bytes) (s : Service) : ServiceEvent → Prop
  | .handled n result => ∀ a ∈ s.running[n]?, ∀ body ∈ a.item.body?, result = handler body
  | _ => True

instance decidableObeys (handler : Bytes → Option Bytes) (s : Service) (e : ServiceEvent) :
    Decidable (s.Obeys handler e) :=
  match e with
  | .handled n result => inferInstanceAs (Decidable (∀ a ∈ s.running[n]?,
      ∀ body ∈ a.item.body?, result = handler body))
  | .request .. | .submit | .take | .store _ | .answer _ => .isTrue trivial

end Service

/-! ## Steps -/

/-- What the loop makes of a request: the table afterwards, and a job. -/
inductive Receives (s : Service) (src : SocketAddr) (frame : Bytes) :
    Map (SocketAddr × UInt64) (Option Bytes) → Option (Assigned Job) → Prop where
  | malformed (hDecode : decodeFrame frame = none) : Receives s src frame s.dedup none
  | inProgress {rpcId body} (hDecode : decodeFrame frame = some (rpcId, body))
      (hNoted : s.dedup.lookup (src, rpcId) = some none) : Receives s src frame s.dedup none
  | stored {rpcId body cached} (hDecode : decodeFrame frame = some (rpcId, body))
      (hNoted : s.dedup.lookup (src, rpcId) = some (some cached)) :
      Receives s src frame s.dedup (some ⟨frame, .replay src cached⟩)
  | new {rpcId body} (hDecode : decodeFrame frame = some (rpcId, body))
      (hNoted : s.dedup.lookup (src, rpcId) = none) :
      Receives s src frame (s.dedup.insert (src, rpcId) none)
        (some ⟨frame, .handle src rpcId frame⟩)

/-- What the server can do, with the tasks of its workers in any order. -/
inductive ServiceStep (s : Service) : ServiceEvent → Service → Prop where
  | request {src frame dedup job} (hIdle : s.submitting = none)
      (hReceives : Receives s src frame dedup job) :
      ServiceStep s (.request src frame) { s with
        dedup, submitting := job, requests := s.requests ++ [(src, frame)] }
  | submit {a} (hJob : s.submitting = some a) :
      ServiceStep s .submit { s with submitting := none, jobs := s.jobs ++ [a] }
  | take {a rest} (hJobs : s.jobs = a :: rest) :
      ServiceStep s .take { s with
        jobs := rest, running := ⟨a.request, a.item.task⟩ :: s.running }
  | handled {n request frame src rpcId result rest}
      (hTask : s.running[n]? = some ⟨request, .handling src rpcId frame⟩)
      (hRest : s.running.Perm (⟨request, .handling src rpcId frame⟩ :: rest)) :
      ServiceStep s (.handled n result) { s with
        running := (result.map fun body =>
          ⟨request, Task.computed src rpcId (encodeFrame rpcId body)⟩).toList ++ rest
        runs := ⟨src, rpcId, frame.drop rpcHdr, result⟩ :: s.runs }
  | store {n request resp src rpcId rest}
      (hRest : s.running.Perm (⟨request, .computed src rpcId resp⟩ :: rest)) :
      ServiceStep s (.store n) { s with
        dedup := s.dedup.insert (src, rpcId) (some resp)
        running := ⟨request, .answering src resp⟩ :: rest }
  | answer {n request resp src rest}
      (hRest : s.running.Perm (⟨request, .answering src resp⟩ :: rest)) :
      ServiceStep s (.answer n) { s with
        running := rest, replies := s.replies ++ [⟨src, request, resp⟩] }

variable {s s' : Service} {e : ServiceEvent} {handler : Bytes → Option Bytes}

namespace Service

theorem perm_eraseIdx {α : Type} {l : List α} {n : Nat} {a : α} (h : l[n]? = some a) :
    l.Perm (a :: l.eraseIdx n) := by
  obtain ⟨hLt, rfl⟩ := List.getElem?_eq_some_iff.mp h
  exact (List.getElem_cons_eraseIdx_perm hLt).symm

theorem receives (src : SocketAddr) (frame : Bytes) (hIdle : s.submitting = none) :
    Receives s src frame (s.onRequest src frame).dedup (s.onRequest src frame).submitting := by
  simp only [onRequest, RpcServer.onRequest, server, hIdle]
  cases hDecode : decodeFrame frame with
  | none => exact .malformed hDecode
  | some x =>
    obtain ⟨rpcId, body⟩ := x
    dsimp only
    cases hNoted : s.dedup.lookup (src, rpcId) with
    | none => exact .new hDecode hNoted
    | some noted =>
      cases noted with
      | none => exact .inProgress hDecode hNoted
      | some => exact .stored hDecode hNoted

theorem step_cases (h : s.step e = some s') : ServiceStep s e s' := by
  cases e with
  | request src frame =>
    simp only [step] at h
    split at h
    · rename_i hIdle
      cases h
      exact .request hIdle (receives src frame hIdle)
    · cases h
  | submit =>
    obtain ⟨a, hJob, rfl⟩ := map_eq_some_iff.mp h
    exact .submit hJob
  | take =>
    simp only [step] at h
    split at h
    · cases h
    · rename_i a rest hJobs
      split at h
      · cases h
        exact .take hJobs
      · cases h
  | handled n result =>
    simp only [step] at h
    split at h
    · rename_i request src rpcId frame hTask
      cases h
      exact .handled hTask (perm_eraseIdx hTask)
    · cases h
  | store n =>
    simp only [step] at h
    split at h
    · rename_i request src rpcId resp hTask
      cases h
      exact .store (perm_eraseIdx hTask)
    · cases h
  | answer n =>
    simp only [step] at h
    split at h
    · rename_i request src resp hTask
      cases h
      exact .answer (perm_eraseIdx hTask)
    · cases h

end Service

/-! ## What a response says -/

variable {body : Bytes} {rpcId : UInt64} {requests : List (SocketAddr × Bytes)}

theorem decodeFrame_eq_some {frame} (h : decodeFrame frame = some (rpcId, body)) :
    frame.drop rpcHdr = body := by
  rw [decodeFrame] at h
  split at h
  · cases h
  · cases h
    rfl

def firstBody (requests : List (SocketAddr × Bytes)) (src : SocketAddr) (rpcId : UInt64) :
    Option Bytes :=
  requests.findSome? fun r => (decodeFrame r.2).bind fun (id, body) =>
    if r.1 = src ∧ id = rpcId then some body else none

theorem firstBody_append (requests : List (SocketAddr × Bytes)) (src' : SocketAddr)
    (frame : Bytes) (src : SocketAddr) (rpcId : UInt64) :
    firstBody (requests ++ [(src', frame)]) src rpcId =
      (firstBody requests src rpcId).or ((decodeFrame frame).bind fun (id, body) =>
        if src' = src ∧ id = rpcId then some body else none) := by
  rw [firstBody, findSome?_append, firstBody]
  simp

theorem firstBody_mono {r src} (h : firstBody requests src rpcId = some body) :
    firstBody (requests ++ [r]) src rpcId = some body := by
  rw [firstBody_append, h, some_or]

theorem mem_of_firstBody {src} (h : firstBody requests src rpcId = some body) :
    ∃ frame, (src, frame) ∈ requests ∧ decodeFrame frame = some (rpcId, body) := by
  obtain ⟨⟨src', frame⟩, hMem, hFound⟩ := exists_of_findSome?_eq_some h
  obtain ⟨⟨id, body'⟩, hDecode, hIf⟩ := bind_eq_some_iff.mp hFound
  dsimp only at hIf hDecode
  split at hIf
  · rename_i hSame
    obtain ⟨rfl, rfl⟩ := hSame
    cases hIf
    exact ⟨frame, hMem, hDecode⟩
  · cases hIf

/-- The number, with what the handler returns for the first request under it. -/
def Answered (handler : Bytes → Option Bytes) (requests : List (SocketAddr × Bytes))
    (src : SocketAddr) (rpcId : UInt64) (resp : Bytes) : Prop :=
  ∃ first result, firstBody requests src rpcId = some first ∧ handler first = some result ∧
    resp = encodeFrame rpcId result

def Assigned.Serves (handler : Bytes → Option Bytes) (requests : List (SocketAddr × Bytes))
    (a : Assigned Task) : Prop :=
  match a.item with
  | .handling src rpcId frame => a.request = frame ∧ ∃ body,
      decodeFrame frame = some (rpcId, body) ∧ firstBody requests src rpcId = some body
  | .computed src rpcId resp => ∃ body, decodeFrame a.request = some (rpcId, body) ∧
      Answered handler requests src rpcId resp
  | .answering src resp => ∃ rpcId body, decodeFrame a.request = some (rpcId, body) ∧
      Answered handler requests src rpcId resp

def Assigned.task (a : Assigned Job) : Assigned Task := ⟨a.request, a.item.task⟩

theorem Answered.mono {src rpcId resp} (h : Answered handler requests src rpcId resp)
    (r : SocketAddr × Bytes) : Answered handler (requests ++ [r]) src rpcId resp := by
  obtain ⟨first, result, hFirst, hResult, hResp⟩ := h
  exact ⟨first, result, firstBody_mono hFirst, hResult, hResp⟩

theorem Assigned.Serves.mono {a : Assigned Task} (h : a.Serves handler requests)
    (r : SocketAddr × Bytes) : a.Serves handler (requests ++ [r]) := by
  obtain ⟨request, item⟩ := a
  cases item with
  | handling =>
    obtain ⟨hFrame, body, hDecode, hFirst⟩ := h
    exact ⟨hFrame, body, hDecode, firstBody_mono hFirst⟩
  | computed =>
    obtain ⟨body, hDecode, hAnswered⟩ := h
    exact ⟨body, hDecode, hAnswered.mono r⟩
  | answering =>
    obtain ⟨rpcId, body, hDecode, hAnswered⟩ := h
    exact ⟨rpcId, body, hDecode, hAnswered.mono r⟩

namespace Service

/-- What is noted is known, and everything under way has to do with the first
request under its number. -/
structure Truthful (handler : Bytes → Option Bytes) (s : Service) : Prop where
  noted : ∀ src rpcId, s.dedup.lookup (src, rpcId) = none → firstBody s.requests src rpcId = none
  stored : ∀ src rpcId resp, s.dedup.lookup (src, rpcId) = some (some resp) →
    Answered handler s.requests src rpcId resp
  jobs : ∀ a ∈ s.submitting.toList ++ s.jobs, a.task.Serves handler s.requests
  running : ∀ a ∈ s.running, a.Serves handler s.requests
  replies : ∀ r ∈ s.replies, Assigned.Serves handler s.requests ⟨r.request, .answering r.src r.resp⟩

variable {dedup : Map (SocketAddr × UInt64) (Option Bytes)} {frame : Bytes} {src : SocketAddr}

section

variable (hI : s.Truthful handler)

include hI

theorem Truthful.request_noted (hKept : ∀ key, dedup.lookup key = none → s.dedup.lookup key = none)
    (hNoted : ∀ rpcId body, decodeFrame frame = some (rpcId, body) →
      dedup.lookup (src, rpcId) ≠ none) {src' rpcId'} (h : dedup.lookup (src', rpcId') = none) :
    firstBody (s.requests ++ [(src, frame)]) src' rpcId' = none := by
  rw [firstBody_append, hI.noted _ _ (hKept _ h), none_or, bind_eq_none_iff]
  rintro ⟨rpcId, body⟩ hDecode
  refine if_neg ?_
  rintro ⟨rfl, rfl⟩
  exact hNoted _ _ hDecode h

theorem Truthful.first {body rpcId} (hDecode : decodeFrame frame = some (rpcId, body))
    (hNew : s.dedup.lookup (src, rpcId) = none) :
    firstBody (s.requests ++ [(src, frame)]) src rpcId = some body := by
  rw [firstBody_append, hI.noted _ _ hNew, none_or, hDecode, bind_some]
  exact if_pos ⟨rfl, rfl⟩

theorem Truthful.request {job} (h : Receives s src frame dedup job) :
    Truthful handler
      { s with dedup, submitting := job, requests := s.requests ++ [(src, frame)] } := by
  have hStored : ∀ src' rpcId' resp, s.dedup.lookup (src', rpcId') = some (some resp) →
      Answered handler (s.requests ++ [(src, frame)]) src' rpcId' resp :=
    fun _ _ _ hLookup => (hI.stored _ _ _ hLookup).mono _
  have hJobs : ∀ a ∈ s.jobs, a.task.Serves handler (s.requests ++ [(src, frame)]) :=
    fun a hMem => (hI.jobs a (mem_append_right _ hMem)).mono _
  have hRunning : ∀ a ∈ s.running, a.Serves handler (s.requests ++ [(src, frame)]) :=
    fun a hMem => (hI.running a hMem).mono _
  have hReplies : ∀ r ∈ s.replies, Assigned.Serves handler (s.requests ++ [(src, frame)])
      ⟨r.request, .answering r.src r.resp⟩ := fun r hMem => (hI.replies r hMem).mono _
  cases h with
  | malformed hDecode =>
    refine ⟨fun _ _ => hI.request_noted (fun _ h => h) fun _ _ hSome => ?_, hStored, hJobs,
      hRunning, hReplies⟩
    rw [hDecode] at hSome
    cases hSome
  | inProgress hDecode hNoted =>
    refine ⟨fun _ _ => hI.request_noted (fun _ h => h) fun _ _ hSome => ?_, hStored, hJobs,
      hRunning, hReplies⟩
    cases hDecode.symm.trans hSome
    rw [hNoted]
    exact some_ne_none _
  | stored hDecode hNoted =>
    refine ⟨fun _ _ => hI.request_noted (fun _ h => h) fun _ _ hSome => ?_, hStored,
      forall_mem_cons.mpr ⟨⟨_, _, hDecode, hStored _ _ _ hNoted⟩, hJobs⟩, hRunning, hReplies⟩
    cases hDecode.symm.trans hSome
    rw [hNoted]
    exact some_ne_none _
  | new hDecode hNoted =>
    refine ⟨fun _ _ => hI.request_noted (fun key h => ?_) fun _ _ hSome => ?_,
      fun src' rpcId' resp hLookup => ?_,
      forall_mem_cons.mpr ⟨⟨rfl, _, hDecode, hI.first hDecode hNoted⟩, hJobs⟩, hRunning,
      hReplies⟩
    · rw [Map.lookup_insert_ite] at h
      split at h
      · cases h
      · exact h
    · cases hDecode.symm.trans hSome
      rw [Map.lookup_insert_ite, if_pos rfl]
      exact some_ne_none _
    · rw [Map.lookup_insert_ite] at hLookup
      split at hLookup
      · cases hLookup
      · exact hStored _ _ _ hLookup

theorem Truthful.step (hOk : s.Obeys handler e) (h : ServiceStep s e s') : s'.Truthful handler := by
  cases h with
  | request hIdle hReceives => exact hI.request hReceives
  | submit hJob =>
    rename_i a
    refine ⟨hI.noted, hI.stored, fun b hMem => hI.jobs b ?_, hI.running, hI.replies⟩
    rw [hJob]
    exact (perm_append_singleton a s.jobs).mem_iff.mp hMem
  | take hJobs =>
    rename_i a rest
    have hQueue : ∀ b ∈ a :: rest, b.task.Serves handler s.requests := fun b hMem =>
      hI.jobs b (mem_append_right _ (hJobs ▸ hMem))
    refine ⟨hI.noted, hI.stored, fun b hMem => ?_,
      forall_mem_cons.mpr ⟨hQueue a mem_cons_self, hI.running⟩, hI.replies⟩
    rcases mem_append.mp hMem with hHeld | hLater
    · exact hI.jobs b (mem_append_left _ hHeld)
    · exact hQueue b (mem_cons_of_mem _ hLater)
  | handled hTask hRest =>
    rename_i n request frame src rpcId result rest
    have hTasks := hI.running
    simp only [hRest.mem_iff, forall_mem_cons] at hTasks
    obtain ⟨⟨hFrame, body, hDecode, hFirst⟩, hOthers⟩ := hTasks
    refine ⟨hI.noted, hI.stored, hI.jobs, ?_, hI.replies⟩
    cases hResult : result with
    | none => exact hOthers
    | some reply =>
      -- the handler has run on the body of the first request
      have hReply : handler body = some reply := by
        rw [← hResult, ← decodeFrame_eq_some hDecode]
        exact (hOk _ hTask _ rfl).symm
      refine forall_mem_cons.mpr ⟨⟨body, ?_, body, reply, hFirst, hReply, rfl⟩, hOthers⟩
      rw [hFrame]
      exact hDecode
  | store hRest =>
    rename_i n request resp src rpcId rest
    have hTasks := hI.running
    simp only [hRest.mem_iff, forall_mem_cons] at hTasks
    obtain ⟨⟨body, hDecode, hAnswered⟩, hOthers⟩ := hTasks
    refine ⟨fun src' rpcId' hLookup => ?_, fun src' rpcId' resp' hLookup => ?_, hI.jobs,
      forall_mem_cons.mpr ⟨⟨rpcId, body, hDecode, hAnswered⟩, hOthers⟩, hI.replies⟩
    · rw [Map.lookup_insert_ite] at hLookup
      split at hLookup
      · cases hLookup
      · exact hI.noted _ _ hLookup
    · rw [Map.lookup_insert_ite] at hLookup
      split at hLookup
      · rename_i hKey
        cases hKey
        cases hLookup
        exact hAnswered
      · exact hI.stored _ _ _ hLookup
  | answer hRest =>
    have hTasks := hI.running
    simp only [hRest.mem_iff, forall_mem_cons] at hTasks
    refine ⟨hI.noted, hI.stored, hI.jobs, hTasks.2, fun r hMem => ?_⟩
    rcases mem_append.mp hMem with hOld | hNew
    · exact hI.replies r hOld
    · rw [mem_singleton.mp hNew]
      exact hTasks.1

end

theorem truthful_of_run (hRun : Run step (Obeys handler) new s) : s.Truthful handler := by
  refine hRun.invariant ⟨fun _ _ _ => rfl, fun _ _ _ h => ?_, fun _ h => ?_, fun _ h => ?_,
    fun _ h => ?_⟩ fun s s' e hI hOk h => hI.step hOk (step_cases h)
  all_goals cases h

end Service

theorem reply_of_first {handler : Bytes → Option Bytes} {s}
    (hRun : Run Service.step (Service.Obeys handler) .new s) {r} (hReply : r ∈ s.replies)
    (hRequest : r.request = encodeFrame rpcId body) :
    ∃ first result, firstBody s.requests r.src rpcId = some first ∧
      handler first = some result ∧ r.resp = encodeFrame rpcId result := by
  obtain ⟨rpcId', body', hDecode, hAnswered⟩ := (Service.truthful_of_run hRun).replies r hReply
  rw [hRequest, decodeFrame_encodeFrame] at hDecode
  cases hDecode
  exact hAnswered

/-- **A response answers its request.** The workers do what `handler` says (`Obeys`), and it makes
no difference between the bodies that this source has sent under this number (`hSame`). Then the
response to a request has its number, and what the handler returns for its body. -/
theorem reply_right {handler : Bytes → Option Bytes} {s : Service}
    (hRun : Run Service.step (Service.Obeys handler) .new s) {r : Reply} (hReply : r ∈ s.replies)
    {rpcId : UInt64} {body : Bytes} (hRequest : r.request = encodeFrame rpcId body)
    (hSame : ∀ frame body', (r.src, frame) ∈ s.requests →
      decodeFrame frame = some (rpcId, body') → handler body' = handler body) :
    ∃ result, handler body = some result ∧ r.resp = encodeFrame rpcId result := by
  obtain ⟨first, result, hFirst, hResult, hResp⟩ := reply_of_first hRun hReply hRequest
  obtain ⟨frame, hMem, hDecode⟩ := mem_of_firstBody hFirst
  refine ⟨result, ?_, hResp⟩
  rw [← hSame frame first hMem hDecode]
  exact hResult

def oneCall (src : SocketAddr) (body : Bytes) : List ServiceEvent :=
  [.request src (encodeFrame 1 body), .submit, .take, .handled 0 (some body), .store 0, .answer 0]

/-- The server echoes, and a client calls it. -/
theorem reply_right_echo : ∃ (s : Service) (r : Reply), r ∈ s.replies ∧
    r.request = encodeFrame 1 [7] ∧ ∃ result, some [7] = some result ∧
      r.resp = encodeFrame 1 result := by
  obtain ⟨s, hRun, hTest⟩ := exists_run_of_exec Service.step (Service.Obeys some) .new
    (oneCall (.v4 1 1) [7]) (fun s => decide (s.requests = [(.v4 1 1, encodeFrame 1 [7])] ∧
      s.replies = [⟨.v4 1 1, encodeFrame 1 [7], encodeFrame 1 [7]⟩])) (by decide +kernel)
  obtain ⟨hRequests, hReplies⟩ := of_decide_eq_true hTest
  have hReply : ⟨.v4 1 1, encodeFrame 1 [7], encodeFrame 1 [7]⟩ ∈ s.replies := by
    rw [hReplies]
    exact mem_cons_self
  refine ⟨s, _, hReply, rfl, reply_right hRun hReply rfl fun frame body' hMem hDecode => ?_⟩
  rw [hRequests, mem_singleton] at hMem
  cases hMem
  rw [decodeFrame_encodeFrame] at hDecode
  cases hDecode
  rfl

/-- A client sends 7 as its first call; another one at the same address then sends 8 and gets 7. -/
theorem not_reply_right : ∃ (s : Service) (r : Reply),
    Run Service.step (Service.Obeys some) .new s ∧ r ∈ s.replies ∧
      r.request = encodeFrame 1 [8] ∧ r.resp = encodeFrame 1 [7] ∧
      ¬ ∃ result, some [8] = some result ∧ r.resp = encodeFrame 1 result := by
  obtain ⟨s, hRun, hTest⟩ := exists_run_of_exec Service.step (Service.Obeys some) .new
    (oneCall (.v4 1 1) [7] ++ [.request (.v4 1 1) (encodeFrame 1 [8]), .submit, .take, .answer 0])
    (fun s => decide (⟨.v4 1 1, encodeFrame 1 [8], encodeFrame 1 [7]⟩ ∈ s.replies))
    (by decide +kernel)
  refine ⟨s, _, hRun, of_decide_eq_true hTest, rfl, rfl, ?_⟩
  rintro ⟨result, hResult, hResp⟩
  cases hResult
  exact absurd hResp (by decide)

/-! ## Requests in progress -/

def Task.unstored : Task → Option (SocketAddr × UInt64)
  | .handling src rpcId _ | .computed src rpcId _ => some (src, rpcId)
  | .answering _ _ => none

namespace Service

variable {key : SocketAddr × UInt64}

/-- A job for the request is in the queue, or a worker is at it and its handler
has not panicked. -/
def HasJob (s : Service) (key : SocketAddr × UInt64) : Prop :=
  (∃ a ∈ s.jobs, a.item.task.unstored = some key) ∨ ∃ a ∈ s.running, a.item.unstored = some key

def Submits (s : Service) (key : SocketAddr × UInt64) : Prop :=
  ∃ a ∈ s.submitting, a.item.task.unstored = some key

def Panicked (s : Service) (key : SocketAddr × UInt64) : Prop :=
  ∃ x ∈ s.runs, x.key = key ∧ x.result = none

def Attends (s : Service) (key : SocketAddr × UInt64) : Prop := s.Submits key ∨ s.HasJob key

theorem attends_step (h : ServiceStep s e s') (key : SocketAddr × UInt64) :
    s'.dedup.lookup key = s.dedup.lookup key ∧ (s'.Attends key ↔ s.Attends key) ∨
      s.dedup.lookup key = none ∧ s'.Attends key ∨
      s.Attends key ∧ (∃ resp, s'.dedup.lookup key = some (some resp)) ∨
      s.Attends key ∧ s'.Panicked key := by
  cases h with
  | request hIdle hReceives =>
    cases hReceives with
    | malformed | inProgress => exact .inl ⟨rfl, by simp [Attends, Submits, HasJob, hIdle]⟩
    | stored => exact .inl ⟨rfl, by simp [Attends, Submits, HasJob, hIdle, Job.task, Task.unstored]⟩
    | new hDecode hNoted =>
      rename_i src frame rpcId body
      by_cases hKey : (src, rpcId) = key
      · subst hKey
        exact .inr (.inl ⟨hNoted, .inl ⟨_, rfl, rfl⟩⟩)
      · have hNot : (Job.handle src rpcId frame).task.unstored ≠ some key := by
          simp [Job.task, Task.unstored, hKey]
        refine .inl ⟨by rw [Map.lookup_insert_ite, if_neg (Ne.symm hKey)], ?_⟩
        simp [Attends, Submits, HasJob, hIdle, hNot]
  | submit hJob =>
    refine .inl ⟨rfl, ?_⟩
    simp only [Attends, Submits, HasJob, hJob, mem_append, mem_singleton, or_and_right,
      exists_or, exists_eq_left, mem_def, some.injEq, exists_eq_left']
    grind
  | take hJobs =>
    refine .inl ⟨rfl, ?_⟩
    simp only [Attends, Submits, HasJob, hJobs, mem_cons, exists_eq_or_imp]
    grind
  | handled hTask hRest =>
    rename_i n request frame src rpcId result rest
    by_cases hPanics : result = none ∧ (src, rpcId) = key
    · obtain ⟨rfl, rfl⟩ := hPanics
      have hBusy := hRest.mem_iff.mpr mem_cons_self
      exact .inr (.inr (.inr ⟨.inr (.inr ⟨_, hBusy, rfl⟩), _, mem_cons_self, rfl, rfl⟩))
    · refine .inl ⟨rfl, ?_⟩
      cases result with
      | none =>
        have hNot : (src, rpcId) ≠ key := fun h => hPanics ⟨rfl, h⟩
        simp [Attends, Submits, HasJob, hRest.mem_iff, Task.unstored, hNot]
      | some => simp [Attends, Submits, HasJob, hRest.mem_iff, Task.unstored]
  | store hRest =>
    rename_i n request resp src rpcId rest
    by_cases hKey : (src, rpcId) = key
    · subst hKey
      have hBusy := hRest.mem_iff.mpr mem_cons_self
      refine .inr (.inr (.inl ⟨.inr (.inr ⟨_, hBusy, rfl⟩), resp, ?_⟩))
      rw [Map.lookup_insert_ite, if_pos rfl]
    · refine .inl ⟨by rw [Map.lookup_insert_ite, if_neg (Ne.symm hKey)], ?_⟩
      simp [Attends, Submits, HasJob, hRest.mem_iff, Task.unstored, hKey]
  | answer hRest =>
    refine .inl ⟨rfl, ?_⟩
    simp [Attends, Submits, HasJob, hRest.mem_iff, Task.unstored]

theorem Panicked.step (hPanicked : s.Panicked key) (h : ServiceStep s e s') : s'.Panicked key := by
  obtain ⟨x, hMem, hX⟩ := hPanicked
  cases h with
  | handled => exact ⟨x, mem_cons_of_mem _ hMem, hX⟩
  | request | submit | take | store | answer => exact ⟨x, hMem, hX⟩

theorem attends_or_panicked (hRun : Run step Always new s)
    (hNoted : s.dedup.lookup key = some none) : s.Attends key ∨ s.Panicked key := by
  revert hNoted
  refine hRun.invariant (I := fun s => s.dedup.lookup key = some none →
    s.Attends key ∨ s.Panicked key) (fun h => by cases h) fun s s' e hI _ h hNoted => ?_
  rcases attends_step (step_cases h) key with ⟨hSame, hAttends⟩ | ⟨-, hAttends⟩ |
    ⟨-, resp, hStored⟩ | ⟨-, hPanicked⟩
  · rw [hSame] at hNoted
    rcases hI hNoted with hStill | hPanicked
    · exact .inl (hAttends.mpr hStill)
    · exact .inr (hPanicked.step (step_cases h))
  · exact .inl hAttends
  · rw [hStored] at hNoted
    cases hNoted
  · exact .inr hPanicked

def Orphan (s : Service) (key : SocketAddr × UInt64) : Prop :=
  s.dedup.lookup key = some none ∧ ¬ s.Attends key

theorem Orphan.run (hOrphan : s.Orphan key) (hRun : Run step Always s s') : s'.Orphan key := by
  refine hRun.invariant (I := (Orphan · key)) hOrphan fun s s' e hI _ h => ?_
  obtain ⟨hNoted, hNobody⟩ := hI
  rcases attends_step (step_cases h) key with ⟨hSame, hAttends⟩ | ⟨hNew, -⟩ | ⟨hAttends, -⟩ |
    ⟨hAttends, -⟩
  · exact ⟨hSame.trans hNoted, fun hAttends' => hNobody (hAttends.mp hAttends')⟩
  · rw [hNoted] at hNew
    cases hNew
  · exact absurd hAttends hNobody
  · exact absurd hAttends hNobody

theorem Orphan.dropped {src rpcId} (hOrphan : s.Orphan (src, rpcId)) {frame body}
    (hDecode : decodeFrame frame = some (rpcId, body)) (h : s.step (.request src frame) = some s') :
    s'.submitting = none := by
  cases step_cases h with
  | request hIdle hReceives =>
    cases hReceives with
    | malformed | inProgress => rfl
    | stored hDecode' hNoted | new hDecode' hNoted =>
      cases hDecode.symm.trans hDecode'
      rw [hOrphan.1] at hNoted
      cases hNoted

end Service

/-- **A request in progress has a job.** If a request is noted as in progress (`hNoted`), the loop
is not between the note and the submission (`hSubmitted`), and the handler has not panicked on it
(`hReturned`), then a job for it is in the queue, or a worker is at it. -/
theorem inProgress_has_job {s : Service} (hRun : Run Service.step Always .new s)
    {key : SocketAddr × UInt64} (hNoted : s.dedup.lookup key = some none)
    (hSubmitted : ¬ s.Submits key) (hReturned : ¬ s.Panicked key) : s.HasJob key := by
  have hAttends := (Service.attends_or_panicked hRun hNoted).resolve_right hReturned
  exact hAttends.resolve_left hSubmitted

/-- A worker is at the first request. -/
theorem inProgress_has_job_running : ∃ s : Service,
    s.dedup.lookup (.v4 1 1, 1) = some none ∧ s.HasJob (.v4 1 1, 1) := by
  obtain ⟨s, hRun, hTest⟩ := exists_run_of_exec Service.step Always .new
    [.request (.v4 1 1) (encodeFrame 1 [7]), .submit, .take]
    (fun s => decide (s.dedup.lookup (.v4 1 1, 1) = some none ∧ s.submitting = none ∧
      s.runs = [])) (by decide +kernel)
  obtain ⟨hNoted, hSubmitting, hRuns⟩ := of_decide_eq_true hTest
  refine ⟨s, hNoted, inProgress_has_job hRun hNoted ?_ ?_⟩
  · rintro ⟨a, hMem, -⟩
    rw [hSubmitting] at hMem
    cases hMem
  · rintro ⟨x, hMem, -⟩
    rw [hRuns] at hMem
    cases hMem

/-- The handler panics on the first request, and each repetition of it is dropped. -/
theorem not_inProgress_has_job : ∃ s : Service, Run Service.step Always .new s ∧
    s.Panicked (.v4 1 1, 1) ∧ ∀ s', Run Service.step Always s s' →
      s'.dedup.lookup (.v4 1 1, 1) = some none ∧ ¬ s'.HasJob (.v4 1 1, 1) ∧
        ∀ body t, s'.step (.request (.v4 1 1) (encodeFrame 1 body)) = some t →
          t.submitting = none := by
  obtain ⟨s, hRun, hTest⟩ := exists_run_of_exec Service.step Always .new
    [.request (.v4 1 1) (encodeFrame 1 [7]), .submit, .take, .handled 0 none]
    (fun s => decide (s.dedup.lookup (.v4 1 1, 1) = some none ∧ s.submitting = none ∧
      s.jobs = [] ∧ s.running = [] ∧ s.runs = [⟨.v4 1 1, 1, [7], none⟩])) (by decide +kernel)
  obtain ⟨hNoted, hSubmitting, hJobs, hRunning, hRuns⟩ := of_decide_eq_true hTest
  have hOrphan : s.Orphan (.v4 1 1, 1) :=
    ⟨hNoted, by simp [Service.Attends, Service.Submits, Service.HasJob, *]⟩
  refine ⟨s, hRun, ⟨_, by rw [hRuns]; exact mem_cons_self, rfl, rfl⟩, fun s' hLater => ?_⟩
  have hStill := hOrphan.run hLater
  refine ⟨hStill.1, fun hJob => hStill.2 (.inr hJob), fun body t hStep => ?_⟩
  exact hStill.dropped (decodeFrame_encodeFrame 1 body) hStep

end DirectWire.Homa
