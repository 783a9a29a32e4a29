import DirectWire.Homa.Rpc
import DirectWire.Lib.Cells

/-!
# Homa — what a call returns

The RPC layer over a network that may lose, repeat, delay and reorder messages. A server notes
the client and the number of a request before the handler runs. A client knows a response only by
its number, which it draws from a counter of 64 bits.
-/

namespace DirectWire.Homa

open Lib List Function RpcClient

/-! ## One run of the handler for a number -/

def Task.key : Task → Option (SocketAddr × UInt64)
  | .handling src rpcId _ => some (src, rpcId)
  | .computed _ _ _ | .answering _ _ => none

def RpcServer.keys (v : RpcServer) (runs : List Execution) : List (SocketAddr × UInt64) :=
  v.submitting.toList.filterMap (·.task.key) ++ v.jobs.filterMap (·.task.key) ++
    v.running.filterMap Task.key ++ runs.map Execution.key

structure Once (v : RpcServer) (runs : List Execution) : Prop where
  nodup : (v.keys runs).Nodup
  noted : ∀ key ∈ v.keys runs, v.dedup.lookup key ≠ none

variable {In : SocketAddr → Bytes → Prop} {v v' : RpcServer} {runs runs' : List Execution}

theorem Once.of_perm (h : Once v runs) (hPerm : (v'.keys runs').Perm (v.keys runs))
    (hNoted : ∀ key, v.dedup.lookup key ≠ none → v'.dedup.lookup key ≠ none) : Once v' runs' :=
  ⟨hPerm.nodup_iff.mpr h.nodup, fun key hKey => hNoted key (h.noted key (hPerm.mem_iff.mp hKey))⟩

theorem Once.onRequest {src frame} (h : Once v runs) (hIdle : v.submitting = none) :
    Once (v.onRequest src frame) runs := by
  unfold RpcServer.onRequest
  split
  · exact h
  · rename_i rpcId body hDecode
    split
    · -- a stored response is sent again, without the handler
      refine h.of_perm ?_ fun _ hNoted => hNoted
      rw [RpcServer.keys, RpcServer.keys, hIdle]
      exact .refl _
    · exact h
    · rename_i hNew
      have hKeys : RpcServer.keys { v with
          dedup := v.dedup.insert (src, rpcId) none
          submitting := some (.handle src rpcId frame) } runs = (src, rpcId) :: v.keys runs := by
        rw [RpcServer.keys, RpcServer.keys, hIdle]
        rfl
      -- a number that is not noted is not among those the handler runs for
      refine ⟨?_, fun key hKey => ?_⟩
      · rw [hKeys]
        exact nodup_cons.mpr ⟨fun hMem => h.noted _ hMem hNew, h.nodup⟩
      · rw [hKeys] at hKey
        rw [Map.lookup_insert_ite]
        split
        · simp
        · rename_i hOther
          exact h.noted key ((mem_cons.mp hKey).resolve_left hOther)

theorem count_filterMap_cons {α : Type} (f : α → Option (SocketAddr × UInt64)) (a : α) (l : List α)
    (key : SocketAddr × UInt64) : ((a :: l).filterMap f).count key =
      (f a).toList.count key + (l.filterMap f).count key := by
  rw [filterMap_cons]
  cases f a with
  | none => simp
  | some k =>
    show (k :: l.filterMap f).count key = [k].count key + _
    rw [← singleton_append, count_append]

theorem count_running {t} (h : t ∈ v.running) (key : SocketAddr × UInt64) :
    (v.running.filterMap Task.key).count key =
      t.key.toList.count key + ((v.running.erase t).filterMap Task.key).count key := by
  rw [((perm_cons_erase h).filterMap Task.key).count_eq, count_filterMap_cons]

theorem count_keys (key : SocketAddr × UInt64) : (v.keys runs).count key =
    (v.submitting.toList.filterMap (·.task.key)).count key +
      (v.jobs.filterMap (·.task.key)).count key + (v.running.filterMap Task.key).count key +
      (runs.map Execution.key).count key := by
  simp only [RpcServer.keys, count_append]

theorem Once.step (h : Once v runs) (hStep : ServerStep In v runs v' runs') : Once v' runs' := by
  -- a request goes from the loop to the queue, to a worker and to the log of runs; on the way
  -- the keys are permuted, and only a new request adds one
  cases hStep with
  | request hIn hIdle => exact h.onRequest hIdle
  | submit hJob =>
    refine h.of_perm (perm_iff_count.mpr fun key => ?_) fun _ hNoted => hNoted
    rw [count_keys, count_keys, hJob]
    simp only [RpcServer.submit, Option.toList_none, Option.toList_some, filterMap_append,
      count_append, count_filterMap_cons, filterMap_nil, count_nil]
    omega
  | take hJobs =>
    refine h.of_perm (perm_iff_count.mpr fun key => ?_) fun _ hNoted => hNoted
    rw [count_keys, count_keys, hJobs, count_filterMap_cons, count_filterMap_cons]
    dsimp only
    omega
  | handled hTask =>
    rename_i src rpcId frame result
    refine h.of_perm (perm_iff_count.mpr fun key => ?_) fun _ hNoted => hNoted
    -- the response that is left to send is no request any more
    have hNothing : ((result.map fun body =>
        Task.computed src rpcId (encodeFrame rpcId body)).toList).filterMap Task.key = [] := by
      cases result <;> rfl
    have hKey : (Task.handling src rpcId frame).key.toList =
        [Execution.key ⟨src, rpcId, frame.drop rpcHdr, result⟩] := rfl
    rw [count_keys, count_keys, count_running hTask, hKey, RpcServer.handled,
      filterMap_append, hNothing, nil_append, map_cons, ← singleton_append,
      count_append]
    dsimp only
    omega
  | store hTask =>
    refine h.of_perm (perm_iff_count.mpr fun key => ?_) fun key hNoted => ?_
    · rw [count_keys, count_keys, count_running hTask, RpcServer.store, count_filterMap_cons]
      rfl
    · rw [RpcServer.store, Map.lookup_insert_ite]
      split
      · simp
      · exact hNoted
  | answer hTask =>
    refine h.of_perm (perm_iff_count.mpr fun key => ?_) fun _ hNoted => hNoted
    rw [count_keys, count_keys, count_running hTask, RpcServer.answered]
    simp [Task.key]

/-! ## What a server stores and sends -/

def Stored (runs : List Execution) (c : SocketAddr) (frame : Bytes) : Prop :=
  ∃ x ∈ runs, ∃ body, x.client = c ∧ x.result = some body ∧ frame = encodeFrame x.rpcId body

/-- What a worker has to do is for a request that was made, or sends what the
handler has returned. -/
def Task.Fits (Made : SocketAddr → UInt64 → Bytes → Prop) (runs : List Execution) : Task → Prop
  | .handling src rpcId frame => ∃ payload, frame = encodeFrame rpcId payload ∧
      Made src rpcId payload
  | .computed src _ resp | .answering src resp => Stored runs src resp

structure Serving (Made : SocketAddr → UInt64 → Bytes → Prop) (v : RpcServer)
    (runs : List Execution) : Prop where
  made : ∀ x ∈ runs, Made x.client x.rpcId x.body
  dedup : Map.All (fun key stored => ∀ resp, stored = some resp → Stored runs key.1 resp) v.dedup
  submitting : ∀ job ∈ v.submitting, job.task.Fits Made runs
  jobs : ∀ job ∈ v.jobs, job.task.Fits Made runs
  running : ∀ task ∈ v.running, task.Fits Made runs

section Serving

variable {Made Made' : SocketAddr → UInt64 → Bytes → Prop}

theorem Stored.mono {c frame} (h : Stored runs c frame) (hRuns : runs ⊆ runs') :
    Stored runs' c frame := by
  obtain ⟨x, hx, hFrame⟩ := h
  exact ⟨x, hRuns hx, hFrame⟩

theorem Task.Fits.mono {t : Task} (h : t.Fits Made runs)
    (hMade : ∀ c rpcId payload, Made c rpcId payload → Made' c rpcId payload)
    (hRuns : runs ⊆ runs') : t.Fits Made' runs' := by
  cases t with
  | handling =>
    obtain ⟨payload, hFrame, hBy⟩ := h
    exact ⟨payload, hFrame, hMade _ _ _ hBy⟩
  | computed | answering => exact Stored.mono h hRuns

section

variable (h : Serving Made v runs)

include h

theorem Serving.mono (hMade : ∀ c rpcId payload, Made c rpcId payload → Made' c rpcId payload) :
    Serving Made' v runs where
  made x hx := hMade _ _ _ (h.made x hx)
  dedup := h.dedup
  submitting job hJob := (h.submitting job hJob).mono hMade fun _ hx => hx
  jobs job hJob := (h.jobs job hJob).mono hMade fun _ hx => hx
  running t ht := (h.running t ht).mono hMade fun _ hx => hx

theorem Serving.onRequest {src rpcId payload} (hMade : Made src rpcId payload) :
    Serving Made (v.onRequest src (encodeFrame rpcId payload)) runs := by
  rw [RpcServer.onRequest, decodeFrame_encodeFrame]
  dsimp only
  split
  · rename_i cached hStored
    refine { h with submitting := fun job hJob => ?_ }
    cases hJob
    exact h.dedup _ _ hStored cached rfl
  · exact h
  · refine { h with
      dedup := h.dedup.insert fun resp hNone => by cases hNone
      submitting := fun job hJob => ?_ }
    cases hJob
    exact ⟨payload, rfl, hMade⟩

theorem Serving.handled {src rpcId frame result} (hTask : .handling src rpcId frame ∈ v.running) :
    Serving Made (v.handled src rpcId frame result)
      (⟨src, rpcId, frame.drop rpcHdr, result⟩ :: runs) := by
  obtain ⟨payload, rfl, hMade⟩ := h.running _ hTask
  have hKeep : ∀ {x : Execution} (t : Task), t.Fits Made runs → t.Fits Made (x :: runs) :=
    fun t ht => ht.mono (fun _ _ _ hBy => hBy) (subset_cons_self _ _)
  refine ⟨fun x hx => ?_, h.dedup.imp fun _ _ hStored resp hResp =>
    (hStored resp hResp).mono (subset_cons_self _ _), fun job hJob => hKeep _
    (h.submitting job hJob), fun job hJob => hKeep _ (h.jobs job hJob), fun t ht => ?_⟩
  · rcases mem_cons.mp hx with rfl | hx
    · rw [encodeFrame, rpcHdr, drop_left' (leBytes_length _ _)]
      exact hMade
    · exact h.made x hx
  · rcases mem_append.mp ht with ht | ht
    · -- the worker goes on with what this run has returned
      obtain ⟨body, rfl, rfl⟩ := Option.map_eq_some_iff.mp (Option.mem_toList.mp ht)
      exact ⟨_, mem_cons_self, body, rfl, rfl, rfl⟩
    · exact hKeep t (h.running t (mem_of_mem_erase ht))

theorem Serving.step (hIn : ∀ src frame, In src frame →
      ∃ rpcId payload, frame = encodeFrame rpcId payload ∧ Made src rpcId payload)
    (hStep : ServerStep In v runs v' runs') : Serving Made v' runs' := by
  cases hStep with
  | request hMessage =>
    obtain ⟨rpcId, payload, rfl, hMade⟩ := hIn _ _ hMessage
    exact h.onRequest hMade
  | submit hJob =>
    refine { h with
      submitting := fun job hNone => (by cases hNone)
      jobs := ?_ }
    exact forall_mem_append.mpr ⟨h.jobs, forall_mem_singleton.mpr (h.submitting _ hJob)⟩
  | take hJobs =>
    have hAll := h.jobs
    rw [hJobs, forall_mem_cons] at hAll
    exact { h with jobs := hAll.2, running := forall_mem_cons.mpr ⟨hAll.1, h.running⟩ }
  | handled hTask => exact h.handled hTask
  | store hTask =>
    have hStored : Stored runs _ _ := h.running _ hTask
    refine { h with dedup := h.dedup.insert fun resp hResp => ?_, running := ?_ }
    · cases hResp
      exact hStored
    · exact forall_mem_cons.mpr ⟨hStored, fun t ht => h.running t (mem_of_mem_erase ht)⟩
  | answer =>
    exact { h with running := fun t ht => h.running t (mem_of_mem_erase ht) }

end

end Serving

/-! ## What a client takes for its answers -/

/-- The numbers of the calls are drawn one after another, and a waiter is of a
call with its number. -/
structure Numbered (k : RpcClient) : Prop where
  ids : ∀ i r, k.calls[i]? = some r → r.rpcId = UInt64.ofNat (i + 1)
  next : k.nextId = UInt64.ofNat (k.calls.length + 1)
  waiters : Map.All (fun rpcId tx => ∃ r, k.calls[tx.call]? = some r ∧ r.rpcId = rpcId) k.waiters

/-- What calls have got, and what the dispatcher has for one, are answers. -/
structure Answers (Answer : Request → Bytes → Prop) (k : RpcClient) : Prop where
  inbox : ∀ i r, k.calls[i]? = some r → ∀ body ∈ (k.progress i).inbox, Answer r body
  result : ∀ i r body, k.calls[i]? = some r → (k.progress i).stage = .ok body → Answer r body
  taken : ∀ tx body, k.dispatcher = some (tx, body) →
    ∃ r, k.calls[tx.call]? = some r ∧ Answer r body

section Client

variable {To : SocketAddr → Prop} {In : Bytes → Prop} {Answer Answer' : Request → Bytes → Prop}
  {k k' : RpcClient}

theorem calls_step (h : ClientStep To In k k') : k'.calls = k.calls ∨
    ∃ r, To r.server ∧ k'.calls = k.calls ++ [r] := by
  cases h with
  | call hTo => exact .inr ⟨_, hTo, rfl⟩
  | register | stage | giveUp | dispatch => exact .inl rfl
  | response =>
    left
    unfold onResponse
    split
    · rfl
    · split <;> rfl

variable {i j : Nat}

theorem getElem?_append_old {α : Type} {r new : α} {calls : List α} (h : calls[i]? = some r) :
    (calls ++ [new])[i]? = some r := by
  obtain ⟨hLt, -⟩ := List.getElem?_eq_some_iff.mp h
  rw [List.getElem?_append_left hLt]
  exact h

theorem Numbered.callWithTimeout (h : Numbered k) (server : SocketAddr) (payload : Bytes)
    (maxAttempts : UInt32) : Numbered (k.callWithTimeout server payload maxAttempts) where
  ids i r hCall := by
    rcases getElem?_concat_eq_some hCall with hOld | ⟨rfl, rfl⟩
    · exact h.ids i r hOld
    · exact h.next
  next := by
    show k.nextId + 1 = UInt64.ofNat ((k.calls ++ [_]).length + 1)
    rw [h.next, length_append, length_singleton, UInt64.ofNat_add (k.calls.length + 1)]
    rfl
  waiters := h.waiters.imp fun rpcId tx ⟨r, hCall, hId⟩ => ⟨r, getElem?_append_old hCall, hId⟩

theorem Numbered.step (h : Numbered k) (hStep : ClientStep To In k k') : Numbered k' := by
  cases hStep with
  | call => exact h.callWithTimeout _ _ _
  | register hCall => exact { h with waiters := h.waiters.insert ⟨_, hCall, rfl⟩ }
  | stage | dispatch => exact { h with }
  | giveUp => exact { h with waiters := h.waiters.erase }
  | response =>
    unfold onResponse
    split
    · exact h
    · split
      · exact h
      · exact { h with waiters := h.waiters.erase }

theorem index_of_number (hi : i < 2 ^ 64) (hj : j < 2 ^ 64)
    (h : UInt64.ofNat (i + 1) = UInt64.ofNat (j + 1)) : i = j := by
  have hMod := congrArg UInt64.toNat h
  rw [UInt64.toNat_ofNat', UInt64.toNat_ofNat'] at hMod
  omega

theorem Numbered.index_inj (h : Numbered k) (hFew : k.calls.length ≤ 2 ^ 64) {r r'}
    (hi : k.calls[i]? = some r) (hj : k.calls[j]? = some r') (hId : r.rpcId = r'.rpcId) :
    i = j := by
  obtain ⟨hi', -⟩ := List.getElem?_eq_some_iff.mp hi
  obtain ⟨hj', -⟩ := List.getElem?_eq_some_iff.mp hj
  rw [h.ids i r hi, h.ids j r' hj] at hId
  exact index_of_number (by omega) (by omega) hId

section

variable (h : Answers Answer k)

include h

theorem Answers.mono (hMore : ∀ r body, Answer r body → Answer' r body) : Answers Answer' k where
  inbox i r hCall body hBody := hMore r body (h.inbox i r hCall body hBody)
  result i r body hCall hStage := hMore r body (h.result i r body hCall hStage)
  taken tx body hTaken := by
    obtain ⟨r, hCall, hAnswer⟩ := h.taken tx body hTaken
    exact ⟨r, hCall, hMore r body hAnswer⟩

theorem Answers.update {p} (hCalls : k'.calls = k.calls)
    (hProgress : k'.progress = update k.progress i p)
    (hTaken : k'.dispatcher = k.dispatcher ∨ k'.dispatcher = none)
    (hInbox : ∀ r, k.calls[i]? = some r → ∀ body ∈ p.inbox, Answer r body)
    (hResult : ∀ r body, k.calls[i]? = some r → p.stage = .ok body → Answer r body) :
    Answers Answer k' := by
  refine ⟨fun j r hCall => ?_, fun j r body hCall => ?_, fun tx body hSome => ?_⟩
  · rw [hCalls] at hCall
    rw [hProgress]
    by_cases hj : j = i
    · subst hj
      rw [update_self]
      exact hInbox r hCall
    · rw [update_of_ne hj]
      exact h.inbox j r hCall
  · rw [hCalls] at hCall
    rw [hProgress]
    by_cases hj : j = i
    · subst hj
      rw [update_self]
      exact hResult r body hCall
    · rw [update_of_ne hj]
      exact h.result j r body hCall
  · rw [hCalls]
    rcases hTaken with hSame | hNone
    · exact h.taken tx body (hSame.symm.trans hSome)
    · exact absurd (hNone.symm.trans hSome) (by simp)

theorem Answers.callWithTimeout (server : SocketAddr) (payload : Bytes) (maxAttempts : UInt32) :
    Answers Answer (k.callWithTimeout server payload maxAttempts) := by
  -- a call that was there before is not the new one
  have hOther : ∀ {i r}, k.calls[i]? = some r →
      (k.callWithTimeout server payload maxAttempts).progress i = k.progress i := by
    intro i r hCall
    obtain ⟨hLt, -⟩ := List.getElem?_eq_some_iff.mp hCall
    exact update_of_ne hLt.ne _ _
  have hNew : (k.callWithTimeout server payload maxAttempts).progress k.calls.length =
      ⟨0, [], .start⟩ := update_self _ _ _
  refine ⟨fun i r hCall body hBody => ?_, fun i r body hCall hStage => ?_, fun tx body hTaken => ?_⟩
  · rcases getElem?_concat_eq_some hCall with hOld | ⟨rfl, -⟩
    · rw [hOther hOld] at hBody
      exact h.inbox i r hOld body hBody
    · rw [hNew] at hBody
      cases hBody
  · rcases getElem?_concat_eq_some hCall with hOld | ⟨rfl, -⟩
    · rw [hOther hOld] at hStage
      exact h.result i r body hOld hStage
    · rw [hNew] at hStage
      cases hStage
  · obtain ⟨r, hCall, hAnswer⟩ := h.taken tx body hTaken
    exact ⟨r, getElem?_append_old hCall, hAnswer⟩

theorem Answers.step
    (hIn : ∀ frame, In frame → ∀ rpcId body tx, decodeFrame frame = some (rpcId, body) →
      k.waiters.lookup rpcId = some tx → ∃ r, k.calls[tx.call]? = some r ∧ Answer r body)
    (hStep : ClientStep To In k k') : Answers Answer k' := by
  cases hStep with
  | call => exact h.callWithTimeout _ _ _
  | register => exact h.update rfl rfl (.inl rfl) (by simp) (by simp)
  | stage hBody =>
    refine h.update rfl rfl (.inl rfl) (fun r hCall => h.inbox _ r hCall)
      fun r body hCall hStage => ?_
    exact h.inbox _ r hCall body (hBody body hStage)
  | giveUp =>
    refine h.update rfl rfl (.inl rfl) ?_ ?_
    · split <;> simp
    · split <;> simp
  | response hMessage =>
    unfold onResponse
    split
    · exact h
    · rename_i rpcId body hDecode
      split
      · exact h
      · rename_i tx hWaiter
        refine ⟨h.inbox, h.result, fun tx' body' hTaken => ?_⟩
        cases hTaken
        exact hIn _ hMessage rpcId body tx hDecode hWaiter
  | dispatch hTaken =>
    rename_i tx body
    obtain ⟨r, hCall, hAnswer⟩ := h.taken tx body hTaken
    refine h.update rfl rfl (.inr rfl) (fun r' hCall' body' hBody => ?_)
      fun r' body' hCall' hStage => ?_
    · split at hBody
      · -- the channel is still that of the attempt it was made for
        rcases mem_append.mp hBody with hOld | hNew
        · exact h.inbox tx.call r' hCall' body' hOld
        · rw [mem_singleton.mp hNew]
          rw [Option.some_inj.mp (hCall'.symm.trans hCall)]
          exact hAnswer
      · exact h.inbox tx.call r' hCall' body' hBody
    · split at hStage
      · exact h.result tx.call r' body' hCall' hStage
      · exact h.result tx.call r' body' hCall' hStage

end

end Client

/-! ## Every run -/

namespace Rpc

variable {s s' s₀ : Rpc} {ev : RpcEvent}

def Asked (s : Rpc) (a c : SocketAddr) (rpcId : UInt64) (payload : Bytes) : Prop :=
  ∃ r ∈ (s.client c).calls, r.server = a ∧ r.rpcId = rpcId ∧ r.payload = payload

def Answered (s : Rpc) (c : SocketAddr) (r : Request) (body : Bytes) : Prop :=
  ∃ x ∈ s.runs r.server, x.key = (c, r.rpcId) ∧ x.body = r.payload ∧ x.result = some body

structure Inv (s : Rpc) : Prop where
  addressed : ∀ c, ∀ r ∈ (s.client c).calls, s.serves c = false ∧ s.serves r.server = true
  numbered : ∀ c, Numbered (s.client c)
  once : ∀ a, Once (s.server a) (s.runs a)
  serving : ∀ a, Serving (s.Asked a) (s.server a) (s.runs a)
  /-- A message is a request, or what a handler has returned. -/
  sent : ∀ m ∈ s.sent, (∃ rpcId payload, m.frame = encodeFrame rpcId payload ∧
    s.Asked m.dst m.src rpcId payload) ∨ Stored (s.runs m.src) m.dst m.frame
  answers : ∀ c, (s.client c).calls.length ≤ 2 ^ 64 → Answers (s.Answered c) (s.client c)

theorem Start.inv (h : s.Start) : s.Inv where
  addressed c r hr := by
    rw [h.client] at hr
    cases hr
  numbered c := by
    rw [h.client]
    exact ⟨fun i r hCall => (by cases hCall), rfl, Map.All.empty⟩
  once a := by
    rw [h.server, h.runs]
    exact ⟨nodup_nil, fun key hKey => by cases hKey⟩
  serving a := by
    rw [h.server, h.runs]
    exact ⟨fun x hx => (by cases hx), Map.All.empty, fun job hJob => (by cases hJob),
      fun job hJob => (by cases hJob), fun t ht => by cases ht⟩
  sent m hm := by
    rw [h.sent] at hm
    cases hm
  answers c hFew := by
    rw [h.client]
    exact ⟨fun i r hCall => (by cases hCall), fun i r body hCall => (by cases hCall),
      fun tx body hTaken => by cases hTaken⟩

variable {a c : SocketAddr} {rpcId : UInt64}

theorem Inv.request (h : s.Inv) {src frame} (hServes : s.serves a = true)
    (hSent : ⟨src, a, frame⟩ ∈ s.sent) :
    ∃ rpcId payload, frame = encodeFrame rpcId payload ∧ s.Asked a src rpcId payload := by
  rcases h.sent _ hSent with hAsked | ⟨x, hx, body, hClient, -⟩
  · exact hAsked
  · -- a response goes to a client
    obtain ⟨r, hr, -⟩ := (h.serving src).made x hx
    rw [hClient] at hr
    exact absurd (hServes.symm.trans (h.addressed a r hr).1) (by simp)

theorem Inv.response (h : s.Inv) {src frame body tx} (hServes : s.serves c = false)
    (hFew : (s.client c).calls.length ≤ 2 ^ 64) (hSent : ⟨src, c, frame⟩ ∈ s.sent)
    (hDecode : decodeFrame frame = some (rpcId, body))
    (hWaiter : (s.client c).waiters.lookup rpcId = some tx) :
    ∃ r, (s.client c).calls[tx.call]? = some r ∧ s.Answered c r body := by
  rcases h.sent _ hSent with ⟨-, -, -, r, hr, hServer, -⟩ | ⟨x, hx, body', hClient, hResult, hFrame⟩
  · -- a request goes to a server
    have hTo : s.serves r.server = true := (h.addressed _ r hr).2
    rw [show r.server = c from hServer, hServes] at hTo
    cases hTo
  · dsimp only at hx hClient hFrame
    rw [hFrame, decodeFrame_encodeFrame] at hDecode
    cases hDecode
    -- the run was for a call with this number, and so is the waiter: there is only one
    obtain ⟨r, hr, hServer, hId, hPayload⟩ := (h.serving src).made x hx
    rw [hClient] at hr
    obtain ⟨j, hj⟩ := mem_iff_getElem?.mp hr
    obtain ⟨r', hCall, hId'⟩ := (h.numbered c).waiters _ _ hWaiter
    obtain rfl := (h.numbered c).index_inj hFew hj hCall (hId.trans hId'.symm)
    obtain rfl := Option.some_inj.mp (hj.symm.trans hCall)
    refine ⟨r, hCall, x, by rw [hServer]; exact hx, ?_, hPayload.symm, hResult⟩
    rw [Execution.key, hClient, hId]

structure Grows (s s' : Rpc) : Prop where
  calls : ∀ c, (s.client c).calls ⊆ (s'.client c).calls
  length : ∀ c, (s.client c).calls.length ≤ (s'.client c).calls.length
  runs : ∀ a, s.runs a ⊆ s'.runs a

theorem Advance.grows (h : Advance s s') : Grows s s' := by
  have hCalls : ∀ c, ∃ more, (s'.client c).calls = (s.client c).calls ++ more := by
    intro c
    rcases h.client c with hSame | hStep
    · exact ⟨[], by rw [hSame, append_nil]⟩
    · rcases calls_step hStep with hSame | ⟨r, -, hMore⟩
      · exact ⟨[], by rw [hSame, append_nil]⟩
      · exact ⟨[r], hMore⟩
  refine ⟨fun c => ?_, fun c => ?_, fun a => ?_⟩
  · obtain ⟨more, hMore⟩ := hCalls c
    rw [hMore]
    exact subset_append_left _ _
  · obtain ⟨more, hMore⟩ := hCalls c
    rw [hMore, length_append]
    exact Nat.le_add_right _ _
  · rcases h.server a with ⟨-, hSame⟩ | hStep
    · rw [hSame]
      exact fun _ hx => hx
    · generalize s'.server a = v' at hStep
      generalize s'.runs a = runs' at hStep ⊢
      cases hStep with
      | handled => exact subset_cons_self _ _
      | _ => exact fun _ hx => hx

theorem Asked.mono {payload} (hGrows : Grows s s') (h : s.Asked a c rpcId payload) :
    s'.Asked a c rpcId payload := by
  obtain ⟨r, hr, hFields⟩ := h
  exact ⟨r, hGrows.calls c hr, hFields⟩

theorem Answered.mono {r body} (hGrows : Grows s s') (h : s.Answered c r body) :
    s'.Answered c r body := by
  obtain ⟨x, hx, hFields⟩ := h
  exact ⟨x, hGrows.runs _ hx, hFields⟩

theorem Inv.addressed_step (h : s.Inv) (hStep : Advance s s') (c : SocketAddr) :
    ∀ r ∈ (s'.client c).calls, s'.serves c = false ∧ s'.serves r.server = true := by
  rw [hStep.serves]
  rcases hStep.client c with hSame | hClient
  · rw [hSame]
    exact h.addressed c
  · rcases calls_step hClient with hSame | ⟨r, hTo, hMore⟩
    · rw [hSame]
      exact h.addressed c
    · rw [hMore]
      exact forall_mem_append.mpr ⟨h.addressed c, forall_mem_singleton.mpr hTo⟩

theorem Inv.sent_step (h : s.Inv) (hStep : Advance s s') : ∀ m ∈ s'.sent,
    (∃ rpcId payload, m.frame = encodeFrame rpcId payload ∧
      s'.Asked m.dst m.src rpcId payload) ∨ Stored (s'.runs m.src) m.dst m.frame := by
  intro m hm
  have hGrows := hStep.grows
  rcases hStep.sent m hm with hOld | ⟨r, hr, hDst, hFrame⟩ | hTask
  · rcases h.sent m hOld with ⟨rpcId, payload, hFrame, hAsked⟩ | hStored
    · exact .inl ⟨rpcId, payload, hFrame, hAsked.mono hGrows⟩
    · exact .inr (hStored.mono (hGrows.runs _))
  · exact .inl ⟨r.rpcId, r.payload, hFrame, r, hGrows.calls _ hr, hDst.symm, rfl, rfl⟩
  · -- an answer is sent as it was stored
    have hStored : Stored (s.runs m.src) m.dst m.frame := (h.serving m.src).running _ hTask
    exact .inr (hStored.mono (hGrows.runs _))

theorem Inv.step (h : s.Inv) (hStep : Advance s s') : s'.Inv where
  addressed := h.addressed_step hStep
  numbered c := by
    rcases hStep.client c with hSame | hClient
    · rw [hSame]
      exact h.numbered c
    · exact (h.numbered c).step hClient
  once a := by
    rcases hStep.server a with ⟨hSame, hRuns⟩ | hServer
    · rw [hSame, hRuns]
      exact h.once a
    · exact (h.once a).step hServer
  serving a := by
    have hMade := (h.serving a).mono fun c rpcId payload (hAsked : s.Asked a c rpcId payload) =>
      hAsked.mono hStep.grows
    rcases hStep.server a with ⟨hSame, hRuns⟩ | hServer
    · rw [hSame, hRuns]
      exact hMade
    · refine hMade.step (fun src frame hIn => ?_) hServer
      obtain ⟨rpcId, payload, hFrame, hAsked⟩ := h.request hIn.1 hIn.2
      exact ⟨rpcId, payload, hFrame, hAsked.mono hStep.grows⟩
  sent := h.sent_step hStep
  answers c hFew := by
    -- with few calls after the step there were few before it
    have hBefore := (hStep.grows.length c).trans hFew
    have hMore := (h.answers c hBefore).mono fun r body (hAnswered : s.Answered c r body) =>
      hAnswered.mono hStep.grows
    rcases hStep.client c with hSame | hClient
    · rw [hSame]
      exact hMore
    · refine hMore.step (fun frame hIn rpcId body tx hDecode hWaiter => ?_) hClient
      obtain ⟨hServes, src, hSent⟩ := hIn
      obtain ⟨r, hCall, hAnswered⟩ := h.response hServes hBefore hSent hDecode hWaiter
      exact ⟨r, hCall, hAnswered.mono hStep.grows⟩

def runsFor (s : Rpc) (a c : SocketAddr) (rpcId : UInt64) : List Execution :=
  (s.runs a).filter (·.key == (c, rpcId))

theorem runsFor_length_le (h : Once (s.server a) (s.runs a)) :
    (s.runsFor a c rpcId).length ≤ 1 := by
  have hNodup : ((s.runs a).map Execution.key).Nodup := h.nodup.sublist (sublist_append_right _ _)
  have hCount := nodup_iff_count_le_one.mp hNodup (c, rpcId)
  rw [count, countP_map] at hCount
  rw [runsFor, ← countP_eq_length_filter]
  exact hCount

/-- **What a call returns.** Clients and servers begin as `Start` says, and calls go to servers
(`ToServers`). Whatever is lost, repeated and reordered, the handler runs at most once for a client
and a number. Of the first `2 ^ 64` calls of a client, one that returns has the result of that run,
which was on its own payload. -/
theorem call_result (hStart : s₀.Start) (hRun : Run step ToServers s₀ s) :
    (∀ a c rpcId, (s.runsFor a c rpcId).length ≤ 1) ∧
    ∀ c, (s.client c).calls.length ≤ 2 ^ 64 → ∀ i r body, (s.client c).calls[i]? = some r →
      ((s.client c).progress i).stage = .ok body →
        ∃ x, s.runsFor r.server c r.rpcId = [x] ∧ x.body = r.payload ∧ x.result = some body := by
  have hInv : s.Inv := hRun.invariant hStart.inv fun _ _ _ h hOk hStep =>
    h.step (step_advance hOk hStep)
  refine ⟨fun a c rpcId => runsFor_length_le (hInv.once a), fun c hFew i r body hCall hStage => ?_⟩
  obtain ⟨x, hx, hKey, hBody, hResult⟩ := (hInv.answers c hFew).result i r body hCall hStage
  -- the run behind the answer is the only one for this number
  have hMem : x ∈ s.runsFor r.server c r.rpcId := mem_filter.mpr ⟨hx, beq_iff_eq.mpr hKey⟩
  obtain ⟨y, hOne⟩ := length_eq_one_iff.mp
    (le_antisymm (runsFor_length_le (hInv.once r.server)) (length_pos_of_mem hMem))
  rw [hOne, mem_singleton] at hMem
  subst hMem
  exact ⟨x, hOne, hBody, hResult⟩

/-! ## A client and a server to run the model on -/

def plainClient : SocketAddr := .v4 1 1

def plainServer : SocketAddr := .v4 2 2

def plainRpc : Rpc := ⟨fun a => a = plainServer, fun _ => .new, fun _ => .new, [], fun _ => []⟩

theorem plainRpc_start : plainRpc.Start := ⟨fun _ => rfl, fun _ => rfl, rfl, fun _ => rfl⟩

def plainResponse : Message := ⟨plainServer, plainClient, encodeFrame 1 [7]⟩

def plainCall : List RpcEvent :=
  [.call plainClient plainServer [1] 1, .register plainClient 0, .send plainClient 0 none,
    .arrive ⟨plainClient, plainServer, encodeFrame 1 [1]⟩, .submit plainServer, .take plainServer,
    .handled plainServer plainClient 1 (encodeFrame 1 [1]) (some [7]),
    .store plainServer plainClient 1 (encodeFrame 1 [7]),
    .answer plainServer plainClient (encodeFrame 1 [7]), .arrive plainResponse,
    .dispatch plainClient, .receive plainClient 0]

/-- The call returns what the handler has returned. -/
theorem call_result_plain : ∃ (s : Rpc) (r : Request) (x : Execution),
    ((s.client plainClient).progress 0).stage = .ok [7] ∧
      s.runsFor r.server plainClient r.rpcId = [x] ∧ x.body = r.payload ∧ x.result = some [7] := by
  obtain ⟨s, hRun, hTest⟩ := exists_run_of_exec step ToServers plainRpc plainCall
    (fun s => decide ((s.client plainClient).calls = [⟨plainServer, [1], 1, 1⟩] ∧
      ((s.client plainClient).progress 0).stage = .ok [7])) (by decide +kernel)
  obtain ⟨hCalls, hStage⟩ := of_decide_eq_true hTest
  have hFew : (s.client plainClient).calls.length ≤ 2 ^ 64 := by
    rw [hCalls]
    decide
  obtain ⟨x, hOne, hBody, hResult⟩ := (call_result plainRpc_start hRun).2 plainClient hFew 0
    ⟨plainServer, [1], 1, 1⟩ [7] (by rw [hCalls]; rfl) hStage
  exact ⟨s, _, x, hStage, hOne, hBody, hResult⟩

/-- The client has made `n` calls and is idle, the handler has run for the first
one only, and a copy of its response is on the way. -/
structure Later (n : Nat) (s : Rpc) : Prop where
  calls : (s.client plainClient).calls.length = n
  nextId : (s.client plainClient).nextId = UInt64.ofNat (n + 1)
  dispatcher : (s.client plainClient).dispatcher = none
  sent : plainResponse ∈ s.sent
  runs : s.runs plainServer = [⟨plainClient, 1, [1], some [7]⟩]
  serves : s.serves = plainRpc.serves

/-- The call with index `n` has been made after that, with the dispatcher between
two messages or not. -/
structure Calling (n : Nat) (payload : Bytes) (p : Progress) (taken : Option (Channel × Bytes))
    (s : Rpc) : Prop where
  call : (s.client plainClient).calls[n]? = some ⟨plainServer, payload, 1, UInt64.ofNat (n + 1)⟩
  progress : (s.client plainClient).progress n = p
  calls : (s.client plainClient).calls.length = n + 1
  nextId : (s.client plainClient).nextId = UInt64.ofNat (n + 2)
  dispatcher : (s.client plainClient).dispatcher = taken
  sent : plainResponse ∈ s.sent
  runs : s.runs plainServer = [⟨plainClient, 1, [1], some [7]⟩]
  serves : s.serves = plainRpc.serves

section Wraps

variable {n : Nat} {payload : Bytes} {p p' : Progress} {taken taken' : Option (Channel × Bytes)}

theorem client_setClient (s : Rpc) (c : SocketAddr) (k : RpcClient) :
    (s.setClient c k).client c = k :=
  update_self _ _ _

theorem callAt_of {k : RpcClient} {i : Nat} {r : Request} (hCall : k.calls[i]? = some r)
    (hProgress : k.progress i = p) : k.callAt i p.stage = some r := by
  rw [callAt, hProgress, if_pos rfl]
  exact hCall

theorem Calling.setClient (h : Calling n payload p taken s) {k}
    (hCalls : k.calls = (s.client plainClient).calls)
    (hNext : k.nextId = (s.client plainClient).nextId) (hProgress : k.progress n = p')
    (hTaken : k.dispatcher = taken') : Calling n payload p' taken' (s.setClient plainClient k) := by
  refine ⟨?_, ?_, ?_, ?_, ?_, h.sent, h.runs, h.serves⟩
  · rw [client_setClient, hCalls]
    exact h.call
  · rw [client_setClient]
    exact hProgress
  · rw [client_setClient, hCalls]
    exact h.calls
  · rw [client_setClient, hNext]
    exact h.nextId
  · rw [client_setClient]
    exact hTaken

theorem Calling.transmit (h : Calling n payload p taken s) (m : Message) :
    Calling n payload p taken (s.transmit m) :=
  { h with sent := mem_cons_of_mem _ h.sent }

theorem Later.call (h : Later n s) (payload : Bytes) :
    ∃ s', s.step (.call plainClient plainServer payload 1) = some s' ∧
      Calling n payload ⟨0, [], .start⟩ none s' := by
  have hClient : s.serves plainClient = false := by
    rw [h.serves]
    rfl
  refine ⟨_, if_neg (by rw [hClient]; simp), ?_⟩
  refine ⟨?_, ?_, ?_, ?_, ?_, h.sent, h.runs, h.serves⟩
  · rw [client_setClient, ← h.nextId, ← h.calls]
    exact getElem?_concat_length
  · rw [client_setClient, ← h.calls]
    exact update_self _ _ _
  · rw [client_setClient, ← h.calls]
    exact length_append
  · rw [client_setClient]
    show (s.client plainClient).nextId + 1 = _
    rw [h.nextId, ← UInt64.ofNat_one, ← UInt64.ofNat_add]
  · rw [client_setClient]
    exact h.dispatcher

theorem Calling.register (h : Calling n payload ⟨0, [], .start⟩ none s) :
    ∃ s', s.step (.register plainClient n) = some s' ∧
      Calling n payload ⟨0, [], .registered⟩ none s' ∧
      (s'.client plainClient).waiters.lookup (UInt64.ofNat (n + 1)) = some ⟨n, 0⟩ := by
  refine ⟨_, by rw [step, callAt_of h.call h.progress]; rfl, ?_, ?_⟩
  · refine h.setClient rfl rfl ?_ h.dispatcher
    show update _ n _ n = _
    rw [update_self, h.progress]
  · rw [client_setClient, RpcClient.register, AList.lookup_insert, h.progress]

theorem Calling.send (h : Calling n payload ⟨0, [], .registered⟩ none s) :
    ∃ s', s.step (.send plainClient n none) = some s' ∧
      Calling n payload ⟨0, [], .waiting⟩ none s' ∧
      (s'.client plainClient).waiters = (s.client plainClient).waiters := by
  let k := (s.client plainClient).setStage n .waiting
  refine ⟨(s.setClient plainClient k).transmit
    ⟨plainClient, plainServer, encodeFrame (UInt64.ofNat (n + 1)) payload⟩,
    by rw [step, callAt_of h.call h.progress]; rfl, ?_, ?_⟩
  · have hProgress : k.progress n = ⟨0, [], .waiting⟩ := by
      rw [setStage_progress, h.progress]
    have hWaiting : Calling n payload _ none (s.setClient plainClient k) :=
      h.setClient rfl rfl hProgress h.dispatcher
    exact hWaiting.transmit _
  · show ((s.setClient plainClient k).client plainClient).waiters = _
    rw [client_setClient]
    rfl

theorem Calling.expire (h : Calling n payload ⟨0, [], .waiting⟩ none s) :
    ∃ s', s.step (.expire plainClient n) = some s' ∧
      Calling n payload ⟨0, [], .expired⟩ none s' := by
  refine ⟨_, by rw [step, callAt_of h.call h.progress, h.progress]; rfl, ?_⟩
  refine h.setClient rfl rfl ?_ h.dispatcher
  rw [setStage_progress, h.progress]

theorem Calling.giveUp (h : Calling n payload ⟨0, [], .expired⟩ none s) :
    ∃ s', s.step (.giveUp plainClient n) = some s' ∧ Later (n + 1) s' := by
  refine ⟨_, by rw [step, callAt_of h.call h.progress]; rfl, ?_⟩
  have hGiven := h.setClient rfl rfl rfl h.dispatcher
  exact ⟨hGiven.calls, hGiven.nextId, hGiven.dispatcher, hGiven.sent, hGiven.runs, hGiven.serves⟩

theorem Calling.arrive (h : Calling n payload ⟨0, [], .waiting⟩ none s)
    (hWaiter : (s.client plainClient).waiters.lookup (UInt64.ofNat (n + 1)) = some ⟨n, 0⟩)
    (hId : UInt64.ofNat (n + 1) = 1) :
    ∃ s', s.step (.arrive plainResponse) = some s' ∧
      Calling n payload ⟨0, [], .waiting⟩ (some (⟨n, 0⟩, [7])) s' := by
  have hClient : s.serves plainResponse.dst = false := by
    rw [h.serves]
    rfl
  have hTaken : (s.client plainClient).onResponse plainResponse.frame =
      { s.client plainClient with
        waiters := (s.client plainClient).waiters.erase 1
        dispatcher := some (⟨n, 0⟩, [7]) } := by
    rw [hId] at hWaiter
    simp only [onResponse, plainResponse, decodeFrame_encodeFrame, hWaiter]
  refine ⟨s.setClient plainClient ((s.client plainClient).onResponse plainResponse.frame), ?_, ?_⟩
  · have hIdle : (s.client plainResponse.dst).dispatcher = none := h.dispatcher
    simp only [step, h.sent, not_true_eq_false, if_false, hClient, Bool.false_eq_true, hIdle,
      if_true]
    rfl
  · rw [hTaken]
    exact h.setClient rfl rfl h.progress rfl

theorem Calling.dispatch (h : Calling n payload ⟨0, [], .waiting⟩ (some (⟨n, 0⟩, [7])) s) :
    ∃ s', s.step (.dispatch plainClient) = some s' ∧
      Calling n payload ⟨0, [[7]], .waiting⟩ none s' := by
  refine ⟨_, by rw [step, h.dispatcher]; rfl, ?_⟩
  refine h.setClient rfl rfl ?_ rfl
  show update _ n _ n = _
  rw [update_self, h.progress]
  rfl

theorem Calling.receive (h : Calling n payload ⟨0, [[7]], .waiting⟩ none s) :
    ∃ s', s.step (.receive plainClient n) = some s' ∧
      Calling n payload ⟨0, [[7]], .ok [7]⟩ none s' := by
  refine ⟨_, by rw [step, callAt_of h.call h.progress, h.progress]; rfl, ?_⟩
  refine h.setClient rfl rfl ?_ h.dispatcher
  rw [setStage_progress, h.progress]

theorem run_next (hRun : Run step ToServers plainRpc s) (hStep : s.step ev = some s')
    (hOk : s.ToServers ev) : Run step ToServers plainRpc s' :=
  .step hRun hOk hStep

theorem Later.waits (h : Later n s) (hRun : Run step ToServers plainRpc s) (payload : Bytes) :
    ∃ s', Run step ToServers plainRpc s' ∧ Calling n payload ⟨0, [], .waiting⟩ none s' ∧
      (s'.client plainClient).waiters.lookup (UInt64.ofNat (n + 1)) = some ⟨n, 0⟩ := by
  have hServer : s.serves plainServer = true := by
    rw [h.serves]
    rfl
  obtain ⟨s₁, hStep₁, h₁⟩ := h.call payload
  obtain ⟨s₂, hStep₂, h₂, hWaiter⟩ := h₁.register
  obtain ⟨s₃, hStep₃, h₃, hSame⟩ := h₂.send
  have hRun₁ := run_next hRun hStep₁ hServer
  refine ⟨s₃, run_next (run_next hRun₁ hStep₂ trivial) hStep₃ trivial, h₃, ?_⟩
  rw [hSame]
  exact hWaiter

theorem exists_later (n : Nat) : ∃ s, Run step ToServers plainRpc s ∧ Later (n + 1) s := by
  -- by induction on the calls after the first; the run is too long to be evaluated
  induction n with
  | zero =>
    obtain ⟨s, hRun, hTest⟩ := exists_run_of_exec step ToServers plainRpc plainCall
      (fun s => decide ((s.client plainClient).calls.length = 1 ∧
        (s.client plainClient).nextId = 2 ∧ (s.client plainClient).dispatcher = none ∧
        plainResponse ∈ s.sent ∧ s.runs plainServer = [⟨plainClient, 1, [1], some [7]⟩]))
      (by decide +kernel)
    obtain ⟨hCalls, hNext, hTaken, hSent, hRuns⟩ := of_decide_eq_true hTest
    have hServes : s.serves = plainRpc.serves :=
      hRun.invariant (I := fun s => s.serves = plainRpc.serves) rfl fun _ _ _ h hOk hStep =>
        (step_advance hOk hStep).serves.trans h
    exact ⟨s, hRun, hCalls, hNext, hTaken, hSent, hRuns, hServes⟩
  | succ n ih =>
    -- one more call, whose request is lost
    obtain ⟨s, hRun, h⟩ := ih
    obtain ⟨s₁, hRun₁, h₁, -⟩ := h.waits hRun [2]
    obtain ⟨s₂, hStep₂, h₂⟩ := h₁.expire
    obtain ⟨s₃, hStep₃, h₃⟩ := h₂.giveUp
    exact ⟨s₃, run_next (run_next hRun₁ hStep₂ trivial) hStep₃ trivial, h₃⟩

/-- After 2^64 calls the next one returns the response to the first. -/
theorem not_call_result : ∃ (s₀ s : Rpc) (c : SocketAddr) (i : Nat) (r : Request) (body : Bytes),
    s₀.Start ∧ Run step ToServers s₀ s ∧ (s.client c).calls[i]? = some r ∧
      ((s.client c).progress i).stage = .ok body ∧ ∀ x ∈ s.runs r.server, x.body ≠ r.payload := by
  obtain ⟨s, hRun, h⟩ := exists_later (2 ^ 64 - 1)
  obtain ⟨s₁, hRun₁, h₁, hWaiter⟩ := h.waits hRun [2]
  obtain ⟨s₂, hStep₂, h₂⟩ := h₁.arrive hWaiter (by decide)
  obtain ⟨s₃, hStep₃, h₃⟩ := h₂.dispatch
  obtain ⟨s₄, hStep₄, h₄⟩ := h₃.receive
  have hRun₃ := run_next (run_next hRun₁ hStep₂ trivial) hStep₃ trivial
  refine ⟨plainRpc, s₄, plainClient, _, _, [7], plainRpc_start, run_next hRun₃ hStep₄ trivial,
    h₄.call, ?_, ?_⟩
  · rw [h₄.progress]
  · intro x hx
    rw [h₄.runs, mem_singleton] at hx
    subst hx
    decide

end Wraps

end Rpc

end DirectWire.Homa
