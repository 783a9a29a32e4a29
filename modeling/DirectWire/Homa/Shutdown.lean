import DirectWire.Homa.TxQueue
import DirectWire.Lib.Monitor

/-!
# Homa — shutting down the sending threads and the pool

`TxQueues::shutdown` and the pool's `drop` set an atomic flag and notify, without the mutex, so
both can come between a thread's look at the flag and its wait on the condition variable.
-/

namespace DirectWire.Homa

open Lib Monitor

/-- `TxQueues`: a sending thread looks for packets, then at the flag. Once it
has seen the flag `wait_batch` returns nothing; the transport's own flag was
set before, so the thread ends. -/
def txQueues (budget : Nat) : Design TxInner (List Datagram) Datagram where
  checks := [.data, .flag]
  take := TxInner.takeBatch budget
  put q x := q.push x.1 x.2
  notifiesAll := true

/-- `ThreadPool`: a worker looks at the flag, then for a job, and runs it
outside the mutex. -/
def threadPool (J : Type) : Design (List J) J J where
  checks := [.flag, .data]
  take jobs := (jobs.head?, jobs.tail)
  put jobs job := jobs ++ [job]
  notifiesAll := false

theorem txQueues_drains (budget : Nat) : (txQueues budget).Drains (·.packets.length) := by
  have hLength : ∀ d, ((txQueues budget).take d).2.packets.length +
      (((txQueues budget).take d).1.getD []).length = d.packets.length := by
    intro d
    rw [← (TxInner.takeBatch_perm budget d).length_eq, List.length_append, Nat.add_comm]
    rfl
  refine ⟨fun d batch d' hTake => ?_, fun d d' hTake => ?_⟩
  · -- a batch is not empty
    have hSome : batch ≠ [] := by
      simp only [txQueues, TxInner.takeBatch] at hTake
      split at hTake
      · cases hTake
      · cases hTake
        assumption
    have hSplit := hLength d
    rw [hTake] at hSplit
    have hPos := List.length_pos_iff.mpr hSome
    simp only [Option.getD_some] at hSplit
    omega
  · have hSplit := hLength d
    rw [hTake] at hSplit
    simp only [Option.getD_none, List.length_nil] at hSplit
    omega

theorem threadPool_drains (J : Type) : (threadPool J).Drains List.length := by
  refine ⟨fun jobs job rest hTake => ?_, fun jobs rest hTake => ?_⟩
  · cases jobs with
    | nil => cases hTake
    | cons job jobs =>
      cases hTake
      exact Nat.lt_succ_self _
  · have hTail : jobs.tail = rest := congrArg Prod.snd hTake
    rw [← hTail, List.length_tail]
    exact Nat.sub_le _ _

/-- **Shutdown wakes everybody, and joining the threads comes to an end.** `TxQueues` with any
budget and the pool with jobs of any type, for any number of threads and any interleaving in which
no notification of a shutdown comes while a thread is between its look at the flag and its wait:
once a shutdown has stored and notified, no thread waits, the threads on their own take only so
many more steps, and when none of them can take another all have ended. -/
theorem shutdown_joinable (n : Nat) :
    (∀ (budget : Nat) (s : Monitor TxInner n),
      Run (step (txQueues budget)) Monitor.Quiet (new .new) s → 0 < s.closed →
        s.Joinable (txQueues budget)) ∧
    (∀ (J : Type) (s : Monitor (List J) n),
      Run (step (threadPool J)) Monitor.Quiet (new []) s → 0 < s.closed →
        s.Joinable (threadPool J)) := by
  constructor
  · intro budget s hRun hClosed
    exact joinable_of_quiet (by simp [txQueues]) (txQueues_drains budget) hRun hClosed
  · intro J s hRun hClosed
    exact joinable_of_quiet (by simp [threadPool]) (threadPool_drains J) hRun hClosed

def waitsFirst {β : Type} : List (MonitorEvent 1 β) :=
  [.enter 0, .look 0, .look 0, .wait 0, .store, .notifyAll]

/-- A sending thread and a worker that wait before the shutdown are woken. -/
theorem shutdown_joinable_waiting :
    (∃ s : Monitor TxInner 1, 0 < s.closed ∧ s.place 0 = .woken ∧
      s.Joinable (txQueues flushBudget)) ∧
    (∃ s : Monitor (List Unit) 1, 0 < s.closed ∧ s.place 0 = .woken ∧
      s.Joinable (threadPool Unit)) := by
  constructor
  · obtain ⟨s, hRun, hTest⟩ := exists_run_of_exec (step (txQueues flushBudget))
      Monitor.Quiet (new .new) waitsFirst
      (fun s => s.closed = 1 ∧ s.place 0 = .woken) (by decide)
    obtain ⟨hClosed, hPlace⟩ := of_decide_eq_true hTest
    have hPos : 0 < s.closed := by omega
    exact ⟨s, hPos, hPlace, (shutdown_joinable 1).1 flushBudget s hRun hPos⟩
  · obtain ⟨s, hRun, hTest⟩ := exists_run_of_exec (step (threadPool Unit))
      Monitor.Quiet (new []) waitsFirst
      (fun s => s.closed = 1 ∧ s.place 0 = .woken) (by decide)
    obtain ⟨hClosed, hPlace⟩ := of_decide_eq_true hTest
    have hPos : 0 < s.closed := by omega
    exact ⟨s, hPos, hPlace, (shutdown_joinable 1).2 Unit s hRun hPos⟩

def waitsLast {β : Type} : List (MonitorEvent 1 β) :=
  [.enter 0, .look 0, .look 0, .store, .notifyAll, .wait 0]

/-- **A lost wake-up.** The notification is given after the only thread has found the flag unset and
before it waits. -/
theorem not_shutdown_joinable :
    (∃ s : Monitor TxInner 1,
      Run (step (txQueues flushBudget)) Always (new .new) s ∧ 0 < s.closed ∧
        s.place 0 = .waiting ∧
        ∀ e, e.ofConsumer = true → s.step (txQueues flushBudget) e = none) ∧
    (∃ s : Monitor (List Unit) 1,
      Run (step (threadPool Unit)) Always (new []) s ∧ 0 < s.closed ∧
        s.place 0 = .waiting ∧
        ∀ e, e.ofConsumer = true → s.step (threadPool Unit) e = none) := by
  constructor
  · obtain ⟨s, hRun, hTest⟩ := exists_run_of_exec (step (txQueues flushBudget)) Always
      (new .new) waitsLast (fun s => s.closed = 1 ∧ s.place 0 = .waiting) (by decide)
    obtain ⟨hClosed, hPlace⟩ := of_decide_eq_true hTest
    have hAll : ∀ i, s.place i = .waiting := fun i => by rw [Subsingleton.elim i 0, hPlace]
    exact ⟨s, hRun, by omega, hPlace, fun e he => stuck_of_waiting hAll he⟩
  · obtain ⟨s, hRun, hTest⟩ := exists_run_of_exec (step (threadPool Unit)) Always
      (new []) waitsLast (fun s => s.closed = 1 ∧ s.place 0 = .waiting) (by decide)
    obtain ⟨hClosed, hPlace⟩ := of_decide_eq_true hTest
    have hAll : ∀ i, s.place i = .waiting := fun i => by rw [Subsingleton.elim i 0, hPlace]
    exact ⟨s, hRun, by omega, hPlace, fun e he => stuck_of_waiting hAll he⟩

end DirectWire.Homa
