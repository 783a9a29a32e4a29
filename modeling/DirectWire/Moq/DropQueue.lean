import DirectWire.Lib.Run
import DirectWire.Moq.Cache

/-!
# MoQ — the priority drop queue

`dropq.rs`: what a forwarder drops when its subscriber is slow. A full queue gives up an object of
the lowest priority that is no group head, or the new object.

* `PriorityDropQueue.chosen_victim` — `max_by_key` takes the last of the largest.
-/

namespace DirectWire.Moq

open Lib Outcome List

def Object.isGroupHead (o : Object) : Bool := o.objectId == 0

inductive PushOutcome where
  | queued
  | evicted (o : Object)
  | droppedSelf

structure PriorityDropQueue where
  capacity : Nat
  queue : List Object
  dropped : UInt64

namespace PriorityDropQueue

def new (capacity : Nat) : Outcome Empty PriorityDropQueue :=
  if capacity > 0 then ok ⟨capacity, [], 0⟩ else panic (.expectFailed "队列容量至少为 1")

/-- A step of `max_by_key`: of two equal keys the later one stays. -/
def later (best : Option (Object × Nat)) (x : Object × Nat) : Option (Object × Nat) :=
  match best with
  | none => some x
  | some b => if b.1.priority > x.1.priority then some b else some x

def victim (queue : List Object) : Option (Object × Nat) :=
  (queue.zipIdx.filter fun x => !x.1.isGroupHead).foldl later none

def dropSelf (checks : Bool) (q : PriorityDropQueue) :
    Outcome Empty (PriorityDropQueue × PushOutcome) := do
  let dropped ← addU64 checks q.dropped 1
  ok ({ q with dropped }, .droppedSelf)

def push (checks : Bool) (q : PriorityDropQueue) (obj : Object) :
    Outcome Empty (PriorityDropQueue × PushOutcome) :=
  if q.queue.length < q.capacity then ok ({ q with queue := q.queue ++ [obj] }, .queued)
  else
    match (victim q.queue).map (·.2) with
    | none => q.dropSelf checks
    | some i => do
      let lowest ← index q.queue i
      if obj.isGroupHead ∨ obj.priority < lowest.priority then
        -- `remove(i).expect("下标有效")`
        let evicted ← unwrap q.queue[i]?
        let dropped ← addU64 checks q.dropped 1
        ok ({ q with queue := q.queue.eraseIdx i ++ [obj], dropped }, .evicted evicted)
      else q.dropSelf checks

def pop (q : PriorityDropQueue) : PriorityDropQueue × Option Object :=
  ({ q with queue := q.queue.tail }, q.queue.head?)

/-! ## One push -/

/-- The victim of a queue: behind it, and nowhere else, another of its priority would be newer. -/
def Chosen (queue : List Object) : Option (Object × Nat) → Prop
  | none => ∀ o ∈ queue, o.isGroupHead
  | some (v, i) => ∃ older newer, queue = older ++ v :: newer ∧ older.length = i ∧
      ¬ v.isGroupHead ∧ (∀ o ∈ older, ¬ o.isGroupHead → o.priority ≤ v.priority) ∧
      ∀ o ∈ newer, ¬ o.isGroupHead → o.priority < v.priority

theorem victim_concat (queue : List Object) (o : Object) : victim (queue ++ [o]) =
    if o.isGroupHead then victim queue else later (victim queue) (o, queue.length) := by
  cases h : o.isGroupHead <;> simp [victim, zipIdx_append, filter_append, h]

theorem chosen_victim (queue : List Object) : Chosen queue (victim queue) := by
  -- the fold goes from the oldest to the newest
  induction queue using reverseRecOn with
  | nil => simp [victim, Chosen]
  | append_singleton queue o ih =>
    rw [victim_concat]
    cases hHead : o.isGroupHead with
    | true =>
      match h : victim queue, ih with
      | none, ih => simpa [Chosen, hHead, or_imp, forall_and] using ih
      | some (v, i), ⟨older, newer, hQueue, hAt, hBody, hOlder, hNewer⟩ =>
        refine ⟨older, newer ++ [o], by simp [hQueue], hAt, hBody, hOlder, ?_⟩
        simpa [hHead, or_imp, forall_and] using hNewer
    | false =>
      match h : victim queue, ih with
      | none, ih =>
        refine ⟨queue, [], rfl, rfl, by simp [hHead], fun x hx hx' => ?_, by simp⟩
        exact (hx' (ih x hx)).elim
      | some (v, i), ⟨older, newer, hQueue, hAt, hBody, hOlder, hNewer⟩ =>
        by_cases hLower : v.priority > o.priority
        · rw [later, if_pos hLower]
          refine ⟨older, newer ++ [o], by simp [hQueue], hAt, hBody, hOlder, ?_⟩
          intro x hx hx'
          rcases mem_append.mp hx with hx | hx
          · exact hNewer x hx hx'
          · rwa [mem_singleton.mp hx]
        · rw [later, if_neg hLower]
          have hLe := UInt8.not_lt.mp hLower
          refine ⟨queue, [], rfl, rfl, by simp [hHead], fun x hx hx' => ?_, by simp⟩
          rw [hQueue, mem_append, mem_cons] at hx
          rcases hx with hx | rfl | hx
          · exact UInt8.le_trans (hOlder x hx hx') hLe
          · exact hLe
          · exact UInt8.le_trans (UInt8.le_of_lt (hNewer x hx hx')) hLe

/-- What a push may do to a queue, and what it returns. -/
inductive Pushed (q : PriorityDropQueue) (obj : Object) : PriorityDropQueue → PushOutcome → Prop
  | queued : q.queue.length < q.capacity →
      Pushed q obj { q with queue := q.queue ++ [obj] } .queued
  | evicted {older newer v dropped} : q.capacity ≤ q.queue.length →
      q.queue = older ++ v :: newer → ¬ v.isGroupHead →
      (∀ o ∈ older, ¬ o.isGroupHead → o.priority ≤ v.priority) →
      (∀ o ∈ newer, ¬ o.isGroupHead → o.priority < v.priority) →
      dropped.toNat = q.dropped.toNat + 1 →
      Pushed q obj { q with queue := older ++ newer ++ [obj], dropped } (.evicted v)
  | droppedSelf {dropped} : q.capacity ≤ q.queue.length →
      (∀ o ∈ q.queue, ¬ o.isGroupHead → ¬ obj.isGroupHead ∧ o.priority ≤ obj.priority) →
      dropped.toNat = q.dropped.toNat + 1 → Pushed q obj { q with dropped } .droppedSelf

/-- What one push does. -/
theorem push_spec {q} (checks : Bool) (obj : Object) (hCount : q.dropped.toNat + 1 < 2 ^ 64) :
    ∃ q' out, q.push checks obj = ok (q', out) ∧ Pushed q obj q' out := by
  have hDropped : addU64 checks q.dropped 1 = (ok (q.dropped + 1) : Outcome Empty _) :=
    addU64_of_lt hCount
  have hAdd := toNat_add_one hCount
  unfold push
  split
  · rename_i hRoom
    exact ⟨_, _, rfl, .queued hRoom⟩
  rename_i hFull
  have hFull := Nat.not_lt.mp hFull
  have hSelf : q.dropSelf checks = ok ({ q with dropped := q.dropped + 1 }, .droppedSelf) := by
    rw [dropSelf, hDropped, ok_bind]
  match h : victim q.queue, chosen_victim q.queue with
  | none, hNone =>
    exact ⟨_, _, hSelf, .droppedSelf hFull (fun o ho hBody => (hBody (hNone o ho)).elim) hAdd⟩
  | some (v, _), ⟨older, newer, hQueue, rfl, hBody, hOlder, hNewer⟩ =>
    have hAt : q.queue[older.length]? = some v := by simp [hQueue]
    dsimp only [Option.map_some]
    rw [index_of_getElem? hAt, ok_bind]
    split
    · rw [unwrap_eq_ok.mpr hAt, ok_bind, hDropped, ok_bind, hQueue,
        eraseIdx_append_of_length_le le_rfl, Nat.sub_self, eraseIdx_cons_zero]
      exact ⟨_, _, rfl, .evicted hFull hQueue hBody hOlder hNewer hAdd⟩
    · rename_i hKeep
      obtain ⟨hTail, hLe⟩ := not_or.mp hKeep
      refine ⟨_, _, hSelf, .droppedSelf hFull (fun o ho hBody' => ⟨hTail, ?_⟩) hAdd⟩
      have hLe := UInt8.not_lt.mp hLe
      rw [hQueue, mem_append, mem_cons] at ho
      rcases ho with ho | rfl | ho
      · exact UInt8.le_trans (hOlder o ho hBody') hLe
      · exact hLe
      · exact UInt8.le_trans (UInt8.le_of_lt (hNewer o ho hBody')) hLe

end PriorityDropQueue

/-! ## Runs -/

inductive QueueCall where
  | push (obj : Object)
  | pop

/-- A queue with the objects that were pushed and those that were popped. -/
structure DropRun where
  q : PriorityDropQueue
  pushed : List Object
  popped : List Object

namespace DropRun

open PriorityDropQueue

def step (checks : Bool) (s : DropRun) : QueueCall → Option DropRun
  | .push obj => (s.q.push checks obj).toOption.map fun (q, _) =>
      { s with q, pushed := s.pushed ++ [obj] }
  | .pop => some { s with q := s.q.pop.1, popped := s.popped ++ s.q.pop.2.toList }

def Countable (s : DropRun) (_ : QueueCall) : Prop := s.q.dropped.toNat + 1 < 2 ^ 64

instance (s : DropRun) (e : QueueCall) : Decidable (Countable s e) :=
  inferInstanceAs (Decidable (_ < _))

structure Keeps (s : DropRun) : Prop where
  length : s.q.queue.length ≤ s.q.capacity
  count : s.pushed.length = s.popped.length + s.q.queue.length + s.q.dropped.toNat
  order : (s.popped ++ s.q.queue).Sublist s.pushed

variable {checks : Bool} {capacity : Nat} {q : PriorityDropQueue} {s s' : DropRun}

theorem Keeps.step {e} (h : Keeps s) (hCount : Countable s e) (hStep : s.step checks e = some s') :
    Keeps s' := by
  obtain ⟨hLength, hTotal, hOrder⟩ := h
  cases e with
  | pop =>
    cases hStep
    cases hQueue : s.q.queue with
    | nil => exact ⟨by simp [pop, hQueue], by simp_all [pop], by simp_all [pop]⟩
    | cons o queue =>
      simp only [hQueue, length_cons] at hLength hTotal hOrder
      refine ⟨?_, ?_, by simpa [pop, hQueue] using hOrder⟩
      all_goals
        simp only [pop, hQueue, tail_cons, head?_cons, Option.toList_some, length_append,
          length_singleton]
        omega
  | push obj =>
    obtain ⟨q', out, hPush, hPushed⟩ := push_spec checks obj hCount
    simp only [DropRun.step, hPush, toOption, Option.map_some, Option.some.injEq] at hStep
    subst hStep
    cases hPushed with
    | queued hRoom =>
      refine ⟨by simpa using hRoom, ?_, ?_⟩
      · simp only [length_append, length_singleton]
        omega
      · rw [← append_assoc]
        exact hOrder.append_right _
    | evicted hFull hQueue _ _ _ hDropped =>
      simp only [hQueue, length_append, length_cons] at hLength hTotal hOrder
      refine ⟨by simp; omega, by simp [hDropped]; omega, ?_⟩
      rw [← append_assoc]
      refine Sublist.append_right (.trans ?_ hOrder) _
      exact .append_left (.append_left (sublist_cons_self _ _) _) _
    | droppedSelf hFull _ hDropped =>
      refine ⟨hLength, ?_, hOrder.trans (sublist_append_left _ _)⟩
      simp only [length_append, length_singleton, hDropped]
      omega

/-- **The queue loses what it says.** The counter of drops does not overflow (`Countable`). In every
run the queue is within its capacity, what was popped and is queued is what was pushed, in order and
without what was dropped, and the drops are counted. The next push returns, and does what `Pushed`
says. -/
theorem keeps_order (hNew : new capacity = ok q)
    (hRun : Run (step checks) Countable ⟨q, [], []⟩ s) : Keeps s ∧ ∀ obj, Countable s (.push obj) →
      ∃ q' out, s.q.push checks obj = ok (q', out) ∧ Pushed s.q obj q' out := by
  refine ⟨hRun.invariant ?_ fun _ _ _ h hCount hStep => h.step hCount hStep,
    fun obj hCount => push_spec checks obj hCount⟩
  unfold new at hNew
  split at hNew
  · cases hNew
    exact ⟨Nat.zero_le _, rfl, .slnil⟩
  · cases hNew

def sample (objectId : UInt64) (priority : UInt8) : Object := ⟨0, objectId, priority, 0, []⟩

theorem keeps_order_full : ∃ s, Run (step true) Countable ⟨⟨2, [], 0⟩, [], []⟩ s ∧ Keeps s ∧
    s.q.queue = [sample 0 0, sample 2 1] := by
  obtain ⟨s, hRun, hTest⟩ := exists_run_of_exec (step true) Countable ⟨⟨2, [], 0⟩, [], []⟩
    [.push (sample 0 0), .push (sample 1 2), .push (sample 2 1)]
    (fun s => s.q.queue == [sample 0 0, sample 2 1]) (by decide +kernel)
  exact ⟨s, hRun, (keeps_order (rfl : new 2 = ok _) hRun).1, beq_iff_eq.mp hTest⟩

theorem exists_dropped (n : Nat) : ∃ s, Run (step false) Always ⟨⟨1, [], 0⟩, [], []⟩ s ∧
    s.q = ⟨1, [sample 0 0], .ofNat n⟩ ∧ s.popped = [] ∧ s.pushed.length = n + 1 := by
  induction n with
  | zero => exact ⟨_, .step (e := .push (sample 0 0)) .start trivial rfl, rfl, rfl, rfl⟩
  | succ n ih =>
    obtain ⟨s, hRun, hQueue, hPopped, hPushed⟩ := ih
    refine ⟨⟨⟨1, [sample 0 0], .ofNat (n + 1)⟩, s.pushed ++ [sample 0 0], s.popped⟩,
      .step (e := .push (sample 0 0)) hRun trivial ?_, rfl, hPopped, by simp [hPushed]⟩
    have hPush : ∀ d, push false ⟨1, [sample 0 0], d⟩ (sample 0 0) = dropSelf false ⟨1, _, d⟩ :=
      fun _ => rfl
    rw [step, hQueue, hPush, dropSelf, addU64_false, UInt64.ofNat_add]
    rfl

/-- Without overflow checks the counter is back at zero after `2 ^ 64` objects. -/
theorem dropped_wraps : ∃ s, Run (step false) Always ⟨⟨1, [], 0⟩, [], []⟩ s ∧
    s.pushed.length ≠ s.popped.length + s.q.queue.length + s.q.dropped.toNat := by
  obtain ⟨s, hRun, hQueue, hPopped, hPushed⟩ := exists_dropped (2 ^ 64)
  refine ⟨s, hRun, ?_⟩
  rw [hPushed, hQueue, hPopped]
  decide

end DropRun

end DirectWire.Moq
