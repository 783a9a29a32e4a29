import DirectWire.Homa.Packet
import DirectWire.Lib.Platform

/-!
# Homa — the send queues

`transport/txqueue.rs`: what the threads that send share under one mutex. DATA
packets are queued by the priority in their header, everything else as control
packets. A batch is all control packets and then DATA packets from the highest
priority down, up to a budget.
-/

namespace DirectWire.Homa

open Lib List

def numPriorities : Nat := 8

/-- The most packets a sending thread takes at once, control packets apart. -/
def flushBudget : Nat := 1024

abbrev Datagram := SocketAddr × Bytes

structure TxInner where
  control : List Datagram
  /-- One queue for each priority, the highest first. -/
  queues : List (List Datagram)
  queues_length : queues.length = numPriorities
deriving DecidableEq

namespace TxInner

def new : TxInner := ⟨[], List.replicate numPriorities [], List.length_replicate⟩

def priorityOf : Bytes → Option Nat
  | typ :: priority :: _ =>
    if typ = PacketType.data.toU8 then some (min priority.toNat (numPriorities - 1)) else none
  | _ => none

def push (q : TxInner) (dest : SocketAddr) (bytes : Bytes) : TxInner :=
  match priorityOf bytes with
  | some p =>
    { q with
      queues := q.queues.modify p (· ++ [(dest, bytes)])
      queues_length := by rw [List.length_modify, q.queues_length] }
  | none => { q with control := q.control ++ [(dest, bytes)] }

/-- Fill the batch `out` from one queue after another. -/
def fill (budget : Nat) : List Datagram → List (List Datagram) →
    List Datagram × List (List Datagram)
  | out, [] => (out, [])
  | out, q :: qs =>
    -- `pop_front` until the batch is full or the queue is empty
    let room := budget - out.length
    let out := out ++ q.take room
    if out.length ≥ budget then (out, q.drop room :: qs)
    else ((fill budget out qs).1, q.drop room :: (fill budget out qs).2)

theorem fill_length (budget : Nat) (out : List Datagram) (qs : List (List Datagram)) :
    (fill budget out qs).2.length = qs.length := by
  induction qs generalizing out with
  | nil => rfl
  | cons q qs ih =>
    simp only [fill]
    split
    · rfl
    · rw [List.length_cons, List.length_cons, ih]

/-- A round of `wait_batch`: the batch, if there is one, and what is left. -/
def takeBatch (budget : Nat) (q : TxInner) : Option (List Datagram) × TxInner :=
  -- control packets do not count
  let r := fill budget q.control q.queues
  (if r.1 = [] then none else some r.1,
    ⟨[], r.2, by rw [fill_length, q.queues_length]⟩)

/-! ## No packet is lost -/

def packets (q : TxInner) : List Datagram := q.control ++ q.queues.flatten

theorem fill_perm (budget : Nat) (out : List Datagram) (qs : List (List Datagram)) :
    ((fill budget out qs).1 ++ (fill budget out qs).2.flatten).Perm (out ++ qs.flatten) := by
  induction qs generalizing out with
  | nil => exact .refl _
  | cons q qs ih =>
    simp only [fill]
    split
    · rw [flatten_cons, flatten_cons, append_assoc, ← append_assoc (q.take _), take_append_drop]
    · rename_i hRoom
      -- there was room for the whole queue
      have hAll : q.length ≤ budget - out.length := by
        rw [length_append, length_take] at hRoom
        omega
      rw [drop_of_length_le hAll, take_of_length_le hAll, flatten_cons,
        nil_append, flatten_cons, ← append_assoc]
      exact ih (out ++ q)

theorem takeBatch_perm (budget : Nat) (q : TxInner) :
    ((takeBatch budget q).1.getD [] ++ (takeBatch budget q).2.packets).Perm q.packets := by
  have hBatch : (takeBatch budget q).1.getD [] = (fill budget q.control q.queues).1 := by
    simp only [takeBatch]
    split
    · rename_i hEmpty
      exact hEmpty.symm
    · rfl
  rw [hBatch]
  exact fill_perm budget q.control q.queues

theorem modify_flatten_perm {α : Type} {l : List (List α)} {p : Nat} (y : α) (hp : p < l.length) :
    (l.modify p (· ++ [y])).flatten.Perm (y :: l.flatten) := by
  induction l generalizing p with
  | nil => cases hp
  | cons q qs ih =>
    cases p with
    | zero => simp
    | succ p => exact ((ih (Nat.lt_of_succ_lt_succ hp)).append_left q).trans perm_middle

theorem push_perm (q : TxInner) (x : Datagram) :
    (q.push x.1 x.2).packets.Perm (x :: q.packets) := by
  unfold push
  split
  · refine ((modify_flatten_perm x ?_).append_left q.control).trans perm_middle
    rw [q.queues_length]
    grind [priorityOf.eq_def, numPriorities]
  · simp [packets]

theorem mem_push {q : TxInner} {dest : SocketAddr} {bytes : Bytes} {x : Datagram}
    (h : x ∈ (q.push dest bytes).packets) : x = (dest, bytes) ∨ x ∈ q.packets :=
  mem_cons.mp ((push_perm q (dest, bytes)).mem_iff.mp h)

/-- What a thread does under the lock. -/
inductive Call where
  | push (x : Datagram)
  | waitBatch (budget : Nat)

/-- What was pushed, what was handed out, and the queues. -/
def call : List Datagram × List Datagram × TxInner → Call → List Datagram × List Datagram × TxInner
  | (pushed, returned, q), .push x => (x :: pushed, returned, q.push x.1 x.2)
  | (pushed, returned, q), .waitBatch budget =>
    let (batch, q) := q.takeBatch budget
    (pushed, returned ++ batch.getD [], q)

/-- **No packet is lost or sent twice.** After any calls of `push` and `take_batch`, in whatever
order the threads make them, what was taken and what is queued are together what was pushed. -/
theorem calls_perm (calls : List Call) :
    let s := calls.foldl call ([], [], new)
    (s.2.1 ++ s.2.2.packets).Perm s.1 := by
  refine foldlRecOn calls call (motive := fun s => (s.2.1 ++ s.2.2.packets).Perm s.1) ?_ ?_
  · exact .nil
  rintro ⟨pushed, returned, q⟩ h (x | budget) -
  · exact ((push_perm q x).append_left returned).trans (perm_middle.trans (h.cons x))
  · have hTaken := (takeBatch_perm budget q).append_left returned
    rw [← append_assoc] at hTaken
    exact hTaken.trans h

end TxInner

end DirectWire.Homa
