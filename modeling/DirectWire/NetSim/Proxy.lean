import DirectWire.Lib.Platform
import DirectWire.Lib.Run
import DirectWire.Lib.Bytes
import Mathlib.Algebra.Order.Field.Rat

/-!
# The network simulator — the UDP relay and its bandwidth limit

`relay_udp` reads the clock, sends what is due, and receives a datagram. Times and durations are
exact numbers of seconds here. The loop reserves the slot of a packet when it looks at it, not when
it removes it from the queue.
-/

namespace DirectWire.NetSim

open Lib

variable {K : Type} [Field K] [LinearOrder K]

structure Conditions (K : Type) where
  rtt : K
  loss : K
  jitterMicros : Nat
  reorder : K
  bandwidth : Option UInt64

structure Pending (K : Type) where
  sendAt : K
  dest : SocketAddr
  bytes : Bytes

/-- What the generator answers while a datagram is handled. -/
structure Draws (K : Type) where
  loss : K
  offset : Nat
  reorder : K

def Conditions.sendAt (conds : Conditions K) (now : K) (draws : Draws K) : K :=
  let hop := conds.rtt / 2
  let j := conds.jitterMicros / 2
  let sendAt := now + hop
  -- an offset below zero counts as zero
  let sendAt := if 0 < j then sendAt + (draws.offset % (2 * j) - j : Nat) / 1000000 else sendAt
  let sendAt := if sendAt < now then now else sendAt
  if 0 < conds.reorder ∧ draws.reorder < conds.reorder ∧ 0 < hop then now + hop / 2 else sendAt

/-- Where the loop is; `now` is the clock it has read at its top. -/
inductive Phase (K : Type) where
  | top
  | sending (now : K)
  | receiving (now : K)
deriving DecidableEq

/-- The variables of the loop, the last time read and, in their order, the packets removed. -/
structure Relay (K : Type) where
  phase : Phase K
  clientAddr : Option SocketAddr
  pending : List (Pending K)
  nextSlot : K
  clock : K
  removed : List (Pending K)

inductive RelayEvent (K : Type) where
  | wake (now : K)
  /-- The sending loop looks at its heap; `i` is the packet on top, one of those due first. -/
  | look (i : Nat)
  | recv (src : SocketAddr) (bytes : Bytes) (draws : Draws K)
  | timeout

namespace Relay

variable {conds : Conditions K} {server : SocketAddr} {r r' : Relay K} {rate : UInt64} {t : K}

def start (t : K) : Relay K := ⟨.top, none, [], t, t, []⟩

def remove (r : Relay K) (i : Nat) (p : Pending K) : Relay K :=
  { r with pending := r.pending.eraseIdx i, removed := r.removed ++ [p] }

/-- The time the packet takes the line, and `next_slot` after it. -/
def reserve (conds : Conditions K) (nextSlot : K) (head : Pending K) : K × K :=
  match conds.bandwidth with
  | some rate =>
    let slot := max nextSlot head.sendAt
    (slot, slot + head.bytes.length / rate.toNat)
  | none => (head.sendAt, nextSlot)

/-- One turn of the sending loop with `head` on top. -/
def look (conds : Conditions K) (r : Relay K) (now : K) (i : Nat) (head : Pending K) : Relay K :=
  if conds.bandwidth = some 0 then { r with pending := [], phase := .receiving now }
  else
    let (sendAt, nextSlot) := reserve conds r.nextSlot head
    let r := { r with nextSlot }
    if now < sendAt then { r with phase := .receiving now } else r.remove i head

def recv (conds : Conditions K) (server : SocketAddr) (r : Relay K) (now : K) (src : SocketAddr)
    (bytes : Bytes) (draws : Draws K) : Relay K :=
  let r := { r with phase := .top }
  let enqueue (r : Relay K) (dest : SocketAddr) : Relay K :=
    if 0 < conds.loss ∧ draws.loss < conds.loss then r
    else { r with pending := ⟨conds.sendAt now draws, dest, bytes⟩ :: r.pending }
  if src = server then
    match r.clientAddr with
    | some client => enqueue r client
    | none => r
  else enqueue { r with clientAddr := some (r.clientAddr.getD src) } server

def step (conds : Conditions K) (server : SocketAddr) (r : Relay K) :
    RelayEvent K → Option (Relay K)
  | .wake now =>
    match r.phase with
    | .top => if r.clock ≤ now then some { r with phase := .sending now, clock := now } else none
    | _ => none
  | .look i =>
    match r.phase, r.pending[i]? with
    | .sending now, some head =>
      if ∀ p ∈ r.pending, head.sendAt ≤ p.sendAt then some (r.look conds now i head) else none
    | .sending now, none =>
      if r.pending.isEmpty then some { r with phase := .receiving now } else none
    | _, _ => none
  | .recv src bytes draws =>
    match r.phase with
    | .receiving now => some (r.recv conds server now src bytes draws)
    | _ => none
  | .timeout =>
    match r.phase with
    | .receiving _ => some { r with phase := .top }
    | _ => none

/-- The step of `next_slot` for a packet that is sent. -/
def charge (rate : UInt64) (nextSlot : K) (p : Pending K) : K :=
  max nextSlot p.sendAt + p.bytes.length / rate.toNat

def Charged (rate : UInt64) (t : K) (r : Relay K) : Prop :=
  r.nextSlot = r.removed.foldl (charge rate) t

/-- The packet the loop looks at is due, or it is empty and does not move `next_slot`. -/
def Due (r : Relay K) : RelayEvent K → Prop
  | .look i => ∀ now head, r.phase = .sending now → r.pending[i]? = some head →
      max r.nextSlot head.sendAt ≤ now ∨ head.bytes = [] ∧ head.sendAt ≤ r.nextSlot
  | _ => True

theorem Charged.recv (h : Charged rate t r) (now : K) (src : SocketAddr) (bytes : Bytes)
    (draws : Draws K) : Charged rate t (r.recv conds server now src bytes draws) := by
  unfold Relay.recv
  dsimp only
  split
  · split
    · split <;> exact h
    · exact h
  · split <;> exact h

theorem Charged.look (h : Charged rate t r) (hBandwidth : conds.bandwidth = some rate)
    (hRate : rate ≠ 0) {now : K} {head : Pending K}
    (hDue : max r.nextSlot head.sendAt ≤ now ∨ head.bytes = [] ∧ head.sendAt ≤ r.nextSlot)
    (i : Nat) : Charged rate t (r.look conds now i head) := by
  unfold Relay.look reserve
  rw [hBandwidth, if_neg (by simpa using hRate)]
  dsimp only
  split
  · -- not due, so it is empty, and the slot is what it was
    rename_i hEarly
    obtain ⟨hEmpty, hPast⟩ := hDue.resolve_left (not_le.mpr hEarly)
    have hSame : charge rate r.nextSlot head = r.nextSlot := by
      simp [charge, hEmpty, max_eq_left hPast]
    exact hSame.trans h
  · exact (congrArg (charge rate · head) h).trans (List.foldl_concat ..).symm

theorem Charged.step (h : Charged rate t r) (hBandwidth : conds.bandwidth = some rate)
    (hRate : rate ≠ 0) {e : RelayEvent K} (hDue : r.Due e)
    (hStep : step conds server r e = some r') : Charged rate t r' := by
  unfold Relay.step at hStep
  split at hStep
  · split at hStep
    · split at hStep <;> cases hStep
      exact h
    · cases hStep
  · split at hStep
    · rename_i hPhase hHead
      split at hStep <;> cases hStep
      exact h.look hBandwidth hRate (hDue _ _ hPhase hHead) _
    · split at hStep <;> cases hStep
      exact h
    · cases hStep
  · split at hStep <;> cases hStep
    exact h.recv ..
  · split at hStep <;> cases hStep
    exact h

/-- **Each packet is charged once**, when it is removed. The link has a rate (`hBandwidth`,
`hRate`), and whenever the sending loop looks at a packet it is `Due`. Then `next_slot` is at every
point what the packets removed so far make of the start time, each charged with its length once. -/
theorem charged_once (hBandwidth : conds.bandwidth = some rate) (hRate : rate ≠ 0)
    (hRun : Run (step conds server) Due (start t) r) :
    r.nextSlot = r.removed.foldl (charge rate) t :=
  hRun.invariant (I := Charged rate t) rfl
    fun _ _ _ h hDue hStep => h.step hBandwidth hRate hDue hStep

def slowLink (rtt : ℚ) : Conditions ℚ := ⟨rtt, 0, 0, 0, some 1⟩

def onePacket (rtt : ℚ) : Pending ℚ := ⟨(slowLink rtt).sendAt 0 ⟨0, 0, 0⟩, .v4 2 2, [7]⟩

/-- The loop has received a datagram of one byte from the client. -/
def queued (rtt : ℚ) : Relay ℚ := ⟨.sending 0, some (.v4 1 1), [onePacket rtt], 0, 0, []⟩

theorem queued_run (rtt : ℚ) : Run (step (slowLink rtt) (.v4 2 2)) Due (start 0) (queued rtt) :=
  .step (e := .wake 0) (.step (e := .recv (.v4 1 1) [7] ⟨0, 0, 0⟩)
    (.step (e := .look 0) (.step (e := .wake 0) .start trivial rfl) nofun rfl) trivial rfl)
    trivial rfl

theorem queued_look (rtt : ℚ) : step (slowLink rtt) (.v4 2 2) (queued rtt) (.look 0) =
    some ((queued rtt).look (slowLink rtt) 0 0 (onePacket rtt)) :=
  if_pos fun _ hp => (List.mem_singleton.mp hp) ▸ le_refl _

theorem charged_once_one : ∃ r, Run (step (slowLink 0) (.v4 2 2)) Due (start 0) r ∧
    r.removed.length = 1 ∧ r.nextSlot = r.removed.foldl (charge 1) 0 := by
  have hRun := (queued_run 0).step (by rintro _ _ ⟨⟩ ⟨⟩; exact .inl (by decide +kernel))
    (queued_look 0)
  exact ⟨_, hRun, by decide +kernel, charged_once rfl (by decide) hRun⟩

/-- A packet that is not due yet has been charged, and nothing has been sent. -/
theorem charged_early : ∃ r, Run (step (slowLink 2) (.v4 2 2)) Always (start 0) r ∧
    r.phase = .receiving 0 ∧ r.removed = [] ∧ r.nextSlot ≠ r.removed.foldl (charge 1) 0 :=
  ⟨_, ((queued_run 2).mono fun _ _ _ => trivial).step trivial (queued_look 2),
    by decide +kernel, by decide +kernel, by decide +kernel⟩

end Relay

end DirectWire.NetSim
