import Mathlib.Data.List.Sort
import DirectWire.Homa.Transport

/-!
# Homa — receiver core

`transport/receiver.rs`: reassembly by slot bitmap, and the GRANT scheduler. `checks` is the
build's `overflow-checks` setting and `ord` the order in which the hash map is iterated.

The functions that only schedule never touch a message's length, buffer, bitmap or byte count
(`ReceiverCore.SameBodies`), and never deliver. `handleData_cases` lists what a DATA packet can do.
-/

namespace DirectWire.Homa

open Lib Outcome

structure InMsg where
  totalLen : Nat
  buf : Bytes
  received : List Bool
  receivedBytes : Nat
  grantedTo : Nat
  lastProgress : Instant
  lastGrant : Instant
  unansweredResends : Nat
deriving DecidableEq, Repr

def maxUnansweredResends : Nat := 40

namespace InMsg

def remaining (checks : Bool) (m : InMsg) : Outcome Empty Nat :=
  subU checks m.totalLen m.receivedBytes

def complete (m : InMsg) : Bool := m.receivedBytes == m.totalLen

def firstMissingOffset (m : InMsg) (packetSize : Nat) : Option Nat :=
  (m.received.findIdx? fun r => !r).map (· * packetSize)

def new (totalLen packetSize unscheduled : Nat) (now : Instant) : InMsg :=
  { totalLen
    buf := List.replicate totalLen 0
    -- an empty message still has one slot
    received := List.replicate (max ((totalLen + packetSize - 1) / packetSize) 1) false
    receivedBytes := 0
    grantedTo := unscheduled
    lastProgress := now
    lastGrant := now
    unansweredResends := 0 }

/-- The slot test of `handle_data`: the packet's slot exists and is free, and
the payload ends inside the length **the packet** states. -/
def takes (packetSize : Nat) (m : InMsg) (pkt : Packet) (payload : Bytes) : Bool :=
  m.received[pkt.offset.toNat / packetSize]? == some false &&
    decide (pkt.offset.toNat + payload.length ≤ pkt.msgLen.toNat)

def write (packetSize : Nat) (m : InMsg) (pkt : Packet) (payload : Bytes) (now : Instant) :
    Outcome Empty InMsg :=
  if m.takes packetSize pkt payload then do
    let buf ← overwrite m.buf pkt.offset.toNat payload
    ok { m with
      buf
      received := m.received.set (pkt.offset.toNat / packetSize) true
      receivedBytes := m.receivedBytes + payload.length
      lastProgress := now
      unansweredResends := 0 }
  else ok m

end InMsg

def completedCache : Nat := 4096

def DueBefore (a b : Instant × MsgKey) : Prop :=
  a.1 < b.1 ∨ a.1 = b.1 ∧ (a.2.1.rank < b.2.1.rank ∨ a.2.1.rank = b.2.1.rank ∧ a.2.2 ≤ b.2.2)

instance : DecidableRel DueBefore := fun _ _ => inferInstanceAs (Decidable (_ ∨ _))

structure ReceiverCore where
  cfg : TransportConfig
  incoming : Map MsgKey InMsg
  granting : List MsgKey
  /-- Recently delivered keys, and the order to forget them in. -/
  completed : Finset MsgKey
  completedOrder : List MsgKey
  starveQueue : List (Instant × MsgKey)

namespace ReceiverCore

variable (checks : Bool) (ord : HashOrder MsgKey) (s : ReceiverCore)

def new (cfg : TransportConfig) : ReceiverCore := ⟨cfg, ∅, [], ∅, [], []⟩

/-- Put `key` on the starvation heap, due one threshold from `now`. -/
def pushStarve (key : MsgKey) (now : Instant) : Outcome Empty ReceiverCore := do
  let due ← addInstant now s.cfg.starveThreshold
  ok { s with starveQueue := s.starveQueue.orderedInsert DueBefore (due, key) }

/-- Keep the grant window of one message open. Without `force` nothing is
granted while half an increment is still outstanding. -/
def issueGrant (now : Instant) (force : Bool) (s : ReceiverCore) (key : MsgKey) :
    Outcome Empty (ReceiverCore × List Action) :=
  match s.incoming.lookup key with
  | none => ok (s, [])
  | some msg =>
    let increment := s.cfg.grantIncrement
    -- `saturating_sub`
    let outstanding := msg.grantedTo - msg.receivedBytes
    if !force ∧ outstanding ≥ increment / 2 then ok (s, [])
    else do
      let reach ← addU checks msg.receivedBytes increment
      -- a grant is never taken back
      let target := max (min reach msg.totalLen) msg.grantedTo
      if target = msg.grantedTo ∧ !force then ok (s, [])
      else
        let added := target - msg.grantedTo
        let grant : Packet :=
          { typ := .grant
            priority := priorityForLen msg.totalLen
            msgId := key.2
            msgLen := 0
            offset := UInt32.ofNat target
            length := UInt32.ofNat added }
        let s := { s with incoming :=
          s.incoming.insert key { msg with grantedTo := target, lastGrant := now } }
        let s ← s.pushStarve key now
        ok (s, [.send key.1 (grant.encode [])])

def entries : List (MsgKey × InMsg) :=
  (s.incoming.iterKeys ord).filterMap fun key => (s.incoming.lookup key).map (key, ·)

/-- A message the scheduler may grant: incomplete and not fully granted. -/
def wants (m : InMsg) : Bool := !m.complete && decide (m.grantedTo < m.totalLen)

def remainings (checks : Bool) : List (MsgKey × InMsg) → Outcome Empty (List (MsgKey × Nat))
  | [] => ok []
  | (key, m) :: rest =>
    if wants m then do
      let rem ← m.remaining checks
      let more ← remainings checks rest
      ok ((key, rem) :: more)
    else remainings checks rest

def addStarved (now : Instant) (threshold : Duration) (entries : List (MsgKey × InMsg))
    (selected : List MsgKey) : List MsgKey :=
  entries.foldl (fun sel e =>
    if wants e.2 ∧ durationSince now e.2.lastGrant ≥ threshold ∧ e.1 ∉ sel then sel ++ [e.1]
    else sel) selected

/-- SRPT: grant the `overcommit` messages with the fewest remaining bytes,
and every message that has waited for the starvation threshold. -/
def schedule (now : Instant) (s : ReceiverCore) : Outcome Empty (ReceiverCore × List Action) := do
  let k := max s.cfg.overcommit 1
  let cands ← remainings checks (s.entries ord)
  -- the sort is stable: equal messages stay in iteration order
  let selected := ((cands.insertionSort fun a b => a.2 ≤ b.2).take k).map Prod.fst
  let selected := addStarved now s.cfg.starveThreshold (s.entries ord) selected
  forEach (issueGrant checks now false) { s with granting := selected } selected

def starved (now : Instant) (key : MsgKey) : Bool :=
  match s.incoming.lookup key with
  | none => false
  | some m => key ∉ s.granting && m.grantedTo < m.totalLen &&
      durationSince now m.lastGrant ≥ s.cfg.starveThreshold

/-- Pop due entries until one is starved: whether there was one, and the
heap that is left. -/
def popDue (s : ReceiverCore) (now : Instant) :
    List (Instant × MsgKey) → Bool × List (Instant × MsgKey)
  | [] => (false, [])
  | (t, key) :: rest =>
    -- the heap is ordered, so nothing behind this entry is due either
    if t > now then (false, (t, key) :: rest)
    -- entries of messages that are gone or were granted since are dropped
    else if s.starved now key then (true, rest)
    else popDue s now rest

def starveCheck (now : Instant) (s : ReceiverCore) : Outcome Empty (ReceiverCore × List Action) :=
  let (found, queue) := s.popDue now s.starveQueue
  let s := { s with starveQueue := queue }
  if found then s.schedule checks ord now else ok (s, [])

def deliver (s : ReceiverCore) (key : MsgKey) (src : SocketAddr) (data : Bytes) :
    ReceiverCore × List Action :=
  let completed := insert key s.completed
  let order := s.completedOrder ++ [key]
  let s := { s with
    incoming := s.incoming.erase key
    granting := s.granting.filter (· ≠ key) }
  let s :=
    if order.length > completedCache then
      match order with
      | [] => { s with completed, completedOrder := [] }
      | old :: rest => { s with completed := completed.erase old, completedOrder := rest }
    else { s with completed, completedOrder := order }
  (s, [.deliver src key.2 data])

/-- Find the entry of a packet's message, creating it for a new message. -/
def openEntry (key : MsgKey) (totalLen : Nat) (now : Instant) :
    Outcome Empty (ReceiverCore × InMsg) :=
  match s.incoming.lookup key with
  | some msg => ok (s, msg)
  | none => do
    let s ← s.pushStarve key now
    let msg := InMsg.new totalLen s.cfg.packetSize (min s.cfg.unscheduledBytes totalLen) now
    ok ({ s with incoming := s.incoming.insert key msg }, msg)

/-- After a packet that did not complete its message: a new message needs
the full schedule, a known one only its own window. -/
def advance (now : Instant) (s : ReceiverCore) (key : MsgKey) (isNew : Bool) :
    Outcome Empty (ReceiverCore × List Action) :=
  if isNew then s.schedule checks ord now
  else if key ∈ s.granting then s.issueGrant checks now false key
  else ok (s, [])

def handleData (src : SocketAddr) (pkt : Packet) (payload : Bytes) (now : Instant) :
    Outcome Empty (ReceiverCore × List Action) :=
  let key := (src, pkt.msgId)
  let totalLen := pkt.msgLen.toNat
  -- a late duplicate of a delivered message
  if key ∈ s.completed then ok (s, [])
  -- nothing is allocated for a length no sender may use
  else if totalLen > maxMsgLen then ok (s, [])
  else if (s.incoming.lookup key).isNone ∧ s.incoming.size ≥ s.cfg.maxIncoming then
    -- the table of incoming messages is full
    let busy : Packet := ⟨.busy, 0, pkt.msgId, 0, 0, 0⟩
    ok (s, [.send src (busy.encode [])])
  else do
    let isNew := (s.incoming.lookup key).isNone
    let (s, msg) ← s.openEntry key totalLen now
    if totalLen = 0 then do
      -- an empty message is complete with its first packet
      let (s, out) := s.deliver key src []
      let (s, grants) ← s.schedule checks ord now
      ok (s, out ++ grants)
    else do
      let msg ← msg.write s.cfg.packetSize pkt payload now
      if msg.complete then do
        -- complete by the byte count; the bitmap is not looked at
        let (s, out) := s.deliver key src msg.buf
        let (s, grants) ← s.schedule checks ord now
        ok (s, out ++ grants)
      else do
        let s := { s with incoming := s.incoming.insert key msg }
        let (s, grants) ← s.advance checks ord now key isNew
        let (s, relief) ← s.starveCheck checks ord now
        ok (s, grants ++ relief)

/-- One message of `tick`. -/
def tickKey (now : Instant) (s : ReceiverCore) (key : MsgKey) :
    Outcome Empty (ReceiverCore × List Action) :=
  match s.incoming.lookup key with
  | none => ok (s, [])
  | some msg =>
    if durationSince now msg.lastProgress < s.cfg.resendTimeout then ok (s, [])
    else
      let touched := { msg with lastProgress := now }
      -- a hole inside the granted window asks for a RESEND
      let hole := (msg.firstMissingOffset s.cfg.packetSize).filter (· < msg.grantedTo)
      match hole with
      | some off =>
        let span := min (msg.grantedTo - off) s.cfg.grantIncrement
        let resend : Packet :=
          { typ := .resend
            priority := priorityForLen msg.totalLen
            msgId := key.2
            msgLen := 0
            offset := UInt32.ofNat off
            length := UInt32.ofNat span }
        let unanswered := msg.unansweredResends + 1
        let s :=
          -- the sender does not answer any more: give the message up
          if unanswered > maxUnansweredResends then
            { s with
              incoming := s.incoming.erase key
              granting := s.granting.filter (· ≠ key) }
          else { s with incoming :=
            s.incoming.insert key { touched with unansweredResends := unanswered } }
        ok (s, [.send key.1 (resend.encode [])])
      | none =>
        -- nothing missing in the window: the GRANT may have been lost
        if durationSince now msg.lastProgress ≥ s.cfg.grantTimeout then
          let s := { s with incoming := s.incoming.insert key touched }
          -- repeat the GRANT even if it adds nothing
          if key ∈ s.granting then s.issueGrant checks now true key else ok (s, [])
        else ok (s, [])

/-- Periodic work: RESEND or repeat the GRANT for every stalled message,
then schedule. -/
def tick (now : Instant) : Outcome Empty (ReceiverCore × List Action) := do
  let (s, out) ← forEach (tickKey checks now) s (s.incoming.iterKeys ord)
  let (s, grants) ← s.schedule checks ord now
  ok (s, out ++ grants)

end ReceiverCore

/-! ## What the functions are made of -/

namespace ReceiverCore

/-- The GRANT that opens the window of a message up to `target`. -/
def grantPacket (key : MsgKey) (m : InMsg) (target : Nat) : Packet :=
  { typ := .grant
    priority := priorityForLen m.totalLen
    msgId := key.2
    msgLen := 0
    offset := UInt32.ofNat target
    length := UInt32.ofNat (target - m.grantedTo) }

/-- The RESEND that asks for what is missing from `off` on. -/
def resendPacket (cfg : TransportConfig) (key : MsgKey) (m : InMsg) (off : Nat) : Packet :=
  { typ := .resend
    priority := priorityForLen m.totalLen
    msgId := key.2
    msgLen := 0
    offset := UInt32.ofNat off
    length := UInt32.ofNat (min (m.grantedTo - off) cfg.grantIncrement) }

/-- How `issueGrant` is put together. -/
inductive GrantParts (checks : Bool) (now : Instant) (force : Bool) (s : ReceiverCore)
    (key : MsgKey) : ReceiverCore → List Action → Prop where
  | absent (hNone : s.incoming.lookup key = none) : GrantParts checks now force s key s []
  | ample {m} (hm : s.incoming.lookup key = some m) (hQuiet : force = false)
      (hHalf : s.cfg.grantIncrement / 2 ≤ m.grantedTo - m.receivedBytes) :
      GrantParts checks now force s key s []
  | reached {m reach} (hm : s.incoming.lookup key = some m) (hQuiet : force = false)
      (hReach : addU checks m.receivedBytes s.cfg.grantIncrement = (ok reach : Outcome Empty _))
      (hLe : min reach m.totalLen ≤ m.grantedTo) : GrantParts checks now force s key s []
  | grants {m reach starveQueue} (hm : s.incoming.lookup key = some m)
      (hReach : addU checks m.receivedBytes s.cfg.grantIncrement = (ok reach : Outcome Empty _)) :
      GrantParts checks now force s key
        { s with
          incoming := s.incoming.insert key
            { m with grantedTo := max (min reach m.totalLen) m.grantedTo, lastGrant := now }
          starveQueue }
        [.send key.1 ((grantPacket key m (max (min reach m.totalLen) m.grantedTo)).encode [])]

/-- How `handleData` is put together. -/
inductive DataParts (checks : Bool) (ord : HashOrder MsgKey) (s : ReceiverCore) (src : SocketAddr)
    (pkt : Packet) (payload : Bytes) (now : Instant) : ReceiverCore → List Action → Prop where
  | ignored (hDrop : (src, pkt.msgId) ∈ s.completed ∨ maxMsgLen < pkt.msgLen.toNat) :
      DataParts checks ord s src pkt payload now s []
  | busy (hFresh : (src, pkt.msgId) ∉ s.completed)
      (hNew : s.incoming.lookup (src, pkt.msgId) = none)
      (hFull : s.cfg.maxIncoming ≤ s.incoming.size) :
      DataParts checks ord s src pkt payload now s
        [.send src ((⟨.busy, 0, pkt.msgId, 0, 0, 0⟩ : Packet).encode [])]
  | empty {t s' m grants} (hFresh : (src, pkt.msgId) ∉ s.completed) (hZero : pkt.msgLen.toNat = 0)
      (hOpen : s.openEntry (src, pkt.msgId) pkt.msgLen.toNat now = ok (t, m))
      (hSchedule :
        (t.deliver (src, pkt.msgId) src []).1.schedule checks ord now = ok (s', grants)) :
      DataParts checks ord s src pkt payload now s'
        ((t.deliver (src, pkt.msgId) src []).2 ++ grants)
  | completes {t s' m m' grants} (hFresh : (src, pkt.msgId) ∉ s.completed)
      (hSome : pkt.msgLen.toNat ≠ 0) (hLen : pkt.msgLen.toNat ≤ maxMsgLen)
      (hOpen : s.openEntry (src, pkt.msgId) pkt.msgLen.toNat now = ok (t, m))
      (hWrite : m.write t.cfg.packetSize pkt payload now = ok m') (hDone : m'.complete = true)
      (hSchedule :
        (t.deliver (src, pkt.msgId) src m'.buf).1.schedule checks ord now = ok (s', grants)) :
      DataParts checks ord s src pkt payload now s'
        ((t.deliver (src, pkt.msgId) src m'.buf).2 ++ grants)
  | stores {t u s' m m' grants relief} (hFresh : (src, pkt.msgId) ∉ s.completed)
      (hSome : pkt.msgLen.toNat ≠ 0) (hLen : pkt.msgLen.toNat ≤ maxMsgLen)
      (hOpen : s.openEntry (src, pkt.msgId) pkt.msgLen.toNat now = ok (t, m))
      (hWrite : m.write t.cfg.packetSize pkt payload now = ok m') (hMore : m'.complete = false)
      (hAdvance : { t with incoming := t.incoming.insert (src, pkt.msgId) m' }.advance checks ord
        now (src, pkt.msgId) (s.incoming.lookup (src, pkt.msgId)).isNone = ok (u, grants))
      (hRelief : u.starveCheck checks ord now = ok (s', relief)) :
      DataParts checks ord s src pkt payload now s' (grants ++ relief)

variable {checks force ticks : Bool} {ord : HashOrder MsgKey} {now : Instant}
  {s s' t : ReceiverCore} {key : MsgKey} {out : List Action} {src : SocketAddr} {pkt : Packet}
  {payload : Bytes}

theorem pushStarve_eq (h : s.pushStarve key now = ok s') :
    s' = { s with starveQueue :=
      s.starveQueue.orderedInsert DueBefore (now + s.cfg.starveThreshold, key) } := by
  obtain ⟨due, hDue, h⟩ := bind_eq_ok.mp h
  cases h
  unfold addInstant at hDue
  split at hDue <;> cases hDue
  rfl

theorem issueGrant_parts (h : issueGrant checks now force s key = ok (s', out)) :
    GrantParts checks now force s key s' out := by
  unfold issueGrant at h
  split at h
  · rename_i hNone
    cases h
    exact .absent hNone
  rename_i m hm
  dsimp only at h
  split at h
  · rename_i hAmple
    cases h
    exact .ample hm (by simpa using hAmple.1) hAmple.2
  obtain ⟨reach, hReach, h⟩ := bind_eq_ok.mp h
  split at h
  · rename_i hSame
    cases h
    refine .reached hm (by simpa using hSame.2) hReach ?_
    have hMax := hSame.1
    omega
  · obtain ⟨u, hPush, h⟩ := bind_eq_ok.mp h
    cases h
    cases pushStarve_eq hPush
    exact .grants hm hReach

theorem handleData_parts (h : handleData checks ord s src pkt payload now = ok (s', out)) :
    DataParts checks ord s src pkt payload now s' out := by
  -- the guards first, in the order of the source; then the entry, the write,
  -- and what follows a complete or an incomplete message
  unfold handleData at h
  dsimp only at h
  split at h
  · rename_i hCompleted
    cases h
    exact .ignored (.inl hCompleted)
  rename_i hFresh
  split at h
  · rename_i hLong
    cases h
    exact .ignored (.inr hLong)
  split at h
  · rename_i hBusy
    cases h
    exact .busy hFresh (by simpa using hBusy.1) hBusy.2
  obtain ⟨⟨t, m⟩, hOpen, h⟩ := bind_eq_ok.mp h
  split at h
  · rename_i hZero
    obtain ⟨⟨u, grants⟩, hSchedule, h⟩ := bind_eq_ok.mp h
    cases h
    exact .empty hFresh hZero hOpen hSchedule
  rename_i hSome
  obtain ⟨m', hWrite, h⟩ := bind_eq_ok.mp h
  split at h
  · rename_i hDone
    obtain ⟨⟨u, grants⟩, hSchedule, h⟩ := bind_eq_ok.mp h
    cases h
    exact .completes hFresh hSome (by omega) hOpen hWrite hDone hSchedule
  · rename_i hMore
    obtain ⟨⟨u, grants⟩, hAdvance, h⟩ := bind_eq_ok.mp h
    obtain ⟨⟨v, relief⟩, hRelief, h⟩ := bind_eq_ok.mp h
    cases h
    exact .stores hFresh hSome (by omega) hOpen hWrite (by simpa using hMore) hAdvance hRelief

theorem openEntry_eq {len m} (h : s.openEntry key len now = ok (t, m)) :
    s.incoming.lookup key = some m ∧ t = s ∨
      s.incoming.lookup key = none ∧
        m = InMsg.new len s.cfg.packetSize (min s.cfg.unscheduledBytes len) now ∧
        t = { s with
          incoming := s.incoming.insert key m
          starveQueue :=
            s.starveQueue.orderedInsert DueBefore (now + s.cfg.starveThreshold, key) } := by
  unfold openEntry at h
  split at h
  · rename_i hm
    cases h
    exact .inl ⟨hm, rfl⟩
  · rename_i hNone
    obtain ⟨u, hPush, h⟩ := bind_eq_ok.mp h
    cases h
    cases pushStarve_eq hPush
    exact .inr ⟨hNone, rfl, rfl⟩

def notedOrder (order : List MsgKey) (key : MsgKey) : List MsgKey :=
  if (order ++ [key]).length > completedCache then (order ++ [key]).tail else order ++ [key]

def notedSet (completed : Finset MsgKey) (order : List MsgKey) (key : MsgKey) : Finset MsgKey :=
  if (order ++ [key]).length > completedCache then
    match order ++ [key] with
    | [] => insert key completed
    | old :: _ => (insert key completed).erase old
  else insert key completed

theorem deliver_eq (s : ReceiverCore) (key : MsgKey) (src : SocketAddr) (data : Bytes) :
    (s.deliver key src data).1 =
      { s with
        incoming := s.incoming.erase key
        granting := s.granting.filter (· ≠ key)
        completed := notedSet s.completed s.completedOrder key
        completedOrder := notedOrder s.completedOrder key } := by
  unfold deliver notedSet notedOrder
  dsimp only
  split
  · split
    · rename_i hNil
      rw [hNil]
      rfl
    · rename_i hCons
      rw [hCons]
      rfl
  · rfl

/-! ## Moves

Everything else that happens to a core is one of a few moves. -/

/-- A move of the scheduler or, if it `ticks`, of `tick`, and what is sent for it. -/
inductive Move (checks : Bool) (now : Instant) (ticks : Bool) (s : ReceiverCore) :
    ReceiverCore → List Action → Prop where
  | books {granting starveQueue}
      (hListed : ∀ key ∈ granting, key ∈ s.granting ∨ ∃ m, s.incoming.lookup key = some m) :
      Move checks now ticks s { s with granting, starveQueue } []
  | grants {key m reach starveQueue} (hm : s.incoming.lookup key = some m)
      (hReach : addU checks m.receivedBytes s.cfg.grantIncrement = (ok reach : Outcome Empty _)) :
      Move checks now ticks s
        { s with
          incoming := s.incoming.insert key
            { m with grantedTo := max (min reach m.totalLen) m.grantedTo, lastGrant := now }
          starveQueue }
        [.send key.1 ((grantPacket key m (max (min reach m.totalLen) m.grantedTo)).encode [])]
  /-- A message stalls, and nothing is missing in its window. -/
  | touches {key m} (hTicks : ticks = true) (hm : s.incoming.lookup key = some m)
      (hStalls : s.cfg.resendTimeout ≤ durationSince now m.lastProgress) :
      Move checks now ticks s
        { s with incoming := s.incoming.insert key { m with lastProgress := now } } []
  | resends {key m off} (hTicks : ticks = true) (hm : s.incoming.lookup key = some m)
      (hStalls : s.cfg.resendTimeout ≤ durationSince now m.lastProgress)
      (hFew : m.unansweredResends < maxUnansweredResends) :
      Move checks now ticks s
        { s with
          incoming := s.incoming.insert key
            { m with lastProgress := now, unansweredResends := m.unansweredResends + 1 } }
        [.send key.1 ((resendPacket s.cfg key m off).encode [])]
  | givesUp {key m off} (hTicks : ticks = true) (hm : s.incoming.lookup key = some m)
      (hStalls : s.cfg.resendTimeout ≤ durationSince now m.lastProgress)
      (hMany : maxUnansweredResends ≤ m.unansweredResends) :
      Move checks now ticks s
        { s with
          incoming := s.incoming.erase key
          granting := s.granting.filter (· ≠ key) }
        [.send key.1 ((resendPacket s.cfg key m off).encode [])]

inductive Moves (checks : Bool) (now : Instant) (ticks : Bool) (s : ReceiverCore) :
    ReceiverCore → List Action → Prop where
  | refl : Moves checks now ticks s s []
  | tail {t s' out out'} (hMoves : Moves checks now ticks s t out)
      (hMove : Move checks now ticks t s' out') : Moves checks now ticks s s' (out ++ out')

theorem Move.moves (h : Move checks now ticks s s' out) : Moves checks now ticks s s' out :=
  .tail .refl h

theorem Moves.trans {out'} (h : Moves checks now ticks s t out)
    (h' : Moves checks now ticks t s' out') : Moves checks now ticks s s' (out ++ out') := by
  induction h' with
  | refl => rwa [List.append_nil]
  | tail _ hMove ih =>
    rw [← List.append_assoc]
    exact ih.tail hMove

theorem issueGrant_moves (h : issueGrant checks now force s key = ok (s', out)) :
    Moves checks now ticks s s' out := by
  have hParts := issueGrant_parts h
  cases hParts with
  | absent | ample | reached => exact .refl
  | grants hm hReach => exact (Move.grants hm hReach).moves

theorem forEach_moves {body : ReceiverCore → MsgKey → Outcome Empty (ReceiverCore × List Action)}
    {keys} (hBody : ∀ s key s' out, body s key = ok (s', out) → Moves checks now ticks s s' out)
    (h : forEach body s keys = ok (s', out)) : Moves checks now ticks s s' out :=
  (forEach_rel (I := fun _ => True) (fun _ => .refl) (fun _ _ _ _ _ h₁ h₂ => h₁.trans h₂)
    (fun s key _ s' out _ hOne => ⟨trivial, hBody s key s' out hOne⟩) trivial h).2

theorem mem_entries {e} (h : e ∈ s.entries ord) : s.incoming.lookup e.1 = some e.2 := by
  obtain ⟨k, -, hk⟩ := List.mem_filterMap.mp h
  obtain ⟨m, hm, rfl⟩ := Option.map_eq_some_iff.mp hk
  exact hm

theorem remainings_subset {entries cands} (h : remainings checks entries = ok cands) :
    cands.map Prod.fst ⊆ entries.map Prod.fst := by
  induction entries generalizing cands with
  | nil =>
    cases h
    exact List.Subset.refl _
  | cons e rest ih =>
    rw [remainings] at h
    split at h
    · obtain ⟨rem, -, h⟩ := bind_eq_ok.mp h
      obtain ⟨more, hMore, h⟩ := bind_eq_ok.mp h
      cases h
      exact List.cons_subset_cons _ (ih hMore)
    · exact List.subset_cons_of_subset _ (ih h)

theorem addStarved_subset {threshold entries selected} :
    addStarved now threshold entries selected ⊆ selected ++ entries.map Prod.fst := by
  induction entries generalizing selected with
  | nil => exact List.subset_append_left _ _
  | cons e rest ih =>
    refine List.Subset.trans ih ?_
    dsimp only
    split
    · rw [List.append_assoc]
      exact List.Subset.refl _
    · exact ((List.sublist_cons_self _ _).append_left _).subset

theorem schedule_moves (h : schedule checks ord now s = ok (s', out)) :
    Moves checks now ticks s s' out := by
  obtain ⟨cands, hCands, h⟩ := bind_eq_ok.mp h
  refine (Move.moves (.books fun key hKey => .inr ?_)).trans
    (forEach_moves (fun _ _ _ _ hGrant => issueGrant_moves hGrant) h)
  have hEntry : key ∈ (s.entries ord).map Prod.fst := by
    rcases List.mem_append.mp (addStarved_subset hKey) with hKey | hKey
    · obtain ⟨c, hc, rfl⟩ := List.mem_map.mp hKey
      exact remainings_subset hCands (List.mem_map_of_mem
        ((List.mem_insertionSort _).mp (List.mem_of_mem_take hc)))
    · exact hKey
  obtain ⟨e, he, rfl⟩ := List.mem_map.mp hEntry
  exact ⟨e.2, mem_entries he⟩

theorem starveCheck_moves (h : starveCheck checks ord now s = ok (s', out)) :
    Moves checks now ticks s s' out := by
  unfold starveCheck at h
  dsimp only at h
  split at h
  · exact (Move.moves (.books fun _ => .inl)).trans (schedule_moves h)
  · cases h
    exact (Move.books fun _ => .inl).moves

theorem advance_moves {isNew} (h : s.advance checks ord now key isNew = ok (s', out)) :
    Moves checks now ticks s s' out := by
  unfold advance at h
  split at h
  · exact schedule_moves h
  · split at h
    · exact issueGrant_moves h
    · cases h
      exact .refl

theorem tickKey_moves (h : tickKey checks now s key = ok (s', out)) :
    Moves checks now true s s' out := by
  unfold tickKey at h
  split at h
  · cases h
    exact .refl
  rename_i m hm
  dsimp only at h
  split at h
  · cases h
    exact .refl
  rename_i hStalls
  have hStalls : s.cfg.resendTimeout ≤ durationSince now m.lastProgress := Nat.not_lt.mp hStalls
  split at h
  · -- a RESEND, after which the message may be given up
    cases h
    split
    · rename_i hMany
      exact (Move.givesUp rfl hm hStalls (Nat.le_of_lt_succ hMany)).moves
    · rename_i hFew
      exact (Move.resends rfl hm hStalls (Nat.not_lt.mp hFew)).moves
  split at h
  · split at h
    · exact (Move.touches rfl hm hStalls).moves.trans (issueGrant_moves h)
    · cases h
      exact (Move.touches rfl hm hStalls).moves
  · cases h
    exact .refl

theorem tick_moves (h : tick checks ord s now = ok (s', out)) : Moves checks now true s s' out := by
  obtain ⟨⟨t, o₁⟩, hLoop, h⟩ := bind_eq_ok.mp h
  obtain ⟨⟨u, o₂⟩, hSchedule, h⟩ := bind_eq_ok.mp h
  cases h
  exact (forEach_moves (fun _ _ _ _ hTick => tickKey_moves hTick) hLoop).trans
    (schedule_moves hSchedule)

theorem Moves.forall_out {P : Action → Prop}
    (hControl : ∀ dest (p : Packet), p.typ ≠ .data → P (.send dest (p.encode [])))
    (h : Moves checks now true s s' out) : ∀ a ∈ out, P a := by
  induction h with
  | refl => exact List.forall_mem_nil _
  | tail _ hMove ih =>
    refine List.forall_mem_append.mpr ⟨ih, ?_⟩
    cases hMove with
    | books | touches => exact List.forall_mem_nil _
    | grants | resends | givesUp => exact List.forall_mem_singleton.mpr (hControl _ _ nofun)

end ReceiverCore

/-! ## What scheduling leaves alone -/

structure Body where
  totalLen : Nat
  buf : Bytes
  received : List Bool
  receivedBytes : Nat
deriving DecidableEq, Repr

def InMsg.body (m : InMsg) : Body := ⟨m.totalLen, m.buf, m.received, m.receivedBytes⟩

theorem InMsg.complete_iff {m : InMsg} :
    m.complete = true ↔ m.body.receivedBytes = m.body.totalLen := by
  simp [InMsg.complete, InMsg.body]

def Action.IsSend : Action → Prop
  | .send _ _ => True
  | .deliver _ _ _ => False

namespace ReceiverCore

def bodyAt (s : ReceiverCore) (key : MsgKey) : Option Body := (s.incoming.lookup key).map InMsg.body

/-- `s'` differs from `s` in scheduling only. -/
structure SameBodies (s s' : ReceiverCore) : Prop where
  cfg : s'.cfg = s.cfg
  completed : s'.completed = s.completed
  completedOrder : s'.completedOrder = s.completedOrder
  bodyAt : ∀ key, s'.bodyAt key = s.bodyAt key

/-- `s'` differs from `s` in scheduling and in messages given up. -/
structure Sheds (s s' : ReceiverCore) : Prop where
  cfg : s'.cfg = s.cfg
  bodyAt : ∀ key, s'.bodyAt key = s.bodyAt key ∨ s'.bodyAt key = none

variable {checks force ticks : Bool} {ord : HashOrder MsgKey} {now : Instant}
  {s s' t : ReceiverCore} {key : MsgKey} {out : List Action}

theorem SameBodies.trans (h₁ : SameBodies s t) (h₂ : SameBodies t s') : SameBodies s s' :=
  ⟨h₂.cfg.trans h₁.cfg, h₂.completed.trans h₁.completed,
    h₂.completedOrder.trans h₁.completedOrder, fun key => (h₂.bodyAt key).trans (h₁.bodyAt key)⟩

theorem SameBodies.sheds (h : SameBodies s s') : Sheds s s' :=
  ⟨h.cfg, fun key => .inl (h.bodyAt key)⟩

theorem Sheds.trans (h₁ : Sheds s t) (h₂ : Sheds t s') : Sheds s s' := by
  refine ⟨h₂.cfg.trans h₁.cfg, fun key => ?_⟩
  rcases h₂.bodyAt key with h | h
  · rw [h]
    exact h₁.bodyAt key
  · exact .inr h

theorem bodyAt_insert (s : ReceiverCore) (key k : MsgKey) (m : InMsg) :
    ({ s with incoming := s.incoming.insert key m } : ReceiverCore).bodyAt k =
      if k = key then some m.body else s.bodyAt k := by
  simp only [ReceiverCore.bodyAt, Map.lookup_insert_ite]
  split <;> rfl

theorem bodyAt_erase (s : ReceiverCore) (key k : MsgKey) (granting : List MsgKey) :
    ({ s with incoming := s.incoming.erase key, granting := granting } : ReceiverCore).bodyAt k =
      if k = key then none else s.bodyAt k := by
  simp only [ReceiverCore.bodyAt, Map.lookup_erase_ite]
  split <;> rfl

theorem sameBodies_insert {m m' starveQueue} (hm : s.incoming.lookup key = some m)
    (hBody : m'.body = m.body) :
    SameBodies s { s with incoming := s.incoming.insert key m', starveQueue } := by
  refine ⟨rfl, rfl, rfl, fun k => (bodyAt_insert s key k m').trans ?_⟩
  split
  · rename_i hk
    rw [hk, ReceiverCore.bodyAt, hm, hBody]
    rfl
  · rfl

theorem Move.same (h : Move checks now ticks s s' out) (hTicks : ticks = false) :
    SameBodies s s' := by
  cases h with
  | books => exact ⟨rfl, rfl, rfl, fun _ => rfl⟩
  | grants hm => exact sameBodies_insert hm (by rfl)
  | touches hTrue | resends hTrue | givesUp hTrue => simp [hTicks] at hTrue

theorem Move.sheds (h : Move checks now ticks s s' out) : Sheds s s' := by
  cases h with
  | books => exact ⟨rfl, fun _ => .inl rfl⟩
  | grants hm | touches _ hm | resends _ hm => exact (sameBodies_insert hm (by rfl)).sheds
  | givesUp =>
    refine ⟨rfl, fun k => ?_⟩
    rw [bodyAt_erase]
    split <;> simp

theorem Moves.same (h : Moves checks now false s s' out) : SameBodies s s' := by
  induction h with
  | refl => exact ⟨rfl, rfl, rfl, fun _ => rfl⟩
  | tail _ hMove ih => exact ih.trans (hMove.same rfl)

theorem Moves.sheds (h : Moves checks now true s s' out) : Sheds s s' := by
  induction h with
  | refl => exact ⟨rfl, fun _ => .inl rfl⟩
  | tail _ hMove ih => exact ih.trans hMove.sheds

theorem Moves.isSend (h : Moves checks now true s s' out) : ∀ a ∈ out, a.IsSend :=
  h.forall_out fun _ _ _ => trivial

/-! ## What a DATA packet can do -/

/-- The entry a packet is written to: the one under its key, or a new one. -/
def entryFor (s : ReceiverCore) (src : SocketAddr) (pkt : Packet) (now : Instant) : InMsg :=
  (s.incoming.lookup (src, pkt.msgId)).getD
    (InMsg.new pkt.msgLen.toNat s.cfg.packetSize
      (min s.cfg.unscheduledBytes pkt.msgLen.toNat) now)

/-- The effect of `handleData` on reassembly. -/
inductive DataStep (s : ReceiverCore) (src : SocketAddr) (pkt : Packet) (payload : Bytes)
    (now : Instant) : ReceiverCore → List Action → Prop where
  /-- Already delivered, too long, or answered with BUSY. -/
  | ignored {out : List Action} :
      (src, pkt.msgId) ∈ s.completed ∨ maxMsgLen < pkt.msgLen.toNat ∨
        s.incoming.lookup (src, pkt.msgId) = none →
      (∀ a ∈ out, a.IsSend) →
      DataStep s src pkt payload now s out
  | empty {s' grants} :
      pkt.msgLen.toNat = 0 →
      s'.cfg = s.cfg →
      (∀ k, s'.bodyAt k = if k = (src, pkt.msgId) then none else s.bodyAt k) →
      (∀ a ∈ grants, a.IsSend) →
      DataStep s src pkt payload now s' (.deliver src pkt.msgId [] :: grants)
  | completes {s' grants m} :
      (src, pkt.msgId) ∉ s.completed →
      pkt.msgLen.toNat ≠ 0 →
      pkt.msgLen.toNat ≤ maxMsgLen →
      (s.entryFor src pkt now).write s.cfg.packetSize pkt payload now = ok m →
      m.complete = true →
      s'.cfg = s.cfg →
      (∀ k, s'.bodyAt k = if k = (src, pkt.msgId) then none else s.bodyAt k) →
      (∀ a ∈ grants, a.IsSend) →
      DataStep s src pkt payload now s' (.deliver src pkt.msgId m.buf :: grants)
  /-- The message is still incomplete after the write. -/
  | stores {s' : ReceiverCore} {out : List Action} {m : InMsg} :
      (src, pkt.msgId) ∉ s.completed →
      pkt.msgLen.toNat ≠ 0 →
      pkt.msgLen.toNat ≤ maxMsgLen →
      (s.entryFor src pkt now).write s.cfg.packetSize pkt payload now = ok m →
      m.complete = false →
      s'.cfg = s.cfg →
      (∀ k, s'.bodyAt k = if k = (src, pkt.msgId) then some m.body else s.bodyAt k) →
      (∀ a ∈ out, a.IsSend) →
      DataStep s src pkt payload now s' out

variable {src : SocketAddr} {pkt : Packet} {payload : Bytes}

theorem openEntry_spec {m} (h : s.openEntry (src, pkt.msgId) pkt.msgLen.toNat now = ok (t, m)) :
    m = s.entryFor src pkt now ∧ t.cfg = s.cfg ∧
      ∀ k, k ≠ (src, pkt.msgId) → t.bodyAt k = s.bodyAt k := by
  rcases openEntry_eq h with ⟨hm, rfl⟩ | ⟨hNone, hm, rfl⟩
  · exact ⟨by simp [entryFor, hm], rfl, fun _ _ => rfl⟩
  · -- a new entry: only its own key is affected
    refine ⟨by simp [entryFor, hNone, hm], rfl, fun k hk => ?_⟩
    exact (bodyAt_insert s _ k m).trans (if_neg hk)

theorem deliver_cfg (s : ReceiverCore) (key : MsgKey) (src : SocketAddr) (data : Bytes) :
    (s.deliver key src data).1.cfg = s.cfg := by rw [deliver_eq]

theorem deliver_bodyAt (s : ReceiverCore) (key k : MsgKey) (src : SocketAddr) (data : Bytes) :
    (s.deliver key src data).1.bodyAt k = if k = key then none else s.bodyAt k := by
  rw [deliver_eq]
  exact bodyAt_erase s key k []

theorem deliver_schedule {data} (hCfg : t.cfg = s.cfg)
    (hBody : ∀ k, k ≠ key → t.bodyAt k = s.bodyAt k)
    (h : (t.deliver key src data).1.schedule checks ord now = ok (s', out)) :
    s'.cfg = s.cfg ∧ (∀ k, s'.bodyAt k = if k = key then none else s.bodyAt k) ∧
      ∀ a ∈ out, a.IsSend := by
  have hSame := (schedule_moves h).same
  refine ⟨by rw [hSame.cfg, deliver_cfg, hCfg], fun k => ?_, (schedule_moves h).isSend⟩
  rw [hSame.bodyAt, deliver_bodyAt]
  split
  · rfl
  · rename_i hk
    exact hBody k hk

/-- **Inversion of `handleData`.** -/
theorem handleData_cases
    (h : handleData checks ord s src pkt payload now = ok (s', out)) :
    DataStep s src pkt payload now s' out := by
  have hParts := handleData_parts h
  cases hParts with
  | ignored hDrop => exact .ignored (hDrop.imp_right .inl) (List.forall_mem_nil _)
  | busy _ hNew => exact .ignored (.inr (.inr hNew)) (List.forall_mem_singleton.mpr trivial)
  | empty _ hZero hOpen hSchedule =>
    obtain ⟨-, hCfg, hBody⟩ := openEntry_spec hOpen
    obtain ⟨hCfg', hBody', hSend⟩ := deliver_schedule hCfg hBody hSchedule
    exact .empty hZero hCfg' hBody' hSend
  | completes hFresh hSome hLen hOpen hWrite hDone hSchedule =>
    obtain ⟨rfl, hCfg, hBody⟩ := openEntry_spec hOpen
    obtain ⟨hCfg', hBody', hSend⟩ := deliver_schedule hCfg hBody hSchedule
    exact .completes hFresh hSome hLen (hCfg ▸ hWrite) hDone hCfg' hBody' hSend
  | stores hFresh hSome hLen hOpen hWrite hMore hAdvance hRelief =>
    obtain ⟨rfl, hCfg, hBody⟩ := openEntry_spec hOpen
    -- granting and relief come after the write and leave it alone
    have hSame := ((advance_moves hAdvance).trans (starveCheck_moves hRelief)).same
    have hSend := ((advance_moves hAdvance).trans (starveCheck_moves hRelief)).isSend
    refine .stores hFresh hSome hLen (hCfg ▸ hWrite) hMore (hSame.cfg.trans hCfg) (fun k => ?_)
      hSend
    rw [hSame.bodyAt, bodyAt_insert]
    split
    · rfl
    · rename_i hk
      exact hBody k hk

theorem openEntry_lookup {len m} (h : s.openEntry key len now = ok (t, m)) :
    t.incoming.lookup key = some m ∧
      (∀ k, k ≠ key → t.incoming.lookup k = s.incoming.lookup k) ∧
      (s.incoming.lookup key = some m ∨ s.incoming.lookup key = none ∧
        m = InMsg.new len s.cfg.packetSize (min s.cfg.unscheduledBytes len) now) := by
  rcases openEntry_eq h with ⟨hm, rfl⟩ | ⟨hNone, hm, rfl⟩
  · exact ⟨hm, fun _ _ => rfl, .inl hm⟩
  · refine ⟨by rw [Map.lookup_insert_ite, if_pos rfl], fun k hk => ?_, .inr ⟨hNone, hm⟩⟩
    rw [Map.lookup_insert_ite, if_neg hk]

theorem deliver_lookup (s : ReceiverCore) (key k : MsgKey) (src : SocketAddr) (data : Bytes) :
    (s.deliver key src data).1.incoming.lookup k =
      if k = key then none else s.incoming.lookup k := by
  rw [deliver_eq, ← Map.lookup_erase_ite]

end ReceiverCore

end DirectWire.Homa
