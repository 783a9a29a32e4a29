import DirectWire.GmPq.Channel
import DirectWire.Lib.Run

/-!
# MoQ — the bridge to a GM-PQ session

`gmpq.rs` after the handshake. The session has a thread of its own, the worker: it seals what is in
the outbox, then waits for something to do, and receives one message at a time. Two tasks carry
bytes between the QUIC stream and the queues. The bridge is closed when the stream ends. What was
read, accepted, and put into the wire queue is also recorded.

* `Bridge.work` — `message_loop`, one step at a time; `Bridge.step` — all tasks.
-/

namespace DirectWire.Moq

open Lib Outcome GmPq

/-- Where the worker is in `message_loop`. -/
inductive Loop where
  | draining
  /-- `send_msg`, before the message is sealed. -/
  | sending (plaintext : Bytes)
  /-- `send_msg`, with what is yet to be written. -/
  | writing (bufs : List Bytes)
  /-- Before it looks whether there is something to do. -/
  | checking
  /-- `recv_msg`: the length, when it is there, and what has come of the next part. -/
  | receiving (hdr : Option Bytes) (got : Bytes)
  | delivering (plaintext : Bytes)
  | failing
  | returned
  | panicked (p : Panic)
deriving DecidableEq

/-- How many bytes `recv_msg` reads next. -/
def wanted : Option Bytes → Nat
  | none => 4
  | some hdr => beNat hdr

inductive Outbound where
  | looking
  | writing (bytes : Bytes)
  | waiting
  | ended

structure Bridge where
  inbound : Bytes
  outbox : List Bytes
  wire : Bytes
  closed : Bool
  asleep : Bool
  /-- Tasks that have changed something, and are yet to notify the worker. -/
  notifying : Nat
  session : Session
  loop : Loop
  reading : Bool
  outbound : Outbound
  inbox : List Bytes
  hungUp : Bool
  received : Bytes
  /-- The plaintexts for which `send` has returned `Ok`. -/
  accepted : List Bytes
  written : Bytes
  /-- The stream or the session has returned an error. -/
  failed : Bool

inductive BridgeEvent where
  | read (bytes : Bytes)
  | finish
  | lose
  /-- A step of the task that writes; the write succeeds, or not. -/
  | outbound (sent : Bool)
  /-- `GmPqSender::send`. -/
  | send (plaintext : Bytes)
  /-- A notification reaches the condition variable. -/
  | notify
  | wake
  | work
  | hangUp

namespace Bridge

def start (session : Session) (wire : Bytes) : Bridge where
  inbound := []
  outbox := []
  wire := wire
  closed := false
  asleep := false
  notifying := 0
  session := session
  loop := .draining
  reading := true
  outbound := .looking
  inbox := []
  hungUp := false
  received := []
  accepted := []
  written := []
  failed := false

/-- `shared_close`, up to the notification. -/
def close (b : Bridge) : Bridge := { b with closed := true, notifying := b.notifying + 1 }

variable (P : Primitives)

/-- `BlockingEnd::read` with room for `n` bytes, and what follows in `recv_msg`. -/
def readMore (b : Bridge) (hdr : Option Bytes) (got : Bytes) (n : Nat) : Bridge :=
  if b.inbound ≠ [] then
    { b with
      inbound := b.inbound.drop n
      loop := .receiving hdr (got ++ b.inbound.take n) }
  else if b.closed then { b with loop := .failing, failed := true }
  else { b with asleep := true }

/-- `recv_msg`, when the bytes it wanted are there. -/
def readDone (b : Bridge) (hdr : Option Bytes) (got : Bytes) : Bridge :=
  match hdr with
  | none =>
    if beNat got > maxFrame then { b with loop := .failing, failed := true }
    else { b with loop := .receiving (some got) [] }
  | some _ =>
    match b.session.recv P got with
    | .ok (.ok plaintext, session) => { b with session, loop := .delivering plaintext }
    | .ok (.error _, session) => { b with session, loop := .failing, failed := true }
    | .panic p => { b with loop := .panicked p }
    | .err e => e.elim

def check (b : Bridge) : Bridge :=
  if b.inbound = [] ∧ b.outbox = [] ∧ b.closed = false then { b with asleep := true }
  else if b.closed then { b with loop := .returned }
  else if b.outbox ≠ [] then { b with loop := .draining }
  else { b with loop := .receiving none [] }

def work (b : Bridge) : Option Bridge :=
  if b.asleep then none
  else
    match b.loop with
    | .draining =>
      match b.outbox with
      | plaintext :: outbox => some { b with outbox, loop := .sending plaintext }
      | [] => some { b with loop := .checking }
    | .sending plaintext =>
      match (b.session.send P plaintext : Outcome Empty _) with
      | .ok (packet, session) =>
        some { b with session, loop := .writing [lenBytes packet.length, packet] }
      | .panic p => some { b with loop := .panicked p }
      | .err e => e.elim
    | .writing [] => some { b with loop := .draining }
    | .writing (buf :: bufs) =>
      some { b with wire := b.wire ++ buf, written := b.written ++ buf, loop := .writing bufs }
    | .checking => some b.check
    | .receiving hdr got =>
      if got.length < wanted hdr then some (b.readMore hdr got (wanted hdr - got.length))
      else some (b.readDone P hdr got)
    | .delivering plaintext =>
      if b.hungUp then some { b with loop := .failing }
      else some { b with inbox := b.inbox ++ [plaintext], loop := .draining }
    | .failing => some { b.close with loop := .returned }
    | .returned | .panicked _ => none

def stepOutbound (b : Bridge) (sent : Bool) : Option Bridge :=
  match b.outbound with
  | .looking =>
    if b.wire ≠ [] then some { b with wire := [], outbound := .writing b.wire }
    else if b.closed then some { b.close with outbound := .ended }
    else some { b with outbound := .waiting }
  | .writing _ =>
    if sent then some { b with outbound := .looking }
    else some { b.close with outbound := .ended, failed := true }
  | .waiting => some { b with outbound := .looking }
  | .ended => none

def step (b : Bridge) : BridgeEvent → Option Bridge
  | .read bytes =>
    if b.reading then
      some { b with
        inbound := b.inbound ++ bytes
        received := b.received ++ bytes
        notifying := b.notifying + 1 }
    else none
  | .finish => if b.reading then some { b.close with reading := false } else none
  | .lose => if b.reading then some { b.close with reading := false, failed := true } else none
  | .outbound sent => b.stepOutbound sent
  | .send plaintext =>
    -- a closed bridge returns an error
    if b.closed then some b
    else some { b with
      outbox := b.outbox ++ [plaintext]
      accepted := b.accepted ++ [plaintext]
      asleep := false }
  | .notify =>
    if b.notifying = 0 then none
    else some { b with notifying := b.notifying - 1, asleep := false }
  | .wake => some { b with asleep := false }
  | .work => b.work P
  | .hangUp => some { b with hungUp := true }

/-! ## What a step of the worker can be -/

inductive Work (b : Bridge) : Bridge → Prop where
  | pop {plaintext outbox} (h : b.loop = .draining) (hOutbox : b.outbox = plaintext :: outbox) :
      Work b { b with outbox, loop := .sending plaintext }
  | drained (h : b.loop = .draining) (hOutbox : b.outbox = []) : Work b { b with loop := .checking }
  | encrypt {plaintext packet session} (h : b.loop = .sending plaintext)
      (hSend : (b.session.send P plaintext : Outcome Empty _) = ok (packet, session)) :
      Work b { b with session, loop := .writing [lenBytes packet.length, packet] }
  | exhaust {plaintext p} (h : b.loop = .sending plaintext)
      (hSend : (b.session.send P plaintext : Outcome Empty _) = panic p) :
      Work b { b with loop := .panicked p }
  | sent (h : b.loop = .writing []) : Work b { b with loop := .draining }
  | write {buf bufs} (h : b.loop = .writing (buf :: bufs)) :
      Work b { b with wire := b.wire ++ buf, written := b.written ++ buf, loop := .writing bufs }
  | doze (h : b.loop = .checking) (hInbound : b.inbound = []) (hOutbox : b.outbox = [])
      (hOpen : b.closed = false) : Work b { b with asleep := true }
  | leave (h : b.loop = .checking) (hClosed : b.closed = true) : Work b { b with loop := .returned }
  | turn (h : b.loop = .checking) (hOpen : b.closed = false) (hOutbox : b.outbox ≠ []) :
      Work b { b with loop := .draining }
  | begin (h : b.loop = .checking) (hOpen : b.closed = false) (hInbound : b.inbound ≠ [])
      (hOutbox : b.outbox = []) : Work b { b with loop := .receiving none [] }
  | take {hdr got} (h : b.loop = .receiving hdr got) (hLess : got.length < wanted hdr)
      (hInbound : b.inbound ≠ []) :
      Work b { b with
        inbound := b.inbound.drop (wanted hdr - got.length)
        loop := .receiving hdr (got ++ b.inbound.take (wanted hdr - got.length)) }
  | eof {hdr got} (h : b.loop = .receiving hdr got) (hLess : got.length < wanted hdr)
      (hInbound : b.inbound = []) (hClosed : b.closed = true) :
      Work b { b with loop := .failing, failed := true }
  | await {hdr got} (h : b.loop = .receiving hdr got) (hLess : got.length < wanted hdr)
      (hInbound : b.inbound = []) (hOpen : b.closed = false) : Work b { b with asleep := true }
  | refuse {got} (h : b.loop = .receiving none got) (hDone : ¬ got.length < 4)
      (hLong : beNat got > maxFrame) : Work b { b with loop := .failing, failed := true }
  | head {got} (h : b.loop = .receiving none got) (hDone : ¬ got.length < 4)
      (hFits : ¬ beNat got > maxFrame) : Work b { b with loop := .receiving (some got) [] }
  | opened {hdr got plaintext session} (h : b.loop = .receiving (some hdr) got)
      (hDone : ¬ got.length < beNat hdr)
      (hRecv : b.session.recv P got = ok (.ok plaintext, session)) :
      Work b { b with session, loop := .delivering plaintext }
  | rejected {hdr got error session} (h : b.loop = .receiving (some hdr) got)
      (hDone : ¬ got.length < beNat hdr) (hRecv : b.session.recv P got = ok (.error error, session))
      :
      Work b { b with session, loop := .failing, failed := true }
  | crash {hdr got p} (h : b.loop = .receiving (some hdr) got) (hDone : ¬ got.length < beNat hdr)
      (hRecv : b.session.recv P got = panic p) : Work b { b with loop := .panicked p }
  | deliver {plaintext} (h : b.loop = .delivering plaintext) (hThere : b.hungUp = false) :
      Work b { b with inbox := b.inbox ++ [plaintext], loop := .draining }
  | undelivered {plaintext} (h : b.loop = .delivering plaintext) (hGone : b.hungUp = true) :
      Work b { b with loop := .failing }
  | fail (h : b.loop = .failing) : Work b { b.close with loop := .returned }

variable {P} {b b' : Bridge}

theorem work_check (h : b.loop = .checking) : Work P b b.check := by
  unfold check
  split
  · rename_i hIdle
    exact .doze h hIdle.1 hIdle.2.1 hIdle.2.2
  · rename_i hBusy
    split
    · rename_i hClosed
      exact .leave h hClosed
    · rename_i hOpen
      have hOpen : b.closed = false := by simpa using hOpen
      split
      · rename_i hOutbox
        exact .turn h hOpen hOutbox
      · rename_i hOutbox
        have hOutbox : b.outbox = [] := not_not.mp hOutbox
        exact .begin h hOpen (fun hInbound => hBusy ⟨hInbound, hOutbox, hOpen⟩) hOutbox

theorem work_receiving {hdr got} (h : b.loop = .receiving hdr got) :
    Work P b (if got.length < wanted hdr then b.readMore hdr got (wanted hdr - got.length)
      else b.readDone P hdr got) := by
  split
  · rename_i hLess
    unfold readMore
    split
    · rename_i hInbound
      exact .take h hLess hInbound
    · rename_i hInbound
      have hInbound : b.inbound = [] := not_not.mp hInbound
      split
      · rename_i hClosed
        exact .eof h hLess hInbound hClosed
      · rename_i hOpen
        exact .await h hLess hInbound (by simpa using hOpen)
  · rename_i hDone
    cases hdr with
    | none =>
      unfold readDone
      dsimp only
      split
      · rename_i hLong
        exact .refuse h hDone hLong
      · rename_i hFits
        exact .head h hDone hFits
    | some hdr =>
      unfold readDone
      dsimp only
      split
      · rename_i hRecv
        exact .opened h hDone hRecv
      · rename_i hRecv
        exact .rejected h hDone hRecv
      · rename_i hRecv
        exact .crash h hDone hRecv
      · rename_i e _
        exact e.elim

/-- What a step of the worker can be. -/
theorem work_cases (hWork : b.work P = some b') : b.asleep = false ∧ Work P b b' := by
  unfold work at hWork
  split at hWork
  · cases hWork
  · rename_i hAwake
    refine ⟨by simpa using hAwake, ?_⟩
    split at hWork
    · rename_i h
      split at hWork
      · rename_i hOutbox
        cases hWork
        exact .pop h hOutbox
      · rename_i hOutbox
        cases hWork
        exact .drained h hOutbox
    · rename_i h
      split at hWork
      · rename_i hSend
        cases hWork
        exact .encrypt h hSend
      · rename_i hSend
        cases hWork
        exact .exhaust h hSend
      · rename_i e _
        exact e.elim
    · rename_i h
      cases hWork
      exact .sent h
    · rename_i h
      cases hWork
      exact .write h
    · rename_i h
      cases hWork
      exact work_check h
    · rename_i hdr got h
      have hReceiving := work_receiving (P := P) h
      split at hWork
      · rename_i hLess
        cases hWork
        rwa [if_pos hLess] at hReceiving
      · rename_i hDone
        cases hWork
        rwa [if_neg hDone] at hReceiving
    · rename_i h
      split at hWork
      · rename_i hGone
        cases hWork
        exact .undelivered h hGone
      · rename_i hThere
        cases hWork
        exact .deliver h (by simpa using hThere)
    · rename_i h
      cases hWork
      exact .fail h
    · cases hWork
    · cases hWork

end Bridge

end DirectWire.Moq
