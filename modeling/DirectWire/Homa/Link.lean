import DirectWire.Lib.Run
import DirectWire.Homa.Sender
import DirectWire.Homa.Receiver

/-!
# Homa — one sender and one receiver over a lossy network

The closed system of a `SenderCore` and a `ReceiverCore` with one configuration. The network keeps
every datagram either core has emitted and hands over any of them, so a datagram may be lost,
duplicated, delayed and reordered, but not altered. Kept beside it: `started`, the bytes started
under each message id, and `delivered`. The dispatch follows `process_batch`.
-/

namespace DirectWire.Homa

open Lib

structure Link where
  sender : SenderCore
  receiver : ReceiverCore
  started : Map UInt64 Bytes
  toReceiver : List Bytes
  toSender : List Bytes
  /-- Messages handed over, with their source and id. -/
  delivered : List (SocketAddr × UInt64 × Bytes)
  now : Instant

/-- One step of the system. A step that iterates a hash map is given the
order it does so in. -/
inductive LinkEvent where
  | start (msgId : UInt64) (data : Bytes) (retransmit : Bool)
  | recvAtReceiver (datagram : Bytes) (ord : HashOrder MsgKey)
  | recvAtSender (datagram : Bytes)
  | tickSender (ord : HashOrder MsgKey)
  | tickReceiver (ord : HashOrder MsgKey)
  | finish (msgId : UInt64)
  | confirm (msgId : UInt64)

def sends (actions : List Action) : List Bytes :=
  actions.filterMap fun
    | .send _ bytes => some bytes
    | .deliver _ _ _ => none

def deliveries (actions : List Action) : List (SocketAddr × UInt64 × Bytes) :=
  actions.filterMap fun
    | .send _ _ => none
    | .deliver src msgId data => some (src, msgId, data)

namespace Link

def init (cfg : TransportConfig) (now : Instant) : Link :=
  ⟨SenderCore.new cfg, ReceiverCore.new cfg, ∅, [], [], [], now⟩

def sent (l : Link) (r : SenderCore × List Action) : Link :=
  { l with sender := r.1, toReceiver := l.toReceiver ++ sends r.2 }

def received (l : Link) (r : ReceiverCore × List Action) : Link :=
  { l with
    receiver := r.1
    toSender := l.toSender ++ sends r.2
    delivered := l.delivered ++ deliveries r.2 }

def returned {α : Type} : Outcome Empty α → Option α
  | .ok a => some a
  | .err _ => none
  | .panic _ => none

theorem returned_eq_some {α : Type} {x : Outcome Empty α} {a : α} (h : returned x = some a) :
    x = .ok a := by
  cases x with
  | ok b =>
    cases h
    rfl
  | err e | panic p => cases h

/-- What the sender core does with a packet. Its end of the link receives
no DATA. -/
def dispatchSender (s : SenderCore) (src : SocketAddr) (pkt : Packet) (now : Instant) :
    SenderCore × List Action :=
  match pkt.typ with
  | .grant => s.handleGrant src pkt now
  | .resend => s.handleResend src pkt now
  | .busy => (s.handleBusy src pkt now, [])
  | .data => (s, [])

def dispatchReceiver (checks : Bool) (ord : HashOrder MsgKey) (r : ReceiverCore)
    (src : SocketAddr) (pkt : Packet) (payload : Bytes) (now : Instant) :
    Outcome Empty (ReceiverCore × List Action) :=
  if pkt.typ = .data then r.handleData checks ord src pkt payload now else .ok (r, [])

section Step

variable (checks : Bool) (senderAddr receiverAddr : SocketAddr)

/-- One event at the clock reading `l.now`. -/
def act (l : Link) : LinkEvent → Option Link
  | .start msgId data retransmit =>
    -- message ids are not used twice
    if (l.started.lookup msgId).isNone ∧ data.length ≤ maxMsgLen then
      let r :=
        if retransmit then l.sender.startRetransmit receiverAddr msgId data l.now
        else l.sender.start receiverAddr msgId data l.now
      some { l.sent r with started := l.started.insert msgId data }
    else none
  | .recvAtReceiver datagram ord =>
    -- a datagram stays in the network: it may arrive later, again or never
    if datagram ∈ l.toReceiver then
      match Packet.decoded datagram with
      | none => some l
      | some (pkt, payload) =>
        (returned (dispatchReceiver checks ord l.receiver senderAddr pkt payload l.now)).map
          l.received
    else none
  | .recvAtSender datagram =>
    if datagram ∈ l.toSender then
      match Packet.decoded datagram with
      | none => some l
      | some (pkt, _) => some (l.sent (dispatchSender l.sender receiverAddr pkt l.now))
    else none
  | .tickSender ord => (returned (l.sender.tick ord l.now)).map l.sent
  | .tickReceiver ord => (returned (l.receiver.tick checks ord l.now)).map l.received
  | .finish msgId => some { l with sender := l.sender.finish receiverAddr msgId }
  | .confirm msgId => some { l with sender := l.sender.confirm receiverAddr msgId }

def step (l : Link) (e : Instant × LinkEvent) : Option Link :=
  if l.now ≤ e.1 then act checks senderAddr receiverAddr { l with now := e.1 } e.2 else none

end Step

end Link

end DirectWire.Homa
