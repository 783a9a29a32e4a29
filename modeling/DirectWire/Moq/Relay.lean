import DirectWire.Moq.GapFree
import DirectWire.Moq.Message

/-!
# MoQ — the relay

`relay.rs`: the handlers of the connections, the group streams of the publishers and the forwarders
of the subscriptions, over one hub. Between two steps of a handler every other task may act. The
lock of the table of publishers is held while the relay waits for the publisher.

A forwarder has a reading task and a writing task; to abort it is a request, and its receiver is
dropped some time later.

* `Relay.onMessage`, `Relay.onSend`, `Relay.onAct` — the handler of a connection;
* `Relay.onRead`, `Relay.onWork` — the task of a group stream.
-/

namespace DirectWire.Moq

open Lib Outcome

/-- What `recv` of a control stream, or `read` of a group stream, returns. -/
inductive Incoming where
  | message (m : Message)
  | closed
  | failed
deriving DecidableEq

structure Request where
  subscribeId : UInt64
  trackAlias : UInt64
  track : TrackId
  start : StartMode
  priority : UInt8
deriving DecidableEq, Repr

/-- Where the handler of a connection is. From SUBSCRIBE_OK on, it carries how
many objects the track had accepted then. -/
inductive Handler where
  | opening
  | greeting
  | receiving
  | announced (ns : String)
  | refusing (req : Request)
  | confirming (req : Request)
  /-- `maybe_bind_upstream_alias`, before the lock of the publishers. -/
  | binding (req : Request) (confirmedAt : Nat)
  /-- SUBSCRIBE is to be sent to the publisher, and the lock is held. -/
  | upstream (req : Request) (confirmedAt : Nat) (newAlias : UInt64) (control : Nat)
  /-- That is sent; the alias is to be noted, and the lock is still held. -/
  | noting (req : Request) (confirmedAt : Nat) (newAlias : UInt64) (control : Nat)
  /-- `hub.subscribe`. -/
  | subscribing (req : Request) (confirmedAt : Nat) (pc : Pc)
  | draining
  /-- The loop is over, and the forwarders are to be stopped. -/
  | closing
  | ended
  | panicked (p : Panic)
deriving DecidableEq

/-- Group streams are accepted after SETUP, until the handler has ended. -/
def Handler.accepts : Handler → Bool
  | .opening | .greeting | .ended => false
  | _ => true

structure Connection where
  handler : Handler
  sent : List Message
  forwarders : Map UInt64 Nat

inductive Intake where
  | header
  | resolving (trackRef : TrackRef) (groupId : UInt64)
  | reading (track : TrackId) (groupId : UInt64)
  /-- `hub.publish`. -/
  | publishing (track : TrackId) (groupId : UInt64) (pc : Pc)
  | ended
  | panicked (p : Panic)
deriving DecidableEq

structure GroupStream where
  conn : Nat
  intake : Intake
deriving DecidableEq

structure Forwarder where
  conn : Nat
  req : Request
  confirmedAt : Nat
  sub : Nat
  aborted : Bool
  finished : Bool
deriving DecidableEq

structure PublisherReg where
  control : Nat
  trackAlias : Option UInt64
deriving DecidableEq

structure Relay where
  fanout : Fanout
  publishers : Map TrackId PublisherReg
  /-- The handler that holds the lock of the publishers while it waits. -/
  holder : Option Nat
  nextAlias : UInt64
  conns : List Connection
  streams : List GroupStream
  forwarders : List Forwarder

inductive RelayEvent where
  | accept
  /-- `recv` on the control stream returns. -/
  | recv (c : Nat) (incoming : Incoming)
  /-- What the handler waits to send is sent, or fails. -/
  | send (c : Nat) (sent : Bool)
  /-- The next step of a handler that waits for nobody. -/
  | act (c : Nat)
  | stream (c : Nat)
  /-- `read` on a group stream returns. -/
  | read (g : Nat) (incoming : Incoming)
  | work (g : Nat) (ord : HashOrder TrackId)
  /-- The reading task of a forwarder takes an object. -/
  | receive (k : Nat)
  | finish (k : Nat)
  /-- A forwarder that was aborted drops its receiver. -/
  | stop (k : Nat)

namespace Relay

variable (checks : Bool) (r : Relay) (c : Nat)

def new (groupCapacity : Nat) : Relay := ⟨.new groupCapacity, ∅, none, 1, [], [], []⟩

def setHandler (handler : Handler) : Relay :=
  { r with conns := r.conns.modify c fun k => { k with handler } }

def sendOn (m : Message) : Relay :=
  { r with conns := r.conns.modify c fun k => { k with sent := k.sent ++ [m] } }

def setIntake (g : Nat) (intake : Intake) : Relay :=
  { r with streams := r.streams.modify g fun s => { s with intake } }

def abort (k : Nat) : Relay :=
  { r with forwarders := r.forwarders.modify k fun w => { w with aborted := true } }

/-- `hub.subscribe`, before its first step. -/
def beginSubscribe (req : Request) (confirmedAt : Nat) : Relay :=
  r.setHandler c (.subscribing req confirmedAt (HubCall.subscribe req.track req.start).pc)

def onMessage (k : Connection) : Message → Relay
  | .announce ns =>
    { r with fanout.hub := r.fanout.hub.announceNamespace ns }.setHandler c (.announced ns)
  | .subscribe subscribeId trackAlias track start priority =>
    let req : Request := ⟨subscribeId, trackAlias, track, start, priority⟩
    if r.fanout.hub.namespaceAnnounced track.ns then r.setHandler c (.confirming req)
    else r.setHandler c (.refusing req)
  -- a forwarder that is not in the map is not found, and goes on
  | .unsubscribe subscribeId =>
    match k.forwarders.lookup subscribeId with
    | some w =>
      { r with conns := r.conns.modify c fun k =>
          { k with forwarders := k.forwarders.erase subscribeId } }.abort w
    | none => r
  | .goaway _ => r.setHandler c .closing
  | .subscribeOk _ => r
  | .setup .. | .announceOk _ | .subscribeError .. | .groupHeader .. | .object _ => r

def onRecv (k : Connection) (incoming : Incoming) : Option Relay :=
  match k.handler, incoming with
  | .opening, .message (.setup version _) =>
    if version = protoVersion then some (r.setHandler c .greeting)
    else some (r.setHandler c .ended)
  | .opening, _ => some (r.setHandler c .ended)
  | .receiving, .message m => some (r.onMessage c k m)
  | .receiving, .closed => some (r.setHandler c .draining)
  | .receiving, .failed => some (r.setHandler c .closing)
  | _, _ => none

def onSend (k : Connection) (sent : Bool) : Option Relay :=
  match k.handler with
  | .greeting =>
    if sent then some ((r.sendOn c (.setup protoVersion .both)).setHandler c .receiving)
    else some (r.setHandler c .ended)
  | .announced ns =>
    if sent then some ((r.sendOn c (.announceOk ns)).setHandler c .receiving)
    else some (r.setHandler c .closing)
  | .refusing req =>
    if sent then
      let reason := "命名空间未发布: " ++ req.track.ns
      some ((r.sendOn c (.subscribeError req.subscribeId errNamespaceNotFound reason)).setHandler c
        .receiving)
    else some (r.setHandler c .closing)
  | .confirming req =>
    if sent then
      some ((r.sendOn c (.subscribeOk req.subscribeId)).setHandler c
        (.binding req (r.fanout.acceptedOf req.track).length))
    else some (r.setHandler c .closing)
  | .upstream req confirmedAt newAlias control =>
    match (Varint.encode newAlias : Outcome Empty Bytes) with
    -- the task is gone, and the lock with it
    | .panic p => some ({ r with holder := none }.setHandler c (.panicked p))
    | _ =>
      if sent then
        let msg := .subscribe newAlias newAlias req.track .nextObject 0
        some ((r.sendOn control msg).setHandler c (.noting req confirmedAt newAlias control))
      else
        -- the lock is released without an alias in the table
        some ({ r with holder := none }.beginSubscribe c req confirmedAt)
  | _ => none

/-- `maybe_bind_upstream_alias` under the lock, up to the send. -/
def bindAlias (req : Request) (confirmedAt : Nat) : Relay :=
  match r.publishers.lookup req.track with
  -- no group stream has come yet
  | none => r.beginSubscribe c req confirmedAt
  | some reg =>
    if reg.trackAlias.isSome then r.beginSubscribe c req confirmedAt
    else
      { r with nextAlias := r.nextAlias + 1, holder := some c }.setHandler c
        (.upstream req confirmedAt r.nextAlias reg.control)

/-- `spawn_forwarder`, and the handle goes into the map. -/
def spawnForwarder (req : Request) (confirmedAt sub : Nat) : Relay :=
  { r with
    forwarders := r.forwarders ++ [⟨c, req, confirmedAt, sub, false, false⟩]
    conns := r.conns.modify c fun k =>
      { k with
        handler := .receiving
        forwarders := k.forwarders.insert req.subscribeId r.forwarders.length } }

def isFinished (k : Nat) : Bool :=
  match r.forwarders[k]? with
  | some w => w.finished
  | none => true

def onAct (k : Connection) : Option Relay :=
  match k.handler with
  | .binding req confirmedAt =>
    if r.holder = none then some (r.bindAlias c req confirmedAt) else none
  | .noting req confirmedAt newAlias control =>
    let publishers := r.publishers.insert req.track ⟨control, some newAlias⟩
    some ({ r with publishers, holder := none }.beginSubscribe c req confirmedAt)
  | .subscribing req confirmedAt pc => do
    let (fanout, progress) ← r.fanout.advance checks pc
    let r := { r with fanout }
    match progress with
    | .goOn pc => some (r.setHandler c (.subscribing req confirmedAt pc))
    | .returned (.subscribed sub) => some (r.spawnForwarder c req confirmedAt sub)
    -- the task is gone without the cleaning up at its end
    | .returned (.panicked p) => some (r.setHandler c (.panicked p))
    | .returned _ => none
  | .draining =>
    if k.forwarders.size = 0 then some (r.setHandler c .closing)
    else
      let live := k.forwarders.retain fun _ w => !r.isFinished w
      some { r with conns := r.conns.modify c fun k => { k with forwarders := live } }
  | .closing =>
    some ((k.forwarders.entries.foldl (fun r e => r.abort e.2) r).setHandler c .ended)
  | _ => none

/-- The track a group stream is for; an alias is looked up in the table. -/
def resolveTrackRef (ord : HashOrder TrackId) (conn : Nat) : TrackRef → Relay × Option TrackId
  | .full track =>
    match r.publishers.lookup track with
    | some _ => (r, some track)
    | none => ({ r with publishers := r.publishers.insert track ⟨conn, none⟩ }, some track)
  | .byAlias a =>
    (r, (r.publishers.iterKeys ord).find? fun track =>
      (r.publishers.lookup track).any fun reg => reg.trackAlias = some a)

def onRead (g : Nat) (s : GroupStream) (incoming : Incoming) : Option Relay :=
  match s.intake, incoming with
  | .header, .message (.groupHeader trackRef groupId) =>
    some (r.setIntake g (.resolving trackRef groupId))
  | .header, _ => some (r.setIntake g .ended)
  | .reading track groupId, .message (.object obj) =>
    -- the group id of the header counts
    let call := HubCall.publish track { obj with groupId }
    some (r.setIntake g (.publishing track groupId call.pc))
  | .reading _ _, .message _ => some r
  | .reading _ _, .closed => some (r.setIntake g .ended)
  | .reading _ _, .failed => some (r.setIntake g .ended)
  | _, _ => none

def onWork (g : Nat) (s : GroupStream) (ord : HashOrder TrackId) : Option Relay :=
  match s.intake with
  | .resolving trackRef groupId =>
    if r.holder = none then
      match r.resolveTrackRef ord s.conn trackRef with
      | (r, some track) => some (r.setIntake g (.reading track groupId))
      | (r, none) => some (r.setIntake g .ended)
    else none
  | .publishing track groupId pc => do
    let (fanout, progress) ← r.fanout.advance checks pc
    let r := { r with fanout }
    match progress with
    | .goOn pc => some (r.setIntake g (.publishing track groupId pc))
    | .returned (.panicked p) => some (r.setIntake g (.panicked p))
    | .returned _ => some (r.setIntake g (.reading track groupId))
  | _ => none

/-- All of them, and the forwarders. -/
def step (checks : Bool) (r : Relay) : RelayEvent → Option Relay
  | .accept => some { r with conns := r.conns ++ [⟨.opening, [], ∅⟩] }
  | .recv c incoming => do
    let k ← r.conns[c]?
    r.onRecv c k incoming
  | .send c sent => do
    let k ← r.conns[c]?
    r.onSend c k sent
  | .act c => do
    let k ← r.conns[c]?
    r.onAct checks c k
  | .stream c => do
    let k ← r.conns[c]?
    if k.handler.accepts then some { r with streams := r.streams ++ [⟨c, .header⟩] } else none
  | .read g incoming => do
    let s ← r.streams[g]?
    r.onRead g s incoming
  | .work g ord => do
    let s ← r.streams[g]?
    r.onWork checks g s ord
  | .receive k => do
    let w ← r.forwarders[k]?
    let fanout ← r.fanout.recv w.sub
    some { r with fanout }
  | .finish k =>
    some { r with forwarders := r.forwarders.modify k fun w => { w with finished := true } }
  | .stop k => do
    let w ← r.forwarders[k]?
    if w.aborted then
      let fanout ← r.fanout.drop w.sub
      some { r with
        fanout, forwarders := r.forwarders.modify k fun w => { w with finished := true } }
    else none

end Relay

end DirectWire.Moq
