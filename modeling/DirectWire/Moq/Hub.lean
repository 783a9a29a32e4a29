import DirectWire.Lib.Broadcast
import DirectWire.Lib.Run
import DirectWire.Moq.Cache

/-!
# MoQ — the fan-out hub

`hub.rs`: every track has a group cache and a broadcast channel under one lock. The state of a
track is made when it is first asked for: a look under the read lock of the map, and a second look
under the write lock. A thread holds a lock for one step, and between two steps of a call every
other thread may act. A panic under a write lock poisons it.

* `Fanout.advance` — a call, step by step; `HubSystem.step` — the threads and the receivers.
-/

namespace DirectWire.Moq

open Lib Outcome

structure TrackId where
  ns : String
  name : String
deriving DecidableEq, Repr

inductive StartMode where
  | latestGroup
  | nextObject
deriving DecidableEq, Repr

def broadcastCapacity : Nat := 256

structure TrackState where
  cache : GroupCache
  sender : Broadcast Object
  poisoned : Bool

def TrackState.new (groupCapacity : Nat) : Outcome Empty TrackState := do
  let cache ← GroupCache.new groupCapacity
  ok ⟨cache, .new broadcastCapacity, false⟩

structure Hub where
  groupCapacity : Nat
  inner : Map TrackId Nat
  innerPoisoned : Bool
  namespaces : Finset String
  /-- The states, which the map and the threads point to. -/
  states : List TrackState

namespace Hub

def new (groupCapacity : Nat) : Hub := ⟨groupCapacity, ∅, false, ∅, []⟩

def announceNamespace (h : Hub) (ns : String) : Hub :=
  { h with namespaces := insert ns h.namespaces }

def namespaceAnnounced (h : Hub) (ns : String) : Bool := ns ∈ h.namespaces

/-- `entry(track).or_insert(state)`, when there is no entry. -/
def addTrack (h : Hub) (track : TrackId) (state : TrackState) : Hub :=
  { h with inner := h.inner.insert track h.states.length, states := h.states ++ [state] }

end Hub

/-- What the lock of a poisoned state, or of a poisoned map, panics with. -/
def hubPoisoned : Panic := .expectFailed "hub 锁中毒"

/-! ## A call, step by step -/

/-- What `state` is called for. -/
inductive Want where
  | announce
  | publish (obj : Object)
  | subscribe (start : StartMode)
deriving DecidableEq

inductive Pc where
  /-- `announce_namespace`, as a call of its own. -/
  | declaring (ns : String)
  /-- `announce`, before the namespace. -/
  | announcing (track : TrackId)
  /-- `state`, before the read lock of the map. -/
  | looking (track : TrackId) (want : Want)
  /-- `state`, before the write lock of the map. -/
  | creating (track : TrackId) (want : Want)
  /-- `publish` with the state of the track, before the namespace. -/
  | naming (track : TrackId) (ref : Nat) (obj : Object)
  /-- `publish`, before the lock of the state. -/
  | publishing (track : TrackId) (ref : Nat) (obj : Object)
  /-- `subscribe`, before the lock of the state. -/
  | subscribing (track : TrackId) (ref : Nat) (start : StartMode)
deriving DecidableEq

inductive Returned where
  | announced
  | published (cached : Bool)
  | subscribed (id : Nat)
  | panicked (p : Panic)
deriving DecidableEq

inductive Progress where
  | goOn (pc : Pc)
  | returned (r : Returned)
deriving DecidableEq

/-- `state` has returned. -/
def Want.found (track : TrackId) (ref : Nat) : Want → Progress
  | .announce => .returned .announced
  | .publish obj => .goOn (.naming track ref obj)
  | .subscribe start => .goOn (.subscribing track ref start)

structure Subscription where
  track : TrackId
  start : StartMode
  replay : List Object
  ref : Nat
  /-- How many objects the track had accepted before. -/
  since : Nat
  /-- What was received, and whether a `recv` has said that some was missed. -/
  got : List Object
  lagged : Bool
deriving DecidableEq

/-- The hub with its subscriptions, and all objects accepted so far. -/
structure Fanout where
  hub : Hub
  subs : Map Nat Subscription
  issued : Nat
  accepted : List (TrackId × Object)

namespace Fanout

variable (f : Fanout)

def new (groupCapacity : Nat) : Fanout := ⟨.new groupCapacity, ∅, 0, []⟩

def acceptedOf (track : TrackId) : List Object :=
  (f.accepted.filter fun e => e.1 = track).map Prod.snd

/-- A track has a new state and has accepted `objs`. -/
def update (track : TrackId) (ref : Nat) (state : TrackState) (objs : List Object) : Fanout :=
  { f with
    hub := { f.hub with states := f.hub.states.set ref state }
    accepted := f.accepted ++ objs.map fun obj => (track, obj) }

/-- `publish` under the lock of the state. -/
def publishLocked (checks : Bool) (f : Fanout) (track : TrackId) (ref : Nat) (st : TrackState)
    (obj : Object) : Fanout × Returned :=
  if st.poisoned then (f, .panicked hubPoisoned)
  else
    match st.cache.insert checks obj with
    -- a send to no receivers fails, and that is ignored
    | .ok (cache, true) =>
      (f.update track ref { st with cache, sender := st.sender.send obj } [obj], .published true)
    | .ok (cache, false) => (f.update track ref { st with cache } [], .published false)
    | .panic p => (f.update track ref { st with poisoned := true } [], .panicked p)
    | .err e => nomatch e

/-- `subscribe` under the lock of the state. -/
def subscribeLocked (track : TrackId) (ref : Nat) (st : TrackState) (start : StartMode) :
    Fanout × Returned :=
  if st.poisoned then (f, .panicked hubPoisoned)
  else
    let replay := match start with
      | .latestGroup => st.cache.snapshotFromLatestGroup
      | .nextObject => []
    let since := (f.acceptedOf track).length
    let sub : Subscription := { track, start, replay, ref, since, got := [], lagged := false }
    ({ f.update track ref { st with sender := st.sender.subscribe f.issued } [] with
        subs := f.subs.insert f.issued sub, issued := f.issued + 1 },
      .subscribed f.issued)

def entryLocked (track : TrackId) (want : Want) : Fanout × Progress :=
  match f.hub.inner.lookup track with
  -- another thread was faster
  | some ref => (f, want.found track ref)
  | none =>
    match TrackState.new f.hub.groupCapacity with
    | .ok st => ({ f with hub := f.hub.addTrack track st }, want.found track f.hub.states.length)
    | .panic p =>
      ({ f with hub := { f.hub with innerPoisoned := true } }, .returned (.panicked p))
    | .err e => nomatch e

def advance (checks : Bool) (f : Fanout) : Pc → Option (Fanout × Progress)
  | .declaring ns =>
    some ({ f with hub := f.hub.announceNamespace ns }, .returned .announced)
  | .announcing track =>
    some ({ f with hub := f.hub.announceNamespace track.ns }, .goOn (.looking track .announce))
  | .looking track want =>
    if f.hub.innerPoisoned then some (f, .returned (.panicked hubPoisoned))
    else
      match f.hub.inner.lookup track with
      | some ref => some (f, want.found track ref)
      | none => some (f, .goOn (.creating track want))
  | .creating track want =>
    if f.hub.innerPoisoned then some (f, .returned (.panicked hubPoisoned))
    else some (f.entryLocked track want)
  -- a first object announces its namespace
  | .naming track ref obj =>
    some ({ f with hub := f.hub.announceNamespace track.ns }, .goOn (.publishing track ref obj))
  | .publishing track ref obj => do
    let st ← f.hub.states[ref]?
    let (f, r) := f.publishLocked checks track ref st obj
    some (f, .returned r)
  | .subscribing track ref start => do
    let st ← f.hub.states[ref]?
    let (f, r) := f.subscribeLocked track ref st start
    some (f, .returned r)

def recv (f : Fanout) (id : Nat) : Option Fanout := do
  let sub ← f.subs.lookup id
  let st ← f.hub.states[sub.ref]?
  let (r, sender) ← st.sender.recv id
  let sub' := { sub with got := r.addTo sub.got, lagged := sub.lagged || r.isLagged }
  some { f.update sub.track sub.ref { st with sender } [] with subs := f.subs.insert id sub' }

def drop (id : Nat) : Option Fanout := do
  let sub ← f.subs.lookup id
  let st ← f.hub.states[sub.ref]?
  some { f.update sub.track sub.ref { st with sender := st.sender.leave id } [] with
    subs := f.subs.erase id }

/-- The live stream of a subscription: what its receiver has got, and what it can
still get. -/
def live (id : Nat) (sub : Subscription) : List Object :=
  sub.got ++ match f.hub.states[sub.ref]? with
    | some st => st.sender.unread id
    | none => []

def isLagging (id : Nat) (sub : Subscription) : Bool :=
  sub.lagged || match f.hub.states[sub.ref]? with
    | some st => st.sender.isBehind id
    | none => false

end Fanout

inductive HubCall where
  | announceNamespace (ns : String)
  | announce (track : TrackId)
  | publish (track : TrackId) (obj : Object)
  | subscribe (track : TrackId) (start : StartMode)
deriving DecidableEq

def HubCall.pc : HubCall → Pc
  | .announceNamespace ns => .declaring ns
  | .announce track => .announcing track
  | .publish track obj => .looking track (.publish obj)
  | .subscribe track start => .looking track (.subscribe start)

/-! ## Threads -/

structure HubSystem where
  fanout : Fanout
  threads : Map Nat Pc

inductive HubEvent where
  | call (thread : Nat) (call : HubCall)
  | act (thread : Nat)
  | recv (id : Nat)
  | drop (id : Nat)
deriving DecidableEq

namespace HubSystem

def new (groupCapacity : Nat) : HubSystem := ⟨.new groupCapacity, ∅⟩

def step (checks : Bool) (s : HubSystem) : HubEvent → Option HubSystem
  | .call thread call =>
    match s.threads.lookup thread with
    | some _ => none
    | none => some { s with threads := s.threads.insert thread call.pc }
  | .act thread => do
    let pc ← s.threads.lookup thread
    let (fanout, progress) ← s.fanout.advance checks pc
    match progress with
    | .goOn pc => some ⟨fanout, s.threads.insert thread pc⟩
    | .returned _ => some ⟨fanout, s.threads.erase thread⟩
  | .recv id => do
    let fanout ← s.fanout.recv id
    some { s with fanout }
  | .drop id => do
    let fanout ← s.fanout.drop id
    some { s with fanout }

end HubSystem

end DirectWire.Moq
