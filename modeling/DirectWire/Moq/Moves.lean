import DirectWire.Moq.Relay

/-!
# MoQ — what a step of the relay can be

Every step of the relay is one of the moves listed here: which task it is of, where
the task was, what the step found, and what it changed. What the tasks keep is
proved by going through the moves.

* `Relay.Turn`, `Relay.Answer` — the moves of a handler that change nothing else,
  and those that only send as well.
-/

namespace DirectWire.Moq

open Lib Outcome Option

def Request.message (req : Request) : Message :=
  .subscribe req.subscribeId req.trackAlias req.track req.start req.priority

/-- Where the task of a group stream is after a step of `hub.publish`. -/
def Progress.intake (track : TrackId) (groupId : UInt64) : Progress → Intake
  | .goOn pc => .publishing track groupId pc
  | .returned (.panicked p) => .panicked p
  | .returned _ => .reading track groupId

namespace Relay

/-- The handler of connection `c` goes on, and nothing else changes. -/
inductive Turn (r : Relay) (c : Nat) (k : Connection) : RelayEvent → Handler → Prop where
  | greet {role} (h : k.handler = .opening) :
      Turn r c k (.recv c (.message (.setup protoVersion role))) .greeting
  | reject {incoming} (h : k.handler = .opening) : Turn r c k (.recv c incoming) .ended
  | confirm {req} (h : k.handler = .receiving)
      (hAnnounced : r.fanout.hub.namespaceAnnounced req.track.ns = true) :
      Turn r c k (.recv c (.message req.message)) (.confirming req)
  | refuse {req} (h : k.handler = .receiving)
      (hUnknown : ¬ r.fanout.hub.namespaceAnnounced req.track.ns = true) :
      Turn r c k (.recv c (.message req.message)) (.refusing req)
  | goaway {reason} (h : k.handler = .receiving) :
      Turn r c k (.recv c (.message (.goaway reason))) .closing
  | halfClose (h : k.handler = .receiving) : Turn r c k (.recv c .closed) .draining
  | lose (h : k.handler = .receiving) : Turn r c k (.recv c .failed) .closing
  | hangUp (h : k.handler = .greeting) : Turn r c k (.send c false) .ended
  | unannounced {ns} (h : k.handler = .announced ns) : Turn r c k (.send c false) .closing
  | unrefused {req} (h : k.handler = .refusing req) : Turn r c k (.send c false) .closing
  | unconfirmed {req} (h : k.handler = .confirming req) : Turn r c k (.send c false) .closing
  | settled {req confirmedAt} (h : k.handler = .binding req confirmedAt) (hFree : r.holder = none)
      (hSettled : ∀ reg, r.publishers.lookup req.track = some reg → reg.trackAlias.isSome = true) :
      Turn r c k (.act c) (.subscribing req confirmedAt (HubCall.subscribe req.track req.start).pc)
  | drained (h : k.handler = .draining) (hEmpty : k.forwarders.size = 0) :
      Turn r c k (.act c) .closing

inductive Answer (r : Relay) (k : Connection) : Message → Handler → Prop where
  | setup (h : k.handler = .greeting) : Answer r k (.setup protoVersion .both) .receiving
  | announceOk {ns} (h : k.handler = .announced ns) : Answer r k (.announceOk ns) .receiving
  | subscribeError {req} (h : k.handler = .refusing req) :
      Answer r k (.subscribeError req.subscribeId errNamespaceNotFound
        ("命名空间未发布: " ++ req.track.ns)) .receiving
  | subscribeOk {req} (h : k.handler = .confirming req) :
      Answer r k (.subscribeOk req.subscribeId)
        (.binding req (r.fanout.acceptedOf req.track).length)

inductive Feed (s : GroupStream) : Incoming → Intake → Prop where
  | header {trackRef groupId} (h : s.intake = .header) :
      Feed s (.message (.groupHeader trackRef groupId)) (.resolving trackRef groupId)
  | noHeader {incoming} (h : s.intake = .header) : Feed s incoming .ended
  | object {track groupId obj} (h : s.intake = .reading track groupId) :
      Feed s (.message (.object obj))
        (.publishing track groupId (HubCall.publish track { obj with groupId }).pc)
  | done {track groupId incoming} (h : s.intake = .reading track groupId) : Feed s incoming .ended

/-- All moves. -/
inductive Move (checks : Bool) (r : Relay) : RelayEvent → Relay → Prop where
  | accept : Move checks r .accept { r with conns := r.conns ++ [⟨.opening, [], ∅⟩] }
  | turn {c k e handler} (hk : r.conns[c]? = some k) (hTurn : Turn r c k e handler) :
      Move checks r e (r.setHandler c handler)
  | answer {c k m handler} (hk : r.conns[c]? = some k) (hAnswer : Answer r k m handler) :
      Move checks r (.send c true) ((r.sendOn c m).setHandler c handler)
  | announce {c k ns} (hk : r.conns[c]? = some k) (h : k.handler = .receiving) :
      Move checks r (.recv c (.message (.announce ns)))
        ({ r with fanout.hub := r.fanout.hub.announceNamespace ns }.setHandler c (.announced ns))
  | unsubscribe {c k id w} (hk : r.conns[c]? = some k) (h : k.handler = .receiving)
      (hw : k.forwarders.lookup id = some w) :
      Move checks r (.recv c (.message (.unsubscribe id)))
        ({ r with conns := r.conns.modify c fun k =>
          { k with forwarders := k.forwarders.erase id } }.abort w)
  | ignore {c k m} (hk : r.conns[c]? = some k) (h : k.handler = .receiving)
      (hUnknown : ∀ id, m = .unsubscribe id → k.forwarders.lookup id = none) :
      Move checks r (.recv c (.message m)) r
  | draw {c k req confirmedAt reg} (hk : r.conns[c]? = some k)
      (h : k.handler = .binding req confirmedAt) (hFree : r.holder = none)
      (hReg : r.publishers.lookup req.track = some reg) (hNone : reg.trackAlias = none) :
      Move checks r (.act c) ({ r with nextAlias := r.nextAlias + 1, holder := some c }.setHandler c
        (.upstream req confirmedAt r.nextAlias reg.control))
  | overflow {c k req confirmedAt control newAlias sent p} (hk : r.conns[c]? = some k)
      (h : k.handler = .upstream req confirmedAt newAlias control)
      (hPanic : (Varint.encode newAlias : Outcome Empty Bytes) = panic p) :
      Move checks r (.send c sent) ({ r with holder := none }.setHandler c (.panicked p))
  | pass {c k req confirmedAt control newAlias} (hk : r.conns[c]? = some k)
      (h : k.handler = .upstream req confirmedAt newAlias control) :
      Move checks r (.send c true)
        ((r.sendOn control (.subscribe newAlias newAlias req.track .nextObject 0)).setHandler c
          (.noting req confirmedAt newAlias control))
  | giveUp {c k req confirmedAt control newAlias} (hk : r.conns[c]? = some k)
      (h : k.handler = .upstream req confirmedAt newAlias control) :
      Move checks r (.send c false) ({ r with holder := none }.beginSubscribe c req confirmedAt)
  | note {c k req confirmedAt control newAlias} (hk : r.conns[c]? = some k)
      (h : k.handler = .noting req confirmedAt newAlias control) :
      Move checks r (.act c)
        ({ r with
          publishers := r.publishers.insert req.track ⟨control, some newAlias⟩
          holder := none }.beginSubscribe c req confirmedAt)
  | call {c k req confirmedAt pc pc' fanout} (hk : r.conns[c]? = some k)
      (h : k.handler = .subscribing req confirmedAt pc)
      (hAdvance : r.fanout.advance checks pc = some (fanout, .goOn pc')) :
      Move checks r (.act c) ({ r with fanout }.setHandler c (.subscribing req confirmedAt pc'))
  | spawn {c k req confirmedAt sub pc fanout} (hk : r.conns[c]? = some k)
      (h : k.handler = .subscribing req confirmedAt pc)
      (hAdvance : r.fanout.advance checks pc = some (fanout, .returned (.subscribed sub))) :
      Move checks r (.act c) ({ r with fanout }.spawnForwarder c req confirmedAt sub)
  | crash {c k req confirmedAt pc p fanout} (hk : r.conns[c]? = some k)
      (h : k.handler = .subscribing req confirmedAt pc)
      (hAdvance : r.fanout.advance checks pc = some (fanout, .returned (.panicked p))) :
      Move checks r (.act c) ({ r with fanout }.setHandler c (.panicked p))
  | prune {c k} (hk : r.conns[c]? = some k) (h : k.handler = .draining) :
      Move checks r (.act c) { r with conns := r.conns.modify c fun k' =>
        { k' with forwarders := k.forwarders.retain fun _ w => !r.isFinished w } }
  | close {c k} (hk : r.conns[c]? = some k) (h : k.handler = .closing) :
      Move checks r (.act c)
        ((k.forwarders.entries.foldl (fun r e => r.abort e.2) r).setHandler c .ended)
  | stream {c k} (hk : r.conns[c]? = some k) (h : k.handler.accepts = true) :
      Move checks r (.stream c) { r with streams := r.streams ++ [⟨c, .header⟩] }
  | feed {g s incoming intake} (hs : r.streams[g]? = some s) (hFeed : Feed s incoming intake) :
      Move checks r (.read g incoming) (r.setIntake g intake)
  | skip {g m} : Move checks r (.read g (.message m)) r
  | register {g s ord track groupId} (hs : r.streams[g]? = some s)
      (h : s.intake = .resolving (.full track) groupId) (hFree : r.holder = none)
      (hNone : r.publishers.lookup track = none) :
      Move checks r (.work g ord)
        ({ r with publishers := r.publishers.insert track ⟨s.conn, none⟩ }.setIntake g
          (.reading track groupId))
  | resolve {g s ord trackRef groupId found} (hs : r.streams[g]? = some s)
      (h : s.intake = .resolving trackRef groupId) (hFree : r.holder = none)
      (hFound : r.resolveTrackRef ord s.conn trackRef = (r, found)) :
      Move checks r (.work g ord) (r.setIntake g (found.elim .ended (.reading · groupId)))
  | publish {g s ord track groupId pc fanout progress} (hs : r.streams[g]? = some s)
      (h : s.intake = .publishing track groupId pc)
      (hAdvance : r.fanout.advance checks pc = some (fanout, progress)) :
      Move checks r (.work g ord) ({ r with fanout }.setIntake g (progress.intake track groupId))
  | receive {i w fanout} (hw : r.forwarders[i]? = some w)
      (hRecv : r.fanout.recv w.sub = some fanout) : Move checks r (.receive i) { r with fanout }
  | finish {i} :
      Move checks r (.finish i)
        { r with forwarders := r.forwarders.modify i fun w => { w with finished := true } }
  | stop {i w fanout} (hw : r.forwarders[i]? = some w) (hAborted : w.aborted = true)
      (hDrop : r.fanout.drop w.sub = some fanout) :
      Move checks r (.stop i)
        { r with fanout, forwarders := r.forwarders.modify i fun w => { w with finished := true } }

variable {checks : Bool} {r r' : Relay} {c : Nat} {k : Connection}

theorem handler_sendOn (c' : Nat) (m : Message) (hk : r.conns[c]? = some k) :
    ∃ k', (r.sendOn c' m).conns[c]? = some k' ∧ k'.handler = k.handler := by
  rw [Relay.sendOn, List.getElem?_modify, hk]
  refine ⟨_, rfl, ?_⟩
  split <;> rfl

theorem abortAll_conns (r : Relay) (handles : List (Sigma fun _ : UInt64 => Nat)) :
    (handles.foldl (fun r e => r.abort e.2) r).conns = r.conns := by
  induction handles generalizing r with
  | nil => rfl
  | cons handle handles ih => exact ih _

section

variable (hk : r.conns[c]? = some k)

include hk

theorem move_onMessage (h : k.handler = .receiving) (m : Message) :
    Move checks r (.recv c (.message m)) (r.onMessage c k m) := by
  cases m with
  | announce => exact .announce hk h
  | subscribe subscribeId trackAlias track start priority =>
    rw [onMessage]
    split
    · rename_i hAnnounced
      exact .turn hk (@Turn.confirm r c k ⟨subscribeId, trackAlias, track, start, priority⟩ h
        hAnnounced)
    · rename_i hUnknown
      exact .turn hk (@Turn.refuse r c k ⟨subscribeId, trackAlias, track, start, priority⟩ h
        hUnknown)
  | unsubscribe subscribeId =>
    rw [onMessage]
    split
    · rename_i w hw
      exact .unsubscribe hk h hw
    · rename_i hNone
      refine .ignore hk h fun id hId => ?_
      cases hId
      exact hNone
  | goaway => exact .turn hk (.goaway h)
  | _ => exact .ignore hk h nofun

theorem move_onRecv {incoming} (hStep : r.onRecv c k incoming = some r') :
    Move checks r (.recv c incoming) r' := by
  unfold onRecv at hStep
  split at hStep
  · rename_i version role h
    split at hStep
    · rename_i hVersion
      cases hStep
      rw [hVersion]
      exact .turn hk (.greet h)
    · cases hStep
      exact .turn hk (.reject h)
  · rename_i h _
    cases hStep
    exact .turn hk (.reject h)
  · rename_i h
    cases hStep
    exact move_onMessage hk h _
  · rename_i h
    cases hStep
    exact .turn hk (.halfClose h)
  · rename_i h
    cases hStep
    exact .turn hk (.lose h)
  · cases hStep

theorem move_onSend {sent} (hStep : r.onSend c k sent = some r') :
    Move checks r (.send c sent) r' := by
  unfold onSend at hStep
  cases sent with
  | true =>
    split at hStep
    · rename_i h
      cases hStep
      exact .answer hk (.setup h)
    · rename_i h
      cases hStep
      exact .answer hk (.announceOk h)
    · rename_i h
      cases hStep
      exact .answer hk (.subscribeError h)
    · rename_i h
      cases hStep
      exact .answer hk (.subscribeOk h)
    · rename_i h
      split at hStep
      · rename_i hPanic
        cases hStep
        exact .overflow hk h hPanic
      · cases hStep
        exact .pass hk h
    · cases hStep
  | false =>
    split at hStep
    · rename_i h
      cases hStep
      exact .turn hk (.hangUp h)
    · rename_i h
      cases hStep
      exact .turn hk (.unannounced h)
    · rename_i h
      cases hStep
      exact .turn hk (.unrefused h)
    · rename_i h
      cases hStep
      exact .turn hk (.unconfirmed h)
    · rename_i h
      split at hStep
      · rename_i hPanic
        cases hStep
        exact .overflow hk h hPanic
      · cases hStep
        exact .giveUp hk h
    · cases hStep

theorem move_bindAlias {req confirmedAt} (h : k.handler = .binding req confirmedAt)
    (hFree : r.holder = none) : Move checks r (.act c) (r.bindAlias c req confirmedAt) := by
  unfold bindAlias
  split
  · rename_i hNone
    refine .turn hk (.settled h hFree fun reg hReg => ?_)
    rw [hNone] at hReg
    cases hReg
  · rename_i reg hReg
    split
    · rename_i hSome
      refine .turn hk (.settled h hFree fun reg' hReg' => ?_)
      rw [hReg] at hReg'
      cases hReg'
      exact hSome
    · rename_i hAlias
      exact .draw hk h hFree hReg (not_isSome_iff_eq_none.mp hAlias)

theorem move_onAct (hStep : r.onAct checks c k = some r') : Move checks r (.act c) r' := by
  unfold onAct at hStep
  split at hStep
  · rename_i h
    split at hStep
    · rename_i hFree
      cases hStep
      exact move_bindAlias hk h hFree
    · cases hStep
  · rename_i h
    cases hStep
    exact .note hk h
  · rename_i h
    obtain ⟨⟨fanout, progress⟩, hAdvance, hStep⟩ := bind_eq_some_iff.mp hStep
    cases progress with
    | goOn pc =>
      cases hStep
      exact .call hk h hAdvance
    | returned result =>
      cases result with
      | subscribed sub =>
        cases hStep
        exact .spawn hk h hAdvance
      | panicked p =>
        cases hStep
        exact .crash hk h hAdvance
      | announced | published => cases hStep
  · rename_i h
    split at hStep
    · rename_i hEmpty
      cases hStep
      exact .turn hk (.drained h hEmpty)
    · cases hStep
      exact .prune hk h
  · rename_i h
    cases hStep
    exact .close hk h
  · cases hStep

end

theorem move_onRead {g s} (hs : r.streams[g]? = some s) {incoming}
    (hStep : r.onRead g s incoming = some r') : Move checks r (.read g incoming) r' := by
  unfold onRead at hStep
  split at hStep
  · rename_i h
    cases hStep
    exact .feed hs (.header h)
  · rename_i h _
    cases hStep
    exact .feed hs (.noHeader h)
  · rename_i h
    cases hStep
    exact .feed hs (.object h)
  · cases hStep
    exact .skip
  · rename_i h
    cases hStep
    exact .feed hs (.done h)
  · rename_i h
    cases hStep
    exact .feed hs (.done h)
  · cases hStep

theorem move_onWork {g s} (hs : r.streams[g]? = some s) {ord}
    (hStep : r.onWork checks g s ord = some r') : Move checks r (.work g ord) r' := by
  unfold onWork at hStep
  split at hStep
  · rename_i trackRef groupId h
    split at hStep
    · rename_i hFree
      cases hRef : r.resolveTrackRef ord s.conn trackRef with
      | mk r₁ found =>
        rw [hRef] at hStep
        cases trackRef with
        | full track =>
          rw [resolveTrackRef] at hRef
          split at hRef
          · rename_i hKnown
            cases hRef
            cases hStep
            have hFound : r.resolveTrackRef ord s.conn (.full track) = (r, some track) := by
              rw [resolveTrackRef, hKnown]
            exact .resolve hs h hFree hFound
          · rename_i hNone
            cases hRef
            cases hStep
            exact .register hs h hFree hNone
        | byAlias a =>
          have hSame : r₁ = r := (Prod.ext_iff.mp hRef).1.symm
          subst hSame
          cases found with
          | some track | none =>
            cases hStep
            exact .resolve hs h hFree hRef
    · cases hStep
  · rename_i h
    obtain ⟨⟨fanout, progress⟩, hAdvance, hStep⟩ := bind_eq_some_iff.mp hStep
    have hMove : Move checks r (.work g ord) _ := .publish hs h hAdvance
    cases progress with
    | goOn pc =>
      cases hStep
      exact hMove
    | returned result =>
      cases result with
      | panicked | announced | published | subscribed =>
        cases hStep
        exact hMove
  · cases hStep

/-- There are no others. -/
theorem move_of_step {e} (hStep : r.step checks e = some r') : Move checks r e r' := by
  cases e with
  | accept =>
    cases hStep
    exact .accept
  | recv =>
    obtain ⟨k, hk, hStep⟩ := bind_eq_some_iff.mp hStep
    exact move_onRecv hk hStep
  | send =>
    obtain ⟨k, hk, hStep⟩ := bind_eq_some_iff.mp hStep
    exact move_onSend hk hStep
  | act =>
    obtain ⟨k, hk, hStep⟩ := bind_eq_some_iff.mp hStep
    exact move_onAct hk hStep
  | stream c =>
    obtain ⟨k, hk, hStep⟩ := bind_eq_some_iff.mp hStep
    split at hStep
    · rename_i hAccepts
      cases hStep
      exact .stream hk hAccepts
    · cases hStep
  | read =>
    obtain ⟨s, hs, hStep⟩ := bind_eq_some_iff.mp hStep
    exact move_onRead hs hStep
  | work =>
    obtain ⟨s, hs, hStep⟩ := bind_eq_some_iff.mp hStep
    exact move_onWork hs hStep
  | receive i =>
    obtain ⟨w, hw, hStep⟩ := bind_eq_some_iff.mp hStep
    obtain ⟨fanout, hRecv, hStep⟩ := bind_eq_some_iff.mp hStep
    cases hStep
    exact .receive hw hRecv
  | finish i =>
    cases hStep
    exact .finish
  | stop i =>
    obtain ⟨w, hw, hStep⟩ := bind_eq_some_iff.mp hStep
    split at hStep
    · rename_i hAborted
      obtain ⟨fanout, hDrop, hStep⟩ := bind_eq_some_iff.mp hStep
      cases hStep
      exact .stop hw hAborted hDrop
    · cases hStep

end Relay

end DirectWire.Moq
