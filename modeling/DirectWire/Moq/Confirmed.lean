import DirectWire.Lib.Cells
import DirectWire.Moq.Moves

/-!
# MoQ — confirmed subscriptions

What a forwarder is handed, against what the hub has accepted since the relay has sent
SUBSCRIBE_OK. What comes between that and the subscription is only in the snapshot, if anywhere.

* `Relay.Sound` — the hub is sound under every step of every task, and every forwarder has the
  subscription of its request.
-/

namespace DirectWire.Moq

open Lib Outcome

/-! ## A subscribe call -/

/-- In `subscribe` for a track and a mode. -/
def Pc.Subscribes (track : TrackId) (start : StartMode) : Pc → Prop
  | .looking t (.subscribe s) | .creating t (.subscribe s) | .subscribing t _ s =>
    t = track ∧ s = start
  | _ => False

def Fanout.Made (f : Fanout) (id : Nat) (track : TrackId) (start : StartMode) (since : Nat) :
    Prop :=
  id < f.issued ∧ ∀ sub, f.subs.lookup id = some sub →
    sub.track = track ∧ sub.start = start ∧ since ≤ sub.since

def Progress.Subscribes (f f' : Fanout) (track : TrackId) (start : StartMode) : Progress → Prop
  | .goOn pc => pc.Subscribes track start
  | .returned (.subscribed id) => f'.Made id track start (f.acceptedOf track).length
  | .returned _ => True

namespace Fanout

variable {checks : Bool} {f f' : Fanout} {track : TrackId} {start : StartMode} {pc : Pc}
variable {progress : Progress} {id since : Nat}

theorem found_subscribes {ref} :
    ((Want.subscribe start).found track ref).Subscribes f f' track start :=
  ⟨rfl, rfl⟩

theorem made_subscribeLocked {ref st} :
    (Progress.returned (f.subscribeLocked track ref st start).2).Subscribes f
      (f.subscribeLocked track ref st start).1 track start := by
  unfold subscribeLocked
  split
  · trivial
  · refine ⟨Nat.lt_succ_self _, fun sub hSub => ?_⟩
    have hNew := (AList.lookup_insert _).symm.trans hSub
    cases hNew
    exact ⟨rfl, rfl, Nat.le_refl _⟩

theorem entryLocked_subscribes (f : Fanout) (track : TrackId) (start : StartMode) :
    (f.entryLocked track (.subscribe start)).2.Subscribes f
      (f.entryLocked track (.subscribe start)).1 track start := by
  unfold entryLocked
  split
  · exact found_subscribes
  · split
    · exact found_subscribes
    · trivial
    · contradiction

theorem advance_subscribes (hPc : pc.Subscribes track start)
    (hStep : f.advance checks pc = some (f', progress)) :
    progress.Subscribes f f' track start := by
  cases pc with
  | looking t want =>
    cases want with
    | subscribe s =>
      obtain ⟨rfl, rfl⟩ := hPc
      rw [advance] at hStep
      split at hStep
      · cases hStep
        trivial
      · split at hStep
        · cases hStep
          exact found_subscribes
        · cases hStep
          exact ⟨rfl, rfl⟩
    | announce | publish => exact hPc.elim
  | creating t want =>
    cases want with
    | subscribe s =>
      obtain ⟨rfl, rfl⟩ := hPc
      rw [advance] at hStep
      split at hStep
      · cases hStep
        trivial
      · have hEntry : f.entryLocked t (.subscribe s) = (f', progress) := Option.some_inj.mp hStep
        have hSubscribes := entryLocked_subscribes f t s
        rw [hEntry] at hSubscribes
        exact hSubscribes
    | announce | publish => exact hPc.elim
  | subscribing t ref s =>
    obtain ⟨rfl, rfl⟩ := hPc
    obtain ⟨st, hState, hStep⟩ := Option.bind_eq_some_iff.mp hStep
    cases hStep
    exact made_subscribeLocked
  | declaring | announcing | naming | publishing => exact hPc.elim

theorem Extends.made (h : f.Extends f') (hMade : f.Made id track start since) :
    f'.Made id track start since := by
  obtain ⟨hLt, hSubs⟩ := hMade
  have hIssued := h.issued
  refine ⟨by omega, fun sub' hSub' => ?_⟩
  obtain ⟨sub, hSub, hSame⟩ := h.subs id sub' hSub' hLt
  obtain ⟨hTrack, hStart, hSince⟩ := hSubs sub hSub
  simp only [Subscription.made, Prod.mk.injEq] at hSame
  obtain ⟨hTrack', hStart', -, hSince'⟩ := hSame
  rw [hTrack', hStart', hSince']
  exact ⟨hTrack, hStart, hSince⟩

theorem Extends.length_le (h : f.Extends f') (track : TrackId) :
    (f.acceptedOf track).length ≤ (f'.acceptedOf track).length := by
  obtain ⟨more, hMore⟩ := h.acceptedOf track
  rw [hMore, List.length_append]
  omega

end Fanout

/-! ## What every task keeps -/

/-- The number a handler carries is of the past, and it subscribes to what it was
asked for. -/
def Handler.Valid (f : Fanout) : Handler → Prop
  | .binding req confirmedAt | .upstream req confirmedAt _ _ | .noting req confirmedAt _ _ =>
    confirmedAt ≤ (f.acceptedOf req.track).length
  | .subscribing req confirmedAt pc =>
    confirmedAt ≤ (f.acceptedOf req.track).length ∧ pc.Valid f.hub ∧
      pc.Subscribes req.track req.start
  | _ => True

def Intake.Valid (f : Fanout) : Intake → Prop
  | .publishing _ _ pc => pc.Valid f.hub
  | _ => True

theorem Handler.Valid.extend {f f' : Fanout} {handler : Handler} (h : handler.Valid f)
    (hExtends : f.Extends f') : handler.Valid f' := by
  cases handler with
  | binding | upstream | noting => exact Nat.le_trans h (hExtends.length_le _)
  | subscribing =>
    obtain ⟨hLe, hPc, hSubscribes⟩ := h
    exact ⟨Nat.le_trans hLe (hExtends.length_le _), hExtends.valid hPc, hSubscribes⟩
  | _ => trivial

theorem Intake.Valid.extend {f f' : Fanout} {intake : Intake} (h : intake.Valid f)
    (hExtends : f.Extends f') : intake.Valid f' := by
  cases intake with
  | publishing => exact hExtends.valid h
  | _ => trivial

def Forwarder.Valid (f : Fanout) (w : Forwarder) : Prop :=
  f.Made w.sub w.req.track w.req.start w.confirmedAt

namespace Relay

structure Sound (r : Relay) : Prop where
  fanout : r.fanout.Sound
  conns : ∀ k ∈ r.conns, k.handler.Valid r.fanout
  streams : ∀ s ∈ r.streams, s.intake.Valid r.fanout
  forwarders : ∀ w ∈ r.forwarders, w.Valid r.fanout

variable {checks : Bool} {r r' : Relay} {c : Nat} {k : Connection} {g : Nat}

section

variable (h : r.Sound)

include h

theorem Sound.setHandler {handler} (hValid : handler.Valid r.fanout) :
    (r.setHandler c handler).Sound :=
  ⟨h.fanout, forall_mem_modify h.conns fun _ _ => hValid, h.streams, h.forwarders⟩

theorem Sound.sendOn (m : Message) : (r.sendOn c m).Sound :=
  ⟨h.fanout, forall_mem_modify h.conns fun _ hOld => hOld, h.streams, h.forwarders⟩

theorem Sound.setIntake {intake} (hValid : intake.Valid r.fanout) : (r.setIntake g intake).Sound :=
  ⟨h.fanout, h.conns, forall_mem_modify h.streams fun _ _ => hValid, h.forwarders⟩

theorem Sound.abort (w : Nat) : (r.abort w).Sound :=
  ⟨h.fanout, h.conns, h.streams, forall_mem_modify h.forwarders fun _ hOld => hOld⟩

theorem Sound.setForwarders (live : Map UInt64 Nat → Map UInt64 Nat) :
    { r with conns := r.conns.modify c fun k =>
        { k with forwarders := live k.forwarders } }.Sound :=
  ⟨h.fanout, forall_mem_modify h.conns fun _ hOld => hOld, h.streams, h.forwarders⟩

theorem Sound.of_frame (publishers : Map TrackId PublisherReg) (holder : Option Nat)
    (nextAlias : UInt64) : { r with publishers, holder, nextAlias }.Sound :=
  ⟨h.fanout, h.conns, h.streams, h.forwarders⟩

theorem Sound.setFanout {fanout} (hSound : fanout.Sound) (hExtends : r.fanout.Extends fanout) :
    { r with fanout }.Sound where
  fanout := hSound
  conns k hk := (h.conns k hk).extend hExtends
  streams s hs := (h.streams s hs).extend hExtends
  forwarders w hw := hExtends.made (h.forwarders w hw)

theorem sound_abortAll (handles : List (Sigma fun _ : UInt64 => Nat)) :
    (handles.foldl (fun r e => r.abort e.2) r).Sound := by
  induction handles generalizing r with
  | nil => exact h
  | cons handle handles ih => exact ih (h.abort _)

end

theorem Turn.valid {e handler} (hTurn : Turn r c k e handler) (hValid : k.handler.Valid r.fanout) :
    handler.Valid r.fanout := by
  cases hTurn with
  | settled h =>
    rw [h] at hValid
    exact ⟨hValid, trivial, rfl, rfl⟩
  | _ => trivial

theorem Answer.valid {m handler} (hAnswer : Answer r k m handler) : handler.Valid r.fanout := by
  cases hAnswer with
  -- the number is of this moment
  | subscribeOk => exact Nat.le_refl _
  | _ => trivial

theorem Feed.valid {s incoming intake f} (hFeed : Feed s incoming intake) : intake.Valid f := by
  cases hFeed <;> trivial

theorem intake_valid {f : Fanout} {progress : Progress} (h : progress.Valid f.hub)
    (track : TrackId) (groupId : UInt64) : (progress.intake track groupId).Valid f := by
  cases progress with
  | goOn => exact h
  | returned result => cases result <;> trivial

theorem sound_move {e} (h : r.Sound) (hMove : Move checks r e r') : r'.Sound := by
  have hConn : ∀ {c : Nat} {k : Connection}, r.conns[c]? = some k → k.handler.Valid r.fanout :=
    fun hk => h.conns _ (List.mem_of_getElem? hk)
  cases hMove with
  | accept =>
    exact ⟨h.fanout, forall_mem_concat h.conns trivial, h.streams, h.forwarders⟩
  | turn hk hTurn => exact h.setHandler (hTurn.valid (hConn hk))
  | answer hk hAnswer => exact (h.sendOn _).setHandler hAnswer.valid
  | @announce _ _ ns =>
    refine Sound.setHandler (h.setFanout (h.fanout.of_frame _ _) ?_) trivial
    exact Fanout.Extends.announceNamespace r.fanout ns
  | @unsubscribe _ _ id _ => exact (h.setForwarders fun live => live.erase id).abort _
  | ignore | skip => exact h
  | draw hk hState =>
    have hValid := hConn hk
    rw [hState] at hValid
    exact (h.of_frame _ _ _).setHandler hValid
  | overflow => exact (h.of_frame _ _ _).setHandler trivial
  | pass hk hState =>
    have hValid := hConn hk
    rw [hState] at hValid
    exact (h.sendOn _).setHandler hValid
  | giveUp hk hState | note hk hState =>
    have hValid := hConn hk
    rw [hState] at hValid
    exact (h.of_frame _ _ _).setHandler ⟨hValid, trivial, rfl, rfl⟩
  | call hk hState hAdvance =>
    have hValid := hConn hk
    rw [hState] at hValid
    obtain ⟨hLe, hPc, hSubscribes⟩ := hValid
    obtain ⟨hSound, hExtends, hNext⟩ := Fanout.advance_sound h.fanout hPc hAdvance
    exact (h.setFanout hSound hExtends).setHandler
      ⟨Nat.le_trans hLe (hExtends.length_le _), hNext,
        Fanout.advance_subscribes hSubscribes hAdvance⟩
  | spawn hk hState hAdvance =>
    have hValid := hConn hk
    rw [hState] at hValid
    obtain ⟨hLe, hPc, hSubscribes⟩ := hValid
    obtain ⟨hSound, hExtends, -⟩ := Fanout.advance_sound h.fanout hPc hAdvance
    -- the call returns the subscription of the request, made after SUBSCRIBE_OK
    obtain ⟨hLt, hSubs⟩ := Fanout.advance_subscribes hSubscribes hAdvance
    have h' := h.setFanout hSound hExtends
    refine ⟨h'.fanout, forall_mem_modify h'.conns fun _ _ => trivial, h'.streams,
      forall_mem_concat h'.forwarders ⟨hLt, fun s hs => ?_⟩⟩
    obtain ⟨hTrack, hStart, hSince⟩ := hSubs s hs
    exact ⟨hTrack, hStart, Nat.le_trans hLe hSince⟩
  | crash hk hState hAdvance =>
    have hValid := hConn hk
    rw [hState] at hValid
    obtain ⟨hSound, hExtends, -⟩ := Fanout.advance_sound h.fanout hValid.2.1 hAdvance
    exact (h.setFanout hSound hExtends).setHandler trivial
  | @prune _ k =>
    exact h.setForwarders fun _ => k.forwarders.retain fun _ w => !r.isFinished w
  | close => exact (sound_abortAll h _).setHandler trivial
  | stream =>
    exact ⟨h.fanout, h.conns, forall_mem_concat h.streams trivial, h.forwarders⟩
  | feed hs hFeed => exact h.setIntake hFeed.valid
  | register => exact (h.of_frame _ _ _).setIntake trivial
  | @resolve _ _ _ _ _ found =>
    refine h.setIntake ?_
    cases found <;> trivial
  | publish hs hState hAdvance =>
    have hValid := h.streams _ (List.mem_of_getElem? hs)
    rw [hState] at hValid
    obtain ⟨hSound, hExtends, hNext⟩ := Fanout.advance_sound h.fanout hValid hAdvance
    exact (h.setFanout hSound hExtends).setIntake (intake_valid hNext _ _)
  | receive hw hRecv =>
    exact h.setFanout (h.fanout.recv hRecv) (Fanout.extends_recv hRecv)
  | finish =>
    exact ⟨h.fanout, h.conns, h.streams, forall_mem_modify h.forwarders fun _ hOld => hOld⟩
  | stop hw hAborted hDrop =>
    have hFanout := h.setFanout (h.fanout.drop hDrop) (Fanout.extends_drop hDrop)
    exact ⟨hFanout.fanout, hFanout.conns, hFanout.streams,
      forall_mem_modify hFanout.forwarders fun _ hOld => hOld⟩

theorem sound_run {groupCapacity} (hRun : Run (step checks) Always (new groupCapacity) r) :
    r.Sound := by
  refine hRun.invariant ⟨Fanout.Sound.new groupCapacity, nofun, nofun, nofun⟩ ?_
  intro r r' e hSound _ hStep
  exact sound_move hSound (move_of_step hStep)

/-! ## What a forwarder is handed -/

def between (r : Relay) (w : Forwarder) (sub : Subscription) : List Object :=
  ((r.fanout.acceptedOf sub.track).take sub.since).drop w.confirmedAt

/-- **A confirmed subscription.** The receiver of the forwarder does not lag (`hLag`), and what was
accepted between SUBSCRIBE_OK and the subscription is of the newest group, which is replayed
(`hBetween`). Then everything accepted after SUBSCRIBE_OK is in the replay or in the live stream. -/
theorem confirmed_complete {groupCapacity : Nat}
    (hRun : Run (step checks) Always (new groupCapacity) r) {w : Forwarder}
    (hw : w ∈ r.forwarders) {sub : Subscription} (hSub : r.fanout.subs.lookup w.sub = some sub)
    (hLag : r.fanout.isLagging w.sub sub = false)
    (hBetween : ∀ o ∈ r.between w sub, w.req.start = .latestGroup ∧
      o ∈ newestGroup ((r.fanout.acceptedOf w.req.track).take sub.since)) :
    ∀ o ∈ (r.fanout.acceptedOf w.req.track).drop w.confirmedAt,
      o ∈ sub.replay ∨ o ∈ r.fanout.live w.sub sub := by
  have hSound := sound_run hRun
  obtain ⟨hTrack, hStart, hSince⟩ := (hSound.forwarders w hw).2 sub hSub
  have hServed := hSound.fanout.subs w.sub sub hSub
  intro o ho
  -- the objects since SUBSCRIBE_OK are those before and those after the subscription
  have hSplit : (r.fanout.acceptedOf sub.track).drop w.confirmedAt =
      r.between w sub ++ (r.fanout.acceptedOf sub.track).drop sub.since := by
    have hLen := hServed.since
    rw [between, ← List.drop_append_of_le_length, List.take_append_drop]
    rw [List.length_take]
    omega
  rw [← hTrack, hSplit] at ho
  rcases List.mem_append.mp ho with hBefore | hAfter
  · obtain ⟨hLatest, hNewest⟩ := hBetween o hBefore
    have hReplays := hServed.replays
    rw [Subscription.Replays, hStart, hLatest] at hReplays
    rw [← hTrack] at hNewest
    exact .inl (hReplays.1.mem_iff.mpr hNewest)
  · rw [hSound.fanout.live_eq hSub hLag]
    exact .inr hAfter

/-! ## A publisher and a subscriber -/

open HubSystem (video frame)

def greet (c : Nat) (role : Role) : List RelayEvent :=
  [.accept, .recv c (.message (.setup protoVersion role)), .send c true]

/-- An object comes in on group stream 0 and is published, in so many steps. -/
def publish (objectId : UInt64) (steps : Nat) : List RelayEvent :=
  .read 0 (.message (.object (frame objectId))) ::
    List.replicate steps (.work 0 (.stored TrackId))

/-- Object 1 is published after the SUBSCRIBE_OK of a subscriber, and before its handler subscribes
at the hub. -/
def lateSubscription (start : StartMode) : List RelayEvent :=
  greet 0 .publisher ++
    [.stream 0, .read 0 (.message (.groupHeader (.full video) 1)), .work 0 (.stored TrackId)] ++
    publish 0 4 ++ greet 1 .subscriber ++
    [.recv 1 (.message (.subscribe 7 3 video start 0)), .send 1 true] ++ publish 1 3 ++
    [.act 1, .send 1 true, .act 1, .act 1, .act 1] ++ publish 2 3

/-- From the latest group, the object in between is replayed. -/
theorem confirmed_complete_replayed : ∃ r w sub, Run (step true) Always (new 2) r ∧
    w ∈ r.forwarders ∧ r.fanout.subs.lookup w.sub = some sub ∧ r.between w sub = [frame 1] ∧
    ∀ o ∈ (r.fanout.acceptedOf w.req.track).drop w.confirmedAt,
      o ∈ sub.replay ∨ o ∈ r.fanout.live w.sub sub := by
  obtain ⟨r, hRun, hTest⟩ := exists_run_of_exec (step true) Always (new 2)
    (lateSubscription .latestGroup)
    (fun r => r.forwarders.head?.any fun (w : Forwarder) =>
      (r.fanout.subs.lookup w.sub).any fun (sub : Subscription) =>
        decide (r.fanout.isLagging w.sub sub = false ∧ r.between w sub = [frame 1] ∧
          w.req.start = .latestGroup ∧
          frame 1 ∈ newestGroup ((r.fanout.acceptedOf w.req.track).take sub.since)))
    (by decide +kernel)
  obtain ⟨w, hw, hTest⟩ := (Option.any_eq_true _ _).mp hTest
  obtain ⟨sub, hSub, hTest⟩ := (Option.any_eq_true _ _).mp hTest
  obtain ⟨hLag, hBetween, hStart, hNewest⟩ := of_decide_eq_true hTest
  have hMem : w ∈ r.forwarders := List.mem_of_head? hw
  refine ⟨r, w, sub, hRun, hMem, hSub, hBetween, confirmed_complete hRun hMem hSub hLag ?_⟩
  intro o ho
  rw [hBetween] at ho
  rw [List.mem_singleton.mp ho]
  exact ⟨hStart, hNewest⟩

/-- Object 1 is accepted after SUBSCRIBE_OK was sent, and is neither replayed nor received. -/
theorem not_confirmed_complete : ∃ r w sub, Run (step true) Always (new 2) r ∧
    w ∈ r.forwarders ∧ r.fanout.subs.lookup w.sub = some sub ∧
    r.fanout.isLagging w.sub sub = false ∧
    (∃ k, r.conns[w.conn]? = some k ∧ .subscribeOk w.req.subscribeId ∈ k.sent) ∧
    ∃ o ∈ (r.fanout.acceptedOf w.req.track).drop w.confirmedAt,
      o ∉ sub.replay ∧ o ∉ r.fanout.live w.sub sub := by
  obtain ⟨r, hRun, hTest⟩ := exists_run_of_exec (step true) Always (new 2)
    (lateSubscription .nextObject)
    (fun r => r.forwarders.head?.any fun (w : Forwarder) =>
      (r.fanout.subs.lookup w.sub).any fun (sub : Subscription) =>
        (r.conns[w.conn]?).any fun (k : Connection) =>
          decide (r.fanout.isLagging w.sub sub = false ∧ .subscribeOk w.req.subscribeId ∈ k.sent ∧
            frame 1 ∈ (r.fanout.acceptedOf w.req.track).drop w.confirmedAt ∧
            frame 1 ∉ sub.replay ∧ frame 1 ∉ r.fanout.live w.sub sub))
    (by decide +kernel)
  obtain ⟨w, hw, hTest⟩ := (Option.any_eq_true _ _).mp hTest
  obtain ⟨sub, hSub, hTest⟩ := (Option.any_eq_true _ _).mp hTest
  obtain ⟨k, hk, hTest⟩ := (Option.any_eq_true _ _).mp hTest
  obtain ⟨hLag, hOk, hAccepted, hReplay, hLive⟩ := of_decide_eq_true hTest
  exact ⟨r, w, sub, hRun, List.mem_of_head? hw, hSub, hLag, ⟨k, hk, hOk⟩, frame 1, hAccepted,
    hReplay, hLive⟩

end Relay

end DirectWire.Moq
