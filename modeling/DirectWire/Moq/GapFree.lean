import DirectWire.Moq.Hub

/-!
# MoQ — subscriptions without gaps

The snapshot of a subscription and its receiver are taken under the lock under which an object is
cached and sent, and no track ever has two states.
-/

namespace DirectWire.Moq

open Lib Outcome List

/-! ## What is kept -/

def Subscription.Replays (sub : Subscription) (before : List Object) : Prop :=
  match sub.start with
  | .latestGroup => sub.replay.Perm (newestGroup before) ∧ GroupCache.ByObjectId sub.replay
  | .nextObject => sub.replay = []

def Subscription.made (sub : Subscription) : TrackId × StartMode × List Object × Nat :=
  (sub.track, sub.start, sub.replay, sub.since)

variable {checks : Bool} {f f' : Fanout} {track track' : TrackId} {ref ref' id : Nat}
variable {st st' : TrackState} {obj : Object} {objs : List Object} {sub : Subscription}
variable {start : StartMode} {want : Want} {pc : Pc} {progress : Progress} {r : Returned}

namespace Fanout

/-- A subscription has its snapshot, and its receiver follows the channel of the
track. -/
structure Served (f : Fanout) (id : Nat) (sub : Subscription) : Prop where
  entry : f.hub.inner.lookup sub.track = some sub.ref
  since : sub.since ≤ (f.acceptedOf sub.track).length
  replays : sub.Replays ((f.acceptedOf sub.track).take sub.since)
  follows : ∃ st start next, f.hub.states[sub.ref]? = some st ∧
    st.sender.Follows id start next ((f.acceptedOf sub.track).drop sub.since) sub.got sub.lagged

structure Sound (f : Fanout) : Prop where
  tracks : ∀ track ref, f.hub.inner.lookup track = some ref →
    ∃ st, f.hub.states[ref]? = some st ∧ st.cache.Keeps (f.acceptedOf track)
  distinct : ∀ track track' ref, f.hub.inner.lookup track = some ref →
    f.hub.inner.lookup track' = some ref → track = track'
  fresh : ∀ track, f.hub.inner.lookup track = none → f.acceptedOf track = []
  subs : Map.All f.Served f.subs
  issued : Map.All (fun id _ => id < f.issued) f.subs

theorem Sound.new (groupCapacity : Nat) : (new groupCapacity).Sound where
  tracks _ _ h := by cases h
  distinct _ _ _ h := by cases h
  fresh _ _ := rfl
  subs := Map.All.empty
  issued := Map.All.empty

theorem acceptedOf_update : (f.update track ref st' objs).acceptedOf track' =
    f.acceptedOf track' ++ if track' = track then objs else [] := by
  unfold acceptedOf update
  rw [filter_append, map_append]
  congr 1
  split
  · rename_i hSame
    simp [hSame, filter_map, Function.comp_def]
  · rename_i hOther
    simp [Ne.symm hOther, filter_map, Function.comp_def]

theorem states_update_self (hState : f.hub.states[ref]? = some st) :
    (f.update track ref st' objs).hub.states[ref]? = some st' := by
  have hLt := (List.getElem?_eq_some_iff.mp hState).1
  exact List.getElem?_set_self hLt

theorem states_update_of_ne (h : ref' ≠ ref) :
    (f.update track ref st' objs).hub.states[ref']? = f.hub.states[ref']? :=
  getElem?_set_ne (Ne.symm h)

section

variable (hRef : f.hub.inner.lookup track = some ref) (hState : f.hub.states[ref]? = some st)

include hRef hState

theorem Served.update (h : f.Served id sub) (hSound : f.Sound)
    (hFollows : ∀ start next sent, st.sender.Follows id start next sent sub.got sub.lagged →
      st'.sender.Follows id start next (sent ++ objs) sub.got sub.lagged) :
    (f.update track ref st' objs).Served id sub := by
  obtain ⟨stOld, start, next, hOld, hOldFollows⟩ := h.follows
  have hSince := h.since
  -- what is accepted now comes after the subscription
  have hTake : ((f.update track ref st' objs).acceptedOf sub.track).take sub.since =
      (f.acceptedOf sub.track).take sub.since := by
    rw [acceptedOf_update, take_append_of_le_length hSince]
  refine ⟨h.entry, ?_, hTake ▸ h.replays, ?_⟩
  · rw [acceptedOf_update, length_append]
    omega
  · rw [acceptedOf_update, drop_append_of_le_length hSince]
    by_cases hSame : sub.track = track
    · -- one track has one state
      obtain rfl : sub.ref = ref := by
        have hEntry := h.entry
        rw [hSame, hRef] at hEntry
        exact (Option.some_inj.mp hEntry).symm
      obtain rfl : st = stOld := Option.some_inj.mp (hState.symm.trans hOld)
      rw [if_pos hSame]
      exact ⟨st', start, next, states_update_self hState, hFollows start next _ hOldFollows⟩
    · have hOther : sub.ref ≠ ref := by
        intro hEq
        exact hSame (hSound.distinct _ _ _ h.entry (hEq ▸ hRef))
      rw [if_neg hSame, append_nil]
      exact ⟨stOld, start, next, (states_update_of_ne hOther).trans hOld, hOldFollows⟩

theorem Sound.update (h : f.Sound) (st' : TrackState)
    (hKeeps : st'.cache.Keeps (f.acceptedOf track ++ objs)) (subs : Map Nat Subscription)
    (issued : Nat) (hSubs : Map.All (f.update track ref st' objs).Served subs)
    (hIssued : Map.All (fun id _ => id < issued) subs) :
    { f.update track ref st' objs with subs, issued }.Sound where
  tracks track' ref' hRef' := by
    show ∃ st, (f.update track ref st' objs).hub.states[ref']? = some st ∧
      st.cache.Keeps ((f.update track ref st' objs).acceptedOf track')
    rw [acceptedOf_update]
    by_cases hSame : track' = track
    · have hSameRef : ref' = ref := by
        rw [hSame] at hRef'
        exact Option.some_inj.mp (hRef'.symm.trans hRef)
      rw [hSameRef, hSame, if_pos rfl]
      exact ⟨st', states_update_self hState, hKeeps⟩
    · have hOther : ref' ≠ ref := by
        rintro rfl
        exact hSame (h.distinct _ _ _ hRef' hRef)
      rw [if_neg hSame, append_nil, states_update_of_ne hOther]
      exact h.tracks track' ref' hRef'
  distinct := h.distinct
  fresh track' hNone := by
    show (f.update track ref st' objs).acceptedOf track' = []
    have hOther : track' ≠ track := by
      rintro rfl
      cases hNone.symm.trans hRef
    rw [acceptedOf_update, if_neg hOther, append_nil]
    exact h.fresh track' hNone
  subs id sub hSub := by
    obtain ⟨entry, since, replays, follows⟩ := hSubs id sub hSub
    exact ⟨entry, since, replays, follows⟩
  issued := hIssued

omit hRef hState in
theorem Sound.of_frame (h : f.Sound) (namespaces : Finset String) (innerPoisoned : Bool) :
    { f with hub := { f.hub with namespaces, innerPoisoned } }.Sound where
  tracks := h.tracks
  distinct := h.distinct
  fresh := h.fresh
  subs id sub hSub := by
    obtain ⟨entry, since, replays, follows⟩ := h.subs id sub hSub
    exact ⟨entry, since, replays, follows⟩
  issued := h.issued

theorem Served.renew (h : f.Served id sub) (hSound : f.Sound)
    (hFollows : ∀ start next sent, st.sender.Follows id start next sent sub.got sub.lagged →
      st'.sender.Follows id start next sent sub.got sub.lagged) :
    (f.update track ref st' []).Served id sub := by
  refine h.update hRef hState hSound fun start next sent hOld => ?_
  rw [append_nil]
  exact hFollows start next sent hOld

theorem Sound.renew (h : f.Sound) (st' : TrackState) (hKeeps : st'.cache.Keeps (f.acceptedOf track))
    (subs : Map Nat Subscription) (issued : Nat)
    (hSubs : Map.All (f.update track ref st' []).Served subs)
    (hIssued : Map.All (fun id _ => id < issued) subs) :
    { f.update track ref st' [] with subs, issued }.Sound := by
  refine h.update hRef hState st' ?_ subs issued hSubs hIssued
  rw [append_nil]
  exact hKeeps

theorem Sound.keeps (h : f.Sound) : st.cache.Keeps (f.acceptedOf track) := by
  obtain ⟨stOld, hOld, hKeeps⟩ := h.tracks track ref hRef
  obtain rfl : st = stOld := Option.some_inj.mp (hState.symm.trans hOld)
  exact hKeeps

end

/-! ## Each step of a call -/

theorem lookup_addTrack (hub : Hub) (track track' : TrackId) (st : TrackState) :
    (hub.addTrack track st).inner.lookup track' =
      if track' = track then some hub.states.length else hub.inner.lookup track' :=
  Map.lookup_insert_ite _ _ _ _

theorem states_addTrack {hub : Hub} (hState : hub.states[ref]? = some st') :
    (hub.addTrack track st).states[ref]? = some st' := by
  have hLt := (List.getElem?_eq_some_iff.mp hState).1
  exact (List.getElem?_append_left hLt).trans hState

section

variable (h : f.Sound)

include h

theorem Sound.ref_lt (hRef : f.hub.inner.lookup track = some ref) : ref < f.hub.states.length := by
  obtain ⟨st, hState, -⟩ := h.tracks track ref hRef
  exact (List.getElem?_eq_some_iff.mp hState).1

theorem Sound.addTrack (hNone : f.hub.inner.lookup track = none) (hKeeps : st.cache.Keeps []) :
    { f with hub := f.hub.addTrack track st }.Sound := by
  refine ⟨?_, ?_, ?_, ?_, h.issued⟩
  · intro track' ref hRef
    rw [lookup_addTrack] at hRef
    split at hRef
    · rename_i hSame
      cases hRef
      refine ⟨st, getElem?_concat_length, ?_⟩
      show st.cache.Keeps (f.acceptedOf track')
      rw [hSame, h.fresh track hNone]
      exact hKeeps
    · obtain ⟨st', hState, hKeeps'⟩ := h.tracks track' ref hRef
      exact ⟨st', states_addTrack hState, hKeeps'⟩
  · intro track₁ track₂ ref hRef₁ hRef₂
    rw [lookup_addTrack] at hRef₁ hRef₂
    -- the places before are below the new one
    split at hRef₁ <;> split at hRef₂
    · rename_i h₁ h₂
      rw [h₁, h₂]
    · cases hRef₁
      exact absurd (h.ref_lt hRef₂) (Nat.lt_irrefl _)
    · cases hRef₂
      exact absurd (h.ref_lt hRef₁) (Nat.lt_irrefl _)
    · exact h.distinct track₁ track₂ ref hRef₁ hRef₂
  · intro track' hNone'
    rw [lookup_addTrack] at hNone'
    split at hNone'
    · cases hNone'
    · exact h.fresh track' hNone'
  · intro id sub hSub
    obtain ⟨entry, since, replays, st', start, next, hState, follows⟩ := h.subs id sub hSub
    refine ⟨?_, since, replays, st', start, next, states_addTrack hState, follows⟩
    have hOther : sub.track ≠ track := by
      intro hSame
      rw [hSame, hNone] at entry
      cases entry
    rw [lookup_addTrack, if_neg hOther]
    exact entry

theorem Sound.publishLocked (hRef : f.hub.inner.lookup track = some ref)
    (hState : f.hub.states[ref]? = some st) :
    (f.publishLocked checks track ref st obj).1.Sound := by
  have hKeeps := h.keeps hRef hState
  unfold Fanout.publishLocked
  split
  · exact h
  · split
    · -- accepted: cached and sent in one step
      rename_i cache hInsert
      refine h.update hRef hState _ (hKeeps.insert hInsert) f.subs f.issued ?_ h.issued
      intro id sub hSub
      exact (h.subs id sub hSub).update hRef hState h fun _ _ _ hFollows => hFollows.send obj
    · rename_i cache hInsert
      refine h.renew hRef hState _ (hKeeps.insert hInsert) f.subs f.issued ?_ h.issued
      intro id sub hSub
      exact (h.subs id sub hSub).renew hRef hState h fun _ _ _ hFollows => hFollows
    · refine h.renew hRef hState { st with poisoned := true } hKeeps f.subs f.issued ?_ h.issued
      intro id sub hSub
      exact (h.subs id sub hSub).renew hRef hState h fun _ _ _ hFollows => hFollows
    · contradiction

theorem Sound.subscribeLocked (hRef : f.hub.inner.lookup track = some ref)
    (hState : f.hub.states[ref]? = some st) : (f.subscribeLocked track ref st start).1.Sound := by
  have hKeeps := h.keeps hRef hState
  unfold Fanout.subscribeLocked
  split
  · exact h
  · let st' := { st with sender := st.sender.subscribe f.issued }
    have hSame : (f.update track ref st' []).acceptedOf track = f.acceptedOf track := by
      rw [acceptedOf_update, if_pos rfl, append_nil]
    refine h.renew hRef hState st' hKeeps _ _ (Map.All.insert ?_ ?_) (Map.All.insert ?_ ?_)
    · intro id sub hSub
      refine (h.subs id sub hSub).renew hRef hState h fun _ _ _ hFollows => ?_
      exact hFollows.of_receivers _ (AList.lookup_insert_ne (Nat.ne_of_lt (h.issued id sub hSub)))
    · -- the snapshot and the receiver are of one moment
      refine ⟨hRef, ?_, ?_, st', st.sender.tail, st.sender.tail, states_update_self hState, ?_⟩
      · exact hSame ▸ Nat.le_refl _
      · rw [hSame, take_length]
        cases start with
        | latestGroup => exact hKeeps.snapshot
        | nextObject => exact rfl
      · rw [hSame, drop_length]
        exact Broadcast.Follows.of_subscribe
    · exact h.issued.imp fun id _ hLt => Nat.lt_succ_of_lt hLt
    · exact Nat.lt_succ_self _

theorem Sound.entryLocked : (f.entryLocked track want).1.Sound := by
  unfold Fanout.entryLocked
  split
  · exact h
  · rename_i hNone
    split
    · rename_i st hNew
      obtain ⟨cache, hCache, hSt⟩ := bind_eq_ok.mp hNew
      cases hSt
      exact h.addTrack hNone (GroupCache.Keeps.new hCache)
    · exact h.of_frame _ _
    · contradiction

theorem Sound.recv (hRecv : f.recv id = some f') : f'.Sound := by
  obtain ⟨sub, hSub, hRecv⟩ := Option.bind_eq_some_iff.mp hRecv
  obtain ⟨st, hState, hRecv⟩ := Option.bind_eq_some_iff.mp hRecv
  obtain ⟨⟨r, sender⟩, hReceived, hRecv⟩ := Option.bind_eq_some_iff.mp hRecv
  cases hRecv
  have hServed := h.subs id sub hSub
  have hRef := hServed.entry
  have hKeeps := h.keeps hRef hState
  refine h.renew hRef hState { st with sender } hKeeps _ _ ?_
    (h.issued.insert (h.issued id sub hSub))
  intro id' sub' hSub'
  rw [Map.lookup_insert_ite] at hSub'
  split at hSub'
  · -- the receiver itself
    rename_i hSame
    cases hSub'
    obtain ⟨entry, since, replays, stOld, start, next, hOld, hFollows⟩ := hServed
    obtain rfl : st = stOld := Option.some_inj.mp (hState.symm.trans hOld)
    obtain ⟨next', hNext⟩ := hFollows.recv hReceived
    have hAccepted : (f.update sub.track sub.ref { st with sender } []).acceptedOf sub.track =
        f.acceptedOf sub.track := by
      rw [acceptedOf_update, if_pos rfl, append_nil]
    refine ⟨entry, hAccepted ▸ since, hAccepted ▸ replays, _, start, next',
      states_update_self hState, ?_⟩
    rw [hAccepted, hSame]
    exact hNext
  · rename_i hOther
    obtain ⟨receivers, rfl, hSame⟩ := Broadcast.recv_receivers hReceived
    refine (h.subs id' sub' hSub').renew hRef hState h fun _ _ _ hFollows => ?_
    exact hFollows.of_receivers receivers (hSame id' hOther)

theorem Sound.drop (hDrop : f.drop id = some f') : f'.Sound := by
  obtain ⟨sub, hSub, hDrop⟩ := Option.bind_eq_some_iff.mp hDrop
  obtain ⟨st, hState, hDrop⟩ := Option.bind_eq_some_iff.mp hDrop
  cases hDrop
  have hRef := (h.subs id sub hSub).entry
  have hKeeps := h.keeps hRef hState
  refine h.renew hRef hState { st with sender := st.sender.leave id } hKeeps _ _ ?_ h.issued.erase
  intro id' sub' hSub'
  rw [Map.lookup_erase_ite] at hSub'
  split at hSub'
  · cases hSub'
  · rename_i hOther
    refine (h.subs id' sub' hSub').renew hRef hState h fun _ _ _ hFollows => ?_
    exact hFollows.of_receivers _ (AList.lookup_erase_ne hOther)

end

end Fanout

def Pc.Valid (hub : Hub) : Pc → Prop
  | .naming track ref _ | .publishing track ref _ | .subscribing track ref _ =>
    hub.inner.lookup track = some ref
  | .declaring _ | .announcing _ | .looking _ _ | .creating _ _ => True

def Progress.Valid (hub : Hub) : Progress → Prop
  | .goOn pc => pc.Valid hub
  | .returned _ => True

theorem Want.found_valid {hub track ref} (h : hub.inner.lookup track = some ref) (want : Want) :
    (want.found track ref).Valid hub := by
  cases want with
  | announce => trivial
  | publish | subscribe => exact h

namespace Fanout

variable {f'' : Fanout}

/-- A track stays in the map, with its state, what is accepted stays so, and a
subscription stays what it was made. -/
structure Extends (f f' : Fanout) : Prop where
  inner : ∀ track ref, f.hub.inner.lookup track = some ref → f'.hub.inner.lookup track = some ref
  accepted : ∃ more, f'.accepted = f.accepted ++ more
  issued : f.issued ≤ f'.issued
  subs : ∀ id sub', f'.subs.lookup id = some sub' → id < f.issued →
    ∃ sub, f.subs.lookup id = some sub ∧ sub'.made = sub.made

theorem Extends.of_subs
    (hInner : ∀ track ref, f.hub.inner.lookup track = some ref →
      f'.hub.inner.lookup track = some ref)
    (hAccepted : ∃ more, f'.accepted = f.accepted ++ more) (hIssued : f'.issued = f.issued)
    (hSubs : f'.subs = f.subs) : f.Extends f' :=
  ⟨hInner, hAccepted, Nat.le_of_eq hIssued.symm, fun _ sub' h _ => ⟨sub', hSubs ▸ h, rfl⟩⟩

theorem Extends.refl (f : Fanout) : f.Extends f :=
  .of_subs (fun _ _ h => h) ⟨[], (append_nil _).symm⟩ rfl rfl

theorem Extends.announceNamespace (f : Fanout) (ns : String) :
    f.Extends { f with hub := f.hub.announceNamespace ns } :=
  .of_subs (fun _ _ h => h) ⟨[], (append_nil _).symm⟩ rfl rfl

theorem Extends.valid (h : f.Extends f') (hPc : pc.Valid f.hub) : pc.Valid f'.hub := by
  cases pc with
  | naming track ref | publishing track ref | subscribing track ref =>
    exact h.inner track ref hPc
  | declaring | announcing | looking | creating => trivial

theorem Extends.acceptedOf (h : f.Extends f') (track : TrackId) :
    ∃ more, f'.acceptedOf track = f.acceptedOf track ++ more := by
  obtain ⟨more, hMore⟩ := h.accepted
  refine ⟨(more.filter fun e => e.1 = track).map Prod.snd, ?_⟩
  rw [Fanout.acceptedOf, hMore, filter_append, map_append]
  rfl

theorem extends_publishLocked {st obj} : f.Extends (f.publishLocked checks track ref st obj).1 := by
  unfold publishLocked
  split
  · exact Extends.refl f
  · split
    iterate 3 exact .of_subs (fun _ _ h => h) ⟨_, rfl⟩ rfl rfl
    · contradiction

theorem extends_subscribeLocked {st start} :
    f.Extends (f.subscribeLocked track ref st start).1 := by
  unfold subscribeLocked
  split
  · exact Extends.refl f
  · refine ⟨fun _ _ h => h, ⟨_, rfl⟩, Nat.le_succ _, fun id sub' hSub hLt => ?_⟩
    exact ⟨sub', (AList.lookup_insert_ne (Nat.ne_of_lt hLt)).symm.trans hSub, rfl⟩

theorem extends_entryLocked (f : Fanout) (track : TrackId) (want : Want) :
    f.Extends (f.entryLocked track want).1 ∧
    (f.entryLocked track want).2.Valid (f.entryLocked track want).1.hub := by
  unfold entryLocked
  split
  · rename_i ref hRef
    exact ⟨Extends.refl f, want.found_valid hRef⟩
  · rename_i hNone
    split
    · refine ⟨.of_subs (fun track' ref hRef => ?_) ⟨[], (append_nil _).symm⟩ rfl rfl,
        want.found_valid (AList.lookup_insert _)⟩
      have hOther : track' ≠ track := by
        rintro rfl
        cases hNone.symm.trans hRef
      exact (AList.lookup_insert_ne hOther).trans hRef
    · exact ⟨.of_subs (fun _ _ h => h) ⟨[], (append_nil _).symm⟩ rfl rfl, trivial⟩
    · contradiction

/-- What every interleaving of calls keeps (`Fanout.Sound`). -/
theorem advance_sound (h : f.Sound) (hPc : pc.Valid f.hub)
    (hStep : f.advance checks pc = some (f', progress)) :
    f'.Sound ∧ f.Extends f' ∧ progress.Valid f'.hub := by
  have hSame : f.Extends f := Extends.refl f
  cases pc with
  | declaring ns | announcing track =>
    cases hStep
    exact ⟨h.of_frame _ _, Extends.announceNamespace f _, trivial⟩
  | looking track want =>
    rw [advance] at hStep
    split at hStep
    · cases hStep
      exact ⟨h, hSame, trivial⟩
    · split at hStep
      · rename_i ref hRef
        cases hStep
        exact ⟨h, hSame, want.found_valid hRef⟩
      · cases hStep
        exact ⟨h, hSame, trivial⟩
  | creating track want =>
    rw [advance] at hStep
    split at hStep
    · cases hStep
      exact ⟨h, hSame, trivial⟩
    · -- the second look, under the write lock
      have hEntry : f.entryLocked track want = (f', progress) := Option.some_inj.mp hStep
      have hSound : (f.entryLocked track want).1.Sound := h.entryLocked
      have hExtends := extends_entryLocked f track want
      rw [hEntry] at hSound hExtends
      exact ⟨hSound, hExtends⟩
  | naming track ref obj =>
    cases hStep
    exact ⟨h.of_frame _ _, Extends.announceNamespace f _, hPc⟩
  | publishing track ref obj =>
    obtain ⟨st, hState, hStep⟩ := Option.bind_eq_some_iff.mp hStep
    cases hStep
    exact ⟨h.publishLocked hPc hState, extends_publishLocked, trivial⟩
  | subscribing track ref start =>
    obtain ⟨st, hState, hStep⟩ := Option.bind_eq_some_iff.mp hStep
    cases hStep
    exact ⟨h.subscribeLocked hPc hState, extends_subscribeLocked, trivial⟩

theorem extends_recv (h : f.recv id = some f') : f.Extends f' := by
  obtain ⟨sub, hSub, h⟩ := Option.bind_eq_some_iff.mp h
  obtain ⟨st, -, h⟩ := Option.bind_eq_some_iff.mp h
  obtain ⟨r, -, h⟩ := Option.bind_eq_some_iff.mp h
  cases h
  refine ⟨fun _ _ h => h, ⟨_, rfl⟩, Nat.le_refl _, fun id' sub' hSub' _ => ?_⟩
  rw [Map.lookup_insert_ite] at hSub'
  split at hSub'
  · rename_i hSame
    cases hSub'
    exact ⟨sub, hSame ▸ hSub, rfl⟩
  · exact ⟨sub', hSub', rfl⟩

theorem extends_drop (h : f.drop id = some f') : f.Extends f' := by
  obtain ⟨sub, -, h⟩ := Option.bind_eq_some_iff.mp h
  obtain ⟨st, -, h⟩ := Option.bind_eq_some_iff.mp h
  cases h
  refine ⟨fun _ _ h => h, ⟨_, rfl⟩, Nat.le_refl _, fun id' sub' hSub' _ => ?_⟩
  rw [Map.lookup_erase_ite] at hSub'
  split at hSub'
  · cases hSub'
  · exact ⟨sub', hSub', rfl⟩

theorem Sound.live_eq (h : f.Sound) (hSub : f.subs.lookup id = some sub)
    (hLag : f.isLagging id sub = false) :
    f.live id sub = (f.acceptedOf sub.track).drop sub.since := by
  obtain ⟨-, -, -, st, start, next, hState, hFollows⟩ := h.subs id sub hSub
  rw [isLagging, hState, Bool.or_eq_false_iff] at hLag
  rw [live, hState]
  exact hFollows.live hLag.1 hLag.2

end Fanout

/-! ## Every interleaving -/

namespace HubSystem

/-- The hub is sound, and every thread holds the state of its track. -/
structure Sound (s : HubSystem) : Prop where
  fanout : s.fanout.Sound
  threads : Map.All (fun _ pc => pc.Valid s.fanout.hub) s.threads

theorem sound_step {checks : Bool} {s s' : HubSystem} {e : HubEvent} (h : s.Sound)
    (hStep : s.step checks e = some s') : s'.Sound := by
  cases e with
  | call thread call =>
    rw [step] at hStep
    split at hStep
    · cases hStep
    · cases hStep
      exact ⟨h.fanout, h.threads.insert (by cases call <;> trivial)⟩
  | act thread =>
    obtain ⟨pc, hPc, hStep⟩ := Option.bind_eq_some_iff.mp hStep
    obtain ⟨⟨fanout, progress⟩, hAdvance, hStep⟩ := Option.bind_eq_some_iff.mp hStep
    obtain ⟨hSound, hExtends, hValid⟩ :=
      Fanout.advance_sound h.fanout (h.threads thread pc hPc) hAdvance
    have hThreads : Map.All (fun _ pc => pc.Valid fanout.hub) s.threads :=
      h.threads.imp fun _ _ hOld => hExtends.valid hOld
    cases progress with
    | goOn pc =>
      cases hStep
      exact ⟨hSound, hThreads.insert hValid⟩
    | returned r =>
      cases hStep
      exact ⟨hSound, hThreads.erase⟩
  | recv id =>
    obtain ⟨fanout, hRecv, hStep⟩ := Option.bind_eq_some_iff.mp hStep
    cases hStep
    have hExtends := Fanout.extends_recv hRecv
    exact ⟨h.fanout.recv hRecv, h.threads.imp fun _ _ hOld => hExtends.valid hOld⟩
  | drop id =>
    obtain ⟨fanout, hDrop, hStep⟩ := Option.bind_eq_some_iff.mp hStep
    cases hStep
    have hExtends := Fanout.extends_drop hDrop
    exact ⟨h.fanout.drop hDrop, h.threads.imp fun _ _ hOld => hExtends.valid hOld⟩

theorem sound_run {checks groupCapacity s} (hRun : Run (step checks) Always (new groupCapacity) s) :
    s.Sound := by
  refine hRun.invariant ⟨Fanout.Sound.new groupCapacity, Map.All.empty⟩ ?_
  intro s s' e hSound _ hStep
  exact sound_step hSound hStep

/-- **A view without gaps.** A subscription from the latest group replays what was accepted of it,
one from the next object nothing. If its receiver does not lag, its live stream is what is accepted
after it. -/
theorem gap_free {checks : Bool} {groupCapacity : Nat} {s : HubSystem} {id : Nat}
    {sub : Subscription} (hRun : Run (step checks) Always (new groupCapacity) s)
    (hSub : s.fanout.subs.lookup id = some sub) :
    (sub.start = .latestGroup →
      sub.replay.Perm (newestGroup ((s.fanout.acceptedOf sub.track).take sub.since)) ∧
      GroupCache.ByObjectId sub.replay) ∧
    (sub.start = .nextObject → sub.replay = []) ∧
    (s.fanout.isLagging id sub = false →
      s.fanout.live id sub = (s.fanout.acceptedOf sub.track).drop sub.since ∧
      (sub.start = .latestGroup → (sub.replay ++ s.fanout.live id sub).Perm
        (newestGroup ((s.fanout.acceptedOf sub.track).take sub.since) ++
          (s.fanout.acceptedOf sub.track).drop sub.since))) := by
  have hSound := (sound_run hRun).fanout
  have hReplays := (hSound.subs id sub hSub).replays
  rw [Subscription.Replays] at hReplays
  refine ⟨fun hStart => ?_, fun hStart => ?_, fun hLag => ?_⟩
  · rw [hStart] at hReplays
    exact hReplays
  · rw [hStart] at hReplays
    exact hReplays
  · have hLive := hSound.live_eq hSub hLag
    refine ⟨hLive, fun hStart => ?_⟩
    rw [hStart] at hReplays
    rw [hLive]
    exact hReplays.1.append_right _

def video : TrackId := ⟨"live/camera-01", "video"⟩

def frame (objectId : UInt64) : Object := ⟨1, objectId, 0, 0, []⟩

/-- A publisher and a subscriber both find no state for the track. The second
one under the write lock takes the state of the first. -/
def racing : List HubEvent :=
  [.call 1 (.publish video (frame 0)), .call 2 (.subscribe video .latestGroup), .act 1, .act 2,
    .act 1, .act 2, .act 1, .act 1, .act 2, .call 1 (.publish video (frame 1)), .act 1, .act 1,
    .act 1, .recv 0]

theorem gap_free_racing : ∃ s sub, Run (step true) Always (new 2) s ∧
    s.fanout.subs.lookup 0 = some sub ∧ sub.replay = [frame 0] ∧ sub.got = [frame 1] ∧
    s.fanout.live 0 sub = (s.fanout.acceptedOf sub.track).drop sub.since := by
  obtain ⟨s, hRun, hTest⟩ := exists_run_of_exec (step true) Always (new 2) racing
    (fun s => (s.fanout.subs.lookup 0).any fun (sub : Subscription) =>
      decide (sub.replay = [frame 0] ∧ sub.got = [frame 1] ∧ s.fanout.isLagging 0 sub = false))
    (by decide +kernel)
  obtain ⟨sub, hSub, hTest⟩ := (Option.any_eq_true _ _).mp hTest
  obtain ⟨hReplay, hGot, hLag⟩ := of_decide_eq_true hTest
  exact ⟨s, sub, hRun, hSub, hReplay, hGot, ((gap_free hRun hSub).2.2 hLag).1⟩

end HubSystem

end DirectWire.Moq
