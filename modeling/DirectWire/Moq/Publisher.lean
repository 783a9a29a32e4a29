import DirectWire.Moq.Aliases

/-!
# MoQ — publishers beside the relay

The publisher of `client.rs`: its control task notes the aliases the relay sends, and `begin_group`
uses them. `Live` is the relay with any number of publishers.
-/

namespace DirectWire.Moq

open Lib Outcome List Option

structure Publisher where
  taken : Nat
  running : Bool
  aliases : Map TrackId UInt64

namespace Publisher

def connected : Publisher := ⟨1, true, ∅⟩

def onMessage (p : Publisher) : Message → Publisher
  | .announceOk _ => p
  | .subscribe _ trackAlias track _ _ => { p with aliases := p.aliases.insert track trackAlias }
  | .goaway _ => { p with running := false }
  | _ => p

def aliasOf (p : Publisher) (track : TrackId) : Option UInt64 := p.aliases.lookup track

def beginGroup (p : Publisher) (track : TrackId) (groupId : UInt64) : Message :=
  let trackRef : TrackRef :=
    match p.aliasOf track with
    | some a => .byAlias a
    | none => .full track
  .groupHeader trackRef groupId

end Publisher

structure Live where
  relay : Relay
  publishers : Map Nat Publisher
  /-- The headers that were made, each with its track. -/
  headers : List (TrackId × Message)

inductive LiveEvent where
  | relay (e : RelayEvent)
  | connect (c : Nat)
  | control (c : Nat)
  /-- `recv` of its control task fails. -/
  | lose (c : Nat)
  | beginGroup (c : Nat) (track : TrackId) (groupId : UInt64)

def Relay.draws (r : Relay) : RelayEvent → Bool
  | .act c => (r.conns[c]?).any fun k =>
    match k.handler with
    | .binding req _ => (r.publishers.lookup req.track).any fun reg => reg.trackAlias.isNone
    | _ => false
  | _ => false

namespace Live

def new (groupCapacity : Nat) : Live := ⟨.new groupCapacity, ∅, []⟩

def step (checks : Bool) (s : Live) : LiveEvent → Option Live
  | .relay e => do
    let relay ← s.relay.step checks e
    some { s with relay }
  | .connect c => do
    let k ← s.relay.conns[c]?
    match s.publishers.lookup c, k.sent.head? with
    | none, some (.setup ..) => some { s with publishers := s.publishers.insert c .connected }
    | _, _ => none
  | .control c => do
    let k ← s.relay.conns[c]?
    let p ← s.publishers.lookup c
    if p.running then
      let m ← k.sent[p.taken]?
      let p := { p with taken := p.taken + 1 }.onMessage m
      some { s with publishers := s.publishers.insert c p }
    else none
  | .lose c => do
    let p ← s.publishers.lookup c
    some { s with publishers := s.publishers.insert c { p with running := false } }
  | .beginGroup c track groupId => do
    let p ← s.publishers.lookup c
    some { s with headers := s.headers ++ [(track, p.beginGroup track groupId)] }

def fresh (s : Live) : LiveEvent → Bool
  | .relay e => !s.relay.draws e || s.relay.nextAlias != 0
  | _ => true

end Live

/-! ## Resolving -/

namespace Relay

variable {checks : Bool} {r r' : Relay}

theorem draws_of_move {e} (hMove : Move checks r e r') (h : r'.nextAlias ≠ r.nextAlias) :
    r.draws e = true := by
  cases hMove with
  | draw hk hState hFree hReg hNone => simp [draws, hk, hState, hReg, hNone]
  | close =>
    exact absurd (congrArg Aliasing.nextAlias (aliasing_abortAll r _)) h
  | _ => exact absurd rfl h

theorem resolve_of_bound (h : r.aliasing.Agreed) (hFree : r.holder = none) {track x}
    (hBound : r.aliasing.Bound track x) (ord : HashOrder TrackId) (conn : Nat) :
    (r.resolveTrackRef ord conn (.byAlias x)).2 = some track := by
  obtain ⟨reg, hReg, hAlias⟩ | ⟨c, hPending⟩ := hBound
  · have hReg : r.publishers.lookup track = some reg := hReg
    have hKey : track ∈ r.publishers.iterKeys ord :=
      (ord.perm _).mem_iff.mpr (AList.lookup_isSome.mp (isSome_of_eq_some hReg))
    have hHas : ((r.publishers.lookup track).any fun reg => reg.trackAlias = some x) = true := by
      rw [hReg]
      exact decide_eq_true hAlias
    rw [Relay.resolveTrackRef]
    -- some track with the alias is found, and there is one only
    cases hFound : (r.publishers.iterKeys ord).find? fun track =>
        (r.publishers.lookup track).any fun reg => reg.trackAlias = some x with
    | none => exact absurd hHas (find?_eq_none.mp hFound track hKey)
    | some track' =>
      obtain ⟨reg', hReg', hAlias'⟩ := (any_eq_true _ _).mp
        (find?_some (p := fun track => (r.publishers.lookup track).any fun reg =>
          reg.trackAlias = some x) hFound)
      exact congrArg some
        (h.unique track' track reg' reg x hReg' hReg (of_decide_eq_true hAlias') hAlias)
  · cases (h.idle hFree c).symm.trans hPending

theorem exists_resolve {track reg x} (hReg : r.publishers.lookup track = some reg)
    (hAlias : reg.trackAlias = some x) (conn : Nat) :
    ∃ ord, (r.resolveTrackRef ord conn (.byAlias x)).2 = some track := by
  -- the order that begins with the track
  let ord : HashOrder TrackId := {
    order := fun keys => if track ∈ keys then track :: keys.erase track else keys
    perm := fun keys => by
      split
      · exact (perm_cons_erase ‹_›).symm
      · exact List.Perm.refl _ }
  have hKey : track ∈ r.publishers.keys := AList.lookup_isSome.mp (isSome_of_eq_some hReg)
  refine ⟨ord, ?_⟩
  rw [Relay.resolveTrackRef, Map.iterKeys]
  simp [ord, if_pos hKey, hReg, hAlias]

end Relay

/-! ## Agreement -/

namespace Live

def Names (a : Aliasing) (track : TrackId) (m : Message) : Prop :=
  ∃ groupId, m = .groupHeader (.full track) groupId ∨
    ∃ x, m = .groupHeader (.byAlias x) groupId ∧ a.Bound track x

structure Agreed (s : Live) : Prop where
  relay : s.relay.aliasing.Agreed
  publishers : ∀ c p, s.publishers.lookup c = some p →
    ∀ track x, p.aliasOf track = some x → s.relay.aliasing.Bound track x
  headers : ∀ h ∈ s.headers, Names s.relay.aliasing h.1 h.2

variable {checks : Bool} {s s' : Live}

theorem Agreed.setPublisher (h : s.Agreed) {c p}
    (hp : ∀ track x, p.aliasOf track = some x → s.relay.aliasing.Bound track x) :
    { s with publishers := s.publishers.insert c p }.Agreed := by
  refine ⟨h.relay, fun c' p' hp' => ?_, h.headers⟩
  rw [Map.lookup_insert_ite] at hp'
  split at hp'
  · cases hp'
    exact hp
  · exact h.publishers c' p' hp'

theorem Agreed.onMessage (h : s.Agreed) {c : Nat} {k : Connection} {p : Publisher} {m : Message}
    (hk : s.relay.conns[c]? = some k) (hm : m ∈ k.sent)
    (hp : ∀ track x, p.aliasOf track = some x → s.relay.aliasing.Bound track x) :
    ∀ track x, (p.onMessage m).aliasOf track = some x → s.relay.aliasing.Bound track x := by
  intro track x hx
  cases m with
  | subscribe subscribeId trackAlias track' start priority =>
    rw [Publisher.onMessage, Publisher.aliasOf, Map.lookup_insert_ite] at hx
    split at hx
    · rename_i hTrack
      cases hx
      subst hTrack
      -- the relay has sent it
      refine h.relay.told c (track, x) ?_
      simp only [Relay.aliasing, hk, elim_some, mem_filterMap]
      exact ⟨_, hm, rfl⟩
    · exact hp track x hx
  | _ => exact hp track x hx

theorem agreed_step {e} (h : s.Agreed) (hFresh : s.fresh e = true)
    (hStep : s.step checks e = some s') : s'.Agreed := by
  cases e with
  | relay e =>
    obtain ⟨relay, hRelay, hStep⟩ := bind_eq_some_iff.mp hStep
    cases hStep
    have hMove := Relay.move_of_step hRelay
    have hAliasing := Relay.aliasing_move hMove
    have hBound : ∀ {track x}, s.relay.aliasing.Bound track x → relay.aliasing.Bound track x :=
      fun hOld => h.relay.bound_move hAliasing hOld
    refine ⟨h.relay.move hAliasing fun hDraws => ?_, ?_, ?_⟩
    · have hDrawn := Relay.draws_of_move hMove hDraws
      have hNonzero : s.relay.nextAlias ≠ 0 := by simpa [fresh, hDrawn] using hFresh
      exact hNonzero
    · intro c p hp track x hx
      exact hBound (h.publishers c p hp track x hx)
    · intro header hMem
      obtain ⟨groupId, hFull | ⟨x, hAlias, hOld⟩⟩ := h.headers header hMem
      · exact ⟨groupId, .inl hFull⟩
      · exact ⟨groupId, .inr ⟨x, hAlias, hBound hOld⟩⟩
  | connect c =>
    obtain ⟨k, hk, hStep⟩ := bind_eq_some_iff.mp hStep
    split at hStep
    · cases hStep
      exact h.setPublisher nofun
    · cases hStep
  | control c =>
    obtain ⟨k, hk, hStep⟩ := bind_eq_some_iff.mp hStep
    obtain ⟨p, hp, hStep⟩ := bind_eq_some_iff.mp hStep
    split at hStep
    · obtain ⟨m, hm, hStep⟩ := bind_eq_some_iff.mp hStep
      cases hStep
      exact h.setPublisher (h.onMessage hk (mem_of_getElem? hm) (h.publishers c p hp))
    · cases hStep
  | lose c =>
    obtain ⟨p, hp, hStep⟩ := bind_eq_some_iff.mp hStep
    cases hStep
    exact h.setPublisher (h.publishers c p hp)
  | beginGroup c track groupId =>
    obtain ⟨p, hp, hStep⟩ := bind_eq_some_iff.mp hStep
    cases hStep
    refine ⟨h.relay, h.publishers, forall_mem_concat h.headers ?_⟩
    cases hAlias : p.aliasOf track with
    | none => exact ⟨groupId, .inl (by simp [Publisher.beginGroup, hAlias])⟩
    | some x =>
      exact ⟨groupId, .inr ⟨x, by simp [Publisher.beginGroup, hAlias],
        h.publishers c p hp track x hAlias⟩⟩

/-- **Alias agreement.** In every run in which no alias is drawn after the counter has come round to
0 (`fresh`), every group header a publisher has sent is resolved to the track it was made for, by
any connection, while nobody holds the lock; and no alias is that of two tracks. -/
theorem alias_agreement {groupCapacity : Nat}
    (hRun : Run (step checks) (fun s e => s.fresh e = true) (new groupCapacity) s) :
    (∀ track trackRef groupId, (track, Message.groupHeader trackRef groupId) ∈ s.headers →
      s.relay.holder = none → ∀ (ord : HashOrder TrackId) (conn : Nat),
        (s.relay.resolveTrackRef ord conn trackRef).2 = some track) ∧
    ∀ (track track' : TrackId) (reg reg' : PublisherReg) (a : UInt64),
      s.relay.publishers.lookup track = some reg → s.relay.publishers.lookup track' = some reg' →
      reg.trackAlias = some a → reg'.trackAlias = some a → track = track' := by
  have hAgreed : s.Agreed := by
    refine hRun.invariant ⟨⟨nofun, nofun, nofun, nofun, nofun, nofun⟩, nofun, nofun⟩ ?_
    intro s s' e hAgreed hFresh hStep
    exact agreed_step hAgreed hFresh hStep
  refine ⟨?_, hAgreed.relay.unique⟩
  intro track trackRef groupId hMem hFree ord conn
  have hNames : Names s.relay.aliasing track (.groupHeader trackRef groupId) :=
    hAgreed.headers _ hMem
  obtain ⟨_, hFull | ⟨x, hAlias, hBound⟩⟩ := hNames
  · obtain ⟨rfl, -⟩ := Message.groupHeader.inj hFull
    rw [Relay.resolveTrackRef]
    split <;> rfl
  · obtain ⟨rfl, -⟩ := Message.groupHeader.inj hAlias
    exact Relay.resolve_of_bound hAgreed.relay hFree hBound ord conn

open HubSystem (video)

/-- A publisher connects, announces the namespace of `video`, and begins a group, which
the relay takes. -/
def published : List LiveEvent :=
  [.relay .accept, .relay (.recv 0 (.message (.setup protoVersion .publisher))),
    .relay (.send 0 true), .connect 0, .relay (.recv 0 (.message (.announce video.ns))),
    .relay (.send 0 true), .control 0, .beginGroup 0 video 1, .relay (.stream 0),
    .relay (.read 0 (.message (.groupHeader (.full video) 1))),
    .relay (.work 0 (.stored TrackId))]

/-- A subscriber comes, up to the SUBSCRIBE that the relay sends to the publisher. -/
def subscribed (c : Nat) (track : TrackId) : List LiveEvent :=
  [.accept, .recv c (.message (.setup protoVersion .subscriber)), .send c true,
    .recv c (.message (.subscribe 7 3 track .nextObject 0)), .send c true, .act c,
    .send c true].map .relay

/-- The publisher uses the alias before the relay has noted it. -/
theorem alias_agreement_early : ∃ s,
    Run (step true) (fun s e => s.fresh e = true) (new 2) s ∧
    (video, Message.groupHeader (.byAlias 1) 2) ∈ s.headers ∧ s.relay.holder = none ∧
    (s.relay.resolveTrackRef (.stored TrackId) 0 (.byAlias 1)).2 = some video := by
  obtain ⟨s, hRun, hTest⟩ := exists_run_of_exec (step true) (fun s e => s.fresh e = true) (new 2)
    (published ++ subscribed 1 video ++ [.control 0, .beginGroup 0 video 2, .relay (.act 1)])
    (fun s => decide ((video, Message.groupHeader (.byAlias 1) 2) ∈ s.headers ∧
      s.relay.holder = none))
    (by decide +kernel)
  obtain ⟨hMem, hFree⟩ := of_decide_eq_true hTest
  exact ⟨s, hRun, hMem, hFree, (alias_agreement hRun).1 video _ 2 hMem hFree _ _⟩

end Live

/-! ## The counter comes round -/

namespace Relay

def withLast (r : Relay) (k : Connection) : Relay := { r with conns := r.conns ++ [k] }

variable {checks : Bool} {r : Relay} {k : Connection}

theorem withLast_conn (r : Relay) (k : Connection) :
    (r.withLast k).conns[r.conns.length]? = some k :=
  getElem?_concat_length

theorem setHandler_withLast (handler : Handler) :
    (r.withLast k).setHandler r.conns.length handler = r.withLast { k with handler } := by
  rw [setHandler, withLast, modify_concat_length]
  rfl

theorem sendOn_withLast (m : Message) :
    (r.withLast k).sendOn r.conns.length m = r.withLast { k with sent := k.sent ++ [m] } := by
  rw [sendOn, withLast, modify_concat_length]
  rfl

def asking (track : TrackId) : Request := ⟨7, 3, track, .nextObject, 0⟩

def confirmed : List Message := [.setup protoVersion .both, .subscribeOk 7]

theorem confirmed_run {track} (hNs : r.fanout.hub.namespaceAnnounced track.ns = true) :
    Run (step checks) Always r (r.withLast
      ⟨.binding (asking track) (r.fanout.acceptedOf track).length, confirmed, ∅⟩) := by
  have hAccept : r.step checks .accept = some (r.withLast ⟨.opening, [], ∅⟩) := rfl
  have hSetup : (r.withLast ⟨.opening, [], ∅⟩).step checks
      (.recv r.conns.length (.message (.setup protoVersion .subscriber))) =
      some (r.withLast ⟨.greeting, [], ∅⟩) := by
    rw [step, withLast_conn]
    simp only [bind_some, bind_eq_bind, onRecv, if_true, setHandler_withLast]
  have hGreet : (r.withLast ⟨.greeting, [], ∅⟩).step checks (.send r.conns.length true) =
      some (r.withLast ⟨.receiving, [.setup protoVersion .both], ∅⟩) := by
    rw [step, withLast_conn]
    simp only [bind_some, bind_eq_bind, onSend, if_true, sendOn_withLast,
      setHandler_withLast, nil_append]
  have hAsk : (r.withLast ⟨.receiving, [.setup protoVersion .both], ∅⟩).step checks
      (.recv r.conns.length (.message (asking track).message)) =
      some (r.withLast ⟨.confirming (asking track), [.setup protoVersion .both], ∅⟩) := by
    have hNs : ∀ k, (r.withLast k).fanout.hub.namespaceAnnounced track.ns = true := fun _ => hNs
    rw [step, withLast_conn]
    simp only [bind_some, bind_eq_bind, onRecv, onMessage, asking, Request.message,
      hNs, if_true, setHandler_withLast]
  have hConfirm : (r.withLast ⟨.confirming (asking track), [.setup protoVersion .both], ∅⟩).step
      checks (.send r.conns.length true) =
      some (r.withLast ⟨.binding (asking track) (r.fanout.acceptedOf track).length, confirmed,
        ∅⟩) := by
    rw [step, withLast_conn]
    simp only [bind_some, bind_eq_bind, onSend, if_true, sendOn_withLast, setHandler_withLast]
    rfl
  exact .step (.step (.step (.step (.step .start trivial hAccept) trivial hSetup) trivial
    hGreet) trivial hAsk) trivial hConfirm

def drawn (r : Relay) (track : TrackId) (control : Nat) : Relay :=
  { r with nextAlias := r.nextAlias + 1, holder := some r.conns.length }.withLast
    ⟨.upstream (asking track) (r.fanout.acceptedOf track).length r.nextAlias control, confirmed, ∅⟩

variable {track : TrackId} {reg : PublisherReg}

section

variable (checks) (hFree : r.holder = none) (hReg : r.publishers.lookup track = some reg)
  (hNone : reg.trackAlias = none) (hNs : r.fanout.hub.namespaceAnnounced track.ns = true)

include hFree hReg hNone hNs

theorem drawn_run : Run (step checks) Always r (r.drawn track reg.control) := by
  refine .step (confirmed_run hNs) trivial (e := .act r.conns.length) ?_
  have hFree : ∀ k, (r.withLast k).holder = none := fun _ => hFree
  have hReg : ∀ k, (r.withLast k).publishers.lookup (asking track).track = some reg := fun _ => hReg
  rw [step, withLast_conn]
  simp only [bind_some, bind_eq_bind, onAct, hFree, if_true, bindAlias, hReg, hNone,
    isSome_none, Bool.false_eq_true, if_false]
  exact congrArg some (setHandler_withLast (r := { r with
    nextAlias := r.nextAlias + 1, holder := some r.conns.length }) _)

omit hReg hNone hNs in
theorem release_drawn (control : Nat) (handler : Handler) :
    { r.drawn track control with holder := none }.setHandler r.conns.length handler =
      { r with nextAlias := r.nextAlias + 1 }.withLast ⟨handler, confirmed, ∅⟩ := by
  rw [← hFree]
  exact setHandler_withLast (r := { r with nextAlias := r.nextAlias + 1 }) _

theorem wasted_run :
    ∃ k, Run (step checks) Always r ({ r with nextAlias := r.nextAlias + 1 }.withLast k) := by
  have hDrawn := drawn_run checks hFree hReg hNone hNs
  have hSend : ∃ handler, (r.drawn track reg.control).step checks (.send r.conns.length false) =
      some ({ r.drawn track reg.control with holder := none }.setHandler r.conns.length
        handler) := by
    rw [step, drawn, withLast_conn]
    cases hEncode : (Varint.encode r.nextAlias : Outcome Empty Bytes) with
    | panic p => exact ⟨.panicked p, by simp [onSend, hEncode]⟩
    | ok => exact ⟨_, by simp [onSend, hEncode, beginSubscribe]; rfl⟩
    | err e => exact e.elim
  obtain ⟨handler, hSend⟩ := hSend
  rw [release_drawn hFree] at hSend
  exact ⟨_, .step hDrawn trivial hSend⟩

theorem wasted_runs (n : Nat) :
    ∃ ks, Run (step checks) Always r
      { r with nextAlias := r.nextAlias + UInt64.ofNat n, conns := r.conns ++ ks } := by
  induction n with
  | zero => exact ⟨[], by simpa using Run.start⟩
  | succ n ih =>
    obtain ⟨ks, hRun⟩ := ih
    obtain ⟨k, hNext⟩ := wasted_run checks (r := { r with
      nextAlias := r.nextAlias + UInt64.ofNat n, conns := r.conns ++ ks }) hFree hReg hNone hNs
    refine ⟨ks ++ [k], ?_⟩
    have hAlias : r.nextAlias + UInt64.ofNat (n + 1) = r.nextAlias + UInt64.ofNat n + 1 := by
      rw [UInt64.ofNat_add, UInt64.add_assoc]
      rfl
    rw [hAlias, ← append_assoc]
    exact hRun.trans hNext

theorem granted_run (bytes : Bytes)
    (hFits : (Varint.encode r.nextAlias : Outcome Empty Bytes) = ok bytes)
    (hk : r.conns[reg.control]? = some k) :
    ∃ r' k', Run (step checks) Always r r' ∧ r'.holder = none ∧
      r'.publishers = r.publishers.insert track ⟨reg.control, some r.nextAlias⟩ ∧
      r'.conns[reg.control]? = some k' ∧
      k'.sent = k.sent ++ [.subscribe r.nextAlias r.nextAlias track .nextObject 0] := by
  have hDrawn := drawn_run checks hFree hReg hNone hNs
  obtain ⟨sent, hDef⟩ : ∃ sent, sent = ((r.drawn track reg.control).sendOn reg.control
      (.subscribe r.nextAlias r.nextAlias track .nextObject 0)).setHandler r.conns.length
      (.noting (asking track) (r.fanout.acceptedOf track).length r.nextAlias reg.control) :=
    ⟨_, rfl⟩
  have hSend : (r.drawn track reg.control).step checks (.send r.conns.length true) = some sent := by
    rw [step, drawn, withLast_conn, hDef]
    simp [onSend, hFits]
    rfl
  -- the publisher has an older connection, and the handler goes on from here
  have hLt : reg.control < r.conns.length := (List.getElem?_eq_some_iff.mp hk).1
  have hNe : r.conns.length ≠ reg.control := Nat.ne_of_gt hLt
  have hControl : sent.conns[reg.control]? = some { k with
      sent := k.sent ++ [.subscribe r.nextAlias r.nextAlias track .nextObject 0] } := by
    rw [hDef]
    simp [setHandler, sendOn, drawn, withLast, getElem?_append_left hLt, hk, hNe]
  have hNoting : ∃ k', sent.conns[r.conns.length]? = some k' ∧ k'.handler =
      .noting (asking track) (r.fanout.acceptedOf track).length r.nextAlias reg.control := by
    rw [hDef]
    simp [setHandler, sendOn, drawn, withLast]
  obtain ⟨k', hk', hHandler⟩ := hNoting
  have hNote : sent.step checks (.act r.conns.length) = some ({ sent with
      publishers := sent.publishers.insert track ⟨reg.control, some r.nextAlias⟩
      holder := none }.beginSubscribe r.conns.length (asking track)
        (r.fanout.acceptedOf track).length) := by
    rw [step, hk']
    simp [onAct, hHandler]
    rfl
  refine ⟨_, { k with
    sent := k.sent ++ [.subscribe r.nextAlias r.nextAlias track .nextObject 0] },
    .step (.step hDrawn trivial hSend) trivial hNote, rfl, ?_, ?_, rfl⟩
  · rw [hDef]
    rfl
  · simpa [beginSubscribe, setHandler, getElem?_modify, hNe] using hControl

end

end Relay

namespace Live

open HubSystem (video)

def audio : TrackId := ⟨video.ns, "audio"⟩

theorem run_relay {checks r r'} (s : Live) (h : Run (Relay.step checks) Always r r') :
    Run (step checks) Always { s with relay := r } { s with relay := r' } := by
  refine h.lift Always (fun relay => { s with relay }) LiveEvent.relay ?_
  intro r e r' _ hStep
  refine ⟨trivial, ?_⟩
  show (r.step checks e).bind _ = _
  rw [hStep]
  rfl

/-- The track `video` has alias 1, which its publisher has taken, and `audio` is known to
the relay. -/
def bothPublished : List LiveEvent :=
  published ++ subscribed 1 video ++ [.relay (.act 1), .control 0, .beginGroup 0 audio 1,
    .relay (.stream 0), .relay (.read 1 (.message (.groupHeader (.full audio) 1))),
    .relay (.work 1 (.stored TrackId))]

/-- After `2 ^ 64` draws an alias is given to a second track. -/
theorem not_alias_agreement : ∃ s, Run (step true) Always (new 2) s ∧
    (audio, Message.groupHeader (.byAlias 1) 2) ∈ s.headers ∧ s.relay.holder = none ∧
    (∃ ord conn, (s.relay.resolveTrackRef ord conn (.byAlias 1)).2 = some video) ∧
    s.relay.publishers.lookup video = some ⟨0, some 1⟩ ∧
    s.relay.publishers.lookup audio = some ⟨0, some 1⟩ := by
  obtain ⟨s, hRun, hTest⟩ := exists_run_of_exec (step true) Always (new 2) bothPublished
    (fun s => (s.relay.conns[0]?).any fun (k : Connection) =>
      (s.publishers.lookup 0).any fun (p : Publisher) =>
        decide (s.relay.holder = none ∧ s.relay.nextAlias = 2 ∧
          s.relay.publishers.lookup video = some ⟨0, some 1⟩ ∧
          s.relay.publishers.lookup audio = some ⟨0, none⟩ ∧
          s.relay.fanout.hub.namespaceAnnounced audio.ns = true ∧
          p.running = true ∧ p.taken = k.sent.length))
    (by decide +kernel)
  obtain ⟨k, hk, hTest⟩ := (any_eq_true _ _).mp hTest
  obtain ⟨p, hp, hTest⟩ := (any_eq_true _ _).mp hTest
  obtain ⟨hFree, hNext, hVideo, hAudio, hNs, hRunning, hTaken⟩ := of_decide_eq_true hTest
  -- all other numbers are lost
  obtain ⟨ks, hWasted⟩ := Relay.wasted_runs true hFree hAudio rfl hNs (2 ^ 64 - 1)
  have hRound : s.relay.nextAlias + UInt64.ofNat (2 ^ 64 - 1) = 1 := by
    rw [hNext]
    rfl
  rw [hRound] at hWasted
  -- and 1 is sent to the publisher for the second time
  obtain ⟨r, k', hGranted, hFree', hTable, hk', hSent⟩ := Relay.granted_run true
    (r := { s.relay with nextAlias := 1, conns := s.relay.conns ++ ks }) (k := k)
    hFree hAudio rfl hNs [1] rfl (by
      rw [← hk]
      exact List.getElem?_append_left (List.getElem?_eq_some_iff.mp hk).1)
  have hRelay := hRun.trans (run_relay s (hWasted.trans hGranted))
  obtain ⟨p', hDef⟩ : ∃ p', p' = { p with taken := p.taken + 1 }.onMessage
      (.subscribe 1 1 audio .nextObject 0) := ⟨_, rfl⟩
  have hControl : { s with relay := r }.step true (.control 0) =
      some ⟨r, s.publishers.insert 0 p', s.headers⟩ := by
    have hNew : k'.sent[p.taken]? = some (.subscribe 1 1 audio .nextObject 0) := by
      rw [hSent, hTaken, getElem?_concat_length]
    simp [step, hk', hp, hRunning, hNew, hDef]
  have hAlias : p'.aliasOf audio = some 1 := by
    rw [hDef, Publisher.onMessage, Publisher.aliasOf, AList.lookup_insert]
  have hBegin : (⟨r, s.publishers.insert 0 p', s.headers⟩ : Live).step true
      (.beginGroup 0 audio 2) = some ⟨r, s.publishers.insert 0 p',
        s.headers ++ [(audio, .groupHeader (.byAlias 1) 2)]⟩ := by
    simp [step, Publisher.beginGroup, hAlias]
  have hVideo' : r.publishers.lookup video = some ⟨0, some 1⟩ := by
    rw [hTable, Map.lookup_insert_ite, if_neg (by decide)]
    exact hVideo
  have hAudio' : r.publishers.lookup audio = some ⟨0, some 1⟩ := by
    rw [hTable, AList.lookup_insert]
  obtain ⟨ord, hResolve⟩ := Relay.exists_resolve hVideo' rfl 0
  exact ⟨_, .step (.step hRelay trivial hControl) trivial hBegin,
    mem_append_right _ mem_cons_self, hFree', ⟨ord, 0, hResolve⟩, hVideo', hAudio'⟩

end Live

end DirectWire.Moq
