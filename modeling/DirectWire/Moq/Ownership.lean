import DirectWire.Lib.Cells
import DirectWire.Moq.Moves

/-!
# MoQ — who owns a forwarder

The handler of a connection keeps the handle of each forwarder under the id of its subscription. A
second SUBSCRIBE with the same id takes the place of the first, whose tasks go on; after the peer
has closed its half of the control stream, the handler lets go of every forwarder whose writing
task has ended, and the reading task goes on.

* `Relay.Owned` — every task that runs is in the map of its connection.
-/

namespace DirectWire.Moq

open Lib Outcome List Option

inductive ForwarderTask where
  | reader
  | writer
deriving DecidableEq, Repr

def Forwarder.running : ForwarderTask → Forwarder → Bool
  | .reader, w => !w.aborted
  | .writer, w => !w.aborted && !w.finished

def Handler.request? : Handler → Option Request
  | .confirming req | .binding req _ | .upstream req .. | .noting req .. | .subscribing req .. =>
    some req
  | _ => none

def Handler.Quiet (task : ForwarderTask) : Handler → Prop
  | .opening | .greeting | .ended => True
  | .draining => task = .reader
  | _ => False

def Handler.Bars (task : ForwarderTask) (handler : Handler) (id : UInt64) : Prop :=
  handler.Quiet task ∨ ∃ req, handler.request? = some req ∧ req.subscribeId = id

def Connection.Owns (task : ForwarderTask) (c : Nat) (forwarders : List Forwarder)
    (k : Connection) : Prop :=
  ∀ i w, forwarders[i]? = some w → w.conn = c → w.running task = true →
    k.forwarders.lookup w.req.subscribeId = some i ∧ ¬ k.handler.Bars task w.req.subscribeId

namespace Relay

def IdleFor (task : ForwarderTask) (r : Relay) (c : Nat) (id : UInt64) : Prop :=
  ∀ w ∈ r.forwarders, w.conn = c → w.req.subscribeId = id → w.running task = false

def Idle (task : ForwarderTask) (r : Relay) (c : Nat) : Prop :=
  ∀ w ∈ r.forwarders, w.conn = c → w.running task = false

instance (task : ForwarderTask) (r : Relay) (c : Nat) (id : UInt64) :
    Decidable (r.IdleFor task c id) :=
  inferInstanceAs (Decidable (∀ w ∈ r.forwarders, _))

instance (task : ForwarderTask) (r : Relay) (c : Nat) : Decidable (r.Idle task c) :=
  inferInstanceAs (Decidable (∀ w ∈ r.forwarders, _))

/-- No SUBSCRIBE is accepted for an id whose forwarder runs, and no stream is half
closed while a reading task runs for it. -/
def tidy (task : ForwarderTask) (r : Relay) : RelayEvent → Bool
  | .recv c (.message (.subscribe id _ track _ _)) =>
    !r.fanout.hub.namespaceAnnounced track.ns || decide (r.IdleFor task c id)
  | .recv c .closed => decide (task = .writer) || decide (r.Idle task c)
  | _ => true

structure Owned (task : ForwarderTask) (r : Relay) : Prop where
  conns : ∀ (c : Nat) (k : Connection), r.conns[c]? = some k → k.Owns task c r.forwarders
  known : ∀ w ∈ r.forwarders, w.conn < r.conns.length

variable {checks : Bool} {task : ForwarderTask} {r r' : Relay} {c : Nat} {k : Connection}

/-! ## What a change keeps -/

variable {forwarders : List Forwarder} {g : Connection → Connection} {handler : Handler}
  {i c' : Nat} {req : Request} {e : RelayEvent} {fanout : Fanout}
  {publishers : Map TrackId PublisherReg}

section

variable (h : r.Owned task)

include h

theorem Owned.congr (hConns : r'.conns = r.conns) (hForwarders : r'.forwarders = r.forwarders) :
    r'.Owned task := by
  obtain ⟨conns, known⟩ := h
  rw [← hConns, ← hForwarders] at conns known
  exact ⟨conns, known⟩

theorem Owned.modify (hKnown : ∀ w ∈ forwarders, w.conn < r.conns.length)
    (hOthers : ∀ (c' : Nat) (k : Connection), c' ≠ c → k.Owns task c' r.forwarders →
      k.Owns task c' forwarders)
    (hOwns : ∀ k : Connection, r.conns[c]? = some k → k.Owns task c r.forwarders →
      (g k).Owns task c forwarders) :
    { r with conns := r.conns.modify c g, forwarders }.Owned task := by
  refine ⟨fun c' k' hk' => ?_, fun w hw => ?_⟩
  · obtain ⟨k, hk, ⟨rfl, rfl⟩ | ⟨hOther, rfl⟩⟩ := getElem?_modify_eq_some hk'
    · exact hOwns k hk (h.conns c k hk)
    · exact hOthers c' k' (Ne.symm hOther) (h.conns c' k' hk)
  · rw [length_modify]
    exact hKnown w hw

theorem Owned.modifyConn
    (hOwns : ∀ k : Connection, r.conns[c]? = some k → k.Owns task c r.forwarders →
      (g k).Owns task c r.forwarders) : { r with conns := r.conns.modify c g }.Owned task :=
  h.modify h.known (fun _ _ _ hOld => hOld) hOwns

theorem Owned.setHandler (hk : r.conns[c]? = some k)
    (hBars : ∀ w ∈ r.forwarders, w.conn = c → handler.Bars task w.req.subscribeId →
      w.running task = true → k.handler.Bars task w.req.subscribeId) :
    (r.setHandler c handler).Owned task := by
  refine h.modifyConn fun k' hk' hOwns i w hw hConn hRuns => ?_
  obtain ⟨hLookup, hFree⟩ := hOwns i w hw hConn hRuns
  rw [hk] at hk'
  cases hk'
  exact ⟨hLookup, fun hBar => hFree (hBars w (mem_of_getElem? hw) hConn hBar hRuns)⟩

theorem Owned.sendOn (m : Message) : (r.sendOn c m).Owned task :=
  h.modifyConn fun _ _ hOwns => hOwns

theorem Owned.setForwarders {g : Forwarder → Forwarder}
    (hg : ∀ w, (g w).conn = w.conn ∧ (g w).req = w.req ∧
      ((g w).running task = true → w.running task = true)) :
    { r with forwarders := r.forwarders.modify i g }.Owned task := by
  have hOld : ∀ {j : Nat} {w : Forwarder}, (r.forwarders.modify i g)[j]? = some w →
      ∃ w₀, r.forwarders[j]? = some w₀ ∧ w.conn = w₀.conn ∧ w.req = w₀.req ∧
        (w.running task = true → w₀.running task = true) := by
    intro j w hw
    obtain ⟨w₀, hw₀, ⟨-, rfl⟩ | ⟨-, rfl⟩⟩ := getElem?_modify_eq_some hw
    · exact ⟨w₀, hw₀, hg w₀⟩
    · exact ⟨w, hw₀, rfl, rfl, id⟩
  refine ⟨fun c k hk j w hw hConn hRuns => ?_, fun w hw => ?_⟩
  · obtain ⟨w₀, hw₀, hSameConn, hSameReq, hRan⟩ := hOld hw
    rw [hSameReq]
    exact h.conns c k hk j w₀ hw₀ (hSameConn ▸ hConn) (hRan hRuns)
  · obtain ⟨j, hj⟩ := mem_iff_getElem?.mp hw
    obtain ⟨w₀, hw₀, hSameConn, -⟩ := hOld hj
    rw [hSameConn]
    exact h.known w₀ (mem_of_getElem? hw₀)

theorem Owned.abort (i : Nat) : (r.abort i).Owned task :=
  h.setForwarders fun w => ⟨rfl, rfl, by cases task <;> simp [Forwarder.running]⟩

theorem Owned.finish (i : Nat) :
    { r with forwarders := r.forwarders.modify i fun w => { w with finished := true } }.Owned
      task :=
  h.setForwarders fun w => ⟨rfl, rfl, by cases task <;> simp [Forwarder.running]⟩

omit h in
theorem running_of_aborted {w : Forwarder} (h : w.aborted = true) : w.running task = false := by
  cases task <;> simp [Forwarder.running, h]

/-- The tasks of the forwarder at `i`, if it is there, are to stop. -/
def AbortedAt (r : Relay) (i : Nat) : Prop := ∀ w, r.forwarders[i]? = some w → w.aborted = true

omit h in
theorem abortedAt_abort (r : Relay) (i : Nat) : (r.abort i).AbortedAt i := by
  intro w hw
  obtain ⟨w₀, -, ⟨-, rfl⟩ | ⟨hNe, -⟩⟩ := getElem?_modify_eq_some hw
  · rfl
  · exact absurd rfl hNe

omit h in
theorem AbortedAt.abort (h : r.AbortedAt i) (j : Nat) : (r.abort j).AbortedAt i := by
  intro w hw
  obtain ⟨w₀, hw₀, ⟨-, rfl⟩ | ⟨-, rfl⟩⟩ := getElem?_modify_eq_some hw
  · rfl
  · exact h w hw₀

theorem Owned.abortAll (handles : List (Sigma fun _ : UInt64 => Nat)) :
    (handles.foldl (fun r e => r.abort e.2) r).Owned task ∧
      ∀ i, (r.AbortedAt i ∨ ∃ e ∈ handles, e.2 = i) →
        (handles.foldl (fun r e => r.abort e.2) r).AbortedAt i := by
  induction handles generalizing r with
  | nil => exact ⟨h, fun i hi => hi.resolve_right (by simp)⟩
  | cons handle handles ih =>
    obtain ⟨hOwned, hAborted⟩ := ih (h.abort handle.2)
    refine ⟨hOwned, fun i hi => hAborted i ?_⟩
    rcases hi with hi | ⟨e, he, rfl⟩
    · exact .inl (hi.abort _)
    · rcases mem_cons.mp he with rfl | he
      · exact .inl (abortedAt_abort r _)
      · exact .inr ⟨e, he, rfl⟩

section

variable (hk : r.conns[c]? = some k)

include hk

theorem Owned.close :
    ((k.forwarders.entries.foldl (fun r e => r.abort e.2) r).setHandler c .ended).Owned task := by
  obtain ⟨hOwned, hAborted⟩ := h.abortAll k.forwarders.entries
  have hConns := abortAll_conns r k.forwarders.entries
  refine hOwned.setHandler (hConns ▸ hk) fun w hw hConn _ hRuns => ?_
  -- one that runs would be in the map, and so it was aborted
  exfalso
  obtain ⟨i, hi⟩ := mem_iff_getElem?.mp hw
  obtain ⟨hLookup, -⟩ := hOwned.conns c k (hConns ▸ hk) i w hi hConn hRuns
  have hMem := AList.mem_lookup_iff.mp (mem_def.mpr hLookup)
  have hStopped := hAborted i (.inr ⟨_, hMem, rfl⟩) w hi
  rw [running_of_aborted hStopped] at hRuns
  cases hRuns

theorem Owned.unsubscribe {id} (hi : k.forwarders.lookup id = some i) :
    ({ r with conns := r.conns.modify c fun k =>
      { k with forwarders := k.forwarders.erase id } }.abort i).Owned task := by
  refine (h.abort i).modifyConn fun k' hk' hOwns j w hw hConn hRuns => ?_
  have hSame : k' = k := some_inj.mp (hk'.symm.trans hk)
  subst hSame
  obtain ⟨hLookup, hFree⟩ := hOwns j w hw hConn hRuns
  refine ⟨?_, hFree⟩
  rw [Map.lookup_erase_ite, if_neg, hLookup]
  rintro rfl
  have hIndex : i = j := some_inj.mp (hi.symm.trans hLookup)
  subst hIndex
  rw [running_of_aborted (abortedAt_abort r i w hw)] at hRuns
  cases hRuns

theorem Owned.prune (hState : k.handler = .draining) :
    { r with conns := r.conns.modify c fun k' =>
      { k' with forwarders := k.forwarders.retain fun _ w => !r.isFinished w } }.Owned task := by
  refine h.modifyConn fun k' hk' hOwns i w hw hConn hRuns => ?_
  have hSame : k' = k := some_inj.mp (hk'.symm.trans hk)
  subst hSame
  obtain ⟨hLookup, hFree⟩ := hOwns i w hw hConn hRuns
  refine ⟨?_, hFree⟩
  cases task with
  | reader =>
    rw [hState] at hFree
    exact absurd (.inl rfl) hFree
  | writer =>
    -- the writing task runs, so the handle is kept
    have hLive : w.finished = false := by
      simp only [Forwarder.running, Bool.and_eq_true, Bool.not_eq_true'] at hRuns
      exact hRuns.2
    rw [Map.lookup_retain, hLookup]
    simp [isFinished, hw, hLive]

theorem Owned.spawn (hState : k.handler.request? = some req) (confirmedAt sub : Nat) :
    (r.spawnForwarder c req confirmedAt sub).Owned task := by
  refine h.modify ?_ ?_ ?_
  · exact forall_mem_concat h.known (List.getElem?_eq_some_iff.mp hk).1
  · intro c' k' hOther hOwns i w hw hConn hRuns
    rcases getElem?_concat_eq_some hw with hOld | ⟨-, rfl⟩
    · exact hOwns i w hOld hConn hRuns
    · exact absurd hConn.symm hOther
  · intro k' hk' hOwns i w hw hConn hRuns
    have hSame : k' = k := some_inj.mp (hk'.symm.trans hk)
    subst hSame
    refine ⟨?_, by simp [Handler.Bars, Handler.Quiet, Handler.request?]⟩
    rw [Map.lookup_insert_ite]
    rcases getElem?_concat_eq_some hw with hOld | ⟨hIndex, rfl⟩
    · -- the id was free, so another one's handle stays
      obtain ⟨hLookup, hFree⟩ := hOwns i w hOld hConn hRuns
      rw [if_neg, hLookup]
      intro hId
      exact hFree (.inr ⟨req, hState, hId.symm⟩)
    · rw [if_pos rfl, hIndex]

end

/-! ## Every step -/

omit h in
theorem Turn.bars (hTurn : Turn r c k e handler) (hTidy : r.tidy task e = true) {w}
    (hw : w ∈ r.forwarders) (hConn : w.conn = c) (hBars : handler.Bars task w.req.subscribeId)
    (hRuns : w.running task = true) : k.handler.Bars task w.req.subscribeId := by
  cases hTurn with
  | greet h | reject h | hangUp h =>
    rw [h]
    exact .inl trivial
  | confirm h hAnnounced =>
    obtain ⟨⟨⟩⟩ | ⟨req, ⟨⟩, hId⟩ := hBars
    simp only [tidy, Request.message, hAnnounced] at hTidy
    rw [of_decide_eq_true hTidy w hw hConn hId.symm] at hRuns
    cases hRuns
  | halfClose h =>
    obtain hReader | ⟨req, ⟨⟩, -⟩ := hBars
    have hReader : task = .reader := hReader
    subst hReader
    have hIdle : r.Idle .reader c := by simpa [tidy] using hTidy
    rw [hIdle w hw hConn] at hRuns
    cases hRuns
  | settled h =>
    rw [h]
    exact hBars
  | refuse | goaway | lose | unannounced | unrefused | unconfirmed | drained =>
    obtain ⟨⟨⟩⟩ | ⟨req, ⟨⟩, -⟩ := hBars

omit h in
theorem Answer.bars {m id} (hAnswer : Answer r k m handler) (hBars : handler.Bars task id) :
    k.handler.Bars task id := by
  cases hAnswer with
  | subscribeOk h =>
    rw [h]
    exact hBars
  | setup | announceOk | subscribeError => obtain ⟨⟨⟩⟩ | ⟨req, ⟨⟩, -⟩ := hBars

theorem Owned.goOn (hk : r.conns[c]? = some k) (hQuiet : ¬ handler.Quiet task)
    (hSame : handler.request? = none ∨ handler.request? = k.handler.request?) {holder nextAlias} :
    ({ r with fanout, publishers, holder, nextAlias }.setHandler c handler).Owned task := by
  refine Owned.congr (r := r.setHandler c handler) (h.setHandler hk ?_) rfl rfl
  intro w hw hConn hBars hRuns
  obtain hBar | ⟨req, hReq, hId⟩ := hBars
  · exact absurd hBar hQuiet
  · rcases hSame with hNone | hSame
    · rw [hNone] at hReq
      cases hReq
    · exact .inr ⟨req, hSame ▸ hReq, hId⟩

theorem owned_move (hTidy : r.tidy task e = true) (hMove : Move checks r e r') : r'.Owned task := by
  cases hMove with
  | accept =>
    refine ⟨fun c k hk => ?_, fun w hw => ?_⟩
    · rcases getElem?_concat_eq_some hk with hOld | ⟨rfl, rfl⟩
      · exact h.conns c k hOld
      · -- no forwarder is of a connection that is yet to come
        intro i w hw hConn
        have := h.known w (mem_of_getElem? hw)
        omega
    · have := h.known w hw
      rw [length_append]
      omega
  | turn hk hTurn =>
    exact h.setHandler hk fun w hw hConn hBars hRuns => hTurn.bars hTidy hw hConn hBars hRuns
  | @answer c k m handler hk hAnswer =>
    obtain ⟨k', hk', hSame⟩ := handler_sendOn c m hk
    exact (h.sendOn m).setHandler hk' fun w _ _ hBars _ => hSame ▸ hAnswer.bars hBars
  | announce hk | overflow hk | crash hk =>
    exact h.goOn hk id (.inl rfl)
  | unsubscribe hk hState hw => exact h.unsubscribe hk hw
  | ignore | skip => exact h
  | draw hk hState | giveUp hk hState | note hk hState | call hk hState =>
    exact h.goOn hk id (.inr (by rw [hState]; rfl))
  | pass hk hState =>
    obtain ⟨k', hk', hSame⟩ := handler_sendOn _ _ hk
    exact (h.sendOn _).goOn hk' id (.inr (by rw [hSame, hState]; rfl))
  | spawn hk hState => exact (h.spawn hk (by rw [hState]; rfl) _ _).congr rfl rfl
  | prune hk hState => exact h.prune hk hState
  | close hk => exact h.close hk
  | stream | feed | register | resolve | publish | receive => exact h.congr rfl rfl
  | @finish i => exact h.finish i
  | @stop i => exact (h.finish i).congr rfl rfl

end

theorem owned_run {groupCapacity}
    (hRun : Run (step checks) (fun r e => r.tidy task e = true) (new groupCapacity) r) :
    r.Owned task := by
  refine hRun.invariant ⟨nofun, nofun⟩ ?_
  intro r r' e hOwned hTidy hStep
  exact owned_move hOwned hTidy (move_of_step hStep)

/-! ## After UNSUBSCRIBE -/

def Subscribes (c : Nat) (id : UInt64) (e : RelayEvent) : Prop :=
  ∃ req : Request, e = .recv c (.message req.message) ∧ req.subscribeId = id

/-- The connection has no handle for the id, and its handler is not about to make one. -/
def Lacks (c : Nat) (id : UInt64) (r : Relay) : Prop :=
  ∀ k : Connection, r.conns[c]? = some k →
    k.forwarders.lookup id = none ∧ ∀ req, k.handler.request? = some req → req.subscribeId ≠ id

variable {id : UInt64}

theorem Lacks.modifyConn (h : r.Lacks c id)
    (hg : ∀ k : Connection, r.conns[c']? = some k → c' = c → k.forwarders.lookup id = none →
      (∀ req, k.handler.request? = some req → req.subscribeId ≠ id) →
      (g k).forwarders.lookup id = none ∧
        ∀ req, (g k).handler.request? = some req → req.subscribeId ≠ id) :
    { r with conns := r.conns.modify c' g, fanout, forwarders }.Lacks c id := by
  intro k hk
  obtain ⟨k₀, hk₀, ⟨rfl, rfl⟩ | ⟨-, rfl⟩⟩ := getElem?_modify_eq_some hk
  · obtain ⟨hNone, hOther⟩ := h k₀ hk₀
    exact hg k₀ hk₀ rfl hNone hOther
  · exact h k hk₀

theorem Lacks.setHandler (h : r.Lacks c id) (hk : r.conns[c']? = some k)
    (hReq : ∀ req, handler.request? = some req → k.handler.request? = some req ∨
      (c' = c → req.subscribeId ≠ id)) : (r.setHandler c' handler).Lacks c id := by
  refine h.modifyConn fun k' hk' hSame hNone hOther => ⟨hNone, fun req hNew => ?_⟩
  rw [hk] at hk'
  cases hk'
  rcases hReq req hNew with hOld | hNe
  · exact hOther req hOld
  · exact hNe hSame

theorem Lacks.congr (h : r.Lacks c id) (hConns : r'.conns = r.conns) : r'.Lacks c id := by
  intro k hk
  rw [hConns] at hk
  exact h k hk

theorem Turn.request (hTurn : Turn r c k e handler) (hReq : handler.request? = some req) :
    k.handler.request? = some req ∨ e = .recv c (.message req.message) := by
  cases hTurn with
  | confirm =>
    cases hReq
    exact .inr rfl
  | settled h =>
    rw [h]
    exact .inl hReq
  | _ => cases hReq

theorem Answer.request {m} (hAnswer : Answer r k m handler) (hReq : handler.request? = some req) :
    k.handler.request? = some req := by
  cases hAnswer with
  | subscribeOk h =>
    rw [h]
    exact hReq
  | _ => cases hReq

theorem Lacks.goOn (h : r.Lacks c id) (hk : r.conns[c']? = some k)
    (hSame : handler.request? = none ∨ handler.request? = k.handler.request?) {holder nextAlias} :
    ({ r with fanout, publishers, holder, nextAlias }.setHandler c' handler).Lacks c id := by
  refine Lacks.congr (r := r.setHandler c' handler) (h.setHandler hk fun req hReq => ?_) rfl
  rcases hSame with hNone | hSame
  · rw [hNone] at hReq
    cases hReq
  · exact .inl (hSame ▸ hReq)

theorem lacks_move (h : r.Lacks c id) (hOther : ¬ Subscribes c id e) (hMove : Move checks r e r') :
    r'.Lacks c id := by
  cases hMove with
  | accept =>
    intro k hk
    rcases getElem?_concat_eq_some hk with hOld | ⟨-, rfl⟩
    · exact h k hOld
    · exact ⟨rfl, nofun⟩
  | turn hk hTurn =>
    refine h.setHandler hk fun req hReq => ?_
    rcases hTurn.request hReq with hOld | rfl
    · exact .inl hOld
    · exact .inr fun hSame hId => hOther ⟨req, by rw [hSame], hId⟩
  | @answer c' k m handler hk hAnswer =>
    obtain ⟨k', hk', hSame⟩ := handler_sendOn c' m hk
    have hSent : (r.sendOn c' m).Lacks c id := h.modifyConn fun _ _ _ hNone hReq => ⟨hNone, hReq⟩
    exact hSent.setHandler hk' fun req hReq => .inl (hSame ▸ hAnswer.request hReq)
  | announce hk | overflow hk | crash hk => exact h.goOn hk (.inl rfl)
  | unsubscribe =>
    refine h.modifyConn fun k _ _ hNone hReq => ⟨?_, hReq⟩
    rw [Map.lookup_erase_ite]
    split
    · rfl
    · exact hNone
  | ignore | skip => exact h
  | draw hk hState | giveUp hk hState | note hk hState | call hk hState =>
    exact h.goOn hk (.inr (by rw [hState]; rfl))
  | @pass c' k req _ control newAlias hk hState =>
    obtain ⟨k', hk', hSame⟩ := handler_sendOn _ _ hk
    have hSent : ∀ m, (r.sendOn control m).Lacks c id :=
      fun m => h.modifyConn fun _ _ _ hNone hReq => ⟨hNone, hReq⟩
    exact (hSent _).goOn hk' (.inr (by rw [hSame, hState]; rfl))
  | spawn hk hState hAdvance =>
    refine h.modifyConn fun k' hk' hSame hNone hReq => ⟨?_, by simp [Handler.request?]⟩
    rw [hk] at hk'
    cases hk'
    have hNe := hReq _ (by rw [hState]; rfl)
    rw [Map.lookup_insert_ite, if_neg (Ne.symm hNe), hNone]
  | @prune c' k hk =>
    refine h.modifyConn fun k' hk' _ hNone hReq => ⟨?_, hReq⟩
    have hSame : k' = k := some_inj.mp (hk'.symm.trans hk)
    subst hSame
    rw [Map.lookup_retain, hNone]
    rfl
  | @close c' k hk hState =>
    have hConns := abortAll_conns r k.forwarders.entries
    exact (h.congr hConns).setHandler (hConns ▸ hk) nofun
  | stream | feed | register | resolve | publish | receive | finish | stop => exact h.congr rfl

theorem lacks_run {ok : Relay → RelayEvent → Prop} (h : r.Lacks c id)
    (hOther : ∀ r e, ok r e → ¬ Subscribes c id e) (hRun : Run (step checks) ok r r') :
    r'.Lacks c id := by
  refine hRun.invariant h ?_
  intro r r' e hLacks hOk hStep
  exact lacks_move hLacks (hOther r e hOk) (move_of_step hStep)

theorem lacks_of_unsubscribe (hk : r.conns[c]? = some k) (hState : k.handler = .receiving)
    (hStep : r.step checks (.recv c (.message (.unsubscribe id))) = some r') :
    r'.Lacks c id := by
  have hMessage : some (r.onMessage c k (.unsubscribe id)) = some r' := by
    rw [← hStep, step, hk]
    simp [onRecv, hState]
  cases hMessage
  intro k' hk'
  rw [onMessage] at hk'
  split at hk'
  · obtain ⟨k₀, hk₀, ⟨-, rfl⟩ | ⟨hNe, -⟩⟩ := getElem?_modify_eq_some hk'
    · cases hk.symm.trans hk₀
      exact ⟨AList.lookup_erase _ _, by simp [hState, Handler.request?]⟩
    · exact absurd rfl hNe
  · rename_i hNone
    cases hk.symm.trans hk'
    exact ⟨hNone, by simp [hState, Handler.request?]⟩

theorem Owned.idleFor (h : r.Owned task) (hLacks : r.Lacks c id) : r.IdleFor task c id := by
  intro w hw hConn hId
  by_contra hRuns
  obtain ⟨i, hi⟩ := mem_iff_getElem?.mp hw
  have hLt := h.known w hw
  rw [hConn] at hLt
  have hk := getElem?_eq_getElem hLt
  obtain ⟨hLookup, -⟩ := h.conns c _ hk i w hi hConn (by simpa using hRuns)
  rw [hId, (hLacks _ hk).1] at hLookup
  cases hLookup

/-! ## Ownership -/

/-- **Forwarders are owned by their subscription.** In every run of `tidy` steps, an id of a
connection has at most one forwarder whose `task` runs; after UNSUBSCRIBE it has none until it is
subscribed to again; and once the handler of a connection has ended, the connection has none. -/
theorem forwarders_owned {groupCapacity : Nat}
    (hRun : Run (step checks) (fun r e => r.tidy task e = true) (new groupCapacity) r) :
    (∀ (i j : Nat) (w w' : Forwarder), r.forwarders[i]? = some w → r.forwarders[j]? = some w' →
      w.conn = w'.conn → w.req.subscribeId = w'.req.subscribeId →
      w.running task = true → w'.running task = true → i = j) ∧
    (∀ (c : Nat) (k : Connection) (id : UInt64) (r₁ r₂ : Relay), r.conns[c]? = some k →
      k.handler = .receiving → r.step checks (.recv c (.message (.unsubscribe id))) = some r₁ →
      Run (step checks) (fun r e => r.tidy task e = true ∧ ¬ Subscribes c id e) r₁ r₂ →
      r₂.IdleFor task c id) ∧
    ∀ (c : Nat) (k : Connection), r.conns[c]? = some k → k.handler = .ended → r.Idle task c := by
  have hOwned := owned_run hRun
  refine ⟨?_, ?_, ?_⟩
  · intro i j w w' hw hw' hConn hId hRuns hRuns'
    have hLt := hOwned.known w (mem_of_getElem? hw)
    have hk := getElem?_eq_getElem hLt
    obtain ⟨hLookup, -⟩ := hOwned.conns w.conn _ hk i w hw rfl hRuns
    obtain ⟨hLookup', -⟩ := hOwned.conns w.conn _ hk j w' hw' hConn.symm hRuns'
    rw [hId, hLookup'] at hLookup
    exact (some_inj.mp hLookup).symm
  · intro c k id r₁ r₂ hk hState hStep hRest
    have hLacks : r₂.Lacks c id :=
      lacks_run (lacks_of_unsubscribe hk hState hStep) (fun _ _ hOk => hOk.2) hRest
    have hOwned₁ : r₁.Owned task := owned_move hOwned rfl (move_of_step hStep)
    have hOwned₂ : r₂.Owned task := by
      refine hRest.invariant hOwned₁ ?_
      intro r r' e hKept hOk hStep
      exact owned_move hKept hOk.1 (move_of_step hStep)
    exact hOwned₂.idleFor hLacks
  · intro c k hk hState w hw hConn
    by_contra hRuns
    obtain ⟨i, hi⟩ := mem_iff_getElem?.mp hw
    obtain ⟨-, hFree⟩ := hOwned.conns c k hk i w hi hConn (by simpa using hRuns)
    rw [hState] at hFree
    exact hFree (.inl trivial)

open HubSystem (video)

def announced : List RelayEvent :=
  [.accept, .recv 0 (.message (.setup protoVersion .both)), .send 0 true,
    .recv 0 (.message (.announce video.ns)), .send 0 true]

def subscribed (steps : Nat) : List RelayEvent :=
  [.recv 0 (.message (.subscribe 7 3 video .nextObject 0)), .send 0 true] ++
    replicate steps (.act 0)

/-- An id that is subscribed to again after UNSUBSCRIBE, and given up again. -/
theorem forwarders_owned_resubscribed : ∃ r r₁ w,
    Run (step true) (fun r e => r.tidy .reader e = true) (new 2) r ∧ w ∈ r.forwarders ∧
    w.conn = 0 ∧ w.req.subscribeId = 7 ∧ w.running .reader = true ∧
    r.step true (.recv 0 (.message (.unsubscribe 7))) = some r₁ ∧ r₁.IdleFor .reader 0 7 := by
  obtain ⟨r, hRun, hTest⟩ := exists_run_of_exec (step true) (fun r e => r.tidy .reader e = true)
    (new 2) (announced ++ subscribed 4 ++ [.recv 0 (.message (.unsubscribe 7))] ++ subscribed 3)
    (fun r => (r.conns[0]?).any fun (k : Connection) =>
      (r.forwarders[1]?).any fun (w : Forwarder) =>
        decide (k.handler = .receiving ∧ w.conn = 0 ∧ w.req.subscribeId = 7 ∧
          w.running .reader = true))
    (by decide +kernel)
  obtain ⟨k, hk, hTest⟩ := (any_eq_true _ _).mp hTest
  obtain ⟨w, hw, hTest⟩ := (any_eq_true _ _).mp hTest
  obtain ⟨hState, hConn, hId, hRuns⟩ := of_decide_eq_true hTest
  have hStep : r.step true (.recv 0 (.message (.unsubscribe 7))) =
      some (r.onMessage 0 k (.unsubscribe 7)) := by
    rw [step, hk]
    simp [onRecv, hState]
  exact ⟨r, _, w, hRun, mem_of_getElem? hw, hConn, hId, hRuns, hStep,
    (forwarders_owned hRun).2.1 0 k 7 _ _ hk hState hStep .start⟩

/-- The first forwarder outlives UNSUBSCRIBE; the reading task outlives the handler. -/
theorem not_forwarders_owned :
    (∃ (r : Relay) (w w' : Forwarder), Run (step true) Always (new 2) r ∧
      r.forwarders[0]? = some w ∧ r.forwarders[1]? = some w' ∧ w.conn = w'.conn ∧
      w.req.subscribeId = w'.req.subscribeId ∧
      w.running .writer = true ∧ w'.running .writer = true) ∧
    (∃ (r r₁ : Relay) (k : Connection), Run (step true) Always (new 2) r ∧
      r.conns[0]? = some k ∧ k.handler = .receiving ∧
      r.step true (.recv 0 (.message (.unsubscribe 7))) = some r₁ ∧ ¬ r₁.IdleFor .writer 0 7) ∧
    (∃ (r : Relay) (k : Connection), Run (step true) Always (new 2) r ∧
      r.conns[0]? = some k ∧ k.handler = .ended ∧ ¬ r.Idle .writer 0) ∧
    ∃ (r : Relay) (k : Connection), Run (step true) Always (new 2) r ∧
      r.conns[0]? = some k ∧ k.handler = .ended ∧ r.forwarders.length = 1 ∧
      ¬ r.Idle .reader 0 := by
  refine ⟨?_, ?_, ?_, ?_⟩
  · obtain ⟨r, hRun, hTest⟩ := exists_run_of_exec (step true) Always (new 2)
      (announced ++ subscribed 4 ++ subscribed 3)
      (fun r => (r.forwarders[0]?).any fun (w : Forwarder) =>
        (r.forwarders[1]?).any fun (w' : Forwarder) =>
          decide (w.conn = w'.conn ∧ w.req.subscribeId = w'.req.subscribeId ∧
            w.running .writer = true ∧ w'.running .writer = true))
      (by decide +kernel)
    obtain ⟨w, hw, hTest⟩ := (any_eq_true _ _).mp hTest
    obtain ⟨w', hw', hTest⟩ := (any_eq_true _ _).mp hTest
    exact ⟨r, w, w', hRun, hw, hw', of_decide_eq_true hTest⟩
  · obtain ⟨r, hRun, hTest⟩ := exists_run_of_exec (step true) Always (new 2)
      (announced ++ subscribed 4 ++ subscribed 3)
      (fun r => (r.conns[0]?).any fun (k : Connection) =>
        (r.step true (.recv 0 (.message (.unsubscribe 7)))).any fun (r₁ : Relay) =>
          decide (k.handler = .receiving ∧ ¬ r₁.IdleFor .writer 0 7))
      (by decide +kernel)
    obtain ⟨k, hk, hTest⟩ := (any_eq_true _ _).mp hTest
    obtain ⟨r₁, hStep, hTest⟩ := (any_eq_true _ _).mp hTest
    obtain ⟨hState, hRuns⟩ := of_decide_eq_true hTest
    exact ⟨r, r₁, k, hRun, hk, hState, hStep, hRuns⟩
  · obtain ⟨r, hRun, hTest⟩ := exists_run_of_exec (step true) Always (new 2)
      (announced ++ subscribed 4 ++ subscribed 3 ++ [.recv 0 .failed, .act 0])
      (fun r => (r.conns[0]?).any fun (k : Connection) =>
        decide (k.handler = .ended ∧ ¬ r.Idle .writer 0))
      (by decide +kernel)
    obtain ⟨k, hk, hTest⟩ := (any_eq_true _ _).mp hTest
    exact ⟨r, k, hRun, hk, of_decide_eq_true hTest⟩
  · obtain ⟨r, hRun, hTest⟩ := exists_run_of_exec (step true) Always (new 2)
      (announced ++ subscribed 4 ++ [.recv 0 .closed, .finish 0, .act 0, .act 0, .act 0])
      (fun r => (r.conns[0]?).any fun (k : Connection) =>
        decide (k.handler = .ended ∧ r.forwarders.length = 1 ∧ ¬ r.Idle .reader 0))
      (by decide +kernel)
    obtain ⟨k, hk, hTest⟩ := (any_eq_true _ _).mp hTest
    exact ⟨r, k, hRun, hk, of_decide_eq_true hTest⟩

end Relay

end DirectWire.Moq
