import DirectWire.Homa.Link
import DirectWire.Homa.TxQueue

/-!
# Homa — the transport of one endpoint

`transport/mod.rs`: what the mutex of a transport guards, and what the I/O thread does with a
datagram and on a tick. A merged buffer of Windows is its datagrams (`processBatch_eq`).

Once the sender core has no entry for a message, nothing makes one, and no further DATA packet of
it is queued (`processPacket_silent`, `tick_silent`).
-/

namespace DirectWire.Homa

open Lib Outcome List

structure Transport where
  sender : SenderCore
  receiver : ReceiverCore
  /-- Messages that wait for `recv`. -/
  completed : List (SocketAddr × Bytes)
  tx : TxInner
  msgCounter : UInt64
  sendTimeout : Duration

namespace Transport

def new (cfg : TransportConfig) (sendTimeout : Duration) : Transport :=
  ⟨.new cfg, .new cfg, [], .new, 1, sendTimeout⟩

def perform (t : Transport) : Action → Transport
  | .deliver src _ data => { t with completed := t.completed ++ [(src, data)] }
  | .send dest bytes => { t with tx := t.tx.push dest bytes }

def drain (t : Transport) (actions : List Action) : Transport := actions.foldl perform t

/-- `process_batch`, for one datagram. -/
def processPacket (checks : Bool) (ord : HashOrder MsgKey) (t : Transport) (src : SocketAddr)
    (datagram : Bytes) (now : Instant) : Outcome Empty Transport :=
  match Packet.decoded datagram with
  | none => ok t
  | some (pkt, payload) =>
    match pkt.typ with
    | .data => do
      let (receiver, actions) ← t.receiver.handleData checks ord src pkt payload now
      ok (drain { t with receiver } actions)
    | .grant =>
      let (sender, actions) := t.sender.handleGrant src pkt now
      ok (drain { t with sender } actions)
    | .resend =>
      let (sender, actions) := t.sender.handleResend src pkt now
      ok (drain { t with sender } actions)
    | .busy => ok { t with sender := t.sender.handleBusy src pkt now }

def tick (checks : Bool) (ordOut ordIn : HashOrder MsgKey) (t : Transport) (now : Instant) :
    Outcome Empty Transport := do
  let (sender, pokes) ← t.sender.tick ordOut now
  let (receiver, actions) ← t.receiver.tick checks ordIn now
  ok (drain { t with sender, receiver } (pokes ++ actions))

def confirm (t : Transport) (dest : SocketAddr) (msgId : UInt64) : Transport :=
  { t with sender := t.sender.confirm dest msgId }

def finish (t : Transport) (dest : SocketAddr) (msgId : UInt64) : Transport :=
  { t with sender := t.sender.finish dest msgId }

end Transport

/-! ## Packets of one message -/

def Concerns (key : MsgKey) (x : Datagram) : Prop :=
  x.1 = key.1 ∧ x.2.head? = some PacketType.data.toU8 ∧ (x.2.drop 2).take 8 = leBytes 8 key.2.toNat

instance decidableConcerns (key : MsgKey) (x : Datagram) : Decidable (Concerns key x) :=
  inferInstanceAs (Decidable (_ ∧ _ ∧ _))

def Action.Concerns (key : MsgKey) : Action → Prop
  | .send dest bytes => Homa.Concerns key (dest, bytes)
  | .deliver _ _ _ => False

variable {dest : SocketAddr}

theorem concerns_encode {key : MsgKey} {p : Packet} {payload : Bytes} :
    Concerns key (dest, p.encode payload) ↔ p.typ = .data ∧ key = (dest, p.msgId) := by
  have hId : ((p.encode payload).drop 2).take 8 = leBytes 8 p.msgId.toNat := by
    simp only [Packet.encode, append_assoc]
    exact take_left' (leBytes_length _ _)
  constructor
  · rintro ⟨rfl, hHead, hTake⟩
    rw [hId] at hTake
    have hTyp := congrArg PacketType.fromU8 (Option.some.inj hHead)
    have hMsgId := congrArg (fun l => UInt64.ofNat (leNat l)) hTake
    rw [PacketType.fromU8_toU8, PacketType.fromU8_toU8] at hTyp
    rw [Packet.ofNat_leNat_u64, Packet.ofNat_leNat_u64] at hMsgId
    exact ⟨Option.some.inj hTyp, Prod.ext rfl hMsgId.symm⟩
  · rintro ⟨hTyp, rfl⟩
    exact ⟨rfl, congrArg (some ∘ PacketType.toU8) hTyp, hId⟩

theorem concerns_dataPacket {key : MsgKey} {data : Bytes} {msgId : UInt64} {start stop : Nat} :
    (Action.send dest (dataPacket data msgId start stop)).Concerns key ↔ key = (dest, msgId) := by
  rw [Action.Concerns, dataPacket, concerns_encode]
  exact ⟨fun h => h.2, fun h => ⟨rfl, h⟩⟩

/-! ## The sender core -/

namespace SenderCore

def Silent (key : MsgKey) (r : SenderCore × List Action) : Prop :=
  r.1.out.lookup key = none ∧ ∀ a ∈ r.2, ¬ a.Concerns key

variable {s : SenderCore} {key : MsgKey} {now : Instant}

variable {key' : MsgKey} {cfg : TransportConfig} {dest src : SocketAddr} {limit : Nat}
  {msgId : UInt64} {pkt : Packet}

section

variable (h : s.out.lookup key = none)

include h

theorem silent_nil : Silent key (s, []) := ⟨h, by simp⟩

theorem lookup_insert_none (msg : OutMsg) (hNe : key ≠ key') :
    (s.out.insert key' msg).lookup key = none := by
  rw [Map.lookup_insert_ite, if_neg hNe]
  exact h

theorem ne_of_lookup {msg} (hMsg : s.out.lookup key' = some msg) : key ≠ key' := by
  rintro rfl
  rw [h] at hMsg
  cases hMsg

omit h in
theorem pumpLoop_concerns {data fuel next} (hNe : key ≠ (dest, msgId)) :
    ∀ a ∈ (pumpLoop cfg dest msgId data limit fuel next).1, ¬ a.Concerns key := by
  induction fuel generalizing next with
  | zero => simp [pumpLoop]
  | succ fuel ih =>
    rw [pumpLoop]
    split
    · refine forall_mem_cons.mpr ⟨fun h => hNe (concerns_dataPacket.mp h), ih⟩
    · simp

theorem pump_silent : Silent key (s.pump key' limit now) := by
  unfold pump
  split
  · exact silent_nil h
  · rename_i msg hMsg
    have hNe := ne_of_lookup h hMsg
    split
    · exact silent_nil h
    · exact ⟨lookup_insert_none h _ hNe, pumpLoop_concerns hNe⟩

omit h in
theorem pump_concerns (hNe : key ≠ key') : ∀ a ∈ (s.pump key' limit now).2, ¬ a.Concerns key := by
  unfold pump
  split
  · simp
  · split
    · simp
    · exact pumpLoop_concerns hNe

theorem startInner_silent {data retransmit} (hNe : key ≠ (dest, msgId)) :
    Silent key (s.startInner dest msgId data now retransmit) :=
  pump_silent (lookup_insert_none h _ hNe)

theorem handleGrant_silent : Silent key (s.handleGrant src pkt now) := by
  unfold handleGrant
  dsimp only
  split
  · exact silent_nil h
  · split
    · exact silent_nil h
    · exact pump_silent h

omit h in
theorem resendLoop_concerns {msg stop fuel off} (hNe : key ≠ (dest, msgId)) :
    ∀ a ∈ resendLoop cfg dest msgId msg stop fuel off, ¬ a.Concerns key := by
  induction fuel generalizing off with
  | zero => simp [resendLoop]
  | succ fuel ih =>
    rw [resendLoop]
    split
    · refine forall_mem_cons.mpr ⟨fun h => hNe (concerns_dataPacket.mp h), ih⟩
    · simp

theorem handleResend_silent : Silent key (s.handleResend src pkt now) := by
  unfold handleResend
  dsimp only
  split
  · exact silent_nil h
  · rename_i msg hMsg
    have hNe := ne_of_lookup h hMsg
    exact ⟨lookup_insert_none h _ hNe, resendLoop_concerns hNe⟩

theorem handleBusy_silent : (s.handleBusy src pkt now).out.lookup key = none := by
  unfold handleBusy
  dsimp only
  split
  · exact h
  · rename_i msg hMsg
    exact lookup_insert_none h _ (ne_of_lookup h hMsg)

theorem tickKey_silent {s' out} (hTick : tickKey now s key' = ok (s', out)) :
    Silent key (s', out) := by
  unfold tickKey at hTick
  split at hTick
  · cases hTick
    exact silent_nil h
  · rename_i msg hMsg
    have hNe := ne_of_lookup h hMsg
    have hTouched := lookup_insert_none h { msg with lastProgress := now } hNe
    split at hTick
    · split at hTick
      · cases hTick
        exact ⟨hTouched, by simpa [concerns_dataPacket] using hNe⟩
      · cases hTick
        exact silent_nil h
    · split at hTick
      · cases hTick
        exact silent_nil h
      · cases hTick
        exact ⟨hTouched, by simpa [concerns_dataPacket] using hNe⟩

theorem tick_silent {ord s' out} (hTick : tick ord s now = ok (s', out)) :
    Silent key (s', out) := by
  refine forEach_spec (I := fun s => s.out.lookup key = none) (Q := fun a => ¬ a.Concerns key)
    ?_ ?_ hTick
  · intro t key' t' out hI hKey
    exact tickKey_silent hI hKey
  · simp only [reap]
    rw [Map.lookup_retain, h]
    rfl

theorem finish_silent (dest : SocketAddr) (msgId : UInt64) :
    (s.finish dest msgId).out.lookup key = none := by
  rw [finish, Map.lookup_erase_ite]
  split
  · rfl
  · exact h

theorem confirm_silent (dest : SocketAddr) (msgId : UInt64) :
    (s.confirm dest msgId).out.lookup key = none := by
  unfold confirm
  dsimp only
  split
  · exact h
  · rename_i msg hMsg
    split
    · exact finish_silent h dest msgId
    · exact lookup_insert_none h _ (ne_of_lookup h hMsg)

end

end SenderCore

/-! ## The receiver core -/

def Action.IsControl (a : Action) : Prop := ∀ key, ¬ a.Concerns key

theorem isControl_encode {p : Packet} {payload : Bytes} (h : p.typ ≠ .data) :
    (Action.send dest (p.encode payload)).IsControl := fun _ hConcerns =>
  h (concerns_encode.mp hConcerns).1

namespace ReceiverCore

variable {checks : Bool} {ord : HashOrder MsgKey} {s s' : ReceiverCore} {now : Instant}
  {out : List Action}

theorem Moves.isControl (h : Moves checks now true s s' out) : ∀ a ∈ out, a.IsControl :=
  h.forall_out fun _ _ => isControl_encode

theorem handleData_control {src pkt payload}
    (h : handleData checks ord s src pkt payload now = ok (s', out)) : ∀ a ∈ out, a.IsControl := by
  have hParts := handleData_parts h
  cases hParts with
  | ignored => exact forall_mem_nil _
  | busy => exact forall_mem_singleton.mpr (isControl_encode nofun)
  | empty _ _ _ hSchedule | completes _ _ _ _ _ _ hSchedule =>
    exact forall_mem_cons.mpr ⟨fun _ h => h, (schedule_moves hSchedule).isControl⟩
  | stores _ _ _ _ _ _ hAdvance hRelief =>
    exact ((advance_moves hAdvance).trans (starveCheck_moves hRelief)).isControl

end ReceiverCore

/-! ## The transport -/

namespace Transport

/-- The core has no entry for the message, and no further packet of it is
queued. -/
structure Silent (key : MsgKey) (t t' : Transport) : Prop where
  out : t'.sender.out.lookup key = none
  queued : ∀ x ∈ t'.tx.packets, Concerns key x → x ∈ t.tx.packets

variable {t t' : Transport} {key : MsgKey} {now : Instant}

theorem drain_sender (t : Transport) (actions : List Action) :
    (t.drain actions).sender = t.sender := by
  induction actions generalizing t with
  | nil => rfl
  | cons a actions ih =>
    refine (ih (t.perform a)).trans ?_
    cases a <;> rfl

theorem drain_queued {actions} (hActions : ∀ a ∈ actions, ¬ a.Concerns key) :
    ∀ x ∈ (t.drain actions).tx.packets, Concerns key x → x ∈ t.tx.packets := by
  induction actions generalizing t with
  | nil => exact fun x hMem _ => hMem
  | cons a actions ih =>
    intro x hMem hConcerns
    obtain ⟨hFirst, hRest⟩ := forall_mem_cons.mp hActions
    have hQueued := ih hRest x hMem hConcerns
    cases a with
    | deliver => exact hQueued
    | send dest bytes =>
      rcases TxInner.mem_push hQueued with rfl | hOld
      · exact absurd hConcerns hFirst
      · exact hOld

theorem drain_silent {sender receiver actions} (hOut : sender.out.lookup key = none)
    (hActions : ∀ a ∈ actions, ¬ a.Concerns key) :
    Silent key t (drain { t with sender, receiver } actions) :=
  ⟨by rw [drain_sender]; exact hOut, drain_queued hActions⟩

variable {checks : Bool} {ord ordIn ordOut : HashOrder MsgKey}

theorem processPacket_silent {src datagram} (hOut : t.sender.out.lookup key = none)
    (h : t.processPacket checks ord src datagram now = ok t') : Silent key t t' := by
  unfold processPacket at h
  split at h
  · cases h
    exact ⟨hOut, fun _ hMem _ => hMem⟩
  · rename_i pkt payload hDecoded
    split at h
    · obtain ⟨⟨receiver, actions⟩, hData, h⟩ := bind_eq_ok.mp h
      cases h
      exact drain_silent hOut fun a hMem => ReceiverCore.handleData_control hData a hMem key
    · cases h
      have hSilent : SenderCore.Silent key (t.sender.handleGrant src pkt now) :=
        SenderCore.handleGrant_silent hOut
      exact drain_silent hSilent.1 hSilent.2
    · cases h
      have hSilent : SenderCore.Silent key (t.sender.handleResend src pkt now) :=
        SenderCore.handleResend_silent hOut
      exact drain_silent hSilent.1 hSilent.2
    · cases h
      exact ⟨SenderCore.handleBusy_silent hOut, fun _ hMem _ => hMem⟩

theorem tick_silent (hOut : t.sender.out.lookup key = none)
    (h : t.tick checks ordOut ordIn now = ok t') : Silent key t t' := by
  obtain ⟨⟨sender, pokes⟩, hSender, h⟩ := bind_eq_ok.mp h
  obtain ⟨⟨receiver, actions⟩, hReceiver, h⟩ := bind_eq_ok.mp h
  cases h
  have hSilent := SenderCore.tick_silent hOut hSender
  refine drain_silent hSilent.1 (forall_mem_append.mpr ⟨hSilent.2, fun a hMem => ?_⟩)
  exact (ReceiverCore.tick_moves hReceiver).isControl a hMem key

/-! ## Merged buffers -/

/-- The loop of `process_batch` cuts the buffer every `stride` bytes. -/
def segments (stride : Nat) (data : Bytes) : List Bytes :=
  if data = [] then []
  else
    let stride := if stride = 0 then data.length else stride
    data.take stride :: segments stride (data.drop stride)
termination_by data.length
decreasing_by grind [length_pos_iff]

/-- A datagram of a batch; its actions wait. -/
def handlePacket (checks : Bool) (ord : HashOrder MsgKey) (src : SocketAddr) (now : Instant)
    (t : Transport) (datagram : Bytes) : Outcome Empty (Transport × List Action) :=
  match Packet.decoded datagram with
  | none => ok (t, [])
  | some (pkt, payload) =>
    match pkt.typ with
    | .data => do
      let (receiver, actions) ← t.receiver.handleData checks ord src pkt payload now
      ok ({ t with receiver }, actions)
    | .grant =>
      let (sender, actions) := t.sender.handleGrant src pkt now
      ok ({ t with sender }, actions)
    | .resend =>
      let (sender, actions) := t.sender.handleResend src pkt now
      ok ({ t with sender }, actions)
    | .busy => ok ({ t with sender := t.sender.handleBusy src pkt now }, [])

def processBatch (checks : Bool) (ord : HashOrder MsgKey) (t : Transport) (src : SocketAddr)
    (data : Bytes) (stride : Nat) (now : Instant) : Outcome Empty Transport := do
  let (t, actions) ← forEach (handlePacket checks ord src now) t (segments stride data)
  ok (t.drain actions)

theorem drain_with (t : Transport) (actions : List Action) (sender receiver) :
    drain { t with sender, receiver } actions = { t.drain actions with sender, receiver } := by
  induction actions generalizing t with
  | nil => rfl
  | cons a actions ih =>
    refine Eq.trans ?_ (ih (t.perform a))
    cases a <;> rfl

/-- What waits to be done is of no concern to the next datagram. -/
theorem processPacket_drain {src d} (actions : List Action) :
    (t.drain actions).processPacket checks ord src d now = (do
      let (t, out) ← t.handlePacket checks ord src now d
      ok (t.drain (actions ++ out))) := by
  have hCores := drain_with t actions t.sender t.receiver
  have hAppend (u : Transport) (out) : u.drain (actions ++ out) = (u.drain actions).drain out :=
    foldl_append
  rw [hCores]
  simp only [processPacket, handlePacket, hAppend]
  split
  · exact congrArg ok hCores.symm
  · split
    · cases t.receiver.handleData checks ord src _ _ now with
      | ok => simp only [ok_bind, drain_with]
      | err e => cases e
      | panic p => rfl
    · simp only [ok_bind, drain_with]
    · simp only [ok_bind, drain_with]
    · exact congrArg ok (drain_with _ actions _ t.receiver).symm

theorem forEach_handlePacket {src} (ds : List Bytes) (actions : List Action) :
    (do let (t, out) ← forEach (handlePacket checks ord src now) t ds
        ok (t.drain (actions ++ out))) =
      ds.foldlM (processPacket checks ord · src · now) (t.drain actions) := by
  induction ds generalizing t actions with
  | nil => simp [forEach]
  | cons d ds ih =>
    rw [foldlM_cons, processPacket_drain, forEach]
    cases t.handlePacket checks ord src now d with
    | ok r =>
      obtain ⟨t₁, out⟩ := r
      simp only [ok_bind, ← ih]
      cases forEach (handlePacket checks ord src now) t₁ ds <;> simp
    | err e => cases e
    | panic p => rfl

/-- **A merged buffer is its datagrams.** `process_batch` cuts the buffer every `stride` bytes,
handles all segments under one lock and performs all actions at the end; the transport is then as if
each segment had come on its own, also where a segment makes the core panic. -/
theorem processBatch_eq (t : Transport) (src : SocketAddr) (data : Bytes) (stride : Nat) :
    t.processBatch checks ord src data stride now =
      (segments stride data).foldlM (processPacket checks ord · src · now) t :=
  forEach_handlePacket _ []

end Transport

end DirectWire.Homa
