import DirectWire.Homa.Transport

/-!
# Homa — sender core

`transport/sender.rs`. The two `while` loops of the source (`pump` and `handle_resend`) are
recursions on fuel, which is enough (`pumpLoop_fuel`, `resendLoop_fuel`). Every offset sum is taken
in `Nat`; it fits a `usize` unless the packet size is within one message length of `usize::MAX`.

As long as `next_send` is on the grid of packet-sized slots, every DATA packet carries exactly one
slot (`SenderCore.Kept`). Everything but RESEND keeps it there for any packet from the network;
RESEND keeps it when the range it names ends on the grid or with the message (`ResendAligned`).
-/

namespace DirectWire.Homa

open Lib

structure OutMsg where
  data : Bytes
  grantedTo : Nat
  nextSend : Nat
  /-- When the last byte went out; the message then lingers. -/
  doneAt : Option Instant
  lastProgress : Instant
  /-- Whether the first chunk is sent again until the message is confirmed. -/
  retransmit : Bool
deriving DecidableEq, Repr

/-- The range of the chunk that contains `offset`. -/
def OutMsg.chunkRange (m : OutMsg) (offset packetSize : Nat) : Nat × Nat :=
  let start := offset / packetSize * packetSize
  (start, min (start + packetSize) m.data.length)

structure SenderCore where
  cfg : TransportConfig
  out : Map MsgKey OutMsg
  retransmits : UInt64

/-- The DATA datagram for bytes `start..stop` of a message. -/
def dataPacket (data : Bytes) (msgId : UInt64) (start stop : Nat) : Bytes :=
  let payload := (data.drop start).take (stop - start)
  let pkt : Packet :=
    { typ := .data
      priority := priorityForLen data.length
      msgId
      msgLen := UInt32.ofNat data.length
      offset := UInt32.ofNat start
      length := UInt32.ofNat payload.length }
  pkt.encode payload

namespace SenderCore

variable (s : SenderCore)

def new (cfg : TransportConfig) : SenderCore := ⟨cfg, ∅, 0⟩

/-- The loop of `pump`: chunks from `next` on until `limit` is reached, with
the offset it stops at. -/
def pumpLoop (cfg : TransportConfig) (dest : SocketAddr) (msgId : UInt64) (data : Bytes)
    (limit : Nat) : Nat → Nat → List Action × Nat
  | 0, next => ([], next)
  | fuel + 1, next =>
    if next < limit then
      let stop := min (next + cfg.packetSize) data.length
      let (rest, last) := pumpLoop cfg dest msgId data limit fuel stop
      (.send dest (dataPacket data msgId next stop) :: rest, last)
    else ([], next)

/-- Send the chunks between `next_send` and `limit`. -/
def pump (key : MsgKey) (limit : Nat) (now : Instant) : SenderCore × List Action :=
  match s.out.lookup key with
  | none => (s, [])
  | some msg =>
    -- everything is sent; the message only lingers
    if msg.doneAt.isSome then (s, [])
    else
      -- a limit past the end means the whole message
      let limit := min limit msg.data.length
      let (actions, next) :=
        pumpLoop s.cfg key.1 key.2 msg.data limit (limit - msg.nextSend) msg.nextSend
      let msg := { msg with
        nextSend := next
        grantedTo := max msg.grantedTo limit
        lastProgress := now
        doneAt := if next ≥ msg.data.length then some now else none }
      ({ s with out := s.out.insert key msg }, actions)

def startInner (dest : SocketAddr) (msgId : UInt64) (data : Bytes) (now : Instant)
    (retransmit : Bool) : SenderCore × List Action :=
  let unscheduled := min s.cfg.unscheduledBytes data.length
  let msg : OutMsg :=
    { data
      grantedTo := unscheduled
      nextSend := 0
      doneAt := none
      lastProgress := now
      retransmit }
  let key := (dest, msgId)
  pump { s with out := s.out.insert key msg } key unscheduled now

/-- Start a message: everything inside the unscheduled window goes out at once. -/
def start (dest : SocketAddr) (msgId : UInt64) (data : Bytes) (now : Instant) :
    SenderCore × List Action := s.startInner dest msgId data now false

/-- Start a message whose first chunk is sent again until it is confirmed. -/
def startRetransmit (dest : SocketAddr) (msgId : UInt64) (data : Bytes) (now : Instant) :
    SenderCore × List Action := s.startInner dest msgId data now true

def handleGrant (src : SocketAddr) (pkt : Packet) (now : Instant) : SenderCore × List Action :=
  let key := (src, pkt.msgId)
  match s.out.lookup key with
  | none => (s, [])
  | some msg =>
    let newLimit := min pkt.offset.toNat msg.data.length
    -- a repeated or reordered GRANT unlocks nothing
    if newLimit ≤ msg.grantedTo then (s, [])
    else s.pump key newLimit now

/-- The loop of `handle_resend`: the chunks that cover `off..stop`. -/
def resendLoop (cfg : TransportConfig) (dest : SocketAddr) (msgId : UInt64) (msg : OutMsg)
    (stop : Nat) : Nat → Nat → List Action
  | 0, _ => []
  | fuel + 1, off =>
    if off < stop then
      let (s, e) := msg.chunkRange off cfg.packetSize
      .send dest (dataPacket msg.data msgId s e) ::
        resendLoop cfg dest msgId msg stop fuel (max e (s + 1))
    else []

def resendEnd (msg : OutMsg) (pkt : Packet) : Nat :=
  min (min pkt.offset.toNat msg.data.length + pkt.length.toNat) msg.data.length

/-- RESEND: send the chunks of the range again and count the range as sent. -/
def handleResend (src : SocketAddr) (pkt : Packet) (now : Instant) : SenderCore × List Action :=
  let key := (src, pkt.msgId)
  match s.out.lookup key with
  | none => (s, [])
  | some msg =>
    let start := min pkt.offset.toNat msg.data.length
    let stop := resendEnd msg pkt
    -- whole chunks, also where the range begins or ends inside one
    let actions := resendLoop s.cfg src pkt.msgId msg stop (stop - start) start
    let msg := { msg with grantedTo := max msg.grantedTo stop }
    let msg :=
      -- to the end of the range, not to the end of the last chunk sent: this is
      -- where `next_send` can leave the grid
      if msg.nextSend < stop then
        { msg with
          nextSend := stop
          doneAt := if stop ≥ msg.data.length ∧ msg.doneAt.isNone then some now else msg.doneAt }
      else msg
    let msg := { msg with lastProgress := now }
    ({ s with out := s.out.insert key msg }, actions)

def handleBusy (src : SocketAddr) (pkt : Packet) (now : Instant) : SenderCore :=
  let key := (src, pkt.msgId)
  match s.out.lookup key with
  | none => s
  | some msg => { s with out := s.out.insert key { msg with lastProgress := now } }

/-- One message of `tick`: the first chunk of a finished, unconfirmed
message, or the last chunk sent of a stalled one. -/
def tickKey (now : Instant) (s : SenderCore) (key : MsgKey) :
    Outcome Empty (SenderCore × List Action) :=
  match s.out.lookup key with
  | none => .ok (s, [])
  | some msg =>
    let touched := s.out.insert key { msg with lastProgress := now }
    if msg.doneAt.isSome then
      -- all of it may have been lost: send the first chunk again
      if msg.retransmit ∧ durationSince now msg.lastProgress ≥ s.cfg.retransmitTimeout then
        .ok ({ s with out := touched, retransmits := s.retransmits + 1 },
          [.send key.1 (dataPacket msg.data key.2 0 (min s.cfg.packetSize msg.data.length))])
      else .ok (s, [])
    else if durationSince now msg.lastProgress < s.cfg.pokeTimeout then .ok (s, [])
    else
      -- poke the receiver with the last chunk that was sent
      let lastOff :=
        if msg.nextSend = 0 then 0
        else (msg.nextSend - 1) / s.cfg.packetSize * s.cfg.packetSize
      let (start, stop) := msg.chunkRange lastOff s.cfg.packetSize
      .ok ({ s with out := touched }, [.send key.1 (dataPacket msg.data key.2 start stop)])

def reap (now : Instant) : SenderCore :=
  { s with out := s.out.retain fun _ m =>
      match m.doneAt with
      | none => true
      | some t => durationSince now t < s.cfg.linger }

/-- Periodic work: reap, then retransmit or poke every remaining message. -/
def tick (ord : HashOrder MsgKey) (s : SenderCore) (now : Instant) :
    Outcome Empty (SenderCore × List Action) :=
  -- messages past their linger period get no packet any more
  let s := s.reap now
  forEach (tickKey now) s (s.out.iterKeys ord)

/-- Whether the message has been sent completely; an unknown one counts. -/
def isDone (dest : SocketAddr) (msgId : UInt64) : Bool :=
  match s.out.lookup (dest, msgId) with
  | none => true
  | some m => m.doneAt.isSome

def finish (dest : SocketAddr) (msgId : UInt64) : SenderCore :=
  { s with out := s.out.erase (dest, msgId) }

/-- The peer has the message: forget it if it is sent, else only stop the
retransmission. -/
def confirm (dest : SocketAddr) (msgId : UInt64) : SenderCore :=
  let key := (dest, msgId)
  match s.out.lookup key with
  | none => s
  | some m =>
    if m.doneAt.isSome then { s with out := s.out.erase key }
    -- not fully sent yet: GRANTs drive the rest
    else { s with out := s.out.insert key { m with retransmit := false } }

end SenderCore

/-! ## Chunks on the grid -/

def IsChunk (size : Nat) (data : Bytes) (msgId : UInt64) (bytes : Bytes) : Prop :=
  ∃ i, (i * size < data.length ∨ i = 0) ∧
    bytes = dataPacket data msgId (i * size) (min (i * size + size) data.length)

/-- `offset` is on the grid, or at the end of the message. -/
def OnGrid (size len offset : Nat) : Prop := offset ≤ len ∧ (size ∣ offset ∨ offset = len)

instance (size len offset : Nat) : Decidable (OnGrid size len offset) :=
  inferInstanceAs (Decidable (_ ∧ _))

theorem isChunk_chunkRange (m : OutMsg) {size off} (msgId : UInt64)
    (h : off < m.data.length ∨ off = 0) :
    IsChunk size m.data msgId
      (dataPacket m.data msgId (m.chunkRange off size).1 (m.chunkRange off size).2) := by
  refine ⟨off / size, ?_, rfl⟩
  rcases h with h | rfl
  · -- the slot of an offset inside the message starts inside it
    exact .inl (lt_of_le_of_lt (Nat.div_mul_le_self off size) h)
  · exact .inr (Nat.zero_div size)

namespace SenderCore

/-- Every message being sent is registered under its key, and its
`next_send` is on the grid. `R key data` says that `data` was started under
`key`. -/
structure Good (R : MsgKey → Bytes → Prop) (cfg : TransportConfig) (s : SenderCore) : Prop where
  cfg_eq : s.cfg = cfg
  out : s.out.All fun key m => R key m.data ∧ OnGrid cfg.packetSize m.data.length m.nextSend

/-- The action sends one whole slot of a registered message to its receiver. -/
def Emits (R : MsgKey → Bytes → Prop) (cfg : TransportConfig) (a : Action) : Prop :=
  ∃ key data bytes, R key data ∧ IsChunk cfg.packetSize data key.2 bytes ∧ a = .send key.1 bytes

def Kept (R : MsgKey → Bytes → Prop) (cfg : TransportConfig) (r : SenderCore × List Action) :
    Prop :=
  Good R cfg r.1 ∧ ∀ a ∈ r.2, Emits R cfg a

variable {R : MsgKey → Bytes → Prop} {cfg : TransportConfig} {s : SenderCore}
  {dest src : SocketAddr} {msgId : UInt64} {data : Bytes} {now : Instant} {key : MsgKey}
  {pkt : Packet} {msg : OutMsg}

section

variable (h : Good R cfg s)

include h

theorem Good.kept_nil : Kept R cfg (s, []) := ⟨h, by simp⟩

theorem Good.insert (hR : R key msg.data)
    (hGrid : OnGrid cfg.packetSize msg.data.length msg.nextSend) :
    Good R cfg { s with out := s.out.insert key msg } :=
  ⟨h.cfg_eq, h.out.insert ⟨hR, hGrid⟩⟩

omit h in
theorem pumpLoop_fuel {limit fuel next : Nat} (hLimit : limit ≤ data.length)
    (hFuel : limit - next ≤ fuel) :
    pumpLoop cfg dest msgId data limit (fuel + 1) next =
      pumpLoop cfg dest msgId data limit fuel next := by
  have hSize := cfg.packetSize_pos
  induction fuel generalizing next with
  | zero =>
    have hEnd : ¬ next < limit := by omega
    simp only [pumpLoop, if_neg hEnd]
  | succ fuel ih =>
    rw [pumpLoop]
    conv_rhs => rw [pumpLoop]
    split
    · -- each round moves at least one byte on
      have hMove : limit - min (next + cfg.packetSize) data.length ≤ fuel := by omega
      dsimp only
      rw [ih hMove]
    · rfl

omit h in
theorem pumpLoop_grid (dest : SocketAddr) (msgId : UInt64) (fuel : Nat) {limit next}
    (hLimit : limit ≤ data.length) (hGrid : OnGrid cfg.packetSize data.length next) :
    OnGrid cfg.packetSize data.length (pumpLoop cfg dest msgId data limit fuel next).2 ∧
      ∀ a ∈ (pumpLoop cfg dest msgId data limit fuel next).1,
        ∃ bytes, IsChunk cfg.packetSize data msgId bytes ∧ a = .send dest bytes := by
  induction fuel generalizing next with
  | zero => exact ⟨hGrid, by simp [pumpLoop]⟩
  | succ fuel ih =>
    rw [pumpLoop]
    split
    · rename_i hNext
      -- below the limit `next` is not the end, so it is a slot boundary
      obtain ⟨i, rfl⟩ : cfg.packetSize ∣ next := by
        rcases hGrid.2 with h | h
        · exact h
        · omega
      rw [Nat.mul_comm] at hNext ⊢
      have hStop : OnGrid cfg.packetSize data.length
          (min (i * cfg.packetSize + cfg.packetSize) data.length) := by
        refine ⟨Nat.min_le_right _ _, ?_⟩
        rcases Nat.le_total (i * cfg.packetSize + cfg.packetSize) data.length with h | h
        · rw [Nat.min_eq_left h]
          exact .inl ⟨i + 1, by ring⟩
        · exact .inr (Nat.min_eq_right h)
      obtain ⟨hLast, hRest⟩ := ih hStop
      refine ⟨hLast, fun a ha => ?_⟩
      rcases List.mem_cons.mp ha with rfl | ha
      · exact ⟨_, ⟨i, .inl (by omega), rfl⟩, rfl⟩
      · exact hRest a ha
    · exact ⟨hGrid, by simp⟩

theorem pump_kept (limit : Nat) : Kept R cfg (s.pump key limit now) := by
  unfold pump
  split
  · exact h.kept_nil
  · rename_i msg hMsg
    split
    · exact h.kept_nil
    · obtain ⟨hR, hGrid⟩ := h.out key msg hMsg
      rw [h.cfg_eq]
      -- the loop starts at `next_send`, which the invariant has on the grid
      obtain ⟨hNext, hSends⟩ := pumpLoop_grid key.1 key.2
        (min limit msg.data.length - msg.nextSend)
        (Nat.min_le_right limit msg.data.length) hGrid
      refine ⟨⟨rfl, h.out.insert ⟨hR, hNext⟩⟩, fun a ha => ?_⟩
      obtain ⟨bytes, hChunk, rfl⟩ := hSends a ha
      exact ⟨key, msg.data, bytes, hR, hChunk, rfl⟩

theorem startInner_kept {retransmit} (hR : R (dest, msgId) data) :
    Kept R cfg (s.startInner dest msgId data now retransmit) :=
  -- a message starts at offset zero, on every grid
  pump_kept (h.insert hR ⟨Nat.zero_le _, .inl (dvd_zero _)⟩) _

theorem handleGrant_kept : Kept R cfg (s.handleGrant src pkt now) := by
  unfold handleGrant
  dsimp only
  split
  · exact h.kept_nil
  · split
    · exact h.kept_nil
    · exact pump_kept h _

omit h in
theorem chunkRange_past {size off} (m : OutMsg) (hSize : 0 < size) (hOff : off < m.data.length) :
    off < max (m.chunkRange off size).2 ((m.chunkRange off size).1 + 1) := by
  have hSlot : off < off / size * size + size := Nat.lt_div_mul_add hSize
  simp only [OutMsg.chunkRange]
  omega

omit h in
theorem resendLoop_fuel {stop fuel off : Nat} (hStop : stop ≤ msg.data.length)
    (hFuel : stop - off ≤ fuel) :
    resendLoop cfg dest msgId msg stop (fuel + 1) off =
      resendLoop cfg dest msgId msg stop fuel off := by
  induction fuel generalizing off with
  | zero =>
    have hEnd : ¬ off < stop := by omega
    simp only [resendLoop, if_neg hEnd]
  | succ fuel ih =>
    rw [resendLoop]
    conv_rhs => rw [resendLoop]
    split
    · rename_i hOff
      -- the next round starts further on, so the fuel left is enough
      have hPast := chunkRange_past msg cfg.packetSize_pos (lt_of_lt_of_le hOff hStop)
      dsimp only
      rw [ih (by omega)]
    · rfl

omit h in
theorem resendLoop_chunks {stop fuel off} (hStop : stop ≤ msg.data.length) :
    ∀ a ∈ resendLoop cfg dest msgId msg stop fuel off,
      ∃ bytes, IsChunk cfg.packetSize msg.data msgId bytes ∧ a = .send dest bytes := by
  induction fuel generalizing off with
  | zero => simp [resendLoop]
  | succ fuel ih =>
    rw [resendLoop]
    split
    · rename_i hOff
      intro a ha
      rcases List.mem_cons.mp ha with rfl | ha
      · exact ⟨_, isChunk_chunkRange msg msgId (.inl (lt_of_lt_of_le hOff hStop)), rfl⟩
      · exact ih a ha
    · simp

omit h in
theorem resendEnd_le (msg : OutMsg) (pkt : Packet) : resendEnd msg pkt ≤ msg.data.length :=
  Nat.min_le_right _ _

/-- A RESEND that moves `next_send` moves it to the grid or to the end of
the message. -/
def ResendAligned (s : SenderCore) (src : SocketAddr) (pkt : Packet) : Prop :=
  ∀ msg ∈ s.out.lookup (src, pkt.msgId), msg.nextSend < resendEnd msg pkt →
    OnGrid s.cfg.packetSize msg.data.length (resendEnd msg pkt)

instance (s : SenderCore) (src : SocketAddr) (pkt : Packet) : Decidable (ResendAligned s src pkt) :=
  inferInstanceAs (Decidable (∀ msg ∈ s.out.lookup (src, pkt.msgId), _ → _))

theorem handleResend_kept (hAligned : ResendAligned s src pkt) :
    Kept R cfg (s.handleResend src pkt now) := by
  unfold handleResend
  dsimp only
  split
  · exact h.kept_nil
  · rename_i msg hMsg
    obtain ⟨hR, hGrid⟩ := h.out _ msg hMsg
    -- the condition, read for the message at hand
    have hEnd := hAligned msg hMsg
    rw [h.cfg_eq] at hEnd ⊢
    refine ⟨?_, fun a ha => ?_⟩
    · -- the only field the grid is about is `next_send`
      split
      · rename_i hNext
        exact ⟨rfl, h.out.insert ⟨hR, hEnd hNext⟩⟩
      · exact ⟨rfl, h.out.insert ⟨hR, hGrid⟩⟩
    · obtain ⟨bytes, hChunk, rfl⟩ := resendLoop_chunks (resendEnd_le msg pkt) a ha
      exact ⟨(src, pkt.msgId), msg.data, bytes, hR, hChunk, rfl⟩

theorem handleBusy_good : Good R cfg (s.handleBusy src pkt now) := by
  unfold handleBusy
  dsimp only
  split
  · exact h
  · rename_i msg hMsg
    obtain ⟨hR, hGrid⟩ := h.out _ msg hMsg
    exact h.insert hR hGrid

theorem tickKey_kept {s' out} (hTick : tickKey now s key = .ok (s', out)) :
    Kept R cfg (s', out) := by
  unfold tickKey at hTick
  split at hTick
  · cases hTick
    exact h.kept_nil
  · rename_i msg hMsg
    obtain ⟨hR, hGrid⟩ := h.out _ msg hMsg
    have hTouched :
        Good R cfg { s with out := s.out.insert key { msg with lastProgress := now } } :=
      h.insert hR hGrid
    split at hTick
    · split at hTick
      · cases hTick
        -- sent again: the chunk at offset zero
        refine ⟨⟨h.cfg_eq, hTouched.out⟩, ?_⟩
        simp only [List.mem_singleton, forall_eq]
        refine ⟨key, msg.data, _, hR, ⟨0, .inr rfl, ?_⟩, rfl⟩
        rw [h.cfg_eq, Nat.zero_mul, Nat.zero_add]
      · cases hTick
        exact h.kept_nil
    · split at hTick
      · cases hTick
        exact h.kept_nil
      · cases hTick
        -- poked: the chunk that holds byte `next_send - 1`
        refine ⟨hTouched, ?_⟩
        simp only [List.mem_singleton, forall_eq, h.cfg_eq]
        refine ⟨key, msg.data, _, hR, isChunk_chunkRange msg key.2 ?_, rfl⟩
        split
        · exact .inr rfl
        · have hLast := Nat.div_mul_le_self (msg.nextSend - 1) cfg.packetSize
          have := hGrid.1
          exact .inl (by omega)

theorem tick_kept {ord s' out} (hTick : tick ord s now = .ok (s', out)) : Kept R cfg (s', out) :=
  forEach_spec (fun _ _ _ _ hI hKey => tickKey_kept hI hKey)
    (show Good R cfg (s.reap now) from ⟨h.cfg_eq, h.out.retain⟩) hTick

theorem confirm_good : Good R cfg (s.confirm dest msgId) := by
  unfold confirm
  dsimp only
  split
  · exact h
  · rename_i msg hMsg
    split
    · exact ⟨h.cfg_eq, h.out.erase⟩
    · obtain ⟨hR, hGrid⟩ := h.out _ msg hMsg
      exact h.insert hR hGrid

end

end SenderCore

end DirectWire.Homa
