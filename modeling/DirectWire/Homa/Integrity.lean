import DirectWire.Lib.Chunks
import DirectWire.Homa.Link

/-!
# Homa — integrity of delivered messages

The receiver trusts a bitmap with one bit for each slot, and a count of received bytes. They agree
as long as every DATA packet carries exactly one slot, which the sender ensures as long as its
`next_send` is on the grid. `handle_resend` sets `next_send` to the end of the range the RESEND
names, which the receiver cuts at its grant, on the grid or not.
-/

namespace DirectWire.Homa

open Lib Outcome List ReceiverCore

/-! ## Reassembly of one message -/

/-- A body holds exactly the marked slots of `data`. -/
structure Body.Fits (size : Nat) (data : Bytes) (b : Body) : Prop where
  totalLen : b.totalLen = data.length
  buf_length : b.buf.length = data.length
  slots : data.length ≤ b.received.length * size
  agree : ∀ j < data.length, b.received[j / size]? = some true → b.buf[j]? = data[j]?
  bytes : b.receivedBytes = (covered size data.length b.received).card

/-- The header and payload of slot `i` of a message. -/
structure IsSlot (size : Nat) (data : Bytes) (i : Nat) (pkt : Packet) (payload : Bytes) : Prop where
  typ : pkt.typ = .data
  msgLen : pkt.msgLen.toNat = data.length
  offset : pkt.offset.toNat = i * size
  inside : i * size < data.length ∨ i = 0
  payload : payload = (data.drop (i * size)).take (min (i * size + size) data.length - i * size)

variable {size i : Nat} {data payload : Bytes} {pkt : Packet} {m m' : InMsg} {now : Instant}

theorem IsSlot.payload_length (h : IsSlot size data i pkt payload) :
    payload.length = min (i * size + size) data.length - i * size := by
  rw [h.payload, length_take, length_drop]
  omega

theorem IsSlot.getElem? (h : IsSlot size data i pkt payload) {j} (hLo : i * size ≤ j)
    (hHi : j < i * size + payload.length) : payload[j - i * size]? = data[j]? := by
  have hLen := h.payload_length
  rw [h.payload, getElem?_take_of_lt (by omega), getElem?_drop]
  congr 1
  omega

theorem new_fits (hSize : 0 < size) (unscheduled : Nat) :
    (InMsg.new data.length size unscheduled now).body.Fits size data where
  totalLen := rfl
  buf_length := length_replicate
  slots := by
    simp only [InMsg.body, InMsg.new, length_replicate]
    -- the slots are the length over the packet size, rounded up, and at least one
    have hCeil : data.length ≤ (data.length + size - 1) / size * size := by
      have := Nat.lt_div_mul_add (a := data.length + size - 1) hSize
      omega
    exact le_trans hCeil (Nat.mul_le_mul_right size (Nat.le_max_left _ _))
  agree := by
    intro j _ hMark
    simp [InMsg.body, InMsg.new, getElem?_replicate] at hMark
  bytes := by simp [InMsg.body, InMsg.new, covered, getElem?_replicate]

theorem write_fits (hSize : 0 < size) (hSlot : IsSlot size data i pkt payload)
    (hFits : m.body.Fits size data) (h : m.write size pkt payload now = ok m') :
    m'.body.Fits size data := by
  unfold InMsg.write at h
  split at h
  · rename_i hTakes
    rw [bind_eq_ok] at h
    obtain ⟨buf, hBuf, h⟩ := h
    cases h
    -- the offset is a slot's start, so the slot it marks is the one it fills
    have hIdx : pkt.offset.toNat / size = i := by rw [hSlot.offset, Nat.mul_div_cancel _ hSize]
    rw [hSlot.offset] at hBuf
    have hFree : m.received[i]? = some false := by
      simp only [InMsg.takes, hIdx, Bool.and_eq_true, beq_iff_eq] at hTakes
      exact hTakes.1
    have hLen := hSlot.payload_length
    refine ⟨hFits.totalLen, (length_overwrite hBuf).trans hFits.buf_length, ?_, ?_, ?_⟩
    · simpa [InMsg.body] using hFits.slots
    · intro j hj hMark
      simp only [InMsg.body, hIdx] at hMark ⊢
      rw [getElem?_overwrite hBuf]
      by_cases hij : j / size = i
      · -- the slot just written
        obtain ⟨hLo, hHi⟩ := (div_eq_slot hSize).mp hij
        have hIn : j < i * size + payload.length := by omega
        rw [if_pos ⟨hLo, hIn⟩, hSlot.getElem? hLo hIn]
      · -- a slot marked before
        have hOut : ¬ (i * size ≤ j ∧ j < i * size + payload.length) := by
          rintro ⟨hLo, hHi⟩
          exact hij ((div_eq_slot hSize).mpr ⟨hLo, by omega⟩)
        rw [if_neg hOut]
        rw [getElem?_set_ne (Ne.symm hij)] at hMark
        exact hFits.agree j hj hMark
    · simp only [InMsg.body, hIdx]
      -- the slot was free, so its bytes are counted for the first time
      rw [card_covered_set hSize hFree, hLen]
      congr 1
      exact hFits.bytes
  · cases h
    exact hFits

theorem Body.Fits.complete {b : Body} (h : b.Fits size data)
    (hDone : b.receivedBytes = b.totalLen) : b.buf = data := by
  -- every byte is counted, so every byte lies in a marked slot
  have hAll := forall_of_card_covered (h.bytes.symm.trans (hDone.trans h.totalLen))
  apply ext_getElem?
  intro j
  rcases Nat.lt_or_ge j data.length with hj | hj
  · exact h.agree j hj (hAll j hj)
  · rw [getElem?_eq_none (h.buf_length ▸ hj), getElem?_eq_none hj]

theorem Body.Fits.exists_free {b : Body} (hSize : 0 < size) (h : b.Fits size data)
    (hOpen : b.receivedBytes ≠ b.totalLen) :
    ∃ i, b.received[i]? = some false ∧ i * size < b.totalLen := by
  rw [h.totalLen] at hOpen ⊢
  exact exists_unmarked hSize h.slots (h.bytes ▸ hOpen)

theorem decoded_chunk {msgId bytes} (hLen : data.length ≤ maxMsgLen)
    (h : IsChunk size data msgId bytes) :
    ∃ i pkt payload, Packet.decoded bytes = some (pkt, payload) ∧ pkt.msgId = msgId ∧
      IsSlot size data i pkt payload := by
  obtain ⟨i, hInside, rfl⟩ := h
  have hMax : maxMsgLen < 2 ^ 32 := by decide
  -- offset and length are written as `u32` and read back unchanged
  have hOff : i * size < 2 ^ 32 := by
    rcases hInside with h | rfl
    · omega
    · simp
  set payload := (data.drop (i * size)).take (min (i * size + size) data.length - i * size)
    with hPayload
  have hPayLen : payload.length < 2 ^ 32 := by
    rw [hPayload, length_take, length_drop]
    omega
  let pkt : Packet :=
    ⟨.data, priorityForLen data.length, msgId, UInt32.ofNat data.length,
      UInt32.ofNat (i * size), UInt32.ofNat payload.length⟩
  have hDecode : Packet.decode (pkt.encode payload) = ok (pkt, payload) :=
    Packet.decode_encode fun _ => UInt32.toNat_ofNat_of_lt' hPayLen
  refine ⟨i, pkt, payload, ?_, rfl, rfl, UInt32.toNat_ofNat_of_lt' (lt_of_le_of_lt hLen hMax),
    UInt32.toNat_ofNat_of_lt' hOff, hInside, rfl⟩
  exact Packet.decoded_eq_some.mpr hDecode

namespace Link

/-! ## The invariant of the link -/

/-- `data` was started towards `receiverAddr` under the key's id. -/
def Registered (receiverAddr : SocketAddr) (started : Map UInt64 Bytes) (key : MsgKey)
    (data : Bytes) : Prop :=
  key.1 = receiverAddr ∧ started.lookup key.2 = some data

/-- What the receiver holds under a key: an incomplete message from the
sender, of which it has exactly the marked slots. -/
def Reassembles (senderAddr : SocketAddr) (size : Nat) (started : Map UInt64 Bytes)
    (key : MsgKey) (b : Body) : Prop :=
  key.1 = senderAddr ∧ b.receivedBytes ≠ b.totalLen ∧
    ∃ data, started.lookup key.2 = some data ∧ b.Fits size data

structure Inv (cfg : TransportConfig) (senderAddr receiverAddr : SocketAddr) (l : Link) : Prop where
  sender : l.sender.Good (Registered receiverAddr l.started) cfg
  cfg_eq : l.receiver.cfg = cfg
  short : l.started.All fun _ data => data.length ≤ maxMsgLen
  wire : ∀ bytes ∈ l.toReceiver, ∃ msgId data,
    l.started.lookup msgId = some data ∧ IsChunk cfg.packetSize data msgId bytes
  incoming : ∀ key b, l.receiver.bodyAt key = some b →
    Reassembles senderAddr cfg.packetSize l.started key b
  delivered : ∀ d ∈ l.delivered, d.1 = senderAddr ∧ l.started.lookup d.2.1 = some d.2.2

variable {cfg : TransportConfig} {senderAddr receiverAddr : SocketAddr} {l l' : Link}
  {checks : Bool} {ord : HashOrder MsgKey}

theorem init_inv (cfg : TransportConfig) (senderAddr receiverAddr : SocketAddr) (now : Instant) :
    Inv cfg senderAddr receiverAddr (init cfg now) where
  sender := ⟨rfl, Map.All.empty⟩
  cfg_eq := rfl
  short := Map.All.empty
  wire := by simp [init]
  incoming := by
    intro key b h
    simp [init, new, bodyAt] at h
  delivered := by simp [init]

theorem mem_sends {actions bytes} (h : bytes ∈ sends actions) :
    ∃ dest, Action.send dest bytes ∈ actions := by
  obtain ⟨a, ha, hEq⟩ := mem_filterMap.mp h
  cases a with
  | send dest b =>
    cases hEq
    exact ⟨dest, ha⟩
  | deliver src msgId data => cases hEq

theorem mem_deliveries {actions d} (h : d ∈ deliveries actions) :
    Action.deliver d.1 d.2.1 d.2.2 ∈ actions := by
  obtain ⟨a, ha, hEq⟩ := mem_filterMap.mp h
  cases a with
  | send dest b => cases hEq
  | deliver src msgId data =>
    cases hEq
    exact ha

theorem deliveries_of_sends {actions} (h : ∀ a ∈ actions, a.IsSend) : deliveries actions = [] := by
  rw [deliveries, filterMap_eq_nil_iff]
  intro a ha
  cases a with
  | send => rfl
  | deliver => exact (h _ ha).elim

section

variable (h : Inv cfg senderAddr receiverAddr l)

include h

theorem Inv.sent {r} (hKept : SenderCore.Kept (Registered receiverAddr l.started) cfg r) :
    Inv cfg senderAddr receiverAddr (l.sent r) where
  sender := hKept.1
  cfg_eq := h.cfg_eq
  short := h.short
  wire := by
    intro bytes hMem
    rcases mem_append.mp hMem with hMem | hMem
    · exact h.wire bytes hMem
    · obtain ⟨dest, hSend⟩ := mem_sends hMem
      obtain ⟨key, data, bytes', hReg, hChunk, hEq⟩ := hKept.2 _ hSend
      cases hEq
      exact ⟨key.2, data, hReg.2, hChunk⟩
  incoming := h.incoming
  delivered := h.delivered

theorem Inv.received {r} (hCfg : r.1.cfg = l.receiver.cfg)
    (hBodies : ∀ key b, r.1.bodyAt key = some b →
      Reassembles senderAddr cfg.packetSize l.started key b)
    (hDelivers : ∀ d ∈ deliveries r.2, d.1 = senderAddr ∧ l.started.lookup d.2.1 = some d.2.2) :
    Inv cfg senderAddr receiverAddr (l.received r) where
  sender := h.sender
  cfg_eq := hCfg.trans h.cfg_eq
  short := h.short
  wire := h.wire
  incoming := hBodies
  delivered := by
    intro d hMem
    rcases mem_append.mp hMem with hMem | hMem
    · exact h.delivered d hMem
    · exact hDelivers d hMem

theorem Inv.entryFor_fits (now : Instant) (hStarted : l.started.lookup pkt.msgId = some data)
    (hSlot : IsSlot cfg.packetSize data i pkt payload) :
    (l.receiver.entryFor senderAddr pkt now).body.Fits cfg.packetSize data := by
  unfold entryFor
  cases hm : l.receiver.incoming.lookup (senderAddr, pkt.msgId) with
  | some m =>
    -- an entry under the packet's key reassembles the same started message
    obtain ⟨-, -, data', hData', hFits⟩ :=
      h.incoming (senderAddr, pkt.msgId) m.body (by simp [bodyAt, hm])
    rw [hStarted] at hData'
    cases hData'
    exact hFits
  | none =>
    rw [Option.getD_none, hSlot.msgLen, h.cfg_eq]
    exact new_fits cfg.packetSize_pos _

theorem Inv.bodies_of_update {r : ReceiverCore} {key : MsgKey} {x : Option Body}
    (hUpdate : ∀ k, r.bodyAt k = if k = key then x else l.receiver.bodyAt k)
    (hx : ∀ b, x = some b → Reassembles senderAddr cfg.packetSize l.started key b) :
    ∀ k b, r.bodyAt k = some b → Reassembles senderAddr cfg.packetSize l.started k b := by
  intro k b hb
  rw [hUpdate] at hb
  split at hb
  · rename_i hk
    rw [hk]
    exact hx b hb
  · exact h.incoming k b hb

theorem Inv.dataStep {r out} (hStarted : l.started.lookup pkt.msgId = some data)
    (hSlot : IsSlot cfg.packetSize data i pkt payload)
    (hStep : ReceiverCore.DataStep l.receiver senderAddr pkt payload now r out) :
    Inv cfg senderAddr receiverAddr (l.received (r, out)) := by
  have hEntry := h.entryFor_fits now hStarted hSlot
  -- the one delivery of a call, followed by grants
  have hDeliver {d : Bytes} {grants : List Action} (hData : d = data)
      (hSend : ∀ a ∈ grants, a.IsSend) :
      ∀ x ∈ deliveries (.deliver senderAddr pkt.msgId d :: grants),
        x.1 = senderAddr ∧ l.started.lookup x.2.1 = some x.2.2 := by
    intro x hx
    rcases mem_cons.mp (mem_deliveries hx) with hEq | hMem
    · injection hEq with h₁ h₂ h₃
      rw [h₁, h₂, h₃, hData]
      exact ⟨rfl, hStarted⟩
    · exact (hSend _ hMem).elim
  cases hStep with
  | ignored _ hSend =>
    refine h.received rfl h.incoming ?_
    rw [deliveries_of_sends hSend]
    simp
  -- a message of length zero is delivered without a write
  | empty hZero hCfg hBodies hSend =>
    have hNil : [] = data := by
      rw [hSlot.msgLen] at hZero
      exact (length_eq_zero_iff.mp hZero).symm
    exact h.received hCfg (h.bodies_of_update hBodies (by simp)) (hDeliver hNil hSend)
  | completes _ hNonzero hMax hWrite hDone hCfg hBodies hSend =>
    rw [h.cfg_eq] at hWrite
    have hFits := write_fits cfg.packetSize_pos hSlot hEntry hWrite
    have hBuf := hFits.complete (InMsg.complete_iff.mp hDone)
    exact h.received hCfg (h.bodies_of_update hBodies (by simp)) (hDeliver hBuf hSend)
  -- the entry goes back with its new slot, and is still incomplete
  | stores _ hNonzero hMax hWrite hOpen hCfg hBodies hSend =>
    rw [h.cfg_eq] at hWrite
    have hFits := write_fits cfg.packetSize_pos hSlot hEntry hWrite
    refine h.received hCfg (h.bodies_of_update hBodies ?_) ?_
    · intro b hb
      cases hb
      refine ⟨rfl, fun hDone => ?_, data, hStarted, hFits⟩
      rw [InMsg.complete_iff.mpr hDone] at hOpen
      cases hOpen
    · rw [deliveries_of_sends hSend]
      simp

/-! ## The condition -/

/-- The sender is not handed a RESEND that takes `next_send` off the grid. -/
def ResendsAligned (receiverAddr : SocketAddr) (l : Link) (e : Instant × LinkEvent) : Prop :=
  match e.2 with
  | .recvAtSender datagram =>
    ∀ r ∈ Packet.decoded datagram, r.1.typ = .resend → l.sender.ResendAligned receiverAddr r.1
  | _ => True

instance (receiverAddr : SocketAddr) (l : Link) (e : Instant × LinkEvent) :
    Decidable (ResendsAligned receiverAddr l e) :=
  match e with
  | (_, .recvAtSender datagram) =>
    inferInstanceAs (Decidable (∀ r ∈ Packet.decoded datagram, _ → _))
  | (_, .start ..) | (_, .recvAtReceiver ..) | (_, .tickSender _) | (_, .tickReceiver _)
  | (_, .finish _) | (_, .confirm _) => .isTrue trivial

omit h in
theorem dispatchSender_kept {R : MsgKey → Bytes → Prop} {s src} (h : s.Good R cfg)
    (hAligned : pkt.typ = .resend → s.ResendAligned src pkt) :
    SenderCore.Kept R cfg (dispatchSender s src pkt now) := by
  unfold dispatchSender
  split
  · exact SenderCore.handleGrant_kept h
  · rename_i hTyp
    exact SenderCore.handleResend_kept h (hAligned hTyp)
  · exact (SenderCore.handleBusy_good h).kept_nil
  · exact h.kept_nil

theorem Inv.start {msgId} (retransmit : Bool) (hNew : l.started.lookup msgId = none)
    (hLen : data.length ≤ maxMsgLen) :
    Inv cfg senderAddr receiverAddr
      ({ l with started := l.started.insert msgId data }.sent
        (l.sender.startInner receiverAddr msgId data l.now retransmit)) := by
  -- every id already started keeps its bytes
  have hOld {id : UInt64} {d : Bytes} (hd : l.started.lookup id = some d) :
      (l.started.insert msgId data).lookup id = some d := by
    rw [Map.lookup_insert_ite, if_neg, hd]
    rintro rfl
    rw [hNew] at hd
    cases hd
  have hMoved : Inv cfg senderAddr receiverAddr { l with started := l.started.insert msgId data } :=
    { sender := ⟨h.sender.cfg_eq, h.sender.out.imp fun _ _ hm => ⟨⟨hm.1.1, hOld hm.1.2⟩, hm.2⟩⟩
      cfg_eq := h.cfg_eq
      short := h.short.insert hLen
      wire := fun bytes hb => by
        obtain ⟨id, d, hd, hChunk⟩ := h.wire bytes hb
        exact ⟨id, d, hOld hd, hChunk⟩
      incoming := fun key b hb => by
        obtain ⟨hSrc, hOpen, d, hd, hFits⟩ := h.incoming key b hb
        exact ⟨hSrc, hOpen, d, hOld hd, hFits⟩
      delivered := fun d hd => ⟨(h.delivered d hd).1, hOld (h.delivered d hd).2⟩ }
  exact hMoved.sent (SenderCore.startInner_kept hMoved.sender ⟨rfl, AList.lookup_insert l.started⟩)

theorem act_inv {e} (hOk : ResendsAligned receiverAddr l (l.now, e))
    (hAct : act checks senderAddr receiverAddr l e = some l') :
    Inv cfg senderAddr receiverAddr l' := by
  cases e with
  | start msgId data retransmit =>
    simp only [act] at hAct
    split at hAct
    · rename_i hGuard
      cases hAct
      -- `start` and `start_retransmit` differ in one flag of the message
      have hInner := h.start retransmit (by simpa using hGuard.1) hGuard.2
      cases retransmit <;> exact hInner
    · cases hAct
  | recvAtReceiver datagram ord =>
    simp only [act] at hAct
    split at hAct
    · rename_i hMem
      -- whatever reaches the receiver was put on the wire by the sender core
      obtain ⟨msgId, data, hStarted, hChunk⟩ := h.wire datagram hMem
      obtain ⟨i, pkt, payload, hDec, rfl, hSlot⟩ :=
        decoded_chunk (h.short _ _ hStarted) hChunk
      simp only [hDec, dispatchReceiver, if_pos hSlot.typ] at hAct
      obtain ⟨⟨r, out⟩, hRet, rfl⟩ := Option.map_eq_some_iff.mp hAct
      exact h.dataStep hStarted hSlot (handleData_cases (returned_eq_some hRet))
    · cases hAct
  | recvAtSender datagram =>
    simp only [act] at hAct
    split at hAct
    · split at hAct
      · cases hAct
        exact h
      · rename_i pkt payload hDec
        cases hAct
        -- only a RESEND can move `next_send` off the grid; the condition is about those
        exact h.sent (dispatchSender_kept h.sender (hOk (pkt, payload) hDec))
    · cases hAct
  | tickSender =>
    obtain ⟨⟨s, out⟩, hRet, rfl⟩ := Option.map_eq_some_iff.mp hAct
    exact h.sent (SenderCore.tick_kept h.sender (returned_eq_some hRet))
  | tickReceiver ord =>
    obtain ⟨⟨r, out⟩, hRet, rfl⟩ := Option.map_eq_some_iff.mp hAct
    have hMoves := tick_moves (returned_eq_some hRet)
    refine h.received hMoves.sheds.cfg (fun key b hb => ?_)
      (by simp [deliveries_of_sends hMoves.isSend])
    rcases hMoves.sheds.bodyAt key with hSame | hGone
    · exact h.incoming key b (hSame ▸ hb)
    · rw [hGone] at hb
      cases hb
  | finish msgId =>
    cases hAct
    exact { h with sender := ⟨h.sender.cfg_eq, h.sender.out.erase⟩ }
  | confirm msgId =>
    cases hAct
    exact { h with sender := SenderCore.confirm_good h.sender }

theorem step_inv {e} (hOk : ResendsAligned receiverAddr l e)
    (hStep : step checks senderAddr receiverAddr l e = some l') :
    Inv cfg senderAddr receiverAddr l' := by
  unfold step at hStep
  split at hStep
  · have hMoved : Inv cfg senderAddr receiverAddr { l with now := e.1 } := { h with }
    exact act_inv hMoved hOk hStep
  · cases hStep

end

theorem run_inv {t₀}
    (h : Run (step checks senderAddr receiverAddr) (ResendsAligned receiverAddr)
      (init cfg t₀) l) : Inv cfg senderAddr receiverAddr l :=
  h.invariant (init_inv cfg senderAddr receiverAddr t₀) fun _ _ _ hInv hOk hStep =>
    step_inv hInv hOk hStep

/-! ## Integrity and progress -/

def sampleSender : SocketAddr := .v4 1 1

def sampleReceiver : SocketAddr := .v4 2 2

/-- The message `1, 2, …, n`. -/
def sampleMsg (n : Nat) : Bytes := (range n).map fun i => UInt8.ofNat (i + 1)

/-- Bytes `start..stop` of the message reach the receiver. -/
def arrive (n start stop : Nat) : LinkEvent :=
  .recvAtReceiver (dataPacket (sampleMsg n) 1 start stop) (.stored _)

def answer (n : Nat) (typ : PacketType) (offset length : UInt32) : LinkEvent :=
  .recvAtSender (Packet.encode ⟨typ, priorityForLen n, 1, 0, offset, length⟩ [])

/-- Ten bytes: the GRANT for the rest is lost, the RESEND reaches to the end
of the message, and bytes `4..8` arrive. -/
def alignedEvents : List (Instant × LinkEvent) :=
  [(0, .start 1 (sampleMsg 10) false), (0, arrive 10 0 4), (20, .tickReceiver (.stored _)),
    (20, answer 10 .resend 4 6), (20, arrive 10 4 8)]

/-- Eighteen bytes: the GRANT up to 13 is lost and the RESEND ends there.
The sender goes on from 13 and its chunk `13..17` is filed in slot 3. -/
def shiftedEvents : List (Instant × LinkEvent) :=
  [(0, .start 1 (sampleMsg 18) false), (0, arrive 18 0 4), (20, .tickReceiver (.stored _)),
    (20, answer 18 .resend 4 9), (20, arrive 18 4 8), (20, arrive 18 8 12),
    (20, answer 18 .grant 18 5), (20, arrive 18 13 17)]

/-- **Integrity.** Packets are lost, repeated and reordered, and each RESEND that moves `next_send`
moves it to the grid or to the end of the message (`ResendsAligned`). Then whatever is delivered
came from the sender, and has the bytes that were started under its id. -/
theorem delivered_intact {t₀ : Instant}
    (h : Run (step checks senderAddr receiverAddr) (ResendsAligned receiverAddr)
      (init cfg t₀) l) :
    ∀ d ∈ l.delivered, d.1 = senderAddr ∧ l.started.lookup d.2.1 = some d.2.2 :=
  (run_inv h).delivered

/-- A run with a lost GRANT and a RESEND delivers the ten bytes. -/
theorem delivered_intact_aligned : ∃ l : Link,
    Run (step true sampleSender sampleReceiver) (ResendsAligned sampleReceiver)
      (init sampleCfg 0) l ∧
    l.delivered = [(sampleSender, 1, sampleMsg 10)] ∧
    ∀ d ∈ l.delivered, d.1 = sampleSender ∧ l.started.lookup d.2.1 = some d.2.2 := by
  obtain ⟨l, hRun, hTest⟩ := exists_run_of_exec
    (step true sampleSender sampleReceiver) (ResendsAligned sampleReceiver) (init sampleCfg 0)
    (alignedEvents ++ [(20, arrive 10 8 10)])
    (fun l => decide (l.delivered = [(sampleSender, 1, sampleMsg 10)]))
    (by decide +kernel)
  exact ⟨l, hRun, of_decide_eq_true hTest, delivered_intact hRun⟩

/-- Byte 12 is never received: slot 3 holds bytes `13..17` and slot 4 bytes `16..18`, eighteen in
all. -/
theorem not_delivered_intact :
    ¬ ∀ l : Link, Run (step true sampleSender sampleReceiver) Always (init sampleCfg 0) l →
      ∀ d ∈ l.delivered, d.1 = sampleSender ∧ l.started.lookup d.2.1 = some d.2.2 := by
  intro hAll
  obtain ⟨l, hRun, hTest⟩ := exists_run_of_exec
    (step true sampleSender sampleReceiver) Always (init sampleCfg 0)
    (shiftedEvents ++
      [(40, .tickReceiver (.stored _)), (40, answer 18 .resend 16 2), (40, arrive 18 16 18)])
    (fun l => decide (l.delivered = [(sampleSender, 1, (sampleMsg 18).set 12 0)] ∧
      l.started.lookup 1 = some (sampleMsg 18)))
    (by decide +kernel)
  obtain ⟨hDelivered, hStarted⟩ := of_decide_eq_true hTest
  have hBytes := (hAll l hRun (sampleSender, 1, (sampleMsg 18).set 12 0)
    (by simp [hDelivered])).2
  rw [hStarted] at hBytes
  exact absurd hBytes (by decide)

/-- **No wedged message.** In the same runs every message in reassembly has a slot that is not
filled, and the first of them begins inside the message, so that a RESEND can name it. -/
theorem incoming_has_free_slot {t₀ : Instant}
    (h : Run (step checks senderAddr receiverAddr) (ResendsAligned receiverAddr)
      (init cfg t₀) l) :
    ∀ key m, l.receiver.incoming.lookup key = some m →
      (∃ i : Nat, m.received[i]? = some false) ∧
        ∃ off, m.firstMissingOffset cfg.packetSize = some off ∧ off < m.totalLen := by
  intro key m hm
  obtain ⟨-, hOpen, data, -, hFits⟩ :=
    (run_inv h).incoming key m.body (by simp [bodyAt, hm])
  obtain ⟨i, hFree, hOff⟩ := hFits.exists_free cfg.packetSize_pos hOpen
  change m.received[i]? = some false at hFree
  obtain ⟨hi, hBit⟩ := List.getElem?_eq_some_iff.mp hFree
  refine ⟨⟨i, hFree⟩, ?_⟩
  -- the first free slot is not after the one found
  obtain ⟨k, hk, hFirst⟩ : ∃ k, m.received.findIdx? (fun r => !r) = some k ∧ k ≤ i := by
    cases hFind : m.received.findIdx? (fun r => !r) with
    | none =>
      have := List.findIdx?_eq_none_iff.mp hFind _ (List.mem_of_getElem? hFree)
      simp at this
    | some k =>
      refine ⟨k, rfl, ?_⟩
      by_contra hLt
      obtain ⟨_, _, hBefore⟩ := List.findIdx?_eq_some_iff_getElem.mp hFind
      exact hBefore i (by omega) (by simpa using hBit)
  refine ⟨k * cfg.packetSize, by simp [InMsg.firstMissingOffset, hk], ?_⟩
  exact lt_of_le_of_lt (Nat.mul_le_mul_right _ hFirst) hOff

/-- The same run one packet earlier: slot 2 of the message is still free. -/
theorem incoming_has_free_slot_aligned : ∃ l m,
    Run (step true sampleSender sampleReceiver) (ResendsAligned sampleReceiver)
      (init sampleCfg 0) l ∧
    l.receiver.incoming.lookup (sampleSender, 1) = some m ∧
    m.received = [true, true, false] ∧
    ∃ off, m.firstMissingOffset sampleCfg.packetSize = some off ∧ off < m.totalLen := by
  obtain ⟨l, hRun, hTest⟩ := exists_run_of_exec
    (step true sampleSender sampleReceiver) (ResendsAligned sampleReceiver) (init sampleCfg 0)
    (alignedEvents)
    (fun l => (l.receiver.incoming.lookup (sampleSender, 1)).any fun m : InMsg =>
      decide (m.received = [true, true, false]))
    (by decide +kernel)
  obtain ⟨m, hm, hBits⟩ := (Option.any_eq_true _ _).mp hTest
  exact ⟨l, m, hRun, hm, of_decide_eq_true hBits, (incoming_has_free_slot hRun _ m hm).2⟩

/-- Slot 3 holds bytes `13..17` and slot 4 the single byte 17: every slot is marked, but only
seventeen of the eighteen bytes are counted. -/
theorem not_incoming_has_free_slot :
    ¬ ∀ l : Link, Run (step true sampleSender sampleReceiver) Always (init sampleCfg 0) l →
      ∀ key m, l.receiver.incoming.lookup key = some m →
        ∃ i : Nat, m.received[i]? = some false := by
  intro hAll
  obtain ⟨l, hRun, hTest⟩ := exists_run_of_exec
    (step true sampleSender sampleReceiver) Always (init sampleCfg 0)
    (shiftedEvents ++ [(20, arrive 18 17 18)])
    (fun l => (l.receiver.incoming.lookup (sampleSender, 1)).any fun m : InMsg =>
      decide (m.received = [true, true, true, true, true] ∧ m.receivedBytes = 17))
    (by decide +kernel)
  obtain ⟨m, hm, hBits⟩ := (Option.any_eq_true _ _).mp hTest
  obtain ⟨i, hFree⟩ := hAll l hRun _ m hm
  rw [(of_decide_eq_true hBits).1] at hFree
  simpa using mem_of_getElem? hFree

end Link

end DirectWire.Homa
