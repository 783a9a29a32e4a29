import DirectWire.Lib.Bytes

/-!
# Homa — wire format

`transport/packet.rs` and `transport/priority.rs`: the fixed 22-byte little-endian header.
-/

namespace DirectWire.Homa

open Lib Outcome

def headerLen : Nat := 22

inductive PacketType where
  | data
  | grant
  | resend
  | busy
deriving DecidableEq, Repr

namespace PacketType

/-- `self as u8`. -/
def toU8 : PacketType → UInt8
  | data => 0
  | grant => 1
  | resend => 2
  | busy => 3

def fromU8 (v : UInt8) : Option PacketType :=
  if v = 0 then some data
  else if v = 1 then some grant
  else if v = 2 then some resend
  else if v = 3 then some busy
  else none

@[simp] theorem fromU8_toU8 (t : PacketType) : fromU8 t.toU8 = some t := by
  cases t <;> rfl

end PacketType

/-- A decoded header. The fields are shared between the packet types:

* DATA: `msgLen` is the message length, `offset` and `length` locate the payload;
* GRANT: `offset` is the cumulative grant, `length` what this grant added;
* RESEND: `offset` and `length` are the requested range;
* BUSY: none of them is used. -/
structure Packet where
  typ : PacketType
  priority : UInt8
  msgId : UInt64
  msgLen : UInt32
  offset : UInt32
  length : UInt32
deriving DecidableEq, Repr

/-- The `io::ErrorKind::InvalidData` errors of the decoder. -/
structure InvalidData where
  msg : String
deriving DecidableEq, Repr

namespace Packet

def encode (p : Packet) (payload : Bytes) : Bytes :=
  [p.typ.toU8, p.priority] ++ leBytes 8 p.msgId.toNat ++ leBytes 4 p.msgLen.toNat ++
    leBytes 4 p.offset.toNat ++ leBytes 4 p.length.toNat ++ payload

def decode (datagram : Bytes) : Outcome InvalidData (Packet × Bytes) := do
  if datagram.length < headerLen then
    err ⟨"datagram too short for header"⟩
  else
    let tag ← index datagram 0
    let typ ← okOr (PacketType.fromU8 tag) ⟨"unknown packet type"⟩
    let priority ← index datagram 1
    let msgId ← sliceArray datagram 2 8
    let msgLen ← sliceArray datagram 10 4
    let offset ← sliceArray datagram 14 4
    let length ← sliceArray datagram 18 4
    let pkt : Packet :=
      { typ
        priority
        msgId := UInt64.ofNat (leNat msgId.val)
        msgLen := UInt32.ofNat (leNat msgLen.val)
        offset := UInt32.ofNat (leNat offset.val)
        length := UInt32.ofNat (leNat length.val) }
    let payload ← sliceFrom datagram headerLen
    -- only DATA carries a payload the length field speaks of
    if pkt.typ = .data ∧ payload.length ≠ pkt.length.toNat then
      err ⟨"DATA payload length mismatch"⟩
    else
      ok (pkt, payload)

def decoded (datagram : Bytes) : Option (Packet × Bytes) :=
  match decode datagram with
  | .ok r => some r
  | .err _ => none
  | .panic _ => none

theorem decoded_eq_some {datagram r} : decoded datagram = some r ↔ decode datagram = ok r := by
  unfold decoded
  split <;> simp_all

/-! ## Round trip -/

@[simp] theorem encode_length (p : Packet) (payload : Bytes) :
    (p.encode payload).length = headerLen + payload.length := by
  simp [encode, headerLen]
  omega

theorem ofNat_leNat_u64 (x : UInt64) : UInt64.ofNat (leNat (leBytes 8 x.toNat)) = x := by
  rw [leNat_leBytes (u64_lt_pow x), UInt64.ofNat_toNat]

/-- **Header round trip.** For DATA the length field must be the payload length. -/
theorem decode_encode {p payload} (h : p.typ = .data → p.length.toNat = payload.length) :
    decode (p.encode payload) = ok (p, payload) := by
  have hLen : ¬ (p.encode payload).length < headerLen := by
    rw [encode_length]
    omega
  -- the header fields, each located behind the fields before it
  have hId : sliceArray (p.encode payload) 2 8 =
      (ok ⟨leBytes 8 p.msgId.toNat, leBytes_length _ _⟩ : Outcome InvalidData _) := by
    simp only [encode, List.append_assoc]
    exact sliceArray_append rfl (leBytes_length _ _)
  have hMsgLen : sliceArray (p.encode payload) 10 4 =
      (ok ⟨leBytes 4 p.msgLen.toNat, leBytes_length _ _⟩ : Outcome InvalidData _) := by
    rw [show p.encode payload = ([p.typ.toU8, p.priority] ++ leBytes 8 p.msgId.toNat) ++
      (leBytes 4 p.msgLen.toNat ++ (leBytes 4 p.offset.toNat ++ (leBytes 4 p.length.toNat ++
        payload))) by simp [encode]]
    exact sliceArray_append (by simp) (leBytes_length _ _)
  have hOffset : sliceArray (p.encode payload) 14 4 =
      (ok ⟨leBytes 4 p.offset.toNat, leBytes_length _ _⟩ : Outcome InvalidData _) := by
    rw [show p.encode payload = ([p.typ.toU8, p.priority] ++ leBytes 8 p.msgId.toNat ++
      leBytes 4 p.msgLen.toNat) ++ (leBytes 4 p.offset.toNat ++ (leBytes 4 p.length.toNat ++
        payload)) by simp [encode]]
    exact sliceArray_append (by simp) (leBytes_length _ _)
  have hLength : sliceArray (p.encode payload) 18 4 =
      (ok ⟨leBytes 4 p.length.toNat, leBytes_length _ _⟩ : Outcome InvalidData _) := by
    rw [show p.encode payload = ([p.typ.toU8, p.priority] ++ leBytes 8 p.msgId.toNat ++
      leBytes 4 p.msgLen.toNat ++ leBytes 4 p.offset.toNat) ++ (leBytes 4 p.length.toNat ++
        payload) by simp [encode]]
    exact sliceArray_append (by simp) (leBytes_length _ _)
  have hPayload : sliceFrom (p.encode payload) headerLen =
      (ok payload : Outcome InvalidData _) := by
    rw [sliceFrom_eq_ok]
    refine ⟨by rw [encode_length]; omega, ?_⟩
    rw [encode, List.drop_append_of_le_length (by simp [headerLen]), List.drop_of_length_le
      (by simp [headerLen]), List.nil_append]
  have hTyp : index (p.encode payload) 0 = (ok p.typ.toU8 : Outcome InvalidData _) := rfl
  have hPrio : index (p.encode payload) 1 = (ok p.priority : Outcome InvalidData _) := rfl
  -- with every field read, the decoder runs through
  rw [decode, if_neg hLen]
  simp only [hTyp, hPrio, hId, hMsgLen, hOffset, hLength, hPayload, ok_bind,
    PacketType.fromU8_toU8, okOr_some, ofNat_leNat_u64,
      leNat_leBytes (u32_lt_pow _), UInt32.ofNat_toNat]
  rw [if_neg]
  rintro ⟨hData, hNe⟩
  exact hNe (h hData).symm

theorem toU8_of_fromU8 {v t} (h : PacketType.fromU8 v = some t) : t.toU8 = v := by
  unfold PacketType.fromU8 at h
  grind [PacketType.toU8]

theorem leBytes_u64 {d i b} (h : sliceArray d i 8 = (ok b : Outcome InvalidData _)) :
    leBytes 8 (UInt64.ofNat (leNat b.val)).toNat = (d.drop i).take 8 := by
  have hLt := leNat_lt b.val
  have hBack := leBytes_leNat b.val
  rw [b.property] at hLt hBack
  rw [UInt64.toNat_ofNat_of_lt' hLt, hBack, (sliceArray_eq_ok.mp h).2]

theorem leBytes_u32 {d i b} (h : sliceArray d i 4 = (ok b : Outcome InvalidData _)) :
    leBytes 4 (UInt32.ofNat (leNat b.val)).toNat = (d.drop i).take 4 := by
  have hLt := leNat_lt b.val
  have hBack := leBytes_leNat b.val
  rw [b.property] at hLt hBack
  rw [UInt32.toNat_ofNat_of_lt' hLt, hBack, (sliceArray_eq_ok.mp h).2]

theorem take_drop_append (d : Bytes) (i n : Nat) :
    (d.drop i).take n ++ d.drop (i + n) = d.drop i := by
  rw [← List.drop_drop, List.take_append_drop]

/-- **The codec is a bijection on accepted datagrams.** A datagram decodes to a header and a payload
exactly if it is the encoding of the two, and the header of a DATA packet has the length of the
payload. -/
theorem decode_eq_ok_iff (p : Packet) (payload datagram : Bytes) :
    decode datagram = ok (p, payload) ↔
      p.encode payload = datagram ∧ (p.typ = .data → p.length.toNat = payload.length) := by
  refine ⟨fun h => ?_, fun ⟨h, hLen⟩ => h ▸ decode_encode hLen⟩
  unfold decode at h
  split at h
  · cases h
  rename_i hLen
  obtain ⟨tag, hTag, h⟩ := bind_eq_ok.mp h
  obtain ⟨typ, hTyp, h⟩ := bind_eq_ok.mp h
  obtain ⟨priority, hPriority, h⟩ := bind_eq_ok.mp h
  obtain ⟨msgId, hId, h⟩ := bind_eq_ok.mp h
  obtain ⟨msgLen, hMsgLen, h⟩ := bind_eq_ok.mp h
  obtain ⟨offset, hOffset, h⟩ := bind_eq_ok.mp h
  obtain ⟨length, hLength, h⟩ := bind_eq_ok.mp h
  obtain ⟨rest, hRest, h⟩ := bind_eq_ok.mp h
  split at h
  · cases h
  rename_i hData
  cases h
  refine ⟨?_, fun hTyp' => not_not.mp fun hNe => hData ⟨hTyp', Ne.symm hNe⟩⟩
  -- the fields are the pieces the datagram is cut into
  match datagram, hLen with
  | a :: b :: tail, _ =>
    cases hTag
    cases hPriority
    rw [encode, toU8_of_fromU8 (okOr_eq_ok.mp hTyp), leBytes_u64 hId, leBytes_u32 hMsgLen,
      leBytes_u32 hOffset, leBytes_u32 hLength, ← (sliceFrom_eq_ok.mp hRest).2, headerLen]
    simp only [List.append_assoc, take_drop_append _ 18 4, take_drop_append _ 14 4,
      take_drop_append _ 10 4, take_drop_append _ 2 8]
    rfl

/-- No datagram makes the decoder panic. -/
theorem decode_noPanic (datagram : Bytes) : (decode datagram).NoPanic := by
  rw [decode]
  split
  · simp
  · rename_i hLen
    unfold headerLen at hLen
    -- each read stays below the header length that was checked
    rw [noPanic_bind]
    refine ⟨by rw [noPanic_index]; omega, fun b _ => ?_⟩
    rw [noPanic_bind]
    refine ⟨noPanic_okOr, fun typ _ => ?_⟩
    rw [noPanic_bind]
    refine ⟨by rw [noPanic_index]; omega, fun priority _ => ?_⟩
    rw [noPanic_bind]
    refine ⟨by rw [noPanic_sliceArray]; omega, fun msgId _ => ?_⟩
    rw [noPanic_bind]
    refine ⟨by rw [noPanic_sliceArray]; omega, fun msgLen _ => ?_⟩
    rw [noPanic_bind]
    refine ⟨by rw [noPanic_sliceArray]; omega, fun offset _ => ?_⟩
    rw [noPanic_bind]
    refine ⟨by rw [noPanic_sliceArray]; omega, fun length _ => ?_⟩
    rw [noPanic_bind]
    refine ⟨by rw [noPanic_sliceFrom, headerLen]; omega, fun payload _ => ?_⟩
    split <;> simp

end Packet

/-! ## Priorities -/

def thresholds : List Nat := [100, 1000, 10000, 100000, 1000000, 10000000, 100000000, 2 ^ 64 - 1]

/-- The first level whose threshold the length does not exceed; 0 is the
highest priority. -/
def priorityForLen (len : Nat) : UInt8 :=
  UInt8.ofNat ((thresholds.findIdx? fun upper => decide (len ≤ upper)).getD 7)

example : priorityForLen 1024 = 2 := by decide

end DirectWire.Homa
