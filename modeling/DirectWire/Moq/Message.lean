import DirectWire.Moq.Hub
import DirectWire.Moq.Varint

/-!
# MoQ — messages

`message.rs`. A frame is a type, the length of the payload and the payload; all integers are
varints. The group id of an object is not in its frame.

* `Message.Framed.decode` — its frame is decoded to the message.
-/

namespace DirectWire.Moq

open Lib Outcome List Varint

inductive Role where
  | publisher
  | subscriber
  | both
deriving DecidableEq, Repr

inductive TrackRef where
  | byAlias (a : UInt64)
  | full (track : TrackId)
deriving DecidableEq, Repr

inductive Message where
  | setup (version : UInt64) (role : Role)
  | announce (ns : String)
  | announceOk (ns : String)
  | subscribe (subscribeId trackAlias : UInt64) (track : TrackId) (start : StartMode)
      (priority : UInt8)
  | subscribeOk (subscribeId : UInt64)
  | subscribeError (subscribeId code : UInt64) (reason : String)
  | unsubscribe (subscribeId : UInt64)
  | goaway (reason : String)
  | groupHeader (trackRef : TrackRef) (groupId : UInt64)
  | object (object : Object)
deriving DecidableEq, Repr

def protoVersion : UInt64 := 0x6d6f716c

def errNamespaceNotFound : UInt64 := 1

/-! ## Codes -/

def Role.code : Role → UInt64
  | .publisher => 1
  | .subscriber => 2
  | .both => 3

def Role.fromU64 : UInt64 → Outcome ReadError Role
  | 1 => ok .publisher
  | 2 => ok .subscriber
  | 3 => ok .both
  | v => err (.unknownRole v)

def StartMode.code : StartMode → UInt64
  | .latestGroup => 0
  | .nextObject => 1

def StartMode.fromU64 : UInt64 → Outcome ReadError StartMode
  | 0 => ok .latestGroup
  | 1 => ok .nextObject
  | v => err (.unknownStart v)

def refAlias : UInt64 := 0

def refFull : UInt64 := 1

def Message.typeCode : Message → UInt64
  | .setup .. => 0x01
  | .announce _ => 0x02
  | .announceOk _ => 0x03
  | .subscribe .. => 0x04
  | .subscribeOk _ => 0x05
  | .subscribeError .. => 0x06
  | .unsubscribe _ => 0x07
  | .goaway _ => 0x08
  | .groupHeader .. => 0x10
  | .object _ => 0x11

/-! ## Encoding -/

section Encode

variable {ε : Type}

def encodeBytes (bytes : Bytes) : Outcome ε Bytes := do
  let len ← encode (UInt64.ofNat bytes.length)
  ok (len ++ bytes)

def encodeStr (s : String) : Outcome ε Bytes := encodeBytes (utf8 s)

def encodeTrack (track : TrackId) : Outcome ε Bytes := do
  let ns ← encodeStr track.ns
  let name ← encodeStr track.name
  ok (ns ++ name)

def TrackRef.encode : TrackRef → Outcome ε Bytes
  | .byAlias a => do
    let tag ← Varint.encode refAlias
    let a ← Varint.encode a
    ok (tag ++ a)
  | .full track => do
    let tag ← Varint.encode refFull
    let track ← encodeTrack track
    ok (tag ++ track)

namespace Message

def payload : Message → Outcome ε Bytes
  | .setup version role => do
    let version ← encode version
    let role ← encode role.code
    ok (version ++ role)
  | .announce ns | .announceOk ns => encodeStr ns
  | .subscribe subscribeId trackAlias track start priority => do
    let subscribeId ← encode subscribeId
    let trackAlias ← encode trackAlias
    let track ← encodeTrack track
    let start ← encode start.code
    let priority ← encode priority.toUInt64
    ok (subscribeId ++ trackAlias ++ track ++ start ++ priority)
  | .subscribeOk subscribeId | .unsubscribe subscribeId => encode subscribeId
  | .subscribeError subscribeId code reason => do
    let subscribeId ← encode subscribeId
    let code ← encode code
    let reason ← encodeStr reason
    ok (subscribeId ++ code ++ reason)
  | .goaway reason => encodeStr reason
  | .groupHeader trackRef groupId => do
    let trackRef ← trackRef.encode
    let groupId ← encode groupId
    ok (trackRef ++ groupId)
  | .object obj => do
    let objectId ← encode obj.objectId
    let priority ← encode obj.priority.toUInt64
    let timestampMs ← encode obj.timestampMs
    let payload ← encodeBytes obj.payload
    ok (objectId ++ priority ++ timestampMs ++ payload)

def encode (m : Message) : Outcome ε Bytes := do
  let payload ← m.payload
  let typeCode ← Varint.encode m.typeCode
  let len ← Varint.encode (UInt64.ofNat payload.length)
  ok (typeCode ++ len ++ payload)

end Message

end Encode

/-! ## Decoding

A reader is what is left of the payload. -/

def readVarint (r : Bytes) : Outcome ReadError (UInt64 × Bytes) := do
  let (v, n) ← decode r
  let r ← sliceFrom r n
  ok (v, r)

def readBytes (r : Bytes) : Outcome ReadError (Bytes × Bytes) := do
  let (len, r) ← readVarint r
  if r.length < len.toNat then err .shortPayload
  else ok (r.take len.toNat, r.drop len.toNat)

def readString (r : Bytes) : Outcome ReadError (String × Bytes) := do
  let (bytes, r) ← readBytes r
  let s ← okOr (fromUtf8 bytes) .invalidUtf8
  ok (s, r)

def readTrack (r : Bytes) : Outcome ReadError (TrackId × Bytes) := do
  let (ns, r) ← readString r
  let (name, r) ← readString r
  ok (⟨ns, name⟩, r)

def readTrackRef (r : Bytes) : Outcome ReadError (TrackRef × Bytes) := do
  match ← readVarint r with
  | (0, r) =>
    let (a, r) ← readVarint r
    ok (.byAlias a, r)
  | (1, r) =>
    let (track, r) ← readTrack r
    ok (.full track, r)
  | (tag, _) => err (.unknownTrackRef tag)

namespace Message

def readFields (typeCode : UInt64) (r : Bytes) : Outcome ReadError (Message × Bytes) :=
  match typeCode with
  | 0x01 => do
    let (version, r) ← readVarint r
    let (role, r) ← readVarint r
    let role ← Role.fromU64 role
    ok (.setup version role, r)
  | 0x02 => do
    let (ns, r) ← readString r
    ok (.announce ns, r)
  | 0x03 => do
    let (ns, r) ← readString r
    ok (.announceOk ns, r)
  | 0x04 => do
    let (subscribeId, r) ← readVarint r
    let (trackAlias, r) ← readVarint r
    let (track, r) ← readTrack r
    let (start, r) ← readVarint r
    let start ← StartMode.fromU64 start
    let (priority, r) ← readVarint r
    ok (.subscribe subscribeId trackAlias track start priority.toUInt8, r)
  | 0x05 => do
    let (subscribeId, r) ← readVarint r
    ok (.subscribeOk subscribeId, r)
  | 0x06 => do
    let (subscribeId, r) ← readVarint r
    let (code, r) ← readVarint r
    let (reason, r) ← readString r
    ok (.subscribeError subscribeId code reason, r)
  | 0x07 => do
    let (subscribeId, r) ← readVarint r
    ok (.unsubscribe subscribeId, r)
  | 0x08 => do
    let (reason, r) ← readString r
    ok (.goaway reason, r)
  | 0x10 => do
    let (trackRef, r) ← readTrackRef r
    let (groupId, r) ← readVarint r
    ok (.groupHeader trackRef groupId, r)
  | 0x11 => do
    let (objectId, r) ← readVarint r
    let (priority, r) ← readVarint r
    let (timestampMs, r) ← readVarint r
    let (payload, r) ← readBytes r
    -- the group id comes with the stream
    ok (.object ⟨0, objectId, priority.toUInt8, timestampMs, payload⟩, r)
  | code => err (.unknownType code)

def decode (frame : Bytes) : Outcome ReadError Message := do
  let (typeCode, n1) ← Varint.decode frame
  let rest ← sliceFrom frame n1
  let (len, n2) ← Varint.decode rest
  let payload ← sliceFrom frame (n1 + n2)
  if payload.length ≠ len.toNat then err (.lengthMismatch len payload.length)
  else
    let (msg, r) ← readFields typeCode payload
    if r ≠ [] then err .trailingBytes else ok msg

end Message

/-! ## Reading back what was written -/

/-- Reading gets `a` from these bytes, and leaves what is behind them. -/
abbrev Reads {α : Type} (read : Bytes → Outcome ReadError (α × Bytes)) (bytes : Bytes) (a : α) :
    Prop :=
  ∀ rest, read (bytes ++ rest) = ok (a, rest)

/-- Writing gives bytes from which reading gets `a`. -/
def Writes {ε α : Type} (write : Outcome ε Bytes)
    (read : Bytes → Outcome ReadError (α × Bytes)) (a : α) : Prop :=
  write.Returns fun bytes => Reads read bytes a

section Writes

variable {ε : Type}

theorem writes_varint {v} (h : v ≤ max) : Writes (encode v : Outcome ε _) readVarint v := by
  obtain ⟨bytes, hEncode, hEncoded⟩ := encode_encoded (ε := ε) h
  refine ⟨bytes, hEncode, fun rest => ?_⟩
  rw [readVarint, decode_encoded hEncoded, ok_bind]
  simp [sliceFrom]

theorem ofNat_le_max {n} (h : n ≤ max.toNat) : UInt64.ofNat n ≤ max := by
  rw [UInt64.le_iff_toNat_le, UInt64.toNat_ofNat']
  exact Nat.le_trans (Nat.mod_le _ _) h

theorem toNat_ofNat_of_le_max {n} (h : n ≤ max.toNat) : (UInt64.ofNat n).toNat = n := by
  rw [UInt64.toNat_ofNat']
  rw [toNat_max] at h
  omega

theorem writes_bytes (bytes : Bytes) (h : bytes.length ≤ max.toNat) :
    Writes (encodeBytes bytes : Outcome ε _) readBytes bytes := by
  obtain ⟨len, hEncode, hReads⟩ := writes_varint (ε := ε) (ofNat_le_max h)
  refine ⟨len ++ bytes, by rw [encodeBytes, hEncode]; rfl, fun rest => ?_⟩
  simp [readBytes, append_assoc, hReads, toNat_ofNat_of_le_max h]

theorem writes_string {s} (h : (utf8 s).length ≤ max.toNat) :
    Writes (encodeStr s : Outcome ε _) readString s := by
  obtain ⟨bytes, hEncode, hReads⟩ := writes_bytes (ε := ε) _ h
  refine ⟨bytes, hEncode, fun rest => ?_⟩
  simp only [readString, hReads, ok_bind, fromUtf8_utf8, okOr_some]

theorem writes_track (track : TrackId) (hNs : (utf8 track.ns).length ≤ max.toNat)
    (hName : (utf8 track.name).length ≤ max.toNat) :
    Writes (encodeTrack track : Outcome ε _) readTrack track := by
  obtain ⟨ns, hEncodeNs, hReadNs⟩ := writes_string (ε := ε) hNs
  obtain ⟨name, hEncodeName, hReadName⟩ := writes_string (ε := ε) hName
  refine ⟨ns ++ name, by rw [encodeTrack, hEncodeNs, ok_bind, hEncodeName]; rfl, fun rest => ?_⟩
  simp only [readTrack, append_assoc, hReadNs, ok_bind, hReadName]

theorem Role.code_le (role : Role) : role.code ≤ max := by
  cases role <;> decide

theorem Role.fromU64_code (role : Role) : Role.fromU64 role.code = ok role := by
  cases role <;> rfl

theorem StartMode.code_le (start : StartMode) : start.code ≤ max := by
  cases start <;> decide

theorem StartMode.fromU64_code (start : StartMode) : StartMode.fromU64 start.code = ok start := by
  cases start <;> rfl

theorem priority_le (p : UInt8) : p.toUInt64 ≤ max := by
  rw [UInt64.le_iff_toNat_le, UInt8.toNat_toUInt64, toNat_max]
  have := p.toNat_lt
  omega

def TrackRef.integers : TrackRef → List Nat
  | .byAlias a => [a.toNat]
  | .full track => [(utf8 track.ns).length, (utf8 track.name).length]

theorem writes_trackRef {trackRef} (h : ∀ n ∈ trackRef.integers, n ≤ Varint.max.toNat) :
    Writes (trackRef.encode : Outcome ε _) readTrackRef trackRef := by
  cases trackRef with
  | byAlias a =>
    obtain ⟨tag, hTag, hReadTag⟩ := writes_varint (ε := ε) (v := refAlias) (by decide)
    obtain ⟨bytes, hEncode, hReads⟩ := writes_varint (ε := ε) (v := a)
      (UInt64.le_iff_toNat_le.mpr (h _ mem_cons_self))
    refine ⟨tag ++ bytes, by simp [TrackRef.encode, hTag, hEncode], fun rest => ?_⟩
    simp only [readTrackRef, append_assoc, hReadTag, ok_bind, refAlias, hReads]
  | full =>
    obtain ⟨tag, hTag, hReadTag⟩ := writes_varint (ε := ε) (v := refFull) (by decide)
    obtain ⟨bytes, hEncode, hReads⟩ := writes_track (ε := ε) _ (h _ mem_cons_self)
      (h _ (mem_cons_of_mem _ mem_cons_self))
    refine ⟨tag ++ bytes, by simp [TrackRef.encode, hTag, hEncode], fun rest => ?_⟩
    simp only [readTrackRef, append_assoc, hReadTag, ok_bind, refFull, hReads]

end Writes

namespace Message

/-- The integers among the fields, the lengths of strings and payloads with them. -/
def fields : Message → List Nat
  | .setup version _ => [version.toNat]
  | .announce ns | .announceOk ns => [(utf8 ns).length]
  | .subscribe subscribeId trackAlias track _ _ =>
    [subscribeId.toNat, trackAlias.toNat, (utf8 track.ns).length, (utf8 track.name).length]
  | .subscribeOk subscribeId | .unsubscribe subscribeId => [subscribeId.toNat]
  | .subscribeError subscribeId code reason =>
    [subscribeId.toNat, code.toNat, (utf8 reason).length]
  | .goaway reason => [(utf8 reason).length]
  | .groupHeader trackRef groupId => groupId.toNat :: trackRef.integers
  | .object obj => [obj.objectId.toNat, obj.timestampMs.toNat, obj.payload.length]

theorem writes_payload {ε : Type} {m} (h : ∀ n ∈ m.fields, n ≤ Varint.max.toNat)
    (hGroup : ∀ obj, m = .object obj → obj.groupId = 0) :
    Writes (m.payload : Outcome ε _) (readFields m.typeCode) m := by
  have hInt : ∀ v : UInt64, v.toNat ∈ m.fields →
      Writes (Varint.encode v : Outcome ε _) readVarint v :=
    fun v hv => writes_varint (UInt64.le_iff_toNat_le.mpr (h _ hv))
  have hStr : ∀ s : String, (utf8 s).length ∈ m.fields →
      Writes (encodeStr s : Outcome ε _) readString s :=
    fun s hs => writes_string (h _ hs)
  cases m with
  | setup version role =>
    obtain ⟨b₁, hE₁, hR₁⟩ := hInt version (by simp [fields])
    obtain ⟨b₂, hE₂, hR₂⟩ := writes_varint (ε := ε) role.code_le
    refine ⟨b₁ ++ b₂, by simp [payload, hE₁, hE₂], fun rest => ?_⟩
    simp only [readFields, typeCode, append_assoc, hR₁, hR₂, ok_bind, Role.fromU64_code]
  | announce ns | announceOk ns =>
    obtain ⟨b, hE, hR⟩ := hStr ns (by simp [fields])
    refine ⟨b, hE, fun rest => ?_⟩
    simp only [readFields, typeCode, hR, ok_bind]
  | subscribe subscribeId trackAlias track start priority =>
    obtain ⟨b₁, hE₁, hR₁⟩ := hInt subscribeId (by simp [fields])
    obtain ⟨b₂, hE₂, hR₂⟩ := hInt trackAlias (by simp [fields])
    obtain ⟨b₃, hE₃, hR₃⟩ := writes_track (ε := ε) track (h _ (by simp [fields]))
      (h _ (by simp [fields]))
    obtain ⟨b₄, hE₄, hR₄⟩ := writes_varint (ε := ε) start.code_le
    obtain ⟨b₅, hE₅, hR₅⟩ := writes_varint (ε := ε) (priority_le priority)
    refine ⟨b₁ ++ b₂ ++ b₃ ++ b₄ ++ b₅, by simp [payload, hE₁, hE₂, hE₃, hE₄, hE₅], fun rest => ?_⟩
    simp only [readFields, typeCode, append_assoc, hR₁, hR₂, hR₃, hR₄, hR₅, ok_bind,
      StartMode.fromU64_code, UInt8.toUInt8_toUInt64]
  | subscribeOk subscribeId | unsubscribe subscribeId =>
    obtain ⟨b, hE, hR⟩ := hInt subscribeId (by simp [fields])
    refine ⟨b, hE, fun rest => ?_⟩
    simp only [readFields, typeCode, hR, ok_bind]
  | subscribeError subscribeId code reason =>
    obtain ⟨b₁, hE₁, hR₁⟩ := hInt subscribeId (by simp [fields])
    obtain ⟨b₂, hE₂, hR₂⟩ := hInt code (by simp [fields])
    obtain ⟨b₃, hE₃, hR₃⟩ := hStr reason (by simp [fields])
    refine ⟨b₁ ++ b₂ ++ b₃, by simp [payload, hE₁, hE₂, hE₃], fun rest => ?_⟩
    simp only [readFields, typeCode, append_assoc, hR₁, hR₂, hR₃, ok_bind]
  | goaway reason =>
    obtain ⟨b, hE, hR⟩ := hStr reason (by simp [fields])
    refine ⟨b, hE, fun rest => ?_⟩
    simp only [readFields, typeCode, hR, ok_bind]
  | groupHeader trackRef groupId =>
    obtain ⟨b₁, hE₁, hR₁⟩ := writes_trackRef (ε := ε) fun n hn =>
      h n (mem_cons_of_mem groupId.toNat hn)
    obtain ⟨b₂, hE₂, hR₂⟩ := hInt groupId (by simp [fields])
    refine ⟨b₁ ++ b₂, by simp [payload, hE₁, hE₂], fun rest => ?_⟩
    simp only [readFields, typeCode, append_assoc, hR₁, hR₂, ok_bind]
  | object obj =>
    obtain ⟨b₁, hE₁, hR₁⟩ := hInt obj.objectId (by simp [fields])
    obtain ⟨b₂, hE₂, hR₂⟩ := writes_varint (ε := ε) (priority_le obj.priority)
    obtain ⟨b₃, hE₃, hR₃⟩ := hInt obj.timestampMs (by simp [fields])
    obtain ⟨b₄, hE₄, hR₄⟩ := writes_bytes (ε := ε) obj.payload (h _ (by simp [fields]))
    refine ⟨b₁ ++ b₂ ++ b₃ ++ b₄, by simp [payload, hE₁, hE₂, hE₃, hE₄], fun rest => ?_⟩
    -- the group id is read as 0
    simp only [readFields, typeCode, append_assoc, hR₁, hR₂, hR₃, hR₄, ok_bind,
      UInt8.toUInt8_toUInt64, ← hGroup obj rfl]

def payloadLen (m : Message) : Nat :=
  match (m.payload : Outcome Empty Bytes) with
  | .ok payload => payload.length
  | _ => 0

/-- All integers of the frame have at most 62 bits, and the group id of an object
is the one that decoding fills in. -/
structure Fits (m : Message) : Prop where
  fields : ∀ n ∈ m.fields, n ≤ max.toNat
  len : m.payloadLen ≤ max.toNat
  group : ∀ obj, m = .object obj → obj.groupId = 0

def Framed (m : Message) (frame : Bytes) : Prop :=
  ∃ typeCode len payload, frame = typeCode ++ (len ++ payload) ∧
    Varint.Encoded m.typeCode typeCode ∧ payload.length ≤ max.toNat ∧
    Varint.Encoded (UInt64.ofNat payload.length) len ∧ Reads (readFields m.typeCode) payload m

theorem typeCode_le (m : Message) : m.typeCode ≤ max := by
  cases m <;> simp only [typeCode] <;> decide

/-- A message whose integers have at most 62 bits is encoded. -/
theorem encode_framed {m : Message} (h : m.Fits) :
    ∃ frame, m.encode = (ok frame : Outcome Empty _) ∧ m.Framed frame := by
  obtain ⟨payload, hPayload, hReads⟩ := writes_payload (ε := Empty) h.fields h.group
  have hLen := h.len
  rw [payloadLen, hPayload] at hLen
  obtain ⟨typeCode, hType, hTyped⟩ := Varint.encode_encoded (ε := Empty) m.typeCode_le
  obtain ⟨len, hEncode, hEncoded⟩ := Varint.encode_encoded (ε := Empty) (ofNat_le_max hLen)
  exact ⟨typeCode ++ (len ++ payload), by simp [encode, hPayload, hType, hEncode],
    typeCode, len, payload, rfl, hTyped, hLen, hEncoded, hReads⟩

theorem Framed.decode {m frame} (h : m.Framed frame) : Message.decode frame = ok m := by
  obtain ⟨typeCode, len, payload, rfl, hTyped, hLen, hEncoded, hReads⟩ := h
  have hFields := hReads []
  rw [append_nil] at hFields
  have hRest : sliceFrom (typeCode ++ (len ++ payload)) typeCode.length =
      (ok (len ++ payload) : Outcome ReadError _) := by
    simp [sliceFrom]
  have hTail : sliceFrom (typeCode ++ (len ++ payload)) (typeCode.length + len.length) =
      (ok payload : Outcome ReadError _) := by
    simp [sliceFrom, drop_append]
  simp [Message.decode, Varint.decode_encoded hTyped, Varint.decode_encoded hEncoded, hRest, hTail,
    toNat_ofNat_of_le_max hLen, hFields]

end Message

end DirectWire.Moq
