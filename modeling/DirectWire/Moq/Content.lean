import DirectWire.Moq.Message

/-!
# MoQ — what a frame says

A frame that is accepted is a type and fields, each an integer or a string of bytes. The message
has all of them but one: the priority of SUBSCRIBE and OBJECT is an integer of up to 62 bits, and is
cast to a `u8`.
-/

namespace DirectWire.Moq

open Lib Outcome

inductive Field where
  | int (v : UInt64)
  | bytes (b : Bytes)
deriving DecidableEq

namespace Message

/-- Which fields are strings of bytes. That of GROUP_HEADER depends on the first. -/
def layout (typeCode first : UInt64) : List Bool :=
  match typeCode with
  | 0x01 => [false, false]
  | 0x02 | 0x03 | 0x08 => [true]
  | 0x04 => [false, false, true, true, false, false]
  | 0x05 | 0x07 => [false]
  | 0x06 => [false, false, true]
  | 0x10 => if first = refFull then [false, true, true, false] else [false, false, false]
  | _ => [false, false, false, true]

def readLayout : List Bool → Bytes → Outcome ReadError (List Field)
  | [], _ => ok []
  | true :: rest, r => do
    let (b, r) ← readBytes r
    let fields ← readLayout rest r
    ok (.bytes b :: fields)
  | false :: rest, r => do
    let (v, r) ← readVarint r
    let fields ← readLayout rest r
    ok (.int v :: fields)

/-- The type and the fields, however the integers are encoded. -/
def content (frame : Bytes) : Outcome ReadError (UInt64 × List Field) := do
  let (typeCode, n1) ← Varint.decode frame
  let rest ← sliceFrom frame n1
  let (_, n2) ← Varint.decode rest
  let payload ← sliceFrom frame (n1 + n2)
  let (first, _) ← readVarint payload
  let fields ← readLayout (layout typeCode first) payload
  ok (typeCode, fields)

def priorityField : UInt64 × List Field → Option Field
  | (0x04, fields) => fields[5]?
  | (0x11, fields) => fields[1]?
  | _ => none

/-- The fields of a message with this priority. -/
def said (priority : UInt64) : Message → List Field
  | .setup version role => [.int version, .int role.code]
  | .announce s | .announceOk s | .goaway s => [.bytes (utf8 s)]
  | .subscribe subscribeId trackAlias track start _ => [.int subscribeId, .int trackAlias,
      .bytes (utf8 track.ns), .bytes (utf8 track.name), .int start.code, .int priority]
  | .subscribeOk subscribeId | .unsubscribe subscribeId => [.int subscribeId]
  | .subscribeError subscribeId code reason => [.int subscribeId, .int code, .bytes (utf8 reason)]
  | .groupHeader (.byAlias a) groupId => [.int refAlias, .int a, .int groupId]
  | .groupHeader (.full track) groupId =>
    [.int refFull, .bytes (utf8 track.ns), .bytes (utf8 track.name), .int groupId]
  | .object obj => [.int obj.objectId, .int priority, .int obj.timestampMs, .bytes obj.payload]

variable {r r' payload frame frame' : Bytes} {m : Message}

theorem readBytes_of_readString {s} (h : readString r = ok (s, r')) :
    readBytes r = ok (utf8 s, r') := by
  obtain ⟨⟨b, r₁⟩, hRead, h⟩ := bind_eq_ok.mp h
  obtain ⟨s', hText, h⟩ := bind_eq_ok.mp h
  cases h
  rw [hRead, utf8_of_fromUtf8 (okOr_eq_ok.mp hText)]

theorem readVarint_of_readBytes {b} (h : readBytes r = ok (b, r')) :
    ∃ len r₁, readVarint r = ok (len, r₁) := by
  obtain ⟨⟨len, r₁⟩, hRead, -⟩ := bind_eq_ok.mp h
  exact ⟨len, r₁, hRead⟩

theorem readTrack_eq_ok {track} (h : readTrack r = ok (track, r')) :
    ∃ r₁, readBytes r = ok (utf8 track.ns, r₁) ∧ readBytes r₁ = ok (utf8 track.name, r') := by
  obtain ⟨⟨ns, r₁⟩, hNs, h⟩ := bind_eq_ok.mp h
  obtain ⟨⟨name, r₂⟩, hName, h⟩ := bind_eq_ok.mp h
  cases h
  exact ⟨r₁, readBytes_of_readString hNs, readBytes_of_readString hName⟩

theorem code_of_fromU64 {v role} (h : Role.fromU64 v = ok role) : role.code = v := by
  unfold Role.fromU64 at h
  split at h <;> cases h <;> rfl

theorem start_of_fromU64 {v start} (h : StartMode.fromU64 v = ok start) : start.code = v := by
  unfold StartMode.fromU64 at h
  split at h <;> cases h <;> rfl

theorem readLayout_of_readFields {typeCode} (h : readFields typeCode payload = ok (m, r')) :
    typeCode = m.typeCode ∧ ∃ p first r₁, readVarint payload = ok (first, r₁) ∧
      readLayout (layout typeCode first) payload = ok (m.said p) := by
  -- one case for each type; the fields are read in the same order
  unfold readFields at h
  split at h
  any_goals simp only [bind_eq_ok, Prod.exists] at h
  · obtain ⟨version, r₁, h₁, v, r₂, h₂, role, hRole, h⟩ := h
    cases h
    exact ⟨rfl, 0, _, _, h₁, by simp [layout, readLayout, said, h₁, h₂, code_of_fromU64 hRole]⟩
  iterate 2
    obtain ⟨s, r₁, h₁, h⟩ := h
    cases h
    have h₁ := readBytes_of_readString h₁
    obtain ⟨len, r₂, hLen⟩ := readVarint_of_readBytes h₁
    exact ⟨rfl, 0, _, _, hLen, by simp [layout, readLayout, said, h₁]⟩
  · obtain ⟨id, r₁, h₁, a, r₂, h₂, track, r₃, h₃, v, r₄, h₄, start, hStart, p, r₅, h₅, h⟩ := h
    cases h
    obtain ⟨r₆, hNs, hName⟩ := readTrack_eq_ok h₃
    refine ⟨rfl, p, _, _, h₁, ?_⟩
    simp [layout, readLayout, said, h₁, h₂, hNs, hName, h₄, h₅, start_of_fromU64 hStart]
  · obtain ⟨id, r₁, h₁, h⟩ := h
    cases h
    exact ⟨rfl, 0, _, _, h₁, by simp [layout, readLayout, said, h₁]⟩
  · obtain ⟨id, r₁, h₁, code, r₂, h₂, reason, r₃, h₃, h⟩ := h
    cases h
    have h₃ := readBytes_of_readString h₃
    exact ⟨rfl, 0, _, _, h₁, by simp [layout, readLayout, said, h₁, h₂, h₃]⟩
  · obtain ⟨id, r₁, h₁, h⟩ := h
    cases h
    exact ⟨rfl, 0, _, _, h₁, by simp [layout, readLayout, said, h₁]⟩
  · obtain ⟨s, r₁, h₁, h⟩ := h
    cases h
    have h₁ := readBytes_of_readString h₁
    obtain ⟨len, r₂, hLen⟩ := readVarint_of_readBytes h₁
    exact ⟨rfl, 0, _, _, hLen, by simp [layout, readLayout, said, h₁]⟩
  · obtain ⟨trackRef, r₁, h₁, groupId, r₂, h₂, h⟩ := h
    cases h
    obtain ⟨⟨tag, r₃⟩, hTag, h₁⟩ := bind_eq_ok.mp h₁
    refine ⟨rfl, 0, tag, r₃, hTag, ?_⟩
    split at h₁
    any_goals simp only [bind_eq_ok, Prod.exists] at h₁
    · rename_i heq
      cases heq
      obtain ⟨a, r₄, hAlias, h₁⟩ := h₁
      cases h₁
      simp [layout, readLayout, said, hTag, hAlias, h₂, refAlias, refFull]
    · rename_i heq
      cases heq
      obtain ⟨track, r₄, hTrack, h₁⟩ := h₁
      cases h₁
      obtain ⟨r₅, hNs, hName⟩ := readTrack_eq_ok hTrack
      simp [layout, readLayout, said, hTag, hNs, hName, h₂, refFull]
    · cases h₁
  · obtain ⟨id, r₁, h₁, p, r₂, h₂, ts, r₃, h₃, b, r₄, h₄, h⟩ := h
    cases h
    exact ⟨rfl, p, _, _, h₁, by simp [layout, readLayout, said, h₁, h₂, h₃, h₄]⟩
  · cases h

/-- The content of an accepted frame, from its message. -/
theorem content_of_decode (h : decode frame = ok m) :
    ∃ p, content frame = ok (m.typeCode, m.said p) := by
  obtain ⟨⟨typeCode, n1⟩, hType, h⟩ := bind_eq_ok.mp h
  obtain ⟨rest, hRest, h⟩ := bind_eq_ok.mp h
  obtain ⟨⟨len, n2⟩, hLen, h⟩ := bind_eq_ok.mp h
  obtain ⟨payload, hPayload, h⟩ := bind_eq_ok.mp h
  split at h
  · cases h
  obtain ⟨⟨m', r⟩, hFields, h⟩ := bind_eq_ok.mp h
  dsimp only at h
  split at h
  · cases h
  cases h
  obtain ⟨rfl, p, first, r₁, hFirst, hRead⟩ := readLayout_of_readFields hFields
  exact ⟨p, by simp [content, hType, hRest, hLen, hPayload, hFirst, hRead]⟩

/-- **A decoded message has lost the size of its priority, and nothing else.** Two frames that
decode to one message have contents, and these are equal exactly if their priorities are. -/
theorem content_eq_iff (h : decode frame = ok m) (h' : decode frame' = ok m) :
    ∃ c c', content frame = ok c ∧ content frame' = ok c' ∧
      (c = c' ↔ priorityField c = priorityField c') := by
  obtain ⟨p, hContent⟩ := content_of_decode h
  obtain ⟨p', hContent'⟩ := content_of_decode h'
  refine ⟨_, _, hContent, hContent', fun hSame => hSame ▸ rfl, fun hSame => ?_⟩
  cases m with
  | groupHeader trackRef => cases trackRef <;> rfl
  | subscribe | object => simp_all [priorityField, said, typeCode]
  | _ => rfl

theorem content_eq_iff_wide : ∃ c c', content [5, 1, 7] = ok c ∧ content [5, 2, 0x40, 7] = ok c' ∧
    (c = c' ↔ priorityField c = priorityField c') :=
  content_eq_iff (m := .subscribeOk 7) (by decide +kernel) (by decide +kernel)

/-- OBJECT with the priorities 1 and 257. -/
theorem not_content_eq :
    decode [0x11, 4, 0, 1, 0, 0] = decode [0x11, 5, 0, 0x41, 0x01, 0, 0] ∧
      (decode [0x11, 4, 0, 1, 0, 0]).toOption.isSome ∧
      content [0x11, 4, 0, 1, 0, 0] ≠ content [0x11, 5, 0, 0x41, 0x01, 0, 0] := by
  decide +kernel

end Message

end DirectWire.Moq
