import DirectWire.Lib.Stream
import DirectWire.Mesh.Proto

/-!
# Mesh — messages on streams

`write_frame` and `read_frame` of `proto.rs`, `write_msg` and `read_msg` of `quic/mod.rs`: a length
of four bytes in front; the writers write any length, the readers take up to 4 MiB. The end of the
stream is no error to `read_frame` if it comes in front of the length or inside it.

* `readFrame_written`, `readFrame_long`, `readFrame_cut` — a frame that is whole, too long, or cut.
-/

namespace DirectWire.Mesh

open Lib Outcome List

/-- `MAX_FRAME`. -/
def maxFrame : Nat := 4 * 1024 * 1024

/-- What is put on the stream; the length is `body.len() as u32`. -/
def writeFrame (f : Frame) : Bytes := beBytes 4 ((encode f).length % 2 ^ 32) ++ encode f

def readFrame (chunks : List Bytes) : Outcome IoError (Option Frame) × List Bytes :=
  match readExact 4 chunks with
  | (none, rest) => (ok none, rest)
  | (some lenBuf, rest) =>
    let len := beNat lenBuf
    if len = 0 ∨ maxFrame < len then (err (bad "invalid frame length"), rest)
    else match readExact len rest with
      | (none, rest) => (err .unexpectedEof, rest)
      | (some body, rest) => (decode body >>= fun f => ok (some f), rest)

/-- What `n` calls return, up to the first one that gives no frame. -/
def readFrames : Nat → List Bytes → List (Outcome IoError (Option Frame))
  | 0, _ => []
  | n + 1, chunks =>
    match readFrame chunks with
    | (.ok (some f), rest) => ok (some f) :: readFrames n rest
    | (result, _) => [result]

def writeMsg (payload : Bytes) : Bytes := beBytes 4 (payload.length % 2 ^ 32) ++ payload

def readMsg (chunks : List Bytes) : Outcome IoError Bytes :=
  match readExact 4 chunks with
  | (none, _) => err .unexpectedEof
  | (some lenBuf, rest) =>
    let len := beNat lenBuf
    if 4 * 1024 * 1024 < len then err (.invalidData "message too large")
    else match readExact len rest with
      | (none, _) => err .unexpectedEof
      | (some buf, _) => ok buf

/-! ## One frame -/

section Frame

variable {f : Frame} {chunks : List Bytes} {more : Bytes}

theorem readExact_length {n bytes} (h : Splits chunks (beBytes 4 (n % 2 ^ 32) ++ bytes)) :
    ∃ lenBuf rest, readExact 4 chunks = (some lenBuf, rest) ∧ beNat lenBuf = n % 2 ^ 32 ∧
      Splits rest bytes := by
  obtain ⟨rest, hRead, hRest⟩ := readExact_append h
  rw [beBytes_length] at hRead
  exact ⟨_, rest, hRead, beNat_beBytes (Nat.mod_lt _ (by decide)), hRest⟩

theorem encode_ne_nil (f : Frame) : encode f ≠ [] := by
  cases f <;> exact cons_ne_nil _ _

theorem readFrame_written (hTrip : decode (encode f) = ok f.bare)
    (hLen : (encode f).length ≤ maxFrame) (h : Splits chunks (writeFrame f ++ more)) :
    ∃ rest, readFrame chunks = (ok (some f.bare), rest) ∧ Splits rest more := by
  rw [writeFrame, append_assoc] at h
  obtain ⟨lenBuf, rest, hRead, hNat, hRest⟩ := readExact_length h
  have hFits : (encode f).length % 2 ^ 32 = (encode f).length :=
    Nat.mod_eq_of_lt (hLen.trans_lt (by decide))
  obtain ⟨left, hBody, hLeft⟩ := readExact_append hRest
  have hPos := length_pos_iff.mpr (encode_ne_nil f)
  rw [readFrame, hRead]
  dsimp only
  rw [hNat, hFits, if_neg (by omega), hBody]
  dsimp only
  rw [hTrip, ok_bind]
  exact ⟨left, rfl, hLeft⟩

theorem readFrame_long (hTrip : decode (encode f) = ok f.bare)
    (hLong : maxFrame < (encode f).length) (h : Splits chunks (writeFrame f ++ more)) :
    ∃ e rest, readFrame chunks = (err e, rest) := by
  rw [writeFrame, append_assoc] at h
  obtain ⟨lenBuf, rest, hRead, hNat, hRest⟩ := readExact_length h
  rw [readFrame, hRead]
  dsimp only
  split
  · exact ⟨_, _, rfl⟩
  · rename_i hSmall
    -- a part of the frame is taken for the whole
    have hLess : beNat lenBuf < (encode f).length := by omega
    have hParts : encode f = (encode f).take (beNat lenBuf) ++ (encode f).drop (beNat lenBuf) :=
      (take_append_drop _ _).symm
    have hTake : ((encode f).take (beNat lenBuf)).length = beNat lenBuf :=
      length_take_of_le hLess.le
    have hLeft : (encode f).drop (beNat lenBuf) ≠ [] := by
      rw [ne_eq, drop_eq_nil_iff]
      omega
    rw [hParts, append_assoc] at hRest
    obtain ⟨left, hBody, -⟩ := readExact_append hRest
    rw [hTake] at hBody
    rw [hBody]
    dsimp only
    rw [decode_cut (Frame.fits_of_decode hTrip) hParts hLeft]
    exact ⟨_, _, rfl⟩

theorem readFrame_short {bytes} (h : Splits chunks bytes) (hShort : bytes.length < 4) :
    ∃ rest, readFrame chunks = (ok none, rest) := by
  obtain ⟨rest, hRead⟩ := readExact_short h hShort
  rw [readFrame, hRead]
  exact ⟨rest, rfl⟩

theorem readFrame_cut {part left} (hTrip : decode (encode f) = ok f.bare)
    (hParts : writeFrame f = part ++ left) (hLeft : left ≠ []) (hHeader : 4 ≤ part.length)
    (h : Splits chunks part) : ∃ e rest, readFrame chunks = (err e, rest) := by
  obtain ⟨body, rfl, hBody⟩ := append_of_length_le hParts.symm (by rwa [beBytes_length])
  obtain ⟨lenBuf, rest, hRead, hNat, hRest⟩ := readExact_length h
  have hPos := length_pos_iff.mpr hLeft
  have hShorter : body.length < (encode f).length := by
    rw [hBody, length_append]
    omega
  rw [readFrame, hRead]
  dsimp only
  split
  · exact ⟨_, _, rfl⟩
  · by_cases hEnough : body.length < beNat lenBuf
    · obtain ⟨rest', hShort⟩ := readExact_short hRest hEnough
      rw [hShort]
      exact ⟨_, _, rfl⟩
    · -- the length was cast, and there are enough bytes for it
      have hTake : (body.take (beNat lenBuf)).length = beNat lenBuf := length_take_of_le (by omega)
      have hCut : encode f = body.take (beNat lenBuf) ++ (body.drop (beNat lenBuf) ++ left) := by
        rw [← append_assoc, take_append_drop, hBody]
      have hBehind : body.drop (beNat lenBuf) ++ left ≠ [] := append_ne_nil_of_right_ne_nil _ hLeft
      rw [← take_append_drop (beNat lenBuf) body] at hRest
      obtain ⟨rest', hTaken, -⟩ := readExact_append hRest
      rw [hTake] at hTaken
      rw [hTaken]
      dsimp only
      rw [decode_cut (Frame.fits_of_decode hTrip) hCut hBehind]
      exact ⟨_, _, rfl⟩

end Frame

/-! ## Frames one after another -/

def arrived (fs : List Frame) : List (Outcome IoError (Option Frame)) :=
  fs.map fun f => ok (some f.bare)

section Frames

variable {fs before after : List Frame} {f : Frame} {chunks : List Bytes} {more : Bytes}

def Trip (f : Frame) : Prop := decode (encode f) = ok f.bare

def Short (f : Frame) : Prop := (encode f).length ≤ maxFrame

theorem readFrames_append (hTrip : ∀ f ∈ before, Trip f) (hShort : ∀ f ∈ before, Short f)
    (h : Splits chunks (before.flatMap writeFrame ++ more)) (n : Nat) :
    ∃ rest, readFrames (before.length + n) chunks = arrived before ++ readFrames n rest ∧
      Splits rest more := by
  induction before generalizing chunks with
  | nil => exact ⟨chunks, by rw [length_nil, Nat.zero_add]; rfl, h⟩
  | cons f before ih =>
    rw [flatMap_cons, append_assoc] at h
    obtain ⟨rest, hRead, hRest⟩ := readFrame_written (hTrip f mem_cons_self)
      (hShort f mem_cons_self) h
    obtain ⟨last, hReads, hLast⟩ := ih (fun g hg => hTrip g (mem_cons_of_mem _ hg))
      (fun g hg => hShort g (mem_cons_of_mem _ hg)) hRest
    refine ⟨last, ?_, hLast⟩
    rw [length_cons, Nat.add_right_comm, readFrames, hRead]
    dsimp only
    rw [hReads]
    rfl

theorem readFrames_of_err {n e rest} (h : readFrame chunks = (err e, rest)) :
    readFrames (n + 1) chunks = [err e] := by
  rw [readFrames, h]

theorem readFrames_of_none {n rest} (h : readFrame chunks = (ok none, rest)) :
    readFrames (n + 1) chunks = [ok none] := by
  rw [readFrames, h]

theorem exists_first_long (h : ∃ f ∈ fs, ¬ Short f) :
    ∃ before f after, fs = before ++ f :: after ∧ (∀ g ∈ before, Short g) ∧ ¬ Short f := by
  induction fs with
  | nil =>
    obtain ⟨f, hf, -⟩ := h
    cases hf
  | cons f fs ih =>
    by_cases hFirst : Short f
    · obtain ⟨g, hg, hLong⟩ := h
      have hRest : g ∈ fs := by
        rcases mem_cons.mp hg with rfl | hg
        · exact absurd hFirst hLong
        · exact hg
      obtain ⟨before, f', after, rfl, hBefore, hLong'⟩ := ih ⟨g, hRest, hLong⟩
      exact ⟨f :: before, f', after, rfl, forall_mem_cons.mpr ⟨hFirst, hBefore⟩, hLong'⟩
    · exact ⟨[], f, fs, rfl, by simp, hFirst⟩

theorem readFrames_long (hTrip : ∀ f ∈ fs, Trip f) (hLong : ∃ f ∈ fs, ¬ Short f)
    (h : Splits chunks (fs.flatMap writeFrame ++ more)) (n : Nat) :
    ∃ got e, readFrames (fs.length + n) chunks = got ++ [err e] := by
  obtain ⟨before, f, after, rfl, hBefore, hLong⟩ := exists_first_long hLong
  rw [flatMap_append, flatMap_cons, append_assoc, append_assoc] at h
  obtain ⟨rest, hReads, hRest⟩ := readFrames_append
    (fun g hg => hTrip g (mem_append_left _ hg)) hBefore h (after.length + n + 1)
  obtain ⟨e, rest', hRead⟩ := readFrame_long (hTrip f (by simp)) (not_le.mp hLong) hRest
  refine ⟨arrived before, e, ?_⟩
  rw [length_append, length_cons, Nat.add_assoc, Nat.add_right_comm after.length 1 n,
    hReads, readFrames_of_err hRead]

theorem readFrames_all_iff (hTrip : ∀ f ∈ fs, Trip f)
    (h : Splits chunks (fs.flatMap writeFrame)) :
    readFrames (fs.length + 1) chunks = arrived fs ++ [ok none] ↔ ∀ f ∈ fs, Short f := by
  rw [← append_nil (fs.flatMap writeFrame)] at h
  constructor
  · intro hAll
    by_contra hSome
    push Not at hSome
    obtain ⟨got, e, hReads⟩ := readFrames_long hTrip hSome h 1
    rw [hAll] at hReads
    have hLast := append_inj_right' hReads rfl
    cases hLast
  · intro hShort
    obtain ⟨rest, hReads, hRest⟩ := readFrames_append hTrip hShort h 1
    obtain ⟨rest', hRead⟩ := readFrame_short hRest (by decide)
    rw [hReads, readFrames_of_none hRead]

theorem readFrames_cut_iff {part left} (hTrip : ∀ g ∈ before ++ [f], Trip g)
    (hParts : writeFrame f = part ++ left) (hLeft : left ≠ [])
    (h : Splits chunks (before.flatMap writeFrame ++ part)) :
    (∃ got e, readFrames (before.length + 1) chunks = got ++ [err e]) ↔
      4 ≤ part.length ∨ ∃ g ∈ before, ¬ Short g := by
  have hTripBefore : ∀ g ∈ before, Trip g := fun g hg => hTrip g (mem_append_left _ hg)
  by_cases hSome : ∃ g ∈ before, ¬ Short g
  · simp only [hSome, or_true, iff_true]
    exact readFrames_long hTripBefore hSome h 1
  · have hShort : ∀ g ∈ before, Short g := by
      intro g hg
      by_contra hLong
      exact hSome ⟨g, hg, hLong⟩
    obtain ⟨rest, hReads, hRest⟩ := readFrames_append hTripBefore hShort h 1
    rw [hReads]
    constructor
    · rintro ⟨got, e, hLast⟩
      by_contra hNot
      obtain ⟨rest', hRead⟩ := readFrame_short hRest (by omega)
      rw [readFrames_of_none hRead] at hLast
      have hErr := append_inj_right' hLast rfl
      cases hErr
    · intro hHeader
      obtain ⟨e, rest', hRead⟩ := readFrame_cut (hTrip f (by simp)) hParts hLeft
        (hHeader.resolve_right hSome) hRest
      exact ⟨arrived before, e, by rw [readFrames_of_err hRead]⟩

end Frames

/-! ## Messages over QUIC -/

theorem readMsg_iff {payload chunks} (h : Splits chunks (writeMsg payload)) :
    readMsg chunks = ok payload ↔ payload.length ≤ 4 * 1024 * 1024 := by
  obtain ⟨lenBuf, rest, hRead, hNat, hRest⟩ := readExact_length h
  constructor
  · intro hMsg
    by_contra hLong
    rw [readMsg, hRead] at hMsg
    dsimp only at hMsg
    split at hMsg
    · cases hMsg
    · rename_i hSmall
      -- a part of the message is taken for the whole
      have hTake : (payload.take (beNat lenBuf)).length = beNat lenBuf :=
        length_take_of_le (by omega)
      rw [← take_append_drop (beNat lenBuf) payload] at hRest
      obtain ⟨rest', hTaken, -⟩ := readExact_append hRest
      rw [hTake] at hTaken
      rw [hTaken] at hMsg
      have hLength := congrArg length (ok.inj hMsg)
      omega
  · intro hLen
    have hFits : payload.length % 2 ^ 32 = payload.length :=
      Nat.mod_eq_of_lt (hLen.trans_lt (by decide))
    rw [← append_nil payload] at hRest
    obtain ⟨rest', hAll, -⟩ := readExact_append hRest
    rw [readMsg, hRead]
    dsimp only
    rw [hNat, hFits, if_neg (by omega), hAll]

/-- **Framing.** The frames survive the codec (`hTrip`), and the stream comes in any chunks. All
frames and then the end are read exactly if each has at most `MAX_FRAME` bytes. If the stream ends
inside a frame, there is an error exactly if the whole length was read, or a frame before it is too
long. What `write_msg` has written is read back exactly if it has at most 4 MiB. -/
theorem framing_iff {fs : List Frame} (hTrip : ∀ f ∈ fs, decode (encode f) = ok f.bare) :
    (∀ chunks, Splits chunks (fs.flatMap writeFrame) →
      (readFrames (fs.length + 1) chunks = arrived fs ++ [ok none] ↔
        ∀ f ∈ fs, (encode f).length ≤ maxFrame)) ∧
    (∀ before f after part left chunks, fs = before ++ f :: after → writeFrame f = part ++ left →
      part ≠ [] → left ≠ [] → Splits chunks (before.flatMap writeFrame ++ part) →
      ((∃ got e, readFrames (before.length + 1) chunks = got ++ [err e]) ↔
        4 ≤ part.length ∨ ∃ g ∈ before, ¬ (encode g).length ≤ maxFrame)) ∧
    ∀ payload chunks, Splits chunks (writeMsg payload) →
      (readMsg chunks = ok payload ↔ payload.length ≤ 4 * 1024 * 1024) := by
  refine ⟨fun chunks h => readFrames_all_iff hTrip h, ?_, fun payload chunks h => readMsg_iff h⟩
  rintro before f after part left chunks rfl hParts - hLeft h
  refine readFrames_cut_iff (fun g hg => hTrip g ?_) hParts hLeft h
  rw [mem_append, mem_singleton] at hg
  rcases hg with hg | rfl
  · exact mem_append_left _ hg
  · exact mem_append_right _ mem_cons_self

/-- Two frames, byte by byte. -/
theorem framing_iff_two :
    readFrames 3 ((writeFrame .statsQuery ++ writeFrame (.punchRequest loneNode)).map ([·])) =
      [ok (some .statsQuery), ok (some (.punchRequest loneNode)), ok none] := by
  have hTrip : ∀ f ∈ [Frame.statsQuery, .punchRequest loneNode], decode (encode f) = ok f.bare := by
    intro f hf
    simp only [mem_cons, not_mem_nil, or_false] at hf
    rcases hf with rfl | rfl <;> exact decode_encode ⟨Nat.two_pow_pos _, Nat.two_pow_pos _⟩
  refine ((framing_iff hTrip).1 _ ?_).mpr (by decide)
  exact splits_bytewise _

theorem lost_of_long {payload} (hLong : 4 * 1024 * 1024 < payload.length)
    (hFits : payload.length < 2 ^ 32) :
    decode (encode (.relayData loneNode loneNode payload)) =
        ok (.relayData loneNode loneNode payload) ∧
      (∃ e, readFrames 2 [writeFrame (.relayData loneNode loneNode payload)] = [err e]) ∧
      readMsg [writeMsg payload] ≠ ok payload := by
  have hTrip : Trip (.relayData loneNode loneNode payload) :=
    decode_encode ⟨Nat.two_pow_pos _, hFits⟩
  have hLength : maxFrame < (encode (.relayData loneNode loneNode payload)).length := by
    simp only [encode, putBytes, length_cons, length_append, maxFrame]
    omega
  refine ⟨hTrip, ?_, fun hRead => ?_⟩
  · have hFrame : Splits [writeFrame (.relayData loneNode loneNode payload)]
        (writeFrame (.relayData loneNode loneNode payload) ++ []) := by
      rw [append_nil]
      exact splits_singleton (append_ne_nil_of_right_ne_nil _ (encode_ne_nil _))
    obtain ⟨e, rest, hRead⟩ := readFrame_long hTrip hLength hFrame
    exact ⟨e, readFrames_of_err hRead⟩
  · have hSome : payload ≠ [] := ne_nil_of_length_pos (by omega)
    have hShort := (readMsg_iff (splits_singleton (append_ne_nil_of_right_ne_nil _ hSome))).mp hRead
    omega

def longPayload : Bytes := replicate (4 * 1024 * 1024 + 1) 0

theorem length_longPayload : longPayload.length = 4 * 1024 * 1024 + 1 := by
  rw [longPayload, length_replicate]

/-- A payload of 4 MiB is not delivered, and a frame cut after two bytes is no error. -/
theorem not_framing :
    (decode (encode (.relayData loneNode loneNode longPayload)) =
        ok (.relayData loneNode loneNode longPayload) ∧
      (∃ e, readFrames 2 [writeFrame (.relayData loneNode loneNode longPayload)] = [err e]) ∧
      readMsg [writeMsg longPayload] ≠ ok longPayload) ∧
    ∃ part left, writeFrame .statsQuery = part ++ left ∧ part ≠ [] ∧ left ≠ [] ∧
      readFrames 1 [part] = [ok none] := by
  refine ⟨lost_of_long ?_ ?_, [0, 0], [0, 1, 6], by decide, by decide, by decide, by decide⟩
  · rw [length_longPayload]
    decide
  · rw [length_longPayload]
    decide

end DirectWire.Mesh
