import DirectWire.Lib.Stream
import DirectWire.Mesh.Quic
import DirectWire.Moq.Message

/-!
# MoQ — frames from a stream, and the pinned server

`net.rs`. A frame reader takes a frame off its bytes as soon as the frame is whole, and otherwise
reads on. A client compares the certificate of its server with the configured one; the check of the
handshake signature accepts everything.

* `tryParse_framed`, `tryParse_cut` — a whole frame, and a part of one.
-/

namespace DirectWire.Moq

open Lib Outcome List Varint

/-! ## Frames -/

def tryParse (buf : Bytes) : Outcome ReadError (Option (Message × Nat)) :=
  match decode buf with
  | .err _ => ok none
  | .panic p => panic p
  | .ok (_, n1) => do
    let rest ← sliceFrom buf n1
    match decode rest with
    | .err _ => ok none
    | .panic p => panic p
    | .ok (len, n2) =>
      let total := n1 + n2 + len.toNat
      if buf.length < total then ok none
      else
        let frame ← slice buf 0 total
        let m ← Message.decode frame
        ok (some (m, total))

/-- What is still to come on a stream: chunks, and how it ends. -/
structure RecvStream where
  chunks : List Bytes
  fails : Bool

structure FrameReader where
  buf : Bytes

namespace FrameReader

def new : FrameReader := ⟨[]⟩

def readFrom (fails : Bool) (buf : Bytes) (chunks : List Bytes) :
    Outcome ReadError (Option Message) × FrameReader × List Bytes :=
  match tryParse buf with
  | .ok (some (m, consumed)) => (ok (some m), ⟨buf.drop consumed⟩, chunks)
  | .ok none =>
    match chunks with
    | [] =>
      if fails then (err .readFailed, ⟨buf⟩, [])
      else if buf = [] then (ok none, ⟨buf⟩, [])
      else (err .cutOff, ⟨buf⟩, [])
    | c :: cs => readFrom fails (buf ++ c) cs
  | .err e => (err e, ⟨buf⟩, chunks)
  | .panic p => (panic p, ⟨buf⟩, chunks)

def read (r : FrameReader) (recv : RecvStream) :
    Outcome ReadError (Option Message) × FrameReader × RecvStream :=
  let (result, r, chunks) := readFrom recv.fails r.buf recv.chunks
  (result, r, { recv with chunks })

/-- What `n` calls of `read` return, up to the first one that gives no message. -/
def reads (r : FrameReader) (recv : RecvStream) : Nat → List (Outcome ReadError (Option Message))
  | 0 => []
  | n + 1 =>
    match r.read recv with
    | (ok (some m), r, recv) => ok (some m) :: reads r recv n
    | (result, _, _) => [result]

end FrameReader

section Parse

variable {m : Message} {frame : Bytes}

theorem tryParse_framed (h : m.Framed frame) (rest : Bytes) :
    tryParse (frame ++ rest) = ok (some (m, frame.length)) := by
  have hDecode := h.decode
  obtain ⟨typeCode, len, payload, hFrame, hTyped, hLen, hEncoded, -⟩ := h
  have hTotal : typeCode.length + len.length + payload.length = frame.length := by
    rw [hFrame, length_append, length_append, Nat.add_assoc]
  have hType : decode (frame ++ rest) = ok (m.typeCode, typeCode.length) := by
    rw [hFrame, append_assoc, decode_encoded hTyped]
  have hBehind : sliceFrom (frame ++ rest) typeCode.length =
      (ok (len ++ (payload ++ rest)) : Outcome ReadError _) := by
    simp [hFrame, sliceFrom]
  have hSlice : slice (frame ++ rest) 0 frame.length = (ok frame : Outcome ReadError _) := by
    simp [slice]
  have hRoom : ¬ (frame ++ rest).length < frame.length := by
    rw [length_append]
    omega
  simp only [tryParse, hType, hBehind, ok_bind, decode_encoded hEncoded,
    toNat_ofNat_of_le_max hLen, hTotal, hRoom, if_false, hSlice, hDecode]

theorem tryParse_cut {part rest} (h : m.Framed (part ++ rest)) (hRest : rest ≠ []) :
    tryParse part = ok none := by
  obtain ⟨typeCode, len, payload, hFrame, hTyped, hLen, hEncoded, -⟩ := h
  have hLeft : rest.length ≠ 0 := fun hZero => hRest (eq_nil_of_length_eq_zero hZero)
  unfold tryParse
  by_cases hType : typeCode.length ≤ part.length
  · -- the type is there, and a part of the length and the payload
    obtain ⟨part, rfl, hBehind⟩ := append_of_length_le hFrame hType
    have hSlice : sliceFrom (typeCode ++ part) typeCode.length =
        (ok part : Outcome ReadError _) := by
      simp [sliceFrom]
    rw [decode_encoded hTyped]
    simp only [hSlice, ok_bind]
    by_cases hHead : len.length ≤ part.length
    · obtain ⟨part, rfl, rfl⟩ := append_of_length_le hBehind.symm hHead
      simp only [decode_encoded hEncoded, toNat_ofNat_of_le_max hLen]
      rw [if_pos]
      simp only [length_append]
      omega
    · obtain ⟨len', rfl, -⟩ := append_of_length_le hBehind (by omega)
      rw [decode_cut hEncoded]
      rintro rfl
      rw [append_nil] at hHead
      omega
  · obtain ⟨typeCode', rfl, -⟩ := append_of_length_le hFrame.symm (by omega)
    rw [decode_cut hTyped]
    rintro rfl
    rw [append_nil] at hType
    omega

end Parse

namespace FrameReader

variable {m : Message} {frame buf rest : Bytes} {chunks : List Bytes} {fails : Bool}

theorem readFrom_framed (fails : Bool) (h : m.Framed frame)
    (hBytes : buf ++ chunks.flatten = frame ++ rest) :
    ∃ buf' chunks', readFrom fails buf chunks = (ok (some m), ⟨buf'⟩, chunks') ∧
      buf' ++ chunks'.flatten = rest := by
  induction chunks generalizing buf with
  | nil =>
    rw [flatten_nil, append_nil] at hBytes
    subst hBytes
    refine ⟨rest, [], ?_, by simp⟩
    rw [readFrom, tryParse_framed h]
    simp
  | cons c cs ih =>
    by_cases hWhole : frame.length ≤ buf.length
    · obtain ⟨buf', rfl, hRest⟩ := append_of_length_le hBytes hWhole
      refine ⟨buf', c :: cs, ?_, hRest.symm⟩
      rw [readFrom, tryParse_framed h]
      simp
    · obtain ⟨part, rfl, -⟩ := append_of_length_le hBytes.symm (by omega)
      have hCut := tryParse_cut h (by
        rintro rfl
        rw [append_nil] at hWhole
        omega)
      rw [readFrom, hCut]
      exact ih (by rw [append_assoc]; exact hBytes)

theorem readFrom_nil (hBytes : buf ++ chunks.flatten = []) :
    readFrom false buf chunks = (ok none, ⟨[]⟩, []) := by
  obtain ⟨rfl, hFlatten⟩ := append_eq_nil_iff.mp hBytes
  induction chunks with
  | nil => rfl
  | cons c cs ih =>
    obtain ⟨rfl, hRest⟩ := append_eq_nil_iff.mp hFlatten
    exact ih hRest hRest

theorem readFrom_cut (h : m.Framed (frame ++ rest)) (hRest : rest ≠ []) (hPart : frame ≠ [])
    (hBytes : buf ++ chunks.flatten = frame) :
    (readFrom false buf chunks).1 = err .cutOff := by
  induction chunks generalizing buf with
  | nil =>
    rw [flatten_nil, append_nil] at hBytes
    subst hBytes
    rw [readFrom, tryParse_cut h hRest]
    simp [hPart]
  | cons c cs ih =>
    have hBuf : tryParse buf = ok none := by
      subst hBytes
      rw [append_assoc] at h
      exact tryParse_cut h (by simp [hRest])
    rw [readFrom, hBuf]
    exact ih (by rw [append_assoc]; exact hBytes)

theorem reads_framed (fails : Bool) {ms frames} (h : List.Forall₂ Message.Framed ms frames)
    (n : Nat) (buf rest : Bytes) (hBytes : buf ++ chunks.flatten = frames.flatten ++ rest) :
    ∃ buf' chunks', buf' ++ chunks'.flatten = rest ∧
      reads ⟨buf⟩ ⟨chunks, fails⟩ (ms.length + n) =
        ms.map (fun m => ok (some m)) ++ reads ⟨buf'⟩ ⟨chunks', fails⟩ n := by
  induction h generalizing buf chunks with
  | nil => exact ⟨buf, chunks, hBytes, by simp⟩
  | @cons m frame ms frames hFramed _ ih =>
    rw [flatten_cons, append_assoc] at hBytes
    obtain ⟨buf₁, chunks₁, hRead, hLeft⟩ := readFrom_framed fails hFramed hBytes
    obtain ⟨buf₂, chunks₂, hRest, hReads⟩ := ih _ hLeft
    refine ⟨buf₂, chunks₂, hRest, ?_⟩
    rw [length_cons, Nat.add_right_comm, reads]
    simp only [read, hRead, hReads, map_cons, cons_append]

theorem framed_of_fits {ms} (h : ∀ m ∈ ms, m.Fits) :
    ∃ frames, List.Forall₂ (fun m frame => m.encode = (ok frame : Outcome Empty _)) ms frames ∧
      List.Forall₂ Message.Framed ms frames := by
  induction ms with
  | nil => exact ⟨[], .nil, .nil⟩
  | cons m ms ih =>
    obtain ⟨frame, hEncode, hFramed⟩ := Message.encode_framed (h m mem_cons_self)
    obtain ⟨frames, hEncodes, hAll⟩ := ih fun m' hMem => h m' (mem_cons_of_mem _ hMem)
    exact ⟨frame :: frames, .cons hEncode hEncodes, .cons hFramed hAll⟩

/-- **Framing.** The messages `Fits`, and the bytes come in any chunks. Reading gives the messages
in order, and then the end of the stream; or, if the bytes stop inside a frame, the messages before
it and then an error. -/
theorem framing_roundtrip {ms : List Message} (h : ∀ m ∈ ms, m.Fits) :
    ∃ frames, List.Forall₂ (fun m frame => m.encode = (ok frame : Outcome Empty _)) ms frames ∧
      (∀ chunks, Splits chunks frames.flatten →
        new.reads ⟨chunks, false⟩ (ms.length + 1) = ms.map (fun m => ok (some m)) ++ [ok none]) ∧
      ∀ bytes rest chunks, bytes ++ rest = frames.flatten →
        (∀ k, bytes ≠ (frames.take k).flatten) → Splits chunks bytes →
        ∃ k, (frames.take k).flatten <+: bytes ∧
          bytes.length < (frames.take (k + 1)).flatten.length ∧
          new.reads ⟨chunks, false⟩ (k + 1) =
            (ms.take k).map (fun m => ok (some m)) ++ [err .cutOff] := by
  obtain ⟨frames, hEncode, hFramed⟩ := framed_of_fits h
  refine ⟨frames, hEncode, ?_, ?_⟩
  · intro chunks hSplits
    obtain ⟨buf, chunks', hNil, hReads⟩ := reads_framed false hFramed 1 [] []
      (by rw [hSplits.flatten, append_nil, nil_append])
    rw [new, hReads, reads, read, readFrom_nil hNil]
  · intro bytes rest chunks hBytes hCut hSplits
    obtain ⟨before, frame, after, part, left, rfl, rfl, rfl, hPart, hLeft⟩ :=
      exists_cut hBytes hCut
    have hBefore := forall₂_take_append _ _ _ hFramed
    have hAfter := forall₂_drop_append _ _ _ hFramed
    obtain ⟨m, ms', hInside, -, -⟩ := forall₂_cons_right_iff.mp hAfter
    refine ⟨before.length, ?_, ?_, ?_⟩
    · rw [take_left]
      exact prefix_append _ _
    · have := length_pos_iff.mpr hLeft
      rw [take_length_add_append]
      simp only [take_succ_cons, take_zero, flatten_append, flatten_cons,
        flatten_nil, length_append, length_nil]
      omega
    · obtain ⟨buf, chunks', hPartial, hReads⟩ := reads_framed false hBefore 1 [] _
        (by rw [hSplits.flatten, nil_append])
      have hCount : (ms.take before.length).length = before.length := hBefore.length_eq
      rw [hCount] at hReads
      rw [new, hReads, reads, read]
      obtain ⟨left, hRead⟩ : ∃ left, readFrom false buf chunks' = (err .cutOff, left) :=
        ⟨_, Prod.ext (readFrom_cut hInside hLeft hPart hPartial) rfl⟩
      rw [hRead]

theorem framing_roundtrip_twoFrames :
    new.reads ⟨[[5], [2, 0x43], [0xE8, 7, 1], [5]], false⟩ 3 =
        [ok (some (.subscribeOk 1000)), ok (some (.unsubscribe 5)), ok none] ∧
      ∃ k, new.reads ⟨[[5, 2, 0x43, 0xE8, 7], [1]], false⟩ (k + 1) =
        ([.subscribeOk 1000, .unsubscribe 5].take k).map (fun m => ok (some m)) ++
          [err .cutOff] := by
  have hFits : ∀ m ∈ [Message.subscribeOk 1000, .unsubscribe 5], m.Fits := by
    intro m hMem
    simp only [mem_cons, not_mem_nil, or_false] at hMem
    rcases hMem with rfl | rfl
    · exact ⟨by decide, by decide, nofun⟩
    · exact ⟨by decide, by decide, nofun⟩
  obtain ⟨frames, hEncode, hRead, hCut⟩ := framing_roundtrip hFits
  obtain ⟨f₁, tail, h₁, hTail, rfl⟩ := forall₂_cons_left_iff.mp hEncode
  obtain ⟨f₂, rest, h₂, hNone, rfl⟩ := forall₂_cons_left_iff.mp hTail
  cases hNone
  cases h₁
  cases h₂
  refine ⟨hRead _ ⟨rfl, by decide⟩, ?_⟩
  obtain ⟨k, -, -, hReads⟩ := hCut [5, 2, 0x43, 0xE8, 7, 1] [5] [[5, 2, 0x43, 0xE8, 7], [1]] rfl
    (fun k hEq => by
      have hLen := congrArg length hEq
      match k with
      | 0 => cases hLen
      | 1 => cases hLen
      | k + 2 => cases hLen) ⟨rfl, by decide⟩
  exact ⟨k, hReads⟩

end FrameReader

/-! ## The pinned server -/

/-- The verifier of a client that knows the certificate of its server. -/
structure PinnedServerCert where
  expected : Bytes

/-- `client_endpoint_pinned`: the verifier of the endpoint. -/
def clientEndpointPinned (pinned : Bytes) : PinnedServerCert := ⟨pinned⟩

namespace PinnedServerCert

open Mesh (TlsError TlsVersion DigitallySigned PeerHandshake)

def verifyServerCert (v : PinnedServerCert) (endEntity : Bytes) : Outcome TlsError Unit :=
  if endEntity = v.expected then ok ()
  else err (.general "服务端证书与钉扎证书不匹配")

/-- `verify_tls12_signature` and `verify_tls13_signature`: neither looks at what it
is given. -/
def verifySignature (_ : TlsVersion) (_message _cert : Bytes) (_ : DigitallySigned) :
    Outcome TlsError Unit :=
  ok ()

def verifyServer (v : PinnedServerCert) (hs : PeerHandshake) : Outcome TlsError Unit :=
  match hs.certs with
  | [] => err .noCertificatesPresented
  | endEntity :: _ => do
    v.verifyServerCert endEntity
    verifySignature hs.version hs.message endEntity hs.dss

theorem verifyServer_eq_ok {v : PinnedServerCert} {hs : PeerHandshake} :
    v.verifyServer hs = ok () ↔ hs.certs.head? = some v.expected := by
  unfold verifyServer verifyServerCert verifySignature
  split
  · rename_i hCerts
    simp [hCerts]
  · rename_i endEntity rest hCerts
    split <;> simp_all

-- `verifies cert message dss`: the signature is one over the message by the key in the
-- certificate
variable (verifies : Bytes → Bytes → DigitallySigned → Prop)

/-- **A pinned server never proves possession of its key.** Whatever the pinned certificate and the
transcript, the verifier takes the certificate with any signature. So that all it takes carry a
signature by the pinned key would need every signature to be one, which no signature scheme has:
with one that does not verify, the left side is false. -/
theorem proves_possession_iff (pinned message : Bytes) (version : TlsVersion) :
    (∀ certs dss,
      (clientEndpointPinned pinned).verifyServer ⟨version, certs, message, dss⟩ = ok () →
      certs.head? = some pinned ∧ verifies pinned message dss) ↔
      ∀ dss, verifies pinned message dss := by
  constructor
  · intro hProves dss
    -- a server that only has a copy of the certificate
    have hTaken : (clientEndpointPinned pinned).verifyServer ⟨version, [pinned], message, dss⟩ =
        ok () := verifyServer_eq_ok.mpr rfl
    exact (hProves [pinned] dss hTaken).2
  · intro hAll certs dss hTaken
    exact ⟨verifyServer_eq_ok.mp hTaken, hAll dss⟩

/-- A server that copied the certificate and signs nothing is taken. -/
theorem copied_certificate_accepted :
    let verifies := fun (_ message : Bytes) (dss : DigitallySigned) => dss.signature = message
    let hs : PeerHandshake := ⟨.tls13, [[1, 2, 3]], [7], ⟨.ed25519, []⟩⟩
    (clientEndpointPinned [1, 2, 3]).verifyServer hs = ok () ∧
      ¬ verifies [1, 2, 3] hs.message hs.dss := by
  decide

end PinnedServerCert

end DirectWire.Moq
