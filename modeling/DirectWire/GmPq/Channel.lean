import DirectWire.Lib.Stream
import DirectWire.GmPq.Correctness

/-!
# GM-PQ — streams, frames and the session channel

The first part of `api.rs`: frames over a byte stream, and `SecureChannel`. The receiver refuses
a message of more than `MAX_FRAME` bytes; the sender does not look at the length.
-/

namespace DirectWire.GmPq

open Lib Outcome List

inductive ApiError where
  | io
  | lib (error : Error)
deriving DecidableEq

structure Stream where
  input : List Bytes
  output : Bytes
deriving DecidableEq

namespace Stream

def readExact (s : Stream) (n : Nat) : Option Bytes × Stream :=
  let r := Lib.readExact n s.input
  (r.1, { s with input := r.2 })

def writeAll (s : Stream) (bytes : Bytes) : Stream := { s with output := s.output ++ bytes }

end Stream

def maxFrame : Nat := 2 ^ 20

/-- `len as u32`, in four bytes. -/
def lenBytes (len : Nat) : Bytes := beBytes 4 (UInt32.ofNat len).toNat

/-! ## The session channel -/

structure SecureChannel where
  stream : Stream
  session : Session
  peerStatic : Bytes
deriving DecidableEq

namespace SecureChannel

variable (P : Primitives)

def sendMsg (c : SecureChannel) (data : Bytes) : Outcome ApiError SecureChannel := do
  let (packet, session) ← c.session.send P data
  ok { c with
    stream := (c.stream.writeAll (lenBytes packet.length)).writeAll packet
    session }

/-- A message, or why there is none; the channel goes on in either case. -/
def recvMsg (c : SecureChannel) : Outcome Empty (Except ApiError Bytes × SecureChannel) :=
  match c.stream.readExact 4 with
  | (none, stream) => ok (.error .io, { c with stream })
  | (some hdr, stream) =>
    let n := beNat hdr
    if n > maxFrame then
      ok (.error (.lib (.invalidEncoding "message length exceeds limit")), { c with stream })
    else
      match stream.readExact n with
      | (none, stream) => ok (.error .io, { c with stream })
      | (some buf, stream) => do
        let (r, session) ← c.session.recv P buf
        ok (r.mapError .lib, { c with stream, session })

def sendAll : SecureChannel → List Bytes → Outcome ApiError SecureChannel
  | c, [] => ok c
  | c, data :: rest => do
    let c ← c.sendMsg P data
    c.sendAll rest

/-- The results of `n` calls of `recv_msg`. -/
def recvAll : SecureChannel → Nat → Outcome Empty (List (Except ApiError Bytes) × SecureChannel)
  | c, 0 => ok ([], c)
  | c, n + 1 => do
    let (r, c) ← c.recvMsg P
    let (rs, c) ← c.recvAll n
    ok (r :: rs, c)

end SecureChannel

/-- The two ends of a session, of which `b` has not yet seen the next sequence
number of `a`. -/
structure Aligned (a b : Session) : Prop extends Matching a b where
  fresh : b.window.initialized = true → b.window.highest < a.tx.txSeq

variable {P : Primitives}

theorem ReplayWindow.checkAndMark_next {w : ReplayWindow} {seq : UInt64}
    (h : w.initialized = true → w.highest < seq) :
    ∃ w', w.checkAndMark seq = (.ok (), w') ∧ w'.highest = seq := by
  unfold ReplayWindow.checkAndMark
  split
  · exact ⟨_, rfl, rfl⟩
  · rename_i hInit
    have hAbove : seq > w.highest := h (by simpa using hInit)
    rw [if_pos hAbove]
    exact ⟨_, rfl, rfl⟩

theorem Aligned.recv {a a' b data packet} {ε : Type} (hGcm : P.GcmCorrect) (h : Aligned a b)
    (hSend : a.send (ε := ε) P data = ok (packet, a')) :
    ∃ b', b.recv P packet = ok (.ok data, b') ∧ Aligned a' b' := by
  obtain ⟨hKey, hNext, -⟩ := Session.send_spec hSend
  have hId := Session.send_sessionId hSend
  have hPacket := Session.send_packet hSend
  have hRx := Session.send_rx hSend
  obtain ⟨w, hMark, hHighest⟩ := ReplayWindow.checkAndMark_next h.fresh
  have hOpen := Aead.openPacket_sealWithSeq hGcm a.tx b.rx h.txRx.symm a.tx.txSeq
    a.sessionId.val data
  refine ⟨{ b with window := w }, ?_, ⟨hId.trans h.sessionId, hKey.trans h.txRx, ?_⟩, fun _ => ?_⟩
  · rw [Session.recv, ← h.sessionId, hPacket, hOpen]
    simp only [attempt_ok, ok_bind, hMark]
  · rw [hRx]
    exact h.rxTx
  · show w.highest < a'.tx.txSeq
    rw [hHighest, UInt64.lt_iff_toNat_lt, hNext]
    omega

namespace SecureChannel

variable {a a' b : SecureChannel} {data : Bytes}

theorem sendMsg_spec (h : a.sendMsg P data = ok a') :
    ∃ packet, a.session.send (ε := ApiError) P data = ok (packet, a'.session) ∧
      a'.stream.output = a.stream.output ++ (lenBytes packet.length ++ packet) := by
  obtain ⟨⟨packet, session⟩, hSend, h⟩ := bind_eq_ok.mp h
  cases h
  refine ⟨packet, hSend, ?_⟩
  simp only [Stream.writeAll, append_assoc]

theorem sendMsg_peerStatic (h : a.sendMsg P data = ok a') : a'.peerStatic = a.peerStatic := by
  obtain ⟨⟨packet, session⟩, -, h⟩ := bind_eq_ok.mp h
  cases h
  rfl

theorem beNat_lenBytes {len} (h : len < 2 ^ 32) : beNat (lenBytes len) = len := by
  rw [lenBytes, beNat_beBytes (u32_lt_pow _)]
  exact UInt32.toNat_ofNat_of_lt' h

theorem recvMsg_packet {packet rest session} (hLen : packet.length ≤ maxFrame)
    (hIn : Splits b.stream.input (lenBytes packet.length ++ packet ++ rest))
    (hRecv : b.session.recv P packet = ok (.ok data, session)) :
    ∃ b', b.recvMsg P = ok (.ok data, b') ∧ b'.session = session ∧ Splits b'.stream.input rest := by
  have hHdr : (lenBytes packet.length).length = 4 := beBytes_length _ _
  have hNat := beNat_lenBytes (lt_of_le_of_lt hLen (by decide))
  rw [append_assoc] at hIn
  obtain ⟨chunks, hRead, hIn⟩ := readExact_append hIn
  obtain ⟨chunks', hRead', hIn⟩ := readExact_append hIn
  rw [hHdr] at hRead
  refine ⟨{ b with stream := { b.stream with input := chunks' }, session }, ?_, rfl, hIn⟩
  simp only [recvMsg, Stream.readExact, hRead, hNat, if_neg (Nat.not_lt.mpr hLen), hRead', hRecv,
    ok_bind]
  rfl

theorem recvMsg_refused {len rest} (hLen : maxFrame < len) (hSmall : len < 2 ^ 32)
    (hIn : Splits b.stream.input (lenBytes len ++ rest)) :
    ∃ b', b.recvMsg P =
      ok (.error (.lib (.invalidEncoding "message length exceeds limit")), b') := by
  have hHdr : (lenBytes len).length = 4 := beBytes_length _ _
  obtain ⟨chunks, hRead, -⟩ := readExact_append hIn
  rw [hHdr] at hRead
  refine ⟨{ b with stream := { b.stream with input := chunks } }, ?_⟩
  simp only [recvMsg, Stream.readExact, hRead, beNat_lenBytes hSmall, if_pos hLen]

theorem recvMsg_sessionId {r} (h : b.recvMsg P = ok (r, a)) :
    a.session.sessionId = b.session.sessionId := by
  unfold recvMsg at h
  split at h
  · cases h
    rfl
  · dsimp only at h
    split at h
    · cases h
      rfl
    · split at h
      · cases h
        rfl
      · obtain ⟨⟨_, session⟩, hRecv, h⟩ := bind_eq_ok.mp h
        cases h
        exact Session.recv_sessionId hRecv

theorem sendAll_output {msgs} (h : a.sendAll P msgs = ok a') :
    ∃ bytes, a'.stream.output = a.stream.output ++ bytes := by
  induction msgs generalizing a with
  | nil =>
    cases h
    exact ⟨[], (append_nil _).symm⟩
  | cons data msgs ih =>
    obtain ⟨a₁, hSend, hRest⟩ := bind_eq_ok.mp h
    obtain ⟨packet, -, hOut⟩ := sendMsg_spec hSend
    obtain ⟨bytes, hBytes⟩ := ih hRest
    exact ⟨_, by rw [hBytes, hOut, append_assoc]⟩

theorem sendAll_concat {msgs c} (h : a.sendAll P msgs = ok a') (hLast : a'.sendMsg P data = ok c) :
    a.sendAll P (msgs ++ [data]) = ok c := by
  induction msgs generalizing a with
  | nil =>
    cases h
    exact bind_eq_ok.mpr ⟨c, hLast, rfl⟩
  | cons first msgs ih =>
    obtain ⟨a₁, hFirst, hRest⟩ := bind_eq_ok.mp h
    exact bind_eq_ok.mpr ⟨a₁, hFirst, ih hRest⟩

/-- The messages as a session seals them, from the sequence number `seq` on. -/
def packets (P : Primitives) (s : Session) : UInt64 → List Bytes → List Bytes
  | _, [] => []
  | seq, data :: msgs =>
    s.tx.sealWithSeq P seq s.sessionId.val data :: packets P s (seq + 1) msgs

theorem packets_of_send {s s' packet seq msgs} {ε : Type}
    (hSend : s.send (ε := ε) P data = ok (packet, s')) :
    packets P s' seq msgs = packets P s seq msgs := by
  have hKey := (Session.send_spec hSend).1
  induction msgs generalizing seq with
  | nil => rfl
  | cons data msgs ih =>
    rw [packets, packets, ih, Session.send_sessionId hSend]
    simp only [Aead.sealWithSeq, Aead.callWithSeq, hKey]

theorem packets_cons {s s' packet msgs} {ε : Type}
    (hSend : s.send (ε := ε) P data = ok (packet, s')) :
    packets P s s.tx.txSeq (data :: msgs) = packet :: packets P s' s'.tx.txSeq msgs := by
  rw [packets_of_send hSend, packets, Session.send_packet hSend]
  have hNext : s'.tx.txSeq = s.tx.txSeq + 1 := by
    have hNext := (Session.send_spec hSend).2.1
    have hLt := s'.tx.txSeq.toNat_lt
    rw [← UInt64.toNat_inj, UInt64.toNat_add, hNext]
    exact (Nat.mod_eq_of_lt (hNext ▸ hLt)).symm
  rw [hNext]

theorem recvAll_cons {msgs b' n} (h : b.recvAll P (n + 1) = ok (.ok data :: msgs, b')) :
    ∃ b₁, b.recvMsg P = ok (.ok data, b₁) ∧ b₁.recvAll P n = ok (msgs, b') := by
  obtain ⟨⟨r, b₁⟩, hOne, h⟩ := bind_eq_ok.mp h
  obtain ⟨⟨rs, b₂⟩, hRest, h⟩ := bind_eq_ok.mp h
  cases h
  exact ⟨b₁, hOne, hRest⟩

end SecureChannel

open SecureChannel

/-- **Delivery over a stream.** The AEAD opens what it has sealed (`hGcm`), the sessions match and
the receiver has not seen the next number of the sender (`hAligned`), all of `msgs` is sent, and the
receiver gets the bytes of it in any chunks. Then it receives `msgs`, and the two are as before,
exactly if the sealed form of each message, under the number it gets, has at most `MAX_FRAME` bytes;
"only if" is about messages below 4 GiB, since the length field of a longer one wraps around. -/
theorem delivered (hGcm : P.GcmCorrect) (a a' b : SecureChannel) (msgs : List Bytes)
    (bytes rest : Bytes) (hAligned : Aligned a.session b.session)
    (hSend : a.sendAll P msgs = ok a') (hOut : a'.stream.output = a.stream.output ++ bytes)
    (hIn : Splits b.stream.input (bytes ++ rest)) :
    ((∀ packet ∈ packets P a.session a.session.tx.txSeq msgs, packet.length ≤ maxFrame) →
      ∃ b', b.recvAll P msgs.length = ok (msgs.map .ok, b') ∧ Aligned a'.session b'.session ∧
        Splits b'.stream.input rest) ∧
    ((∀ packet ∈ packets P a.session a.session.tx.txSeq msgs, packet.length < 2 ^ 32) →
      ∀ b', b.recvAll P msgs.length = ok (msgs.map .ok, b') →
        ∀ packet ∈ packets P a.session a.session.tx.txSeq msgs, packet.length ≤ maxFrame) := by
  induction msgs generalizing a b bytes with
  | nil =>
    cases hSend
    obtain rfl : bytes = [] := self_eq_append_right.mp hOut
    exact ⟨fun _ => ⟨b, rfl, hAligned, hIn⟩, fun _ _ _ => forall_mem_nil _⟩
  | cons data msgs ih =>
    obtain ⟨a₁, hFirst, hRest⟩ := bind_eq_ok.mp hSend
    obtain ⟨packet, hPacket, hWritten⟩ := SecureChannel.sendMsg_spec hFirst
    obtain ⟨later, hLater⟩ := SecureChannel.sendAll_output hRest
    -- the bytes are the first message and those of the others
    have hBytes : bytes = lenBytes packet.length ++ packet ++ later := by
      rw [hLater, hWritten, append_assoc] at hOut
      exact (append_cancel_left hOut).symm
    rw [hBytes, append_assoc] at hIn
    obtain ⟨session, hRecv, hAligned₁⟩ := hAligned.recv hGcm hPacket
    rw [packets_cons hPacket, forall_mem_cons, forall_mem_cons]
    constructor
    · rintro ⟨hLen, hFits⟩
      obtain ⟨b₁, hOne, rfl, hIn₁⟩ := recvMsg_packet hLen hIn hRecv
      obtain ⟨b', hAll, hEnd⟩ := (ih a₁ b₁ later hAligned₁ hRest hLater hIn₁).1 hFits
      refine ⟨b', ?_, hEnd⟩
      simp only [length_cons, recvAll, hOne, hAll, ok_bind, map_cons]
    · rintro ⟨hShort, hSmall⟩ b' hAll
      obtain ⟨b₁, hOne, hRest'⟩ := recvAll_cons hAll
      -- a message that is too long is refused, so the first one was not
      have hLen : packet.length ≤ maxFrame := by
        by_contra hLong
        rw [append_assoc] at hIn
        obtain ⟨b₂, hRefused⟩ := recvMsg_refused (P := P) (Nat.not_le.mp hLong) hShort hIn
        cases hRefused.symm.trans hOne
      obtain ⟨b₂, hOne', rfl, hIn₁⟩ := recvMsg_packet hLen hIn hRecv
      cases hOne'.symm.trans hOne
      exact ⟨hLen, (ih a₁ b₁ later hAligned₁ hRest hLater hIn₁).2 hSmall b' hRest'⟩

def zeroKeyChannel (input : List Bytes) : SecureChannel where
  stream := ⟨input, []⟩
  session := Session.new (padTo 16 []) (padTo 16 []) (padTo 32 [])
  peerStatic := []

theorem zeroKeyChannel_aligned (input input' : List Bytes) :
    Aligned (zeroKeyChannel input).session (zeroKeyChannel input').session :=
  ⟨⟨rfl, rfl, rfl⟩, nofun⟩

theorem plainPrimitives_sealed_length (a : Aead) (seq : UInt64) (aad data : Bytes) :
    (a.sealWithSeq plainPrimitives seq aad data).length = data.length + 24 := by
  simp only [Aead.sealWithSeq, plainPrimitives, Aead.callWithSeq, length_append,
    beBytes_length, Fixed.length_val]
  omega

/-- Two messages, and a stream that gives one byte at a time. -/
theorem delivered_bytewise : ∃ a' b',
    (zeroKeyChannel []).sendAll plainPrimitives [[1], [2, 3]] = ok a' ∧
      (zeroKeyChannel (a'.stream.output.map ([·]))).recvAll plainPrimitives 2 =
        ok ([.ok [1], .ok [2, 3]], b') := by
  obtain ⟨a', hSend⟩ : ∃ a', (zeroKeyChannel []).sendAll plainPrimitives [[1], [2, 3]] = ok a' :=
    ⟨_, rfl⟩
  obtain ⟨b', hRecv, -⟩ := (delivered plainPrimitives_gcmCorrect (zeroKeyChannel []) a'
    (zeroKeyChannel (a'.stream.output.map ([·]))) [[1], [2, 3]] a'.stream.output []
    (zeroKeyChannel_aligned _ _) hSend rfl (by
      rw [append_nil]
      exact splits_bytewise _)).1 (by
      simp only [packets, forall_mem_cons, plainPrimitives_sealed_length]
      exact ⟨by decide, by decide, forall_mem_nil _⟩)
  exact ⟨a', b', hSend, hRecv⟩

/-- A message that is one byte too long is sent, and refused. -/
theorem not_delivered : ∃ data a',
    (zeroKeyChannel []).sendMsg plainPrimitives data = ok a' ∧
      ∀ chunks, Splits chunks a'.stream.output →
        Aligned (zeroKeyChannel []).session (zeroKeyChannel chunks).session ∧
        ∃ b', (zeroKeyChannel chunks).recvMsg plainPrimitives =
          ok (.error (.lib (.invalidEncoding "message length exceeds limit")), b') := by
  have hSome : ∀ data : Bytes, ∃ a', (zeroKeyChannel []).sendMsg plainPrimitives data = ok a' :=
    fun _ => ⟨_, rfl⟩
  obtain ⟨a', hSend⟩ := hSome (replicate (maxFrame - 23) 0)
  obtain ⟨packet, hPacket, hOut⟩ := SecureChannel.sendMsg_spec hSend
  have hLen : packet.length = maxFrame + 1 := by
    rw [Session.send_packet hPacket, plainPrimitives_sealed_length, length_replicate]
    rfl
  refine ⟨_, a', hSend, fun chunks hIn => ⟨zeroKeyChannel_aligned _ _, ?_⟩⟩
  have hBytes : a'.stream.output = lenBytes (maxFrame + 1) ++ packet := by rw [hOut, hLen]; rfl
  rw [hBytes] at hIn
  exact SecureChannel.recvMsg_refused (Nat.lt_succ_self _) (by decide) hIn

end DirectWire.GmPq
