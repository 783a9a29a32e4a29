import DirectWire.GmPq.Total
import DirectWire.Moq.Bridge

/-!
# MoQ — what the bridge to a GM-PQ session delivers

The worker looks at `closed` before it looks at the inbound bytes and at the outbox, and while it
is inside an incoming message it does not look at the outbox.
-/

namespace DirectWire.Moq

open Lib Outcome GmPq List

/-- The session gets these messages from these frames, one after another. -/
inductive Opens (P : Primitives) : Session → List Bytes → List Bytes → Prop where
  | nil {s} : Opens P s [] []
  | cons {s s' packet m frames msgs} (hLen : packet.length ≤ maxFrame)
      (hRecv : s.recv P packet = ok (.ok m, s')) (hRest : Opens P s' frames msgs) :
      Opens P s ((lenBytes packet.length ++ packet) :: frames) (m :: msgs)

def channelOf (session : Session) : SecureChannel := ⟨⟨[], []⟩, session, []⟩

namespace Loop

def opened : Loop → List Bytes
  | .delivering plaintext => [plaintext]
  | _ => []

def inHand : Loop → Bytes
  | .receiving hdr got => hdr.getD [] ++ got
  | _ => []

def toSeal : Loop → List Bytes
  | .sending plaintext => [plaintext]
  | _ => []

def toWrite : Loop → Bytes
  | .writing bufs => bufs.flatten
  | _ => []

def stopped : Loop → Bool
  | .failing | .returned | .panicked _ => true
  | _ => false

def inMessage : Loop → Bool
  | .receiving _ _ => true
  | _ => false

def busy : Loop → Nat
  | .receiving _ _ | .delivering _ => 1
  | _ => 0

def Shaped : Loop → Prop
  | .receiving none got => got.length ≤ 4
  | .receiving (some hdr) got => hdr.length = 4 ∧ got.length ≤ beNat hdr
  | _ => True

end Loop

namespace Bridge

/-- Every message that is complete in the first `n` bytes is in the inbox, or is the one
that the worker is receiving. -/
def caughtUp (frames : List Bytes) (b : Bridge) (n : Nat) : Bool :=
  decide (whole frames n ≤ b.inbox.length + b.loop.busy)

def hasNumber (b : Bridge) : Bool :=
  decide (b.session.tx.txSeq.toNat + b.loop.toSeal.length + b.outbox.length + 1 < 2 ^ 64)

/-- The frames come in order; the bridge is closed only when the worker has caught up, and
not when it has passed a plaintext; nothing is sent while an incoming message is
incomplete; and the inbox stays open. -/
def orderly (frames : List Bytes) (b : Bridge) : BridgeEvent → Bool
  | .read bytes =>
    (b.received ++ bytes).isPrefixOf frames.flatten &&
      (!b.closed || b.caughtUp frames (b.received.length + bytes.length))
  | .finish =>
    b.closed || (b.caughtUp frames b.received.length &&
      (decide (b.loop ≠ .checking) || b.outbox.isEmpty))
  | .lose | .outbound false => b.closed || b.caughtUp frames b.received.length
  | .send _ =>
    b.closed || (b.hasNumber &&
      (!b.loop.inMessage || decide (b.inbox.length < whole frames b.received.length)))
  | .hangUp => false
  | .outbound true | .notify | .wake | .work => true

def Resting (P : Primitives) (b : Bridge) : Prop := b.work P = none ∧ b.notifying = 0

end Bridge

/-! ## Frames -/

variable {P : Primitives} {frames msgs : List Bytes}

theorem Opens.of_same {s t} (h : Opens P s frames msgs) (hRx : t.rx = s.rx)
    (hWindow : t.window = s.window) (hId : t.sessionId = s.sessionId) : Opens P t frames msgs := by
  induction h generalizing t with
  | nil => exact .nil
  | cons hLen hRecv _ ih =>
    obtain ⟨t', hRecv', hRx', hWindow', hId'⟩ := Session.recv_of_same hRx hWindow hId hRecv
    exact .cons hLen hRecv' (ih hRx' hWindow' hId')

theorem Opens.length_eq {s} (h : Opens P s frames msgs) : frames.length = msgs.length := by
  induction h with
  | nil => rfl
  | cons _ _ _ ih => rw [length_cons, length_cons, ih]

theorem Opens.of_head {s frame} (h : Opens P s frames msgs) (hFrame : frames.head? = some frame) :
    ∃ packet, frame = lenBytes packet.length ++ packet ∧ packet.length ≤ maxFrame := by
  cases h with
  | nil => cases hFrame
  | @cons _ _ packet _ _ _ hLen _ _ =>
    cases hFrame
    exact ⟨packet, rfl, hLen⟩

theorem Opens.next {s} (h : Opens P s frames msgs) (hSome : frames ≠ []) :
    ∃ (packet m : Bytes) (s' : Session) (frames' msgs' : List Bytes),
      frames = (lenBytes packet.length ++ packet) :: frames' ∧ msgs = m :: msgs' ∧
      packet.length ≤ maxFrame ∧ s.recv P packet = ok (.ok m, s') ∧ Opens P s' frames' msgs' := by
  cases h with
  | nil => exact absurd rfl hSome
  | cons hLen hRecv hRest => exact ⟨_, _, _, _, _, rfl, rfl, hLen, hRecv, hRest⟩

theorem lenBytes_length (n : Nat) : (lenBytes n).length = 4 := beBytes_length _ _

theorem header_eq {hdr bytes packet rest : Bytes} (hLen : hdr.length = 4)
    (h : hdr ++ bytes <+: lenBytes packet.length ++ packet ++ rest) :
    hdr = lenBytes packet.length ∧ bytes <+: packet ++ rest := by
  obtain ⟨t, h⟩ := h
  rw [append_assoc, append_assoc] at h
  obtain ⟨hHdr, hBytes⟩ := append_inj h (hLen.trans (lenBytes_length _).symm)
  exact ⟨hHdr, t, hBytes⟩

theorem beNat_header {packet : Bytes} (hLen : packet.length ≤ maxFrame) :
    beNat (lenBytes packet.length) = packet.length :=
  SecureChannel.beNat_lenBytes (lt_of_le_of_lt hLen (by decide))

/-! ## The incoming messages -/

namespace Bridge

def taken (b : Bridge) : List Bytes := b.inbox ++ b.loop.opened

structure Incoming (P : Primitives) (frames msgs : List Bytes) (b : Bridge) : Prop where
  paired : frames.length = msgs.length
  taken : b.taken <+: msgs
  opens : Opens P b.session (frames.drop b.taken.length) (msgs.drop b.taken.length)
  received : b.received <+: frames.flatten
  past : (frames.take b.taken.length).flatten <+: b.received
  pending : b.loop.stopped = false →
    b.received = (frames.take b.taken.length).flatten ++ (b.loop.inHand ++ b.inbound)
  shaped : b.loop.Shaped

variable {b b' : Bridge}

section

variable (h : b.Incoming P frames msgs)

include h

theorem Incoming.ahead (hGoing : b.loop.stopped = false) :
    b.loop.inHand ++ b.inbound <+: (frames.drop b.taken.length).flatten := by
  have hPrefix := h.received
  have hSplit : frames.flatten = (frames.take b.taken.length).flatten ++
      (frames.drop b.taken.length).flatten := by
    rw [← flatten_append, take_append_drop]
  rw [h.pending hGoing, hSplit] at hPrefix
  exact (prefix_append_right_inj _).mp hPrefix

theorem Incoming.taken_le : b.taken.length ≤ frames.length :=
  h.paired ▸ h.taken.length_le

theorem Incoming.whole_eq (hGoing : b.loop.stopped = false) :
    whole frames b.received.length =
      b.taken.length + whole (frames.drop b.taken.length) (b.loop.inHand ++ b.inbound).length := by
  rw [h.pending hGoing, length_append]
  exact whole_take_add h.taken_le _

theorem Incoming.taken_le_whole : b.taken.length ≤ whole frames b.received.length := by
  obtain ⟨rest, hRest⟩ := h.past
  rw [← hRest, length_append, whole_take_add h.taken_le]
  exact Nat.le_add_right _ _

theorem Incoming.whole_of_none (hGoing : b.loop.stopped = false)
    (hNone : b.loop.inHand ++ b.inbound = []) :
    whole frames b.received.length = b.taken.length := by
  rw [h.whole_eq hGoing, hNone]
  refine Nat.add_eq_left.mpr (whole_eq_zero fun frame hFrame => ?_)
  obtain ⟨packet, rfl, -⟩ := h.opens.of_head hFrame
  rw [length_append, lenBytes_length]
  exact Nat.lt_add_right _ (Nat.zero_lt_succ 3)

theorem Incoming.whole_of_less {hdr got} (hLoop : b.loop = .receiving hdr got)
    (hLess : got.length < wanted hdr) (hInbound : b.inbound = []) :
    whole frames b.received.length = b.taken.length := by
  have hGoing : b.loop.stopped = false := by rw [hLoop]; rfl
  have hAhead := h.ahead hGoing
  have hShaped := h.shaped
  rw [h.whole_eq hGoing]
  rw [hLoop] at hAhead hShaped ⊢
  rw [hInbound, append_nil] at hAhead ⊢
  refine Nat.add_eq_left.mpr (whole_eq_zero fun frame hFrame => ?_)
  obtain ⟨packet, rfl, hLen⟩ := h.opens.of_head hFrame
  obtain ⟨frames', hFrames⟩ := head?_eq_some_iff.mp hFrame
  rw [hFrames] at hAhead
  rw [length_append, lenBytes_length]
  cases hdr with
  | none =>
    show got.length < 4 + packet.length
    exact Nat.lt_add_right _ hLess
  | some hdr =>
    obtain ⟨hHdr, -⟩ := header_eq hShaped.1 hAhead
    rw [wanted, hHdr, beNat_header hLen] at hLess
    show (hdr ++ got).length < 4 + packet.length
    rw [length_append, hShaped.1]
    omega

theorem Incoming.keep (hTaken : b'.taken = b.taken) (hRx : b'.session.rx = b.session.rx)
    (hWindow : b'.session.window = b.session.window)
    (hId : b'.session.sessionId = b.session.sessionId) (hReceived : b'.received = b.received)
    (hPending : b'.loop.stopped = false → b.loop.stopped = false ∧
      b'.loop.inHand ++ b'.inbound = b.loop.inHand ++ b.inbound) (hShaped : b'.loop.Shaped) :
    b'.Incoming P frames msgs := by
  refine ⟨h.paired, ?_, ?_, ?_, ?_, ?_, hShaped⟩
  · rw [hTaken]
    exact h.taken
  · rw [hTaken]
    exact h.opens.of_same hRx hWindow hId
  · rw [hReceived]
    exact h.received
  · rw [hTaken, hReceived]
    exact h.past
  · intro hGoing
    obtain ⟨hGoing, hSame⟩ := hPending hGoing
    rw [hTaken, hReceived, hSame]
    exact h.pending hGoing

theorem Incoming.next_msg {hdr got} (hLoop : b.loop = .receiving (some hdr) got)
    (hDone : ¬ got.length < beNat hdr) :
    ∃ (m : Bytes) (s' : Session) (frames' msgs' : List Bytes),
      frames.drop b.taken.length = (hdr ++ got) :: frames' ∧
      msgs.drop b.taken.length = m :: msgs' ∧ b.session.recv P got = ok (.ok m, s') ∧
      Opens P s' frames' msgs' := by
  have hAhead := h.ahead (by rw [hLoop]; rfl)
  have hShaped := h.shaped
  rw [hLoop] at hAhead hShaped
  obtain ⟨hHdrLen, hGotLe⟩ := hShaped
  obtain ⟨packet, m, s', frames', msgs', hFrames, hMsgs, hLen, hRecv, hRest⟩ :=
    h.opens.next fun hNil => by
      rw [hNil] at hAhead
      have hEmpty := congrArg length (prefix_nil.mp hAhead)
      simp [Loop.inHand, hHdrLen] at hEmpty
  have hAhead : hdr ++ (got ++ b.inbound) <+: lenBytes packet.length ++ packet ++
      frames'.flatten := by
    rw [hFrames, flatten_cons, Loop.inHand, Option.getD_some, append_assoc] at hAhead
    exact hAhead
  obtain ⟨hHdr, t, hGot⟩ := header_eq hHdrLen hAhead
  have hGotLen : got.length = packet.length := by
    rw [hHdr, beNat_header hLen] at hDone hGotLe
    omega
  rw [append_assoc] at hGot
  obtain ⟨rfl, -⟩ := append_inj hGot hGotLen
  exact ⟨m, s', frames', msgs', by rw [hFrames, hHdr], hMsgs, hRecv, hRest⟩

theorem Incoming.header_fits {got : Bytes} (hLoop : b.loop = .receiving none got)
    (hDone : ¬ got.length < 4) :
    got.length = 4 ∧ beNat got ≤ maxFrame := by
  have hAhead := h.ahead (by rw [hLoop]; rfl)
  have hShaped := h.shaped
  rw [hLoop] at hAhead hShaped
  have hFour : got.length = 4 := Nat.le_antisymm hShaped (Nat.not_lt.mp hDone)
  obtain ⟨packet, m, s', frames', msgs', hFrames, -, hLen, -, -⟩ :=
    h.opens.next fun hNil => by
      rw [hNil] at hAhead
      have hEmpty := congrArg length (prefix_nil.mp hAhead)
      simp [Loop.inHand, hFour] at hEmpty
  rw [hFrames, flatten_cons] at hAhead
  obtain ⟨rfl, -⟩ := header_eq hFour hAhead
  exact ⟨hFour, (beNat_header hLen).trans_le hLen⟩

theorem Incoming.move {old loop outbox wire written closed asleep failed notifying}
    (hLoop : b.loop = old) (hOpened : loop.opened = old.opened) (hShaped : loop.Shaped)
    (hHand : loop.stopped = false → old.stopped = false ∧ loop.inHand = old.inHand) :
    Incoming P frames msgs
      { b with loop, outbox, wire, written, closed, asleep, failed, notifying } := by
  subst hLoop
  refine h.keep (congrArg (b.inbox ++ ·) hOpened) rfl rfl rfl rfl (fun hGoing => ?_) hShaped
  obtain ⟨hOld, hSame⟩ := hHand hGoing
  exact ⟨hOld, congrArg (· ++ b.inbound) hSame⟩

theorem Incoming.opened {hdr got plaintext : Bytes} {session : Session}
    (hLoop : b.loop = .receiving (some hdr) got) (hDone : ¬ got.length < beNat hdr)
    (hRecv : b.session.recv P got = ok (.ok plaintext, session)) :
    Incoming P frames msgs { b with session, loop := .delivering plaintext } := by
  obtain ⟨m, s', frames', msgs', hFrames, hMsgs, hRecv', hRest⟩ := h.next_msg hLoop hDone
  rw [hRecv] at hRecv'
  cases hRecv'
  have hTaken : b.taken = b.inbox := by
    rw [Bridge.taken, hLoop]
    exact append_nil _
  have hOld := h.pending (by rw [hLoop]; rfl)
  rw [hTaken] at hFrames hMsgs hOld
  have hPrefix := h.taken
  rw [hTaken] at hPrefix
  -- one more frame belongs to what was received
  have hTake : frames.take (b.inbox.length + 1) = frames.take b.inbox.length ++ [hdr ++ got] := by
    rw [take_add, hFrames]
    rfl
  have hNow : b.received = (frames.take (b.inbox.length + 1)).flatten ++ ([] ++ b.inbound) := by
    rw [hOld, hLoop, hTake]
    simp [Loop.inHand]
  have hLen : (b.inbox ++ [plaintext]).length = b.inbox.length + 1 := length_append
  refine ⟨h.paired, ?_, ?_, h.received, ?_, fun _ => ?_, trivial⟩
  · show b.inbox ++ [plaintext] <+: msgs
    obtain ⟨rest, rfl⟩ := hPrefix
    rw [drop_left] at hMsgs
    rw [hMsgs]
    exact ⟨msgs', append_assoc _ _ _⟩
  · show Opens P session (frames.drop (b.inbox ++ [plaintext]).length)
      (msgs.drop (b.inbox ++ [plaintext]).length)
    rw [hLen, ← drop_drop, ← drop_drop, hFrames, hMsgs]
    exact hRest
  · show (frames.take (b.inbox ++ [plaintext]).length).flatten <+: b.received
    rw [hLen, hNow]
    exact prefix_append _ _
  · show b.received = (frames.take (b.inbox ++ [plaintext]).length).flatten ++ ([] ++ b.inbound)
    rw [hLen]
    exact hNow

theorem Incoming.work (hThere : b.hungUp = false) (hWork : Work P b b') :
    b'.Incoming P frames msgs := by
  cases hWork with
  | pop hLoop | drained hLoop | sent hLoop | write hLoop | turn hLoop =>
    exact h.move hLoop rfl trivial fun _ => ⟨rfl, rfl⟩
  | encrypt hLoop hSend =>
    exact h.keep (by rw [Bridge.taken, Bridge.taken, hLoop]; rfl) (Session.send_rx hSend)
      (Session.send_window hSend) (Session.send_sessionId hSend) rfl
      (fun _ => by rw [hLoop]; exact ⟨rfl, rfl⟩) trivial
  | exhaust hLoop hSend | leave hLoop hClosed | eof hLoop hLess hInbound hClosed | fail hLoop =>
    exact h.move hLoop rfl trivial nofun
  | doze | await =>
    exact h.move rfl rfl h.shaped fun hGoing => ⟨hGoing, rfl⟩
  | begin hLoop =>
    exact h.move hLoop rfl (Nat.zero_le 4) fun _ => ⟨rfl, rfl⟩
  | @take hdr got hLoop hLess hInbound =>
    have hShaped := h.shaped
    rw [hLoop] at hShaped
    refine h.keep (by rw [Bridge.taken, Bridge.taken, hLoop]; rfl) rfl rfl rfl rfl (fun _ => ?_) ?_
    · rw [hLoop]
      refine ⟨rfl, ?_⟩
      simp only [Loop.inHand, append_assoc, take_append_drop]
    · have hRoom : (got ++ b.inbound.take (wanted hdr - got.length)).length ≤ wanted hdr := by
        rw [length_append, length_take]
        omega
      cases hdr with
      | none => exact hRoom
      | some => exact ⟨hShaped.1, hRoom⟩
  | refuse hLoop hDone hLong => exact absurd (h.header_fits hLoop hDone).2 (Nat.not_le.mpr hLong)
  | head hLoop hDone =>
    refine h.move hLoop rfl ⟨(h.header_fits hLoop hDone).1, Nat.zero_le _⟩ fun _ => ⟨rfl, ?_⟩
    exact append_nil _
  | opened hLoop hDone hRecv => exact h.opened hLoop hDone hRecv
  | rejected hLoop hDone hRecv | crash hLoop hDone hRecv =>
    obtain ⟨m, s', -, -, -, -, hOk, -⟩ := h.next_msg hLoop hDone
    rw [hRecv] at hOk
    cases hOk
  | deliver hLoop =>
    refine h.keep ?_ rfl rfl rfl rfl (fun _ => by rw [hLoop]; exact ⟨rfl, rfl⟩) trivial
    rw [Bridge.taken, Bridge.taken, hLoop]
    exact append_nil _
  | undelivered hLoop hGone =>
    rw [hThere] at hGone
    cases hGone

end

/-! ## The outgoing messages -/

/-- What was accepted is sealed and written, or is on its way there; and there are
sequence numbers for it. -/
structure Outgoing (P : Primitives) (session : Session) (b : Bridge) : Prop where
  sealed : ∃ c sent, (channelOf session).sendAll P sent = ok c ∧
    c.stream.output = b.written ++ b.loop.toWrite ∧ c.session.tx = b.session.tx ∧
    c.session.sessionId = b.session.sessionId ∧ b.accepted = sent ++ (b.loop.toSeal ++ b.outbox)
  numbers : b.session.tx.txSeq.toNat + (b.loop.toSeal ++ b.outbox).length < 2 ^ 64

variable {session : Session}

section

variable (h : b.Outgoing P session)

include h

theorem Outgoing.keep (hWritten : b'.written ++ b'.loop.toWrite = b.written ++ b.loop.toWrite)
    (hTx : b'.session.tx = b.session.tx) (hId : b'.session.sessionId = b.session.sessionId)
    (hToSeal : b'.loop.toSeal ++ b'.outbox = b.loop.toSeal ++ b.outbox)
    (hAccepted : b'.accepted = b.accepted) : b'.Outgoing P session := by
  constructor
  · rw [hWritten, hTx, hId, hToSeal, hAccepted]
    exact h.sealed
  · rw [hTx, hToSeal]
    exact h.numbers

theorem Outgoing.move {old loop inbound inbox closed asleep failed notifying} (hLoop : b.loop = old)
    (hToSeal : loop.toSeal = old.toSeal) (hToWrite : loop.toWrite = old.toWrite) :
    Outgoing P session { b with loop, inbound, inbox, closed, asleep, failed, notifying } := by
  subst hLoop
  exact h.keep (congrArg (b.written ++ ·) hToWrite) rfl rfl (congrArg (· ++ b.outbox) hToSeal) rfl

theorem Outgoing.encrypt {plaintext packet session'} (hLoop : b.loop = .sending plaintext)
    (hSend : (b.session.send P plaintext : Outcome Empty _) = ok (packet, session')) :
    Outgoing P session
      { b with session := session', loop := .writing [lenBytes packet.length, packet] } := by
  obtain ⟨c, sent, hAll, hOutput, hTx, hId, hAccepted⟩ := h.sealed
  have hNumbers := h.numbers
  rw [hLoop] at hOutput hAccepted hNumbers
  obtain ⟨s, hSent, hTx', hId'⟩ : ∃ s, c.session.send (ε := ApiError) P plaintext = ok (packet, s) ∧
      s.tx = session'.tx ∧ s.sessionId = session'.sessionId :=
    Session.send_of_same hSend hTx hId
  have hMsg : c.sendMsg P plaintext = ok { c with
      stream := (c.stream.writeAll (lenBytes packet.length)).writeAll packet, session := s } := by
    rw [SecureChannel.sendMsg, hSent]
    rfl
  refine ⟨⟨_, sent ++ [plaintext], SecureChannel.sendAll_concat hAll hMsg, ?_, hTx', hId', ?_⟩, ?_⟩
  · simp only [Stream.writeAll, hOutput, Loop.toWrite, append_nil, append_assoc,
      flatten_cons, flatten_nil]
  · simpa [Loop.toSeal] using hAccepted
  · rw [(Session.send_spec hSend).2.1]
    simpa [Loop.toSeal, Nat.add_assoc, Nat.add_comm 1] using hNumbers

theorem Outgoing.recv {loop old failed session' packet r} (hLoop : b.loop = old)
    (hRecv : b.session.recv P packet = ok (r, session')) (hToSeal : loop.toSeal = old.toSeal)
    (hToWrite : loop.toWrite = old.toWrite) :
    Outgoing P session { b with session := session', loop, failed } := by
  subst hLoop
  exact h.keep (congrArg (b.written ++ ·) hToWrite) (Session.recv_spec hRecv).1
    (Session.recv_sessionId hRecv) (congrArg (· ++ b.outbox) hToSeal) rfl

theorem Outgoing.not_exhausted {plaintext p} (hLoop : b.loop = .sending plaintext) :
    (b.session.send P plaintext : Outcome Empty _) ≠ panic p := by
  have hNumbers := h.numbers
  rw [hLoop] at hNumbers
  have hOne : ((Loop.sending plaintext).toSeal ++ b.outbox).length = b.outbox.length + 1 := rfl
  exact Session.noPanic_send plaintext (by omega) p

theorem Outgoing.work (hWork : Work P b b') : b'.Outgoing P session := by
  cases hWork with
  | pop hLoop hOutbox =>
    refine h.keep ?_ rfl rfl ?_ rfl
    · rw [hLoop]
      rfl
    · rw [hLoop, hOutbox]
      rfl
  | drained hLoop | sent hLoop | leave hLoop | turn hLoop | begin hLoop | take hLoop | eof hLoop
  | refuse hLoop | head hLoop | crash hLoop | deliver hLoop | undelivered hLoop | fail hLoop =>
    exact h.move hLoop rfl rfl
  | encrypt hLoop hSend => exact h.encrypt hLoop hSend
  | exhaust hLoop hSend => exact absurd hSend (h.not_exhausted hLoop)
  | write hLoop =>
    refine h.keep ?_ rfl rfl ?_ rfl
    · rw [hLoop]
      exact append_assoc _ _ _
    · rw [hLoop]
      rfl
  | doze | await => exact h.move rfl rfl rfl
  | opened hLoop hDone hRecv | rejected hLoop hDone hRecv => exact h.recv hLoop hRecv rfl rfl

end

/-! ## What is left when the bridge is closed, and when the worker sleeps -/

structure Closing (frames : List Bytes) (b : Bridge) : Prop where
  caughtUp : b.closed = true → whole frames b.received.length ≤ b.inbox.length + b.loop.busy
  drained : b.closed = true →
    b.failed = true ∨ (b.loop = .checking ∨ b.loop = .returned → b.outbox = [])
  stopped : b.loop.stopped = true →
    b.closed = true ∧ (b.loop = .returned ∨ b.loop = .failing ∧ b.failed = true)
  clear : b.loop.inMessage = true → b.outbox = [] ∨ b.inbox.length < whole frames b.received.length
  sleeping : b.asleep = true → b.notifying ≠ 0 ∨ b.closed = false ∧ b.inbound = [] ∧
    (b.loop = .checking ∧ b.outbox = [] ∨
      ∃ hdr got, b.loop = .receiving hdr got ∧ got.length < wanted hdr)
  there : b.hungUp = false

section

variable (h : b.Closing frames)

include h

theorem Closing.caughtUp_of {old loop : Loop} (hLoop : b.loop = old) (hBusy : old.busy = loop.busy)
    (hClosed : b.closed = true) : whole frames b.received.length ≤ b.inbox.length + loop.busy := by
  have hCaught := h.caughtUp hClosed
  rwa [hLoop, hBusy] at hCaught

theorem Closing.move {loop session outbox inbox inbound wire written} (hAwake : b.asleep = false)
    (hGoing : loop.stopped = false)
    (hCaught : b.closed = true → whole frames b.received.length ≤ inbox.length + loop.busy)
    (hDrained : loop = .checking → b.closed = true → outbox = [])
    (hClear : loop.inMessage = true → outbox = [] ∨ inbox.length < whole frames b.received.length) :
    Closing frames { b with loop, session, outbox, inbox, inbound, wire, written } := by
  refine ⟨hCaught, fun hClosed => .inr ?_, fun hStopped => ?_, hClear, fun hAsleep => ?_, h.there⟩
  · rintro (rfl | rfl)
    · exact hDrained rfl hClosed
    · cases hGoing
  · rw [hGoing] at hStopped
    cases hStopped
  · rw [hAwake] at hAsleep
    cases hAsleep

theorem Closing.sleep (hOpen : b.closed = false) (hInbound : b.inbound = [])
    (hWaits : b.loop = .checking ∧ b.outbox = [] ∨
      ∃ hdr got, b.loop = .receiving hdr got ∧ got.length < wanted hdr) :
    Closing frames { b with asleep := true } :=
  ⟨h.caughtUp, h.drained, h.stopped, h.clear, fun _ => .inr ⟨hOpen, hInbound, hWaits⟩, h.there⟩

theorem Closing.stop {loop notifying closed failed} (hAwake : b.asleep = false)
    (hClosed : closed = true) (hCaught : whole frames b.received.length ≤ b.inbox.length)
    (hLoop : loop = .returned ∧ (failed = true ∨ b.outbox = []) ∨ loop = .failing ∧ failed = true) :
    Closing frames { b with loop, failed, notifying, closed } := by
  have hDone : failed = true ∨ (loop = .checking ∨ loop = .returned → b.outbox = []) := by
    rcases hLoop with ⟨-, hFailed | hEmpty⟩ | ⟨-, hFailed⟩
    · exact .inl hFailed
    · exact .inr fun _ => hEmpty
    · exact .inl hFailed
  refine ⟨fun _ => Nat.le_add_right_of_le hCaught, fun _ => hDone, fun _ => ⟨hClosed, ?_⟩, ?_,
    fun hAsleep => ?_, h.there⟩
  · rcases hLoop with ⟨hReturned, -⟩ | hFailing
    · exact .inl hReturned
    · exact .inr hFailing
  · rcases hLoop with ⟨rfl, -⟩ | ⟨rfl, -⟩ <;> exact nofun
  · rw [hAwake] at hAsleep
    cases hAsleep

theorem Closing.work (hIn : b.Incoming P frames msgs) (hOut : b.Outgoing P session)
    (hAwake : b.asleep = false) (hWork : Work P b b') : b'.Closing frames := by
  cases hWork with
  | pop hLoop hOutbox | encrypt hLoop hSend | sent hLoop | write hLoop
  | turn hLoop hOpen hOutbox | opened hLoop hDone hRecv =>
    exact h.move hAwake rfl (h.caughtUp_of hLoop rfl) nofun nofun
  | drained hLoop hOutbox =>
    exact h.move hAwake rfl (h.caughtUp_of hLoop rfl) (fun _ _ => hOutbox) nofun
  | exhaust hLoop hSend => exact absurd hSend (hOut.not_exhausted hLoop)
  | doze hLoop hInbound hOutbox hOpen => exact h.sleep hOpen hInbound (.inl ⟨hLoop, hOutbox⟩)
  | leave hLoop hClosed =>
    have hCaught := h.caughtUp hClosed
    rw [hLoop] at hCaught
    have hEmpty := (h.drained hClosed).imp_right fun hEmpty => hEmpty (.inl hLoop)
    exact h.stop hAwake hClosed hCaught (.inl ⟨rfl, hEmpty⟩)
  | begin hLoop hOpen hInbound hOutbox =>
    exact h.move hAwake rfl (by simp [hOpen]) nofun fun _ => .inl hOutbox
  | take hLoop hLess hInbound | head hLoop hDone hFits =>
    exact h.move hAwake rfl (h.caughtUp_of hLoop rfl) nofun fun _ => h.clear (by rw [hLoop]; rfl)
  | eof hLoop hLess hInbound hClosed =>
    have hCaught := hIn.whole_of_less hLoop hLess hInbound
    have hTaken : b.taken.length = b.inbox.length := by
      rw [Bridge.taken, hLoop]
      exact congrArg length (append_nil _)
    exact h.stop hAwake hClosed (hCaught.trans hTaken).le (.inr ⟨rfl, rfl⟩)
  | await hLoop hLess hInbound hOpen =>
    exact h.sleep hOpen hInbound (.inr ⟨_, _, hLoop, hLess⟩)
  | refuse hLoop hDone hLong => exact absurd (hIn.header_fits hLoop hDone).2 (Nat.not_le.mpr hLong)
  | rejected hLoop hDone hRecv | crash hLoop hDone hRecv =>
    obtain ⟨m, s', -, -, -, -, hOk, -⟩ := hIn.next_msg hLoop hDone
    rw [hRecv] at hOk
    cases hOk
  | deliver hLoop hThere =>
    refine h.move hAwake rfl (fun hClosed => ?_) nofun nofun
    rw [length_append]
    have hCaught := h.caughtUp hClosed
    rwa [hLoop] at hCaught
  | undelivered hLoop hGone =>
    rw [h.there] at hGone
    cases hGone
  | fail hLoop =>
    obtain ⟨hClosed, hFailing⟩ := h.stopped (by rw [hLoop]; rfl)
    have hCaught := h.caughtUp hClosed
    rw [hLoop] at hCaught hFailing
    obtain hNo | ⟨-, hFailed⟩ := hFailing
    · cases hNo
    · exact h.stop hAwake rfl hCaught (.inl ⟨rfl, .inl hFailed⟩)

end

/-! ## The other events -/

structure Lossless (P : Primitives) (frames msgs : List Bytes) (session : Session) (b : Bridge) :
    Prop where
  incoming : b.Incoming P frames msgs
  outgoing : b.Outgoing P session
  closing : b.Closing frames

variable {wire : Bytes}

theorem lossless_start (hOpens : Opens P session frames msgs) :
    (start session wire).Lossless P frames msgs session := by
  refine ⟨⟨hOpens.length_eq, nil_prefix, hOpens, nil_prefix, nil_prefix,
    fun _ => rfl, trivial⟩, ⟨⟨_, [], rfl, rfl, rfl, rfl, rfl⟩, ?_⟩, ?_⟩
  · exact UInt64.toNat_lt _
  · exact ⟨nofun, nofun, nofun, nofun, nofun, rfl⟩

theorem Incoming.frame {asleep closed reading failed notifying wire outbound outbox accepted}
    (h : b.Incoming P frames msgs) :
    Incoming P frames msgs { b with
      asleep, closed, reading, failed, notifying, wire, outbound, outbox, accepted } :=
  h.keep rfl rfl rfl rfl rfl (fun hGoing => ⟨hGoing, rfl⟩) h.shaped

theorem Outgoing.frame {asleep closed reading failed notifying inbound received wire outbound}
    (h : b.Outgoing P session) :
    Outgoing P session { b with
      asleep, closed, reading, failed, notifying, inbound, received, wire, outbound } :=
  h.keep rfl rfl rfl rfl rfl

section

variable (h : b.Lossless P frames msgs session)

include h

theorem Lossless.close {reading failed outbound}
    (hReady : b.closed = true ∨ whole frames b.received.length ≤ b.inbox.length + b.loop.busy ∧
      (failed = true ∨ (b.loop = .checking → b.outbox = [])))
    (hFailed : b.failed = true → failed = true) :
    Lossless P frames msgs session { b.close with reading, outbound, failed } := by
  have hDrained : failed = true ∨ (b.loop = .checking ∨ b.loop = .returned → b.outbox = []) := by
    by_cases hClosed : b.closed = true
    · exact (h.closing.drained hClosed).imp_left hFailed
    · obtain hClosed' | ⟨-, hReady⟩ := hReady
      · exact absurd hClosed' hClosed
      · refine hReady.imp_right fun hEmpty hPlace => hPlace.elim hEmpty fun hReturned => ?_
        exact absurd (h.closing.stopped (by rw [hReturned]; rfl)).1 hClosed
  have hStopped : b.loop.stopped = true →
      b.loop = .returned ∨ b.loop = .failing ∧ failed = true := fun hStopped =>
    (h.closing.stopped hStopped).2.imp_right fun hFailing => ⟨hFailing.1, hFailed hFailing.2⟩
  refine ⟨h.incoming.frame, h.outgoing.frame, ?_⟩
  exact ⟨fun _ => hReady.elim h.closing.caughtUp And.left, fun _ => hDrained,
    fun hStop => ⟨rfl, hStopped hStop⟩, h.closing.clear, fun _ => .inl (Nat.succ_ne_zero _),
    h.closing.there⟩

theorem Lossless.read {bytes : Bytes} (hNext : b.received ++ bytes <+: frames.flatten)
    (hReady : b.closed = true →
      whole frames (b.received ++ bytes).length ≤ b.inbox.length + b.loop.busy) :
    Lossless P frames msgs session { b with
      inbound := b.inbound ++ bytes
      received := b.received ++ bytes
      notifying := b.notifying + 1 } := by
  obtain ⟨hIn, hOut, hClosing⟩ := h
  have hMore : whole frames b.received.length ≤ whole frames (b.received ++ bytes).length :=
    whole_mono (by rw [length_append]; exact Nat.le_add_right _ _)
  refine ⟨⟨hIn.paired, hIn.taken, hIn.opens, hNext, hIn.past.trans (prefix_append _ _),
    fun hGoing => ?_, hIn.shaped⟩, hOut.frame, ?_⟩
  · show b.received ++ bytes = _ ++ (b.loop.inHand ++ (b.inbound ++ bytes))
    rw [hIn.pending hGoing]
    simp only [append_assoc]
    rfl
  · exact ⟨hReady, hClosing.drained, hClosing.stopped,
      fun hMsg => (hClosing.clear hMsg).imp_right fun hLess => hLess.trans_le hMore,
      fun _ => .inl (Nat.succ_ne_zero _), hClosing.there⟩

theorem Lossless.send (plaintext : Bytes) (hOpen : b.closed = false)
    (hNumber : b.session.tx.txSeq.toNat + b.loop.toSeal.length + b.outbox.length + 1 < 2 ^ 64)
    (hClear : b.loop.inMessage = true → b.inbox.length < whole frames b.received.length) :
    Lossless P frames msgs session { b with
      outbox := b.outbox ++ [plaintext]
      accepted := b.accepted ++ [plaintext]
      asleep := false } := by
  obtain ⟨hIn, ⟨⟨c, sent, hAll, hOutput, hTx, hId, hAccepted⟩, -⟩, hClosing⟩ := h
  refine ⟨hIn.frame, ⟨⟨c, sent, hAll, hOutput, hTx, hId, ?_⟩, ?_⟩, ?_⟩
  · show b.accepted ++ [plaintext] = sent ++ (b.loop.toSeal ++ (b.outbox ++ [plaintext]))
    rw [hAccepted]
    simp only [append_assoc]
  · show b.session.tx.txSeq.toNat + (b.loop.toSeal ++ (b.outbox ++ [plaintext])).length < 2 ^ 64
    rw [length_append, length_append, length_singleton]
    omega
  · have hShut : b.closed ≠ true := by simp [hOpen]
    exact ⟨hClosing.caughtUp, fun hClosed => absurd hClosed hShut, hClosing.stopped,
      fun hMsg => .inr (hClear hMsg), nofun, hClosing.there⟩

theorem Lossless.wake {notifying} :
    Lossless P frames msgs session { b with notifying, asleep := false } :=
  ⟨h.incoming.frame, h.outgoing.frame, h.closing.caughtUp, h.closing.drained, h.closing.stopped,
    h.closing.clear, nofun, h.closing.there⟩

theorem Lossless.outbound {wire outbound} :
    Lossless P frames msgs session { b with wire, outbound } :=
  ⟨h.incoming.frame, h.outgoing.frame, h.closing.caughtUp, h.closing.drained, h.closing.stopped,
    h.closing.clear, h.closing.sleeping, h.closing.there⟩

theorem Lossless.stepOutbound {sent} (hOk : b.orderly frames (.outbound sent) = true)
    (hStep : b.stepOutbound sent = some b') : b'.Lossless P frames msgs session := by
  unfold Bridge.stepOutbound at hStep
  split at hStep
  · split at hStep
    · cases hStep
      exact h.outbound
    · split at hStep
      · rename_i hClosed
        cases hStep
        exact h.close (.inl hClosed) id
      · cases hStep
        exact h.outbound
  · split at hStep
    · cases hStep
      exact h.outbound
    · rename_i hLost
      obtain rfl : sent = false := by simpa using hLost
      cases hStep
      refine h.close ?_ fun _ => rfl
      simpa [orderly, Bridge.caughtUp] using hOk
  · cases hStep
    exact h.outbound
  · cases hStep

theorem Lossless.step {e} (hOk : b.orderly frames e = true) (hStep : b.step P e = some b') :
    b'.Lossless P frames msgs session := by
  cases e with
  | read bytes =>
    rw [Bridge.step] at hStep
    split at hStep
    · cases hStep
      obtain ⟨hNext, hReady⟩ := Bool.and_eq_true_iff.mp hOk
      refine h.read (List.isPrefixOf_iff_prefix.mp hNext) fun hClosed => ?_
      rw [List.length_append]
      simpa [hClosed, Bridge.caughtUp] using hReady
    · cases hStep
  | finish =>
    rw [Bridge.step] at hStep
    split at hStep
    · cases hStep
      refine h.close ?_ id
      simp only [orderly, Bridge.caughtUp, Bool.or_eq_true, Bool.and_eq_true, decide_eq_true_eq,
        List.isEmpty_iff] at hOk
      refine hOk.imp_right fun hReady => ⟨hReady.1, .inr fun hLoop => ?_⟩
      exact hReady.2.resolve_left fun hOther => hOther hLoop
    · cases hStep
  | lose =>
    rw [Bridge.step] at hStep
    split at hStep
    · cases hStep
      refine h.close ?_ fun _ => rfl
      simpa [orderly, Bridge.caughtUp] using hOk
    · cases hStep
  | outbound => exact h.stepOutbound hOk hStep
  | send plaintext =>
    rw [Bridge.step] at hStep
    split at hStep
    · cases hStep
      exact h
    · rename_i hOpen
      have hOpen : b.closed = false := by simpa using hOpen
      cases hStep
      simp only [orderly, hasNumber, hOpen, Bool.false_or, Bool.and_eq_true, Bool.or_eq_true,
        decide_eq_true_eq, Bool.not_eq_true'] at hOk
      refine h.send plaintext hOpen hOk.1 fun hMsg => hOk.2.resolve_left ?_
      rw [hMsg]
      exact nofun
  | notify =>
    rw [Bridge.step] at hStep
    split at hStep
    · cases hStep
    · cases hStep
      exact h.wake
  | wake =>
    cases hStep
    exact h.wake
  | work =>
    obtain ⟨hAwake, hWork⟩ := work_cases hStep
    exact ⟨h.incoming.work h.closing.there hWork, h.outgoing.work hWork,
      h.closing.work h.incoming h.outgoing hAwake hWork⟩
  | hangUp => cases hOk

/-! ## The worker comes to rest -/

def rank (b : Bridge) : Nat :=
  match b.loop with
  | .returned | .panicked _ => 0
  | .failing => 2
  | .receiving none [] => 3
  | .checking => 5
  -- with an empty outbox it goes on to look for bytes
  | .draining => if b.outbox = [] then 6 else 4
  | .delivering _ => 7
  | .receiving (some _) _ => 8
  | .receiving none (_ :: _) => 9
  | .writing bufs => 7 + bufs.length
  | .sending _ => 10

def effort (b : Bridge) : Nat :=
  2 * (8 * b.inbound.length + 7 * b.outbox.length + b.rank) + 2 * b.notifying +
    if b.asleep then 0 else 1

omit h in
theorem rank_receiving {hdr got} (hLoop : b.loop = .receiving hdr got) :
    3 ≤ b.rank ∧ b.rank ≤ 9 := by
  rw [rank, hLoop]
  cases hdr with
  | some => simp
  | none => cases got <;> simp

omit h in
theorem effort_work (hAwake : b.asleep = false) (hWork : Work P b b') : b'.effort < b.effort := by
  cases hWork with
  | pop hLoop hOutbox =>
    simp only [effort, rank, hLoop, hOutbox, hAwake, length_cons, reduceCtorEq, if_false]
    omega
  | drained hLoop hOutbox | turn hLoop hOpen hOutbox => simp [effort, rank, hLoop, hOutbox, hAwake]
  | encrypt hLoop | exhaust hLoop | write hLoop | doze hLoop | leave hLoop | begin hLoop
  | await hLoop | opened hLoop | rejected hLoop | crash hLoop | undelivered hLoop =>
    simp [effort, rank, hLoop, hAwake]
  | sent hLoop | deliver hLoop =>
    simp only [effort, rank, hLoop, hAwake]
    split <;> simp
  | @take hdr got hLoop hLess hInbound =>
    have hOld := rank_receiving hLoop
    have hNew := rank_receiving (b := { b with
      inbound := b.inbound.drop (wanted hdr - got.length)
      loop := .receiving hdr (got ++ b.inbound.take (wanted hdr - got.length)) }) rfl
    have hSome := length_pos_iff.mpr hInbound
    simp only [effort, hAwake, length_drop] at hNew ⊢
    omega
  | eof hLoop hLess hInbound hClosed | refuse hLoop hDone hLong =>
    have hOld := rank_receiving hLoop
    simp only [effort, rank, hAwake] at hOld ⊢
    omega
  | @head got hLoop hDone hFits =>
    cases got with
    | nil => exact absurd (Nat.zero_lt_succ 3) hDone
    | cons => simp [effort, rank, hLoop, hAwake]
  | fail hLoop =>
    simp [effort, rank, hLoop, hAwake, close]
    omega

omit h in
theorem effort_notify (h : b.notifying ≠ 0) :
    effort { b with notifying := b.notifying - 1, asleep := false } < b.effort := by
  show 2 * (8 * b.inbound.length + 7 * b.outbox.length + b.rank) + 2 * (b.notifying - 1) + 1 <
    2 * (8 * b.inbound.length + 7 * b.outbox.length + b.rank) + 2 * b.notifying + _
  omega

omit h in
theorem comes_to_rest (b : Bridge) :
    ∃ b', Run (step P) (fun _ e => e = .work ∨ e = .notify) b b' ∧ b'.Resting P := by
  induction hEffort : b.effort using Nat.strong_induction_on generalizing b with
  | _ n ih =>
    cases hWork : b.work P with
    | some b₁ =>
      obtain ⟨hAwake, hCase⟩ := work_cases hWork
      obtain ⟨b', hRun, hRest⟩ := ih _ (hEffort ▸ effort_work hAwake hCase) b₁ rfl
      exact ⟨b', (Run.step .start (.inl rfl) hWork).trans hRun, hRest⟩
    | none =>
      by_cases hQuiet : b.notifying = 0
      · exact ⟨b, .start, hWork, hQuiet⟩
      · have hNotify : b.step P .notify =
            some { b with notifying := b.notifying - 1, asleep := false } := if_neg hQuiet
        obtain ⟨b', hRun, hRest⟩ := ih _ (hEffort ▸ effort_notify hQuiet) _ rfl
        exact ⟨b', (Run.step .start (.inr rfl) hNotify).trans hRun, hRest⟩

/-! ## Nothing is dropped -/

omit h in
theorem stopped_of_work (hAwake : ¬ b.asleep = true) (hNone : b.work P = none) :
    b.loop.stopped = true := by
  rw [work, if_neg hAwake] at hNone
  split at hNone
  · split at hNone <;> cases hNone
  · split at hNone
    · cases hNone
    · cases hNone
    · rename_i e _
      exact e.elim
  · cases hNone
  · cases hNone
  · cases hNone
  · split at hNone <;> cases hNone
  · split at hNone <;> cases hNone
  · cases hNone
  · rename_i hLoop
    rw [hLoop]
    rfl
  · rename_i hLoop
    rw [hLoop]
    rfl

omit h in
theorem Closing.resting (h : b.Closing frames) (hRest : b.Resting P) :
    (b.loop = .returned ∧ b.closed = true) ∨ b.inbound = [] ∧
      (b.loop = .checking ∧ b.outbox = [] ∨
        ∃ hdr got, b.loop = .receiving hdr got ∧ got.length < wanted hdr) := by
  obtain ⟨hNone, hQuiet⟩ := hRest
  by_cases hAsleep : b.asleep = true
  · obtain hBusy | ⟨-, hWaits⟩ := h.sleeping hAsleep
    · exact absurd hQuiet hBusy
    · exact .inr hWaits
  · have hStopped : b.loop.stopped = true := stopped_of_work hAsleep hNone
    obtain ⟨hClosed, hReturned | ⟨hFailing, -⟩⟩ := h.stopped hStopped
    · exact .inl ⟨hReturned, hClosed⟩
    · rw [Bridge.work, if_neg hAsleep, hFailing] at hNone
      cases hNone

theorem Lossless.taken_of_resting (hRest : b.Resting P) :
    b.taken = b.inbox ∧ whole frames b.received.length = b.inbox.length := by
  have hTaken : b.loop.opened = [] → b.taken = b.inbox := fun hNone => by
    rw [Bridge.taken, hNone, append_nil]
  obtain ⟨hReturned, hClosed⟩ | ⟨hInbound, ⟨hChecking, -⟩ | ⟨hdr, got, hLoop, hLess⟩⟩ :=
    h.closing.resting hRest
  · have hInbox := hTaken (by rw [hReturned]; rfl)
    have hCaught := h.closing.caughtUp hClosed
    rw [hReturned] at hCaught
    exact ⟨hInbox, Nat.le_antisymm hCaught (hInbox ▸ h.incoming.taken_le_whole)⟩
  · have hInbox := hTaken (by rw [hChecking]; rfl)
    have hNone : b.loop.inHand ++ b.inbound = [] := by
      rw [hChecking, hInbound]
      rfl
    exact ⟨hInbox, hInbox ▸ h.incoming.whole_of_none (by rw [hChecking]; rfl) hNone⟩
  · have hInbox := hTaken (by rw [hLoop]; rfl)
    exact ⟨hInbox, hInbox ▸ h.incoming.whole_of_less hLoop hLess hInbound⟩

theorem Lossless.outbox_of_resting (hRest : b.Resting P) :
    b.loop.toSeal = [] ∧ b.loop.toWrite = [] ∧ (b.failed = true ∨ b.outbox = []) := by
  obtain ⟨hReturned, hClosed⟩ | ⟨-, ⟨hChecking, hEmpty⟩ | ⟨hdr, got, hLoop, -⟩⟩ :=
    h.closing.resting hRest
  · rw [hReturned]
    exact ⟨rfl, rfl, (h.closing.drained hClosed).imp_right fun hEmpty => hEmpty (.inr hReturned)⟩
  · rw [hChecking]
    exact ⟨rfl, rfl, .inr hEmpty⟩
  · have hClear := h.closing.clear (by rw [hLoop]; rfl)
    rw [(h.taken_of_resting hRest).2] at hClear
    rw [hLoop]
    exact ⟨rfl, rfl, .inr (hClear.resolve_right (Nat.lt_irrefl _))⟩

end

/-- **Nothing is dropped.** The frames open to `msgs` on the session (`hOpens`), and all events are
`orderly`: above all, the bridge is closed only when the worker has caught up. Then the inbox is the
beginning of `msgs`, what is written is the beginning of accepted plaintexts, sealed in order, and
the worker comes to rest on its own. At rest the inbox has every message that was received whole,
and all accepted plaintexts are sealed and written, unless the bridge has failed. -/
theorem nothing_dropped (hOpens : Opens P session frames msgs)
    (hRun : Run (step P) (fun b e => b.orderly frames e = true) (start session wire) b) :
    b.inbox <+: msgs ∧
    (∃ c sent, (channelOf session).sendAll P sent = ok c ∧ b.written <+: c.stream.output ∧
      sent <+: b.accepted) ∧
    (∃ b', Run (step P) (fun _ e => e = .work ∨ e = .notify) b b' ∧ b'.Resting P) ∧
    (b.Resting P → b.inbox = msgs.take (whole frames b.received.length) ∧
      (b.failed = false → ∃ c, (channelOf session).sendAll P b.accepted = ok c ∧
        c.stream.output = b.written)) := by
  have h : b.Lossless P frames msgs session := by
    refine hRun.invariant (lossless_start hOpens) ?_
    intro b b' e hLossless hOk hStep
    exact hLossless.step hOk hStep
  obtain ⟨c, sent, hAll, hOutput, -, -, hAccepted⟩ := h.outgoing.sealed
  refine ⟨(prefix_append _ _).trans h.incoming.taken,
    ⟨c, sent, hAll, hOutput ▸ prefix_append _ _, hAccepted ▸ prefix_append _ _⟩,
    comes_to_rest b, fun hRest => ⟨?_, ?_⟩⟩
  · obtain ⟨hTaken, hWhole⟩ := h.taken_of_resting hRest
    rw [hWhole]
    exact prefix_iff_eq_take.mp (hTaken ▸ h.incoming.taken)
  · intro hNoError
    obtain ⟨hToSeal, hToWrite, hEmpty⟩ := h.outbox_of_resting hRest
    have hEmpty := hEmpty.resolve_left (by simp [hNoError])
    rw [hToSeal, hEmpty, append_nil, append_nil] at hAccepted
    rw [hToWrite, append_nil] at hOutput
    exact ⟨c, hAccepted ▸ hAll, hOutput⟩

/-! ## Examples -/

def zeroKey : Session := (zeroKeyChannel []).session

def firstFrame : Bytes :=
  match (zeroKey.send plainPrimitives [9] : Outcome Empty _) with
  | .ok (packet, _) => lenBytes packet.length ++ packet
  | _ => []

theorem opens_firstFrame : Opens plainPrimitives zeroKey [firstFrame] [[9]] := by
  obtain ⟨packet, s, hSend⟩ :
      ∃ packet s, (zeroKey.send plainPrimitives [9] : Outcome Empty _) = ok (packet, s) :=
    ⟨_, _, rfl⟩
  obtain ⟨s', hRecv, -⟩ :=
    (zeroKeyChannel_aligned [] []).recv plainPrimitives_gcmCorrect hSend
  have hLen : packet.length ≤ maxFrame := by
    rw [Session.send_packet hSend, plainPrimitives_sealed_length]
    decide
  rw [firstFrame, hSend]
  exact .cons hLen hRecv .nil

/-- A message comes, one goes out, and then the stream ends. -/
theorem nothing_dropped_exchange : ∃ b,
    Run (step plainPrimitives) (fun b e => b.orderly [firstFrame] e = true) (start zeroKey []) b ∧
    b.loop = .returned ∧ b.inbox = [[9]] ∧
    ∃ c, (channelOf zeroKey).sendAll plainPrimitives [[5]] = ok c ∧
      c.stream.output = b.written := by
  obtain ⟨b, hRun, hTest⟩ := exists_run_of_exec (step plainPrimitives)
    (fun b e => b.orderly [firstFrame] e = true) (start zeroKey [])
    ([.read firstFrame] ++ replicate 7 .work ++ [.send [5]] ++ replicate 6 .work ++
      [.finish, .work, .notify, .notify])
    (fun b => (b.work plainPrimitives).isNone && decide (b.notifying = 0 ∧ b.loop = .returned ∧
      b.accepted = [[5]] ∧ b.failed = false ∧ whole [firstFrame] b.received.length = 1))
    (by decide +kernel)
  obtain ⟨hNone, hTest⟩ := Bool.and_eq_true_iff.mp hTest
  obtain ⟨hQuiet, hLoop, hAccepted, hFailed, hWhole⟩ := of_decide_eq_true hTest
  obtain ⟨hInbox, hSent⟩ :=
    (nothing_dropped opens_firstFrame hRun).2.2.2 ⟨Option.isNone_iff_eq_none.mp hNone, hQuiet⟩
  rw [hWhole] at hInbox
  rw [hAccepted] at hSent
  exact ⟨b, hRun, hLoop, hInbox, hSent hFailed⟩

/-- The stream ends after a complete message was read; after a plaintext was accepted; and an
incoming message does not come to its end. -/
theorem not_nothing_dropped :
    (∃ b, Run (step plainPrimitives) Always (start zeroKey []) b ∧ b.loop = .returned ∧
      b.received = firstFrame ∧ b.inbox = [] ∧ b.failed = false) ∧
    (∃ b, Run (step plainPrimitives) Always (start zeroKey []) b ∧ b.loop = .returned ∧
      b.accepted = [[5]] ∧ b.written = [] ∧ b.failed = false) ∧
    ∃ b, Run (step plainPrimitives) Always (start zeroKey []) b ∧ b.Resting plainPrimitives ∧
      b.received <+: firstFrame ∧ b.accepted = [[5]] ∧ b.written = [] ∧ b.failed = false := by
  refine ⟨?_, ?_, ?_⟩
  · obtain ⟨b, hRun, hTest⟩ := exists_run_of_exec (step plainPrimitives) Always (start zeroKey [])
      [.read firstFrame, .finish, .work, .work]
      (fun b => decide (b.loop = .returned ∧ b.received = firstFrame ∧ b.inbox = [] ∧
        b.failed = false))
      (by decide +kernel)
    exact ⟨b, hRun, of_decide_eq_true hTest⟩
  · obtain ⟨b, hRun, hTest⟩ := exists_run_of_exec (step plainPrimitives) Always (start zeroKey [])
      [.work, .send [5], .finish, .work]
      (fun b => decide (b.loop = .returned ∧ b.accepted = [[5]] ∧ b.written = [] ∧
        b.failed = false))
      (by decide +kernel)
    exact ⟨b, hRun, of_decide_eq_true hTest⟩
  · obtain ⟨b, hRun, hTest⟩ := exists_run_of_exec (step plainPrimitives) Always (start zeroKey [])
      [.read (firstFrame.take 1), .notify, .work, .work, .work, .work, .send [5], .work]
      (fun b => (b.work plainPrimitives).isNone && decide (b.notifying = 0 ∧
        b.received <+: firstFrame ∧ b.accepted = [[5]] ∧ b.written = [] ∧ b.failed = false))
      (by decide +kernel)
    obtain ⟨hNone, hTest⟩ := Bool.and_eq_true_iff.mp hTest
    obtain ⟨hQuiet, hTest⟩ := of_decide_eq_true hTest
    exact ⟨b, hRun, ⟨Option.isNone_iff_eq_none.mp hNone, hQuiet⟩, hTest⟩

end Bridge

end DirectWire.Moq
