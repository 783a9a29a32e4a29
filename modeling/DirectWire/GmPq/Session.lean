import DirectWire.GmPq.Crypto

/-!
# GM-PQ — transport session

`handshake/session.rs`: the sliding replay window and the session a finished
handshake leaves. `Session.sealed` is kept beside the code: it lists the
SM4-GCM encryptions the session has made.

A failed `recv` may still have moved the window, so both `recv` and
`checkAndMark` return the state beside the result.
-/

namespace DirectWire.GmPq

open Lib Outcome

def windowSize : UInt64 := 64

structure ReplayWindow where
  highest : UInt64
  /-- Bit `i` says that `highest - i` has been seen. -/
  bitmap : UInt64
  initialized : Bool
deriving DecidableEq, Repr

namespace ReplayWindow

def new : ReplayWindow := ⟨0, 0, false⟩

def checkAndMark (w : ReplayWindow) (seq : UInt64) : Except Error Unit × ReplayWindow :=
  -- the first packet sets the window wherever it is
  if !w.initialized then (.ok (), ⟨seq, 1, true⟩)
  else if seq > w.highest then
    let shift := seq - w.highest
    -- a `u64` cannot be shifted by its width, so a far jump starts over
    let bitmap := if shift ≥ windowSize then 1 else (w.bitmap <<< shift) ||| 1
    (.ok (), { w with bitmap, highest := seq })
  else
    let delta := w.highest - seq
    -- too old to tell, rejected like one seen
    if delta ≥ windowSize then (.error .replay, w)
    else
      let bit : UInt64 := 1 <<< delta
      if w.bitmap &&& bit ≠ 0 then (.error .replay, w)
      else (.ok (), { w with bitmap := w.bitmap ||| bit })

end ReplayWindow

structure Session where
  tx : Aead
  rx : Aead
  window : ReplayWindow
  sessionId : Fixed 32
  sealed : List GcmCall
deriving DecidableEq

namespace Session

def new (txKey rxKey : Fixed 16) (sessionId : Fixed 32) : Session :=
  ⟨Aead.new txKey, Aead.new rxKey, ReplayWindow.new, sessionId, []⟩

variable (P : Primitives)

def send {ε : Type} (s : Session) (plaintext : Bytes) : Outcome ε (Bytes × Session) := do
  let (packet, tx) ← s.tx.sealNext P s.sessionId.val plaintext
  ok (packet, { s with
    tx
    sealed := s.sealed ++ [s.tx.callWithSeq s.tx.txSeq s.sessionId.val plaintext] })

def recv (s : Session) (packet : Bytes) : Outcome Empty (Except Error Bytes × Session) := do
  let opened ← (s.rx.openPacket P s.sessionId.val packet).attempt
  match opened with
  -- a packet that does not open moves nothing
  | .error e => ok (.error e, s)
  | .ok (seq, plaintext) =>
    match s.window.checkAndMark seq with
    | (.ok _, window) => ok (.ok plaintext, { s with window })
    | (.error e, window) => ok (.error e, { s with window })

variable {P}

variable {packet plaintext : Bytes} {s s' : Session} {ε : Type} {r : Except Error Bytes}

section

variable (h : s.send (ε := ε) P plaintext = ok (packet, s'))

include h

theorem send_spec :
    s'.tx.key = s.tx.key ∧ s'.tx.txSeq.toNat = s.tx.txSeq.toNat + 1 ∧
      s'.sealed = s.sealed ++ [s.tx.callWithSeq s.tx.txSeq s.sessionId.val plaintext] := by
  simp only [send, Aead.sealNext] at h
  split at h
  · rename_i hFits
    cases h
    exact ⟨rfl, toNat_add_one hFits, rfl⟩
  · cases h

theorem send_packet : packet = s.tx.sealWithSeq P s.tx.txSeq s.sessionId.val plaintext := by
  simp only [send, Aead.sealNext] at h
  split at h
  · cases h
    rfl
  · cases h

theorem send_sessionId : s'.sessionId = s.sessionId := by
  obtain ⟨⟨packet, tx⟩, -, h⟩ := bind_eq_ok.mp h
  cases h
  rfl

theorem send_rx : s'.rx = s.rx := by
  obtain ⟨⟨packet, tx⟩, -, h⟩ := bind_eq_ok.mp h
  cases h
  rfl

omit h in
theorem recv_sessionId (h : s.recv P packet = ok (r, s')) : s'.sessionId = s.sessionId := by
  simp only [recv] at h
  obtain ⟨opened, -, h⟩ := bind_eq_ok.mp h
  split at h
  · cases h
    rfl
  · split at h <;> cases h <;> rfl

omit h in
theorem recv_spec (h : s.recv P packet = ok (r, s')) : s'.tx = s.tx ∧ s'.sealed = s.sealed := by
  simp only [recv] at h
  obtain ⟨opened, -, h⟩ := bind_eq_ok.mp h
  split at h
  · cases h
    exact ⟨rfl, rfl⟩
  · split at h <;> cases h <;> exact ⟨rfl, rfl⟩

theorem send_of_same {ε' : Type} {t : Session} (hTx : t.tx = s.tx) (hId : t.sessionId = s.sessionId)
    :
    ∃ t', t.send (ε := ε') P plaintext = ok (packet, t') ∧ t'.tx = s'.tx ∧
      t'.sessionId = s'.sessionId := by
  simp only [send, Aead.sealNext] at h ⊢
  rw [hTx, hId]
  split at h
  · rename_i hFits
    cases h
    rw [if_pos hFits]
    exact ⟨_, rfl, rfl, rfl⟩
  · cases h

theorem send_window : s'.window = s.window := by
  obtain ⟨⟨packet, tx⟩, -, h⟩ := bind_eq_ok.mp h
  cases h
  rfl

end

theorem recv_of_same {t : Session} (hRx : t.rx = s.rx) (hWindow : t.window = s.window)
    (hId : t.sessionId = s.sessionId) (h : s.recv P packet = ok (r, s')) :
    ∃ t', t.recv P packet = ok (r, t') ∧ t'.rx = s'.rx ∧ t'.window = s'.window ∧
      t'.sessionId = s'.sessionId := by
  obtain ⟨tx, rx, window, sessionId, sealed⟩ := t
  obtain rfl : rx = s.rx := hRx
  obtain rfl : window = s.window := hWindow
  obtain rfl : sessionId = s.sessionId := hId
  simp only [recv] at h ⊢
  obtain ⟨opened, hOpened, h⟩ := bind_eq_ok.mp h
  rw [hOpened, ok_bind]
  split at h
  · cases h
    exact ⟨_, rfl, rfl, rfl, rfl⟩
  · split at h
    · cases h
      exact ⟨_, rfl, rfl, rfl, rfl⟩
    · cases h
      exact ⟨_, rfl, rfl, rfl, rfl⟩

end Session

end DirectWire.GmPq
