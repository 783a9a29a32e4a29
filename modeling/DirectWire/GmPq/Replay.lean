import DirectWire.GmPq.Correctness
import DirectWire.Lib.BitWindow
import DirectWire.Lib.Run

/-!
# GM-PQ — replay protection

What the 64-bit window of `handshake/session.rs` is for: to remember as much of the accepted
sequence numbers as is needed to accept none of them again. `Acceptable` is that purpose over the
whole list, `Tracks` relates it to the window.
-/

namespace DirectWire.GmPq

open Lib Outcome List

/-! ## The window and the numbers it stands for -/

/-- A number may be accepted after `accepted`: it is new, and it is the first
or larger than the largest minus 64. -/
def Acceptable (accepted : List UInt64) (seq : UInt64) : Prop :=
  seq ∉ accepted ∧
    (accepted = [] ∨ ∃ largest ∈ accepted, (∀ k ∈ accepted, k ≤ largest) ∧
      (largest.toNat : Int) - 64 < seq.toNat)

def acceptedSet (accepted : List UInt64) : Set Nat := {n | ∃ seq ∈ accepted, seq.toNat = n}

theorem mem_acceptedSet {accepted seq} : seq.toNat ∈ acceptedSet accepted ↔ seq ∈ accepted := by
  constructor
  · rintro ⟨k, hk, hEq⟩
    rwa [← UInt64.toNat_inj.mp hEq]
  · intro h
    exact ⟨seq, h, rfl⟩

theorem acceptedSet_append (accepted : List UInt64) (seq : UInt64) :
    acceptedSet (accepted ++ [seq]) = insert seq.toNat (acceptedSet accepted) := by
  ext n
  simp only [acceptedSet, Set.mem_ofPred_eq, mem_append, mem_singleton, Set.mem_insert_iff]
  constructor
  · rintro ⟨k, hk | rfl, rfl⟩
    · exact .inr ⟨k, hk, rfl⟩
    · exact .inl rfl
  · rintro (rfl | ⟨k, hk, rfl⟩)
    · exact ⟨seq, .inr rfl, rfl⟩
    · exact ⟨k, .inl hk, rfl⟩

inductive Tracks : ReplayWindow → List UInt64 → Prop where
  | empty : Tracks ReplayWindow.new []
  | some {w accepted} : w.initialized = true →
      Represents 64 (acceptedSet accepted) w.highest.toNat w.bitmap.toNat → Tracks w accepted

theorem acceptable_iff {w : ReplayWindow} {accepted : List UInt64} {seq : UInt64}
    (hRep : Represents 64 (acceptedSet accepted) w.highest.toNat w.bitmap.toNat) :
    Acceptable accepted seq ↔ seq ∉ accepted ∧ w.highest.toNat < seq.toNat + 64 := by
  have hMem : w.highest ∈ accepted := mem_acceptedSet.mp hRep.greatest.1
  have hTop : ∀ k ∈ accepted, k ≤ w.highest := fun k hk =>
    UInt64.le_iff_toNat_le.mpr (hRep.greatest.2 (mem_acceptedSet.mpr hk))
  refine and_congr_right fun _ => ?_
  constructor
  · rintro (hNil | ⟨largest, -, hLargest, hNear⟩)
    · rw [hNil] at hMem
      cases hMem
    · have hLe := UInt64.le_iff_toNat_le.mp (hLargest w.highest hMem)
      omega
  · intro hNear
    exact .inr ⟨w.highest, hMem, hTop, by omega⟩

namespace ReplayWindow

variable {w : ReplayWindow} {accepted : List UInt64} {seq : UInt64}

theorem bit_toNat {delta} (h : delta.toNat < 64) :
    ((1 : UInt64) <<< delta).toNat = 2 ^ delta.toNat := by
  have hPow : 2 ^ delta.toNat < 2 ^ 64 := Nat.pow_lt_pow_right (by decide) h
  rw [UInt64.toNat_shiftLeft, Nat.mod_eq_of_lt h, UInt64.toNat_one, Nat.one_shiftLeft,
    Nat.mod_eq_of_lt hPow]

theorem and_bit_ne_zero {bitmap delta : UInt64} (h : delta.toNat < 64) :
    bitmap &&& (1 <<< delta) ≠ 0 ↔ bitmap.toNat.testBit delta.toNat = true := by
  rw [Ne, ← UInt64.toNat_inj, UInt64.toNat_and, bit_toNat h, Nat.and_two_pow, UInt64.toNat_zero]
  cases bitmap.toNat.testBit delta.toNat <;> simp

section

variable (hRep : Represents 64 (acceptedSet accepted) w.highest.toNat w.bitmap.toNat)

include hRep

theorem acceptable_of_gt (hGt : w.highest.toNat < seq.toNat) : Acceptable accepted seq := by
  rw [acceptable_iff hRep]
  refine ⟨fun hMem => ?_, by omega⟩
  have := hRep.greatest.2 (mem_acceptedSet.mpr hMem)
  omega

omit hRep in
theorem windowSize_le_iff {d} : d ≥ windowSize ↔ 64 ≤ d.toNat := UInt64.le_iff_toNat_le

theorem checkAndMark_above (hInit : w.initialized = true) (hLt : w.highest.toNat < seq.toNat) :
    ∃ w', w.checkAndMark seq = (.ok (), w') ∧ Tracks w' (accepted ++ [seq]) := by
  have hGt : seq > w.highest := UInt64.lt_iff_toNat_lt.mpr hLt
  have hShift : (seq - w.highest).toNat = seq.toNat - w.highest.toNat :=
    UInt64.toNat_sub_of_le _ _ (UInt64.le_iff_toNat_le.mpr hLt.le)
  by_cases hFar : seq - w.highest ≥ windowSize
  · have hJump : w.highest.toNat + 64 ≤ seq.toNat := by
      rw [windowSize_le_iff, hShift] at hFar
      omega
    refine ⟨{ w with bitmap := 1, highest := seq }, ?_, .some hInit ?_⟩
    · simp only [checkAndMark, hInit, hGt, hFar, Bool.not_true, Bool.false_eq_true, if_false,
        if_true]
    · rw [acceptedSet_append]
      exact hRep.jump hJump hLt
  · have hNear : (seq - w.highest).toNat < 64 := not_le.mp (mt windowSize_le_iff.mpr hFar)
    refine ⟨{ w with bitmap := (w.bitmap <<< (seq - w.highest)) ||| 1, highest := seq }, ?_,
      .some hInit ?_⟩
    · simp only [checkAndMark, hInit, hGt, hFar, Bool.not_true, Bool.false_eq_true, if_false,
        if_true]
    · rw [acceptedSet_append]
      show Represents 64 _ seq.toNat ((w.bitmap <<< (seq - w.highest)) ||| 1).toNat
      rw [UInt64.toNat_or, UInt64.toNat_shiftLeft, Nat.mod_eq_of_lt hNear, hShift]
      exact hRep.advance hLt

theorem checkAndMark_below (hInit : w.initialized = true) (hLe : seq.toNat ≤ w.highest.toNat) :
    (Acceptable accepted seq ∧
      ∃ w', w.checkAndMark seq = (.ok (), w') ∧ Tracks w' (accepted ++ [seq])) ∨
    (¬ Acceptable accepted seq ∧ w.checkAndMark seq = (.error .replay, w)) := by
  have hGt : ¬ seq > w.highest := mt UInt64.lt_iff_toNat_lt.mp (not_lt.mpr hLe)
  have hDelta : (w.highest - seq).toNat = w.highest.toNat - seq.toNat :=
    UInt64.toNat_sub_of_le _ _ (UInt64.le_iff_toNat_le.mpr hLe)
  rw [acceptable_iff hRep]
  by_cases hOld : w.highest - seq ≥ windowSize
  · -- too far below the top
    refine .inr ⟨?_, ?_⟩
    · rw [windowSize_le_iff, hDelta] at hOld
      omega
    · simp only [checkAndMark, hInit, hGt, hOld, Bool.not_true, Bool.false_eq_true, if_false,
        if_true]
  · have hIn : (w.highest - seq).toNat < 64 := not_le.mp (mt windowSize_le_iff.mpr hOld)
    -- inside the window the bit says whether the number was accepted
    have hBit : w.bitmap &&& (1 <<< (w.highest - seq)) ≠ 0 ↔ _ := and_bit_ne_zero hIn
    rw [hDelta, hRep.testBit_iff hLe (by omega), mem_acceptedSet] at hBit
    by_cases hSeen : w.bitmap &&& (1 <<< (w.highest - seq)) ≠ 0
    · refine .inr ⟨fun h => h.1 (hBit.mp hSeen), ?_⟩
      simp only [checkAndMark, hInit, hGt, hOld, hSeen, Bool.not_true, Bool.false_eq_true,
        if_false, if_true, ne_eq, not_false_eq_true]
    · refine .inl ⟨⟨mt hBit.mpr hSeen, by omega⟩,
        { w with bitmap := w.bitmap ||| (1 <<< (w.highest - seq)) }, ?_, .some hInit ?_⟩
      · simp only [checkAndMark, hInit, hGt, hOld, hSeen, Bool.not_true, Bool.false_eq_true,
          if_false]
      · rw [acceptedSet_append]
        show Represents 64 _ w.highest.toNat (w.bitmap ||| (1 <<< (w.highest - seq))).toNat
        rw [UInt64.toNat_or, bit_toNat hIn, hDelta]
        exact hRep.mark hLe

end

/-- **One call.** It accepts exactly the acceptable numbers, and the window
stands for the accepted ones again. -/
theorem checkAndMark_spec (hTracks : Tracks w accepted) (seq : UInt64) :
    (Acceptable accepted seq ∧
      ∃ w', w.checkAndMark seq = (.ok (), w') ∧ Tracks w' (accepted ++ [seq])) ∨
    (¬ Acceptable accepted seq ∧ w.checkAndMark seq = (.error .replay, w)) := by
  cases hTracks with
  | empty =>
    -- the first number is accepted wherever it is
    refine .inl ⟨⟨not_mem_nil, .inl rfl⟩, ⟨seq, 1, true⟩, rfl, .some rfl ?_⟩
    have hSet : acceptedSet ([] ++ [seq]) = {seq.toNat} := by
      ext n
      simp [acceptedSet, eq_comm]
    rw [hSet]
    exact Represents.first 64 seq.toNat
  | some hInit hRep =>
    by_cases hLt : w.highest.toNat < seq.toNat
    · exact .inl ⟨acceptable_of_gt hRep hLt, checkAndMark_above hRep hInit hLt⟩
    · exact checkAndMark_below hRep hInit (by omega)

def offer (r : ReplayWindow × List UInt64) (seq : UInt64) : ReplayWindow × List UInt64 :=
  match r.1.checkAndMark seq with
  | (.ok _, w) => (w, r.2 ++ [seq])
  | (.error _, w) => (w, r.2)

def offerAll (seqs : List UInt64) : ReplayWindow × List UInt64 := seqs.foldl offer (new, [])

theorem offer_tracks (r : ReplayWindow × List UInt64) (h : Tracks r.1 r.2) (seq : UInt64) :
    Tracks (offer r seq).1 (offer r seq).2 := by
  rcases checkAndMark_spec h seq with ⟨-, w', hCall, hNext⟩ | ⟨-, hCall⟩
  · rw [offer, hCall]
    exact hNext
  · rw [offer, hCall]
    exact h

theorem offerAll_tracks (seqs : List UInt64) : Tracks (offerAll seqs).1 (offerAll seqs).2 := by
  suffices ∀ r : ReplayWindow × List UInt64, Tracks r.1 r.2 →
      Tracks (seqs.foldl offer r).1 (seqs.foldl offer r).2 from this (new, []) .empty
  induction seqs with
  | nil =>
    intro r h
    exact h
  | cons seq seqs ih =>
    intro r h
    exact ih (offer r seq) (offer_tracks r h seq)

theorem checkAndMark_eq_ok_iff (hTracks : Tracks w accepted) (seq : UInt64) :
    (w.checkAndMark seq).1 = .ok () ↔ Acceptable accepted seq := by
  rcases checkAndMark_spec hTracks seq with ⟨hYes, w', hCall, -⟩ | ⟨hNo, hCall⟩
  · simp [hCall, hYes]
  · simp [hCall, hNo]

theorem checkAndMark_error {e w'} (h : w.checkAndMark seq = (.error e, w')) : w' = w := by
  unfold checkAndMark at h
  split at h
  · cases h
  · split at h
    · cases h
    · simp only at h
      split at h
      · cases h
        rfl
      · split at h
        · cases h
          rfl
        · cases h

end ReplayWindow

/-! ## One direction of a session -/

/-- What a call of `recv` does: it fails and changes nothing, or it returns
the plaintext of a packet that opens under an acceptable number. -/
theorem Session.recv_cases {P : Primitives} {s s' : Session} {packet : Bytes}
    {r : Except Error Bytes} (h : s.recv P packet = ok (r, s')) :
    (∃ e, r = .error e ∧ s' = s) ∨
    (∃ seq plaintext w, s.rx.openPacket P s.sessionId.val packet = ok (seq, plaintext) ∧
      s.window.checkAndMark seq = (.ok (), w) ∧ r = .ok plaintext ∧
      s' = { s with window := w }) := by
  rw [recv, bind_eq_ok] at h
  obtain ⟨opened, hOpen, h⟩ := h
  cases opened with
  | error e =>
    cases h
    exact .inl ⟨e, rfl, rfl⟩
  | ok res =>
    obtain ⟨seq, plaintext⟩ := res
    simp only at h
    split at h
    · rename_i w hMark
      cases h
      exact .inr ⟨seq, plaintext, w, attempt_eq_ok_ok.mp hOpen, hMark, rfl, rfl⟩
    · rename_i e w hMark
      cases h
      refine .inl ⟨e, rfl, ?_⟩
      rw [ReplayWindow.checkAndMark_error hMark]

theorem Session.send_cases {P : Primitives} {s s' : Session} {plaintext packet : Bytes}
    (h : (s.send P plaintext : Outcome Empty _) = ok (packet, s')) :
    packet = s.tx.sealWithSeq P s.tx.txSeq s.sessionId.val plaintext ∧
      s'.tx.key = s.tx.key ∧ s'.rx = s.rx ∧ s'.window = s.window ∧
      s'.sessionId = s.sessionId := by
  rw [send, bind_eq_ok] at h
  obtain ⟨⟨sealed, tx⟩, hSeal, hRet⟩ := h
  rw [Aead.sealNext] at hSeal
  split at hSeal
  · cases hSeal
    cases hRet
    exact ⟨rfl, rfl, rfl, rfl, rfl⟩
  · cases hSeal

/-- The two ends of a session, seen in one direction, with what was sent and
what was returned so far. -/
structure Channel where
  sender : Session
  receiver : Session
  /-- The packets of the sender, each with its plaintext. -/
  sent : List (Bytes × Bytes)
  /-- The packets `recv` accepted, each with the plaintext it returned. -/
  returned : List (Bytes × Bytes)

/-- Both ends send and receive; the network delivers any bytes to either. -/
inductive ChannelEvent where
  | send (plaintext : Bytes)
  | deliver (packet : Bytes)
  | sendBack (plaintext : Bytes)
  | deliverBack (packet : Bytes)

namespace Channel

variable (P : Primitives)

structure Fresh (c : Channel) : Prop where
  matching : Matching c.sender c.receiver
  window : c.receiver.window = ReplayWindow.new
  sent : c.sent = []
  returned : c.returned = []

def received (c : Channel) (packet : Bytes) (r : Except Error Bytes × Session) : Channel :=
  match r with
  | (.ok plaintext, receiver) =>
    { c with receiver, returned := c.returned ++ [(packet, plaintext)] }
  | (.error _, receiver) => { c with receiver }

def step (c : Channel) : ChannelEvent → Option Channel
  | .send plaintext =>
    (c.sender.send P plaintext : Outcome Empty _).toOption.map fun r =>
      { c with sender := r.2, sent := c.sent ++ [(r.1, plaintext)] }
  | .deliver packet => (c.receiver.recv P packet).toOption.map (c.received packet)
  | .sendBack plaintext =>
    (c.receiver.send P plaintext : Outcome Empty _).toOption.map fun r =>
      { c with receiver := r.2 }
  | .deliverBack packet =>
    (c.sender.recv P packet).toOption.map fun r => { c with sender := r.2 }

/-- The cipher opens only packets of the matching seal: a packet that opens
at the receiver is one the sender has sent. -/
def OpensOnlySent (c : Channel) : ChannelEvent → Prop
  | .deliver packet =>
    (c.receiver.rx.openPacket P c.receiver.sessionId.val packet).toOption.isSome →
      packet ∈ c.sent.map Prod.fst
  | _ => True

instance decidableOpensOnlySent (c : Channel) (e : ChannelEvent) :
    Decidable (OpensOnlySent P c e) :=
  match e with
  | .deliver packet =>
    inferInstanceAs (Decidable (_ = true → packet ∈ c.sent.map Prod.fst))
  | .send _ | .sendBack _ | .deliverBack _ => .isTrue trivial

structure Inv (c : Channel) : Prop where
  matching : Matching c.sender c.receiver
  -- a sent packet is its plaintext sealed
  sealed : ∀ r ∈ c.sent, ∃ seq, r.1 = c.sender.tx.sealWithSeq P seq c.sender.sessionId.val r.2
  -- a returned packet has opened under an accepted number
  opened : ∃ accepted, Tracks c.receiver.window accepted ∧
    ∀ r ∈ c.returned, ∃ seq ∈ accepted,
      c.receiver.rx.openPacket P c.receiver.sessionId.val r.1 = ok (seq, r.2)
  once : (c.returned.map Prod.fst).Nodup
  own : ∀ r ∈ c.returned, r ∈ c.sent

variable {P} {c c' : Channel}

theorem Fresh.inv (h : c.Fresh) : c.Inv P := by
  refine ⟨h.matching, ?_, ⟨[], ?_, ?_⟩, ?_, ?_⟩
  · simp [h.sent]
  · rw [h.window]
    exact .empty
  all_goals simp [h.returned]

theorem Inv.sender {s new} (hInv : c.Inv P) (hKey : s.tx.key = c.sender.tx.key)
    (hRx : s.rx = c.sender.rx) (hId : s.sessionId = c.sender.sessionId)
    (hNew : ∀ r ∈ new, ∃ seq, r.1 = c.sender.tx.sealWithSeq P seq c.sender.sessionId.val r.2) :
    { c with sender := s, sent := c.sent ++ new }.Inv P := by
  have hSeal : ∀ seq aad plaintext,
      s.tx.sealWithSeq P seq aad plaintext = c.sender.tx.sealWithSeq P seq aad plaintext := by
    intro seq aad plaintext
    simp only [Aead.sealWithSeq, Aead.callWithSeq, hKey]
  refine ⟨?_, fun r hr => ?_, hInv.opened, hInv.once, fun r hr => ?_⟩
  · exact ⟨hId.trans hInv.matching.sessionId, hKey.trans hInv.matching.txRx,
      (congrArg Aead.key hRx).trans hInv.matching.rxTx⟩
  · show ∃ seq, r.1 = s.tx.sealWithSeq P seq s.sessionId.val r.2
    simp only [hSeal, hId]
    rcases mem_append.mp hr with hOld | hr
    · exact hInv.sealed r hOld
    · exact hNew r hr
  · exact mem_append_left _ (hInv.own r hr)

theorem Inv.opens_own (hInv : c.Inv P) (hGcm : P.GcmCorrect) {packet plaintext seq}
    (hSent : packet ∈ c.sent.map Prod.fst)
    (hOpen : c.receiver.rx.openPacket P c.receiver.sessionId.val packet = ok (seq, plaintext)) :
    (packet, plaintext) ∈ c.sent := by
  obtain ⟨⟨p, own⟩, hMem, rfl⟩ := mem_map.mp hSent
  obtain ⟨q, hSealed⟩ := hInv.sealed (p, own) hMem
  simp only at hSealed hOpen
  rw [hSealed, ← hInv.matching.sessionId,
    Aead.openPacket_sealWithSeq hGcm _ _ hInv.matching.txRx.symm] at hOpen
  cases hOpen
  exact hMem

theorem Inv.receiver {s} (hInv : c.Inv P) (hKey : s.tx.key = c.receiver.tx.key)
    (hRx : s.rx = c.receiver.rx) (hWindow : s.window = c.receiver.window)
    (hId : s.sessionId = c.receiver.sessionId) : { c with receiver := s }.Inv P := by
  refine ⟨⟨?_, ?_, ?_⟩, hInv.sealed, ?_, hInv.once, hInv.own⟩
  · exact hInv.matching.sessionId.trans hId.symm
  · exact hInv.matching.txRx.trans (congrArg Aead.key hRx).symm
  · exact hInv.matching.rxTx.trans hKey.symm
  · show ∃ accepted, Tracks s.window accepted ∧ ∀ r ∈ c.returned, ∃ seq ∈ accepted,
      s.rx.openPacket P s.sessionId.val r.1 = ok (seq, r.2)
    rw [hRx, hWindow, hId]
    exact hInv.opened

theorem Inv.accept (hInv : c.Inv P) (hGcm : P.GcmCorrect) {packet plaintext seq w}
    (hSent : packet ∈ c.sent.map Prod.fst)
    (hOpen : c.receiver.rx.openPacket P c.receiver.sessionId.val packet = ok (seq, plaintext))
    (hMark : c.receiver.window.checkAndMark seq = (.ok (), w)) :
    (c.received packet (.ok plaintext, { c.receiver with window := w })).Inv P := by
  obtain ⟨accepted, hTracks, hOpened⟩ := hInv.opened
  obtain ⟨hNew, w', hCall, hNext⟩ | ⟨-, hCall⟩ := ReplayWindow.checkAndMark_spec hTracks seq
  swap
  · rw [hMark] at hCall
    cases hCall
  rw [hMark] at hCall
  cases hCall
  refine ⟨⟨hInv.matching.sessionId, hInv.matching.txRx, hInv.matching.rxTx⟩, hInv.sealed,
    ⟨accepted ++ [seq], hNext, fun q hq => ?_⟩, ?_, fun q hq => ?_⟩
  · rcases mem_append.mp hq with hOld | hq
    · obtain ⟨k, hk, hk'⟩ := hOpened q hOld
      exact ⟨k, mem_append_left _ hk, hk'⟩
    · rw [mem_singleton.mp hq]
      exact ⟨seq, by simp, hOpen⟩
  · -- a packet returned before has opened under a number accepted before
    show ((c.returned ++ [(packet, plaintext)]).map Prod.fst).Nodup
    rw [map_append, nodup_append']
    refine ⟨hInv.once, nodup_singleton _, ?_⟩
    rw [map_singleton, disjoint_singleton]
    intro hAgain
    obtain ⟨q, hq, rfl⟩ := mem_map.mp hAgain
    obtain ⟨k, hk, hk'⟩ := hOpened q hq
    rw [hOpen] at hk'
    cases hk'
    exact hNew.1 hk
  · rcases mem_append.mp hq with hOld | hq
    · exact hInv.own q hOld
    · rw [mem_singleton.mp hq]
      exact hInv.opens_own hGcm hSent hOpen

/-- **One step** keeps the invariant. -/
theorem step_inv (hGcm : P.GcmCorrect) {e} (hInv : c.Inv P) (hOnly : OpensOnlySent P c e)
    (h : step P c e = some c') : c'.Inv P := by
  cases e with
  | send plaintext =>
    obtain ⟨⟨packet, s⟩, hSend, rfl⟩ := Option.map_eq_some_iff.mp h
    obtain ⟨rfl, hKey, hRx, -, hId⟩ := Session.send_cases (toOption_eq_some.mp hSend)
    refine hInv.sender hKey hRx hId fun r hr => ?_
    rw [mem_singleton.mp hr]
    exact ⟨_, rfl⟩
  | deliver packet =>
    obtain ⟨⟨r, s⟩, hRecv, rfl⟩ := Option.map_eq_some_iff.mp h
    rcases Session.recv_cases (toOption_eq_some.mp hRecv) with
      ⟨e, rfl, rfl⟩ | ⟨seq, plaintext, w, hOpen, hMark, rfl, rfl⟩
    · exact hInv
    · have hSent : packet ∈ c.sent.map Prod.fst := hOnly (by rw [hOpen]; rfl)
      exact hInv.accept hGcm hSent hOpen hMark
  | sendBack plaintext =>
    obtain ⟨⟨packet, s⟩, hSend, rfl⟩ := Option.map_eq_some_iff.mp h
    obtain ⟨-, hKey, hRx, hWindow, hId⟩ := Session.send_cases (toOption_eq_some.mp hSend)
    exact hInv.receiver hKey hRx hWindow hId
  | deliverBack packet =>
    obtain ⟨⟨r, s⟩, hRecv, rfl⟩ := Option.map_eq_some_iff.mp h
    have hSame : s.tx = c.sender.tx ∧ s.rx = c.sender.rx ∧ s.sessionId = c.sender.sessionId := by
      rcases Session.recv_cases (toOption_eq_some.mp hRecv) with
        ⟨e, -, rfl⟩ | ⟨seq, plaintext, w, -, -, -, rfl⟩
      · exact ⟨rfl, rfl, rfl⟩
      · exact ⟨rfl, rfl, rfl⟩
    obtain ⟨hTx, hRx, hId⟩ := hSame
    -- nothing is sent
    have hNext : { c with sender := s, sent := c.sent ++ [] }.Inv P :=
      hInv.sender (congrArg Aead.key hTx) hRx hId (by simp)
    rwa [append_nil] at hNext

end Channel

/-- **Replay protection.** The window accepts a number exactly if it is `Acceptable` after those it
has accepted. If the AEAD opens what it has sealed, and in a run of a channel nothing but that
(`OpensOnlySent`), no packet is returned twice, and each with the plaintext it was sent with. A
`recv` that fails changes nothing. -/
theorem replay_protection (P : Primitives) :
    (∀ (seqs : List UInt64) (seq : UInt64),
      ((ReplayWindow.offerAll seqs).1.checkAndMark seq).1 = .ok () ↔
        Acceptable (ReplayWindow.offerAll seqs).2 seq) ∧
    (P.GcmCorrect → ∀ c₀ c : Channel, c₀.Fresh →
      Run (Channel.step P) (Channel.OpensOnlySent P) c₀ c →
      (c.returned.map Prod.fst).Nodup ∧ ∀ r ∈ c.returned, r ∈ c.sent) ∧
    (∀ (s s' : Session) (packet : Bytes) (e : Error),
      s.recv P packet = ok (.error e, s') → s' = s) := by
  refine ⟨fun seqs seq => ?_, fun hGcm c₀ c hFresh hRun => ?_, fun s s' packet e h => ?_⟩
  · exact ReplayWindow.checkAndMark_eq_ok_iff (ReplayWindow.offerAll_tracks seqs) seq
  · have hInv := hRun.invariant hFresh.inv fun _ _ _ h hOnly => Channel.step_inv hGcm h hOnly
    exact ⟨hInv.once, hInv.own⟩
  · rcases Session.recv_cases h with ⟨-, -, hSame⟩ | ⟨seq, plaintext, w, -, -, hOk, -⟩
    · exact hSame
    · cases hOk

def plainChannel : Channel :=
  ⟨Session.new (padTo 16 [1]) (padTo 16 [2]) (padTo 32 [3]),
    Session.new (padTo 16 [2]) (padTo 16 [1]) (padTo 32 [3]), [], []⟩

/-- Of three messages the network delivers the last twice and the first: two are returned. -/
theorem replay_protection_plain :
    let packet (seq : UInt64) (plaintext : Bytes) :=
      plainChannel.sender.tx.sealWithSeq plainPrimitives seq plainChannel.sender.sessionId.val
        plaintext
    ∃ c, Run (Channel.step plainPrimitives) (Channel.OpensOnlySent plainPrimitives)
        plainChannel c ∧
      c.returned = [(packet 2 [7], [7]), (packet 0 [5], [5])] ∧
      (c.returned.map Prod.fst).Nodup ∧ ∀ r ∈ c.returned, r ∈ c.sent := by
  intro packet
  obtain ⟨c, hRun, hReturned⟩ := exists_run_of_exec (Channel.step plainPrimitives)
    (Channel.OpensOnlySent plainPrimitives) plainChannel
    [.send [5], .send [6], .send [7], .deliver (packet 2 [7]), .deliver (packet 0 [5]),
      .deliver (packet 2 [7]), .deliver [1, 2, 3]]
    (fun c => c.returned == [(packet 2 [7], [7]), (packet 0 [5], [5])]) (by decide)
  have hFresh : plainChannel.Fresh := ⟨⟨rfl, rfl, rfl⟩, rfl, rfl, rfl⟩
  obtain ⟨hOnce, hOwn⟩ :=
    (replay_protection plainPrimitives).2.1 plainPrimitives_gcmCorrect plainChannel c hFresh hRun
  exact ⟨c, hRun, beq_iff_eq.mp hReturned, hOnce, hOwn⟩

end DirectWire.GmPq
