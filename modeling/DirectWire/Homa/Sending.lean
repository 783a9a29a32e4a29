import Mathlib.Order.Bounds.Basic
import DirectWire.Lib.Chunks
import DirectWire.Lib.Run
import DirectWire.Homa.Sender

/-!
# Homa — sending one message

A sender core with one message, and any sequence of GRANT, RESEND and BUSY packets and ticks.
-/

namespace DirectWire.Homa

open Lib Outcome List

def chunkOf (cfg : TransportConfig) (key : MsgKey) (data : Bytes) (i : Nat) : Action :=
  .send key.1 (dataPacket data key.2 (i * cfg.packetSize)
    (min (i * cfg.packetSize + cfg.packetSize) data.length))

/-- A byte of a message is in the payload of a packet among the actions. -/
def Carried (key : MsgKey) (data : Bytes) (out : List Action) (j : Nat) : Prop :=
  ∃ start stop, start ≤ j ∧ j < stop ∧ stop ≤ data.length ∧
    .send key.1 (dataPacket data key.2 start stop) ∈ out

theorem Carried.mono {key data out out' j} (h : Carried key data out j) (hSub : out ⊆ out') :
    Carried key data out' j := by
  obtain ⟨start, stop, hLo, hHi, hEnd, hMem⟩ := h
  exact ⟨start, stop, hLo, hHi, hEnd, hSub hMem⟩

namespace SenderCore

variable {cfg : TransportConfig} {key k : MsgKey} {data : Bytes} {s s' : SenderCore} {now : Instant}
  {ord : HashOrder MsgKey} {out : List Action} {m : OutMsg} {Q : Option OutMsg → Prop}

/-! ## A core with one message -/

/-- The core has at most the message `key`, of which `Q` holds. -/
structure Solo (cfg : TransportConfig) (key : MsgKey) (Q : Option OutMsg → Prop)
    (s : SenderCore) : Prop where
  cfg_eq : s.cfg = cfg
  only : ∀ k, k ≠ key → s.out.lookup k = none
  state : Q (s.out.lookup key)

variable {Q' : Option OutMsg → Prop} {fuel limit window : Nat}

theorem Solo.put (h : s.Solo cfg key Q) (hQ : Q' (some m)) :
    Solo cfg key Q' { s with out := s.out.insert key m } := by
  refine ⟨h.cfg_eq, fun k hk => ?_, ?_⟩
  · rw [Map.lookup_insert_ite, if_neg hk]
    exact h.only k hk
  · rw [Map.lookup_insert_ite, if_pos rfl]
    exact hQ

theorem solo_new (cfg : TransportConfig) (key : MsgKey) :
    (SenderCore.new cfg).Solo cfg key fun x => x = none :=
  ⟨rfl, fun _ _ => rfl, rfl⟩

theorem Solo.key_of_lookup (h : s.Solo cfg key Q) (hm : s.out.lookup k = some m) : k = key := by
  by_contra hk
  rw [h.only k hk] at hm
  cases hm

/-- A copy that a tick sends: the first chunk of a message that is sent, or the last one of a
message that is not. -/
def IsCopy (cfg : TransportConfig) (key : MsgKey) (m : OutMsg) (a : Action) : Prop :=
  (m.doneAt.isSome = true ∧ a = chunkOf cfg key m.data 0) ∨
    (m.doneAt = none ∧ a = chunkOf cfg key m.data ((m.nextSend - 1) / cfg.packetSize))

section

variable (hTouch : ∀ m now, Q (some m) → Q (some { m with lastProgress := now }))
  (hReap : ∀ m, Q (some m) → m.doneAt.isSome = true → Q none) (h : s.Solo cfg key Q)

include hTouch hReap h

omit hReap in
theorem tickKey_solo (hTick : tickKey now s k = ok (s', out)) :
    s'.Solo cfg key Q ∧ ∀ a ∈ out, ∃ m, Q (some m) ∧ IsCopy cfg key m a := by
  unfold tickKey at hTick
  split at hTick
  · cases hTick
    exact ⟨h, by simp⟩
  rename_i m hm
  obtain rfl := h.key_of_lookup hm
  have hQ : Q (some m) := hm ▸ h.state
  have hTouched : Solo cfg k Q { s with out := s.out.insert k { m with lastProgress := now } } :=
    h.put (hTouch m now hQ)
  dsimp only at hTick
  split at hTick
  · rename_i hDone
    split at hTick
    · cases hTick
      refine ⟨⟨hTouched.cfg_eq, hTouched.only, hTouched.state⟩, fun a ha => ⟨m, hQ, .inl ?_⟩⟩
      rw [mem_singleton.mp ha, chunkOf, h.cfg_eq, Nat.zero_mul, Nat.zero_add]
      exact ⟨hDone, rfl⟩
    · cases hTick
      exact ⟨h, by simp⟩
  rename_i hOpen
  split at hTick
  · cases hTick
    exact ⟨h, by simp⟩
  · cases hTick
    refine ⟨hTouched, fun a ha => ⟨m, hQ, .inr ⟨by simpa using hOpen, ?_⟩⟩⟩
    -- the chunk that holds the last byte sent
    have hOff : (if m.nextSend = 0 then 0
        else (m.nextSend - 1) / cfg.packetSize * cfg.packetSize) / cfg.packetSize =
          (m.nextSend - 1) / cfg.packetSize := by
      split
      · rename_i hZero
        rw [hZero]
      · rw [Nat.mul_div_cancel _ cfg.packetSize_pos]
    rw [mem_singleton.mp ha, chunkOf, OutMsg.chunkRange, h.cfg_eq, hOff]

omit hTouch in
theorem reap_solo : (s.reap now).Solo cfg key Q := by
  refine ⟨h.cfg_eq, fun k hk => ?_, ?_⟩
  · rw [reap, Map.lookup_retain, h.only k hk, Option.filter_none]
  · have hState := h.state
    rw [reap, Map.lookup_retain]
    cases hm : s.out.lookup key with
    | none =>
      rw [hm] at hState
      exact hState
    | some m =>
      rw [hm] at hState
      rw [Option.filter_some]
      cases hDone : m.doneAt with
      | none => exact hState
      | some =>
        dsimp only
        split
        · exact hState
        · exact hReap m hState (by rw [hDone]; rfl)

/-- A tick leaves the message as it is, or forgets it if it is sent, and emits copies of its chunks.
-/
theorem tick_solo (hTick : tick ord s now = ok (s', out)) :
    s'.Solo cfg key Q ∧ ∀ a ∈ out, ∃ m, Q (some m) ∧ IsCopy cfg key m a :=
  forEach_spec (I := Solo cfg key Q) (Q := fun a => ∃ m, Q (some m) ∧ IsCopy cfg key m a)
    (fun _ _ _ _ hI hKey => tickKey_solo hTouch hI hKey) (reap_solo hReap h) hTick

omit hReap in
theorem Solo.busy {src pkt} : (s.handleBusy src pkt now).Solo cfg key Q := by
  unfold handleBusy
  dsimp only
  split
  · exact h
  · rename_i m hm
    obtain rfl := h.key_of_lookup hm
    exact h.put (hTouch m now (hm ▸ h.state))

end

theorem tickKey_noPanic : (tickKey now s k).NoPanic := by
  unfold tickKey
  split
  · simp
  · dsimp only
    split
    · split <;> simp
    · split <;> simp

theorem tick_returns (ord : HashOrder MsgKey) (s : SenderCore) (now : Instant) :
    ∃ s' out, tick ord s now = ok (s', out) := by
  have hNoPanic : (tick ord s now).NoPanic :=
    noPanic_forEach (I := fun _ => True) (fun _ _ _ => tickKey_noPanic)
      (fun _ _ _ _ _ _ => trivial) _ trivial
  obtain ⟨⟨s', out⟩, h⟩ := exists_ok_of_noPanic hNoPanic
  exact ⟨s', out, h⟩

/-! ## The loops -/

/-- From a chunk boundary, `pump` sends the chunks that are needed. -/
theorem pumpLoop_chunks (key : MsgKey) (k : Nat) (hLimit : limit ≤ data.length)
    (hFuel : limit - min (k * cfg.packetSize) data.length ≤ fuel) :
    ∃ k', k ≤ k' ∧ limit ≤ k' * cfg.packetSize ∧
      (k' = k ∨ ∃ i, k' = i + 1 ∧ i * cfg.packetSize < limit) ∧
      pumpLoop cfg key.1 key.2 data limit fuel (min (k * cfg.packetSize) data.length) =
        ((range' k (k' - k)).map (chunkOf cfg key data),
          min (k' * cfg.packetSize) data.length) := by
  have hSize := cfg.packetSize_pos
  induction fuel generalizing k with
  | zero =>
    refine ⟨k, Nat.le_refl _, by omega, .inl rfl, ?_⟩
    rw [pumpLoop, Nat.sub_self]
    rfl
  | succ fuel ih =>
    rw [pumpLoop]
    split
    · rename_i hNext
      have hBoundary : min (k * cfg.packetSize) data.length = k * cfg.packetSize := by omega
      have hSucc : k * cfg.packetSize + cfg.packetSize = (k + 1) * cfg.packetSize := by
        rw [Nat.succ_mul]
      rw [hBoundary] at hNext hFuel ⊢
      obtain ⟨k', hLe, hReached, hLeast, hLoop⟩ := ih (k + 1) (by omega)
      dsimp only
      rw [hSucc, hLoop]
      refine ⟨k', by omega, hReached, .inr ?_, ?_⟩
      · rcases hLeast with rfl | hLeast
        · exact ⟨k, rfl, hNext⟩
        · exact hLeast
      · obtain ⟨d, rfl⟩ := Nat.exists_eq_add_of_le hLe
        rw [show k + 1 + d - (k + 1) = d by omega, show k + 1 + d - k = d + 1 by omega,
          range'_succ, map_cons, chunkOf, hSucc]
    · rename_i hStop
      refine ⟨k, Nat.le_refl _, by omega, .inl rfl, ?_⟩
      rw [Nat.sub_self]
      rfl

theorem pumpLoop_carries (cfg : TransportConfig) (key : MsgKey) {next}
    (hLimit : limit ≤ data.length) (hNext : next ≤ data.length) (hFuel : limit - next ≤ fuel) :
    limit ≤ (pumpLoop cfg key.1 key.2 data limit fuel next).2 ∧
      (pumpLoop cfg key.1 key.2 data limit fuel next).2 ≤ data.length ∧
      ∀ j, next ≤ j → j < (pumpLoop cfg key.1 key.2 data limit fuel next).2 →
        Carried key data (pumpLoop cfg key.1 key.2 data limit fuel next).1 j := by
  have hSize := cfg.packetSize_pos
  induction fuel generalizing next with
  | zero =>
    rw [pumpLoop]
    exact ⟨by omega, hNext, fun j hLo hHi => absurd hHi (Nat.not_lt.mpr hLo)⟩
  | succ fuel ih =>
    rw [pumpLoop]
    split
    · rename_i hBelow
      obtain ⟨hReached, hEnd, hRest⟩ :=
        ih (Nat.min_le_right (next + cfg.packetSize) data.length) (by omega)
      refine ⟨hReached, hEnd, fun j hLo hHi => ?_⟩
      rcases Nat.lt_or_ge j (min (next + cfg.packetSize) data.length) with hj | hj
      · exact ⟨next, _, hLo, hj, Nat.min_le_right _ _, mem_cons_self⟩
      · exact (hRest j hj hHi).mono (subset_cons_self _ _)
    · rename_i hStop
      exact ⟨Nat.not_lt.mp hStop, hNext, fun j hLo hHi => absurd hHi (Nat.not_lt.mpr hLo)⟩

theorem resendLoop_carries (cfg : TransportConfig) (key : MsgKey) {stop off}
    (hStop : stop ≤ m.data.length) (hFuel : stop - off ≤ fuel) :
    ∀ j, off / cfg.packetSize * cfg.packetSize ≤ j → j < stop → off < stop →
      Carried key m.data (resendLoop cfg key.1 key.2 m stop fuel off) j := by
  have hSize := cfg.packetSize_pos
  induction fuel generalizing off with
  | zero => exact fun j _ _ hOff => absurd hOff (by omega)
  | succ fuel ih =>
    intro j hLo hHi hOff
    have hPast := chunkRange_past m hSize (lt_of_lt_of_le hOff hStop)
    rw [resendLoop, if_pos hOff]
    simp only [OutMsg.chunkRange] at hPast ⊢
    generalize hFirst : off / cfg.packetSize * cfg.packetSize = first at hLo hPast ⊢
    have hFirstLe : first ≤ off := hFirst ▸ Nat.div_mul_le_self off cfg.packetSize
    rcases Nat.lt_or_ge j (min (first + cfg.packetSize) m.data.length) with hj | hj
    · exact ⟨first, _, hLo, hj, Nat.min_le_right _ _, mem_cons_self⟩
    · -- the chunk ends before `j`, so it is a whole one and the next round begins at its end
      have hWhole : max (min (first + cfg.packetSize) m.data.length) (first + 1) =
          first + cfg.packetSize := by omega
      have hAligned : (first + cfg.packetSize) / cfg.packetSize * cfg.packetSize =
          first + cfg.packetSize := by
        rw [← hFirst, ← Nat.succ_mul, Nat.mul_div_cancel _ hSize]
      rw [hWhole] at hPast ⊢
      have hFuel' : stop - (first + cfg.packetSize) ≤ fuel := by omega
      refine (ih hFuel' j ?_ hHi (by omega)).mono (subset_cons_self _ _)
      rw [hAligned]
      omega

/-! ## What has been reached -/

/-- The message has been sent up to the end of chunk `k - 1`, under a grant of `window` bytes. It
is forgotten only if that is all of it. -/
def Reached (cfg : TransportConfig) (data : Bytes) (window k : Nat) : Option OutMsg → Prop
  | none => data.length ≤ k * cfg.packetSize
  | some m => m.data = data ∧ m.nextSend = min (k * cfg.packetSize) data.length ∧
      (m.doneAt.isSome = true ↔ data.length ≤ k * cfg.packetSize) ∧
      (m.doneAt = none → m.grantedTo = window)

/-- `k` chunks reach the end of the window, and fewer do not. -/
def Needed (cfg : TransportConfig) (window k : Nat) : Prop :=
  window ≤ k * cfg.packetSize ∧ (k = 0 ∨ ∃ i, k = i + 1 ∧ i * cfg.packetSize < window)

theorem Needed.isLeast {k} (h : Needed cfg window k) :
    IsLeast {k | window ≤ k * cfg.packetSize} k := by
  refine ⟨h.1, fun k' hk' => ?_⟩
  rcases h.2 with rfl | ⟨i, rfl, hi⟩
  · exact Nat.zero_le _
  · have hLt : i * cfg.packetSize < k' * cfg.packetSize := lt_of_lt_of_le hi hk'
    exact Nat.lt_of_mul_lt_mul_right hLt

theorem Needed.grow {window' k} (h : Needed cfg window k) (hLe : window ≤ window')
    (hEnd : window' ≤ k * cfg.packetSize) : Needed cfg window' k := by
  refine ⟨hEnd, ?_⟩
  rcases h.2 with hZero | ⟨i, hk, hi⟩
  · exact .inl hZero
  · exact .inr ⟨i, hk, lt_of_lt_of_le hi hLe⟩

theorem reached_touch {k} (m : OutMsg) (now : Instant) (h : Reached cfg data window k (some m)) :
    Reached cfg data window k (some { m with lastProgress := now }) := h

theorem reached_reap {k} (m : OutMsg) (h : Reached cfg data window k (some m))
    (hDone : m.doneAt.isSome = true) : Reached cfg data window k none :=
  h.2.2.1.mp hDone

/-- The loop that `pump` runs. -/
def pumping (cfg : TransportConfig) (key : MsgKey) (limit : Nat) (m : OutMsg) : List Action × Nat :=
  pumpLoop cfg key.1 key.2 m.data (min limit m.data.length)
    (min limit m.data.length - m.nextSend) m.nextSend

def pumped (cfg : TransportConfig) (key : MsgKey) (limit : Nat) (now : Instant) (m : OutMsg) :
    OutMsg :=
  { m with
    nextSend := (pumping cfg key limit m).2
    grantedTo := max m.grantedTo (min limit m.data.length)
    lastProgress := now
    doneAt := if (pumping cfg key limit m).2 ≥ m.data.length then some now else none }

theorem pump_eq (hm : s.out.lookup key = some m) (hOpen : m.doneAt = none) :
    s.pump key limit now =
      ({ s with out := s.out.insert key (pumped s.cfg key limit now m) },
        (pumping s.cfg key limit m).1) := by
  unfold pump
  rw [hm]
  dsimp only
  rw [if_neg (by rw [hOpen]; simp)]
  rfl

theorem pump_reached (now : Instant) (k : Nat) (h : s.Solo cfg key fun x => x = some m)
    (hData : m.data = data) (hNext : m.nextSend = min (k * cfg.packetSize) data.length)
    (hOpen : m.doneAt = none) (hGranted : m.grantedTo ≤ limit) (hLimit : limit ≤ data.length) :
    ∃ k', k ≤ k' ∧ limit ≤ k' * cfg.packetSize ∧
      (k' = k ∨ ∃ i, k' = i + 1 ∧ i * cfg.packetSize < limit) ∧
      (s.pump key limit now).1.Solo cfg key (Reached cfg data limit k') ∧
      (s.pump key limit now).2 = (range' k (k' - k)).map (chunkOf cfg key data) := by
  obtain ⟨k', hLe, hReached, hLeast, hLoop⟩ :=
    pumpLoop_chunks key k hLimit (Nat.le_refl _)
  have hPumping : pumping cfg key limit m =
      ((range' k (k' - k)).map (chunkOf cfg key data), min (k' * cfg.packetSize) data.length) := by
    rw [pumping, hData, Nat.min_eq_left hLimit, hNext, hLoop]
  have hAfter : Reached cfg data limit k' (some (pumped cfg key limit now m)) := by
    refine ⟨hData, by rw [pumped, hPumping], ?_, fun _ => ?_⟩
    · rw [pumped, hPumping, hData]
      split
      · simp
        omega
      · simp
        omega
    · rw [pumped, hData, Nat.min_eq_left hLimit]
      exact Nat.max_eq_right hGranted
  obtain rfl := h.cfg_eq
  rw [pump_eq h.state hOpen]
  exact ⟨k', hLe, hReached, hLeast, h.put hAfter, by rw [hPumping]⟩

end SenderCore

/-! ## Runs -/

/-- A call of the sender core, with the clock reading it is made at. -/
inductive SenderEvent where
  | grant (src : SocketAddr) (pkt : Packet) (now : Instant)
  | resend (src : SocketAddr) (pkt : Packet) (now : Instant)
  | busy (src : SocketAddr) (pkt : Packet) (now : Instant)
  | tick (ord : HashOrder MsgKey) (now : Instant)

structure Outgoing where
  core : SenderCore
  /-- What the start, GRANTs and RESENDs have emitted. -/
  sent : List Action
  copies : List Action
  /-- The largest offset of a GRANT for the message. -/
  granted : Nat

namespace Outgoing

open SenderCore

def start (cfg : TransportConfig) (key : MsgKey) (data : Bytes) (retransmit : Bool)
    (now : Instant) : Outgoing :=
  let r := (SenderCore.new cfg).startInner key.1 key.2 data now retransmit
  ⟨r.1, r.2, [], 0⟩

def step (key : MsgKey) (s : Outgoing) : SenderEvent → Option Outgoing
  | .grant src pkt now =>
    let r := s.core.handleGrant src pkt now
    some
      { core := r.1
        sent := s.sent ++ r.2
        copies := s.copies
        granted :=
          if (src, pkt.msgId) = key then max s.granted pkt.offset.toNat else s.granted }
  | .resend src pkt now =>
    let r := s.core.handleResend src pkt now
    some { s with core := r.1, sent := s.sent ++ r.2 }
  | .busy src pkt now => some { s with core := s.core.handleBusy src pkt now }
  | .tick ord now =>
    match s.core.tick ord now with
    | .ok (core, out) => some { s with core, copies := s.copies ++ out }
    | .panic _ => none

def NoResend (_ : Outgoing) : SenderEvent → Prop
  | .resend _ _ _ => False
  | _ => True

variable {cfg : TransportConfig} {key : MsgKey} {data : Bytes} {retransmit : Bool} {t₀ : Instant}
  {s s' : Outgoing} {e : SenderEvent} {src : SocketAddr} {pkt : Packet} {now : Instant}

def window (cfg : TransportConfig) (data : Bytes) (granted : Nat) : Nat :=
  min data.length (max cfg.unscheduledBytes granted)

/-- `k` chunks have been sent, and that is what the window needs. -/
structure Sent (cfg : TransportConfig) (key : MsgKey) (data : Bytes) (k : Nat) (s : Outgoing) :
    Prop where
  core : s.core.Solo cfg key (Reached cfg data (window cfg data s.granted) k)
  needed : Needed cfg (window cfg data s.granted) k
  sent : s.sent = (range k).map (chunkOf cfg key data)

variable {k : Nat} {sent : List Action}

theorem range_append {k'} (h : k ≤ k') (f : Nat → Action) :
    (range k).map f ++ (range' k (k' - k)).map f = (range k').map f := by
  obtain ⟨d, rfl⟩ := Nat.exists_eq_add_of_le h
  rw [Nat.add_sub_cancel_left, ← map_append, range_eq_range', range_eq_range']
  have hAppend : range' 0 k ++ range' (0 + k) d = range' 0 (k + d) := range'_append_1
  rw [Nat.zero_add] at hAppend
  rw [hAppend]

def firstMsg (cfg : TransportConfig) (data : Bytes) (retransmit : Bool) (now : Instant) : OutMsg :=
  { data
    grantedTo := min cfg.unscheduledBytes data.length
    nextSend := 0
    doneAt := none
    lastProgress := now
    retransmit }

theorem sent_start : ∃ k, (start cfg key data retransmit t₀).Sent cfg key data k := by
  have hWindow : window cfg data 0 = min cfg.unscheduledBytes data.length := by
    rw [window, Nat.max_zero, Nat.min_comm]
  -- the core before the first `pump`
  have hSolo : Solo cfg key (fun x => x = some (firstMsg cfg data retransmit t₀))
      { SenderCore.new cfg with
        out := (SenderCore.new cfg).out.insert key (firstMsg cfg data retransmit t₀) } :=
    (solo_new cfg key).put rfl
  obtain ⟨k, -, hReached, hLeast, hCore, hOut⟩ := pump_reached t₀ 0 hSolo rfl (by simp [firstMsg])
    rfl (Nat.le_refl _) (Nat.min_le_right cfg.unscheduledBytes data.length)
  refine ⟨k, ?_, ?_, ?_⟩
  · rw [start, hWindow]
    exact hCore
  · rw [start, hWindow]
    exact ⟨hReached, hLeast⟩
  · rw [range_eq_range', ← Nat.sub_zero k]
    exact hOut

section

variable (h : s.Sent cfg key data k)

include h

theorem Sent.stays {granted} (hLe : s.granted ≤ granted)
    (hWhy : data.length ≤ k * cfg.packetSize ∨
      window cfg data granted = window cfg data s.granted) :
    Sent cfg key data k { s with granted } := by
  have hGrows : window cfg data s.granted ≤ window cfg data granted := by
    unfold window
    omega
  rcases hWhy with hAll | hSame
  · have hEnd : window cfg data granted ≤ k * cfg.packetSize :=
      (Nat.min_le_left _ _).trans hAll
    refine ⟨⟨h.core.cfg_eq, h.core.only, ?_⟩, h.needed.grow hGrows hEnd, h.sent⟩
    have hx := h.core.state
    revert hx
    cases s.core.out.lookup key with
    | none => exact id
    | some =>
      rintro ⟨hData, hNext, hDone, -⟩
      refine ⟨hData, hNext, hDone, fun hOpen => ?_⟩
      rw [hOpen] at hDone
      exact absurd (hDone.mpr hAll) (by simp)
  · refine ⟨?_, ?_, h.sent⟩
    · dsimp only
      rw [hSame]
      exact h.core
    · dsimp only
      rw [hSame]
      exact h.needed

theorem Sent.pumps {granted m} (now : Instant) (hm : s.core.out.lookup key = some m)
    (hOpen : m.doneAt = none) (hMore : window cfg data s.granted < window cfg data granted) :
    ∃ k', Sent cfg key data k'
      { core := (s.core.pump key (window cfg data granted) now).1
        sent := s.sent ++ (s.core.pump key (window cfg data granted) now).2
        copies := s.copies
        granted } := by
  have hState := h.core.state
  rw [hm] at hState
  obtain ⟨hData, hNext, -, hGranted⟩ := hState
  have hSolo : s.core.Solo cfg key fun x => x = some m := ⟨h.core.cfg_eq, h.core.only, hm⟩
  have hBelow : m.grantedTo ≤ window cfg data granted := by
    rw [hGranted hOpen]
    exact hMore.le
  obtain ⟨k', hLe, hReached, hLeast, hCore, hOut⟩ :=
    pump_reached now k hSolo hData hNext hOpen hBelow (Nat.min_le_left _ _)
  refine ⟨k', hCore, ?_, ?_⟩
  · rcases hLeast with rfl | hLeast
    · exact h.needed.grow hMore.le hReached
    · exact ⟨hReached, .inr hLeast⟩
  · dsimp only
    rw [h.sent, hOut]
    exact range_append hLe _

theorem Sent.grant (hStep : step key s (.grant src pkt now) = some s') :
    ∃ k, s'.Sent cfg key data k := by
  cases hStep
  unfold handleGrant
  dsimp only
  by_cases hKey : (src, pkt.msgId) = key
  · rw [hKey, if_pos rfl]
    have hState := h.core.state
    have hGrows : s.granted ≤ max s.granted pkt.offset.toNat := Nat.le_max_left _ _
    cases hm : s.core.out.lookup key with
    | none =>
      rw [hm] at hState
      rw [append_nil]
      exact ⟨k, h.stays hGrows (.inl hState)⟩
    | some m =>
      rw [hm] at hState
      obtain ⟨rfl, -, hDone, hGranted⟩ := hState
      dsimp only
      cases hDoneAt : m.doneAt with
      | some =>
        -- everything is sent; `pump` returns at once
        have hAll : m.data.length ≤ k * cfg.packetSize := hDone.mp (by rw [hDoneAt]; rfl)
        have hPump : s.core.pump key (min pkt.offset.toNat m.data.length) now = (s.core, []) := by
          rw [pump, hm]
          dsimp only
          rw [if_pos (by rw [hDoneAt]; rfl)]
        rw [hPump, ite_self]
        rw [append_nil]
        exact ⟨k, h.stays hGrows (.inl hAll)⟩
      | none =>
        rw [hGranted hDoneAt]
        split
        · rename_i hOld
          rw [append_nil]
          refine ⟨k, h.stays hGrows (.inr ?_)⟩
          unfold window at hOld ⊢
          omega
        · rename_i hMore
          have hNew : min pkt.offset.toNat m.data.length =
              window cfg m.data (max s.granted pkt.offset.toNat) := by
            unfold window at hMore ⊢
            omega
          rw [hNew] at hMore ⊢
          exact h.pumps now hm hDoneAt (Nat.not_le.mp hMore)
  · rw [h.core.only _ hKey, if_neg hKey]
    rw [append_nil]
    exact ⟨k, h⟩

theorem Sent.tick {ord} (hStep : step key s (.tick ord now) = some s') :
    s'.Sent cfg key data k := by
  unfold step at hStep
  dsimp only at hStep
  split at hStep
  · rename_i hTick
    cases hStep
    exact ⟨(tick_solo reached_touch reached_reap h.core hTick).1, h.needed, h.sent⟩
  · cases hStep

theorem Sent.step (hOk : NoResend s e) (hStep : step key s e = some s') :
    ∃ k, s'.Sent cfg key data k := by
  cases e with
  | grant => exact h.grant hStep
  | resend => exact hOk.elim
  | busy =>
    cases hStep
    exact ⟨k, h.core.busy reached_touch, h.needed, h.sent⟩
  | tick => exact ⟨k, h.tick hStep⟩

theorem Sent.copy {m a} (hm : Reached cfg data (window cfg data s.granted) k (some m))
    (ha : IsCopy cfg key m a) : a ∈ s.sent ∨ a = chunkOf cfg key data 0 := by
  obtain ⟨rfl, hNext, hDone, -⟩ := hm
  rcases ha with ⟨-, rfl⟩ | ⟨hOpen, rfl⟩
  · exact .inr rfl
  · have hSize := cfg.packetSize_pos
    have hPart : k * cfg.packetSize < m.data.length := by
      rw [hOpen] at hDone
      simpa using hDone
    rw [hNext, Nat.min_eq_left hPart.le]
    cases k with
    | zero => simp
    | succ i =>
      -- the last byte sent is in the last chunk sent
      have hLast : ((i + 1) * cfg.packetSize - 1) / cfg.packetSize = i := by
        rw [div_eq_slot hSize, Nat.succ_mul]
        omega
      rw [hLast, h.sent]
      exact .inl (mem_map_of_mem (mem_range.mpr (Nat.lt_succ_self i)))

end

/-- **What is granted is sent.** After any GRANT and BUSY packets and ticks, without RESENDs
(`NoResend`), the first `k` chunks were sent, once each and in order, where `k` is the least that
covers the largest grant and the unscheduled part. The message is done exactly if these are all.
Every tick returns, and repeats chunks that were sent, or the first one. -/
theorem sends_granted
    (hRun : Run (Outgoing.step key) NoResend (start cfg key data retransmit t₀) s) :
    ∃ k, IsLeast {k | min data.length (max cfg.unscheduledBytes s.granted) ≤
        k * cfg.packetSize} k ∧
      s.sent = (range k).map (chunkOf cfg key data) ∧
      (s.core.isDone key.1 key.2 = true ↔ data.length ≤ k * cfg.packetSize) ∧
      ∀ ord now, ∃ core out, s.core.tick ord now = ok (core, out) ∧
        ∀ a ∈ out, a ∈ s.sent ∨ a = chunkOf cfg key data 0 := by
  obtain ⟨k, h⟩ := hRun.invariant (I := fun s => ∃ k, s.Sent cfg key data k) sent_start (by
    rintro s s' e ⟨k, h⟩ hOk hStep
    exact h.step hOk hStep)
  refine ⟨k, h.needed.isLeast, h.sent, ?_, fun ord now => ?_⟩
  · have hState := h.core.state
    rw [isDone, Prod.mk.eta]
    cases hm : s.core.out.lookup key with
    | none =>
      rw [hm] at hState
      exact ⟨fun _ => hState, fun _ => rfl⟩
    | some =>
      rw [hm] at hState
      exact hState.2.2.1
  · obtain ⟨core, out, hTick⟩ := tick_returns ord s.core now
    refine ⟨core, out, hTick, fun a ha => ?_⟩
    obtain ⟨m, hm, hCopy⟩ := (tick_solo reached_touch reached_reap h.core hTick).2 a ha
    exact h.copy hm hCopy

instance : (s : Outgoing) → (e : SenderEvent) → Decidable (NoResend s e)
  | _, .grant _ _ _ => .isTrue trivial
  | _, .resend _ _ _ => .isFalse id
  | _, .busy _ _ _ => .isTrue trivial
  | _, .tick _ _ => .isTrue trivial

def sampleKey : MsgKey := (.v4 1 1, 1)

def tenBytes : Bytes := [0, 1, 2, 3, 4, 5, 6, 7, 8, 9]

/-- A GRANT to nine bytes of ten, and a stale one after it: three chunks of four. -/
theorem sends_granted_nine : ∃ s, Run (Outgoing.step sampleKey) NoResend
    (start sampleCfg sampleKey tenBytes false 0) s ∧ s.granted = 9 ∧
    ∃ k, IsLeast {k | min 10 (max 4 s.granted) ≤ k * 4} k ∧
      s.sent = (range k).map (chunkOf sampleCfg sampleKey tenBytes) := by
  obtain ⟨s, hRun, hTest⟩ := exists_run_of_exec (Outgoing.step sampleKey) NoResend
    (start sampleCfg sampleKey tenBytes false 0)
    [.grant (.v4 1 1) ⟨.grant, 0, 1, 0, 9, 5⟩ 1, .grant (.v4 1 1) ⟨.grant, 0, 1, 0, 5, 5⟩ 2]
    (fun s => s.granted == 9) (by decide +kernel)
  obtain ⟨k, hLeast, hSent, -⟩ := sends_granted hRun
  exact ⟨s, hRun, beq_iff_eq.mp hTest, k, hLeast, hSent⟩

/-! ## What is carried -/

/-- Everything below `next_send` has been carried, and a message that is done is at its end. -/
def Progressed (key : MsgKey) (data : Bytes) (sent : List Action) : Option OutMsg → Prop
  | none => True
  | some m => m.data = data ∧ m.nextSend ≤ data.length ∧
      (∀ j < m.nextSend, Carried key data sent j) ∧
      (m.doneAt.isSome = true → m.nextSend = data.length)

theorem progressed_touch (m : OutMsg) (now : Instant) (h : Progressed key data sent (some m)) :
    Progressed key data sent (some { m with lastProgress := now }) := h

theorem pump_progressed {core : SenderCore} (limit : Nat) (now : Instant)
    (h : core.Solo cfg key (Progressed key data sent)) :
    (core.pump key limit now).1.Solo cfg key
      (Progressed key data (sent ++ (core.pump key limit now).2)) := by
  obtain rfl := h.cfg_eq
  have hState := h.state
  cases hm : core.out.lookup key with
  | none =>
    have hNothing : core.pump key limit now = (core, []) := by rw [pump, hm]
    rw [hNothing, append_nil]
    exact h
  | some m =>
    cases hDoneAt : m.doneAt with
    | some =>
      have hNothing : core.pump key limit now = (core, []) := by
        rw [pump, hm]
        dsimp only
        rw [if_pos (by rw [hDoneAt]; rfl)]
      rw [hNothing, append_nil]
      exact h
    | none =>
      rw [hm] at hState
      obtain ⟨rfl, hEnd, hCarried, -⟩ := hState
      rw [pump_eq hm hDoneAt]
      obtain ⟨-, hLast, hLoop⟩ := pumpLoop_carries core.cfg key
        (Nat.min_le_right limit m.data.length) hEnd (Nat.le_refl _)
      have hAfter : Progressed key m.data (sent ++ (pumping core.cfg key limit m).1)
          (some (pumped core.cfg key limit now m)) := by
        refine ⟨rfl, hLast, fun j hj => ?_, fun hDone => ?_⟩
        · rcases Nat.lt_or_ge j m.nextSend with hOld | hNew
          · exact (hCarried j hOld).mono (subset_append_left _ _)
          · exact (hLoop j hNew hj).mono (subset_append_right _ _)
        · have hFull : m.data.length ≤ (pumping core.cfg key limit m).2 := by
            simpa [pumped] using hDone
          exact Nat.le_antisymm hLast hFull
      exact h.put hAfter

/-- A RESEND that moves `next_send` has something to send, from a chunk on that starts at or before
it. -/
def ResendJoins (core : SenderCore) (src : SocketAddr) (pkt : Packet) : Prop :=
  ∀ m ∈ core.out.lookup (src, pkt.msgId), m.nextSend < resendEnd m pkt →
    min pkt.offset.toNat m.data.length < resendEnd m pkt ∧
      min pkt.offset.toNat m.data.length / core.cfg.packetSize * core.cfg.packetSize ≤ m.nextSend

def NoGap (s : Outgoing) : SenderEvent → Prop
  | .resend src pkt _ => ResendJoins s.core src pkt
  | _ => True

theorem resend_progressed {core} (h : core.Solo cfg key (Progressed key data sent))
    (hJoins : ResendJoins core src pkt) :
    (core.handleResend src pkt now).1.Solo cfg key
      (Progressed key data (sent ++ (core.handleResend src pkt now).2)) := by
  unfold handleResend
  dsimp only
  split
  · rw [append_nil]
    exact h
  rename_i m hm
  obtain rfl := h.key_of_lookup hm
  have hState := h.state
  rw [hm] at hState
  obtain ⟨rfl, hEnd, hCarried, hDone⟩ := hState
  have hStop := resendEnd_le m pkt
  have hAnswer := resendLoop_carries core.cfg (src, pkt.msgId) hStop
    (Nat.le_refl (resendEnd m pkt - min pkt.offset.toNat m.data.length))
  generalize resendLoop core.cfg src pkt.msgId m (resendEnd m pkt)
    (resendEnd m pkt - min pkt.offset.toNat m.data.length) (min pkt.offset.toNat m.data.length) =
      answer at hAnswer ⊢
  have hOld : ∀ j < m.nextSend, Carried (src, pkt.msgId) m.data (sent ++ answer) j :=
    fun j hj => (hCarried j hj).mono (subset_append_left _ _)
  split
  · rename_i hMoves
    obtain ⟨hSome, hStart⟩ := hJoins m hm hMoves
    refine h.put ⟨rfl, hStop, fun j hj => ?_, fun hDone' => ?_⟩
    · rcases Nat.lt_or_ge j m.nextSend with hj' | hj'
      · exact hOld j hj'
      · exact (hAnswer j (hStart.trans hj') hj hSome).mono (subset_append_right _ _)
    · dsimp only at hDone' ⊢
      split at hDone'
      · rename_i hFull
        exact Nat.le_antisymm hStop hFull.1
      · -- a message that was done is at its end, and is not moved
        have hAt := hDone hDone'
        omega
  · exact h.put ⟨rfl, hEnd, hOld, hDone⟩

theorem progressed_start : (start cfg key data retransmit t₀).core.Solo cfg key
    (Progressed key data (start cfg key data retransmit t₀).sent) := by
  have hFirst : Progressed key data [] (some (firstMsg cfg data retransmit t₀)) :=
    ⟨rfl, Nat.zero_le _, fun j hj => absurd hj (Nat.not_lt_zero j), fun hDone => nomatch hDone⟩
  exact pump_progressed (min cfg.unscheduledBytes data.length) t₀ ((solo_new cfg key).put hFirst)

theorem progressed_step (h : s.core.Solo cfg key (Progressed key data s.sent)) (hOk : NoGap s e)
    (hStep : step key s e = some s') : s'.core.Solo cfg key (Progressed key data s'.sent) := by
  cases e with
  | grant src pkt now =>
    cases hStep
    unfold handleGrant
    dsimp only
    split
    · rw [append_nil]
      exact h
    · rename_i m hm
      obtain rfl := h.key_of_lookup hm
      split
      · rw [append_nil]
        exact h
      · exact pump_progressed _ now h
  | resend src pkt now =>
    cases hStep
    exact resend_progressed h hOk
  | busy src pkt now =>
    cases hStep
    exact h.busy progressed_touch
  | tick ord now =>
    unfold step at hStep
    dsimp only at hStep
    split at hStep
    · rename_i hTick
      cases hStep
      exact (tick_solo progressed_touch (fun _ _ _ => trivial) h hTick).1
    · cases hStep

/-- **What is done has been sent.** The message is not empty (`hSome`), and each RESEND begins at or
in front of the place that has been reached (`NoGap`). Once it is recorded as sent, every byte of it
has been carried by a packet. -/
theorem done_carries {m : OutMsg} (hSome : data ≠ [])
    (hRun : Run (Outgoing.step key) NoGap (start cfg key data retransmit t₀) s)
    (hm : s.core.out.lookup key = some m) (hDone : m.doneAt.isSome = true) :
    s.sent ≠ [] ∧ ∀ j < data.length, Carried key data s.sent j := by
  have h := hRun.invariant (I := fun s => s.core.Solo cfg key (Progressed key data s.sent))
    progressed_start fun _ _ _ hI hOk hStep => progressed_step hI hOk hStep
  have hState := h.state
  rw [hm] at hState
  obtain ⟨-, -, hCarried, hEnd⟩ := hState
  rw [hEnd hDone] at hCarried
  refine ⟨fun hNone => ?_, hCarried⟩
  -- the first byte is in some packet
  obtain ⟨_, _, _, _, _, hMem⟩ := hCarried 0 (length_pos_of_ne_nil hSome)
  rw [hNone] at hMem
  cases hMem

instance (core : SenderCore) (src : SocketAddr) (pkt : Packet) :
    Decidable (ResendJoins core src pkt) :=
  inferInstanceAs (Decidable (∀ m ∈ core.out.lookup (src, pkt.msgId), _ → _))

instance : (s : Outgoing) → (e : SenderEvent) → Decidable (NoGap s e)
  | _, .grant _ _ _ => .isTrue trivial
  | s, .resend src pkt _ => inferInstanceAs (Decidable (ResendJoins s.core src pkt))
  | _, .busy _ _ _ => .isTrue trivial
  | _, .tick _ _ => .isTrue trivial

/-- The second chunk goes out for a RESEND, and the rest for a GRANT. -/
theorem done_carries_ten : ∃ s m, Run (Outgoing.step sampleKey) NoGap
    (start sampleCfg sampleKey tenBytes false 0) s ∧
    s.core.out.lookup sampleKey = some m ∧ m.doneAt.isSome = true ∧
    ∀ j < tenBytes.length, Carried sampleKey tenBytes s.sent j := by
  obtain ⟨s, hRun, hTest⟩ := exists_run_of_exec (Outgoing.step sampleKey) NoGap
    (start sampleCfg sampleKey tenBytes false 0)
    [.resend (.v4 1 1) ⟨.resend, 0, 1, 0, 4, 4⟩ 1, .grant (.v4 1 1) ⟨.grant, 0, 1, 0, 10, 2⟩ 2]
    (fun s => (s.core.out.lookup sampleKey).any fun m => m.doneAt.isSome) (by decide +kernel)
  obtain ⟨m, hm, hDone⟩ := (Option.any_eq_true _ _).mp hTest
  exact ⟨s, m, hRun, hm, hDone, (done_carries (by decide) hRun hm hDone).2⟩

theorem second_chunk_missing :
    ¬ Carried sampleKey tenBytes
      [chunkOf sampleCfg sampleKey tenBytes 0, chunkOf sampleCfg sampleKey tenBytes 2] 4 := by
  rintro ⟨first, stop, hFirst, hStop, hEnd, hMem⟩
  have hAll : ∀ first < 5, ∀ stop < 11, 4 < stop →
      Action.send sampleKey.1 (dataPacket tenBytes sampleKey.2 first stop) ∉
        [chunkOf sampleCfg sampleKey tenBytes 0, chunkOf sampleCfg sampleKey tenBytes 2] := by
    decide +kernel
  exact hAll first (Nat.lt_succ_of_le hFirst) stop (Nat.lt_succ_of_le hEnd) hStop hMem

/-- An empty message, and a RESEND of the last two bytes of ten. -/
theorem done_not_sent :
    (((start sampleCfg sampleKey [] false 0).core.out.lookup sampleKey).any
        (fun m => m.doneAt.isSome) = true ∧
      (start sampleCfg sampleKey [] false 0).sent = [] ∧
      (start sampleCfg sampleKey [] false 0).copies = []) ∧
    ∃ s m, Run (Outgoing.step sampleKey) Always (start sampleCfg sampleKey tenBytes false 0) s ∧
      s.core.out.lookup sampleKey = some m ∧ m.doneAt.isSome = true ∧
      ¬ Carried sampleKey tenBytes (s.sent ++ s.copies) 4 := by
  refine ⟨⟨by decide, rfl, rfl⟩, ?_⟩
  obtain ⟨s, hRun, hTest⟩ := exists_run_of_exec (Outgoing.step sampleKey) Always
    (start sampleCfg sampleKey tenBytes false 0)
    [.resend (.v4 1 1) ⟨.resend, 0, 1, 0, 8, 2⟩ 1]
    (fun s => (s.core.out.lookup sampleKey).any (fun m => m.doneAt.isSome) &&
      decide (s.sent ++ s.copies =
        [chunkOf sampleCfg sampleKey tenBytes 0, chunkOf sampleCfg sampleKey tenBytes 2]))
    (by decide +kernel)
  obtain ⟨hDone, hSent⟩ := Bool.and_eq_true_iff.mp hTest
  obtain ⟨m, hm, hDone⟩ := (Option.any_eq_true _ _).mp hDone
  refine ⟨s, m, hRun, hm, hDone, ?_⟩
  rw [of_decide_eq_true hSent]
  exact second_chunk_missing

end Outgoing

end DirectWire.Homa
