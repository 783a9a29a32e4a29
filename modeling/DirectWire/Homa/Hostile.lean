import DirectWire.Lib.Run
import DirectWire.Homa.Receiver

/-!
# Homa — reassembly of hostile input

The receiver core alone, fed by anyone. The bounds check of `handle_data` compares a payload with
the length stated in **its own** packet, while the buffer was sized by the **first** packet of the
message; it also lets a payload run over the end of its slot. A message is safe as long as every
write to an existing entry stays inside that entry (`WriteFits`).
-/

namespace DirectWire.Homa

open Lib Outcome ReceiverCore

/-! ## The exposed core -/

inductive ExposedEvent where
  | datagram (src : SocketAddr) (bytes : Bytes) (ord : HashOrder MsgKey)
  | tick (ord : HashOrder MsgKey)

/-- The receiver core and the clock. The core is a panic once a call has
panicked. -/
structure Exposed where
  core : Outcome Empty ReceiverCore
  now : Instant

namespace Exposed

def init (cfg : TransportConfig) (now : Instant) : Exposed := ⟨ok (new cfg), now⟩

def call (checks : Bool) (c : ReceiverCore) (now : Instant) :
    ExposedEvent → Outcome Empty (ReceiverCore × List Action)
  | .datagram src bytes ord =>
    match Packet.decode bytes with
    | .ok (pkt, payload) => c.handleData checks ord src pkt payload now
    | .err _ => ok (c, [])
    | .panic p => panic p
  | .tick ord => c.tick checks ord now

/-- One call under a clock that does not go back. Nothing is called after a
panic. -/
def step (checks : Bool) (x : Exposed) (e : Instant × ExposedEvent) : Option Exposed :=
  match x.core with
  | .ok c =>
    -- the core reads no clock of its own: `now` is an argument of each call
    if x.now ≤ e.1 then some ⟨(call checks c e.1 e.2) >>= fun r => ok r.1, e.1⟩ else none
  | .err _ => none
  | .panic _ => none

def Intact (x : Exposed) : Prop :=
  ∃ c, x.core = ok c ∧ ∀ key m, c.incoming.lookup key = some m →
    m.buf.length = m.totalLen ∧ m.receivedBytes ≤ m.totalLen

end Exposed

/-! ## What keeps the calls from panicking -/

structure Body.Sound (b : Body) : Prop where
  buf_length : b.buf.length = b.totalLen
  receivedBytes_le : b.receivedBytes ≤ b.totalLen
  totalLen_le : b.totalLen ≤ maxMsgLen

/-- The sums a call may take fit their types: due times of the starvation
heap, and grants. -/
structure Representable (cfg : TransportConfig) (now : Instant) : Prop where
  due : now + cfg.starveThreshold ≤ instantMax
  grant : maxMsgLen + cfg.grantIncrement < usizeBound

/-- A packet that is written to an existing entry stays inside it, and does
not bring its count above its length. -/
def WriteFits (c : ReceiverCore) (src : SocketAddr) (pkt : Packet) (payload : Bytes) : Prop :=
  ∀ m ∈ c.incoming.lookup (src, pkt.msgId),
    (src, pkt.msgId) ∉ c.completed → pkt.msgLen.toNat ≤ maxMsgLen → pkt.msgLen.toNat ≠ 0 →
    m.takes c.cfg.packetSize pkt payload = true →
      pkt.offset.toNat + payload.length ≤ m.totalLen ∧ m.receivedBytes + payload.length ≤ m.totalLen

instance (cfg : TransportConfig) (now : Instant) : Decidable (Representable cfg now) :=
  decidable_of_iff
    (now + cfg.starveThreshold ≤ instantMax ∧ maxMsgLen + cfg.grantIncrement < usizeBound)
    ⟨fun h => ⟨h.1, h.2⟩, fun h => ⟨h.due, h.grant⟩⟩

instance (c : ReceiverCore) (src : SocketAddr) (pkt : Packet) (payload : Bytes) :
    Decidable (WriteFits c src pkt payload) :=
  inferInstanceAs (Decidable (∀ m ∈ c.incoming.lookup (src, pkt.msgId), _))

namespace ReceiverCore

structure Bounded (cfg : TransportConfig) (c : ReceiverCore) : Prop where
  cfg_eq : c.cfg = cfg
  bodies : ∀ key b, c.bodyAt key = some b → b.Sound

variable {cfg : TransportConfig} {c c' : ReceiverCore} {checks force : Bool}
  {ord : HashOrder MsgKey} {now : Instant} {key : MsgKey} {out : List Action}
  {src : SocketAddr} {pkt : Packet} {payload : Bytes}

variable {m : InMsg} {size : Nat}

theorem Bounded.lookup (h : Bounded cfg c) (hm : c.incoming.lookup key = some m) : m.body.Sound :=
  h.bodies key m.body (by simp [bodyAt, hm])

theorem Bounded.same (h : Bounded cfg c) (hSame : SameBodies c c') : Bounded cfg c' :=
  ⟨hSame.cfg.trans h.cfg_eq, fun key b hb => h.bodies key b (hSame.bodyAt key ▸ hb)⟩

theorem Bounded.sheds (h : Bounded cfg c) (hSheds : Sheds c c') : Bounded cfg c' := by
  refine ⟨hSheds.cfg.trans h.cfg_eq, fun key b hb => ?_⟩
  rcases hSheds.bodyAt key with hSame | hGone
  · exact h.bodies key b (hSame ▸ hb)
  · rw [hGone] at hb
    cases hb

theorem Bounded.update {x} (h : Bounded cfg c) (hCfg : c'.cfg = c.cfg)
    (hUpdate : ∀ k, c'.bodyAt k = if k = key then x else c.bodyAt k)
    (hx : ∀ b, x = some b → b.Sound) : Bounded cfg c' := by
  refine ⟨hCfg.trans h.cfg_eq, fun k b hb => ?_⟩
  rw [hUpdate] at hb
  split at hb
  · exact hx b hb
  · exact h.bodies k b hb

section

variable (h : Bounded cfg c) (hRep : Representable cfg now)

include h hRep

theorem pushStarve_noPanic : (c.pushStarve key now).NoPanic := by
  have hDue : now + c.cfg.starveThreshold ≤ instantMax := h.cfg_eq ▸ hRep.due
  rw [pushStarve, noPanic_bind]
  exact ⟨noPanic_addInstant.mpr hDue, fun _ _ => noPanic_ok _⟩

theorem issueGrant_noPanic : (issueGrant checks now force c key).NoPanic := by
  unfold issueGrant
  split
  · simp
  · rename_i msg hm
    have hSound := h.lookup hm
    -- a sound message is short, so its grant fits
    have hSum : msg.receivedBytes + c.cfg.grantIncrement < usizeBound := by
      have hBytes : msg.receivedBytes ≤ msg.totalLen := hSound.receivedBytes_le
      have hLen : msg.totalLen ≤ maxMsgLen := hSound.totalLen_le
      have hGrant := hRep.grant
      rw [h.cfg_eq]
      omega
    dsimp only
    split
    · simp
    · rw [addU_of_lt hSum, ok_bind]
      split
      · simp
      · rw [noPanic_bind]
        refine ⟨pushStarve_noPanic (h.same (sameBodies_insert hm (by rfl))) hRep, ?_⟩
        exact fun _ _ => noPanic_ok _

omit h hRep in
theorem remainings_noPanic (entries : List (MsgKey × InMsg))
    (h : ∀ e ∈ entries, e.2.receivedBytes ≤ e.2.totalLen) :
    (remainings checks entries).NoPanic := by
  induction entries with
  | nil => simp [remainings]
  | cons e rest ih =>
    obtain ⟨k, m⟩ := e
    have hm : m.receivedBytes ≤ m.totalLen := h (k, m) (by simp)
    have hRest := ih fun e he => h e (List.mem_cons_of_mem _ he)
    rw [remainings]
    split
    · -- `total_len - received_bytes`: with the count bounded it does not underflow
      rw [InMsg.remaining, subU_of_le hm, ok_bind, noPanic_bind]
      exact ⟨hRest, fun _ _ => noPanic_ok _⟩
    · exact hRest

theorem schedule_noPanic : (schedule checks ord now c).NoPanic := by
  have hCounts : ∀ e ∈ c.entries ord, e.2.receivedBytes ≤ e.2.totalLen :=
    fun e he => (h.lookup (mem_entries he)).receivedBytes_le
  rw [schedule, noPanic_bind]
  refine ⟨remainings_noPanic _ hCounts, fun cands _ => ?_⟩
  -- the grants keep every body, so the next grant starts from a bounded core
  apply noPanic_forEach (I := Bounded cfg)
  · exact fun s k hs => issueGrant_noPanic hs hRep
  · exact fun s k s' out hs hGrant => hs.same (issueGrant_moves hGrant).same
  · exact ⟨h.cfg_eq, h.bodies⟩

theorem starveCheck_noPanic : (starveCheck checks ord now c).NoPanic := by
  unfold starveCheck
  dsimp only
  split
  · exact schedule_noPanic ⟨h.cfg_eq, h.bodies⟩ hRep
  · simp

theorem advance_noPanic {isNew} : (c.advance checks ord now key isNew).NoPanic := by
  unfold advance
  split
  · exact schedule_noPanic h hRep
  · split
    · exact issueGrant_noPanic h hRep
    · simp

theorem tickKey_noPanic : (tickKey checks now c key).NoPanic := by
  unfold tickKey
  split
  · simp
  · rename_i msg hm
    dsimp only
    split
    · simp
    · split
      · simp
      · split
        · split
          · exact issueGrant_noPanic (h.same (sameBodies_insert hm (by rfl))) hRep
          · simp
        · simp

theorem tick_noPanic (checks : Bool) (ord : HashOrder MsgKey) :
    (tick checks ord c now).NoPanic := by
  -- a tick of one key may drop an entry, and changes no other body
  have hKeep : ∀ s k s' out, Bounded cfg s → tickKey checks now s k = ok (s', out) →
      Bounded cfg s' :=
    fun s k s' out hs hTick => hs.sheds (tickKey_moves hTick).sheds
  rw [tick, noPanic_bind]
  refine ⟨noPanic_forEach (I := Bounded cfg)
    (fun s k hs => tickKey_noPanic hs hRep) hKeep _ h, fun r hLoop => ?_⟩
  obtain ⟨t, o₁⟩ := r
  have hBounded : Bounded cfg t :=
    (forEach_spec (I := Bounded cfg) (Q := fun _ => True)
      (fun s k s' out hs hTick => ⟨hKeep s k s' out hs hTick, fun _ _ => trivial⟩) h hLoop).1
  rw [noPanic_bind]
  exact ⟨schedule_noPanic hBounded hRep, fun _ _ => noPanic_ok _⟩

end

/-! ## One write -/

theorem new_sound {len unscheduled} (hLen : len ≤ maxMsgLen) :
    (InMsg.new len size unscheduled now).body.Sound :=
  ⟨List.length_replicate, Nat.zero_le _, hLen⟩

theorem Bounded.entryFor_sound (src : SocketAddr) (now : Instant) (h : Bounded cfg c)
    (hLen : pkt.msgLen.toNat ≤ maxMsgLen) :
    (c.entryFor src pkt now).body.Sound := by
  unfold entryFor
  cases hm : c.incoming.lookup (src, pkt.msgId) with
  | some => exact h.lookup hm
  | none => exact new_sound hLen

/-- For a new entry this is the bounds check of the code. -/
theorem entryFor_room (now : Instant) (hFits : WriteFits c src pkt payload)
    (hCompleted : (src, pkt.msgId) ∉ c.completed) (hLen : pkt.msgLen.toNat ≤ maxMsgLen)
    (hNonzero : pkt.msgLen.toNat ≠ 0)
    (hTakes : (c.entryFor src pkt now).takes c.cfg.packetSize pkt payload = true) :
    pkt.offset.toNat + payload.length ≤ (c.entryFor src pkt now).totalLen ∧
      (c.entryFor src pkt now).receivedBytes + payload.length ≤
        (c.entryFor src pkt now).totalLen := by
  unfold entryFor at hTakes ⊢
  cases hm : c.incoming.lookup (src, pkt.msgId) with
  | some m =>
    rw [hm] at hTakes
    exact hFits m hm hCompleted hLen hNonzero hTakes
  | none =>
    rw [hm] at hTakes
    -- a new entry has the length the packet states, and counts nothing yet
    have hEnd : pkt.offset.toNat + payload.length ≤ pkt.msgLen.toNat := by
      simp only [InMsg.takes, Bool.and_eq_true, decide_eq_true_eq] at hTakes
      exact hTakes.2
    simp only [Option.getD_none, InMsg.new]
    omega

theorem write_noPanic (hSound : m.body.Sound)
    (hRoom : m.takes size pkt payload = true → pkt.offset.toNat + payload.length ≤ m.totalLen) :
    (m.write size pkt payload now).NoPanic := by
  unfold InMsg.write
  split
  · rename_i hTakes
    have hBuf : m.buf.length = m.totalLen := hSound.buf_length
    rw [noPanic_bind]
    refine ⟨noPanic_overwrite.mpr ?_, fun _ _ => noPanic_ok _⟩
    rw [hBuf]
    exact hRoom hTakes
  · simp

theorem write_cases {m'} (h : m.write size pkt payload now = ok m') :
    (m.takes size pkt payload = true ∧ pkt.offset.toNat + payload.length ≤ m.buf.length ∧
      m'.buf.length = m.buf.length ∧ m'.totalLen = m.totalLen ∧
      m'.receivedBytes = m.receivedBytes + payload.length) ∨
    (m.takes size pkt payload = false ∧ m' = m) := by
  unfold InMsg.write at h
  split at h
  · rename_i hTakes
    rw [bind_eq_ok] at h
    obtain ⟨buf, hBuf, h⟩ := h
    cases h
    obtain ⟨hLen, rfl⟩ := overwrite_eq_ok.mp hBuf
    refine .inl ⟨hTakes, hLen, ?_, rfl, rfl⟩
    simp
    omega
  · rename_i hTakes
    cases h
    exact .inr ⟨by simpa using hTakes, rfl⟩

theorem write_sound {m'} (hSound : m.body.Sound)
    (hRoom : m.takes size pkt payload = true → m.receivedBytes + payload.length ≤ m.totalLen)
    (h : m.write size pkt payload now = ok m') : m'.body.Sound := by
  rcases write_cases h with ⟨hTakes, -, hBuf, hLen, hBytes⟩ | ⟨-, rfl⟩
  · refine ⟨?_, ?_, ?_⟩
    · exact hBuf.trans (hSound.buf_length.trans hLen.symm)
    · have := hRoom hTakes
      simp only [InMsg.body]
      omega
    · exact hLen.trans_le hSound.totalLen_le
  · exact hSound

/-! ## One DATA packet -/

theorem openEntry_noPanic (h : Bounded cfg c) (hRep : Representable cfg now) :
    (c.openEntry key pkt.msgLen.toNat now).NoPanic := by
  unfold openEntry
  split
  · simp
  · rw [noPanic_bind]
    exact ⟨pushStarve_noPanic h hRep, fun _ _ => noPanic_ok _⟩

theorem openEntry_bounded {t} (h : Bounded cfg c) (hLen : pkt.msgLen.toNat ≤ maxMsgLen)
    (hOpen : c.openEntry (src, pkt.msgId) pkt.msgLen.toNat now = ok (t, m)) : Bounded cfg t := by
  rcases openEntry_eq hOpen with ⟨-, rfl⟩ | ⟨-, rfl, rfl⟩
  · exact h
  · refine h.update rfl (bodyAt_insert c _ · _) fun b hb => ?_
    cases hb
    exact new_sound hLen

theorem Bounded.deliver {data} (h : Bounded cfg c) : Bounded cfg (c.deliver key src data).1 :=
  h.update (deliver_cfg c key src data) (deliver_bodyAt c key · src data) (by simp)

theorem handleData_noPanic (checks : Bool) (ord : HashOrder MsgKey) (h : Bounded cfg c)
    (hRep : Representable cfg now)
    (hFits : WriteFits c src pkt payload) :
    (handleData checks ord c src pkt payload now).NoPanic := by
  unfold handleData
  dsimp only
  split
  · simp
  -- packets of a completed message are answered with nothing
  rename_i hCompleted
  split
  · simp
  have hLen : pkt.msgLen.toNat ≤ maxMsgLen := by omega
  split
  · simp
  rw [noPanic_bind]
  -- from here on the core has an entry for the key, old or new
  refine ⟨openEntry_noPanic h hRep, fun ⟨t, m⟩ hOpen => ?_⟩
  have ht : Bounded cfg t := openEntry_bounded h hLen hOpen
  obtain ⟨rfl, hCfg, -⟩ := openEntry_spec hOpen
  split
  · -- the delivery of an empty message
    rw [noPanic_bind]
    exact ⟨schedule_noPanic ht.deliver hRep, fun _ _ => noPanic_ok _⟩
  rename_i hNonzero
  have hSound := h.entryFor_sound src now hLen
  have hRoom := fun hTakes => entryFor_room now hFits hCompleted hLen hNonzero hTakes
  rw [← hCfg] at hRoom
  rw [noPanic_bind]
  refine ⟨write_noPanic hSound fun hTakes => (hRoom hTakes).1, fun m hWrite => ?_⟩
  have hSound' := write_sound hSound (fun hTakes => (hRoom hTakes).2) hWrite
  split
  · rw [noPanic_bind]
    exact ⟨schedule_noPanic ht.deliver hRep, fun _ _ => noPanic_ok _⟩
  · have hStored : Bounded cfg { t with incoming := t.incoming.insert (src, pkt.msgId) m } := by
      refine ht.update rfl (bodyAt_insert t _ · m) fun b hb => ?_
      cases hb
      exact hSound'
    rw [noPanic_bind]
    -- the grants, and then the starved messages, see the stored entry
    refine ⟨advance_noPanic hStored hRep, fun ⟨u, grants⟩ hAdv => ?_⟩
    have hu : Bounded cfg u := hStored.same (advance_moves hAdv).same
    rw [noPanic_bind]
    exact ⟨starveCheck_noPanic hu hRep, fun _ _ => noPanic_ok _⟩

theorem handleData_bounded (h : Bounded cfg c) (hFits : WriteFits c src pkt payload)
    (hData : handleData checks ord c src pkt payload now = ok (c', out)) : Bounded cfg c' := by
  cases handleData_cases hData with
  | ignored => exact h
  | empty _ hCfg hBodies => exact h.update hCfg hBodies (by simp)
  | completes _ _ _ _ _ hCfg hBodies => exact h.update hCfg hBodies (by simp)
  -- the only case in which a body with new bytes stays in the core
  | stores hFresh hNonzero hLen hWrite _ hCfg hBodies _ =>
    refine h.update hCfg hBodies fun b hb => ?_
    cases hb
    exact write_sound (h.entryFor_sound src now hLen)
      (fun hTakes => (entryFor_room now hFits hFresh hLen hNonzero hTakes).2) hWrite

end ReceiverCore

namespace Exposed

variable {cfg : TransportConfig} {x x' : Exposed} {checks : Bool} {t₀ : Instant}

/-! ## Runs -/

/-- The condition on one event: the sums a call may take fit their types,
and a packet that decodes fits the entry it is written to. -/
def Admissible (x : Exposed) (e : Instant × ExposedEvent) : Prop :=
  match x.core, e.2 with
  | .ok c, .datagram src bytes _ =>
    Representable c.cfg e.1 ∧ ∀ r ∈ Packet.decoded bytes, WriteFits c src r.1 r.2
  | .ok c, .tick _ => Representable c.cfg e.1
  | _, _ => True

instance : (x : Exposed) → (e : Instant × ExposedEvent) → Decidable (Admissible x e)
  | ⟨.ok _, _⟩, (_, .datagram _ _ _) => inferInstanceAs (Decidable (_ ∧ _))
  | ⟨.ok c, _⟩, (now, .tick _) => inferInstanceAs (Decidable (Representable c.cfg now))
  | ⟨.panic _, _⟩, _ => .isTrue trivial

def Alive (cfg : TransportConfig) (x : Exposed) : Prop := ∃ c, x.core = ok c ∧ c.Bounded cfg

theorem Alive.intact (h : Alive cfg x) : Intact x := by
  obtain ⟨c, hc, hBounded⟩ := h
  refine ⟨c, hc, fun key m hm => ?_⟩
  have hSound := hBounded.lookup hm
  exact ⟨hSound.buf_length, hSound.receivedBytes_le⟩

theorem call_alive (checks : Bool) {c now t e} (h : c.Bounded cfg)
    (hOk : Admissible ⟨ok c, t⟩ (now, e)) : ∃ r, call checks c now e = ok r ∧ r.1.Bounded cfg := by
  cases e with
  | datagram src bytes ord =>
    obtain ⟨hRep, hFits⟩ := hOk
    rw [h.cfg_eq] at hRep
    cases hDec : Packet.decode bytes with
    | ok r =>
      obtain ⟨pkt, payload⟩ := r
      have hFit : WriteFits c src pkt payload :=
        hFits (pkt, payload) (Packet.decoded_eq_some.mpr hDec)
      obtain ⟨r, hr⟩ := exists_ok_of_noPanic (handleData_noPanic checks ord h hRep hFit)
      exact ⟨r, by simp only [call, hDec, hr], handleData_bounded h hFit hr⟩
    -- the receive loop drops a datagram that does not decode
    | err => exact ⟨(c, []), by simp only [call, hDec], h⟩
    | panic p => exact absurd hDec (Packet.decode_noPanic bytes p)
  | tick ord =>
    have hRep : Representable cfg now := h.cfg_eq ▸ hOk
    obtain ⟨r, hr⟩ := exists_ok_of_noPanic (tick_noPanic h hRep checks ord)
    exact ⟨r, hr, h.sheds (tick_moves hr).sheds⟩

theorem step_alive {e : Instant × ExposedEvent} (h : Alive cfg x) (hOk : Admissible x e)
    (hStep : step checks x e = some x') : Alive cfg x' := by
  obtain ⟨core, now⟩ := x
  obtain ⟨c, rfl, hBounded⟩ := h
  simp only [step] at hStep
  split at hStep
  · cases hStep
    obtain ⟨r, hr, hr'⟩ := call_alive checks hBounded hOk
    exact ⟨r.1, by simp [hr], hr'⟩
  · cases hStep

/-- **Panic-free reassembly.** Anybody sends anything, as long as each event is `Admissible`: a
packet that is filed in an existing entry ends inside it and does not raise its count above its
length, and the sums of clock, threshold and increment can be represented. Then no call panics,
every buffer has the length of its message, and no message counts more bytes than it has. -/
theorem run_intact (h : Run (step checks) Admissible (init cfg t₀) x) : Intact x := by
  -- induction over the run; the start has no entries at all
  refine (h.invariant (I := Alive cfg) ?_ fun s s' e hs hOk hStep =>
    step_alive hs hOk hStep).intact
  refine ⟨new cfg, rfl, rfl, fun key b hb => ?_⟩
  simp [new, bodyAt] at hb

/-- A DATA datagram from the address `1:1`. -/
def hostilePacket (msgId : UInt64) (msgLen offset : UInt32) (payload : Bytes) : ExposedEvent :=
  .datagram (.v4 1 1)
    (Packet.encode ⟨.data, 0, msgId, msgLen, offset, UInt32.ofNat payload.length⟩ payload)
    (.stored _)

def panicked (x : Exposed) : Option Panic :=
  match x.core with
  | .panic p => some p
  | .ok _ => none

theorem core_of_panicked {p} (h : x.panicked = some p) : x.core = panic p := by
  unfold panicked at h
  split at h
  · rename_i hc
    cases h
    exact hc
  · cases h

/-- One packet of an eight-byte message, and a tick: the entry holds it. -/
theorem run_intact_one_packet : ∃ x c m,
    Run (step true) Admissible (init sampleCfg 0) x ∧ x.core = ok c ∧
    c.incoming.lookup (.v4 1 1, 1) = some m ∧ m.receivedBytes = 4 ∧ Intact x := by
  obtain ⟨x, hRun, hTest⟩ := exists_run_of_exec (step true) Admissible (init sampleCfg 0)
    [(0, hostilePacket 1 8 0 [1, 2, 3, 4]), (20, .tick (.stored _))]
    (fun x => match x.core with
      | .ok c => (c.incoming.lookup (.v4 1 1, 1)).any fun m : InMsg => m.receivedBytes == 4
      | .panic _ => false)
    (by decide +kernel)
  have hIntact : Intact x := run_intact hRun
  obtain ⟨c, hc, -⟩ := hIntact
  rw [hc] at hTest
  obtain ⟨m, hm, hBytes⟩ := (Option.any_eq_true _ _).mp hTest
  exact ⟨x, c, m, hRun, hc, hm, by simpa using hBytes, run_intact hRun⟩

/-- A second packet that states a larger length is copied past the end of the buffer. Two payloads
of 24 bytes at offsets 0 and 4 of a message of 40 bytes are both filed, and the schedule of a tick
takes `40 - 48`. -/
theorem not_run_intact :
    (∃ x, Run (step true) Always (init sampleCfg 0) x ∧ x.core = panic .outOfRange) ∧
    (∃ x, Run (step true) Always (init sampleCfg 0) x ∧ x.core = panic .overflow) ∧
    ¬ ∀ x, Run (step true) Always (init sampleCfg 0) x → Intact x := by
  obtain ⟨x, hRun, hTest⟩ := exists_run_of_exec (step true) Always (init sampleCfg 0)
    [(0, hostilePacket 1 8 0 [1, 2, 3, 4]), (0, hostilePacket 1 100 4 (List.replicate 50 0))]
    (fun x => decide (x.panicked = some .outOfRange))
    (by decide +kernel)
  obtain ⟨y, hRun', hTest'⟩ := exists_run_of_exec (step true) Always (init sampleCfg 0)
    [(0, hostilePacket 2 60 0 (List.replicate 45 0)),
      (0, hostilePacket 1 40 0 (List.replicate 24 0)),
      (0, hostilePacket 1 40 4 (List.replicate 24 0)), (0, .tick (.stored _))]
    (fun x => decide (x.panicked = some .overflow))
    (by decide +kernel)
  have hPanic : x.core = panic .outOfRange := core_of_panicked (of_decide_eq_true hTest)
  have hPanic' : y.core = panic .overflow := core_of_panicked (of_decide_eq_true hTest')
  refine ⟨⟨x, hRun, hPanic⟩, ⟨y, hRun', hPanic'⟩, fun hAll => ?_⟩
  obtain ⟨c, hc, -⟩ := hAll x hRun
  rw [hPanic] at hc
  cases hc

end Exposed

end DirectWire.Homa
