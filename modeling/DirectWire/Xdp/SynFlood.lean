import DirectWire.Xdp.Admission
import DirectWire.Xdp.Kernel

/-!
# XDP edge — the two SYN flood checks

The simulator and the BPF program count the SYNs and ACKs of a source in a window and judge them
alike, except that the simulator saturates the product of the ACKs and the ratio, and the BPF
program wraps it around.
-/

namespace DirectWire.Xdp

open Lib Outcome

namespace SynFloodGuard

variable {checks isSyn isAck : Bool} {g : SynFloodGuard} {srcIp : UInt32} {now : UInt64}

/-- The window of a source after a packet. -/
def counted (g : SynFloodGuard) (srcIp : UInt32) (isSyn isAck : Bool) (now : UInt64) : SynWindow :=
  let w := g.windowAt srcIp now
  if isSyn then { w with syn := w.syn + 1 }
  else if isAck then { w with ack := w.ack + 1 }
  else w

def judged (g : SynFloodGuard) (srcIp : UInt32) (w : SynWindow) : SynFloodGuard :=
  { g with
    windows := g.windows.insert srcIp w
    flaggedSources :=
      if g.isFlood w && w.syn == g.synThreshold then g.flaggedSources + 1 else g.flaggedSources }

/-- No counter is at its end. -/
structure Fits (g : SynFloodGuard) (srcIp : UInt32) (now : UInt64) : Prop where
  syn : (g.windowAt srcIp now).syn.toNat + 1 < 2 ^ 32
  ack : (g.windowAt srcIp now).ack.toNat + 1 < 2 ^ 32
  flagged : g.flaggedSources.toNat + 1 < 2 ^ 64

theorem observe_eq (hFits : g.Fits srcIp now ∨ checks = false) :
    g.observe checks srcIp isSyn isAck now =
      ok (g.judged srcIp (g.counted srcIp isSyn isAck now),
        g.isFlood (g.counted srcIp isSyn isAck now)) := by
  have hSyn : addU32 checks (g.windowAt srcIp now).syn 1 = (ok _ : Outcome Empty _) :=
    if_pos (hFits.imp_left Fits.syn)
  have hAck : addU32 checks (g.windowAt srcIp now).ack 1 = (ok _ : Outcome Empty _) :=
    if_pos (hFits.imp_left Fits.ack)
  have hFlagged : addU64 checks g.flaggedSources 1 = (ok _ : Outcome Empty _) :=
    if_pos (hFits.imp_left Fits.flagged)
  unfold observe judged counted
  cases isSyn <;> cases isAck <;> dsimp only <;>
    simp only [hSyn, hAck, hFlagged, ok_bind, Bool.false_eq_true, if_true, if_false] <;>
    split <;> rfl

end SynFloodGuard

/-! ## The verdicts -/

/-- The window of the simulator that stands for one of the BPF program. -/
def Kernel.SynWindow.image (w : Kernel.SynWindow) : Xdp.SynWindow := ⟨w.syn, w.ack, w.startNs, true⟩

theorem le_sub_iff {a b c : UInt64} (h : c ≤ b) : a ≤ b - c ↔ a.toNat ≤ b.toNat - c.toNat := by
  rw [UInt64.le_iff_toNat_le, UInt64.toNat_sub_of_le _ _ h]

/-- The two checks, with the time of the last packet. -/
structure SynPair where
  maps : Kernel.Maps
  guard : SynFloodGuard
  clock : UInt64

namespace SynPair

variable {checks : Bool} {s s' : SynPair} {env : Kernel.Env} {frame : Kernel.Frame}

def start (maps : Kernel.Maps) : SynPair :=
  ⟨{ maps with synTrack := ∅ },
    .new maps.config.synWindowNs maps.config.synThreshold maps.config.synAckRatio, 0⟩

/-- The call for the packet of a frame. -/
def observe (checks : Bool) (g : SynFloodGuard) (env : Kernel.Env) (frame : Kernel.Frame) :
    Outcome Empty (SynFloodGuard × Bool) :=
  g.observe checks frame.saddr (frame.syn && !frame.ack) frame.ack env.nowNs

def step (checks : Bool) (s : SynPair) (e : Kernel.Env × Kernel.Frame) : Option SynPair :=
  match observe checks s.guard e.1 e.2 with
  | .ok (guard, _) => some ⟨(s.maps.synCheck e.1 e.2).1, guard, e.1.nowNs⟩
  | .err _ | .panic _ => none

/-- Time does not go back, the sources fit into the map of the BPF program, and no product or
counter overflows. -/
structure Ok (checks : Bool) (s : SynPair) (e : Kernel.Env × Kernel.Frame) : Prop where
  later : s.clock ≤ e.1.nowNs
  room : ∀ src, Kernel.keeps e.1.synUpdate e.2.saddr src = true
  product : ((s.guard.windowAt e.2.saddr e.1.nowNs).ack.toNat + 1) * s.guard.ackRatio.toNat < 2 ^ 32
  fits : s.guard.Fits e.2.saddr e.1.nowNs ∨ checks = false

structure Agree (s : SynPair) : Prop where
  windowNs : s.guard.windowNs = s.maps.config.synWindowNs
  threshold : s.guard.synThreshold = s.maps.config.synThreshold
  ratio : s.guard.ackRatio = s.maps.config.synAckRatio
  past : s.maps.synTrack.All fun _ w => w.startNs ≤ s.clock
  windows : ∀ src, s.guard.windows.lookup src = (s.maps.synTrack.lookup src).map (·.image)

def kernelWindowAt (m : Kernel.Maps) (src : UInt32) (now : UInt64) : Kernel.SynWindow :=
  let w := (m.synTrack.lookup src).getD ⟨0, 0, now⟩
  if m.config.synWindowNs ≤ now - w.startNs then ⟨0, 0, now⟩ else w

/-- The window the BPF program judges the packet by. -/
def kernelWindow (m : Kernel.Maps) (env : Kernel.Env) (frame : Kernel.Frame) :
    Kernel.SynWindow × Bool :=
  Kernel.synIsFlood ((m.synTrack.lookup frame.saddr).getD ⟨0, 0, env.nowNs⟩) env.nowNs
    (frame.syn && !frame.ack) frame.ack m.config

theorem synCheck_spec (m : Kernel.Maps)
    (hRoom : ∀ src, Kernel.keeps env.synUpdate frame.saddr src = true) :
    (m.synCheck env frame).2 = (kernelWindow m env frame).2 ∧
    (m.synCheck env frame).1.config = m.config ∧
    ∀ src, (m.synCheck env frame).1.synTrack.lookup src =
      if src = frame.saddr then some (kernelWindow m env frame).1 else m.synTrack.lookup src := by
  have hSource : (m.synSource env frame.saddr).config = m.config ∧
      ∀ src, (m.synSource env frame.saddr).synTrack.lookup src = if src = frame.saddr then
        some ((m.synTrack.lookup frame.saddr).getD ⟨0, 0, env.nowNs⟩)
        else m.synTrack.lookup src := by
    unfold Kernel.Maps.synSource
    split
    · rename_i hOld
      refine ⟨rfl, fun src => ?_⟩
      split
      · rename_i hSrc
        rw [hSrc, hOld]
        rfl
      · rfl
    · rename_i hNew
      rw [hNew]
      exact ⟨rfl, fun src => Kernel.lookup_lruUpdate (hRoom src)⟩
  obtain ⟨hConfig, hLookup⟩ := hSource
  have hCheck : m.synCheck env frame =
      let t := { m.synSource env frame.saddr with
        synTrack := (m.synSource env frame.saddr).synTrack.insert frame.saddr
          (kernelWindow m env frame).1 }
      if (kernelWindow m env frame).2 then (t.bumpStat .dropSyn, true) else (t, false) := by
    unfold Kernel.Maps.synCheck
    dsimp only
    rw [hLookup, if_pos rfl, hConfig]
    rfl
  have hTrack : ∀ src, ((m.synSource env frame.saddr).synTrack.insert frame.saddr
      (kernelWindow m env frame).1).lookup src = if src = frame.saddr then
        some (kernelWindow m env frame).1 else m.synTrack.lookup src := by
    intro src
    rw [Map.lookup_insert_ite, hLookup]
    split <;> rfl
  rw [hCheck]
  cases (kernelWindow m env frame).2 <;> exact ⟨rfl, hConfig, hTrack⟩

theorem windowAt_image (h : s.Agree) (src : UInt32) {now : UInt64} (hLater : s.clock ≤ now) :
    s.guard.windowAt src now = (kernelWindowAt s.maps src now).image ∧
      (kernelWindowAt s.maps src now).startNs ≤ now := by
  unfold SynFloodGuard.windowAt kernelWindowAt
  rw [h.windows, h.windowNs]
  cases hOld : s.maps.synTrack.lookup src with
  | none => simp [Kernel.SynWindow.image]
  | some w =>
    have hPast := UInt64.le_trans (h.past src w hOld) hLater
    dsimp only [Option.map_some, Option.getD_some]
    refine ⟨?_, ?_⟩
    · rw [if_congr (le_sub_iff hPast) rfl rfl, apply_ite Kernel.SynWindow.image]
      exact if_congr decide_eq_true_iff rfl rfl
    · split
      · exact UInt64.le_refl _
      · exact hPast

theorem isFlood_image {g : SynFloodGuard} {cfg : Kernel.EdgeConfig} {w : Kernel.SynWindow}
    (hThreshold : g.synThreshold = cfg.synThreshold) (hRatio : g.ackRatio = cfg.synAckRatio)
    (hProduct : w.ack.toNat * g.ackRatio.toNat < 2 ^ 32) :
    g.isFlood w.image =
      (decide (cfg.synThreshold ≤ w.syn) && decide (w.ack * cfg.synAckRatio < w.syn)) := by
  have hMul : (w.ack * cfg.synAckRatio).toNat = w.ack.toNat * g.ackRatio.toNat := by
    rw [← hRatio, UInt32.toNat_mul, Nat.mod_eq_of_lt hProduct]
  rw [SynFloodGuard.isFlood, hThreshold]
  refine congrArg _ (decide_eq_decide.mpr ?_)
  rw [UInt32.lt_iff_toNat_lt, hMul]
  exact (Nat.min_eq_left (Nat.le_of_lt_succ hProduct)).symm ▸ Iff.rfl

theorem counted_image (h : s.Agree) (hOk : Ok checks s (env, frame)) :
    s.guard.counted frame.saddr (frame.syn && !frame.ack) frame.ack env.nowNs =
        (kernelWindow s.maps env frame).1.image ∧
      s.guard.isFlood (kernelWindow s.maps env frame).1.image = (kernelWindow s.maps env frame).2 ∧
      (kernelWindow s.maps env frame).1.startNs ≤ env.nowNs := by
  obtain ⟨hWindow, hStart⟩ := windowAt_image h frame.saddr hOk.later
  have hProduct := hOk.product
  have hNext : ∀ n : UInt32, (n + 1).toNat ≤ n.toNat + 1 := by
    intro n
    rw [UInt32.toNat_add]
    exact Nat.mod_le _ _
  unfold SynFloodGuard.counted
  rw [hWindow] at hProduct ⊢
  refine ⟨?_, isFlood_image h.threshold h.ratio ((Nat.mul_le_mul_right _ ?_).trans_lt hProduct), ?_⟩
  all_goals
    unfold kernelWindow Kernel.synIsFlood
    cases frame.syn <;> cases frame.ack <;>
      first | rfl | exact hStart | exact hNext _ | exact Nat.le_succ _

theorem Agree.step {e : Kernel.Env × Kernel.Frame} (h : s.Agree) (hOk : Ok checks s e)
    (hStep : step checks s e = some s') : s'.Agree := by
  obtain ⟨hCounted, -, hStart⟩ := counted_image h hOk
  obtain ⟨-, hConfig, hTrack⟩ := synCheck_spec s.maps hOk.room
  rw [SynPair.step, observe, SynFloodGuard.observe_eq hOk.fits, hCounted] at hStep
  cases hStep
  refine ⟨hConfig ▸ h.windowNs, hConfig ▸ h.threshold, hConfig ▸ h.ratio, fun src w hw => ?_,
    fun src => ?_⟩
  · rw [hTrack] at hw
    split at hw
    · cases hw
      exact hStart
    · exact UInt64.le_trans (h.past src w hw) hOk.later
  · refine (Map.lookup_insert_ite ..).trans ?_
    rw [hTrack, h.windows]
    split <;> rfl

/-- **The two checks agree.** Time does not go back, the map keeps what is written, and the product
of ACKs and ratio fits into 32 bits (`Ok`). After any such packets, the next one gets the same
verdict from both. -/
theorem verdicts_agree {maps : Kernel.Maps} (hRun : Run (step checks) (Ok checks) (start maps) s)
    (hOk : Ok checks s (env, frame)) :
    ∃ guard, observe checks s.guard env frame = ok (guard, (s.maps.synCheck env frame).2) := by
  have h : s.Agree := hRun.invariant (I := Agree) ⟨rfl, rfl, rfl, .empty, fun _ => rfl⟩
    fun _ _ _ h hOk hStep => h.step hOk hStep
  obtain ⟨hCounted, hFlood, -⟩ := counted_image h hOk
  rw [(synCheck_spec s.maps hOk.room).1, observe, SynFloodGuard.observe_eq hOk.fits, hCounted,
    hFlood]
  exact ⟨_, rfl⟩

def synMaps (threshold ratio : UInt32) : Kernel.Maps :=
  ⟨[], [], ∅, ∅, 0, ∅, ⟨0, 0, 10, threshold, ratio, 0, 0⟩, fun _ => 0⟩

def tcpPacket (syn ack : Bool) : Kernel.Env × Kernel.Frame :=
  (⟨5, true, some fun _ => true, some fun _ => true, some fun _ => true⟩,
    ⟨60, Kernel.ethPIp, 5, 0, 40, 6, 7, 8, 9, 10, syn, ack⟩)

theorem ok_tcpPacket {syn ack : Bool} (h : s.clock ≤ 5 ∧
      ((s.guard.windowAt 7 5).ack.toNat + 1) * s.guard.ackRatio.toNat < 2 ^ 32 ∧
      (s.guard.windowAt 7 5).syn.toNat + 1 < 2 ^ 32 ∧
      (s.guard.windowAt 7 5).ack.toNat + 1 < 2 ^ 32 ∧ s.guard.flaggedSources.toNat + 1 < 2 ^ 64) :
    Ok true s (tcpPacket syn ack) :=
  ⟨h.1, fun _ => rfl, h.2.1, .inl ⟨h.2.2.1, h.2.2.2.1, h.2.2.2.2⟩⟩

/-- An ACK and two SYNs in one window, and a third SYN that is more than twice the ACKs. -/
theorem verdicts_agree_one : ∃ s guard, Run (step true) (Ok true) (start (synMaps 1 2)) s ∧
    s.guard.windowAt 7 5 = ⟨2, 1, 5, true⟩ ∧
    observe true s.guard (tcpPacket true false).1 (tcpPacket true false).2 = ok (guard, true) := by
  have hRun : Run (step true) (Ok true) (start (synMaps 1 2)) _ :=
    .step (e := tcpPacket true false) (.step (e := tcpPacket true false)
      (.step (e := tcpPacket false true) .start (ok_tcpPacket (by decide +kernel)) rfl)
      (ok_tcpPacket (by decide +kernel)) rfl) (ok_tcpPacket (by decide +kernel)) rfl
  obtain ⟨guard, hAgree⟩ := verdicts_agree hRun
    (ok_tcpPacket (by decide +kernel) : Ok true _ (tcpPacket true false))
  exact ⟨_, guard, hRun, by decide +kernel, hAgree⟩

/-- After two ACKs, and with a ratio of `2 ^ 31`, the BPF program takes a SYN for an attack. -/
theorem verdicts_differ : ∃ s guard, Run (step true) Always (start (synMaps 1 0x80000000)) s ∧
    s.clock ≤ (tcpPacket true false).1.nowNs ∧
    (∀ src, Kernel.keeps (tcpPacket true false).1.synUpdate (tcpPacket true false).2.saddr src) ∧
    observe true s.guard (tcpPacket true false).1 (tcpPacket true false).2 = ok (guard, false) ∧
    (s.maps.synCheck (tcpPacket true false).1 (tcpPacket true false).2).2 = true := by
  have hRun : Run (step true) Always (start (synMaps 1 0x80000000)) _ :=
    .step (e := tcpPacket false true) (.step (e := tcpPacket false true) .start trivial rfl)
      trivial rfl
  exact ⟨_, _, hRun, by decide, fun _ => rfl, rfl, by decide +kernel⟩

end SynPair

/-! ## The counter of attacks -/

/-- The packet opens a new window for its source. -/
def SynFloodGuard.resets (g : SynFloodGuard) (srcIp : UInt32) (now : UInt64) : Bool :=
  let w := (g.windows.lookup srcIp).getD ⟨0, 0, 0, false⟩
  !w.init || decide (g.windowNs.toNat ≤ now.toNat - w.startNs.toNat)

structure SynCall where
  srcIp : UInt32
  isSyn : Bool
  isAck : Bool
  now : UInt64

/-- The guard, the sources with a positive verdict in their window, and how many windows had one. -/
structure SynWatch where
  guard : SynFloodGuard
  clock : UInt64
  attackers : Finset UInt32
  attacks : Nat

namespace SynWatch

variable {checks : Bool} {s s' : SynWatch} {e : SynCall}

def start (windowNs : UInt64) (synThreshold ackRatio : UInt32) : SynWatch :=
  ⟨.new windowNs synThreshold ackRatio, 0, ∅, 0⟩

/-- Those of the sources whose window is still open when the call is made. -/
def known (s : SynWatch) (e : SynCall) : Finset UInt32 :=
  if s.guard.resets e.srcIp e.now then s.attackers.erase e.srcIp else s.attackers

def step (checks : Bool) (s : SynWatch) (e : SynCall) : Option SynWatch :=
  if e.now < s.clock then none
  else match s.guard.observe checks e.srcIp e.isSyn e.isAck e.now with
    | .ok (guard, true) => some ⟨guard, e.now, insert e.srcIp (s.known e),
        if e.srcIp ∈ s.known e then s.attacks else s.attacks + 1⟩
    | .ok (guard, false) => some ⟨guard, e.now, s.known e, s.attacks⟩
    | .err _ | .panic _ => none

/-- The window of the call's source after the call. -/
def counted (s : SynWatch) (e : SynCall) : SynWindow :=
  s.guard.counted e.srcIp e.isSyn e.isAck e.now

/-- The window of the call's source when the call is made. -/
def window (s : SynWatch) (e : SynCall) : SynWindow := s.guard.windowAt e.srcIp e.now

/-- A condition on the packet and the window it comes to. -/
structure Clean (s : SynWatch) (e : SynCall) : Prop where
  fits : s.guard.Fits e.srcIp e.now
  /-- The SYN that reaches the threshold meets too few ACKs. -/
  reaches : e.isSyn = true → (s.window e).syn.toNat + 1 = s.guard.synThreshold.toNat →
    (s.window e).ack.toNat * s.guard.ackRatio.toNat < s.guard.synThreshold.toNat
  /-- With the count at the threshold, only an ACK comes that makes them enough. -/
  stays : e.isSyn = false → (s.window e).syn = s.guard.synThreshold →
    s.guard.synThreshold.toNat ≤
      ((s.window e).ack.toNat + if e.isAck then 1 else 0) * s.guard.ackRatio.toNat

structure Counts (s : SynWatch) : Prop where
  positive : 0 < s.guard.synThreshold.toNat
  count : s.guard.flaggedSources.toNat = s.attacks
  attackers : s.guard.windows.All fun src w =>
    src ∈ s.attackers ↔ s.guard.synThreshold.toNat ≤ w.syn.toNat

theorem Counts.known (h : s.Counts) : e.srcIp ∈ s.known e ↔
    s.guard.synThreshold.toNat ≤ (s.guard.windowAt e.srcIp e.now).syn.toNat := by
  have hWindow : s.guard.windowAt e.srcIp e.now = if s.guard.resets e.srcIp e.now then
      ⟨0, 0, e.now, true⟩ else (s.guard.windows.lookup e.srcIp).getD ⟨0, 0, 0, false⟩ := rfl
  rw [hWindow, SynWatch.known]
  split
  · exact iff_of_false (Finset.notMem_erase _ _) (Nat.not_le.mpr h.positive)
  · rename_i hKept
    cases hOld : s.guard.windows.lookup e.srcIp with
    | none => simp [SynFloodGuard.resets, hOld] at hKept
    | some w => exact h.attackers e.srcIp w hOld

theorem mem_known_of_ne {src} (h : src ≠ e.srcIp) : src ∈ s.known e ↔ src ∈ s.attackers := by
  unfold known
  split
  · exact Finset.mem_erase.trans (and_iff_right h)
  · rfl

theorem counted_syn (hFits : s.guard.Fits e.srcIp e.now) : (s.counted e).syn.toNat =
    (s.guard.windowAt e.srcIp e.now).syn.toNat + if e.isSyn then 1 else 0 := by
  unfold counted SynFloodGuard.counted
  cases e.isSyn with
  | true => exact (UInt32.toNat_add _ _).trans (Nat.mod_eq_of_lt hFits.syn)
  | false => cases e.isAck <;> rfl

theorem counted_ack (hFits : s.guard.Fits e.srcIp e.now) (hSyn : e.isSyn = false) :
    (s.counted e).ack.toNat = (s.window e).ack.toNat + if e.isAck then 1 else 0 := by
  unfold counted SynFloodGuard.counted
  rw [hSyn]
  cases e.isAck with
  | true => exact (UInt32.toNat_add _ _).trans (Nat.mod_eq_of_lt hFits.ack)
  | false => rfl

/-- At the threshold, a SYN is judged an attack and no other packet is. -/
theorem Clean.isFlood (hClean : s.Clean e) (hAt : (s.counted e).syn = s.guard.synThreshold) :
    s.guard.isFlood (s.counted e) = e.isSyn := by
  have hSyn := counted_syn hClean.fits
  rw [hAt] at hSyn
  unfold SynFloodGuard.isFlood
  rw [hAt]
  cases hIs : e.isSyn with
  | true =>
    rw [hIs] at hSyn
    have hAck : (s.counted e).ack = (s.window e).ack := by
      rw [counted, SynFloodGuard.counted, hIs]
      rfl
    have hFew := hClean.reaches hIs hSyn.symm
    rw [← hAck] at hFew
    simpa using .inl hFew
  | false =>
    rw [hIs] at hSyn
    have hEnough := hClean.stays hIs (UInt32.toNat_inj.mp hSyn.symm)
    rw [← counted_ack hClean.fits hIs] at hEnough
    have hMax := s.guard.synThreshold.toNat_lt
    simp
    omega

theorem Counts.judged (h : s.Counts) {attackers : Finset UInt32}
    (hOwn : e.srcIp ∈ attackers ↔ s.guard.synThreshold.toNat ≤ (s.counted e).syn.toNat)
    (hOthers : ∀ src, src ≠ e.srcIp → (src ∈ attackers ↔ src ∈ s.attackers)) :
    Map.All (fun src w => src ∈ attackers ↔ s.guard.synThreshold.toNat ≤ w.syn.toNat)
      (s.guard.windows.insert e.srcIp (s.counted e)) := by
  intro src w hw
  rw [Map.lookup_insert_ite] at hw
  split at hw
  · rename_i hSrc
    cases hw
    exact hSrc ▸ hOwn
  · rename_i hSrc
    exact (hOthers src hSrc).trans (h.attackers src w hw)

theorem Counts.step (h : s.Counts) (hClean : s.Clean e) (hStep : step checks s e = some s') :
    s'.Counts := by
  have hKnown := h.known (e := e)
  have hSyn := counted_syn hClean.fits
  have hObserve : s.guard.observe checks e.srcIp e.isSyn e.isAck e.now =
      ok (s.guard.judged e.srcIp (s.counted e), s.guard.isFlood (s.counted e)) :=
    SynFloodGuard.observe_eq (.inl hClean.fits)
  unfold SynWatch.step at hStep
  split at hStep
  · cases hStep
  rw [hObserve, SynFloodGuard.judged] at hStep
  cases hFlood : s.guard.isFlood (s.counted e) with
  | true =>
    have hLe : s.guard.synThreshold.toNat ≤ (s.counted e).syn.toNat :=
      UInt32.le_iff_toNat_le.mp (of_decide_eq_true (Bool.and_eq_true_iff.mp hFlood).1)
    rw [hFlood, Bool.true_and] at hStep
    cases hStep
    refine ⟨h.positive, ?_, h.judged (iff_of_true (Finset.mem_insert_self _ _) hLe) ?_⟩
    · dsimp only
      rw [beq_eq_decide]
      by_cases hAt : (s.counted e).syn = s.guard.synThreshold
      · -- the SYN that reaches the threshold is the first to be judged an attack
        rw [← hClean.isFlood hAt, hFlood, if_pos rfl, hAt] at hSyn
        rw [if_pos (decide_eq_true hAt), toNat_add_one hClean.fits.flagged, h.count,
          if_neg (mt hKnown.mp (by omega))]
      · have hNe := mt UInt32.toNat_inj.mp hAt
        rw [if_neg (by simpa using hAt), h.count, if_pos (hKnown.mpr ?_)]
        split at hSyn <;> omega
    · intro src hSrc
      rw [Finset.mem_insert, mem_known_of_ne hSrc, or_iff_right hSrc]
  | false =>
    have hNe : e.isSyn = true → (s.counted e).syn.toNat ≠ s.guard.synThreshold.toNat := by
      intro hIs hAt
      rw [hClean.isFlood (UInt32.toNat_inj.mp hAt), hIs] at hFlood
      cases hFlood
    rw [hFlood, Bool.false_and] at hStep
    cases hStep
    refine ⟨h.positive, h.count, h.judged (hKnown.trans ?_) fun src hSrc => mem_known_of_ne hSrc⟩
    split at hSyn
    · have hNe := hNe ‹_›
      omega
    · omega

/-- **`flagged_sources` counts the attacks.** An attack is a window of a source with a positive
verdict. In a run whose packets all meet `Clean`, the SYN that brings a window to the threshold is
judged an attack and is counted, and no other packet of the window is: either its count is off the
threshold, or it is an ACK after which the verdict is negative. A threshold of 0 is reached by no
SYN. -/
theorem counts_attacks {windowNs : UInt64} {synThreshold ackRatio : UInt32}
    (hThreshold : 0 < synThreshold)
    (hRun : Run (step checks) Clean (start windowNs synThreshold ackRatio) s) :
    s.guard.flaggedSources.toNat = s.attacks :=
  (hRun.invariant (I := Counts) ⟨UInt32.lt_iff_toNat_lt.mp hThreshold, rfl, .empty⟩
    fun _ _ _ h hClean hStep => h.step hClean hStep).count

def synOf (srcIp : UInt32) (now : UInt64) : SynCall := ⟨srcIp, true, false, now⟩

theorem counts_attacks_two : ∃ s, Run (step true) Clean (start 10 2 4) s ∧
    s.attacks = 1 ∧ s.guard.flaggedSources.toNat = s.attacks := by
  have hRun : Run (step true) Clean (start 10 2 4) _ :=
    .step (e := synOf 7 1) (.step (e := synOf 7 0) .start
      ⟨⟨by decide +kernel, by decide +kernel, by decide⟩, by decide +kernel, nofun⟩ rfl)
      ⟨⟨by decide +kernel, by decide +kernel, by decide⟩, by decide +kernel, nofun⟩ rfl
  exact ⟨_, hRun, by decide +kernel, counts_attacks (by decide) hRun⟩

/-- A packet that is no SYN is counted as another attack. -/
theorem counts_twice : ∃ s, Run (step true) Always (start 10 1 4) s ∧
    s.attacks = 1 ∧ s.guard.flaggedSources = 2 := by
  have hRun : Run (step true) Always (start 10 1 4) _ :=
    .step (e := ⟨7, false, false, 1⟩) (.step (e := synOf 7 0) .start trivial rfl) trivial rfl
  exact ⟨_, hRun, by decide +kernel, rfl⟩

end SynWatch

end DirectWire.Xdp
