import DirectWire.Lib.Platform

/-!
# Mesh — path manager

`path/mod.rs`: which of the two paths to a peer, direct or through the
relay, carries its messages. Round-trip times and loss rates are moving
averages; a switch needs a clear advantage and a minimum dwell time.

The source computes in `f64`; the model computes in `ℚ`.
-/

namespace DirectWire.Mesh

open Lib Outcome

def relayPenaltyMs : ℚ := 5

def lossWeight : ℚ := 10

inductive PathKind where
  | direct
  | relay
deriving DecidableEq, Repr

structure PathSwitch where
  source : PathKind
  target : PathKind
deriving DecidableEq, Repr

structure PathSample where
  rtt : Option Duration
  loss : Option ℚ

def ewmaSample (average v : ℚ) : ℚ := 7 / 10 * average + 3 / 10 * v

structure PathMetrics where
  rttMs : Option ℚ
  loss : Option ℚ
deriving DecidableEq

namespace PathMetrics

def default : PathMetrics := ⟨none, none⟩

def update (average : Option ℚ) (v : ℚ) : Option ℚ :=
  match average with
  | some e => some (ewmaSample e v)
  | none => some v

def sample (m : PathMetrics) (s : PathSample) : PathMetrics where
  rttMs := match s.rtt with
    | some rtt => update m.rttMs rtt.millis
    | none => m.rttMs
  loss := match s.loss with
    | some loss => update m.loss loss
    | none => m.loss

/-- The score in milliseconds; a path without a round-trip time has none. -/
def effective (m : PathMetrics) (penaltyMs : ℚ) : Option ℚ :=
  m.rttMs.map fun rtt =>
    let loss := match m.loss with
      -- `clamp`
      | some l => max 0 (min l 1)
      | none => 0
    rtt * (1 + lossWeight * loss) + penaltyMs

end PathMetrics

structure PathManager where
  active : PathKind
  directUp : Bool
  relay : PathMetrics
  direct : PathMetrics
  switchMargin : ℚ
  minDwell : Duration
  lastSwitch : Instant
deriving DecidableEq

namespace PathManager

def new {ε : Type} (instantMin now : Instant) : Outcome ε PathManager := do
  -- `Instant - Duration` panics before the first instant of the platform
  let lastSwitch ← subInstant instantMin now (3600 * second)
  ok
    { active := .relay
      directUp := false
      relay := .default
      direct := .default
      switchMargin := 8 / 10
      minDwell := 500 * 10 ^ 6
      lastSwitch }

def onDirectUp (m : PathManager) : PathManager := { m with directUp := true }

def switchTo (m : PathManager) (target : PathKind) (now : Instant) :
    Option PathSwitch × PathManager :=
  (some ⟨m.active, target⟩, { m with active := target, lastSwitch := now })

def onDirectDown (m : PathManager) (now : Instant) : Option PathSwitch × PathManager :=
  -- old measurements do not outlive the path
  let m := { m with directUp := false, direct := .default }
  if m.active = .direct then m.switchTo .relay now else (none, m)

def decide (m : PathManager) (now : Instant) : Option PathSwitch × PathManager :=
  if durationSince now m.lastSwitch < m.minDwell then (none, m)
  else
    match m.active with
    | .relay =>
      if !m.directUp then (none, m)
      else
        match m.direct.effective 0 with
        | none => (none, m)
        | some d =>
          match m.relay.effective relayPenaltyMs with
          | some r => if d < r * m.switchMargin then m.switchTo .direct now else (none, m)
          -- a direct path that is measured beats a relay that is not
          | none => m.switchTo .direct now
    | .direct =>
      if !m.directUp then m.switchTo .relay now
      else
        match m.direct.effective 0, m.relay.effective relayPenaltyMs with
        -- leaving a direct path takes a relay twice as good
        | some d, some r => if r < d * (1 / 2) then m.switchTo .relay now else (none, m)
        | _, _ => (none, m)

def onSample (m : PathManager) (kind : PathKind) (sample : PathSample) (now : Instant) :
    Option PathSwitch × PathManager :=
  let m := match kind with
    | .direct => { m with direct := m.direct.sample sample }
    | .relay => { m with relay := m.relay.sample sample }
  m.decide now

theorem noPanic_new {ε : Type} {instantMin now} :
    (new instantMin now : Outcome ε _).NoPanic ↔ instantMin + 3600 * second ≤ now := by
  simp only [new, noPanic_bind, noPanic_subInstant, noPanic_ok, implies_true, and_true]
  exact le_sub_iff_add_le

end PathManager

end DirectWire.Mesh
