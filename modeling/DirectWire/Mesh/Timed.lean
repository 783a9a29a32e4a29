import DirectWire.Lib.Run
import DirectWire.Mesh.Refine

/-!
# Mesh — a node and its timers

A handler that starts a GM-PQ handshake leaves a timer behind, which comes back as the command
`GmCheck` with the generation it was started for. A timer that was started more often than it came
back is scheduled.

* `step_keeps`, `step_schedules` — which timers are scheduled after it.
-/

namespace DirectWire.Mesh

open Lib Outcome

variable {A : Algorithms}

def HostEvent.timer : HostEvent A → List (NodeId × UInt64)
  | .gmCheck _ peer gen => [(peer, gen)]
  | _ => []

/-- A node, and the timers that have run out and been handled. -/
structure Timed (A : Algorithms) where
  host : Host A
  handled : List (NodeId × UInt64)

namespace Timed

def Scheduled (s : Timed A) (X : NodeId) (gen : UInt64) : Prop :=
  s.handled.count (X, gen) < s.host.actor.effects.count (.gmTimer X gen)

instance decidableScheduled (s : Timed A) (X : NodeId) (gen : UInt64) :
    Decidable (s.Scheduled X gen) :=
  inferInstanceAs (Decidable (_ < _))

def step (s : Timed A) (e : HostEvent A) : Option (Timed A) :=
  -- only a scheduled timer comes back, and a handler that panics gives no next state
  if ∀ t ∈ e.timer, s.Scheduled t.1 t.2 then
    (s.host.handle e).toOption.map fun host => ⟨host, e.timer ++ s.handled⟩
  else none

def setup (s : Timed A) : NodeSetup A := s.host.setup

def core (s : Timed A) (X : NodeId) : PeerCore A := s.host.core X

/-- A node that starts: it knows no peer and no timer has run out. -/
structure Start (s : Timed A) : Prop where
  peers : s.host.actor.peers = ∅
  handled : s.handled = []

theorem Start.core_eq {s : Timed A} (h : s.Start) (X : NodeId) : s.core X = .fresh := by
  show s.host.actor.core X = _
  rw [Actor.core, h.peers]
  rfl

/-! ## Steps -/

variable {s s' : Timed A} {e : HostEvent A} {X : NodeId} {gen : UInt64}

theorem step_eq_some : s.step e = some s' ↔ (∀ t ∈ e.timer, s.Scheduled t.1 t.2) ∧
    s.host.handle e = ok s'.host ∧ s'.handled = e.timer ++ s.handled := by
  unfold step
  constructor
  · intro h
    split at h
    · rename_i hDue
      obtain ⟨host, hHandle, rfl⟩ := Option.map_eq_some_iff.mp h
      exact ⟨hDue, toOption_eq_some.mp hHandle, rfl⟩
    · cases h
  · rintro ⟨hDue, hHandle, hHandled⟩
    rw [if_pos hDue, hHandle, ← hHandled]
    rfl

section

variable (h : s.step e = some s')

include h

/-- A step of the node is a step of the machine of every peer. -/
theorem step_refines : s'.setup = s.setup ∧
    ∀ X, ∃ out, PeerStep s.setup X (s.host.takesDirect X) e (s.core X) (s'.core X) out ∧
      s'.host.effectsFor X = s.host.effectsFor X ++ out :=
  Host.handle_refines (step_eq_some.mp h).2.1

omit h in
theorem count_timer (h : Host A) (X : NodeId) (gen : UInt64) :
    h.actor.effects.count (.gmTimer X gen) = (h.effectsFor X).count (.gmTimer X gen) :=
  (List.count_filter (by simp [Effect.isFor])).symm

theorem count_handled_le (X : NodeId) (gen : UInt64) :
    s'.handled.count (X, gen) ≤ s.handled.count (X, gen) + 1 := by
  rw [(step_eq_some.mp h).2.2, List.count_append]
  have hOne : e.timer.count (X, gen) ≤ 1 := by
    refine (List.count_le_length).trans ?_
    unfold HostEvent.timer
    split <;> simp
  omega

theorem count_timer_le (X : NodeId) (gen : UInt64) :
    s.host.actor.effects.count (.gmTimer X gen) ≤ s'.host.actor.effects.count (.gmTimer X gen) := by
  obtain ⟨out, -, hEffects⟩ := (step_refines h).2 X
  rw [count_timer, count_timer, hEffects, List.count_append]
  omega

def Counted (s : Timed A) : Prop :=
  ∀ X gen, s.handled.count (X, gen) ≤ s.host.actor.effects.count (.gmTimer X gen)

theorem count_handled_le_timer (hCounted : s.Counted) (X : NodeId) (gen : UInt64) :
    s'.handled.count (X, gen) ≤ s.host.actor.effects.count (.gmTimer X gen) := by
  obtain ⟨hDue, -, hHandled⟩ := step_eq_some.mp h
  by_cases hTimer : (X, gen) ∈ e.timer
  · -- the timer that was handled was scheduled
    have hWas : s.Scheduled X gen := hDue (X, gen) hTimer
    unfold Scheduled at hWas
    have hMore := count_handled_le h X gen
    omega
  · rw [hHandled, List.count_append, List.count_eq_zero.mpr hTimer, Nat.zero_add]
    exact hCounted X gen

theorem step_counted (hCounted : s.Counted) : s'.Counted :=
  fun X gen => (count_handled_le_timer h hCounted X gen).trans (count_timer_le h X gen)

theorem step_keeps (hWas : s.Scheduled X gen) (hOther : (X, gen) ∉ e.timer) :
    s'.Scheduled X gen := by
  unfold Scheduled at hWas ⊢
  rw [(step_eq_some.mp h).2.2, List.count_append, List.count_eq_zero.mpr hOther, Nat.zero_add]
  exact hWas.trans_le (count_timer_le h X gen)

theorem step_schedules (hCounted : s.Counted) {out}
    (hEffects : s'.host.effectsFor X = s.host.effectsFor X ++ out)
    (hOut : Effect.gmTimer X gen ∈ out) : s'.Scheduled X gen := by
  -- as often handled as started before the step at most, and started once more in it
  have hBefore := count_handled_le_timer h hCounted X gen
  have hMore : s.host.actor.effects.count (.gmTimer X gen) <
      s'.host.actor.effects.count (.gmTimer X gen) := by
    have hPos : 0 < out.count (.gmTimer X gen) := List.count_pos_iff.mpr hOut
    rw [count_timer, count_timer, hEffects, List.count_append]
    omega
  exact hBefore.trans_lt hMore

end

end Timed

end DirectWire.Mesh
