import DirectWire.Lib.Pair
import DirectWire.Mesh.Delivery
import DirectWire.Mesh.Timed

/-!
# Mesh — two nodes over a relay

Two nodes, each with its timers, and a relay that delivers what one sends the other in order and
exactly once. Everything else that can happen to a node can happen at any time; a node may restart.

* `move_spec`, `step_cases` — a step of the system is a step of the machine that one end keeps for
  the other, and what it sends joins the queue.
-/

namespace DirectWire.Mesh

open Lib Outcome Function

variable {A : Algorithms}

/-! ## What a node has sent -/

def frames (out : List Effect) : List Bytes :=
  out.filterMap fun
    | .send _ payload => some payload
    | _ => none

@[simp] theorem frames_append (out₁ out₂ : List Effect) :
    frames (out₁ ++ out₂) = frames out₁ ++ frames out₂ :=
  List.filterMap_append

theorem Actor.sentTo_eq (a : Actor A) (X : NodeId) : a.sentTo X = frames (a.effectsFor X) := by
  unfold sentTo effectsFor frames
  rw [List.filterMap_filter]
  congr 1
  funext e
  cases e with
  | send target payload => by_cases h : target = X <;> simp [Effect.isFor, h]
  | emit event => by_cases h : Effect.isFor X (.emit event) = true <;> simp [h]
  | gmTimer peer gen => by_cases h : peer = X <;> simp [Effect.isFor, h]
  | plain source inner => by_cases h : source = X <;> simp [Effect.isFor, h]

def Host.sentSince (h h' : Host A) (X : NodeId) : List Bytes :=
  (h'.actor.sentTo X).drop (h.actor.sentTo X).length

theorem Host.sentSince_eq {h h' : Host A} {X : NodeId} {out : List Effect}
    (hEffects : h'.effectsFor X = h.effectsFor X ++ out) : h.sentSince h' X = frames out := by
  unfold sentSince
  rw [Actor.sentTo_eq, Actor.sentTo_eq]
  change List.drop (frames (h.effectsFor X)).length (frames (h'.effectsFor X)) = _
  rw [hEffects, frames_append, List.drop_left]

/-! ## The system -/

structure Relayed (A : Algorithms) where
  node : Side → Timed A
  queue : Side → List Bytes

inductive RelayedEvent (A : Algorithms) where
  | act (side : Side) (e : HostEvent A)
  | deliver (side : Side) (env : Env A)
  | restart (side : Side)

def HostEvent.isFrom (X : NodeId) : HostEvent A → Bool
  | .relayData _ source _ => source = X
  | _ => false

/-- The process starts again: its identity and configuration are on disk, its
peers and timers are gone. -/
def Timed.restart (s : Timed A) : Timed A :=
  ⟨.start { s.host.actor with peers := ∅, effects := [] } s.host.probeInterval, []⟩

namespace Relayed

def setup (s : Relayed A) (side : Side) : NodeSetup A := (s.node side).setup

def id (s : Relayed A) (side : Side) : NodeId := (s.setup side).nodeId

def core (s : Relayed A) (side : Side) : PeerCore A := (s.node side).core (s.id side.other)

/-- One end handles an event, and what it sends the other end joins the queue. -/
def move (s : Relayed A) (side : Side) (e : HostEvent A) : Option (Relayed A) :=
  ((s.node side).step e).map fun next =>
    { node := update s.node side next
      queue := update s.queue side.other (s.queue side.other ++
        (s.node side).host.sentSince next.host (s.id side.other)) }

def step (s : Relayed A) : RelayedEvent A → Option (Relayed A)
  | .act side e => if e.isFrom (s.id side.other) then none else s.move side e
  | .deliver side env =>
    match s.queue side with
    | [] => none
    | payload :: rest =>
      ({ s with queue := update s.queue side rest } : Relayed A).move side
        (.relayData env (s.id side.other) payload)
  | .restart side => some { s with node := update s.node side (s.node side).restart }

structure Start (s : Relayed A) : Prop where
  node : ∀ side, (s.node side).Start
  queue : ∀ side, s.queue side = []

theorem Start.core_eq {s : Relayed A} (h : s.Start) (side : Side) : s.core side = .fresh :=
  (h.node side).core_eq _

def NoRestart (_ : Relayed A) : RelayedEvent A → Prop
  | .restart _ => False
  | _ => True

instance decidableNoRestart (s : Relayed A) (ev : RelayedEvent A) : Decidable (s.NoRestart ev) :=
  match ev with
  | .restart _ => .isFalse fun h => h
  | .act _ _ | .deliver _ _ => .isTrue trivial

/-! ## Steps -/

variable {s s' : Relayed A} {side : Side} {e : HostEvent A} {ev : RelayedEvent A}

/-- One end has made a step of the machine it keeps for the other, and has sent
what the step sends. -/
structure Moves (s s' : Relayed A) (side : Side) (e : HostEvent A) (out : List Effect) : Prop where
  setup : s'.setup = s.setup
  peer : PeerStep (s.setup side) (s.id side.other)
    ((s.node side).host.takesDirect (s.id side.other)) e (s.core side) (s'.core side) out
  other : s'.core side.other = s.core side.other
  queue : s'.queue side = s.queue side
  sent : s'.queue side.other = s.queue side.other ++ frames out

theorem core_congr (hSetup : s'.setup = s.setup) {t} (hNode : s'.node t = s.node t) :
    s'.core t = s.core t := by
  unfold core id
  rw [hNode, hSetup]

theorem move_spec (h : s.move side e = some s') : ∃ out, Moves s s' side e out := by
  obtain ⟨next, hStep, rfl⟩ := Option.map_eq_some_iff.mp h
  obtain ⟨hSame, hPeers⟩ := Timed.step_refines hStep
  obtain ⟨out, hPeer, hEffects⟩ := hPeers (s.id side.other)
  -- the other end is the one it was, and the setup of this end too
  have hSetup : ∀ q, (⟨update s.node side next, q⟩ : Relayed A).setup = s.setup := by
    intro q
    funext t
    show (update s.node side next t).setup = _
    by_cases ht : t = side
    · subst ht
      rw [update_self]
      exact hSame
    · rw [update_of_ne ht]
      rfl
  refine ⟨out, hSetup _, ?_, core_congr (hSetup _) ?_, ?_, ?_⟩
  · unfold core id
    rw [hSetup]
    dsimp only
    rw [update_self]
    exact hPeer
  · exact update_of_ne side.other_ne _ _
  · exact update_of_ne side.other_ne.symm _ _
  · dsimp only
    rw [update_self, Host.sentSince_eq hEffects]

theorem step_cases (h : s.step ev = some s') :
    (∃ side e out, ev = .act side e ∧ e.isFrom (s.id side.other) = false ∧ Moves s s' side e out) ∨
    (∃ side env payload rest out, ev = .deliver side env ∧ s.queue side = payload :: rest ∧
      Moves { s with queue := update s.queue side rest } s' side
        (.relayData env (s.id side.other) payload) out) ∨
    ∃ side, ev = .restart side ∧
      s' = { s with node := update s.node side (s.node side).restart } := by
  cases ev with
  | act side e =>
    left
    simp only [step] at h
    split at h
    · cases h
    · rename_i hFrom
      obtain ⟨out, hMoves⟩ := move_spec h
      exact ⟨side, e, out, rfl, Bool.eq_false_of_not_eq_true hFrom, hMoves⟩
  | deliver side env =>
    right
    left
    simp only [step] at h
    split at h
    · cases h
    · rename_i payload rest hQueue
      obtain ⟨out, hMoves⟩ := move_spec h
      exact ⟨side, env, payload, rest, out, rfl, hQueue, hMoves⟩
  | restart side =>
    right
    right
    cases h
    exact ⟨side, rfl, rfl⟩

end Relayed

end DirectWire.Mesh
