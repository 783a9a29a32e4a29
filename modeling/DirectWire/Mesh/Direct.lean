import DirectWire.Lib.Cells
import DirectWire.Lib.Pair
import DirectWire.Lib.Run
import DirectWire.Mesh.Refine

/-!
# Mesh — simultaneous open

Two nodes dial each other, any number of times; each end decides alone which connection to keep.
`Opening` is the two nodes with the connections, and the events that are still to be handled. The
rule prefers connections that the smaller node id has dialled, and among those of one direction
the first, which may be a different one at the other end.
-/

namespace DirectWire.Mesh

open Lib Outcome List Option Function

variable {A : Algorithms}

/-! ## What the handlers do -/

namespace Host

variable {env : Env A} {h h' : Host A} {conn : Conn} {outgoing : Bool} {peer : NodeId}

theorem holdConn_spec {before} (hHold : h.holdConn peer conn outgoing before = ok h') :
    h'.actor.nodeId = h.actor.nodeId ∧ h'.direct = h.direct.insert peer (conn, outgoing) ∧
      h'.directEffects = h.directEffects ++ (before ++ [.readLoop peer conn.stableId]) := by
  obtain ⟨p, -, hRet⟩ := bind_eq_ok.mp hHold
  cases hRet
  exact ⟨rfl, rfl, rfl⟩

/-- The connection to a peer that one end keeps, of an old one and a new one. -/
def keepsOld (me peer : NodeId) (oldOutgoing outgoing : Bool) : Bool :=
  let preferOutgoing := decide (NodeId.lt me peer)
  (oldOutgoing == preferOutgoing) || !(outgoing == preferOutgoing)

theorem onNewConn_cases (hPeer : connPeerId conn.toConnection = some peer)
    (hNew : h.onNewConn env conn outgoing = ok h') :
    h'.actor.nodeId = h.actor.nodeId ∧
    ((∃ old oldOutgoing, h.direct.lookup peer = some (old, oldOutgoing) ∧
        keepsOld h.actor.nodeId peer oldOutgoing outgoing = true ∧ h'.direct = h.direct ∧
        h'.directEffects = h.directEffects ++ [.close conn.stableId (ascii "duplicate")]) ∨
      (∃ old oldOutgoing, h.direct.lookup peer = some (old, oldOutgoing) ∧
        keepsOld h.actor.nodeId peer oldOutgoing outgoing = false ∧
        h'.direct = h.direct.insert peer (conn, outgoing) ∧
        h'.directEffects = h.directEffects ++
          [.close old.stableId (ascii "superseded"), .readLoop peer conn.stableId]) ∨
      (h.direct.lookup peer = none ∧ h'.direct = h.direct.insert peer (conn, outgoing) ∧
        h'.directEffects = h.directEffects ++
          [.directReady peer, .readLoop peer conn.stableId])) := by
  simp only [onNewConn, hPeer] at hNew
  obtain ⟨g, hEnsure, hNew⟩ := bind_eq_ok.mp hNew
  obtain ⟨a, hActor, rfl⟩ := onActor_eq_ok.mp hEnsure
  have hId : a.nodeId = h.actor.nodeId :=
    congrArg NodeSetup.nodeId (Actor.ensurePeer_acts hActor).1.setup
  simp only at hNew
  split at hNew
  · rename_i old oldOutgoing hOld
    split at hNew
    · -- the old one has the preferred direction, or the new one has not
      rename_i hKeep
      cases hNew
      rw [hId] at hKeep
      exact ⟨hId, .inl ⟨old, oldOutgoing, hOld, hKeep, rfl, rfl⟩⟩
    · rename_i hKeep
      rw [hId] at hKeep
      obtain ⟨hSame, hDirect, hEffects⟩ := holdConn_spec hNew
      exact ⟨hSame.trans hId,
        .inr (.inl ⟨old, oldOutgoing, hOld, Bool.eq_false_of_not_eq_true hKeep, hDirect, hEffects⟩)⟩
  · rename_i hNone
    obtain ⟨hSame, hDirect, hEffects⟩ := holdConn_spec hNew
    exact ⟨hSame.trans hId, .inr (.inr ⟨hNone, hDirect, hEffects⟩)⟩

theorem onConnClosed_cases {sid} (hClosed : h.onConnClosed env peer sid = ok h') :
    h'.actor.nodeId = h.actor.nodeId ∧ h'.directEffects = h.directEffects ∧
      (h'.direct = h.direct ∨
        ((h.direct.lookup peer).map (·.1.stableId) = some sid ∧
          h'.direct = h.direct.erase peer)) := by
  unfold onConnClosed at hClosed
  split at hClosed
  · cases hClosed
    exact ⟨rfl, rfl, .inl rfl⟩
  · split at hClosed
    · rename_i hHeld
      obtain ⟨p, -, hRet⟩ := bind_eq_ok.mp hClosed
      cases hRet
      refine ⟨?_, rfl, .inr ⟨hHeld, rfl⟩⟩
      split <;> rfl
    · cases hClosed
      exact ⟨rfl, rfl, .inl rfl⟩

end Host

/-! ## Two nodes and the connections between them -/

structure Opening (A : Algorithms) where
  host : Side → Host A
  cert : Side → Bytes
  /-- Who has dialled each connection; connections are numbered from zero. -/
  dialler : List Side
  /-- The connections an end has not been told of yet. -/
  waiting : Side → List Nat
  reading : Side → List Nat
  closed : List Nat

inductive OpeningEvent (A : Algorithms) where
  | establish (dialler : Side)
  | conn (env : Env A) (side : Side) (k : Nat)
  /-- An end handles the report that a connection it reads from has closed. -/
  | connClosed (env : Env A) (side : Side) (k : Nat)

def closedBy (es : List DirectEffect) : List Nat :=
  es.filterMap fun
    | .close k _ => some k
    | _ => none

def readBy (es : List DirectEffect) : List Nat :=
  es.filterMap fun
    | .readLoop _ k => some k
    | _ => none

namespace Opening

def nodeId (s : Opening A) (side : Side) : NodeId := (s.host side).actor.nodeId

def connAt (s : Opening A) (side : Side) (k : Nat) : Conn := ⟨⟨some [s.cert side.other]⟩, k⟩

def ran (s : Opening A) (side : Side) (h : Host A) : Opening A :=
  let out := h.directEffects.drop (s.host side).directEffects.length
  { s with
    host := update s.host side h
    reading := update s.reading side (s.reading side ++ readBy out)
    closed := s.closed ++ closedBy out }

def step (s : Opening A) : OpeningEvent A → Option (Opening A)
  | .establish dialler =>
    some { s with
      dialler := s.dialler ++ [dialler]
      waiting := fun side => s.waiting side ++ [s.dialler.length] }
  | .conn env side k =>
    if k ∈ s.waiting side then
      ((s.host side).onNewConn env (s.connAt side k)
        (decide (s.dialler[k]? = some side))).toOption.map fun h =>
          { s.ran side h with waiting := update s.waiting side ((s.waiting side).erase k) }
    else none
  | .connClosed env side k =>
    -- the read loop ends once either end has closed the connection
    if k ∈ s.closed ∧ k ∈ s.reading side then
      ((s.host side).onConnClosed env (s.nodeId side.other) k).toOption.map fun h =>
        let s' := s.ran side h
        { s' with reading := update s'.reading side ((s'.reading side).erase k) }
    else none

structure Start (s : Opening A) : Prop where
  ids : s.nodeId .left ≠ s.nodeId .right
  cert : ∀ side, extractNodeId (s.cert side) = some (s.nodeId side)
  direct : ∀ side, (s.host side).direct.lookup (s.nodeId side.other) = none
  dialler : s.dialler = []
  waiting : ∀ side, s.waiting side = []
  reading : ∀ side, s.reading side = []
  closed : s.closed = []

def Done (s : Opening A) : Prop :=
  ∀ side, s.waiting side = [] ∧ ∀ k ∈ s.reading side, k ∉ s.closed

def held (s : Opening A) (side : Side) : Option (Nat × Bool) :=
  ((s.host side).direct.lookup (s.nodeId side.other)).map fun c => (c.1.stableId, c.2)

def small (s : Opening A) : Side :=
  if NodeId.lt (s.nodeId .left) (s.nodeId .right) then .left else .right

/-- The end with the smaller id dials at most once. -/
def DialsOnce (s : Opening A) : OpeningEvent A → Prop
  | .establish dialler => dialler = s.small → s.small ∉ s.dialler
  | _ => True

instance decidableDialsOnce (s : Opening A) (e : OpeningEvent A) : Decidable (DialsOnce s e) :=
  match e with
  | .establish _ => inferInstanceAs (Decidable (_ → _))
  | .conn .. | .connClosed .. => .isTrue trivial

variable {s s' s₀ : Opening A} {side : Side} {env : Env A} {k : Nat}

/-! ## What a step does -/

/-- A handler ran at one end: the nodes are the same, and the other end holds
what it held. -/
structure Frame (s s' : Opening A) (side : Side) : Prop where
  dialler : s'.dialler = s.dialler
  cert : s'.cert = s.cert
  nodeId : ∀ t, s'.nodeId t = s.nodeId t
  held : s'.held side.other = s.held side.other

theorem nodeId_update {host : Side → Host A} {h} (hId : h.actor.nodeId = (host side).actor.nodeId)
    (t : Side) : (update host side h t).actor.nodeId = (host t).actor.nodeId := by
  by_cases ht : t = side
  · subst ht
    rw [update_self, hId]
  · rw [update_of_ne ht]

theorem frame_of_host {h} (hId : h.actor.nodeId = s.nodeId side)
    (hHost : s'.host = update s.host side h) (hDialler : s'.dialler = s.dialler)
    (hCert : s'.cert = s.cert) : Frame s s' side := by
  have hIds : ∀ t, s'.nodeId t = s.nodeId t := by
    intro t
    rw [nodeId, hHost]
    exact nodeId_update hId t
  refine ⟨hDialler, hCert, hIds, ?_⟩
  rw [held, held, hIds, hHost, update_of_ne side.other_ne]

theorem held_of_host {h} (hFrame : Frame s s' side) (hHost : s'.host = update s.host side h) :
    s'.held side = (h.direct.lookup (s.nodeId side.other)).map fun c => (c.1.stableId, c.2) := by
  rw [held, hFrame.nodeId, hHost, update_self]

theorem held_eq_some {b : Bool} {old : Conn}
    (h : (s.host side).direct.lookup (s.nodeId side.other) = some (old, b)) :
    s.held side = some (old.stableId, b) := by
  rw [held, h]
  rfl

theorem step_conn (hCert : extractNodeId (s.cert side.other) = some (s.nodeId side.other))
    (hStep : step s (.conn env side k) = some s') :
    k ∈ s.waiting side ∧ Frame s s' side ∧
    s'.waiting = update s.waiting side ((s.waiting side).erase k) ∧
    ((∃ old b, s.held side = some (old, b) ∧
        Host.keepsOld (s.nodeId side) (s.nodeId side.other) b
          (decide (s.dialler[k]? = some side)) = true ∧
        s'.held side = s.held side ∧ s'.closed = s.closed ++ [k]) ∨
      (∃ old b, s.held side = some (old, b) ∧
        Host.keepsOld (s.nodeId side) (s.nodeId side.other) b
          (decide (s.dialler[k]? = some side)) = false ∧
        s'.held side = some (k, decide (s.dialler[k]? = some side)) ∧
        s'.closed = s.closed ++ [old]) ∨
      (s.held side = none ∧ s'.held side = some (k, decide (s.dialler[k]? = some side)) ∧
        s'.closed = s.closed)) := by
  rw [step] at hStep
  split at hStep
  swap
  · cases hStep
  rename_i hWaiting
  obtain ⟨h, hNew, rfl⟩ := map_eq_some_iff.mp hStep
  -- the peer the certificate names is the other end
  have hPeer : connPeerId (s.connAt side k).toConnection = some (s.nodeId side.other) := hCert
  obtain ⟨hId, hCases⟩ := Host.onNewConn_cases hPeer (toOption_eq_some.mp hNew)
  have hFrame : Frame s { s.ran side h with
      waiting := update s.waiting side ((s.waiting side).erase k) } side :=
    frame_of_host hId rfl rfl rfl
  refine ⟨hWaiting, hFrame, rfl, ?_⟩
  rw [held_of_host hFrame rfl]
  simp only [ran]
  rcases hCases with ⟨old, b, hOld, hKeep, hDirect, hOut⟩ | ⟨old, b, hOld, hKeep, hDirect, hOut⟩ |
    ⟨hNone, hDirect, hOut⟩
  · refine .inl ⟨_, _, held_eq_some hOld, hKeep, ?_, ?_⟩
    · rw [hDirect]
      rfl
    · rw [hOut, drop_left]
      rfl
  · refine .inr (.inl ⟨_, _, held_eq_some hOld, hKeep, ?_, ?_⟩)
    · rw [hDirect, Map.lookup_insert_ite, if_pos rfl]
      rfl
    · rw [hOut, drop_left]
      rfl
  · refine .inr (.inr ⟨?_, ?_, ?_⟩)
    · rw [held, hNone]
      rfl
    · rw [hDirect, Map.lookup_insert_ite, if_pos rfl]
      rfl
    · rw [hOut, drop_left]
      exact append_nil _

theorem step_connClosed (hStep : step s (.connClosed env side k) = some s') :
    k ∈ s.closed ∧ Frame s s' side ∧ s'.waiting = s.waiting ∧ s'.closed = s.closed ∧
      (s'.held side = s.held side ∨ ((∃ b, s.held side = some (k, b)) ∧ s'.held side = none)) := by
  rw [step] at hStep
  split at hStep
  swap
  · cases hStep
  rename_i hBoth
  obtain ⟨h, hClosed, rfl⟩ := map_eq_some_iff.mp hStep
  obtain ⟨hId, hOut, hCases⟩ := Host.onConnClosed_cases (toOption_eq_some.mp hClosed)
  have hNone : h.directEffects.drop (s.host side).directEffects.length = [] := by
    rw [hOut, drop_length]
  have hFrame : Frame s { s.ran side h with
      reading := update (s.ran side h).reading side
        (((s.ran side h).reading side).erase k) } side :=
    frame_of_host hId rfl rfl rfl
  refine ⟨hBoth.1, hFrame, rfl, ?_, ?_⟩
  · show s.closed ++ closedBy _ = _
    rw [hNone]
    exact append_nil _
  · rw [held_of_host hFrame rfl]
    rcases hCases with hDirect | ⟨hHeld, hDirect⟩
    · rw [hDirect]
      exact .inl rfl
    · obtain ⟨⟨conn, b⟩, hLookup, rfl⟩ := map_eq_some_iff.mp hHeld
      refine .inr ⟨⟨b, held_eq_some hLookup⟩, ?_⟩
      rw [hDirect, AList.lookup_erase]
      rfl

/-! ## The connection that survives -/

theorem lt_iff_small (hIds : s.nodeId .left ≠ s.nodeId .right) (t : Side) :
    NodeId.lt (s.nodeId t) (s.nodeId t.other) ↔ t = s.small := by
  unfold small
  by_cases hLt : NodeId.lt (s.nodeId .left) (s.nodeId .right)
  · rw [if_pos hLt]
    cases t with
    | left => simp [Side.other, hLt]
    | right => simp [Side.other, NodeId.lt_asymm hLt]
  · rw [if_neg hLt]
    cases t with
    | left => simp [Side.other, hLt]
    | right => simp [Side.other, NodeId.lt_of_not_lt hIds hLt]

theorem keepsOld_iff (hIds : s.nodeId .left ≠ s.nodeId .right) (t dOld d : Side) :
    Host.keepsOld (s.nodeId t) (s.nodeId t.other) (decide (dOld = t)) (decide (d = t)) = true ↔
      dOld = s.small ∨ d ≠ s.small := by
  -- an end prefers outgoing connections exactly if it has the smaller id
  simp only [Host.keepsOld, lt_iff_small hIds]
  cases s.small <;> cases t <;> cases dOld <;> cases d <;> decide

/-- The connection to be kept: that of the smaller id, and without one that of
the larger if there is only one. -/
def Survivor (s : Opening A) (k : Nat) : Prop :=
  s.dialler[k]? = some s.small ∨ k = 0 ∧ s.dialler.length = 1

structure Inv (s : Opening A) : Prop where
  ids : s.nodeId .left ≠ s.nodeId .right
  cert : ∀ t, extractNodeId (s.cert t) = some (s.nodeId t)
  once : ∀ j k : Nat, s.dialler[j]? = some s.small → s.dialler[k]? = some s.small → j = k
  waiting_lt : ∀ t, ∀ k ∈ s.waiting t, k < s.dialler.length
  waiting_nodup : ∀ t, (s.waiting t).Nodup
  closed_lt : ∀ k ∈ s.closed, k < s.dialler.length
  held_ok : ∀ t k b, s.held t = some (k, b) →
    k ∉ s.waiting t ∧ ∃ d, s.dialler[k]? = some d ∧ b = decide (d = t)
  -- the survivor is never closed, and held wherever it is known
  kept : ∀ k, s.Survivor k → k ∉ s.closed ∧ ∀ t, k ∈ s.waiting t ∨ ∃ b, s.held t = some (k, b)

theorem Start.inv (h : s.Start) : s.Inv where
  ids := h.ids
  cert := h.cert
  once := by simp [h.dialler]
  waiting_lt := by simp [h.waiting]
  waiting_nodup := by simp [h.waiting]
  closed_lt := by simp [h.closed]
  held_ok t k b hHeld := by
    rw [held, h.direct] at hHeld
    cases hHeld
  kept k hk := by
    rcases hk with hk | ⟨-, hk⟩ <;> simp [h.dialler] at hk

section

variable (hInv : s.Inv)

include hInv

omit hInv in
theorem not_survivor {j : Nat} {d d' : Side} (hj : s.dialler[j]? = some d)
    (hk : s.dialler[k]? = some d') (hNe : j ≠ k) (hLarge : d' ≠ s.small) : ¬ s.Survivor k := by
  have hjLt := (List.getElem?_eq_some_iff.mp hj).1
  rintro (hSurvives | ⟨rfl, hOne⟩)
  · rw [hk, some_inj] at hSurvives
    exact hLarge hSurvives
  · omega

/-- What is left to show after an end has handled an event. -/
theorem Inv.frame (hFrame : Frame s s' side) (hWaiting : ∀ t, (s'.waiting t).Sublist (s.waiting t))
    (hClosed : ∀ k ∈ s'.closed, k < s.dialler.length) (hHeld : ∀ k b, s'.held side = some (k, b) →
      k ∉ s'.waiting side ∧ ∃ d, s.dialler[k]? = some d ∧ b = decide (d = side))
    (hOther : s'.waiting side.other = s.waiting side.other) (hKept : ∀ k, s.Survivor k →
      k ∉ s'.closed ∧ (k ∈ s'.waiting side ∨ ∃ b, s'.held side = some (k, b))) : s'.Inv where
  ids := by
    rw [hFrame.nodeId, hFrame.nodeId]
    exact hInv.ids
  cert t := by
    rw [hFrame.cert, hFrame.nodeId]
    exact hInv.cert t
  once := by simpa only [Opening.small, hFrame.nodeId, hFrame.dialler] using hInv.once
  waiting_lt t k hk := by
    rw [hFrame.dialler]
    exact hInv.waiting_lt t k ((hWaiting t).subset hk)
  waiting_nodup t := (hInv.waiting_nodup t).sublist (hWaiting t)
  closed_lt k hk := by
    rw [hFrame.dialler]
    exact hClosed k hk
  held_ok t k b hHolds := by
    rw [hFrame.dialler]
    rcases Side.eq_or_eq_other side t with rfl | rfl
    · exact hHeld k b hHolds
    · rw [hFrame.held] at hHolds
      rw [hOther]
      exact hInv.held_ok _ k b hHolds
  kept k hk := by
    have hSurvivor : s.Survivor k := by
      simpa only [Survivor, Opening.small, hFrame.nodeId, hFrame.dialler] using hk
    obtain ⟨hOpen, hHere⟩ := hKept k hSurvivor
    refine ⟨hOpen, fun t => ?_⟩
    rcases Side.eq_or_eq_other side t with rfl | rfl
    · exact hHere
    · rw [hFrame.held, hOther]
      exact (hInv.kept k hSurvivor).2 _

theorem step_establish {dialler} (hOnce : dialler = s.small → s.small ∉ s.dialler)
    (hStep : step s (.establish dialler) = some s') : s'.Inv := by
  cases hStep
  have hOld : ∀ {k : Nat} {d : Side}, s.dialler[k]? = some d →
      (s.dialler ++ [dialler])[k]? = some d := by
    intro k d hk
    rw [List.getElem?_append_left (List.getElem?_eq_some_iff.mp hk).1, hk]
  refine ⟨hInv.ids, hInv.cert, fun j k hj hk => ?_, ?_, ?_, ?_, ?_, ?_⟩
  · rcases getElem?_concat_eq_some hj with hj | ⟨rfl, hNew⟩ <;>
      rcases getElem?_concat_eq_some hk with hk | ⟨rfl, hNew'⟩
    · exact hInv.once j k hj hk
    · exact absurd (mem_of_getElem? hj) (hOnce hNew'.symm)
    · exact absurd (mem_of_getElem? hk) (hOnce hNew.symm)
    · rfl
  · intro t k hk
    rw [length_append, length_singleton]
    rcases mem_append.mp hk with hk | hk
    · have := hInv.waiting_lt t k hk
      omega
    · have := mem_singleton.mp hk
      omega
  · intro t
    rw [nodup_append']
    refine ⟨hInv.waiting_nodup t, nodup_singleton _, ?_⟩
    rw [disjoint_singleton]
    intro hMem
    exact lt_irrefl _ (hInv.waiting_lt t _ hMem)
  · intro k hk
    rw [length_append, length_singleton]
    have := hInv.closed_lt k hk
    omega
  · -- what is held is older than the new connection
    intro t k b hHolds
    obtain ⟨hNot, d, hd, hb⟩ := hInv.held_ok t k b hHolds
    have hLt := (List.getElem?_eq_some_iff.mp hd).1
    refine ⟨?_, d, hOld hd, hb⟩
    rw [mem_append, mem_singleton]
    rintro (hMem | rfl)
    · exact hNot hMem
    · exact lt_irrefl _ hLt
  · intro k hk
    by_cases hNew : k = s.dialler.length
    · -- the new connection waits at both ends
      subst hNew
      refine ⟨fun hMem => lt_irrefl _ (hInv.closed_lt _ hMem), fun t => .inl ?_⟩
      exact mem_append_right _ (mem_singleton.mpr rfl)
    · -- a connection that survives with the new one there has survived without it
      have hSurvivor : s.Survivor k := by
        rcases hk with hk | ⟨rfl, hOne⟩
        · rcases getElem?_concat_eq_some hk with hk | ⟨rfl, -⟩
          · exact .inl hk
          · exact absurd rfl hNew
        · rw [length_append, length_singleton] at hOne
          omega
      obtain ⟨hOpen, hHere⟩ := hInv.kept k hSurvivor
      refine ⟨hOpen, fun t => ?_⟩
      rcases hHere t with hMem | hHolds
      · exact .inl (mem_append_left _ hMem)
      · exact .inr hHolds

theorem Inv.closes_loser {old dOld d} (hOld : s.dialler[old]? = some dOld)
    (hNew : s.dialler[k]? = some d) (hNe : old ≠ k) :
    ¬ s.Survivor (if Host.keepsOld (s.nodeId side) (s.nodeId side.other) (decide (dOld = side))
      (decide (d = side)) = true then k else old) := by
  by_cases hKeep : dOld = s.small ∨ d ≠ s.small
  · rw [if_pos ((keepsOld_iff hInv.ids side dOld d).mpr hKeep)]
    refine not_survivor hOld hNew hNe ?_
    rintro rfl
    -- two connections of the smaller id are the same
    exact hNe (hInv.once _ _ (hKeep.resolve_right (absurd rfl) ▸ hOld) hNew)
  · rw [if_neg (mt (keepsOld_iff hInv.ids side dOld d).mp hKeep)]
    exact not_survivor hNew hOld hNe.symm (not_or.mp hKeep).1

theorem Inv.told (hFrame : Frame s s' side) (hWaits : k ∈ s.waiting side)
    (hWaiting : s'.waiting = update s.waiting side ((s.waiting side).erase k))
    (hClosed : ∀ j ∈ s'.closed, j ∈ s.closed ∨ (j < s.dialler.length ∧ ¬ s.Survivor j))
    (hHeld : s'.held side = s.held side ∨
      s'.held side = some (k, decide (s.dialler[k]? = some side)))
    (hKept : ∀ j, s.Survivor j → (j = k ∨ ∃ b, s.held side = some (j, b)) →
      ∃ b, s'.held side = some (j, b)) : s'.Inv := by
  have hHere : s'.waiting side = (s.waiting side).erase k := by
    rw [hWaiting, update_self]
  have hOther : s'.waiting side.other = s.waiting side.other := by
    rw [hWaiting, update_of_ne side.other_ne]
  refine hInv.frame hFrame ?_ ?_ ?_ hOther ?_
  · intro t
    rcases Side.eq_or_eq_other side t with rfl | rfl
    · rw [hHere]
      exact erase_sublist
    · rw [hOther]
  · intro j hj
    exact (hClosed j hj).elim (hInv.closed_lt j) And.left
  · intro j b hHolds
    rw [hHere]
    rcases hHeld with hSame | hNew
    · rw [hSame] at hHolds
      obtain ⟨hNot, hDialled⟩ := hInv.held_ok side j b hHolds
      exact ⟨fun hMem => hNot (mem_of_mem_erase hMem), hDialled⟩
    · rw [hNew] at hHolds
      cases hHolds
      have hDialled := getElem?_eq_getElem (hInv.waiting_lt side k hWaits)
      refine ⟨(hInv.waiting_nodup side).not_mem_erase, _, hDialled, ?_⟩
      simp only [hDialled, some_inj]
  · intro j hj
    obtain ⟨hOpen, hAt⟩ := hInv.kept j hj
    refine ⟨fun hMem => (hClosed j hMem).elim hOpen fun hLoser => hLoser.2 hj, ?_⟩
    by_cases hjk : j = k
    · exact .inr (hKept j hj (.inl hjk))
    · rcases hAt side with hMem | hHolds
      · left
        rw [hHere]
        exact (mem_erase_of_ne hjk).mpr hMem
      · exact .inr (hKept j hj (.inr hHolds))

theorem conn_inv (hStep : step s (.conn env side k) = some s') : s'.Inv := by
  obtain ⟨hWaits, hFrame, hWaiting, hCases⟩ := step_conn (hInv.cert side.other) hStep
  have hkLt := hInv.waiting_lt side k hWaits
  obtain ⟨d, hd⟩ : ∃ d, s.dialler[k]? = some d := ⟨_, getElem?_eq_getElem hkLt⟩
  have hLoser : ∀ {old b}, s.held side = some (old, b) → old < s.dialler.length ∧
      ¬ s.Survivor (if Host.keepsOld (s.nodeId side) (s.nodeId side.other) b
        (decide (s.dialler[k]? = some side)) = true then k else old) := by
    intro old b hOld
    obtain ⟨hGone, dOld, hdOld, rfl⟩ := hInv.held_ok side old b hOld
    have hNe : old ≠ k := by
      rintro rfl
      exact hGone hWaits
    refine ⟨(List.getElem?_eq_some_iff.mp hdOld).1, ?_⟩
    simp only [hd, some_inj]
    exact hInv.closes_loser hdOld hd hNe
  rcases hCases with ⟨old, b, hOld, hKeep, hSame, hClosed⟩ |
    ⟨old, b, hOld, hKeep, hHolds, hClosed⟩ | ⟨hNone, hHolds, hClosed⟩
  · -- closed as a duplicate
    obtain ⟨-, hOut⟩ := hLoser hOld
    rw [if_pos hKeep] at hOut
    refine hInv.told hFrame hWaits hWaiting ?_ (.inl hSame) ?_
    · intro j hj
      rw [hClosed, mem_append, mem_singleton] at hj
      rcases hj with hj | rfl
      · exact .inl hj
      · exact .inr ⟨hkLt, hOut⟩
    · rintro j hj (rfl | hHolds)
      · exact (hOut hj).elim
      · rw [hSame]
        exact hHolds
  · -- it replaces the one that was held, which is closed
    obtain ⟨hOldLt, hOut⟩ := hLoser hOld
    rw [if_neg (Bool.eq_false_iff.mp hKeep)] at hOut
    refine hInv.told hFrame hWaits hWaiting ?_ (.inr hHolds) ?_
    · intro j hj
      rw [hClosed, mem_append, mem_singleton] at hj
      rcases hj with hj | rfl
      · exact .inl hj
      · exact .inr ⟨hOldLt, hOut⟩
    · rintro j hj (rfl | ⟨b, hb⟩)
      · exact ⟨_, hHolds⟩
      · rw [hOld] at hb
        cases hb
        exact (hOut hj).elim
  · -- the first connection here
    refine hInv.told hFrame hWaits hWaiting ?_ (.inr hHolds) ?_
    · intro j hj
      rw [hClosed] at hj
      exact .inl hj
    · rintro j hj (rfl | ⟨b, hb⟩)
      · exact ⟨_, hHolds⟩
      · rw [hNone] at hb
        cases hb

theorem connClosed_inv (hStep : step s (.connClosed env side k) = some s') : s'.Inv := by
  obtain ⟨hk, hFrame, hWaiting, hClosed, hCases⟩ := step_connClosed hStep
  refine hInv.frame hFrame ?_ ?_ ?_ ?_ ?_
  · intro t
    rw [hWaiting]
  · rw [hClosed]
    exact hInv.closed_lt
  · intro j b hHolds
    rw [hWaiting]
    rcases hCases with hSame | ⟨-, hNone⟩
    · rw [hSame] at hHolds
      exact hInv.held_ok side j b hHolds
    · rw [hNone] at hHolds
      cases hHolds
  · rw [hWaiting]
  · intro j hj
    obtain ⟨hOpen, hAt⟩ := hInv.kept j hj
    rw [hClosed, hWaiting]
    refine ⟨hOpen, ?_⟩
    rcases hCases with hSame | ⟨⟨b, hb⟩, hNone⟩
    · rw [hSame]
      exact hAt side
    · -- what was let go is closed, so it is not the survivor
      rcases hAt side with hMem | ⟨b', hb'⟩
      · exact .inl hMem
      · rw [hb] at hb'
        cases hb'
        exact absurd hk hOpen

theorem step_inv {e} (hOnce : DialsOnce s e) (hStep : step s e = some s') : s'.Inv := by
  cases e with
  | establish => exact step_establish hInv hOnce hStep
  | conn => exact conn_inv hInv hStep
  | connClosed => exact connClosed_inv hInv hStep

end

theorem exists_survivor (hSome : s.small ∈ s.dialler ∨ s.dialler.length = 1) :
    ∃ k, s.Survivor k := by
  rcases hSome with hSmall | hOne
  · obtain ⟨k, hk⟩ := mem_iff_getElem?.mp hSmall
    exact ⟨k, .inl hk⟩
  · exact ⟨0, .inr ⟨rfl, hOne⟩⟩

def Holds (s : Opening A) (side : Side) (k : Nat) : Prop :=
  ∃ conn outgoing, (s.host side).direct.lookup (s.nodeId side.other) = some (conn, outgoing) ∧
    conn.stableId = k

/-- **Simultaneous open converges.** Two nodes that do not hold a connection to each other dial, and
each end hears of the connections and of their ends in any order; the one with the smaller id dials
at most once (`DialsOnce`). Once all has been heard of (`hDone`), and if the smaller id has dialled
or there was only one connection (`hSome`), both ends hold the same one, and it is open. -/
theorem simultaneous_open_converges (hStart : s₀.Start) (hRun : Run step DialsOnce s₀ s)
    (hDone : s.Done) (hSome : s.small ∈ s.dialler ∨ s.dialler.length = 1) :
    ∃ k, s.Holds .left k ∧ s.Holds .right k ∧ k ∉ s.closed := by
  have hInv := hRun.invariant hStart.inv fun _ _ _ h hOnce hStep => step_inv h hOnce hStep
  obtain ⟨k, hk⟩ := exists_survivor hSome
  obtain ⟨hOpen, hAt⟩ := hInv.kept k hk
  have hHolds : ∀ t, s.Holds t k := by
    intro t
    rcases hAt t with hMem | ⟨b, hb⟩
    · rw [(hDone t).1] at hMem
      cases hMem
    · obtain ⟨⟨conn, outgoing⟩, hLookup, hEq⟩ := map_eq_some_iff.mp hb
      cases hEq
      exact ⟨conn, outgoing, hLookup, rfl⟩
  exact ⟨k, hHolds .left, hHolds .right, hOpen⟩

def plain : Opening plainAlgorithms where
  host side := .start (match side with | .left => plainNode 1 | .right => plainNode 2) second
  cert side := ed25519SpkiPrefix ++
    (match side with | .left => plainNode 1 | .right => plainNode 2).nodeId.val
  dialler := []
  waiting _ := []
  reading _ := []
  closed := []

theorem plain_start : plain.Start where
  ids := by decide
  cert side := by cases side <;> rfl
  direct side := by cases side <;> rfl
  dialler := rfl
  waiting _ := rfl
  reading _ := rfl
  closed := rfl

def settled (s : Opening A) (left right : Option Nat) : Bool :=
  (s.waiting .left).isEmpty && (s.waiting .right).isEmpty &&
    (s.reading .left).all (· ∉ s.closed) && (s.reading .right).all (· ∉ s.closed) &&
    !s.dialler.isEmpty && (s.held .left).map Prod.fst == left &&
    (s.held .right).map Prod.fst == right

theorem settled_iff {left right} : s.settled left right = true ↔
    s.Done ∧ s.dialler ≠ [] ∧ (s.held .left).map Prod.fst = left ∧
      (s.held .right).map Prod.fst = right := by
  rw [Done, Side.forall_iff]
  simp only [settled, Bool.and_eq_true, List.isEmpty_iff, List.all_eq_true, decide_eq_true_eq,
    Bool.not_eq_eq_eq_not, Bool.not_true, List.isEmpty_eq_false_iff, beq_iff_eq]
  tauto

/-- The larger id dials twice, and the ends hear of the connections in different orders. -/
theorem simultaneous_open_converges_plain :
    ∃ s, Run step DialsOnce plain s ∧ s.Done ∧
      ∃ k, s.Holds .left k ∧ s.Holds .right k ∧ k ∉ s.closed := by
  obtain ⟨s, hRun, hSettled⟩ := exists_run_of_exec step DialsOnce plain
    [.establish .right, .establish .left, .establish .right, .conn plainEnv .left 0,
      .conn plainEnv .right 1, .conn plainEnv .left 1, .conn plainEnv .right 0,
      .conn plainEnv .right 2, .conn plainEnv .left 2, .connClosed plainEnv .left 0]
    (fun s => s.settled (some 1) (some 1) && decide (s.small ∈ s.dialler)) (by decide)
  obtain ⟨hSettled, hSmall⟩ := Bool.and_eq_true_iff.mp hSettled
  obtain ⟨hDone, -⟩ := settled_iff.mp hSettled
  exact ⟨s, hRun, hDone,
    simultaneous_open_converges plain_start hRun hDone (.inl (of_decide_eq_true hSmall))⟩

/-- The smaller id dials twice, and the ends hear of the two connections in opposite order. -/
theorem not_simultaneous_open_converges :
    ∃ s₀ s : Opening plainAlgorithms, s₀.Start ∧ Run step Always s₀ s ∧ s.Done ∧
      s.dialler ≠ [] ∧ s.held .left = none ∧ s.held .right = none := by
  obtain ⟨s, hRun, hSettled⟩ := exists_run_of_exec step Always plain
    [.establish .left, .establish .left, .conn plainEnv .left 0, .conn plainEnv .right 1,
      .conn plainEnv .left 1, .conn plainEnv .right 0, .connClosed plainEnv .left 0,
      .connClosed plainEnv .right 1]
    (fun s => s.settled none none) (by decide)
  obtain ⟨hDone, hSome, hLeft, hRight⟩ := settled_iff.mp hSettled
  exact ⟨plain, s, plain_start, hRun, hDone, hSome, map_eq_none_iff.mp hLeft,
    map_eq_none_iff.mp hRight⟩

end Opening

end DirectWire.Mesh
