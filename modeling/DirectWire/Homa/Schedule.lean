import DirectWire.Homa.Hostile

/-!
# Homa — which messages are granted

`schedule` grants the messages with the fewest bytes to come, at most `overcommit` of them, and
every message that has waited for the starvation threshold. The choice is made from the table as
it is at the start of the call.
-/

namespace DirectWire.Homa

open Lib Outcome List ReceiverCore

namespace InMsg

def Ample (increment : Nat) (m : InMsg) : Prop := increment / 2 ≤ m.grantedTo - m.receivedBytes

def Covered (increment : Nat) (m : InMsg) : Prop := m.totalLen ≤ m.grantedTo ∨ m.Ample increment

/-- The message has credit, or the end of the window it is to be given can be computed. -/
def Grantable (increment : Nat) (m : InMsg) : Prop :=
  m.Ample increment ∨ m.receivedBytes + increment < usizeBound

/-- `m'` is `m` with a window that may be larger. A message that cannot be given one stays without
credit. -/
structure Grows (increment : Nat) (m m' : InMsg) : Prop where
  body : m'.body = m.body
  le : m.grantedTo ≤ m'.grantedTo
  lacks : wants m = true → ¬ m.Grantable increment → wants m' = true ∧ ¬ m'.Grantable increment

variable {increment : Nat} {m m' m'' : InMsg}

theorem Grows.refl (m : InMsg) : m.Grows increment m := ⟨rfl, Nat.le_refl _, fun hW hG => ⟨hW, hG⟩⟩

section

variable (h : m.Grows increment m')

include h

theorem Grows.trans (h' : m'.Grows increment m'') : m.Grows increment m'' := by
  refine ⟨h'.body.trans h.body, h.le.trans h'.le, fun hWants hNot => ?_⟩
  obtain ⟨hWants', hNot'⟩ := h.lacks hWants hNot
  exact h'.lacks hWants' hNot'

theorem Grows.receivedBytes : m'.receivedBytes = m.receivedBytes :=
  congrArg Body.receivedBytes h.body

theorem Grows.ample (hAmple : m.Ample increment) : m'.Ample increment := by
  have hLe := h.le
  have hBytes := h.receivedBytes
  unfold Ample at hAmple ⊢
  omega

theorem Grows.covered (hCovered : m.Covered increment) : m'.Covered increment := by
  rcases hCovered with hFull | hAmple
  · have hLe := h.le
    have hLen : m'.totalLen = m.totalLen := congrArg Body.totalLen h.body
    exact .inl (by omega)
  · exact .inr (h.ample hAmple)

end

end InMsg

namespace ReceiverCore

variable {checks : Bool} {ord : HashOrder MsgKey} {now : Instant} {s s' t : ReceiverCore}
  {key : MsgKey} {out : List Action}

/-! ## The choice -/

/-- The windows of a table may have grown; nothing else has changed. -/
structure Grown (s t : ReceiverCore) : Prop where
  cfg : t.cfg = s.cfg
  granting : t.granting = s.granting
  entries : ∀ key m, s.incoming.lookup key = some m →
    ∃ m', t.incoming.lookup key = some m' ∧ m.Grows s.cfg.grantIncrement m'

theorem Grown.refl (s : ReceiverCore) : s.Grown s := ⟨rfl, rfl, fun _ m hm => ⟨m, hm, .refl m⟩⟩

theorem Grown.trans (h : s.Grown t) (h' : t.Grown s') : s.Grown s' := by
  refine ⟨h'.cfg.trans h.cfg, h'.granting.trans h.granting, fun key m hm => ?_⟩
  obtain ⟨m', hm', hGrows⟩ := h.entries key m hm
  obtain ⟨m'', hm'', hGrows'⟩ := h'.entries key m' hm'
  rw [h.cfg] at hGrows'
  exact ⟨m'', hm'', hGrows.trans hGrows'⟩

def Counted (s : ReceiverCore) : Prop :=
  ∀ key m, s.incoming.lookup key = some m → m.receivedBytes ≤ m.totalLen ∧ m.totalLen < usizeBound

theorem Counted.same (h : s.Counted) (hSame : SameBodies s s') : s'.Counted := by
  intro key m hm
  have hBody := hSame.bodyAt key
  rw [bodyAt, hm, Option.map_some] at hBody
  obtain ⟨m₀, hm₀, hm₀'⟩ := Option.map_eq_some_iff.mp hBody.symm
  have hLen : m₀.totalLen = m.totalLen := congrArg Body.totalLen hm₀'
  have hBytes : m₀.receivedBytes = m.receivedBytes := congrArg Body.receivedBytes hm₀'
  exact hLen ▸ hBytes ▸ h key m₀ hm₀

end ReceiverCore

end DirectWire.Homa
