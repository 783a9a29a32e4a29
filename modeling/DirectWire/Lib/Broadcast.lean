import DirectWire.Lib.Map
import DirectWire.Lib.Window

/-!
# Broadcast channels

Every message goes to all receivers. The channel keeps the last `capacity` messages; the next
`recv` of a receiver that is further behind says so and moves it to the oldest message left.

* `Carries` — what was sent since a position, and that the channel still has it for whoever is
  not too far behind;
* `Follows` — what a receiver has got of it, with a rule for each operation.
-/

namespace DirectWire.Lib

open List

structure Broadcast (α : Type) where
  capacity : Nat
  tail : Nat
  ring : List α
  /-- The receivers, each with the position of its next message. -/
  receivers : Map Nat Nat
  length_ring : ring.length = min tail capacity

/-- What `recv` can return at once. -/
inductive Received (α : Type) where
  | value (a : α)
  | empty
  | lagged (missed : Nat)
deriving DecidableEq

/-- What was received before, with the result of a `recv`. -/
def Received.addTo {α : Type} (r : Received α) (got : List α) : List α :=
  match r with
  | .value a => got ++ [a]
  | .empty | .lagged _ => got

def Received.isLagged {α : Type} : Received α → Bool
  | .lagged _ => true
  | .value _ | .empty => false

namespace Broadcast

variable {α : Type} {c c' : Broadcast α} {a : α} {id id' next start : Nat}
variable {sent got : List α} {lagged : Bool}

def new (capacity : Nat) : Broadcast α := ⟨capacity, 0, [], ∅, by simp⟩

def send (c : Broadcast α) (a : α) : Broadcast α :=
  if c.receivers.size = 0 then c
  else
    { c with
      tail := c.tail + 1
      ring := evict c.capacity (c.ring ++ [a])
      length_ring := by
        have h := c.length_ring
        rw [evict_eq_drop, length_drop, length_append, length_singleton]
        omega }

def subscribe (c : Broadcast α) (id : Nat) : Broadcast α :=
  { c with receivers := c.receivers.insert id c.tail }

def leave (c : Broadcast α) (id : Nat) : Broadcast α :=
  { c with receivers := c.receivers.erase id }

def moveTo (c : Broadcast α) (id next : Nat) : Broadcast α :=
  { c with receivers := c.receivers.insert id next }

def pending (c : Broadcast α) (next : Nat) : List α := c.ring.drop (c.ring.length - (c.tail - next))

def Overrun (c : Broadcast α) (next : Nat) : Prop := c.capacity < c.tail - next

instance (c : Broadcast α) (next : Nat) : Decidable (c.Overrun next) :=
  inferInstanceAs (Decidable (_ < _))

def unread (c : Broadcast α) (id : Nat) : List α :=
  match c.receivers.lookup id with
  | some next => c.pending next
  | none => []

def isBehind (c : Broadcast α) (id : Nat) : Bool :=
  match c.receivers.lookup id with
  | some next => c.Overrun next
  | none => false

def recv (c : Broadcast α) (id : Nat) : Option (Received α × Broadcast α) := do
  let next ← c.receivers.lookup id
  if c.Overrun next then
    some (.lagged (c.tail - c.capacity - next), c.moveTo id (c.tail - c.capacity))
  else
    match c.pending next with
    | [] => some (.empty, c)
    | a :: _ => some (.value a, c.moveTo id (next + 1))

/-! ## What the channel carries -/

theorem send_eq (h : c.receivers.lookup id = some next) :
    (c.send a).capacity = c.capacity ∧ (c.send a).tail = c.tail + 1 ∧
    (c.send a).ring = evict c.capacity (c.ring ++ [a]) ∧
    (c.send a).receivers = c.receivers := by
  unfold send
  rw [if_neg (Map.size_ne_zero h)]
  exact ⟨rfl, rfl, rfl, rfl⟩

theorem pending_tail : c.pending c.tail = [] := by
  rw [pending, Nat.sub_self, Nat.sub_zero, drop_length]

theorem pending_send (hReceiver : c.receivers.lookup id = some next) (hNext : start ≤ c.tail)
    (hRoom : ¬ (c.send a).Overrun start) : (c.send a).pending start = c.pending start ++ [a] := by
  obtain ⟨hCap, hTail, hRing, -⟩ := send_eq (a := a) hReceiver
  have hLen := c.length_ring
  have hLen' := (c.send a).length_ring
  rw [Overrun, hCap, hTail] at hRoom
  rw [hCap, hTail] at hLen'
  rw [pending, pending, hLen', hTail, hRing, evict_eq_drop, drop_drop, length_append,
    length_singleton]
  -- both sides drop the same from the front
  have hSame : c.ring.length + 1 - c.capacity + (min (c.tail + 1) c.capacity -
      (c.tail + 1 - start)) = c.ring.length - (c.tail - start) := by
    omega
  rw [hSame, drop_append_of_le_length (by omega)]

/-- Since a position, just `sent` was sent. -/
structure Carries (c : Broadcast α) (start : Nat) (sent : List α) : Prop where
  tail : c.tail = start + sent.length
  pending : ∀ next, start ≤ next → next ≤ c.tail → ¬ c.Overrun next →
    c.pending next = sent.drop (next - start)

theorem Carries.at_tail : c.Carries c.tail [] := by
  refine ⟨rfl, fun next hAfter hBefore _ => ?_⟩
  obtain rfl : next = c.tail := by omega
  rw [pending_tail, drop_nil]

theorem Carries.send (h : c.Carries start sent) (hReceiver : c.receivers.lookup id = some next) :
    (c.send a).Carries start (sent ++ [a]) := by
  obtain ⟨hCap, hTail, -, -⟩ := send_eq (a := a) hReceiver
  have hOld := h.tail
  refine ⟨?_, fun at' hAfter hBefore hRoom => ?_⟩
  · rw [hTail, length_append, length_singleton]
    omega
  · rw [hTail] at hBefore
    rcases Nat.lt_or_ge c.tail at' with hLast | hOlder
    · -- behind the new message
      obtain rfl : at' = (c.send a).tail := by omega
      rw [pending_tail, drop_of_length_le]
      rw [length_append, length_singleton]
      omega
    · have hRoom' : ¬ c.Overrun at' := by
        rw [Overrun, hCap, hTail] at hRoom
        rw [Overrun]
        omega
      rw [pending_send hReceiver hOlder hRoom, h.pending at' hAfter hOlder hRoom',
        drop_append_of_le_length (by omega)]

/-! ## What a receiver gets -/

/-- The receiver came in at `start` and takes the message at `next` now. As long
as no `recv` has said that it lagged, it has got what was sent up to there. -/
structure Follows (c : Broadcast α) (id start next : Nat) (sent got : List α) (lagged : Bool) :
    Prop where
  carries : c.Carries start sent
  position : c.receivers.lookup id = some next
  after : start ≤ next
  before : next ≤ c.tail
  got : lagged = false → got = sent.take (next - start)

theorem Follows.of_subscribe : (c.subscribe id).Follows id c.tail c.tail [] [] false := by
  refine ⟨⟨rfl, Carries.at_tail.pending⟩, AList.lookup_insert _, Nat.le_refl _, Nat.le_refl _, ?_⟩
  intro _
  rw [take_nil]

section

variable (h : c.Follows id start next sent got lagged)

include h

theorem Follows.send (a : α) : (c.send a).Follows id start next (sent ++ [a]) got lagged := by
  obtain ⟨-, hTail, -, hReceivers⟩ := send_eq (a := a) h.position
  have hOld := h.carries.tail
  have hBefore := h.before
  refine ⟨h.carries.send h.position, ?_, h.after, ?_, fun hKept => ?_⟩
  · rw [hReceivers]
    exact h.position
  · omega
  · rw [take_append_of_le_length (by omega)]
    exact h.got hKept

theorem Follows.of_receivers (receivers : Map Nat Nat)
    (hSame : receivers.lookup id = c.receivers.lookup id) :
    { c with receivers }.Follows id start next sent got lagged :=
  ⟨⟨h.carries.tail, h.carries.pending⟩, hSame.trans h.position, h.after, h.before, h.got⟩

omit h in
theorem recv_receivers {r : Received α} (h : c.recv id = some (r, c')) :
    ∃ receivers, c' = { c with receivers } ∧
      ∀ id', id' ≠ id → receivers.lookup id' = c.receivers.lookup id' := by
  obtain ⟨next, -, h⟩ := Option.bind_eq_some_iff.mp h
  have hMoved : ∀ to', ∃ receivers, c.moveTo id to' = { c with receivers } ∧
      ∀ id', id' ≠ id → receivers.lookup id' = c.receivers.lookup id' :=
    fun to' => ⟨_, rfl, fun id' hne => AList.lookup_insert_ne hne⟩
  split at h
  · cases h
    exact hMoved _
  · split at h
    · cases h
      exact ⟨_, rfl, fun _ _ => rfl⟩
    · cases h
      exact hMoved _

theorem Follows.recv {r : Received α} (hRecv : c.recv id = some (r, c')) :
    ∃ next', c'.Follows id start next' sent (r.addTo got) (lagged || r.isLagged) := by
  obtain ⟨next', hPosition, hRecv⟩ := Option.bind_eq_some_iff.mp hRecv
  obtain rfl : next = next' := Option.some_inj.mp (h.position.symm.trans hPosition)
  have hTail := h.carries.tail
  have hAfter := h.after
  split at hRecv
  · -- overrun: what follows is not claimed to be complete
    rename_i hOver
    cases hRecv
    rw [Overrun] at hOver
    refine ⟨_, ⟨⟨h.carries.tail, h.carries.pending⟩, AList.lookup_insert _, ?_, ?_, ?_⟩⟩
    · omega
    · exact Nat.sub_le _ _
    · intro hKept
      simp [Received.isLagged] at hKept
  · rename_i hRoom
    have hPending := h.carries.pending next h.after h.before hRoom
    split at hRecv
    · cases hRecv
      refine ⟨next, ⟨h.carries, h.position, h.after, h.before, fun hKept => h.got ?_⟩⟩
      simpa [Received.isLagged] using hKept
    · -- the next of what was sent
      rename_i a rest hCons
      cases hRecv
      rw [hCons] at hPending
      have hLt : next - start < sent.length := by
        by_contra hNot
        rw [drop_of_length_le (by omega)] at hPending
        cases hPending
      refine ⟨next + 1, ⟨⟨h.carries.tail, h.carries.pending⟩, AList.lookup_insert _, by omega, ?_,
        fun hKept => ?_⟩⟩
      · show next + 1 ≤ c.tail
        omega
      · have hOld := h.got (by simpa [Received.isLagged] using hKept)
        have hNth : sent[next - start]? = some a := by
          rw [← head?_drop, ← hPending]
          rfl
        show got ++ [a] = _
        rw [hOld, Nat.sub_add_comm h.after, take_add_one, hNth]
        rfl

/-- A receiver that has missed nothing has got, or can still get, all of it. -/
theorem Follows.live (hKept : lagged = false) (hRoom : c.isBehind id = false) :
    got ++ c.unread id = sent := by
  rw [isBehind, h.position] at hRoom
  have hPending := h.carries.pending next h.after h.before (of_decide_eq_false hRoom)
  rw [unread, h.position]
  show got ++ c.pending next = sent
  rw [h.got hKept, hPending, take_append_drop]

end

end Broadcast

end DirectWire.Lib
