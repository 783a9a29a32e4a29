import DirectWire.Lib.Recent
import DirectWire.Homa.Integrity

/-!
# Homa — delivering a message once

The receiver core remembers the keys of delivered messages, in a set and in a queue that says
which one to forget first. The queue is the end of the history of deliveries (`Noted.order`).
-/

namespace DirectWire.Homa

open Lib Outcome List

inductive ReceiverCall where
  | data (src : SocketAddr) (pkt : Packet) (payload : Bytes)
  | tick

/-- A call with the clock reading it is made at, and the order in which it iterates the map. -/
structure ReceiverEvent where
  now : Instant
  ord : HashOrder MsgKey
  call : ReceiverCall

namespace ReceiverCore

def call (checks : Bool) (s : ReceiverCore) (e : ReceiverEvent) :
    Outcome Empty (ReceiverCore × List Action) :=
  match e.call with
  | .data src pkt payload => s.handleData checks e.ord src pkt payload e.now
  | .tick => s.tick checks e.ord e.now

variable {checks force : Bool} {ord : HashOrder MsgKey} {now : Instant} {s s' t : ReceiverCore}
  {key : MsgKey} {out : List Action} {src : SocketAddr} {pkt : Packet} {payload : Bytes}

structure SameCache (s s' : ReceiverCore) : Prop where
  completed : s'.completed = s.completed
  completedOrder : s'.completedOrder = s.completedOrder

theorem Moves.cache (h : Moves checks now true s s' out) : SameCache s s' := by
  induction h with
  | refl => exact ⟨rfl, rfl⟩
  | tail _ hMove ih => cases hMove <;> exact ⟨ih.completed, ih.completedOrder⟩

theorem openEntry_cache {m len} (h : s.openEntry key len now = ok (t, m)) : SameCache s t := by
  rcases openEntry_eq h with ⟨-, rfl⟩ | ⟨-, -, rfl⟩ <;> exact ⟨rfl, rfl⟩

theorem mem_of_mem_notedSet {completed order k} (h : k ∈ notedSet completed order key)
    (hKey : k ≠ key) : k ∈ completed := by
  unfold notedSet at h
  split at h
  · split at h
    · exact (Finset.mem_insert.mp h).resolve_left hKey
    · exact (Finset.mem_insert.mp (Finset.mem_of_mem_erase h)).resolve_left hKey
  · exact (Finset.mem_insert.mp h).resolve_left hKey

def deliveredKeys (out : List Action) : List MsgKey := (deliveries out).map fun d => (d.1, d.2.1)

theorem deliveredKeys_of_sends (h : ∀ a ∈ out, a.IsSend) : deliveredKeys out = [] := by
  rw [deliveredKeys, Link.deliveries_of_sends h, map_nil]

theorem deliveredKeys_deliver {data} (h : ∀ a ∈ out, a.IsSend) :
    deliveredKeys ((s.deliver (src, pkt.msgId) src data).2 ++ out) = [(src, pkt.msgId)] := by
  have hOne : deliveries ((s.deliver (src, pkt.msgId) src data).2 ++ out) =
      (src, pkt.msgId, data) :: deliveries out := rfl
  rw [deliveredKeys, hOne, Link.deliveries_of_sends h]
  rfl

/-- What a call does to the memory of deliveries: nothing, or it delivers one message that was not
remembered. In both cases, keys that have come into the table were not remembered. -/
inductive Noted (s : ReceiverCore) : ReceiverCore → List MsgKey → Prop where
  | nothing {s' : ReceiverCore} (hCache : SameCache s s')
      (hBodies : ∀ k, s.bodyAt k = none → s'.bodyAt k = none ∨ k ∉ s.completed) :
      Noted s s' []
  | delivers {s' : ReceiverCore} {key : MsgKey} (hFresh : key ∉ s.completed)
      (hSet : s'.completed = notedSet s.completed s.completedOrder key)
      (hOrder : s'.completedOrder = notedOrder s.completedOrder key)
      (hBodies : ∀ k, s.bodyAt k = none ∨ k = key → s'.bodyAt k = none) :
      Noted s s' [key]

theorem noted_deliver {data m len} (hFresh : (src, pkt.msgId) ∉ s.completed)
    (hOpen : s.openEntry (src, pkt.msgId) len now = ok (t, m))
    (hSchedule : (t.deliver (src, pkt.msgId) src data).1.schedule checks ord now = ok (s', out))
    (hKept : ∀ k, k ≠ (src, pkt.msgId) → t.bodyAt k = s.bodyAt k) :
    Noted s s' (deliveredKeys ((t.deliver (src, pkt.msgId) src data).2 ++ out)) := by
  have hSame := (schedule_moves hSchedule).same
  have hCache := openEntry_cache hOpen
  rw [deliveredKeys_deliver (schedule_moves hSchedule).isSend]
  refine .delivers hFresh ?_ ?_ fun k hk => ?_
  · rw [hSame.completed, deliver_eq, hCache.completed, hCache.completedOrder]
  · rw [hSame.completedOrder, deliver_eq, hCache.completedOrder]
  · rw [hSame.bodyAt, deliver_bodyAt]
    split
    · rfl
    · rename_i hOther
      rw [hKept k hOther]
      exact hk.resolve_right hOther

theorem handleData_noted (h : handleData checks ord s src pkt payload now = ok (s', out)) :
    Noted s s' (deliveredKeys out) := by
  have hParts := handleData_parts h
  cases hParts with
  | ignored | busy => exact .nothing ⟨rfl, rfl⟩ fun k hk => .inl hk
  | empty hFresh _ hOpen hSchedule | completes hFresh _ _ hOpen _ _ hSchedule =>
    exact noted_deliver hFresh hOpen hSchedule (openEntry_spec hOpen).2.2
  | @stores t u _ m m' grants relief hFresh _ _ hOpen _ _ hAdvance hRelief =>
    have hSame := ((advance_moves hAdvance).trans (starveCheck_moves hRelief)).same
    rw [deliveredKeys_of_sends ((advance_moves hAdvance).trans (starveCheck_moves hRelief)).isSend]
    have hCache := openEntry_cache hOpen
    refine .nothing ⟨hSame.completed.trans hCache.completed,
      hSame.completedOrder.trans hCache.completedOrder⟩ fun k hk => ?_
    rw [hSame.bodyAt, bodyAt_insert]
    split
    · rename_i hKey
      exact .inr (hKey ▸ hFresh)
    · rename_i hOther
      exact .inl ((openEntry_spec hOpen).2.2 k hOther ▸ hk)

/-- What one call delivers and notes. -/
theorem call_noted {e} (h : s.call checks e = ok (s', out)) : Noted s s' (deliveredKeys out) := by
  unfold call at h
  split at h
  · exact handleData_noted h
  · have hMoves := tick_moves h
    rw [deliveredKeys_of_sends hMoves.isSend]
    refine .nothing hMoves.cache fun k hk => .inl ?_
    rcases hMoves.sheds.bodyAt k with hSame | hNone
    · exact hSame.trans hk
    · exact hNone

/-! ## The set and the queue -/

/-- The memory is that of the last deliveries of a history, and what is in the table is not
remembered. -/
structure Remembers (history : List MsgKey) (s : ReceiverCore) : Prop where
  spread : Spread completedCache history
  order : s.completedOrder = recent completedCache history
  set : s.completed = s.completedOrder.toFinset
  apart : ∀ k ∈ s.completed, s.bodyAt k = none

theorem notedOrder_recent (history : List MsgKey) (key : MsgKey) :
    notedOrder (recent completedCache history) key = recent completedCache (history ++ [key]) := by
  unfold notedOrder
  rw [length_append, length_singleton]
  rcases Nat.lt_or_ge history.length completedCache with hRoom | hFull
  · rw [if_neg (by rw [recent_of_length_le hRoom.le]; omega), recent_concat hRoom]
  · rw [if_pos (by rw [length_recent]; omega), recent_concat_full hFull]

theorem notedSet_eq {order} (hNodup : order.Nodup) (hNew : key ∉ order) :
    notedSet order.toFinset order key = (notedOrder order key).toFinset := by
  have hAll : insert key order.toFinset = (order ++ [key]).toFinset := by
    rw [toFinset_append, toFinset_cons, toFinset_nil, insert_empty_eq,
      Finset.insert_eq, Finset.union_comm]
  have hDistinct : (order ++ [key]).Nodup := by
    rw [nodup_append]
    refine ⟨hNodup, nodup_singleton key, ?_⟩
    rintro a ha b hb rfl
    exact hNew (mem_singleton.mp hb ▸ ha)
  unfold notedSet notedOrder
  split
  · rw [hAll]
    cases hOrder : order ++ [key] with
    | nil => rfl
    | cons old rest =>
      rw [hOrder] at hDistinct
      have hGone : old ∉ rest.toFinset := by
        rw [mem_toFinset]
        exact (nodup_cons.mp hDistinct).1
      dsimp only
      rw [toFinset_cons, Finset.erase_insert hGone, tail_cons]
  · exact hAll

theorem Remembers.noted {history keys} (h : s.Remembers history) (hNoted : Noted s s' keys) :
    s'.Remembers (history ++ keys) := by
  cases hNoted with
  | nothing hCache hBodies =>
    rw [append_nil]
    refine ⟨h.spread, hCache.completedOrder.trans h.order, ?_, fun k hk => ?_⟩
    · rw [hCache.completed, hCache.completedOrder, h.set]
    · rw [hCache.completed] at hk
      exact (hBodies k (h.apart k hk)).resolve_right (not_not.mpr hk)
  | @delivers key hFresh hSet hOrder hBodies =>
    have hNew : key ∉ recent completedCache history := by
      rw [h.set, mem_toFinset, h.order] at hFresh
      exact hFresh
    have hOrder' : s'.completedOrder = recent completedCache (history ++ [key]) := by
      rw [hOrder, h.order, notedOrder_recent]
    refine ⟨h.spread.concat hNew, hOrder', ?_, fun k hk => hBodies k ?_⟩
    · rw [hSet, hOrder, h.set, h.order, notedSet_eq h.spread.nodup_recent hNew]
    · by_cases hKey : k = key
      · exact .inr hKey
      · -- it was remembered before, since it is not the new one
        rw [hSet] at hk
        exact .inl (h.apart k (mem_of_mem_notedSet hk hKey))

theorem remembers_new (cfg : TransportConfig) : (new cfg).Remembers [] :=
  ⟨.nil, rfl, rfl, fun _ hk => absurd hk (Finset.notMem_empty _)⟩

end ReceiverCore

/-! ## Runs -/

/-- The receiver core with the keys of all deliveries so far. -/
structure Receiving where
  core : ReceiverCore
  delivered : List MsgKey

namespace Receiving

def start (cfg : TransportConfig) : Receiving := ⟨.new cfg, []⟩

def step (checks : Bool) (r : Receiving) (e : ReceiverEvent) : Option Receiving :=
  match r.core.call checks e with
  | .ok (core, out) => some ⟨core, r.delivered ++ ReceiverCore.deliveredKeys out⟩
  | .panic _ => none

theorem remembers_step {checks r r' e} (h : r.core.Remembers r.delivered)
    (hStep : step checks r e = some r') : r'.core.Remembers r'.delivered := by
  unfold step at hStep
  split at hStep
  · rename_i hCall
    cases hStep
    exact h.noted (ReceiverCore.call_noted hCall)
  · cases hStep

/-- **A message is delivered once.** In every run the set and the queue of completed keys agree, the
queue has no key twice and at most `COMPLETED_CACHE` keys, and no completed message is in
reassembly. Between two deliveries of a key there are at least that many of others. -/
theorem suppresses {checks : Bool} {cfg : TransportConfig} {r : Receiving}
    (hRun : Run (step checks) Always (start cfg) r) :
    r.core.completed = r.core.completedOrder.toFinset ∧ r.core.completedOrder.Nodup ∧
      r.core.completedOrder.length ≤ completedCache ∧
      (∀ key ∈ r.core.completed, r.core.incoming.lookup key = none) ∧
      ∀ before key mid after, r.delivered = before ++ key :: (mid ++ key :: after) →
        completedCache ≤ (mid.filter (· ≠ key)).length := by
  have h : r.core.Remembers r.delivered :=
    hRun.invariant (I := fun r => r.core.Remembers r.delivered)
      (ReceiverCore.remembers_new cfg) fun _ _ _ h _ hStep => remembers_step h hStep
  refine ⟨h.set, h.order ▸ h.spread.nodup_recent, by simp [h.order, length_recent], ?_, ?_⟩
  · intro key hKey
    exact Option.map_eq_none_iff.mp (h.apart key hKey)
  · intro before key mid after hDelivered
    exact (hDelivered ▸ h.spread).apart

def piece (msgId : UInt64) (msgLen offset : UInt32) (payload : Bytes) : ReceiverEvent :=
  ⟨0, .stored _, .data Link.sampleSender
    ⟨.data, 0, msgId, msgLen, offset, .ofNat payload.length⟩ payload⟩

/-- A message is delivered, its packet comes again, and then an empty message. -/
theorem suppresses_again : ∃ r, Run (step true) Always (start sampleCfg) r ∧
    r.delivered = [(Link.sampleSender, 1), (Link.sampleSender, 2)] ∧
    (∀ key ∈ r.core.completed, r.core.incoming.lookup key = none) := by
  obtain ⟨r, hRun, hTest⟩ := exists_run_of_exec (step true) Always (start sampleCfg)
    [piece 1 2 0 [5, 6], piece 1 2 0 [5, 6], piece 2 0 0 []]
    (fun r => r.delivered == [(Link.sampleSender, 1), (Link.sampleSender, 2)]) (by decide +kernel)
  exact ⟨r, hRun, beq_iff_eq.mp hTest, (suppresses hRun).2.2.2.1⟩

end Receiving

end DirectWire.Homa
