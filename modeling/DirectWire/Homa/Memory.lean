import DirectWire.Homa.Dedup

/-!
# Homa — bounded memory

Entries of the table of incoming messages are made, delivered and given up on different paths, each
of which edits the list of granted keys on its own.

* `ReceiverCore.Tidy` — how much the table and its buffers hold, and that only messages of the table
  are granted.
-/

namespace DirectWire.Homa

open Lib Outcome List

namespace ReceiverCore

variable {checks ticks : Bool} {ord : HashOrder MsgKey} {now : Instant} {s s' t : ReceiverCore}
  {cfg : TransportConfig} {key : MsgKey} {m m' : InMsg} {out : List Action} {src : SocketAddr}
  {pkt : Packet} {payload : Bytes}

structure Tidy (cfg : TransportConfig) (s : ReceiverCore) : Prop where
  cfg_eq : s.cfg = cfg
  room : s.incoming.size ≤ cfg.maxIncoming
  buffers : s.incoming.All fun _ m => m.buf.length ≤ maxMsgLen
  listed : ∀ key ∈ s.granting, ∃ m, s.incoming.lookup key = some m

section

variable (h : s.Tidy cfg)

include h

theorem Tidy.put {starveQueue}
    (hRoom : s.incoming.lookup key = none → s.incoming.size < cfg.maxIncoming)
    (hBuf : m.buf.length ≤ maxMsgLen) :
    Tidy cfg { s with incoming := s.incoming.insert key m, starveQueue } := by
  refine ⟨h.cfg_eq, ?_, h.buffers.insert hBuf, fun k hk => ?_⟩
  · cases hOld : s.incoming.lookup key with
    | none => exact (Map.size_insert hOld m).trans_le (hRoom hOld)
    | some => exact (Map.size_replace hOld).trans_le h.room
  · rw [Map.lookup_insert_ite]
    split
    · exact ⟨m, rfl⟩
    · exact h.listed k hk

theorem Tidy.update {starveQueue} (hm : s.incoming.lookup key = some m)
    (hBuf : m'.buf.length = m.buf.length) :
    Tidy cfg { s with incoming := s.incoming.insert key m', starveQueue } := by
  refine h.put (fun hNone => ?_) (hBuf.trans_le (h.buffers key m hm))
  rw [hm] at hNone
  cases hNone

theorem Tidy.drop (key : MsgKey) {completed completedOrder starveQueue} :
    Tidy cfg { s with
      incoming := s.incoming.erase key
      granting := s.granting.filter (· ≠ key)
      completed
      completedOrder
      starveQueue } := by
  refine ⟨h.cfg_eq, (kerase_sublist _ _).length_le.trans h.room, h.buffers.erase, fun k hk => ?_⟩
  obtain ⟨hk, hOther⟩ := mem_filter.mp hk
  rw [Map.lookup_erase_ite, if_neg (of_decide_eq_true hOther)]
  exact h.listed k hk

theorem Tidy.move (hMove : Move checks now ticks s s' out) : s'.Tidy cfg := by
  cases hMove with
  | books hListed =>
    exact ⟨h.cfg_eq, h.room, h.buffers, fun key hKey => (hListed key hKey).elim (h.listed key) id⟩
  | grants hm | touches _ hm | resends _ hm => exact h.update hm rfl
  | givesUp => exact h.drop _

theorem Tidy.moves (hMoves : Moves checks now ticks s s' out) : s'.Tidy cfg := by
  induction hMoves with
  | refl => exact h
  | tail _ hMove ih => exact ih.move hMove

theorem Tidy.deliver {len data} (hOpen : s.openEntry key len now = ok (t, m)) :
    (t.deliver key src data).1.Tidy cfg := by
  rw [deliver_eq]
  rcases openEntry_eq hOpen with ⟨-, rfl⟩ | ⟨-, -, rfl⟩
  · exact h.drop key
  · -- what was made for the message is gone again
    rw [Map.erase_insert]
    exact h.drop key

theorem Tidy.store {len packetSize} (hLen : len ≤ maxMsgLen)
    (hRoom : s.incoming.lookup key = none → s.incoming.size < cfg.maxIncoming)
    (hOpen : s.openEntry key len now = ok (t, m))
    (hWrite : m.write packetSize pkt payload now = ok m') :
    Tidy cfg { t with incoming := t.incoming.insert key m' } := by
  have hTidy : t.Tidy cfg := by
    rcases openEntry_eq hOpen with ⟨-, rfl⟩ | ⟨-, rfl, rfl⟩
    · exact h
    · exact h.put hRoom (length_replicate.trans_le hLen)
  refine hTidy.update (openEntry_lookup hOpen).1 ?_
  unfold InMsg.write at hWrite
  split at hWrite
  · obtain ⟨buf, hBuf, hWrite⟩ := bind_eq_ok.mp hWrite
    cases hWrite
    exact length_overwrite hBuf
  · cases hWrite
    rfl

end

/-- BUSY is the whole answer to a packet of a message there is no room for. -/
theorem handleData_full (hFresh : (src, pkt.msgId) ∉ s.completed)
    (hLen : pkt.msgLen.toNat ≤ maxMsgLen) (hNew : s.incoming.lookup (src, pkt.msgId) = none)
    (hFull : s.cfg.maxIncoming ≤ s.incoming.size) :
    handleData checks ord s src pkt payload now =
      ok (s, [.send src ((⟨.busy, 0, pkt.msgId, 0, 0, 0⟩ : Packet).encode [])]) := by
  unfold handleData
  rw [if_neg hFresh, if_neg (Nat.not_lt.mpr hLen), if_pos ⟨by rw [hNew]; rfl, hFull⟩]

theorem Tidy.handleData (h : s.Tidy cfg)
    (hData : handleData checks ord s src pkt payload now = ok (s', out)) : s'.Tidy cfg := by
  cases handleData_parts hData with
  | ignored | busy => exact h
  | empty _ _ hOpen hSchedule | completes _ _ _ hOpen _ _ hSchedule =>
    exact (h.deliver hOpen).moves (schedule_moves hSchedule : Moves _ _ false _ _ _)
  | stores hFresh _ hLen hOpen hWrite _ hAdvance hRelief =>
    by_cases hFull : s.incoming.lookup (src, pkt.msgId) = none ∧ cfg.maxIncoming ≤ s.incoming.size
    · rw [handleData_full hFresh hLen hFull.1 (h.cfg_eq ▸ hFull.2)] at hData
      obtain rfl : s = s' := (Prod.mk.inj (ok.inj hData)).1
      exact h
    · have hStored := h.store hLen (fun hNew => not_le.mp fun hSize => hFull ⟨hNew, hSize⟩) hOpen
        hWrite
      exact (hStored.moves (advance_moves hAdvance : Moves _ _ false _ _ _)).moves
        (starveCheck_moves hRelief : Moves _ _ false _ _ _)

theorem Tidy.call (h : s.Tidy cfg) {e : ReceiverEvent} (hCall : s.call checks e = ok (s', out)) :
    s'.Tidy cfg := by
  unfold ReceiverCore.call at hCall
  split at hCall
  · exact h.handleData hCall
  · exact h.moves (tick_moves hCall)

end ReceiverCore

namespace Receiving

variable {checks : Bool} {cfg : TransportConfig} {r : Receiving}

/-- **Bounded memory.** Whatever packets come, there are at most `max_incoming` messages in
reassembly, with buffers of at most `MAX_MSG_LEN` bytes each, and only they are granted. A packet of
a new message that finds the table full changes nothing and is answered with BUSY. -/
theorem memory_bounded (hRun : Run (step checks) Always (start cfg) r) :
    r.core.incoming.size ≤ cfg.maxIncoming ∧
    (r.core.incoming.entries.map fun e => e.2.buf.length).sum ≤ cfg.maxIncoming * maxMsgLen ∧
    (∀ key ∈ r.core.granting, ∃ m, r.core.incoming.lookup key = some m) ∧
    ∀ ord src pkt payload now, (src, pkt.msgId) ∉ r.core.completed →
      pkt.msgLen.toNat ≤ maxMsgLen → r.core.incoming.lookup (src, pkt.msgId) = none →
      cfg.maxIncoming ≤ r.core.incoming.size →
      r.core.handleData checks ord src pkt payload now =
        ok (r.core, [.send src ((⟨.busy, 0, pkt.msgId, 0, 0, 0⟩ : Packet).encode [])]) := by
  have h : r.core.Tidy cfg := by
    refine hRun.invariant (I := fun r => r.core.Tidy cfg)
      ⟨rfl, Nat.zero_le _, .empty, forall_mem_nil _⟩ fun s s' e h _ hStep => ?_
    unfold step at hStep
    split at hStep
    · rename_i hCall
      cases hStep
      exact h.call hCall
    · cases hStep
  refine ⟨h.room, ?_, h.listed, fun ord src pkt payload now hFresh hLen hNew hFull =>
    ReceiverCore.handleData_full hFresh hLen hNew (h.cfg_eq ▸ hFull)⟩
  have hEach : ∀ n ∈ r.core.incoming.entries.map (fun e => e.2.buf.length), n ≤ maxMsgLen := by
    intro n hn
    obtain ⟨e, he, rfl⟩ := mem_map.mp hn
    exact h.buffers e.1 e.2 (AList.mem_lookup_iff.mpr he)
  refine (sum_le_card_nsmul _ _ hEach).trans ?_
  rw [length_map, smul_eq_mul]
  exact Nat.mul_le_mul_right _ h.room

theorem memory_bounded_one : ∃ r, Run (step true) Always (start sampleCfg) r ∧
    r.core.incoming.size = 1 ∧ r.core.granting = [(Link.sampleSender, 1)] ∧
    ∀ key ∈ r.core.granting, ∃ m, r.core.incoming.lookup key = some m := by
  obtain ⟨r, hRun, hTest⟩ := exists_run_of_exec (step true) Always (start sampleCfg)
    [piece 1 20 0 [1, 2, 3, 4]]
    (fun r => r.core.incoming.size == 1 && r.core.granting == [(Link.sampleSender, 1)])
    (by decide +kernel)
  obtain ⟨hSize, hGranting⟩ := (Bool.and_eq_true _ _).mp hTest
  exact ⟨r, hRun, beq_iff_eq.mp hSize, beq_iff_eq.mp hGranting, (memory_bounded hRun).2.2.1⟩

end Receiving

end DirectWire.Homa
