import DirectWire.Homa.Hostile
import DirectWire.Homa.Dedup

/-!
# Homa — reassembly of aligned chunks

The receiver core fed with the chunks of messages that are cut at multiples of the packet size, in
any order and any number of times. The bitmap of a message marks exactly the chunks that were
supplied, so the byte count is full in the call that supplies the last one.

* `ReceiverCore.handleData_writes`, `write_marks` — a packet that is let in marks its own slot.
-/

namespace DirectWire.Homa

open Lib Outcome List ReceiverCore

/-! ## Bodies and chunks -/

variable {i : Nat} {payload : Bytes} {pkt : Packet} {now : Instant}

section Slots

variable {size : Nat} {data : Bytes} {m m' : InMsg}

theorem IsSlot.index (hSize : 0 < size) (h : IsSlot size data i pkt payload) :
    pkt.offset.toNat / size = i := by
  rw [h.offset, Nat.mul_div_cancel _ hSize]

theorem IsSlot.ends (h : IsSlot size data i pkt payload) :
    i * size + payload.length ≤ data.length := by
  have hLen := h.payload_length
  rcases h.inside with hInside | rfl
  · omega
  · omega

theorem Body.Fits.receivedBytes_le {b : Body} (h : b.Fits size data) :
    b.receivedBytes ≤ data.length := by
  rw [h.bytes]
  refine (Finset.card_le_card (Finset.filter_subset _ _)).trans ?_
  rw [Finset.card_range]

theorem Body.Fits.room (hSize : 0 < size) (hFits : m.body.Fits size data)
    (hSlot : IsSlot size data i pkt payload) (hTakes : m.takes size pkt payload = true) :
    m.receivedBytes + payload.length ≤ data.length := by
  have hFree : m.received[i]? = some false := by
    simp only [InMsg.takes, hSlot.index hSize, Bool.and_eq_true, beq_iff_eq] at hTakes
    exact hTakes.1
  have hCard : (covered size data.length (m.received.set i true)).card ≤ data.length := by
    refine (Finset.card_le_card (Finset.filter_subset _ _)).trans ?_
    rw [Finset.card_range]
  have hBytes : m.receivedBytes = (covered size data.length m.received).card := hFits.bytes
  rw [card_covered_set hSize hFree, ← hSlot.payload_length, ← hBytes] at hCard
  exact hCard

theorem write_marks (hSize : 0 < size) (hFits : m.body.Fits size data) (hSome : data ≠ [])
    (hSlot : IsSlot size data i pkt payload) (h : m.write size pkt payload now = ok m') (j : Nat) :
    m'.received[j]? = some true ↔ j = i ∨ m.received[j]? = some true := by
  have hPos : 0 < data.length := length_pos_of_ne_nil hSome
  have hInside : i * size < data.length := by
    rcases hSlot.inside with hInside | rfl
    · exact hInside
    · omega
  -- the slot exists
  have hIdx : i < m.received.length := by
    have hSlots : data.length ≤ m.received.length * size := hFits.slots
    exact Nat.lt_of_mul_lt_mul_right (lt_of_lt_of_le hInside hSlots)
  have hEnd : decide (pkt.offset.toNat + payload.length ≤ pkt.msgLen.toNat) = true := by
    rw [decide_eq_true_eq, hSlot.offset, hSlot.msgLen]
    exact hSlot.ends
  unfold InMsg.write InMsg.takes at h
  rw [hSlot.index hSize, hEnd, Bool.and_true] at h
  split at h
  · obtain ⟨buf, -, h⟩ := bind_eq_ok.mp h
    cases h
    rw [getElem?_set]
    by_cases hij : i = j
    · subst hij
      rw [if_pos rfl, if_pos hIdx]
      exact ⟨fun _ => .inl rfl, fun _ => rfl⟩
    · rw [if_neg hij]
      exact ⟨.inr, fun hOr => hOr.resolve_left (Ne.symm hij)⟩
  · rename_i hNot
    cases h
    -- a slot that is there and not free is marked
    have hMarked : m.received[i]? = some true := by
      rw [getElem?_eq_getElem hIdx] at hNot ⊢
      simpa using hNot
    constructor
    · exact .inr
    · rintro (rfl | hj)
      · exact hMarked
      · exact hj

end Slots

variable {checks : Bool} {ord : HashOrder MsgKey} {s s' : ReceiverCore} {out : List Action}
  {src : SocketAddr} {cfg : TransportConfig} {content : MsgKey → Bytes}

namespace ReceiverCore

theorem handleData_writes (hFresh : (src, pkt.msgId) ∉ s.completed)
    (hSome : pkt.msgLen.toNat ≠ 0) (hLen : pkt.msgLen.toNat ≤ maxMsgLen)
    (hRoom : s.incoming.lookup (src, pkt.msgId) = none → s.incoming.size < s.cfg.maxIncoming)
    (h : handleData checks ord s src pkt payload now = ok (s', out)) :
    ∃ m, (s.entryFor src pkt now).write s.cfg.packetSize pkt payload now = ok m ∧
      ((m.complete = true ∧ s'.bodyAt (src, pkt.msgId) = none ∧
          deliveries out = [(src, pkt.msgId, m.buf)]) ∨
        (m.complete = false ∧ s'.bodyAt (src, pkt.msgId) = some m.body ∧ deliveries out = [])) := by
  have hParts := handleData_parts h
  cases hParts with
  | ignored hDrop =>
    rcases hDrop with hDone | hLong
    · exact absurd hDone hFresh
    · omega
  | busy _ hNew hFull => exact absurd (hRoom hNew) (by omega)
  | empty _ hZero => exact absurd hZero hSome
  | @completes t _ m m' grants _ _ _ hOpen hWrite hDone hSchedule =>
    obtain ⟨rfl, hCfg, -⟩ := openEntry_spec hOpen
    rw [hCfg] at hWrite
    refine ⟨m', hWrite, .inl ⟨hDone, ?_, ?_⟩⟩
    · rw [(schedule_moves hSchedule).same.bodyAt, deliver_bodyAt, if_pos rfl]
    · have hOne : deliveries ((t.deliver (src, pkt.msgId) src m'.buf).2 ++ grants) =
          (src, pkt.msgId, m'.buf) :: deliveries grants := rfl
      rw [hOne, Link.deliveries_of_sends (schedule_moves hSchedule).isSend]
  | @stores t u _ m m' grants relief _ _ _ hOpen hWrite hMore hAdvance hRelief =>
    obtain ⟨rfl, hCfg, -⟩ := openEntry_spec hOpen
    have hSame := ((advance_moves hAdvance).trans (starveCheck_moves hRelief)).same
    have hSend := ((advance_moves hAdvance).trans (starveCheck_moves hRelief)).isSend
    rw [hCfg] at hWrite
    refine ⟨m', hWrite, .inr ⟨hMore, ?_, Link.deliveries_of_sends hSend⟩⟩
    rw [hSame.bodyAt, bodyAt_insert, if_pos rfl]

/-! ## All messages -/

/-- Every message of the table is incomplete, and holds exactly the marked chunks of its content. -/
structure Assembles (cfg : TransportConfig) (content : MsgKey → Bytes) (s : ReceiverCore) :
    Prop where
  cfg_eq : s.cfg = cfg
  fits : ∀ key b, s.bodyAt key = some b → b.Fits cfg.packetSize (content key)
  incomplete : ∀ key b, s.bodyAt key = some b → b.receivedBytes ≠ b.totalLen
  short : ∀ key b, s.bodyAt key = some b → (content key).length ≤ maxMsgLen

section

variable (h : s.Assembles cfg content)

include h

theorem Assembles.bounded : s.Bounded cfg := by
  refine ⟨h.cfg_eq, fun key b hb => ?_⟩
  have hFits := h.fits key b hb
  refine ⟨hFits.buf_length.trans hFits.totalLen.symm, ?_, ?_⟩
  · rw [hFits.totalLen]
    exact hFits.receivedBytes_le
  · rw [hFits.totalLen]
    exact h.short key b hb

theorem Assembles.writeFits (hSlot : IsSlot cfg.packetSize (content (src, pkt.msgId)) i pkt payload)
    :
    WriteFits s src pkt payload := by
  intro m hm _ _ _ hTakes
  have hFits := h.fits (src, pkt.msgId) m.body (by rw [bodyAt, Option.mem_def.mp hm]; rfl)
  have hTotal : m.totalLen = (content (src, pkt.msgId)).length := hFits.totalLen
  rw [h.cfg_eq] at hTakes
  rw [hTotal]
  refine ⟨?_, hFits.room cfg.packetSize_pos hSlot hTakes⟩
  rw [hSlot.offset]
  exact hSlot.ends

theorem Assembles.entryFor_fits (now : Instant)
    (hSlot : IsSlot cfg.packetSize (content (src, pkt.msgId)) i pkt payload) :
    (s.entryFor src pkt now).body.Fits cfg.packetSize (content (src, pkt.msgId)) := by
  unfold entryFor
  cases hm : s.incoming.lookup (src, pkt.msgId) with
  | some m => exact h.fits (src, pkt.msgId) m.body (by rw [bodyAt, hm]; rfl)
  | none =>
    rw [Option.getD_none, hSlot.msgLen, h.cfg_eq]
    exact new_fits cfg.packetSize_pos _

theorem Assembles.update {key x} (hCfg : s'.cfg = s.cfg)
    (hUpdate : ∀ k, s'.bodyAt k = if k = key then x else s.bodyAt k)
    (hx : ∀ b, x = some b → b.Fits cfg.packetSize (content key) ∧
      b.receivedBytes ≠ b.totalLen ∧ (content key).length ≤ maxMsgLen) :
    s'.Assembles cfg content := by
  have hAll : ∀ k b, s'.bodyAt k = some b → b.Fits cfg.packetSize (content k) ∧
      b.receivedBytes ≠ b.totalLen ∧ (content k).length ≤ maxMsgLen := by
    intro k b hb
    rw [hUpdate] at hb
    split at hb
    · rename_i hKey
      rw [hKey]
      exact hx b hb
    · exact ⟨h.fits k b hb, h.incomplete k b hb, h.short k b hb⟩
  exact ⟨hCfg.trans h.cfg_eq, fun k b hb => (hAll k b hb).1, fun k b hb => (hAll k b hb).2.1,
    fun k b hb => (hAll k b hb).2.2⟩

theorem Assembles.sheds (hSheds : Sheds s s') : s'.Assembles cfg content := by
  have hBefore : ∀ k b, s'.bodyAt k = some b → s.bodyAt k = some b := by
    intro k b hb
    rcases hSheds.bodyAt k with hSame | hNone
    · exact hSame ▸ hb
    · rw [hNone] at hb
      cases hb
  exact ⟨hSheds.cfg.trans h.cfg_eq, fun k b hb => h.fits k b (hBefore k b hb),
    fun k b hb => h.incomplete k b (hBefore k b hb), fun k b hb => h.short k b (hBefore k b hb)⟩

theorem Assembles.dataStep (hSlot : IsSlot cfg.packetSize (content (src, pkt.msgId)) i pkt payload)
    (hStep : DataStep s src pkt payload now s' out) : s'.Assembles cfg content := by
  have hEntry := h.entryFor_fits now hSlot
  cases hStep with
  | ignored => exact h
  | empty _ hCfg hBodies | completes _ _ _ _ _ hCfg hBodies => exact h.update hCfg hBodies (by simp)
  | @stores _ _ m _ _ hLen hWrite hMore hCfg hBodies =>
    refine h.update hCfg hBodies fun b hb => ?_
    cases hb
    rw [h.cfg_eq] at hWrite
    refine ⟨write_fits cfg.packetSize_pos hSlot hEntry hWrite, fun hDone => ?_, ?_⟩
    · rw [InMsg.complete_iff.mpr hDone] at hMore
      cases hMore
    · rw [← hSlot.msgLen]
      exact hLen

end

theorem DataStep.deliveries_key (hStep : DataStep s src pkt payload now s' out) :
    ∀ d ∈ deliveries out, (d.1, d.2.1) = (src, pkt.msgId) := by
  have hOne {data : Bytes} {grants : List Action} (hSend : ∀ a ∈ grants, a.IsSend) :
      deliveries (.deliver src pkt.msgId data :: grants) = [(src, pkt.msgId, data)] := by
    have hCons : deliveries (.deliver src pkt.msgId data :: grants) =
        (src, pkt.msgId, data) :: deliveries grants := rfl
    rw [hCons, Link.deliveries_of_sends hSend]
  intro d hd
  cases hStep with
  | ignored _ hSend | stores _ _ _ _ _ _ _ hSend =>
    rw [Link.deliveries_of_sends hSend] at hd
    cases hd
  | empty _ _ _ hSend | completes _ _ _ _ _ _ _ hSend =>
    rw [hOne hSend, mem_singleton] at hd
    rw [hd]

theorem DataStep.bodyAt_other {key : MsgKey} (hStep : DataStep s src pkt payload now s' out)
    (hKey : key ≠ (src, pkt.msgId)) : s'.bodyAt key = s.bodyAt key := by
  cases hStep with
  | ignored => rfl
  | empty _ _ hBodies | completes _ _ _ _ _ _ hBodies | stores _ _ _ _ _ _ hBodies =>
    rw [hBodies, if_neg hKey]

theorem entryFor_marks (now : Instant) (j : Nat) :
    (s.entryFor src pkt now).received[j]? = some true ↔
      ∃ b, s.bodyAt (src, pkt.msgId) = some b ∧ b.received[j]? = some true := by
  unfold entryFor bodyAt
  cases s.incoming.lookup (src, pkt.msgId) with
  | some => simp [InMsg.body]
  | none =>
    -- nothing of a new message is marked
    simp [InMsg.new, getElem?_replicate]

end ReceiverCore

/-! ## One message -/

/-- A receiver core, with the chunks of one message it has been given, and what it has delivered
under the key of that message. -/
structure Assembly where
  core : ReceiverCore
  now : Instant
  supplied : Finset Nat
  delivered : List Bytes

namespace Assembly

def start (cfg : TransportConfig) (now : Instant) : Assembly := ⟨.new cfg, now, ∅, []⟩

def supplies (cfg : TransportConfig) (key : MsgKey) : ReceiverCall → Finset Nat
  | .data src pkt _ => if (src, pkt.msgId) = key then {pkt.offset.toNat / cfg.packetSize} else ∅
  | .tick => ∅

def deliveredTo (key : MsgKey) (out : List Action) : List Bytes :=
  (deliveries out).filterMap fun d => if (d.1, d.2.1) = key then some d.2.2 else none

def step (checks : Bool) (key : MsgKey) (a : Assembly) (e : ReceiverEvent) : Option Assembly :=
  if a.now ≤ e.now then
    match a.core.call checks e with
    | .ok (core, out) => some
        { core
          now := e.now
          supplied := a.supplied ∪ supplies a.core.cfg key e.call
          delivered := a.delivered ++ deliveredTo key out }
    | .panic _ => none
  else none

/-- The calls that are made: packets are aligned chunks of the messages of their keys, and the
message that is followed is not refused, not given up and not forgotten. -/
structure Orderly (checks : Bool) (content : MsgKey → Bytes) (key : MsgKey) (a : Assembly)
    (e : ReceiverEvent) : Prop where
  slot : ∀ src pkt payload, e.call = .data src pkt payload →
    ∃ i, IsSlot a.core.cfg.packetSize (content (src, pkt.msgId)) i pkt payload
  admitted : ∀ src pkt payload, e.call = .data src pkt payload → (src, pkt.msgId) = key →
    key ∉ a.core.completed → a.core.incoming.lookup key = none →
    a.core.incoming.size < a.core.cfg.maxIncoming
  kept : ∀ core out, a.core.call checks e = ok (core, out) → e.call = .tick →
    (a.core.incoming.lookup key).isSome → (core.incoming.lookup key).isSome
  remembered : ∀ core out, a.core.call checks e = ok (core, out) →
    key ∈ a.core.completed → key ∈ core.completed

def HasAll (cfg : TransportConfig) (data : Bytes) (a : Assembly) : Prop :=
  ∀ i, i * cfg.packetSize < data.length → i ∈ a.supplied

/-- Where the message is: its marks are the chunks supplied, or it has been delivered. -/
inductive Progress (cfg : TransportConfig) (content : MsgKey → Bytes) (key : MsgKey)
    (a : Assembly) : Prop where
  | underway (hFresh : key ∉ a.core.completed) (hDelivered : a.delivered = [])
      (hMarks : ∀ i, i ∈ a.supplied ↔ ∃ b, a.core.bodyAt key = some b ∧ b.received[i]? = some true)
  | done (hCompleted : key ∈ a.core.completed) (hDelivered : a.delivered = [content key])
      (hAll : a.HasAll cfg (content key))

structure Inv (cfg : TransportConfig) (content : MsgKey → Bytes) (key : MsgKey) (a : Assembly) :
    Prop where
  assembles : a.core.Assembles cfg content
  remembers : ∃ history, a.core.Remembers history
  progress : a.Progress cfg content key

variable {key : MsgKey} {a a' : Assembly} {e : ReceiverEvent} {core : ReceiverCore}

theorem deliveredTo_of_deliveries_nil (h : deliveries out = []) : deliveredTo key out = [] := by
  rw [deliveredTo, h, filterMap_nil]

theorem Progress.frame {supplied} (h : a.Progress cfg content key)
    (hSupplied : supplied = a.supplied ∨ key ∈ a.core.completed ∧ a.supplied ⊆ supplied)
    (hBody : core.bodyAt key = a.core.bodyAt key)
    (hCompleted : key ∈ core.completed ↔ key ∈ a.core.completed)
    (hDelivered : deliveredTo key out = []) :
    Progress cfg content key ⟨core, now, supplied, a.delivered ++ deliveredTo key out⟩ := by
  rw [hDelivered, append_nil]
  cases h with
  | underway hFresh hNothing hMarks =>
    have hSame : supplied = a.supplied := hSupplied.resolve_right fun hDone => hFresh hDone.1
    subst hSame
    refine .underway (hCompleted.not.mpr hFresh) hNothing ?_
    rw [hBody]
    exact hMarks
  | done hThere hOnce hAll =>
    refine .done (hCompleted.mpr hThere) hOnce fun i hi => ?_
    rcases hSupplied with hSame | ⟨-, hMore⟩
    · exact hSame ▸ hAll i hi
    · exact hMore (hAll i hi)

theorem Progress.writes {history} (hAssembles : a.core.Assembles cfg content)
    (hRemembers : a.core.Remembers history) (hSome : content (src, pkt.msgId) ≠ [])
    (hLen : (content (src, pkt.msgId)).length ≤ maxMsgLen)
    (hFresh : (src, pkt.msgId) ∉ a.core.completed) (hNothing : a.delivered = [])
    (hMarks : ∀ i, i ∈ a.supplied ↔
      ∃ b, a.core.bodyAt (src, pkt.msgId) = some b ∧ b.received[i]? = some true)
    (hSlot : IsSlot cfg.packetSize (content (src, pkt.msgId)) i pkt payload)
    (hRoom : a.core.incoming.lookup (src, pkt.msgId) = none →
      a.core.incoming.size < a.core.cfg.maxIncoming)
    (h : a.core.handleData checks ord src pkt payload now = ok (core, out)) :
    Progress cfg content (src, pkt.msgId)
      ⟨core, now, a.supplied ∪ {i}, a.delivered ++ deliveredTo (src, pkt.msgId) out⟩ := by
  have hPos : 0 < (content (src, pkt.msgId)).length := length_pos_of_ne_nil hSome
  have hMsgLen := hSlot.msgLen
  obtain ⟨m, hWrite, hAfter⟩ :=
    handleData_writes hFresh (by omega) (by omega) hRoom h
  rw [hAssembles.cfg_eq] at hWrite
  have hEntry := hAssembles.entryFor_fits now hSlot
  have hFits := write_fits cfg.packetSize_pos hSlot hEntry hWrite
  have hMarks' : ∀ j, j ∈ a.supplied ∪ {i} ↔ m.received[j]? = some true := by
    intro j
    rw [write_marks cfg.packetSize_pos hEntry hSome hSlot hWrite, entryFor_marks,
      Finset.mem_union, Finset.mem_singleton, hMarks, or_comm]
  have hNoted := handleData_noted h
  rw [hNothing, nil_append]
  rcases hAfter with ⟨hDone, -, hDeliveries⟩ | ⟨hMore, hBody, hDeliveries⟩
  · -- every byte is counted, so every chunk is marked
    have hFull := InMsg.complete_iff.mp hDone
    have hKeys : deliveredKeys out = [(src, pkt.msgId)] := by
      rw [deliveredKeys, hDeliveries]
      rfl
    have hData : m.buf = content (src, pkt.msgId) := hFits.complete hFull
    refine .done ?_ ?_ fun j hj => (hMarks' j).mpr ?_
    · rw [hKeys] at hNoted
      have hLater := hRemembers.noted hNoted
      rw [hLater.set, mem_toFinset, hLater.order]
      exact mem_recent_of_lt (by decide)
    · rw [deliveredTo, hDeliveries, filterMap_cons, if_pos rfl, hData]
      rfl
    · have hAll := forall_of_card_covered (hFits.bytes.symm.trans (hFull.trans hFits.totalLen))
      have hMark := hAll (j * cfg.packetSize) hj
      rw [Nat.mul_div_cancel _ cfg.packetSize_pos] at hMark
      exact hMark
  · have hKeys : deliveredKeys out = [] := by
      rw [deliveredKeys, hDeliveries]
      rfl
    rw [hKeys] at hNoted
    refine .underway ?_ (deliveredTo_of_deliveries_nil hDeliveries) fun j => ?_
    · cases hNoted with
      | nothing hCache =>
        rw [hCache.completed]
        exact hFresh
    · rw [hMarks', hBody]
      constructor
      · exact fun hj => ⟨m.body, rfl, hj⟩
      · rintro ⟨b, hb, hj⟩
        cases hb
        exact hj

theorem Progress.other {supplied} (h : a.Progress cfg content key) (hKey : key ≠ (src, pkt.msgId))
    (hSupplied : supplied = a.supplied)
    (hRemembered : key ∈ a.core.completed → key ∈ core.completed)
    (hData : a.core.handleData checks ord src pkt payload now = ok (core, out)) :
    Progress cfg content key ⟨core, now, supplied, a.delivered ++ deliveredTo key out⟩ := by
  have hStep := handleData_cases hData
  have hDeliveries := hStep.deliveries_key
  have hNoted := handleData_noted hData
  refine h.frame (.inl hSupplied) (hStep.bodyAt_other hKey) ⟨fun hThere => ?_, hRemembered⟩ ?_
  · -- only the key of the packet can have come into the set
    generalize hKeys : deliveredKeys out = keys at hNoted
    cases hNoted with
    | nothing hCache => exact hCache.completed ▸ hThere
    | @delivers k _ hSet =>
      have hk : k ∈ deliveredKeys out := hKeys ▸ mem_singleton_self k
      obtain ⟨d, hd, rfl⟩ := mem_map.mp hk
      rw [hSet, hDeliveries d hd] at hThere
      exact mem_of_mem_notedSet hThere hKey
  · rw [deliveredTo, filterMap_eq_nil_iff]
    intro d hd
    rw [if_neg]
    rw [hDeliveries d hd]
    exact Ne.symm hKey

theorem Progress.data (hInv : a.Inv cfg content key) (hSome : content key ≠ [])
    (hLen : (content key).length ≤ maxMsgLen)
    (hSlot : IsSlot cfg.packetSize (content (src, pkt.msgId)) i pkt payload)
    (hRoom : (src, pkt.msgId) = key → key ∉ a.core.completed →
      a.core.incoming.lookup key = none → a.core.incoming.size < a.core.cfg.maxIncoming)
    (hRemembered : key ∈ a.core.completed → key ∈ core.completed)
    (h : a.core.handleData checks ord src pkt payload now = ok (core, out)) :
    Progress cfg content key
      { core
        now
        supplied := a.supplied ∪ supplies a.core.cfg key (.data src pkt payload)
        delivered := a.delivered ++ deliveredTo key out } := by
  obtain ⟨hAssembles, ⟨history, hRemembers⟩, hProgress⟩ := hInv
  unfold supplies
  dsimp only
  split
  · rename_i hKey
    subst hKey
    rw [hAssembles.cfg_eq, hSlot.index cfg.packetSize_pos]
    have hMore : a.supplied ⊆ a.supplied ∪ {i} := Finset.subset_union_left
    by_cases hDone : (src, pkt.msgId) ∈ a.core.completed
    · -- a late chunk of a delivered message is dropped
      have hParts := handleData_parts h
      cases hParts with
      | ignored => exact hProgress.frame (.inr ⟨hDone, hMore⟩) rfl Iff.rfl rfl
      | busy hFresh | empty hFresh | completes hFresh | stores hFresh => exact absurd hDone hFresh
    · cases hProgress with
      | underway hFresh hNothing hMarks =>
        exact Progress.writes hAssembles hRemembers hSome hLen hFresh hNothing hMarks hSlot
          (hRoom rfl hFresh) h
      | done hCompleted => exact absurd hCompleted hDone
  · rename_i hKey
    exact hProgress.other (Ne.symm hKey) (Finset.union_empty _) hRemembered h

theorem Progress.tick (h : a.Progress cfg content key)
    (hKept : (a.core.incoming.lookup key).isSome → (core.incoming.lookup key).isSome)
    (hTick : a.core.tick checks ord now = ok (core, out)) :
    Progress cfg content key
      { core
        now
        supplied := a.supplied ∪ supplies a.core.cfg key .tick
        delivered := a.delivered ++ deliveredTo key out } := by
  have hMoves := tick_moves hTick
  refine h.frame (.inl (Finset.union_empty _)) ?_ (by rw [hMoves.cache.completed])
    (deliveredTo_of_deliveries_nil (Link.deliveries_of_sends hMoves.isSend))
  rcases hMoves.sheds.bodyAt key with hSame | hNone
  · exact hSame
  · -- the message was not given up, so there was none
    have hGone : core.incoming.lookup key = none := Option.map_eq_none_iff.mp hNone
    rw [hGone] at hKept
    have hBefore : a.core.incoming.lookup key = none := by
      by_contra hThere
      exact absurd (hKept (Option.isSome_iff_ne_none.mpr hThere)) (by simp)
    rw [hNone, bodyAt, hBefore, Option.map_none]

theorem call_returns (hAssembles : a.core.Assembles cfg content)
    (hOk : Orderly checks content key a e) (hRep : Representable cfg e.now) :
    ∃ core out, a.core.call checks e = ok (core, out) := by
  have hBounded := hAssembles.bounded
  have hNoPanic : (a.core.call checks e).NoPanic := by
    unfold call
    cases hCall : e.call with
    | data src pkt payload =>
      obtain ⟨i, hSlot⟩ := hOk.slot src pkt payload hCall
      rw [hAssembles.cfg_eq] at hSlot
      exact handleData_noPanic checks e.ord hBounded hRep (hAssembles.writeFits hSlot)
    | tick => exact tick_noPanic hBounded hRep checks e.ord
  obtain ⟨⟨core, out⟩, h⟩ := exists_ok_of_noPanic hNoPanic
  exact ⟨core, out, h⟩

theorem inv_step (hSome : content key ≠ []) (hLen : (content key).length ≤ maxMsgLen)
    (hInv : a.Inv cfg content key) (hOk : Orderly checks content key a e)
    (hStep : step checks key a e = some a') : a'.Inv cfg content key := by
  have hAssembles := hInv.assembles
  obtain ⟨history, hRemembers⟩ := hInv.remembers
  unfold step at hStep
  split at hStep
  · split at hStep
    · rename_i core out hCall
      cases hStep
      have hRemembered := hOk.remembered core out hCall
      have hKept := hOk.kept core out hCall
      refine ⟨?_, ⟨_, hRemembers.noted (call_noted hCall)⟩, ?_⟩
      · dsimp only
        unfold call at hCall
        split at hCall
        · rename_i src pkt payload hData
          obtain ⟨i, hSlot⟩ := hOk.slot src pkt payload hData
          rw [hAssembles.cfg_eq] at hSlot
          exact hAssembles.dataStep hSlot (handleData_cases hCall)
        · exact hAssembles.sheds (tick_moves hCall).sheds
      · unfold call at hCall
        split at hCall
        · rename_i src pkt payload hData
          obtain ⟨i, hSlot⟩ := hOk.slot src pkt payload hData
          rw [hAssembles.cfg_eq] at hSlot
          rw [hData]
          exact Progress.data hInv hSome hLen hSlot (hOk.admitted src pkt payload hData)
            hRemembered hCall
        · rename_i hTick
          rw [hTick]
          exact hInv.progress.tick (hKept hTick) hCall
    · cases hStep
  · cases hStep

theorem inv_start (cfg : TransportConfig) (content : MsgKey → Bytes) (key : MsgKey)
    (now : Instant) : (start cfg now).Inv cfg content key := by
  have hEmpty : ∀ k, (new cfg).bodyAt k = none := fun _ => rfl
  refine ⟨⟨rfl, ?_, ?_, ?_⟩, ⟨[], remembers_new cfg⟩, ?_⟩
  iterate 3
    intro k b hb
    cases (hEmpty k).symm.trans hb
  · refine .underway (Finset.notMem_empty _) rfl fun i => ?_
    constructor
    · exact fun hi => absurd hi (Finset.notMem_empty _)
    · rintro ⟨b, hb, -⟩
      cases (hEmpty key).symm.trans hb

/-- **Every message is delivered once.** It is not empty and at most `MAX_MSG_LEN` long. Its chunks
come in any order and any number of times, among those of other messages (`Orderly`), and at times
whose sums are instants (`Representable`). Then it has been delivered once if all its chunks were
supplied (`HasAll`), and not at all otherwise; and every next call returns. -/
theorem delivers_once {t₀ : Instant} (hSome : content key ≠ [])
    (hLen : (content key).length ≤ maxMsgLen)
    (hRun : Run (step checks key)
      (fun a e => Orderly checks content key a e ∧ Representable cfg e.now) (start cfg t₀) a) :
    (a.HasAll cfg (content key) → a.delivered = [content key]) ∧
      (¬ a.HasAll cfg (content key) → a.delivered = []) ∧
      ∀ e, a.now ≤ e.now → Orderly checks content key a e → Representable cfg e.now →
        ∃ a', step checks key a e = some a' := by
  have hInv : a.Inv cfg content key :=
    hRun.invariant (I := Inv cfg content key) (inv_start cfg content key t₀)
      fun _ _ _ h hOk hStep => inv_step hSome hLen h hOk.1 hStep
  refine ⟨fun hAll => ?_, fun hNot => ?_, fun e hNow hOk hRep => ?_⟩
  · cases hInv.progress with
    | underway hFresh hNothing hMarks =>
      -- a message that is underway lacks a chunk
      exfalso
      have hPos : 0 < (content key).length := length_pos_of_ne_nil hSome
      obtain ⟨b, hb, -⟩ := (hMarks 0).mp (hAll 0 (by omega))
      have hFits := hInv.assembles.fits key b hb
      obtain ⟨i, hFree, hInside⟩ :=
        hFits.exists_free cfg.packetSize_pos (hInv.assembles.incomplete key b hb)
      obtain ⟨b', hb', hMark⟩ := (hMarks i).mp (hAll i (hFits.totalLen ▸ hInside))
      cases hb.symm.trans hb'
      rw [hFree] at hMark
      cases hMark
    | done _ hOnce => exact hOnce
  · cases hInv.progress with
    | underway _ hNothing => exact hNothing
    | done _ _ hAll => exact absurd hAll hNot
  · obtain ⟨core, out, hCall⟩ := call_returns hInv.assembles hOk hRep
    rw [step, if_pos hNow, hCall]
    exact ⟨_, rfl⟩

theorem orderly_piece {msgId msgLen offset}
    (hSlot : IsSlot a.core.cfg.packetSize (content (Link.sampleSender, msgId)) i
      ⟨.data, 0, msgId, msgLen, offset, .ofNat payload.length⟩ payload)
    (hFresh : key ∉ a.core.completed) (hRoom : a.core.incoming.size < a.core.cfg.maxIncoming) :
    Orderly checks content key a (Receiving.piece msgId msgLen offset payload) where
  slot := by
    intro src pkt payload hCall
    cases hCall
    exact ⟨i, hSlot⟩
  admitted := fun _ _ _ _ _ _ _ => hRoom
  kept := by
    intro core out _ hTick
    cases hTick
  remembered := fun _ _ _ hThere => absurd hThere hFresh

/-- Two chunks, the second one first. -/
theorem delivers_once_swapped : ∃ a, Run (step true (Link.sampleSender, 1))
    (fun a e => Orderly true (fun _ => [1, 2, 3, 4, 5, 6]) (Link.sampleSender, 1) a e ∧
      Representable sampleCfg e.now) (start sampleCfg 0) a ∧
    a.delivered = [[1, 2, 3, 4, 5, 6]] := by
  have hRep : Representable sampleCfg 0 := by decide
  have hTest : (step true (Link.sampleSender, 1) (start sampleCfg 0)
      (Receiving.piece 1 6 4 [5, 6])).any (fun a =>
        decide (a.core.cfg = sampleCfg ∧ (Link.sampleSender, 1) ∉ a.core.completed ∧
          a.core.incoming.size < 8) &&
        (step true (Link.sampleSender, 1) a (Receiving.piece 1 6 0 [1, 2, 3, 4])).any fun a =>
          decide (a.supplied = {0, 1})) = true := by
    decide +kernel
  obtain ⟨a₁, hStep₁, hTest⟩ := (Option.any_eq_true _ _).mp hTest
  obtain ⟨hState, hTest⟩ := Bool.and_eq_true_iff.mp hTest
  obtain ⟨hCfg, hFresh, hSize⟩ := of_decide_eq_true hState
  obtain ⟨a₂, hStep₂, hSupplied⟩ := (Option.any_eq_true _ _).mp hTest
  have hSupplied : a₂.supplied = {0, 1} := of_decide_eq_true hSupplied
  have hFirst : IsSlot sampleCfg.packetSize [1, 2, 3, 4, 5, 6] 1
      ⟨.data, 0, 1, 6, 4, .ofNat 2⟩ [5, 6] := by constructor <;> decide
  have hSecond : IsSlot sampleCfg.packetSize [1, 2, 3, 4, 5, 6] 0
      ⟨.data, 0, 1, 6, 0, .ofNat 4⟩ [1, 2, 3, 4] := by constructor <;> decide
  have hOk₁ : Orderly true (fun _ => [1, 2, 3, 4, 5, 6]) (Link.sampleSender, 1)
      (start sampleCfg 0) (Receiving.piece 1 6 4 [5, 6]) :=
    orderly_piece hFirst (Finset.notMem_empty _) (by decide)
  have hOk₂ : Orderly true (fun _ => [1, 2, 3, 4, 5, 6]) (Link.sampleSender, 1) a₁
      (Receiving.piece 1 6 0 [1, 2, 3, 4]) :=
    orderly_piece (hCfg ▸ hSecond) hFresh (by rw [hCfg]; exact hSize)
  have hRun : Run (step true (Link.sampleSender, 1))
      (fun a e => Orderly true (fun _ => [1, 2, 3, 4, 5, 6]) (Link.sampleSender, 1) a e ∧
        Representable sampleCfg e.now) (start sampleCfg 0) a₂ :=
    .step (.step .start ⟨hOk₁, hRep⟩ hStep₁) ⟨hOk₂, hRep⟩ hStep₂
  refine ⟨a₂, hRun, (delivers_once (by simp) (by simp [maxMsgLen]) hRun).1 fun i hi => ?_⟩
  have hi' : i * 4 < 6 := hi
  rw [hSupplied, Finset.mem_insert, Finset.mem_singleton]
  omega

/-- A threshold that is meant to turn starvation relief off: the longest duration. -/
def patientCfg : TransportConfig :=
  { sampleCfg with starveThreshold := (2 ^ 64 - 1) * 10 ^ 9 + 999999999 }

/-- The only chunk of a message makes the receiver panic, where it should deliver the message. -/
theorem first_packet_panics :
    Orderly false (fun _ => [1, 2, 3, 4]) (Link.sampleSender, 1) (start patientCfg 0)
      (Receiving.piece 1 4 0 [1, 2, 3, 4]) ∧
    (start patientCfg 0).core.call false (Receiving.piece 1 4 0 [1, 2, 3, 4]) =
      panic .overflow := by
  have hSlot : IsSlot patientCfg.packetSize [1, 2, 3, 4] 0
      ⟨.data, 0, 1, 4, 0, .ofNat 4⟩ [1, 2, 3, 4] := by constructor <;> decide
  exact ⟨orderly_piece hSlot (Finset.notMem_empty _) (by decide), rfl⟩

end Assembly

end DirectWire.Homa
