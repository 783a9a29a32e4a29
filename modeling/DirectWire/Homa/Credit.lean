import DirectWire.Homa.Dedup

/-!
# Homa — the grant window of a message

The receiver raises `granted_to` from four places, all through `issueGrant`, so that the window of
a message is the history of its GRANTs (`Raised`), and its bounds (`Window`) are kept by one lemma.

* `ReceiverCore.Move.credit`, `ReceiverCore.call_credit` — one move of the scheduler, one call.
-/

namespace DirectWire.Homa

open Lib Outcome ReceiverCore

/-! ## Windows -/

structure Window (cfg : TransportConfig) (totalLen receivedBytes grantedTo : Nat) : Prop where
  floor : min cfg.unscheduledBytes totalLen ≤ grantedTo
  ceiling : grantedTo ≤ totalLen
  reach : grantedTo ≤ max cfg.unscheduledBytes (receivedBytes + cfg.grantIncrement)

/-- The GRANTs take a window from one end to another: each carries the new end, and by how much it
has moved. -/
inductive Raised : Nat → List Packet → Nat → Prop where
  | nil (g : Nat) : Raised g [] g
  | cons {g g' p ps} (hLe : g ≤ p.offset.toNat) (hLength : p.length.toNat = p.offset.toNat - g)
      (hRest : Raised p.offset.toNat ps g') : Raised g (p :: ps) g'

theorem Raised.trans {g h k ps qs} (h₁ : Raised g ps h) (h₂ : Raised h qs k) :
    Raised g (ps ++ qs) k := by
  induction h₁ with
  | nil => exact h₂
  | cons hLe hLength _ ih => exact .cons hLe hLength (ih h₂)

theorem Raised.le {g h ps} (h₁ : Raised g ps h) : g ≤ h := by
  induction h₁ with
  | nil => exact Nat.le_refl _
  | cons hLe _ _ ih => exact hLe.trans ih

def grantOf (key : MsgKey) : Action → Option Packet
  | .send dest bytes =>
    match Packet.decoded bytes with
    | some (p, _) => if dest = key.1 ∧ p.typ = .grant ∧ p.msgId = key.2 then some p else none
    | none => none
  | .deliver _ _ _ => none

def grantsOf (key : MsgKey) (out : List Action) : List Packet := out.filterMap (grantOf key)

theorem grantOf_encode {key dest p} (h : p.typ ≠ .data) :
    grantOf key (.send dest (p.encode [])) =
      if dest = key.1 ∧ p.typ = .grant ∧ p.msgId = key.2 then some p else none := by
  have hDecoded : Packet.decoded (p.encode []) = some (p, []) :=
    Packet.decoded_eq_some.mpr (Packet.decode_encode fun hData => absurd hData h)
  rw [grantOf, hDecoded]

theorem grantsOf_other {key : MsgKey} {dest : SocketAddr} {p : Packet} (h : p.typ ≠ .data)
    (hGrant : p.typ ≠ .grant) : grantsOf key [.send dest (p.encode [])] = [] := by
  rw [grantsOf, List.filterMap_cons, grantOf_encode h, if_neg fun hAll => hGrant hAll.2.1]
  rfl

theorem grantsOf_grant (key k : MsgKey) (m : InMsg) (target : Nat) :
    grantsOf k [.send key.1 ((grantPacket key m target).encode [])] =
      if k = key then [grantPacket key m target] else [] := by
  rw [grantsOf, List.filterMap_cons, grantOf_encode (by simp [grantPacket])]
  by_cases hKey : k = key
  · subst hKey
    rw [if_pos rfl, if_pos ⟨rfl, rfl, rfl⟩]
    rfl
  · rw [if_neg hKey, if_neg]
    · rfl
    · rintro ⟨hAddr, -, hId⟩
      exact hKey (Prod.ext hAddr.symm hId.symm)

namespace InMsg

/-- The window of a message that is short enough for the fields of a packet. -/
structure Windowed (cfg : TransportConfig) (m : InMsg) : Prop where
  len : m.totalLen ≤ maxMsgLen
  window : Window cfg m.totalLen m.receivedBytes m.grantedTo

theorem windowed_new {cfg len} (now : Instant) (h : len ≤ maxMsgLen) :
    (InMsg.new len cfg.packetSize (min cfg.unscheduledBytes len) now).Windowed cfg := by
  refine ⟨h, ?_, ?_, ?_⟩
  · exact Nat.le_refl _
  · exact Nat.min_le_right _ _
  · exact (Nat.min_le_left _ _).trans (Nat.le_max_left _ _)

theorem Windowed.write {cfg : TransportConfig} {m m' : InMsg} {size : Nat} {pkt : Packet}
    {payload : Bytes} {now : Instant} (h : m.Windowed cfg)
    (hWrite : m.write size pkt payload now = ok m') :
    m'.Windowed cfg ∧ m'.totalLen = m.totalLen ∧ m'.grantedTo = m.grantedTo := by
  unfold InMsg.write at hWrite
  split at hWrite
  · obtain ⟨buf, -, hWrite⟩ := bind_eq_ok.mp hWrite
    cases hWrite
    refine ⟨⟨h.len, h.window.floor, h.window.ceiling, ?_⟩, rfl, rfl⟩
    have hReach := h.window.reach
    dsimp only
    omega
  · cases hWrite
    exact ⟨h, rfl, rfl⟩

end InMsg

/-! ## One call -/

/-- What scheduling does to a message: GRANTs raise its window, and a tick may give it up. -/
inductive Regrants (cfg : TransportConfig) : Option InMsg → List Packet → Option InMsg → Prop where
  | absent : Regrants cfg none [] none
  | lives {m m' ps} (hBody : m'.body = m.body) (hRaised : Raised m.grantedTo ps m'.grantedTo) :
      Regrants cfg (some m) ps (some m')
  | ends {m ps g} (hRaised : Raised m.grantedTo ps g)
      (hWindow : Window cfg m.totalLen m.receivedBytes g) : Regrants cfg (some m) ps none

/-- What a call does to the window of a message. A new message starts with its unscheduled bytes. -/
inductive Shifts (cfg : TransportConfig) : Option InMsg → List Packet → Option InMsg → Prop where
  | absent : Shifts cfg none [] none
  | opens {m' ps} (hRaised : Raised (min cfg.unscheduledBytes m'.totalLen) ps m'.grantedTo) :
      Shifts cfg none ps (some m')
  | lives {m m' ps} (hLen : m'.totalLen = m.totalLen)
      (hRaised : Raised m.grantedTo ps m'.grantedTo) :
      Shifts cfg (some m) ps (some m')
  | ends {m ps g} (hRaised : Raised m.grantedTo ps g)
      (hWindow : Window cfg m.totalLen m.receivedBytes g) : Shifts cfg (some m) ps none

namespace Regrants

variable {cfg : TransportConfig} {x y z : Option InMsg} {ps qs : List Packet}

theorem refl (x : Option InMsg) : Regrants cfg x [] x := by
  cases x with
  | none => exact .absent
  | some => exact .lives rfl (.nil _)

theorem trans (h₁ : Regrants cfg x ps y) (h₂ : Regrants cfg y qs z) :
    Regrants cfg x (ps ++ qs) z := by
  cases h₁ with
  | absent => exact h₂
  | @lives m m' _ hBody hRaised =>
    cases h₂ with
    | lives hBody' hRaised' => exact .lives (hBody'.trans hBody) (hRaised.trans hRaised')
    | ends hRaised' hWindow =>
      have hLen : m'.totalLen = m.totalLen := congrArg Body.totalLen hBody
      have hBytes : m'.receivedBytes = m.receivedBytes := congrArg Body.receivedBytes hBody
      exact .ends (hRaised.trans hRaised') (hLen ▸ hBytes ▸ hWindow)
  | ends hRaised hWindow =>
    cases h₂ with
    | absent =>
      rw [List.append_nil]
      exact .ends hRaised hWindow

theorem shifts (h : Regrants cfg x ps y) : Shifts cfg x ps y := by
  cases h with
  | absent => exact .absent
  | lives hBody hRaised => exact .lives (congrArg Body.totalLen hBody) hRaised
  | ends hRaised hWindow => exact .ends hRaised hWindow

theorem of_none (h : Regrants cfg none ps y) : ps = [] ∧ y = none := by
  cases h
  exact ⟨rfl, rfl⟩

end Regrants

namespace ReceiverCore

variable {cfg : TransportConfig} {checks force : Bool} {ord : HashOrder MsgKey} {now : Instant}
  {s s' t : ReceiverCore} {key : MsgKey} {out : List Action} {src : SocketAddr} {pkt : Packet}
  {payload : Bytes}

structure Windows (cfg : TransportConfig) (s : ReceiverCore) : Prop where
  cfg_eq : s.cfg = cfg
  all : s.incoming.All fun _ m => m.Windowed cfg

def Credits (cfg : TransportConfig) (s s' : ReceiverCore) (out : List Action) : Prop :=
  ∀ k, Regrants cfg (s.incoming.lookup k) (grantsOf k out) (s'.incoming.lookup k)

theorem Credits.trans {out'} (h : Credits cfg s t out) (h' : Credits cfg t s' out') :
    Credits cfg s s' (out ++ out') := by
  intro k
  rw [grantsOf, List.filterMap_append]
  exact (h k).trans (h' k)

theorem credits_insert {m m'} (hm : s.incoming.lookup key = some m) (hBody : m'.body = m.body)
    (hIncoming : s'.incoming = s.incoming.insert key m')
    (hRaised : Raised m.grantedTo (grantsOf key out) m'.grantedTo)
    (hOthers : ∀ k, k ≠ key → grantsOf k out = []) : Credits cfg s s' out := by
  intro k
  rw [hIncoming, Map.lookup_insert_ite]
  by_cases hKey : k = key
  · subst hKey
    rw [hm, if_pos rfl]
    exact .lives hBody hRaised
  · rw [hOthers k hKey, if_neg hKey]
    exact .refl _

theorem reach_le {a b reach} (h : addU checks a b = (ok reach : Outcome Empty _)) :
    reach ≤ a + b := by
  unfold addU at h
  split at h
  · cases h
    exact Nat.le_refl _
  · split at h
    · cases h
    · cases h
      exact Nat.mod_le _ _

section

variable (hWin : s.Windows cfg)

include hWin

theorem credits_grant {m reach starveQueue} (hm : s.incoming.lookup key = some m)
    (hReach : addU checks m.receivedBytes s.cfg.grantIncrement = (ok reach : Outcome Empty _)) :
    Windows cfg
      { s with
        incoming := s.incoming.insert key
          { m with grantedTo := max (min reach m.totalLen) m.grantedTo, lastGrant := now }
        starveQueue } ∧
    Credits cfg s
      { s with
        incoming := s.incoming.insert key
          { m with grantedTo := max (min reach m.totalLen) m.grantedTo, lastGrant := now }
        starveQueue }
      [.send key.1 ((grantPacket key m (max (min reach m.totalLen) m.grantedTo)).encode [])] := by
  obtain ⟨hLen, hFloor, hCeiling, hWindow⟩ := hWin.all key m hm
  have hSum : reach ≤ m.receivedBytes + cfg.grantIncrement := hWin.cfg_eq ▸ reach_le hReach
  have hMax : maxMsgLen < 2 ^ 32 := by decide
  have hTarget : (UInt32.ofNat (max (min reach m.totalLen) m.grantedTo)).toNat =
      max (min reach m.totalLen) m.grantedTo :=
    UInt32.toNat_ofNat_of_lt' (by rw [UInt32.size]; omega)
  have hAdded : (UInt32.ofNat (max (min reach m.totalLen) m.grantedTo - m.grantedTo)).toNat =
      max (min reach m.totalLen) m.grantedTo - m.grantedTo :=
    UInt32.toNat_ofNat_of_lt' (by rw [UInt32.size]; omega)
  refine ⟨⟨hWin.cfg_eq, hWin.all.insert ⟨hLen, ?_, ?_, ?_⟩⟩, credits_insert hm (by rfl) rfl ?_ ?_⟩
  · exact hFloor.trans (Nat.le_max_right _ _)
  · exact Nat.max_le.mpr ⟨Nat.min_le_right _ _, hCeiling⟩
  · dsimp only
    omega
  · rw [grantsOf_grant, if_pos rfl]
    refine .cons ?_ ?_ ?_
    · rw [grantPacket, hTarget]
      exact Nat.le_max_right _ _
    · rw [grantPacket, hTarget, hAdded]
    · rw [grantPacket, hTarget]
      exact .nil _
  · intro k hk
    rw [grantsOf_grant, if_neg hk]

theorem Move.credit (h : Move checks now true s s' out) :
    s'.Windows cfg ∧ Credits cfg s s' out := by
  have hNone : ∀ {k : MsgKey} {m : InMsg} {off : Nat} (key : MsgKey),
      grantsOf key [.send k.1 ((resendPacket s.cfg k m off).encode [])] = [] :=
    fun _ => grantsOf_other nofun nofun
  cases h with
  | books => exact ⟨⟨hWin.cfg_eq, hWin.all⟩, fun _ => .refl _⟩
  | grants hm hReach => exact credits_grant hWin hm hReach
  | touches _ hm =>
    obtain ⟨hLen, hWindow⟩ := hWin.all _ _ hm
    exact ⟨⟨hWin.cfg_eq, hWin.all.insert ⟨hLen, hWindow⟩⟩,
      credits_insert hm (by rfl) rfl (.nil _) fun _ _ => rfl⟩
  | resends _ hm =>
    obtain ⟨hLen, hWindow⟩ := hWin.all _ _ hm
    refine ⟨⟨hWin.cfg_eq, hWin.all.insert ⟨hLen, hWindow⟩⟩,
      credits_insert hm (by rfl) rfl ?_ fun k _ => hNone k⟩
    rw [hNone]
    exact .nil _
  | givesUp _ hm =>
    refine ⟨⟨hWin.cfg_eq, hWin.all.erase⟩, fun k => ?_⟩
    rw [hNone, Map.lookup_erase_ite]
    split
    · rename_i hKey
      subst hKey
      rw [hm]
      exact .ends (.nil _) (hWin.all _ _ hm).window
    · exact .refl _

omit hWin in
theorem Moves.credit (h : Moves checks now true s s' out) (hWin : s.Windows cfg) :
    s'.Windows cfg ∧ Credits cfg s s' out := by
  induction h with
  | refl => exact ⟨hWin, fun _ => .refl _⟩
  | tail _ hMove ih =>
    obtain ⟨hWin', hCredits⟩ := hMove.credit ih.1
    exact ⟨hWin', ih.2.trans hCredits⟩

theorem openEntry_credit {m : InMsg} {len : Nat} (hLen : len ≤ maxMsgLen)
    (h : s.openEntry key len now = ok (t, m)) : t.Windows cfg ∧ m.Windowed cfg := by
  rcases openEntry_eq h with ⟨hm, rfl⟩ | ⟨-, hm, rfl⟩
  · exact ⟨hWin, hWin.all key m hm⟩
  · have hNew : m.Windowed cfg := by
      rw [hm, hWin.cfg_eq]
      exact InMsg.windowed_new now hLen
    exact ⟨⟨hWin.cfg_eq, hWin.all.insert hNew⟩, hNew⟩

theorem deliver_credit {m len data} (hLen : len ≤ maxMsgLen)
    (hOpen : s.openEntry (src, pkt.msgId) len now = ok (t, m))
    (h : (t.deliver (src, pkt.msgId) src data).1.schedule checks ord now = ok (s', out)) :
    s'.Windows cfg ∧ ∀ k, Shifts cfg (s.incoming.lookup k)
      (grantsOf k ((t.deliver (src, pkt.msgId) src data).2 ++ out)) (s'.incoming.lookup k) := by
  obtain ⟨hWin₁, hWindowed⟩ := openEntry_credit hWin hLen hOpen
  obtain ⟨hEntry, hOthers, hBefore⟩ := openEntry_lookup hOpen
  have hWin₂ : (t.deliver (src, pkt.msgId) src data).1.Windows cfg := by
    refine ⟨(deliver_cfg _ _ _ _).trans hWin₁.cfg_eq, fun k m hm => ?_⟩
    rw [deliver_lookup] at hm
    split at hm
    · cases hm
    · exact hWin₁.all k m hm
  obtain ⟨hWin₃, hCredits⟩ := (schedule_moves h).credit hWin₂
  refine ⟨hWin₃, fun k => ?_⟩
  have hRegrants := hCredits k
  have hGrants : grantsOf k ((t.deliver (src, pkt.msgId) src data).2 ++ out) = grantsOf k out := rfl
  rw [deliver_lookup] at hRegrants
  rw [hGrants]
  split at hRegrants
  · rename_i hKey
    subst hKey
    obtain ⟨hNil, hGone⟩ := hRegrants.of_none
    rw [hNil, hGone]
    rcases hBefore with hm | ⟨hNone, -⟩
    · rw [hm]
      exact .ends (.nil _) hWindowed.window
    · rw [hNone]
      exact .absent
  · rename_i hKey
    rw [hOthers k hKey] at hRegrants
    exact hRegrants.shifts

theorem handleData_credit (h : handleData checks ord s src pkt payload now = ok (s', out)) :
    s'.Windows cfg ∧
      ∀ k, Shifts cfg (s.incoming.lookup k) (grantsOf k out) (s'.incoming.lookup k) := by
  have hParts := handleData_parts h
  cases hParts with
  | ignored => exact ⟨hWin, fun k => (Regrants.refl _).shifts⟩
  | busy =>
    refine ⟨hWin, fun k => ?_⟩
    rw [grantsOf_other (by simp) (by simp)]
    exact (Regrants.refl _).shifts
  | empty _ hZero hOpen hSchedule =>
    exact deliver_credit hWin (hZero ▸ Nat.zero_le _) hOpen hSchedule
  | completes _ _ hLen hOpen _ _ hSchedule => exact deliver_credit hWin hLen hOpen hSchedule
  | @stores t u _ m m' grants relief _ _ hLen hOpen hWrite _ hAdvance hRelief =>
    obtain ⟨hWin₁, hWindowed⟩ := openEntry_credit hWin hLen hOpen
    obtain ⟨hEntry, hOthers, hBefore⟩ := openEntry_lookup hOpen
    obtain ⟨hWindowed', hTotal, hGranted⟩ := hWindowed.write hWrite
    obtain ⟨hWin₂, hCredits⟩ := ((advance_moves hAdvance).trans (starveCheck_moves hRelief)).credit
      ⟨hWin₁.cfg_eq, hWin₁.all.insert hWindowed'⟩
    refine ⟨hWin₂, fun k => ?_⟩
    have hRegrants := hCredits k
    rw [Map.lookup_insert_ite] at hRegrants
    split at hRegrants
    · rename_i hKey
      subst hKey
      -- neither granting nor relief gives a message up
      have hSame := ((advance_moves hAdvance).trans (starveCheck_moves hRelief)).same
      have hBody := hSame.bodyAt (src, pkt.msgId)
      rw [bodyAt_insert, if_pos rfl] at hBody
      obtain ⟨m'', hm'', -⟩ := Option.map_eq_some_iff.mp hBody
      rw [hm''] at hRegrants ⊢
      cases hRegrants with
      | lives hBody' hRaised =>
        have hTotal' : m''.totalLen = m.totalLen := (congrArg Body.totalLen hBody').trans hTotal
        rw [hGranted] at hRaised
        rcases hBefore with hm | ⟨hNone, hNew⟩
        · rw [hm]
          exact .lives hTotal' hRaised
        · rw [hNone]
          refine .opens ?_
          rw [hTotal', hNew, ← hWin.cfg_eq]
          rw [hNew] at hRaised
          exact hRaised
    · rename_i hKey
      rw [hOthers k hKey] at hRegrants
      exact hRegrants.shifts

theorem call_credit {e} (h : s.call checks e = ok (s', out)) :
    s'.Windows cfg ∧
      ∀ k, Shifts cfg (s.incoming.lookup k) (grantsOf k out) (s'.incoming.lookup k) := by
  unfold call at h
  split at h
  · exact handleData_credit hWin h
  · obtain ⟨hWin', hCredits⟩ := (tick_moves h).credit hWin
    exact ⟨hWin', fun k => (hCredits k).shifts⟩

end

end ReceiverCore

/-! ## Runs -/

namespace Receiving

variable {checks : Bool} {cfg : TransportConfig} {r r' : Receiving} {e : ReceiverEvent}

theorem windows_step (h : r.core.Windows cfg) (hStep : step checks r e = some r') :
    r'.core.Windows cfg := by
  unfold step at hStep
  split at hStep
  · rename_i hCall
    cases hStep
    exact (call_credit h hCall).1
  · cases hStep

/-- **Credit.** In every state the window of a message covers what is unscheduled of it, does not go
past its end, and is at most an increment ahead of what was received. No call lowers a window, and a
call raises it by the GRANTs it sends for it and nothing else (`Shifts`). -/
theorem window_shifts (hRun : Run (step checks) Always (start cfg) r) :
    (∀ key m, r.core.incoming.lookup key = some m →
      min cfg.unscheduledBytes m.totalLen ≤ m.grantedTo ∧ m.grantedTo ≤ m.totalLen ∧
        m.grantedTo ≤ max cfg.unscheduledBytes (m.receivedBytes + cfg.grantIncrement)) ∧
    ∀ e core out, r.core.call checks e = ok (core, out) →
      (∀ key, Shifts cfg (r.core.incoming.lookup key) (grantsOf key out)
        (core.incoming.lookup key)) ∧
      ∀ key m m', r.core.incoming.lookup key = some m → core.incoming.lookup key = some m' →
        m.grantedTo ≤ m'.grantedTo := by
  have h : r.core.Windows cfg :=
    hRun.invariant (I := fun r => r.core.Windows cfg) ⟨rfl, Map.All.empty⟩
      fun _ _ _ h _ hStep => windows_step h hStep
  refine ⟨fun key m hm => ?_, fun e core out hCall => ?_⟩
  · have hWindow := (h.all key m hm).window
    exact ⟨hWindow.floor, hWindow.ceiling, hWindow.reach⟩
  · have hShifts := (call_credit h hCall).2
    refine ⟨hShifts, fun key m m' hm hm' => ?_⟩
    have hShift := hShifts key
    rw [hm, hm'] at hShift
    cases hShift with
    | lives _ hRaised => exact hRaised.le

/-- After its first four bytes a message of twenty is granted one increment more. -/
theorem window_shifts_first : ∃ r m, Run (step true) Always (start sampleCfg) r ∧
    r.core.incoming.lookup (Link.sampleSender, 1) = some m ∧ m.grantedTo = 13 ∧
    m.grantedTo ≤ max sampleCfg.unscheduledBytes (m.receivedBytes + sampleCfg.grantIncrement) := by
  obtain ⟨r, hRun, hTest⟩ := exists_run_of_exec (step true) Always (start sampleCfg)
    [piece 1 20 0 [1, 2, 3, 4]]
    (fun r => (r.core.incoming.lookup (Link.sampleSender, 1)).map InMsg.grantedTo == some 13)
    (by decide +kernel)
  obtain ⟨m, hm, hGranted⟩ := Option.map_eq_some_iff.mp (beq_iff_eq.mp hTest)
  exact ⟨r, m, hRun, hm, hGranted, ((window_shifts hRun).1 _ m hm).2.2⟩

end Receiving

end DirectWire.Homa
