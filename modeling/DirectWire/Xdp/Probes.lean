import DirectWire.Xdp.Control

/-!
# XDP edge — health and the history of probes

What the checker says is a function of the results alone: the last moment that ended `rise` good
ones or `fall` bad ones decides. A history has its newest result in front.

* `Judged.cons`, `Recorded.report` — one result more, one call of `report`.
-/

namespace DirectWire.Xdp.HealthChecker

open Lib Outcome List

/-- The last `n` results were all `good`. -/
def Ends (n : Nat) (good : Bool) (hist : List Bool) : Prop := replicate n good <+: hist

def Latest (P R : List Bool → Prop) (hist : List Bool) : Prop :=
  ∃ p, p <:+ hist ∧ P p ∧ ∀ q, q <:+ hist → p.length < q.length → ¬ R q

def toward (good : Bool) : Health := if good then .up else .down

/-- What the history says the state is, where so many results are needed of either kind. -/
structure Judged (need : Bool → Nat) (hist : List Bool) (s : Health) : Prop where
  toward_iff : ∀ good, s = toward good ↔
    Latest (Ends (need good) good) (Ends (need !good) !good) hist
  unknown_iff : s = .unknown ↔ ∀ p, p <:+ hist → ∀ good, ¬ Ends (need good) good p

def need (c : HealthChecker) (good : Bool) : Nat := if good then c.rise.toNat else c.fall.toNat

variable {checks good : Bool} {c c' : HealthChecker} {need : Bool → Nat} {hist : List Bool}
  {s s' : Health} {b : UInt32} {h : BackendHealth}

theorem latest_cons {P R : List Bool → Prop} : Latest P R (good :: hist) ↔
    P (good :: hist) ∨ Latest P R hist ∧ ¬ R (good :: hist) := by
  constructor
  · rintro ⟨p, hp, hP, hLast⟩
    rcases suffix_cons_iff.mp hp with rfl | hp
    · exact .inl hP
    · have hLength := hp.length_le
      refine .inr ⟨⟨p, hp, hP, fun q hq => hLast q (hq.trans (suffix_cons ..))⟩, ?_⟩
      exact hLast _ suffix_rfl (by rw [length_cons]; omega)
  · rintro (hP | ⟨⟨p, hp, hP, hLast⟩, hR⟩)
    · exact ⟨_, suffix_rfl, hP, fun q hq hLonger => absurd hq.length_le (by omega)⟩
    · refine ⟨p, hp.trans (suffix_cons ..), hP, fun q hq hLonger => ?_⟩
      rcases suffix_cons_iff.mp hq with rfl | hq
      · exact hR
      · exact hLast q hq hLonger

theorem ends_cons {n x} : Ends (n + 1) good (x :: hist) ↔ x = good ∧ Ends n good hist := by
  rw [Ends, replicate_succ, cons_prefix_cons, Ends, eq_comm]

theorem toward_ne_unknown (good : Bool) : toward good ≠ .unknown := by
  cases good <;> nofun

theorem judged_nil (hNeed : ∀ good, 0 < need good) : Judged need [] .unknown := by
  have hNone : ∀ good, ¬ Ends (need good) good [] := by
    intro good hEnds
    have hPos := hNeed good
    simp only [Ends, prefix_nil, replicate_eq_nil_iff] at hEnds
    omega
  refine ⟨fun good => iff_of_false (toward_ne_unknown good).symm ?_, iff_of_true rfl ?_⟩
  · rintro ⟨p, hp, hP, -⟩
    exact hNone good (suffix_nil.mp hp ▸ hP)
  · intro p hp
    exact suffix_nil.mp hp ▸ hNone

theorem Judged.cons (hJudged : Judged need hist s) (hNeed : ∀ good, 0 < need good)
    (hYes : Ends (need good) good (good :: hist) → s' = toward good)
    (hNo : ¬ Ends (need good) good (good :: hist) → s' = s) : Judged need (good :: hist) s' := by
  have hOther : ¬ Ends (need !good) (!good) (good :: hist) := by
    obtain ⟨n, hn⟩ := Nat.exists_eq_succ_of_ne_zero (hNeed !good).ne'
    rw [hn, ends_cons]
    simp
  have hDiffer : toward good ≠ toward !good := by cases good <;> nofun
  have hUnknown := toward_ne_unknown good
  constructor
  · intro other
    rw [latest_cons]
    have hOld := hJudged.toward_iff other
    rcases Bool.eq_or_eq_not other good with rfl | rfl
    · grind
    · rw [Bool.not_not] at hOld ⊢
      grind
  · rw [show (∀ p, p <:+ good :: hist → _) ↔ _ from
      forall_congr' fun p => by rw [suffix_cons_iff, or_imp]]
    have hOld := hJudged.unknown_iff
    by_cases hEnds : Ends (need good) good (good :: hist)
    · refine iff_of_false (hYes hEnds ▸ hUnknown) fun hNone => (hNone _).1 rfl good hEnds
    · rw [hNo hEnds, hOld]
      refine ⟨fun hNone p => ⟨?_, hNone p⟩, fun hNone p => (hNone p).2⟩
      rintro rfl other
      rcases Bool.eq_or_eq_not other good with rfl | rfl
      · exact hEnds
      · exact hOther

/-- The record of a backend belongs to its history. The count is that of the equal results at its
end, unless they have already decided the state. -/
structure Recorded (need : Bool → Nat) (hist : List Bool) (h : BackendHealth) : Prop where
  last : h.lastOk = hist.head?
  count_le : h.streak.toNat ≤ hist.length
  count : ∀ good, h.lastOk = some good → h.state = toward good ∨
    ∀ n, Ends n good hist ↔ n ≤ h.streak.toNat
  judged : Judged need hist h.state

theorem verdict_eq (c : HealthChecker) (old : Health) (streak : UInt32) (good : Bool) :
    c.verdict old streak good = if c.need good ≤ streak.toNat then toward good else old := by
  cases good <;> simp [verdict, HealthChecker.need, toward, UInt32.le_iff_toNat_le]

theorem Recorded.nextStreak (hRec : Recorded need hist h) (hFew : hist.length + 1 < 2 ^ 32)
    (checks good : Bool) : ∃ streak, h.nextStreak checks good = ok streak ∧
      streak.toNat ≤ hist.length + 1 ∧ (h.state = toward good ∨
        ∀ n, Ends n good (good :: hist) ↔ n ≤ streak.toNat) := by
  have hLe := hRec.count_le
  unfold BackendHealth.nextStreak
  split
  · rename_i hSame
    have hLt : h.streak.toNat + 1 < 2 ^ 32 := by omega
    have hAdd : (h.streak + 1).toNat = h.streak.toNat + 1 := by
      rw [UInt32.toNat_add]
      exact Nat.mod_eq_of_lt hLt
    refine ⟨h.streak + 1, if_pos (.inl hLt), by omega, ?_⟩
    refine (hRec.count good hSame).imp_right fun hExact n => ?_
    cases n with
    | zero => simp [Ends]
    | succ n => simp [ends_cons, hExact, hAdd]
  · rename_i hOther
    rw [hRec.last] at hOther
    refine ⟨1, rfl, by simp, .inr fun n => ?_⟩
    match n with
    | 0 => simp [Ends]
    | 1 => simp [Ends]
    | n + 2 =>
      refine iff_of_false (fun hEnds => hOther ?_) (by simp)
      obtain ⟨rest, rfl⟩ := (ends_cons.mp hEnds).2
      rfl

theorem Recorded.report (hRec : Recorded c.need hist h) (hNeed : ∀ good, 0 < c.need good)
    (hLookup : c.backends.lookup b = some h) (hFew : hist.length + 1 < 2 ^ 32) (checks good : Bool)
    (now : UInt64) : ∃ h', c.report checks b good now = ok (c.set b h', h'.state != h.state) ∧
      Recorded c.need (good :: hist) h' := by
  obtain ⟨streak, hStreak, hCountLe, hCount⟩ := hRec.nextStreak hFew checks good
  have hVerdict := verdict_eq c h.state streak good
  have hJudged : Judged c.need (good :: hist) (c.verdict h.state streak good) :=
    hRec.judged.cons hNeed (by grind) (by grind)
  rw [HealthChecker.report, hLookup]
  dsimp only
  rw [hStreak, ok_bind]
  generalize c.verdict h.state streak good = new at hVerdict hJudged ⊢
  by_cases hFlip : new = h.state
  · subst hFlip
    refine ⟨⟨h.state, some good, streak, now⟩, by simp, rfl, hCountLe, ?_, hJudged⟩
    rintro _ ⟨⟩
    exact hCount
  · refine ⟨⟨new, some good, 0, now⟩, by simp [hFlip], rfl, Nat.zero_le _, ?_, hJudged⟩
    rintro _ ⟨⟩
    grind

/-! ## Runs -/

inductive HealthEvent where
  | register (backend : UInt32)
  | report (backend : UInt32) (good : Bool) (now : UInt64)
deriving DecidableEq

def observed (checks : Bool) (b : UInt32) (s : HealthChecker × List Bool) :
    HealthEvent → Option (HealthChecker × List Bool)
  | .register backend => some (s.1.register backend, s.2)
  | .report backend good now => (s.1.report checks backend good now).toOption.map fun x =>
      (x.1, if backend = b then good :: s.2 else s.2)

theorem lookup_set_of_ne {backend} (hOther : b ≠ backend) (c : HealthChecker) (h : BackendHealth) :
    (c.set backend h).backends.lookup b = c.backends.lookup b := by
  rw [set, Map.lookup_insert_ite, if_neg hOther]

theorem report_apart {backend now flipped} (hOther : b ≠ backend)
    (hOk : c.report checks backend good now = ok (c', flipped)) :
    c'.backends.lookup b = c.backends.lookup b ∧ c'.need = c.need := by
  unfold report at hOk
  split at hOk
  · cases hOk
    exact ⟨rfl, rfl⟩
  · obtain ⟨streak, -, hOk⟩ := bind_eq_ok.mp hOk
    dsimp only at hOk
    split at hOk <;> cases hOk <;> exact ⟨lookup_set_of_ne hOther .., rfl⟩

/-- **The state is a function of the history.** `fall` and `rise` are positive, the backend is not
registered again, and fewer than `2 ^ 32` results were reported of it. Then its state is the one its
history is `Judged` to have, whatever was reported of others, and the next call reports a change
exactly if there is one. -/
theorem state_of_history {x : HealthChecker × List Bool} (hFall : 1 ≤ c.fall) (hRise : 1 ≤ c.rise)
    (hRun : Run (observed checks b) (fun _ e => e ≠ .register b) (c.register b, []) x)
    (hFew : x.2.length < 2 ^ 32) :
    ∃ s, x.1.state b = some s ∧ Judged c.need x.2 s ∧
      ∀ good now, x.2.length + 1 < 2 ^ 32 → ∃ c' flipped,
        x.1.report checks b good now = ok (c', flipped) ∧
        (flipped = true ↔ c'.state b ≠ x.1.state b) := by
  have hNeed : ∀ good, 0 < c.need good := by
    rintro (_ | _)
    · exact UInt32.le_iff_toNat_le.mp hFall
    · exact UInt32.le_iff_toNat_le.mp hRise
  obtain ⟨h, hLookup, hSame, hRec⟩ : ∃ h, x.1.backends.lookup b = some h ∧ x.1.need = c.need ∧
      Recorded c.need x.2 h := by
    refine hRun.invariant (I := fun x => x.2.length < 2 ^ 32 → ∃ h, x.1.backends.lookup b = some h ∧
      x.1.need = c.need ∧ Recorded c.need x.2 h) (fun _ => ?_) ?_ hFew
    · exact ⟨_, AList.lookup_insert _, rfl, rfl, le_rfl, nofun, judged_nil hNeed⟩
    · rintro x x' (backend | ⟨backend, good, now⟩) hInv hOnce hStep hFew
      · cases hStep
        obtain ⟨h, hLookup, hSame, hRec⟩ := hInv hFew
        have hOther : b ≠ backend := fun hSelf => hOnce (congrArg _ hSelf.symm)
        exact ⟨h, (lookup_set_of_ne hOther ..).trans hLookup, hSame, hRec⟩
      · obtain ⟨⟨c', flipped⟩, hOk, rfl⟩ := Option.map_eq_some_iff.mp hStep
        rw [toOption_eq_some] at hOk
        by_cases hSelf : backend = b
        · subst hSelf
          simp only [if_true, length_cons] at hFew ⊢
          obtain ⟨h, hLookup, hSame, hRec⟩ := hInv (by omega)
          rw [← hSame] at hRec hNeed ⊢
          obtain ⟨h', hOk', hRec'⟩ := hRec.report hNeed hLookup (by omega) checks good now
          cases hOk'.symm.trans hOk
          exact ⟨h', AList.lookup_insert _, rfl, hRec'⟩
        · simp only [if_neg hSelf] at hFew ⊢
          obtain ⟨h, hLookup, hSame, hRec⟩ := hInv hFew
          obtain ⟨hKept, hBounds⟩ := report_apart (Ne.symm hSelf) hOk
          exact ⟨h, hKept.trans hLookup, hBounds.trans hSame, hRec⟩
  have hState : x.1.state b = some h.state := by rw [state, hLookup, Option.map_some]
  refine ⟨h.state, hState, hRec.judged, fun good now hRoom => ?_⟩
  rw [← hSame] at hRec hNeed
  obtain ⟨h', hOk, -⟩ := hRec.report hNeed hLookup hRoom checks good now
  refine ⟨_, _, hOk, ?_⟩
  rw [state_set, if_pos rfl, hState]
  simp

theorem state_of_history_up : ∃ c x, c = (⟨∅, 1, 1, 2⟩ : HealthChecker) ∧
    Run (observed true 7) (fun _ e => e ≠ .register 7) (c.register 7, []) x ∧
    x.2 = [true, true, false] ∧ ∃ s, x.1.state 7 = some s ∧ Judged c.need x.2 s := by
  obtain ⟨x, hRun, hTest⟩ := exists_run_of_exec (observed true 7) (fun _ e => e ≠ .register 7)
    (HealthChecker.register ⟨∅, 1, 1, 2⟩ 7, []) [.register 8, .report 7 false 1, .report 8 true 1,
      .report 7 true 2, .report 7 true 3] (fun x => x.2 == [true, true, false]) (by decide +kernel)
  have hHist := beq_iff_eq.mp hTest
  obtain ⟨s, hState, hJudged, -⟩ := state_of_history (by decide) (by decide) hRun
    (by rw [hHist]; decide)
  exact ⟨_, x, rfl, hRun, hHist, s, hState, hJudged⟩

end DirectWire.Xdp.HealthChecker
