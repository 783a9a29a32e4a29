import DirectWire.Lib.Cells
import DirectWire.Moq.Moves

/-!
# MoQ — agreement on aliases

The relay gives a track an alias when somebody subscribes to it: under the lock of the table of
publishers it draws a number, sends it to the publisher, and notes it. The publisher begins its
groups with the alias alone as soon as it has it.

* `Aliasing.Agreed` — what holds under every move of `Aliasing`, what the tasks do with aliases, as
  long as a number is drawn once.
-/

namespace DirectWire.Moq

open Lib Outcome List Function

/-! ## The protocol -/

structure Pending where
  track : TrackId
  newAlias : UInt64
  sent : Bool
deriving DecidableEq

/-- What counts for the aliases. -/
@[ext]
structure Aliasing where
  publishers : Map TrackId PublisherReg
  holder : Option Nat
  nextAlias : UInt64
  pending : Nat → Option Pending
  /-- The aliases that were sent over each connection. -/
  told : Nat → List (TrackId × UInt64)

namespace Aliasing

inductive Move (a : Aliasing) : Aliasing → Prop where
  | stay : Move a a
  | register {track conn} (hFree : a.holder = none) (hNone : a.publishers.lookup track = none) :
      Move a { a with publishers := a.publishers.insert track ⟨conn, none⟩ }
  | draw {c track reg} (hFree : a.holder = none) (hReg : a.publishers.lookup track = some reg)
      (hNone : reg.trackAlias = none) :
      Move a { a with
        nextAlias := a.nextAlias + 1
        holder := some c
        pending := update a.pending c (some ⟨track, a.nextAlias, false⟩) }
  | drop {c p} (hp : a.pending c = some p) (hUnsent : p.sent = false) :
      Move a { a with holder := none, pending := update a.pending c none }
  | pass {c p told} (hp : a.pending c = some p)
      (hTold : ∀ c', ∀ x ∈ told c', x ∈ a.told c' ∨ x = (p.track, p.newAlias)) :
      Move a { a with told, pending := update a.pending c (some { p with sent := true }) }
  | note {c control p} (hp : a.pending c = some p) (hSent : p.sent = true) :
      Move a { a with
        publishers := a.publishers.insert p.track ⟨control, some p.newAlias⟩
        holder := none
        pending := update a.pending c none }

def Bound (a : Aliasing) (track : TrackId) (x : UInt64) : Prop :=
  (∃ reg, a.publishers.lookup track = some reg ∧ reg.trackAlias = some x) ∨
    ∃ c, a.pending c = some ⟨track, x, true⟩

def Drawn (a : Aliasing) (x : UInt64) : Prop := a.nextAlias = 0 ∨ x < a.nextAlias

structure Agreed (a : Aliasing) : Prop where
  holds : ∀ c p, a.pending c = some p → a.holder = some c
  vacant : ∀ c p, a.pending c = some p →
    ∃ reg, a.publishers.lookup p.track = some reg ∧ reg.trackAlias = none
  fresh : ∀ c p, a.pending c = some p → a.Drawn p.newAlias ∧
    ∀ t reg, a.publishers.lookup t = some reg → reg.trackAlias ≠ some p.newAlias
  drawn : ∀ t reg x, a.publishers.lookup t = some reg → reg.trackAlias = some x → a.Drawn x
  unique : ∀ t t' reg reg' x, a.publishers.lookup t = some reg →
    a.publishers.lookup t' = some reg' → reg.trackAlias = some x → reg'.trackAlias = some x → t = t'
  told : ∀ c, ∀ x ∈ a.told c, a.Bound x.1 x.2

variable {a a' : Aliasing}

variable {track : TrackId} {x : UInt64} {c : Nat} {p : Pending}

section

variable (h : a.Agreed)

include h

theorem Agreed.bound_move (hMove : Move a a') (hBound : a.Bound track x) : a'.Bound track x := by
  cases hMove with
  | stay => exact hBound
  | @register track' conn hFree hNone =>
    rcases hBound with ⟨reg, hReg, hAlias⟩ | hPending
    · refine .inl ⟨reg, ?_, hAlias⟩
      rw [Map.lookup_insert_ite, if_neg, hReg]
      rintro rfl
      rw [hNone] at hReg
      cases hReg
    · exact .inr hPending
  | @draw c track' reg hFree hReg hNone =>
    rcases hBound with hTable | ⟨c', hPending⟩
    · exact .inl hTable
    · -- nobody holds the lock
      have hHeld := h.holds c' _ hPending
      rw [hFree] at hHeld
      cases hHeld
  | @drop c p hp hUnsent =>
    rcases hBound with hTable | ⟨c', hPending⟩
    · exact .inl hTable
    · refine .inr ⟨c', (update_of_ne ?_ ..).trans hPending⟩
      rintro rfl
      rw [hp] at hPending
      cases hPending
      cases hUnsent
  | @pass c p told hp hTold =>
    rcases hBound with hTable | ⟨c', hPending⟩
    · exact .inl hTable
    · refine .inr ⟨c', ?_⟩
      by_cases hSame : c' = c
      · subst hSame
        rw [hp] at hPending
        cases hPending
        exact update_self ..
      · exact (update_of_ne hSame ..).trans hPending
  | @note c control p hp hSent =>
    rcases hBound with ⟨reg, hReg, hAlias⟩ | ⟨c', hPending⟩
    · refine .inl ⟨reg, ?_, hAlias⟩
      rw [Map.lookup_insert_ite, if_neg, hReg]
      -- the track that is noted has no alias yet
      rintro rfl
      obtain ⟨reg', hReg', hNone⟩ := h.vacant c p hp
      rw [hReg] at hReg'
      cases hReg'
      rw [hNone] at hAlias
      cases hAlias
    · -- the lock has one holder
      have hHolder := (h.holds c p hp).symm.trans (h.holds c' _ hPending)
      cases hHolder
      rw [hp] at hPending
      cases hPending
      exact .inl ⟨_, AList.lookup_insert _, rfl⟩

omit h in
theorem lt_succ_or_eq_zero {n} (h : x ≤ n) : n + 1 = 0 ∨ x < n + 1 := by
  rw [or_iff_not_imp_left, UInt64.lt_iff_toNat_lt]
  intro hNext
  have hNonzero : (n + 1).toNat ≠ 0 := fun hZero => hNext (UInt64.toNat_inj.mp hZero)
  have hAdd : (n + 1).toNat = (n.toNat + 1) % 2 ^ 64 := UInt64.toNat_add n 1
  rw [UInt64.le_iff_toNat_le] at h
  have := n.toNat_lt
  omega

theorem Agreed.idle (hFree : a.holder = none) (c : Nat) : a.pending c = none := by
  by_contra hPending
  obtain ⟨p, hp⟩ := Option.ne_none_iff_exists'.mp hPending
  rw [h.holds c p hp] at hFree
  cases hFree

theorem Agreed.only {c'} (hp : a.pending c = some p) (hOther : c' ≠ c) : a.pending c' = none := by
  by_contra hPending
  obtain ⟨p', hp'⟩ := Option.ne_none_iff_exists'.mp hPending
  cases (h.holds c p hp).symm.trans (h.holds c' p' hp')
  exact hOther rfl

omit h in
theorem pending_update {c' v} (hOthers : ∀ c' ≠ c, a.pending c' = none)
    (h : update a.pending c v c' = some p) : c' = c ∧ v = some p := by
  by_cases hSame : c' = c
  · subst hSame
    rw [update_self] at h
    exact ⟨rfl, h⟩
  · rw [update_of_ne hSame, hOthers c' hSame] at h
    cases h

theorem Agreed.register {conn : Nat} (hFree : a.holder = none)
    (hNone : a.publishers.lookup track = none) :
    { a with publishers := a.publishers.insert track ⟨conn, none⟩ }.Agreed := by
  have hIdle := h.idle hFree
  have hMove : Move a _ := @Move.register a track conn hFree hNone
  have hBound := fun c x hx => h.bound_move hMove (h.told c x hx)
  -- the new entry has no alias
  have hOld : ∀ t reg x, (a.publishers.insert track ⟨conn, none⟩).lookup t = some reg →
      reg.trackAlias = some x → a.publishers.lookup t = some reg := by
    intro t reg x hReg hAlias
    rw [Map.lookup_insert_ite] at hReg
    split at hReg
    · cases hReg
      cases hAlias
    · exact hReg
  refine ⟨h.holds, ?_, ?_, ?_, ?_, hBound⟩
  · intro c p hp
    cases (hIdle c).symm.trans hp
  · intro c p hp
    cases (hIdle c).symm.trans hp
  · intro t reg x hReg hAlias
    exact h.drawn t reg x (hOld t reg x hReg hAlias) hAlias
  · intro t t' reg reg' x hReg hReg' hAlias hAlias'
    exact h.unique t t' reg reg' x (hOld t reg x hReg hAlias) (hOld t' reg' x hReg' hAlias')
      hAlias hAlias'

theorem Agreed.draw {reg} (hFree : a.holder = none) (hReg : a.publishers.lookup track = some reg)
    (hNone : reg.trackAlias = none) (hNext : a.nextAlias ≠ 0) :
    { a with
      nextAlias := a.nextAlias + 1
      holder := some c
      pending := update a.pending c (some ⟨track, a.nextAlias, false⟩) }.Agreed := by
  have hIdle : ∀ c' ≠ c, a.pending c' = none := fun c' _ => h.idle hFree c'
  have hBound := fun c' x hx => h.bound_move (.draw (c := c) hFree hReg hNone) (h.told c' x hx)
  refine ⟨?_, ?_, ?_, ?_, h.unique, hBound⟩
  · intro c' p hp
    obtain ⟨rfl, -⟩ := pending_update hIdle hp
    rfl
  · intro c' p hp
    obtain ⟨-, hp⟩ := pending_update hIdle hp
    cases hp
    exact ⟨reg, hReg, hNone⟩
  · intro c' p hp
    obtain ⟨-, hp⟩ := pending_update hIdle hp
    cases hp
    refine ⟨lt_succ_or_eq_zero (UInt64.le_refl _), fun t reg' hReg' hAlias => ?_⟩
    -- those in the table were drawn before
    have hLt := (h.drawn t reg' _ hReg' hAlias).resolve_left hNext
    exact UInt64.lt_irrefl _ hLt
  · intro t reg' x hReg' hAlias
    have hLt := (h.drawn t reg' x hReg' hAlias).resolve_left hNext
    exact lt_succ_or_eq_zero (UInt64.le_of_lt hLt)

theorem Agreed.drop (hp : a.pending c = some p) (hUnsent : p.sent = false) :
    { a with holder := none, pending := update a.pending c none }.Agreed := by
  have hNone : ∀ {c' p'}, update a.pending c none c' ≠ some p' := by
    intro c' p' hp'
    cases (pending_update (fun c' hOther => h.only hp hOther) hp').2
  have hBound := fun c' x hx => h.bound_move (.drop hp hUnsent) (h.told c' x hx)
  refine ⟨?_, ?_, ?_, h.drawn, h.unique, hBound⟩
  all_goals
    intro c' p' hp'
    exact absurd hp' hNone

theorem Agreed.pass {told : Nat → List (TrackId × UInt64)} (hp : a.pending c = some p)
    (hTold : ∀ c', ∀ x ∈ told c', x ∈ a.told c' ∨ x = (p.track, p.newAlias)) :
    { a with
      told
      pending := update a.pending c (some { p with sent := true }) }.Agreed := by
  have hOthers : ∀ c' ≠ c, a.pending c' = none := fun c' hOther => h.only hp hOther
  refine ⟨?_, ?_, ?_, h.drawn, h.unique, ?_⟩
  · intro c' p' hp'
    obtain ⟨rfl, -⟩ := pending_update hOthers hp'
    exact h.holds c' p hp
  · intro c' p' hp'
    obtain ⟨-, hp'⟩ := pending_update hOthers hp'
    cases hp'
    exact h.vacant c p hp
  · intro c' p' hp'
    obtain ⟨-, hp'⟩ := pending_update hOthers hp'
    cases hp'
    exact h.fresh c p hp
  · intro c' x hx
    rcases hTold c' x hx with hOld | rfl
    · exact h.bound_move (.pass hp hTold) (h.told c' x hOld)
    · exact .inr ⟨c, update_self ..⟩

theorem Agreed.note (control : Nat) (hp : a.pending c = some p) (hSent : p.sent = true) :
    { a with
      publishers := a.publishers.insert p.track ⟨control, some p.newAlias⟩
      holder := none
      pending := update a.pending c none }.Agreed := by
  have hNone : ∀ {c' p'}, update a.pending c none c' ≠ some p' := by
    intro c' p' hp'
    cases (pending_update (fun c' hOther => h.only hp hOther) hp').2
  have hBound := fun c' x hx => h.bound_move (@Move.note a c control p hp hSent) (h.told c' x hx)
  obtain ⟨hDrawn, hFresh⟩ := h.fresh c p hp
  -- an alias of the new table is the new one, or an old one, which is another
  have hAliases : ∀ t reg x,
      (a.publishers.insert p.track ⟨control, some p.newAlias⟩).lookup t = some reg →
      reg.trackAlias = some x → t = p.track ∧ x = p.newAlias ∨
        x ≠ p.newAlias ∧ a.publishers.lookup t = some reg := by
    intro t reg x hReg hAlias
    rw [Map.lookup_insert_ite] at hReg
    split at hReg
    · cases hReg
      cases hAlias
      exact .inl ⟨‹_›, rfl⟩
    · refine .inr ⟨?_, hReg⟩
      rintro rfl
      exact hFresh t reg hReg hAlias
  refine ⟨?_, ?_, ?_, ?_, ?_, hBound⟩
  iterate 3
    intro c' p' hp'
    exact absurd hp' hNone
  · intro t reg x hReg hAlias
    rcases hAliases t reg x hReg hAlias with ⟨-, rfl⟩ | ⟨-, hOld⟩
    · exact hDrawn
    · exact h.drawn t reg x hOld hAlias
  · intro t t' reg reg' x hReg hReg' hAlias hAlias'
    rcases hAliases t reg x hReg hAlias with ⟨rfl, hx⟩ | ⟨hx, hOld⟩
    · rcases hAliases t' reg' x hReg' hAlias' with ⟨rfl, -⟩ | ⟨hx', -⟩
      · rfl
      · exact absurd hx hx'
    · rcases hAliases t' reg' x hReg' hAlias' with ⟨-, hx'⟩ | ⟨-, hOld'⟩
      · exact absurd hx' hx
      · exact h.unique t t' reg reg' x hOld hOld' hAlias hAlias'

theorem Agreed.move (hMove : Move a a') (hNext : a'.nextAlias ≠ a.nextAlias → a.nextAlias ≠ 0) :
    a'.Agreed := by
  cases hMove with
  | stay => exact h
  | register hFree hNone => exact h.register hFree hNone
  | draw hFree hReg hNone =>
    refine h.draw hFree hReg hNone (hNext fun hSame => ?_)
    simp at hSame
  | drop hp hUnsent => exact h.drop hp hUnsent
  | pass hp hTold => exact h.pass hp hTold
  | note hp hSent => exact h.note _ hp hSent

end

end Aliasing

/-! ## The relay -/

def Handler.pending? : Handler → Option Pending
  | .upstream req _ newAlias _ => some ⟨req.track, newAlias, false⟩
  | .noting req _ newAlias _ => some ⟨req.track, newAlias, true⟩
  | _ => none

def Message.alias? : Message → Option (TrackId × UInt64)
  | .subscribe _ trackAlias track _ _ => some (track, trackAlias)
  | _ => none

namespace Relay

def aliasing (r : Relay) : Aliasing where
  publishers := r.publishers
  holder := r.holder
  nextAlias := r.nextAlias
  pending c := (r.conns[c]?).bind fun k => k.handler.pending?
  told c := (r.conns[c]?).elim [] fun k => k.sent.filterMap Message.alias?

variable {checks : Bool} {r r' : Relay} {c : Nat} {k : Connection}

variable {handler : Handler} {m : Message}

section

variable (hk : r.conns[c]? = some k)

include hk

theorem aliasing_setHandler (handler : Handler) (publishers : Map TrackId PublisherReg)
    (holder : Option Nat) (nextAlias : UInt64) :
    ({ r with publishers, holder, nextAlias }.setHandler c handler).aliasing =
      { publishers, holder, nextAlias
        pending := update r.aliasing.pending c handler.pending?
        told := r.aliasing.told } := by
  refine Aliasing.ext rfl rfl rfl (funext fun c' => ?_) (funext fun c' => ?_)
  · simp only [aliasing, setHandler, getElem?_modify, update_apply]
    by_cases hSame : c' = c
    · subst hSame
      simp [hk]
    · simp [hSame, Ne.symm hSame]
  · simp only [aliasing, setHandler, getElem?_modify]
    cases r.conns[c']? with
    | none => rfl
    | some k' =>
      show (if c = c' then _ else k').sent.filterMap _ = _
      split <;> rfl

theorem pending_of {pending} (h : k.handler.pending? = pending) :
    r.aliasing.pending c = pending := by
  simp [aliasing, hk, h]

theorem aliasing_goOn (hSame : handler.pending? = k.handler.pending?) :
    (r.setHandler c handler).aliasing = r.aliasing := by
  refine (aliasing_setHandler hk handler _ _ _).trans ?_
  rw [hSame, ← pending_of hk rfl, update_eq_self]
  rfl

theorem aliasing_modify {g : Connection → Connection} {forwarders fanout}
    (hPending : (g k).handler.pending? = k.handler.pending?)
    (hTold : (g k).sent.filterMap Message.alias? = k.sent.filterMap Message.alias?) :
    { r with conns := r.conns.modify c g, forwarders, fanout }.aliasing = r.aliasing := by
  refine Aliasing.ext rfl rfl rfl (funext fun c' => ?_) (funext fun c' => ?_)
  · simp only [aliasing, getElem?_modify]
    by_cases hSame : c = c'
    · subst hSame
      simp [hk, hPending]
    · simp [hSame]
  · simp only [aliasing, getElem?_modify]
    by_cases hSame : c = c'
    · subst hSame
      simp [hk, hTold]
    · simp [hSame]

end

theorem told_sendOn :
    (r.sendOn c m).aliasing.pending = r.aliasing.pending ∧
      ∀ c', ∀ x ∈ (r.sendOn c m).aliasing.told c', x ∈ r.aliasing.told c' ∨ m.alias? = some x := by
  refine ⟨funext fun c' => ?_, fun c' x hx => ?_⟩
  · simp only [aliasing, sendOn, getElem?_modify]
    cases r.conns[c']? with
    | none => rfl
    | some k' =>
      show (if c = c' then _ else k').handler.pending? = _
      split <;> rfl
  · simp only [aliasing, sendOn, getElem?_modify] at hx ⊢
    cases hk : r.conns[c']? with
    | none =>
      rw [hk] at hx
      cases hx
    | some k' =>
      rw [hk] at hx
      by_cases hSame : c = c'
      · simpa [hSame] using hx
      · simpa [hSame] using Or.inl hx

theorem aliasing_accept :
    ({ r with conns := r.conns ++ [⟨.opening, [], ∅⟩] } : Relay).aliasing = r.aliasing := by
  have hConn : ∀ c : Nat, (r.conns ++ [⟨.opening, [], ∅⟩])[c]? = r.conns[c]? ∨
      r.conns[c]? = none ∧
        (r.conns ++ [⟨.opening, [], ∅⟩])[c]? = some (⟨.opening, [], ∅⟩ : Connection) := by
    intro c
    rcases Nat.lt_trichotomy c r.conns.length with hLt | rfl | hGt
    · exact .inl (getElem?_append_left hLt)
    · exact .inr ⟨getElem?_eq_none (Nat.le_refl _), getElem?_concat_length⟩
    · refine .inl ?_
      rw [getElem?_eq_none (Nat.le_of_lt hGt), getElem?_eq_none]
      rw [length_append, length_singleton]
      omega
  refine Aliasing.ext rfl rfl rfl (funext fun c => ?_) (funext fun c => ?_)
  all_goals
    simp only [aliasing]
    rcases hConn c with hOld | ⟨hNone, hNew⟩
    · rw [hOld]
    · rw [hNone, hNew]
      rfl

theorem Turn.pending {e} (hTurn : Turn r c k e handler) :
    handler.pending? = k.handler.pending? := by
  cases hTurn with
  | greet h | reject h | confirm h | refuse h | goaway h | halfClose h | lose h | hangUp h
  | unannounced h | unrefused h | unconfirmed h | settled h | drained h =>
    rw [h]
    rfl

theorem Answer.pending (hAnswer : Answer r k m handler) :
    handler.pending? = k.handler.pending? ∧ m.alias? = none := by
  cases hAnswer with
  | setup h | announceOk h | subscribeError h | subscribeOk h =>
    rw [h]
    exact ⟨rfl, rfl⟩

theorem aliasing_abortAll (r : Relay) (handles : List (Sigma fun _ : UInt64 => Nat)) :
    (handles.foldl (fun r e => r.abort e.2) r).aliasing = r.aliasing := by
  induction handles generalizing r with
  | nil => rfl
  | cons handle handles ih => exact ih (r.abort handle.2)

/-- The relay follows `Aliasing`. -/
theorem aliasing_move {e} (hMove : Move checks r e r') : Aliasing.Move r.aliasing r'.aliasing := by
  have hStay : r'.aliasing = r.aliasing → Aliasing.Move r.aliasing r'.aliasing := by
    intro hSame
    rw [hSame]
    exact .stay
  cases hMove with
  | accept => exact hStay aliasing_accept
  | turn hk hTurn => exact hStay (aliasing_goOn hk hTurn.pending)
  | @answer c k m handler hk hAnswer =>
    obtain ⟨hPending, hAlias⟩ := hAnswer.pending
    obtain ⟨k', hk', hSame⟩ := handler_sendOn c m hk
    refine hStay ?_
    rw [aliasing_goOn hk' (by rw [hSame, hPending])]
    exact aliasing_modify hk rfl (by simp [hAlias])
  | announce hk hState | call hk hState | crash hk hState =>
    exact hStay (aliasing_goOn hk (by rw [hState]; rfl))
  | unsubscribe hk | prune hk => exact hStay (aliasing_modify hk rfl rfl)
  | ignore | stream | feed | skip | resolve | publish | receive | finish | stop => exact .stay
  | draw hk hState hFree hReg hNone =>
    rw [aliasing_setHandler hk]
    exact .draw hFree hReg hNone
  | overflow hk hState =>
    rw [aliasing_setHandler hk]
    exact .drop (pending_of hk (by rw [hState]; rfl)) rfl
  | @pass c k req confirmedAt control newAlias hk hState =>
    obtain ⟨k', hk', hSame⟩ := handler_sendOn _ _ hk
    obtain ⟨hSent, hTold⟩ := told_sendOn (r := r) (c := control)
      (m := .subscribe newAlias newAlias req.track .nextObject 0)
    have hNoting := aliasing_setHandler hk' (.noting req confirmedAt newAlias control)
      r.publishers r.holder r.nextAlias
    rw [hSent] at hNoting
    have hPending : r.aliasing.pending c = some ⟨req.track, newAlias, false⟩ :=
      pending_of hk (by rw [hState]; rfl)
    refine hNoting ▸ .pass hPending fun c' x hx => ?_
    rcases hTold c' x hx with hOld | hNew
    · exact .inl hOld
    · exact .inr (Option.some_inj.mp hNew).symm
  | giveUp hk hState =>
    rw [beginSubscribe, aliasing_setHandler hk]
    exact .drop (pending_of hk (by rw [hState]; rfl)) rfl
  | note hk hState =>
    rw [beginSubscribe, aliasing_setHandler hk]
    exact .note (pending_of hk (by rw [hState]; rfl)) rfl
  | spawn hk hState => exact hStay (aliasing_modify hk (by rw [hState]; rfl) rfl)
  | @close c k hk hState =>
    have hk' := hk
    rw [← abortAll_conns r k.forwarders.entries] at hk'
    exact hStay ((aliasing_goOn hk' (by rw [hState]; rfl)).trans (aliasing_abortAll r _))
  | register hs hState hFree hNone => exact .register hFree hNone

end Relay

end DirectWire.Moq
