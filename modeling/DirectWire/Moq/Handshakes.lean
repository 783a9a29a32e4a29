import DirectWire.GmPq.Api
import DirectWire.Lib.Cells

/-!
# MoQ — concurrent handshakes of one server

Every connection has a worker thread, which locks the ticket cache that all of them share, runs
`server_accept` on the bytes of its bridge, and unlocks the cache. `server_accept` wants more bytes
as long as, with the stream at its end there, it would return an I/O error.
-/

namespace DirectWire.Moq

open Lib Outcome GmPq List Option

/-- What the handshakes of a server share, apart from the ticket cache. -/
structure ServerIdentity (K : StaticAuth) where
  sk : K.SecretKey
  pk : Bytes
  cookie : CookieIssuer
  tickets : TicketIssuer
  anchor : TrustAnchor
  ticketTtlSecs : UInt64

inductive Phase (K : StaticAuth) where
  | locking
  /-- It is in `server_accept`, and has read these bytes. -/
  | accepting (env : ServerEnv K.toKem) (consumed : Bytes)
  | done
  | panicked

def Phase.accepts {K : StaticAuth} : Phase K → Bool
  | .accepting _ _ => true
  | _ => false

structure Worker (K : StaticAuth) where
  clientTag : Bytes
  inbound : Bytes
  closed : Bool
  phase : Phase K

structure Handshakes (K : StaticAuth) where
  cache : TicketCache
  poisoned : Bool
  holder : Option Nat
  workers : List (Worker K)

inductive HandshakeEvent (K : StaticAuth) where
  /-- `server_handshake` is called. -/
  | start (clientTag : Bytes)
  | arrive (i : Nat) (bytes : Bytes)
  /-- `shared_close` of the bridge. -/
  | close (i : Nat)
  /-- A worker locks the cache; with what it draws and its readings of the clock. -/
  | lock (i : Nat) (env : ServerEnv K.toKem)
  | read (i : Nat)
  /-- `server_accept` returns. -/
  | finish (i : Nat)

variable {K : StaticAuth} (P : Primitives) (id : ServerIdentity K)

/-- `server_accept` on so many bytes. -/
def ServerIdentity.accept (cache : TicketCache) (clientTag : Bytes) (env : ServerEnv K.toKem)
    (bytes : Bytes) : Outcome ApiError ServerOutcome × TicketCache :=
  serverAccept P env ⟨bytes.map ([·]), []⟩ id.sk id.pk
    ⟨id.cookie, id.tickets, cache, id.anchor, clientTag, id.ticketTtlSecs⟩

def ServerIdentity.wantsMore (cache : TicketCache) (clientTag : Bytes) (env : ServerEnv K.toKem)
    (bytes : Bytes) : Bool :=
  decide ((id.accept P cache clientTag env bytes).1 = err .io)

def Worker.blocked (cache : TicketCache) (w : Worker K) : Bool :=
  match w.phase with
  | .accepting env consumed =>
    id.wantsMore P cache w.clientTag env consumed && w.inbound.isEmpty && !w.closed
  | _ => false

/-- What the worker is going to read has arrived, or its bridge is closed. -/
def Worker.Supplied (cache : TicketCache) (w : Worker K) : Prop :=
  ∀ (env : ServerEnv K.toKem) (consumed : Bytes), w.phase = .accepting env consumed →
    w.closed = true ∨ ∃ bytes, consumed <+: bytes ∧ bytes <+: consumed ++ w.inbound ∧
      id.wantsMore P cache w.clientTag env bytes = false

namespace Handshakes

def new (K : StaticAuth) : Handshakes K := ⟨TicketCache.new, false, none, []⟩

def setWorker (s : Handshakes K) (i : Nat) (w : Worker K) : Handshakes K :=
  { s with workers := s.workers.modify i fun _ => w }

def lock (s : Handshakes K) (i : Nat) (w : Worker K) (env : ServerEnv K.toKem) :
    Option (Handshakes K) :=
  match w.phase, s.holder with
  | .locking, none =>
    if s.poisoned then some (s.setWorker i { w with phase := .panicked })
    else some ({ s with holder := some i }.setWorker i { w with phase := .accepting env [] })
  | _, _ => none

/-- A read of `server_accept` that finds something. -/
def read (s : Handshakes K) (i : Nat) (w : Worker K) : Option (Handshakes K) :=
  match w.phase, w.inbound with
  | .accepting env consumed, byte :: inbound =>
    if id.wantsMore P s.cache w.clientTag env consumed then
      some (s.setWorker i { w with inbound, phase := .accepting env (consumed ++ [byte]) })
    else none
  | _, _ => none

/-- `server_accept` returns: it wants no more bytes, or finds the end of the stream. -/
def finish (s : Handshakes K) (i : Nat) (w : Worker K) : Option (Handshakes K) :=
  match w.phase with
  | .accepting env consumed =>
    if id.wantsMore P s.cache w.clientTag env consumed ∧ (w.inbound ≠ [] ∨ w.closed = false) then
      none
    else
      let (result, cache) := id.accept P s.cache w.clientTag env consumed
      match result with
      | .ok _ => some ({ s with cache, holder := none }.setWorker i { w with phase := .done })
      | .err _ =>
        some ({ s with cache, holder := none }.setWorker i
          { w with phase := .done, closed := true })
      | .panic _ =>
        some ({ s with cache, holder := none, poisoned := true }.setWorker i
          { w with phase := .panicked })
  | _ => none

def step (s : Handshakes K) : HandshakeEvent K → Option (Handshakes K)
  | .start clientTag =>
    some { s with workers := s.workers ++ [⟨clientTag, [], false, .locking⟩] }
  | .arrive i bytes => do
    let w ← s.workers[i]?
    some (s.setWorker i { w with inbound := w.inbound ++ bytes })
  | .close i => do
    let w ← s.workers[i]?
    some (s.setWorker i { w with closed := true })
  | .lock i env => do s.lock i (← s.workers[i]?) env
  | .read i => do s.read P id i (← s.workers[i]?)
  | .finish i => do s.finish P id i (← s.workers[i]?)

/-- A worker that locks the cache has a closed bridge, or has the bytes that
`server_accept` is going to read. -/
def prepared (s : Handshakes K) : HandshakeEvent K → Bool
  | .lock i env =>
    s.poisoned || (s.workers[i]?).any fun w => w.closed ||
      w.inbound.inits.any fun bytes => !id.wantsMore P s.cache w.clientTag env bytes
  | _ => true

/-! ## What a step can be -/

inductive Act (s : Handshakes K) : HandshakeEvent K → Handshakes K → Prop where
  | start {clientTag} :
      Act s (.start clientTag)
        { s with workers := s.workers ++ [⟨clientTag, [], false, .locking⟩] }
  | arrive {i w bytes} (hw : s.workers[i]? = some w) :
      Act s (.arrive i bytes) (s.setWorker i { w with inbound := w.inbound ++ bytes })
  | close {i w} (hw : s.workers[i]? = some w) :
      Act s (.close i) (s.setWorker i { w with closed := true })
  | lock {i w env} (hw : s.workers[i]? = some w) (hPhase : w.phase = .locking)
      (hFree : s.holder = none) (hSound : s.poisoned = false) :
      Act s (.lock i env)
        ({ s with holder := some i }.setWorker i { w with phase := .accepting env [] })
  | crash {i w env} (hw : s.workers[i]? = some w) (hPoisoned : s.poisoned = true) :
      Act s (.lock i env) (s.setWorker i { w with phase := .panicked })
  | read {i w env consumed inbound byte} (hw : s.workers[i]? = some w)
      (hPhase : w.phase = .accepting env consumed) (hInbound : w.inbound = byte :: inbound)
      (hWants : id.wantsMore P s.cache w.clientTag env consumed = true) :
      Act s (.read i)
        (s.setWorker i { w with inbound, phase := .accepting env (consumed ++ [byte]) })
  | finish {i w w' cache poisoned} (hw : s.workers[i]? = some w) (hPhase : w.phase.accepts = true)
      (hDone : w'.phase.accepts = false) :
      Act s (.finish i) ({ s with cache, holder := none, poisoned }.setWorker i w')

variable {P} {id} {s s' : Handshakes K}

variable {env : ServerEnv K.toKem} {i j : Nat} {w : Worker K} {e : HandshakeEvent K}

theorem act_of_lock (hw : s.workers[i]? = some w) (h : s.lock i w env = some s') :
    Act P id s (.lock i env) s' := by
  unfold Handshakes.lock at h
  split at h
  · rename_i hPhase hFree
    split at h
    · rename_i hPoisoned
      cases h
      exact .crash hw hPoisoned
    · rename_i hSound
      cases h
      exact .lock hw hPhase hFree (by simpa using hSound)
  · cases h

theorem act_of_read (hw : s.workers[i]? = some w) (h : s.read P id i w = some s') :
    Act P id s (.read i) s' := by
  unfold Handshakes.read at h
  split at h
  · rename_i hPhase hInbound
    split at h
    · rename_i hWants
      cases h
      exact .read hw hPhase hInbound hWants
    · cases h
  · cases h

theorem act_of_finish (hw : s.workers[i]? = some w) (h : s.finish P id i w = some s') :
    Act P id s (.finish i) s' := by
  unfold Handshakes.finish at h
  split at h
  · rename_i hPhase
    have hPhase : w.phase.accepts = true := by rw [hPhase]; rfl
    split at h
    · cases h
    · dsimp only at h
      split at h
      all_goals
        cases h
        exact .finish hw hPhase rfl
  · cases h

theorem act_of_step (h : s.step P id e = some s') : Act P id s e s' := by
  cases e with
  | start clientTag =>
    cases h
    exact .start
  | arrive i bytes =>
    obtain ⟨w, hw, h⟩ := bind_eq_some_iff.mp h
    cases h
    exact .arrive hw
  | close i =>
    obtain ⟨w, hw, h⟩ := bind_eq_some_iff.mp h
    cases h
    exact .close hw
  | lock =>
    obtain ⟨w, hw, h⟩ := bind_eq_some_iff.mp h
    exact act_of_lock hw h
  | read =>
    obtain ⟨w, hw, h⟩ := bind_eq_some_iff.mp h
    exact act_of_read hw h
  | finish =>
    obtain ⟨w, hw, h⟩ := bind_eq_some_iff.mp h
    exact act_of_finish hw h

/-! ## Who is in `server_accept` -/

theorem getElem?_setWorker {w'} (h : (s.setWorker i w').workers[j]? = some w) :
    i = j ∧ w = w' ∨ i ≠ j ∧ s.workers[j]? = some w := by
  obtain ⟨y, hy, ⟨rfl, rfl⟩ | ⟨hOther, rfl⟩⟩ := getElem?_modify_eq_some h
  · exact .inl ⟨rfl, rfl⟩
  · exact .inr ⟨hOther, hy⟩

/-- Only the holder of the mutex is in `server_accept`. -/
def Exclusive (s : Handshakes K) : Prop :=
  ∀ (i : Nat) (w : Worker K), s.workers[i]? = some w → w.phase.accepts = true → s.holder = some i

theorem Exclusive.set (h : s.Exclusive) (hw : w.phase.accepts = true → s.holder = some i) :
    (s.setWorker i w).Exclusive := by
  intro j v hv hAccepts
  obtain ⟨rfl, rfl⟩ | ⟨-, hOld⟩ := getElem?_setWorker hv
  · exact hw hAccepts
  · exact h j v hOld hAccepts

theorem Exclusive.idle (h : s.Exclusive) (hFree : s.holder = none) (hw : s.workers[i]? = some w) :
    w.phase.accepts = false := by
  rw [← Bool.not_eq_true]
  intro hAccepts
  have hHolder := h i w hw hAccepts
  rw [hFree] at hHolder
  cases hHolder

theorem Exclusive.other (h : s.Exclusive) {v} (hw : s.workers[i]? = some w)
    (hAccepts : w.phase.accepts = true) (hOther : i ≠ j) (hv : s.workers[j]? = some v) :
    v.phase.accepts = false := by
  rw [← Bool.not_eq_true]
  intro hToo
  have hSame := (h i w hw hAccepts).symm.trans (h j v hv hToo)
  exact hOther (some_inj.mp hSame)

theorem Exclusive.act (h : s.Exclusive) (hAct : Act P id s e s') : s'.Exclusive := by
  cases hAct with
  | start =>
    intro j v hv hAccepts
    rcases getElem?_concat_eq_some hv with hOld | ⟨-, rfl⟩
    · exact h j v hOld hAccepts
    · cases hAccepts
  | arrive hw | close hw => exact h.set fun hAccepts => h _ _ hw hAccepts
  | crash hw hPoisoned => exact h.set nofun
  | read hw hPhase _ _ => exact h.set fun _ => h _ _ hw (by rw [hPhase]; rfl)
  | lock hw hPhase hFree hSound =>
    intro j v hv hAccepts
    obtain ⟨rfl, -⟩ | ⟨-, hOld⟩ := getElem?_setWorker hv
    · rfl
    · rw [h.idle hFree hOld] at hAccepts
      cases hAccepts
  | finish hw hPhase hDone =>
    intro j v hv hAccepts
    obtain ⟨rfl, rfl⟩ | ⟨hOther, hOld⟩ := getElem?_setWorker hv
    · rw [hDone] at hAccepts
      cases hAccepts
    · rw [h.other hw hPhase hOther hOld] at hAccepts
      cases hAccepts

/-! ## Workers that have what they need -/

/-- What every worker in `server_accept` is going to read has arrived, or its bridge is
closed. -/
def Supplied (P : Primitives) (id : ServerIdentity K) (s : Handshakes K) : Prop :=
  ∀ (i : Nat) (w : Worker K), s.workers[i]? = some w → w.Supplied P id s.cache

theorem Supplied.set (h : s.Supplied P id) (hw : w.Supplied P id s.cache) :
    (s.setWorker i w).Supplied P id := by
  intro j v hv
  obtain ⟨rfl, rfl⟩ | ⟨-, hOld⟩ := getElem?_setWorker hv
  · exact hw
  · exact h j v hOld

theorem Supplied.act (h : s.Supplied P id) (hExclusive : s.Exclusive)
    (hOk : s.prepared P id e = true) (hAct : Act P id s e s') : s'.Supplied P id := by
  cases hAct with
  | start =>
    intro j v hv
    rcases getElem?_concat_eq_some hv with hOld | ⟨-, rfl⟩
    · exact h j v hOld
    · exact nofun
  | arrive hw =>
    refine h.set fun env consumed hPhase => ?_
    refine (h _ _ hw env consumed hPhase).imp_right fun hBytes => ?_
    obtain ⟨bytes, hRead, hThere, hEnough⟩ := hBytes
    refine ⟨bytes, hRead, hThere.trans ?_, hEnough⟩
    rw [← append_assoc]
    exact prefix_append _ _
  | close => exact h.set fun _ _ _ => .inl rfl
  | crash hw hPoisoned => exact h.set nofun
  | @read i w env consumed inbound byte hw hPhase hInbound hWants =>
    refine h.set fun env' consumed' hPhase' => ?_
    cases hPhase'
    refine (h i w hw env consumed hPhase).imp_right fun hBytes => ?_
    obtain ⟨bytes, ⟨rest, rfl⟩, hThere, hEnough⟩ := hBytes
    rw [hInbound] at hThere
    have hRest : rest <+: byte :: inbound := (prefix_append_right_inj _).mp hThere
    cases rest with
    | nil =>
      -- then it would want no more
      rw [append_nil, hWants] at hEnough
      cases hEnough
    | cons first rest =>
      obtain ⟨rfl, hRest⟩ := cons_prefix_cons.mp hRest
      refine ⟨consumed ++ first :: rest, ?_, ?_, hEnough⟩
      · exact ⟨rest, append_assoc _ _ _⟩
      · rw [append_assoc]
        exact hThere
  | @lock i w env hw hPhase hFree hSound =>
    have hReady : w.closed = true ∨
        ∃ bytes, bytes <+: w.inbound ∧ id.wantsMore P s.cache w.clientTag env bytes = false := by
      simpa [prepared, hSound, hw] using hOk
    refine Supplied.set (s := { s with holder := some i }) h fun env' consumed hPhase' => ?_
    cases hPhase'
    refine hReady.imp_right fun hBytes => ?_
    obtain ⟨bytes, hThere, hEnough⟩ := hBytes
    exact ⟨bytes, nil_prefix, hThere, hEnough⟩
  | finish hw hPhase hDone =>
    intro j v hv env consumed hPhase'
    have hAccepts : v.phase.accepts = true := by rw [hPhase']; rfl
    obtain ⟨rfl, rfl⟩ | ⟨hOther, hOld⟩ := getElem?_setWorker hv
    · rw [hDone] at hAccepts
      cases hAccepts
    · rw [hExclusive.other hw hPhase hOther hOld] at hAccepts
      cases hAccepts

/-- **Nobody waits with the mutex.** If every worker that takes the mutex has all bytes already that
it is going to read, or its bridge is closed (`prepared`), then in every state no worker holds it
and waits for its peer. -/
theorem holder_not_blocked
    (hRun : Run (step P id) (fun s e => s.prepared P id e = true) (new K) s) {i : Nat}
    {w : Worker K} (hw : s.workers[i]? = some w) :
    ¬ (s.holder = some i ∧ w.blocked P id s.cache = true) := by
  rintro ⟨-, hBlocked⟩
  have hInv : s.Exclusive ∧ s.Supplied P id := by
    refine Run.invariant (I := fun s => s.Exclusive ∧ s.Supplied P id) hRun ⟨?_, ?_⟩ ?_
    · intro i w hw
      cases hw
    · intro i w hw
      cases hw
    · intro s s' e h hOk hStep
      have hAct := act_of_step hStep
      exact ⟨h.1.act hAct, h.2.act h.1 hOk hAct⟩
  unfold Worker.blocked at hBlocked
  split at hBlocked
  · rename_i env consumed hPhase
    simp only [Bool.and_eq_true, List.isEmpty_iff, Bool.not_eq_true'] at hBlocked
    obtain ⟨⟨hWants, hInbound⟩, hOpen⟩ := hBlocked
    rcases hInv.2 i w hw env consumed hPhase with hClosed | ⟨bytes, hRead, hThere, hEnough⟩
    · rw [hOpen] at hClosed
      cases hClosed
    · rw [hInbound, List.append_nil] at hThere
      obtain rfl : consumed = bytes := hRead.eq_of_length_le hThere.length_le
      rw [hWants] at hEnough
      cases hEnough
  · cases hBlocked

/-! ## A silent peer -/

def plainIdentity : ServerIdentity plainAuth :=
  ⟨(2 : UInt8), [2], ⟨padTo 32 [], 60⟩, ⟨padTo 16 []⟩, allowAllAnchor, 60⟩

def plainEnv : ServerEnv plainAuth.toKem :=
  ⟨(4 : UInt8), (5 : UInt8), padTo 32 [], padTo 16 [], padTo 12 [], 0, 0, 0, 0, 0, false⟩

/-- A peer has sent a frame of an unknown type before its worker gets the mutex. -/
theorem holder_not_blocked_refused : ∃ s w,
    Run (step plainPrimitives plainIdentity)
      (fun s e => s.prepared plainPrimitives plainIdentity e = true) (new plainAuth) s ∧
    s.workers[0]? = some w ∧ s.holder = some 0 ∧
    ¬ (s.holder = some 0 ∧ w.blocked plainPrimitives plainIdentity s.cache = true) := by
  obtain ⟨s, hRun, hTest⟩ := exists_run_of_exec (step plainPrimitives plainIdentity)
    (fun s e => s.prepared plainPrimitives plainIdentity e = true) (new plainAuth)
    [.start [], .arrive 0 [0, 0, 0, 0, 0], .lock 0 plainEnv, .read 0, .read 0]
    (fun s => (s.workers[0]?).isSome && decide (s.holder = some 0))
    (by decide +kernel)
  obtain ⟨hSome, hHolder⟩ := Bool.and_eq_true_iff.mp hTest
  obtain ⟨w, hw⟩ := isSome_iff_exists.mp hSome
  exact ⟨s, w, hRun, hw, of_decide_eq_true hHolder, holder_not_blocked hRun hw⟩

theorem lock_of_held (h : s.holder = some i) (env : ServerEnv K.toKem) :
    s.step P id (.lock j env) = none := by
  refine bind_eq_none_iff.mpr fun w _ => ?_
  unfold Handshakes.lock
  split
  · rename_i hFree
    rw [h] at hFree
    cases hFree
  · rfl

/-- **One silent peer stops all handshakes.** Its worker waits with the mutex. -/
theorem not_holder_not_blocked : ∃ s w,
    Run (step plainPrimitives plainIdentity) Always (new plainAuth) s ∧
    s.workers[0]? = some w ∧ s.holder = some 0 ∧
    w.blocked plainPrimitives plainIdentity s.cache = true ∧
    s.prepared plainPrimitives plainIdentity (.lock 1 plainEnv) = true ∧
    ∀ env, s.step plainPrimitives plainIdentity (.lock 1 env) = none := by
  obtain ⟨s, hRun, hTest⟩ := exists_run_of_exec (step plainPrimitives plainIdentity) Always
    (new plainAuth) [.start [], .start [], .arrive 1 [0, 0, 0, 0, 0], .lock 0 plainEnv]
    (fun s => (s.workers[0]?).any (fun w => w.blocked plainPrimitives plainIdentity s.cache) &&
      decide (s.holder = some 0 ∧
        s.prepared plainPrimitives plainIdentity (.lock 1 plainEnv) = true))
    (by decide +kernel)
  obtain ⟨hSome, hTest⟩ := Bool.and_eq_true_iff.mp hTest
  obtain ⟨w, hw, hBlocked⟩ := (any_eq_true _ _).mp hSome
  obtain ⟨hHolder, hReady⟩ := of_decide_eq_true hTest
  exact ⟨s, w, hRun, hw, hHolder, hBlocked, hReady, lock_of_held hHolder⟩

end Handshakes

end DirectWire.Moq
