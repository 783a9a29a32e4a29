import DirectWire.Mesh.Machine

/-!
# Mesh — a node refines the machine of every peer

`Acts a b X q out` says that a handler has changed the core of the peer `X` to
`q`, has sent, reported and timed `out` for it, and has left every other peer
alone. Each function of the relay data plane has its lemma: it acts on one
peer, by a step of the machine.

* `handle_refines`, `run_refines` — every event of a node is a step of the
  machine of every peer, and every run a run of it.
-/

namespace DirectWire.Mesh

open Lib Outcome List Option

variable {A : Algorithms}

def Effect.isFor (X : NodeId) : Effect → Bool
  | .send target _ => target = X
  | .gmTimer peer _ => peer = X
  | .plain source _ => source = X
  | .emit (.message source _ _) => source = X
  | .emit (.rttSample peer .relay _ _) => peer = X
  | .emit _ => false

theorem Effect.isFor_unique {X Y : NodeId} {e : Effect} (hX : e.isFor X = true) (hNe : Y ≠ X) :
    e.isFor Y = false := by
  unfold isFor at hX ⊢
  split at hX <;> simp_all [Ne.symm]

namespace Actor

variable {env : Env A} {a b d : Actor A} {X Y : NodeId} {p p' : Peer A} {q q' : PeerCore A}
  {out out' : List Effect}

def setup (a : Actor A) : NodeSetup A :=
  ⟨a.build, a.identity, a.gmId, a.gmCookie, a.gmAnchor, a.gmpq⟩

def core (a : Actor A) (X : NodeId) : PeerCore A :=
  match a.peers.lookup X with
  | some p => p.core
  | none => .fresh

def effectsFor (a : Actor A) (X : NodeId) : List Effect := a.effects.filter (·.isFor X)

theorem core_of_lookup (h : a.peers.lookup X = some p) : a.core X = p.core := by
  rw [core, h]

theorem core_of_getPeer (h : a.getPeer X = ok p) : a.core X = p.core :=
  core_of_lookup (getPeer_eq_ok.mp h)

@[simp] theorem core_setPeer_self : (a.setPeer X p).core X = p.core :=
  core_of_lookup lookup_setPeer_self

/-! ## Acting on one peer -/

/-- A handler changed the core of `X` to `q` and did `out` for it, and left
every other peer alone. -/
structure Acts (a b : Actor A) (X : NodeId) (q : PeerCore A) (out : List Effect) : Prop where
  setup : b.setup = a.setup
  core : b.core X = q
  others : ∀ Y, Y ≠ X → b.core Y = a.core Y
  effects : b.effectsFor X = a.effectsFor X ++ out
  quiet : ∀ Y, Y ≠ X → b.effectsFor Y = a.effectsFor Y

theorem Acts.refl (a : Actor A) (X : NodeId) : Acts a a X (a.core X) [] :=
  ⟨rfl, rfl, fun _ _ => rfl, (append_nil _).symm, fun _ _ => rfl⟩

variable {e : Effect} {payload : Bytes}

section

variable (h : Acts a b X q out)

include h

theorem Acts.trans (h' : Acts b d X q' out') : Acts a d X q' (out ++ out') where
  setup := h'.setup.trans h.setup
  core := h'.core
  others Y hY := (h'.others Y hY).trans (h.others Y hY)
  effects := by rw [h'.effects, h.effects, append_assoc]
  quiet Y hY := (h'.quiet Y hY).trans (h.quiet Y hY)

theorem Acts.setPeer (p : Peer A) : Acts a (b.setPeer X p) X p.core out where
  setup := h.setup
  core := core_setPeer_self
  others Y hY := by
    rw [← h.others Y hY]
    unfold Actor.core
    rw [Actor.setPeer, Map.lookup_insert_ite, if_neg hY]
  effects := h.effects
  quiet := h.quiet

omit h in
theorem effectsFor_addEffect (b : Actor A) (e : Effect) (Y : NodeId) :
    (b.addEffect e).effectsFor Y = b.effectsFor Y ++ [e].filter (·.isFor Y) :=
  filter_append ..

theorem Acts.addEffect (he : e.isFor X = true) : Acts a (b.addEffect e) X q (out ++ [e]) := by
  refine ⟨h.setup, h.core, h.others, ?_, fun Y hY => ?_⟩
  · rw [effectsFor_addEffect, h.effects, filter_cons_of_pos he, filter_nil, append_assoc]
  · rw [effectsFor_addEffect, filter_cons_of_neg (by simp [Effect.isFor_unique he hY]), filter_nil,
      append_nil, h.quiet Y hY]

theorem Acts.silent (he : ∀ Y, e.isFor Y = false) : Acts a (b.addEffect e) X q out := by
  have hSame : ∀ Y, (b.addEffect e).effectsFor Y = b.effectsFor Y := fun Y => by
    rw [effectsFor_addEffect, filter_cons_of_neg (by simp [he]), filter_nil, append_nil]
  exact ⟨h.setup, h.core, h.others, (hSame X).trans h.effects,
    fun Y hY => (hSame Y).trans (h.quiet Y hY)⟩

theorem Acts.sendData : Acts a (b.sendData X payload) X q (out ++ [.send X payload]) :=
  h.addEffect (by simp [Effect.isFor])

theorem Acts.gmSend {kind body} :
    Acts a (b.gmSend X kind body) X q (out ++ [.send X ([gmTag, kind] ++ body)]) :=
  h.sendData

theorem Acts.log {text} : Acts a (b.log text) X q out :=
  h.silent fun _ => rfl

end

def Does (r : Outcome Empty (Actor A)) (a : Actor A) (X : NodeId)
    (R : PeerCore A → List Effect → Prop) : Prop :=
  ∀ b, r = ok b → ∃ q out, Acts a b X q out ∧ R q out

theorem ensurePeer_acts (h : a.ensurePeer env X = ok b) :
    Acts a b X (a.core X) [] ∧ ∃ p, b.peers.lookup X = some p := by
  unfold ensurePeer at h
  split at h
  · rename_i p hPeer
    cases h
    exact ⟨Acts.refl a X, p, hPeer⟩
  · rename_i hNone
    obtain ⟨p, hNew, h⟩ := bind_eq_ok.mp h
    cases h
    refine ⟨?_, p, lookup_setPeer_self⟩
    -- a new peer is a fresh one, as an unknown one is
    have hFresh : p.core = a.core X := by
      simp only [Peer.new] at hNew
      obtain ⟨paths, -, hNew⟩ := bind_eq_ok.mp hNew
      cases hNew
      rw [core, hNone]
      rfl
    rw [← hFresh]
    exact (Acts.refl a X).setPeer p

/-! ## Starting handshakes -/

theorem gmStart_does (hPeer : a.peers.lookup X = some p) (hNone : p.gm = none)
    (hOk : p.gmFailed = false) (hId : a.gmId.isSome = true) :
    Does (a.gmStart env X) a X (GmStarts a.setup env X p.core) := by
  intro b h
  obtain ⟨gm, hGm⟩ := isSome_iff_exists.mp hId
  simp only [gmStart, hGm, getPeer_eq_ok.mpr hPeer, ok_bind, hNone, hOk] at h
  rw [if_neg (by simp)] at h
  obtain ⟨a₁, hOffer, hArm⟩ := bind_eq_ok.mp h
  simp only [gmOffer, getPeer_eq_ok.mpr hPeer, ok_bind] at hOffer
  -- the timer is armed whatever became of the offer
  have hTimer : ∀ {p₁ : Peer A} {out₁ : List Effect}, Acts a a₁ X p₁.core out₁ →
      a₁.peers.lookup X = some p₁ → ∃ gen,
        addU64 a.build.overflowChecks p₁.gmGen 1 = (ok gen : Outcome Empty _) ∧
        Acts a b X { p₁.core with gmGen := gen } (out₁ ++ [.gmTimer X gen]) := by
    intro p₁ out₁ hActs hPeer₁
    simp only [gmArmTimer, getPeer_eq_ok.mpr hPeer₁, ok_bind] at hArm
    obtain ⟨gen, hGen, hRet⟩ := bind_eq_ok.mp hArm
    cases hRet
    have hBuild : a₁.build = a.build := congrArg NodeSetup.build hActs.setup
    rw [hBuild] at hGen
    exact ⟨gen, hGen, (hActs.setPeer { p₁ with gmGen := gen }).addEffect (by simp [Effect.isFor])⟩
  split at hOffer
  · rename_i hRole
    obtain ⟨offer, hWrite, hOffer⟩ := bind_eq_ok.mp hOffer
    split at hOffer
    · rename_i ePk init
      cases hOffer
      obtain ⟨gen, hGen, hActs⟩ := hTimer
        (((Acts.refl a X).setPeer { p with gm := some (.clientWaitCookie init ePk) }).gmSend)
        lookup_setPeer_self
      exact ⟨_, _, hActs, .offer hGm hRole (attempt_eq_ok_ok.mp hWrite) hGen⟩
    · cases hOffer
      obtain ⟨gen, hGen, hActs⟩ := hTimer ((Acts.refl a X).setPeer { p with gmFailed := true })
        lookup_setPeer_self
      exact ⟨_, _, hActs, .fail hGm hRole (attempt_eq_ok_error.mp hWrite) hGen⟩
  · rename_i hRole
    cases hOffer
    obtain ⟨gen, hGen, hActs⟩ := hTimer
      (((Acts.refl a X).setPeer { p with gm := some .serverWaitMsg1 }).gmSend) lookup_setPeer_self
    exact ⟨_, _, hActs, .kick hRole hGen⟩

theorem hsBegin_does (hPeer : a.peers.lookup X = some p) (hNone : p.hs = none) :
    Does (a.hsBegin env X) a X fun q out =>
      q = { p.core with hs := some (hsStart A a.identity X env.eph).1 } ∧
        out = [.send X (hsStart A a.identity X env.eph).2] := by
  intro b h
  simp only [hsBegin, getPeer_eq_ok.mpr hPeer, ok_bind, hNone, isNone_none, if_true] at h
  cases h
  exact ⟨_, _, ((Acts.refl a X).setPeer { p with hs := _ }).sendData, rfl, rfl⟩

/-! ## Sending -/

theorem gmReady_isSome_iff : (a.gmReady p).isSome = true ↔ a.setup.UsesGm p.core := by
  constructor
  · intro h
    obtain ⟨session, hReady⟩ := isSome_iff_exists.mp h
    obtain ⟨hBuild, hGm⟩ := gmReady_eq_some hReady
    refine ⟨hBuild, ?_⟩
    show GmState.isReady p.gm = true
    rw [hGm]
    rfl
  · rintro ⟨hBuild, hGm⟩
    change a.build.gmPq = true at hBuild
    change GmState.isReady p.gm = true at hGm
    unfold GmState.isReady at hGm
    split at hGm
    · rename_i session hState
      simp [gmReady, hBuild, hState]
    · cases hGm

theorem not_usesGm (h : a.gmReady p = none) : ¬ a.setup.UsesGm p.core := by
  rw [← gmReady_isSome_iff, h]
  simp

theorem queueInner_does {inner} (hPeer : a.peers.lookup X = some p) :
    Does (a.queueInner env X inner) a X (Queues a.setup env X inner p.core) := by
  intro b h
  simp only [queueInner, getPeer_eq_ok.mpr hPeer, ok_bind] at h
  have hQueue : Acts a (a.setPeer X { p with pending := p.pending ++ [inner] }) X
      (p.core.queue inner) [] := (Acts.refl a X).setPeer _
  split at h
  · rename_i hTries
    obtain ⟨hBuild, hOn, hOk, hId⟩ := hTries
    have hTries : a.setup.TriesGm p.core := ⟨hBuild, hOn, Bool.eq_false_of_not_eq_true hOk, hId⟩
    split at h
    · rename_i hNone
      have hGm : p.gm = none := isNone_iff_eq_none.mp hNone
      -- the message is in the queue when the handshake starts
      obtain ⟨q, out, hActs, hStarts⟩ :=
        gmStart_does (p := { p with pending := p.pending ++ [inner] }) lookup_setPeer_self hGm
          (Bool.eq_false_of_not_eq_true hOk) hId b h
      exact ⟨q, out, hQueue.trans hActs, .gm hTries hGm hStarts⟩
    · rename_i hSome
      cases h
      exact ⟨_, _, hQueue, .gmWaits hTries (isSome_iff_ne_none.mpr
        fun hNone => hSome (isNone_iff_eq_none.mpr hNone))⟩
  · rename_i hNot
    have hTries : ¬ a.setup.TriesGm p.core := by
      rintro ⟨hBuild, hOn, hOk, hId⟩
      exact hNot ⟨hBuild, hOn, Bool.not_eq_true _ ▸ hOk, hId⟩
    cases hHs : p.hs with
    | none =>
      obtain ⟨q, out, hActs, rfl, rfl⟩ :=
        hsBegin_does (p := { p with pending := p.pending ++ [inner] }) lookup_setPeer_self hHs b h
      exact ⟨_, _, hQueue.trans hActs, .hs hTries hHs⟩
    | some hs =>
      simp only [hsBegin, getPeer_eq_ok.mpr lookup_setPeer_self, ok_bind] at h
      rw [if_neg (by simp [hHs])] at h
      cases h
      exact ⟨_, _, hQueue, .hsWaits hTries (by show p.hs.isSome = true; rw [hHs]; rfl)⟩

theorem relaySendInner_does (env : Env A) (a : Actor A) (X : NodeId) (inner : Bytes) :
    Does (a.relaySendInner env X inner) a X (Sends a.setup env X inner (a.core X)) := by
  intro b h
  simp only [relaySendInner] at h
  obtain ⟨a₁, hEnsure, h⟩ := bind_eq_ok.mp h
  obtain ⟨p, hPeer, h⟩ := bind_eq_ok.mp h
  obtain ⟨hKnown, -⟩ := ensurePeer_acts hEnsure
  -- the peer is known from here on, with the core it had
  have hCore : a.core X = p.core := hKnown.core.symm.trans (core_of_getPeer hPeer)
  rw [hCore, ← hKnown.setup]
  split at h
  · rename_i session _ hReady
    obtain ⟨hBuild, hGm⟩ := gmReady_eq_some hReady
    obtain ⟨⟨pkt, session'⟩, hSend, h⟩ := bind_eq_ok.mp h
    cases h
    exact ⟨_, _, (hKnown.setPeer { p with gm := some (.ready session') }).gmSend,
      .gm hBuild hGm hSend⟩
  · rename_i s hReady hSession
    obtain ⟨sealed, hSealed, h⟩ := bind_eq_ok.mp h
    split at h
    · rename_i ct s'
      cases h
      exact ⟨_, _, (hKnown.setPeer { p with session := some s' }).sendData,
        .sealed (not_usesGm hReady) hSession (attempt_eq_ok_ok.mp hSealed)⟩
    · cases h
      rw [hCore] at hKnown
      exact ⟨_, _, hKnown.log,
        .lost (not_usesGm hReady) hSession (attempt_eq_ok_error.mp hSealed)⟩
  · rename_i hReady hSession
    obtain ⟨q, out, hActs, hQueues⟩ := queueInner_does (getPeer_eq_ok.mp hPeer) b h
    exact ⟨q, out, hKnown.trans hActs, .queued (not_usesGm hReady) hSession hQueues⟩

theorem sendAll_does {inners} :
    Does (a.sendAll env X inners) a X (Flushes a.setup env X inners (a.core X)) := by
  induction inners generalizing a with
  | nil =>
    intro b h
    cases h
    exact ⟨_, _, Acts.refl a X, .nil⟩
  | cons inner rest ih =>
    intro b h
    obtain ⟨a₁, hSend, h⟩ := bind_eq_ok.mp h
    obtain ⟨q₁, out₁, hActs₁, hFirst⟩ := relaySendInner_does env a X inner a₁ hSend
    obtain ⟨q₂, out₂, hActs₂, hRest⟩ := ih b h
    rw [hActs₁.setup, hActs₁.core] at hRest
    exact ⟨q₂, _, hActs₁.trans hActs₂, .cons hFirst hRest⟩

theorem flushPending_does (hPeer : a.peers.lookup X = some p) :
    Does (a.flushPending env X) a X
      (Flushes a.setup env X p.pending { p.core with pending := [] }) := by
  intro b h
  simp only [flushPending, getPeer_eq_ok.mpr hPeer, ok_bind] at h
  have hTake := (Acts.refl a X).setPeer { p with pending := [] }
  obtain ⟨q, out, hActs, hFlush⟩ := sendAll_does b h
  rw [core_setPeer_self] at hFlush
  exact ⟨q, out, hTake.trans hActs, hFlush⟩

/-! ## Decrypted messages -/

theorem onPong_acts {n} (h : a.onPong env X n = ok b) :
    Acts a b X (a.core X) [] ∨ ∃ rtt loss, Acts a b X (a.core X)
      [.emit (.rttSample X .relay rtt loss)] := by
  simp only [onPong] at h
  obtain ⟨p, hPeer, h⟩ := bind_eq_ok.mp h
  rw [core_of_getPeer hPeer]
  split at h
  · cases h
    rw [← core_of_getPeer hPeer]
    exact .inl (Acts.refl a X)
  · -- only the pings and the path have changed
    right
    split at h
    · cases h
      exact ⟨_, _, (((Acts.refl a X).setPeer _).addEffect (by simp [Effect.isFor])).silent
        fun _ => rfl⟩
    · cases h
      exact ⟨_, _, ((Acts.refl a X).setPeer _).addEffect (by simp [Effect.isFor])⟩

theorem onPlainInner_does (env : Env A) (a : Actor A) (X : NodeId) (inner : Bytes) :
    Does (a.onPlainInner env X inner) a X (Hands a.setup env X inner (a.core X)) := by
  intro b h
  simp only [onPlainInner] at h
  have hPlain : Acts a (a.addEffect (.plain X inner)) X (a.core X) [.plain X inner] :=
    (Acts.refl a X).addEffect (by simp [Effect.isFor])
  split at h
  · rename_i hData
    obtain ⟨payload, hSlice, h⟩ := bind_eq_ok.mp h
    cases h
    have hInner : inner = innerData :: payload := by
      obtain ⟨rest, rfl⟩ := head?_eq_some_iff.mp hData
      rw [(sliceFrom_eq_ok.mp hSlice).2.symm]
      rfl
    exact ⟨_, _, hPlain.addEffect (by simp [Effect.isFor]), .data hInner⟩
  · rename_i hData
    split at h
    · rename_i hPing
      obtain ⟨id, hId, h⟩ := bind_eq_ok.mp h
      obtain ⟨q, out, hActs, hSends⟩ := relaySendInner_does env _ X ([innerPong] ++ id) b h
      rw [← (slice_eq_ok.mp hId).2] at hSends
      exact ⟨q, _, hPlain.trans hActs, .ping hSends hPing⟩
    · rename_i hPing
      split at h
      · rename_i hPong
        obtain ⟨id, -, h⟩ := bind_eq_ok.mp h
        rcases onPong_acts h with hActs | ⟨rtt, loss, hActs⟩
        · exact ⟨_, _, hPlain.trans hActs, .nothing hData hPing⟩
        · exact ⟨_, _, hPlain.trans hActs, .pong hPong⟩
      · cases h
        exact ⟨_, _, hPlain, .nothing hData hPing⟩

/-! ## GM-PQ frames -/

section GmFrames

variable {kind : UInt8} {body : Bytes}

theorem does_ok {R : PeerCore A → List Effect → Prop} (h : Acts a b X q out) (hR : R q out) :
    Does (ok b) a X R := by
  intro d hd
  cases hd
  exact ⟨q, out, h, hR⟩

section

variable (hOn : a.setup.GmOn) (hPeer : a.peers.lookup X = some p)

include hOn hPeer

omit hOn in
theorem acts_self : Acts a a X p.core [] := by
  rw [← core_of_lookup hPeer]
  exact Acts.refl a X

omit hOn hPeer in
theorem setGm_acts {g} (h : Acts a b X q out) (hPeer : b.peers.lookup X = some p)
    (hSet : b.setGm X g = ok d) : Acts a d X { p.core with gm := some g } out ∧
      d.peers.lookup X = some { p with gm := some g } := by
  simp only [setGm, getPeer_eq_ok.mpr hPeer, ok_bind] at hSet
  cases hSet
  exact ⟨h.setPeer { p with gm := some g }, lookup_setPeer_self⟩

theorem onGmKick_does (hKind : kind = gmKick) :
    Does (a.onGmKick env X) a X (GmFrame a.setup env X kind body p.core) := by
  simp only [onGmKick, getPeer_eq_ok.mpr hPeer, ok_bind]
  split
  · rename_i hIdle
    have hNone : p.gm = none := isNone_iff_eq_none.mp hIdle.1
    have hOk : p.gmFailed = false := Bool.eq_false_of_not_eq_true hIdle.2
    split
    · rename_i hRole
      intro b h
      obtain ⟨q, out, hActs, hStarts⟩ := gmStart_does hPeer hNone hOk hOn.2 b h
      exact ⟨q, out, hActs, .start hOn hKind hNone hOk hStarts hRole⟩
    · rename_i hRole
      exact does_ok ((acts_self hPeer).setPeer _) (.serve hOn hKind hRole hNone hOk)
  · rename_i hBusy
    refine does_ok (acts_self hPeer) (.ignore (.kick hKind fun hIdle => hBusy ?_))
    exact ⟨isNone_iff_eq_none.mpr hIdle.1, Bool.not_eq_true _ ▸ hIdle.2⟩

theorem onGmMsg1_does (hKind : kind = gmMsg1) :
    Does (a.onGmMsg1 env X body) a X (GmFrame a.setup env X kind body p.core) := by
  simp only [onGmMsg1, getPeer_eq_ok.mpr hPeer, ok_bind]
  split
  · rename_i hRole
    exact does_ok (acts_self hPeer) (.ignore (.msg1 hKind (.inl hRole)))
  · rename_i hRole
    split
    · rename_i hAccepts
      intro b h
      obtain ⟨issuer, hIssuer, h⟩ := bind_eq_ok.mp h
      cases h
      exact ⟨_, _, ((acts_self hPeer).setPeer { p with gm := _ }).gmSend,
        .cookie hOn hKind hRole hAccepts (unwrap_eq_ok.mp hIssuer)⟩
    · rename_i hAccepts
      exact does_ok (acts_self hPeer)
        (.ignore (.msg1 hKind (.inr (Bool.eq_false_of_not_eq_true hAccepts))))

omit hOn in
theorem take_acts : Acts a (a.setPeer X { p with gm := none }) X { p.core with gm := none } [] :=
  (acts_self hPeer).setPeer _

theorem onGmCookie_does (hKind : kind = Mesh.gmCookie) :
    Does (a.onGmCookie X body) a X (GmFrame a.setup env X kind body p.core) := by
  have hControl : kind ∈ controlKinds := by simp [controlKinds, hKind]
  simp only [onGmCookie, takeGm_eq hPeer, ok_bind]
  split
  · rename_i init ePk hState
    intro b h
    obtain ⟨d, hSet, h⟩ := bind_eq_ok.mp h
    cases h
    obtain ⟨hActs, -⟩ := setGm_acts (take_acts hPeer) lookup_setPeer_self hSet
    exact ⟨_, _, hActs.gmSend, .retry hOn hKind hState⟩
  · rename_i hOther
    refine does_ok (take_acts hPeer) (.drop hOn hControl (.inl fun hTurn => ?_))
    obtain ⟨init, ePk, hState⟩ := (hKind ▸ hTurn : Awaits Mesh.gmCookie p.gm).cookie
    exact hOther init ePk hState

omit hOn hPeer in
theorem cookieEchoed_iff {ePk verified} (h : a.cookieEchoed env X ePk body = ok verified) :
    verified = true ↔ a.setup.Echoes env X ePk body := by
  unfold cookieEchoed at h
  split at h
  · rename_i hShort
    cases h
    exact iff_of_false nofun fun hEchoes => absurd hEchoes.1 (Nat.not_le.mpr hShort)
  · rename_i hLong
    obtain ⟨echo, hEcho, h⟩ := bind_eq_ok.mp h
    obtain ⟨ePk', hKey, h⟩ := bind_eq_ok.mp h
    obtain ⟨-, rfl⟩ := slice_eq_ok.mp hEcho
    obtain ⟨-, rfl⟩ := sliceFrom_eq_ok.mp hKey
    split at h
    · rename_i hOther
      cases h
      exact iff_of_false nofun fun hEchoes => hOther hEchoes.2.1
    · rename_i hSame
      obtain ⟨issuer, hIssuer, h⟩ := bind_eq_ok.mp h
      obtain ⟨verdict, hVerdict, h⟩ := bind_eq_ok.mp h
      have hIssuer : a.setup.gmCookie = some issuer := unwrap_eq_ok.mp hIssuer
      cases h
      cases verdict with
      | ok =>
        exact iff_of_true rfl ⟨Nat.le_of_not_lt hLong, not_not.mp hSame, issuer, hIssuer,
          attempt_eq_ok_ok.mp hVerdict⟩
      | error e =>
        refine iff_of_false nofun ?_
        rintro ⟨-, -, issuer', hIssuer', hVerify⟩
        rw [hIssuer] at hIssuer'
        cases hIssuer'
        cases hVerify.symm.trans (attempt_eq_ok_error.mp hVerdict)

theorem onGmMsg1Retry_does (hKind : kind = gmMsg1Retry) :
    Does (a.onGmMsg1Retry env X body) a X (GmFrame a.setup env X kind body p.core) := by
  have hControl : kind ∈ controlKinds := by simp [controlKinds, hKind]
  simp only [onGmMsg1Retry, takeGm_eq hPeer, ok_bind]
  split
  · rename_i ePk hState
    intro b h
    obtain ⟨verified, hVerified, h⟩ := bind_eq_ok.mp h
    have hEchoes : verified = true ↔ a.setup.Echoes env X ePk body := cookieEchoed_iff hVerified
    split at h
    · rename_i hFalse
      cases h
      exact ⟨_, _, (take_acts hPeer).log,
        .drop hOn hControl (.inr (.echo hState (mt hEchoes.mpr hFalse)))⟩
    · rename_i hTrue
      obtain ⟨gm, hGm, h⟩ := bind_eq_ok.mp h
      obtain ⟨m2, hRespond, h⟩ := bind_eq_ok.mp h
      split at h
      · obtain ⟨d, hSet, h⟩ := bind_eq_ok.mp h
        cases h
        obtain ⟨hActs, -⟩ := setGm_acts (take_acts hPeer) lookup_setPeer_self hSet
        exact ⟨_, _, hActs.gmSend,
          .respond hOn hKind hState (unwrap_eq_ok.mp hGm) (attempt_eq_ok_ok.mp hRespond)
            (hEchoes.mp (not_not.mp hTrue))⟩
      · cases h
        exact ⟨_, _, (take_acts hPeer).log, .drop hOn hControl (.inr
          (.respond hState (unwrap_eq_ok.mp hGm) (attempt_eq_ok_error.mp hRespond)))⟩
  · rename_i hOther
    refine does_ok (take_acts hPeer) (.drop hOn hControl (.inl fun hTurn => ?_))
    obtain ⟨ePk, hState⟩ := (hKind ▸ hTurn : Awaits gmMsg1Retry p.gm).retry
    exact hOther ePk hState

theorem onGmMsg2_does (hKind : kind = gmMsg2) :
    Does (a.onGmMsg2 env X body) a X (GmFrame a.setup env X kind body p.core) := by
  have hControl : kind ∈ controlKinds := by simp [controlKinds, hKind]
  simp only [onGmMsg2, takeGm_eq hPeer, ok_bind]
  split
  · rename_i init hState
    intro b h
    obtain ⟨res, hRes, h⟩ := bind_eq_ok.mp h
    split at h
    · rename_i m3 session init₂
      obtain ⟨init₁, hRead, hWrite⟩ := bind_eq_ok.mp (attempt_eq_ok_ok.mp hRes)
      obtain ⟨⟨pkt, session'⟩, hBind, h⟩ := bind_eq_ok.mp h
      obtain ⟨d, hSet, h⟩ := bind_eq_ok.mp h
      cases h
      obtain ⟨hActs, -⟩ := setGm_acts (take_acts hPeer) lookup_setPeer_self hSet
      exact ⟨_, _, hActs.gmSend.gmSend, .finishClient hOn hKind hState hRead hWrite hBind⟩
    · cases h
      exact ⟨_, _, (take_acts hPeer).log,
        .drop hOn hControl (.inr (.msg2 hState (attempt_eq_ok_error.mp hRes)))⟩
  · rename_i hOther
    refine does_ok (take_acts hPeer) (.drop hOn hControl (.inl fun hTurn => ?_))
    obtain ⟨init, hState⟩ := (hKind ▸ hTurn : Awaits gmMsg2 p.gm).msg2
    exact hOther init hState

theorem onGmMsg3_does (hKind : kind = gmMsg3) :
    Does (a.onGmMsg3 X body) a X (GmFrame a.setup env X kind body p.core) := by
  have hControl : kind ∈ controlKinds := by simp [controlKinds, hKind]
  simp only [onGmMsg3, takeGm_eq hPeer, ok_bind]
  split
  · rename_i resp hState
    intro b h
    obtain ⟨res, hRes, h⟩ := bind_eq_ok.mp h
    split at h
    · rename_i session clientPk resp'
      obtain ⟨⟨pkt, session'⟩, hBind, h⟩ := bind_eq_ok.mp h
      obtain ⟨d, hSet, h⟩ := bind_eq_ok.mp h
      cases h
      obtain ⟨hActs, -⟩ := setGm_acts (take_acts hPeer) lookup_setPeer_self hSet
      exact ⟨_, _, hActs.gmSend, .finishServer hOn hKind hState (attempt_eq_ok_ok.mp hRes) hBind⟩
    · cases h
      exact ⟨_, _, (take_acts hPeer).log,
        .drop hOn hControl (.inr (.msg3 hState (attempt_eq_ok_error.mp hRes)))⟩
  · rename_i hOther
    refine does_ok (take_acts hPeer) (.drop hOn hControl (.inl fun hTurn => ?_))
    obtain ⟨resp, hState⟩ := (hKind ▸ hTurn : Awaits gmMsg3 p.gm).msg3
    exact hOther resp hState

theorem onGmDataUnbound_does {session pk} (hKind : kind = gmData)
    (hState : p.gm = some (.readyUnbound session pk)) :
    Does (a.onGmDataUnbound env X session pk body) a X
      (GmFrame a.setup env X kind body p.core) := by
  intro b h
  simp only [onGmDataUnbound] at h
  obtain ⟨⟨received, session'⟩, hRecv, h⟩ := bind_eq_ok.mp h
  obtain ⟨d, hSet, h⟩ := bind_eq_ok.mp h
  obtain ⟨hActs, hPeer'⟩ := setGm_acts (acts_self hPeer) hPeer hSet
  cases received with
  | ok pt =>
    simp only at h
    split at h
    · obtain ⟨bound, hBind, h⟩ := bind_eq_ok.mp h
      split at h
      · -- the session becomes ready, and the queue is sent over it
        simp only [gmBound, getPeer_eq_ok.mpr hPeer', ok_bind] at h
        have hReady : Acts a ((d.setPeer X { p with gm := some (.ready session') }).emit
            (.sessionReady X "sm2+ml-kem-768+sm4-gcm")) X
            { p.core with gm := some (.ready session') } [] :=
          (hActs.setPeer { p with gm := some (.ready session') }).silent fun _ => rfl
        have hPeer₂ : ((d.setPeer X { p with gm := some (.ready session') }).emit
            (.sessionReady X "sm2+ml-kem-768+sm4-gcm")).peers.lookup X =
            some { p with gm := some (.ready session') } := lookup_setPeer_self
        obtain ⟨q, out, hFlushes, hFlush⟩ := flushPending_does hPeer₂ b h
        rw [hReady.setup] at hFlush
        exact ⟨q, out, hReady.trans hFlushes,
          .bound hOn hKind hState hRecv (attempt_eq_ok_ok.mp hBind) hFlush⟩
      · cases h
        refine ⟨_, _, hActs.log, .unbound hOn hKind hState hRecv fun pt' id hPt hId => ?_⟩
        cases hPt
        cases hId.symm.trans (attempt_eq_ok_error.mp hBind)
    · rename_i hPrefix
      cases h
      refine ⟨_, _, hActs.log, .unbound hOn hKind hState hRecv fun pt' id hPt hId => ?_⟩
      cases hPt
      rw [parseBind, if_pos (.inr hPrefix)] at hId
      cases hId
  | error e =>
    cases h
    exact ⟨_, _, hActs.log, .unbound hOn hKind hState hRecv nofun⟩

theorem onGmData_does (hKind : kind = gmData) :
    Does (a.onGmData env X body) a X (GmFrame a.setup env X kind body p.core) := by
  simp only [onGmData, getPeer_eq_ok.mpr hPeer, ok_bind]
  split
  · rename_i hState
    exact onGmDataUnbound_does hOn hPeer hKind hState
  · rename_i session hState
    intro b h
    obtain ⟨⟨received, session'⟩, hRecv, h⟩ := bind_eq_ok.mp h
    obtain ⟨d, hSet, h⟩ := bind_eq_ok.mp h
    obtain ⟨hActs, -⟩ := setGm_acts (acts_self hPeer) hPeer hSet
    cases received with
    | ok pt =>
      obtain ⟨q, out, hHanded, hHands⟩ := onPlainInner_does env d X pt b h
      rw [hActs.setup, hActs.core] at hHands
      exact ⟨q, out, hActs.trans hHanded, .data hOn hKind hState hRecv hHands⟩
    | error e =>
      cases h
      exact ⟨_, _, hActs.log, .undecryptable hOn hKind hState hRecv⟩
  · rename_i hUnbound hReady
    refine does_ok (acts_self hPeer) (.ignore (.data hKind (fun hPhase => ?_) fun hPhase => ?_))
    · obtain ⟨session, pk, hState⟩ := PeerCore.phase_eq_unbound.mp hPhase
      exact hUnbound session pk hState
    · obtain ⟨session, hState⟩ := PeerCore.phase_eq_ready.mp hPhase
      exact hReady session hState

omit hOn in
theorem onGmFrame_does :
    Does (a.onGmFrame env X kind body) a X (GmFrame a.setup env X kind body p.core) := by
  unfold onGmFrame
  split
  · rename_i hDisabled
    refine does_ok (acts_self hPeer) (.ignore (.off fun hOn => ?_))
    have hId : a.gmId.isSome = true := hOn.2
    exact hDisabled.elim (· hOn.1) fun hNone => by simp_all
  · rename_i hEnabled
    have hOn : a.setup.GmOn := by
      obtain ⟨hGmpq, hId⟩ := not_or.mp hEnabled
      exact ⟨not_not.mp hGmpq, isSome_iff_ne_none.mpr
        fun hNone => hId (isNone_iff_eq_none.mpr hNone)⟩
    split_ifs with hKick hMsg1 hCookie hRetry hMsg2 hMsg3 hData
    · exact onGmKick_does hOn hPeer hKick
    · exact onGmMsg1_does hOn hPeer hMsg1
    · exact onGmCookie_does hOn hPeer hCookie
    · exact onGmMsg1Retry_does hOn hPeer hRetry
    · exact onGmMsg2_does hOn hPeer hMsg2
    · exact onGmMsg3_does hOn hPeer hMsg3
    · exact onGmData_does hOn hPeer hData
    · refine does_ok (acts_self hPeer) (.ignore (.unknown ?_))
      simp [controlKinds, *]

end

end GmFrames

/-! ## Relay data -/

section

variable (hPeer : a.peers.lookup X = some p)

include hPeer

theorem sessionReady_does :
    Does (a.sessionReady env X) a X
      (Flushes a.setup env X p.pending { p.core with pending := [] }) := by
  intro b h
  have hEmit : Acts a (a.emit (.sessionReady X "x25519+ed25519")) X p.core [] :=
    (acts_self hPeer).silent fun _ => rfl
  obtain ⟨q, out, hActs, hFlush⟩ :=
    flushPending_does (a := a.emit (.sessionReady X "x25519+ed25519")) hPeer b h
  exact ⟨q, out, hEmit.trans hActs, hFlush⟩

theorem onHsInit_does (hKind : payload[1]? = some hsKindInit) :
    Does (a.onHsInit env X payload) a X (HsFrame a.setup env X payload p.core) := by
  simp only [onHsInit, getPeer_eq_ok.mpr hPeer, ok_bind]
  split
  · rename_i hSome
    exact does_ok (acts_self hPeer) (.ignoreInit hKind (.inl hSome))
  · rename_i hSession
    split
    · rename_i hBoth
      exact does_ok (acts_self hPeer) (.ignoreInit hKind (.inr hBoth))
    · rename_i hTurn
      intro b h
      obtain ⟨accepted, hAccept, h⟩ := bind_eq_ok.mp h
      split at h
      · rename_i cipher resp
        have hAnswer : Acts a ((a.setPeer X
            { p with session := some cipher, hs := none }).sendData X resp) X
            { p.core with session := some cipher, hs := none } [.send X resp] :=
          ((acts_self hPeer).setPeer { p with session := some cipher, hs := none }).sendData
        have hPeer₂ : ((a.setPeer X
            { p with session := some cipher, hs := none }).sendData X resp).peers.lookup X =
            some { p with session := some cipher, hs := none } := lookup_setPeer_self
        obtain ⟨q, out, hActs, hFlush⟩ := sessionReady_does hPeer₂ b h
        exact ⟨q, _, hAnswer.trans hActs, .accept hKind
          (not_isSome_iff_eq_none.mp hSession) hTurn (attempt_eq_ok_ok.mp hAccept) hFlush⟩
      · rename_i e
        cases h
        exact ⟨_, _, (acts_self hPeer).log, .rejectInit (e := e) hKind
          (attempt_eq_ok_error.mp hAccept) (not_isSome_iff_eq_none.mp hSession) hTurn⟩

theorem onHsResp_does (hKind : payload[1]? = some hsKindResp) :
    Does (a.onHsResp env X payload) a X (HsFrame a.setup env X payload p.core) := by
  simp only [onHsResp, getPeer_eq_ok.mpr hPeer, ok_bind]
  split
  · rename_i hSome
    exact does_ok (acts_self hPeer) (.ignoreResp hKind (.inl hSome))
  · rename_i hSession
    have hSession : p.session = none := not_isSome_iff_eq_none.mp hSession
    split
    · rename_i hHs
      exact does_ok (acts_self hPeer) (.ignoreResp hKind (.inr hHs))
    · rename_i hs hHs
      intro b h
      obtain ⟨finished, hFinish, h⟩ := bind_eq_ok.mp h
      have hTake := (acts_self hPeer).setPeer { p with hs := none }
      split at h
      · rename_i cipher
        have hSet := hTake.setPeer { p with hs := none, session := some cipher }
        obtain ⟨q, out, hActs, hFlush⟩ :=
          sessionReady_does (p := { p with hs := none, session := some cipher })
            lookup_setPeer_self b h
        exact ⟨q, out, hSet.trans hActs,
          .finish hKind hSession hHs (attempt_eq_ok_ok.mp hFinish) hFlush⟩
      · rename_i e
        cases h
        exact ⟨_, _, hTake.log,
          .rejectResp (e := e) hKind hSession hHs (attempt_eq_ok_error.mp hFinish)⟩

theorem onHandshake_does :
    Does (a.onHandshake env X payload) a X (HsFrame a.setup env X payload p.core) := by
  unfold onHandshake
  split
  · rename_i hKind
    exact onHsInit_does hPeer hKind
  · rename_i hInit
    split
    · rename_i hKind
      exact onHsResp_does hPeer hKind
    · rename_i hResp
      exact does_ok (acts_self hPeer).log (.unknown hInit hResp)

theorem onCiphertext_does :
    Does (a.onCiphertext env X payload) a X (CipherFrame a.setup env X payload p.core) := by
  simp only [onCiphertext, getPeer_eq_ok.mpr hPeer, ok_bind]
  split
  · rename_i hSession
    exact does_ok (acts_self hPeer).log (.noSession hSession)
  · rename_i s hSession
    intro b h
    obtain ⟨opened, hOpened, h⟩ := bind_eq_ok.mp h
    split at h
    · rename_i inner s'
      have hSet := (acts_self hPeer).setPeer { p with session := some s' }
      obtain ⟨q, out, hActs, hHands⟩ := onPlainInner_does env _ X inner b h
      rw [hSet.setup, hSet.core] at hHands
      exact ⟨q, out, hSet.trans hActs, .opens hSession (attempt_eq_ok_ok.mp hOpened) hHands⟩
    · cases h
      exact ⟨_, _, (acts_self hPeer).log,
        .undecryptable hSession (attempt_eq_ok_error.mp hOpened)⟩

end

theorem onRelayData_does (env : Env A) (a : Actor A) (X : NodeId) (payload : Bytes) :
    Does (a.onRelayData env X payload) a X (Receives a.setup env X payload (a.core X)) := by
  intro b h
  simp only [onRelayData] at h
  obtain ⟨a₁, hEnsure, h⟩ := bind_eq_ok.mp h
  obtain ⟨hKnown, p, hPeer⟩ := ensurePeer_acts hEnsure
  have hCore : a.core X = p.core := hKnown.core.symm.trans (core_of_lookup hPeer)
  rw [hCore, ← hKnown.setup]
  split at h
  · rename_i hGm
    obtain ⟨body, hBody, h⟩ := bind_eq_ok.mp h
    have hPayload : payload = [gmTag, payload.getD 1 0] ++ body := by
      obtain ⟨hLen, hDrop⟩ := sliceFrom_eq_ok.mp hBody
      obtain ⟨rest, rfl⟩ := head?_eq_some_iff.mp hGm.2
      cases rest with
      | nil => simp at hLen
      | cons =>
        rw [← hDrop]
        rfl
    obtain ⟨q, out, hActs, hFrame⟩ := onGmFrame_does hPeer b h
    exact ⟨q, out, hKnown.trans hActs, .gm hGm.1 hPayload hFrame⟩
  · rename_i hGm
    split at h
    · rename_i hTag
      obtain ⟨q, out, hActs, hFrame⟩ := onHandshake_does hPeer b h
      exact ⟨q, out, hKnown.trans hActs, .hs hTag hFrame⟩
    · rename_i hTag
      obtain ⟨q, out, hActs, hFrame⟩ := onCiphertext_does hPeer b h
      exact ⟨q, out, hKnown.trans hActs, .cipher hGm hTag hFrame⟩

theorem onGmCheck_does (env : Env A) (a : Actor A) (X : NodeId) (gen : UInt64) :
    Does (a.onGmCheck env X gen) a X (Checks a.setup env X gen (a.core X)) := by
  unfold onGmCheck
  split
  · rename_i hNone
    refine does_ok (Acts.refl a X) (.stale (.inr (.inr ?_)))
    rw [core, hNone]
    rfl
  · rename_i p hPeer
    rw [core_of_lookup hPeer]
    split
    · rename_i hGen
      exact does_ok (acts_self hPeer) (.stale (.inl hGen))
    · rename_i hGen
      have hGen : p.gmGen = gen := not_not.mp hGen
      split
      · rename_i hIdle
        refine does_ok (acts_self hPeer) (.stale (.inr ?_))
        exact hIdle.imp id isNone_iff_eq_none.mp
      · rename_i hBusy
        obtain ⟨hReady, hSome⟩ := not_or.mp hBusy
        have hReady : GmState.isReady p.gm = false := Bool.eq_false_of_not_eq_true hReady
        have hSome : p.gm ≠ none := fun hNone => hSome (isNone_iff_eq_none.mpr hNone)
        -- the actor that has given up, with its log line
        set a₁ := (a.setPeer X { p with gm := none, gmFailed := true }).log
          ("GM-PQ handshake timed out, falling back to X25519+ed25519 (peer=" ++
            NodeId.short A X ++ ")") with ha₁
        have hFall : Acts a a₁ X { p.core with gm := none, gmFailed := true } [] :=
          ((acts_self hPeer).setPeer { p with gm := none, gmFailed := true }).log
        have hPeer₁ : a₁.peers.lookup X = some { p with gm := none, gmFailed := true } :=
          lookup_setPeer_self
        have hIff : (¬ p.pending.isEmpty = true ∧ p.hs.isNone = true ∧ p.session.isNone = true) ↔
            (p.pending ≠ [] ∧ p.hs = none ∧ p.session = none) := by
          simp [List.isEmpty_iff]
        split
        · rename_i hNeed
          have hNeed := hIff.mp hNeed
          intro b h
          obtain ⟨q, out, hActs, rfl, rfl⟩ := hsBegin_does hPeer₁ hNeed.2.1 b h
          exact ⟨_, _, hFall.trans hActs, .restarts hGen hReady hSome hNeed⟩
        · rename_i hNoNeed
          exact does_ok hFall (.falls hGen hReady hSome fun hNeed => hNoNeed (hIff.mpr hNeed))

/-- Neither the core of a peer has changed nor was anything done for one. -/
structure Idle (a b : Actor A) : Prop where
  setup : b.setup = a.setup
  core : ∀ X, b.core X = a.core X
  effects : ∀ X, b.effectsFor X = a.effectsFor X

theorem Idle.refl (a : Actor A) : Idle a a := ⟨rfl, fun _ => rfl, fun _ => rfl⟩

theorem Idle.trans (h : Idle a b) (h' : Idle b d) : Idle a d :=
  ⟨h'.setup.trans h.setup, fun X => (h'.core X).trans (h.core X),
    fun X => (h'.effects X).trans (h.effects X)⟩

theorem Acts.idle (h : Acts a b X (a.core X) []) : Idle a b := by
  refine ⟨h.setup, fun Y => ?_, fun Y => ?_⟩
  · by_cases hY : Y = X
    · subst hY
      exact h.core
    · exact h.others Y hY
  · by_cases hY : Y = X
    · subst hY
      rw [h.effects, append_nil]
    · exact h.quiet Y hY

theorem Idle.acts (h : Idle a b) (X : NodeId) : Acts a b X (a.core X) [] :=
  ⟨h.setup, h.core X, fun Y _ => h.core Y, by rw [h.effects, append_nil], fun Y _ => h.effects Y⟩

theorem Idle.setPeer (hPeer : a.peers.lookup X = some p) (hCore : p'.core = p.core) :
    Idle a (a.setPeer X p') := by
  have hActs := (acts_self hPeer).setPeer p'
  rw [hCore, ← core_of_lookup hPeer] at hActs
  exact hActs.idle

theorem Idle.silent (h : Idle a b) (he : ∀ Y, e.isFor Y = false) : Idle a (b.addEffect e) := by
  -- any peer will do, as nothing is about one
  have hActs := (h.acts a.nodeId).silent he
  exact hActs.idle

end Actor

/-! ## Events of a node -/

/-- The event is none of the business of the machine for `X`. `direct`: messages of the application
take a direct connection, which they do unless writing to it fails. -/
def HostEvent.Passes (c : NodeSetup A) (X : NodeId) (direct : Bool) (q : PeerCore A) :
    HostEvent A → Prop
  | .sendTo _ written peer _ => peer = X → direct = true ∧ written = .ok ()
  | .relayData _ peer _ | .gmCheck _ peer _ => peer ≠ X
  | .probeTick _ _ _ _ => ¬ (q.session.isSome = true ∨ c.UsesGm q)
  | .newConn _ _ _ | .connClosed _ _ _ => True

/-- What an event of the node is for a peer. -/
inductive PeerStep (c : NodeSetup A) (X : NodeId) (direct : Bool) :
    HostEvent A → PeerCore A → PeerCore A → List Effect → Prop where
  | idle {e q} (hPasses : e.Passes c X direct q) : PeerStep c X direct e q q []
  | send {env written payload q q' out} (hSends : Sends c env X ([innerData] ++ payload) q q' out)
      (hRelay : ¬ (direct = true ∧ written = .ok ())) :
      PeerStep c X direct (.sendTo env written X payload) q q' out
  | ping {env stats peerOrder pingOrder n q q' out} (hHas : q.session.isSome = true ∨ c.UsesGm q)
      (hSends : Sends c env X ([innerPing] ++ beBytes 8 n) q q' out) :
      PeerStep c X direct (.probeTick env stats peerOrder pingOrder) q q' out
  | receive {env payload q q' out} (hReceives : Receives c env X payload q q' out) :
      PeerStep c X direct (.relayData env X payload) q q' out
  | check {env gen q q' out} (hChecks : Checks c env X gen q q' out) :
      PeerStep c X direct (.gmCheck env X gen) q q' out

namespace Host

variable {env : Env A} {h h' : Host A} {X : NodeId}

def setup (h : Host A) : NodeSetup A := h.actor.setup

def core (h : Host A) (X : NodeId) : PeerCore A := h.actor.core X

def effectsFor (h : Host A) (X : NodeId) : List Effect := h.actor.effectsFor X

/-- The path to the peer is a direct connection, and the node holds one. -/
def takesDirect (h : Host A) (X : NodeId) : Bool :=
  (h.actor.peers.lookup X).any (fun p => p.paths.active = .direct) && (h.direct.lookup X).isSome

theorem onActor_eq_ok {r} : h.onActor r = ok h' ↔ ∃ a, r = ok a ∧ h' = { h with actor := a } := by
  rw [onActor, bind_eq_ok]
  constructor
  · rintro ⟨a, hr, hRet⟩
    cases hRet
    exact ⟨a, hr, rfl⟩
  · rintro ⟨a, hr, rfl⟩
    exact ⟨a, hr, rfl⟩

variable {peer : NodeId} {events : List NodeEvent} {stats : Conn → ConnStats}
  {order : HashOrder UInt64} {e : HostEvent A}

theorem ensurePeer_idle (hEnsure : h.onActor (h.actor.ensurePeer env peer) = ok h') :
    Actor.Idle h.actor h'.actor := by
  obtain ⟨a, hActor, rfl⟩ := onActor_eq_ok.mp hEnsure
  exact (Actor.ensurePeer_acts hActor).1.idle

theorem directDown_idle (hDown : h.directDown env peer = ok h') : Actor.Idle h.actor h'.actor := by
  obtain ⟨p, hPeer, hRet⟩ := bind_eq_ok.mp hDown
  cases hRet
  have hSet : Actor.Idle h.actor
      (h.actor.setPeer peer { p with paths := (p.paths.onDirectDown env.now).2 }) :=
    .setPeer (Actor.getPeer_eq_ok.mp hPeer) rfl
  split
  · exact hSet.silent fun _ => rfl
  · exact hSet

theorem holdConn_idle {conn : Conn} {outgoing : Bool} {before : List DirectEffect}
    (hHold : h.holdConn peer conn outgoing before = ok h') : Actor.Idle h.actor h'.actor := by
  obtain ⟨p, hPeer, hRet⟩ := bind_eq_ok.mp hHold
  cases hRet
  exact .setPeer (Actor.getPeer_eq_ok.mp hPeer) rfl

theorem onNewConn_idle {conn outgoing} (hNew : h.onNewConn env conn outgoing = ok h') :
    Actor.Idle h.actor h'.actor := by
  unfold onNewConn at hNew
  split at hNew
  · cases hNew
    exact .refl _
  · obtain ⟨g, hEnsure, hNew⟩ := bind_eq_ok.mp hNew
    refine (ensurePeer_idle hEnsure).trans ?_
    split at hNew
    · dsimp only at hNew
      split at hNew
      · cases hNew
        exact .refl _
      · exact holdConn_idle hNew
    · exact holdConn_idle hNew

theorem onConnClosed_idle {sid} (hClosed : h.onConnClosed env peer sid = ok h') :
    Actor.Idle h.actor h'.actor := by
  unfold onConnClosed at hClosed
  split at hClosed
  · cases hClosed
    exact .refl _
  · split at hClosed
    · exact directDown_idle hClosed
    · cases hClosed
      exact .refl _

/-- A peer that was not known has no direct path. -/
theorem takesDirect_iff {g : Host A} {p} (hEnsure : h.onActor (h.actor.ensurePeer env peer) = ok g)
    (hPeer : g.actor.getPeer peer = ok p) : h.takesDirect peer = true ↔
      p.paths.active = .direct ∧ (g.direct.lookup peer).isSome = true := by
  obtain ⟨a, hActor, rfl⟩ := onActor_eq_ok.mp hEnsure
  have hPeer := Actor.getPeer_eq_ok.mp hPeer
  unfold Actor.ensurePeer at hActor
  split at hActor
  · cases hActor
    simp [takesDirect, hPeer]
  · rename_i hNone
    obtain ⟨new, hNew, hRet⟩ := bind_eq_ok.mp hActor
    cases hRet
    rw [Actor.lookup_setPeer_self] at hPeer
    cases hPeer
    obtain ⟨paths, hPaths, hNew⟩ := bind_eq_ok.mp hNew
    obtain ⟨lastSwitch, -, hPaths⟩ := bind_eq_ok.mp hPaths
    cases hPaths
    cases hNew
    simp [takesDirect, hNone]

theorem onSendTo_acts {written payload} (hSend : h.onSendTo env written peer payload = ok h') :
    (h.takesDirect peer = true ∧ written = .ok ()) ∧ Actor.Idle h.actor h'.actor ∨
      ¬ (h.takesDirect peer = true ∧ written = .ok ()) ∧
        ∃ q out, Actor.Acts h.actor h'.actor peer q out ∧
          Sends h.setup env peer ([innerData] ++ payload) (h.core peer) q out := by
  simp only [onSendTo] at hSend
  obtain ⟨g, hEnsure, hSend⟩ := bind_eq_ok.mp hSend
  obtain ⟨p, hPeer, hSend⟩ := bind_eq_ok.mp hSend
  have hKnown := ensurePeer_idle hEnsure
  rw [takesDirect_iff hEnsure hPeer]
  -- whatever happened to the direct path first, the relay is the machine's
  have hRelayed : ∀ {k : Host A}, Actor.Idle h.actor k.actor →
      k.onActor (k.actor.relaySendInner env peer ([innerData] ++ payload)) = ok h' →
      ∃ q out, Actor.Acts h.actor h'.actor peer q out ∧
        Sends h.setup env peer ([innerData] ++ payload) (h.core peer) q out := by
    intro k hIdle hRelay
    obtain ⟨a, hActor, rfl⟩ := onActor_eq_ok.mp hRelay
    obtain ⟨q, out, hActs, hSends⟩ := Actor.relaySendInner_does env _ peer _ a hActor
    rw [hIdle.setup, hIdle.core] at hSends
    exact ⟨q, out, (hIdle.acts peer).trans hActs, hSends⟩
  split at hSend
  · rename_i hDirect
    split at hSend
    · cases hSend
      exact .inl ⟨⟨hDirect, rfl⟩, hKnown⟩
    · obtain ⟨k, hDown, hSend⟩ := bind_eq_ok.mp hSend
      have hLog : Actor.Idle h.actor k.actor :=
        (hKnown.silent fun _ => rfl).trans (directDown_idle hDown)
      exact .inr ⟨fun hBoth => (by cases hBoth.2), hRelayed hLog hSend⟩
  · rename_i hRelay
    exact .inr ⟨fun hBoth => hRelay hBoth.1, hRelayed hKnown hSend⟩

/-! ## Probing -/

theorem core_foldl_expirePing (p : Peer A) (ids : List UInt64) :
    (ids.foldl expirePing p).core = p.core := by
  induction ids generalizing p with
  | nil => rfl
  | cons id ids ih =>
    rw [foldl_cons, ih]
    rfl

theorem probeDirect_idle (hProbe : h.probeDirect env stats X = ok (h', events)) :
    Actor.Idle h.actor h'.actor ∧ ∀ ev ∈ events, ∀ Y, Effect.isFor Y (.emit ev) = false := by
  unfold probeDirect at hProbe
  split at hProbe
  · cases hProbe
    exact ⟨.refl _, by simp⟩
  · obtain ⟨p, hPeer, hRet⟩ := bind_eq_ok.mp hProbe
    cases hRet
    refine ⟨.setPeer (Actor.getPeer_eq_ok.mp hPeer) rfl, ?_⟩
    intro ev hEv Y
    rcases mem_append.mp hEv with hEv | hEv
    · rw [mem_singleton.mp hEv]
      rfl
    · split at hEv
      · rw [mem_singleton.mp hEv]
        rfl
      · cases hEv

theorem expirePings_idle (hExpire : h.expirePings env order X = ok h') :
    Actor.Idle h.actor h'.actor := by
  obtain ⟨p, hPeer, hExpire⟩ := bind_eq_ok.mp hExpire
  obtain ⟨limit, -, hExpire⟩ := bind_eq_ok.mp hExpire
  dsimp only at hExpire
  split at hExpire
  · cases hExpire
    exact .refl _
  · cases hExpire
    exact .setPeer (Actor.getPeer_eq_ok.mp hPeer) (core_foldl_expirePing _ _)

/-- A probe has the machine of a peer send a ping over the session it has, and does nothing to it
if it has none. -/
def Probes (c : NodeSetup A) (env : Env A) (X : NodeId) (q q' : PeerCore A) (out : List Effect) :
    Prop :=
  (q.session.isSome = true ∨ c.UsesGm q) ∧
      (∃ n, Sends c env X ([innerPing] ++ beBytes 8 n) q q' out) ∨
    ¬ (q.session.isSome = true ∨ c.UsesGm q) ∧ q' = q ∧ out = []

theorem sendPing_acts (hPing : h.sendPing env X = ok h') :
    ∃ q out, Actor.Acts h.actor h'.actor X q out ∧ Probes h.setup env X (h.core X) q out := by
  obtain ⟨p, hPeer, hPing⟩ := bind_eq_ok.mp hPing
  have hCore : h.core X = p.core := Actor.core_of_getPeer hPeer
  split at hPing
  · rename_i hHas
    obtain ⟨n, -, hPing⟩ := bind_eq_ok.mp hPing
    obtain ⟨a, hActor, rfl⟩ := onActor_eq_ok.mp hPing
    have hSet : Actor.Idle h.actor
        (h.actor.setPeer X { p with pings := p.pings.insert n env.now }) :=
      .setPeer (Actor.getPeer_eq_ok.mp hPeer) rfl
    obtain ⟨q, out, hActs, hSends⟩ := Actor.relaySendInner_does env _ X _ a hActor
    rw [hSet.setup, hSet.core] at hSends
    refine ⟨q, out, (hSet.acts X).trans hActs, .inl ⟨?_, n.toNat, hSends⟩⟩
    rw [hCore]
    exact hHas.imp id Actor.gmReady_isSome_iff.mp
  · rename_i hNone
    cases hPing
    refine ⟨_, _, Actor.Acts.refl _ X, .inr ⟨?_, rfl, rfl⟩⟩
    rw [hCore]
    exact fun hHas => hNone (hHas.imp id Actor.gmReady_isSome_iff.mpr)

theorem probePeer_acts (hProbe : h.probePeer env stats order X = ok (h', events)) :
    (∃ q out, Actor.Acts h.actor h'.actor X q out ∧ Probes h.setup env X (h.core X) q out) ∧
      ∀ ev ∈ events, ∀ Y, Effect.isFor Y (.emit ev) = false := by
  obtain ⟨⟨h₁, evs⟩, hDirect, hProbe⟩ := bind_eq_ok.mp hProbe
  obtain ⟨h₂, hExpire, hProbe⟩ := bind_eq_ok.mp hProbe
  obtain ⟨h₃, hPing, hRet⟩ := bind_eq_ok.mp hProbe
  cases hRet
  obtain ⟨hIdle₁, hEvents⟩ := probeDirect_idle hDirect
  have hIdle := hIdle₁.trans (expirePings_idle hExpire)
  obtain ⟨q, out, hActs, hProbes⟩ := sendPing_acts hPing
  have hSetup : h₂.setup = h.setup := hIdle.setup
  have hCore : h₂.core X = h.core X := hIdle.core X
  rw [hSetup, hCore] at hProbes
  exact ⟨⟨q, out, (hIdle.acts X).trans hActs, hProbes⟩, hEvents⟩

theorem forEach_probes {ks} (hNodup : ks.Nodup)
    (hLoop : forEach (probePeer env stats order) h ks = ok (h', events)) :
    h'.setup = h.setup ∧ (∀ ev ∈ events, ∀ Y, Effect.isFor Y (.emit ev) = false) ∧
      ∀ X, ∃ out, h'.effectsFor X = h.effectsFor X ++ out ∧
        if X ∈ ks then Probes h.setup env X (h.core X) (h'.core X) out
        else h'.core X = h.core X ∧ out = [] := by
  induction ks generalizing h events with
  | nil =>
    cases hLoop
    exact ⟨rfl, by simp, fun X => ⟨[], (append_nil _).symm, rfl, rfl⟩⟩
  | cons k ks ih =>
    obtain ⟨hk, hNodup⟩ := nodup_cons.mp hNodup
    rw [forEach, bind_eq_ok] at hLoop
    obtain ⟨⟨h₁, evs₁⟩, hFirst, hLoop⟩ := hLoop
    obtain ⟨⟨h₂, evs₂⟩, hRest, hRet⟩ := bind_eq_ok.mp hLoop
    cases hRet
    obtain ⟨⟨q, out₁, hActs, hProbes⟩, hEvents₁⟩ := probePeer_acts hFirst
    obtain ⟨hSetup, hEvents₂, hEach⟩ := ih hNodup hRest
    have hSetup₁ : h₁.setup = h.setup := hActs.setup
    refine ⟨hSetup.trans hSetup₁, forall_mem_append.mpr ⟨hEvents₁, hEvents₂⟩, fun X => ?_⟩
    obtain ⟨out₂, hEffects₂, hProbes₂⟩ := hEach X
    by_cases hX : X = k
    · -- this one is not probed again
      subst hX
      rw [if_neg hk] at hProbes₂
      obtain ⟨hSame, rfl⟩ := hProbes₂
      have hCore : h'.core X = q := hSame.trans hActs.core
      rw [append_nil] at hEffects₂
      refine ⟨out₁, hEffects₂.trans hActs.effects, ?_⟩
      rw [if_pos mem_cons_self, hCore]
      exact hProbes
    · have hCore₁ : h₁.core X = h.core X := hActs.others X hX
      have hEffects₁ : h₁.effectsFor X = h.effectsFor X := hActs.quiet X hX
      rw [hSetup₁, hCore₁] at hProbes₂
      refine ⟨out₂, by rw [hEffects₂, hEffects₁], ?_⟩
      rw [if_congr (mem_cons.trans (or_iff_right hX)) rfl rfl]
      exact hProbes₂

theorem emitAll_idle (hSilent : ∀ ev ∈ events, ∀ Y, Effect.isFor Y (.emit ev) = false) :
    Actor.Idle h.actor (h.emitAll events).actor := by
  have hFold : ∀ (evs : List NodeEvent) (a : Actor A),
      (∀ ev ∈ evs, ∀ Y, Effect.isFor Y (.emit ev) = false) →
      Actor.Idle a (evs.foldl Actor.emit a) := by
    intro evs
    induction evs with
    | nil =>
      intro a _
      exact .refl a
    | cons ev evs ih =>
      intro a hEvs
      refine ((Actor.Idle.refl a).silent (hEvs ev mem_cons_self)).trans ?_
      exact ih _ fun ev' hEv' => hEvs ev' (mem_cons_of_mem _ hEv')
  exact hFold events h.actor hSilent

theorem onProbeTick_probes {peerOrder pingOrder}
    (hTick : h.onProbeTick env stats peerOrder pingOrder = ok h') :
    h'.setup = h.setup ∧ ∀ X, ∃ out, Probes h.setup env X (h.core X) (h'.core X) out ∧
      h'.effectsFor X = h.effectsFor X ++ out := by
  obtain ⟨⟨h₁, events⟩, hLoop, hRet⟩ := bind_eq_ok.mp hTick
  cases hRet
  have hNodup : (h.actor.peers.iterKeys peerOrder).Nodup :=
    (peerOrder.perm _).nodup_iff.mpr (AList.keys_nodup _)
  obtain ⟨hSetup, hSilent, hEach⟩ := forEach_probes hNodup hLoop
  have hIdle : Actor.Idle h₁.actor (h₁.emitAll events).actor := emitAll_idle hSilent
  refine ⟨hIdle.setup.trans hSetup, fun X => ?_⟩
  obtain ⟨out, hEffects, hProbes⟩ := hEach X
  have hCore : (h₁.emitAll events).core X = h₁.core X := hIdle.core X
  have hSame : (h₁.emitAll events).effectsFor X = h₁.effectsFor X := hIdle.effects X
  rw [hCore, hSame]
  refine ⟨out, ?_, hEffects⟩
  split at hProbes
  · exact hProbes
  · -- a peer that is not known has no session
    rename_i hUnknown
    have hNone : h.actor.peers.lookup X = none :=
      AList.lookup_eq_none.mpr fun hMem => hUnknown ((peerOrder.perm _).mem_iff.mpr hMem)
    have hFresh : h.core X = .fresh := by
      show h.actor.core X = _
      rw [Actor.core, hNone]
    rw [hFresh] at hProbes ⊢
    exact .inr ⟨by simp [PeerCore.fresh, NodeSetup.UsesGm, GmState.isReady], hProbes⟩

/-! ## The refinement -/

/-- What it is for the node `a` to come from `h` by the event. -/
def Refines (h : Host A) (e : HostEvent A) (a : Actor A) : Prop :=
  a.setup = h.setup ∧ ∀ X, ∃ out,
    PeerStep h.setup X (h.takesDirect X) e (h.core X) (a.core X) out ∧
      a.effectsFor X = h.effectsFor X ++ out

theorem refines_of_acts {a q out} (hActs : Actor.Acts h.actor a peer q out)
    (hStep : PeerStep h.setup peer (h.takesDirect peer) e (h.core peer) q out)
    (hOthers : ∀ Y, Y ≠ peer → e.Passes h.setup Y (h.takesDirect Y) (h.core Y)) :
    h.Refines e a := by
  refine ⟨hActs.setup, fun X => ?_⟩
  by_cases hX : X = peer
  · subst hX
    rw [hActs.core]
    exact ⟨out, hStep, hActs.effects⟩
  · rw [hActs.others X hX]
    refine ⟨[], .idle (hOthers X hX), ?_⟩
    rw [append_nil]
    exact hActs.quiet X hX

theorem refines_of_idle {a} (hIdle : Actor.Idle h.actor a)
    (hPasses : ∀ X, e.Passes h.setup X (h.takesDirect X) (h.core X)) : h.Refines e a := by
  refine ⟨hIdle.setup, fun X => ⟨[], ?_, ?_⟩⟩
  · rw [hIdle.core]
    exact .idle (hPasses X)
  · rw [append_nil]
    exact hIdle.effects X

/-- **Refinement.** With just the effects that concern the peer. -/
theorem handle_refines (hHandle : h.handle e = ok h') : h.Refines e h'.actor := by
  cases e with
  | sendTo env written peer payload =>
    rcases onSendTo_acts hHandle with ⟨hDirect, hIdle⟩ | ⟨hRelay, q, out, hActs, hSends⟩
    · exact refines_of_idle hIdle fun X hX => hX ▸ hDirect
    · exact refines_of_acts hActs (.send hSends hRelay) fun Y hY hSame => absurd hSame.symm hY
  | relayData env source payload =>
    obtain ⟨a, hActor, rfl⟩ := onActor_eq_ok.mp hHandle
    obtain ⟨q, out, hActs, hReceives⟩ := Actor.onRelayData_does env _ source payload a hActor
    exact refines_of_acts hActs (.receive hReceives) fun Y hY => hY.symm
  | gmCheck env peer gen =>
    obtain ⟨a, hActor, rfl⟩ := onActor_eq_ok.mp hHandle
    obtain ⟨q, out, hActs, hChecks⟩ := Actor.onGmCheck_does env _ peer gen a hActor
    exact refines_of_acts hActs (.check hChecks) fun Y hY => hY.symm
  | probeTick =>
    obtain ⟨hSetup, hEach⟩ := onProbeTick_probes hHandle
    refine ⟨hSetup, fun X => ?_⟩
    obtain ⟨out, hProbes, hEffects⟩ := hEach X
    refine ⟨out, ?_, hEffects⟩
    rcases hProbes with ⟨hHas, n, hSends⟩ | ⟨hNone, hSame, rfl⟩
    · exact .ping hHas hSends
    · have hSame : h'.actor.core X = h.core X := hSame
      rw [hSame]
      exact .idle hNone
  | newConn => exact refines_of_idle (onNewConn_idle hHandle) fun _ => trivial
  | connClosed => exact refines_of_idle (onConnClosed_idle hHandle) fun _ => trivial

/-- What the machine of the peer is given of a run of the node. -/
def seen (X : NodeId) : Host A → List (HostEvent A) → List (Bool × HostEvent A)
  | _, [] => []
  | h, e :: es => (h.takesDirect X, e) :: match h.handle e with
    | .ok h' => seen X h' es
    | .err _ | .panic _ => []

end Host

end DirectWire.Mesh
