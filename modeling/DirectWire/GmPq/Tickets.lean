import DirectWire.Lib.Map
import DirectWire.Lib.Platform
import DirectWire.GmPq.Crypto

/-!
# GM-PQ — resumption tickets

`handshake/psk.rs`: tickets the server encrypts for itself, and the cache that is to accept each
of them once. A ticket still opens in the second it expires, while the cache forgets it in that
second already.
-/

namespace DirectWire.GmPq

open Lib Outcome List

structure TicketPayload where
  psk : Fixed 32
  ticketId : Fixed 16
  expiresAt : UInt64
  clientPkFingerprint : Fixed 32
deriving DecidableEq

def ticketPlainLen : Nat := 1 + 32 + 16 + 8 + 32

def ticketLen : Nat := 12 + ticketPlainLen + 16

structure TicketIssuer where
  key : Fixed 16

/-- `version ‖ psk ‖ ticket_id ‖ expires_at ‖ fingerprint`. -/
def TicketPayload.plain (p : TicketPayload) : Bytes :=
  [1] ++ p.psk.val ++ p.ticketId.val ++ beBytes 8 p.expiresAt.toNat ++ p.clientPkFingerprint.val

namespace TicketIssuer

variable (P : Primitives)

/-- Issue a ticket. The PSK, the id and the nonce are what the system's
random source returned. -/
def issue {ε : Type} (checks : Bool) (issuer : TicketIssuer) (psk : Fixed 32)
    (ticketId : Fixed 16) (nonce : Fixed 12) (now : UInt64) (clientStaticPk : Bytes)
    (ttlSecs : UInt64) : Outcome ε (Bytes × Fixed 32) := do
  -- `now + ttl_secs` on `u64`: wraps without overflow checks
  let expiresAt ← addU checks now.toNat ttlSecs.toNat
  let payload : TicketPayload :=
    { psk, ticketId, expiresAt := UInt64.ofNat expiresAt
      clientPkFingerprint := sm3 P [clientStaticPk] }
  let r := P.gcmEncrypt issuer.key nonce (ascii "ticket") payload.plain
  ok (nonce.val ++ r.1 ++ r.2.val, psk)

/-- The first part of `open`: decrypt a ticket and check its format. -/
def decodeTicket (issuer : TicketIssuer) (ticket : Bytes) : Outcome Error TicketPayload := do
  if ticket.length ≠ ticketLen then
    err (.invalidEncoding "invalid ticket length")
  else
    let nonce ← sliceArray ticket 0 12
    let ct ← slice ticket 12 (ticket.length - 16)
    let tag ← sliceArray ticket (ticket.length - 16) 16
    let plain ← okOr (P.gcmDecrypt issuer.key nonce (ascii "ticket") ct tag) .authFailed
    if plain.length ≠ ticketPlainLen ∨ plain.head? ≠ some 1 then
      err (.invalidEncoding "invalid ticket version/length")
    else
      let expiresAt ← sliceArray plain 49 8
      let psk ← sliceArray plain 1 32
      let ticketId ← sliceArray plain 33 16
      let clientPkFingerprint ← sliceArray plain 57 32
      ok { psk, ticketId, expiresAt := UInt64.ofNat (beNat expiresAt.val), clientPkFingerprint }

/-- `open`: decrypt a ticket and check its format and freshness. -/
def openTicket (issuer : TicketIssuer) (now : UInt64) (ticket : Bytes) :
    Outcome Error TicketPayload := do
  let payload ← issuer.decodeTicket P ticket
  -- a ticket is still good in the second it expires in
  if now > payload.expiresAt then err (.handshakeState "ticket expired")
  else ok payload

variable {P}

variable {issuer : TicketIssuer} {p : TicketPayload}

theorem openTicket_eq_ok {now ticket} :
    issuer.openTicket P now ticket = ok p ↔
      issuer.decodeTicket P ticket = ok p ∧ now ≤ p.expiresAt := by
  rw [openTicket, bind_eq_ok]
  constructor
  · rintro ⟨q, hq, h⟩
    split at h
    · cases h
    · rename_i hFresh
      cases h
      exact ⟨hq, UInt64.not_lt.mp hFresh⟩
  · rintro ⟨hp, hFresh⟩
    exact ⟨p, hp, if_neg (UInt64.not_lt.mpr hFresh)⟩

theorem decodeTicket_of_decrypt {nonce ct tag} (hLen : ct.length = ticketPlainLen)
    (hDec : P.gcmDecrypt issuer.key nonce (ascii "ticket") ct tag = some p.plain) :
    issuer.decodeTicket P (nonce.val ++ ct ++ tag.val) = ok p := by
  -- cutting the ticket gives back the three parts
  have hTicket : (nonce.val ++ ct ++ tag.val).length = ticketLen := by
    simp [ticketLen, hLen]
    omega
  have hEnd : ticketLen - 16 = 12 + ct.length := by simp [ticketLen, hLen]
  have hNonce : sliceArray (nonce.val ++ ct ++ tag.val) 0 12 = (ok nonce : Outcome Error _) :=
    sliceArray_first nonce.property
  have hCt : slice (nonce.val ++ ct ++ tag.val) 12 (12 + ct.length) = (ok ct : Outcome Error _) :=
    slice_second nonce.property rfl
  have hTag : sliceArray (nonce.val ++ ct ++ tag.val) (12 + ct.length) 16 =
      (ok tag : Outcome Error _) :=
    sliceArray_third (by rw [nonce.property]) tag.property
  -- the four fields of the plaintext
  have hPsk : sliceArray p.plain 1 32 = (ok p.psk : Outcome Error _) := by
    simp only [TicketPayload.plain, append_assoc]
    exact sliceArray_append (rfl : ([1] : Bytes).length = 1) p.psk.property
  have hId : sliceArray p.plain 33 16 = (ok p.ticketId : Outcome Error _) := by
    rw [show p.plain = ([1] ++ p.psk.val) ++ (p.ticketId.val ++ (beBytes 8 p.expiresAt.toNat ++
      p.clientPkFingerprint.val)) by simp [TicketPayload.plain]]
    exact sliceArray_append (by simp) p.ticketId.property
  have hExp : sliceArray p.plain 49 8 =
      (ok ⟨beBytes 8 p.expiresAt.toNat, beBytes_length _ _⟩ : Outcome Error _) := by
    rw [show p.plain = ([1] ++ p.psk.val ++ p.ticketId.val) ++ (beBytes 8 p.expiresAt.toNat ++
      p.clientPkFingerprint.val) by simp [TicketPayload.plain]]
    exact sliceArray_append (by simp) (beBytes_length _ _)
  have hFp : sliceArray p.plain 57 32 = (ok p.clientPkFingerprint : Outcome Error _) := by
    rw [show p.plain = ([1] ++ p.psk.val ++ p.ticketId.val ++ beBytes 8 p.expiresAt.toNat) ++
      (p.clientPkFingerprint.val ++ []) by simp [TicketPayload.plain]]
    exact sliceArray_append (by simp) p.clientPkFingerprint.property
  have hFormat : ¬ (p.plain.length ≠ ticketPlainLen ∨ p.plain.head? ≠ some 1) := by
    simp [TicketPayload.plain, ticketPlainLen]
  rw [decodeTicket, if_neg (not_not.mpr hTicket), hTicket, hEnd]
  simp only [hNonce, hCt, hTag, ok_bind, hDec, okOr_some]
  rw [if_neg hFormat]
  simp only [hPsk, hId, hExp, hFp, ok_bind, beNat_beBytes (u64_lt_pow _), UInt64.ofNat_toNat]

end TicketIssuer

/-! ## The cache -/

structure TicketCache where
  seen : Map (Fixed 16) UInt64

namespace TicketCache

def new : TicketCache := ⟨∅⟩

def gc (c : TicketCache) (now : UInt64) : TicketCache := ⟨c.seen.retain fun _ exp => exp > now⟩

/-- Accept an id that is not remembered, and remember it. The cache is
purged first, also when the id is then rejected. -/
def checkAndInsert (c : TicketCache) (now : UInt64) (ticketId : Fixed 16) (expiresAt : UInt64) :
    Except Error Unit × TicketCache :=
  -- an id is forgotten in the second it expires in
  let c := c.gc now
  if (c.seen.lookup ticketId).isSome then (.error .replay, c)
  else (.ok (), ⟨c.seen.insert ticketId expiresAt⟩)

end TicketCache

/-! ## Sequences of attempts -/

/-- A resumption attempt, with the two readings of the clock it makes. -/
structure Attempt where
  ticket : Bytes
  tOpen : UInt64
  tCheck : UInt64

section Attempts

variable (P : Primitives) (issuer : TicketIssuer)

def attempt (c : TicketCache) (a : Attempt) : Option (Fixed 16) × TicketCache :=
  match issuer.openTicket P a.tOpen a.ticket with
  | .ok p =>
    match c.checkAndInsert a.tCheck p.ticketId p.expiresAt with
    | (.ok _, c) => (some p.ticketId, c)
    | (.error _, c) => (none, c)
  | .err _ => (none, c)
  | .panic _ => (none, c)

def accepted : TicketCache → List Attempt → List (Fixed 16)
  | _, [] => []
  | c, a :: as => (attempt P issuer c a).1.toList ++ accepted (attempt P issuer c a).2 as

/-- The clock does not go back, within an attempt and from one to the next. -/
def ClockMonotone (as : List Attempt) : Prop :=
  (as.flatMap fun a => [a.tOpen, a.tCheck]).Pairwise (· ≤ ·)

def Authentic (issued : List TicketPayload) (as : List Attempt) : Prop :=
  ∀ a ∈ as, ∀ p, issuer.decodeTicket P a.ticket = ok p → p ∈ issued

def DistinctIds (issued : List TicketPayload) : Prop :=
  ∀ p ∈ issued, ∀ q ∈ issued, p.ticketId = q.ticketId → p = q

def Presents (a : Attempt) (p : TicketPayload) : Prop :=
  issuer.decodeTicket P a.ticket = ok p ∧ a.tOpen ≤ p.expiresAt

/-- If both attempts present one ticket, the cache is read before its expiry
second in the later one. -/
def ReadInTime (a b : Attempt) : Prop :=
  ∀ p q, Presents P issuer a p → Presents P issuer b q → p.ticketId = q.ticketId →
    b.tCheck < q.expiresAt

end Attempts

variable {P : Primitives} {issuer : TicketIssuer} {issued : List TicketPayload}
  {c : TicketCache} {a : Attempt} {as : List Attempt} {acc : List (Fixed 16)} {now : UInt64}

/-- The cache against the ids accepted so far: it remembers only accepted
ids, with their expiry, and what it has forgotten has expired. -/
structure Remembers (issued : List TicketPayload) (now : UInt64) (acc : List (Fixed 16))
    (c : TicketCache) : Prop where
  seen : ∀ id exp, c.seen.lookup id = some exp → id ∈ acc ∧
    ∀ p ∈ issued, p.ticketId = id → p.expiresAt = exp
  forgotten : ∀ id ∈ acc, c.seen.lookup id = none →
    ∀ p ∈ issued, p.ticketId = id → p.expiresAt ≤ now

theorem Remembers.gc {now'} (h : Remembers issued now acc c) (hNow : now ≤ now') :
    Remembers issued now' acc (c.gc now') := by
  have hLookup (id : Fixed 16) : (c.gc now').seen.lookup id =
      (c.seen.lookup id).filter fun exp => decide (exp > now') := Map.lookup_retain _ _ _
  constructor
  · intro id exp hExp
    rw [hLookup, Option.filter_eq_some_iff] at hExp
    exact h.seen id exp hExp.1
  · intro id hid hNone p hp hEq
    rw [hLookup] at hNone
    cases hOld : c.seen.lookup id with
    -- forgotten before, or by this purge
    | none => exact le_trans (h.forgotten id hid hOld p hp hEq) hNow
    | some exp =>
      rw [hOld, Option.filter_eq_none_iff] at hNone
      have hGone : ¬ exp > now' := by simpa using hNone
      rw [(h.seen id exp hOld).2 p hp hEq]
      exact UInt64.not_lt.mp hGone

variable {p : TicketPayload}

theorem Remembers.insert (hDistinct : DistinctIds issued) (hp : p ∈ issued)
    (h : Remembers issued now acc c) :
    Remembers issued now (acc ++ [p.ticketId]) ⟨c.seen.insert p.ticketId p.expiresAt⟩ := by
  constructor
  · intro id exp hExp
    rw [Map.lookup_insert_ite] at hExp
    split at hExp
    · rename_i hid
      cases hExp
      refine ⟨by simp [hid], fun q hq hEq => ?_⟩
      rw [hDistinct q hq p hp (hEq.trans hid)]
    · obtain ⟨hMem, hAll⟩ := h.seen id exp hExp
      exact ⟨mem_append_left _ hMem, hAll⟩
  · intro id hid hNone q hq hEq
    rw [Map.lookup_insert_ite] at hNone
    split at hNone
    · cases hNone
    · rename_i hne
      have hOld : id ∈ acc := by simpa [hne] using hid
      exact h.forgotten id hOld hNone q hq hEq

theorem attempt_of_not_presents (h : ∀ p, ¬ Presents P issuer a p) :
    attempt P issuer c a = (none, c) := by
  unfold attempt
  split
  · rename_i p hp
    exact absurd (TicketIssuer.openTicket_eq_ok.mp hp) (h p)
  · rfl
  · rfl

theorem attempt_of_presents (h : Presents P issuer a p) :
    attempt P issuer c a =
      if ((c.gc a.tCheck).seen.lookup p.ticketId).isSome then (none, c.gc a.tCheck)
      else (some p.ticketId, ⟨(c.gc a.tCheck).seen.insert p.ticketId p.expiresAt⟩) := by
  have hOpen : issuer.openTicket P a.tOpen a.ticket = ok p := TicketIssuer.openTicket_eq_ok.mpr h
  by_cases hSeen : ((c.gc a.tCheck).seen.lookup p.ticketId).isSome = true
  · rw [if_pos hSeen]
    simp only [attempt, hOpen, TicketCache.checkAndInsert, if_pos hSeen]
  · rw [if_neg hSeen]
    simp only [attempt, hOpen, TicketCache.checkAndInsert, if_neg hSeen]

/-- After the ids `acc` were accepted, every attempt on one of these reads the
cache in time, and so does every attempt on a ticket that an earlier one
presents. -/
def InTime (P : Primitives) (issuer : TicketIssuer) (acc : List (Fixed 16))
    (as : List Attempt) : Prop :=
  (∀ b ∈ as, ∀ q, Presents P issuer b q → q.ticketId ∈ acc → b.tCheck < q.expiresAt) ∧
    as.Pairwise (ReadInTime P issuer)

theorem inTime_nil : InTime P issuer acc [] :=
  ⟨by simp, List.Pairwise.nil⟩

theorem Presents.unique {q} (hp : Presents P issuer a p) (hq : Presents P issuer a q) : q = p := by
  have hSame : (ok q : Outcome Error TicketPayload) = ok p := hq.1.symm.trans hp.1
  cases hSame
  rfl

theorem inTime_cons_of_not_presents (h : ∀ p, ¬ Presents P issuer a p) :
    InTime P issuer acc (a :: as) ↔ InTime P issuer acc as := by
  unfold InTime
  rw [pairwise_cons]
  constructor
  · rintro ⟨hRest, -, hPairs⟩
    exact ⟨fun b hb => hRest b (mem_cons_of_mem _ hb), hPairs⟩
  · rintro ⟨hRest, hPairs⟩
    refine ⟨fun b hb q hq hMem => ?_, fun b hb p q hp => absurd hp (h p), hPairs⟩
    rcases mem_cons.mp hb with rfl | hb
    · exact absurd hq (h q)
    · exact hRest b hb q hq hMem

theorem inTime_cons_of_presents (h : Presents P issuer a p) :
    InTime P issuer acc (a :: as) ↔
      (p.ticketId ∈ acc → a.tCheck < p.expiresAt) ∧ InTime P issuer (acc ++ [p.ticketId]) as := by
  unfold InTime
  rw [pairwise_cons]
  constructor
  · rintro ⟨hRest, hHead, hPairs⟩
    refine ⟨hRest a (by simp) p h, fun b hb q hq hMem => ?_, hPairs⟩
    rcases mem_append.mp hMem with hMem | hMem
    · exact hRest b (mem_cons_of_mem _ hb) q hq hMem
    · exact hHead b hb p q h hq (mem_singleton.mp hMem).symm
  · rintro ⟨hFirst, hRest, hPairs⟩
    refine ⟨fun b hb q hq hMem => ?_, fun b hb p' q hp' hq hEq => ?_, hPairs⟩
    · rcases mem_cons.mp hb with rfl | hb
      · rw [h.unique hq] at hMem ⊢
        exact hFirst hMem
      · exact hRest b hb q hq (mem_append_left _ hMem)
    · rw [h.unique hp'] at hEq
      exact hRest b hb q hq (by simp [hEq])

theorem inTime_append_of_mem {id} (h : id ∈ acc) :
    InTime P issuer (acc ++ [id]) as ↔ InTime P issuer acc as := by
  have hMem (x : Fixed 16) : x ∈ acc ++ [id] ↔ x ∈ acc := by
    rw [mem_append, mem_singleton]
    exact ⟨fun hx => hx.elim (fun hx => hx) (fun hx => hx ▸ h), Or.inl⟩
  simp only [InTime, hMem]

theorem Remembers.lt_of_seen (h : Remembers issued now acc (c.gc now)) (hIssued : p ∈ issued)
    (hSeen : ((c.gc now).seen.lookup p.ticketId).isSome = true) :
    p.ticketId ∈ acc ∧ now < p.expiresAt := by
  obtain ⟨exp, hExp⟩ := Option.isSome_iff_exists.mp hSeen
  obtain ⟨hMem, hAll⟩ := h.seen _ _ hExp
  refine ⟨hMem, ?_⟩
  have hKept := (Option.filter_eq_some_iff.mp
    ((Map.lookup_retain (fun _ exp => decide (exp > now)) c.seen _).symm.trans hExp)).2
  rw [hAll p hIssued rfl]
  simpa using hKept

theorem ClockMonotone.tail (h : ClockMonotone (a :: as)) :
    (∀ b ∈ as, a.tCheck ≤ b.tCheck) ∧ ClockMonotone as := by
  unfold ClockMonotone at h ⊢
  simp only [flatMap_cons, cons_append, nil_append, pairwise_cons] at h
  refine ⟨fun b hb => h.2.1 _ ?_, h.2.2⟩
  exact mem_flatMap.mpr ⟨b, hb, by simp⟩

/-- The induction, from a cache that matches the ids accepted so far. -/
theorem accepted_nodup_iff_of_remembers (hDistinct : DistinctIds issued)
    (hAuth : Authentic P issuer issued as) (hClock : ClockMonotone as)
    (hNow : ∀ b ∈ as, now ≤ b.tCheck) (h : Remembers issued now acc c) :
    (acc ++ accepted P issuer c as).Nodup ↔ acc.Nodup ∧ InTime P issuer acc as := by
  -- over the attempts; the cache, the accepted ids and the clock change with each
  induction as generalizing acc c now with
  | nil => simp [accepted, inTime_nil]
  | cons a as ih =>
    have hAuth' : Authentic P issuer issued as := fun b hb => hAuth b (mem_cons_of_mem _ hb)
    obtain ⟨hLater, hClock'⟩ := hClock.tail
    have hStart : now ≤ a.tCheck := hNow a (by simp)
    by_cases hPres : ∃ p, Presents P issuer a p
    · obtain ⟨p, hp⟩ := hPres
      have hIssued : p ∈ issued := hAuth a (by simp) p hp.1
      have hGc : Remembers issued a.tCheck acc (c.gc a.tCheck) := h.gc hStart
      rw [accepted, attempt_of_presents hp, inTime_cons_of_presents hp]
      by_cases hSeen : ((c.gc a.tCheck).seen.lookup p.ticketId).isSome = true
      · -- rejected: the id was accepted before, and is remembered past the reading
        obtain ⟨hMem, hIn⟩ := hGc.lt_of_seen hIssued hSeen
        rw [if_pos hSeen]
        simp only [Option.toList_none, nil_append]
        rw [ih hAuth' hClock' hLater hGc, inTime_append_of_mem hMem]
        simp [hIn]
      · -- accepted
        rw [if_neg hSeen]
        simp only [Option.toList_some]
        rw [← append_assoc, ih hAuth' hClock' hLater (hGc.insert hDistinct hIssued),
          nodup_append_comm, singleton_append, nodup_cons]
        by_cases hMem : p.ticketId ∈ acc
        · -- a second time: the cache has forgotten it, so it has expired
          have hExpired : p.expiresAt ≤ a.tCheck :=
            hGc.forgotten _ hMem (by simpa using hSeen) p hIssued rfl
          simp [hMem, not_lt.mpr hExpired]
        · simp [hMem]
    · -- nothing is presented: the cache is not touched
      have hNot : ∀ p, ¬ Presents P issuer a p := fun p hp => hPres ⟨p, hp⟩
      rw [accepted, attempt_of_not_presents hNot, inTime_cons_of_not_presents hNot]
      simp only [Option.toList_none, nil_append]
      exact ih hAuth' hClock' hLater ⟨h.seen, fun id hid hNone p hp hEq =>
        le_trans (h.forgotten id hid hNone p hp hEq) hStart⟩

/-- **One-time tickets.** The issued tickets have distinct ids (`hDistinct`), a ticket that decrypts
was issued (`hAuth`), and the clocks do not go back (`hClock`). Then no id is accepted twice exactly
if, of any two attempts with the same ticket while it is fresh, the later one reads the cache before
the expiry second (`ReadInTime`). -/
theorem accepted_nodup_iff (hDistinct : DistinctIds issued)
    (hAuth : Authentic P issuer issued as) (hClock : ClockMonotone as) :
    (accepted P issuer TicketCache.new as).Nodup ↔ as.Pairwise (ReadInTime P issuer) := by
  have hMain := accepted_nodup_iff_of_remembers hDistinct hAuth hClock
    (fun b _ => UInt64.zero_le)
    (show Remembers issued 0 [] .new from ⟨by simp [TicketCache.new], by simp⟩)
  simpa [InTime] using hMain

def samplePayload : TicketPayload := ⟨padTo 32 [7], padTo 16 [9], 100, padTo 32 []⟩

def sampleTicket : Bytes := (padTo 12 []).val ++ samplePayload.plain ++ (padTo 16 []).val

def sampleIssuer : TicketIssuer := ⟨padTo 16 []⟩

theorem decodeTicket_sampleTicket :
    sampleIssuer.decodeTicket plainPrimitives sampleTicket = ok samplePayload :=
  TicketIssuer.decodeTicket_of_decrypt (by decide) rfl

theorem authentic_sampleTicket (h : ∀ a ∈ as, a.ticket = sampleTicket) :
    Authentic plainPrimitives sampleIssuer [samplePayload] as := by
  intro a ha p hp
  rw [h a ha, decodeTicket_sampleTicket] at hp
  cases hp
  simp

theorem distinctIds_sample : DistinctIds [samplePayload] := by
  intro p hp q hq _
  rw [mem_singleton.mp hp, mem_singleton.mp hq]

/-- A ticket presented at seconds 50 and 60 is accepted once. -/
theorem accepted_nodup_iff_before_expiry :
    (accepted plainPrimitives sampleIssuer TicketCache.new
      [⟨sampleTicket, 50, 50⟩, ⟨sampleTicket, 60, 60⟩]).Nodup := by
  refine (accepted_nodup_iff distinctIds_sample (authentic_sampleTicket (by simp))
    (by unfold ClockMonotone; decide)).mpr ?_
  refine pairwise_pair.mpr fun p q _ hq _ => ?_
  have hPayload := hq.1
  rw [decodeTicket_sampleTicket] at hPayload
  cases hPayload
  decide

/-- In its expiry second the ticket still opens, and the cache has forgotten it. -/
theorem not_accepted_nodup :
    DistinctIds [samplePayload] ∧
    Authentic plainPrimitives sampleIssuer [samplePayload]
      [⟨sampleTicket, 100, 100⟩, ⟨sampleTicket, 100, 100⟩] ∧
    ClockMonotone [⟨sampleTicket, 100, 100⟩, ⟨sampleTicket, 100, 100⟩] ∧
    ¬ (accepted plainPrimitives sampleIssuer TicketCache.new
      [⟨sampleTicket, 100, 100⟩, ⟨sampleTicket, 100, 100⟩]).Nodup := by
  refine ⟨distinctIds_sample, authentic_sampleTicket (by simp),
    by unfold ClockMonotone; decide, ?_⟩
  have hAccepted : accepted plainPrimitives sampleIssuer TicketCache.new
      [⟨sampleTicket, 100, 100⟩, ⟨sampleTicket, 100, 100⟩] =
      [samplePayload.ticketId, samplePayload.ticketId] := by
    decide +kernel
  rw [hAccepted]
  decide +kernel

end DirectWire.GmPq
