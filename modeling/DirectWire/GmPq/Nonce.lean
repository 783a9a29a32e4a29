import DirectWire.GmPq.Party

/-!
# GM-PQ — no key and nonce encrypt two plaintexts

Every encryption of any number of runs is entered in a `Ledger` under what its key was derived
for. Within a run a key meets a nonce once, and the keys come from a secret only this run has
drawn. The early-data key is derived from the pre-shared key alone, always with nonce zero.
-/

namespace DirectWire.GmPq

open Lib Outcome List Option

def NoReuse (calls : List GcmCall) : Prop :=
  ∀ x ∈ calls, ∀ y ∈ calls, x.key = y.key → x.nonce = y.nonce → x.plaintext = y.plaintext

instance (calls : List GcmCall) : Decidable (NoReuse calls) :=
  inferInstanceAs (Decidable (∀ x ∈ calls, ∀ y ∈ calls,
    x.key = y.key → x.nonce = y.nonce → x.plaintext = y.plaintext))

/-! ## Whose keys they are -/

def pskQuery (P : Primitives) (protoName : Bytes) (psk : Fixed 32) : Query :=
  ((SymmetricState.new P protoName).ck, pskLabel ++ psk.val)

variable {P : Primitives} {K : StaticAuth} {protoName : Bytes} {psk : Option (Fixed 32)}
  {early : List Bytes} {l l' : Logs} {entries : List (Purpose × GcmCall)}

namespace Logs

def Signed (l : Logs) (q : Query) : Prop := ∃ x ∈ l.drawn, x.val <+: q.2

/-- Why the key of a purpose belongs to the party. A responder takes the
last input from its peer, but mixes it into a chaining key of its own. -/
def Owns (P : Primitives) (l : Logs) : Purpose → Query → Prop
  | .early, _ => False
  | .static, q => l.Signed q
  | .i2r, q => l.Signed q
  | .r2i, q => ∃ q' ∈ l.extracted, l.Signed q' ∧ q.1 = q'.ck P

theorem Signed.mono {q} (h : l.Signed q) (hDrawn : l.drawn ⊆ l'.drawn) : l'.Signed q := by
  obtain ⟨x, hx, hPrefix⟩ := h
  exact ⟨x, hDrawn hx, hPrefix⟩

theorem Owns.mono {purpose q} (h : l.Owns P purpose q) (hDrawn : l.drawn ⊆ l'.drawn)
    (hExtracted : l.extracted ⊆ l'.extracted) : l'.Owns P purpose q := by
  cases purpose with
  | early => exact h
  | static | i2r => exact Signed.mono h hDrawn
  | r2i =>
    obtain ⟨q', hq', hSigned, hEq⟩ := h
    exact ⟨q', hExtracted hq', hSigned.mono hDrawn, hEq⟩

def OwnsKey (P : Primitives) (l : Logs) (purpose : Purpose) (key : Fixed 16) : Prop :=
  ∃ q ∈ l.extracted, l.Owns P purpose q ∧ key = purpose.key P (q.ck P)

theorem OwnsKey.mono {purpose key} (h : l.OwnsKey P purpose key) (hDrawn : l.drawn ⊆ l'.drawn)
    (hExtracted : l.extracted ⊆ l'.extracted) : l'.OwnsKey P purpose key := by
  obtain ⟨q, hq, hOwns, hKey⟩ := h
  exact ⟨q, hExtracted hq, hOwns.mono hDrawn hExtracted, hKey⟩

end Logs

/-! ## The ledger of a run -/

/-- The encryptions of a run, each under what its key was derived for. -/
structure Ledger (P : Primitives) (protoName : Bytes) (psk : Option (Fixed 32))
    (early : List Bytes) (l : Logs) (entries : List (Purpose × GcmCall)) : Prop where
  sealed : l.sealed = entries.map Prod.snd
  /-- Early data is sealed under the key of the pre-shared key. -/
  early_mem : ∀ call, (Purpose.early, call) ∈ entries → ∃ p, psk = some p ∧
    pskQuery P protoName p ∈ l.extracted ∧
    call.key = Purpose.early.key P ((pskQuery P protoName p).ck P) ∧
    call.nonce = Aead.nonce 0 ∧ call.plaintext ∈ early
  early_sealed : ∀ plaintext ∈ early, ∃ call, (Purpose.early, call) ∈ entries ∧
    call.plaintext = plaintext
  owned : ∀ purpose call, (purpose, call) ∈ entries → purpose ≠ .early →
    l.OwnsKey P purpose call.key
  distinct : entries.Pairwise fun e f => e.1 = f.1 → e.1 ≠ .early → e.2.nonce ≠ f.2.nonce

namespace Ledger

section

variable (h : Ledger P protoName psk early l entries)

include h

theorem mono (hDrawn : l.drawn ⊆ l'.drawn) (hExtracted : l.extracted ⊆ l'.extracted)
    (hSealed : l'.sealed = l.sealed) : Ledger P protoName psk early l' entries where
  sealed := by rw [hSealed, h.sealed]
  early_mem call hCall := by
    obtain ⟨p, hp, hQuery, hRest⟩ := h.early_mem call hCall
    exact ⟨p, hp, hExtracted hQuery, hRest⟩
  early_sealed := h.early_sealed
  owned purpose call hCall hPurpose := (h.owned purpose call hCall hPurpose).mono hDrawn hExtracted
  distinct := h.distinct

/-- One more call, with the early data `more` if it is under the early-data key. -/
theorem push {e more} (hDrawn : l.drawn ⊆ l'.drawn) (hExtracted : l.extracted ⊆ l'.extracted)
    (hSealed : l'.sealed = l.sealed ++ [e.2])
    (hEarly : e.1 = .early → ∃ p, psk = some p ∧ pskQuery P protoName p ∈ l.extracted ∧
      e.2.key = Purpose.early.key P ((pskQuery P protoName p).ck P) ∧ e.2.nonce = Aead.nonce 0 ∧
      e.2.plaintext ∈ more) (hMore : ∀ x ∈ more, e.1 = .early ∧ e.2.plaintext = x)
    (hOwned : e.1 ≠ .early → l'.OwnsKey P e.1 e.2.key)
    (hNew : e.1 ≠ .early → ∀ old, (e.1, old) ∈ entries → old.nonce ≠ e.2.nonce) :
    Ledger P protoName psk (early ++ more) l' (entries ++ [e]) where
  sealed := by simp [hSealed, h.sealed]
  early_mem other hOther := by
    rcases mem_append.mp hOther with hOther | hOther
    · obtain ⟨p, hp, hQuery, hKey, hNonce, hPlain⟩ := h.early_mem other hOther
      exact ⟨p, hp, hExtracted hQuery, hKey, hNonce, mem_append_left _ hPlain⟩
    · obtain rfl := mem_singleton.mp hOther
      obtain ⟨p, hp, hQuery, hKey, hNonce, hPlain⟩ := hEarly rfl
      exact ⟨p, hp, hExtracted hQuery, hKey, hNonce, mem_append_right _ hPlain⟩
  early_sealed plaintext hMem := by
    rcases mem_append.mp hMem with hMem | hMem
    · obtain ⟨other, hOther, hPlain⟩ := h.early_sealed plaintext hMem
      exact ⟨other, mem_append_left _ hOther, hPlain⟩
    · obtain ⟨hIs, hPlain⟩ := hMore plaintext hMem
      exact ⟨e.2, mem_append_right _ (mem_singleton.mpr (Prod.ext hIs.symm rfl)), hPlain⟩
  owned other call hOther hNot := by
    rcases mem_append.mp hOther with hOther | hOther
    · exact (h.owned other call hOther hNot).mono hDrawn hExtracted
    · obtain rfl := mem_singleton.mp hOther
      exact hOwned hNot
  -- the new call is the last; only its pairs with older calls are left
  distinct := by
    rw [pairwise_append]
    refine ⟨h.distinct, pairwise_singleton _ _, fun old hOld f hf hSame hNot => ?_⟩
    obtain rfl := mem_singleton.mp hf
    obtain ⟨p, old⟩ := old
    obtain rfl : p = f.1 := hSame
    exact hNew hNot old hOld

theorem add (purpose : Purpose) (call : GcmCall) (hPurpose : purpose ≠ .early)
    (hDrawn : l.drawn ⊆ l'.drawn) (hExtracted : l.extracted ⊆ l'.extracted)
    (hSealed : l'.sealed = l.sealed ++ [call]) (hOwned : l'.OwnsKey P purpose call.key)
    (hNew : ∀ old, (purpose, old) ∈ entries → old.nonce ≠ call.nonce) :
    Ledger P protoName psk early l' (entries ++ [(purpose, call)]) := by
  rw [← append_nil early]
  exact h.push hDrawn hExtracted hSealed (fun hIs => absurd hIs hPurpose) nofun (fun _ => hOwned)
    fun _ => hNew

theorem derived {purpose call} (hCall : (purpose, call) ∈ entries) :
    ∃ q ∈ l.extracted, call.key = purpose.key P (q.ck P) ∧
      (purpose ≠ .early → l.Owns P purpose q) ∧
      (purpose = .early → ∃ p, psk = some p ∧ q = pskQuery P protoName p ∧
        call.plaintext ∈ early) := by
  by_cases hEarly : purpose = .early
  · subst hEarly
    obtain ⟨p, hp, hQuery, hKey, -, hPlain⟩ := h.early_mem call hCall
    exact ⟨_, hQuery, hKey, fun hNot => absurd rfl hNot, fun _ => ⟨p, hp, rfl, hPlain⟩⟩
  · obtain ⟨q, hq, hOwns, hKey⟩ := h.owned purpose call hCall hEarly
    exact ⟨q, hq, hKey, fun _ => hOwns, fun hIs => absurd hIs hEarly⟩

theorem eq_of_nonce {purpose x y} (hNot : purpose ≠ .early) (hx : (purpose, x) ∈ entries)
    (hy : (purpose, y) ∈ entries) (hNonce : x.nonce = y.nonce) : x = y := by
  by_contra hNe
  -- two different entries of one purpose have different nonces, in either order
  have : Std.Symm fun e f : Purpose × GcmCall =>
      e.1 = f.1 → e.1 ≠ .early → e.2.nonce ≠ f.2.nonce :=
    ⟨fun e f hef hSame hEarly => (hef hSame.symm (hSame ▸ hEarly)).symm⟩
  have hPair : (purpose, x) ≠ (purpose, y) := fun hEq => hNe (congrArg Prod.snd hEq)
  exact h.distinct.forall hx hy hPair rfl hNot hNonce

end

end Ledger

/-! ## The sessions -/

/-- A session that sends under a key of its party, and the nonces it has
used. -/
structure Sends (P : Primitives) (l : Logs) (entries : List (Purpose × GcmCall)) (dir : Purpose)
    (s : Session) : Prop where
  key : l.OwnsKey P dir s.tx.key
  used : ∀ call, (dir, call) ∈ entries →
    ∃ seq : UInt64, seq.toNat < s.tx.txSeq.toNat ∧ call.nonce = Aead.nonce seq

section

variable {dir : Purpose} {s s' : Session} {before : List GcmCall}

theorem Ledger.send
    (h : Ledger P protoName psk early { l with sealed := before ++ s.sealed } entries)
    (hSends : Sends P l entries dir s) (hDir : dir ≠ .early) {plaintext packet}
    (hSend : s.send (ε := Empty) P plaintext = ok (packet, s')) :
    ∃ entries', Ledger P protoName psk early { l with sealed := before ++ s'.sealed } entries' ∧
      Sends P l entries' dir s' := by
  obtain ⟨hKey, hSeq, hSealed⟩ := Session.send_spec hSend
  set call := s.tx.callWithSeq s.tx.txSeq s.sessionId.val plaintext with hCall
  -- every earlier nonce has a smaller sequence number than the counter
  have hNew : ∀ old, (dir, old) ∈ entries → old.nonce ≠ call.nonce := by
    intro old hOld hSame
    obtain ⟨seq, hLt, hNonce⟩ := hSends.used old hOld
    have hEq : seq = s.tx.txSeq := Aead.nonce_injective (hNonce.symm.trans hSame)
    rw [hEq] at hLt
    exact lt_irrefl _ hLt
  refine ⟨entries ++ [(dir, call)],
    h.add dir call hDir (List.Subset.refl _) (List.Subset.refl _) (by simp [hSealed]) hSends.key
      hNew, ?_, ?_⟩
  · rw [hKey]
    exact hSends.key
  · intro other hOther
    rcases mem_append.mp hOther with hOther | hOther
    · obtain ⟨seq, hLt, hNonce⟩ := hSends.used other hOther
      exact ⟨seq, by omega, hNonce⟩
    · simp only [mem_singleton, Prod.mk.injEq, true_and] at hOther
      subst hOther
      exact ⟨s.tx.txSeq, by omega, rfl⟩

theorem Sends.ofNew (hKey : l.OwnsKey P dir s.tx.key) (hNone : ∀ e ∈ entries, e.1 ≠ dir) :
    Sends P l entries dir s :=
  ⟨hKey, fun call hCall => absurd rfl (hNone (dir, call) hCall)⟩

theorem Ledger.recv
    (h : Ledger P protoName psk early { l with sealed := before ++ s.sealed } entries)
    (hSends : Sends P l entries dir s) {packet result} (hRecv : s.recv P packet = ok (result, s')) :
    ∃ entries', Ledger P protoName psk early { l with sealed := before ++ s'.sealed } entries' ∧
      Sends P l entries' dir s' := by
  obtain ⟨hTx, hSealed⟩ := Session.recv_spec hRecv
  refine ⟨entries, ?_, ?_, ?_⟩
  · rw [hSealed]
    exact h
  · rw [hTx]
    exact hSends.key
  · rw [hTx]
    exact hSends.used

end

/-! ## Every run keeps its ledger -/

namespace Party

variable {c : Config K}

/-- What holds of a party that has sealed the early data `early`. -/
def Inv (P : Primitives) (c : Config K) (early : List Bytes) : Party K → Prop
  | .fresh i | .offered i =>
    (∃ entries, Ledger P K.name c.psk early i.logs entries ∧ ∀ e ∈ entries, e.1 = .early) ∧
      ∀ p, c.psk = some p →
        i.ss.ck = (pskQuery P K.name p).ck P ∧ pskQuery P K.name p ∈ i.ss.extracted
  | .keyed i =>
    ∃ entries, Ledger P K.name c.psk early i.logs entries ∧ ∀ e ∈ entries, e.1 = .early
  | .connected i s =>
    ∃ entries, Ledger P K.name c.psk early { i.logs with sealed := i.sealed ++ s.sealed } entries ∧
      Sends P i.logs entries .i2r s
  | .idle r | .greeted r => Ledger P K.name c.psk early r.logs []
  | .replied r =>
    ∃ entries, Ledger P K.name c.psk early r.logs entries ∧ (∀ e ∈ entries, e.1 = .static) ∧
      ∃ q ∈ r.logs.extracted, r.logs.Signed q ∧ r.ss.ck = q.ck P
  | .accepted r s =>
    ∃ entries, Ledger P K.name c.psk early { r.logs with sealed := r.sealed ++ s.sealed } entries ∧
      Sends P r.logs entries .r2i s

theorem inv_start : Inv P c [] (start P c) := by
  -- a constructor seals nothing, whatever it has extracted
  have hEmpty : ∀ (extracted : List Query), Ledger P K.name c.psk [] ⟨[], extracted, []⟩ [] := by
    intro extracted
    constructor <;> simp
  obtain ⟨role, sk, pk, psk⟩ := c
  cases role with
  | initiator =>
    cases psk with
    | none => exact ⟨⟨[], hEmpty _, by simp⟩, by simp⟩
    | some p =>
      refine ⟨⟨[], hEmpty _, by simp⟩, fun p' hp' => ?_⟩
      cases hp'
      exact ⟨rfl, mem_singleton_self _⟩
  | responder => cases psk <;> exact hEmpty _

variable {i i' : Initiator K.toKem} {msg : Bytes} {r r' : Responder K.toKem}

theorem inv_offered {r} (hInv : Inv P c early (.fresh i)) (h : i.writeMsg1 P r = ok (msg, i')) :
    Inv P c early (.offered i') := by
  -- a hash is mixed and no key
  obtain ⟨eSk, -, rfl⟩ := Initiator.writeMsg1_state h
  exact hInv

theorem inv_early {plaintext packet} (hInv : Inv P c early (.offered i))
    (hSome : c.psk.isSome = true) (h : i.sealEarlyData P plaintext = ok (packet, i')) :
    Inv P c (early ++ [plaintext]) (.offered i') := by
  obtain rfl := Initiator.sealEarlyData_state h
  obtain ⟨⟨entries, hLedger, hEarly⟩, hPsk⟩ := hInv
  obtain ⟨psk, hPskEq⟩ := isSome_iff_exists.mp hSome
  obtain ⟨hCk, hMem⟩ := hPsk psk hPskEq
  -- message 1 mixed a hash and no key, so this is still the pre-shared key's
  set call := staticCall (Purpose.early.key P i.ss.ck) i.ss.h plaintext
  have hKey : call.key = Purpose.early.key P ((pskQuery P K.name psk).ck P) :=
    congrArg (Purpose.early.key P) hCk
  refine ⟨⟨entries ++ [(.early, call)], ?_, ?_⟩, hPsk⟩
  · refine hLedger.push ?_ ?_ rfl (fun _ => ⟨psk, hPskEq, hMem, hKey, rfl, mem_singleton_self _⟩)
      (fun x hx => ⟨rfl, (mem_singleton.mp hx).symm⟩) (absurd rfl) (absurd rfl)
    · exact List.Subset.refl _
    · exact List.Subset.refl _
  · intro e he
    rcases mem_append.mp he with he | he
    · exact hEarly e he
    · rw [mem_singleton.mp he]

theorem inv_keyed (hInv : Inv P c early (.offered i)) (h : i.readMsg2 P msg = ok i') :
    Inv P c early (.keyed i') := by
  obtain ⟨ctEe, ee, -, rfl⟩ := Initiator.readMsg2_state h
  obtain ⟨⟨entries, hLedger, hEarly⟩, -⟩ := hInv
  refine ⟨entries, ?_, hEarly⟩
  exact hLedger.mono (List.Subset.refl _) (subset_append_left _ _) rfl

theorem inv_connected {s} (hInv : Inv P c early (.keyed i)) (h : i.Finishes P i' s) :
    Inv P c early (.connected i' s) := by
  obtain ⟨entries, hLedger, hEarly⟩ := hInv
  obtain ⟨se, ss, hSign, plaintext, hLogs, hTx, hSealed⟩ := h
  set q : Query := (i.ss.ck, se.val ++ ss.val)
  -- the secret drawn for the responder's ephemeral key comes first
  have hSigned : i'.logs.Signed q := ⟨se, by simp [hLogs], prefix_append _ _⟩
  have hMem : q ∈ i'.logs.extracted := by simp [hLogs]
  have hDrawn : i.logs.drawn ⊆ i'.logs.drawn := by
    rw [hLogs]
    exact subset_append_left _ _
  have hExtracted : i.logs.extracted ⊆ i'.logs.extracted := by
    rw [hLogs]
    exact subset_append_left _ _
  set call := staticCall (Purpose.static.key P (q.ck P)) hSign plaintext
  have hAll : i'.sealed = i.sealed ++ [call] := congrArg Logs.sealed hLogs
  refine ⟨_, hLedger.add .static call (by decide) hDrawn hExtracted ?_ ⟨q, hMem, hSigned, rfl⟩ ?_,
    Sends.ofNew ⟨q, hMem, hSigned, ?_⟩ ?_⟩
  · rw [hSealed, append_nil]
    exact hAll
  · intro old hOld
    cases hEarly _ hOld
  · rw [hTx]
    rfl
  · intro e he hDir
    rcases mem_append.mp he with he | he
    · cases (hEarly e he).symm.trans hDir
    · rw [mem_singleton.mp he] at hDir
      cases hDir

theorem inv_replied {rEph rEe} (hInv : Inv P c early (.greeted r))
    (h : r.writeMsg2 P rEph rEe = ok (msg, r')) : Inv P c early (.replied r') := by
  obtain ⟨eI, eSk, eR, ctEe, ee, encR, -, -, -, -, rfl⟩ := Responder.writeMsg2_state h
  have hLedger : Ledger P K.name c.psk early r.logs [] := hInv
  set q : Query := (r.ss.ck, ee.val)
  have hMem : q ∈ r.ss.extracted ++ [q] := mem_append_right _ (mem_singleton_self _)
  have hSigned : ∀ l : Logs, l.drawn = r.drawn ++ [ee] → l.Signed q := fun l hl =>
    ⟨ee, by simp [hl], prefix_refl _⟩
  exact ⟨_, hLedger.add .static _ (by decide) (subset_append_left _ _) (subset_append_left _ _) rfl
    ⟨q, hMem, hSigned _ rfl, rfl⟩ (by simp), by simp, q, hMem, hSigned _ rfl, rfl⟩

theorem inv_accepted {s} (hInv : Inv P c early (.replied r)) (h : r.Accepts P r' s) :
    Inv P c early (.accepted r' s) := by
  obtain ⟨entries, hLedger, hStatic, q, hMem, hSigned, hCk⟩ := hInv
  obtain ⟨ikm, hLogs, hTx, hSealed⟩ := h
  have hDrawn : r.logs.drawn ⊆ r'.logs.drawn := by
    rw [hLogs]
    exact List.Subset.refl _
  have hExtracted : r.logs.extracted ⊆ r'.logs.extracted := by
    rw [hLogs]
    exact subset_append_left _ _
  have hAll : r'.sealed = r.sealed := congrArg Logs.sealed hLogs
  refine ⟨entries, hLedger.mono hDrawn hExtracted ?_, Sends.ofNew
    ⟨(r.ss.ck, ikm), by simp [hLogs], ⟨q, hExtracted hMem, hSigned.mono hDrawn, hCk⟩, ?_⟩ ?_⟩
  · rw [hSealed, append_nil]
    exact hAll
  · rw [hTx]
    rfl
  · intro e he
    rw [hStatic e he]
    decide

theorem inv_step {p p' op} (hInv : Inv P c early p) (h : step P c p op = some p') :
    Inv P c (early ++ op.earlyData) p' := by
  unfold step at h
  split at h <;> simp only [Op.earlyData, append_nil]
  case h_1 i r =>
    obtain ⟨⟨msg, i'⟩, hCall, rfl⟩ := map_eq_some_iff.mp h
    exact inv_offered hInv (toOption_eq_some.mp hCall)
  case h_2 i plaintext =>
    split at h
    · rename_i hSome
      obtain ⟨⟨packet, i'⟩, hCall, rfl⟩ := map_eq_some_iff.mp h
      exact inv_early hInv hSome (toOption_eq_some.mp hCall)
    · cases h
  case h_3 i msg =>
    obtain ⟨i', hCall, rfl⟩ := map_eq_some_iff.mp h
    exact inv_keyed hInv (toOption_eq_some.mp hCall)
  case h_4 i rSe rSs anchor =>
    obtain ⟨⟨msg, s, i'⟩, hCall, rfl⟩ := map_eq_some_iff.mp h
    exact inv_connected hInv (writeMsg3_spec (toOption_eq_some.mp hCall))
  case h_5 r msg =>
    obtain ⟨r', hCall, rfl⟩ := map_eq_some_iff.mp h
    obtain rfl := Responder.readMsg1_state (toOption_eq_some.mp hCall)
    exact hInv
  case h_6 r rEph rEe =>
    obtain ⟨⟨msg, r'⟩, hCall, rfl⟩ := map_eq_some_iff.mp h
    exact inv_replied hInv (toOption_eq_some.mp hCall)
  case h_7 r msg anchor =>
    obtain ⟨⟨s, r'⟩, hCall, rfl⟩ := map_eq_some_iff.mp h
    exact inv_accepted hInv (readMsg3_spec (toOption_eq_some.mp hCall))
  -- the two sides of a session
  case h_8 | h_10 =>
    obtain ⟨⟨packet, s'⟩, hCall, rfl⟩ := map_eq_some_iff.mp h
    obtain ⟨entries, hLedger, hSends⟩ := hInv
    exact hLedger.send hSends (by decide) (toOption_eq_some.mp hCall)
  case h_9 | h_11 =>
    obtain ⟨⟨_, s'⟩, hCall, rfl⟩ := map_eq_some_iff.mp h
    obtain ⟨entries, hLedger, hSends⟩ := hInv
    exact hLedger.recv hSends (toOption_eq_some.mp hCall)
  case h_12 => cases h

end Party

theorem PartyRun.exists_ledger {P K} (a : PartyRun P K) :
    ∃ entries, Ledger P K.name a.config.psk a.earlyData a.party.logs entries := by
  -- induction over the calls; the early data grows with them
  have hInv : Party.Inv P a.config a.earlyData a.party := by
    refine observe_invariant (fun _ _ => ([] : List Unit))
      (I := fun ops _ p => Party.Inv P a.config (ops.flatMap Op.earlyData) p)
      Party.inv_start ?_ a.reached
    intro ops _ p op p' hInv _ hStep
    rw [flatMap_append, flatMap_singleton]
    exact Party.inv_step hInv hStep
  generalize a.party = p at hInv
  cases p with
  | fresh | offered => exact ⟨_, hInv.1.choose_spec.1⟩
  | keyed | connected | replied | accepted => exact ⟨_, hInv.choose_spec.1⟩
  | idle | greeted => exact ⟨_, hInv⟩

/-! ## Any number of runs -/

section Runs

/-- The algorithms seen as ideal by these runs: encapsulation gave no secret
twice, and neither the extractions nor the key derivations that the runs
make collide. Injectivity outright would hold of no function into 32 bytes. -/
structure Ideal (runs : List (PartyRun P K)) : Prop where
  drawn : (runs.flatMap PartyRun.drawn).Nodup
  extract : ∀ q ∈ runs.flatMap PartyRun.extracted, ∀ q' ∈ runs.flatMap PartyRun.extracted,
    q.ck P = q'.ck P → q = q'
  expand : ∀ q ∈ runs.flatMap PartyRun.extracted, ∀ q' ∈ runs.flatMap PartyRun.extracted,
    ∀ purpose purpose' : Purpose, purpose.key P (q.ck P) = purpose'.key P (q'.ck P) →
      q.ck P = q'.ck P ∧ purpose = purpose'

def OneEarlyData (runs : List (PartyRun P K)) : Prop :=
  ∀ a ∈ runs, ∀ b ∈ runs, ∀ psk, a.config.psk = some psk → b.config.psk = some psk →
    ∀ x ∈ a.earlyData, ∀ y ∈ b.earlyData, x = y

variable {runs : List (PartyRun P K)} {a b : PartyRun P K}

theorem Ideal.eq_of_drawn (h : Ideal runs) (ha : a ∈ runs) (hb : b ∈ runs) {x} (hxa : x ∈ a.drawn)
    (hxb : x ∈ b.drawn) : a = b := by
  by_contra hNe
  have hPairwise := (nodup_flatMap.mp h.drawn).2
  have : Std.Symm (Function.onFun List.Disjoint (PartyRun.drawn (P := P) (K := K))) :=
    ⟨fun _ _ hDisjoint => hDisjoint.symm⟩
  exact hPairwise.forall ha hb hNe hxa hxb

theorem Ideal.eq_of_signed (h : Ideal runs) (ha : a ∈ runs) (hb : b ∈ runs) {q}
    (hqa : a.party.logs.Signed q) (hqb : b.party.logs.Signed q) : a = b := by
  obtain ⟨x, hx, y, hxy⟩ := hqa
  obtain ⟨x', hx', y', hxy'⟩ := hqb
  have hSame : x.val = x'.val := by
    refine (append_inj (hxy.trans hxy'.symm) ?_).1
    rw [x.property, x'.property]
  have hEq : x = x' := Subtype.ext hSame
  subst hEq
  exact h.eq_of_drawn ha hb hx hx'

theorem Ideal.eq_of_owns (h : Ideal runs) (ha : a ∈ runs) (hb : b ∈ runs) {purpose q}
    (hqa : a.party.logs.Owns P purpose q) (hqb : b.party.logs.Owns P purpose q) : a = b := by
  cases purpose with
  | early => exact hqa.elim
  | static | i2r => exact h.eq_of_signed ha hb hqa hqb
  | r2i =>
    -- the chaining keys below are equal, so their extractions are
    obtain ⟨q₁, hq₁, hSigned₁, hEq₁⟩ := hqa
    obtain ⟨q₂, hq₂, hSigned₂, hEq₂⟩ := hqb
    have hMem₁ : q₁ ∈ runs.flatMap PartyRun.extracted := mem_flatMap.mpr ⟨a, ha, hq₁⟩
    have hMem₂ : q₂ ∈ runs.flatMap PartyRun.extracted := mem_flatMap.mpr ⟨b, hb, hq₂⟩
    have hEq : q₁ = q₂ := h.extract q₁ hMem₁ q₂ hMem₂ (hEq₁.symm.trans hEq₂)
    subst hEq
    exact h.eq_of_signed ha hb hSigned₁ hSigned₂

theorem pskQuery_inj {protoName : Bytes} {psk psk' : Fixed 32}
    (h : pskQuery P protoName psk = pskQuery P protoName psk') : psk = psk' := by
  have hIkm : pskLabel ++ psk.val = pskLabel ++ psk'.val := congrArg Prod.snd h
  exact Subtype.ext (append_cancel_left hIkm)

theorem PartyRun.exists_early_call (a : PartyRun P K) {psk x} (hPsk : a.config.psk = some psk)
    (hx : x ∈ a.earlyData) :
    ∃ call ∈ a.sealed, call.key = Purpose.early.key P ((pskQuery P K.name psk).ck P) ∧
      call.nonce = Aead.nonce 0 ∧ call.plaintext = x := by
  obtain ⟨entries, hLedger⟩ := a.exists_ledger
  obtain ⟨call, hCall, hPlain⟩ := hLedger.early_sealed x hx
  obtain ⟨psk', hPsk', -, hKey, hNonce, -⟩ := hLedger.early_mem call hCall
  rw [hPsk, some_inj] at hPsk'
  subst hPsk'
  refine ⟨call, ?_, hKey, hNonce, hPlain⟩
  rw [PartyRun.sealed, hLedger.sealed]
  exact mem_map_of_mem hCall

/-- **Nonce reuse.** Any number of runs receive what they may, and their extractions, derived keys
and encapsulations do not collide (`Ideal`). Then no key and nonce encrypt two different plaintexts
exactly if all early data that is sealed under one pre-shared key is the same. -/
theorem noReuse_iff (hIdeal : Ideal runs) :
    NoReuse (runs.flatMap PartyRun.sealed) ↔ OneEarlyData runs := by
  -- a ledger for every run, once and for all
  choose ledger hLedger using PartyRun.exists_ledger (P := P) (K := K)
  constructor
  · intro hNo a ha b hb psk hPskA hPskB x hx y hy
    obtain ⟨cx, hcx, hKeyX, hNonceX, rfl⟩ := a.exists_early_call hPskA hx
    obtain ⟨cy, hcy, hKeyY, hNonceY, rfl⟩ := b.exists_early_call hPskB hy
    exact hNo cx (mem_flatMap.mpr ⟨a, ha, hcx⟩) cy (mem_flatMap.mpr ⟨b, hb, hcy⟩)
      (hKeyX.trans hKeyY.symm) (hNonceX.trans hNonceY.symm)
  · -- two calls with one key and nonce: trace each key back to its extraction
    intro hOne x hx y hy hKey hNonce
    obtain ⟨a, ha, hxa⟩ := mem_flatMap.mp hx
    obtain ⟨b, hb, hyb⟩ := mem_flatMap.mp hy
    rw [PartyRun.sealed, (hLedger a).sealed] at hxa
    rw [PartyRun.sealed, (hLedger b).sealed] at hyb
    obtain ⟨⟨px, cx⟩, hex, rfl⟩ := mem_map.mp hxa
    obtain ⟨⟨py, cy⟩, hey, rfl⟩ := mem_map.mp hyb
    obtain ⟨qx, hqx, hKeyX, hOwnsX, hEarlyX⟩ := (hLedger a).derived hex
    obtain ⟨qy, hqy, hKeyY, hOwnsY, hEarlyY⟩ := (hLedger b).derived hey
    -- equal keys: one purpose and one extraction
    have hMemX : qx ∈ runs.flatMap PartyRun.extracted := mem_flatMap.mpr ⟨a, ha, hqx⟩
    have hMemY : qy ∈ runs.flatMap PartyRun.extracted := mem_flatMap.mpr ⟨b, hb, hqy⟩
    obtain ⟨hCk, rfl⟩ := hIdeal.expand qx hMemX qy hMemY px py
      (hKeyX.symm.trans (hKey.trans hKeyY))
    have hQuery : qx = qy := hIdeal.extract qx hMemX qy hMemY hCk
    subst hQuery
    by_cases hEarly : px = .early
    · -- both early: one extraction, so one pre-shared key
      obtain ⟨p, hp, hq, hPlainX⟩ := hEarlyX hEarly
      obtain ⟨p', hp', hq', hPlainY⟩ := hEarlyY hEarly
      have hSame : p = p' := pskQuery_inj (hq.symm.trans hq')
      subst hSame
      exact hOne a ha b hb p hp hp' _ hPlainX _ hPlainY
    · -- otherwise the key belongs to one run, which uses a nonce once
      have hRun : a = b := hIdeal.eq_of_owns ha hb (hOwnsX hEarly) (hOwnsY hEarly)
      subst hRun
      exact congrArg GcmCall.plaintext ((hLedger a).eq_of_nonce hEarly hex hey hNonce)

end Runs

/-! ## Concrete runs -/

/-- Primitives whose hashes end with the newest data and whose derived keys
show the label's first byte and the chaining key's first bytes. -/
def labelPrimitives : Primitives :=
  { plainPrimitives with
    sm3 := fun b => padTo 32 b.reverse
    hkdfExpand := fun prk info len =>
      padTo len ((info.drop kdfDomain.length).take 1 ++ prk.val.take 15 ++ 0 :: prk.val.take 15) }

def clientConfig : Config plainAuth := ⟨.initiator, (1 : UInt8), [1], some (padTo 32 [7])⟩

def serverConfig : Config plainAuth := ⟨.responder, (2 : UInt8), [2], some (padTo 32 [7])⟩

def clientRun : PartyRun labelPrimitives plainAuth :=
  .ofOps clientConfig
    [.writeMsg1 (3 : UInt8), .sealEarlyData [9], .readMsg2 ([4, 5, 2] ++ replicate 16 0),
      .writeMsg3 (6 : UInt8) (8 : UInt8) none, .send [10], .send [11]] (by decide +kernel)

def serverRun : PartyRun labelPrimitives plainAuth :=
  .ofOps serverConfig
    [.readMsg1 [3], .writeMsg2 (4 : UInt8) (5 : UInt8),
      .readMsg3 ([6, 8, 1] ++ replicate 16 0) none, .send [12]] (by decide +kernel)

/-- A client and its server use six keys and nonces, all different. -/
theorem noReuse_resumption :
    Ideal [clientRun, serverRun] ∧ NoReuse ([clientRun, serverRun].flatMap PartyRun.sealed) := by
  have hIdeal : Ideal [clientRun, serverRun] :=
    ⟨by decide +kernel, by decide +kernel, by decide +kernel⟩
  have hEarly : ∀ a ∈ [clientRun, serverRun], ∀ x ∈ a.earlyData, x = [9] := by decide +kernel
  refine ⟨hIdeal, (noReuse_iff hIdeal).mpr ?_⟩
  intro a ha b hb psk _ _ x hx y hy
  rw [hEarly a ha x hx, hEarly b hb y hy]

def firstAttempt : PartyRun labelPrimitives plainAuth :=
  .ofOps clientConfig [.writeMsg1 (3 : UInt8), .sealEarlyData [9]] (by decide +kernel)

/-- The next attempt with the same ticket: a new ephemeral key and other
early data. -/
def secondAttempt : PartyRun labelPrimitives plainAuth :=
  .ofOps clientConfig [.writeMsg1 (4 : UInt8), .sealEarlyData [10]] (by decide +kernel)

/-- The second attempt encrypts other data under the key and nonce of the first. -/
theorem not_noReuse :
    Ideal [firstAttempt, secondAttempt] ∧
      ¬ NoReuse ([firstAttempt, secondAttempt].flatMap PartyRun.sealed) :=
  ⟨⟨by decide +kernel, by decide +kernel, by decide +kernel⟩, by decide +kernel⟩

end DirectWire.GmPq
