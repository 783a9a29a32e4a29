import DirectWire.Xdp.Kernel

/-!
# XDP edge — the checksum and the token bucket

`ip_checksum` returns the number that its two bytes are in network order, and it is stored as it
is; what is earned at the rate is shifted by 16 bits once more.
-/

namespace DirectWire.Xdp.Kernel

open Lib List Edge

/-! ## The checksum -/

def words (header : Bytes) : List Nat :=
  (range 10).map fun i => (header.getD (2 * i) 0).toNat * 256 + (header.getD (2 * i + 1) 0).toNat

/-- One's-complement addition of 16-bit words: the carry is added at the other end. -/
def onesAdd (a w : Nat) : Nat := (a + w) % 0x10000 + (a + w) / 0x10000

theorem onesAdd_spec (a w : Nat) :
    onesAdd a w % 0xffff = (a + w) % 0xffff ∧ (onesAdd a w = 0 → a + w = 0) := by
  unfold onesAdd
  omega

theorem foldl_onesAdd {ws : List Nat} (hWs : ∀ w ∈ ws, w ≤ 0xffff) {a : Nat} (ha : a ≤ 0xffff) :
    ws.foldl onesAdd a ≤ 0xffff ∧ ws.foldl onesAdd a % 0xffff = (a + ws.sum) % 0xffff ∧
      (ws.foldl onesAdd a = 0 → a + ws.sum = 0) := by
  induction ws generalizing a with
  | nil => simpa using ha
  | cons w ws ih =>
    have hw := hWs w mem_cons_self
    obtain ⟨hLe, hMod, hZero⟩ := ih (fun w hw => hWs w (mem_cons_of_mem _ hw))
      (a := onesAdd a w) (by unfold onesAdd; omega)
    have hAdd := onesAdd_spec a w
    rw [foldl_cons, sum_cons]
    omega

theorem words_le (header : Bytes) : ∀ w ∈ words header, w ≤ 0xffff := by
  intro w hw
  obtain ⟨i, -, rfl⟩ := mem_map.mp hw
  have hHigh := (header.getD (2 * i) 0).toNat_lt
  have hLow := (header.getD (2 * i + 1) 0).toNat_lt
  omega

theorem sum_words_bytes (o : OuterHeader) : (words o.bytes).sum =
    (words { o with check := 0 }.bytes).sum +
      (o.check.toNat % 256 * 256 + o.check.toNat / 256) := by
  have hCheck := o.check.toNat_lt
  simp [words, OuterHeader.bytes, leBytes, beBytes, range_succ]
  omega

theorem sum_words_bounds (o : OuterHeader) :
    0 < (words o.bytes).sum ∧ (words o.bytes).sum ≤ 10 * 0xffff := by
  constructor
  · simp [words, OuterHeader.bytes, leBytes, beBytes, range_succ]
  · simpa [words] using sum_le_card_nsmul (words o.bytes) _ (words_le o.bytes)

theorem ipChecksum_spec (o : OuterHeader) : (ipChecksum o.bytes).toNat ≤ 0xffff ∧
    0xffff ∣ (ipChecksum o.bytes).toNat + (words o.bytes).sum := by
  obtain ⟨hPos, hMost⟩ := sum_words_bounds o
  have hDef : (ipChecksum o.bytes).toNat =
      0xffff - onesAdd (onesAdd 0 (words o.bytes).sum) 0 % 0x10000 := by
    rw [ipChecksum, UInt16.toNat_not, UInt16.toNat_ofNat']
    simp [onesAdd, words]
  have hFirst := onesAdd_spec 0 (words o.bytes).sum
  have hSecond := onesAdd_spec (onesAdd 0 (words o.bytes).sum) 0
  have hFolded : onesAdd 0 (words o.bytes).sum ≤ 0xffff + 9 := by unfold onesAdd; omega
  have hLess : onesAdd (onesAdd 0 (words o.bytes).sum) 0 ≤ 0xffff := by
    generalize onesAdd 0 (words o.bytes).sum = a at hFolded
    unfold onesAdd
    omega
  omega

/-- **The stored checksum is valid for one sum in 257.** The outer header of a packet that is sent
(`h`) is valid exactly if 257 divides the sum of its words without the checksum, since the bytes of
the check field are in the order of the host. -/
theorem checksum_valid_iff {env : Env} {frame : Frame} {be : BackendInfo} {m : Maps}
    {sent : Encapsulated} (h : (m.ipipEncapTx env frame be).2 = .tx sent) :
    (words sent.outer.bytes).foldl onesAdd 0 = 0xffff ↔
      257 ∣ (words (OuterHeader.bytes
        ⟨frame.tos, frame.totLen + 20, m.config.gatewayIp, be.ip, 0⟩)).sum := by
  obtain ⟨hLe, hMod, hZero⟩ := foldl_onesAdd (words_le sent.outer.bytes) (Nat.zero_le _)
  have hTotal := sum_words_bytes sent.outer
  unfold Maps.ipipEncapTx at h
  split at h
  · cases h
  split at h
  · cases h
  split at h
  · cases h
  cases h
  dsimp only at hTotal hMod hZero hLe ⊢
  obtain ⟨hCheck, hDvd⟩ := ipChecksum_spec
    ⟨frame.tos, frame.totLen + 20, m.config.gatewayIp, be.ip, 0⟩
  have hPos := (sum_words_bounds
    ⟨frame.tos, frame.totLen + 20, m.config.gatewayIp, be.ip, 0⟩).1
  omega

theorem checksum_valid_iff_35 : ∃ sent, ((Maps.boot plainConfig).ipipEncapTx calmEnv
      { udpFrame with totLen := 35 } ⟨20, 1⟩).2 = .tx sent ∧
    (words sent.outer.bytes).foldl onesAdd 0 = 0xffff := by
  have hSent : ((Maps.boot plainConfig).ipipEncapTx calmEnv { udpFrame with totLen := 35 }
    ⟨20, 1⟩).2 = .tx _ := rfl
  exact ⟨_, hSent, (checksum_valid_iff hSent).mpr (by decide +kernel)⟩

/-- The words add up to `0xf50a`. -/
theorem checksum_swapped : ∃ sent,
    ((Maps.boot plainConfig).ipipEncapTx calmEnv udpFrame ⟨20, 1⟩).2 = .tx sent ∧
    (words sent.outer.bytes).foldl onesAdd 0 ≠ 0xffff :=
  ⟨_, rfl, by decide +kernel⟩

/-! ## The token bucket -/

def Maps.admitted (saddr : UInt32) : Maps → List Env → List Bool
  | _, [] => []
  | m, env :: envs =>
    (m.rateLimit env saddr).2 :: admitted saddr (m.rateLimit env saddr).1 envs

structure ExactBucket where
  units : Nat
  lastNs : Nat
deriving DecidableEq

/-- The bucket the configuration stands for: a token is `2 ^ 16` units. -/
def ExactBucket.allow (rate burst : Nat) (b : ExactBucket) (now : Nat) : ExactBucket × Bool :=
  let units := min burst (b.units + (now - b.lastNs) * rate)
  if 2 ^ 16 ≤ units then (⟨units - 2 ^ 16, now⟩, true) else (⟨units, now⟩, false)

def ExactBucket.admitted (rate burst : Nat) : ExactBucket → List Nat → List Bool
  | _, [] => []
  | b, now :: times =>
    (b.allow rate burst now).2 :: admitted rate burst (b.allow rate burst now).1 times

/-- At each packet nothing has been earned since the last one, or the bucket is full even with the
`2 ^ 16`th part of it; and the sums fit in 64 bits. -/
def ExactBucket.Spaced (rate burst : Nat) : ExactBucket → List Nat → Prop
  | _, [] => True
  | b, now :: times =>
    let earned := (now - b.lastNs) * rate
    (b.lastNs ≤ now ∧ now - b.lastNs < 2 ^ 63 ∧ earned < 2 ^ 64 ∧
      b.units + earned / 2 ^ 16 < 2 ^ 64 ∧ (earned = 0 ∨ burst ≤ b.units + earned / 2 ^ 16)) ∧
    Spaced rate burst (b.allow rate burst now).1 times

structure Shows (burst : Nat) (tb : TokenBucket) (b : ExactBucket) : Prop where
  units : tb.tokens.toNat = b.units
  lastNs : tb.lastNs.toNat = b.lastNs
  units_le : b.units ≤ burst

variable {tb : TokenBucket} {b : ExactBucket} {rate burst now : UInt64}

theorem Shows.allow {times} (h : Shows burst.toNat tb b)
    (hSpaced : b.Spaced rate.toNat burst.toNat (now.toNat :: times)) :
    (rateAllow tb now rate burst).2 = (b.allow rate.toNat burst.toNat now.toNat).2 ∧
      Shows burst.toNat (rateAllow tb now rate burst).1
        (b.allow rate.toNat burst.toNat now.toNat).1 := by
  obtain ⟨hUnits, hLast, hLe⟩ := h
  obtain ⟨⟨hOrder, hPause, hFits, hNoWrap, hEarned⟩, -⟩ := hSpaced
  rw [← hLast] at hOrder hPause hFits hNoWrap hEarned
  have hBefore : tb.lastNs ≤ now := UInt64.le_iff_toNat_le.mpr hOrder
  have hElapsed := UInt64.toNat_sub_of_le _ _ hBefore
  rw [ExactBucket.allow, ← hLast]
  have hShift : (((now - tb.lastNs) * rate) >>> 16).toNat =
      (now.toNat - tb.lastNs.toNat) * rate.toNat / 2 ^ 16 := by
    rw [UInt64.toNat_shiftRight, UInt64.toNat_mul, hElapsed, Nat.mod_eq_of_lt hFits]
    exact Nat.shiftRight_eq_div_pow _ 16
  have hSum : (tb.tokens + ((now - tb.lastNs) * rate) >>> 16).toNat =
      b.units + (now.toNat - tb.lastNs.toNat) * rate.toNat / 2 ^ 16 := by
    rw [UInt64.toNat_add, hShift, hUnits]
    exact Nat.mod_eq_of_lt hNoWrap
  -- the bucket as it is when a token is asked for
  obtain ⟨tb₁, hRefill, hTokens, hNow⟩ : ∃ tb₁ : TokenBucket, rateAllow tb now rate burst =
      (if tokOne ≤ tb₁.tokens then ({ tb₁ with tokens := tb₁.tokens - tokOne }, true)
        else (tb₁, false)) ∧ tb₁.tokens.toNat =
          min burst.toNat (b.units + (now.toNat - tb.lastNs.toNat) * rate.toNat) ∧
        tb₁.lastNs = now := by
    refine ⟨_, rfl, ?_⟩
    split
    · refine ⟨?_, rfl⟩
      dsimp only
      generalize (now.toNat - tb.lastNs.toNat) * rate.toNat = earned at *
      split <;> rename_i hCap <;> rw [UInt64.lt_iff_toNat_lt, hSum] at hCap
      · omega
      · rw [hSum]
        omega
    · rename_i hStill
      rw [UInt64.lt_iff_toNat_lt, UInt64.lt_iff_toNat_lt, hElapsed] at hStill
      have hSame : now.toNat - tb.lastNs.toNat = 0 := by
        change ¬ (0 < _ ∧ _ < 2 ^ 63) at hStill
        omega
      rw [hSame, Nat.zero_mul, hUnits]
      exact ⟨by omega, UInt64.toNat_inj.mp (by omega)⟩
  have hToken : tokOne ≤ tb₁.tokens ↔ 2 ^ 16 ≤ tb₁.tokens.toNat := UInt64.le_iff_toNat_le
  have hMost : tb₁.tokens.toNat ≤ burst.toNat := hTokens ▸ min_le_left ..
  rw [hRefill, ← hTokens]
  by_cases hEnough : tokOne ≤ tb₁.tokens
  · rw [if_pos hEnough, if_pos (hToken.mp hEnough)]
    refine ⟨rfl, UInt64.toNat_sub_of_le _ _ hEnough, congrArg _ hNow, ?_⟩
    exact (Nat.sub_le ..).trans hMost
  · rw [if_neg hEnough, if_neg (mt hToken.mpr hEnough)]
    exact ⟨rfl, rfl, congrArg _ hNow, hMost⟩

/-! ## Packets of one source -/

variable {env : Env} {saddr : UInt32} {m : Maps}

/-- A packet of a source that has a bucket is a call of `rate_allow`. -/
theorem rateLimit_bucket (h : (m.rateSource env saddr).ratelimit.lookup saddr = some tb) :
    (m.rateLimit env saddr).2 = (rateAllow tb env.nowNs (m.rateSource env saddr).config.ratePerNsFp
        (m.rateSource env saddr).config.rateBurst).2 ∧
      (m.rateLimit env saddr).1.ratelimit.lookup saddr =
        some (rateAllow tb env.nowNs (m.rateSource env saddr).config.ratePerNsFp
          (m.rateSource env saddr).config.rateBurst).1 ∧
      (m.rateLimit env saddr).1.config = (m.rateSource env saddr).config := by
  unfold Maps.rateLimit
  dsimp only
  rw [h]
  dsimp only
  split
  · exact ⟨Eq.symm ‹_›, AList.lookup_insert _, rfl⟩
  · exact ⟨(Bool.eq_false_iff.mpr ‹_›).symm, AList.lookup_insert _, rfl⟩

theorem admitted_cons {envs cfg} (h : (m.rateSource env saddr).ratelimit.lookup saddr = some tb)
    (hConfig : (m.rateSource env saddr).config = cfg) (hShows : Shows cfg.rateBurst.toNat tb b)
    (hSpaced : b.Spaced cfg.ratePerNsFp.toNat cfg.rateBurst.toNat
      ((env :: envs).map fun env => env.nowNs.toNat)) :
    m.admitted saddr (env :: envs) = b.admitted cfg.ratePerNsFp.toNat cfg.rateBurst.toNat
      ((env :: envs).map fun env => env.nowNs.toNat) := by
  induction envs generalizing m tb b env with
  | nil =>
    obtain ⟨hAllow, -⟩ := hShows.allow hSpaced
    rw [Maps.admitted, (rateLimit_bucket h).1, hConfig, hAllow]
    rfl
  | cons next envs ih =>
    obtain ⟨hAllow, hShows'⟩ := hShows.allow hSpaced
    obtain ⟨hSaid, hBucket, hKeeps⟩ := rateLimit_bucket h
    rw [hConfig] at hSaid hBucket hKeeps
    have hSource : (m.rateLimit env saddr).1.rateSource next saddr = (m.rateLimit env saddr).1 := by
      rw [Maps.rateSource, hBucket]
    rw [Maps.admitted, map_cons, ExactBucket.admitted, hSaid, hAllow, ih (by rw [hSource, hBucket])
      (by rw [hSource, hKeeps]) hShows' hSpaced.2]

/-- **The rate limit is the exact bucket for long pauses.** The source is new (`hNew`), the map
takes its entry (`hKept`), and its packets are `Spaced` for the exact bucket, which starts full.
Then each of them is admitted exactly if the exact bucket admits it. -/
theorem admits_exactly {envs : List Env} (hNew : m.ratelimit.lookup saddr = none)
    (hKept : keeps env.rateUpdate saddr saddr = true)
    (hSpaced : ExactBucket.Spaced m.config.ratePerNsFp.toNat m.config.rateBurst.toNat
      ⟨m.config.rateBurst.toNat, env.nowNs.toNat⟩
      ((env :: envs).map fun env => env.nowNs.toNat)) :
    m.admitted saddr (env :: envs) =
      ExactBucket.admitted m.config.ratePerNsFp.toNat m.config.rateBurst.toNat
        ⟨m.config.rateBurst.toNat, env.nowNs.toNat⟩
        ((env :: envs).map fun env => env.nowNs.toNat) := by
  obtain ⟨hSource, hConfig⟩ := Maps.rateSource_spec (m := m) hKept
  rw [hNew, Option.getD_none] at hSource
  exact admitted_cons hSource hConfig ⟨rfl, rfl, le_rfl⟩ hSpaced

theorem admits_exactly_paused : ((Maps.boot ⟨1, 0x10000, 0, 0, 0, 99, 7⟩).admitted 3
      [calmEnv, { calmEnv with nowNs := 0x100000005 }]) =
    ExactBucket.admitted 1 0x10000 ⟨0x10000, 5⟩ [5, 0x100000005] :=
  admits_exactly rfl rfl (by
    simp only [map_cons, map_nil, ExactBucket.Spaced]
    decide)

/-- After a pause of `2 ^ 16` nanoseconds a token has been earned. -/
theorem earns_too_little : ∃ m : Maps, m = .boot ⟨1, 0x10000, 0, 0, 0, 99, 7⟩ ∧
    m.admitted 3 [calmEnv, { calmEnv with nowNs := 0x10005 }] = [true, false] ∧
    ExactBucket.admitted 1 0x10000 ⟨0x10000, 5⟩ [5, 0x10005] = [true, true] :=
  ⟨_, rfl, by decide +kernel, by decide⟩

end DirectWire.Xdp.Kernel
