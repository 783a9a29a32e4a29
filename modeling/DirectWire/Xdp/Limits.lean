import DirectWire.Xdp.Admission

/-!
# XDP edge — what the rate limiter lets through

The `f64` of the token buckets read as the numbers of an ordered field. `Paced` is what holds of a
bucket after any calls in the order of time: what it has let through since a point in time, with
the tokens it has left, is paid for by a full bucket and the time since then.
-/

namespace DirectWire.Xdp

open Lib Outcome List

def Floats.exact (K : Type) [Field K] [LinearOrder K] : Floats K :=
  ⟨Nat.cast, (· + ·), (· - ·), (· * ·), (· / ·), Min.min, fun a b => a ≤ b, fun a b => a < b⟩

structure Arrival where
  srcIp : UInt32
  now : UInt64
deriving DecidableEq, Repr

abbrev Decision := Arrival × Bool

def RateLimiter.submit {F : Type} (fl : Floats F) (checks : Bool) :
    RateLimiter F → List Arrival → Outcome Empty (RateLimiter F × List Decision) :=
  forEach fun l a => do
    let (l, allowed) ← l.allow fl checks a.srcIp a.now
    ok (l, [(a, allowed)])

variable {K : Type} [Field K] [LinearOrder K]

/-- How many packets were let through from `lo` to `hi`, in nanoseconds. -/
def allowedIn (lo hi : K) (log : List Decision) : Nat :=
  log.countP fun d => d.2 && decide (lo ≤ d.1.now.toNat ∧ d.1.now.toNat ≤ hi)

theorem allowedIn_concat (lo hi : K) (log : List Decision) (a : Arrival) (allowed : Bool) :
    allowedIn lo hi (log ++ [(a, allowed)]) = allowedIn lo hi log +
      if allowed = true ∧ lo ≤ a.now.toNat ∧ (a.now.toNat : K) ≤ hi then 1 else 0 := by
  simp [allowedIn, countP_append, countP_singleton]

/-! ## One bucket -/

namespace TokenBucket

def serve (b : TokenBucket K) : List Arrival → TokenBucket K × List Decision
  | [] => (b, [])
  | a :: rest =>
    let r := serve (b.allow (.exact K) a.now).1 rest
    (r.1, (a, (b.allow (.exact K) a.now).2) :: r.2)

structure Paced (rate burst : K) (b : TokenBucket K) (log : List Decision) : Prop where
  ratePerNs : b.ratePerNs = rate / 1000000000
  burst_eq : b.burst = burst
  tokens_nonneg : 0 ≤ b.tokens
  tokens_le : b.tokens ≤ burst
  last_le : ∀ t, (∀ d ∈ log, d.1.now ≤ t) → b.lastRefillNs ≤ t
  before : ∀ lo hi : K, (b.lastRefillNs.toNat : K) < lo → allowedIn lo hi log = 0
  within : ∀ lo hi : K, lo ≤ b.lastRefillNs.toNat → (b.lastRefillNs.toNat : K) ≤ hi →
    allowedIn lo hi log + b.tokens ≤ burst + rate / 1000000000 * (b.lastRefillNs.toNat - lo)
  window : ∀ lo hi : K, lo ≤ hi → allowedIn lo hi log ≤ burst + rate / 1000000000 * (hi - lo)
  refused : ∀ a, log.getLast? = some (a, false) → b.tokens < 1

variable [IsStrictOrderedRing K] {rate burst : K} {b : TokenBucket K} {log : List Decision}

section

variable (h : Paced rate burst b log)

include h

theorem refill_spec {now} (hRate : 0 < rate) (hNow : b.lastRefillNs ≤ now) : ∃ tokens : K,
      b.refill (.exact K) now = { b with tokens, lastRefillNs := now } ∧ 0 ≤ tokens ∧
      tokens ≤ burst ∧
      tokens ≤ b.tokens + rate / 1000000000 * (now.toNat - b.lastRefillNs.toNat) := by
  have hPerNs : 0 ≤ rate / 1000000000 := by positivity
  unfold refill
  split
  · rename_i hLt
    have hElapsed : ((now - b.lastRefillNs).toNat : K) = now.toNat - b.lastRefillNs.toNat := by
      rw [UInt64.toNat_sub_of_le _ _ hNow, Nat.cast_sub (UInt64.le_iff_toNat_le.mp hNow)]
    refine ⟨_, rfl, le_min ?_ ?_, ?_, ?_⟩
    · exact add_nonneg h.tokens_nonneg (mul_nonneg (Nat.cast_nonneg _) (h.ratePerNs ▸ hPerNs))
    · exact h.burst_eq ▸ h.tokens_nonneg.trans h.tokens_le
    · exact (min_le_right ..).trans h.burst_eq.le
    · refine (min_le_left ..).trans_eq ?_
      show b.tokens + ((now - b.lastRefillNs).toNat : K) * b.ratePerNs = _
      rw [hElapsed, h.ratePerNs, mul_comm]
  · -- the clock has not moved
    rename_i hLe
    obtain rfl : b.lastRefillNs = now := UInt64.le_antisymm hNow (UInt64.not_lt.mp hLe)
    exact ⟨b.tokens, rfl, h.tokens_nonneg, h.tokens_le, by simp⟩

/-- A packet that is let through takes the token it is counted for. -/
theorem allow_spec {now : UInt64} (hRate : 0 < rate) (hNow : b.lastRefillNs ≤ now) :
    ∃ (tokens : K) (allowed : Bool) (left : K),
      b.allow (.exact K) now = ({ b with tokens := left, lastRefillNs := now }, allowed) ∧
      0 ≤ left ∧ left + (if allowed = true then 1 else 0) = tokens ∧ (allowed = false → left < 1) ∧
      tokens ≤ burst ∧
      tokens ≤ b.tokens + rate / 1000000000 * (now.toNat - b.lastRefillNs.toNat) := by
  obtain ⟨tokens, hRefill, hNonneg, hBounds⟩ := refill_spec h hRate hNow
  unfold TokenBucket.allow
  rw [hRefill]
  by_cases hToken : 1 ≤ tokens
  · refine ⟨tokens, true, tokens - 1, ?_, sub_nonneg.mpr hToken, by simp, nofun, hBounds⟩
    simp [Floats.exact, hToken]
  · refine ⟨tokens, false, tokens, ?_, hNonneg, by simp, fun _ => not_le.mp hToken, hBounds⟩
    simp [Floats.exact, hToken]

theorem Paced.allow {a} (hRate : 0 < rate) (hNow : ∀ d ∈ log, d.1.now ≤ a.now) :
    Paced rate burst (b.allow (.exact K) a.now).1 (log ++ [(a, (b.allow (.exact K) a.now).2)]) := by
  have hPerNs : 0 ≤ rate / 1000000000 := by positivity
  have hLast : (b.lastRefillNs.toNat : K) ≤ a.now.toNat :=
    Nat.cast_le.mpr (UInt64.le_iff_toNat_le.mp (h.last_le _ hNow))
  obtain ⟨tokens, allowed, left, hAllow, hLeft, hPaid, hRefused, hLe, hEarned⟩ :=
    allow_spec h hRate (h.last_le _ hNow)
  rw [hAllow]
  have hTake : left ≤ tokens := by
    split at hPaid <;> linarith
  have hWithin : ∀ lo hi : K, lo ≤ a.now.toNat → (a.now.toNat : K) ≤ hi →
      allowedIn lo hi (log ++ [(a, allowed)]) + left ≤
        burst + rate / 1000000000 * (a.now.toNat - lo) := by
    intro lo hi hLo hHi
    have hSum : (allowedIn lo hi (log ++ [(a, allowed)]) : K) + left =
        allowedIn lo hi log + tokens := by
      rw [allowedIn_concat, ← hPaid]
      simp only [hLo, hHi, and_true]
      push_cast
      ring
    rw [hSum]
    by_cases hBefore : (b.lastRefillNs.toNat : K) < lo
    · rw [h.before lo hi hBefore, Nat.cast_zero, zero_add]
      have := mul_nonneg hPerNs (sub_nonneg.mpr hLo)
      linarith
    · have := h.within lo hi (not_lt.mp hBefore) (hLast.trans hHi)
      linarith
  refine ⟨h.ratePerNs, h.burst_eq, hLeft, hTake.trans hLe, ?_, ?_, hWithin, ?_, ?_⟩
  · exact fun t ht => ht (a, allowed) (mem_append_right _ (mem_singleton_self _))
  · intro lo hi hLo
    rw [allowedIn_concat, h.before lo hi (hLast.trans_lt hLo), if_neg fun hIn => hIn.2.1.not_gt hLo]
  · intro lo hi hLoHi
    by_cases hIn : lo ≤ a.now.toNat ∧ (a.now.toNat : K) ≤ hi
    · have hSum := hWithin lo hi hIn.1 hIn.2
      have := mul_le_mul_of_nonneg_left (sub_le_sub_right hIn.2 lo) hPerNs
      linarith
    · rw [allowedIn_concat, if_neg fun h => hIn h.2]
      exact h.window lo hi hLoHi
  · intro a' ha'
    rw [getLast?_concat, Option.some_inj, Prod.mk.injEq] at ha'
    exact hRefused ha'.2

theorem Paced.serve {calls} (hRate : 0 < rate) (hTimes : calls.Pairwise (·.now ≤ ·.now))
    (hNow : ∀ d ∈ log, ∀ a ∈ calls, d.1.now ≤ a.now) :
    Paced rate burst (b.serve calls).1 (log ++ (b.serve calls).2) := by
  induction calls generalizing b log with
  | nil =>
    rw [TokenBucket.serve, append_nil]
    exact h
  | cons a calls ih =>
    obtain ⟨hFirst, hRest⟩ := pairwise_cons.mp hTimes
    have hStep := h.allow hRate fun d hd => hNow d hd a mem_cons_self
    rw [TokenBucket.serve, append_cons]
    refine ih hStep hRest (forall_mem_append.mpr ⟨?_, ?_⟩)
    · exact fun d hd a' ha' => hNow d hd a' (mem_cons_of_mem _ ha')
    · exact forall_mem_singleton.mpr hFirst

end

end TokenBucket

/-! ## The limiter -/

namespace RateLimiter

variable [IsStrictOrderedRing K] {l : RateLimiter K} {calls : List Arrival}
  {sources : Finset UInt32} (checks : Bool)

/-- The bucket a source has, or will be given. -/
def held (l : RateLimiter K) (src : UInt32) : TokenBucket K :=
  (l.buckets.lookup src).getD ⟨l.rate / 1000000000, l.burst, l.burst, 0⟩

/-- The limiter has room for the sources. -/
structure Room (sources : Finset UInt32) (l : RateLimiter K) : Prop where
  rate : 0 < l.rate
  burst : 1 ≤ l.burst
  known : l.buckets.All fun src _ => src ∈ sources
  card_le : sources.card ≤ l.maxEntries

theorem allow_spec {a : Arrival} (h : Room sources l) (hSrc : a.srcIp ∈ sources) :
    ∃ l', l.allow (.exact K) checks a.srcIp a.now =
        ok (l', ((l.held a.srcIp).allow (.exact K) a.now).2) ∧ Room sources l' ∧
      l'.held = Function.update l.held a.srcIp ((l.held a.srcIp).allow (.exact K) a.now).1 := by
  have hHeld : ∀ b, ({ l with buckets := l.buckets.insert a.srcIp b } : RateLimiter K).held =
      Function.update l.held a.srcIp b := by
    intro b
    funext src
    rw [held, Map.lookup_insert_ite, Function.update_apply]
    split <;> rfl
  refine ⟨{ l with buckets := l.buckets.insert a.srcIp _ }, ?_,
    ⟨h.rate, h.burst, h.known.insert hSrc, h.card_le⟩, hHeld _⟩
  unfold allow held
  cases hLookup : l.buckets.lookup a.srcIp with
  | some b => rfl
  | none =>
    have hSize := Map.size_lt_card h.known hSrc hLookup
    have hNew : TokenBucket.new (.exact K) l.rate l.burst =
        ok ⟨l.rate / 1000000000, l.burst, l.burst, 0⟩ := by
      simp [TokenBucket.new, Floats.exact, h.rate, h.burst]
    rw [if_neg (by have := h.card_le; omega), hNew]
    rfl

end RateLimiter

end DirectWire.Xdp
