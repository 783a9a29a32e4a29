import DirectWire.Lib.Map
import DirectWire.Lib.Outcome

/-!
# XDP edge — rate limit and SYN floods

The two checks of the simulator before a packet gets a backend. The token buckets are computed
with `f64`; `Floats` has the operations that are used, so that nothing depends on how they
round.
-/

namespace DirectWire.Xdp

open Lib Outcome

/-! ## Token buckets -/

/-- The operations on `f64`. -/
structure Floats (F : Type) where
  ofNat : Nat → F
  add : F → F → F
  sub : F → F → F
  mul : F → F → F
  div : F → F → F
  min : F → F → F
  le : F → F → Bool
  lt : F → F → Bool

structure TokenBucket (F : Type) where
  ratePerNs : F
  burst : F
  tokens : F
  lastRefillNs : UInt64

structure RateLimiter (F : Type) where
  buckets : Map UInt32 (TokenBucket F)
  rate : F
  burst : F
  maxEntries : Nat
  /-- New sources that were let through because the map was full. -/
  overflowCount : UInt64

section TokenBuckets

variable {F : Type} (fl : Floats F)

def TokenBucket.new (rate burst : F) : Outcome Empty (TokenBucket F) :=
  if fl.lt (fl.ofNat 0) rate && fl.le (fl.ofNat 1) burst then
    ok ⟨fl.div rate (fl.ofNat 1000000000), burst, burst, 0⟩
  else panic (.expectFailed "assertion failed: rate > 0.0 && burst >= 1.0")

def TokenBucket.refill (b : TokenBucket F) (now : UInt64) : TokenBucket F :=
  if b.lastRefillNs < now then
    let elapsed := fl.ofNat (now - b.lastRefillNs).toNat
    { b with
      tokens := fl.min (fl.add b.tokens (fl.mul elapsed b.ratePerNs)) b.burst
      lastRefillNs := now }
  else b

def TokenBucket.allow (b : TokenBucket F) (now : UInt64) : TokenBucket F × Bool :=
  let b := b.refill fl now
  if fl.le (fl.ofNat 1) b.tokens then ({ b with tokens := fl.sub b.tokens (fl.ofNat 1) }, true)
  else (b, false)

def RateLimiter.new (rate burst : F) (maxEntries : Nat) : RateLimiter F :=
  ⟨∅, rate, burst, maxEntries, 0⟩

def RateLimiter.allow (checks : Bool) (l : RateLimiter F) (srcIp : UInt32) (now : UInt64) :
    Outcome Empty (RateLimiter F × Bool) :=
  match l.buckets.lookup srcIp with
  | some b =>
    let (b, allowed) := b.allow fl now
    ok ({ l with buckets := l.buckets.insert srcIp b }, allowed)
  | none =>
    if l.maxEntries ≤ l.buckets.size then do
      let overflowCount ← addU64 checks l.overflowCount 1
      ok ({ l with overflowCount }, true)
    else do
      let b ← TokenBucket.new fl l.rate l.burst
      let (b, allowed) := b.allow fl now
      ok ({ l with buckets := l.buckets.insert srcIp b }, allowed)

end TokenBuckets

/-! ## SYN floods -/

structure SynWindow where
  syn : UInt32
  ack : UInt32
  startNs : UInt64
  init : Bool
deriving DecidableEq, Repr

structure SynFloodGuard where
  windows : Map UInt32 SynWindow
  windowNs : UInt64
  synThreshold : UInt32
  ackRatio : UInt32
  flaggedSources : UInt64

namespace SynFloodGuard

def new (windowNs : UInt64) (synThreshold ackRatio : UInt32) : SynFloodGuard :=
  ⟨∅, windowNs, synThreshold, ackRatio, 0⟩

def windowAt (g : SynFloodGuard) (srcIp : UInt32) (now : UInt64) : SynWindow :=
  let w := (g.windows.lookup srcIp).getD ⟨0, 0, 0, false⟩
  if !w.init || g.windowNs.toNat ≤ now.toNat - w.startNs.toNat then ⟨0, 0, now, true⟩ else w

/-- `syn >= threshold && syn > ack.saturating_mul(ratio)`. -/
def isFlood (g : SynFloodGuard) (w : SynWindow) : Bool :=
  g.synThreshold ≤ w.syn && min (w.ack.toNat * g.ackRatio.toNat) (2 ^ 32 - 1) < w.syn.toNat

def observe (checks : Bool) (g : SynFloodGuard) (srcIp : UInt32) (isSyn isAck : Bool)
    (now : UInt64) : Outcome Empty (SynFloodGuard × Bool) := do
  let w := g.windowAt srcIp now
  let w ← if isSyn then do ok { w with syn := ← addU32 checks w.syn 1 }
    else if isAck then do ok { w with ack := ← addU32 checks w.ack 1 }
    else ok w
  let flagged := g.isFlood w
  let flaggedSources ← if flagged && w.syn == g.synThreshold then addU64 checks g.flaggedSources 1
    else ok g.flaggedSources
  ok ({ g with windows := g.windows.insert srcIp w, flaggedSources }, flagged)

end SynFloodGuard

end DirectWire.Xdp
