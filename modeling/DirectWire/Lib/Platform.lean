import DirectWire.Lib.Outcome

/-!
# Clock readings and socket addresses

`Instant` and `Duration` are in nanoseconds. A difference of instants saturates at zero; the sum
of an instant and a duration panics when it does not fit the signed 64-bit count of seconds.
`rank` lists the addresses in the order of their derived `Ord`.
-/

namespace DirectWire.Lib

open Outcome

instance linearOrderUInt64 : LinearOrder UInt64 where
  __ := (inferInstance : LE UInt64)
  __ := (inferInstance : LT UInt64)
  le_refl := UInt64.le_refl
  le_trans _ _ _ := UInt64.le_trans
  le_antisymm _ _ := UInt64.le_antisymm
  le_total := UInt64.le_total
  lt_iff_le_not_ge a b := by
    rw [UInt64.not_le]
    exact ⟨fun h => ⟨UInt64.le_of_lt h, h⟩, fun h => h.2⟩
  toDecidableLE := inferInstance
  toDecidableLT := inferInstance
  toDecidableEq := inferInstance

abbrev Instant := Int

abbrev Duration := Nat

/-- `now.duration_since(t)`: zero when `t` is later than `now`. -/
def durationSince (now t : Instant) : Duration := (now - t).toNat

/-- The last representable instant: `i64::MAX` seconds and 999 999 999 ns. -/
def instantMax : Instant := (2 ^ 63 - 1) * 10 ^ 9 + 999999999

/-- `t + d`. -/
def addInstant {ε : Type} (t : Instant) (d : Duration) : Outcome ε Instant :=
  if t + d ≤ instantMax then ok (t + d) else panic .overflow

@[simp] theorem noPanic_addInstant {ε : Type} {t : Instant} {d : Duration} :
    (addInstant t d : Outcome ε _).NoPanic ↔ t + d ≤ instantMax := by
  unfold addInstant
  split <;> simp_all

/-- `t - d`, which panics below the first instant the target can represent:
`i64::MIN` seconds on Unix, the start of the clock elsewhere. -/
def subInstant {ε : Type} (earliest t : Instant) (d : Duration) : Outcome ε Instant :=
  if earliest ≤ t - d then ok (t - d) else panic .overflow

@[simp] theorem noPanic_subInstant {ε : Type} {earliest t : Instant} {d : Duration} :
    (subInstant earliest t d : Outcome ε _).NoPanic ↔ earliest ≤ t - d := by
  unfold subInstant
  split <;> simp_all

def second : Duration := 10 ^ 9

def Duration.millis (d : Duration) : ℚ := d / 10 ^ 6

inductive SocketAddr where
  | v4 (ip : UInt32) (port : UInt16)
  | v6 (ip : BitVec 128) (port : UInt16) (flowinfo scopeId : UInt32)
deriving DecidableEq, Repr

/-- Position in the address order: IPv4 before IPv6, then field by field. -/
def SocketAddr.rank : SocketAddr → Nat
  | v4 ip port => ip.toNat * 2 ^ 16 + port.toNat
  | v6 ip port flowinfo scopeId =>
    2 ^ 48 + ((ip.toNat * 2 ^ 16 + port.toNat) * 2 ^ 32 + flowinfo.toNat) * 2 ^ 32 +
      scopeId.toNat

end DirectWire.Lib
