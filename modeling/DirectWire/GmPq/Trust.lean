import DirectWire.GmPq.Crypto
import DirectWire.Lib.Map
import DirectWire.Lib.RollingHash

/-!
# GM-PQ — trust anchors and cookies

`trust.rs`: whether a static key is trusted in a role. `handshake/cookie.rs`: the stateless
challenge a server answers message 1 with; `CookieIssuer.cookie_bound_iff` says what a cookie is
good for.
-/

namespace DirectWire.GmPq

open Lib Outcome

/-! ## Trust anchors -/

inductive Role where
  | initiator
  | responder
deriving DecidableEq, Repr

abbrev TrustAnchor := Role → Bytes → Outcome Error Unit

structure PinFileAnchor where
  pins : Map (Fixed 32) String

namespace PinFileAnchor

variable (P : Primitives)

def lookup (a : PinFileAnchor) (staticPk : Bytes) : Option String :=
  a.pins.lookup (sm3 P [staticPk])

def verify (a : PinFileAnchor) : TrustAnchor := fun _ staticPk =>
  if (a.lookup P staticPk).isSome then ok () else err .peerAuth

end PinFileAnchor

def allowAllAnchor : TrustAnchor := fun _ _ => ok ()

/-! ## Cookies -/

def cookieLen : Nat := 8 + 32

def hmacKeyLabel : Bytes := ascii "gm-pq-stack/cookie/v1"

structure CookieIssuer where
  secret : Fixed 32
  ttlSecs : UInt64

namespace CookieIssuer

variable (P : Primitives) (c : CookieIssuer)

def mac (ts : UInt64) (clientTag ePk : Bytes) : Fixed 32 :=
  P.hmacSm3 (sm3 P [hmacKeyLabel, c.secret.val]).val (beBytes 8 ts.toNat ++ clientTag ++ ePk)

/-- A cookie for one message 1, at the time `now`. -/
def issue (now : UInt64) (clientTag ePk : Bytes) : Bytes :=
  beBytes 8 now.toNat ++ (c.mac P now clientTag ePk).val

def diff (a b : Bytes) : UInt8 := (a.zip b).foldl (fun d (x, y) => d ||| (x ^^^ y)) 0

def verify (checks : Bool) (now : UInt64) (clientTag ePk cookie : Bytes) : Outcome Error Unit := do
  if cookie.length ≠ cookieLen then
    err (.invalidEncoding "invalid cookie length")
  else
    let tsBytes ← sliceArray cookie 0 8
    let ts := UInt64.ofNat (beNat tsBytes.val)
    -- `now + 5` is not saturating
    let latest ← addU64 checks now 5
    -- `now.saturating_sub(ts)`
    let age := now.toNat - ts.toNat
    if ts > latest ∨ age > c.ttlSecs.toNat then
      err (.handshakeState "cookie expired")
    else
      let tag ← sliceFrom cookie 8
      -- every byte is compared, whatever the first difference
      if diff (c.mac P ts clientTag ePk).val tag ≠ 0 then
        err (.handshakeState "cookie verification failed")
      else ok ()

variable {P c}

theorem diff_eq_zero_iff {a b} (h : a.length = b.length) : diff a b = 0 ↔ a = b := by
  -- the fold starts from any byte, for the induction
  have hFold : ∀ d : UInt8, (a.zip b).foldl (fun d (x, y) => d ||| (x ^^^ y)) d = 0 ↔
      d = 0 ∧ a = b := by
    induction a generalizing b with
    | nil => simp [List.length_eq_zero_iff.mp h.symm]
    | cons x a ih =>
      obtain ⟨y, b, rfl⟩ := List.exists_cons_of_length_eq_add_one h.symm
      intro d
      rw [List.zip_cons_cons, List.foldl_cons, ih (Nat.succ.inj h), UInt8.or_eq_zero_iff,
        UInt8.xor_eq_zero_iff, List.cons.injEq, and_assoc]
  exact (hFold 0).trans (and_iff_right rfl)

section Issued

variable {checks : Bool} {now later : UInt64} {t e t' e' : Bytes}

theorem verify_issue : c.verify P checks later t' e' (c.issue P now t e) = (do
    let latest ← addU64 checks later 5
    if now > latest ∨ later.toNat - now.toNat > c.ttlSecs.toNat then
      err (.handshakeState "cookie expired")
    else if c.mac P now t' e' ≠ c.mac P now t e then
      err (.handshakeState "cookie verification failed")
    else ok ()) := by
  have hTs : sliceArray (c.issue P now t e) 0 8 =
      (ok ⟨beBytes 8 now.toNat, beBytes_length _ _⟩ : Outcome Error _) :=
    sliceArray_append (rfl : ([] : Bytes).length = 0) (beBytes_length _ _)
  have hTag : sliceFrom (c.issue P now t e) 8 = (ok (c.mac P now t e).val : Outcome Error _) := by
    rw [sliceFrom_eq_ok]
    exact ⟨by simp [issue], List.drop_left' (beBytes_length _ _)⟩
  have hLen : ¬ (c.issue P now t e).length ≠ cookieLen := by simp [issue, cookieLen]
  have hMac := (c.mac P now t' e').property.trans (c.mac P now t e).property.symm
  simp only [verify, if_neg hLen, hTs, ok_bind, beNat_beBytes (u64_lt_pow now), UInt64.ofNat_toNat,
    hTag, ne_eq, diff_eq_zero_iff hMac, Subtype.val_inj]

/-- **What a cookie is bound to.** `hFree`: HMAC does not collide on what is authenticated for the
two tags and messages. Then every cookie for `t` and `e` that is good for `t'` and `e'` was issued
for them, not more than the TTL ago nor ahead, exactly under two conditions. The pairs are not two
ways to cut the same bytes, since the MAC is over the bytes without their lengths; and where they
are the same, the TTL is not below the 5 s that a cookie may be ahead of the clock. -/
theorem cookie_bound_iff (hFree : ∀ now : UInt64,
      CollisionFree (P.hmacSm3 (sm3 P [hmacKeyLabel, c.secret.val]).val)
        [beBytes 8 now.toNat ++ t ++ e, beBytes 8 now.toNat ++ t' ++ e']) :
    (∀ now later, c.verify P checks later t' e' (c.issue P now t e) = ok () →
      t = t' ∧ e = e' ∧ later.toNat ≤ now.toNat + c.ttlSecs.toNat ∧
        now.toNat ≤ later.toNat + c.ttlSecs.toNat) ↔
    (t ++ e = t' ++ e' → t = t' ∧ 5 ≤ c.ttlSecs.toNat) := by
  constructor
  · intro hBound hSame
    -- a cookie of 5 s ahead, at time 0
    have hOk : c.verify P checks 0 t' e' (c.issue P 5 t e) = ok () := by
      have hMac : c.mac P 5 t' e' = c.mac P 5 t e := by
        rw [mac, mac, List.append_assoc, List.append_assoc, hSame]
      rw [verify_issue, hMac, addU64_of_lt (by decide), ok_bind]
      simp
    obtain ⟨hTag, -, -, hAhead⟩ := hBound 5 0 hOk
    exact ⟨hTag, by simpa using hAhead⟩
  · intro hApart now later hOk
    rw [verify_issue] at hOk
    obtain ⟨latest, hLatest, hOk⟩ := bind_eq_ok.mp hOk
    split at hOk
    · cases hOk
    split at hOk
    · cases hOk
    rename_i hFresh hMac
    have hBytes := hFree now _ (.tail _ (.head _)) _ (.head _) (not_not.mp hMac)
    rw [List.append_assoc, List.append_assoc, List.append_cancel_left_eq] at hBytes
    obtain ⟨rfl, hTtl⟩ := hApart hBytes.symm
    refine ⟨rfl, (List.append_cancel_left hBytes).symm, by omega, ?_⟩
    -- where `later + 5` has wrapped around, it is below `later`
    have hAhead : now.toNat ≤ latest.toNat := Nat.le_of_not_lt fun h => hFresh (.inl h)
    have hSum : latest.toNat = (later.toNat + 5) % 2 ^ 64 := by
      rw [addU64_eq_ok hLatest, UInt64.toNat_add]
      rfl
    have hLater := later.toNat_lt
    omega

theorem cookie_bound_iff_one : verify plainPrimitives ⟨padTo 32 [], 30⟩ true 20 [1] [2]
    (issue plainPrimitives ⟨padTo 32 [], 30⟩ 7 [1] [2]) = ok () ∧
      (20 : UInt64).toNat ≤ (7 : UInt64).toNat + (30 : UInt64).toNat := by
  have hOk : verify plainPrimitives ⟨padTo 32 [], 30⟩ true 20 [1] [2]
      (issue plainPrimitives ⟨padTo 32 [], 30⟩ 7 [1] [2]) = ok () := by decide +kernel
  have hBound := (cookie_bound_iff fun _ => by simp [CollisionFree]).mpr
    (fun _ => ⟨rfl, by decide⟩) 7 20 hOk
  exact ⟨hOk, hBound.2.2.1⟩

/-- The tag takes a byte of the message. -/
theorem cookie_moves : (⟨padTo 32 [], 30⟩ : CookieIssuer).verify plainPrimitives true 7 [1, 2] []
    (issue plainPrimitives ⟨padTo 32 [], 30⟩ 7 [1] [2]) = ok () := by
  decide +kernel

end Issued

theorem noPanic_verify {checks : Bool} {now : UInt64} (clientTag ePk cookie : Bytes)
    (hClock : now.toNat + 5 < 2 ^ 64) : (c.verify P checks now clientTag ePk cookie).NoPanic := by
  unfold verify
  split
  · exact noPanic_err _
  · rename_i hLen
    have hLen : cookie.length = 40 := not_not.mp hLen
    rw [noPanic_bind, noPanic_sliceArray]
    refine ⟨by omega, fun tsBytes _ => ?_⟩
    rw [addU64_of_lt (show now.toNat + (5 : UInt64).toNat < 2 ^ 64 from hClock), ok_bind]
    dsimp only
    split
    · exact noPanic_err _
    · rw [noPanic_bind, noPanic_sliceFrom]
      refine ⟨by omega, fun tag _ => ?_⟩
      split
      · exact noPanic_err _
      · exact noPanic_ok _

end CookieIssuer

end DirectWire.GmPq
