import DirectWire.Lib.Outcome

/-!
# Byte strings and fixed-width integers

`Fixed n` is a string of exactly `n` bytes (`[u8; n]`). `leBytes` / `leNat` and `beBytes` /
`beNat` are the codecs for an integer of a fixed number of bytes.

* `fromUtf8_utf8`, `utf8_of_fromUtf8` — texts and their bytes;
* `leNat_leBytes`, `beNat_beBytes` — reading back what was written.
-/

namespace DirectWire.Lib

open Outcome List

abbrev Bytes := List UInt8

def ascii (s : String) : Bytes := s.toList.map fun c => UInt8.ofNat c.toNat

/-- A byte string of exactly `n` bytes. -/
abbrev Fixed (n : Nat) := { b : Bytes // b.length = n }

namespace Fixed

variable {n : Nat}

@[simp] theorem length_val (b : Fixed n) : b.val.length = n := b.property

/-- `xs.try_into().unwrap()` into an array. -/
def ofBytes {ε : Type} (n : Nat) (b : Bytes) : Outcome ε (Fixed n) :=
  if h : b.length = n then ok ⟨b, h⟩ else panic .unwrapNone

@[simp] theorem noPanic_ofBytes {ε : Type} {b : Bytes} :
    (ofBytes n b : Outcome ε _).NoPanic ↔ b.length = n := by
  unfold ofBytes
  split <;> simp_all

end Fixed

/-- `xs[start..start + n].try_into().unwrap()` into an array. -/
def sliceArray {ε : Type} (xs : Bytes) (start n : Nat) : Outcome ε (Fixed n) :=
  if h : start + n ≤ xs.length then
    ok ⟨(xs.drop start).take n, by rw [length_take, length_drop]; omega⟩
  else panic .outOfRange

variable {n start : Nat} {xs : Bytes} {ε : Type}

@[simp] theorem noPanic_sliceArray :
    (sliceArray xs start n : Outcome ε _).NoPanic ↔ start + n ≤ xs.length := by
  unfold sliceArray
  split <;> simp_all

theorem sliceArray_eq_ok {y : Fixed n} :
    sliceArray xs start n = (ok y : Outcome ε _) ↔
      start + n ≤ xs.length ∧ (xs.drop start).take n = y.val := by
  unfold sliceArray
  split
  · rename_i h
    simp only [ok.injEq, h, true_and]
    exact ⟨fun hy => congrArg Subtype.val hy, fun hy => Subtype.ext hy⟩
  · rename_i h
    simp [h]

theorem sliceArray_append {pre mid post : Bytes} (hPre : pre.length = start) (hMid : mid.length = n)
    :
    sliceArray (pre ++ (mid ++ post)) start n = (ok ⟨mid, hMid⟩ : Outcome ε _) := by
  subst hPre hMid
  rw [sliceArray_eq_ok]
  simp

/-! ## Texts -/

def utf8 (s : String) : Bytes := s.toByteArray.data.toList

def fromUtf8 (bytes : Bytes) : Option String := String.fromUTF8? ⟨bytes.toArray⟩

theorem fromUtf8_utf8 (s : String) : fromUtf8 (utf8 s) = some s := by
  rw [fromUtf8, utf8, Array.toArray_toList, String.fromUTF8?, dif_pos s.isValidUTF8]
  rfl

theorem utf8_of_fromUtf8 {bytes : Bytes} {s : String} (h : fromUtf8 bytes = some s) :
    utf8 s = bytes := by
  unfold fromUtf8 String.fromUTF8? at h
  split at h
  · cases h
    rfl
  · cases h

/-! ## Searching -/

/-- `xs.windows(pat.len()).position(|w| w == pat)`: where a pattern occurs
first. -/
def windowPosition (pat xs : Bytes) : Option Nat := xs.tails.findIdx? (pat.isPrefixOf ·)

/-! ## A message of three parts -/

section Parts

variable {ε : Type} {a b c : Bytes} {m n : Nat}

theorem slice_first (ha : a.length = m) : slice (a ++ b ++ c) 0 m = (ok a : Outcome ε _) := by
  subst ha
  rw [slice_eq_ok]
  refine ⟨⟨Nat.zero_le _, by simp⟩, ?_⟩
  rw [drop_zero, Nat.sub_zero, append_assoc, take_left]

theorem slice_second (ha : a.length = m) (hb : m + b.length = n) :
    slice (a ++ b ++ c) m n = (ok b : Outcome ε _) := by
  subst ha hb
  rw [slice_eq_ok]
  refine ⟨⟨by omega, by simp⟩, ?_⟩
  rw [append_assoc, drop_left, Nat.add_sub_cancel_left, take_left]

theorem sliceFrom_third (hab : a.length + b.length = n) :
    sliceFrom (a ++ b ++ c) n = (ok c : Outcome ε _) := by
  rw [sliceFrom_eq_ok]
  refine ⟨by simp; omega, ?_⟩
  rw [← hab, ← length_append, drop_left]

theorem sliceArray_first (ha : a.length = m) :
    sliceArray (a ++ b ++ c) 0 m = (ok ⟨a, ha⟩ : Outcome ε _) := by
  rw [append_assoc]
  exact sliceArray_append (rfl : ([] : Bytes).length = 0) ha

theorem sliceArray_third (hab : a.length + b.length = n) (hc : c.length = m) :
    sliceArray (a ++ b ++ c) n m = (ok ⟨c, hc⟩ : Outcome ε _) := by
  have hPre : (a ++ b).length = n := length_append.trans hab
  have hCut : sliceArray (a ++ b ++ (c ++ [])) n m = (ok ⟨c, hc⟩ : Outcome ε _) :=
    sliceArray_append hPre hc
  rwa [append_nil] at hCut

end Parts

/-! ## Little endian -/

/-- The `w` low bytes of `n`, least significant first. -/
def leBytes : Nat → Nat → Bytes
  | 0, _ => []
  | w + 1, n => UInt8.ofNat (n % 256) :: leBytes w (n / 256)

def leNat : Bytes → Nat
  | [] => 0
  | b :: rest => b.toNat + 256 * leNat rest

@[simp] theorem leBytes_length (w n : Nat) : (leBytes w n).length = w := by
  induction w generalizing n with
  | zero => rfl
  | succ w ih => simp [leBytes, ih]

theorem leBytes_succ (w n : Nat) :
    leBytes (w + 1) n = leBytes w n ++ [UInt8.ofNat (n / 256 ^ w % 256)] := by
  induction w generalizing n with
  | zero => simp [leBytes]
  | succ w ih =>
    rw [leBytes, ih, leBytes, Nat.div_div_eq_div_mul, pow_succ, Nat.mul_comm 256]
    rfl

theorem leNat_leBytes_mod (w n : Nat) : leNat (leBytes w n) = n % 256 ^ w := by
  induction w generalizing n with
  | zero => simp [leBytes, leNat, Nat.mod_one]
  | succ w ih =>
    have hByte : (UInt8.ofNat (n % 256)).toNat = n % 256 := by
      rw [UInt8.toNat_ofNat']
      omega
    rw [leBytes, leNat, ih, hByte, pow_succ, Nat.mul_comm, Nat.mul_comm (256 ^ w), Nat.mod_mul,
      Nat.mul_comm 256]

theorem leNat_append (xs ys : Bytes) :
    leNat (xs ++ ys) = leNat xs + 256 ^ xs.length * leNat ys := by
  induction xs with
  | nil => simp [leNat]
  | cons x xs ih =>
    rw [cons_append, leNat, ih, leNat, length_cons, pow_succ]
    ring

theorem leNat_lt (b : Bytes) : leNat b < 256 ^ b.length := by
  induction b with
  | nil => simp [leNat]
  | cons x b ih =>
    have hByte := x.toNat_lt
    rw [leNat, length_cons, pow_succ]
    omega

theorem leBytes_leNat (b : Bytes) : leBytes b.length (leNat b) = b := by
  induction b with
  | nil => rfl
  | cons x b ih =>
    have hByte := x.toNat_lt
    rw [length_cons, leBytes, leNat, show (x.toNat + 256 * leNat b) % 256 = x.toNat by omega,
      show (x.toNat + 256 * leNat b) / 256 = leNat b by omega, ih, UInt8.ofNat_toNat]

theorem leNat_leBytes {w : Nat} (h : n < 256 ^ w) : leNat (leBytes w n) = n := by
  rw [leNat_leBytes_mod, Nat.mod_eq_of_lt h]

/-! ## Big endian -/

/-- The `w` low bytes of `n`, most significant first. -/
def beBytes (w n : Nat) : Bytes := (leBytes w n).reverse

def beNat (b : Bytes) : Nat := leNat b.reverse

@[simp] theorem beBytes_length (w n : Nat) : (beBytes w n).length = w := by
  simp [beBytes]

theorem beNat_beBytes {w : Nat} (h : n < 256 ^ w) : beNat (beBytes w n) = n := by
  rw [beNat, beBytes, reverse_reverse, leNat_leBytes h]

theorem beBytes_succ (w n : Nat) :
    beBytes (w + 1) n = UInt8.ofNat (n / 256 ^ w % 256) :: beBytes w n := by
  rw [beBytes, leBytes_succ, reverse_append]
  rfl

theorem beNat_cons (b : UInt8) (bytes : Bytes) :
    beNat (b :: bytes) = b.toNat * 256 ^ bytes.length + beNat bytes := by
  rw [beNat, reverse_cons, leNat_append, length_reverse, beNat]
  simp only [leNat]
  ring

theorem u64_lt_pow (x : UInt64) : x.toNat < 256 ^ 8 := by
  have := x.toNat_lt
  norm_num
  omega

theorem u32_lt_pow (x : UInt32) : x.toNat < 256 ^ 4 := by
  have := x.toNat_lt
  norm_num
  omega

end DirectWire.Lib
