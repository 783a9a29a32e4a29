import DirectWire.Lib.Bytes

/-!
# MoQ — variable-length integers

`varint.rs`: integers of at most 62 bits in 1, 2, 4 or 8 bytes, most significant
byte first. The two high bits of the first byte say how many bytes there are.
-/

namespace DirectWire.Moq

open Lib Outcome

inductive ReadError where
  | shortVarint
  /-- A string or a payload is longer than what is left of the frame. -/
  | shortPayload
  | invalidUtf8
  | lengthMismatch (declared : UInt64) (actual : Nat)
  | unknownRole (v : UInt64)
  | unknownStart (v : UInt64)
  | unknownTrackRef (tag : UInt64)
  | unknownType (code : UInt64)
  | trailingBytes
  | cutOff
  | readFailed
deriving DecidableEq, Repr

namespace Varint

def max : UInt64 := (1 : UInt64) <<< 62 - 1

def encodedLen {ε : Type} (v : UInt64) : Outcome ε Nat :=
  if v ≤ 63 then ok 1
  else if v ≤ 16383 then ok 2
  else if v ≤ 1073741823 then ok 4
  else if v ≤ max then ok 8
  else panic (.expectFailed s!"varint 超出 62 bit 上限: {v}")

def encode {ε : Type} (v : UInt64) : Outcome ε Bytes := do
  match ← encodedLen v with
  | 1 => ok [v.toUInt8]
  | 2 => ok (beBytes 2 (v.toUInt16 ||| 0x4000).toNat)
  | 4 => ok (beBytes 4 (v.toUInt32 ||| 0x80000000).toNat)
  | _ => ok (beBytes 8 (v ||| 0xC000000000000000).toNat)

def push (v : UInt64) (b : UInt8) : UInt64 := v <<< 8 ||| b.toUInt64

def decode : Bytes → Outcome ReadError (UInt64 × Nat)
  | [] => err .shortVarint
  | first :: rest =>
    let len := 1 <<< (first >>> 6).toNat
    if rest.length + 1 < len then err .shortVarint
    else
      let v := (first &&& 0x3F).toUInt64
      ok ((rest.take (len - 1)).foldl push v, len)

theorem toNat_max : max.toNat = 2 ^ 62 - 1 := rfl

theorem toNat_push {v} (b : UInt8) (h : (v.toNat + 1) * 256 ≤ 2 ^ 64) :
    (push v b).toNat = v.toNat * 256 + b.toNat := by
  have hByte := b.toNat_lt
  rw [push, UInt64.toNat_or, UInt64.toNat_shiftLeft, UInt8.toNat_toUInt64, Nat.shiftLeft_eq]
  have hEight : (8 : UInt64).toNat % 64 = 8 := rfl
  rw [hEight, Nat.mod_eq_of_lt (by omega), Nat.mul_comm, ← Nat.two_pow_add_eq_or_of_lt hByte]

theorem toNat_foldl_push (bytes : Bytes) (v : UInt64)
    (h : (v.toNat + 1) * 256 ^ bytes.length ≤ 2 ^ 64) :
    (bytes.foldl push v).toNat = v.toNat * 256 ^ bytes.length + beNat bytes := by
  induction bytes generalizing v with
  | nil => simp [beNat, leNat]
  | cons b bytes ih =>
    have hPos : 1 ≤ 256 ^ bytes.length := Nat.one_le_pow _ _ (by decide)
    have hByte := b.toNat_lt
    rw [List.length_cons, pow_succ] at h
    have hPush := toNat_push (v := v) b (by nlinarith)
    rw [List.foldl_cons, ih, hPush, beNat_cons, List.length_cons, pow_succ]
    · ring
    · rw [hPush]
      nlinarith

theorem decode_tagged {tag hi} (hTag : tag < 4) (hHi : hi < 64) (rest : Bytes) :
    decode (UInt8.ofNat (hi + tag * 64) :: rest) =
      if rest.length + 1 < 2 ^ tag then err .shortVarint
      else ok ((rest.take (2 ^ tag - 1)).foldl push (UInt64.ofNat hi), 2 ^ tag) := by
  have hFirst : (UInt8.ofNat (hi + tag * 64)).toNat = hi + tag * 64 := by
    rw [UInt8.toNat_ofNat']
    omega
  have hShift : (UInt8.ofNat (hi + tag * 64) >>> 6).toNat = tag := by
    rw [UInt8.toNat_shiftRight, hFirst, Nat.shiftRight_eq_div_pow]
    show (hi + tag * 64) / 2 ^ 6 = tag
    omega
  have hMask : (UInt8.ofNat (hi + tag * 64) &&& 0x3F).toUInt64 = UInt64.ofNat hi := by
    apply UInt64.toNat_inj.mp
    rw [UInt8.toNat_toUInt64, UInt8.toNat_and, hFirst, UInt64.toNat_ofNat']
    show (hi + tag * 64) &&& (2 ^ 6 - 1) = hi % 2 ^ 64
    rw [Nat.and_two_pow_sub_one_eq_mod]
    omega
  rw [decode, hShift, hMask, Nat.one_shiftLeft]

def Encoded (v : UInt64) (bytes : Bytes) : Prop :=
  ∃ tag w, tag < 4 ∧ w + 1 = 2 ^ tag ∧ v.toNat < 64 * 256 ^ w ∧
    bytes = beBytes (w + 1) (v.toNat + tag * 64 * 256 ^ w)

theorem or_tag {v} (i tag : Nat) (h : v < 2 ^ i) : v ||| 2 ^ i * tag = v + tag * 2 ^ i := by
  rw [Nat.or_comm, ← Nat.two_pow_add_eq_or_of_lt h, Nat.mul_comm, Nat.add_comm]

/-- An integer of at most 62 bits is encoded. -/
theorem encode_encoded {ε : Type} {v} (h : v ≤ max) :
    ∃ bytes, encode v = (ok bytes : Outcome ε _) ∧ Encoded v bytes := by
  have hMax : v.toNat ≤ 2 ^ 62 - 1 := UInt64.le_iff_toNat_le.mp h
  by_cases h1 : v ≤ 63
  · have hLe : v.toNat ≤ 63 := UInt64.le_iff_toNat_le.mp h1
    refine ⟨[v.toUInt8], by simp [encode, encodedLen, h1], 0, 0, by decide, rfl, by omega, ?_⟩
    have hByte : v.toUInt8 = UInt8.ofNat (v.toNat % 256) := by
      apply UInt8.toNat_inj.mp
      rw [UInt64.toNat_toUInt8, UInt8.toNat_ofNat', Nat.mod_mod]
    simp [beBytes, leBytes, hByte]
  by_cases h2 : v ≤ 16383
  · have hLe : v.toNat ≤ 16383 := UInt64.le_iff_toNat_le.mp h2
    refine ⟨beBytes 2 (v.toUInt16 ||| 0x4000).toNat, by simp [encode, encodedLen, h1, h2], 1, 1,
      by decide, rfl, by omega, ?_⟩
    rw [UInt16.toNat_or, UInt64.toNat_toUInt16, Nat.mod_eq_of_lt (by omega)]
    exact congrArg _ (or_tag 14 1 (by omega))
  by_cases h4 : v ≤ 1073741823
  · have hLe : v.toNat ≤ 1073741823 := UInt64.le_iff_toNat_le.mp h4
    refine ⟨beBytes 4 (v.toUInt32 ||| 0x80000000).toNat,
      by simp [encode, encodedLen, h1, h2, h4], 2, 3, by decide, rfl, by omega, ?_⟩
    rw [UInt32.toNat_or, UInt64.toNat_toUInt32, Nat.mod_eq_of_lt (by omega)]
    exact congrArg _ (or_tag 30 2 (by omega))
  · refine ⟨beBytes 8 (v ||| 0xC000000000000000).toNat,
      by simp [encode, encodedLen, h1, h2, h4, h], 3, 7, by decide, rfl, by omega, ?_⟩
    rw [UInt64.toNat_or]
    exact congrArg _ (or_tag 62 3 (by omega))

theorem Encoded.cons {v bytes} (h : Encoded v bytes) :
    ∃ tag w others, tag < 4 ∧ w + 1 = 2 ^ tag ∧ v.toNat < 64 * 256 ^ w ∧
      bytes = UInt8.ofNat (v.toNat / 256 ^ w + tag * 64) :: others ∧ others.length = w ∧
      beNat others = v.toNat % 256 ^ w := by
  obtain ⟨tag, w, hTag, hLen, hFits, rfl⟩ := h
  have hPos : 0 < 256 ^ w := Nat.pow_pos (by decide)
  have hHigh : v.toNat / 256 ^ w < 64 := Nat.div_lt_of_lt_mul (by rwa [Nat.mul_comm])
  refine ⟨tag, w, beBytes w (v.toNat + tag * 64 * 256 ^ w), hTag, hLen, hFits, ?_,
    beBytes_length _ _, ?_⟩
  · rw [beBytes_succ, Nat.add_mul_div_right _ _ hPos, Nat.mod_eq_of_lt (by omega)]
  · rw [beNat, beBytes, List.reverse_reverse, leNat_leBytes_mod, Nat.add_mul_mod_self_right]

/-- Decoding reads it back, whatever comes behind it. -/
theorem decode_encoded {v bytes} (h : Encoded v bytes) (rest : Bytes) :
    decode (bytes ++ rest) = ok (v, bytes.length) := by
  obtain ⟨tag, w, others, hTag, hLen, hFits, rfl, hOthers, hLow⟩ := h.cons
  have hPos : 0 < 256 ^ w := Nat.pow_pos (by decide)
  have hHigh : v.toNat / 256 ^ w < 64 := Nat.div_lt_of_lt_mul (by rwa [Nat.mul_comm])
  have hv := v.toNat_lt
  rw [List.cons_append, decode_tagged hTag hHigh, if_neg (by simp; omega), List.length_cons,
    show 2 ^ tag - 1 = others.length by omega, List.take_left, hOthers, hLen]
  congr 2
  apply UInt64.toNat_inj.mp
  have hHi : (UInt64.ofNat (v.toNat / 256 ^ w)).toNat = v.toNat / 256 ^ w := by
    rw [UInt64.toNat_ofNat']
    exact Nat.mod_eq_of_lt (by omega)
  have hRoom : (v.toNat / 256 ^ w + 1) * 256 ^ w ≤ 2 ^ 64 :=
    calc (v.toNat / 256 ^ w + 1) * 256 ^ w ≤ 64 * 256 ^ w := Nat.mul_le_mul_right _ hHigh
      _ ≤ 64 * 256 ^ 7 := by
        have hW : 2 ^ tag ≤ 2 ^ 3 := Nat.pow_le_pow_right (by decide) (by omega)
        exact Nat.mul_le_mul_left _ (Nat.pow_le_pow_right (by decide) (by omega))
      _ ≤ 2 ^ 64 := by decide
  rw [toNat_foldl_push, hHi, hOthers, hLow, Nat.div_add_mod']
  rw [hHi, hOthers]
  exact hRoom

/-- A part of the bytes is not enough. -/
theorem decode_cut {v part rest} (h : Encoded v (part ++ rest)) (hRest : rest ≠ []) :
    decode part = err .shortVarint := by
  obtain ⟨tag, w, others, hTag, hLen, hFits, hBytes, hOthers, -⟩ := h.cons
  have hPos : 0 < 256 ^ w := Nat.pow_pos (by decide)
  have hHigh : v.toNat / 256 ^ w < 64 := Nat.div_lt_of_lt_mul (by rwa [Nat.mul_comm])
  cases part with
  | nil => rfl
  | cons first part =>
    obtain ⟨rfl, hAll⟩ := List.cons_eq_cons.mp hBytes
    rw [← hAll] at hOthers
    have hCut : rest.length ≠ 0 := fun hZero => hRest (List.eq_nil_of_length_eq_zero hZero)
    have hSum : part.length + rest.length = w := by rw [← List.length_append]; exact hOthers
    rw [decode_tagged hTag hHigh, if_pos (by omega)]

end Varint

end DirectWire.Moq
