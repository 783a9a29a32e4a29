import DirectWire.Lib.Bytes

/-!
# Byte streams that are read in pieces

The input of a stream is the list of pieces its reads will get, however the bytes were written. A
piece is never empty; a read that gets nothing means the end of the stream.

* `exists_cut`, `whole` — where bytes that stop early stop.
-/

namespace DirectWire.Lib

open List

/-- Fill a buffer of `n` bytes, or fail at the end of the stream: the bytes, and
what is left. -/
def readExact : Nat → List Bytes → Option Bytes × List Bytes
  | 0, chunks => (some [], chunks)
  | _ + 1, [] => (none, [])
  | n + 1, c :: cs =>
    if c = [] then (none, cs)
    else if n + 1 < c.length then (some (c.take (n + 1)), c.drop (n + 1) :: cs)
    else
      let r := readExact (n + 1 - c.length) cs
      (r.1.map (c ++ ·), r.2)

structure Splits (chunks : List Bytes) (bytes : Bytes) : Prop where
  flatten : chunks.flatten = bytes
  nonempty : ∀ c ∈ chunks, c ≠ []

variable {bytes : Bytes} {n : Nat} {pieces : List Bytes}

theorem splits_singleton (h : bytes ≠ []) : Splits [bytes] bytes :=
  ⟨append_nil bytes, by simpa using h⟩

theorem splits_bytewise (bytes : Bytes) : Splits (bytes.map ([·])) bytes := by
  refine ⟨?_, by simp⟩
  induction bytes with
  | nil => rfl
  | cons b bytes ih => rw [map_cons, flatten_cons, ih, singleton_append]

theorem Splits.tail {c : Bytes} {cs : List Bytes} (h : Splits (c :: cs) bytes) :
    ∃ rest, bytes = c ++ rest ∧ Splits cs rest :=
  ⟨cs.flatten, h.flatten.symm, rfl, fun d hMem => h.nonempty d (mem_cons_of_mem _ hMem)⟩

theorem append_of_length_le {a b c d : Bytes} (h : a ++ b = c ++ d) (hLen : c.length ≤ a.length) :
    ∃ a', a = c ++ a' ∧ d = a' ++ b := by
  rcases append_eq_append_iff.mp h with ⟨c', hC, hB⟩ | ⟨a', hA, hD⟩
  · -- then they are equal
    have hNil : c' = [] := by
      rw [hC, length_append] at hLen
      exact eq_nil_of_length_eq_zero (by omega)
    subst hNil
    exact ⟨[], by rw [hC, append_nil, append_nil], hB.symm⟩
  · exact ⟨a', hA, hD⟩

/-- Reading gets the bytes that were written, however they are cut. -/
theorem readExact_append {chunks : List Bytes} {a b : Bytes} (h : Splits chunks (a ++ b)) :
    ∃ rest, readExact a.length chunks = (some a, rest) ∧ Splits rest b := by
  induction chunks generalizing a with
  | nil =>
    -- nothing was written
    obtain ⟨rfl, rfl⟩ := append_eq_nil_iff.mp h.flatten.symm
    exact ⟨[], rfl, rfl, nofun⟩
  | cons c cs ih =>
    cases a with
    | nil => exact ⟨c :: cs, rfl, h⟩
    | cons x xs =>
      obtain ⟨tail, hBytes, hTail⟩ := h.tail
      have hNonempty : c ≠ [] := h.nonempty c mem_cons_self
      rw [length_cons, readExact, if_neg hNonempty, ← length_cons (a := x)]
      split
      · -- the piece has more than there is room for
        rename_i hMore
        obtain ⟨c', rfl, rfl⟩ := append_of_length_le hBytes.symm (by omega)
        refine ⟨c' :: cs, ?_, ?_, ?_⟩
        · rw [take_left' rfl, drop_left' rfl]
        · rw [flatten_cons, hTail.flatten]
        · refine forall_mem_cons.mpr ⟨?_, hTail.nonempty⟩
          rintro rfl
          rw [append_nil] at hMore
          omega
      · -- the whole piece is taken, and the rest comes from the others
        obtain ⟨a', hA, rfl⟩ := append_of_length_le hBytes (by omega)
        obtain ⟨rest, hRead, hSplits⟩ := ih hTail
        have hLen : (x :: xs).length - c.length = a'.length := by
          rw [hA, length_append]
          omega
        rw [hLen, hRead, hA]
        exact ⟨rest, rfl, hSplits⟩

/-- It fails where there is less. -/
theorem readExact_short {chunks : List Bytes} (h : Splits chunks bytes) (hShort : bytes.length < n)
    : ∃ rest, readExact n chunks = (none, rest) := by
  induction chunks generalizing bytes n with
  | nil =>
    obtain ⟨n, rfl⟩ := Nat.exists_eq_succ_of_ne_zero (Nat.ne_zero_of_lt hShort)
    exact ⟨[], rfl⟩
  | cons c cs ih =>
    obtain ⟨n, rfl⟩ := Nat.exists_eq_succ_of_ne_zero (Nat.ne_zero_of_lt hShort)
    obtain ⟨tail, rfl, hTail⟩ := h.tail
    rw [length_append] at hShort
    obtain ⟨rest, hRest⟩ := ih hTail (n := n + 1 - c.length) (by omega)
    rw [readExact, if_neg (h.nonempty c mem_cons_self), if_neg (by omega), hRest]
    exact ⟨rest, rfl⟩

theorem exists_cut {rest : Bytes} (h : bytes ++ rest = pieces.flatten)
    (hCut : ∀ k, bytes ≠ (pieces.take k).flatten) :
    ∃ before piece after part left, pieces = before ++ piece :: after ∧
      bytes = before.flatten ++ part ∧ piece = part ++ left ∧ part ≠ [] ∧ left ≠ [] := by
  induction pieces generalizing bytes with
  | nil =>
    obtain ⟨rfl, -⟩ := append_eq_nil_iff.mp h
    exact absurd rfl (hCut 0)
  | cons piece pieces ih =>
    rw [flatten_cons] at h
    by_cases hLen : piece.length ≤ bytes.length
    · obtain ⟨tail, rfl, hTail⟩ := append_of_length_le h hLen
      obtain ⟨before, piece', after, part, left, rfl, rfl, rfl, hPart, hLeft⟩ := ih hTail.symm
        fun k hEq => hCut (k + 1) (by rw [hEq, take_succ_cons, flatten_cons])
      refine ⟨piece :: before, _, after, part, left, rfl, ?_, rfl, hPart, hLeft⟩
      rw [flatten_cons, append_assoc]
    · obtain ⟨left, rfl, -⟩ := append_of_length_le h.symm (by omega)
      refine ⟨[], _, pieces, bytes, left, rfl, rfl, rfl, hCut 0, ?_⟩
      rintro rfl
      rw [append_nil] at hLen
      omega

/-- How many of the pieces, from the first one on, are complete in so many bytes. -/
def whole : List Bytes → Nat → Nat
  | [], _ => 0
  | piece :: pieces, n => if piece.length ≤ n then whole pieces (n - piece.length) + 1 else 0

theorem whole_mono {m : Nat} (h : m ≤ n) : whole pieces m ≤ whole pieces n := by
  induction pieces generalizing m n with
  | nil => exact Nat.le_refl _
  | cons piece pieces ih =>
    rw [whole, whole]
    split
    · rw [if_pos (by omega)]
      exact Nat.succ_le_succ (ih (by omega))
    · exact Nat.zero_le _

theorem whole_eq_zero (h : ∀ piece, pieces.head? = some piece → n < piece.length) :
    whole pieces n = 0 := by
  cases pieces with
  | nil => rfl
  | cons piece pieces =>
    have hShort := h piece rfl
    rw [whole, if_neg (by omega)]

theorem whole_take_add {k : Nat} (h : k ≤ pieces.length) (n : Nat) :
    whole pieces ((pieces.take k).flatten.length + n) = k + whole (pieces.drop k) n := by
  induction k generalizing pieces with
  | zero => simp
  | succ k ih =>
    cases pieces with
    | nil => simp at h
    | cons piece pieces =>
      have hRest := ih (show k ≤ pieces.length by simpa using h)
      rw [take_succ_cons, flatten_cons, length_append, drop_succ_cons, whole, if_pos (by omega)]
      have hSub : piece.length + (pieces.take k).flatten.length + n - piece.length =
          (pieces.take k).flatten.length + n := by omega
      rw [hSub, hRest]
      omega

end DirectWire.Lib
