import Mathlib.Tactic.IntervalCases
import Mathlib.Data.List.Basic

/-! Bit vectors packed into bytes, least significant bit first, and byte strings cut into zero-padded
    blocks. Everything is stated by random access: bit `j` of the packed form is bit `j` of the list,
    byte `b` of the blocks is byte `b` of the string. Two packed lists of one length are then equal as
    soon as their blocks are. -/

namespace StarkBallot.Schemes

/-- Bit `j` of a byte. -/
def bitOf (byte : UInt8) (j : ℕ) : Bool := byte.toBitVec.getLsbD j

theorem eq_of_bitOf {a b : UInt8} (h : ∀ j < 8, bitOf a j = bitOf b j) : a = b :=
  UInt8.toBitVec_inj.mp (BitVec.eq_of_getLsbD_eq h)

@[simp] theorem bitOf_or (a b : UInt8) (j : ℕ) : bitOf (a ||| b) j = (bitOf a j || bitOf b j) := by
  simp [bitOf]

@[simp] theorem bitOf_and (a b : UInt8) (j : ℕ) : bitOf (a &&& b) j = (bitOf a j && bitOf b j) := by
  simp [bitOf]

@[simp] theorem bitOf_zero (j : ℕ) : bitOf 0 j = false := by simp [bitOf]

theorem bitOf_shift {i j : ℕ} (hi : i < 8) (hj : j < 8) :
    bitOf (1 <<< UInt8.ofNat i) j = decide (j = i) := by
  interval_cases i <;> interval_cases j <;> decide

/-- Testing a byte against the mask of a bit reads the bit. -/
theorem bitOf_mask {byte : UInt8} {i : ℕ} (hi : i < 8) :
    decide (byte &&& (1 <<< UInt8.ofNat i) ≠ 0) = bitOf byte i := by
  have hself : bitOf (byte &&& (1 <<< UInt8.ofNat i)) i = bitOf byte i := by
    rw [bitOf_and, bitOf_shift hi hi, decide_eq_true rfl, Bool.and_true]
  cases hbit : bitOf byte i with
  | true =>
    refine decide_eq_true fun hzero => ?_
    rw [hzero, hbit] at hself
    simp at hself
  | false =>
    refine decide_eq_false (not_not.mpr (eq_of_bitOf fun j hj => ?_))
    rw [bitOf_and, bitOf_shift hi hj, bitOf_zero]
    by_cases hij : j = i
    · rw [hij, hbit, Bool.false_and]
    · rw [decide_eq_false hij, Bool.and_false]

/-- Set bit `i` of a byte if `bit` says so. -/
def orBit (byte : UInt8) (bit : Bool) (i : ℕ) : UInt8 :=
  if bit then byte ||| (1 <<< UInt8.ofNat i) else byte

theorem bitOf_orBit {byte : UInt8} {bit : Bool} {i j : ℕ} (hi : i < 8) (hj : j < 8) :
    bitOf (orBit byte bit i) j = (bitOf byte j || (decide (j = i) && bit)) := by
  cases bit <;> simp [orBit, bitOf_shift hi hj]

/-- Up to eight bits as a byte, least significant first. -/
def packByte (chunk : List Bool) : UInt8 := chunk.zipIdx.foldl (fun byte b => orBit byte b.1 b.2) 0

theorem bitOf_packFold {j : ℕ} (hj : j < 8) : ∀ (chunk : List Bool) (start : ℕ) (byte : UInt8),
    start + chunk.length ≤ 8 →
      bitOf ((chunk.zipIdx start).foldl (fun byte b => orBit byte b.1 b.2) byte) j =
        (bitOf byte j || (decide (start ≤ j) && chunk.getD (j - start) false))
  | [], start, byte, _ => by simp
  | b :: chunk, start, byte, h => by
      rw [List.length_cons] at h
      rw [List.zipIdx_cons, List.foldl_cons, bitOf_packFold hj chunk (start + 1) _ (by omega),
        bitOf_orBit (by omega) hj]
      rcases Nat.lt_trichotomy j start with hlt | rfl | hgt
      · simp [hlt.ne, Nat.not_le.mpr hlt, Nat.not_le.mpr (Nat.lt_succ_of_lt hlt)]
      · simp
      · obtain ⟨k, rfl⟩ := Nat.exists_eq_add_of_lt hgt
        have hne : start + k + 1 ≠ start := by omega
        have hin : start + k + 1 - (start + 1) = k := by omega
        have hout : start + k + 1 - start = k + 1 := by omega
        rw [hin, hout, List.getD_cons_succ]
        simp [hne, Nat.le_add_right_of_le]

/-- Bit `j` of a packed byte is bit `j` of its list. -/
theorem bitOf_packByte {chunk : List Bool} {j : ℕ} (hlen : chunk.length ≤ 8) (hj : j < 8) :
    bitOf (packByte chunk) j = chunk.getD j false := by
  rw [packByte, bitOf_packFold hj chunk 0 0 (by omega)]
  simp

/-! ### Cutting a list into blocks -/

variable {α : Type}

/-- Consecutive blocks of `n` elements, the last one possibly shorter. -/
def chunks (n : ℕ) (l : List α) : List (List α) :=
  if 0 < n ∧ 0 < l.length then l.take n :: chunks n (l.drop n) else []
termination_by l.length
decreasing_by rw [List.length_drop]; omega

theorem chunks_getElem? {n : ℕ} (hn : 0 < n) : ∀ (i : ℕ) (l : List α),
    (chunks n l)[i]? = if i * n < l.length then some ((l.drop (i * n)).take n) else none
  | 0, l => by
      rw [chunks]
      split
      · simp_all
      · simp_all
  | i + 1, l => by
      rw [chunks]
      split
      · rw [List.getElem?_cons_succ, chunks_getElem? hn i, List.length_drop, List.drop_drop, Nat.add_mul,
          Nat.one_mul, Nat.add_comm n]
        by_cases h : i * n + n < l.length
        · rw [if_pos h, if_pos (by omega)]
        · rw [if_neg h, if_neg (by omega)]
      · rw [if_neg (by omega), List.getElem?_nil]

theorem chunks_length {n : ℕ} (hn : 0 < n) (l : List α) :
    (chunks n l).length = (l.length + n - 1) / n := by
  have hiff : ∀ i, i < (chunks n l).length ↔ i * n < l.length := by
    intro i
    have := chunks_getElem? hn i l
    constructor
    · intro h
      rw [List.getElem?_eq_getElem h] at this
      by_contra hlt
      rw [if_neg hlt] at this
      cases this
    · intro h
      rw [if_pos h] at this
      exact (List.getElem?_eq_some_iff.mp this).1
  refine le_antisymm ?_ ?_
  · by_contra hlt
    have h := (hiff ((l.length + n - 1) / n)).mp (by omega)
    have := Nat.lt_div_mul_add hn (a := l.length + n - 1)
    omega
  · by_contra hlt
    have h := mt (hiff (chunks n l).length).mpr (by omega)
    have := (Nat.lt_div_iff_mul_lt hn).mp (Nat.lt_of_not_le hlt)
    omega

/-- Bits packed into bytes. -/
def packBits (bits : List Bool) : List UInt8 := (chunks 8 bits).map packByte

@[simp] theorem packBits_length (bits : List Bool) : (packBits bits).length = (bits.length + 7) / 8 := by
  rw [packBits, List.length_map, chunks_length (by omega)]; rfl

/-- Bit `j` of the packed bytes is bit `j` of the list; past the end the bits are zero. -/
theorem bitOf_packBits (bits : List Bool) (j : ℕ) :
    bitOf ((packBits bits).getD (j / 8) 0) (j % 8) = bits.getD j false := by
  have hj := Nat.mod_lt j (show 0 < 8 by omega)
  rw [packBits, List.getD_eq_getElem?_getD, List.getElem?_map, chunks_getElem? (by omega)]
  split
  · rename_i hlt
    simp only [Option.map_some, Option.getD_some]
    rw [bitOf_packByte (List.length_take_le ..) hj]
    simp only [List.getD_eq_getElem?_getD, List.getElem?_take_of_lt hj, List.getElem?_drop]
    congr 2
    omega
  · rename_i hge
    rw [Option.map_none, Option.getD_none, bitOf_zero, List.getD_eq_getElem?_getD,
      List.getElem?_eq_none (by omega)]
    rfl

/-- Byte strings of one length with the same bits are equal. -/
theorem eq_of_bits {bytes bytes' : List UInt8} (hlen : bytes.length = bytes'.length)
    (h : ∀ j, bitOf (bytes.getD (j / 8) 0) (j % 8) = bitOf (bytes'.getD (j / 8) 0) (j % 8)) :
    bytes = bytes' := by
  refine List.ext_getElem hlen fun i hi hi' => eq_of_bitOf fun j hj => ?_
  have hbit := h (8 * i + j)
  rw [show (8 * i + j) / 8 = i by omega, show (8 * i + j) % 8 = j by omega] at hbit
  simpa [List.getD_eq_getElem?_getD, hi, hi'] using hbit

/-- Block `i` of `size` bytes, zero-padded. -/
def paddedBlock (size : ℕ) (bytes : List UInt8) (i : ℕ) : List UInt8 :=
  (bytes.drop (i * size)).take size ++
    List.replicate (size - ((bytes.drop (i * size)).take size).length) 0

@[simp] theorem paddedBlock_length (size : ℕ) (bytes : List UInt8) (i : ℕ) :
    (paddedBlock size bytes i).length = size := by
  have := List.length_take_le size (bytes.drop (i * size))
  rw [paddedBlock, List.length_append, List.length_replicate]; omega

theorem paddedBlock_getD {size : ℕ} (bytes : List UInt8) {i k : ℕ} (hk : k < size) :
    (paddedBlock size bytes i).getD k 0 = bytes.getD (i * size + k) 0 := by
  simp only [paddedBlock, List.getD_eq_getElem?_getD, List.getElem?_append, List.length_take,
    List.length_drop, List.getElem?_replicate]
  split
  · rw [List.getElem?_take_of_lt hk, List.getElem?_drop]
  · rw [List.getElem?_eq_none (i := i * size + k) (by omega)]
    split <;> rfl

/-- A bit read from the block that holds it. -/
theorem bitOf_paddedBlock {size : ℕ} (hsize : 0 < size) (bits : List Bool) (j : ℕ) :
    bitOf ((paddedBlock size (packBits bits) (j / (size * 8))).getD (j % (size * 8) / 8) 0) (j % 8) =
      bits.getD j false := by
  rw [paddedBlock_getD _ (Nat.div_lt_of_lt_mul (by
    rw [Nat.mul_comm]; exact Nat.mod_lt j (by omega))), ← bitOf_packBits]
  congr 2
  have h8 : j % (size * 8) / 8 = j / 8 % size := by rw [Nat.mul_comm, Nat.mod_mul_right_div_self]
  have hq : j / (size * 8) = j / 8 / size := by rw [Nat.mul_comm, Nat.div_div_eq_div_mul]
  rw [h8, hq, Nat.mul_comm]
  exact Nat.div_add_mod (j / 8) size

end StarkBallot.Schemes
