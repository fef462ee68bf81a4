import Mathlib.Data.List.Basic
import Mathlib.Logic.Function.Iterate

/-! # Reflected cyclic redundancy checks

The register holds the remainder with its highest coefficient in bit 0, so a division step shifts right and
the message is read lowest bit first. `feed` is the textbook register, one message bit at a time. A step is
linear in exclusive or, which is why a whole byte may be added to the register before eight steps, and why
those eight steps may be read from a table of 256 words.
-/

namespace MammotionRc.Machine.Crc

variable {w : ℕ} (poly : BitVec w)

/-- One division step. -/
def shift (r : BitVec w) : BitVec w := if r.getLsbD 0 then r >>> 1 ^^^ poly else r >>> 1

/-- One message bit enters the register. -/
def feed (r : BitVec w) (bit : Bool) : BitVec w := if r.getLsbD 0 ≠ bit then r >>> 1 ^^^ poly else r >>> 1

/-- The eight bits of a byte enter the register, the lowest first. -/
def feedByte (r : BitVec w) (byte : UInt8) : BitVec w :=
  (List.range 8).foldl (fun r i => feed poly r (byte.toBitVec.getLsbD i)) r

/-- The remainder of a whole message. -/
def register (init : BitVec w) (message : List UInt8) : BitVec w := message.foldl (feedByte poly) init

theorem getLsbD_shift (r : BitVec w) (i : ℕ) :
    (shift poly r).getLsbD i = (r.getLsbD (1 + i) ^^ (r.getLsbD 0 && poly.getLsbD i)) := by
  rw [shift]
  cases r.getLsbD 0 <;> simp

theorem shift_xor (a b : BitVec w) : shift poly (a ^^^ b) = shift poly a ^^^ shift poly b := by
  apply BitVec.eq_of_getLsbD_eq
  intro i _
  simp only [getLsbD_shift, BitVec.getLsbD_xor]
  generalize poly.getLsbD i = coefficient
  cases a.getLsbD 0 <;> cases b.getLsbD 0 <;> cases coefficient <;> simp

theorem shift_of_even {r : BitVec w} (even : r.getLsbD 0 = false) : shift poly r = r >>> 1 := by
  rw [shift, even, if_neg Bool.false_ne_true]

theorem iterate_shift_xor (k : ℕ) (a b : BitVec w) :
    (shift poly)^[k] (a ^^^ b) = (shift poly)^[k] a ^^^ (shift poly)^[k] b := by
  induction k generalizing a b with
  | zero => rfl
  | succ k ih => rw [Function.iterate_succ_apply, shift_xor, ih]; rfl

/-- A register whose low bits are clear only moves down. -/
theorem iterate_shift_of_low {k : ℕ} {r : BitVec w} (low : ∀ i < k, r.getLsbD i = false) :
    (shift poly)^[k] r = r >>> k := by
  induction k with
  | zero => simp
  | succ k ih =>
    have even : (r >>> k).getLsbD 0 = false := by
      rw [BitVec.getLsbD_ushiftRight]
      exact low (k + 0) (by omega)
    rw [Function.iterate_succ_apply', ih fun i small => low i (by omega), shift_of_even poly even,
      BitVec.shiftRight_add]

/-- The low `k` bits of a register. -/
def lowBits (k : ℕ) (x : BitVec w) : BitVec w := (x.setWidth k).setWidth w

theorem getLsbD_lowBits (k : ℕ) (x : BitVec w) (i : ℕ) :
    (lowBits k x).getLsbD i = (decide (i < k) && x.getLsbD i) := by
  rw [lowBits, BitVec.getLsbD_setWidth, BitVec.getLsbD_setWidth]
  rcases Nat.lt_or_ge i w with inside | outside
  · simp [inside]
  · simp [BitVec.getLsbD_of_ge x i outside]

/-- `k` steps of a register: those of its low bits, and the others moved down. -/
theorem iterate_shift_split (k : ℕ) (x : BitVec w) :
    (shift poly)^[k] x = (shift poly)^[k] (lowBits k x) ^^^ x >>> k := by
  have high : ∀ i < k, (lowBits k x ^^^ x).getLsbD i = false := by
    intro i small
    rw [BitVec.getLsbD_xor, getLsbD_lowBits, decide_eq_true small, Bool.true_and, Bool.xor_self]
  have moved : (lowBits k x ^^^ x) >>> k = x >>> k := by
    apply BitVec.eq_of_getLsbD_eq
    intro i _
    rw [BitVec.getLsbD_ushiftRight, BitVec.getLsbD_xor, getLsbD_lowBits, BitVec.getLsbD_ushiftRight,
      decide_eq_false (show ¬ k + i < k by omega), Bool.false_and, Bool.false_xor]
  calc
    (shift poly)^[k] x = (shift poly)^[k] (lowBits k x ^^^ (lowBits k x ^^^ x)) := by
      rw [← BitVec.xor_assoc, BitVec.xor_self, BitVec.zero_xor]
    _ = (shift poly)^[k] (lowBits k x) ^^^ x >>> k := by
      rw [iterate_shift_xor, iterate_shift_of_low poly high, moved]

/-- A message bit at position `k`. -/
def single (bit : Bool) (k : ℕ) : BitVec w := if bit then BitVec.twoPow w k else 0

theorem getLsbD_single (bit : Bool) {k : ℕ} (i : ℕ) (fits : k < w) :
    (single bit k : BitVec w).getLsbD i = (bit && decide (i = k)) := by
  cases bit with
  | false => simp [single]
  | true =>
    rw [single, if_pos rfl, BitVec.getLsbD_twoPow, decide_eq_true fits, Bool.true_and, Bool.true_and]
    exact decide_eq_decide.mpr eq_comm

/-- A message bit may be added to the register before the step. -/
theorem feed_eq_shift (r : BitVec w) (bit : Bool) (nonempty : 0 < w) :
    feed poly r bit = shift poly (r ^^^ single bit 0) := by
  apply BitVec.eq_of_getLsbD_eq
  intro i _
  rw [getLsbD_shift, feed, BitVec.getLsbD_xor, BitVec.getLsbD_xor, getLsbD_single bit _ nonempty,
    getLsbD_single bit _ nonempty, decide_eq_false (show ¬ 1 + i = 0 by omega)]
  generalize r.getLsbD 0 = lowest
  cases bit <;> cases lowest <;> simp

theorem lowBits_succ (x : BitVec w) {k : ℕ} (fits : k < w) :
    lowBits (k + 1) x = lowBits k x ^^^ single (x.getLsbD k) k := by
  apply BitVec.eq_of_getLsbD_eq
  intro i inside
  rw [getLsbD_lowBits, BitVec.getLsbD_xor, getLsbD_lowBits, getLsbD_single _ _ fits]
  rcases Nat.lt_trichotomy i k with below | same | above
  · simp [show i < k + 1 by omega, below, show i ≠ k by omega]
  · simp [same]
  · simp [show ¬ i < k + 1 by omega, show ¬ i < k by omega, show i ≠ k by omega]

theorem iterate_shift_single (bit : Bool) {k : ℕ} (fits : k < w) :
    (shift poly)^[k] (single bit k) = single bit 0 := by
  rw [iterate_shift_of_low]
  · apply BitVec.eq_of_getLsbD_eq
    intro i _
    rw [BitVec.getLsbD_ushiftRight, getLsbD_single _ _ fits, getLsbD_single _ _ (by omega)]
    simp
  · intro i small
    rw [getLsbD_single _ _ fits, decide_eq_false (show ¬ i = k by omega), Bool.and_false]

/-- Feeding the low bits of a word one by one is adding them to the register and stepping once for each. -/
theorem feed_lowBits (r x : BitVec w) {k : ℕ} (fits : k ≤ w) :
    (List.range k).foldl (fun r i => feed poly r (x.getLsbD i)) r = (shift poly)^[k] (r ^^^ lowBits k x) := by
  induction k with
  | zero =>
    have none : lowBits 0 x = 0 := by
      apply BitVec.eq_of_getLsbD_eq
      intro i _
      rw [getLsbD_lowBits, decide_eq_false (Nat.not_lt_zero i), Bool.false_and]
      simp
    rw [none]
    simp
  | succ k ih =>
    rw [List.range_succ, List.foldl_append, List.foldl_cons, List.foldl_nil, ih (by omega),
      feed_eq_shift poly _ _ (by omega), Function.iterate_succ_apply', lowBits_succ x fits,
      iterate_shift_xor, iterate_shift_xor, iterate_shift_xor, iterate_shift_single poly _ fits, BitVec.xor_assoc]

/-- A byte may be added to the register before its eight steps. -/
theorem feedByte_eq_shift (r : BitVec w) (byte : UInt8) (fits : 8 ≤ w) :
    feedByte poly r byte = (shift poly)^[8] (r ^^^ byte.toBitVec.setWidth w) := by
  have low : lowBits 8 (byte.toBitVec.setWidth w) = byte.toBitVec.setWidth w := by
    apply BitVec.eq_of_getLsbD_eq
    intro i inside
    rw [getLsbD_lowBits, BitVec.getLsbD_setWidth, decide_eq_true inside, Bool.true_and]
    rcases Nat.lt_or_ge i 8 with small | large
    · rw [decide_eq_true small, Bool.true_and]
    · rw [BitVec.getLsbD_of_ge _ _ large, Bool.and_false]
  have bits : feedByte poly r byte =
      (List.range 8).foldl (fun r i => feed poly r ((byte.toBitVec.setWidth w).getLsbD i)) r := by
    rw [feedByte]
    apply List.foldl_ext
    intro r i inside
    rw [BitVec.getLsbD_setWidth, decide_eq_true (show i < w by have := List.mem_range.mp inside; omega),
      Bool.true_and]
  rw [bits, feed_lowBits poly r _ fits, low]

/-- A byte at a time from a table: its word for the low byte, and the other bits moved down. -/
theorem feedByte_eq_table (r : BitVec w) (byte : UInt8) (fits : 8 ≤ w) :
    feedByte poly r byte =
      (shift poly)^[8] (lowBits 8 (r ^^^ byte.toBitVec.setWidth w)) ^^^ r >>> 8 := by
  have gone : byte.toBitVec.setWidth w >>> 8 = 0#w := by
    apply BitVec.eq_of_getLsbD_eq
    intro i _
    rw [BitVec.getLsbD_ushiftRight, BitVec.getLsbD_setWidth, BitVec.getLsbD_of_ge _ _ (by omega), Bool.and_false]
    simp
  rw [feedByte_eq_shift poly r byte fits, iterate_shift_split, BitVec.ushiftRight_xor_distrib, gone, BitVec.xor_zero]

/-- The CRC-32 of zlib, Ethernet and PNG. -/
def crc32 (message : List UInt8) : BitVec 32 := register 0xEDB88320 0xFFFFFFFF message ^^^ 0xFFFFFFFF

-- the check value of the CRC catalogue, for the ASCII digits 1 to 9
example : crc32 [0x31, 0x32, 0x33, 0x34, 0x35, 0x36, 0x37, 0x38, 0x39] = 0xCBF43926 := by decide +kernel

end MammotionRc.Machine.Crc
