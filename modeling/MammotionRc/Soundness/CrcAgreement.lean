import MammotionRc.Packers.PackJs
import MammotionRc.Soundness.ConfigAllOrNothing

/-! # The two CRCs are one function

The table of `pack.js` holds eight division steps of every byte, so a byte through the table changes the 32 bits of
the register as the textbook register does. The signs of JavaScript's operators do not matter in between, and the
last shift leaves the unsigned value, which is that of the bitwise loop in `config_load.cpp`.
-/

namespace MammotionRc.Packers.Js

open Firmware Machine JsNumber

theorem toInt32_crcTableStep (c : ℤ) : toInt32 (crcTableStep c) = Crc.shift 0xEDB88320 (toInt32 c) := by
  rw [crcTableStep, Crc.shift]
  by_cases odd : (toInt32 c).getLsbD 0 = true
  · rw [if_pos ((bitAnd_one c).mpr odd), if_pos odd, toInt32_bitXor, toInt32_ushr, BitVec.xor_comm]
    rfl
  · rw [if_neg (mt (bitAnd_one c).mp odd), if_neg odd, toInt32_ushr]

theorem toInt32_iterate (k : ℕ) (c : ℤ) :
    toInt32 (crcTableStep^[k] c) = (Crc.shift 0xEDB88320)^[k] (toInt32 c) := by
  induction k generalizing c with
  | zero => rfl
  | succ k ih => rw [Function.iterate_succ_apply, ih, toInt32_crcTableStep, Function.iterate_succ_apply]

/-- The index into the table: the low byte of the register. -/
theorem index_eq (x : ℤ) : (bitAnd x 0xFF).toNat = (toInt32 x).toNat % 256 := by
  have low : (toInt32 x &&& toInt32 0xFF).toNat = (toInt32 x).toNat % 256 := by
    rw [BitVec.toNat_and, show (toInt32 0xFF).toNat = 2 ^ 8 - 1 from rfl, Nat.and_two_pow_sub_one_eq_mod]
  rw [bitAnd, BitVec.toInt_eq_toNat_of_lt, low, Int.toNat_natCast]
  omega

theorem toInt32_mod (x : ℤ) : toInt32 ((toInt32 x).toNat % 256 : ℕ) = Crc.lowBits 8 (toInt32 x) := by
  apply BitVec.eq_of_toNat_eq
  rw [Crc.lowBits, BitVec.toNat_setWidth, BitVec.toNat_setWidth, toInt32, toInt32, BitVec.ofInt_natCast,
    BitVec.toNat_ofNat]

theorem toInt32_byte (byte : UInt8) : toInt32 (byte.toNat : ℤ) = byte.toBitVec.setWidth 32 := by
  apply BitVec.eq_of_toNat_eq
  rw [toInt32, BitVec.ofInt_natCast, BitVec.toNat_ofNat, BitVec.toNat_setWidth]
  rfl

/-- One byte through the table. -/
theorem crcTable_step (crc : ℤ) (byte : UInt8) :
    toInt32 (ushr (bitXor (buildCrcTable.getD (bitAnd (bitXor crc byte.toNat) 0xFF).toNat 0) (ushr crc 8)) 0) =
      Crc.feedByte 0xEDB88320 (toInt32 crc) byte := by
  have entry (i : ℕ) (inside : i < 256) : buildCrcTable.getD i 0 = ushr (crcTableStep^[8] i) 0 := by
    rw [buildCrcTable, List.getD_eq_getElem?_getD, List.getElem?_map, List.getElem?_range inside]
    rfl
  rw [index_eq, entry _ (Nat.mod_lt _ (by decide)), Crc.feedByte_eq_table _ _ _ (by decide), toInt32_ushr,
    toInt32_bitXor, toInt32_ushr, toInt32_ushr, toInt32_iterate, toInt32_mod, toInt32_bitXor, toInt32_byte,
    BitVec.ushiftRight_zero, BitVec.ushiftRight_zero]

/-- All bytes through the table. -/
theorem crcTable_run (crc : ℤ) (bytes : List UInt8) :
    toInt32 (bytes.foldl (fun crc byte =>
      ushr (bitXor (buildCrcTable.getD (bitAnd (bitXor crc byte.toNat) 0xFF).toNat 0) (ushr crc 8)) 0) crc) =
      Crc.register 0xEDB88320 (toInt32 crc) bytes := by
  induction bytes generalizing crc with
  | nil => rfl
  | cons byte bytes ih => rw [List.foldl_cons, ih, crcTable_step, Crc.register, Crc.register, List.foldl_cons]

/-- The browser packer computes the CRC-32 of zlib. -/
theorem crc32_eq (cache : CrcTable) (bytes : List UInt8) : toInt32 (crc32 cache bytes).1 = Crc.crc32 bytes := by
  have table : cache.table.getD buildCrcTable = buildCrcTable := by
    cases cached : cache.table with
    | none => rfl
    | some t => exact cache.built t cached
  rw [crc32, table, toInt32_ushr, toInt32_bitXor, crcTable_run, BitVec.ushiftRight_zero, Crc.crc32]
  rfl

/-- On every byte sequence, whether or not the table was built before, the packer's CRC is the loader's. -/
theorem crc32_agreed (cache : CrcTable) (bytes : List UInt8) :
    (crc32 cache bytes).1 = ((crc32Zlib bytes).toNat : ℤ) := by
  have unsigned : (crc32 cache bytes).1 = ((toInt32 (crc32 cache bytes).1).toNat : ℤ) := ushr_eq_toNat _ 0
  calc (crc32 cache bytes).1
      = ((toInt32 (crc32 cache bytes).1).toNat : ℤ) := unsigned
    _ = ((Crc.crc32 bytes).toNat : ℤ) := by rw [crc32_eq]
    _ = ((crc32Zlib bytes).toNat : ℤ) := by rw [crc32Zlib_eq]

end MammotionRc.Packers.Js
