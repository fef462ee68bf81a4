import MammotionRc.Machine.Burst
import MammotionRc.Soundness.SsidJoined

/-! # The loader detects every burst

The CRC covers everything in front of it and is stored lowest byte first, so the whole blob is one message
of the same register: after an accepted blob it holds one fixed value, wherever the burst lies.
-/

namespace MammotionRc.Firmware

open Machine

/-- A blob under an error pattern. -/
def corrupt (raw error : CharArray 210) : CharArray 210 :=
  ⟨List.zipWith (· ^^^ ·) raw.toList error.toList, by simp⟩

theorem word_bits_le32 (x : BitVec 32) : Crc.word (Crc.bits (le32 x)) = x := by
  have listed : Crc.bits (le32 x) = (List.range 32).map x.getLsbD := by simp [Crc.bits, le32, List.range_succ]
  apply BitVec.eq_of_getLsbD_eq
  intro i inside
  rw [Crc.getLsbD_word _ inside, listed, List.getD_eq_getElem _ _ (by simpa using inside), List.getElem_map,
    List.getElem_range]

/-- The register after a blob and its CRC does not depend on the blob. -/
theorem register_le32_crc32 (data : List UInt8) :
    Crc.register 0xEDB88320 0xFFFFFFFF (data ++ le32 (Crc.crc32 data)) =
      (Crc.shift 0xEDB88320)^[32] (0xFFFFFFFF : BitVec 32) := by
  have short : (Crc.bits (le32 (Crc.crc32 data))).length ≤ 32 := by rw [Crc.length_bits, length_le32]
  rw [Crc.register, List.foldl_append, ← Crc.register, ← Crc.register, Crc.register_eq_registerBits _ _ (le32 _),
    Crc.registerBits_word _ short, word_bits_le32, Crc.length_bits, length_le32, Crc.crc32, ← BitVec.xor_assoc,
    BitVec.xor_self, BitVec.zero_xor]

theorem Accepted.register {raw : CharArray 210} (accepted : Accepted raw) :
    Crc.register 0xEDB88320 0xFFFFFFFF raw.toList = (Crc.shift 0xEDB88320)^[32] (0xFFFFFFFF : BitVec 32) := by
  have stored : raw.toList.drop 206 = le32 (Crc.crc32 (raw.toList.take 206)) := by
    have length : (raw.toList.drop 206).length = 4 := by rw [List.length_drop, raw.toList_length]
    rw [← accepted.crc, Hc33ConfigV1.ofBytes, le32_ofLe32_of_length length.ge, List.take_of_length_le length.le]
  conv_lhs => rw [← List.take_append_drop 206 raw.toList, stored]
  exact register_le32_crc32 _

theorem burst_detected (env : Env) (raw error : CharArray 210)
    (loaded : (configLoad env (.content raw) .zero).2 = .configPartition)
    (burst : Crc.Burst 32 (Crc.bits error.toList)) :
    (configLoad env (.content (corrupt raw error)) .zero).2 ≠ .configPartition ∧
      (configLoad env (.content (corrupt raw error)) .zero).1 = compiledDefaults env := by
  have accepted : Accepted raw := by
    rcases configLoad_content env raw .zero with ⟨accepted, _⟩ | ⟨_, _, rejected⟩
    · exact accepted
    · exact absurd loaded rejected
  have length : raw.toList.length = error.toList.length := by rw [raw.toList_length, error.toList_length]
  have differs := Crc.register_burst_ne 0xEDB88320 (by decide) 0xFFFFFFFF length burst
  rcases configLoad_content env (corrupt raw error) .zero with ⟨again, _⟩ | ⟨_, kept, rejected⟩
  · exact absurd (again.register.trans accepted.register.symm) differs
  · exact ⟨rejected, kept.trans (loadDefaults_zero env)⟩

/-- Two bits, the last one in front of the stored CRC and the first one of it. -/
def straddling : CharArray 210 := ⟨List.replicate 205 0 ++ [0x80, 0x01] ++ List.replicate 3 0, rfl⟩

theorem burst_detected_straddling :
    (configLoad .hc33 (.content (corrupt Packers.shortSsid.packed straddling)) .zero).2 ≠ .configPartition ∧
      (configLoad .hc33 (.content (corrupt Packers.shortSsid.packed straddling)) .zero).1 = compiledDefaults .hc33 := by
  have loaded : (configLoad .hc33 (.content Packers.shortSsid.packed) .zero).2 = .configPartition := by
    rw [Packers.configLoad_packed _ _ ⟨by decide, by decide⟩]
  have placed : Crc.bits straddling.toList =
      List.replicate 1647 false ++ ([true, true] ++ List.replicate 31 false) := by decide +kernel
  refine burst_detected .hc33 Packers.shortSsid.packed straddling loaded ?_
  rw [placed]
  exact Crc.burst_of_window (by decide) (by decide) 1647 31

end MammotionRc.Firmware
