import MammotionRc.Firmware.ConfigLoad
import MammotionRc.Machine.CString
import MammotionRc.Machine.Crc

/-! # Configuration loading is all or nothing

`config_load` leaves either the defaults of `config.h`, each in a NUL-filled field, or the blob of the
partition with its terminators and its channel repaired. The bitwise CRC of the loader is the standard one.
-/

namespace MammotionRc.Firmware

open Machine

theorem crcBit_eq_shift (crc : BitVec 32) : crcBit crc = Crc.shift 0xEDB88320 crc := by
  have mask : -(crc &&& 1) = if crc.getLsbD 0 then BitVec.allOnes 32 else 0#32 := by
    rw [show (1 : BitVec 32) = 1#32 from rfl, BitVec.and_one_eq_setWidth_ofBool_getLsbD]
    cases crc.getLsbD 0 <;> rfl
  rw [crcBit, Crc.shift, mask]
  split
  · rw [BitVec.and_allOnes]
  · rw [BitVec.and_zero, BitVec.xor_zero]

/-- The loader computes the CRC-32 of zlib. -/
theorem crc32Zlib_eq (data : List UInt8) : crc32Zlib data = Crc.crc32 data := by
  have bytes : (fun (crc : BitVec 32) (byte : UInt8) => crcBit^[8] (crc ^^^ byte.toBitVec.setWidth 32)) =
      Crc.feedByte 0xEDB88320 := by
    funext crc byte
    rw [Crc.feedByte_eq_shift _ crc byte (by decide), show crcBit = Crc.shift 0xEDB88320 from funext crcBit_eq_shift]
  rw [crc32Zlib, Crc.crc32, Crc.register, bytes]

/-- A string in a NUL-filled field. -/
def charField (n : ℕ) (s : List UInt8) : CharArray n := ⟨fixedField n s, length_fixedField s⟩

/-- The defaults of `config.h`. -/
def compiledDefaults (env : Env) : Hc33ConfigV1 where
  magic := HC33_CONFIG_MAGIC
  version := HC33_CONFIG_VERSION
  uplinkSsid := charField 33 (WIFI_SSID env)
  uplinkPass := charField 65 (WIFI_PASS env)
  region := charField 4 WIFI_REGION_HALOW
  softapSsid := charField 33 AP_SSID
  softapPass := charField 65 AP_PASSWORD
  softapChannel := AP_CHANNEL
  crc32 := 0

/-- The checks that a blob has to pass. -/
structure Accepted (raw : CharArray 210) : Prop where
  magic : (Hc33ConfigV1.ofBytes raw).magic = HC33_CONFIG_MAGIC
  version : (Hc33ConfigV1.ofBytes raw).version = HC33_CONFIG_VERSION
  crc : (Hc33ConfigV1.ofBytes raw).crc32 = Crc.crc32 (raw.toList.take 206)

/-- The field of a blob, except that its last byte is NUL. -/
def NulAtEnd {n : ℕ} (loaded stored : CharArray n) : Prop := loaded.toList = stored.toList.dropLast ++ [0]

/-- Every field is the blob's, up to the terminators and an unusable channel. -/
structure Repaired (blob g_cfg : Hc33ConfigV1) : Prop where
  magic : g_cfg.magic = blob.magic
  version : g_cfg.version = blob.version
  uplinkSsid : NulAtEnd g_cfg.uplinkSsid blob.uplinkSsid
  uplinkPass : NulAtEnd g_cfg.uplinkPass blob.uplinkPass
  region : NulAtEnd g_cfg.region blob.region
  softapSsid : NulAtEnd g_cfg.softapSsid blob.softapSsid
  softapPass : NulAtEnd g_cfg.softapPass blob.softapPass
  softapChannel : g_cfg.softapChannel =
    if 1 ≤ blob.softapChannel.toNat ∧ blob.softapChannel.toNat ≤ 14 then blob.softapChannel else AP_CHANNEL
  crc32 : g_cfg.crc32 = blob.crc32

/-- A NUL inside the field. -/
def Terminated {n : ℕ} (s : CharArray n) : Prop := 0 ∈ s.toList

/-- The strings end inside their fields and the channel is one of 802.11 b/g/n. -/
structure Usable (g_cfg : Hc33ConfigV1) : Prop where
  uplinkSsid : Terminated g_cfg.uplinkSsid
  uplinkPass : Terminated g_cfg.uplinkPass
  region : Terminated g_cfg.region
  softapSsid : Terminated g_cfg.softapSsid
  softapPass : Terminated g_cfg.softapPass
  softapChannel : 1 ≤ g_cfg.softapChannel.toNat ∧ g_cfg.softapChannel.toNat ≤ 14

/-- The partition could be read and holds a blob that passes every check. -/
def Partition.Loads (partition : Partition) (raw : CharArray 210) : Prop :=
  partition = .content raw ∧ Accepted raw

theorem terminateLast_nulAtEnd {n : ℕ} (s : CharArray (n + 1)) : NulAtEnd (terminateLast s) s := by
  have last := s.toList_length
  show s.toList.set (n + 1 - 1) 0 = s.toList.dropLast ++ [0]
  generalize s.toList = bytes at last
  apply List.ext_getElem
  · rw [List.length_set, List.length_append, List.length_dropLast, List.length_singleton]
    omega
  intro i inside _
  rw [List.length_set] at inside
  rcases Nat.lt_or_ge i n with before | at_
  · rw [List.getElem_set_ne (by omega), List.getElem_append_left (by rw [List.length_dropLast]; omega),
      List.getElem_dropLast]
  · obtain rfl : i = n := by omega
    rw [List.getElem_append_right (by rw [List.length_dropLast]; omega)]
    simp

theorem NulAtEnd.terminated {n : ℕ} {loaded stored : CharArray n} (same : NulAtEnd loaded stored) :
    Terminated loaded := by
  rw [Terminated, same]
  exact List.mem_append_right _ (List.mem_singleton_self 0)

/-- Copying into zeroed memory leaves a NUL-filled field. -/
theorem copyStrBytes_zeros (n : ℕ) (src : List UInt8) :
    copyStrBytes (List.replicate (n + 1) 0) src = fixedField (n + 1) (cstr src) := by
  induction n generalizing src with
  | zero => rfl
  | succ n ih =>
    cases src with
    | nil => rfl
    | cons c src =>
      rw [List.replicate_succ, List.replicate_succ, copyStrBytes]
      · split
        next nul =>
          rw [nul]
          rfl
        next char =>
          have first : cstr (c :: src) = c :: cstr src := by
            rw [cstr, List.takeWhile_cons, if_pos (decide_eq_true char), cstr]
          rw [← List.replicate_succ, ih, first]
          simp [fixedField, List.rightpad]
      · rintro ⟨⟩

theorem copyStr_zeros {n : ℕ} (src : List UInt8) (clean : 0 ∉ src) :
    copyStr (.replicate (n + 1) 0) src = charField (n + 1) src := by
  apply Subtype.ext
  show copyStrBytes (List.replicate (n + 1) 0) src = fixedField (n + 1) src
  rw [copyStrBytes_zeros, cstr_eq_self clean]

theorem charField_terminated (n : ℕ) (s : List UInt8) : Terminated (charField (n + 1) s) := by
  show 0 ∈ fixedField (n + 1) s
  rw [← fixedField_dropLast s (Nat.succ_pos n)]
  exact List.mem_append_right _ (List.mem_singleton_self 0)

theorem loadDefaults_zero (env : Env) : loadDefaults env .zero = compiledDefaults env := by
  rw [loadDefaults, compiledDefaults, Hc33ConfigV1.mk.injEq]
  have ssid : 0 ∉ WIFI_SSID env := by cases env <;> decide
  have pass : 0 ∉ WIFI_PASS env := by cases env <;> decide
  exact ⟨rfl, rfl, copyStr_zeros (n := 32) _ ssid, copyStr_zeros (n := 64) _ pass,
    copyStr_zeros (n := 3) _ (by decide), copyStr_zeros (n := 32) _ (by decide),
    copyStr_zeros (n := 64) _ (by decide), rfl, rfl⟩

theorem apChannel_inside : 1 ≤ AP_CHANNEL.toNat ∧ AP_CHANNEL.toNat ≤ 14 := by decide

theorem compiledDefaults_usable (env : Env) : Usable (compiledDefaults env) where
  uplinkSsid := charField_terminated 32 _
  uplinkPass := charField_terminated 64 _
  region := charField_terminated 3 _
  softapSsid := charField_terminated 32 _
  softapPass := charField_terminated 64 _
  softapChannel := apChannel_inside

theorem Repaired.usable {blob g_cfg : Hc33ConfigV1} (repaired : Repaired blob g_cfg) : Usable g_cfg where
  uplinkSsid := repaired.uplinkSsid.terminated
  uplinkPass := repaired.uplinkPass.terminated
  region := repaired.region.terminated
  softapSsid := repaired.softapSsid.terminated
  softapPass := repaired.softapPass.terminated
  softapChannel := by
    rw [repaired.softapChannel]
    split
    next inside => exact inside
    next => exact apChannel_inside

/-- What `config_load` does with the bytes of a partition. -/
theorem configLoad_content (env : Env) (raw : CharArray 210) (g_cfg : Hc33ConfigV1) :
    (Accepted raw ∧ Repaired (.ofBytes raw) (configLoad env (.content raw) g_cfg).1 ∧
      (configLoad env (.content raw) g_cfg).2 = .configPartition) ∨
    (¬ Accepted raw ∧ (configLoad env (.content raw) g_cfg).1 = loadDefaults env g_cfg ∧
      (configLoad env (.content raw) g_cfg).2 ≠ .configPartition) := by
  have checked : Hc33ConfigV1.crcOffset = 206 := rfl
  simp only [configLoad, Hc33ConfigV1.toBytes_ofBytes, crc32Zlib_eq, checked]
  by_cases magic : (Hc33ConfigV1.ofBytes raw).magic = HC33_CONFIG_MAGIC
  swap
  · rw [if_pos magic]
    exact .inr ⟨fun accepted => magic accepted.magic, rfl, Source.noConfusion⟩
  by_cases version : (Hc33ConfigV1.ofBytes raw).version = HC33_CONFIG_VERSION
  swap
  · rw [if_neg (not_not.mpr magic), if_pos version]
    exact .inr ⟨fun accepted => version accepted.version, rfl, Source.noConfusion⟩
  by_cases crc : Crc.crc32 (raw.toList.take 206) = (Hc33ConfigV1.ofBytes raw).crc32
  swap
  · rw [if_neg (not_not.mpr magic), if_neg (not_not.mpr version), if_pos crc]
    exact .inr ⟨fun accepted => crc accepted.crc.symm, rfl, Source.noConfusion⟩
  rw [if_neg (not_not.mpr magic), if_neg (not_not.mpr version), if_neg (not_not.mpr crc)]
  have outside : ((Hc33ConfigV1.ofBytes raw).softapChannel < 1 ∨ 14 < (Hc33ConfigV1.ofBytes raw).softapChannel) ↔
      ¬ (1 ≤ (Hc33ConfigV1.ofBytes raw).softapChannel.toNat ∧
        (Hc33ConfigV1.ofBytes raw).softapChannel.toNat ≤ 14) := by
    rw [UInt8.lt_iff_toNat_lt, UInt8.lt_iff_toNat_lt, show (1 : UInt8).toNat = 1 from rfl,
      show (14 : UInt8).toNat = 14 from rfl]
    omega
  refine .inl ⟨⟨magic, version, crc.symm⟩, ?_⟩
  split
  next channel =>
    refine ⟨⟨rfl, rfl, terminateLast_nulAtEnd _, terminateLast_nulAtEnd _, terminateLast_nulAtEnd _,
      terminateLast_nulAtEnd _, terminateLast_nulAtEnd _, ?_, rfl⟩, rfl⟩
    rw [if_neg (outside.mp channel)]
  next channel =>
    refine ⟨⟨rfl, rfl, terminateLast_nulAtEnd _, terminateLast_nulAtEnd _, terminateLast_nulAtEnd _,
      terminateLast_nulAtEnd _, terminateLast_nulAtEnd _, ?_, rfl⟩, rfl⟩
    rw [if_pos (not_not.mp (mt outside.mpr channel))]

/-- The outcome of loading: all of the blob or all of the defaults, and usable in both cases. -/
structure AllOrNothing (env : Env) (partition : Partition) (g_cfg : Hc33ConfigV1) : Prop where
  loaded : ∀ raw, partition.Loads raw → Repaired (.ofBytes raw) g_cfg
  kept : (∀ raw, ¬ partition.Loads raw) → g_cfg = compiledDefaults env
  usable : Usable g_cfg

theorem config_all_or_nothing (env : Env) (partition : Partition) :
    AllOrNothing env partition (configLoad env partition .zero).1 := by
  have defaults {p : Partition} (none : ∀ raw, ¬ p.Loads raw)
      (kept : (configLoad env p .zero).1 = loadDefaults env .zero) :
      AllOrNothing env p (configLoad env p .zero).1 := by
    rw [loadDefaults_zero] at kept
    exact ⟨fun raw loads => absurd loads (none raw), fun _ => kept, kept ▸ compiledDefaults_usable env⟩
  cases partition with
  | absent => exact defaults (by rintro raw ⟨⟨⟩, _⟩) rfl
  | readError buffer => exact defaults (by rintro raw ⟨⟨⟩, _⟩) rfl
  | content raw =>
    rcases configLoad_content env raw .zero with ⟨accepted, repaired, _⟩ | ⟨rejected, kept, _⟩
    · refine ⟨?_, fun none => absurd ⟨rfl, accepted⟩ (none raw), repaired.usable⟩
      rintro other ⟨⟨⟩, _⟩
      exact repaired
    · exact defaults (by rintro other ⟨⟨⟩, accepted⟩; exact rejected accepted) kept

end MammotionRc.Firmware
