import Mathlib.Data.Vector.Basic
import MammotionRc.Firmware.Config

/-! # Loading the configuration partition

`config_load` starts from the compiled defaults and replaces them as a whole once a blob has passed every
check. The packed struct `hc33_config_v1` is read from and written to its 210 bytes; the `char` arrays
carry their sizes.
-/

namespace MammotionRc.Firmware

/-- A `char` array of a struct. -/
abbrev CharArray (n : ℕ) := List.Vector UInt8 n

def HC33_CONFIG_MAGIC : BitVec 32 := 0x33334643

def HC33_CONFIG_VERSION : UInt8 := 2

structure Hc33ConfigV1 where
  magic : BitVec 32
  version : UInt8
  /-- HaLow AP SSID or home WiFi SSID. -/
  uplinkSsid : CharArray 33
  uplinkPass : CharArray 65
  /-- HaLow regulatory code. -/
  region : CharArray 4
  /-- SSID the mower joins. -/
  softapSsid : CharArray 33
  softapPass : CharArray 65
  /-- 2.4 GHz channel for the softAP. -/
  softapChannel : UInt8
  /-- zlib CRC32 over the preceding bytes. -/
  crc32 : BitVec 32
deriving DecidableEq

/-- A 32-bit word in little-endian byte order. -/
def le32 (x : BitVec 32) : List UInt8 :=
  [⟨x.setWidth 8⟩, ⟨(x >>> 8).setWidth 8⟩, ⟨(x >>> 16).setWidth 8⟩, ⟨(x >>> 24).setWidth 8⟩]

/-- The word at the start of little-endian bytes. -/
def ofLe32 : List UInt8 → BitVec 32
  | a :: b :: c :: d :: _ =>
    a.toBitVec.setWidth 32 ||| b.toBitVec.setWidth 32 <<< 8 ||| c.toBitVec.setWidth 32 <<< 16 |||
      d.toBitVec.setWidth 32 <<< 24
  | _ => 0

theorem le32_ofLe32 (a b c d : UInt8) (rest : List UInt8) :
    le32 (ofLe32 (a :: b :: c :: d :: rest)) = [a, b, c, d] := by
  have byte (x y : UInt8) (bits : ∀ i < 8, x.toBitVec.getLsbD i = y.toBitVec.getLsbD i) : x = y :=
    UInt8.toBitVec_inj.mp (BitVec.eq_of_getLsbD_eq fun i inside => bits i inside)
  simp only [le32, ofLe32, List.cons.injEq, and_true]
  refine ⟨?_, ?_, ?_, ?_⟩ <;> apply byte <;> intro i inside <;>
    simp [BitVec.getLsbD_setWidth, BitVec.getLsbD_shiftLeft, inside] <;> grind

theorem ofLe32_le32 (x : BitVec 32) (rest : List UInt8) : ofLe32 (le32 x ++ rest) = x := by
  apply BitVec.eq_of_getLsbD_eq
  intro i inside
  simp [le32, ofLe32, BitVec.getLsbD_setWidth, inside]
  grind

theorem length_le32 (x : BitVec 32) : (le32 x).length = 4 := rfl

theorem le32_injective : Function.Injective le32 := by
  intro x y same
  rw [← ofLe32_le32 x [], ← ofLe32_le32 y [], same]

theorem le32_ofLe32_of_length {l : List UInt8} (long : 4 ≤ l.length) : le32 (ofLe32 l) = l.take 4 := by
  match l, long with
  | a :: b :: c :: d :: rest, _ => exact le32_ofLe32 a b c d rest

namespace Hc33ConfigV1

/-- `offsetof(hc33_config_v1, crc32)`. -/
def crcOffset : ℕ := 206

/-- The packed bytes of a blob. -/
def toBytes (c : Hc33ConfigV1) : List UInt8 :=
  le32 c.magic ++ [c.version] ++ c.uplinkSsid.toList ++ c.uplinkPass.toList ++ c.region.toList ++
    c.softapSsid.toList ++ c.softapPass.toList ++ [c.softapChannel] ++ le32 c.crc32

/-- The `n` bytes of an array at an offset. -/
def field (raw : CharArray 210) (offset n : ℕ) (fits : offset + n ≤ 210 := by decide) : CharArray n :=
  ⟨(raw.toList.drop offset).take n, by
    rw [List.length_take, List.length_drop, raw.toList_length]
    omega⟩

/-- The blob whose packed bytes are given. -/
def ofBytes (raw : CharArray 210) : Hc33ConfigV1 where
  magic := ofLe32 raw.toList
  version := (field raw 4 1).head
  uplinkSsid := field raw 5 33
  uplinkPass := field raw 38 65
  region := field raw 103 4
  softapSsid := field raw 107 33
  softapPass := field raw 140 65
  softapChannel := (field raw 205 1).head
  crc32 := ofLe32 (raw.toList.drop 206)

theorem length_toBytes (c : Hc33ConfigV1) : c.toBytes.length = 210 := by
  simp [toBytes, length_le32]

theorem toBytes_injective : Function.Injective toBytes := by
  intro c d same
  simp only [toBytes] at same
  obtain ⟨same, crc⟩ := List.append_inj' same rfl
  obtain ⟨same, channel⟩ := List.append_inj' same rfl
  obtain ⟨same, softapPass⟩ := List.append_inj' same (by simp)
  obtain ⟨same, softapSsid⟩ := List.append_inj' same (by simp)
  obtain ⟨same, region⟩ := List.append_inj' same (by simp)
  obtain ⟨same, uplinkPass⟩ := List.append_inj' same (by simp)
  obtain ⟨same, uplinkSsid⟩ := List.append_inj' same (by simp)
  obtain ⟨magic, version⟩ := List.append_inj' same rfl
  cases c
  cases d
  rw [mk.injEq]
  exact ⟨le32_injective magic, List.head_eq_of_cons_eq version, List.Vector.eq _ _ uplinkSsid,
    List.Vector.eq _ _ uplinkPass, List.Vector.eq _ _ region, List.Vector.eq _ _ softapSsid,
    List.Vector.eq _ _ softapPass, List.head_eq_of_cons_eq channel, le32_injective crc⟩

theorem singleton_head (v : CharArray 1) : [v.head] = v.toList := by
  match v with
  | ⟨[_], _⟩ => rfl

theorem toBytes_ofBytes (raw : CharArray 210) : (ofBytes raw).toBytes = raw.toList := by
  have length := raw.toList_length
  rw [toBytes, ofBytes]
  simp only [singleton_head]
  rw [le32_ofLe32_of_length (by omega), le32_ofLe32_of_length (by rw [List.length_drop]; omega)]
  show raw.toList.take 4 ++ (raw.toList.drop 4).take 1 ++ (raw.toList.drop 5).take 33 ++
    (raw.toList.drop 38).take 65 ++ (raw.toList.drop 103).take 4 ++ (raw.toList.drop 107).take 33 ++
    (raw.toList.drop 140).take 65 ++ (raw.toList.drop 205).take 1 ++ (raw.toList.drop 206).take 4 = raw.toList
  rw [← List.take_add, ← List.take_add, ← List.take_add, ← List.take_add, ← List.take_add, ← List.take_add,
    ← List.take_add, ← List.take_add]
  exact List.take_of_length_le length.le

theorem ofBytes_eq_iff {raw : CharArray 210} {c : Hc33ConfigV1} : ofBytes raw = c ↔ raw.toList = c.toBytes := by
  rw [← toBytes_ofBytes, Function.Injective.eq_iff toBytes_injective]

/-- Static storage starts zeroed. -/
def zero : Hc33ConfigV1 where
  magic := 0
  version := 0
  uplinkSsid := .replicate 33 0
  uplinkPass := .replicate 65 0
  region := .replicate 4 0
  softapSsid := .replicate 33 0
  softapPass := .replicate 65 0
  softapChannel := 0
  crc32 := 0

end Hc33ConfigV1

/-- The bytes of `dst` after `copy_str`; what lies behind the NUL stays. -/
def copyStrBytes : List UInt8 → List UInt8 → List UInt8
  | [], _ => []
  | [_], _ => [0]
  | _ :: rest, [] => 0 :: rest
  | _ :: rest, c :: src => if c = 0 then 0 :: rest else c :: copyStrBytes rest src

theorem length_copyStrBytes (dst src : List UInt8) : (copyStrBytes dst src).length = dst.length := by
  fun_induction copyStrBytes dst src <;> simp [*]

def copyStr {n : ℕ} (dst : CharArray n) (src : List UInt8) : CharArray n :=
  ⟨copyStrBytes dst.toList src, by rw [length_copyStrBytes, dst.toList_length]⟩

/-- One of the eight inner steps of `crc32_zlib`. -/
def crcBit (crc : BitVec 32) : BitVec 32 := crc >>> 1 ^^^ (0xEDB88320 &&& -(crc &&& 1))

def crc32Zlib (data : List UInt8) : BitVec 32 :=
  let crc := data.foldl (fun crc byte => crcBit^[8] (crc ^^^ byte.toBitVec.setWidth 32)) 0xFFFFFFFF
  crc ^^^ 0xFFFFFFFF

def loadDefaults (env : Env) (g_cfg : Hc33ConfigV1) : Hc33ConfigV1 where
  magic := HC33_CONFIG_MAGIC
  version := HC33_CONFIG_VERSION
  uplinkSsid := copyStr g_cfg.uplinkSsid (WIFI_SSID env)
  uplinkPass := copyStr g_cfg.uplinkPass (WIFI_PASS env)
  region := copyStr g_cfg.region WIFI_REGION_HALOW
  softapSsid := copyStr g_cfg.softapSsid AP_SSID
  softapPass := copyStr g_cfg.softapPass AP_PASSWORD
  softapChannel := AP_CHANNEL
  crc32 := 0

/-- What `esp_partition_find_first` and `esp_partition_read` give. -/
inductive Partition
  | absent
  /-- The read fails and leaves something in the buffer. -/
  | readError (buffer : CharArray 210)
  | content (raw : CharArray 210)
deriving DecidableEq

/-- Which source won, as `log_resolved` prints it. -/
inductive Source
  | noPartition
  | readError
  | noValidBlob
  | versionMismatch
  | crcMismatch
  | configPartition
deriving DecidableEq, Repr

def Source.text : Source → String
  | .noPartition => "defaults (no partition)"
  | .readError => "defaults (read error)"
  | .noValidBlob => "defaults (no valid blob)"
  | .versionMismatch => "defaults (version mismatch)"
  | .crcMismatch => "defaults (crc mismatch)"
  | .configPartition => "config partition"

/-- `s[sizeof(s) - 1] = 0`. -/
def terminateLast {n : ℕ} (s : CharArray n) : CharArray n :=
  ⟨s.toList.set (n - 1) 0, by rw [List.length_set, s.toList_length]⟩

/-- `config_load`: the new `g_cfg` and the source it logs. -/
def configLoad (env : Env) (partition : Partition) (g_cfg : Hc33ConfigV1) : Hc33ConfigV1 × Source :=
  let g_cfg := loadDefaults env g_cfg
  match partition with
  | .absent => (g_cfg, .noPartition)
  | .readError _ => (g_cfg, .readError)
  | .content raw =>
    let blob := Hc33ConfigV1.ofBytes raw
    if blob.magic ≠ HC33_CONFIG_MAGIC then (g_cfg, .noValidBlob)
    else if blob.version ≠ HC33_CONFIG_VERSION then (g_cfg, .versionMismatch)
    else
      let want := crc32Zlib (blob.toBytes.take Hc33ConfigV1.crcOffset)
      if want ≠ blob.crc32 then (g_cfg, .crcMismatch)
      else
        -- a blob that only aliases the CRC may lack terminators
        let blob := { blob with
          uplinkSsid := terminateLast blob.uplinkSsid
          uplinkPass := terminateLast blob.uplinkPass
          region := terminateLast blob.region
          softapSsid := terminateLast blob.softapSsid
          softapPass := terminateLast blob.softapPass }
        let g_cfg := blob
        if g_cfg.softapChannel < 1 ∨ 14 < g_cfg.softapChannel then
          ({ g_cfg with softapChannel := AP_CHANNEL }, .configPartition)
        else (g_cfg, .configPartition)

end MammotionRc.Firmware
