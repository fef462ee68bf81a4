import MammotionRc.Firmware.ConfigLoad
import MammotionRc.Machine.Crc

/-! # The reference packer

`pack_config.py` writes the values of an INI section as the 210 bytes that `config_load` reads. Strings are
sequences of Unicode scalar values.
-/

namespace MammotionRc.Packers

open Firmware Machine

abbrev Text := List Char

/-- `s.encode("utf-8")`, and what `TextEncoder` gives. -/
def utf8 (s : Text) : List UInt8 := s.flatMap String.utf8EncodeChar

def MAGIC : BitVec 32 := 0x33334643

def VERSION : UInt8 := 2

def WIDTH_SSID : ℕ := 33

def WIDTH_PASS : ℕ := 65

def WIDTH_REGION : ℕ := 4

/-- The `[config]` section as `ConfigParser` hands it over. -/
structure ConfigSection where
  uplinkSsid : Option Text
  uplinkPass : Option Text
  region : Option Text
  softapSsid : Option Text
  softapPass : Option Text
  softapChannel : Option ℤ
deriving DecidableEq, Repr

/-- UTF-8 encode, truncate to `n - 1` bytes, NUL-pad to `n` total. -/
def fixed (s : Text) (n : ℕ) : List UInt8 :=
  let b := (utf8 s).take (n - 1)
  b ++ List.replicate (n - b.length) 0

/-- `pack` on a section that was read. -/
def pack (c : ConfigSection) : Except String (List UInt8) :=
  let body := le32 MAGIC ++ [VERSION]
  let body := body ++ fixed (c.uplinkSsid.getD []) WIDTH_SSID
  let body := body ++ fixed (c.uplinkPass.getD []) WIDTH_PASS
  let body := body ++ fixed (c.region.getD ['A', 'U']) WIDTH_REGION
  let body := body ++ fixed (c.softapSsid.getD []) WIDTH_SSID
  let body := body ++ fixed (c.softapPass.getD []) WIDTH_PASS
  let channel := c.softapChannel.getD 6
  if ¬ (1 ≤ channel ∧ channel ≤ 14) then
    .error s!"pack_config: softap_channel={channel} out of range 1-14"
  else
    let body := body ++ [⟨BitVec.ofInt 8 channel⟩]
    let drift := body.length
    if drift ≠ 206 then .error s!"body length drift: {drift}"
    else .ok (body ++ le32 (Crc.crc32 body))

end MammotionRc.Packers
