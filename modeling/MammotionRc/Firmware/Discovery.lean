import Mathlib.Algebra.Group.Nat.Defs
import MammotionRc.Machine.CString
import MammotionRc.Machine.Hex
import MammotionRc.Machine.Utf8

/-! # The discovery responder

`discovery_task` answers a probe with one line of text. It formats the line into a buffer on its stack and
sends as many bytes as `snprintf` returns, which is the length of the whole line. The memory from the buffer
on is a function of the offset, so that a send of more bytes than the buffer has is defined.
-/

namespace MammotionRc.Firmware

open Machine

/-- `kVariant`. -/
inductive Variant
  | wifi
  | halow
deriving DecidableEq, Repr

def Variant.text : Variant → List Char
  | .wifi => "wifi".toList
  | .halow => "halow".toList

/-- Six hexadecimal digits. -/
structure ChipId where
  digits : List Char
  six : digits.length = 6
  hex : ∀ c ∈ digits, c.isHexDigit = true

/-- `chip_id_hex`, by the last three bytes of the base MAC. -/
def chipIdHex (mac3 mac4 mac5 : UInt8) : ChipId :=
  ⟨[mac3, mac4, mac5].flatMap Hex.byte, rfl, fun _ mem => Hex.isHexDigit_of_mem_bytes mem⟩

def kProbe : List UInt8 := Utf8.encode "HC33-DISCOVER?".toList

/-- What the name of the mower is announced as. -/
def announced (bonded : List UInt8) : List UInt8 := if bonded = [] then Utf8.encode "none".toList else bonded

/-- The text that is formatted. -/
def replyText (chipId : ChipId) (kVariant : Variant) (proxyPort : UInt16) (bonded : List UInt8) : List UInt8 :=
  Utf8.encode "HC33-PROXY chip_id=".toList ++ Utf8.encode chipId.digits ++ Utf8.encode " variant=".toList ++
    Utf8.encode kVariant.text ++ Utf8.encode " proxy_port=".toList ++
    Utf8.encode (Nat.toDigits 10 proxyPort.toNat) ++ Utf8.encode " bonded_name=".toList ++ cstr (announced bonded)

/-- `snprintf`: the memory behind it and what it returns. -/
def snprintf (memory : ℕ → UInt8) (size : ℕ) (text : List UInt8) : (ℕ → UInt8) × ℤ :=
  (fun i =>
    if i < min text.length (size - 1) then text.getD i 0
    else if i = min text.length (size - 1) then 0
    else memory i, if text.length < 2 ^ 31 then text.length else -1)

/-- The size of `reply`. -/
def replySize : ℕ := 160

/-- What `discovery_task` sends for a packet, if anything. -/
def discoveryAnswer (memory : ℕ → UInt8) (chipId : ChipId) (kVariant : Variant) (proxyPort : UInt16)
    (bonded rx : List UInt8) : Option (List UInt8) :=
  if rx.take kProbe.length ≠ kProbe then none
  else
    let (memory, rn) := snprintf memory replySize (replyText chipId kVariant proxyPort bonded)
    if 0 < rn then some ((List.range rn.toNat).map memory) else none

end MammotionRc.Firmware
