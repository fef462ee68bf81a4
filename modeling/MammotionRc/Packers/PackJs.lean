import MammotionRc.Machine.JsNumber
import MammotionRc.Packers.PackConfig

/-! # The browser packer

`pack.js` builds the same blob from the strings of a form, writing into a typed array at a moving offset. Its
CRC reads a table of 256 words that the first call builds and the module keeps.
-/

namespace MammotionRc.Packers.Js

open Firmware Machine JsNumber

/-- What `collectFormValues` reads from the page: every value is a string. -/
structure FormValues where
  uplinkSsid : Text
  uplinkPass : Text
  region : Text
  softapSsid : Text
  softapPass : Text
  softapChannel : Text
deriving DecidableEq, Repr

def MAGIC : BitVec 32 := 0x33334643

def VERSION : UInt8 := 2

def WIDTH_SSID : ℕ := 33

def WIDTH_PASS : ℕ := 65

def WIDTH_REGION : ℕ := 4

def BODY_LEN : ℕ := 206

def TOTAL_LEN : ℕ := 210

/-- One of the eight steps that make a word of the table. -/
def crcTableStep (c : ℤ) : ℤ := if bitAnd c 1 ≠ 0 then bitXor 0xEDB88320 (ushr c 1) else ushr c 1

def buildCrcTable : List ℤ := (List.range 256).map fun i : ℕ => ushr (crcTableStep^[8] i) 0

/-- The module variable `_crcTable`: null, or the table that an earlier call built. -/
structure CrcTable where
  table : Option (List ℤ)
  built : ∀ t ∈ table, t = buildCrcTable

def crc32 (cache : CrcTable) (bytes : List UInt8) : ℤ × CrcTable :=
  let table := cache.table.getD buildCrcTable
  let crc := bytes.foldl (fun crc byte =>
    ushr (bitXor (table.getD (bitAnd (bitXor crc byte.toNat) 0xFF).toNat 0) (ushr crc 8)) 0) (ushr 0xFFFFFFFF 0)
  (ushr (bitXor crc 0xFFFFFFFF) 0, ⟨some buildCrcTable, by rintro t ⟨⟩; rfl⟩)

/-- `new Uint8Array(n)`. -/
def newArray (n : ℕ) : List UInt8 := List.replicate n 0

/-- `target.set(source, offset)`; the `DataView` setters write their bytes the same way. -/
def setBytes (target source : List UInt8) (offset : ℕ) : Except String (List UInt8) :=
  if offset + source.length ≤ target.length then
    .ok (target.take offset ++ source ++ target.drop (offset + source.length))
  else .error "offset is out of bounds"

/-- UTF-8 encode, truncate to `width - 1` bytes, NUL-pad to `width` total. -/
def fixedField (s : Text) (width : ℕ) : Except String (List UInt8) :=
  -- `s || ""` is `s` for every string
  let enc := utf8 s
  let n := min enc.length (width - 1)
  setBytes (newArray width) (enc.take n) 0

/-- `ToUint8` of a Number that holds an integer. -/
def toUint8 : JsNumber → UInt8
  | .fin n => ⟨BitVec.ofInt 8 n⟩
  | _ => 0

def buildConfigBlob (cache : CrcTable) (c : FormValues) : Except String (List UInt8 × CrcTable) :=
  let channel := parseInt c.softapChannel
  if !channel.isFinite || channel.ltInt 1 || channel.gtInt 14 then
    let text := String.ofList c.softapChannel
    .error s!"softap_channel={text} out of range 1-14"
  else do
    let body := newArray BODY_LEN
    let off := 0
    let body ← setBytes body (le32 MAGIC) off
    let off := off + 4
    let body ← setBytes body [VERSION] off
    let off := off + 1
    let body ← setBytes body (← fixedField c.uplinkSsid WIDTH_SSID) off
    let off := off + WIDTH_SSID
    let body ← setBytes body (← fixedField c.uplinkPass WIDTH_PASS) off
    let off := off + WIDTH_PASS
    let body ← setBytes body (← fixedField c.region WIDTH_REGION) off
    let off := off + WIDTH_REGION
    let body ← setBytes body (← fixedField c.softapSsid WIDTH_SSID) off
    let off := off + WIDTH_SSID
    let body ← setBytes body (← fixedField c.softapPass WIDTH_PASS) off
    let off := off + WIDTH_PASS
    let body ← setBytes body [toUint8 channel] off
    let off := off + 1
    if off ≠ BODY_LEN then .error s!"body length drift: {off} != {BODY_LEN}"
    else
      let (crc, cache) := crc32 cache body
      let out ← setBytes (newArray TOTAL_LEN) body 0
      let out ← setBytes out (le32 (toInt32 crc)) BODY_LEN
      .ok (out, cache)

end MammotionRc.Packers.Js
