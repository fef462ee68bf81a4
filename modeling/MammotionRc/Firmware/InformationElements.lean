import MammotionRc.Framing.LengthPrefix
import Mathlib.Data.UInt

/-! # `mmutils_wlan.c`: information elements of a frame

The functions walk a buffer of `ies_len` bytes by offsets. Every read is of the buffer, and a read behind its end has
no result here. A buffer is an object of the device's memory, so no offset comes near to `2^32` and offsets are
counted in `ℕ`; `length` of the RSN element is counted down as the `uint8_t` that it is. What a parser has written to
its output when it fails is part of its result.
-/

namespace MammotionRc.Firmware

open Framing

def MM_RSN_INFORMATION_IE_TYPE : UInt8 := 48
def MM_VENDOR_SPECIFIC_IE_TYPE : UInt8 := 221
def MM_S1G_OPERATION_IE_TYPE : UInt8 := 232

/-- `mm_find_ie_from_offset`. -/
def mmFindIeFromOffset (ies : Bytes) (searchOffset : ℕ) (ieType : UInt8) : Option ℤ :=
  if room : searchOffset + 2 ≤ ies.length then do
    let type ← ies[searchOffset]?
    let length ← ies[searchOffset + 1]?
    if type = ieType then
      if searchOffset + 2 + length.toNat > ies.length then some (-2) else some searchOffset
    else mmFindIeFromOffset ies (searchOffset + (2 + length.toNat)) ieType
  else some (-1)
termination_by ies.length - searchOffset

/-- `mm_find_ie`. -/
def mmFindIe (ies : Bytes) (ieType : UInt8) : Option ℤ := mmFindIeFromOffset ies 0 ieType

/-- The bytes that `memcmp` looks at. -/
def readBytes (ies : Bytes) (offset n : ℕ) : Option Bytes :=
  if offset + n ≤ ies.length then some ((ies.drop offset).take n) else none

/-- What is found is behind where the search began, and its header is in the buffer. -/
theorem mmFindIeFromOffset_bounds {ies : Bytes} {searchOffset : ℕ} {ieType : UInt8} {offset : ℤ}
    (found : mmFindIeFromOffset ies searchOffset ieType = some offset) (some_ : 0 ≤ offset) :
    (searchOffset : ℤ) ≤ offset ∧ offset + 2 ≤ ies.length := by
  induction searchOffset using mmFindIeFromOffset.induct ies with
  | case1 searchOffset room ih =>
    rw [mmFindIeFromOffset, dif_pos room] at found
    obtain ⟨type, _, found⟩ := Option.bind_eq_some_iff.mp found
    obtain ⟨length, _, found⟩ := Option.bind_eq_some_iff.mp found
    split_ifs at found
    · cases found
      exact absurd some_ (by decide)
    · cases found
      omega
    · have := ih length found
      omega
  | case2 searchOffset full =>
    rw [mmFindIeFromOffset, dif_neg full] at found
    cases found
    exact absurd some_ (by decide)

/-- The condition on an element that was found. -/
def matchesId (ies : Bytes) (offset : ℕ) (ieType ieLength : UInt8) (id : Bytes) : Option Bool :=
  if ieType = MM_VENDOR_SPECIFIC_IE_TYPE ∧ id.length ≤ ieLength.toNat then
    (readBytes ies (offset + 2) id.length).map fun data => decide (id = data)
  else some false

/-- `mm_find_vendor_specific_ie_from_offset`. -/
def mmFindVendorSpecificIeFromOffset (ies : Bytes) (searchOffset : ℕ) (id : Bytes) : Option ℤ :=
  if searchOffset + id.length ≤ ies.length then
    match found : mmFindIeFromOffset ies searchOffset MM_VENDOR_SPECIFIC_IE_TYPE with
    | none => none
    | some offset =>
      if negative : offset < 0 then some offset
      else do
        let ieType ← ies[offset.toNat]?
        let ieLength ← ies[offset.toNat + 1]?
        let same ← matchesId ies offset.toNat ieType ieLength id
        if same then
          if offset.toNat + 2 + ieLength.toNat > ies.length then some (-2) else some offset
        else mmFindVendorSpecificIeFromOffset ies (2 + ieLength.toNat + offset.toNat) id
  else some (-1)
termination_by ies.length + 1 - searchOffset
decreasing_by
  have := mmFindIeFromOffset_bounds found (Int.not_lt.mp negative)
  omega

/-- `mm_find_vendor_specific_ie`. -/
def mmFindVendorSpecificIe (ies id : Bytes) : Option ℤ := mmFindVendorSpecificIeFromOffset ies 0 id

/-- `ies[offset] | ies[offset+1] << 8`. -/
def read16 (ies : Bytes) (offset : ℕ) : Option UInt16 := do
  let a ← ies[offset]?
  let b ← ies[offset + 1]?
  return a.toUInt16 ||| b.toUInt16 <<< 8

/-- `ies[offset] << 24 | ies[offset+1] << 16 | ies[offset+2] << 8 | ies[offset+3]`. -/
def read32 (ies : Bytes) (offset : ℕ) : Option UInt32 := do
  let a ← ies[offset]?
  let b ← ies[offset + 1]?
  let c ← ies[offset + 2]?
  let d ← ies[offset + 3]?
  return a.toUInt32 <<< 24 ||| b.toUInt32 <<< 16 ||| c.toUInt32 <<< 8 ||| d.toUInt32

/-- `MM_RSN_INFORMATION_MAX_PAIRWISE_CIPHER_SUITES` and `MM_RSN_INFORMATION_MAX_AKM_SUITES`. -/
def MM_RSN_INFORMATION_MAX_SUITES : ℕ := 2

abbrev Suites := Vector UInt32 MM_RSN_INFORMATION_MAX_SUITES

/-- `struct mm_rsn_information`. -/
structure MmRsnInformation where
  groupCipherSuite : UInt32
  pairwiseCipherSuites : Suites
  akmSuites : Suites
  numPairwiseCipherSuites : UInt16
  numAkmSuites : UInt16
  version : UInt16
  rsnCapabilities : UInt16
deriving DecidableEq, Repr

/-- `memset(output, 0, sizeof(*output))`. -/
def MmRsnInformation.zero : MmRsnInformation := ⟨0, .replicate _ 0, .replicate _ 0, 0, 0, 0, 0⟩

/-- The number of suites that is kept. -/
def keptSuites (num : UInt16) : UInt16 := if num.toNat > MM_RSN_INFORMATION_MAX_SUITES then 2 else num

/-- Where a loop over suites ends. -/
structure SuitesRead where
  suites : Suites
  offset : ℕ
  length : UInt8

/-- What the loop does with suite `ii`. -/
def keepSuite (ies : Bytes) (kept : UInt16) (ii : ℕ) (at_ : SuitesRead) : Option Suites :=
  if ii < kept.toNat then do
    let suite ← read32 ies at_.offset
    if room : ii < MM_RSN_INFORMATION_MAX_SUITES then some (at_.suites.set ii suite room) else none
  else some at_.suites

/-- The loop over suites from suite `ii` on, of which `left` are left. -/
def readSuites (ies : Bytes) (kept : UInt16) : (left ii : ℕ) → SuitesRead → Option SuitesRead
  | 0, _, at_ => some at_
  | left + 1, ii, at_ => do
    let suites ← keepSuite ies kept ii at_
    readSuites ies kept left (ii + 1) ⟨suites, at_.offset + 4, at_.length - 4⟩

/-- What both parsers do with the body of an RSN element: whether they take it, and what they have written. -/
def parseRsnBody (ies : Bytes) (offset : ℕ) (length : UInt8) : Option (Bool × MmRsnInformation) :=
  let output := MmRsnInformation.zero
  if length < 8 then some (false, output)
  else do
    let version ← read16 ies offset
    let group ← read32 ies (offset + 2)
    let numPairwise ← read16 ies (offset + 6)
    let offset := offset + 8
    let length := length - 2 - 4 - 2
    let output := { output with
      version := version, groupCipherSuite := group, numPairwiseCipherSuites := keptSuites numPairwise }
    if length.toNat < 4 * numPairwise.toNat + 2 then some (false, output)
    else do
      let pairwise ← readSuites ies (keptSuites numPairwise) numPairwise.toNat 0
        ⟨output.pairwiseCipherSuites, offset, length⟩
      let output := { output with pairwiseCipherSuites := pairwise.suites }
      let numAkm ← read16 ies pairwise.offset
      let offset := pairwise.offset + 2
      let length := pairwise.length - 2
      let output := { output with numAkmSuites := keptSuites numAkm }
      if length.toNat < 4 * numAkm.toNat + 2 then some (false, output)
      else do
        let akm ← readSuites ies (keptSuites numAkm) numAkm.toNat 0 ⟨output.akmSuites, offset, length⟩
        let capabilities ← read16 ies akm.offset
        some (true, { output with akmSuites := akm.suites, rsnCapabilities := capabilities })

/-- `mm_parse_rsn_information`: what it returns, and its output. -/
def mmParseRsnInformation (ies : Bytes) : Option (ℤ × MmRsnInformation) := do
  let offset ← mmFindIe ies MM_RSN_INFORMATION_IE_TYPE
  if offset < 0 then some (offset, .zero)
  else do
    let length ← ies[offset.toNat + 1]?
    let (taken, output) ← parseRsnBody ies (offset.toNat + 2) length
    return (if taken then 0 else -2, output)

/-- `struct mm_s1g_operation`. -/
structure MmS1gOperation where
  operatingClass : UInt8
  operatingChannelWidthMhz : UInt8
  primaryChannelWidthMhz : UInt8
  operatingChannelNumber : UInt8
  primaryChannelNumber : UInt8
deriving DecidableEq, Repr

/-- `sizeof(*s1g_op)`. -/
def S1G_OPERATION_SIZE : ℕ := 8

/-- `mm_parse_s1g_operation`: what it returns, and its output if it is written. -/
def mmParseS1gOperation (ies : Bytes) : Option (ℤ × Option MmS1gOperation) := do
  let offset ← mmFindIe ies MM_S1G_OPERATION_IE_TYPE
  if offset < 0 then some (offset, none)
  else do
    let length ← ies[offset.toNat + 1]?
    if S1G_OPERATION_SIZE > length.toNat + 2 then some (-2, none)
    else do
      let channelWidth ← ies[offset.toNat + 2]?
      let operatingClass ← ies[offset.toNat + 3]?
      let primaryChannelNumber ← ies[offset.toNat + 4]?
      let channelCenterFreq ← ies[offset.toNat + 5]?
      return (0, some ⟨operatingClass, ((channelWidth >>> 1) &&& 0x0f) + 1, 2 - (channelWidth &&& 0x01),
        channelCenterFreq, primaryChannelNumber⟩)

end MammotionRc.Firmware
