import MammotionRc.Firmware.HalowAssociate
import MammotionRc.Firmware.InformationElements

/-! # `HalowScan.cpp`: the networks that a scan has found

The driver hands every probe response to `scan_rx_callback`, which keeps the first of each BSSID in
`halow_ap_record` while there is room. The accessors read the records that were there when the scan was done. The
parser of the RSN element is a copy of the one in `mmutils_wlan.c` with a search of its own.
-/

namespace MammotionRc.Firmware

open Framing Machine

def MAX_SCAN_RECORD_NUM : ℕ := 10

def AKM_SUITE_NONE : UInt32 := 0
def AKM_SUITE_SAE : UInt32 := 0x000fac08
def AKM_SUITE_OWE : UInt32 := 0x000fac12

/-- `parse_rsn_information` from an offset on: what it returns, and its output. -/
def parseRsnInformationFrom (ies : Bytes) (offset : ℕ) : Option (ℤ × MmRsnInformation) :=
  if more : offset < ies.length then do
    let type ← ies[offset]?
    let length ← ies[offset + 1]?
    if type = MM_RSN_INFORMATION_IE_TYPE then
      if offset + 2 + length.toNat > ies.length then some (-1, .zero)
      else do
        let (taken, output) ← parseRsnBody ies (offset + 2) length
        return (if taken then 1 else -1, output)
    else parseRsnInformationFrom ies (offset + (2 + length.toNat))
  else some (0, .zero)
termination_by ies.length - offset

/-- `parse_rsn_information`. -/
def parseRsnInformation (ies : Bytes) : Option (ℤ × MmRsnInformation) := parseRsnInformationFrom ies 0

/-- `struct mmwlan_scan_result`, as far as it is read. -/
structure MmwlanScanResult where
  rssi : Int16
  bssid : Vector UInt8 6
  /-- The frame from its SSID on. -/
  ssid : Bytes
  ies : Bytes
  beaconInterval : UInt16
  capabilityInfo : UInt16
  ssidLen : UInt8
  opBwMhz : UInt8
deriving DecidableEq

/-- `halow_scan_result_t`. -/
structure HalowScanResult where
  rssi : Int16
  bssid : Vector UInt8 6
  ssid : CharArray 33
  beaconInterval : UInt16
  capabilityInfo : UInt16
  ssidLen : UInt8
  opBwMhz : UInt8
  securityType : SecurityType
deriving DecidableEq

/-- `mmosal_safer_strcpy(dst, src, sizeof(dst))`; the source is read up to its NUL, or as far as the field goes. -/
def saferStrcpy {n : ℕ} (dst : CharArray n) (src : Bytes) : Option (CharArray n) :=
  if src.length < n ∧ 0 ∉ src then none
  else some ⟨(strncpy dst.toList src n).set (n - 1) 0, by
    rw [List.length_set, length_strncpy, dst.toList_length, Nat.sub_self, Nat.add_zero]⟩

/-- `ssid[ssid_len] = 0`, if that is in the field. -/
def endSsid {n : ℕ} (ssid : CharArray n) (ssidLen : UInt8) : CharArray n :=
  if ssidLen.toNat < n then ⟨ssid.toList.set ssidLen.toNat 0, by rw [List.length_set, ssid.toList_length]⟩ else ssid

/-- The security type that `scan_rx_callback` writes; `old` is what is left if it writes none. -/
def scanSecurityType (old : SecurityType) (ret : ℤ) (rsnInfo : MmRsnInformation) : SecurityType :=
  if ret < 0 then .other
  else if rsnInfo.numAkmSuites = 0 then .open
  else if ret > 0 then
    if rsnInfo.akmSuites[0] = AKM_SUITE_SAE then .sae
    else if rsnInfo.akmSuites[0] = AKM_SUITE_OWE then .owe
    else if rsnInfo.akmSuites[0] = AKM_SUITE_NONE then .open
    else .other
  else old

/-- `halow_ap_record`, `num_scan_results` and `_scanCount`. -/
structure HalowScan where
  apRecord : Vector HalowScanResult MAX_SCAN_RECORD_NUM
  numScanResults : ℕ
  scanCount : ℕ
deriving DecidableEq

namespace HalowScan

/-- The records that are in use. -/
def records (s : HalowScan) : List HalowScanResult := s.apRecord.toList.take s.numScanResults

/-- `scanNetworks` up to its request. -/
def scanNetworks (s : HalowScan) : HalowScan := { s with numScanResults := 0 }

/-- The record that a result is written into. -/
def fill (old : HalowScanResult) (result : MmwlanScanResult) : Option HalowScanResult := do
  let ssid ← saferStrcpy old.ssid result.ssid
  let (ret, rsnInfo) ← parseRsnInformation result.ies
  return {
    rssi := result.rssi
    bssid := result.bssid
    ssid := endSsid ssid result.ssidLen
    beaconInterval := result.beaconInterval
    capabilityInfo := result.capabilityInfo
    ssidLen := result.ssidLen
    opBwMhz := result.opBwMhz
    securityType := scanSecurityType old.securityType ret rsnInfo }

/-- `scan_rx_callback`. -/
def scanRxCallback (s : HalowScan) (result : MmwlanScanResult) : Option HalowScan :=
  if s.numScanResults = MAX_SCAN_RECORD_NUM - 1 then some s
  else if s.records.any fun record => record.bssid = result.bssid then some s
  else if room : s.numScanResults < MAX_SCAN_RECORD_NUM then do
    let record ← fill s.apRecord[s.numScanResults] result
    return { s with
      apRecord := s.apRecord.set s.numScanResults record room
      numScanResults := s.numScanResults + 1 }
  else none

/-- `_scanDone`. -/
def scanDone (s : HalowScan) : HalowScan := { s with scanCount := s.numScanResults }

/-- The record that the accessors read for an index. -/
def record? (s : HalowScan) (i : UInt8) : Option HalowScanResult :=
  if i.toNat < s.scanCount then s.apRecord[i.toNat]? else none

/-- `SSID`. -/
def ssid (s : HalowScan) (i : UInt8) : Bytes := ((s.record? i).map fun record => cstr record.ssid.toList).getD []

/-- `encryptionType`. -/
def encryptionType (s : HalowScan) (i : UInt8) : SecurityType :=
  ((s.record? i).map HalowScanResult.securityType).getD .other

/-- `RSSI`. -/
def rssi (s : HalowScan) (i : UInt8) : Int16 := ((s.record? i).map HalowScanResult.rssi).getD 0

/-- `BSSID` with no buffer; nothing for `NULL`. -/
def bssid (s : HalowScan) (i : UInt8) : Option (Vector UInt8 6) := (s.record? i).map HalowScanResult.bssid

/-- What the `loop` of `halowscan` prints of a network. -/
structure Line where
  ssid : Bytes
  rssi : Int16
  bssid : Option (Vector UInt8 6)
  encryption : SecurityType
deriving DecidableEq

/-- The lines that `loop` prints for the count that `scanNetworks` returns. -/
def lines (s : HalowScan) : List Line :=
  (List.range s.scanCount).map fun i =>
    ⟨s.ssid (UInt8.ofNat i), s.rssi (UInt8.ofNat i), s.bssid (UInt8.ofNat i), s.encryptionType (UInt8.ofNat i)⟩

end HalowScan

end MammotionRc.Firmware
