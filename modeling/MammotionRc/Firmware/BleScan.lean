import MammotionRc.Firmware.BleCentral
import MammotionRc.Machine.FirstMax

/-! # The scan for the mower

The NimBLE stack calls `ScanCb::onResult` for every advertisement that it hears during a scan, with what it knows
of the device by then; the callback keeps one candidate. A list of results stands for one scan: those that arrive
until the window is over or until the scan stops after the callback has asked for it.
-/

namespace MammotionRc.Firmware

open Framing Machine

/-- What the callback reads of a `NimBLEAdvertisedDevice`; the name is empty if none was heard. -/
structure AdvertisedDevice extends Advertiser where
  rssi : ℤ
  /-- `isAdvertisingService(UUID_SERVICE)`. -/
  service : Bool
deriving DecidableEq, Repr

/-- `std::toupper` in the C locale. -/
def toupper (c : UInt8) : UInt8 := if 97 ≤ c ∧ c ≤ 122 then c - 32 else c

/-- The lambda of `ble_name_is_rtk`. -/
def hasPrefixCi : Bytes → Bytes → Bool
  | _, [] => true
  | [], _ :: _ => false
  | c :: name, p :: rest => toupper c = p && hasPrefixCi name rest

def bleNameIsRtk (name : Bytes) : Bool := hasPrefixCi name (literal "RBS") || hasPrefixCi name (literal "RTK")

/-- An advertiser this strong is attached to the mower. -/
def MOWER_RSSI_STRONG_DBM : ℤ := -55

structure ScanCb where
  haveCandidate : Bool
  bestRssi : ℤ
  /-- `best_addr`, `best_addr_type` and `best_name`. -/
  best : Advertiser
deriving DecidableEq, Repr

namespace ScanCb

def reset (cb : ScanCb) : ScanCb :=
  { cb with haveCandidate := false, bestRssi := -127, best := { cb.best with name := [] } }

/-- `onResult`, and whether it asks to stop the scan. -/
def onResult (cb : ScanCb) (d : AdvertisedDevice) : ScanCb × Bool :=
  if !d.service then (cb, false)
  else if bleNameIsRtk d.name then (cb, false)
  else if cb.haveCandidate ∧ d.rssi ≤ cb.bestRssi then (cb, false)
  else (⟨true, d.rssi, d.toAdvertiser⟩, decide (MOWER_RSSI_STRONG_DBM ≤ d.rssi))

/-- The callback after the results of a scan. -/
def scan (cb : ScanCb) (results : List AdvertisedDevice) : ScanCb :=
  results.foldl (fun cb d => (cb.onResult d).1) cb.reset

/-- What the scan hands to `scan_for_mower_`. -/
def candidate (cb : ScanCb) : Option Advertiser := if cb.haveCandidate then some cb.best else none

end ScanCb

/-- `scan_for_mower_` with the callback of earlier scans and the results of this one. -/
def BleCentral.scanForMowerWith (b : BleCentral) (cb : ScanCb) (results : List AdvertisedDevice) : Bool × BleCentral :=
  b.scanForMower (cb.scan results).candidate

end MammotionRc.Firmware
