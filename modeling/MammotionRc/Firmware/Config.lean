import Mathlib.Data.Nat.Notation

/-! # Compile-time configuration of the firmware

The limits that `config.h` and `main.cpp` set for `TcpProxy` and `BleCentral`, and the network defaults that
`config_load` falls back to. The build environment selects which uplink pair is compiled in.
-/

namespace MammotionRc.Firmware

/-- Hard cap on a single BLE-op frame; a longer one on the wire is a protocol violation. -/
def MAX_FRAME_LEN : ℕ := 600

/-- Drop the client if no frame has arrived in this long. -/
def CLIENT_IDLE_TIMEOUT_MS : UInt32 := 30000

/-- Attempts per `loop()` tick before yielding. -/
def BLE_WRITE_RETRY_BURST : ℕ := 6

/-- Yield between attempts. -/
def BLE_WRITE_RETRY_DELAY_MS : ℕ := 3

/-- Warn once if a frame stays unwritten this long. -/
def BLE_WRITE_STALL_LOG_MS : UInt32 := 1000

/-- The longest that one scan blocks. -/
def SCAN_TIMEOUT_MS : ℕ := 15000

/-- The longest that one `client_->connect` blocks. -/
def BLE_CONNECT_TIMEOUT_MS : ℕ := 10000

/-- `wdt_cfg.timeout_ms`. -/
def TASK_WDT_TIMEOUT_MS : ℕ := 30000

/-- The PlatformIO environments; the second one defines `USE_STANDARD_WIFI`. -/
inductive Env
  | hc33
  | hc33StandardWifi
deriving DecidableEq, Repr

/-- The bytes of a string literal, without its NUL. -/
def literal (s : String) : List UInt8 := s.toList.flatMap String.utf8EncodeChar

def WIFI_SSID : Env → List UInt8
  | .hc33 => literal "your-halow-ap-ssid"
  | .hc33StandardWifi => literal "your-2.4ghz-ssid"

def WIFI_PASS : Env → List UInt8
  | .hc33 => literal "your-halow-ap-password"
  | .hc33StandardWifi => literal "your-2.4ghz-password"

def WIFI_REGION_HALOW : List UInt8 := literal "AU"

def AP_SSID : List UInt8 := literal "MowerAP"

def AP_PASSWORD : List UInt8 := literal "mower-ap-password"

def AP_CHANNEL : UInt8 := 6

end MammotionRc.Firmware
