import MammotionRc.Firmware.BleCentral

/-! # The task watchdog of `loop()`

`loop()` resets the task watchdog and calls `TcpProxy::loop()`, so the watchdog is reset whenever that
function looks at its client. The clock of this machine is advanced by the calls that block: the scans and
connects of `connect_mower` by the times recorded with its answers, a failed write attempt by its retry
delay. Nothing else takes time.
-/

namespace MammotionRc.Firmware

open Framing Machine

/-- How long the blocking calls of one `connect_mower` take; the fields of calls that are not made are
ignored. -/
structure ConnectTimes where
  scan : ℕ
  connect : ℕ
  rescan : ℕ
  reconnect : ℕ
  scan_le : scan ≤ SCAN_TIMEOUT_MS
  connect_le : connect ≤ BLE_CONNECT_TIMEOUT_MS
  rescan_le : rescan ≤ SCAN_TIMEOUT_MS
  reconnect_le : reconnect ≤ BLE_CONNECT_TIMEOUT_MS

namespace BleCentral

/-- The time that `openLink` blocks. -/
def openLinkTime (a : ConnectAnswers) (times : ConnectTimes) : ℕ :=
  if a.connect then times.connect
  else
    match a.rescan with
    | none => times.connect + times.rescan
    | some _ => times.connect + times.rescan + times.reconnect

/-- The time that `connect_mower` blocks. -/
def connectMowerTime (b : BleCentral) (a : ConnectAnswers) (times : ConnectTimes) : ℕ :=
  if b.isConnected then 0
  else if b.addrKnown then openLinkTime a times
  else
    match a.scan with
    | none => times.scan
    | some _ => times.scan + openLinkTime a times

end BleCentral

/-- The firmware with its watchdog. -/
structure WatchedSystem where
  system : BleSystem
  /-- The clock at the last `esp_task_wdt_reset()`. -/
  lastReset : ℕ
  /-- Write attempts that failed since then. -/
  failed : ℕ
deriving DecidableEq, Repr

inductive WatchedEvent
  /-- Any event but a connect and the passing of time. -/
  | call (e : BleEvent)
  | connectMower (answers : ConnectAnswers) (times : ConnectTimes)

namespace WatchedSystem

/-- `setup()` arms the watchdog and returns. -/
def init (mutex : Bool) : WatchedSystem := ⟨.init mutex, 0, 0⟩

def clock (s : WatchedSystem) : ℕ := s.system.task.clock

/-- The write attempts that failed, after one more event. -/
def failedAfter (s : WatchedSystem) : BleEvent → ℕ
  | .other .connected => 0
  | .write _ ok => if s.system.ble.write ok then s.failed else s.failed + 1
  | _ => s.failed

def step (s : WatchedSystem) : WatchedEvent → Option WatchedSystem
  | .call (.connectMower _) | .call (.other (.elapse _)) => none
  | .call e =>
    (s.system.step e).map fun system =>
      ⟨system, if e = .other .connected then s.clock else s.lastReset, s.failedAfter e⟩
  | .connectMower answers times =>
    (s.system.step (.connectMower answers)).map fun system =>
      ⟨{ system with task.clock := s.clock + s.system.ble.connectMowerTime answers times }, s.lastReset, s.failed⟩

/-- The watchdog has not fired. -/
def Fed (s : WatchedSystem) : Prop := s.clock - s.lastReset < TASK_WDT_TIMEOUT_MS

end WatchedSystem

end MammotionRc.Firmware
