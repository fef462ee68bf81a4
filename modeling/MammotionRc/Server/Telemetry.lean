import MammotionRc.Server.Joystick

/-! # Telemetry requests and the driving hold

`_DRIVING_UNTIL` keeps one deadline per mower. Every joystick socket of the mower writes it, and the tasks that
send telemetry on their own (`_watchdog` with its probes, `_height_readback`) read it before they send. Tasks
switch only at awaits; how long a send takes is the time that passes before the event that ends it. Times and
periods are counted in nanoseconds of `time.monotonic()`.
-/

namespace MammotionRc.Server

open Machine

/-- `1.2`. -/
def DRIVE_HOLD_S : ℕ := 1200000000
/-- `6.0`. -/
def LIGHT_PROBE_S : ℕ := 6000000000
/-- `60.0`. -/
def ERROR_PROBE_S : ℕ := 60000000000
/-- `30.0`. -/
def WATCHER_IDLE_S : ℕ := 30000000000
/-- The sleep of `2.0` between two ticks of `_watchdog`. -/
def TICK_S : ℕ := 2000000000
/-- The delays `(1.0, 4.0, 7.0)` of `_height_readback`. -/
def READBACK_DELAYS : List ℕ := [1000000000, 4000000000, 7000000000]

/-- `if force < DEAD_ZONE` takes its `else` branch. -/
def Frame.Drives (frame : Frame) : Prop := frame.force.lt DEAD_ZONE = false

instance (frame : Frame) : Decidable frame.Drives := inferInstanceAs (Decidable (_ = _))

/-- A joystick handler with its socket. -/
structure JoystickSocket where
  name : String
  ws : JoystickWs
  /-- The last frame it received, and when; the code keeps neither. -/
  latest : Option (Frame × ℕ)
deriving DecidableEq, Repr

inductive Probe
  | carLight
  | cutterMode
  | errorCode
  | errorTimestamp
deriving DecidableEq, Repr

/-- Where `_watchdog` is suspended. -/
inductive ProberPc
  /-- Created by `create_task` and not run yet. -/
  | created
  | sleeping (wake : ℕ)
  /-- `await h.send_raw(...)` of a probe, in the tick that sampled the clock at `now`. -/
  | sending (probe : Probe) (now : ℕ)
  | done
deriving DecidableEq, Repr

/-- `_watchdog` as far as it probes. -/
structure Prober where
  name : String
  /-- `none` is `float("-inf")`. -/
  lastLightProbe : Option ℕ
  lastErrorProbe : Option ℕ
  pc : ProberPc
deriving DecidableEq, Repr

/-- Where `_height_readback` is suspended; `later` are the delays it has not started. -/
inductive ReadbackPc
  | created
  | sleeping (wake : ℕ) (later : List ℕ)
  /-- `await h.request_report_snapshot()`. -/
  | requesting (later : List ℕ)
  | done
deriving DecidableEq, Repr

structure Readback where
  name : String
  pc : ReadbackPc
deriving DecidableEq, Repr

structure Telemetry where
  now : ℕ
  drivingUntil : String → Option ℕ
  lastStatusPoll : String → Option ℕ
  readbackTasks : String → Option ℕ
  sockets : ℕ → Option JoystickSocket
  watchdogs : ℕ → Option Prober
  readbacks : ℕ → Option Readback

inductive ProberAction
  /-- The task runs for the first time. -/
  | start
  /-- It wakes up; whether the transport is CONNECTED, and whether the handle is registered. -/
  | tick (connected handle : Bool)
  /-- The probe in flight is through or raised; whether the handle is registered. -/
  | sent (ok handle : Bool)
  /-- `CancelledError` is raised at its await. -/
  | cancelled
deriving DecidableEq, Repr

inductive ReadbackAction
  /-- The task runs for the first time. -/
  | start
  /-- Its delay is over. -/
  | wake
  /-- The report request returns or raises. -/
  | returned
deriving DecidableEq, Repr

inductive TelemetryEvent
  | elapse (nanoseconds : ℕ)
  /-- `GET /api/status`. -/
  | statusPoll (name : String)
  /-- Handler `j` has created its sender. -/
  | opened (j : ℕ) (name : String) (counted : Bool)
  | socket (j : ℕ) (e : JoystickEvent)
  /-- `create_task(_watchdog(name))`. -/
  | watch (k : ℕ) (name : String)
  | watchdog (k : ℕ) (action : ProberAction)
  /-- `/api/set/{name}/blade_height` replaces the read-back of the mower by number `r`. -/
  | heightSet (r : ℕ) (name : String)
  | readback (r : ℕ) (action : ReadbackAction)
  /-- `_teardown_all` cancels the read-backs. -/
  | teardownBegins
  /-- `_teardown_all` clears the dictionaries. -/
  | teardownEnds
deriving DecidableEq, Repr

/-- `now - last >= period`. -/
def due (last : Option ℕ) (period now : ℕ) : Bool :=
  match last with
  | some last => decide (period ≤ now - last)
  | none => true

namespace Prober

/-- A tick from its fault-log probe on: it sampled the clock at `now`, and `idle` is `connected and not driving`. -/
def errorStage (w : Prober) (now clock : ℕ) (idle handle : Bool) : Prober :=
  if idle && due w.lastErrorProbe ERROR_PROBE_S now then
    { w with
      lastErrorProbe := some now
      pc := if handle then .sending .errorCode now else .sleeping (clock + TICK_S) }
  else { w with pc := .sleeping (clock + TICK_S) }

def tick (w : Prober) (now : ℕ) (idle watched handle : Bool) : Prober :=
  if idle && watched && due w.lastLightProbe LIGHT_PROBE_S now then
    if handle then { w with lastLightProbe := some now, pc := .sending .carLight now }
    else { w with lastLightProbe := some now }.errorStage now now idle handle
  else w.errorStage now now idle handle

/-- The await of `probe` is over; an exception skips the rest of its pair. -/
def sent (w : Prober) (probe : Probe) (now clock : ℕ) (ok handle : Bool) : Prober :=
  match probe, ok with
  | .carLight, true => { w with pc := .sending .cutterMode now }
  | .carLight, false | .cutterMode, _ => w.errorStage now clock true handle
  | .errorCode, true => { w with pc := .sending .errorTimestamp now }
  | .errorCode, false | .errorTimestamp, _ => { w with pc := .sleeping (clock + TICK_S) }

end Prober

namespace Readback

/-- The loop over the delays goes on. -/
def next (b : Readback) (clock : ℕ) (later : List ℕ) : Readback :=
  match later with
  | delay :: later => { b with pc := .sleeping (clock + delay) later }
  | [] => { b with pc := .done }

end Readback

namespace Telemetry

/-- `_is_driving`. -/
def isDriving (s : Telemetry) (name : String) : Bool := decide (s.now < (s.drivingUntil name).getD 0)

def watched (s : Telemetry) (name : String) : Bool :=
  decide (s.now - (s.lastStatusPoll name).getD 0 < WATCHER_IDLE_S)

def setSocket (s : Telemetry) (j : ℕ) (socket : JoystickSocket) : Telemetry :=
  { s with sockets := Function.update s.sockets j (some socket) }

def setWatchdog (s : Telemetry) (k : ℕ) (w : Prober) : Telemetry :=
  { s with watchdogs := Function.update s.watchdogs k (some w) }

def setReadback (s : Telemetry) (r : ℕ) (b : Readback) : Telemetry :=
  { s with readbacks := Function.update s.readbacks r (some b) }

def setDrivingUntil (s : Telemetry) (name : String) (deadline : Option ℕ) : Telemetry :=
  { s with drivingUntil := Function.update s.drivingUntil name deadline }

/-- What the handler of `socket` does next to its mailbox. -/
def stepSocket (s : Telemetry) (j : ℕ) (socket : JoystickSocket) (e : JoystickEvent) (ws : JoystickWs) :
    Telemetry :=
  match e with
  | .frame frame =>
    (s.setDrivingUntil socket.name (if frame.Drives then some (s.now + DRIVE_HOLD_S) else none)).setSocket j
      { socket with ws := ws, latest := some (frame, s.now) }
  | .joined => (s.setDrivingUntil socket.name none).setSocket j { socket with ws := ws }
  | _ => s.setSocket j { socket with ws := ws }

def stepWatchdog (s : Telemetry) (w : Prober) (action : ProberAction) : Option Prober :=
  match action, w.pc with
  | .start, .created => some { w with pc := .sleeping (s.now + TICK_S) }
  | .tick connected handle, .sleeping wake =>
    if wake ≤ s.now then some (w.tick s.now (connected && !s.isDriving w.name) (s.watched w.name) handle) else none
  | .sent ok handle, .sending probe now => some (w.sent probe now s.now ok handle)
  | .cancelled, .created | .cancelled, .sleeping _ | .cancelled, .sending _ _ => some { w with pc := .done }
  | _, _ => none

def stepReadback (s : Telemetry) (b : Readback) (action : ReadbackAction) : Option Readback :=
  match action, b.pc with
  | .start, .created => some (b.next s.now READBACK_DELAYS)
  | .wake, .sleeping wake later =>
    if wake ≤ s.now then
      if s.isDriving b.name then some (b.next s.now later) else some { b with pc := .requesting later }
    else none
  | .returned, .requesting later => some (b.next s.now later)
  | _, _ => none

/-- `cancel()` on read-back `r`. -/
def cancelReadback (s : Telemetry) (r : ℕ) : Telemetry :=
  match s.readbacks r with
  | some b => s.setReadback r { b with pc := .done }
  | none => s

/-- `cancel()` on every registered read-back. -/
def cancelReadbacks (s : Telemetry) : Telemetry :=
  { s with
    readbacks := fun r => (s.readbacks r).map fun b =>
      if s.readbackTasks b.name = some r then { b with pc := .done } else b }

/-- The registered read-back of the mower is cancelled, and read-back `r` takes its place. -/
def replaceReadback (s : Telemetry) (r : ℕ) (name : String) : Telemetry :=
  let s := match s.readbackTasks name with
    | some prev => s.cancelReadback prev
    | none => s
  { s with readbackTasks := Function.update s.readbackTasks name (some r) }.setReadback r ⟨name, .created⟩

def step (s : Telemetry) : TelemetryEvent → Option Telemetry
  | .elapse nanoseconds => some { s with now := s.now + nanoseconds }
  | .statusPoll name => some { s with lastStatusPoll := Function.update s.lastStatusPoll name (some s.now) }
  | .opened j name counted =>
    match s.sockets j with
    | none => some (s.setSocket j ⟨name, .opened counted, none⟩)
    | some _ => none
  | .socket j e =>
    (s.sockets j).bind fun socket => (socket.ws.step e).map fun ws => s.stepSocket j socket e ws
  | .watch k name =>
    match s.watchdogs k with
    | none => some (s.setWatchdog k ⟨name, none, none, .created⟩)
    | some _ => none
  | .watchdog k action =>
    (s.watchdogs k).bind fun w => (s.stepWatchdog w action).map fun w => s.setWatchdog k w
  | .heightSet r name =>
    match s.readbacks r with
    | none => some (s.replaceReadback r name)
    | some _ => none
  | .readback r action =>
    (s.readbacks r).bind fun b => (s.stepReadback b action).map fun b => s.setReadback r b
  | .teardownBegins => some { s.cancelReadbacks with readbackTasks := fun _ => none }
  | .teardownEnds => some { s with drivingUntil := fun _ => none, lastStatusPoll := fun _ => none }

/-- The server starts when the clock shows `boot`. -/
def init (boot : ℕ) : Telemetry where
  now := boot
  drivingUntil _ := none
  lastStatusPoll _ := none
  readbackTasks _ := none
  sockets _ := none
  watchdogs _ := none
  readbacks _ := none

end Telemetry

end MammotionRc.Server
