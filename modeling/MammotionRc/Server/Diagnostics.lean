import MammotionRc.Machine.TryLock
import MammotionRc.Server.PyNumber

/-! # Capability probes and message traces

A diagnostics run sends commands to a mower one by one and looks at what comes back. `_PROBE_LOCK` is meant to keep
two runs apart: a request that finds it taken is refused, and between this look and the taking there is no `await`.
A step goes from one `await` of a run to its next. Requests, the ends of sends and sleeps, cancellations and the
frames of the mowers come in any order. What a snapshot has under a path is a type, and times are left out.
-/

namespace MammotionRc.Server

open Machine

/-- What a run sends. -/
inductive DiagCommand
  | requestReportSnapshot
  | getSpeed
  | getCutterMode
  | getMaintenance
  | getDeviceVersionInfo
  | getDeviceProductModel
  | getCarLight (ids : ℕ)
  | getErrorCode
  | readAnimalAvoidance
  | setBladeHeight (mm : ℤ)
  | getReportCfg (count : ℕ)
  | getReportCfgStop
  | sendTodevBleSync (syncType : ℕ)
deriving DecidableEq, Repr

/-- An entry of `_PROBES`: its label, its command and the watched paths by their labels. -/
structure DiagProbe where
  label : String
  command : DiagCommand
  watch : List (String × String)
deriving DecidableEq, Repr

/-- `_PROBES`. -/
def PROBES : List DiagProbe :=
  [⟨"request_report_snapshot", .requestReportSnapshot,
      [("dev.sys_status", "report_data.dev.sys_status"), ("dev.battery_val", "report_data.dev.battery_val"),
        ("dev.sensor_status", "report_data.dev.sensor_status")]⟩,
    ⟨"get_speed", .getSpeed,
      [("mower_state.travel_speed", "mower_state.travel_speed"),
        ("work.man_run_speed", "report_data.work.man_run_speed")]⟩,
    ⟨"get_cutter_mode", .getCutterMode,
      [("report_data.cutter_work_mode_info", "report_data.cutter_work_mode_info"),
        ("mower_state.cutter_mode", "mower_state.cutter_mode"),
        ("mower_state.cutter_rpm", "mower_state.cutter_rpm")]⟩,
    ⟨"get_maintenance", .getMaintenance, [("report_data.maintenance", "report_data.maintenance")]⟩,
    ⟨"get_device_version_info", .getDeviceVersionInfo,
      [("mower_state.swversion", "mower_state.swversion"),
        ("device_firmwares.device_version", "device_firmwares.device_version"),
        ("device_firmwares.main_controller", "device_firmwares.main_controller")]⟩,
    ⟨"get_device_product_model", .getDeviceProductModel,
      [("mower_state.model_id", "mower_state.model_id"), ("mower_state.sub_model_id", "mower_state.sub_model_id")]⟩,
    ⟨"get_car_light(1126)", .getCarLight 1126, [("mower_state.lamp_info", "mower_state.lamp_info")]⟩,
    ⟨"get_error_code", .getErrorCode,
      [("errors.err_code_list", "errors.err_code_list"), ("errors.err_code_list_time", "errors.err_code_list_time")]⟩,
    ⟨"read_animal_avoidance", .readAnimalAvoidance,
      [("mower_state.animal_protection", "mower_state.animal_protection")]⟩]

/-- The keys of `_TRACE_COMMANDS`. -/
inductive TraceKey
  | noop
  | setBladeHeight
  | getSpeed
  | getCutterMode
  | requestReportSnapshot
  | getReportCfg
  | todevBleSync
deriving DecidableEq, Repr

/-- `_TRACE_COMMANDS.get(key)`. -/
def TraceKey.ofName? (key : String) : Option TraceKey :=
  [("noop", noop), ("set_blade_height", setBladeHeight), ("get_speed", getSpeed), ("get_cutter_mode", getCutterMode),
    ("request_report_snapshot", requestReportSnapshot), ("get_report_cfg", getReportCfg),
    ("todev_ble_sync", todevBleSync)].lookup key

/-- `int(min(max(int(value), lo), hi))`. -/
def clampBladeHeight (value lo hi : ℤ) : ℤ := min (max value lo) hi

/-- What `entry["send"]` sends, with the limits of the cutting height. -/
def TraceKey.command (key : TraceKey) (value lo hi : ℤ) : Option DiagCommand :=
  match key with
  | noop => none
  | setBladeHeight => some (.setBladeHeight (clampBladeHeight value lo hi))
  | getSpeed => some .getSpeed
  | getCutterMode => some .getCutterMode
  | requestReportSnapshot => some .requestReportSnapshot
  | getReportCfg => some (.getReportCfg 0)
  | todevBleSync => some (.sendTodevBleSync 3)

/-- `entry["cleanup"]`. -/
def TraceKey.cleanup (key : TraceKey) : Option DiagCommand :=
  match key with
  | getReportCfg => some .getReportCfgStop
  | _ => none

def TRACE_DEFAULT_SECONDS : ℤ := 12
def TRACE_MAX_SECONDS : ℤ := 30
def TRACE_DEFAULT_BLADE_MM : ℤ := 35
def TRACE_MAX_MESSAGES : ℕ := 400

/-- The body of a trace request: `str(body.get("command") or "noop")`, and what `int` makes of the other two, if
they are there. -/
structure TraceBody where
  command : String
  seconds : Option (Except NumberError ℤ)
  value : Option (Except NumberError ℤ)

structure TraceRequest where
  key : TraceKey
  seconds : ℤ
  value : ℤ
deriving DecidableEq, Repr

/-- Why a request is refused. -/
inductive DiagRefusal
  /-- `HTTPException(404, ...)`. -/
  | unknownMower
  /-- `HTTPException(400, ...)`. -/
  | unknownCommand
  /-- `HTTPException(400, ...)`. -/
  | notAnInteger
  /-- `HTTPException(409, ...)`. -/
  | busy
  /-- An exception that the handler does not expect. -/
  | raised (e : NumberError)
deriving DecidableEq, Repr

/-- `except (TypeError, ValueError)`. -/
def orNotAnInteger : Except NumberError ℤ → Except DiagRefusal ℤ
  | .ok n => .ok n
  | .error .overflowError => .error (.raised .overflowError)
  | .error _ => .error .notAnInteger

/-- The checks of `diag_trace` on the body. -/
def TraceBody.request (body : TraceBody) : Except DiagRefusal TraceRequest :=
  match TraceKey.ofName? body.command with
  | none => .error .unknownCommand
  | some key => do
    let seconds ← orNotAnInteger (body.seconds.getD (.ok TRACE_DEFAULT_SECONDS))
    let value ← orNotAnInteger (body.value.getD (.ok TRACE_DEFAULT_BLADE_MM))
    return ⟨key, max 1 (min seconds TRACE_MAX_SECONDS), value⟩

/-- What a run is for. -/
inductive DiagKind
  | probe
  | trace (t : TraceRequest)
deriving DecidableEq, Repr

/-- What the installed pymammotion offers, and the limits of the cutting height of a handle. -/
structure DiagLibrary where
  /-- `hasattr` for the method that builds or makes the command. -/
  has : DiagCommand → Bool
  bladeLimits : ℕ → ℤ × ℤ

/-- What `h.snapshot.raw` has under a path, and `h.last_report_at`. -/
structure DiagSnapshot (V : Type) where
  get : String → V
  lastReportAt : ℚ

inductive ProbeStatus
  | notInLib
  | replied (changed : List String)
  | sentNoChange (populated : List String)
  | error
deriving DecidableEq, Repr

structure ProbeEntry where
  status : ProbeStatus
  /-- `link_alive_during_wait`; nothing if there was no wait. -/
  linkAlive : Option Bool
deriving DecidableEq, Repr

section

variable {V : Type} [DecidableEq V] (nonzero : V → Bool)

/-- The entry of a probe that was waited for; `nonzero` is `_diag_nonzero`. -/
def DiagProbe.entry (p : DiagProbe) (before after : DiagSnapshot V) : ProbeEntry where
  status :=
    match (p.watch.filter fun w => after.get w.2 ≠ before.get w.2).map Prod.fst with
    | [] => .sentNoChange ((p.watch.filter fun w => nonzero (after.get w.2)).map Prod.fst)
    | changed => .replied changed
  linkAlive := some (before.lastReportAt < after.lastReportAt)

end

/-- How a run comes to its end. -/
inductive DiagEnd
  | answered
  /-- It was cancelled. -/
  | cancelled
deriving DecidableEq, Repr

/-- Where a run waits. -/
inductive DiagPc (V : Type)
  /-- `await h.send_raw(...)` of a probe, with the probes that follow. -/
  | probing (before : DiagSnapshot V) (p : DiagProbe) (rest : List DiagProbe)
  /-- The wait of a probe. -/
  | waiting (before : DiagSnapshot V) (p : DiagProbe) (rest : List DiagProbe)
  /-- `await entry["send"](h, value)`. -/
  | sending
  /-- `await asyncio.sleep(seconds)`. -/
  | listening
  /-- `await cleanup(h)`, and how the run ends then. -/
  | cleaning (how : DiagEnd)
  | ended (how : DiagEnd)

def DiagPc.isEnded {V : Type} : DiagPc V → Bool
  | ended _ => true
  | _ => false

/-- A run, and what it has gathered for its answer. -/
structure DiagRun (M V : Type) where
  kind : DiagKind
  handle : ℕ
  pc : DiagPc V
  probes : List (String × ProbeEntry)
  /-- The handler `_on_msg` is subscribed at the broker of the handle. -/
  subscribed : Bool
  captured : List M
  overflow : ℕ
  before : Option (DiagSnapshot V)
  after : Option (DiagSnapshot V)
  /-- `send_error` is set. -/
  sendError : Bool

/-- The runs in the order of their starts, `_PROBE_LOCK`, and all commands in the order of their sends. -/
abbrev Diagnostics (M V : Type) := TryLock (DiagRun M V) DiagCommand

/-- What happens. -/
inductive DiagEvent (M V : Type)
  /-- `POST /api/diag/{name}/probe`, with the handle if the name is known, and the snapshot at this time. -/
  | probe (handle : Option ℕ) (now : DiagSnapshot V)
  /-- `POST /api/diag/{name}/trace`. -/
  | trace (handle : Option ℕ) (body : TraceBody) (now : DiagSnapshot V)
  /-- A send of run `i` comes back, or raises. -/
  | sent (i : ℕ) (ok : Bool) (now : DiagSnapshot V)
  /-- A sleep of run `i` is over. -/
  | slept (i : ℕ) (now : DiagSnapshot V)
  /-- Run `i` is cancelled. -/
  | cancelled (i : ℕ)
  /-- A frame comes from the mower of a handle. -/
  | frame (handle : ℕ) (msg : M)

/-- What a run does up to its next `await`: what becomes of it, and what it sends. -/
abbrev DiagTurn (M V : Type) := DiagRun M V × List DiagCommand

namespace DiagRun

variable {M V : Type} (lib : DiagLibrary)

/-- `_on_msg`. -/
def onMsg (r : DiagRun M V) (msg : M) : DiagRun M V :=
  if r.captured.length < TRACE_MAX_MESSAGES then { r with captured := r.captured ++ [msg] }
  else { r with overflow := r.overflow + 1 }

/-- The broker hands a frame to its subscribers. -/
def hear (r : DiagRun M V) (handle : ℕ) (msg : M) : DiagRun M V :=
  if r.subscribed ∧ r.handle = handle then r.onMsg msg else r

/-- The run comes to its end. -/
def finish (r : DiagRun M V) (how : DiagEnd) : DiagTurn M V := ({ r with pc := .ended how }, [])

/-- The loop over the probes, up to its next send; a probe that the library does not have is skipped. -/
def nextProbe (r : DiagRun M V) (now : DiagSnapshot V) : List DiagProbe → DiagTurn M V
  | [] => r.finish .answered
  | p :: rest =>
    if lib.has p.command then ({ r with pc := .probing now p rest }, [p.command])
    else nextProbe { r with probes := r.probes ++ [(p.label, ⟨.notInLib, none⟩)] } now rest

/-- `_run_trace` up to its first `await`: it subscribes, looks at the snapshot and sends. -/
def openTrace (r : DiagRun M V) (t : TraceRequest) (now : DiagSnapshot V) : DiagTurn M V :=
  let r := { r with subscribed := true, before := some now }
  match t.key.command t.value (lib.bladeLimits r.handle).1 (lib.bladeLimits r.handle).2 with
  | none => ({ r with pc := .listening }, [])
  | some c =>
    if lib.has c then ({ r with pc := .sending }, [c]) else ({ r with pc := .listening, sendError := true }, [])

/-- The `finally` of `_run_trace`. -/
def closeTrace (r : DiagRun M V) (t : TraceRequest) (how : DiagEnd) : DiagTurn M V :=
  let r := { r with subscribed := false }
  match t.key.cleanup with
  | some c => ({ r with pc := .cleaning how }, [c])
  | none => r.finish how

/-- The first turn of a run. -/
def start (kind : DiagKind) (handle : ℕ) (now : DiagSnapshot V) : DiagTurn M V :=
  let r : DiagRun M V := ⟨kind, handle, .ended .answered, [], false, [], 0, none, none, false⟩
  match kind with
  | .probe => r.nextProbe lib now PROBES
  | .trace t => r.openTrace lib t now

/-- The send that the run awaits comes back or raises. -/
def sendOver (r : DiagRun M V) (ok : Bool) (now : DiagSnapshot V) : Option (DiagTurn M V) :=
  match r.pc with
  | .probing before p rest =>
    some (if ok then ({ r with pc := .waiting before p rest }, [])
      else nextProbe lib { r with probes := r.probes ++ [(p.label, ⟨.error, none⟩)] } now rest)
  | .sending => some ({ r with pc := .listening, sendError := !ok }, [])
  | .cleaning how => some (r.finish how)
  | _ => none

/-- The sleep that the run awaits is over. -/
def sleepOver [DecidableEq V] (nonzero : V → Bool) (r : DiagRun M V) (now : DiagSnapshot V) :
    Option (DiagTurn M V) :=
  match r.pc, r.kind with
  | .waiting before p rest, _ =>
    some (nextProbe lib { r with probes := r.probes ++ [(p.label, p.entry nonzero before now)] } now rest)
  | .listening, .trace t => some (closeTrace { r with after := some now } t .answered)
  | _, _ => none

/-- The run is cancelled where it waits. -/
def cancel (r : DiagRun M V) : Option (DiagTurn M V) :=
  match r.pc, r.kind with
  | .probing .., _ | .waiting .., _ | .cleaning _, _ => some (r.finish .cancelled)
  | .sending, .trace t | .listening, .trace t => some (r.closeTrace t .cancelled)
  | _, _ => none

end DiagRun

namespace Diagnostics

variable {M V : Type}

def init : Diagnostics M V := TryLock.empty

/-- The checks of the two handlers: why the request is refused, or what it starts. -/
def checkRequest (s : Diagnostics M V) (handle : Option ℕ) (kind : Except DiagRefusal DiagKind) :
    Except DiagRefusal (ℕ × DiagKind) :=
  match handle with
  | none => .error .unknownMower
  | some h => do
    let kind ← kind
    if s.locked then .error .busy else .ok (h, kind)

/-- The run has left `async with _PROBE_LOCK`. -/
def runEnded (r : DiagRun M V) : Bool := r.pc.isEnded

variable (lib : DiagLibrary)

/-- A refused request changes nothing. -/
def request (s : Diagnostics M V) (handle : Option ℕ) (kind : Except DiagRefusal DiagKind) (now : DiagSnapshot V) :
    Diagnostics M V :=
  match s.checkRequest handle kind with
  | .error _ => s
  | .ok (h, kind) => s.enter runEnded (DiagRun.start lib kind h now)

/-- Run `i` has the turn that it can have. -/
def turn (s : Diagnostics M V) (i : ℕ) (next : DiagRun M V → Option (DiagTurn M V)) : Option (Diagnostics M V) :=
  (s.runs[i]?.bind next).map (s.resume runEnded i)

def step [DecidableEq V] (nonzero : V → Bool) (s : Diagnostics M V) : DiagEvent M V → Option (Diagnostics M V)
  | .probe handle now => some (s.request lib handle (.ok .probe) now)
  | .trace handle body now => some (s.request lib handle (body.request.map .trace) now)
  | .sent i ok now => s.turn i fun r => r.sendOver lib ok now
  | .slept i now => s.turn i fun r => r.sleepOver lib nonzero now
  | .cancelled i => s.turn i fun r => r.cancel
  | .frame handle msg => some (s.revise fun r => r.hear handle msg)

end Diagnostics

end MammotionRc.Server
