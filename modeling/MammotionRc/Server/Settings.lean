import MammotionRc.Server.PyNumber

/-! # Parameterized settings of a mower

`post_setting` clamps a cutting height or a working speed to the limits in force and sends it. Every
`h.send_raw` succeeds here, and the read-back that it schedules for a cutting height sends no setting. What
pymammotion knows of a name and how Python quotes a string are left open.
-/

namespace MammotionRc.Server

open Machine

/-- `{"min": ..., "max": ...}`. -/
structure Range (α : Type) where
  min : α
  max : α
deriving DecidableEq, Repr

/-- `device_limits`: the cutting height in mm and the working speed in m/s. -/
structure Limits where
  bladeHeight : Range ℤ
  workingSpeed : Range ℚ
deriving DecidableEq, Repr

/-- The double that a decimal of two digits in the source denotes. -/
def hundredths (k : ℤ) : ℚ := Binary64.nearest (k / 100)

def _LUBA_FALLBACK_LIMITS : Limits := ⟨⟨30, 70⟩, ⟨hundredths 20, hundredths 120⟩⟩

/-- The commands of pymammotion that the handler builds. -/
inductive SettingCommand
  | setBladeHeight (v : ℤ)
  | operateOnDevice (mainCtrl cutKnifeCtrl cutKnifeHeight : ℤ) (maxRunSpeed : ℚ)
  | setSpeed (v : PyFloat)
  | setCutterMode (v : ℤ)
  | getCutterMode
deriving DecidableEq, Repr

/-- `int | float`. -/
inductive PyNumber
  | int (n : ℤ)
  | float (x : PyFloat)
deriving DecidableEq, Repr

inductive SettingError
  | httpException (status : ℕ) (detail : String)
  /-- An exception that the handler does not expect. -/
  | raised (e : NumberError)
deriving DecidableEq, Repr

structure SettingRequest where
  name : String
  setting : String
  /-- `payload.get("value")`. -/
  value : JsonValue
  /-- `payload.get("method")`. -/
  method : Option String
deriving DecidableEq, Repr

structure SettingsApp where
  /-- `state.handles`, each as what `h.snapshot.raw.device_limits` gives, if it can be read. -/
  handles : String → Option (Option Limits)
  /-- `DeviceType.is_yuka`. -/
  isYuka : String → Bool
  /-- `_BLADE_HEIGHT_METHOD`. -/
  bladeHeightMethod : String
  /-- `repr`. -/
  repr : String → String

/-- The commands sent, and what the request is answered with. -/
abbrev SettingOutcome := List SettingCommand × Except SettingError PyNumber

namespace SettingsApp

variable (app : SettingsApp)

/-- `_device_limits` for a model that pymammotion has no entry for. -/
def familyLimits (name : String) : Option Limits :=
  if name ≠ "" ∧ app.isYuka name = false ∧ "luba".toList <:+: name.toLower.toList then some _LUBA_FALLBACK_LIMITS
  else none

/-- `_device_limits`. -/
def deviceLimits (h : Option Limits) (name : String) : Option Limits :=
  match h with
  | some limits => if 0 < limits.bladeHeight.max then some limits else app.familyLimits name
  | none => app.familyLimits name

/-- `lo, hi` of `blade_height`. -/
def bladeHeightRange (h : Option Limits) (name : String) : Range ℤ :=
  match app.deviceLimits h name with
  | some limits => limits.bladeHeight
  | none => ⟨20, 100⟩

/-- `lo, hi` of `speed`. -/
def speedRange (h : Option Limits) (name : String) : Range ℚ :=
  match app.deviceLimits h name with
  | some limits => limits.workingSpeed
  | none => ⟨hundredths 20, hundredths 60⟩

/-- `min(max(value, lo), hi)`. -/
def clamp (value : PyFloat) (lo hi : ℚ) : PyFloat := (value.pyMax (.fin lo)).pyMin (.fin hi)

/-- What carries a cutting height. -/
def bladeHeightCommands (method : String) (v : ℤ) : List SettingCommand :=
  let driver : SettingCommand := .setBladeHeight v
  let mowctrl : SettingCommand := .operateOnDevice 0 0 v (hundredths 120)
  if method = "mowctrl" then [mowctrl]
  else if method = "both" then [driver, mowctrl]
  else [driver]

/-- `payload.get("method") or _BLADE_HEIGHT_METHOD`, in lower case. -/
def methodOf (method : Option String) : String :=
  let chosen := method.getD ""
  (if chosen = "" then app.bladeHeightMethod else chosen).toLower

/-- `post_setting` with a known mower and a number. -/
def applySetting (h : Option Limits) (r : SettingRequest) (value : PyFloat) : SettingOutcome :=
  if r.setting = "blade_height" then
    let range := app.bladeHeightRange h r.name
    match (clamp value range.min range.max).toInt with
    | .error e => ([], .error (.raised e))
    | .ok v => (bladeHeightCommands (app.methodOf r.method) v, .ok (.int v))
  else if r.setting = "speed" then
    let range := app.speedRange h r.name
    let v := (clamp value range.min range.max).round2
    ([.setSpeed v], .ok (.float v))
  else if r.setting = "cutter_mode" then
    match value.toInt with
    | .error e => ([], .error (.raised e))
    | .ok v =>
      if v ∈ ([0, 1, 2] : List ℤ) then ([.setCutterMode v, .getCutterMode], .ok (.int v))
      else ([], .error (.httpException 400 "cutter_mode must be 0 (normal), 1 (slow) or 2 (fast)"))
  else ([], .error (.httpException 400 ("unknown setting " ++ app.repr r.setting)))

/-- `post_setting`. -/
def postSetting (r : SettingRequest) : SettingOutcome :=
  match app.handles r.name with
  | none => ([], .error (.httpException 404 ("unknown mower " ++ app.repr r.name)))
  | some h =>
    match r.value.toFloat with
    | .error .overflowError => ([], .error (.raised .overflowError))
    | .error _ => ([], .error (.httpException 400 "body must be \x7b\"value\": <number>\x7d"))
    | .ok value => app.applySetting h r value

end SettingsApp

end MammotionRc.Server
