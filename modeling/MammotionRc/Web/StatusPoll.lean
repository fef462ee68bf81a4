import MammotionRc.Machine.JsValue
import MammotionRc.Machine.Run
import MammotionRc.Machine.Timers

/-! # The status poll of the page

`pollStatus` reads the status of a mower and paints it. `statusTick` awaits it and arms the next tick; the buttons
nudge it by timers of their own. A read may settle at any moment, with any value of JSON or without one, and what a
chip shows is kept with the mower whose reply it is from and the selection during which the reply came. Parts of the
page that no chip reads are left out, except where painting them raises.
-/

namespace MammotionRc.Web

open Machine

/-- Something on screen, from a reply. -/
structure Shown (α : Type) where
  value : α
  /-- The mower whose status it is. -/
  mower : String
  /-- `selectGen` when the reply came. -/
  selection : ℕ
deriving DecidableEq, Repr

structure Panel where
  batteryHidden : Bool
  /-- The text of the battery chip, with the bolt if it charges. -/
  batteryPct : Option (Shown (JsValue × Bool))
  /-- The gauge in the battery chip, which keeps its width while the chip is hidden. -/
  batteryFill : Option (Shown JsValue)
  mowerStatus : Option (Shown JsValue)
  mowerError : Option (Shown JsValue)
  bladeChip : Option (Shown Bool)
  rpmChip : Option (Shown JsValue)
  progressChip : Option (Shown JsValue)
  limitsFor : Option String

/-- A panel after some of the writes; `raised` if the last one raised. -/
structure Painted where
  panel : Panel
  raised : Bool

def Painted.andThen (painted : Painted) (next : Panel → Painted) : Painted :=
  if painted.raised then painted else next painted.panel

namespace Panel

/-- The panel of the page as it is loaded. -/
def blank : Panel := ⟨true, none, none, none, none, none, none, none, none⟩

section Writes

variable (p : Panel) (name : String) (gen : ℕ)

def setBattery (pct : Option JsValue) (charging : Option JsValue) : Painted :=
  match pct with
  | none | some .null => ⟨{ p with batteryHidden := true, batteryPct := none }, false⟩
  | some pct =>
    let p := { p with batteryHidden := false }
    if pct.hasText then
      ⟨{ p with
          batteryPct := some ⟨(pct, JsValue.truthy charging), name, gen⟩
          batteryFill := some ⟨pct, name, gen⟩ }, false⟩
    else ⟨p, true⟩

/-- The text `v || ""` of a chip that is hidden without one. -/
def chipText (v : Option JsValue) : Option (Shown JsValue) :=
  if JsValue.truthy v then v.map fun v => ⟨v, name, gen⟩ else none

/-- Writing `v || ""` raises. -/
def textRaises (v : Option JsValue) : Bool := JsValue.truthy v && !v.all JsValue.hasText

def setMowerState (label error : Option JsValue) : Painted :=
  if textRaises label then ⟨p, true⟩
  else
    let p := { p with mowerStatus := chipText name gen label }
    if textRaises error then ⟨p, true⟩ else ⟨{ p with mowerError := chipText name gen error }, false⟩

/-- Writing the connection detail of the System tab raises. -/
def sysRowsRaise (s : JsValue) : Bool :=
  (!JsValue.truthy (s.get? "auto_retrying") && !JsValue.truthy (s.get? "auto_gave_up") &&
      !(s.get? "availability").all JsValue.hasText) ||
    (!JsValue.isNullish (s.get? "mower_silent_s") && !JsValue.isNumber (s.get? "mower_silent_s"))

/-- Reading a bound of a slider, or writing it, raises. -/
def boundRaises (limits : Option JsValue) (slider bound : String) : Bool :=
  match (JsValue.member? limits slider).bind fun range => JsValue.member? range bound with
  | none => true
  | some v => !v.all JsValue.hasText

def setLimits (s : JsValue) : Painted :=
  let limits := s.get? "limits"
  if JsValue.truthy limits && p.limitsFor ≠ some name then
    ⟨{ p with limitsFor := some name },
      boundRaises limits "blade_height" "min" || boundRaises limits "blade_height" "max" ||
        boundRaises limits "working_speed" "min" || boundRaises limits "working_speed" "max"⟩
  else ⟨p, false⟩

def setBladeChip (on : Option JsValue) : Panel :=
  { p with bladeChip := (JsValue.bool? on).map fun on => ⟨on, name, gen⟩ }

/-- `typeof v === "number" && v > 0`. -/
def positive : Option JsValue → Bool
  | some (.num x) => 0 < x
  | some (.infinite negative) => !negative
  | _ => false

/-- `v <= 100` of a number. -/
def atMost100 : Option JsValue → Bool
  | some (.num x) => x ≤ 100
  | some (.infinite negative) => negative
  | _ => false

def setRpmChip (rpm : Option JsValue) : Panel :=
  { p with rpmChip := if positive rpm then rpm.map fun rpm => ⟨rpm, name, gen⟩ else none }

def setProgressChip (pct : Option JsValue) : Panel :=
  { p with progressChip := if positive pct && atMost100 pct then pct.map fun pct => ⟨pct, name, gen⟩ else none }

/-- `s.availability === "connected"`. -/
def live (s : JsValue) : Bool :=
  match s.get? "availability" with
  | some (.str text) => text = JsValue.lit "connected"
  | _ => false

/-- What `pollStatus` paints from a reply, up to the first exception. -/
def paint (s : JsValue) : Panel :=
  let only (v : Option JsValue) : Option JsValue := if live s then v else some .null
  ((((p.setBattery name gen (only (s.get? "battery")) (s.get? "charging")).andThen
    fun p => p.setMowerState name gen (only (s.get? "status")) (only (s.get? "error"))).andThen
    fun p => ⟨p, sysRowsRaise s⟩).andThen
    fun p => p.setLimits name s).andThen
    (fun p => ⟨((p.setBladeChip name gen (s.get? "blades_on")).setRpmChip name gen (s.get? "cutter_rpm")).setProgressChip
      name gen (s.get? "mow_percent"), false⟩) |>.panel

end Writes

end Panel

/-- Where a `pollStatus` is, with the `statusTick` that awaits it. -/
inductive PollPc
  | requesting
  /-- It is over, but a `statusTick` that awaits it has not gone on. -/
  | returned
  | resumed
deriving DecidableEq, Repr

/-- A call of `pollStatus`. -/
structure StatusCall where
  name : String
  /-- A `statusTick` awaits it. -/
  ticking : Bool
  pc : PollPc
deriving DecidableEq, Repr

inductive StatusTimer
  | tick
  | repoll (target : String)
deriving DecidableEq, Repr

structure StatusPage where
  currentMower : Option String
  selectGen : ℕ
  statusMower : Option String
  statusTimer : Option ℕ
  statusInFlight : Bool
  /-- `document.hidden`. -/
  hidden : Bool
  timers : Timers StatusTimer
  /-- The calls of `pollStatus`, oldest first. -/
  calls : List StatusCall
  panel : Panel

inductive StatusEvent
  | selectMower (name : String)
  | startStatusPolling (name : String)
  | stopStatusPolling
  | visibilitychange (hidden : Bool)
  /-- `pageshow` or `online`. -/
  | shown
  | fired (id : ℕ)
  | repoll (target : String) (delays : List ℚ)
  /-- `pollStatus` of a reconnect. -/
  | pollStatus (name : String)
  /-- The request of call `i` settles; `none` if it fails, times out or has no body. -/
  | settled (i : ℕ) (reply : Option JsValue)
  /-- The `statusTick` that awaits call `i` goes on. -/
  | resumed (i : ℕ)

def STATUS_MS : ℚ := 3000

namespace StatusPage

def init : StatusPage := ⟨none, 0, none, none, false, false, .empty, [], .blank⟩

variable (s : StatusPage)

/-- `statusMower` is truthy. -/
def polling (s : StatusPage) : Bool :=
  match s.statusMower with
  | some name => name ≠ ""
  | none => false

def clearStatusTimer : StatusPage := { s with statusTimer := none, timers := s.timers.clearHeld s.statusTimer }

def scheduleStatus (delay : ℚ) : StatusPage :=
  let s := s.clearStatusTimer
  if !s.polling || s.hidden then s
  else { s with statusTimer := some s.timers.next, timers := s.timers.setTimeout .tick delay }

def startStatusPolling (name : String) : StatusPage := { s with statusMower := some name }.scheduleStatus 0

def stopStatusPolling : StatusPage := { s with statusMower := none }.clearStatusTimer

/-- `selectMower` up to its first await. -/
def selectMower (name : String) : StatusPage :=
  { s with selectGen := s.selectGen + 1, currentMower := some name }.startStatusPolling name

/-- `pollStatus` up to its first await. -/
def pollStatus (name : String) (ticking : Bool) : StatusPage :=
  if s.currentMower ≠ some name || s.statusInFlight then { s with calls := s.calls ++ [⟨name, ticking, .returned⟩] }
  else { s with statusInFlight := true, calls := s.calls ++ [⟨name, ticking, .requesting⟩] }

def statusTick : StatusPage :=
  let s := { s with statusTimer := none }
  match s.statusMower with
  | some name => if name = "" then s else s.pollStatus name true
  | none => s

def repoll (target : String) (delays : List ℚ) : StatusPage :=
  { s with timers := delays.foldl (fun timers delay => timers.setTimeout (.repoll target) delay) s.timers }

/-- `pollStatus` once its request has settled. -/
def settle (i : ℕ) (x : StatusCall) (reply : Option JsValue) : StatusPage :=
  let s := { s with statusInFlight := false, calls := s.calls.set i { x with pc := .returned } }
  match reply with
  | some v =>
    if JsValue.truthy (some v) && s.currentMower = some x.name then
      { s with panel := s.panel.paint x.name s.selectGen v }
    else s
  | none => s

/-- One event; `none` if it cannot happen now. -/
def step : StatusEvent → Option StatusPage
  | .selectMower name => some (s.selectMower name)
  | .startStatusPolling name => some (s.startStatusPolling name)
  | .stopStatusPolling => some s.stopStatusPolling
  | .visibilitychange hidden =>
    let s := { s with hidden := hidden }
    some (if hidden then s.clearStatusTimer else s.scheduleStatus 0)
  | .shown => some (s.scheduleStatus 0)
  | .fired id =>
    match s.timers.armed id with
    | some (.tick, _) => some { s with timers := s.timers.clearTimeout id }.statusTick
    | some (.repoll target, _) =>
      let s := { s with timers := s.timers.clearTimeout id }
      some (if s.currentMower = some target then s.pollStatus target false else s)
    | none => none
  | .repoll target delays => some (s.repoll target delays)
  | .pollStatus name => some (s.pollStatus name false)
  | .settled i reply =>
    match s.calls[i]? with
    | some ⟨name, ticking, .requesting⟩ => some (s.settle i ⟨name, ticking, .requesting⟩ reply)
    | _ => none
  | .resumed i =>
    match s.calls[i]? with
    | some ⟨name, true, .returned⟩ =>
      let s := { s with calls := s.calls.set i ⟨name, true, .resumed⟩ }
      some (if s.statusMower = some name then s.scheduleStatus STATUS_MS else s)
    | _ => none

end StatusPage

end MammotionRc.Web
