import MammotionRc.Web.JoystickLink
import MammotionRc.Web.Session

/-! # The stick of the page and its socket

The page mounts a stick of the joystick library, records what its `move` events say and sends the recorded frame
over and over while the stick is held. All of it goes out on the one socket that the page keeps open, whose life is
that of `JoystickLink`. A stick emits `move` only while a finger is on it, and not after it was destroyed. What was
sent, and what the page had set at that moment, is noted down next to the state of the page.
-/

namespace MammotionRc.Web

open Machine Server

def REPEAT_MS : ℚ := 150

/-- What the browser and the joystick library answer while one event runs. -/
structure StickBrowser extends Browser where
  /-- `nipplejs.create` does not throw. -/
  mounts : Bool
  /-- `ws.send` does not throw. -/
  sends : Bool
deriving DecidableEq, Repr

/-- `payload.force > 0`. -/
def positive (payload : Frame) : Bool := (PyFloat.fin 0).lt payload.force

/-- `Math.min(force, 1)`. -/
def atMostOne : PyFloat → PyFloat
  | .fin x => .fin (min x 1)
  | .inf false => .fin 1
  | x => x

/-- What the listener of `move` makes of the vector and the force of an event. -/
def recordMove (data : Frame) : Frame := { data with force := atMostOne data.force }

structure Stick where
  /-- A finger is on the stick. -/
  touched : Bool
deriving DecidableEq, Repr

/-- A frame passed to `WebSocket.send`, and what the page had set then. -/
structure Sent where
  sock : ℕ
  frame : Frame
  currentMower : Option String
  wsMower : Option String
  wsGen : ℕ
deriving DecidableEq, Repr

structure StickPage where
  link : JoystickLink
  currentMower : Option String
  joystick : Option Stick
  /-- How many sticks were created. -/
  sticks : ℕ
  joyTimer : Option ℕ
  /-- The intervals of `setInterval`. -/
  intervals : Timers Unit
  joyState : Frame
  /-- `joystickFailsafeStop` acted on a held stick, and no gesture has begun since. -/
  latched : Bool
  /-- The frames passed to `sendJoystick`, oldest first. -/
  passed : List Frame
  /-- The frames passed to `WebSocket.send`, oldest first. -/
  sent : List Sent

inductive StickEvent
  /-- An event that concerns only the socket. -/
  | link (e : LinkEvent)
  | selectMower (name : String)
  | noMowers
  | visibilitychange (hidden : Bool)
  | pagehide
  | blur
  /-- `els.stop.onclick`. -/
  | stop
  | scriptLoad (defined : Bool)
  | open (sock : ℕ)
  /-- A finger comes down on the stick. -/
  | start
  | move (data : Frame)
  | end
  /-- `end` of a stick that was destroyed. -/
  | lateEnd
  | interval (id : ℕ)
deriving DecidableEq, Repr

/-- The events of the socket that the stick has no part in. -/
def LinkEvent.plain : LinkEvent → Bool
  | .startJoystick _ | .noMowers | .nudge | .visibilitychange _ | .scriptLoad _ | .open _ => false
  | .reconnected | .pageshow _ | .online | .offline | .scriptError | .timer _ | .closing _ | .closed _ | .close _ _
  | .error _ => true

namespace StickPage

def note (s : StickPage) (k : ℕ) (frame : Frame) : StickPage :=
  { s with sent := s.sent ++ [⟨k, frame, s.currentMower, s.link.wsMower, s.link.wsGen⟩] }

/-- The socket that a frame can go out on. -/
def openSocket (s : StickPage) : Option ℕ := s.link.ws.filter fun k => s.link.readyState k = some .OPEN

def sendJoystick (s : StickPage) (browser : StickBrowser) (payload : Frame) : StickPage :=
  let s := { s with passed := s.passed ++ [payload] }
  match s.openSocket, browser.sends with
  | some k, true => s.note k payload
  | _, _ => if positive payload then { s with link := s.link.nudgeJoystickWs browser.toBrowser } else s

/-- `clearInterval(joyTimer)`, and a stick at rest. -/
def stopHeartbeat (s : StickPage) : StickPage :=
  { s with intervals := s.intervals.clearHeld s.joyTimer, joyTimer := none, joyState := ZERO_FRAME }

def joystickFailsafeStop (s : StickPage) (browser : StickBrowser) : StickPage :=
  if s.joyTimer.isNone then s
  else { s.stopHeartbeat with latched := s.latched || s.joystick.any Stick.touched }.sendJoystick browser ZERO_FRAME

def teardownJoystickWs (s : StickPage) (browser : StickBrowser) : StickPage :=
  let next := { s with link := s.link.teardownJoystickWs }
  match s.openSocket, browser.sends with
  | some k, true => next.note k ZERO_FRAME
  | _, _ => next

def mountStick (s : StickPage) (browser : StickBrowser) : StickPage :=
  if !s.link.nippleReady ∨ s.joystick.isSome then s
  else if browser.mounts then { s with joystick := some ⟨false⟩, sticks := s.sticks + 1 }
  else s

/-- `selectMower` up to its first await, as far as it drives. -/
def selectMower (s : StickPage) (browser : StickBrowser) (name : String) : StickPage :=
  let s := { s with currentMower := some name }.stopHeartbeat
  let torn := { s.teardownJoystickWs browser with joystick := none }
  { torn with link := s.link.startJoystick browser.toBrowser name }.mountStick browser

/-- `onload` of the script element. -/
def scriptLoaded (s : StickPage) (browser : StickBrowser) (defined : Bool) : StickPage :=
  let loaded := { s with link := s.link.scriptLoaded browser.toBrowser defined }
  if defined && s.link.hasMower then loaded.mountStick browser else loaded

/-- The listener of `move`. -/
def moved (s : StickPage) (browser : StickBrowser) (data : Frame) : StickPage :=
  let s := { s with joyState := recordMove data }
  if s.joyTimer.isSome then s
  else
    let s := s.sendJoystick browser s.joyState
    { s with joyTimer := some s.intervals.next, intervals := s.intervals.setTimeout () REPEAT_MS }

/-- The listener of `end`. -/
def ended (s : StickPage) (browser : StickBrowser) : StickPage := s.stopHeartbeat.sendJoystick browser ZERO_FRAME

/-- The zero frame of `onopen` of a socket, if the socket is the current one. -/
def assertStopped (s : StickPage) (browser : StickBrowser) (k : ℕ) (sock : WebSocket) : StickPage :=
  if sock.handlers && decide (sock.gen = s.link.wsGen) && decide (s.link.ws = some k) && s.joyTimer.isNone
      && browser.sends then
    s.note k ZERO_FRAME
  else s

/-- One event of the browser; `none` if it cannot happen now. -/
def step (s : StickPage) : StickEvent × StickBrowser → Option StickPage
  | (.link e, browser) =>
    if e.plain then (s.link.step (e, browser.toBrowser)).map fun link => { s with link := link } else none
  | (.selectMower name, browser) => some (s.selectMower browser name)
  | (.noMowers, browser) => some (s.teardownJoystickWs browser)
  | (.visibilitychange hidden, browser) =>
    if hidden then
      let s := { s with link := { s.link with hidden := true } }.joystickFailsafeStop browser
      some { s with link := s.link.changeVisibility browser.toBrowser true }
    else some { s with link := s.link.changeVisibility browser.toBrowser false }
  | (.pagehide, browser) | (.blur, browser) | (.stop, browser) => some (s.joystickFailsafeStop browser)
  | (.scriptLoad defined, browser) => if s.link.nippleLoading then some (s.scriptLoaded browser defined) else none
  | (.open k, browser) =>
    match s.link.sockets k, s.link.step (.open k, browser.toBrowser) with
    | some sock, some link => some ({ s with link := link }.assertStopped browser k sock)
    | _, _ => none
  | (.start, _) =>
    match s.joystick with
    | some stick =>
      if stick.touched then none
      else some { s with joystick := some { stick with touched := true }, latched := false }
    | none => none
  | (.move data, browser) =>
    match s.joystick with
    | some stick => if stick.touched then some (s.moved browser data) else none
    | none => none
  | (.end, browser) =>
    match s.joystick with
    | some stick =>
      if stick.touched then
        some ({ s with joystick := some { stick with touched := false } }.ended browser)
      else none
    | none => none
  | (.lateEnd, browser) => if s.sticks = s.joystick.toList.length then none else some (s.ended browser)
  | (.interval id, browser) => if (s.intervals.armed id).isSome then some (s.sendJoystick browser s.joyState) else none

/-- The page once its script has run. -/
def boot (nippleReady hidden onLine : Bool) : StickPage where
  link := .boot nippleReady hidden onLine
  currentMower := none
  joystick := none
  sticks := 0
  joyTimer := none
  intervals := .empty
  joyState := ZERO_FRAME
  latched := false
  passed := []
  sent := []

/-! ## When an event can happen -/

variable {s t : StickPage} {browser : StickBrowser}

attribute [local simp] step

theorem step_link {e : LinkEvent} : s.step (.link e, browser) = some t ↔
    e.plain = true ∧ ∃ link, s.link.step (e, browser.toBrowser) = some link ∧ { s with link := link } = t := by
  simp

theorem step_scriptLoad {defined : Bool} : s.step (.scriptLoad defined, browser) = some t ↔
    s.link.nippleLoading = true ∧ s.scriptLoaded browser defined = t := by
  simp

theorem step_open {k : ℕ} : s.step (.open k, browser) = some t ↔
    ∃ sock link, s.link.sockets k = some sock ∧ s.link.step (.open k, browser.toBrowser) = some link ∧
      { s with link := link }.assertStopped browser k sock = t := by
  cases at_ : s.link.sockets k <;> cases opened : s.link.step (.open k, browser.toBrowser) <;> simp [at_, opened]

theorem step_start : s.step (.start, browser) = some t ↔
    ∃ stick, s.joystick = some stick ∧ stick.touched = false ∧
      { s with joystick := some { stick with touched := true }, latched := false } = t := by
  cases mounted : s.joystick <;> simp [mounted]

theorem step_move {data : Frame} : s.step (.move data, browser) = some t ↔
    ∃ stick, s.joystick = some stick ∧ stick.touched = true ∧ s.moved browser data = t := by
  cases mounted : s.joystick <;> simp [mounted]

theorem step_end : s.step (.end, browser) = some t ↔
    ∃ stick, s.joystick = some stick ∧ stick.touched = true ∧
      { s with joystick := some { stick with touched := false } }.ended browser = t := by
  cases mounted : s.joystick <;> simp [mounted]

theorem step_lateEnd : s.step (.lateEnd, browser) = some t ↔
    s.sticks ≠ s.joystick.toList.length ∧ s.ended browser = t := by
  simp

theorem step_interval {id : ℕ} : s.step (.interval id, browser) = some t ↔
    (s.intervals.armed id).isSome = true ∧ s.sendJoystick browser s.joyState = t := by
  simp

end StickPage

end MammotionRc.Web
