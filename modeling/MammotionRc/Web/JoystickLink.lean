import Mathlib.Algebra.Order.Ring.Unbundled.Rat
import MammotionRc.Machine.Run
import MammotionRc.Machine.Timers

/-! # The joystick socket of the page

The part of `app.js` that keeps a WebSocket open for the stick: one socket, one retry timer, one guard against
a connect that never ends, and a generation that changes with the mower. The browser moves a socket through its
states and runs its `onopen` and `onclose` at any time, also long after the page has replaced it. The frames on
the socket and the texts of the page are not part of this model.
-/

namespace MammotionRc.Web

open Machine

inductive ReadyState
  | CONNECTING
  | OPEN
  | CLOSING
  | CLOSED
deriving DecidableEq, Repr

structure WebSocket where
  name : String
  /-- The generation that its callbacks compare with `wsGen`. -/
  gen : ℕ
  readyState : ReadyState
  /-- `onopen`, `onclose` and `onerror` are set. -/
  handlers : Bool
  /-- The close event has been delivered. -/
  closeDelivered : Bool
deriving DecidableEq, Repr

/-- The callbacks that the page arms. -/
inductive LinkTimer
  | retry (gen : ℕ)
  | connectGuard (sock : ℕ)
  | loadNipple
deriving DecidableEq, Repr

/-- What the browser answers while it runs one event. -/
structure Browser where
  /-- `Date.now()`. -/
  now : ℤ
  /-- `Math.random()`. -/
  random : ℚ
  /-- `new WebSocket` does not throw. -/
  creates : Bool
deriving DecidableEq, Repr

structure JoystickLink where
  /-- `document.hidden`. -/
  hidden : Bool
  /-- `navigator.onLine`. -/
  onLine : Bool
  nippleReady : Bool
  nippleLoading : Bool
  nippleTries : ℕ
  ws : Option ℕ
  wsMower : Option String
  wsGen : ℕ
  wsAttempt : ℕ
  wsTimer : Option ℕ
  wsConnectGuard : Option ℕ
  wsLastAttempt : ℤ
  lastNudge : ℤ
  hiddenSince : ℤ
  timers : Timers LinkTimer
  sockets : ℕ → Option WebSocket
  /-- How many sockets were created. -/
  created : ℕ

inductive LinkEvent
  | startJoystick (name : String)
  /-- `loadMowers` finds no mower. -/
  | noMowers
  /-- The handler of the reconnect button is done. -/
  | reconnected
  /-- A frame with force could not be sent. -/
  | nudge
  | visibilitychange (hidden : Bool)
  | pageshow (persisted : Bool)
  | online
  | offline
  /-- The script of the joystick library has run and defined `nipplejs` or not. -/
  | scriptLoad (defined : Bool)
  | scriptError
  /-- An armed timer fires. -/
  | timer (id : ℕ)
  | open (sock : ℕ)
  /-- The server or the network begins to close a socket. -/
  | closing (sock : ℕ)
  /-- The connection of a socket is gone. -/
  | closed (sock : ℕ)
  /-- The close event of a socket is delivered. -/
  | close (sock : ℕ) (code : ℕ)
  | error (sock : ℕ)
deriving DecidableEq, Repr

def WS_BACKOFF_MS : List ℚ := [500, 1000, 2000, 4000, 8000, 15000]
def WS_DEAD_BACKOFF : ℚ := 30000
def WS_ATTEMPT_FLOOR_MS : ℕ := 400
def WS_CONNECT_MS : ℚ := 8000
def WS_STALE_MS : ℤ := 20000

namespace JoystickLink

/-- `wsMower` is truthy. -/
def hasMower (s : JoystickLink) : Bool :=
  match s.wsMower with
  | some name => name ≠ ""
  | none => false

def readyState (s : JoystickLink) (k : ℕ) : Option ReadyState := (s.sockets k).map WebSocket.readyState

/-- `ws` is set and CONNECTING or OPEN. -/
def connectingOrOpen (s : JoystickLink) : Bool :=
  match s.ws with
  | some k => s.readyState k = some .CONNECTING ∨ s.readyState k = some .OPEN
  | none => false

def setReadyState (s : JoystickLink) (k : ℕ) (readyState : ReadyState) : JoystickLink :=
  { s with sockets := Function.update s.sockets k ((s.sockets k).map fun sock => { sock with readyState }) }

/-- `sock.close()`. -/
def closeSocket (s : JoystickLink) (k : ℕ) : JoystickLink :=
  if s.readyState k = some .CONNECTING ∨ s.readyState k = some .OPEN then s.setReadyState k .CLOSING else s

def clearRetry (s : JoystickLink) : JoystickLink :=
  { s with timers := s.timers.clearHeld s.wsTimer, wsTimer := none }

def clearGuard (s : JoystickLink) : JoystickLink :=
  { s with timers := s.timers.clearHeld s.wsConnectGuard, wsConnectGuard := none }

def scheduleWsRetry (s : JoystickLink) (browser : Browser) (gen : ℕ) (delayOverride : Option ℚ) : JoystickLink :=
  if gen ≠ s.wsGen ∨ !s.hasMower then s
  else if s.wsTimer.isSome then s
  else
    let (d, s) :=
      match delayOverride with
      | some d => (d, s)
      | none => (WS_BACKOFF_MS.getD (min s.wsAttempt (WS_BACKOFF_MS.length - 1)) 0 + browser.random * 250,
          { s with wsAttempt := s.wsAttempt + 1 })
    { s with wsTimer := some s.timers.next, timers := s.timers.setTimeout (.retry gen) d }

/-- The rest of `connectJoystickWs` once it has a new socket. -/
def adopt (s : JoystickLink) (gen : ℕ) : JoystickLink :=
  let sock : WebSocket := ⟨s.wsMower.getD "", gen, .CONNECTING, true, false⟩
  let s := { s with
    ws := some s.created, sockets := Function.update s.sockets s.created (some sock), created := s.created + 1 }
  let s := s.clearGuard
  { s with
    wsConnectGuard := some s.timers.next
    timers := s.timers.setTimeout (.connectGuard (s.created - 1)) WS_CONNECT_MS }

def connectJoystickWs (s : JoystickLink) (browser : Browser) (gen : ℕ) : JoystickLink :=
  if gen ≠ s.wsGen ∨ !s.hasMower then s
  else if !s.nippleReady then s
  else if s.connectingOrOpen then s
  else if s.hidden then s
  else if !s.onLine then s
  else if browser.now - s.wsLastAttempt < WS_ATTEMPT_FLOOR_MS then
    s.scheduleWsRetry browser gen (some WS_ATTEMPT_FLOOR_MS)
  else
    let s := { s with wsLastAttempt := browser.now }
    if !browser.creates then s.scheduleWsRetry browser gen none else s.adopt gen

/-- Forget `ws`, detach its callbacks and close it. -/
def dropSocket (s : JoystickLink) : JoystickLink :=
  match s.ws with
  | none => s
  | some k =>
    let detached := (s.sockets k).map fun sock => { sock with handlers := false }
    { s with ws := none, sockets := Function.update s.sockets k detached }.closeSocket k

def ensureJoystickWs (s : JoystickLink) (browser : Browser) (force : Bool) : JoystickLink :=
  if !s.hasMower ∨ s.hidden then s
  else if !force && s.connectingOrOpen then s
  else
    let s := if force then s.dropSocket else s
    let s := { s with wsAttempt := 0 }.clearRetry
    s.connectJoystickWs browser s.wsGen

def nudgeJoystickWs (s : JoystickLink) (browser : Browser) : JoystickLink :=
  if browser.now - s.lastNudge < 2000 then s
  else { s with lastNudge := browser.now }.ensureJoystickWs browser false

def teardownJoystickWs (s : JoystickLink) : JoystickLink :=
  let s := { s with wsGen := s.wsGen + 1, wsMower := none, wsAttempt := 0 }
  s.clearRetry.clearGuard.dropSocket

def loadNipple (s : JoystickLink) : JoystickLink :=
  if s.nippleReady ∨ s.nippleLoading ∨ 5 ≤ s.nippleTries then s
  else { s with nippleLoading := true, nippleTries := s.nippleTries + 1 }

def startJoystick (s : JoystickLink) (browser : Browser) (name : String) : JoystickLink :=
  let s := { s.teardownJoystickWs with wsMower := some name }
  let s := s.connectJoystickWs browser s.wsGen
  if !s.nippleReady then s.loadNipple else s

/-- `onload` of the script element. -/
def scriptLoaded (s : JoystickLink) (browser : Browser) (defined : Bool) : JoystickLink :=
  let s := { s with nippleLoading := false, nippleReady := defined }
  if s.nippleReady && s.hasMower then s.connectJoystickWs browser s.wsGen else s

/-- `onerror` of the script element. -/
def scriptFailed (s : JoystickLink) : JoystickLink :=
  { s with
    nippleLoading := false
    timers := s.timers.setTimeout .loadNipple (min 30000 (2000 * s.nippleTries)) }

/-- The callback of the guard for a socket. -/
def guardFired (s : JoystickLink) (k : ℕ) : JoystickLink :=
  let s := { s with wsConnectGuard := none }
  if s.ws = some k ∧ s.readyState k = some .CONNECTING then s.closeSocket k else s

def fire (s : JoystickLink) (browser : Browser) : LinkTimer → JoystickLink
  | .retry gen => { s with wsTimer := none }.connectJoystickWs browser gen
  | .connectGuard k => s.guardFired k
  | .loadNipple => s.loadNipple

/-- `sock.onopen`. -/
def onopen (s : JoystickLink) (k : ℕ) (sock : WebSocket) : JoystickLink :=
  let s := s.clearGuard
  if sock.gen ≠ s.wsGen ∨ s.ws ≠ some k then s.closeSocket k else { s with wsAttempt := 0 }

/-- `sock.onclose`. -/
def onclose (s : JoystickLink) (browser : Browser) (k : ℕ) (sock : WebSocket) (code : ℕ) : JoystickLink :=
  let s := s.clearGuard
  if s.ws ≠ some k then s
  else
    let s := { s with ws := none }
    if sock.gen ≠ s.wsGen then s
    else if code = 1003 then s.scheduleWsRetry browser sock.gen (some WS_DEAD_BACKOFF)
    else s.scheduleWsRetry browser sock.gen none

def changeVisibility (s : JoystickLink) (browser : Browser) (hidden : Bool) : JoystickLink :=
  if hidden then { s with hidden := true, hiddenSince := browser.now }
  else
    let away := if s.hiddenSince = 0 then 0 else browser.now - s.hiddenSince
    { s with hidden := false, hiddenSince := 0 }.ensureJoystickWs browser (WS_STALE_MS < away)

/-- One event of the browser; `none` if it cannot happen now. -/
def step (s : JoystickLink) : LinkEvent × Browser → Option JoystickLink
  | (.startJoystick name, browser) => some (s.startJoystick browser name)
  | (.noMowers, _) => some s.teardownJoystickWs
  | (.reconnected, browser) => some (s.ensureJoystickWs browser false)
  | (.nudge, browser) => some (s.nudgeJoystickWs browser)
  | (.visibilitychange hidden, browser) => some (s.changeVisibility browser hidden)
  | (.pageshow persisted, browser) => some (s.ensureJoystickWs browser persisted)
  | (.online, browser) => some ({ s with onLine := true }.ensureJoystickWs browser true)
  | (.offline, _) => some { s with onLine := false }
  | (.scriptLoad defined, browser) => if s.nippleLoading then some (s.scriptLoaded browser defined) else none
  | (.scriptError, _) => if s.nippleLoading then some s.scriptFailed else none
  | (.timer id, browser) =>
    match s.timers.armed id with
    | some (callback, _) => some ({ s with timers := s.timers.clearTimeout id }.fire browser callback)
    | none => none
  | (.open k, _) =>
    match s.sockets k with
    | some sock =>
      if sock.readyState ≠ .CONNECTING then none
      else
        let s := s.setReadyState k .OPEN
        some (if sock.handlers then s.onopen k sock else s)
    | none => none
  | (.closing k, _) =>
    if s.readyState k = some .CONNECTING ∨ s.readyState k = some .OPEN then some (s.setReadyState k .CLOSING) else none
  | (.closed k, _) =>
    if s.readyState k = none ∨ s.readyState k = some .CLOSED then none else some (s.setReadyState k .CLOSED)
  | (.close k code, browser) =>
    match s.sockets k with
    | some sock =>
      if sock.readyState ≠ .CLOSED ∨ sock.closeDelivered then none
      else
        let s := { s with sockets := Function.update s.sockets k (some { sock with closeDelivered := true }) }
        some (if sock.handlers then s.onclose browser k sock code else s)
    | none => none
  -- `onerror` only writes to the log
  | (.error k, _) => if s.readyState k = none then none else some s

/-- The page once its script has run. -/
def boot (nippleReady hidden onLine : Bool) : JoystickLink :=
  let s : JoystickLink :=
    ⟨hidden, onLine, nippleReady, false, 0, none, none, 0, 0, none, none, 0, 0, 0, .empty, fun _ => none, 0⟩
  if !s.nippleReady then s.loadNipple else s

end JoystickLink

end MammotionRc.Web
