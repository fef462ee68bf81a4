import MammotionRc.Server.Joystick

/-! # One page and its server

The page of `app.js` sends every button press as a POST of its own and the stick as frames on a WebSocket. POSTs
are on separate connections, so the server may process those in flight in any order; the frames of one socket
arrive in order, and its handler may end at any time, which loses the frames it has not received. The page
learns the fate of a POST (a response, an error or its deadline) at any moment after it sent it. A command
counts as sent when the server hands it to the handle of the mower; the mowers of the page are registered.
-/

namespace MammotionRc.Web

open Machine Server

/-- The names of `/api/action/{name}/{action}`. -/
inductive Action
  | pause
  | resume
  | dock
  | undock
  | stop
  | startJob
  | cancelJob
  | bladesOn
  | bladesOff
  | lightOn
  | lightOff
deriving DecidableEq, Repr

/-- The actions whose buttons do nothing but `runAction`. -/
def Action.plain : Action → Bool
  | .stop | .bladesOn | .bladesOff => false
  | _ => true

/-- What `_send_blades` sends; `operate_on_device` always has `max_run_speed=1.2`. -/
inductive BladeCommand
  | setBladeControl (onOff : ℕ)
  | operateOnDevice (mainCtrl cutKnifeCtrl : ℕ) (cutKnifeHeight : ℤ)
deriving DecidableEq, Repr

/-- The command spins the blades. -/
def BladeCommand.isOn : BladeCommand → Bool
  | .setBladeControl onOff => onOff ≠ 0
  | .operateOnDevice _ cutKnifeCtrl _ => cutKnifeCtrl ≠ 0

/-- `_send_blades`, by what `DeviceType.is_luba1` says and the height of the last report. -/
def sendBlades (isLuba1 : Bool) (height : Option ℤ) (on : Bool) : BladeCommand :=
  if isLuba1 then .setBladeControl (if on then 1 else 0)
  else
    -- `_current_blade_height(h) or 60`
    let height := if height = some 0 then 60 else height.getD 60
    .operateOnDevice (if on then 1 else 0) (if on then 1 else 0) height

inductive MowerCommand
  | motion (command : Command)
  | blades (command : BladeCommand)
  /-- The command of an action that concerns neither the joystick's motion nor the blades. -/
  | other (action : Action)
deriving DecidableEq, Repr

/-- `post_action` up to the command it hands over. -/
def postAction (isLuba1 : Bool) (height : Option ℤ) : Action → MowerCommand
  | .stop => .motion .stopAndNotSaveTask
  | .bladesOn => .blades (sendBlades isLuba1 height true)
  | .bladesOff => .blades (sendBlades isLuba1 height false)
  | action => .other action

def ZERO_FRAME : Frame := ⟨.fin 0, .fin 0, .fin 0⟩

/-- A joystick socket of the page with the handler that serves it. -/
structure PageSocket where
  name : String
  /-- `readyState` is OPEN. -/
  isOpen : Bool
  /-- The page closed the socket or noticed its end. -/
  closed : Bool
  /-- The frames sent and not received, oldest first. -/
  inFlight : List Frame
  handler : Option JoystickWs
  /-- What the handler went through; the code keeps no such list. -/
  log : List JoystickEvent
deriving DecidableEq, Repr

structure Page where
  currentMower : Option String
  /-- The actions with a POST the page waits for. -/
  pending : Action → Bool
  /-- `bladesArmTimer` is set. -/
  bladesArmTimer : Bool
  /-- A finger is on the stick. -/
  touching : Bool
  /-- The heartbeat that sends `joyState` again is running. -/
  joyTimer : Bool
  joyState : Frame
  ws : Option ℕ

structure Session where
  page : Page
  /-- The POSTs that the server has not processed, with the mower they are for. -/
  posts : List (Action × String)
  sockets : ℕ → Option PageSocket
  /-- The commands that the server sent, with their mower, oldest first. -/
  sent : List (String × MowerCommand)

inductive PageEvent
  | selectMower (name : String)
  | stop
  | bladesOn
  | bladesOff
  /-- The button of any other action. -/
  | press (action : Action)
  /-- The 3.5 s in which Blades On can be confirmed are over. -/
  | armExpired
  /-- A POST of the action succeeds, fails or is aborted at its deadline. -/
  | settled (action : Action)
  /-- A gesture on the stick begins. -/
  | touched
  /-- `move` of the stick. -/
  | moved (frame : Frame)
  /-- `end` of the gesture. -/
  | released
  | heartbeat
  /-- The window loses the focus. -/
  | blurred
  /-- The page is hidden or unloaded. -/
  | hidden
  /-- `connectJoystickWs` creates socket `j`. -/
  | connectWs (j : ℕ)
  /-- `onopen`. -/
  | wsOpened
  /-- `onclose`, or the page cycles the socket. -/
  | wsClosed
deriving DecidableEq, Repr

inductive SessionEvent
  | page (e : PageEvent)
  /-- The server processes the POST at position `n`; the blade height of the mower's last report. -/
  | post (n : ℕ) (height : Option ℤ)
  /-- The server accepts socket `j`. -/
  | accepted (j : ℕ) (counted : Bool)
  | handler (j : ℕ) (e : JoystickEvent)
deriving DecidableEq, Repr

/-- The command that the step `e` of a joystick handler hands to the handle. -/
def handed (ws : JoystickWs) (e : JoystickEvent) : Option Command :=
  match e with
  | .take cmd speeds =>
    match (ws.dispatch cmd speeds).sender with
    | .sending _ command => some command
    | _ => none
  | .joined => some .stopAndNotSaveTask
  | _ => none

/-- The frames in flight after the handler's step `e`. -/
def receive (inFlight : List Frame) (e : JoystickEvent) : Option (List Frame) :=
  match e, inFlight with
  | .frame frame, next :: rest => if next = frame then some rest else none
  | .frame _, [] => none
  | _, _ => some inFlight

namespace Session

def setSocket (s : Session) (j : ℕ) (socket : PageSocket) : Session :=
  { s with sockets := Function.update s.sockets j (some socket) }

def sendJoystick (s : Session) (payload : Frame) : Session :=
  match s.page.ws with
  | some j =>
    match s.sockets j with
    | some socket =>
      if socket.isOpen then s.setSocket j { socket with inFlight := socket.inFlight ++ [payload] } else s
    | none => s
  | none => s

section Fields

variable (s : Session) (payload : Frame)

@[simp] theorem sendJoystick_page : (s.sendJoystick payload).page = s.page := by
  simp only [sendJoystick]
  split
  · split
    · split_ifs <;> rfl
    · rfl
  · rfl

@[simp] theorem sendJoystick_posts : (s.sendJoystick payload).posts = s.posts := by
  simp only [sendJoystick]
  split
  · split
    · split_ifs <;> rfl
    · rfl
  · rfl

@[simp] theorem sendJoystick_sent : (s.sendJoystick payload).sent = s.sent := by
  simp only [sendJoystick]
  split
  · split
    · split_ifs <;> rfl
    · rfl
  · rfl

end Fields

/-- The heartbeat ends and the page sends a zero frame. -/
def letGo (s : Session) (touching : Bool) : Session :=
  { s with page := { s.page with touching := touching, joyTimer := false, joyState := ZERO_FRAME } }.sendJoystick
    ZERO_FRAME

def joystickFailsafeStop (s : Session) : Session :=
  if s.page.joyTimer then s.letGo s.page.touching else s

def disarmBlades (s : Session) : Session := { s with page := { s.page with bladesArmTimer := false } }

/-- `runAction` and `action` up to the POST. -/
def runAction (s : Session) (action : Action) : Session :=
  match s.page.currentMower with
  | some name =>
    if s.page.pending action then s
    else
      { s with
        page := { s.page with pending := Function.update s.page.pending action true }
        posts := s.posts ++ [(action, name)] }
  | none => s

/-- `els.stop.onclick`. -/
def stop (s : Session) : Session :=
  (s.joystickFailsafeStop.disarmBlades.runAction .stop).runAction .bladesOff

/-- `els.bladesOn.onclick`. -/
def bladesOn (s : Session) : Session :=
  if s.page.pending .bladesOn then s
  else if s.page.bladesArmTimer then s.disarmBlades.runAction .bladesOn
  else { s with page := { s.page with bladesArmTimer := true } }

/-- `els.bladesOff.onclick`. -/
def bladesOff (s : Session) : Session :=
  if s.page.pending .bladesOff then s else s.disarmBlades.runAction .bladesOff

/-- The page drops its socket. -/
def dropWs (s : Session) : Session :=
  match s.page.ws with
  | some j =>
    match s.sockets j with
    | some socket =>
      { s with page := { s.page with ws := none } }.setSocket j { socket with isOpen := false, closed := true }
    | none => { s with page := { s.page with ws := none } }
  | none => s

/-- `teardownJoystickWs`. -/
def teardownJoystickWs (s : Session) : Session := (s.sendJoystick ZERO_FRAME).dropWs

/-- `selectMower` up to its first await, without the new socket. -/
def selectMower (s : Session) (name : String) : Session :=
  { s with
    page := { s.page with
      currentMower := some name
      bladesArmTimer := false
      touching := false
      joyTimer := false
      joyState := ZERO_FRAME } }.teardownJoystickWs

/-- The listener of the stick's `move`. -/
def moved (s : Session) (frame : Frame) : Session :=
  if s.page.joyTimer then { s with page := { s.page with joyState := frame } }
  else { s with page := { s.page with joyState := frame, joyTimer := true } }.sendJoystick frame

/-- `connectJoystickWs` without a live socket. -/
def connectWs (s : Session) (j : ℕ) : Option Session :=
  match s.page.currentMower, s.page.ws, s.sockets j with
  | some name, none, none =>
    some ({ s with page := { s.page with ws := some j } }.setSocket j ⟨name, false, false, [], none, []⟩)
  | _, _, _ => none

def wsOpened (s : Session) : Option Session :=
  match s.page.ws with
  | some j =>
    match s.sockets j with
    | some socket =>
      if socket.handler.isSome && !socket.isOpen then
        let s := s.setSocket j { socket with isOpen := true }
        some (if s.page.joyTimer then s else s.sendJoystick ZERO_FRAME)
      else none
    | none => none
  | none => none

def stepPage (s : Session) : PageEvent → Option Session
  | .selectMower name => some (s.selectMower name)
  | .stop => some s.stop
  | .bladesOn => some s.bladesOn
  | .bladesOff => some s.bladesOff
  | .press action => if action.plain then some (s.runAction action) else none
  | .armExpired => if s.page.bladesArmTimer then some s.disarmBlades else none
  | .settled action =>
    if s.page.pending action then
      some { s with page := { s.page with pending := Function.update s.page.pending action false } }
    else none
  | .touched => if s.page.touching then none else some { s with page := { s.page with touching := true } }
  | .moved frame => if s.page.touching then some (s.moved frame) else none
  | .released => if s.page.touching then some (s.letGo false) else none
  | .heartbeat => if s.page.joyTimer then some (s.sendJoystick s.page.joyState) else none
  | .blurred => some s.joystickFailsafeStop
  | .hidden => some s.joystickFailsafeStop.disarmBlades
  | .connectWs j => s.connectWs j
  | .wsOpened => s.wsOpened
  | .wsClosed => if s.page.ws.isSome then some s.dropWs else none

def stepHandler (s : Session) (j : ℕ) (socket : PageSocket) (ws : JoystickWs) (e : JoystickEvent) :
    Option Session :=
  (receive socket.inFlight e).bind fun inFlight =>
    (ws.step e).map fun next =>
      { s with
        sent := s.sent ++ (handed ws e).toList.map fun command => (socket.name, MowerCommand.motion command) }.setSocket j
          { socket with inFlight := inFlight, handler := some next, log := socket.log ++ [e] }

def step (isLuba1 : String → Bool) (s : Session) : SessionEvent → Option Session
  | .page e => s.stepPage e
  | .post n height =>
    (s.posts[n]?).map fun (action, name) =>
      { s with
        posts := s.posts.eraseIdx n
        sent := s.sent ++ [(name, postAction (isLuba1 name) height action)] }
  | .accepted j counted =>
    (s.sockets j).bind fun socket =>
      match socket.handler with
      | none => some (s.setSocket j { socket with handler := some (.opened counted) })
      | some _ => none
  | .handler j e =>
    (s.sockets j).bind fun socket => socket.handler.bind fun ws => s.stepHandler j socket ws e

/-- The page before it has loaded the list of mowers. -/
def init : Session where
  page := ⟨none, fun _ => false, false, false, false, ZERO_FRAME, none⟩
  posts := []
  sockets _ := none
  sent := []

end Session

end MammotionRc.Web
