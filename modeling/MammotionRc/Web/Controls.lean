import MammotionRc.Machine.Run
import MammotionRc.Machine.Timers
import MammotionRc.Web.CameraPage
import MammotionRc.Web.Session

/-! # The controls that are pending

A handler puts its name into `pending`, makes its button busy and releases both in a `finally`. In between it waits
for promises of the network and of the video library, which settle whenever they like or never; an aborted request
rejects at once. What a handler paints besides is left out.
-/

namespace MammotionRc.Web

open Machine

/-- The names in `pending`. -/
inductive Control
  | action (a : Action)
  | reconnect
  | cutterMode
  | camStart
  | camStop
deriving DecidableEq, Repr

/-- The buttons that show `aria-busy`. -/
inductive Button
  | action (a : Action)
  | light
  | reconnect
  /-- A preset of the blade speed. -/
  | cutter (mode : ℕ)
  | camStart
  | camStop
deriving DecidableEq, Repr

/-- The button of an action; both light actions have one. -/
def Action.button : Action → Button
  | .lightOn | .lightOff => .light
  | a => .action a

/-- Where a handler waits. -/
inductive Stage
  /-- Its request, under the deadline of a timer. -/
  | request (timer : ℕ)
  /-- The status read of a reconnect, under its own deadline. -/
  | polling (timer : ℕ)
  /-- `client.join`, raced against a timer. -/
  | joining (client : ℕ)
  /-- `client.leave`. -/
  | leaving
deriving DecidableEq, Repr

/-- The timer whose deadline a handler is under. -/
def Stage.timer? : Stage → Option ℕ
  | .request timer | .polling timer => some timer
  | .joining _ | .leaving => none

structure Handler where
  button : Button
  /-- `currentMower` when it started. -/
  target : Option String
  stage : Stage
deriving DecidableEq, Repr

inductive ControlTimer
  /-- The `ctl.abort()` of a deadline. -/
  | abort (n : Control)
  /-- The other side of the race with `join`. -/
  | join (client : ℕ)
deriving DecidableEq, Repr

structure Controls where
  currentMower : Option String
  /-- The client that `agora` holds. -/
  agora : Option ℕ
  /-- How many clients were created. -/
  clients : ℕ
  pending : Control → Bool
  busy : Button → Bool
  /-- The handlers that have not come to their `finally`. -/
  running : Control → Option Handler
  timers : Timers ControlTimer

/-- How a request settles. -/
inductive Answer
  | failed
  /-- `polls` if `pollStatus` gets past its guards. -/
  | ok (polls : Bool)
  /-- A token for the camera, and what the video library makes of it. -/
  | token (agora : AgoraAnswer)
deriving DecidableEq, Repr

inductive ControlEvent
  | selectMower (name : String)
  | action (a : Action)
  | reconnect
  | cutterMode (mode : ℕ)
  | camStart
  | camStop
  | settled (n : Control) (answer : Answer)
  | joined
  | joinFailed
  /-- The `client.leave` of a handler settles. -/
  | left (n : Control)
  | fired (id : ℕ)
deriving DecidableEq, Repr

def T_ACTION : ℚ := 10000
def T_STATUS : ℚ := 8000
def T_SET : ℚ := 10000
def T_CAMERA : ℚ := 20000
def T_JOIN : ℚ := 25000
def T_RECONNECT : ℚ := 20000

/-- The deadline of the request of a handler. -/
def Control.deadline : Control → ℚ
  | .action _ => T_ACTION
  | .reconnect => T_RECONNECT
  | .cutterMode => T_SET
  | .camStart | .camStop => T_CAMERA

namespace Controls

def init : Controls := ⟨none, none, 0, fun _ => false, fun _ => false, fun _ => none, .empty⟩

variable (s : Controls) (n : Control) (h : Handler)

/-- A name that `if (!name)` lets pass. -/
def named : Option String → Bool
  | some name => name ≠ ""
  | none => false

def isPending (names : List Control) : Bool := names.any s.pending

/-- `pending.add(n)` and `setBusy(button, true)`, up to the first await. -/
def start (button : Button) (stage : Stage) : Controls :=
  { s with
    pending := Function.update s.pending n true
    busy := Function.update s.busy button true
    running := Function.update s.running n (some ⟨button, s.currentMower, stage⟩) }

/-- A handler that starts with its request. -/
def request (button : Button) : Controls :=
  { s with timers := s.timers.setTimeout (.abort n) n.deadline }.start n button (.request s.timers.next)

/-- A handler that goes on to its next await. -/
def goOn (stage : Stage) : Controls :=
  { s with running := Function.update s.running n (some { h with stage := stage }) }

/-- The `finally` of a handler. -/
def release : Controls :=
  { s with
    pending := Function.update s.pending n false
    busy := Function.update s.busy h.button false
    running := Function.update s.running n none }

def runAction (a : Action) : Controls :=
  if !named s.currentMower || s.pending (.action a) then s else s.request (.action a) a.button

/-- The button of an action; a light action waits for the other one. -/
def pressAction (a : Action) : Controls :=
  if a.button = .light && s.isPending [.action .lightOn, .action .lightOff] then s else s.runAction a

/-- A handler of a control with its own guard on the mower. -/
def press (button : Button) : Controls :=
  if !named s.currentMower || s.pending n then s else s.request n button

/-- `els.camStop.onclick`. -/
def pressCamStop : Controls :=
  if s.pending .camStop then s
  else if s.agora.isSome then { s with agora := none }.start .camStop .camStop .leaving
  else if named s.currentMower then s.request .camStop .camStop
  else s

/-- `selectMower` up to its first await. -/
def selectMower (name : String) : Controls := { s with currentMower := some name, agora := none }

/-- `startCameraInner` with its token. -/
def token (answer : AgoraAnswer) : Controls :=
  if h.target ≠ s.currentMower then s.release n h
  else
    match answer with
    | .missing | .throws => s.release n h
    | .created =>
      { s with
        agora := some s.clients
        clients := s.clients + 1
        timers := s.timers.setTimeout (.join s.clients) T_JOIN }.goOn n h (.joining s.clients)

/-- The request of a handler settles. -/
def settle (answer : Answer) : Controls :=
  match n, answer with
  | .reconnect, .ok true =>
    { s with timers := s.timers.setTimeout (.abort .reconnect) T_STATUS }.goOn .reconnect h (.polling s.timers.next)
  | .camStart, .token answer => s.token .camStart h answer
  | _, _ => s.release n h

/-- A client that is not wanted leaves. -/
def leave (client : ℕ) : Controls :=
  { s with agora := if s.agora = some client then none else s.agora }.goOn n h .leaving

/-- A timer fires. -/
def fire : ControlTimer × ℕ → Controls
  | (.abort n, id) =>
    match s.running n with
    | some h => if h.stage.timer? = some id then s.release n h else s
    | none => s
  | (.join client, _) =>
    match s.running .camStart with
    | some h => if h.stage = .joining client then s.leave .camStart h client else s
    | none => s

/-- One event; `none` if it cannot happen now. -/
def step : ControlEvent → Option Controls
  | .selectMower name => some (s.selectMower name)
  | .action a => some (s.pressAction a)
  | .reconnect => some (s.press .reconnect .reconnect)
  | .cutterMode mode => some (s.press .cutterMode (.cutter mode))
  | .camStart => some (s.press .camStart .camStart)
  | .camStop => some s.pressCamStop
  | .settled n answer =>
    match s.running n with
    | some ⟨button, target, .request timer⟩ =>
      some ({ s with timers := s.timers.clearTimeout timer }.settle n ⟨button, target, .request timer⟩ answer)
    | some ⟨button, target, .polling timer⟩ =>
      some ({ s with timers := s.timers.clearTimeout timer }.release n ⟨button, target, .polling timer⟩)
    | _ => none
  | .joined =>
    match s.running .camStart with
    | some ⟨button, target, .joining client⟩ =>
      let h : Handler := ⟨button, target, .joining client⟩
      some (if target ≠ s.currentMower ∨ s.agora ≠ some client then s.leave .camStart h client
        else s.release .camStart h)
    | _ => none
  | .joinFailed =>
    match s.running .camStart with
    | some ⟨button, target, .joining client⟩ => some (s.leave .camStart ⟨button, target, .joining client⟩ client)
    | _ => none
  | .left n =>
    match s.running n with
    | some ⟨button, target, .leaving⟩ =>
      let h : Handler := ⟨button, target, .leaving⟩
      if n = .camStop && named s.currentMower then
        some ({ s with timers := s.timers.setTimeout (.abort n) n.deadline }.goOn n h (.request s.timers.next))
      else some (s.release n h)
    | _ => none
  | .fired id => (s.timers.armed id).map fun armed => { s with timers := s.timers.clearTimeout id }.fire (armed.1, id)

end Controls

end MammotionRc.Web
