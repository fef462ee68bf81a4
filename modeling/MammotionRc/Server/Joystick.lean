import MammotionRc.Machine.LatestSlot
import MammotionRc.Machine.Run
import MammotionRc.Server.PyFloat
import MammotionRc.Server.Registry

/-! # The joystick socket: a receive loop and a sender task

`joystick_ws` runs two tasks on one event loop. The receive loop decodes a frame into the mailbox and
goes back to `receive_json`; `_sender` waits for the flag, takes the mailbox and sends. Tasks switch
only at awaits, so each event below runs one task from an await to its next one. How long a send takes
and whether it raises is up to the events, as is what the speed transform makes of a stick position.
An await that would return at once is a suspension like any other, which only adds interleavings.
-/

namespace MammotionRc.Server

open Machine

/-- One decoded message of the browser. -/
structure Frame where
  x : PyFloat
  y : PyFloat
  force : PyFloat
deriving DecidableEq, Repr

/-- What the mailbox can hold: `_STICK_STOP` or a pair of axes. -/
inductive StickCommand
  | stop
  | axes (x y : PyFloat)
deriving DecidableEq, Repr

/-- The receive loop's decoding of a frame. -/
def Frame.command (frame : Frame) : StickCommand :=
  if frame.force.lt DEAD_ZONE then .stop else .axes frame.x frame.y

/-- A command handed to `h.send_raw`. -/
inductive Command
  | stopAndNotSaveTask
  | sendMovement (linear angular : ℤ)
deriving DecidableEq, Repr

/-- `transform_both_speeds` on the scaled axes: it may raise or decline to produce a vector. -/
inductive Speeds
  | raised
  | declined
  | vector (linear angular : ℤ)
deriving DecidableEq, Repr

/-- Where `_sender` is suspended. -/
inductive SenderPc
  /-- Created by `create_task` and not run yet. -/
  | created
  /-- `await have_new.wait()`. -/
  | waiting
  /-- `await h.send_raw(command)` for the mailbox content `cmd`. -/
  | sending (cmd : StickCommand) (command : Command)
  /-- `await asyncio.sleep(0.25)` after the send for `cmd` raised. -/
  | backoff (cmd : StickCommand)
  | finished
deriving DecidableEq, Repr

/-- Where the handler itself is suspended. -/
inductive HandlerPc
  /-- `await ws.receive_json()`. -/
  | receiving
  /-- `await sender`, after `sender.cancel()`. -/
  | joining
  /-- `await h.send_raw(...)` of the final stop. -/
  | stopping
  | returned
deriving DecidableEq, Repr

structure JoystickWs where
  /-- `pending`, `have_new` and this socket's increments of `stats.stale_dropped`. -/
  mailbox : LatestSlot StickCommand
  /-- `stats is not None`. -/
  counted : Bool
  /-- `stopped` of `_sender`. -/
  stopped : Bool
  sender : SenderPc
  handler : HandlerPc
deriving DecidableEq, Repr

inductive JoystickEvent
  /-- `receive_json` returns a frame and the receive loop stores it. -/
  | frame (frame : Frame)
  /-- The receive loop ends, by a disconnect or by any exception. -/
  | leave
  /-- `_sender` runs for the first time. -/
  | start
  /-- `_sender` wakes up, takes `cmd` and goes on to its next await. -/
  | take (cmd : Option StickCommand) (speeds : Speeds)
  /-- The send in flight completes. -/
  | sent (command : Command)
  /-- The send in flight raises. -/
  | sendFailed (command : Command)
  /-- The back-off is over. -/
  | backoffOver
  /-- `CancelledError` is raised at the await of `_sender`. -/
  | cancelled
  /-- `await sender` returns and the handler hands over its final stop. -/
  | joined
  /-- The final stop completes or raises. -/
  | finalStop (ok : Bool)
deriving DecidableEq, Repr

namespace JoystickWs

/-- The handler once the sender task is created. -/
def opened (counted : Bool) : JoystickWs := ⟨.empty, counted, true, .created, .receiving⟩

/-- `_sender` from the mailbox content to its next await. -/
def dispatch (s : JoystickWs) (cmd : Option StickCommand) (speeds : Speeds) : JoystickWs :=
  match cmd with
  | none => s
  | some .stop =>
    if s.stopped then s else { s with sender := .sending .stop .stopAndNotSaveTask }
  | some (.axes x y) =>
    match speeds with
    | .raised => { s with sender := .backoff (.axes x y) }
    | .declined => s
    | .vector linear angular =>
      { s with stopped := false, sender := .sending (.axes x y) (.sendMovement linear angular) }

/-- `_sender` after its send completed; only the stop updates `stopped`. -/
def completed (s : JoystickWs) (cmd : StickCommand) : JoystickWs :=
  match cmd with
  | .stop => { s with stopped := true, sender := .waiting }
  | .axes _ _ => { s with sender := .waiting }

def step (s : JoystickWs) : JoystickEvent → Option JoystickWs
  | .frame frame =>
    match s.handler with
    | .receiving => some { s with mailbox := s.mailbox.put s.counted frame.command }
    | _ => none
  | .leave =>
    match s.handler with
    | .receiving => some { s with handler := .joining }
    | _ => none
  | .start =>
    match s.sender with
    | .created => some { s with stopped := true, sender := .waiting }
    | _ => none
  | .take cmd speeds =>
    match s.sender with
    | .waiting =>
      if s.mailbox.flag && decide (s.mailbox.pending = cmd) then
        some ({ s with mailbox := s.mailbox.take }.dispatch cmd speeds)
      else none
    | _ => none
  | .sent command =>
    match s.sender with
    | .sending cmd inFlight => if inFlight = command then some (s.completed cmd) else none
    | _ => none
  | .sendFailed command =>
    match s.sender with
    | .sending cmd inFlight =>
      if inFlight = command then some { s with sender := .backoff cmd } else none
    | _ => none
  | .backoffOver =>
    match s.sender with
    | .backoff _ => some { s with sender := .waiting }
    | _ => none
  | .cancelled =>
    match s.handler with
    | .joining => some { s with sender := .finished }
    | _ => none
  | .joined =>
    match s.handler, s.sender with
    | .joining, .finished => some { s with handler := .stopping }
    | _, _ => none
  | .finalStop _ =>
    match s.handler with
    | .stopping => some { s with handler := .returned }
    | _ => none

/-! What an event needs of the two tasks, and what it does. -/

variable {s t : JoystickWs}

attribute [local simp] step

theorem step_frame {frame : Frame} : s.step (.frame frame) = some t ↔
    s.handler = .receiving ∧ { s with mailbox := s.mailbox.put s.counted frame.command } = t := by
  cases at_ : s.handler <;> simp [at_]

theorem step_leave : s.step .leave = some t ↔ s.handler = .receiving ∧ { s with handler := .joining } = t := by
  cases at_ : s.handler <;> simp [at_]

theorem step_start :
    s.step .start = some t ↔ s.sender = .created ∧ { s with stopped := true, sender := .waiting } = t := by
  cases at_ : s.sender <;> simp [at_]

theorem step_take {cmd : Option StickCommand} {speeds : Speeds} : s.step (.take cmd speeds) = some t ↔
    s.sender = .waiting ∧ s.mailbox.flag = true ∧ s.mailbox.pending = cmd ∧
      { s with mailbox := s.mailbox.take }.dispatch cmd speeds = t := by
  cases at_ : s.sender <;> simp [at_, and_assoc]

theorem step_sent {command : Command} : s.step (.sent command) = some t ↔
    ∃ cmd, s.sender = .sending cmd command ∧ s.completed cmd = t := by
  cases at_ : s.sender <;> simp [at_, eq_comm]

theorem step_sendFailed {command : Command} : s.step (.sendFailed command) = some t ↔
    ∃ cmd, s.sender = .sending cmd command ∧ { s with sender := .backoff cmd } = t := by
  cases at_ : s.sender <;> simp [at_]

theorem step_backoffOver : s.step .backoffOver = some t ↔
    ∃ cmd, s.sender = .backoff cmd ∧ { s with sender := .waiting } = t := by
  cases at_ : s.sender <;> simp [at_]

theorem step_cancelled : s.step .cancelled = some t ↔ s.handler = .joining ∧ { s with sender := .finished } = t := by
  cases at_ : s.handler <;> simp [at_]

theorem step_joined : s.step .joined = some t ↔
    s.handler = .joining ∧ s.sender = .finished ∧ { s with handler := .stopping } = t := by
  cases at_ : s.handler <;> cases done : s.sender <;> simp [at_, done]

theorem step_finalStop {ok : Bool} : s.step (.finalStop ok) = some t ↔
    s.handler = .stopping ∧ { s with handler := .returned } = t := by
  cases at_ : s.handler <;> simp [at_]

end JoystickWs

/-- `_link_stats`: the counters of the transport registered under a name. Every registered transport is a
`_PriorityHC33Transport` and has them. -/
def Registry.linkStats (s : Registry) (name : String) : Option ℕ := s.transports.get? name

/-- `joystick_ws` on a live registry, once it has created its sender; an unknown mower is refused. -/
def Registry.joystickWs (s : Registry) (name : String) : Option JoystickWs :=
  (s.handles.get? name).map fun _ => .opened (s.linkStats name).isSome

end MammotionRc.Server
