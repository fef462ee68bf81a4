import MammotionRc.Server.PyNumber
import MammotionRc.Web.Session

/-! # The joystick handler with what it receives

`joystick_ws` registers its socket, decodes what the browser sends, and cleans up once the receive loop has ended,
whatever ended it. Other handlers register and remove sockets of their own meanwhile. A task that was cancelled may
take further steps before `CancelledError` is raised in it.
-/

namespace MammotionRc.Web

open Machine Server

/-- What `ws.receive_json()` comes to. -/
inductive WsMessage
  | disconnect
  /-- Not a text, or not JSON. -/
  | undecodable
  /-- JSON other than an object. -/
  | notDict
  | dict (x y force : Option JsonValue)
deriving DecidableEq, Repr

/-- What ends the receive loop. -/
inductive ReceiveError
  | webSocketDisconnect
  | decodeError
  | attributeError
  | number (error : NumberError)
deriving DecidableEq, Repr

/-- `float(data.get(key, 0.0))`. -/
def axis (value : Option JsonValue) : Except ReceiveError PyFloat :=
  ((value.getD (.float (.fin 0))).toFloat).mapError .number

def WsMessage.decode : WsMessage → Except ReceiveError Frame
  | .disconnect => .error .webSocketDisconnect
  | .undecodable => .error .decodeError
  | .notDict => .error .attributeError
  | .dict x y force => do return ⟨← axis x, ← axis y, ← axis force⟩

structure JoystickHandler where
  tasks : JoystickWs
  /-- Its own socket. -/
  ws : ℕ
  /-- `state.websockets`. -/
  websockets : Finset ℕ
  /-- The calls of `h.send_raw` that the handler and its sender made, oldest first. -/
  calls : List Command
deriving DecidableEq

inductive HandlerEvent
  | receive (message : WsMessage)
  /-- The handler or its sender goes on to its next await. -/
  | task (e : JoystickEvent)
  /-- Another handler registers its socket. -/
  | added (other : ℕ)
  | discarded (other : ℕ)
deriving DecidableEq, Repr

namespace JoystickHandler

/-- A handler that has created its sender. -/
def opened (ws : ℕ) (websockets : Finset ℕ) (counted : Bool) : JoystickHandler :=
  ⟨.opened counted, ws, insert ws websockets, []⟩

def step (s : JoystickHandler) : HandlerEvent → Option JoystickHandler
  | .receive message =>
    match message.decode with
    | .ok frame => (s.tasks.step (.frame frame)).map fun tasks => { s with tasks := tasks }
    | .error _ => (s.tasks.step .leave).map fun tasks => { s with tasks := tasks }
  | .task e =>
    match e with
    | .frame _ | .leave => none
    | .joined =>
      (s.tasks.step .joined).map fun tasks =>
        { s with tasks := tasks, websockets := s.websockets.erase s.ws, calls := s.calls ++ [.stopAndNotSaveTask] }
    | e =>
      (s.tasks.step e).map fun tasks =>
        { s with tasks := tasks, calls := s.calls ++ (handed s.tasks e).toList }
  | .added other => if other = s.ws then none else some { s with websockets := insert other s.websockets }
  | .discarded other => if other = s.ws then none else some { s with websockets := s.websockets.erase other }

end JoystickHandler

end MammotionRc.Web
