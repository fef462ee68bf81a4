import MammotionRc.Firmware.TcpProxy

/-! # What the clients of `TcpProxy` are sent

The notify callback fills `notify_queue_`, and loopTask moves the notifications from there to whichever
client it serves. `Downlink` runs loopTask beside a record of that: the callback's pushes are numbered, and
each accepted client owns the notifications drained in its session, those of them that were sent, and the
bytes that `client_.write` accepted.
-/

namespace MammotionRc.Firmware

open Framing Machine

/-- A notification pushed onto `notify_queue_`. -/
structure Notification where
  number : ℕ
  data : Bytes
deriving DecidableEq, Repr

structure ClientRecord where
  /-- How many notifications had been pushed when `on_client_connected_` began. -/
  pushed : ℕ
  drained : List Notification
  /-- The drained ones that found the client connected. -/
  sent : List Notification
  received : Bytes
deriving DecidableEq, Repr

structure Downlink where
  task : LoopTask
  pushed : ℕ
  /-- The notifications in `notify_queue_`. -/
  queued : List Notification
  /-- The accepted clients, latest first. -/
  clients : List ClientRecord
deriving DecidableEq, Repr

namespace Downlink

def init (mutex : Bool) : Downlink := ⟨.init mutex, 0, [], []⟩

/-- Something is added to the record of the latest client. -/
def latest (clients : List ClientRecord) (add : ClientRecord → ClientRecord) : List ClientRecord :=
  match clients with
  | cur :: older => add cur :: older
  | [] => []

/-- The record after an event that took loopTask to `task`. -/
def observe (s : Downlink) (e : Event) (task : LoopTask) : Downlink :=
  match e with
  | .notify data =>
    if s.task.proxy.notifyMutex then
      { s with task := task, pushed := s.pushed + 1, queued := s.queued ++ [⟨s.pushed, data⟩] }
    else { s with task := task }
  | .clearQueue => { s with task := task, queued := if s.task.proxy.notifyMutex then [] else s.queued }
  | .accept (some _) => { s with task := task, clients := ⟨s.pushed, [], [], []⟩ :: s.clients }
  | .drain =>
    match s.task.proxy.notifyMutex, s.queued with
    | true, notification :: rest =>
      { s with
        task := task
        queued := rest
        clients := latest s.clients fun cur => { cur with
          drained := cur.drained ++ [notification]
          sent := if s.task.client.connected then cur.sent ++ [notification] else cur.sent } }
    | _, _ => { s with task := task }
  | .clientWrite data accepted _ =>
    { s with
      task := task
      clients := latest s.clients fun cur => { cur with received := cur.received ++ data.take accepted } }
  | _ => { s with task := task }

def step (s : Downlink) (e : Event) : Option Downlink := (s.task.step e).map (s.observe e)

end Downlink

/-- The stream that the notifications drained in a session make up. -/
def ClientRecord.frames (client : ClientRecord) : Bytes :=
  (client.drained.map Notification.data).flatMap encodeFrame

end MammotionRc.Firmware
