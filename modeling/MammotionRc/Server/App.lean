import MammotionRc.Server.HC33Proxy
import MammotionRc.Server.Registry
import MammotionRc.Server.Watchdog

/-! # The tasks that use the mowers

Besides the requests that replace the roster, three kinds of tasks use a handle or its transport: the
watchdog of each build; the `_auto_reconnect` sequences that watchdogs spawn and nobody tracks, together
with `/api/reconnect`, which bounces the socket in the same way; and the handlers that look a handle up and
send through it (joystick sockets and their senders, trace, action and settings requests). Link `k` is the
transport of build `k`. Which calls a handler makes is up to the tape, as is what `start()` and
`request_report_snapshot()` send; a handle does nothing on its own.
-/

namespace MammotionRc.Server

open Framing Machine

inductive TaskId
  | request (i : ℕ)
  | watchdog (k : ℕ)
  | bounce (j : ℕ)
  | handler (j : ℕ)
deriving DecidableEq, Repr

/-- The number by which the transports know a task. -/
def TaskId.number : TaskId → ℕ
  | request i => 4 * i
  | watchdog k => 4 * k + 1
  | bounce j => 4 * j + 2
  | handler j => 4 * j + 3

/-- Where `_watchdog(name)` is suspended; `t` is the build whose transport it watches. -/
inductive WatchdogPc
  | absent
  /-- Created by `create_task` and not run yet. -/
  | created (name : String)
  | sleeping (name : String) (t : ℕ) (last : TransportAvailability)
  /-- `await h.send_raw(...)` of a telemetry probe. -/
  | probing (name : String) (t : ℕ) (last : TransportAvailability) (h : ℕ)
  | done
deriving DecidableEq, Repr

inductive BounceKind
  /-- `_auto_reconnect` with the delays it has not started. -/
  | auto (later : List ℕ)
  /-- `/api/reconnect`. -/
  | manual
deriving DecidableEq, Repr

inductive BouncePc
  /-- Created by `create_task` and not run yet. -/
  | created
  | sleeping
  /-- `await t.disconnect()`. -/
  | disconnecting
  /-- `await t.connect()`. -/
  | connecting
  /-- `await h.start()`. -/
  | starting
  /-- `await h.request_report_snapshot()`. -/
  | reporting
  | done
deriving DecidableEq, Repr

/-- An `_auto_reconnect` or `/api/reconnect` with the builds whose transport and handle it read. -/
structure Bounce where
  name : String
  kind : BounceKind
  t : ℕ
  h : ℕ
  pc : BouncePc
deriving DecidableEq, Repr

inductive HolderPc
  | absent
  /-- It holds the handle of build `k`. -/
  | holding (k : ℕ)
  | done
deriving DecidableEq, Repr

structure App where
  registry : Registry
  links : ℕ → HC33ProxyTransport
  watchdogs : ℕ → WatchdogPc
  bounces : ℕ → Option Bounce
  handlers : ℕ → HolderPc

inductive WatchdogAction
  /-- The task runs for the first time. -/
  | start
  /-- It wakes up, spawns retry sequence `j` on an unexpected drop, and sends a probe or not. -/
  | tick (j : ℕ) (probe : Option Bytes)
  /-- The probe is through and another one is sent. -/
  | probe (payload : Bytes)
  /-- The last probe is through. -/
  | probed
  /-- `CancelledError` is raised at its await. -/
  | cancelled
deriving DecidableEq, Repr

inductive BounceAction
  /-- `/api/reconnect` begins. -/
  | manual (name : String)
  /-- The retry sequence runs for the first time. -/
  | start
  /-- Its delay is over. -/
  | wake
  /-- `t.disconnect()` returns or raises. -/
  | disconnected
  /-- `t.connect()` returns. -/
  | connected
  /-- `t.connect()` or `h.start()` raises. -/
  | failed
  /-- `h.start()` returns. -/
  | started
  /-- `h.request_report_snapshot()` returns or raises. -/
  | reported
  /-- `h.start()` or `h.request_report_snapshot()` sends. -/
  | send (payload : Bytes)
deriving DecidableEq, Repr

inductive HandlerAction
  /-- It reads `state.handles[name]`. -/
  | opened (name : String)
  | send (payload : Bytes)
  /-- `CancelledError` is raised in its send. -/
  | cancelled
  | returned
deriving DecidableEq, Repr

inductive AppEvent
  | request (e : RegistryEvent)
  /-- `handle.start()` of request `i` sends. -/
  | startSends (i : ℕ) (payload : Bytes)
  | watchdog (k : ℕ) (action : WatchdogAction)
  | bounce (j : ℕ) (action : BounceAction)
  | handler (j : ℕ) (action : HandlerAction)
  /-- Something goes on in a call on link `k`, in a reader loop or at the peer. -/
  | link (k : ℕ) (e : TransportEvent)
deriving DecidableEq, Repr

/-- An event that neither begins a call nor cancels one. -/
def TransportEvent.progress : TransportEvent → Bool
  | .connect _ | .disconnect _ | .send _ _ | .cancelled _ => false
  | _ => true

namespace App

variable (codec : Codec)

/-- Task `id` has no call in progress on link `k`. -/
def returned (s : App) (id : TaskId) (k : ℕ) : Bool := (s.links k).calls id.number = .idle

/-- Link `k` takes a step. -/
def call (s : App) (k : ℕ) (e : TransportEvent) : Option App :=
  ((s.links k).step codec e).map fun link => { s with links := Function.update s.links k link }

def setWatchdog (s : App) (k : ℕ) (pc : WatchdogPc) : App :=
  { s with watchdogs := Function.update s.watchdogs k pc }

def setBounce (s : App) (j : ℕ) (bounce : Bounce) : App :=
  { s with bounces := Function.update s.bounces j (some bounce) }

def setHandler (s : App) (j : ℕ) (pc : HolderPc) : App :=
  { s with handlers := Function.update s.handlers j pc }

def setRetrying (s : App) (name : String) (b : Bool) : App :=
  { s with
    registry := { s.registry with autoRetrying := Function.update s.registry.autoRetrying name b } }

def setGaveUp (s : App) (name : String) (b : Bool) : App :=
  { s with registry := { s.registry with autoGaveUp := Function.update s.registry.autoGaveUp name b } }

def setManualOp (s : App) (name : String) (b : Bool) : App :=
  { s with registry := { s.registry with manualOp := Function.update s.registry.manualOp name b } }

section Requests

/-- The await of request `i` is over. -/
def awaited (s : App) (i : ℕ) : Bool :=
  match s.registry.requests i with
  | .joiningWatchdogs _ k _ => s.watchdogs k = .done
  | .disconnecting _ k _ | .connecting _ k | .starting _ k => s.returned (.request i) k
  | _ => true

/-- Request `i` begins the call it is about to await. -/
def issue (s : App) (i : ℕ) : Option App :=
  match s.registry.requests i with
  | .disconnecting _ k _ => s.call codec k (.disconnect (TaskId.request i).number)
  | .connecting _ k => s.call codec k (.connect (TaskId.request i).number)
  | _ => some s

/-- `create_task(_watchdog(name))` for build `k`. -/
def createWatchdog (s : App) (k : ℕ) : App := s.setWatchdog k (.created (s.registry.builds k).cfg.name)

/-- The watchdog that a request creates when it leaves `pc` by `e`. -/
def createWatchdogs (s : App) (pc : ApplyPc) (e : RegistryEvent) : App :=
  match pc, e with
  | .starting _ k, _ | .connecting _ k, .failed _ => s.createWatchdog k
  | _, _ => s

def stepRequest (s : App) (e : RegistryEvent) : Option App :=
  match e with
  | .save _ _ => (s.registry.step e).map fun registry => { s with registry := registry }
  | .resume i | .failed i =>
    if s.awaited i then
      (s.registry.step e).bind fun registry =>
        ({ s with registry := registry }.createWatchdogs (s.registry.requests i) e).issue codec i
    else none

def startSends (s : App) (i : ℕ) (payload : Bytes) : Option App :=
  match s.registry.requests i with
  | .starting _ k => s.call codec k (.send (TaskId.request i).number payload)
  | _ => none

end Requests

section Watchdogs

/-- `unexpected_drop` of a tick. -/
def unexpectedDrop (s : App) (name : String) (t : ℕ) (last : TransportAvailability) : Bool :=
  (s.links t).availability = .disconnected && last = .connected && !s.registry.manualOp name &&
    !s.registry.autoRetrying name

/-- `create_task(_auto_reconnect(name))`. -/
def spawn (s : App) (j : ℕ) (name : String) : Option App :=
  match s.bounces j with
  | none => some (s.setBounce j ⟨name, .auto AUTO_RECONNECT_DELAYS, 0, 0, .created⟩)
  | some _ => none

/-- The rest of a tick after the retry sequence was spawned. -/
def probe (s : App) (k : ℕ) (name : String) (t : ℕ) (payload : Option Bytes) : Option App :=
  let last := (s.links t).availability
  match payload with
  | none => some (s.setWatchdog k (.sleeping name t last))
  | some payload =>
    match s.registry.handles.get? name with
    | some h =>
      if last = .connected then
        (s.setWatchdog k (.probing name t last h)).call codec h (.send (TaskId.watchdog k).number payload)
      else none
    | none => none

def stepWatchdog (s : App) (k : ℕ) (action : WatchdogAction) : Option App :=
  match action, s.watchdogs k with
  | .start, .created name =>
    match s.registry.transports.get? name with
    | some t => some (s.setWatchdog k (.sleeping name t (s.links t).availability))
    | none => some (s.setWatchdog k .done)
  | .tick j payload, .sleeping name t last =>
    if s.unexpectedDrop name t last then
      (s.spawn j name).bind fun spawned => spawned.probe codec k name t payload
    else s.probe codec k name t payload
  | .probe payload, .probing _ _ _ h =>
    s.call codec h (.send (TaskId.watchdog k).number payload)
  | .probed, .probing name t last h =>
    if s.returned (.watchdog k) h then some (s.setWatchdog k (.sleeping name t last)) else none
  | .cancelled, pc =>
    if (s.registry.builds k).watchdog = .cancelled then
      match pc with
      | .created _ | .sleeping _ _ _ => some (s.setWatchdog k .done)
      | .probing _ _ _ h =>
        if s.returned (.watchdog k) h then some (s.setWatchdog k .done)
        else (s.setWatchdog k .done).call codec h (.cancelled (TaskId.watchdog k).number)
      | .absent | .done => none
    else none
  | _, _ => none

end Watchdogs

section Bounces

/-- The attempt of a bounce is over without success. -/
def nextAttempt (s : App) (j : ℕ) (b : Bounce) : App :=
  match b.kind with
  | .auto (_ :: later) => s.setBounce j { b with kind := .auto later, pc := .sleeping }
  | .auto [] =>
    ((s.setGaveUp b.name true).setRetrying b.name false).setBounce j { b with pc := .done }
  | .manual => (s.setManualOp b.name false).setBounce j { b with pc := .done }

/-- The bounce succeeded. -/
def succeeded (s : App) (j : ℕ) (b : Bounce) : App :=
  match b.kind with
  | .auto _ => (s.setRetrying b.name false).setBounce j { b with pc := .done }
  | .manual =>
    ((s.setGaveUp b.name false).setManualOp b.name false).setBounce j { b with pc := .done }

/-- `/api/reconnect` up to its first await. -/
def startManual (s : App) (j : ℕ) (name : String) : Option App :=
  match s.bounces j, s.registry.transports.get? name, s.registry.handles.get? name with
  | none, some t, some h =>
    ((s.setManualOp name true).setBounce j ⟨name, .manual, t, h, .disconnecting⟩).call codec t
      (.disconnect (TaskId.bounce j).number)
  | _, _, _ => none

/-- `_auto_reconnect` up to its first delay; a missing name raises `KeyError` outside its `try`. -/
def startAuto (s : App) (j : ℕ) (b : Bounce) : App :=
  let s := (s.setRetrying b.name true).setGaveUp b.name false
  match s.registry.transports.get? b.name, s.registry.handles.get? b.name with
  | some t, some h => s.nextAttempt j { b with t := t, h := h }
  | _, _ => s.setBounce j { b with pc := .done }

/-- One action of a bounce that has begun. -/
def stepBegun (s : App) (j : ℕ) (b : Bounce) (action : BounceAction) : Option App :=
  match action, b.pc with
  | .start, .created => some (s.startAuto j b)
  | .wake, .sleeping =>
    (s.setBounce j { b with pc := .disconnecting }).call codec b.t (.disconnect (TaskId.bounce j).number)
  | .disconnected, .disconnecting =>
    if s.returned (.bounce j) b.t then
      (s.setBounce j { b with pc := .connecting }).call codec b.t (.connect (TaskId.bounce j).number)
    else none
  | .connected, .connecting =>
    if s.returned (.bounce j) b.t then some (s.setBounce j { b with pc := .starting }) else none
  | .failed, .connecting => if s.returned (.bounce j) b.t then some (s.nextAttempt j b) else none
  | .failed, .starting => if s.returned (.bounce j) b.h then some (s.nextAttempt j b) else none
  | .started, .starting =>
    if s.returned (.bounce j) b.h then some (s.setBounce j { b with pc := .reporting }) else none
  | .reported, .reporting => if s.returned (.bounce j) b.h then some (s.succeeded j b) else none
  | .send payload, .starting | .send payload, .reporting =>
    s.call codec b.h (.send (TaskId.bounce j).number payload)
  | _, _ => none

def stepBounce (s : App) (j : ℕ) (action : BounceAction) : Option App :=
  match action with
  | .manual name => s.startManual codec j name
  | action => (s.bounces j).bind fun b => s.stepBegun codec j b action

end Bounces

def stepHandler (s : App) (j : ℕ) (action : HandlerAction) : Option App :=
  match action, s.handlers j with
  | .opened name, .absent => (s.registry.handles.get? name).map fun k => s.setHandler j (.holding k)
  | .send payload, .holding k => s.call codec k (.send (TaskId.handler j).number payload)
  | .cancelled, .holding k => s.call codec k (.cancelled (TaskId.handler j).number)
  | .returned, .holding k =>
    if s.returned (.handler j) k then some (s.setHandler j .done) else none
  | _, _ => none

def step (s : App) : AppEvent → Option App
  | .request e => s.stepRequest codec e
  | .startSends i payload => s.startSends codec i payload
  | .watchdog k action => s.stepWatchdog codec k action
  | .bounce j action => s.stepBounce codec j action
  | .handler j action => s.stepHandler codec j action
  | .link k e => if e.progress then s.call codec k e else none

/-- The lifespan starts to build the roster that was loaded. -/
def init (loaded : List MowerConfig) : App where
  registry := .init loaded
  links :=
    match (Registry.init loaded).requests 0 with
    | .connecting _ k =>
      Function.update (fun _ => .init) k
        (HC33ProxyTransport.init.suspend (TaskId.request 0).number (.connect .lockWait none))
    | _ => fun _ => .init
  watchdogs _ := .absent
  bounces _ := none
  handlers _ := .absent

end App

end MammotionRc.Server
