import Mathlib.Logic.Function.Basic
import MammotionRc.Machine.OrderedDict
import MammotionRc.Machine.Run

/-! # The live registry and the requests that replace it

`state.handles`, `state.transports` and `state.watchdog_tasks` map the names of the roster to what
`_build_and_connect` created for them. Three more dictionaries hold its flags; they are only read with the
default `False`, so they are functions here. The lifespan builds the roster that was loaded at startup, and
every `/api/onboard/save` tears all of it down and builds its own. Requests switch only at awaits, so
an event runs one of them from an await to its next one; nothing else writes to the first three.
Build `k` is the `k`-th handle, together with its transport and the watchdog task created for it.
-/

namespace MammotionRc.Server

open Machine

/-- A row of the roster. -/
structure MowerConfig where
  name : String
  nickname : Option String
  hc33Host : String
  hc33Port : ℤ
  iotId : Option String
deriving DecidableEq, Repr

/-- What `onboard_save` lets through to `_apply_mowers`. -/
def Accepted (roster : List MowerConfig) : Prop :=
  roster ≠ [] ∧ ∀ cfg ∈ roster, cfg.name ≠ "" ∧ cfg.hc33Host ≠ ""

instance (roster : List MowerConfig) : Decidable (Accepted roster) :=
  inferInstanceAs (Decidable (_ ∧ _))

/-- The watchdog task of a build. -/
inductive WatchdogTask
  /-- `_build_and_connect` has not created it yet. -/
  | absent
  | running
  /-- `cancel()` was called on it. -/
  | cancelled
deriving DecidableEq, Repr

structure Build where
  /-- The row that the handle and the transport were made from. -/
  cfg : MowerConfig
  /-- `stop()` was called on the handle. -/
  stopped : Bool
  /-- `disconnect()` was called on the transport. -/
  disconnected : Bool
  watchdog : WatchdogTask
deriving DecidableEq, Repr

/-- Where a request, or the lifespan, is suspended. -/
inductive ApplyPc
  | absent
  /-- `await ws.close(...)` of `_teardown_all`. -/
  | closingSockets (roster : List MowerConfig)
  /-- `await task` on the watchdog of build `k`. -/
  | joiningWatchdogs (roster : List MowerConfig) (k : ℕ) (rest : OrderedDict.Cursor)
  /-- `await h.stop()` on the handle of build `k`. -/
  | stoppingHandles (roster : List MowerConfig) (k : ℕ) (rest : OrderedDict.Cursor)
  /-- `await t.disconnect()` on the transport of build `k`. -/
  | disconnecting (roster : List MowerConfig) (k : ℕ) (rest : OrderedDict.Cursor)
  /-- `await transport.connect()` of build `k`; the loop over `MOWERS` goes on at index `next`. -/
  | connecting (next k : ℕ)
  /-- `await handle.start()` of build `k`. -/
  | starting (next k : ℕ)
  | returned
  /-- An exception left `_apply_mowers`. -/
  | raised
deriving DecidableEq, Repr

structure Registry where
  /-- `MOWERS`. -/
  mowers : List MowerConfig
  handles : OrderedDict String ℕ
  transports : OrderedDict String ℕ
  watchdogTasks : OrderedDict String ℕ
  autoRetrying : String → Bool
  autoGaveUp : String → Bool
  manualOp : String → Bool
  /-- How many handles were created. -/
  built : ℕ
  builds : ℕ → Build
  /-- The lifespan is number 0. -/
  requests : ℕ → ApplyPc

inductive RegistryEvent
  /-- Request `i` calls `_apply_mowers(roster)`. -/
  | save (i : ℕ) (roster : List MowerConfig)
  /-- The await of request `i` returns; inside `_teardown_all` it may also raise. -/
  | resume (i : ℕ)
  /-- `connect()` or `start()` of request `i` raises. -/
  | failed (i : ℕ)
deriving DecidableEq, Repr

namespace Registry

/-- Request `i` runs up to the await `pc`. -/
def suspend (s : Registry) (i : ℕ) (pc : ApplyPc) : Registry :=
  { s with requests := Function.update s.requests i pc }

def setBuild (s : Registry) (k : ℕ) (build : Build) : Registry :=
  { s with builds := Function.update s.builds k build }

/-- `_build_and_connect` up to its `connect()`. -/
def register (s : Registry) (cfg : MowerConfig) : Registry :=
  { s with
    handles := s.handles.set cfg.name s.built
    transports := s.transports.set cfg.name s.built
    built := s.built + 1 }.setBuild s.built ⟨cfg, false, false, .absent⟩

/-- The loop over `MOWERS` goes on at index `next`. -/
def buildNext (s : Registry) (i next : ℕ) : Registry :=
  match s.mowers[next]? with
  | some cfg => (s.register cfg).suspend i (.connecting (next + 1) s.built)
  | none => s.suspend i .returned

/-- `_build_and_connect` after `connect()` and `start()`. -/
def arm (s : Registry) (k : ℕ) : Registry :=
  { s with watchdogTasks := s.watchdogTasks.set (s.builds k).cfg.name k }.setBuild k
    { s.builds k with watchdog := .running }

/-- The end of `_teardown_all`. -/
def clear (s : Registry) : Registry :=
  { s with
    watchdogTasks := .empty
    handles := .empty
    transports := .empty
    autoRetrying := fun _ => false
    autoGaveUp := fun _ => false
    manualOp := fun _ => false }

def disconnectNext (s : Registry) (i : ℕ) (roster : List MowerConfig) (c : OrderedDict.Cursor) :
    Registry :=
  match s.transports.advance c with
  | .changed => s.suspend i .raised
  | .item k =>
    (s.setBuild k { s.builds k with disconnected := true }).suspend i (.disconnecting roster k c.next)
  | .exhausted => { s.clear with mowers := roster }.buildNext i 0

def stopNext (s : Registry) (i : ℕ) (roster : List MowerConfig) (c : OrderedDict.Cursor) : Registry :=
  match s.handles.advance c with
  | .changed => s.suspend i .raised
  | .item k =>
    (s.setBuild k { s.builds k with stopped := true }).suspend i (.stoppingHandles roster k c.next)
  | .exhausted => s.disconnectNext i roster s.transports.cursor

def joinNext (s : Registry) (i : ℕ) (roster : List MowerConfig) (c : OrderedDict.Cursor) : Registry :=
  match s.watchdogTasks.advance c with
  | .changed => s.suspend i .raised
  | .item k => s.suspend i (.joiningWatchdogs roster k c.next)
  | .exhausted => s.stopNext i roster s.handles.cursor

/-- `task.cancel()` for every registered watchdog. -/
def cancelWatchdogs (s : Registry) : Registry :=
  { s with
    builds := fun k =>
      if k ∈ s.watchdogTasks.values then { s.builds k with watchdog := .cancelled } else s.builds k }

/-- The await of request `i` returns. -/
def resume (s : Registry) (i : ℕ) : Option Registry :=
  match s.requests i with
  | .closingSockets roster => some (s.cancelWatchdogs.joinNext i roster s.watchdogTasks.cursor)
  | .joiningWatchdogs roster _ c => some (s.joinNext i roster c)
  | .stoppingHandles roster _ c => some (s.stopNext i roster c)
  | .disconnecting roster _ c => some (s.disconnectNext i roster c)
  | .connecting next k => some (s.suspend i (.starting next k))
  | .starting next k => some ((s.arm k).buildNext i next)
  | .absent | .returned | .raised => none

def step (s : Registry) : RegistryEvent → Option Registry
  | .save i roster =>
    if s.requests 0 = .returned ∧ s.requests i = .absent ∧ Accepted roster then
      some (s.suspend i (.closingSockets roster))
    else none
  | .resume i => s.resume i
  | .failed i =>
    match s.requests i with
    | .connecting next k | .starting next k => some ((s.arm k).buildNext i next)
    | _ => none

/-- The lifespan starts to build the roster that was loaded. -/
def init (loaded : List MowerConfig) : Registry :=
  buildNext
    { mowers := loaded
      handles := .empty
      transports := .empty
      watchdogTasks := .empty
      autoRetrying := fun _ => false
      autoGaveUp := fun _ => false
      manualOp := fun _ => false
      built := 0
      builds := fun _ => ⟨⟨"", none, "", 0, none⟩, false, false, .absent⟩
      requests := fun _ => .absent } 0 0

/-- How a request handler that looks a mower up can fail. -/
inductive LookupError
  /-- `HTTPException(404, ...)`. -/
  | unknownMower
  | keyError
deriving DecidableEq, Repr

/-- `_cfg`. -/
def cfg (s : Registry) (name : String) : Except LookupError MowerConfig :=
  match s.mowers.find? fun m => m.name = name with
  | some m => .ok m
  | none => .error .unknownMower

/-- `_handle`. -/
def handle (s : Registry) (name : String) : Except LookupError ℕ :=
  match s.handles.get? name with
  | some h => .ok h
  | none => .error .unknownMower

/-- `state.transports[name]` and `state.handles[name]` at the start of `reconnect`. -/
def reconnectTarget (s : Registry) (name : String) : Except LookupError (ℕ × ℕ) := do
  let _ ← s.cfg name
  match s.transports.get? name, s.handles.get? name with
  | some t, some h => .ok (t, h)
  | _, _ => .error .keyError

end Registry

end MammotionRc.Server
