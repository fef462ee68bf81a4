import MammotionRc.Server.HC33Proxy

/-! # The watchdog of one mower and its retry sequences

`_watchdog` samples the availability of its transport at every tick and spawns `_auto_reconnect` on a
CONNECTED → DISCONNECTED pair of samples, unless `/api/reconnect` or a retry sequence is running. Other
tasks use the transport at any moment between two ticks; of what they do, only the availability and
`is_connected` matter here. The telemetry probes of a tick are calls on the transport like theirs.
-/

namespace MammotionRc.Server

open Machine

/-- Backoff schedule for auto-reconnect, in seconds. -/
def AUTO_RECONNECT_DELAYS : List ℕ := [1, 2, 5, 10, 30]

/-- Where an `_auto_reconnect` sequence is suspended; `later` are the delays it has not started yet. -/
inductive RetryPc
  | absent
  /-- Created by `create_task` and not run yet. -/
  | created
  | sleeping (later : List ℕ)
  /-- `await t.disconnect()`. -/
  | disconnecting (later : List ℕ)
  /-- The listeners at the end of `disconnect()`, or `await t.connect()`. -/
  | connecting (later : List ℕ)
  /-- `await h.start()`. -/
  | starting (later : List ℕ)
  /-- `await h.request_report_snapshot()`. -/
  | reporting
  | done
deriving DecidableEq, Repr

structure WatchedMower where
  /-- `t.availability`. -/
  availability : TransportAvailability
  /-- `t.is_connected`. -/
  isConnected : Bool
  /-- `last` of `_watchdog`. -/
  last : TransportAvailability
  manualOp : Bool
  autoRetrying : Bool
  autoGaveUp : Bool
  /-- How many retry sequences were created. -/
  spawned : ℕ
  retries : ℕ → RetryPc

inductive RetryAction
  /-- The task runs for the first time. -/
  | start
  /-- The delay is over. -/
  | wake
  /-- `t.disconnect()` drops its writer. -/
  | dropped
  /-- `t.connect()` returns, after it opened a connection or because it found one. -/
  | connected (opened : Bool)
  /-- `t.connect()` or `h.start()` raises. -/
  | failed
  /-- `h.start()` returns. -/
  | started
  /-- The report snapshot was requested, or that raised. -/
  | reported
deriving DecidableEq, Repr

inductive WatchEvent
  /-- A `connect()` of another task opens a connection. -/
  | opened
  /-- A `connect()` of another task announces CONNECTING. -/
  | connecting
  /-- Another task announces DISCONNECTED: a failed `connect()` or `send()`, a reader loop that ends, or,
  if it `dropped` the writer, a `disconnect()`. -/
  | disconnected (dropped : Bool)
  /-- The connection is lost. -/
  | lost
  /-- `/api/reconnect` begins. -/
  | manualBegins
  /-- `/api/reconnect` ends. -/
  | manualEnds (ok : Bool)
  /-- `_watchdog` wakes up. -/
  | tick
  | retry (i : ℕ) (action : RetryAction)
deriving DecidableEq, Repr

namespace WatchedMower

/-- `_watchdog` after it read `last`. -/
def watching (availability : TransportAvailability) (isConnected : Bool) : WatchedMower :=
  ⟨availability, isConnected, availability, false, false, false, 0, fun _ => .absent⟩

/-- `unexpected_drop` of a tick. -/
def unexpectedDrop (s : WatchedMower) : Bool :=
  s.availability = .disconnected && s.last = .connected && !s.manualOp && !s.autoRetrying

/-- Retry sequence `i` runs up to the await `pc`. -/
def moveRetry (s : WatchedMower) (i : ℕ) (pc : RetryPc) : WatchedMower :=
  { s with retries := Function.update s.retries i pc }

def tick (s : WatchedMower) : WatchedMower :=
  if s.unexpectedDrop then
    { s with last := s.availability, spawned := s.spawned + 1 }.moveRetry s.spawned .created
  else { s with last := s.availability }

/-- The loop of `_auto_reconnect` goes on to its next attempt, or gives up. -/
def nextAttempt (s : WatchedMower) (i : ℕ) : List ℕ → WatchedMower
  | _ :: later => s.moveRetry i (.sleeping later)
  | [] => { s with autoGaveUp := true, autoRetrying := false }.moveRetry i .done

def stepRetry (s : WatchedMower) (i : ℕ) : RetryAction → Option WatchedMower
  | .start =>
    match s.retries i with
    | .created =>
      some ({ s with autoRetrying := true, autoGaveUp := false }.nextAttempt i AUTO_RECONNECT_DELAYS)
    | _ => none
  | .wake =>
    match s.retries i with
    | .sleeping later => some (s.moveRetry i (.disconnecting later))
    | _ => none
  | .dropped =>
    match s.retries i with
    | .disconnecting later =>
      some ({ s with availability := .disconnected, isConnected := false }.moveRetry i (.connecting later))
    | _ => none
  | .connected opened =>
    match s.retries i with
    | .connecting later =>
      if opened then
        some ({ s with availability := .connected, isConnected := true }.moveRetry i (.starting later))
      else if s.isConnected then some (s.moveRetry i (.starting later))
      else none
    | _ => none
  | .failed =>
    match s.retries i with
    | .connecting later | .starting later => some (s.nextAttempt i later)
    | _ => none
  | .started =>
    match s.retries i with
    | .starting _ => some (s.moveRetry i .reporting)
    | _ => none
  | .reported =>
    match s.retries i with
    | .reporting => some ({ s with autoRetrying := false }.moveRetry i .done)
    | _ => none

def step (s : WatchedMower) : WatchEvent → Option WatchedMower
  | .opened => some { s with availability := .connected, isConnected := true }
  | .connecting => some { s with availability := .connecting }
  | .disconnected dropped =>
    some { s with availability := .disconnected, isConnected := s.isConnected && !dropped }
  | .lost => some { s with isConnected := false }
  | .manualBegins => some { s with manualOp := true }
  | .manualEnds ok => some { s with manualOp := false, autoGaveUp := s.autoGaveUp && !ok }
  | .tick => some s.tick
  | .retry i action => s.stepRetry i action

end WatchedMower

end MammotionRc.Server
