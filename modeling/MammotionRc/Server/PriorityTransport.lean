import MammotionRc.Machine.Run
import MammotionRc.Machine.TimerClock

/-! # The priority gate of the transport

`_PriorityHC33Transport.send` lets a telemetry send wait while a control send is under way, for a while at most. Any
number of tasks are inside `send` at once; each is at the gate or in the send of the base class, which returns,
raises or is cancelled as it likes. Setting the event wakes the tasks at the gate, which run later. Times are
milliseconds.
-/

namespace MammotionRc.Server

open Machine

/-- The counters that `send` keeps. -/
structure LinkStats where
  controlFrames : ℕ
  telemetryFrames : ℕ
  controlMsMax : ℚ
  controlMsSum : ℚ
  telemetryMsMax : ℚ
  slowSends : ℕ
  telemetryYields : ℕ
  sendErrors : ℕ
deriving DecidableEq, Repr

/-- `reset`. -/
def LinkStats.zero : LinkStats := ⟨0, 0, 0, 0, 0, 0, 0, 0⟩

def SLOW_SEND_MS : ℚ := 150
def CONTROL_YIELD_MS : ℚ := 600

/-- Where a `send` is. -/
inductive GatedPc
  /-- `wait_for(_control_idle.wait(), ...)` under a timer; `woken` once the event was set. -/
  | gate (timer : ℕ) (woken : Bool)
  /-- `super().send(...)`, since `t0`. -/
  | base (t0 : ℚ)
  /-- It ended after the stats had been reset so often; `reached` if it came to `super().send`. -/
  | finished (reached : Bool) (resets : ℕ)
deriving DecidableEq, Repr

structure GatedSend where
  control : Bool
  /-- When it was called. -/
  since : ℚ
  pc : GatedPc
deriving DecidableEq, Repr

inductive SendOutcome
  | returned
  | raised
  | cancelled
deriving DecidableEq, Repr

structure PriorityTransport where
  stats : LinkStats
  /-- How often the stats were reset. -/
  resets : ℕ
  controlInflight : ℤ
  /-- `_control_idle` is set. -/
  controlIdle : Bool
  /-- The calls of `send`, oldest first. -/
  sends : List GatedSend
  clock : TimerClock ℕ

inductive GateEvent
  /-- A task calls `send`, with `_CONTROL_SEND` set or not. -/
  | send (control : Bool)
  /-- The wait of send `i` returns. -/
  | woken (i : ℕ)
  /-- A timer of the gate that is due fires. -/
  | timer (id : ℕ)
  /-- `CancelledError` is raised at the gate. -/
  | cancelled (i : ℕ)
  /-- `super().send` of send `i` ends. -/
  | ended (i : ℕ) (outcome : SendOutcome)
  | reset
  | elapse (ms : ℚ)
deriving DecidableEq, Repr

/-- The `finally` of a send that took `ms`. -/
def LinkStats.count (st : LinkStats) (control : Bool) (ms : ℚ) (outcome : SendOutcome) : LinkStats :=
  let st := if outcome = .raised then { st with sendErrors := st.sendErrors + 1 } else st
  let st := if SLOW_SEND_MS < ms then { st with slowSends := st.slowSends + 1 } else st
  if control then
    { st with
      controlFrames := st.controlFrames + 1
      controlMsSum := st.controlMsSum + ms
      controlMsMax := if st.controlMsMax < ms then ms else st.controlMsMax }
  else
    { st with
      telemetryFrames := st.telemetryFrames + 1
      telemetryMsMax := if st.telemetryMsMax < ms then ms else st.telemetryMsMax }

/-- The event is set while the send may be at the gate. -/
def GatedSend.wake (x : GatedSend) : GatedSend :=
  match x.pc with
  | .gate timer _ => { x with pc := .gate timer true }
  | _ => x

namespace PriorityTransport

def init : PriorityTransport := ⟨.zero, 0, 0, true, [], .start⟩

/-- `send` up to its first await. -/
def send (s : PriorityTransport) (control : Bool) : PriorityTransport :=
  if control then
    { s with
      controlInflight := s.controlInflight + 1, controlIdle := false
      sends := s.sends ++ [⟨true, s.clock.now, .base s.clock.now⟩] }
  else if s.controlIdle then { s with sends := s.sends ++ [⟨false, s.clock.now, .base s.clock.now⟩] }
  else
    { s with
      stats := { s.stats with telemetryYields := s.stats.telemetryYields + 1 }
      sends := s.sends ++ [⟨false, s.clock.now, .gate s.clock.timers.next false⟩]
      clock := s.clock.setTimeout s.sends.length CONTROL_YIELD_MS (by decide) }

/-- Send `i` leaves the gate. -/
def leaveGate (s : PriorityTransport) (i timer : ℕ) (x : GatedSend) (pc : GatedPc) : PriorityTransport :=
  { s with sends := s.sends.set i { x with pc := pc }, clock := s.clock.clearTimeout timer }

/-- `send` once `super().send` has ended. -/
def finish (s : PriorityTransport) (i : ℕ) (x : GatedSend) (t0 : ℚ) (outcome : SendOutcome) : PriorityTransport :=
  let s := { s with stats := s.stats.count x.control (s.clock.now - t0) outcome,
                    sends := s.sends.set i { x with pc := .finished true s.resets } }
  if x.control then
    let left := { s with controlInflight := s.controlInflight - 1 }
    if left.controlInflight ≤ 0 then { left with controlIdle := true, sends := left.sends.map GatedSend.wake } else left
  else s

/-- One event; `none` if it cannot happen now. -/
def step (s : PriorityTransport) : GateEvent → Option PriorityTransport
  | .send control => some (s.send control)
  | .woken i =>
    match s.sends[i]? with
    | some ⟨control, since, .gate timer true⟩ =>
      some (s.leaveGate i timer ⟨control, since, .gate timer true⟩ (.base s.clock.now))
    | _ => none
  | .timer id =>
    match s.clock.due id with
    | some i =>
      match s.sends[i]? with
      | some ⟨control, since, .gate timer woken⟩ =>
        some (s.leaveGate i timer ⟨control, since, .gate timer woken⟩ (.base s.clock.now))
      | _ => none
    | none => none
  | .cancelled i =>
    match s.sends[i]? with
    | some ⟨control, since, .gate timer woken⟩ =>
      some (s.leaveGate i timer ⟨control, since, .gate timer woken⟩ (.finished false s.resets))
    | _ => none
  | .ended i outcome =>
    match s.sends[i]? with
    | some ⟨control, since, .base t0⟩ => some (s.finish i ⟨control, since, .base t0⟩ t0 outcome)
    | _ => none
  | .reset => some { s with stats := .zero, resets := s.resets + 1 }
  | .elapse ms => if may : s.clock.MayElapse ms then some { s with clock := s.clock.elapse ms may } else none

end PriorityTransport

end MammotionRc.Server
