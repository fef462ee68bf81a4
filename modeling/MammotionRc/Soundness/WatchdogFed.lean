import Mathlib.Tactic.IntervalCases
import MammotionRc.Firmware.LoopWatchdog
import MammotionRc.Soundness.LoopSteps

/-! # When the loop watchdog is fed

Within one pass of `loop()` either `connect_mower` blocks or write attempts fail, never both. A connect stays
below the timeout unless it goes on to a rescan after a scan, or to a second connect; `poll_socket_` returns
after six failures of one frame but not after five failures each of many frames.
-/

namespace MammotionRc.Firmware

open Framing Machine

namespace BleCentral

/-- The first connect of the call fails and it goes on: with a rescan after a scan, or with a second connect. -/
def Chained (b : BleCentral) (a : ConnectAnswers) : Prop :=
  b.isConnected = false ∧ a.connect = false ∧
    (b.addrKnown = false ∧ a.scan.isSome = true ∨ b.addrKnown = true ∧ a.rescan.isSome = true)

/-- A connect that goes on has calls that add up to less than the timeout. -/
def BriefConnect (b : BleCentral) (a : ConnectAnswers) (times : ConnectTimes) : Prop :=
  b.Chained a →
    (if b.addrKnown then 0 else times.scan) + times.connect + times.rescan +
      (if a.rescan.isSome then times.reconnect else 0) < TASK_WDT_TIMEOUT_MS

theorem connectMowerTime_lt_iff (b : BleCentral) (a : ConnectAnswers) (times : ConnectTimes) :
    b.connectMowerTime a times < TASK_WDT_TIMEOUT_MS ↔ b.BriefConnect a times := by
  have scan := times.scan_le
  have connect := times.connect_le
  have rescan := times.rescan_le
  have reconnect := times.reconnect_le
  simp only [SCAN_TIMEOUT_MS, BLE_CONNECT_TIMEOUT_MS] at scan connect rescan reconnect
  simp only [connectMowerTime, openLinkTime, BriefConnect, Chained, TASK_WDT_TIMEOUT_MS]
  cases b.isConnected <;> cases b.addrKnown <;> cases a.connect <;> cases a.scan <;> cases a.rescan <;> simp <;> omega

end BleCentral

/-- The time that an event of loopTask takes. -/
def Event.blocks : Event → ℕ
  | .elapse ms => ms
  | .bleWrite _ false => BLE_WRITE_RETRY_DELAY_MS
  | _ => 0

namespace LoopTask

variable {s t : LoopTask} {e : Event}

theorem enterReadData_clock (s : LoopTask) : s.enterReadData.clock = s.clock := by
  rw [enterReadData]
  split <;> rfl

theorem pollSocket_clock (s : LoopTask) : s.pollSocket.clock = s.clock := by
  rw [pollSocket]
  split
  · rfl
  · exact s.enterReadData_clock
  · rfl

theorem headerRead_clock (s : LoopTask) (hi lo : UInt8) : (s.headerRead hi lo).clock = s.clock := by
  rw [headerRead]
  split_ifs
  · rfl
  · rfl
  · exact enterReadData_clock _

theorem payloadRead_clock (s : LoopTask) (n : ℕ) : (s.payloadRead n).clock = s.clock := by
  rw [payloadRead]
  split_ifs <;> rfl

theorem drainStep_clock (s : LoopTask) : s.drainStep.clock = s.clock := by
  rw [drainStep]
  split <;> rfl

/-- Time passes only with `elapse` and with the delay after a failed write attempt. -/
theorem step_clock (stepped : s.step e = some t) : t.clock = s.clock + e.blocks := by
  cases e with
  | peerClose | notify data | elapse ms => cases stepped; rfl
  | connected =>
    obtain ⟨_, rfl⟩ := step_connected.mp stepped
    split_ifs <;> rfl
  | disconnectMower => rcases step_disconnectMower.mp stepped with ⟨_, rfl⟩ | ⟨_, rfl⟩ <;> rfl
  | clearQueue =>
    obtain ⟨_, rfl⟩ := step_clearQueue.mp stepped
    rfl
  | accept incoming => obtain ⟨_, ⟨_, rfl⟩ | ⟨_, _, rfl⟩⟩ := step_accept.mp stepped <;> rfl
  | connectMower ok =>
    obtain ⟨_, rfl⟩ := step_connectMower.mp stepped
    rfl
  | idleCheck =>
    obtain ⟨_, rfl⟩ := step_idleCheck.mp stepped
    split_ifs
    · rfl
    · exact s.pollSocket_clock
  | available n => obtain ⟨_, ⟨_, rfl⟩ | ⟨_, rfl⟩⟩ := step_available.mp stepped <;> rfl
  | read result =>
    rcases step_read.mp stepped with ⟨_, _, _, _, _, _, rfl⟩ | ⟨_, _, _, _, rfl⟩ | ⟨_, _, _, _, _, rfl⟩ |
      ⟨_, _, _, _, _, rfl⟩
    · exact headerRead_clock _ _ _
    · exact headerRead_clock _ _ _
    · split_ifs
      · rfl
      · exact payloadRead_clock _ _
    · rfl
  | bleConnected up =>
    obtain ⟨_, rfl⟩ := step_bleConnected.mp stepped
    split_ifs <;> rfl
  | bleWrite data ok =>
    obtain ⟨n, _, _, rfl⟩ := step_bleWrite.mp stepped
    cases ok with
    | true => rfl
    | false =>
      simp only [attempted, Bool.false_eq_true, if_false]
      split <;> rfl
  | drain =>
    obtain ⟨_, rfl⟩ := step_drain.mp stepped
    exact s.drainStep_clock
  | clientWrite data accepted gaveUp =>
    obtain ⟨_, _, ⟨_, _, rfl⟩ | ⟨_, _, rfl⟩⟩ := step_clientWrite.mp stepped <;> rfl

end LoopTask

/-- The positions of a pass that has not looked at the socket yet. -/
def Pc.Starting : Pc → Prop
  | .disconnectMower | .clearQueue | .accept | .connectMower => True
  | .connected | .abandonMower | .drain | .writeHeader _ | .writePayload _ | .idleCheck | .pollLen | .readLen
  | .pollData | .readData _ | .bleConnected | .attempt _ => False

/-- The positions after a connect returned, or at the end of the pass. -/
def Pc.Returned : Pc → Prop
  | .connected | .abandonMower => True
  | .disconnectMower | .clearQueue | .accept | .connectMower | .drain | .writeHeader _ | .writePayload _
  | .idleCheck | .pollLen | .readLen | .pollData | .readData _ | .bleConnected | .attempt _ => False

theorem Pc.Polling.inside {pc : Pc} (polling : pc.Polling) : ¬ pc.Returned ∧ ¬ pc.Starting := by
  cases pc <;> first | exact ⟨id, id⟩ | exact polling.elim

/-- A step within a pass: it stays in the pass or ends it, and does not start anew. -/
theorem LoopTask.step_pass {s t : LoopTask} {e : Event} (stepped : s.step e = some t) (within : e ≠ .connected) :
    (s.pc.Returned → t.pc.Returned) ∧ (t.pc.Starting → s.pc.Starting) := by
  have moved {pc pc' : Pc} (was : s.pc = pc) (at_ : t.pc = pc') (returned : pc.Returned → pc'.Returned)
      (starting : pc'.Starting → pc.Starting) :
      (s.pc.Returned → t.pc.Returned) ∧ (t.pc.Starting → s.pc.Starting) := by
    rw [was, at_]
    exact ⟨returned, starting⟩
  cases step_effect stepped with
  | peerClose | notify data | elapse ms => exact ⟨id, id⟩
  | serving was up | gone was down bleOpen | vacant was down bleOpen => exact absurd rfl within
  | tornDown was | cleared was | accepted was stream => exact moved was rfl False.elim fun _ => trivial
  | abandoned was | noClient was | opened was | openFailed was | drained was empty =>
    exact moved was rfl (fun _ => trivial) False.elim
  | poll was event polls =>
    obtain ⟨notReturned, notStarting⟩ := was.inside
    refine ⟨fun returned => absurd returned notReturned, fun starting => ?_⟩
    rcases polls.pc with polling | drain | ⟨returned, _⟩
    · exact absurd starting polling.inside.2
    · rw [drain] at starting
      exact starting.elim
    · rw [returned] at starting
      exact starting.elim
  | @drains frame rest was mutex queue =>
    have at_ : _ = if s.client.connected then Pc.writeHeader frame else .drain := rfl
    refine moved was at_ False.elim ?_
    split <;> exact False.elim
  | header gaveUp was may | payload gaveUp was may => exact moved was rfl False.elim False.elim

/-- A step keeps the watchdog fed exactly under this condition on its inputs. -/
def WatchedEvent.Brief (s : WatchedSystem) : WatchedEvent → Prop
  | .connectMower answers times => s.system.ble.BriefConnect answers times
  | .call (.write _ ok) => s.system.ble.write ok = false → s.failed + 1 < 10000
  | .call _ => True

/-- What the time since the last reset was spent on. -/
structure Accounts (s : WatchedSystem) : Prop where
  spent : ¬ s.system.task.pc.Returned → s.clock = s.lastReset + BLE_WRITE_RETRY_DELAY_MS * s.failed
  starting : s.system.task.pc.Starting → s.failed = 0

/-- An event of the tape, as loopTask sees it. -/
def BleEvent.taskEvent (ble : BleCentral) : BleEvent → Option Event
  | .other e => some e
  | .connectMower answers => some (.connectMower (ble.connectMower answers).1)
  | .disconnectMower => some .disconnectMower
  | .isConnected => some (.bleConnected ble.isConnected)
  | .write data ok => some (.bleWrite data (ble.write ok))
  | .linkDown => none

theorem BleSystem.step_task {s t : BleSystem} {e : BleEvent} (stepped : s.step e = some t) :
    (e = .linkDown ∧ t.task = s.task) ∨ ∃ te, e.taskEvent s.ble = some te ∧ s.task.step te = some t.task := by
  cases e with
  | linkDown => cases stepped; exact .inl ⟨rfl, rfl⟩
  | other e =>
    simp only [step] at stepped
    split at stepped <;> try contradiction
    obtain ⟨task, taken, rfl⟩ := Option.map_eq_some_iff.mp stepped
    exact .inr ⟨_, rfl, taken⟩
  | connectMower answers | disconnectMower | isConnected | write data ok =>
    simp only [step] at stepped
    obtain ⟨task, taken, rfl⟩ := Option.map_eq_some_iff.mp stepped
    exact .inr ⟨_, rfl, taken⟩

namespace WatchedSystem

variable {s t : WatchedSystem}

/-- `loop()` resets the watchdog and forgets what the last pass spent. -/
theorem step_reset (stepped : s.step (.call (.other .connected)) = some t) :
    t.clock = s.clock ∧ t.lastReset = s.clock ∧ t.failed = 0 := by
  obtain ⟨system, taken, rfl⟩ := Option.map_eq_some_iff.mp stepped
  rcases BleSystem.step_task taken with ⟨⟨⟩, _⟩ | ⟨_, ⟨⟩, taken⟩
  exact ⟨LoopTask.step_clock taken, rfl, rfl⟩

/-- A write attempt costs its retry delay when it fails. -/
theorem step_write {data : Bytes} {ok : Bool} (stepped : s.step (.call (.write data ok)) = some t) :
    (∃ n, s.system.task.pc = .attempt n) ∧ ¬ t.system.task.pc.Starting ∧ ¬ t.system.task.pc.Returned ∧
      t.lastReset = s.lastReset ∧
      (s.system.ble.write ok = true ∧ t.clock = s.clock ∧ t.failed = s.failed ∨
        s.system.ble.write ok = false ∧ t.clock = s.clock + BLE_WRITE_RETRY_DELAY_MS ∧ t.failed = s.failed + 1) := by
  obtain ⟨system, taken, rfl⟩ := Option.map_eq_some_iff.mp stepped
  rcases BleSystem.step_task taken with ⟨⟨⟩, _⟩ | ⟨_, ⟨⟩, taken⟩
  have clock := LoopTask.step_clock taken
  obtain ⟨n, was, _, same⟩ := LoopTask.step_bleWrite.mp taken
  have pc : ¬ system.task.pc.Starting ∧ ¬ system.task.pc.Returned := by
    rw [← same, LoopTask.attempted]
    split
    · exact ⟨id, id⟩
    · split <;> exact ⟨id, id⟩
  refine ⟨⟨n, was⟩, pc.1, pc.2, rfl, ?_⟩
  cases written : s.system.ble.write ok with
  | true =>
    rw [written] at clock
    exact .inl ⟨rfl, clock, by simp only [failedAfter, written, if_true]⟩
  | false =>
    rw [written] at clock
    exact .inr ⟨rfl, clock, by simp only [failedAfter, written, Bool.false_eq_true, if_false]⟩

/-- Every other event takes no time. -/
theorem step_call {e : BleEvent} (stepped : s.step (.call e) = some t) (within : e ≠ .other .connected)
    (write : ∀ data ok, e ≠ .write data ok) :
    t.clock = s.clock ∧ t.lastReset = s.lastReset ∧ t.failed = s.failed ∧
      (s.system.task.pc.Returned → t.system.task.pc.Returned) ∧
      (t.system.task.pc.Starting → s.system.task.pc.Starting) := by
  have taken : ∃ system, s.system.step e = some system ∧ t = ⟨system, s.lastReset, s.failed⟩ ∧
      (∀ answers, e ≠ .connectMower answers) ∧ ∀ ms, e ≠ .other (.elapse ms) := by
    simp only [step] at stepped
    split at stepped <;> try contradiction
    next connect elapse same =>
    cases same
    obtain ⟨system, taken, rfl⟩ := Option.map_eq_some_iff.mp stepped
    refine ⟨system, taken, ?_, connect, elapse⟩
    rw [if_neg within, failedAfter]
    · exact within
    · exact write
  obtain ⟨system, taken₀, rfl, connect, elapse⟩ := taken
  rcases BleSystem.step_task taken₀ with ⟨_, same⟩ | ⟨te, event, taken⟩
  · exact ⟨congrArg LoopTask.clock same, rfl, rfl, by rw [same]; exact ⟨id, id⟩⟩
  · have clock := LoopTask.step_clock taken
    have quiet : te.blocks = 0 ∧ te ≠ .connected := by
      cases e with
      | linkDown => cases event
      | other e =>
        cases event
        refine ⟨?_, fun same => within (by rw [same])⟩
        cases te with
        | elapse ms => exact absurd rfl (elapse ms)
        | bleWrite data ok => cases taken₀
        | _ => rfl
      | connectMower answers => exact absurd rfl (connect answers)
      | write data ok => exact absurd rfl (write data ok)
      | disconnectMower | isConnected => cases event; exact ⟨rfl, by rintro ⟨⟩⟩
    rw [quiet.1] at clock
    exact ⟨clock, rfl, rfl, LoopTask.step_pass taken quiet.2⟩

theorem step_connectMower {answers : ConnectAnswers} {times : ConnectTimes}
    (stepped : s.step (.connectMower answers times) = some t) :
    s.system.task.pc = .connectMower ∧ t.system.task.pc.Returned ∧
      t.clock = s.clock + s.system.ble.connectMowerTime answers times ∧ t.lastReset = s.lastReset := by
  obtain ⟨system, taken, rfl⟩ := Option.map_eq_some_iff.mp stepped
  rcases BleSystem.step_task taken with ⟨⟨⟩, _⟩ | ⟨_, ⟨⟩, taken⟩
  obtain ⟨was, same⟩ := LoopTask.step_connectMower.mp taken
  refine ⟨was, ?_, rfl, rfl⟩
  show system.task.pc.Returned
  rw [← same]
  show Pc.Returned (if (s.system.ble.connectMower answers).1 = true then .connected else .abandonMower)
  split <;> trivial

end WatchedSystem

theorem Pc.Returned.not_starting {pc : Pc} (returned : pc.Returned) : ¬ pc.Starting := by
  cases pc <;> first | exact id | exact returned.elim

variable {s t : WatchedSystem} {e : WatchedEvent}

theorem Accounts.step (accounts : Accounts s) (stepped : s.step e = some t) : Accounts t := by
  cases e with
  | connectMower answers times =>
    obtain ⟨_, returned, _, _⟩ := WatchedSystem.step_connectMower stepped
    exact ⟨fun inside => absurd returned inside, fun starting => absurd starting returned.not_starting⟩
  | call e =>
    by_cases reset : e = .other .connected
    · subst reset
      obtain ⟨clock, lastReset, failed⟩ := WatchedSystem.step_reset stepped
      exact ⟨fun _ => by rw [clock, lastReset, failed, Nat.mul_zero, Nat.add_zero], fun _ => failed⟩
    by_cases write : ∃ data ok, e = .write data ok
    · obtain ⟨data, ok, rfl⟩ := write
      obtain ⟨⟨n, was⟩, notStarting, _, lastReset, written⟩ := WatchedSystem.step_write stepped
      have spent := accounts.spent (by rw [was]; exact id)
      refine ⟨fun _ => ?_, fun starting => absurd starting notStarting⟩
      rcases written with ⟨_, clock, failed⟩ | ⟨_, clock, failed⟩
      · rw [clock, lastReset, failed, spent]
      · rw [clock, lastReset, failed, spent, Nat.mul_succ, Nat.add_assoc]
    · obtain ⟨clock, lastReset, failed, returned, starting⟩ :=
        WatchedSystem.step_call stepped reset fun data ok same => write ⟨data, ok, same⟩
      refine ⟨fun inside => ?_, fun at_ => failed.trans (accounts.starting (starting at_))⟩
      rw [clock, lastReset, failed]
      exact accounts.spent (mt returned inside)

/-- The condition on a step is exact. -/
theorem Accounts.fed_iff (accounts : Accounts s) (fed : s.Fed) (stepped : s.step e = some t) :
    t.Fed ↔ e.Brief s := by
  rw [WatchedSystem.Fed] at fed ⊢
  cases e with
  | connectMower answers times =>
    obtain ⟨was, _, clock, lastReset⟩ := WatchedSystem.step_connectMower stepped
    have spent := accounts.spent (by rw [was]; exact id)
    rw [accounts.starting (by rw [was]; trivial)] at spent
    rw [clock, lastReset, WatchedEvent.Brief, ← BleCentral.connectMowerTime_lt_iff, spent, Nat.mul_zero, Nat.add_zero,
      Nat.add_sub_cancel_left]
  | call e =>
    by_cases reset : e = .other .connected
    · subst reset
      obtain ⟨clock, lastReset, _⟩ := WatchedSystem.step_reset stepped
      rw [clock, lastReset, Nat.sub_self]
      exact ⟨fun _ => trivial, fun _ => by decide⟩
    by_cases write : ∃ data ok, e = .write data ok
    · obtain ⟨data, ok, rfl⟩ := write
      obtain ⟨⟨n, was⟩, _, _, lastReset, written⟩ := WatchedSystem.step_write stepped
      have spent := accounts.spent (by rw [was]; exact id)
      rw [WatchedEvent.Brief, lastReset]
      simp only [TASK_WDT_TIMEOUT_MS, BLE_WRITE_RETRY_DELAY_MS] at *
      rcases written with ⟨accepted, clock, _⟩ | ⟨refused, clock, _⟩
      · rw [accepted, clock]
        exact ⟨by rintro _ ⟨⟩, fun _ => fed⟩
      · rw [clock, refused]
        constructor
        · intro held _
          omega
        · intro brief
          have := brief rfl
          omega
    · obtain ⟨clock, lastReset, _, _, _⟩ :=
        WatchedSystem.step_call stepped reset fun data ok same => write ⟨data, ok, same⟩
      rw [clock, lastReset]
      refine ⟨fun _ => ?_, fun _ => fed⟩
      rw [WatchedEvent.Brief]
      · trivial
      · exact fun data ok same => write ⟨data, ok, same⟩

theorem accounts_init (mutex : Bool) : Accounts (.init mutex) := ⟨fun _ => rfl, fun _ => rfl⟩

/-- The watchdog is fed in every state of a run exactly when all of the run's steps are brief. -/
theorem watchdog_fed_iff (mutex : Bool) (es : List WatchedEvent) (u : WatchedSystem)
    (ran : run WatchedSystem.step (.init mutex) es = some u) :
    Throughout WatchedSystem.step (fun _ s => s.Fed) (.init mutex) es ↔
      Meets WatchedSystem.step (fun _ s e => e.Brief s) (.init mutex) es :=
  throughout_iff_meets (I := fun _ s => Accounts s) (accounts_init mutex)
    (fun _ _ _ _ accounts stepped => accounts.step stepped) (show (0 : ℕ) < 30000 by decide)
    (fun _ _ _ _ accounts fed stepped => accounts.fed_iff fed stepped) ran

/-- The longest times that are allowed. -/
def ConnectTimes.longest : ConnectTimes where
  scan := SCAN_TIMEOUT_MS
  connect := BLE_CONNECT_TIMEOUT_MS
  rescan := SCAN_TIMEOUT_MS
  reconnect := BLE_CONNECT_TIMEOUT_MS
  scan_le := le_refl _
  connect_le := le_refl _
  rescan_le := le_refl _
  reconnect_le := le_refl _

def mower : Advertiser := ⟨0xC0FFEE, 0, []⟩

/-- The mower is found and connects at once. -/
def ConnectAnswers.atOnce : ConnectAnswers := ⟨some mower, true, none, false, true, true, true, true, true, false⟩

/-- The first connect fails; the mower is found again and connects. -/
def ConnectAnswers.secondTry : ConnectAnswers :=
  ⟨some mower, false, some mower, true, true, true, true, true, true, false⟩

/-- A client sends one frame, which the BLE stack takes on the second attempt. -/
def oneRetry : List WatchedEvent :=
  [.call (.other .connected), .call (.other (.accept (some [0, 1, 7]))), .connectMower .atOnce .longest,
    .call (.other .connected), .call (.other .idleCheck), .call (.other (.available 3)),
    .call (.other (.read (.got 2))), .call (.other (.available 1)), .call (.other (.read (.got 1))),
    .call .isConnected, .call (.write [7] false), .call (.write [7] true), .call (.other (.available 0)),
    .call (.other .drain), .call (.other .connected)]

theorem watchdog_fed_oneRetry : Throughout WatchedSystem.step (fun _ s => s.Fed) (.init true) oneRetry := by
  obtain ⟨u, ran⟩ : ∃ u, run WatchedSystem.step (.init true) oneRetry = some u := ⟨_, rfl⟩
  refine (watchdog_fed_iff true oneRetry u ran).mpr (.of_getElem fun n e at_ t reached => ?_)
  have short : n < 15 := (List.getElem?_eq_some_iff.mp at_).1
  interval_cases n <;> cases at_ <;> first | trivial | skip
  · rintro ⟨_, ⟨⟩, _⟩
  · cases reached
    exact fun _ => by decide
  · cases reached
    exact fun _ => by decide

/-- Five attempts for one frame fail, the sixth succeeds. -/
def stubbornFrame : List WatchedEvent :=
  [.call (.other (.available 3)), .call (.other (.read (.got 2))), .call (.other (.available 1)),
    .call (.other (.read (.got 1))), .call .isConnected, .call (.write [7] false), .call (.write [7] false),
    .call (.write [7] false), .call (.write [7] false), .call (.write [7] false), .call (.write [7] true)]

/-- `poll_socket_` waits for a header while frames are on their way. -/
structure Serving (s : WatchedSystem) (frames : ℕ) : Prop where
  pc : s.system.task.pc = .pollLen
  isOpen : s.system.task.client.isOpen = true
  rxState : s.system.task.proxy.rxState = .waitLen
  unread : s.system.task.client.unread = (List.replicate frames [0, 1, 7]).flatten
  link : s.system.ble.isConnected = true
  writeChar : s.system.ble.writeChar.isSome = true

theorem Serving.frame {frames : ℕ} (serving : Serving s (frames + 1)) :
    ∃ t, run WatchedSystem.step s stubbornFrame = some t ∧ Serving t frames ∧ t.lastReset = s.lastReset ∧
      t.clock = s.clock + 15 := by
  obtain ⟨pc, isOpen, rxState, unread, link, writeChar⟩ := serving
  obtain ⟨⟨⟨proxy, ⟨isOpen', peerGone, unread'⟩, pc', clock⟩, ble⟩, lastReset, failed⟩ := s
  obtain ⟨client, writeChar', notifyChar, mower, addrKnown, created⟩ := ble
  dsimp only at pc isOpen unread rxState writeChar
  rw [List.replicate_succ, List.flatten_cons] at unread
  subst pc isOpen unread
  obtain ⟨char, rfl⟩ := Option.isSome_iff_exists.mp writeChar
  cases client with
  | none => cases link
  | some client =>
  obtain ⟨id, up, subscribed⟩ := client
  cases (show up = true from link)
  exact ⟨_, rfl, ⟨rfl, rfl, rfl, rfl, rfl, rfl⟩, rfl, rfl⟩

theorem Serving.frames {frames : ℕ} (serving : Serving s frames) :
    ∃ t, run WatchedSystem.step s (List.replicate frames stubbornFrame).flatten = some t ∧
      t.lastReset = s.lastReset ∧ t.clock = s.clock + 15 * frames := by
  induction frames generalizing s with
  | zero => exact ⟨s, rfl, rfl, rfl⟩
  | succ frames ih =>
    obtain ⟨t, first, serving, lastReset, clock⟩ := serving.frame
    obtain ⟨u, later, lastReset', clock'⟩ := ih serving
    refine ⟨u, ?_, lastReset'.trans lastReset, by omega⟩
    rw [List.replicate_succ, List.flatten_cons, run_append, first]
    exact later

/-- A client with this stream is accepted, and the mower connects in no time. -/
def opening (stream : Bytes) : List WatchedEvent :=
  [.call (.other .connected), .call (.other (.accept (some stream))),
    .connectMower .atOnce ⟨0, 0, 0, 0, by decide, by decide, by decide, by decide⟩, .call (.other .connected)]

theorem serving_of_opening (frames : ℕ) :
    ∃ s, run WatchedSystem.step (.init true)
      (opening (List.replicate frames [0, 1, 7]).flatten ++ [WatchedEvent.call (.other .idleCheck)]) = some s ∧
        Serving s frames ∧ s.clock = s.lastReset := by
  obtain ⟨s, opened, pc, clock, lastRx, same⟩ : ∃ s,
      run WatchedSystem.step (.init true) (opening (List.replicate frames [0, 1, 7]).flatten) = some s ∧
        s.system.task.pc = .idleCheck ∧ s.system.task.clock = 0 ∧ s.system.task.proxy.lastRxMs = 0 ∧
        Serving { s with system.task.pc := .pollLen } frames ∧ s.clock = s.lastReset :=
    ⟨_, rfl, rfl, rfl, rfl, ⟨rfl, rfl, rfl, rfl, rfl, rfl⟩, rfl⟩
  have polled : s.system.task.pollSocket = { s.system.task with pc := .pollLen } := by
    rw [LoopTask.pollSocket, show s.system.task.proxy.rxState = .waitLen from same.1.rxState]
  have recent : ¬ CLIENT_IDLE_TIMEOUT_MS < s.system.task.millis - s.system.task.proxy.lastRxMs := by
    rw [LoopTask.millis, clock, lastRx]
    decide
  have idle := LoopTask.step_idleCheck.mpr ⟨pc, if_neg recent⟩
  refine ⟨{ s with system.task.pc := .pollLen }, ?_, same⟩
  rw [run_append, opened]
  show (Option.map _ (Option.map _ (s.system.task.step .idleCheck))).bind _ = _
  rw [idle, polled]
  rfl

/-- One pass of `loop()` can take any time while the stream does not run dry. -/
theorem pass_unbounded (frames : ℕ) :
    ∃ es s, run WatchedSystem.step (.init true) es = some s ∧ s.clock - s.lastReset = 15 * frames := by
  obtain ⟨s, opened, serving, reset⟩ := serving_of_opening frames
  obtain ⟨t, ran, lastReset, clock⟩ := serving.frames
  refine ⟨opening (List.replicate frames [0, 1, 7]).flatten ++ [WatchedEvent.call (.other .idleCheck)] ++
    (List.replicate frames stubbornFrame).flatten, t, ?_, by omega⟩
  rw [run_append, opened]
  exact ran

/-- A client arrives after boot, and the first connect after the scan fails. -/
def slowConnect : List WatchedEvent :=
  [.call (.other .connected), .call (.other (.accept (some []))), .connectMower .secondTry .longest]

/-- Two scans and two connects pass before `loop()` comes round again. -/
theorem slowConnect_not_fed :
    ∃ s, run WatchedSystem.step (.init true) slowConnect = some s ∧ s.clock - s.lastReset = 50000 ∧
      ¬ Throughout WatchedSystem.step (fun _ s => s.Fed) (.init true) slowConnect := by
  refine ⟨_, rfl, rfl, fun always => ?_⟩
  have fed : 50000 < TASK_WDT_TIMEOUT_MS := always slowConnect (List.prefix_refl _) _ rfl
  exact absurd fed (by decide)

end MammotionRc.Firmware
