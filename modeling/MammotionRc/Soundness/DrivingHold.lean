import Mathlib.Tactic.IntervalCases
import MammotionRc.Server.Telemetry

/-! # When telemetry stands down for a held stick

A tick of `_watchdog` samples `_is_driving` once and may then await up to four probes, and every socket of a
mower writes the one deadline that all of them share. A tick without an await in front of its next probe and a
read-back always sample right before they send. So the hold is respected as long as no stick is pushed while a
tick has probes left, and no socket lets go while the stick of another one is held.
-/

namespace MammotionRc.Server

open Machine

/-- The tick in progress may send another probe after the one in flight. -/
def Prober.Pending (w : Prober) : Prop :=
  match w.pc with
  | .sending .carLight _ | .sending .errorCode _ => True
  | .sending .cutterMode now => due w.lastErrorProbe ERROR_PROBE_S now = true
  | .sending .errorTimestamp _ | .created | .sleeping _ | .done => False

namespace Prober

variable (w : Prober) (now clock : ℕ) (idle watched ok handle : Bool) (probe : Probe)

theorem errorStage_name : (w.errorStage now clock idle handle).name = w.name := by
  rw [errorStage]
  split_ifs <;> rfl

theorem tick_name : (w.tick now idle watched handle).name = w.name := by
  rw [tick]
  split_ifs
  · rfl
  · exact errorStage_name _ _ _ _ _
  · exact errorStage_name _ _ _ _ _

theorem sent_name : (w.sent probe now clock ok handle).name = w.name := by
  cases probe <;> cases ok
  all_goals first | rfl | exact errorStage_name _ _ _ _ _

variable {w now clock idle watched ok handle probe}

theorem errorStage_sends {p : Probe} {n : ℕ} (sends : (w.errorStage now clock idle handle).pc = .sending p n) :
    idle = true ∧ due w.lastErrorProbe ERROR_PROBE_S now = true := by
  by_cases probes : (idle && due w.lastErrorProbe ERROR_PROBE_S now) = true
  · exact Bool.and_eq_true_iff.mp probes
  · rw [errorStage, if_neg probes] at sends
    cases sends

theorem tick_sends {p : Probe} {n : ℕ} (sends : (w.tick now idle watched handle).pc = .sending p n) :
    idle = true := by
  rw [tick] at sends
  split_ifs at sends with probes
  · exact (Bool.and_eq_true_iff.mp (Bool.and_eq_true_iff.mp probes).1).1
  · exact (errorStage_sends sends).1
  · exact (errorStage_sends sends).1

/-- A probe that follows another one in its tick was pending. -/
theorem sent_sends {p : Probe} {n : ℕ} (at_ : w.pc = .sending probe now)
    (sends : (w.sent probe now clock ok handle).pc = .sending p n) : w.Pending := by
  simp only [Pending, at_]
  cases probe with
  | carLight => trivial
  | cutterMode => cases ok <;> exact (errorStage_sends sends).2
  | errorCode => trivial
  | errorTimestamp => cases ok <;> cases sends

theorem Pending.sends (pending : w.Pending) : ∃ p n, w.pc = .sending p n := by
  cases at_ : w.pc with
  | sending p n => exact ⟨p, n, rfl⟩
  | _ => simp only [Pending, at_] at pending

end Prober

namespace JoystickWs

theorem dispatch_handler (s : JoystickWs) (cmd : Option StickCommand) (speeds : Speeds) :
    (s.dispatch cmd speeds).handler = s.handler := by
  simp only [dispatch]
  split
  · rfl
  · split <;> rfl
  · split <;> rfl

/-- A receive loop that has ended does not come back, and `await sender` is behind it. -/
theorem step_receiving {s t : JoystickWs} {e : JoystickEvent} (stepped : s.step e = some t)
    (receiving : t.handler = .receiving) : s.handler = .receiving ∧ e ≠ .joined := by
  cases e with
  | take cmd speeds =>
    obtain ⟨_, _, _, rfl⟩ := step_take.mp stepped
    rw [dispatch_handler] at receiving
    exact ⟨receiving, nofun⟩
  | sent command =>
    obtain ⟨cmd, _, rfl⟩ := step_sent.mp stepped
    cases cmd <;> exact ⟨receiving, nofun⟩
  | sendFailed command =>
    obtain ⟨_, _, rfl⟩ := step_sendFailed.mp stepped
    exact ⟨receiving, nofun⟩
  | frame frame =>
    obtain ⟨_, rfl⟩ := step_frame.mp stepped
    exact ⟨receiving, nofun⟩
  | start =>
    obtain ⟨_, rfl⟩ := step_start.mp stepped
    exact ⟨receiving, nofun⟩
  | backoffOver =>
    obtain ⟨_, _, rfl⟩ := step_backoffOver.mp stepped
    exact ⟨receiving, nofun⟩
  | cancelled =>
    obtain ⟨_, rfl⟩ := step_cancelled.mp stepped
    exact ⟨receiving, nofun⟩
  | leave =>
    obtain ⟨_, rfl⟩ := step_leave.mp stepped
    cases receiving
  | joined =>
    obtain ⟨_, _, rfl⟩ := step_joined.mp stepped
    cases receiving
  | finalStop ok =>
    obtain ⟨_, rfl⟩ := step_finalStop.mp stepped
    cases receiving

end JoystickWs

namespace Telemetry

variable {s t : Telemetry} {j k : ℕ} {name : String}

/-- The socket is open, and it received a driving frame last, less than `_DRIVE_HOLD_S` ago. -/
def Held (s : Telemetry) (socket : JoystickSocket) : Prop :=
  socket.ws.handler = .receiving ∧
    ∃ frame time, socket.latest = some (frame, time) ∧ frame.Drives ∧ s.now - time < DRIVE_HOLD_S

/-- Some stick of the mower is held. -/
def StickHeld (s : Telemetry) (name : String) : Prop :=
  ∃ j socket, s.sockets j = some socket ∧ socket.name = name ∧ s.Held socket

/-- The step `e` that ends in `t` hands a probe or a read-back request to the handle of `name`. -/
def Hands (t : Telemetry) (e : TelemetryEvent) (name : String) : Prop :=
  match e with
  | .watchdog k _ => ∃ w probe now, t.watchdogs k = some w ∧ w.pc = .sending probe now ∧ w.name = name
  | .readback r _ => ∃ b later, t.readbacks r = some b ∧ b.pc = .requesting later ∧ b.name = name
  | _ => False

/-- Whatever the tasks hand over along the tape, they do it while nobody drives the mower. -/
def StandsDown (start : Telemetry) (es : List TelemetryEvent) : Prop :=
  ∀ pre e, pre ++ [e] <+: es → ∀ s t name, run step start pre = some s → s.step e = some t → t.Hands e name →
    s.isDriving name = false ∧ ¬ s.StickHeld name

/-- No stick is pushed while a tick for the mower has probes left, no socket lets go while the stick of
another socket of the mower is held, and no teardown clears the hold of a held stick. -/
structure Calm (s : Telemetry) (e : TelemetryEvent) : Prop where
  drives : ∀ j socket frame, e = .socket j (.frame frame) → s.sockets j = some socket → frame.Drives →
    ∀ k w, s.watchdogs k = some w → w.name = socket.name → ¬ w.Pending
  releases : ∀ j socket, (∃ frame, e = .socket j (.frame frame) ∧ ¬ frame.Drives) ∨ e = .socket j .joined →
    s.sockets j = some socket → ∀ i other, i ≠ j → s.sockets i = some other → other.name = socket.name →
      ¬ s.Held other
  clears : e = .teardownEnds → ∀ j socket, s.sockets j = some socket → ¬ s.Held socket

structure Inv (s : Telemetry) : Prop where
  past : ∀ j socket frame time, s.sockets j = some socket → socket.latest = some (frame, time) → time ≤ s.now
  hold : ∀ j socket frame time, s.sockets j = some socket → s.Held socket → socket.latest = some (frame, time) →
    ∃ deadline, s.drivingUntil socket.name = some deadline ∧ time + DRIVE_HOLD_S ≤ deadline
  pending : ∀ k w, s.watchdogs k = some w → w.Pending → s.isDriving w.name = false

/-- The deadline covers every held stick. -/
theorem Inv.driving (inv : Inv s) (held : s.StickHeld name) : s.isDriving name = true := by
  obtain ⟨j, socket, at_, rfl, held⟩ := held
  obtain ⟨_, frame, time, latest, _, recent⟩ := id held
  obtain ⟨deadline, until_, covers⟩ := inv.hold j socket frame time at_ held latest
  simp only [isDriving, until_, Option.getD_some, decide_eq_true_eq]
  omega

theorem not_driving_of_clear (clear : s.drivingUntil name = none) : s.isDriving name = false := by
  simp only [isDriving, clear, Option.getD_none, decide_eq_false_iff_not, not_lt, Nat.zero_le]

/-- A watchdog that hands over a probe samples the hold in the same step, or its tick was pending. -/
theorem stepWatchdog_spec {w u : Prober} {action : ProberAction} (stepped : s.stepWatchdog w action = some u)
    (calm : w.Pending → s.isDriving w.name = false) :
    u.name = w.name ∧ ∀ probe now, u.pc = .sending probe now → s.isDriving w.name = false := by
  simp only [stepWatchdog] at stepped
  split at stepped
  · cases stepped
    exact ⟨rfl, fun _ _ sends => by cases sends⟩
  · split_ifs at stepped
    cases stepped
    refine ⟨Prober.tick_name .., fun _ _ sends => ?_⟩
    have idle := Prober.tick_sends sends
    exact (Bool.not_eq_true' _).mp (Bool.and_eq_true_iff.mp idle).2
  · next at_ =>
    cases stepped
    exact ⟨Prober.sent_name .., fun _ _ sends => calm (Prober.sent_sends at_ sends)⟩
  · cases stepped
    exact ⟨rfl, fun _ _ sends => by cases sends⟩
  · cases stepped
    exact ⟨rfl, fun _ _ sends => by cases sends⟩
  · cases stepped
    exact ⟨rfl, fun _ _ sends => by cases sends⟩
  · cases stepped

theorem next_requests {b : Readback} {clock : ℕ} {delays later : List ℕ} :
    (b.next clock delays).pc ≠ .requesting later := by
  cases delays <;> exact nofun

/-- A read-back samples the hold in the step that hands its request over. -/
theorem stepReadback_spec {b u : Readback} {action : ReadbackAction} {later : List ℕ}
    (stepped : s.stepReadback b action = some u) (requests : u.pc = .requesting later) :
    s.isDriving u.name = false := by
  simp only [stepReadback] at stepped
  split at stepped
  · cases stepped
    exact absurd requests next_requests
  · split_ifs at stepped with _ driving
    · cases stepped
      exact absurd requests next_requests
    · cases stepped
      exact Bool.eq_false_of_not_eq_true driving
  · cases stepped
    exact absurd requests next_requests
  · cases stepped

theorem Inv.quiet (inv : Inv s) {e : TelemetryEvent} (stepped : s.step e = some t) (hands : t.Hands e name) :
    s.isDriving name = false ∧ ¬ s.StickHeld name := by
  suffices quiet : s.isDriving name = false by
    refine ⟨quiet, fun held => ?_⟩
    rw [inv.driving held] at quiet
    cases quiet
  cases e with
  | watchdog k action =>
    obtain ⟨w, probe, now, at_, sends, rfl⟩ := hands
    obtain ⟨v, was, stepped⟩ := Option.bind_eq_some_iff.mp stepped
    obtain ⟨u, moved, rfl⟩ := Option.map_eq_some_iff.mp stepped
    simp only [setWatchdog, Function.update_self, Option.some.injEq] at at_
    subst at_
    obtain ⟨same, quiet⟩ := stepWatchdog_spec moved (inv.pending k v was)
    rw [same]
    exact quiet probe now sends
  | readback r action =>
    obtain ⟨b, later, at_, requests, rfl⟩ := hands
    obtain ⟨c, _, stepped⟩ := Option.bind_eq_some_iff.mp stepped
    obtain ⟨u, moved, rfl⟩ := Option.map_eq_some_iff.mp stepped
    simp only [setReadback, Function.update_self, Option.some.injEq] at at_
    subst at_
    exact stepReadback_spec moved requests
  | _ => cases hands

/-! ## What a step keeps -/

theorem replaceReadback_eq (s : Telemetry) (r : ℕ) (name : String) : ∃ tasks readbacks,
    s.replaceReadback r name = { s with readbackTasks := tasks, readbacks := readbacks } := by
  simp only [replaceReadback, cancelReadback]
  split
  · split <;> exact ⟨_, _, rfl⟩
  · exact ⟨_, _, rfl⟩

/-- The invariant reads neither the polls nor the read-backs. -/
theorem Inv.of_rest (inv : Inv s) (polls : String → Option ℕ) (tasks : String → Option ℕ)
    (readbacks : ℕ → Option Readback) :
    Inv { s with lastStatusPoll := polls, readbackTasks := tasks, readbacks := readbacks } :=
  ⟨inv.past, inv.hold, inv.pending⟩

theorem Inv.elapse (inv : Inv s) (nanoseconds : ℕ) : Inv { s with now := s.now + nanoseconds } := by
  refine ⟨fun j socket frame time at_ latest => ?_, fun j socket frame time at_ held latest => ?_,
    fun k w at_ pending => ?_⟩
  · have before := inv.past j socket frame time at_ latest
    change time ≤ s.now + nanoseconds
    omega
  · obtain ⟨receiving, frame', time', latest', drives, recent⟩ := held
    refine inv.hold j socket frame time at_ ⟨receiving, frame', time', latest', drives, ?_⟩ latest
    change s.now + nanoseconds - time' < DRIVE_HOLD_S at recent
    omega
  · have before := inv.pending k w at_ pending
    simp only [isDriving, decide_eq_false_iff_not, not_lt] at before ⊢
    omega

/-- The driving hold of one mower changes. -/
theorem isDriving_setDrivingUntil_of_ne {other : String} {deadline : Option ℕ} (ne : other ≠ name) :
    (s.setDrivingUntil name deadline).isDriving other = s.isDriving other := by
  simp only [isDriving, setDrivingUntil, Function.update_of_ne ne]

/-- A socket takes a step that does not touch the hold. -/
theorem Inv.setSocket (inv : Inv s) {socket : JoystickSocket} {ws : JoystickWs}
    (at_ : s.sockets j = some socket) (open_ : ws.handler = .receiving → socket.ws.handler = .receiving) :
    Inv (s.setSocket j { socket with ws := ws }) := by
  have sockets : ∀ i, (s.setSocket j { socket with ws := ws }).sockets i =
      if i = j then some { socket with ws := ws } else s.sockets i := fun i => Function.update_apply ..
  refine ⟨fun i other frame time here latest => ?_, fun i other frame time here held latest => ?_,
    inv.pending⟩
  · rw [sockets] at here
    split_ifs at here
    · cases here
      exact inv.past j socket frame time at_ latest
    · exact inv.past i other frame time here latest
  · rw [sockets] at here
    split_ifs at here
    · cases here
      exact inv.hold j socket frame time at_ ⟨open_ held.1, held.2⟩ latest
    · exact inv.hold i other frame time here held latest

/-- A frame drives the mower or lets go of it. -/
theorem Inv.frame (inv : Inv s) {socket : JoystickSocket} {frame : Frame} {ws : JoystickWs}
    (calm : Calm s (.socket j (.frame frame))) (at_ : s.sockets j = some socket) :
    Inv (s.stepSocket j socket (.frame frame) ws) := by
  let deadline := if frame.Drives then some (s.now + DRIVE_HOLD_S) else none
  let socket' : JoystickSocket := { socket with ws := ws, latest := some (frame, s.now) }
  have sockets : ∀ i, (s.stepSocket j socket (.frame frame) ws).sockets i =
      if i = j then some socket' else s.sockets i := fun i => Function.update_apply ..
  have deadlines : ∀ name, (s.stepSocket j socket (.frame frame) ws).drivingUntil name =
      if name = socket.name then deadline else s.drivingUntil name := fun name => Function.update_apply ..
  refine ⟨fun i other f time here latest => ?_, fun i other f time here held latest => ?_,
    fun k w here pending => ?_⟩
  · rw [sockets] at here
    split_ifs at here
    · cases here
      cases latest
      exact le_rfl
    · exact inv.past i other f time here latest
  · rw [sockets] at here
    split_ifs at here with same
    · cases here
      cases latest
      obtain ⟨_, _, _, latest, drives, _⟩ := held
      cases latest
      exact ⟨s.now + DRIVE_HOLD_S, by rw [deadlines, if_pos rfl]; exact if_pos drives, le_rfl⟩
    · rw [deadlines]
      split_ifs with mower
      · by_cases drives : frame.Drives
        · refine ⟨s.now + DRIVE_HOLD_S, if_pos drives, ?_⟩
          have before := inv.past i other f time here latest
          omega
        · exact absurd held (calm.releases j socket (.inl ⟨frame, rfl, drives⟩) at_ i other same here mower)
      · exact inv.hold i other f time here held latest
  · by_cases mower : w.name = socket.name
    · by_cases drives : frame.Drives
      · exact absurd pending (calm.drives j socket frame rfl at_ drives k w here mower)
      · refine not_driving_of_clear ?_
        rw [deadlines, if_pos mower]
        exact if_neg drives
    · exact (isDriving_setDrivingUntil_of_ne mower).trans (inv.pending k w here pending)

/-- A handler whose receive loop is over drops the hold of its mower. -/
theorem Inv.joined (inv : Inv s) {socket : JoystickSocket} {ws : JoystickWs}
    (calm : Calm s (.socket j .joined)) (at_ : s.sockets j = some socket) (left : ws.handler ≠ .receiving) :
    Inv (s.stepSocket j socket .joined ws) := by
  have sockets : ∀ i, (s.stepSocket j socket .joined ws).sockets i =
      if i = j then some { socket with ws := ws } else s.sockets i := fun i => Function.update_apply ..
  have deadlines : ∀ name, (s.stepSocket j socket .joined ws).drivingUntil name =
      if name = socket.name then none else s.drivingUntil name := fun name => Function.update_apply ..
  refine ⟨fun i other f time here latest => ?_, fun i other f time here held latest => ?_,
    fun k w here pending => ?_⟩
  · rw [sockets] at here
    split_ifs at here
    · cases here
      exact inv.past j socket f time at_ latest
    · exact inv.past i other f time here latest
  · rw [sockets] at here
    split_ifs at here with same
    · cases here
      exact absurd held.1 left
    · rw [deadlines]
      split_ifs with mower
      · exact absurd held (calm.releases j socket (.inr rfl) at_ i other same here mower)
      · exact inv.hold i other f time here held latest
  · by_cases mower : w.name = socket.name
    · refine not_driving_of_clear ?_
      rw [deadlines, if_pos mower]
    · exact (isDriving_setDrivingUntil_of_ne mower).trans (inv.pending k w here pending)

theorem Inv.setWatchdog (inv : Inv s) {w : Prober} (quiet : w.Pending → s.isDriving w.name = false) :
    Inv (s.setWatchdog k w) := by
  refine ⟨inv.past, inv.hold, fun i v at_ pending => ?_⟩
  simp only [Telemetry.setWatchdog, Function.update_apply] at at_
  split_ifs at at_
  · cases at_
    exact quiet pending
  · exact inv.pending i v at_ pending

theorem Inv.open (inv : Inv s) {socket : JoystickSocket} (silent : socket.latest = none) :
    Inv (s.setSocket j socket) := by
  have nothing : ∀ frame time, socket.latest ≠ some (frame, time) := fun _ _ latest => by
    rw [silent] at latest
    cases latest
  refine ⟨fun i other frame time at_ latest => ?_, fun i other frame time at_ held latest => ?_,
    inv.pending⟩
  · simp only [Telemetry.setSocket, Function.update_apply] at at_
    split_ifs at at_
    · cases at_
      exact absurd latest (nothing frame time)
    · exact inv.past i other frame time at_ latest
  · simp only [Telemetry.setSocket, Function.update_apply] at at_
    split_ifs at at_
    · cases at_
      exact absurd latest (nothing frame time)
    · exact inv.hold i other frame time at_ held latest

theorem Inv.step (inv : Inv s) {e : TelemetryEvent} (calm : Calm s e) (stepped : s.step e = some t) : Inv t := by
  cases e with
  | elapse nanoseconds =>
    cases stepped
    exact inv.elapse nanoseconds
  | statusPoll name =>
    cases stepped
    exact inv.of_rest _ _ _
  | opened j name counted =>
    simp only [Telemetry.step] at stepped
    split at stepped <;> cases stepped
    exact inv.open rfl
  | socket j e =>
    obtain ⟨socket, at_, stepped⟩ := Option.bind_eq_some_iff.mp stepped
    obtain ⟨ws, moved, rfl⟩ := Option.map_eq_some_iff.mp stepped
    have open_ := JoystickWs.step_receiving moved
    cases e with
    | frame frame => exact inv.frame calm at_
    | joined => exact inv.joined calm at_ fun receiving => (open_ receiving).2 rfl
    | _ => exact inv.setSocket at_ fun receiving => (open_ receiving).1
  | watch k name =>
    simp only [Telemetry.step] at stepped
    split at stepped <;> cases stepped
    exact inv.setWatchdog fun pending => absurd pending id
  | watchdog k action =>
    obtain ⟨w, at_, stepped⟩ := Option.bind_eq_some_iff.mp stepped
    obtain ⟨u, moved, rfl⟩ := Option.map_eq_some_iff.mp stepped
    obtain ⟨same, quiet⟩ := stepWatchdog_spec moved (inv.pending k w at_)
    refine inv.setWatchdog fun pending => ?_
    obtain ⟨probe, now, sends⟩ := pending.sends
    rw [same]
    exact quiet probe now sends
  | heightSet r name =>
    simp only [Telemetry.step] at stepped
    split at stepped <;> cases stepped
    obtain ⟨tasks, readbacks, same⟩ := replaceReadback_eq s r name
    rw [same]
    exact inv.of_rest _ _ _
  | readback r action =>
    obtain ⟨b, _, stepped⟩ := Option.bind_eq_some_iff.mp stepped
    obtain ⟨u, _, rfl⟩ := Option.map_eq_some_iff.mp stepped
    exact inv.of_rest _ _ _
  | teardownBegins =>
    cases stepped
    exact inv.of_rest _ _ _
  | teardownEnds =>
    cases stepped
    refine ⟨inv.past, fun j socket _ _ at_ held _ => absurd held (calm.clears rfl j socket at_),
      fun k w _ _ => not_driving_of_clear rfl⟩

/-- **Telemetry never competes with a held stick**: in every calm run each probe and each read-back request is
handed over while the mower is not being driven. -/
theorem telemetry_standsDown (boot : ℕ) (es : List TelemetryEvent)
    (calm : Meets Telemetry.step (fun _ => Calm) (init boot) es) : StandsDown (init boot) es := by
  have start : Inv (init boot) := by
    refine ⟨fun _ _ _ _ at_ => ?_, fun _ _ _ _ at_ => ?_, fun _ _ at_ => ?_⟩ <;> cases at_
  have always : Throughout Telemetry.step (fun _ => Inv) (init boot) es :=
    throughout_of_meets start (fun _ _ _ _ inv => inv.step) calm
  intro pre e inside s t name ran stepped hands
  exact (always pre ((List.prefix_append _ _).trans inside) s ran).quiet stepped hands

/-- A stick pushed all the way. -/
def push : Frame := ⟨.fin 0, .fin 1, .fin 1⟩

/-- A stick that is let go. -/
def centre : Frame := ⟨.fin 0, .fin 0, .fin 0⟩

/-- The watchdog of a mower has started, and a page polls. -/
def pageOpen : List TelemetryEvent :=
  [.watch 0 "Luba-A", .watchdog 0 .start, .opened 0 "Luba-A" true, .elapse TICK_S, .statusPoll "Luba-A"]

/-- The stick is held across a tick, and its release lets the next tick probe. -/
def heldAcrossTick : List TelemetryEvent :=
  pageOpen ++ [.socket 0 (.frame push), .watchdog 0 (.tick true true), .elapse TICK_S, .socket 0 (.frame centre),
    .watchdog 0 (.tick true true), .watchdog 0 (.sent true true)]

/-- The stick is pushed while the first probe of a tick waits for a slow link. -/
def slowProbe : List TelemetryEvent :=
  pageOpen ++ [.watchdog 0 (.tick true true), .elapse 500000000, .socket 0 (.frame push)]

/-- A second page is closed while the stick of the first one is held. -/
def secondPage : List TelemetryEvent :=
  pageOpen ++ [.opened 1 "Luba-A" true, .socket 0 (.frame push), .socket 1 .leave, .socket 1 .cancelled,
    .socket 1 .joined]

theorem telemetry_standsDown_heldAcrossTick :
    ((run Telemetry.step (init 0) heldAcrossTick).bind (·.watchdogs 0)).map Prober.pc =
        some (.sending .cutterMode (TICK_S + TICK_S)) ∧ StandsDown (init 0) heldAcrossTick := by
  refine ⟨by decide +kernel, telemetry_standsDown 0 heldAcrossTick (.of_getElem fun n e at_ s reached => ?_)⟩
  have short : n < 11 := (List.getElem?_eq_some_iff.mp at_).1
  refine ⟨fun j socket frame is here drives k w there _ pending => ?_, fun j socket lets here i other ne there => ?_,
    fun ends => ?_⟩
  · subst is
    interval_cases n <;> cases at_
    · cases reached
      rcases k with _ | k <;> cases there
      cases pending
    · exact absurd drives (by decide +kernel)
  · rcases lets with ⟨frame, is, _⟩ | is <;> subst is
    · interval_cases n <;> cases at_ <;> cases reached <;> rcases i with _ | i
      · exact absurd rfl ne
      · cases there
      · exact absurd rfl ne
      · cases there
    · interval_cases n <;> cases at_
  · subst ends
    interval_cases n <;> cases at_

theorem slowProbe_secondPage_not_standsDown :
    ¬ StandsDown (init 0) (slowProbe ++ [.watchdog 0 (.sent true true)]) ∧
      ¬ StandsDown (init 0) (secondPage ++ [.watchdog 0 (.tick true true)]) := by
  constructor
  · obtain ⟨s, t, w, ran, stepped, at_, sends, name, driving⟩ :
        ∃ s t w, run Telemetry.step (init 0) slowProbe = some s ∧
          s.step (.watchdog 0 (.sent true true)) = some t ∧ t.watchdogs 0 = some w ∧
            w.pc = .sending .cutterMode TICK_S ∧ w.name = "Luba-A" ∧ s.isDriving "Luba-A" = true := by
      refine ⟨_, _, _, rfl, rfl, rfl, rfl, rfl, ?_⟩
      decide +kernel
    intro quiet
    have idle := (quiet slowProbe _ (List.prefix_refl _) s t "Luba-A" ran stepped ⟨w, _, _, at_, sends, name⟩).1
    rw [driving] at idle
    cases idle
  · obtain ⟨s, socket, ran, held, probes⟩ :
        ∃ s socket, run Telemetry.step (init 0) secondPage = some s ∧
          (s.sockets 0 = some socket ∧ socket.name = "Luba-A" ∧ s.Held socket) ∧
            ((s.step (.watchdog 0 (.tick true true))).bind (·.watchdogs 0)).map (fun w => (w.pc, w.name)) =
              some (.sending .carLight TICK_S, "Luba-A") := by
      refine ⟨_, _, rfl, ⟨rfl, rfl, rfl, push, TICK_S, rfl, ?_, ?_⟩, ?_⟩ <;> decide +kernel
    obtain ⟨w, sends, is⟩ := Option.map_eq_some_iff.mp probes
    obtain ⟨t, stepped, at_⟩ := Option.bind_eq_some_iff.mp sends
    obtain ⟨pc, name⟩ := Prod.mk.inj is
    intro quiet
    exact (quiet secondPage _ (List.prefix_refl _) s t "Luba-A" ran stepped ⟨w, _, _, at_, pc, name⟩).2
      ⟨0, socket, held⟩

end Telemetry

end MammotionRc.Server
