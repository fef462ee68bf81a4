import MammotionRc.Machine.Table
import MammotionRc.Server.PriorityTransport

/-! # The priority gate neither leaks nor starves

`_control_inflight` and the frame counters count the sends that are inside `send` and those that left it, at every
await and in every order. Each change of the list of sends replaces one send or appends one, so each counter moves by
what that send counts for.
-/

namespace MammotionRc.Server

open Machine

theorem LinkStats.count_frames (st : LinkStats) (control : Bool) (ms : ℚ) (outcome : SendOutcome) :
    (st.count control ms outcome).controlFrames = st.controlFrames + (if control then 1 else 0) ∧
      (st.count control ms outcome).telemetryFrames = st.telemetryFrames + (if !control then 1 else 0) := by
  cases control
  · simp only [LinkStats.count, Bool.not_false, Bool.false_eq_true, if_true, if_false]
    split_ifs <;> exact ⟨rfl, rfl⟩
  · simp only [LinkStats.count, Bool.not_true, Bool.false_eq_true, if_true, if_false]
    split_ifs <;> exact ⟨rfl, rfl⟩

namespace GatedSend

/-- It has not left `send`. -/
def inside (x : GatedSend) : Bool :=
  match x.pc with
  | .finished _ _ => false
  | _ => true

/-- It left `send` since the stats were last reset. -/
def ended (resets : ℕ) (x : GatedSend) : Bool :=
  match x.pc with
  | .finished _ r => decide (r = resets)
  | _ => false

/-- It also came to `super().send`. -/
def reached (resets : ℕ) (x : GatedSend) : Bool :=
  match x.pc with
  | .finished reached r => reached && decide (r = resets)
  | _ => false

@[simp] theorem wake_control (x : GatedSend) : x.wake.control = x.control := by
  unfold wake
  split <;> rfl

@[simp] theorem wake_since (x : GatedSend) : x.wake.since = x.since := by
  unfold wake
  split <;> rfl

@[simp] theorem inside_wake (x : GatedSend) : x.wake.inside = x.inside := by
  obtain ⟨control, since, pc⟩ := x
  cases pc <;> rfl

@[simp] theorem ended_wake (resets : ℕ) (x : GatedSend) : x.wake.ended resets = x.ended resets := by
  obtain ⟨control, since, pc⟩ := x
  cases pc <;> rfl

@[simp] theorem reached_wake (resets : ℕ) (x : GatedSend) : x.wake.reached resets = x.reached resets := by
  obtain ⟨control, since, pc⟩ := x
  cases pc <;> rfl

theorem wake_gate {x : GatedSend} {timer : ℕ} {woken : Bool} (gated : x.wake.pc = .gate timer woken) :
    ∃ before, x.pc = .gate timer before := by
  obtain ⟨control, since, pc⟩ := x
  cases pc with
  | gate timer' before =>
    cases gated
    exact ⟨before, rfl⟩
  | base t0 => cases gated
  | finished reached resets => cases gated

theorem wake_finished {x : GatedSend} {reached : Bool} {resets : ℕ} (left : x.wake.pc = .finished reached resets) :
    x.pc = .finished reached resets := by
  obtain ⟨control, since, pc⟩ := x
  cases pc with
  | gate timer before => cases left
  | base t0 => cases left
  | finished _ _ => exact left

end GatedSend

namespace PriorityTransport

/-- The control sends that are inside `send`. -/
def controlInside (s : PriorityTransport) : ℕ := s.sends.countP fun x => x.control && x.inside

/-- The control sends that ended since the last reset. -/
def controlEnded (s : PriorityTransport) : ℕ := s.sends.countP fun x => x.control && x.ended s.resets

/-- The telemetry sends that came to `super().send` and ended since the last reset. -/
def telemetryEnded (s : PriorityTransport) : ℕ := s.sends.countP fun x => !x.control && x.reached s.resets

/-- Only telemetry waits at the gate, under a timer of its own; no send ended after more resets than there were. -/
structure Placed (s : PriorityTransport) : Prop where
  gated : ∀ (i : ℕ) (x : GatedSend) (timer : ℕ) (woken : Bool), s.sends[i]? = some x → x.pc = .gate timer woken →
    x.control = false ∧ s.clock.timers.armed timer = some ((i, x.since + CONTROL_YIELD_MS), CONTROL_YIELD_MS)
  past : ∀ (i : ℕ) (x : GatedSend) (reached : Bool) (resets : ℕ), s.sends[i]? = some x → x.pc = .finished reached resets →
    resets ≤ s.resets

/-- The counters say how many sends there are of each kind. -/
structure Counts (s : PriorityTransport) : Prop where
  inflight : s.controlInflight = s.controlInside
  idle : s.controlIdle = true ↔ s.controlInside = 0
  control : s.stats.controlFrames = s.controlEnded
  telemetry : s.stats.telemetryFrames = s.telemetryEnded

theorem placed_init : init.Placed :=
  ⟨fun _ _ _ _ found => absurd found (Option.some_ne_none _).symm,
    fun _ _ _ _ found => absurd found (Option.some_ne_none _).symm⟩

theorem counts_init : init.Counts := ⟨rfl, by decide, rfl, rfl⟩

/-- A new call that is at the gate under its own timer, or past it. -/
theorem Placed.concat {s t : PriorityTransport} {y : GatedSend} (held : s.Placed) (sends : t.sends = s.sends ++ [y])
    (resets : t.resets = s.resets)
    (armed : ∀ id entry, s.clock.timers.armed id = some entry → t.clock.timers.armed id = some entry)
    (gate : ∀ timer woken, y.pc = .gate timer woken → y.control = false ∧
      t.clock.timers.armed timer = some ((s.sends.length, y.since + CONTROL_YIELD_MS), CONTROL_YIELD_MS))
    (inside : ∀ reached r, y.pc ≠ .finished reached r) : t.Placed := by
  constructor
  · intro i x timer woken found isGate
    rw [sends] at found
    rcases Table.of_concat found with before | ⟨rfl, rfl⟩
    · obtain ⟨telemetry, under⟩ := held.gated i x timer woken before isGate
      exact ⟨telemetry, armed _ _ under⟩
    · exact gate timer woken isGate
  · intro i x reached r found left
    rw [sends] at found
    rw [resets]
    rcases Table.of_concat found with before | ⟨rfl, rfl⟩
    · exact held.past i x reached r before left
    · exact absurd left (inside reached r)

theorem Placed.send {s : PriorityTransport} (held : s.Placed) (control : Bool) : (s.send control).Placed := by
  unfold PriorityTransport.send
  split_ifs
  · refine held.concat rfl rfl (fun _ _ armed => armed) ?_ ?_
    · intro _ _ gate
      cases gate
    · intro _ _ left
      cases left
  · refine held.concat rfl rfl (fun _ _ armed => armed) ?_ ?_
    · intro _ _ gate
      cases gate
    · intro _ _ left
      cases left
  · refine held.concat rfl rfl (fun _ _ armed => Timers.armed_setTimeout.mpr (.inr armed)) ?_ ?_
    · intro timer woken gate
      cases gate
      exact ⟨rfl, Timers.armed_setTimeout.mpr (.inl ⟨rfl, rfl, rfl⟩)⟩
    · intro _ _ left
      cases left

/-- A send that leaves the gate disarms its own timer only. -/
theorem Placed.leaveGate {s : PriorityTransport} {i timer : ℕ} {x : GatedSend} {woken : Bool} {pc : GatedPc}
    (held : s.Placed) (found : s.sends[i]? = some x) (gate : x.pc = .gate timer woken)
    (leaves : ∀ id set, pc ≠ .gate id set) (now : ∀ reached resets, pc = .finished reached resets → resets ≤ s.resets) :
    (s.leaveGate i timer x pc).Placed := by
  have own := (held.gated i x timer woken found gate).2
  constructor
  · intro j y timer' woken' found' gate'
    rcases Table.of_set found' with ⟨_, rfl⟩ | ⟨ne, before⟩
    · exact absurd gate' (leaves timer' woken')
    · obtain ⟨telemetry, armed⟩ := held.gated j y timer' woken' before gate'
      refine ⟨telemetry, Timers.armed_clearTimeout.mpr ⟨?_, armed⟩⟩
      rintro rfl
      have same := own.symm.trans armed
      simp only [Option.some.injEq, Prod.mk.injEq] at same
      exact ne same.1.1
  · intro j y reached resets found' left
    rcases Table.of_set found' with ⟨_, rfl⟩ | ⟨_, before⟩
    · exact now reached resets left
    · exact held.past j y reached resets before left

/-- A send that ends leaves the others where they are. -/
theorem Placed.replace {s t : PriorityTransport} {i : ℕ} {y : GatedSend} (held : s.Placed)
    (sends : t.sends = s.sends.set i y ∨ t.sends = (s.sends.set i y).map GatedSend.wake)
    (resets : t.resets = s.resets) (clock : t.clock = s.clock) (left : y.pc = .finished true s.resets) : t.Placed := by
  have placed : Placed { t with sends := s.sends.set i y } := by
    constructor
    · intro j x timer woken found gate
      rw [clock]
      rcases Table.of_set found with ⟨_, rfl⟩ | ⟨_, before⟩
      · cases left.symm.trans gate
      · exact held.gated j x timer woken before gate
    · intro j x reached r found isOver
      rw [resets]
      rcases Table.of_set found with ⟨_, rfl⟩ | ⟨_, before⟩
      · cases left.symm.trans isOver
        exact le_rfl
      · exact held.past j x reached r before isOver
  rcases sends with same | woken
  · rw [← same] at placed
    exact placed
  · constructor
    · intro j x timer set found gate
      rw [woken, List.getElem?_map, Option.map_eq_some_iff] at found
      obtain ⟨x, found, rfl⟩ := found
      obtain ⟨before, isGate⟩ := GatedSend.wake_gate gate
      simpa only [GatedSend.wake_control, GatedSend.wake_since] using placed.gated j x timer before found isGate
    · intro j x reached r found isOver
      rw [woken, List.getElem?_map, Option.map_eq_some_iff] at found
      obtain ⟨x, found, rfl⟩ := found
      exact placed.past j x reached r found (GatedSend.wake_finished isOver)

theorem Placed.finish {s : PriorityTransport} {i : ℕ} {x : GatedSend} {t0 : ℚ} {outcome : SendOutcome}
    (held : s.Placed) : (s.finish i x t0 outcome).Placed := by
  simp only [PriorityTransport.finish]
  split_ifs
  · exact held.replace (y := { x with pc := .finished true s.resets }) (.inr rfl) rfl rfl rfl
  · exact held.replace (y := { x with pc := .finished true s.resets }) (.inl rfl) rfl rfl rfl
  · exact held.replace (y := { x with pc := .finished true s.resets }) (.inl rfl) rfl rfl rfl

theorem Counts.send {s : PriorityTransport} (held : s.Counts) (control : Bool) : (s.send control).Counts := by
  obtain ⟨inflight, idle, ends, telemetry⟩ := held
  simp only [controlInside, controlEnded, telemetryEnded] at inflight idle ends telemetry
  unfold PriorityTransport.send
  split_ifs with isControl isIdle
  · constructor <;>
      simp [controlInside, controlEnded, telemetryEnded, GatedSend.inside, GatedSend.ended, inflight, ends, telemetry]
  · constructor <;>
      simp [controlInside, controlEnded, telemetryEnded, GatedSend.inside, GatedSend.reached, inflight, ends,
        telemetry, idle]
  · constructor <;>
      simp [controlInside, controlEnded, telemetryEnded, GatedSend.inside, GatedSend.reached, inflight, ends,
        telemetry, idle]

/-- A telemetry send that leaves the gate counts for nothing yet. -/
theorem Counts.leaveGate {s : PriorityTransport} {i timer : ℕ} {x : GatedSend} {woken : Bool} {pc : GatedPc}
    (held : s.Counts) (found : s.sends[i]? = some x) (gate : x.pc = .gate timer woken) (telemetry : x.control = false)
    (unreached : ∀ resets, pc ≠ .finished true resets) : (s.leaveGate i timer x pc).Counts := by
  have same (p : GatedSend → Bool) (before : p x = false) (after : p { x with pc := pc } = false) :
      (s.sends.set i { x with pc := pc }).countP p = s.sends.countP p := by
    have change := Table.countP_set (p := p) found { x with pc := pc }
    rw [before, after] at change
    exact change
  have inside : (s.leaveGate i timer x pc).controlInside = s.controlInside := by
    refine same _ ?_ ?_ <;> rw [telemetry, Bool.false_and]
  refine ⟨?_, ?_, ?_, ?_⟩
  · rw [inside]
    exact held.inflight
  · rw [inside]
    exact held.idle
  · refine held.control.trans (same _ ?_ ?_).symm <;> rw [telemetry, Bool.false_and]
  · refine held.telemetry.trans (same _ ?_ ?_).symm
    · simp only [GatedSend.reached, gate, Bool.and_false]
    · rw [telemetry, Bool.not_false, Bool.true_and]
      unfold GatedSend.reached
      cases pc with
      | gate _ _ => rfl
      | base _ => rfl
      | finished reached r =>
        cases reached with
        | false => rfl
        | true => exact absurd rfl (unreached r)

/-- What a send that ends changes; the wake-up of the gate changes no count. -/
theorem finish_sends (s : PriorityTransport) (i : ℕ) (x : GatedSend) (t0 : ℚ) (outcome : SendOutcome)
    (p : GatedSend → Bool) (awake : ∀ y, p y.wake = p y) :
    (s.finish i x t0 outcome).sends.countP p = (s.sends.set i { x with pc := .finished true s.resets }).countP p := by
  have woken (xs : List GatedSend) : (xs.map GatedSend.wake).countP p = xs.countP p := by
    rw [List.countP_map]
    exact List.countP_congr fun y _ => by rw [Function.comp_apply, awake]
  simp only [PriorityTransport.finish]
  split_ifs
  · exact woken _
  · rfl
  · rfl

theorem finish_resets (s : PriorityTransport) (i : ℕ) (x : GatedSend) (t0 : ℚ) (outcome : SendOutcome) :
    (s.finish i x t0 outcome).resets = s.resets := by
  simp only [PriorityTransport.finish]
  split_ifs <;> rfl

theorem finish_stats (s : PriorityTransport) (i : ℕ) (x : GatedSend) (t0 : ℚ) (outcome : SendOutcome) :
    (s.finish i x t0 outcome).stats = s.stats.count x.control (s.clock.now - t0) outcome := by
  simp only [PriorityTransport.finish]
  split_ifs <;> rfl

/-- The event is set again by the last control send only. -/
theorem finish_inflight (s : PriorityTransport) (i : ℕ) (x : GatedSend) (t0 : ℚ) (outcome : SendOutcome) :
    (s.finish i x t0 outcome).controlInflight = s.controlInflight - (if x.control then 1 else 0) ∧
      ((s.finish i x t0 outcome).controlIdle = true ↔
        s.controlIdle = true ∨ (x.control = true ∧ s.controlInflight ≤ 1)) := by
  simp only [PriorityTransport.finish]
  split_ifs with isControl last
  · exact ⟨rfl, fun _ => .inr ⟨isControl, by omega⟩, fun _ => rfl⟩
  · refine ⟨rfl, .inl, fun either => either.resolve_right ?_⟩
    rintro ⟨_, atMost⟩
    omega
  · refine ⟨(sub_zero _).symm, .inl, fun either => either.resolve_right ?_⟩
    rintro ⟨control, _⟩
    exact isControl control

theorem Counts.finish {s : PriorityTransport} {i : ℕ} {x : GatedSend} {t0 : ℚ} {outcome : SendOutcome}
    (held : s.Counts) (found : s.sends[i]? = some x) (base : x.pc = .base t0) :
    (s.finish i x t0 outcome).Counts := by
  obtain ⟨inflight, idle, ends, telemetry⟩ := held
  obtain ⟨inflight', idle'⟩ := s.finish_inflight i x t0 outcome
  obtain ⟨ends', telemetry'⟩ := s.stats.count_frames x.control (s.clock.now - t0) outcome
  have inside : (s.finish i x t0 outcome).controlInside + (if x.control then 1 else 0) = s.controlInside := by
    unfold controlInside
    rw [finish_sends _ _ _ _ _ _ fun y => by rw [GatedSend.wake_control, GatedSend.inside_wake]]
    simpa [GatedSend.inside, base] using Table.countP_set (p := fun y => y.control && y.inside) found
      { x with pc := .finished true s.resets }
  have ended : (s.finish i x t0 outcome).controlEnded = s.controlEnded + (if x.control then 1 else 0) := by
    unfold controlEnded
    rw [finish_sends _ _ _ _ _ _ fun y => by rw [GatedSend.wake_control, GatedSend.ended_wake], finish_resets]
    simpa [GatedSend.ended, base] using Table.countP_set (p := fun y => y.control && y.ended s.resets) found
      { x with pc := .finished true s.resets }
  have reached : (s.finish i x t0 outcome).telemetryEnded = s.telemetryEnded + (if !x.control then 1 else 0) := by
    unfold telemetryEnded
    rw [finish_sends _ _ _ _ _ _ fun y => by rw [GatedSend.wake_control, GatedSend.reached_wake], finish_resets]
    simpa [GatedSend.reached, base] using Table.countP_set (p := fun y => !y.control && y.reached s.resets) found
      { x with pc := .finished true s.resets }
  refine ⟨?_, ?_, ?_, ?_⟩
  · rw [inflight', inflight, ← inside]
    split <;> omega
  · rw [idle', idle, inflight, ← inside]
    cases x.control <;> simp
  · rw [finish_stats, ends', ends, ended]
  · rw [finish_stats, telemetry', telemetry, reached]

/-- Nothing ended since the stats were last reset. -/
theorem Placed.reset {s : PriorityTransport} (held : s.Placed) :
    Placed { s with stats := .zero, resets := s.resets + 1 } :=
  ⟨held.gated, fun i x reached r found left => Nat.le_succ_of_le (held.past i x reached r found left)⟩

theorem Counts.reset {s : PriorityTransport} (held : s.Counts) (placed : s.Placed) :
    Counts { s with stats := .zero, resets := s.resets + 1 } := by
  have fresh (x : GatedSend) (among : x ∈ s.sends) (reached : Bool) (r : ℕ) (left : x.pc = .finished reached r) :
      r ≠ s.resets + 1 := by
    obtain ⟨i, found⟩ := List.mem_iff_getElem?.mp among
    have := placed.past i x reached r found left
    omega
  refine ⟨held.inflight, held.idle, ?_, ?_⟩
  · refine (List.countP_eq_zero.mpr fun x among => ?_).symm
    cases left : x.pc with
    | finished reached r => simp [GatedSend.ended, left, fresh x among reached r left]
    | _ => simp [GatedSend.ended, left]
  · refine (List.countP_eq_zero.mpr fun x among => ?_).symm
    cases left : x.pc with
    | finished reached r => simp [GatedSend.reached, left, fresh x among reached r left]
    | _ => simp [GatedSend.reached, left]

theorem step_counts {s t : PriorityTransport} {e : GateEvent} (placed : s.Placed) (held : s.Counts)
    (stepped : s.step e = some t) : t.Placed ∧ t.Counts := by
  cases e with
  | send control =>
    cases stepped
    exact ⟨placed.send control, held.send control⟩
  | woken i =>
    simp only [step] at stepped
    split at stepped <;> try contradiction
    next found =>
    cases stepped
    have telemetry := (placed.gated _ _ _ _ found rfl).1
    exact ⟨placed.leaveGate found rfl (fun _ _ same => by cases same) (fun _ _ same => by cases same),
      held.leaveGate found rfl telemetry fun _ same => by cases same⟩
  | timer id =>
    simp only [step] at stepped
    split at stepped <;> try contradiction
    split at stepped <;> try contradiction
    next found =>
    cases stepped
    have telemetry := (placed.gated _ _ _ _ found rfl).1
    exact ⟨placed.leaveGate found rfl (fun _ _ same => by cases same) (fun _ _ same => by cases same),
      held.leaveGate found rfl telemetry fun _ same => by cases same⟩
  | cancelled i =>
    simp only [step] at stepped
    split at stepped <;> try contradiction
    next found =>
    cases stepped
    have telemetry := (placed.gated _ _ _ _ found rfl).1
    refine ⟨placed.leaveGate found rfl (fun _ _ same => by cases same) fun _ _ same => ?_,
      held.leaveGate found rfl telemetry fun _ same => by cases same⟩
    cases same
    exact le_rfl
  | ended i outcome =>
    simp only [step] at stepped
    split at stepped <;> try contradiction
    next found =>
    cases stepped
    exact ⟨placed.finish, held.finish found rfl⟩
  | reset =>
    cases stepped
    exact ⟨placed.reset, held.reset placed⟩
  | elapse ms =>
    simp only [step] at stepped
    split_ifs at stepped
    cases stepped
    exact ⟨⟨placed.gated, placed.past⟩, ⟨held.inflight, held.idle, held.control, held.telemetry⟩⟩

/-- At every await the counters and the event say how many sends of each kind there are; control never waits at the
gate, and telemetry no longer than the yield time. -/
theorem gate_counts {es : List GateEvent} {s : PriorityTransport} (ran : run step init es = some s) :
    s.controlInflight = s.controlInside ∧ 0 ≤ s.controlInflight ∧ (s.controlIdle = true ↔ s.controlInside = 0) ∧
      s.stats.controlFrames = s.controlEnded ∧ s.stats.telemetryFrames = s.telemetryEnded ∧
      ∀ (i : ℕ) (x : GatedSend) (timer : ℕ) (woken : Bool), s.sends[i]? = some x → x.pc = .gate timer woken →
        x.control = false ∧ s.clock.now ≤ x.since + CONTROL_YIELD_MS := by
  obtain ⟨placed, inflight, idle, control, telemetry⟩ : s.Placed ∧ s.Counts :=
    run_invariant (I := fun _ s => Placed s ∧ Counts s) ⟨placed_init, counts_init⟩
      (fun _ _ _ _ held stepped => step_counts held.1 held.2 stepped) ran
  refine ⟨inflight, ?_, idle, control, telemetry, fun i x timer woken found gate => ?_⟩
  · rw [inflight]
    exact Int.natCast_nonneg _
  · obtain ⟨isTelemetry, armed⟩ := placed.gated i x timer woken found gate
    exact ⟨isTelemetry, s.clock.punctual timer i _ _ armed⟩

/-- Telemetry behind a control send that fails is let through by it. -/
def letThrough : List GateEvent := [.send true, .elapse 10, .send false, .elapse 100, .ended 0 .raised, .woken 1]

theorem letThrough_counts : ∃ s, run step init letThrough = some s ∧ s.controlIdle = true ∧
    s.stats.controlFrames = s.controlEnded ∧ s.sends[1]? = some ⟨false, 10, .base 110⟩ := by
  have after : (run step init letThrough).map (fun s => (s.sends, s.controlInside)) =
      some ([⟨true, 0, .finished true 0⟩, ⟨false, 10, .base 110⟩], 0) := by decide +kernel
  obtain ⟨s, ran, after⟩ := Option.map_eq_some_iff.mp after
  obtain ⟨sends, inside⟩ := Prod.mk.inj after
  have counts := gate_counts ran
  exact ⟨s, ran, counts.2.2.1.mpr inside, counts.2.2.2.1, by rw [sends]; rfl⟩

end PriorityTransport

end MammotionRc.Server
