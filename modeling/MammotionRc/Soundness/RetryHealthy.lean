import Mathlib.Tactic.IntervalCases
import MammotionRc.Server.App
import MammotionRc.Soundness.TransportSteps

/-! # When a retry sequence leaves a healthy link alone

`_auto_reconnect` sleeps between its attempts and calls `t.disconnect()` when it wakes up, whatever happened
to the transport meanwhile: a `send()` of any handler reconnects by itself, and so does `/api/reconnect`,
whose `manual_op` only the watchdog reads. A link that is down whenever a sequence falls asleep, and that nobody
opens while one sleeps, is never torn down by it. A sequence that gives up also overwrites what a manual
reconnect reported while it was under way.
-/

namespace MammotionRc.Server

open Framing Machine

/-- Only `open_connection` makes the transport CONNECTED. -/
theorem HC33ProxyTransport.step_availability {codec : Codec} {s t : HC33ProxyTransport} {e : TransportEvent}
    (stepped : s.step codec e = some t) (never : ∀ i, e ≠ .opened i) (up : t.availability = .connected) :
    s.availability = .connected := by
  cases step_effect stepped with
  | opened i was => exact absurd rfl (never i)
  | locked i was lock down => cases up
  | openFailed i was => cases up
  | droppedNone i held was running => cases up
  | dropped i was => cases up
  | postRefused i was lock message => cases up
  | postFailed i was next down => cases up
  | drainFailed i was closing => cases up
  | readerFinally k requested pending live why => cases up
  | _ => exact up

/-- The sequence was started and has attempts to make or is in one. -/
def Bounce.Retrying (b : Bounce) : Prop :=
  b.kind ≠ .manual ∧ b.pc ≠ .created ∧ b.pc ≠ .done

/-- What becomes of a bounce over time. -/
structure Bounce.Later (b c : Bounce) : Prop where
  name : c.name = b.name
  manual : c.kind = .manual ↔ b.kind = .manual
  begun : c.pc = .created → b.pc = .created
  ended : b.pc = .done → c.pc = .done

theorem Bounce.Later.refl (b : Bounce) : b.Later b := ⟨rfl, Iff.rfl, id, id⟩

theorem Bounce.Later.trans {b c d : Bounce} (first : b.Later c) (second : c.Later d) : b.Later d :=
  ⟨second.name.trans first.name, second.manual.trans first.manual, fun at_ => first.begun (second.begun at_),
    fun at_ => second.ended (first.ended at_)⟩

namespace App

variable {codec : Codec} {s t u : App} {j k : ℕ}

/-- `/api/reconnect` of mower `name` succeeds. -/
def ManualSucceeds (s : App) (e : AppEvent) (name : String) : Prop :=
  ∃ j b, e = .bounce j .reported ∧ s.bounces j = some b ∧ b.kind = .manual ∧ b.name = name

/-- Nobody opens a link while a retry sequence of it sleeps, no sequence goes to sleep while its link is
CONNECTED, and no `/api/reconnect` succeeds while a sequence of its mower is under way. -/
structure Undisturbed (s : App) (e : AppEvent) : Prop where
  opens : ∀ k n, e = .link k (.opened n) → ∀ j b, s.bounces j = some b → b.pc = .sleeping → b.t ≠ k
  starts : ∀ j b k, e = .bounce j .start → s.bounces j = some b → s.registry.transports.get? b.name = some k →
    (s.links k).availability ≠ .connected
  fails : ∀ j b delay later, e = .bounce j .failed → s.bounces j = some b → b.kind = .auto (delay :: later) →
    (s.links b.t).availability ≠ .connected
  manual : ∀ j b, s.bounces j = some b → b.Retrying → ¬ s.ManualSucceeds e b.name

/-- What the retry sequences of a run may do: call `t.disconnect()` only while the transport is not CONNECTED,
and set `auto_gave_up` only if no `/api/reconnect` of the mower succeeded after the sequence started. -/
structure RetrySafe (codec : Codec) (start : App) (es : List AppEvent) : Prop where
  leavesAlone : ∀ pre j, pre ++ [.bounce j .wake] <+: es → ∀ s t b, run (App.step codec) start pre = some s →
    s.step codec (.bounce j .wake) = some t → s.bounces j = some b → (s.links b.t).availability ≠ .connected
  gaveUp : ∀ before j during, before ++ .bounce j .start :: during ++ [.bounce j .failed] <+: es →
    ∀ s t b, run (App.step codec) start (before ++ .bounce j .start :: during) = some s →
      s.step codec (.bounce j .failed) = some t → s.bounces j = some b → b.kind = .auto [] →
        ∀ pre e, pre ++ [e] <+: during → ∀ u,
          run (App.step codec) start (before ++ .bounce j .start :: pre) = some u → ¬ u.ManualSucceeds e b.name

/-- Every sleeping sequence has a link that is not CONNECTED. -/
def Asleep (s : App) : Prop :=
  ∀ j b, s.bounces j = some b → b.pc = .sleeping → (s.links b.t).availability ≠ .connected

/-- A step that neither opens a link nor puts a sequence to sleep over a CONNECTED one. -/
structure Evolves (s t : App) : Prop where
  links : ∀ k, (t.links k).availability = .connected → (s.links k).availability = .connected
  bounces : ∀ j b, s.bounces j = some b → ∃ c, t.bounces j = some c ∧ b.Later c
  asleep : ∀ j c, t.bounces j = some c → c.pc = .sleeping →
    s.bounces j = some c ∨ (s.links c.t).availability ≠ .connected

theorem Evolves.of_eq (links : t.links = s.links) (bounces : t.bounces = s.bounces) : Evolves s t :=
  ⟨fun k up => congrFun links k ▸ up, fun j b at_ => ⟨b, (congrFun bounces j).trans at_, .refl b⟩,
    fun j _ at_ _ => .inl ((congrFun bounces j).symm.trans at_)⟩

theorem Evolves.asleep_step (evolves : Evolves s t) (asleep : s.Asleep) : t.Asleep := by
  intro j c at_ sleeping up
  have before := evolves.links c.t up
  rcases evolves.asleep j c at_ sleeping with same | down
  · exact asleep j c same sleeping before
  · exact down before

/-- A task moves on and then calls a method of the transport. -/
theorem Evolves.call {e : TransportEvent} (evolves : Evolves s u) (called : u.call codec k e = some t)
    (never : ∀ i, e ≠ .opened i) : Evolves s t := by
  obtain ⟨link, stepped, rfl⟩ := Option.map_eq_some_iff.mp called
  refine ⟨fun l up => evolves.links l ?_, evolves.bounces, evolves.asleep⟩
  simp only [Function.update_apply] at up
  split_ifs at up with same
  · rw [same]
    exact HC33ProxyTransport.step_availability stepped never up
  · exact up

theorem Evolves.setWatchdog {pc : WatchdogPc} (evolves : Evolves s t) : Evolves s (t.setWatchdog k pc) :=
  ⟨evolves.links, evolves.bounces, evolves.asleep⟩

/-- A bounce comes into being, or moves on; if it goes to sleep, its link is not CONNECTED. -/
theorem Evolves.setBounce {c : Bounce} (evolves : Evolves s t)
    (later : ∀ b, s.bounces j = some b → b.Later c)
    (down : c.pc = .sleeping → (s.links c.t).availability ≠ .connected) : Evolves s (t.setBounce j c) := by
  refine ⟨evolves.links, fun l b at_ => ?_, fun l d at_ sleeping => ?_⟩
  · simp only [App.setBounce, Function.update_apply]
    split_ifs with same
    · exact ⟨c, rfl, later b (same ▸ at_)⟩
    · exact evolves.bounces l b at_
  · simp only [App.setBounce, Function.update_apply] at at_
    split_ifs at at_
    · cases at_
      exact .inr (down sleeping)
    · exact evolves.asleep l d at_ sleeping

theorem Evolves.probe {name : String} {w : ℕ} {payload : Option Bytes} (evolves : Evolves s u)
    (probed : u.probe codec k name w payload = some t) : Evolves s t := by
  simp only [App.probe] at probed
  split at probed
  · cases probed
    exact evolves.setWatchdog
  · split at probed
    · split_ifs at probed
      exact Evolves.call (u := u.setWatchdog k _) evolves.setWatchdog probed (by simp)
    · cases probed

theorem stepWatchdog_evolves {action : WatchdogAction} (stepped : s.stepWatchdog codec k action = some t) :
    Evolves s t := by
  have start : Evolves s s := .of_eq rfl rfl
  simp only [App.stepWatchdog] at stepped
  split at stepped
  · split at stepped <;> cases stepped <;> exact start.setWatchdog
  · split_ifs at stepped
    · obtain ⟨u, spawned, probed⟩ := Option.bind_eq_some_iff.mp stepped
      simp only [spawn] at spawned
      split at spawned <;> cases spawned
      next none_ =>
      refine Evolves.probe (u := s.setBounce _ _) (start.setBounce (fun b at_ => ?_) ?_) probed
      · rw [none_] at at_
        cases at_
      · exact nofun
    · exact start.probe stepped
  · exact start.call stepped nofun
  · split_ifs at stepped
    cases stepped
    exact start.setWatchdog
  · split_ifs at stepped
    split at stepped
    · cases stepped
      exact start.setWatchdog
    · cases stepped
      exact start.setWatchdog
    · split_ifs at stepped
      · cases stepped
        exact start.setWatchdog
      · exact Evolves.call (u := s.setWatchdog k .done) start.setWatchdog stepped nofun
    · cases stepped
    · cases stepped
  · cases stepped

theorem stepHandler_evolves {action : HandlerAction} (stepped : s.stepHandler codec j action = some t) :
    Evolves s t := by
  simp only [App.stepHandler] at stepped
  split at stepped
  · obtain ⟨k, _, rfl⟩ := Option.map_eq_some_iff.mp stepped
    exact .of_eq rfl rfl
  · exact Evolves.call (.of_eq rfl rfl) stepped nofun
  · exact Evolves.call (.of_eq rfl rfl) stepped nofun
  · split_ifs at stepped
    cases stepped
    exact .of_eq rfl rfl
  · cases stepped

theorem stepRequest_evolves {e : RegistryEvent} (stepped : s.stepRequest codec e = some t) : Evolves s t := by
  have created : ∀ (u : App) (pc : ApplyPc), Evolves s u → Evolves s (u.createWatchdogs pc e) := by
    intro u pc evolves
    simp only [App.createWatchdogs]
    split
    · exact evolves.setWatchdog
    · exact evolves.setWatchdog
    · exact evolves
  have issued : ∀ (u : App) (i : ℕ), Evolves s u → u.issue codec i = some t → Evolves s t := by
    intro u i evolves issued
    simp only [App.issue] at issued
    split at issued
    · exact evolves.call issued nofun
    · exact evolves.call issued nofun
    · cases issued
      exact evolves
  cases e with
  | save i roster =>
    obtain ⟨r, _, rfl⟩ := Option.map_eq_some_iff.mp stepped
    exact .of_eq rfl rfl
  | resume i | failed i =>
    simp only [App.stepRequest] at stepped
    split_ifs at stepped
    obtain ⟨r, _, ends⟩ := Option.bind_eq_some_iff.mp stepped
    exact issued _ i (created { s with registry := r } _ (.of_eq rfl rfl)) ends

/-- A step of bounce `j`, which is neither over before it nor in front of its first step afterwards. -/
structure Turns (s t : App) (j : ℕ) : Prop where
  evolves : Evolves s t
  running : ∀ b, s.bounces j = some b → b.pc ≠ .done
  begun : ∀ c, t.bounces j = some c → c.pc ≠ .created

section Turn

variable {b c : Bounce}

theorem Turns.of_setBounce (evolves : Evolves s u) (at_ : s.bounces j = some b) (running : b.pc ≠ .done)
    (name : c.name = b.name) (manual : c.kind = .manual ↔ b.kind = .manual) (begun : c.pc ≠ .created)
    (down : c.pc = .sleeping → (s.links c.t).availability ≠ .connected) : Turns s (u.setBounce j c) j := by
  have only : ∀ d, s.bounces j = some d → d = b := fun d at_' => Option.some.inj (at_'.symm.trans at_)
  refine ⟨evolves.setBounce (fun d at_' => ?_) down, fun d at_' => ?_, fun d at_' => ?_⟩
  · rw [only d at_']
    exact ⟨name, manual, fun created => absurd created begun, fun ends => absurd ends running⟩
  · rw [only d at_']
    exact running
  · simp only [App.setBounce, Function.update_self, Option.some.injEq] at at_'
    rw [← at_']
    exact begun

theorem Turns.call {e : TransportEvent} (turns : Turns s u j) (called : u.call codec k e = some t)
    (never : ∀ i, e ≠ .opened i) : Turns s t j := by
  have evolves := turns.evolves.call called never
  obtain ⟨link, _, rfl⟩ := Option.map_eq_some_iff.mp called
  exact ⟨evolves, turns.running, turns.begun⟩

theorem nextAttempt_turns (evolves : Evolves s u) (at_ : s.bounces j = some b) (running : b.pc ≠ .done)
    (name : c.name = b.name) (manual : c.kind = .manual ↔ b.kind = .manual)
    (down : ∀ delay later, c.kind = .auto (delay :: later) → (s.links c.t).availability ≠ .connected) :
    Turns s (u.nextAttempt j c) j := by
  simp only [App.nextAttempt]
  split
  · next delay later kind =>
    rw [kind] at manual
    refine .of_setBounce evolves at_ running name ⟨nofun, fun is => ?_⟩ nofun fun _ => down delay later kind
    cases manual.mpr is
  · exact .of_setBounce ⟨evolves.links, evolves.bounces, evolves.asleep⟩ at_ running name manual nofun nofun
  · exact .of_setBounce ⟨evolves.links, evolves.bounces, evolves.asleep⟩ at_ running name manual nofun nofun

theorem stepBegun_turns {action : BounceAction} (at_ : s.bounces j = some b)
    (stepped : s.stepBegun codec j b action = some t)
    (starts : action = .start → ∀ k, s.registry.transports.get? b.name = some k →
      (s.links k).availability ≠ .connected)
    (fails : action = .failed → ∀ delay later, b.kind = .auto (delay :: later) →
      (s.links b.t).availability ≠ .connected) : Turns s t j := by
  by_cases done : b.pc = .done
  · simp only [App.stepBegun, done] at stepped
    cases action <;> cases stepped
  have start : Evolves s s := .of_eq rfl rfl
  have stays : ∀ pc, pc ≠ .created → pc ≠ .sleeping → Turns s (s.setBounce j { b with pc := pc }) j :=
    fun pc begun awake => .of_setBounce start at_ done rfl Iff.rfl begun fun at_' => absurd at_' awake
  have same : b.pc ≠ .created → Turns s s j := fun begun => by
    refine ⟨start, fun c at_' => ?_, fun c at_' => ?_⟩ <;> cases at_.symm.trans at_'
    · exact done
    · exact begun
  simp only [App.stepBegun] at stepped
  split at stepped
  · cases stepped
    simp only [App.startAuto]
    split
    · next w h transport _ =>
      exact nextAttempt_turns (c := { b with t := w, h := h }) (.of_eq rfl rfl) at_ done rfl Iff.rfl
        fun _ _ _ => starts rfl w transport
    · exact .of_setBounce (.of_eq rfl rfl) at_ done rfl Iff.rfl (by simp) (by simp)
  · exact (stays .disconnecting (by simp) (by simp)).call stepped (by simp)
  · split_ifs at stepped
    exact (stays .connecting (by simp) (by simp)).call stepped (by simp)
  · split_ifs at stepped
    cases stepped
    exact stays .starting (by simp) (by simp)
  · split_ifs at stepped
    cases stepped
    exact nextAttempt_turns start at_ done rfl Iff.rfl (fails rfl)
  · split_ifs at stepped
    cases stepped
    exact nextAttempt_turns start at_ done rfl Iff.rfl (fails rfl)
  · split_ifs at stepped
    cases stepped
    exact stays .reporting (by simp) (by simp)
  · split_ifs at stepped
    cases stepped
    rw [App.succeeded]
    split <;> exact .of_setBounce (.of_eq rfl rfl) at_ done rfl Iff.rfl (by simp) (by simp)
  · next pc => exact (same (by rw [pc]; decide)).call stepped (by simp)
  · next pc => exact (same (by rw [pc]; decide)).call stepped (by simp)
  · cases stepped

end Turn

theorem stepBounce_evolves {action : BounceAction} (undisturbed : Undisturbed s (.bounce j action))
    (stepped : s.stepBounce codec j action = some t) : Evolves s t := by
  have begun : ∀ b, s.bounces j = some b → s.stepBegun codec j b action = some t → Turns s t j := by
    intro b at_ stepped
    refine stepBegun_turns at_ stepped ?_ ?_
    · rintro rfl k
      exact undisturbed.starts j b k rfl at_
    · rintro rfl delay later
      exact undisturbed.fails j b delay later rfl at_
  cases action with
  | manual name =>
    simp only [App.stepBounce, App.startManual] at stepped
    split at stepped
    · next none_ _ _ =>
      refine Evolves.call (u := (s.setManualOp name true).setBounce j _) ?_ stepped (by simp)
      refine Evolves.setBounce (.of_eq rfl rfl) (fun b at_ => ?_) (by simp)
      rw [none_] at at_
      cases at_
    · cases stepped
  | _ =>
    obtain ⟨b, at_, stepped⟩ := Option.bind_eq_some_iff.mp stepped
    exact (begun b at_ stepped).evolves

/-- An undisturbed step either opens a link that nobody sleeps over, or it evolves. -/
theorem Undisturbed.step {e : AppEvent} (undisturbed : Undisturbed s e) (stepped : s.step codec e = some t) :
    (t.bounces = s.bounces ∧ ∃ k, (∀ l, l ≠ k → t.links l = s.links l) ∧
      ∀ j b, s.bounces j = some b → b.pc = .sleeping → b.t ≠ k) ∨ Evolves s t := by
  cases e with
  | request e => exact .inr (stepRequest_evolves stepped)
  | startSends i payload =>
    simp only [App.step, App.startSends] at stepped
    split at stepped
    · exact .inr (Evolves.call (.of_eq rfl rfl) stepped nofun)
    · cases stepped
  | watchdog k action => exact .inr (stepWatchdog_evolves stepped)
  | bounce j action => exact .inr (stepBounce_evolves undisturbed stepped)
  | handler j action => exact .inr (stepHandler_evolves stepped)
  | link k e =>
    simp only [App.step] at stepped
    split_ifs at stepped
    by_cases opens : ∃ n, e = .opened n
    · obtain ⟨n, rfl⟩ := opens
      have awake := undisturbed.opens k n rfl
      obtain ⟨link, _, rfl⟩ := Option.map_eq_some_iff.mp stepped
      exact .inl ⟨rfl, k, fun l other => Function.update_of_ne other .., awake⟩
    · exact .inr (Evolves.call (.of_eq rfl rfl) stepped fun i is => opens ⟨i, is⟩)

theorem Undisturbed.asleep {e : AppEvent} (undisturbed : Undisturbed s e) (asleep : s.Asleep)
    (stepped : s.step codec e = some t) : t.Asleep := by
  rcases undisturbed.step stepped with ⟨bounces, k, links, awake⟩ | evolves
  · intro j b at_ sleeping
    rw [bounces] at at_
    rw [links _ (awake j b at_ sleeping)]
    exact asleep j b at_ sleeping
  · exact evolves.asleep_step asleep

theorem Undisturbed.later {e : AppEvent} (undisturbed : Undisturbed s e) (stepped : s.step codec e = some t) :
    ∀ j b, s.bounces j = some b → ∃ c, t.bounces j = some c ∧ b.Later c := by
  rcases undisturbed.step stepped with ⟨bounces, _⟩ | evolves
  · exact fun j b at_ => ⟨b, (congrFun bounces j).trans at_, .refl b⟩
  · exact evolves.bounces

/-- A bounce is followed through a run. -/
theorem later_of_run {es : List AppEvent} (undisturbed : Meets (App.step codec) (fun _ => Undisturbed) s es)
    (ran : run (App.step codec) s es = some t) :
    ∀ j b, s.bounces j = some b → ∃ c, t.bounces j = some c ∧ b.Later c := by
  refine run_invariant_of_meets (I := fun _ u => ∀ j b, s.bounces j = some b → ∃ c, u.bounces j = some c ∧
    b.Later c) (fun j b at_ => ⟨b, at_, .refl b⟩) (fun _ _ _ _ followed calm stepped j b at_ => ?_) undisturbed ran
  obtain ⟨c, here, first⟩ := followed j b at_
  obtain ⟨d, there, second⟩ := calm.later stepped j c here
  exact ⟨d, there, first.trans second⟩

/-- A sequence that has started stays behind its first step. -/
theorem started_of_run {before pre : List AppEvent} {start : App}
    (undisturbed : Meets (App.step codec) (fun _ => Undisturbed) start (before ++ .bounce j .start :: pre))
    (ran : run (App.step codec) start (before ++ .bounce j .start :: pre) = some u) :
    ∃ c, u.bounces j = some c ∧ c.pc ≠ .created := by
  rw [List.append_cons] at undisturbed ran
  obtain ⟨t, reached, ran⟩ := Option.bind_eq_some_iff.mp ((run_append ..).symm.trans ran)
  obtain ⟨s, earlier, stepped⟩ := run_concat_iff.mp reached
  have calm := (undisturbed.of_prefix (List.prefix_append _ _)).last earlier
  obtain ⟨b, at_, begun⟩ := Option.bind_eq_some_iff.mp stepped
  have turns : Turns s t j := stepBegun_turns at_ begun (fun _ k => calm.starts j b k rfl at_) nofun
  obtain ⟨c, here, _⟩ := turns.evolves.bounces j b at_
  obtain ⟨d, there, later⟩ := later_of_run (undisturbed.after reached) ran j c here
  exact ⟨d, there, fun created => turns.begun c here (later.begun created)⟩

/-- A roster with one mower. -/
def luba : List MowerConfig := [⟨"Luba-A", none, "192.168.1.54", 9876, none⟩]

/-- The lifespan connects the mower, its connection is lost, and a retry sequence goes to sleep. -/
def droppedMower : List AppEvent :=
  [.link 0 (.resume 0), .link 0 (.resume 0), .link 0 (.opened 0), .link 0 (.resume 0), .request (.resume 0),
    .request (.resume 0), .watchdog 0 .start, .link 0 (.reader 0 .start), .link 0 (.connectionLost 0),
    .link 0 (.reader 0 .ended), .link 0 (.reader 0 .notified), .watchdog 0 (.tick 0 none), .bounce 0 .start]

/-- The first attempt of the sequence reconnects the mower. -/
def firstAttempt : List AppEvent :=
  [.bounce 0 .wake, .link 0 (.resume 2), .link 0 (.disconnected 2), .bounce 0 .disconnected, .link 0 (.resume 2),
    .link 0 (.resume 2), .link 0 (.opened 2), .link 0 (.resume 2), .bounce 0 .connected, .bounce 0 .started,
    .bounce 0 .reported]

/-- A request of the page sends a command, and its `send()` reconnects the mower. -/
def sendReconnects : List AppEvent :=
  [.handler 0 (.opened "Luba-A"), .handler 0 (.send [0x01]), .link 0 (.resume 3), .link 0 (.resume 3),
    .link 0 (.opened 3), .link 0 (.resume 3)]

end App

end MammotionRc.Server
