import Mathlib.Tactic.IntervalCases
import MammotionRc.Soundness.StickSteps

/-! # What the failsafe holds back

`joystickFailsafeStop` puts the recorded state at rest and ends the heartbeat. It does not remember that it did, so
a held stick that is moved on records a new state, passes it on and starts the heartbeat anew. While the stick is
not moved with force, nothing with force is passed until the next gesture.
-/

namespace MammotionRc.Web

open Machine Server

theorem positive_recordMove (data : Frame) : positive (recordMove data) = positive data := by
  obtain ⟨x, y, force⟩ := data
  cases force with
  | fin f =>
    have one : (0 : ℚ) < 1 := by decide
    simp only [positive, recordMove, atMostOne, PyFloat.lt, lt_min_iff, one, and_true]
  | inf negative => cases negative <;> rfl
  | nan => rfl

namespace StickPage

/-- While the failsafe is in force the stick is not moved with force. -/
def Still (s : StickPage) (e : StickEvent × StickBrowser) : Prop :=
  s.latched = true → ∀ data, e.1 = .move data → positive data = false

/-- While the failsafe is in force no frame with force is passed to `sendJoystick`. -/
def Silent (s : StickPage) (e : StickEvent × StickBrowser) : Prop :=
  s.latched = true → ∀ t, s.step e = some t →
    ∃ more, t.passed = s.passed ++ more ∧ ∀ frame ∈ more, positive frame = false

/-- What one event passes to `sendJoystick`. -/
structure Passes (e : StickEvent) (s t : StickPage) : Prop where
  passed : ∃ more, t.passed = s.passed ++ more ∧ ∀ frame ∈ more, frame = t.joyState
  joyState : t.joyState = s.joyState ∨ t.joyState = ZERO_FRAME ∨ ∃ data, e = .move data ∧ t.joyState = recordMove data
  latched : t.latched = true → s.latched = true ∨ t.joyState = ZERO_FRAME

variable {s t u : StickPage} {es : List (StickEvent × StickBrowser)} {e : StickEvent × StickBrowser}
  {browser : StickBrowser} {event : StickEvent}

/-- An event that passes nothing. -/
theorem Passes.of_quiet (passed : t.passed = s.passed) (joyState : t.joyState = s.joyState)
    (latched : t.latched = true → s.latched = true) : Passes event s t :=
  ⟨⟨[], by rw [passed, List.append_nil], by simp⟩, Or.inl joyState, fun set_ => Or.inl (latched set_)⟩

theorem passes_ended (s : StickPage) (browser : StickBrowser) : Passes event s (s.ended browser) := by
  obtain ⟨same, passed⟩ := s.stopHeartbeat.sendJoystick_same browser ZERO_FRAME
  refine ⟨⟨_, passed, fun frame member => ?_⟩, Or.inr (Or.inl same.joyState), fun set_ => Or.inl (same.latched ▸ set_)⟩
  exact (List.mem_singleton.mp member).trans same.joyState.symm

theorem passes_joystickFailsafeStop (s : StickPage) (browser : StickBrowser) :
    Passes event s (s.joystickFailsafeStop browser) := by
  rw [joystickFailsafeStop]
  split
  · exact .of_quiet rfl rfl id
  · let calm : StickPage := { s.stopHeartbeat with latched := s.latched || s.joystick.any Stick.touched }
    obtain ⟨same, passed⟩ := calm.sendJoystick_same browser ZERO_FRAME
    refine ⟨⟨_, passed, fun frame member => ?_⟩, Or.inr (Or.inl same.joyState), fun _ => Or.inr same.joyState⟩
    exact (List.mem_singleton.mp member).trans same.joyState.symm

theorem passes_moved (s : StickPage) (browser : StickBrowser) (data : Frame) :
    Passes (.move data) s (s.moved browser data) := by
  rw [moved]
  dsimp only
  split
  · exact ⟨⟨[], (List.append_nil _).symm, by simp⟩, Or.inr (Or.inr ⟨data, rfl, rfl⟩), Or.inl⟩
  · let held : StickPage := { s with joyState := recordMove data }
    obtain ⟨same, passed⟩ := held.sendJoystick_same browser held.joyState
    refine ⟨⟨_, passed, fun frame member => ?_⟩, Or.inr (Or.inr ⟨data, rfl, same.joyState⟩), fun set_ => Or.inl ?_⟩
    · exact (List.mem_singleton.mp member).trans same.joyState.symm
    · exact same.latched ▸ set_

theorem passes_selectMower (s : StickPage) (browser : StickBrowser) (name : String) :
    Passes event s (s.selectMower browser name) := by
  let calm : StickPage := { s with currentMower := some name }.stopHeartbeat
  obtain ⟨same, passed⟩ := calm.teardownJoystickWs_same browser
  let next : StickPage := { calm.teardownJoystickWs browser with
    joystick := none, link := s.link.startJoystick browser.toBrowser name }
  have mounts := next.mounts_mountStick browser
  refine ⟨⟨[], ?_, by simp⟩, Or.inr (Or.inl (mounts.joyState.trans same.joyState)), fun set_ => Or.inl ?_⟩
  · exact (mounts.passed.trans passed).trans (List.append_nil _).symm
  · exact (mounts.latched.trans same.latched).symm.trans set_

theorem passes_step (stepped : s.step e = some t) : Passes e.1 s t := by
  obtain ⟨event, browser⟩ := e
  cases event with
  | link event =>
    obtain ⟨_, link, _, rfl⟩ := step_link.mp stepped
    exact .of_quiet rfl rfl id
  | selectMower name =>
    cases stepped
    exact s.passes_selectMower browser name
  | noMowers =>
    cases stepped
    obtain ⟨same, passed⟩ := s.teardownJoystickWs_same browser
    exact .of_quiet passed same.joyState fun set_ => same.latched ▸ set_
  | visibilitychange hidden =>
    cases hidden with
    | false =>
      cases stepped
      exact .of_quiet rfl rfl id
    | true =>
      cases stepped
      have passes : Passes .blur { s with link := { s.link with hidden := true } } _ :=
        passes_joystickFailsafeStop _ browser
      obtain ⟨passed, joyState, latched⟩ := passes
      refine ⟨passed, joyState.imp_right fun rest => Or.inl (rest.resolve_right ?_), latched⟩
      simp
  | pagehide | blur | stop =>
    cases stepped
    exact s.passes_joystickFailsafeStop browser
  | scriptLoad defined =>
    obtain ⟨_, rfl⟩ := step_scriptLoad.mp stepped
    have mounts := s.mounts_scriptLoaded browser defined
    exact .of_quiet mounts.passed mounts.joyState fun set_ => mounts.latched ▸ set_
  | «open» k =>
    obtain ⟨sock, link, _, _, rfl⟩ := step_open.mp stepped
    obtain ⟨same, passed⟩ := assertStopped_same { s with link := link } browser k sock
    exact .of_quiet passed same.joyState fun set_ => same.latched ▸ set_
  | start =>
    obtain ⟨_, _, _, rfl⟩ := step_start.mp stepped
    exact .of_quiet rfl rfl (by simp)
  | move data =>
    obtain ⟨_, _, _, rfl⟩ := step_move.mp stepped
    exact s.passes_moved browser data
  | «end» =>
    obtain ⟨stick, _, _, rfl⟩ := step_end.mp stepped
    have passes : Passes .end { s with joystick := some { stick with touched := false } } _ := passes_ended _ browser
    exact ⟨passes.passed, passes.joyState, passes.latched⟩
  | lateEnd =>
    obtain ⟨_, rfl⟩ := step_lateEnd.mp stepped
    exact s.passes_ended browser
  | interval id =>
    obtain ⟨_, rfl⟩ := step_interval.mp stepped
    obtain ⟨same, passed⟩ := s.sendJoystick_same browser s.joyState
    refine ⟨⟨_, passed, fun frame member => ?_⟩, Or.inl same.joyState, fun set_ => Or.inl (same.latched ▸ set_)⟩
    exact (List.mem_singleton.mp member).trans same.joyState.symm

/-- The recorded state is at rest while the failsafe is in force. -/
def AtRest (s : StickPage) : Prop := s.latched = true → positive s.joyState = false

theorem joyState_of_still (rest : s.AtRest) (still : s.Still e) (latched : s.latched = true)
    (stepped : s.step e = some t) : positive t.joyState = false := by
  rcases (passes_step stepped).joyState with same | zero | ⟨data, is, recorded⟩
  · rw [same]
    exact rest latched
  · rw [zero]
    rfl
  · rw [recorded, positive_recordMove]
    exact still latched data is

theorem atRest_step (rest : s.AtRest) (still : s.Still e) (stepped : s.step e = some t) : t.AtRest := by
  intro set_
  rcases (passes_step stepped).latched set_ with before | zero
  · exact joyState_of_still rest still before stepped
  · rw [zero]
    rfl

theorem silent_of_atRest (rest : s.AtRest) (still : s.Still e) : s.Silent e := by
  intro latched t stepped
  obtain ⟨more, passed, are⟩ := (passes_step stepped).passed
  refine ⟨more, passed, fun frame member => ?_⟩
  rw [are frame member]
  exact joyState_of_still rest still latched stepped

/-- Along every run: if a stick that the failsafe acted on is not moved with force before the next gesture, no frame
with force is passed before it. -/
theorem silent_of_still {nippleReady hidden onLine : Bool}
    (still : Meets step (fun _ => Still) (boot nippleReady hidden onLine) es) :
    Meets step (fun _ => Silent) (boot nippleReady hidden onLine) es := by
  intro pre e inside s reached
  refine silent_of_atRest ?_ (still pre e inside s reached)
  have before : pre <+: es := (List.prefix_append pre [e]).trans inside
  have start : (boot nippleReady hidden onLine).AtRest := fun _ => rfl
  have preserved : ∀ (_ : List (StickEvent × StickBrowser)) t e u,
      AtRest t → Still t e → step t e = some u → AtRest u :=
    fun _ _ _ _ rest still stepped => atRest_step rest still stepped
  exact run_invariant_of_meets (I := fun _ => AtRest) start preserved (still.of_prefix before) reached

/-- A stick that is moved on after the failsafe drives again. -/
theorem not_silent_of_move (latched : s.latched = true) (off : s.joyTimer = none) {stick : Stick}
    (mounted : s.joystick = some stick) (finger : stick.touched = true) {data : Frame}
    (force : positive data = true) : ¬ s.Silent (.move data, browser) := by
  intro silent
  have stepped : s.step (.move data, browser) = some (s.moved browser data) := by
    simp only [step, mounted, finger, if_true]
  obtain ⟨more, passed, quiet⟩ := silent latched _ stepped
  have sent : (s.moved browser data).passed = s.passed ++ [recordMove data] := by
    rw [moved, if_neg (by simp [off])]
    exact (sendJoystick_same { s with joyState := recordMove data } browser (recordMove data)).2
  rw [passed, List.append_cancel_left_eq] at sent
  have zero := quiet (recordMove data) (sent ▸ List.mem_singleton_self _)
  rw [positive_recordMove, force] at zero
  cases zero

def steady : StickBrowser := ⟨⟨1000, 0, true⟩, true, true⟩
def ahead : Frame := ⟨.fin 0, .fin 1, .fin 2⟩

/-- A drive that ends with STOP while the finger stays on the stick. -/
def heldThroughStop : List (StickEvent × StickBrowser) :=
  [.selectMower "Luba", .open 0, .start, .move ahead, .stop].map (·, steady)

theorem nextGesture_silent : Meets step (fun _ => Silent) (boot true false true)
    (heldThroughStop ++ [(.end, steady), (.start, steady), (.move ahead, steady)]) := by
  refine silent_of_still (.of_getElem fun n e at_ s reached latched data moves => ?_)
  have short : n < 8 := (List.getElem?_eq_some_iff.mp at_).1
  interval_cases n <;> cases at_ <;> cases moves <;> cases reached <;> cases latched

/-- The finger that stayed on the stick moves on. -/
theorem heldThroughStop_drives : ¬ Meets step (fun _ => Silent) (boot true false true)
    (heldThroughStop ++ [(.move ahead, steady)]) := by
  intro silent
  have held : (run step (boot true false true) heldThroughStop).map
      (fun s => (s.latched, s.joyTimer, s.joystick)) = some (true, none, some ⟨true⟩) := by decide
  obtain ⟨s, reached, held⟩ := Option.map_eq_some_iff.mp held
  simp only [Prod.mk.injEq] at held
  obtain ⟨latched, off, mounted⟩ := held
  exact not_silent_of_move latched off mounted rfl (by decide) (silent.last reached)

end StickPage

end MammotionRc.Web
