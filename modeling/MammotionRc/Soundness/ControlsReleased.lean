import MammotionRc.Web.Controls

/-! # Which controls are released by timers alone

A handler under a deadline is released when the timer of the deadline fires. A handler that has a client of the video
library is not: the timer of the join leads to `client.leave`, and no timer leads on from there.
-/

namespace MammotionRc.Web

open Machine

/-- The control of a button; the headlight counts as switched on. -/
def Button.control : Button → Control
  | .action a => .action a
  | .light => .action .lightOn
  | .reconnect => .reconnect
  | .cutter _ => .cutterMode
  | .camStart => .camStart
  | .camStop => .camStop

/-- The control that stands for all with the same button. -/
def Control.lead : Control → Control
  | .action .lightOff => .action .lightOn
  | n => n

/-- It switches the headlight. -/
def Control.light (n : Control) : Bool := n = .action .lightOn ∨ n = .action .lightOff

theorem Action.control_button (a : Action) : a.button.control = (Control.action a).lead := by cases a <;> rfl

namespace Controls

variable {s t : Controls} {es : List ControlEvent} {e : ControlEvent} {n : Control} {h : Handler}

/-- `n` is released by timers alone, with its button. -/
def Released (s : Controls) (n : Control) : Prop :=
  ∃ (h : Handler) (ids : List ℕ) (t : Controls), s.running n = some h ∧ run step s (ids.map .fired) = some t ∧
    t.pending n = false ∧ t.busy h.button = false

/-- Every name in `pending` and every busy button is released by timers alone. -/
structure Recoverable (s : Controls) : Prop where
  names : ∀ n, s.pending n = true → s.Released n
  buttons : ∀ b, s.busy b = true → ∃ n h, s.pending n = true ∧ s.running n = some h ∧ h.button = b

/-- The event has the video library create a client for the camera of the selected mower. -/
def CreatesClient (s : Controls) (e : ControlEvent) : Prop :=
  e = .settled .camStart (.token .created) ∧
    ∃ button timer, s.running .camStart = some ⟨button, s.currentMower, .request timer⟩

/-- The camera's handler waits for a client. -/
def Stuck (s : Controls) : Prop :=
  s.pending .camStart = true ∧ ∃ h, s.running .camStart = some h ∧ h.stage.timer? = none

theorem Stuck.release (stuck : s.Stuck) (running : s.running n = some h) {id : ℕ} (under : h.stage.timer? = some id) :
    (s.release n h).Stuck := by
  obtain ⟨pending, h', is, without⟩ := stuck
  have ne : Control.camStart ≠ n := by
    rintro rfl
    cases running.symm.trans is
    cases under.symm.trans without
  refine ⟨?_, h', ?_, without⟩
  · exact (Function.update_of_ne ne _ _).trans pending
  · exact (Function.update_of_ne ne _ _).trans is

theorem leave_running (s : Controls) (n : Control) (h : Handler) (client : ℕ) :
    (s.leave n h client).running n = some { h with stage := .leaving } := by
  unfold leave goOn
  exact Function.update_self ..

/-- No timer leads on from a handler that waits for a client. -/
theorem Stuck.fired (stuck : s.Stuck) {id : ℕ} (stepped : s.step (.fired id) = some t) : t.Stuck := by
  obtain ⟨⟨kind, delay⟩, _, rfl⟩ := Option.map_eq_some_iff.mp stepped
  obtain ⟨pending, h', is, without⟩ := stuck
  have same : Stuck { s with timers := s.timers.clearTimeout id } := ⟨pending, h', is, without⟩
  cases kind with
  | abort n =>
    simp only [fire]
    split
    · next h running =>
      split_ifs with under
      · exact same.release running under
      · exact same
    · exact same
  | join client =>
    simp only [fire]
    split
    · next h _ =>
      split_ifs
      · exact ⟨pending, _, leave_running _ _ h client, rfl⟩
      · exact same
    · exact same

theorem Stuck.run_fired {ids : List ℕ} (stuck : s.Stuck) (ran : run step s (ids.map .fired) = some t) : t.Stuck := by
  induction ids generalizing s with
  | nil =>
    cases ran
    exact stuck
  | cons id ids ih =>
    obtain ⟨u, stepped, rest⟩ := Option.bind_eq_some_iff.mp ran
    exact ih (stuck.fired stepped) rest

theorem Stuck.not_recoverable (stuck : s.Stuck) : ¬ s.Recoverable := by
  intro recoverable
  obtain ⟨h, ids, t, _, ran, released, _⟩ := recoverable.names .camStart stuck.1
  rw [(stuck.run_fired ran).1] at released
  cases released

/-- Without a client every handler is under a deadline. -/
structure Calm (s : Controls) : Prop where
  noClient : s.agora = none
  pending : ∀ n, s.pending n = (s.running n).isSome
  busy : ∀ b, s.busy b = true → ∃ n h, s.running n = some h ∧ h.button = b
  owns : ∀ n h, s.running n = some h → h.button.control = n.lead
  /-- Only one of the two light actions is under way. -/
  light : s.running (.action .lightOn) = none ∨ s.running (.action .lightOff) = none
  armed : ∀ n h, s.running n = some h → ∃ id d, h.stage.timer? = some id ∧ s.timers.armed id = some (.abort n, d)

theorem calm_init : Calm init where
  noClient := rfl
  pending := fun _ => rfl
  busy := fun _ busy => by cases busy
  owns := fun _ _ is => by cases is
  light := .inl rfl
  armed := fun _ _ is => by cases is

/-- The `finally` of a handler releases its own button only, and the others keep their timers. -/
theorem Calm.release (calm : s.Calm) (running : s.running n = some h) {timers : Timers ControlTimer}
    (kept : ∀ m id d, m ≠ n → s.timers.armed id = some (.abort m, d) → timers.armed id = some (.abort m, d)) :
    Calm ({ s with timers := timers }.release n h) := by
  have others {m : Control} {k : Handler} (is : Function.update s.running n none m = some k) :
      m ≠ n ∧ s.running m = some k := by
    by_cases same : m = n
    · subst same
      rw [Function.update_self] at is
      cases is
    · exact ⟨same, by rwa [Function.update_of_ne same] at is⟩
  refine ⟨calm.noClient, fun m => ?_, fun b busy => ?_, fun m k is => ?_, ?_, fun m k is => ?_⟩
  · change Function.update s.pending n false m = (Function.update s.running n none m).isSome
    by_cases same : m = n
    · subst same
      rw [Function.update_self, Function.update_self, Option.isSome_none]
    · rw [Function.update_of_ne same, Function.update_of_ne same]
      exact calm.pending m
  · have busy : Function.update s.busy h.button false b = true := busy
    by_cases same : b = h.button
    · subst same
      rw [Function.update_self] at busy
      cases busy
    · rw [Function.update_of_ne same] at busy
      obtain ⟨m, k, is, rfl⟩ := calm.busy b busy
      refine ⟨m, k, (Function.update_of_ne ?_ _ _).trans is, rfl⟩
      rintro rfl
      cases running.symm.trans is
      exact same rfl
  · exact calm.owns m k (others is).2
  · refine calm.light.imp (fun off => ?_) fun off => ?_ <;>
    · change Function.update s.running n none _ = none
      rw [Function.update_apply]
      split
      · rfl
      · exact off
  · obtain ⟨ne, is⟩ := others is
    obtain ⟨id, d, under, armed⟩ := calm.armed m k is
    exact ⟨id, d, under, kept m id d ne armed⟩

/-- A handler starts or goes on under a deadline of its own. -/
theorem Calm.put (calm : s.Calm) {k : Handler} (noClient : t.agora = none)
    (pending : t.pending n = true ∧ ∀ m, m ≠ n → t.pending m = s.pending m)
    (busy : ∀ b, t.busy b = true → b = k.button ∨ s.busy b = true)
    (running : t.running = Function.update s.running n (some k)) (owns : k.button.control = n.lead)
    (button : ∀ h, s.running n = some h → h.button = k.button)
    (light : s.running n = none → n.light = true →
      s.running (.action .lightOn) = none ∧ s.running (.action .lightOff) = none)
    (armed : ∃ id d, k.stage.timer? = some id ∧ t.timers.armed id = some (.abort n, d))
    (kept : ∀ m id d, m ≠ n → s.timers.armed id = some (.abort m, d) → t.timers.armed id = some (.abort m, d)) :
    t.Calm := by
  have self : t.running n = some k := by rw [running, Function.update_self]
  have other {m : Control} (ne : m ≠ n) : t.running m = s.running m := by rw [running, Function.update_of_ne ne]
  refine ⟨noClient, fun m => ?_, fun b isBusy => ?_, fun m j is => ?_, ?_, fun m j is => ?_⟩
  · by_cases same : m = n
    · subst same
      rw [pending.1, self, Option.isSome_some]
    · rw [pending.2 m same, other same]
      exact calm.pending m
  · rcases busy b isBusy with rfl | before
    · exact ⟨n, k, self, rfl⟩
    · obtain ⟨m, j, is, rfl⟩ := calm.busy b before
      by_cases same : m = n
      · subst same
        exact ⟨m, k, self, (button j is).symm⟩
      · exact ⟨m, j, (other same).trans is, rfl⟩
  · by_cases same : m = n
    · subst same
      cases self.symm.trans is
      exact owns
    · exact calm.owns m j ((other same).symm.trans is)
  · rcases calm.light with off | off
    · by_cases same : n = .action .lightOn
      · subst same
        exact .inr ((other (by decide)).trans (light off rfl).2)
      · exact .inl ((other (Ne.symm same)).trans off)
    · by_cases same : n = .action .lightOff
      · subst same
        exact .inl ((other (by decide)).trans (light off rfl).1)
      · exact .inr ((other (Ne.symm same)).trans off)
  · by_cases same : m = n
    · subst same
      cases self.symm.trans is
      exact armed
    · obtain ⟨id, d, under, isArmed⟩ := calm.armed m j ((other same).symm.trans is)
      exact ⟨id, d, under, kept m id d same isArmed⟩

theorem kept_setTimeout {timers : Timers ControlTimer} {kind : ControlTimer} {delay : ℚ} (n m : Control) (id : ℕ)
    (d : ℚ) (_ : m ≠ n) (armed : timers.armed id = some (.abort m, d)) :
    (timers.setTimeout kind delay).armed id = some (.abort m, d) :=
  Timers.armed_setTimeout.mpr (.inr armed)

/-- The timer of one handler is not that of another. -/
theorem kept_clearTimeout {timers : Timers ControlTimer} {own : ℕ} {d' : ℚ}
    (is : timers.armed own = some (.abort n, d')) (m : Control) (id : ℕ) (d : ℚ) (ne : m ≠ n)
    (armed : timers.armed id = some (.abort m, d)) : (timers.clearTimeout own).armed id = some (.abort m, d) := by
  refine Timers.armed_clearTimeout.mpr ⟨?_, armed⟩
  rintro rfl
  cases is.symm.trans armed
  exact ne rfl

theorem Calm.request (calm : s.Calm) {button : Button} (free : s.pending n = false) (owns : button.control = n.lead)
    (light : n.light = true → s.running (.action .lightOn) = none ∧ s.running (.action .lightOff) = none) :
    (s.request n button).Calm := by
  have idle : s.running n = none := by
    have := calm.pending n
    rw [free] at this
    exact Option.isNone_iff_eq_none.mp (by rw [← Option.not_isSome, ← this]; rfl)
  refine calm.put (k := ⟨button, s.currentMower, .request s.timers.next⟩) calm.noClient ⟨?_, fun m ne => ?_⟩
    (fun b busy => ?_) rfl owns (fun h is => ?_) (fun _ => light)
    ⟨_, _, rfl, Timers.armed_setTimeout.mpr (.inl ⟨rfl, rfl, rfl⟩)⟩ (kept_setTimeout n)
  · exact Function.update_self ..
  · exact Function.update_of_ne ne _ _
  · have busy : Function.update s.busy button true b = true := busy
    by_cases same : b = button
    · exact .inl same
    · rw [Function.update_of_ne same] at busy
      exact .inr busy
  · cases idle.symm.trans is

theorem Calm.press (calm : s.Calm) {button : Button} (owns : button.control = n.lead) (notLight : n.light = false) :
    (s.press n button).Calm := by
  unfold Controls.press
  split_ifs with refused
  · exact calm
  · simp only [Bool.or_eq_true, not_or, Bool.not_eq_true] at refused
    refine calm.request refused.2 owns fun light => ?_
    rw [notLight] at light
    cases light

theorem Calm.idle (calm : s.Calm) (free : s.pending n = false) : s.running n = none := by
  rw [calm.pending n] at free
  exact Option.not_isSome_iff_eq_none.mp (Bool.eq_false_iff.mp free)

/-- A light action starts only if neither of them is under way. -/
theorem Calm.pressAction (calm : s.Calm) (a : Action) : (s.pressAction a).Calm := by
  unfold Controls.pressAction
  split_ifs with refused
  · exact calm
  · unfold runAction
    split_ifs with guard
    · exact calm
    · simp only [Bool.or_eq_true, not_or, Bool.not_eq_true] at guard
      refine calm.request guard.2 a.control_button fun light => ?_
      have isLight : a.button = .light := by
        rcases of_decide_eq_true light with is | is
        · cases is
          rfl
        · cases is
          rfl
      have free : s.pending (.action .lightOn) = false ∧ s.pending (.action .lightOff) = false := by
        simpa [isLight, isPending] using refused
      exact ⟨calm.idle free.1, calm.idle free.2⟩

/-- A token that has no client made ends the start. -/
theorem Calm.settle (calm : s.Calm) {button : Button} {target : Option String} {timer : ℕ}
    (running : s.running n = some ⟨button, target, .request timer⟩) (answer : Answer)
    (none_ : ¬ s.CreatesClient (.settled n answer)) :
    Calm ({ s with timers := s.timers.clearTimeout timer }.settle n ⟨button, target, .request timer⟩ answer) := by
  obtain ⟨id, d, under, armed⟩ := calm.armed n _ running
  cases under
  have released : Calm ({ s with timers := s.timers.clearTimeout timer }.release n ⟨button, target, .request timer⟩) :=
    calm.release running (kept_clearTimeout armed)
  simp only [Controls.settle]
  split
  · -- the status read of a reconnect has a deadline of its own
    have owns := calm.owns _ _ running
    refine calm.put (k := ⟨button, target, .polling _⟩) calm.noClient ⟨?_, fun _ _ => rfl⟩ (fun _ busy => .inr busy) rfl
      owns (fun h is => ?_) (fun idle => ?_)
      ⟨_, _, rfl, Timers.armed_setTimeout.mpr (.inl ⟨rfl, rfl, rfl⟩)⟩ fun m id d ne is => ?_
    · exact (calm.pending _).trans (by rw [running]; rfl)
    · cases running.symm.trans is
      rfl
    · cases running.symm.trans idle
    · exact Timers.armed_setTimeout.mpr (.inr (kept_clearTimeout armed m id d ne is))
  · next answer =>
    simp only [token]
    split_ifs with switched
    · exact released
    · cases answer with
      | missing => exact released
      | throws => exact released
      | created =>
        have same : target = s.currentMower := not_not.mp switched
        subst same
        exact absurd ⟨rfl, button, timer, running⟩ none_
  · exact released

/-- A timer that no handler is under may go. -/
theorem Calm.clear (calm : s.Calm) {id : ℕ} (free : ∀ n h, s.running n = some h → h.stage.timer? ≠ some id) :
    Calm { s with timers := s.timers.clearTimeout id } := by
  refine ⟨calm.noClient, calm.pending, calm.busy, calm.owns, calm.light, fun m k is => ?_⟩
  obtain ⟨own, d, under, armed⟩ := calm.armed m k is
  refine ⟨own, d, under, Timers.armed_clearTimeout.mpr ⟨?_, armed⟩⟩
  rintro rfl
  exact free m k is under

theorem Calm.fire (calm : s.Calm) {id : ℕ} {kind : ControlTimer} {d : ℚ} (armed : s.timers.armed id = some (kind, d)) :
    Calm ({ s with timers := s.timers.clearTimeout id }.fire (kind, id)) := by
  -- the handler that is under a timer is the one that the timer aborts
  have own {m : Control} {k : Handler} (is : s.running m = some k) (under : k.stage.timer? = some id) :
      kind = .abort m := by
    obtain ⟨id', d', under', armed'⟩ := calm.armed m k is
    cases under.symm.trans under'
    cases armed.symm.trans armed'
    rfl
  cases kind with
  | abort n =>
    simp only [Controls.fire]
    split
    · next h running =>
      split_ifs with under
      · exact calm.release running (kept_clearTimeout armed)
      · refine calm.clear fun m k is under' => ?_
        cases own is under'
        cases running.symm.trans is
        exact under under'
    · next none_ =>
      refine calm.clear fun m k is under => ?_
      cases own is under
      cases none_.symm.trans is
  | join client =>
    have cleared : Calm { s with timers := s.timers.clearTimeout id } :=
      calm.clear fun m k is under => by cases own is under
    simp only [Controls.fire]
    split
    · next h running =>
      split_ifs with joining
      · obtain ⟨id', d', under, _⟩ := calm.armed _ _ running
        rw [joining] at under
        cases under
      · exact cleared
    · exact cleared

theorem Calm.recoverable (calm : s.Calm) : s.Recoverable := by
  refine ⟨fun n pending => ?_, fun b busy => ?_⟩
  · rw [calm.pending n] at pending
    obtain ⟨h, running⟩ := Option.isSome_iff_exists.mp pending
    obtain ⟨id, d, under, armed⟩ := calm.armed n h running
    refine ⟨h, [id], { s with timers := s.timers.clearTimeout id }.release n h, running, ?_, Function.update_self ..,
      Function.update_self ..⟩
    have fires : s.step (.fired id) = some ({ s with timers := s.timers.clearTimeout id }.release n h) := by
      simp only [step, armed, Option.map_some, Controls.fire, running, under, if_true]
    rw [List.map_singleton, run, fires]
    rfl
  · obtain ⟨n, h, running, is⟩ := calm.busy b busy
    exact ⟨n, h, (calm.pending n).trans (by rw [running]; rfl), running, is⟩

theorem Calm.step (calm : s.Calm) (none_ : ¬ s.CreatesClient e) (stepped : s.step e = some t) : t.Calm := by
  -- a handler that has a client cannot be there
  have noTimer {n : Control} {button : Button} {target : Option String} {stage : Stage}
      (running : s.running n = some ⟨button, target, stage⟩) : stage.timer? ≠ none := by
    obtain ⟨id, _, under, _⟩ := calm.armed _ _ running
    rw [show stage.timer? = some id from under]
    exact Option.some_ne_none id
  cases e with
  | selectMower name =>
    cases stepped
    exact ⟨rfl, calm.pending, calm.busy, calm.owns, calm.light, calm.armed⟩
  | action a =>
    cases stepped
    exact calm.pressAction a
  | reconnect | camStart =>
    cases stepped
    exact calm.press rfl rfl
  | cutterMode mode =>
    cases stepped
    exact calm.press rfl rfl
  | camStop =>
    cases stepped
    simp only [pressCamStop, calm.noClient]
    split_ifs with pending client named
    · exact calm
    · cases client
    · refine calm.request (Bool.eq_false_iff.mpr pending) rfl fun light => ?_
      cases light
    · exact calm
  | settled n answer =>
    simp only [Controls.step] at stepped
    split at stepped
    · next running =>
      cases stepped
      exact calm.settle running answer none_
    · next running =>
      cases stepped
      obtain ⟨id, d, under, armed⟩ := calm.armed n _ running
      cases under
      exact calm.release running (kept_clearTimeout armed)
    · cases stepped
  | joined =>
    simp only [Controls.step] at stepped
    split at stepped
    · next running => exact absurd rfl (noTimer running)
    · cases stepped
  | joinFailed =>
    simp only [Controls.step] at stepped
    split at stepped
    · next running => exact absurd rfl (noTimer running)
    · cases stepped
  | left n =>
    simp only [Controls.step] at stepped
    split at stepped
    · next running => exact absurd rfl (noTimer running)
    · cases stepped
  | fired id =>
    obtain ⟨⟨kind, d⟩, armed, rfl⟩ := Option.map_eq_some_iff.mp stepped
    exact calm.fire armed

/-- A handler in `pending` has not come to its `finally`. -/
def Accounted (s : Controls) : Prop := ∀ n, s.pending n = (s.running n).isSome

theorem Accounted.start (accounted : s.Accounted) (n : Control) (button : Button) (stage : Stage) :
    (s.start n button stage).Accounted := by
  intro m
  change Function.update s.pending n true m =
    (Function.update s.running n (some ⟨button, s.currentMower, stage⟩) m).isSome
  by_cases same : m = n
  · subst same
    rw [Function.update_self, Function.update_self, Option.isSome_some]
  · rw [Function.update_of_ne same, Function.update_of_ne same]
    exact accounted m

theorem Accounted.goOn (accounted : s.Accounted) (running : s.running n = some h) (k : Handler) (stage : Stage) :
    (s.goOn n k stage).Accounted := by
  intro m
  change s.pending m = (Function.update s.running n (some { k with stage := stage }) m).isSome
  by_cases same : m = n
  · subst same
    rw [Function.update_self, accounted m, running, Option.isSome_some, Option.isSome_some]
  · rw [Function.update_of_ne same]
    exact accounted m

theorem Accounted.release (accounted : s.Accounted) (n : Control) (h : Handler) : (s.release n h).Accounted := by
  intro m
  change Function.update s.pending n false m = (Function.update s.running n none m).isSome
  by_cases same : m = n
  · subst same
    rw [Function.update_self, Function.update_self, Option.isSome_none]
  · rw [Function.update_of_ne same, Function.update_of_ne same]
    exact accounted m

theorem Accounted.press (accounted : s.Accounted) (n : Control) (button : Button) :
    (s.press n button).Accounted := by
  unfold Controls.press
  split_ifs
  · exact accounted
  · exact Accounted.start (s := { s with timers := _ }) accounted n button _

theorem Accounted.settle (accounted : s.Accounted) {k : Handler} (running : s.running n = some k) (answer : Answer) :
    (s.settle n k answer).Accounted := by
  unfold Controls.settle
  split
  · exact Accounted.goOn (s := { s with timers := _ }) accounted running _ _
  · unfold token
    split_ifs
    · exact accounted.release _ _
    · split
      · exact accounted.release _ _
      · exact accounted.release _ _
      · exact Accounted.goOn (s := { s with agora := _, clients := _, timers := _ }) accounted running _ _
  · exact accounted.release _ _

theorem Accounted.fire (accounted : s.Accounted) (timer : ControlTimer × ℕ) : (s.fire timer).Accounted := by
  unfold Controls.fire
  split
  · split
    · split_ifs
      · exact accounted.release _ _
      · exact accounted
    · exact accounted
  · split
    · next running =>
      split_ifs
      · exact Accounted.goOn (s := { s with agora := _ }) accounted running _ _
      · exact accounted
    · exact accounted

theorem accounted_step (accounted : s.Accounted) (stepped : s.step e = some t) : t.Accounted := by
  cases e with
  | selectMower name =>
    cases stepped
    exact accounted
  | action a =>
    cases stepped
    unfold pressAction runAction
    split_ifs
    · exact accounted
    · exact accounted
    · exact Accounted.start (s := { s with timers := _ }) accounted _ _ _
  | reconnect | cutterMode _ | camStart =>
    cases stepped
    exact accounted.press _ _
  | camStop =>
    cases stepped
    unfold pressCamStop
    split_ifs
    · exact accounted
    · exact Accounted.start (s := { s with agora := none }) accounted _ _ _
    · exact Accounted.start (s := { s with timers := _ }) accounted _ _ _
    · exact accounted
  | settled n answer =>
    simp only [Controls.step] at stepped
    split at stepped
    · next timer running =>
      cases stepped
      exact Accounted.settle (s := { s with timers := s.timers.clearTimeout timer }) accounted running answer
    · next timer _ =>
      cases stepped
      exact Accounted.release (s := { s with timers := s.timers.clearTimeout timer }) accounted _ _
    · cases stepped
  | joined =>
    simp only [Controls.step] at stepped
    split at stepped
    · next running =>
      cases stepped
      split_ifs
      · exact Accounted.goOn (s := { s with agora := _ }) accounted running _ _
      · exact accounted.release _ _
    · cases stepped
  | joinFailed =>
    simp only [Controls.step] at stepped
    split at stepped
    · next running =>
      cases stepped
      exact Accounted.goOn (s := { s with agora := _ }) accounted running _ _
    · cases stepped
  | left n =>
    simp only [Controls.step] at stepped
    split at stepped
    · next running =>
      split_ifs at stepped
      · cases stepped
        exact Accounted.goOn (s := { s with timers := _ }) accounted running _ _
      · cases stepped
        exact accounted.release _ _
    · cases stepped
  | fired id =>
    obtain ⟨armed, _, rfl⟩ := Option.map_eq_some_iff.mp stepped
    exact Accounted.fire (s := { s with timers := s.timers.clearTimeout id }) accounted _

/-- The handler that has a client made waits for it. -/
theorem stuck_of_creates (accounted : s.Accounted) (creates : s.CreatesClient e) (stepped : s.step e = some t) :
    t.Stuck := by
  obtain ⟨rfl, button, timer, running⟩ := creates
  simp only [Controls.step, running, Option.some.injEq] at stepped
  subst stepped
  simp only [Controls.settle, token, ne_eq, not_true_eq_false, if_false]
  refine ⟨(accounted .camStart).trans (by rw [running]; rfl), ⟨button, s.currentMower, .joining s.clients⟩, ?_, rfl⟩
  simp only [goOn, Function.update_self]

/-- Every pending control can be released by timers alone, throughout a run, exactly if the video library never
creates a client. -/
theorem recoverable_iff (ran : run step init es = some s) :
    Throughout step (fun _ s => s.Recoverable) init es ↔ Meets step (fun _ s e => ¬ s.CreatesClient e) init es := by
  constructor
  · intro always pre e inside u reached creates
    obtain ⟨t, after⟩ := run_of_prefix ran inside
    obtain ⟨u', reached', stepped⟩ := run_concat_iff.mp after
    cases reached.symm.trans reached'
    have accounted : u.Accounted :=
      run_invariant (I := fun _ s => Accounted s) (fun _ => rfl)
        (fun _ _ _ _ held stepped => accounted_step held stepped) reached
    exact (stuck_of_creates accounted creates stepped).not_recoverable (always _ inside t after)
  · intro meets pre inside u reached
    have keeps (es : List ControlEvent) (s : Controls) (e : ControlEvent) (t : Controls) (calm : Calm s)
        (none_ : ¬ s.CreatesClient e) (stepped : s.step e = some t) : Calm t := calm.step none_ stepped
    exact (run_invariant_of_meets (I := fun _ s => Calm s) calm_init keeps (meets.of_prefix inside) reached).recoverable

/-- A start of the camera whose client neither joins nor leaves. -/
def strandedStart : List ControlEvent := [.selectMower "Luba", .camStart, .settled .camStart (.token .created)]

theorem strandedStart_stuck :
    ∃ s, run step init strandedStart = some s ∧ s.pending .camStart = true ∧ ¬ s.Recoverable := by
  have after : (run step init strandedStart).map (fun s => (s.pending .camStart, s.running .camStart)) =
      some (true, some ⟨.camStart, some "Luba", .joining 0⟩) := by decide
  obtain ⟨s, ran, after⟩ := Option.map_eq_some_iff.mp after
  obtain ⟨pending, running⟩ := Prod.mk.inj after
  exact ⟨s, ran, pending, Stuck.not_recoverable ⟨pending, _, running, rfl⟩⟩

theorem not_always_recoverable : ¬ ∀ es s, run step init es = some s → s.Recoverable := by
  obtain ⟨s, ran, _, stranded⟩ := strandedStart_stuck
  exact fun always => stranded (always strandedStart s ran)

theorem strandedStart_creates : ¬ Meets step (fun _ s e => ¬ s.CreatesClient e) init strandedStart := by
  obtain ⟨s, ran, _, stranded⟩ := strandedStart_stuck
  exact fun meets => stranded (((recoverable_iff ran).mpr meets).last ran)

end Controls

end MammotionRc.Web
