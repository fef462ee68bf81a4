import MammotionRc.Machine.Table
import MammotionRc.Web.StatusPoll

/-! # The status poll neither dies nor multiplies

`statusTimer` names the only armed tick, and `statusInFlight` says whether a request is out. A tick that fires hands
over to the call that it awaits, and the call to the next tick, unless another mower is polled by then; the timer of
that mower is armed by what selected it.
-/

namespace MammotionRc.Web

open Machine

namespace StatusPage

variable {s t : StatusPage} {es : List StatusEvent} {e : StatusEvent}

/-- A `statusTick` for a mower is awaiting its poll. -/
def Awaits (s : StatusPage) (name : String) : Prop :=
  ∃ (i : ℕ) (x : StatusCall), s.calls[i]? = some x ∧ x.ticking = true ∧ x.name = name ∧ x.pc ≠ .resumed

/-- Only one call has a request out, and only while the lock is taken. -/
structure Locks (calls : List StatusCall) (inFlight : Bool) : Prop where
  single : ∀ (i j : ℕ) (x y : StatusCall), calls[i]? = some x → calls[j]? = some y → x.pc = .requesting →
    y.pc = .requesting → i = j
  locked : ∀ (i : ℕ) (x : StatusCall), calls[i]? = some x → x.pc = .requesting → inFlight = true

def Alive (s : StatusPage) : Prop :=
  ∀ name, s.statusMower = some name → name ≠ "" → s.hidden = false → s.statusTimer ≠ none ∨ s.Awaits name

/-- What holds between events. -/
structure Inv (s : StatusPage) : Prop where
  holds : s.timers.Holds (· = .tick) s.statusTimer
  locks : Locks s.calls s.statusInFlight
  alive : s.Alive

theorem inv_init : Inv init where
  holds := Timers.holds_empty _
  locks := ⟨fun _ _ _ _ found => (by cases found), fun _ _ found => (by cases found)⟩
  alive := fun _ polled => by cases polled

section Schedule

variable (s) (delay : ℚ)

theorem scheduleStatus_rest : (s.scheduleStatus delay).calls = s.calls ∧
    (s.scheduleStatus delay).statusInFlight = s.statusInFlight ∧
    (s.scheduleStatus delay).statusMower = s.statusMower ∧ (s.scheduleStatus delay).hidden = s.hidden ∧
    (s.scheduleStatus delay).panel = s.panel := by
  simp only [scheduleStatus]
  split_ifs <;> exact ⟨rfl, rfl, rfl, rfl, rfl⟩

theorem scheduleStatus_holds (holds : s.timers.Holds (· = .tick) s.statusTimer) :
    (s.scheduleStatus delay).timers.Holds (· = .tick) (s.scheduleStatus delay).statusTimer := by
  have cleared : s.clearStatusTimer.timers.Holds (· = .tick) none := holds.clearHeld
  simp only [scheduleStatus]
  split_ifs
  · exact cleared
  · exact cleared.setTimeout rfl

theorem scheduleStatus_alive : (s.scheduleStatus delay).Alive := by
  intro name polled ne visible
  obtain ⟨_, _, mower, hidden, _⟩ := scheduleStatus_rest s delay
  rw [mower] at polled
  rw [hidden] at visible
  have goes : (!s.clearStatusTimer.polling || s.clearStatusTimer.hidden) = false := by
    simp only [clearStatusTimer, polling, polled, visible]
    simp [ne]
  left
  rw [scheduleStatus, goes, if_neg Bool.false_ne_true]
  exact Option.some_ne_none _

/-- Arming the next tick needs nothing but the lock. -/
theorem Inv.scheduleStatus (holds : s.timers.Holds (· = .tick) s.statusTimer) (locks : Locks s.calls s.statusInFlight) :
    Inv (s.scheduleStatus delay) := by
  obtain ⟨calls, inFlight, _⟩ := scheduleStatus_rest s delay
  refine ⟨scheduleStatus_holds s delay holds, ?_, scheduleStatus_alive s delay⟩
  rw [calls, inFlight]
  exact locks

end Schedule

theorem pollStatus_rest (s : StatusPage) (name : String) (ticking : Bool) :
    (s.pollStatus name ticking).timers = s.timers ∧ (s.pollStatus name ticking).statusTimer = s.statusTimer ∧
      (s.pollStatus name ticking).statusMower = s.statusMower ∧ (s.pollStatus name ticking).hidden = s.hidden ∧
      (s.pollStatus name ticking).panel = s.panel := by
  unfold pollStatus
  split_ifs <;> exact ⟨rfl, rfl, rfl, rfl, rfl⟩

/-- The new call is not over, and the older ones keep their place. -/
theorem pollStatus_calls (s : StatusPage) (name : String) (ticking : Bool) :
    ∃ pc, pc ≠ .resumed ∧ (s.pollStatus name ticking).calls = s.calls ++ [⟨name, ticking, pc⟩] := by
  unfold pollStatus
  split_ifs
  · exact ⟨.returned, by decide, rfl⟩
  · exact ⟨.requesting, by decide, rfl⟩

theorem Locks.pollStatus (locks : Locks s.calls s.statusInFlight) (name : String) (ticking : Bool) :
    Locks (s.pollStatus name ticking).calls (s.pollStatus name ticking).statusInFlight := by
  unfold StatusPage.pollStatus
  split_ifs with refused
  · constructor
    · intro i j x y first second requesting requesting'
      rcases Table.of_concat first with first | ⟨_, rfl⟩
      · rcases Table.of_concat second with second | ⟨_, rfl⟩
        · exact locks.single i j x y first second requesting requesting'
        · cases requesting'
      · cases requesting
    · intro i x found requesting
      rcases Table.of_concat found with found | ⟨_, rfl⟩
      · exact locks.locked i x found requesting
      · cases requesting
  · have free : s.statusInFlight = false := by
      simp only [Bool.or_eq_true, not_or] at refused
      exact Bool.eq_false_iff.mpr refused.2
    -- the lock was free, so no older call has a request out
    have none_ (i : ℕ) (x : StatusCall) (found : s.calls[i]? = some x) : x.pc ≠ .requesting := by
      intro requesting
      have := locks.locked i x found requesting
      rw [free] at this
      cases this
    refine ⟨?_, fun _ _ _ _ => rfl⟩
    intro i j x y first second requesting requesting'
    rcases Table.of_concat first with first | ⟨rfl, _⟩
    · exact absurd requesting (none_ i x first)
    · rcases Table.of_concat second with second | ⟨rfl, _⟩
      · exact absurd requesting' (none_ j y second)
      · rfl

theorem Awaits.pollStatus {polled : String} (awaits : s.Awaits polled) (name : String) (ticking : Bool) :
    (s.pollStatus name ticking).Awaits polled := by
  obtain ⟨i, x, found, rest⟩ := awaits
  obtain ⟨pc, _, calls⟩ := pollStatus_calls s name ticking
  refine ⟨i, x, ?_, rest⟩
  rw [calls]
  exact Table.concat found _

theorem Inv.pollStatus (inv : Inv s) (name : String) (ticking : Bool) : Inv (s.pollStatus name ticking) := by
  obtain ⟨timers, statusTimer, mower, hidden, _⟩ := pollStatus_rest s name ticking
  refine ⟨?_, inv.locks.pollStatus name ticking, fun polled is ne visible => ?_⟩
  · rw [timers, statusTimer]
    exact inv.holds
  · rw [mower] at is
    rw [hidden] at visible
    rw [statusTimer]
    exact (inv.alive polled is ne visible).imp_right fun awaits => awaits.pollStatus name ticking

/-- The tick that fired is taken over by the call that it awaits. -/
theorem Inv.statusTick (holds : s.timers.Holds (· = .tick) none) (locks : Locks s.calls s.statusInFlight) :
    Inv s.statusTick := by
  simp only [StatusPage.statusTick]
  split
  · next name is =>
    split_ifs with empty
    · refine ⟨holds, locks, fun polled same ne => absurd empty ?_⟩
      cases is.symm.trans same
      exact ne
    · obtain ⟨timers, statusTimer, mower, _⟩ := pollStatus_rest { s with statusTimer := none } name true
      refine ⟨?_, ?_, fun polled same ne _ => .inr ?_⟩
      · rw [timers, statusTimer]
        exact holds
      · exact Locks.pollStatus (s := { s with statusTimer := none }) locks name true
      · rw [mower] at same
        cases is.symm.trans same
        obtain ⟨pc, going, calls⟩ := pollStatus_calls { s with statusTimer := none } name true
        exact ⟨s.calls.length, ⟨name, true, pc⟩, by rw [calls]; exact List.getElem?_concat_length, rfl, rfl, going⟩
  · next none_ =>
    refine ⟨holds, locks, fun polled same => ?_⟩
    cases none_.symm.trans same

theorem Inv.repoll (inv : Inv s) (target : String) (delays : List ℚ) : Inv (s.repoll target delays) := by
  refine ⟨?_, inv.locks, inv.alive⟩
  have holds := inv.holds
  unfold StatusPage.repoll
  generalize s.timers = timers at holds
  induction delays generalizing timers with
  | nil => exact holds
  | cons delay delays ih =>
    refine ih _ (holds.setTimeout_of_not ?_)
    rintro ⟨⟩

/-- A call that settles gives the lock back. -/
theorem Locks.settle {calls : List StatusCall} {inFlight : Bool} {i : ℕ} {x y : StatusCall}
    (locks : Locks calls inFlight) (found : calls[i]? = some x) (requesting : x.pc = .requesting)
    (over_ : y.pc ≠ .requesting) : Locks (calls.set i y) false := by
  have none_ (j : ℕ) (z : StatusCall) (at_ : (calls.set i y)[j]? = some z) : z.pc ≠ .requesting := by
    rcases Table.of_set at_ with ⟨_, rfl⟩ | ⟨ne, before⟩
    · exact over_
    · exact fun also => ne (locks.single i j x z found before requesting also)
  exact ⟨fun i' _ x' _ at_ _ is _ => absurd is (none_ i' x' at_), fun i' x' at_ is => absurd is (none_ i' x' at_)⟩

/-- Replacing a call that has no request out by one that has none. -/
theorem Locks.set {calls : List StatusCall} {inFlight : Bool} {i : ℕ} {y : StatusCall} (locks : Locks calls inFlight)
    (over_ : y.pc ≠ .requesting) : Locks (calls.set i y) inFlight := by
  constructor
  · intro j k x z first second requesting requesting'
    rcases Table.of_set first with ⟨_, rfl⟩ | ⟨_, first⟩
    · exact absurd requesting over_
    · rcases Table.of_set second with ⟨_, rfl⟩ | ⟨_, second⟩
      · exact absurd requesting' over_
      · exact locks.single j k x z first second requesting requesting'
  · intro j x found requesting
    rcases Table.of_set found with ⟨_, rfl⟩ | ⟨_, found⟩
    · exact absurd requesting over_
    · exact locks.locked j x found requesting

theorem settle_rest (s : StatusPage) (i : ℕ) (x : StatusCall) (reply : Option JsValue) :
    (s.settle i x reply).timers = s.timers ∧ (s.settle i x reply).statusTimer = s.statusTimer ∧
      (s.settle i x reply).statusMower = s.statusMower ∧ (s.settle i x reply).hidden = s.hidden ∧
      (s.settle i x reply).statusInFlight = false ∧
      (s.settle i x reply).calls = s.calls.set i { x with pc := .returned } := by
  simp only [settle]
  split
  · split_ifs <;> exact ⟨rfl, rfl, rfl, rfl, rfl, rfl⟩
  · exact ⟨rfl, rfl, rfl, rfl, rfl, rfl⟩

theorem Inv.settle (inv : Inv s) {i : ℕ} {x : StatusCall} (found : s.calls[i]? = some x)
    (requesting : x.pc = .requesting) (reply : Option JsValue) : Inv (s.settle i x reply) := by
  obtain ⟨timers, statusTimer, mower, hidden, inFlight, calls⟩ := settle_rest s i x reply
  refine ⟨?_, ?_, fun polled is ne visible => ?_⟩
  · rw [timers, statusTimer]
    exact inv.holds
  · rw [inFlight, calls]
    exact inv.locks.settle found requesting (by rintro ⟨⟩)
  · rw [mower] at is
    rw [hidden] at visible
    rw [statusTimer]
    refine (inv.alive polled is ne visible).imp_right fun awaits => ?_
    obtain ⟨j, y, at_, ticking, name, going⟩ := awaits
    rw [Awaits, calls]
    by_cases same : i = j
    · subst same
      cases found.symm.trans at_
      exact ⟨i, _, Table.set_self found _, ticking, name, by rintro ⟨⟩⟩
    · exact ⟨j, y, Table.set_of_ne at_ same _, ticking, name, going⟩

/-- A tick whose mower is no longer polled ends, and the tick of the mower that is goes on. -/
theorem Inv.resumed (inv : Inv s) {i : ℕ} {name : String} (found : s.calls[i]? = some ⟨name, true, .returned⟩) :
    Inv (if s.statusMower = some name then
        { s with calls := s.calls.set i ⟨name, true, .resumed⟩ }.scheduleStatus STATUS_MS
      else { s with calls := s.calls.set i ⟨name, true, .resumed⟩ }) := by
  have locks : Locks (s.calls.set i ⟨name, true, .resumed⟩) s.statusInFlight := inv.locks.set (by rintro ⟨⟩)
  split_ifs with same
  · exact Inv.scheduleStatus { s with calls := s.calls.set i ⟨name, true, .resumed⟩ } STATUS_MS inv.holds locks
  · refine ⟨inv.holds, locks, fun polled is ne visible => ?_⟩
    refine (inv.alive polled is ne visible).imp_right fun awaits => ?_
    obtain ⟨j, y, at_, ticking, rfl, going⟩ := awaits
    refine ⟨j, y, Table.set_of_ne at_ ?_ _, ticking, rfl, going⟩
    rintro rfl
    cases found.symm.trans at_
    exact same is

theorem Inv.step (inv : Inv s) (stepped : s.step e = some t) : Inv t := by
  cases e with
  | selectMower name =>
    cases stepped
    exact Inv.scheduleStatus
      { s with selectGen := s.selectGen + 1, currentMower := some name, statusMower := some name } 0 inv.holds inv.locks
  | startStatusPolling name =>
    cases stepped
    exact Inv.scheduleStatus { s with statusMower := some name } 0 inv.holds inv.locks
  | stopStatusPolling =>
    cases stepped
    refine ⟨inv.holds.clearHeld, inv.locks, fun _ polled => ?_⟩
    cases polled
  | visibilitychange hidden =>
    cases stepped
    cases hidden with
    | true =>
      refine ⟨inv.holds.clearHeld, inv.locks, fun _ _ _ visible => ?_⟩
      cases visible
    | false => exact Inv.scheduleStatus { s with hidden := false } 0 inv.holds inv.locks
  | shown =>
    cases stepped
    exact Inv.scheduleStatus s 0 inv.holds inv.locks
  | fired id =>
    simp only [StatusPage.step] at stepped
    split at stepped
    · next armed =>
      cases stepped
      refine Inv.statusTick (s := { s with timers := s.timers.clearTimeout id }) ?_ inv.locks
      have held := inv.holds.only id _ _ armed rfl
      have cleared := inv.holds.clearHeld
      rw [held] at cleared
      exact cleared
    · next target _ armed =>
      cases stepped
      have kept : Inv { s with timers := s.timers.clearTimeout id } := by
        refine ⟨inv.holds.clearTimeout_of_not fun c d armed' => ?_, inv.locks, inv.alive⟩
        cases armed.symm.trans armed'
        rintro ⟨⟩
      split_ifs
      · exact kept.pollStatus target false
      · exact kept
    · cases stepped
  | repoll target delays =>
    cases stepped
    exact inv.repoll target delays
  | pollStatus name =>
    cases stepped
    exact inv.pollStatus name false
  | settled i reply =>
    simp only [StatusPage.step] at stepped
    split at stepped <;> try contradiction
    next found =>
    cases stepped
    exact inv.settle found rfl reply
  | resumed i =>
    simp only [StatusPage.step] at stepped
    split at stepped <;> try contradiction
    next found =>
    cases stepped
    exact inv.resumed found

theorem scheduleStatus_panel (s : StatusPage) (delay : ℚ) : (s.scheduleStatus delay).panel = s.panel :=
  (scheduleStatus_rest s delay).2.2.2.2

theorem pollStatus_panel (s : StatusPage) (name : String) (ticking : Bool) :
    (s.pollStatus name ticking).panel = s.panel := (pollStatus_rest s name ticking).2.2.2.2

theorem statusTick_panel (s : StatusPage) : s.statusTick.panel = s.panel := by
  simp only [statusTick]
  split
  · split_ifs
    · rfl
    · exact pollStatus_panel _ _ _
  · rfl

/-- Only the reply for the selected mower is painted. -/
theorem panel_of_step (stepped : s.step e = some t) : t.panel = s.panel ∨
    ∃ (i : ℕ) (v : JsValue) (x : StatusCall), e = .settled i (some v) ∧ s.calls[i]? = some x ∧
      s.currentMower = some x.name ∧ t.panel = s.panel.paint x.name s.selectGen v := by
  cases e with
  | selectMower name | startStatusPolling name | shown =>
    cases stepped
    exact .inl (scheduleStatus_panel _ _)
  | stopStatusPolling | repoll _ _ =>
    cases stepped
    exact .inl rfl
  | visibilitychange hidden =>
    cases stepped
    cases hidden with
    | true => exact .inl rfl
    | false => exact .inl (scheduleStatus_panel _ _)
  | fired id =>
    left
    simp only [StatusPage.step] at stepped
    split at stepped
    · cases stepped
      exact statusTick_panel _
    · cases stepped
      split_ifs
      · exact pollStatus_panel _ _ _
      · rfl
    · cases stepped
  | pollStatus name =>
    cases stepped
    exact .inl (pollStatus_panel _ _ _)
  | settled i reply =>
    simp only [StatusPage.step] at stepped
    split at stepped <;> try contradiction
    next name ticking found =>
    cases stepped
    simp only [StatusPage.settle]
    split
    · next v =>
      split_ifs with paints
      · exact .inr ⟨i, v, _, rfl, found, of_decide_eq_true (Bool.and_eq_true_iff.mp paints).2, rfl⟩
      · exact .inl rfl
    · exact .inl rfl
  | resumed i =>
    simp only [StatusPage.step] at stepped
    split at stepped <;> try contradiction
    cases stepped
    split_ifs
    · exact .inl (scheduleStatus_panel _ _)
    · exact .inl rfl

theorem inv_of_run (ran : run step init es = some s) : Inv s :=
  run_invariant (I := fun _ s => Inv s) inv_init (fun _ _ _ _ inv stepped => inv.step stepped) ran

/-- One status timer at most, a timer or a tick for the mower that is polled, one request at most, and only the status
of the selected mower on the page. -/
theorem poll_alive (ran : run step init es = some s) :
    (∀ id id' d d', s.timers.armed id = some (.tick, d) → s.timers.armed id' = some (.tick, d') → id = id') ∧
    (∀ name, s.statusMower = some name → name ≠ "" → s.hidden = false →
      (∃ id d, s.timers.armed id = some (.tick, d)) ∨ s.Awaits name) ∧
    (∀ (i j : ℕ) (x y : StatusCall), s.calls[i]? = some x → s.calls[j]? = some y → x.pc = .requesting →
      y.pc = .requesting → i = j) ∧
    ∀ e t, s.step e = some t → t.panel ≠ s.panel → ∃ (i : ℕ) (v : JsValue) (x : StatusCall),
      e = .settled i (some v) ∧ s.calls[i]? = some x ∧ s.currentMower = some x.name := by
  have inv := inv_of_run ran
  refine ⟨fun id id' d d' first second => inv.holds.unique first rfl second rfl, fun name polled ne visible => ?_,
    inv.locks.single, fun e t stepped painted => ?_⟩
  · rcases inv.alive name polled ne visible with armed | awaits
    · obtain ⟨id, held⟩ := Option.ne_none_iff_exists'.mp armed
      obtain ⟨_, d, armed, rfl⟩ := inv.holds.armed id held
      exact .inl ⟨id, d, armed⟩
    · exact .inr awaits
  · rcases panel_of_step stepped with same | ⟨i, v, x, is, found, selected, _⟩
    · exact absurd same painted
    · exact ⟨i, v, x, is, found, selected⟩

/-- The page is shown again, and another mower selected, while the poll of the first is out. -/
def switched : List StatusEvent :=
  [.selectMower "Luba", .fired 0, .visibilitychange true, .selectMower "Yuka", .visibilitychange false, .settled 0 none,
    .resumed 0]

theorem switched_alive : ∃ s, run step init switched = some s ∧ s.statusMower = some "Yuka" ∧
    ((∃ id d, s.timers.armed id = some (.tick, d)) ∨ s.Awaits "Yuka") := by
  have after : (run step init switched).map (fun s => (s.statusMower, s.hidden)) = some (some "Yuka", false) := by
    decide
  obtain ⟨s, ran, after⟩ := Option.map_eq_some_iff.mp after
  obtain ⟨mower, visible⟩ := Prod.mk.inj after
  exact ⟨s, ran, mower, (poll_alive ran).2.1 "Yuka" mower (by decide) visible⟩

end StatusPage

end MammotionRc.Web
