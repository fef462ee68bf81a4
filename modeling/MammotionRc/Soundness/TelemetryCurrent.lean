import MammotionRc.Soundness.PollAlive

/-! # Whose telemetry is on screen

A reply that is painted is for the selected mower, so the chips go wrong only where `selectMower` leaves them as they
are, and where the battery chip is shown again without a new gauge.
-/

namespace MammotionRc.Web

open Machine

/-- Something on screen is from a reply for the mower that came since its selection. -/
def IsFrom {α : Type} (x : Option (Shown α)) (mower : Option String) (gen : ℕ) : Prop :=
  ∀ v, x = some v → some v.mower = mower ∧ v.selection = gen

namespace Panel

variable {p : Panel} {mower : Option String} {name : String} {gen : ℕ} {s : JsValue}

/-- Each chip is blank or shows the mower. -/
structure Current (p : Panel) (mower : Option String) (gen : ℕ) : Prop where
  battery : p.batteryHidden = false → IsFrom p.batteryPct mower gen ∧ IsFrom p.batteryFill mower gen
  status : IsFrom p.mowerStatus mower gen
  error : IsFrom p.mowerError mower gen
  blades : IsFrom p.bladeChip mower gen
  rpm : IsFrom p.rpmChip mower gen
  progress : IsFrom p.progressChip mower gen

/-- No chip shows anything. -/
structure Blank (p : Panel) : Prop where
  battery : p.batteryHidden = false → p.batteryPct = none ∧ p.batteryFill = none
  status : p.mowerStatus = none
  error : p.mowerError = none
  blades : p.bladeChip = none
  rpm : p.rpmChip = none
  progress : p.progressChip = none

end Panel

theorem isFrom_none {α : Type} (mower : Option String) (gen : ℕ) : IsFrom (α := α) none mower gen :=
  fun _ is => by cases is

theorem isFrom_some {α : Type} (value : α) (name : String) (gen : ℕ) :
    IsFrom (some ⟨value, name, gen⟩) (some name) gen := by
  intro v is
  cases is
  exact ⟨rfl, rfl⟩

/-- What is from one selection is not from the next one. -/
theorem IsFrom.next_iff {α : Type} {x : Option (Shown α)} {mower mower' : Option String} {gen : ℕ}
    (before : IsFrom x mower gen) : IsFrom x mower' (gen + 1) ↔ x = none := by
  constructor
  · intro after
    cases x with
    | none => rfl
    | some v =>
      have := (before v rfl).2.symm.trans (after v rfl).2
      omega
  · rintro rfl
    exact isFrom_none mower' (gen + 1)

namespace Panel

variable {p : Panel} {mower : Option String} {name : String} {gen : ℕ} {s : JsValue}

theorem current_blank (mower : Option String) (gen : ℕ) : blank.Current mower gen :=
  ⟨fun shown => (by cases shown), isFrom_none _ _, isFrom_none _ _, isFrom_none _ _, isFrom_none _ _, isFrom_none _ _⟩

/-- A selection leaves the chips, so they are about the new mower only if there is nothing on them. -/
theorem Current.next_iff (before : p.Current mower gen) (other : Option String) :
    p.Current other (gen + 1) ↔ p.Blank := by
  constructor
  · intro after
    refine ⟨fun shown => ?_, before.status.next_iff.mp after.status, before.error.next_iff.mp after.error,
      before.blades.next_iff.mp after.blades, before.rpm.next_iff.mp after.rpm,
      before.progress.next_iff.mp after.progress⟩
    exact ⟨(before.battery shown).1.next_iff.mp (after.battery shown).1,
      (before.battery shown).2.next_iff.mp (after.battery shown).2⟩
  · intro none_
    refine ⟨fun shown => ?_, before.status.next_iff.mpr none_.status, before.error.next_iff.mpr none_.error,
      before.blades.next_iff.mpr none_.blades, before.rpm.next_iff.mpr none_.rpm,
      before.progress.next_iff.mpr none_.progress⟩
    exact ⟨(before.battery shown).1.next_iff.mpr (none_.battery shown).1,
      (before.battery shown).2.next_iff.mpr (none_.battery shown).2⟩

/-- A hidden battery chip has no text. -/
def Emptied (p : Panel) : Prop := p.batteryHidden = true → p.batteryPct = none

/-- The reply shows a battery that has no text. -/
def BatteryFails (s : JsValue) : Prop :=
  live s = true ∧ ∃ pct, s.get? "battery" = some pct ∧ pct ≠ .null ∧ pct.hasText = false

/-- The battery chip comes back without a new gauge, or it is new, or it is hidden. -/
theorem setBattery_current (current : p.Current (some name) gen) (empty : p.Emptied)
    (pct charging : Option JsValue)
    (gauge : ∀ v, pct = some v → v ≠ .null → v.hasText = false → IsFrom p.batteryFill (some name) gen) :
    (p.setBattery name gen pct charging).panel.Current (some name) gen := by
  obtain ⟨battery, status, error, blades, rpm, progress⟩ := current
  unfold setBattery
  split
  · exact ⟨fun shown => (by cases shown), status, error, blades, rpm, progress⟩
  · exact ⟨fun shown => (by cases shown), status, error, blades, rpm, progress⟩
  · next v ne =>
    split_ifs with text
    · exact ⟨fun _ => ⟨isFrom_some _ name gen, isFrom_some _ name gen⟩, status, error, blades, rpm, progress⟩
    · refine ⟨fun _ => ⟨?_, ?_⟩, status, error, blades, rpm, progress⟩
      · cases hidden : p.batteryHidden with
        | true =>
          intro v is
          cases (empty hidden).symm.trans is
        | false => exact (battery hidden).1
      · exact gauge v rfl (fun null => ne null) (Bool.eq_false_iff.mpr text)

theorem chipText_isFrom (name : String) (gen : ℕ) (v : Option JsValue) :
    IsFrom (chipText name gen v) (some name) gen := by
  unfold chipText
  split_ifs
  · cases v with
    | none => exact isFrom_none _ _
    | some v => exact isFrom_some v name gen
  · exact isFrom_none _ _

theorem setMowerState_current (current : p.Current (some name) gen) (label error : Option JsValue) :
    (p.setMowerState name gen label error).panel.Current (some name) gen := by
  obtain ⟨battery, status, fault, blades, rpm, progress⟩ := current
  simp only [setMowerState]
  split_ifs
  · exact ⟨battery, status, fault, blades, rpm, progress⟩
  · exact ⟨battery, chipText_isFrom name gen label, fault, blades, rpm, progress⟩
  · exact ⟨battery, chipText_isFrom name gen label, chipText_isFrom name gen error, blades, rpm, progress⟩

theorem setLimits_current (current : p.Current (some name) gen) (s : JsValue) :
    (p.setLimits name s).panel.Current (some name) gen := by
  obtain ⟨battery, status, fault, blades, rpm, progress⟩ := current
  simp only [setLimits]
  split_ifs <;> exact ⟨battery, status, fault, blades, rpm, progress⟩

theorem map_isFrom {α : Type} (x : Option α) (name : String) (gen : ℕ) :
    IsFrom (x.map fun v => (⟨v, name, gen⟩ : Shown α)) (some name) gen := by
  cases x with
  | none => exact isFrom_none _ _
  | some v => exact isFrom_some v name gen

/-- The chips of the blades, their speed and the job. -/
theorem chips_current (current : p.Current (some name) gen) (on rpm pct : Option JsValue) :
    (((p.setBladeChip name gen on).setRpmChip name gen rpm).setProgressChip name gen pct).Current (some name) gen := by
  obtain ⟨battery, status, fault, _, _, _⟩ := current
  refine ⟨battery, status, fault, map_isFrom _ name gen, ?_, ?_⟩
  · simp only [setProgressChip, setRpmChip]
    split_ifs
    · exact map_isFrom _ name gen
    · exact isFrom_none _ _
  · simp only [setProgressChip]
    split_ifs
    · exact map_isFrom _ name gen
    · exact isFrom_none _ _

/-- What every write keeps holds after the last one that did not raise. -/
theorem andThen_keeps {Q : Panel → Prop} {painted : Painted} {next : Panel → Painted} (first : Q painted.panel)
    (then_ : ∀ p, Q p → Q (next p).panel) : Q (painted.andThen next).panel := by
  unfold Painted.andThen
  split_ifs
  · exact first
  · exact then_ _ first

theorem andThen_raised {painted : Painted} (raised : painted.raised = true) (next : Panel → Painted) :
    painted.andThen next = painted := by
  rw [Painted.andThen, if_pos raised]

/-- What setting the battery establishes and the other writes keep holds after painting. -/
theorem paint_keeps {Q : Panel → Prop} (s : JsValue)
    (battery : Q (p.setBattery name gen (if live s then s.get? "battery" else some .null) (s.get? "charging")).panel)
    (state : ∀ p label error, Q p → Q (setMowerState p name gen label error).panel)
    (limits : ∀ p, Q p → Q (setLimits p name s).panel)
    (chips : ∀ p on rpm pct, Q p →
      Q (((setBladeChip p name gen on).setRpmChip name gen rpm).setProgressChip name gen pct)) :
    Q (p.paint name gen s) := by
  unfold paint
  refine andThen_keeps (Q := Q) (andThen_keeps (Q := Q) (andThen_keeps (Q := Q) (andThen_keeps (Q := Q) battery ?_) ?_)
    ?_) ?_
  · exact fun p held => state p _ _ held
  · exact fun p held => held
  · exact limits
  · exact fun p held => chips p _ _ _ held

/-- A reply is about the mower, unless it brings back the battery chip with an old gauge. -/
theorem paint_current_iff (current : p.Current (some name) gen)
    (empty : p.Emptied) (s : JsValue) :
    (p.paint name gen s).Current (some name) gen ↔ (BatteryFails s → IsFrom p.batteryFill (some name) gen) := by
  constructor
  · rintro after ⟨connected, v, battery, ne, fails⟩
    have raises : p.setBattery name gen (s.get? "battery") (s.get? "charging") =
        ⟨{ p with batteryHidden := false }, true⟩ := by
      rw [battery, setBattery]
      · rw [fails, if_neg Bool.false_ne_true]
      · rintro rfl
        exact ne rfl
    have all : p.paint name gen s = { p with batteryHidden := false } := by
      simp only [paint, connected, if_true, raises]
      rw [andThen_raised rfl, andThen_raised rfl, andThen_raised rfl, andThen_raised rfl]
    rw [all] at after
    exact (after.battery rfl).2
  · intro gauge
    refine paint_keeps (Q := fun p => p.Current (some name) gen) s ?_
      (fun p label error current => setMowerState_current current label error)
      (fun p current => setLimits_current current s) (fun p on rpm pct current => chips_current current on rpm pct)
    refine setBattery_current current empty _ _ fun v is ne fails => gauge ?_
    split at is
    · next connected => exact ⟨connected, v, is, ne, fails⟩
    · cases is
      exact absurd rfl ne

theorem paint_emptied (s : JsValue) : (p.paint name gen s).Emptied := by
  refine paint_keeps s ?_ ?_ ?_ fun p on rpm pct emptied => emptied
  · unfold setBattery
    split
    · exact fun _ => rfl
    · exact fun _ => rfl
    · split_ifs
      · rintro ⟨⟩
      · rintro ⟨⟩
  · intro p label error emptied
    simp only [setMowerState]
    split_ifs <;> exact emptied
  · intro p emptied
    simp only [setLimits]
    split_ifs <;> exact emptied

end Panel

namespace StatusPage

variable {s t : StatusPage} {es : List StatusEvent} {e : StatusEvent}

/-- The telemetry on screen is that of the selected mower. -/
def Current (s : StatusPage) : Prop := s.panel.Current s.currentMower s.selectGen

/-- A mower is selected on a blank panel, and no reply brings back the battery chip with the gauge of an earlier
selection. -/
def Clean (s : StatusPage) : StatusEvent → Prop
  | .selectMower _ => s.panel.Blank
  | .settled i (some v) => ∀ x, s.calls[i]? = some x → s.currentMower = some x.name → Panel.BatteryFails v →
      IsFrom s.panel.batteryFill s.currentMower s.selectGen
  | _ => True

theorem selectMower_selected (s : StatusPage) (name : String) :
    (s.selectMower name).currentMower = some name ∧ (s.selectMower name).selectGen = s.selectGen + 1 ∧
      (s.selectMower name).panel = s.panel := by
  simp only [selectMower, startStatusPolling, scheduleStatus]
  split_ifs <;> exact ⟨rfl, rfl, rfl⟩

theorem scheduleStatus_selected (s : StatusPage) (delay : ℚ) :
    (s.scheduleStatus delay).currentMower = s.currentMower ∧ (s.scheduleStatus delay).selectGen = s.selectGen := by
  simp only [scheduleStatus]
  split_ifs <;> exact ⟨rfl, rfl⟩

theorem pollStatus_selected (s : StatusPage) (name : String) (ticking : Bool) :
    (s.pollStatus name ticking).currentMower = s.currentMower ∧
      (s.pollStatus name ticking).selectGen = s.selectGen := by
  simp only [pollStatus]
  split_ifs <;> exact ⟨rfl, rfl⟩

theorem statusTick_selected (s : StatusPage) :
    s.statusTick.currentMower = s.currentMower ∧ s.statusTick.selectGen = s.selectGen := by
  simp only [statusTick]
  split
  · split_ifs
    · exact ⟨rfl, rfl⟩
    · exact pollStatus_selected _ _ _
  · exact ⟨rfl, rfl⟩

theorem settle_selected (s : StatusPage) (i : ℕ) (x : StatusCall) (reply : Option JsValue) :
    (s.settle i x reply).currentMower = s.currentMower ∧ (s.settle i x reply).selectGen = s.selectGen := by
  simp only [settle]
  split
  · split_ifs <;> exact ⟨rfl, rfl⟩
  · exact ⟨rfl, rfl⟩

/-- Only a selection changes whose telemetry belongs on the screen. -/
theorem selected_of_step (stepped : s.step e = some t) :
    (t.currentMower = s.currentMower ∧ t.selectGen = s.selectGen) ∨ ∃ name, e = .selectMower name := by
  cases e with
  | selectMower name => exact .inr ⟨name, rfl⟩
  | startStatusPolling name | shown =>
    cases stepped
    exact .inl (scheduleStatus_selected _ _)
  | stopStatusPolling | repoll _ _ =>
    cases stepped
    exact .inl ⟨rfl, rfl⟩
  | visibilitychange hidden =>
    cases stepped
    cases hidden with
    | true => exact .inl ⟨rfl, rfl⟩
    | false => exact .inl (scheduleStatus_selected _ _)
  | fired id =>
    left
    simp only [StatusPage.step] at stepped
    split at stepped
    · cases stepped
      exact statusTick_selected _
    · cases stepped
      split_ifs
      · exact pollStatus_selected _ _ _
      · exact ⟨rfl, rfl⟩
    · cases stepped
  | pollStatus name =>
    cases stepped
    exact .inl (pollStatus_selected _ _ _)
  | settled i reply =>
    simp only [StatusPage.step] at stepped
    split at stepped <;> try contradiction
    cases stepped
    exact .inl (settle_selected _ _ _ _)
  | resumed i =>
    simp only [StatusPage.step] at stepped
    split at stepped <;> try contradiction
    cases stepped
    split_ifs
    · exact .inl (scheduleStatus_selected _ _)
    · exact .inl ⟨rfl, rfl⟩

theorem emptied_step (emptied : s.panel.Emptied) (stepped : s.step e = some t) : t.panel.Emptied := by
  rcases panel_of_step stepped with same | ⟨_, v, _, _, _, _, painted⟩
  · rw [same]
    exact emptied
  · rw [painted]
    exact Panel.paint_emptied v

theorem truthy_of_batteryFails {v : JsValue} (fails : Panel.BatteryFails v) : JsValue.truthy (some v) = true := by
  obtain ⟨_, pct, battery, _⟩ := fails
  cases v with
  | obj fields => rfl
  | null | bool _ | num _ | infinite _ | str _ | arr _ => cases battery

/-- A step keeps the screen about the selected mower exactly if it is clean. -/
theorem current_step_iff (emptied : s.panel.Emptied) (current : s.Current) (stepped : s.step e = some t) :
    t.Current ↔ s.Clean e := by
  -- nothing but a selection and a reply has to be clean
  have others (free : s.Clean e) (noSelection : ∀ name, e ≠ .selectMower name)
      (noReply : ∀ i reply, e ≠ .settled i reply) : t.Current ↔ s.Clean e := by
    refine ⟨fun _ => free, fun _ => ?_⟩
    rcases selected_of_step stepped with ⟨mower, gen⟩ | ⟨name, is⟩
    · rcases panel_of_step stepped with same | ⟨i, v, _, is, _⟩
      · rw [Current, mower, gen, same]
        exact current
      · exact absurd is (noReply i (some v))
    · exact absurd is (noSelection name)
  cases e with
  | selectMower name =>
    cases stepped
    obtain ⟨mower, gen, panel⟩ := selectMower_selected s name
    rw [Current, mower, gen, panel]
    exact current.next_iff (some name)
  | settled i reply =>
    simp only [StatusPage.step] at stepped
    split at stepped <;> try contradiction
    next name ticking found =>
    cases stepped
    cases reply with
    | none => exact ⟨fun _ => trivial, fun _ => current⟩
    | some v =>
      by_cases paints : (JsValue.truthy (some v) && decide (s.currentMower = some name)) = true
      · have selected := of_decide_eq_true (Bool.and_eq_true_iff.mp paints).2
        obtain ⟨mower, gen⟩ := settle_selected s i ⟨name, ticking, .requesting⟩ (some v)
        have painted : (s.settle i ⟨name, ticking, .requesting⟩ (some v)).panel =
            s.panel.paint name s.selectGen v := by
          simp only [settle]
          rw [if_pos paints]
        rw [Current, selected] at current
        rw [Current, mower, gen, painted, selected, Panel.paint_current_iff current emptied]
        simp only [Clean, selected]
        exact ⟨fun gauge x _ _ fails => gauge fails, fun gauge fails => gauge _ found rfl fails⟩
      · have same : s.settle i ⟨name, ticking, .requesting⟩ (some v) =
            { s with statusInFlight := false, calls := s.calls.set i ⟨name, ticking, .returned⟩ } := by
          simp only [settle]
          rw [if_neg paints]
        rw [same]
        refine ⟨fun _ x at_ selected fails => absurd ?_ paints, fun _ => current⟩
        cases found.symm.trans at_
        rw [truthy_of_batteryFails fails, selected]
        exact decide_eq_true rfl
  | startStatusPolling | stopStatusPolling | visibilitychange | shown | fired | repoll | pollStatus | resumed =>
    exact others trivial (fun _ is => by cases is) fun _ _ is => by cases is

/-- The screen is about the selected mower throughout a run exactly if every mower is selected on a blank panel, and
the battery chip never comes back with an old gauge. -/
theorem current_iff_clean (ran : run step init es = some s) :
    Throughout step (fun _ s => s.Current) init es ↔ Meets step (fun _ s e => s.Clean e) init es :=
  throughout_iff_meets (I := fun _ s => s.panel.Emptied) (fun _ => rfl)
    (fun _ _ _ _ emptied stepped => emptied_step emptied stepped) (Panel.current_blank _ _)
    (fun _ _ _ _ emptied current stepped => current_step_iff emptied current stepped) ran

/-- Luba reports that its blades turn; then Yuka is selected. -/
def bladesOfLuba : List StatusEvent :=
  [.selectMower "Luba", .fired 0, .settled 0 (some (.obj [(JsValue.lit "blades_on", .bool true)])), .resumed 0,
    .selectMower "Yuka"]

theorem bladesOfLuba_reached : ∃ s, run step init bladesOfLuba = some s ∧ ¬ s.Current := by
  have after : (run step init bladesOfLuba).map (fun s => (s.currentMower, s.panel.bladeChip)) =
      some (some "Yuka", some ⟨true, "Luba", 1⟩) := by decide
  obtain ⟨s, ran, after⟩ := Option.map_eq_some_iff.mp after
  obtain ⟨mower, blades⟩ := Prod.mk.inj after
  refine ⟨s, ran, fun current => ?_⟩
  have same := (current.blades _ blades).1
  rw [mower] at same
  exact absurd same (by decide)

theorem not_always_current : ¬ ∀ es s, run step init es = some s → s.Current := by
  obtain ⟨s, ran, stale⟩ := bladesOfLuba_reached
  exact fun always => stale (always bladesOfLuba s ran)

theorem bladesOfLuba_not_clean : ¬ Meets step (fun _ s e => s.Clean e) init bladesOfLuba := by
  obtain ⟨s, ran, stale⟩ := bladesOfLuba_reached
  exact fun clean => stale (((current_iff_clean ran).mpr clean).last ran)

end StatusPage

end MammotionRc.Web
