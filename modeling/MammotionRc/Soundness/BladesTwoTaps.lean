import Mathlib.Data.List.InsertIdx
import Mathlib.Data.List.Nodup
import MammotionRc.Web.BladesArm

/-! # Blades On takes two taps

The timer that `bladesArmTimer` names is the only armed one. While it is armed, the history ends with the tap that
armed it and with events that leave it armed; none of them changes the mower, and none comes later than the timer
is due.
-/

namespace MammotionRc.Web

open Machine

namespace BladesPage

variable {s t : BladesPage} {e : BladesEvent} {es : List BladesEvent} {a : Action} {name : String}

/-- A STOP, a press on Blades Off that its guard accepts, a mower switch, or the page hidden or unloaded. -/
def Breaks (s : BladesPage) : BladesEvent → Prop
  | .selectMower _ | .stop | .pagehide => True
  | .visibilitychange hidden => hidden = true
  | .bladesOff => s.pending .bladesOff = false
  | .bladesOn | .press _ | .timer _ | .elapse _ | .settled _ => False

/-- The history has a tap on Blades On that sent nothing, at most 3.5 s ago, with the mower that is selected now
and with nothing after it that breaks the confirmation. -/
def TappedBefore (es : List BladesEvent) (s : BladesPage) : Prop :=
  ∃ pre mid first armed, es = pre ++ .bladesOn :: mid ∧ run step init pre = some first ∧
    step first .bladesOn = some armed ∧ armed.sent = first.sent ∧ run step armed mid = some s ∧
    Meets step (fun _ s e => ¬Breaks s e) armed mid ∧ first.currentMower = s.currentMower ∧
    s.clock.now ≤ first.clock.now + BLADES_ARM_MS

/-! ## POSTs -/

theorem runAction_cases (s : BladesPage) (a : Action) :
    s.runAction a = s ∨ ∃ name, s.currentMower = some name ∧ s.pending a = false ∧
      s.runAction a =
        { s with
          pending := Function.update s.pending a true
          waiting := s.waiting ++ [(a, name)]
          sent := s.sent ++ [(a, name)] } := by
  simp only [runAction]
  split
  · next name selected =>
    split_ifs with refused
    · exact Or.inl rfl
    · rw [not_or, Bool.not_eq_true] at refused
      exact Or.inr ⟨name, selected, refused.2, rfl⟩
  · exact Or.inl rfl

/-- What a step adds to the POSTs. -/
def Sends (s t : BladesPage) (more : List (Action × String)) : Prop := t.sent = s.sent ++ more

theorem sends_runAction (s : BladesPage) (a : Action) : ∃ more, Sends s (s.runAction a) more ∧
    ∀ x ∈ more, x.1 = a ∧ s.currentMower = some x.2 ∧ s.pending a = false := by
  rcases runAction_cases s a with same | ⟨name, selected, idle, sends⟩
  · exact ⟨[], by rw [same, Sends, List.append_nil], fun x inside => absurd inside List.not_mem_nil⟩
  · refine ⟨[(a, name)], by rw [sends, Sends], fun x inside => ?_⟩
    rw [List.mem_singleton.mp inside]
    exact ⟨rfl, selected, idle⟩

@[simp] theorem runAction_currentMower : (s.runAction a).currentMower = s.currentMower := by
  rcases runAction_cases s a with same | ⟨name, _, _, sends⟩
  · rw [same]
  · rw [sends]

@[simp] theorem runAction_bladesArmTimer : (s.runAction a).bladesArmTimer = s.bladesArmTimer := by
  rcases runAction_cases s a with same | ⟨name, _, _, sends⟩
  · rw [same]
  · rw [sends]

@[simp] theorem runAction_clock : (s.runAction a).clock = s.clock := by
  rcases runAction_cases s a with same | ⟨name, _, _, sends⟩
  · rw [same]
  · rw [sends]

theorem stop_sent (s : BladesPage) : ∃ more, Sends s s.stop more ∧ ∀ x ∈ more, x.1 ≠ .bladesOn := by
  obtain ⟨first, sendsFirst, isStop⟩ := sends_runAction s.disarmBlades .stop
  obtain ⟨second, sendsSecond, isOff⟩ := sends_runAction (s.disarmBlades.runAction .stop) .bladesOff
  refine ⟨first ++ second, ?_, fun x inside => ?_⟩
  · rw [Sends, stop, sendsSecond, sendsFirst, List.append_assoc]
    rfl
  · rcases List.mem_append.mp inside with inside | inside
    · rw [(isStop x inside).1]
      decide
    · rw [(isOff x inside).1]
      decide

/-- Only a tap on Blades On that finds the timer set sends a POST of blades-on. -/
theorem bladesOn_of_sends (stepped : s.step e = some t) {more : List (Action × String)} (sends : Sends s t more)
    (on : (.bladesOn, name) ∈ more) :
    e = .bladesOn ∧ s.bladesArmTimer.isSome = true ∧ s.currentMower = some name ∧ s.pending .bladesOn = false := by
  have unchanged (same : t.sent = s.sent) : False := by
    rw [Sends, same, List.self_eq_append_right] at sends
    rw [sends] at on
    cases on
  have other {a : Action} (ne : a ≠ .bladesOn) {u : BladesPage} (before : u.sent = s.sent)
      (after : t = u.runAction a) : False := by
    obtain ⟨added, sent, is⟩ := sends_runAction u a
    rw [Sends, after, sent, before, List.append_cancel_left_eq] at sends
    rw [← sends] at on
    exact ne (is _ on).1.symm
  cases e with
  | selectMower _ | pagehide => cases stepped; exact (unchanged rfl).elim
  | stop =>
    cases stepped
    obtain ⟨added, sent, is⟩ := stop_sent s
    rw [Sends, sent, List.append_cancel_left_eq] at sends
    rw [← sends] at on
    exact absurd rfl (is _ on)
  | bladesOn =>
    cases stepped
    simp only [bladesOn] at sends unchanged
    split_ifs at sends unchanged with busy fresh
    · exact (unchanged rfl).elim
    · exact (unchanged rfl).elim
    · obtain ⟨added, sent, is⟩ := sends_runAction s.disarmBlades .bladesOn
      rw [Sends, sent] at sends
      have same : added = more := List.append_cancel_left sends
      rw [← same] at on
      rw [Option.isNone_iff_eq_none] at fresh
      exact ⟨rfl, Option.isSome_iff_ne_none.mpr fresh, (is _ on).2⟩
  | bladesOff =>
    cases stepped
    simp only [bladesOff] at other unchanged
    split_ifs at other unchanged
    · exact (unchanged rfl).elim
    · exact (other (a := .bladesOff) (by decide) (u := s.disarmBlades) rfl rfl).elim
  | press action =>
    simp only [step] at stepped
    split_ifs at stepped with plain
    cases stepped
    refine (other ?_ (u := s) rfl rfl).elim
    rintro rfl
    cases plain
  | visibilitychange hidden =>
    simp only [step, Option.some.injEq] at stepped
    refine (unchanged ?_).elim
    rw [← stepped]
    split <;> rfl
  | timer id =>
    simp only [step] at stepped
    split at stepped
    · cases stepped
      exact (unchanged rfl).elim
    · cases stepped
  | elapse ms =>
    simp only [step] at stepped
    split_ifs at stepped
    cases stepped
    exact (unchanged rfl).elim
  | settled n =>
    simp only [step, Option.map_eq_some_iff] at stepped
    obtain ⟨request, _, rfl⟩ := stepped
    exact (unchanged rfl).elim

/-! ## What the page waits for -/

/-- `pending` has the actions of the POSTs that the page waits for, each of them once. -/
structure Awaits (s : BladesPage) : Prop where
  nodup : (s.waiting.map Prod.fst).Nodup
  pending : ∀ a, s.pending a = true ↔ a ∈ s.waiting.map Prod.fst

theorem awaits_init : init.Awaits := ⟨List.nodup_nil, fun a => by simp [init]⟩

theorem Awaits.of_same (awaits : s.Awaits) (waiting : t.waiting = s.waiting) (pending : t.pending = s.pending) :
    t.Awaits := by
  refine ⟨?_, fun a => ?_⟩
  · rw [waiting]
    exact awaits.nodup
  · rw [waiting, pending]
    exact awaits.pending a

theorem Awaits.runAction (awaits : s.Awaits) (a : Action) : (s.runAction a).Awaits := by
  rcases runAction_cases s a with same | ⟨name, _, idle, sends⟩
  · rw [same]
    exact awaits
  · have absent : a ∉ s.waiting.map Prod.fst := fun inside => by
      rw [(awaits.pending a).mpr inside] at idle
      cases idle
    rw [sends]
    refine ⟨?_, fun b => ?_⟩
    · rw [List.map_append, List.map_singleton, List.nodup_append]
      refine ⟨awaits.nodup, List.nodup_singleton a, fun b inside c single => ?_⟩
      rw [List.mem_singleton.mp single]
      rintro rfl
      exact absent inside
    · change Function.update s.pending a true b = true ↔ _
      rw [List.map_append, List.map_singleton, List.mem_append, List.mem_singleton, Function.update_apply]
      split
      · next same => simp [same]
      · next ne => rw [awaits.pending b, or_iff_left ne]

theorem Awaits.disarmBlades (awaits : s.Awaits) : s.disarmBlades.Awaits := awaits.of_same rfl rfl

theorem Awaits.settle (awaits : s.Awaits) {n : ℕ} {request : Action × String} (at_ : s.waiting[n]? = some request) :
    (s.settle n request.1).Awaits := by
  obtain ⟨bound, found⟩ := List.getElem?_eq_some_iff.mp at_
  have erased : (s.waiting.eraseIdx n).map Prod.fst = (s.waiting.map Prod.fst).erase request.1 := by
    have inRange : n < (s.waiting.map Prod.fst).length := by simpa using bound
    have position : (s.waiting.map Prod.fst)[n] = request.1 := by rw [List.getElem_map, found]
    rw [← List.eraseIdx_map, ← awaits.nodup.erase_getElem n inRange, position]
  refine ⟨?_, fun a => ?_⟩
  · change ((s.waiting.eraseIdx n).map Prod.fst).Nodup
    rw [erased]
    exact awaits.nodup.erase request.1
  · change Function.update s.pending request.1 false a = true ↔ a ∈ (s.waiting.eraseIdx n).map Prod.fst
    rw [erased, awaits.nodup.mem_erase_iff, Function.update_apply, ← awaits.pending a]
    split
    · next same => simp [same]
    · next ne => simp [ne]

theorem awaits_step (awaits : s.Awaits) (stepped : s.step e = some t) : t.Awaits := by
  cases e with
  | selectMower _ | pagehide => cases stepped; exact awaits.of_same rfl rfl
  | stop => cases stepped; exact (awaits.disarmBlades.runAction .stop).runAction .bladesOff
  | bladesOn =>
    cases stepped
    simp only [bladesOn]
    split_ifs
    · exact awaits
    · exact awaits.of_same rfl rfl
    · exact awaits.disarmBlades.runAction .bladesOn
  | bladesOff =>
    cases stepped
    simp only [bladesOff]
    split_ifs
    · exact awaits
    · exact awaits.disarmBlades.runAction .bladesOff
  | press action =>
    simp only [step] at stepped
    split_ifs at stepped
    cases stepped
    exact awaits.runAction action
  | visibilitychange hidden =>
    cases stepped
    split
    · exact awaits.disarmBlades
    · exact awaits
  | timer id =>
    simp only [step] at stepped
    split at stepped
    · cases stepped
      exact awaits.of_same rfl rfl
    · cases stepped
  | elapse ms =>
    simp only [step] at stepped
    split_ifs at stepped
    cases stepped
    exact awaits.of_same rfl rfl
  | settled n =>
    simp only [step, Option.map_eq_some_iff] at stepped
    obtain ⟨request, at_, rfl⟩ := stepped
    exact awaits.settle at_

/-! ## The timer -/

/-- `bladesArmTimer` names the only armed timer. -/
def HoldsTimer (s : BladesPage) : Prop := s.clock.timers.Holds (fun _ => True) s.bladesArmTimer

/-- The three things that a step does to the timer. -/
inductive ArmEffect (s : BladesPage) (e : BladesEvent) (t : BladesPage) : Prop
  | disarmed (none_ : t.bladesArmTimer = none) (clear : ∀ id, t.clock.timers.armed id = none)
  | armed (tap : e = .bladesOn) (was : s.bladesArmTimer = none) (is : t = s.arm)
  | kept (same : t.bladesArmTimer = s.bladesArmTimer) (timers : t.clock.timers = s.clock.timers)
      (mower : t.currentMower = s.currentMower) (quiet : ¬Breaks s e)

theorem not_armed_disarmBlades (holds : s.HoldsTimer) (id : ℕ) : s.disarmBlades.clock.timers.armed id = none := by
  cases armed : s.disarmBlades.clock.timers.armed id with
  | none => rfl
  | some entry =>
    rw [disarmBlades, TimerClock.clearHeld_timers] at armed
    have none_ := holds.clearHeld.only id entry.1 entry.2 armed trivial
    cases none_

theorem disarmBlades_effect (holds : s.HoldsTimer) : ArmEffect s e s.disarmBlades :=
  .disarmed rfl (not_armed_disarmBlades holds)

theorem armEffect_step (holds : s.HoldsTimer) (stepped : s.step e = some t) : ArmEffect s e t := by
  have disarmedThen (a : Action) : ArmEffect s e (s.disarmBlades.runAction a) := by
    refine .disarmed (by rw [runAction_bladesArmTimer]; rfl) fun id => ?_
    rw [runAction_clock]
    exact not_armed_disarmBlades holds id
  cases e with
  | selectMower name => cases stepped; exact .disarmed rfl (not_armed_disarmBlades holds)
  | pagehide => cases stepped; exact disarmBlades_effect holds
  | stop =>
    cases stepped
    refine .disarmed (by rw [stop, runAction_bladesArmTimer, runAction_bladesArmTimer]; rfl) fun id => ?_
    rw [stop, runAction_clock, runAction_clock]
    exact not_armed_disarmBlades holds id
  | bladesOn =>
    cases stepped
    simp only [bladesOn]
    split_ifs with busy fresh
    · exact .kept rfl rfl rfl id
    · exact .armed rfl (Option.isNone_iff_eq_none.mp fresh) rfl
    · exact disarmedThen .bladesOn
  | bladesOff =>
    cases stepped
    simp only [bladesOff]
    split_ifs with busy
    · exact .kept rfl rfl rfl fun breaks => by
        rw [Breaks, busy] at breaks
        cases breaks
    · exact disarmedThen .bladesOff
  | press action =>
    simp only [step] at stepped
    split_ifs at stepped
    cases stepped
    exact .kept runAction_bladesArmTimer (by rw [runAction_clock]) runAction_currentMower id
  | visibilitychange hidden =>
    cases stepped
    split
    · exact disarmBlades_effect holds
    · next visible => exact .kept rfl rfl rfl visible
  | timer id =>
    simp only [step] at stepped
    split at stepped
    · next fires =>
      cases stepped
      obtain ⟨due, delay, armed⟩ := TimerClock.armed_of_due fires
      have held := holds.only id _ _ armed trivial
      refine .disarmed rfl fun other => ?_
      cases after : (disarmBlades { s with clock := s.clock.clearTimeout id }).clock.timers.armed other with
      | none => rfl
      | some entry =>
        rw [disarmBlades, TimerClock.clearHeld_timers] at after
        have before := (Timers.armed_clearTimeout.mp (Timers.armed_clearHeld.mp after).2)
        have named := holds.only other _ _ before.2 trivial
        rw [held, Option.some.injEq] at named
        exact absurd named.symm before.1
    · cases stepped
  | elapse ms =>
    simp only [step] at stepped
    split_ifs at stepped
    cases stepped
    exact .kept rfl rfl rfl id
  | settled n =>
    simp only [step, Option.map_eq_some_iff] at stepped
    obtain ⟨request, _, rfl⟩ := stepped
    exact .kept rfl rfl rfl id

theorem holdsTimer_step (holds : s.HoldsTimer) (stepped : s.step e = some t) : t.HoldsTimer := by
  cases armEffect_step holds stepped with
  | disarmed none_ clear =>
    refine ⟨fun id c d armed => ?_, fun id named => ?_⟩
    · rw [clear id] at armed
      cases armed
    · rw [none_] at named
      cases named
  | armed tap was is =>
    rw [HoldsTimer, was] at holds
    rw [is]
    exact holds.setTimeout trivial
  | kept same timers _ _ =>
    rw [HoldsTimer, same, timers]
    exact holds

/-- The tap that armed the timer which is due at a time. -/
def TappedAt (es : List BladesEvent) (s : BladesPage) (due : ℚ) : Prop :=
  ∃ pre mid first armed, es = pre ++ .bladesOn :: mid ∧ run step init pre = some first ∧
    step first .bladesOn = some armed ∧ armed.sent = first.sent ∧ run step armed mid = some s ∧
    Meets step (fun _ s e => ¬Breaks s e) armed mid ∧ first.currentMower = s.currentMower ∧
    due = first.clock.now + BLADES_ARM_MS

theorem TappedAt.later {due : ℚ} (tapped : TappedAt es s due) (stepped : s.step e = some t) (quiet : ¬Breaks s e)
    (mower : t.currentMower = s.currentMower) : TappedAt (es ++ [e]) t due := by
  obtain ⟨pre, mid, first, armed, rfl, reached, tap, nothing, ran, meets, same, due⟩ := tapped
  refine ⟨pre, mid ++ [e], first, armed, by simp, reached, tap, nothing, run_concat_iff.mpr ⟨s, ran, stepped⟩, ?_,
    same.trans mower.symm, due⟩
  refine meets.concat fun u ran' => ?_
  cases ran.symm.trans ran'
  exact quiet

structure Inv (es : List BladesEvent) (s : BladesPage) : Prop where
  reached : run step init es = some s
  awaits : s.Awaits
  holds : s.HoldsTimer
  tapped : ∀ id c due delay, s.clock.timers.armed id = some ((c, due), delay) → TappedAt es s due

theorem inv_init : Inv [] init :=
  ⟨rfl, awaits_init, Timers.holds_empty _, fun _ _ _ _ armed => absurd armed (Option.some_ne_none _).symm⟩

theorem inv_step (inv : Inv es s) (stepped : s.step e = some t) : Inv (es ++ [e]) t := by
  refine ⟨run_concat_iff.mpr ⟨s, inv.reached, stepped⟩, awaits_step inv.awaits stepped,
    holdsTimer_step inv.holds stepped, fun id c due delay entry => ?_⟩
  cases armEffect_step inv.holds stepped with
  | disarmed none_ clear =>
    rw [clear id] at entry
    cases entry
  | armed tap was is =>
    subst tap is
    rcases Timers.armed_setTimeout.mp entry with ⟨_, same, _⟩ | before
    · cases same
      exact ⟨es, [], s, s.arm, rfl, inv.reached, stepped, rfl, rfl, fun pre e inside => by simp at inside, rfl, rfl⟩
    · have named := inv.holds.only id _ _ before trivial
      rw [was] at named
      cases named
  | kept same timers mower quiet =>
    rw [timers] at entry
    exact (inv.tapped id c due delay entry).later stepped quiet mower

/-- Each POST of blades-on is the second of two taps within 3.5 s, for the mower selected at both, with nothing
between them that breaks the confirmation and no other such POST pending. -/
theorem bladesOn_two_taps (ran : run step init es = some s) (stepped : s.step e = some t)
    {more : List (Action × String)} (sends : Sends s t more) (on : (.bladesOn, name) ∈ more) :
    e = .bladesOn ∧ s.currentMower = some name ∧ (∀ other, (.bladesOn, other) ∉ s.waiting) ∧ TappedBefore es s := by
  have inv : Inv es s := run_invariant inv_init (fun _ _ _ _ => inv_step) ran
  obtain ⟨tap, set_, selected, idle⟩ := bladesOn_of_sends stepped sends on
  refine ⟨tap, selected, fun other inside => ?_, ?_⟩
  · have pending := (inv.awaits.pending .bladesOn).mpr (List.mem_map.mpr ⟨_, inside, rfl⟩)
    rw [idle] at pending
    cases pending
  · obtain ⟨id, named⟩ := Option.isSome_iff_exists.mp set_
    obtain ⟨⟨c, due⟩, delay, armed, _⟩ := inv.holds.armed id named
    have punctual := s.clock.punctual id c due delay armed
    obtain ⟨pre, mid, first, after, split_, reached, tapped, nothing, ran, meets, same, rfl⟩ :=
      inv.tapped id c due delay armed
    exact ⟨pre, mid, first, after, split_, reached, tapped, nothing, ran, meets, same, punctual⟩

/-- Two taps, two seconds apart. -/
def twoTaps : List BladesEvent := [.selectMower "Luba", .bladesOn, .elapse 2000]

theorem twoTaps_confirmed : ∃ s t, run step init twoTaps = some s ∧ s.step .bladesOn = some t ∧
    t.sent = [(.bladesOn, "Luba")] ∧ TappedBefore twoTaps s := by
  have sent : ((run step init twoTaps).bind fun s => (s.step .bladesOn).map fun t => (s.sent, t.sent)) =
      some ([], [(.bladesOn, "Luba")]) := by decide +kernel
  obtain ⟨s, ran, sent⟩ := Option.bind_eq_some_iff.mp sent
  obtain ⟨t, stepped, sent⟩ := Option.map_eq_some_iff.mp sent
  obtain ⟨before, after⟩ := Prod.mk.inj sent
  refine ⟨s, t, ran, stepped, after, ?_⟩
  have sends : Sends s t [(.bladesOn, "Luba")] := by rw [Sends, before, after, List.nil_append]
  exact (bladesOn_two_taps ran stepped sends List.mem_cons_self).2.2.2

end BladesPage

end MammotionRc.Web
