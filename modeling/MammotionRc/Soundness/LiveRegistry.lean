import Mathlib.Tactic.IntervalCases
import MammotionRc.Soundness.RosterSwap

/-! # The live registry against the roster

Nothing serialises the requests that replace the roster, and `_build_and_connect` overwrites what is
registered under a name. When every roster names each mower once, and no teardown touches a registry that
another request is building or has built since that teardown left its websocket loop, a registry at rest
holds one live object of each kind for each mower of the roster, and everything else was torn down.
-/

namespace MammotionRc.Server

open Machine

/-- A request that has not begun or is over. -/
def ApplyPc.AtRest : ApplyPc → Prop
  | absent | returned | raised => True
  | _ => False

namespace Registry

/-- What a registry at rest should be: the names of the dictionaries, the one live object of each kind
for each of them, and the fate of the other objects. -/
structure MatchesRoster (s : Registry) : Prop where
  handles : ∀ name, name ∈ s.handles.keys ↔ name ∈ mowerNames s.mowers
  transports : ∀ name, name ∈ s.transports.keys ↔ name ∈ mowerNames s.mowers
  watchdogTasks : ∀ name, name ∈ s.watchdogTasks.keys ↔ name ∈ mowerNames s.mowers
  liveHandle : ∀ name k, (name, k) ∈ s.handles.items → ∀ j < s.built,
    (s.builds j).cfg.name = name → ((s.builds j).stopped = false ↔ j = k)
  liveTransport : ∀ name k, (name, k) ∈ s.transports.items → ∀ j < s.built,
    (s.builds j).cfg.name = name → ((s.builds j).disconnected = false ↔ j = k)
  liveWatchdog : ∀ name k, (name, k) ∈ s.watchdogTasks.items → ∀ j < s.built,
    (s.builds j).cfg.name = name → ((s.builds j).watchdog = .running ↔ j = k)
  otherHandles : ∀ k < s.built, k ∉ s.handles.values → (s.builds k).stopped = true
  otherTransports : ∀ k < s.built, k ∉ s.transports.values → (s.builds k).disconnected = true
  otherWatchdogs : ∀ k < s.built, k ∉ s.watchdogTasks.values → (s.builds k).watchdog = .cancelled

/-- Every roster names each mower once. No teardown starts beside a request that builds, and none goes on
once a mower was built since it left its websocket loop. -/
def Serialised (loaded : List MowerConfig) (es : List RegistryEvent) (s : Registry) :
    RegistryEvent → Prop
  | .save _ roster => (mowerNames roster).Nodup
  | .resume i =>
    match s.requests i with
    | .closingSockets _ => ∀ j, ¬ (s.requests j).Building
    | .joiningWatchdogs _ _ c =>
      s.watchdogTasks.advance c ≠ .changed → ∀ n, Entered loaded es i n → n = s.built
    | .stoppingHandles _ _ c =>
      s.handles.advance c ≠ .changed → ∀ n, Entered loaded es i n → n = s.built
    | .disconnecting _ _ c =>
      s.transports.advance c ≠ .changed → ∀ n, Entered loaded es i n → n = s.built
    | _ => True
  | .failed _ => True

variable {loaded : List MowerConfig} {es : List RegistryEvent} {e : RegistryEvent} {s t : Registry}
  {i : ℕ}

/-- A loop that goes on has not been overtaken. -/
theorem Inv.goesOn (inv : Inv loaded es s) (inside : (s.requests i).InLoop)
    (serial : ∀ n, Entered loaded es i n → n = s.built) :
    Entered loaded es i s.built ∧ s.Passed (s.requests i) ∧ ∀ j, ¬ (s.requests j).Building := by
  obtain ⟨n, entered, _, fresh, _⟩ := inv.loops i inside
  obtain rfl := serial n entered
  exact ⟨entered, fresh rfl⟩

theorem Inv.step (inv : Inv loaded es s) (serial : Serialised loaded es s e) (stepped : s.step e = some t)
    (ran : run Registry.step (init loaded) es = some s) : Inv loaded (es ++ [e]) t := by
  have after := inv.mono e
  cases e with
  | save i roster =>
    simp only [Registry.step] at stepped
    split_ifs at stepped with guard
    cases stepped
    exact inv.save guard.1 guard.2.1 serial guard.2.2
  | failed i =>
    simp only [Registry.step] at stepped
    split at stepped <;> cases stepped
    · next at_ => exact (after.arm (.inl at_)).buildNext
    · next at_ => exact (after.arm (.inr at_)).buildNext
  | resume i =>
    simp only [Registry.step, resume] at stepped
    split at stepped <;> cases stepped
    · next roster at_ =>
      simp only [Serialised, at_] at serial
      refine after.joinNext (k := 0) (by rw [at_]; rfl) ⟨es, s, roster, List.prefix_refl _, ran, at_, rfl⟩
        serial (fun k => ?_) ⟨fun k mem => congrArg Build.watchdog (if_pos mem), rfl⟩
      split_ifs
      · exact ⟨rfl, id, id, fun _ => rfl, fun _ => by rintro ⟨⟩⟩
      · exact .refl _
    · next roster k c at_ =>
      simp only [Serialised, at_] at serial
      have inside : (s.requests i).InLoop := by rw [at_]; trivial
      by_cases going : s.watchdogTasks.advance c = .changed
      · rw [Registry.joinNext, going]
        refine after.raised inside fun passed => ?_
        rw [at_] at passed
        exact OrderedDict.advance_ne_changed passed.2 going
      · obtain ⟨entered, passed, idle⟩ := inv.goesOn inside (serial going)
        rw [at_] at passed
        exact after.joinNext (by rw [at_]; rfl) (entered.mono _) idle (fun _ => .refl _) passed
    · next roster k c at_ =>
      simp only [Serialised, at_] at serial
      have inside : (s.requests i).InLoop := by rw [at_]; trivial
      by_cases going : s.handles.advance c = .changed
      · rw [Registry.stopNext, going]
        refine after.raised inside fun passed => ?_
        rw [at_] at passed
        exact OrderedDict.advance_ne_changed passed.2.2 going
      · obtain ⟨entered, passed, idle⟩ := inv.goesOn inside (serial going)
        rw [at_] at passed
        exact after.stopNext (by rw [at_]; rfl) (entered.mono _) idle (fun _ => .refl _) passed
    · next roster k c at_ =>
      simp only [Serialised, at_] at serial
      have inside : (s.requests i).InLoop := by rw [at_]; trivial
      by_cases going : s.transports.advance c = .changed
      · rw [Registry.disconnectNext, going]
        refine after.raised inside fun passed => ?_
        rw [at_] at passed
        exact OrderedDict.advance_ne_changed passed.2.2.2 going
      · obtain ⟨entered, passed, idle⟩ := inv.goesOn inside (serial going)
        rw [at_] at passed
        exact after.disconnectNext (by rw [at_]; rfl) (entered.mono _) idle (fun _ => .refl _) passed
    · next at_ => exact after.connected at_
    · next at_ => exact (after.arm (.inr at_)).buildNext

theorem inv_of_run (distinct : (mowerNames loaded).Nodup)
    (serial : Meets Registry.step (Serialised loaded) (init loaded) es)
    (ran : run Registry.step (init loaded) es = some s) : Inv loaded es s := by
  refine (run_invariant_of_meets (I := fun es s => run Registry.step (init loaded) es = some s ∧
    Inv loaded es s) ⟨rfl, inv_init distinct⟩ ?_ serial ran).2
  rintro es s e t ⟨reached, inv⟩ serial stepped
  exact ⟨run_concat_iff.mpr ⟨s, reached, stepped⟩, inv.step serial stepped reached⟩

/-- Distinct registered builds belong to distinct mowers. -/
theorem Inv.registered_iff (inv : Inv loaded es s) {name : String} {k j : ℕ}
    (mem : (name, k) ∈ s.handles.items) (named : (s.builds j).cfg.name = name) :
    j ∈ s.handles.values ↔ j = k := by
  constructor
  · intro registered
    obtain ⟨other, memj⟩ := OrderedDict.mem_values_iff.mp registered
    obtain rfl : other = name := (inv.registered.own other j memj).2.symm.trans named
    exact OrderedDict.value_unique memj mem
  · rintro rfl
    exact OrderedDict.mem_values_iff.mpr ⟨name, mem⟩

theorem Inv.matchesRoster (inv : Inv loaded es s) (rest : ∀ i, (s.requests i).AtRest) :
    s.MatchesRoster := by
  have idle : ∀ i, ¬ (s.requests i).Building := fun i building => by
    have rest := rest i
    cases at_ : s.requests i <;> rw [at_] at building rest <;> first | exact building | exact rest
  have complete := inv.complete idle
  have live : ∀ k ∈ s.handles.values, (s.builds k).Live := by
    refine complete.live.resolve_left fun ⟨i, passed⟩ => ?_
    have rest := rest i
    cases at_ : s.requests i <;> rw [at_] at passed rest <;> first | exact passed | exact rest
  have key : ∀ name, name ∈ s.handles.keys ↔ name ∈ mowerNames s.mowers := fun name => by
    rw [complete.names]
  have together := inv.registered.together
  have iff : ∀ name k, (name, k) ∈ s.handles.items → ∀ j < s.built, (s.builds j).cfg.name = name →
      ((s.builds j).Live ∧ j = k ∨ (s.builds j).TornDown ∧ j ≠ k) := by
    intro name k mem j lt named
    by_cases registered : j ∈ s.handles.values
    · exact .inl ⟨live j registered, (inv.registered_iff mem named).mp registered⟩
    · exact .inr ⟨inv.torn j lt registered, fun same => registered ((inv.registered_iff mem named).mpr same)⟩
  refine ⟨key, ?_, ?_, ?_, ?_, ?_, ?_, ?_, ?_⟩
  · rw [together]
    exact key
  · rw [complete.armed]
    exact key
  · intro name k mem j lt named
    rcases iff name k mem j lt named with ⟨⟨stopped, _⟩, same⟩ | ⟨⟨stopped, _⟩, other⟩
    · exact ⟨fun _ => same, fun _ => stopped⟩
    · rw [stopped]
      exact ⟨nofun, fun same => absurd same other⟩
  · rw [together]
    intro name k mem j lt named
    rcases iff name k mem j lt named with ⟨⟨_, disconnected, _⟩, same⟩ | ⟨⟨_, disconnected, _⟩, other⟩
    · exact ⟨fun _ => same, fun _ => disconnected⟩
    · rw [disconnected]
      exact ⟨nofun, fun same => absurd same other⟩
  · rw [complete.armed]
    intro name k mem j lt named
    rcases iff name k mem j lt named with ⟨⟨_, _, running⟩, same⟩ | ⟨⟨_, _, cancelled⟩, other⟩
    · refine ⟨fun _ => same, fun _ => ?_⟩
      have created := complete.created j (same ▸ OrderedDict.mem_values_iff.mpr ⟨name, mem⟩)
      cases at_ : (s.builds j).watchdog with
      | absent => exact absurd at_ created
      | running => rfl
      | cancelled => exact absurd at_ running
    · rw [cancelled]
      exact ⟨nofun, fun same => absurd same other⟩
  · exact fun k lt out => (inv.torn k lt out).1
  · rw [together]
    exact fun k lt out => (inv.torn k lt out).2.1
  · rw [complete.armed]
    exact fun k lt out => (inv.torn k lt out).2.2

/-- **The live registry matches the roster**: in every run of serialised saves, once all requests have
returned `MOWERS` is the roster of one of them, or the loaded one if none has begun, the dictionaries hold
one live object of each kind for each mower, and everything else was torn down. -/
theorem live_registry (loaded : List MowerConfig) (es : List RegistryEvent) (s : Registry)
    (distinct : (mowerNames loaded).Nodup)
    (serial : Meets step (Serialised loaded) (init loaded) es)
    (ran : run step (init loaded) es = some s) (rest : ∀ i, (s.requests i).AtRest) :
    s.MatchesRoster ∧
      ((∃ i roster, .save i roster ∈ es ∧ s.mowers = roster) ∨
        s.mowers = loaded ∧ ∀ i, i ≠ 0 → s.requests i = .absent) := by
  have inv := inv_of_run distinct serial ran
  refine ⟨inv.matchesRoster rest, inv.adopted.imp_right fun ⟨mowers, begun⟩ => ⟨mowers, fun i ne => ?_⟩⟩
  refine (begun i ne).resolve_right fun tearing => ?_
  have rest := rest i
  cases at_ : s.requests i <;> rw [at_] at tearing rest <;> first | exact rest | cases tearing

/-- The row of a mower without optional fields. -/
private def row (name : String) : MowerConfig := ⟨name, none, "192.168.1.54", 9876, none⟩

/-- One mower is live, and a save replaces it by two others, the second of which cannot be reached. -/
def savedOnce : List RegistryEvent :=
  [.resume 0, .resume 0, .save 1 [row "Luba-B", row "Luba-C"], .resume 1, .resume 1, .resume 1, .resume 1,
    .resume 1, .resume 1, .failed 1]

theorem live_registry_savedOnce :
    ∃ s, run step (init [row "Luba-A"]) savedOnce = some s ∧ s.MatchesRoster ∧
      s.mowers = [row "Luba-B", row "Luba-C"] := by
  obtain ⟨s, ran, mowers, zero, one, rest⟩ : ∃ s, run step (init [row "Luba-A"]) savedOnce = some s ∧
      s.mowers = [row "Luba-B", row "Luba-C"] ∧ s.requests 0 = .returned ∧ s.requests 1 = .returned ∧
      ∀ i, s.requests (i + 2) = .absent := ⟨_, rfl, rfl, rfl, rfl, fun _ => rfl⟩
  have built : ∀ m ≤ 6, ∀ t, run step (init [row "Luba-A"]) (savedOnce.take m) = some t → t.built = 1 := by
    intro m le t ran
    interval_cases m <;> cases ran <;> rfl
  have entered : ∀ m ≤ 6, ∀ n, Entered [row "Luba-A"] (savedOnce.take m) 1 n → n = 1 := by
    rintro m le n ⟨before, t, roster, inside, ran, _, rfl⟩
    have within := (List.prefix_append before [.resume 1]).trans inside
    rw [List.prefix_iff_eq_take.mp within, List.take_take] at ran
    exact built _ (by omega) t ran
  refine ⟨s, ran, ((live_registry [row "Luba-A"] savedOnce s (by decide)
    (.of_getElem fun n e at_ t reached => ?_) ran ?_)).1, mowers⟩
  · have short : n < 10 := (List.getElem?_eq_some_iff.mp at_).1
    interval_cases n <;> cases at_ <;> cases reached
    · trivial
    · trivial
    · exact (by decide : (mowerNames [row "Luba-B", row "Luba-C"]).Nodup)
    · rintro (_ | _ | j) building <;> exact building
    · exact fun _ n => entered 4 (by omega) n
    · exact fun _ n => entered 5 (by omega) n
    · exact fun _ n => entered 6 (by omega) n
    · trivial
    · trivial
    · trivial
  · rintro (_ | _ | i)
    · rw [zero]; trivial
    · rw [one]; trivial
    · rw [rest i]; trivial

/-- A save whose roster names a mower twice. -/
def duplicateName : List RegistryEvent :=
  [.save 1 [row "Luba-A", row "Luba-A"], .resume 1, .resume 1, .resume 1, .resume 1, .resume 1]

/-- The first of the two handles is neither registered nor stopped. -/
theorem duplicateName_not_matching :
    ∃ s, run step (init []) duplicateName = some s ∧ (∀ i, (s.requests i).AtRest) ∧
      ¬ s.MatchesRoster := by
  obtain ⟨s, ran, zero, one, rest, built, live, handles⟩ : ∃ s, run step (init []) duplicateName = some s ∧
      s.requests 0 = .returned ∧ s.requests 1 = .returned ∧ (∀ i, s.requests (i + 2) = .absent) ∧
      s.built = 2 ∧ (s.builds 0).stopped = false ∧ s.handles.values = [1] :=
    ⟨_, rfl, rfl, rfl, fun _ => rfl, rfl, rfl, rfl⟩
  refine ⟨s, ran, ?_, fun holds => ?_⟩
  · rintro (_ | _ | i)
    · rw [zero]; trivial
    · rw [one]; trivial
    · rw [rest i]; trivial
  · have stopped := holds.otherHandles 0 (by omega) (by rw [handles]; decide)
    rw [live] at stopped
    cases stopped

end Registry

end MammotionRc.Server
