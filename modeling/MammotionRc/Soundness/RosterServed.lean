import MammotionRc.Soundness.RosterSwap
import Mathlib.Tactic.IntervalCases

/-! # Which mowers are registered while a roster is swapped

The step that ends a teardown installs the new roster and registers its first mower. The others follow one
by one behind the connects of those in front of them, and until then `_cfg` accepts names that have neither
a handle nor a transport.
-/

namespace MammotionRc.Server

open Machine

namespace Registry

/-- What passes `_cfg` is registered, once request handlers run. -/
def Serves (_ : List RegistryEvent) (s : Registry) : Prop :=
  s.requests 0 = .returned → ∀ name row, s.cfg name = .ok row →
    (∃ h, s.handle name = .ok h) ∧ ∃ t h, s.reconnectTarget name = .ok (t, h)

/-- The iterators of a teardown have nothing left, so that its next step installs the roster. -/
def Swaps (s : Registry) : ApplyPc → Prop
  | .closingSockets _ => s.watchdogTasks.advance s.watchdogTasks.cursor = .exhausted ∧
      s.handles.advance s.handles.cursor = .exhausted ∧ s.transports.advance s.transports.cursor = .exhausted
  | .joiningWatchdogs _ _ c => s.watchdogTasks.advance c = .exhausted ∧
      s.handles.advance s.handles.cursor = .exhausted ∧ s.transports.advance s.transports.cursor = .exhausted
  | .stoppingHandles _ _ c =>
      s.handles.advance c = .exhausted ∧ s.transports.advance s.transports.cursor = .exhausted
  | .disconnecting _ _ c => s.transports.advance c = .exhausted
  | _ => False

/-- A roster that is installed names one mower. -/
def InstallsOne (_ : List RegistryEvent) (s : Registry) (e : RegistryEvent) : Prop :=
  ∀ i roster, e = .resume i → (s.requests i).roster? = some roster → s.Swaps (s.requests i) →
    ∀ a ∈ roster, ∀ b ∈ roster, a.name = b.name

variable {s t : Registry} {e : RegistryEvent} {es : List RegistryEvent} {i : ℕ} {roster : List MowerConfig}

theorem cfg_eq_ok_iff {name : String} : (∃ row, s.cfg name = .ok row) ↔ name ∈ mowerNames s.mowers := by
  rw [mowerNames, List.mem_map, cfg]
  split
  · next m found =>
    exact iff_of_true ⟨m, rfl⟩ ⟨m, List.mem_of_find?_eq_some found, by simpa using List.find?_some found⟩
  · next none =>
    refine iff_of_false ?_ ?_
    · rintro ⟨row, ⟨⟩⟩
    · rintro ⟨m, mem, named⟩
      exact List.find?_eq_none.mp none m mem (decide_eq_true named)

/-- The handlers find every mower of the roster exactly if it is in the dictionary of the handles. -/
theorem serves_iff (registered : Registered s) :
    Serves es s ↔ (s.requests 0 = .returned → ∀ name ∈ mowerNames s.mowers, name ∈ s.handles.keys) := by
  refine imp_congr_right fun _ => forall_congr' fun name => ?_
  rw [← cfg_eq_ok_iff]
  constructor
  · rintro serves ⟨row, found⟩
    obtain ⟨⟨h, handle⟩, _⟩ := serves row found
    rw [Registry.handle] at handle
    split at handle <;> cases handle
    next at_ => exact OrderedDict.mem_keys_iff_get?.mpr ⟨h, at_⟩
  · intro known row found
    obtain ⟨h, at_⟩ := OrderedDict.mem_keys_iff_get?.mp (known ⟨row, found⟩)
    refine ⟨⟨h, by rw [Registry.handle, at_]⟩, h, h, ?_⟩
    rw [reconnectTarget, found, registered.together]
    simp only [at_]
    rfl

/-- A teardown installs its roster, or it goes on and leaves the dictionaries alone. -/
def Resumes (s : Registry) (i : ℕ) (roster : List MowerConfig) (ends : Prop) (t : Registry) : Prop :=
  (ends ∧ ∃ f, t = { ({ s with builds := f } : Registry).clear with mowers := roster }.buildNext i 0) ∨
    (¬ ends ∧ ∃ g pc, t = ({ s with builds := g }.suspend i pc))

theorem disconnectNext_resumes (s : Registry) (f : ℕ → Build) (i k : ℕ) (roster : List MowerConfig)
    (c : OrderedDict.Cursor) : s.Resumes i roster (s.Swaps (.disconnecting roster k c))
      ({ s with builds := f }.disconnectNext i roster c) := by
  rw [Registry.disconnectNext]
  split
  · next at_ =>
    refine .inr ⟨fun ends => ?_, _, _, rfl⟩
    cases at_.symm.trans ends
  · next at_ =>
    refine .inr ⟨fun ends => ?_, _, _, rfl⟩
    cases at_.symm.trans ends
  · next at_ => exact .inl ⟨at_, _, rfl⟩

theorem stopNext_resumes (s : Registry) (f : ℕ → Build) (i k : ℕ) (roster : List MowerConfig)
    (c : OrderedDict.Cursor) : s.Resumes i roster (s.Swaps (.stoppingHandles roster k c))
      ({ s with builds := f }.stopNext i roster c) := by
  rw [Registry.stopNext]
  split
  · next at_ =>
    refine .inr ⟨fun ends => ?_, _, _, rfl⟩
    cases at_.symm.trans ends.1
  · next at_ =>
    refine .inr ⟨fun ends => ?_, _, _, rfl⟩
    cases at_.symm.trans ends.1
  · next at_ =>
    exact (disconnectNext_resumes s f i 0 roster _).imp (.imp_left fun ends => ⟨at_, ends⟩)
      (.imp_left fun more ends => more ends.2)

theorem joinNext_resumes (s : Registry) (f : ℕ → Build) (i k : ℕ) (roster : List MowerConfig)
    (c : OrderedDict.Cursor) : s.Resumes i roster (s.Swaps (.joiningWatchdogs roster k c))
      ({ s with builds := f }.joinNext i roster c) := by
  rw [Registry.joinNext]
  split
  · next at_ =>
    refine .inr ⟨fun ends => ?_, _, _, rfl⟩
    cases at_.symm.trans ends.1
  · next at_ =>
    refine .inr ⟨fun ends => ?_, _, _, rfl⟩
    cases at_.symm.trans ends.1
  · next at_ =>
    exact (stopNext_resumes s f i 0 roster _).imp (.imp_left fun ends => ⟨at_, ends⟩)
      (.imp_left fun more ends => more ends.2)

/-- A teardown installs its roster exactly when its iterators have nothing left. -/
theorem resume_resumes (tearing : (s.requests i).roster? = some roster) (stepped : s.step (.resume i) = some t) :
    s.Resumes i roster (s.Swaps (s.requests i)) t := by
  simp only [step, resume] at stepped
  split at stepped <;> rename_i at_ <;> rw [at_] at tearing ⊢ <;> cases tearing <;> cases stepped
  · exact joinNext_resumes s s.cancelWatchdogs.builds i 0 roster _
  · exact joinNext_resumes s s.builds i _ roster _
  · exact stopNext_resumes s s.builds i _ roster _
  · exact disconnectNext_resumes s s.builds i _ roster _

/-- The rows that a build has passed are in the dictionary. -/
def Known (s : Registry) (n : ℕ) : Prop := ∀ m ∈ s.mowers.take n, m.name ∈ s.handles.keys

theorem buildNext_mowers (s : Registry) (i n : ℕ) : (s.buildNext i n).mowers = s.mowers := by
  rw [Registry.buildNext]
  split <;> rfl

theorem buildNext_requests (s : Registry) (n : ℕ) {i j : ℕ} (ne : j ≠ i) :
    (s.buildNext i n).requests j = s.requests j := by
  rw [Registry.buildNext]
  split <;> exact Function.update_of_ne ne ..

/-- The row that is built next gets its entry at once. -/
theorem mem_buildNext_handles (s : Registry) (i n : ℕ) (name : String) :
    name ∈ (s.buildNext i n).handles.keys ↔ (∃ m, s.mowers[n]? = some m ∧ name = m.name) ∨ name ∈ s.handles.keys := by
  rw [Registry.buildNext]
  split
  · next cfg at_ =>
    refine OrderedDict.mem_keys_set.trans (or_congr_left ?_)
    simp only [at_, Option.some.injEq, exists_eq_left']
  · next ends =>
    simp only [ends, reduceCtorEq, false_and, exists_false, false_or]
    rfl

/-- `_build_and_connect` goes on with the next row, or the request returns with all of them known. -/
theorem Known.buildNext {n : ℕ} (known : Known s n) (i : ℕ) :
    ((s.buildNext i n).requests i = .returned ∧ Known s s.mowers.length) ∨
      ∃ k, (s.buildNext i n).requests i = .connecting (n + 1) k ∧ Known (s.buildNext i n) (n + 1) := by
  cases at_ : s.mowers[n]? with
  | some cfg =>
    refine .inr ⟨s.built, ?_, fun m mem => (mem_buildNext_handles s i n m.name).mpr ?_⟩
    · rw [Registry.buildNext, at_]
      exact Function.update_self ..
    · rw [buildNext_mowers, List.take_add_one, at_, Option.toList_some, List.mem_append, List.mem_singleton] at mem
      exact mem.symm.imp (fun same => ⟨cfg, at_, congrArg _ same⟩) fun before => known m before
  | none =>
    refine .inl ⟨?_, fun m mem => known m ?_⟩
    · rw [Registry.buildNext, at_]
      exact Function.update_self ..
    · rwa [List.take_of_length_le (List.getElem?_eq_none_iff.mp at_), ← List.take_length (l := s.mowers)]

/-- What an event does to the roster and the requests. -/
inductive RosterStep (s : Registry) : RegistryEvent → Registry → Prop
  | save (i : ℕ) (roster : List MowerConfig) (running : s.requests 0 = .returned) (absent : s.requests i = .absent) :
      RosterStep s (.save i roster) (s.suspend i (.closingSockets roster))
  | tears (i : ℕ) {roster : List MowerConfig} {t : Registry} (tearing : (s.requests i).roster? = some roster)
      (resumes : s.Resumes i roster (s.Swaps (s.requests i)) t) : RosterStep s (.resume i) t
  | connected (i next k : ℕ) (at_ : s.requests i = .connecting next k) :
      RosterStep s (.resume i) (s.suspend i (.starting next k))
  | builds {e : RegistryEvent} (i next k : ℕ) (of : e = .resume i ∨ e = .failed i)
      (at_ : s.requests i = .connecting next k ∨ s.requests i = .starting next k) :
      RosterStep s e ((s.arm k).buildNext i next)

theorem step_roster (stepped : s.step e = some t) : RosterStep s e t := by
  cases e with
  | save i roster =>
    simp only [step] at stepped
    split_ifs at stepped with may
    cases stepped
    exact .save i roster may.1 may.2.1
  | failed i =>
    simp only [step] at stepped
    split at stepped <;> cases stepped
    · next at_ => exact .builds i _ _ (.inr rfl) (.inl at_)
    · next at_ => exact .builds i _ _ (.inr rfl) (.inr at_)
  | resume i =>
    cases tearing : (s.requests i).roster? with
    | some roster => exact .tears i tearing (resume_resumes tearing stepped)
    | none =>
      simp only [step, resume] at stepped
      split at stepped <;> rename_i at_ <;> rw [at_] at tearing <;> cases tearing <;> cases stepped
      · exact .connected i _ _ at_
      · exact .builds i _ _ (.inl rfl) (.inr at_)

/-- The lifespan is over, or it builds the loaded roster and no request has begun. -/
def Started (s : Registry) : Prop :=
  s.requests 0 = .returned ∨ ∃ next k, (s.requests 0 = .connecting next k ∨ s.requests 0 = .starting next k) ∧
    (∀ i ≠ 0, s.requests i = .absent) ∧ Known s next

theorem Started.returned (started : Started s) (i : ℕ) (ne : i ≠ 0) (begun : s.requests i ≠ .absent) :
    s.requests 0 = .returned := by
  rcases started with returned | ⟨_, _, _, absent, _⟩
  · exact returned
  · exact absurd (absent i ne) begun

theorem Started.ne_zero (started : Started s) (tearing : (s.requests i).roster? = some roster) : i ≠ 0 := by
  rintro rfl
  rcases started with returned | ⟨next, k, at_ | at_, _⟩
  · rw [returned] at tearing
    cases tearing
  · rw [at_] at tearing
    cases tearing
  · rw [at_] at tearing
    cases tearing

theorem Started.of_tearing (started : Started s) (tearing : (s.requests i).roster? = some roster) :
    s.requests 0 = .returned := by
  refine started.returned i (started.ne_zero tearing) fun absent => ?_
  rw [absent] at tearing
  cases tearing

theorem Started.of_building {next k : ℕ} (started : Started s)
    (at_ : s.requests i = .connecting next k ∨ s.requests i = .starting next k) (ne : i ≠ 0) :
    s.requests 0 = .returned := by
  refine started.returned i ne fun absent => ?_
  rw [absent] at at_
  rcases at_ with at_ | at_ <;> cases at_

/-- The lifespan builds on behind the rows that it has passed. -/
theorem Started.known {next k : ℕ} (started : Started s)
    (at_ : s.requests 0 = .connecting next k ∨ s.requests 0 = .starting next k) :
    (∀ j ≠ 0, s.requests j = .absent) ∧ Known s next := by
  rcases started with returned | ⟨n, j, here, absent, known⟩
  · rw [returned] at at_
    rcases at_ with at_ | at_ <;> cases at_
  · rcases at_ with at_ | at_ <;> rcases here with here | here <;> cases at_.symm.trans here <;> exact ⟨absent, known⟩

theorem Resumes.requests {ends : Prop} (resumes : s.Resumes i roster ends t) {j : ℕ} (ne : j ≠ i) :
    t.requests j = s.requests j := by
  rcases resumes with ⟨_, f, rfl⟩ | ⟨_, g, pc, rfl⟩
  · exact buildNext_requests _ 0 ne
  · exact Function.update_of_ne ne ..

theorem Started.step (started : Started s) (moved : RosterStep s e t) : Started t := by
  cases moved with
  | save i roster running absent =>
    have ne : 0 ≠ i := by
      rintro rfl
      cases running.symm.trans absent
    exact .inl ((Function.update_of_ne ne ..).trans running)
  | tears i tearing resumes =>
    exact .inl ((resumes.requests (started.ne_zero tearing).symm).trans (started.of_tearing tearing))
  | connected i next k at_ =>
    by_cases zero : i = 0
    · subst zero
      obtain ⟨absent, known⟩ := started.known (.inl at_)
      have starting : (s.suspend 0 (.starting next k)).requests 0 = .starting next k :=
        (suspend_requests ..).trans (if_pos rfl)
      exact .inr ⟨next, k, .inr starting, fun j ne => (Function.update_of_ne ne ..).trans (absent j ne), known⟩
    · exact .inl ((Function.update_of_ne (Ne.symm zero) ..).trans (started.of_building (.inl at_) zero))
  | builds i next k of at_ =>
    by_cases zero : i = 0
    · subst zero
      obtain ⟨absent, known⟩ := started.known at_
      have known : Known (s.arm k) next := known
      rcases known.buildNext 0 with ⟨returned, _⟩ | ⟨j, connecting, further⟩
      · exact .inl returned
      · exact .inr ⟨next + 1, j, .inl connecting, fun i ne => (buildNext_requests _ next ne).trans (absent i ne), further⟩
    · exact .inl ((buildNext_requests _ next (Ne.symm zero)).trans (started.of_building at_ zero))

/-- All mowers of the roster are registered, once request handlers run. -/
def AllKnown (s : Registry) : Prop := s.requests 0 = .returned → ∀ name ∈ mowerNames s.mowers, name ∈ s.handles.keys

theorem AllKnown.of_grows (all : AllKnown s) (running : s.requests 0 = .returned) (same : t.mowers = s.mowers)
    (grows : ∀ name ∈ s.handles.keys, name ∈ t.handles.keys) : AllKnown t := by
  intro _ name mem
  rw [same] at mem
  exact grows name (all running name mem)

/-- Installing a roster leaves its first mower registered and no other. -/
theorem installed_allKnown_iff {f : ℕ → Build} (running : s.requests 0 = .returned) (ne : i ≠ 0) :
    AllKnown ({ ({ s with builds := f } : Registry).clear with mowers := roster }.buildNext i 0) ↔
      ∀ a ∈ roster, ∀ b ∈ roster, a.name = b.name := by
  have running : ({ ({ s with builds := f } : Registry).clear with mowers := roster }.buildNext i 0).requests 0 =
      .returned := (buildNext_requests _ 0 (Ne.symm ne)).trans running
  have registered (name : String) : name ∈ ({ ({ s with builds := f } : Registry).clear with
      mowers := roster }.buildNext i 0).handles.keys ↔ ∃ m, roster[0]? = some m ∧ name = m.name :=
    (mem_buildNext_handles _ i 0 name).trans (or_iff_left List.not_mem_nil)
  simp only [AllKnown, running, true_imp_iff, registered, buildNext_mowers, mowerNames, List.forall_mem_map]
  cases roster with
  | nil => exact iff_of_true (fun _ mem => absurd mem List.not_mem_nil) fun _ mem => absurd mem List.not_mem_nil
  | cons first rest =>
    simp only [List.getElem?_cons_zero, Option.some.injEq, exists_eq_left']
    constructor
    · intro same a memA b memB
      exact (same a memA).trans (same b memB).symm
    · intro same a mem
      exact same a mem first List.mem_cons_self

/-- One step keeps all mowers registered exactly if it installs no roster of several. -/
theorem allKnown_step_iff (started : Started s) (all : AllKnown s) (moved : RosterStep s e t) :
    AllKnown t ↔ InstallsOne es s e := by
  cases moved with
  | save i roster running absent =>
    exact iff_of_true (all.of_grows running rfl fun _ => id) fun i roster is => by cases is
  | tears i tearing resumes =>
    have ne := started.ne_zero tearing
    have running := started.of_tearing tearing
    rcases resumes with ⟨ends, f, rfl⟩ | ⟨more, g, pc, rfl⟩
    · rw [installed_allKnown_iff running ne]
      constructor
      · intro same j roster' is at_ _
        cases is
        cases tearing.symm.trans at_
        exact same
      · exact fun one => one i _ rfl tearing ends
    · refine iff_of_true (all.of_grows running rfl fun _ => id) fun j roster' is _ ends => ?_
      cases is
      exact absurd ends more
  | connected i next k at_ =>
    have vacuous : InstallsOne es s (.resume i) := by
      intro j roster is tearing
      cases is
      rw [at_] at tearing
      cases tearing
    refine iff_of_true ?_ vacuous
    by_cases zero : i = 0
    · subst zero
      intro returned
      rw [suspend_requests, if_pos rfl] at returned
      cases returned
    · exact all.of_grows (started.of_building (.inl at_) zero) rfl fun _ => id
  | builds i next k of at_ =>
    have vacuous : InstallsOne es s e := by
      intro j roster is tearing
      rcases of with rfl | rfl <;> cases is
      rcases at_ with at_ | at_ <;> rw [at_] at tearing <;> cases tearing
    refine iff_of_true ?_ vacuous
    have grows : ∀ name ∈ s.handles.keys, name ∈ ((s.arm k).buildNext i next).handles.keys :=
      fun name mem => (mem_buildNext_handles _ i next name).mpr (.inr mem)
    by_cases zero : i = 0
    · subst zero
      obtain ⟨_, known⟩ := started.known at_
      have known : Known (s.arm k) next := known
      rcases known.buildNext 0 with ⟨_, whole⟩ | ⟨j, connecting, _⟩
      · intro _ name mem
        rw [buildNext_mowers, mowerNames, List.mem_map] at mem
        obtain ⟨m, mem, rfl⟩ := mem
        exact grows m.name (whole m (by rwa [List.take_length]))
      · intro returned
        cases connecting.symm.trans returned
    · exact all.of_grows (started.of_building at_ zero) (buildNext_mowers _ i next) grows

theorem started_init (loaded : List MowerConfig) : Started (init loaded) := by
  have known : Known ⟨loaded, .empty, .empty, .empty, fun _ => false, fun _ => false, fun _ => false, 0,
      fun _ => ⟨⟨"", none, "", 0, none⟩, false, false, .absent⟩, fun _ => .absent⟩ 0 :=
    fun _ mem => absurd mem List.not_mem_nil
  rcases known.buildNext 0 with ⟨returned, _⟩ | ⟨k, connecting, known⟩
  · exact .inl returned
  · exact .inr ⟨1, k, .inl connecting, fun i ne => buildNext_requests _ 0 ne, known⟩

theorem allKnown_init (loaded : List MowerConfig) : AllKnown (init loaded) := by
  intro returned name mem
  rw [init, buildNext_mowers] at mem
  cases loaded with
  | nil => exact absurd mem List.not_mem_nil
  | cons first rest => cases returned

/-- **What is accepted is registered** in every state of a run exactly if every roster that is installed names
one mower. -/
theorem roster_served_iff (loaded : List MowerConfig) (es : List RegistryEvent) (u : Registry)
    (ran : run step (init loaded) es = some u) :
    Throughout step Serves (init loaded) es ↔ Meets step InstallsOne (init loaded) es := by
  refine throughout_iff_meets (I := fun _ s => Registered s ∧ Started s)
    ⟨registered_init loaded, started_init loaded⟩ (fun es s e t inv stepped => ?_)
    ((serves_iff (registered_init loaded)).mpr (allKnown_init loaded)) (fun es s e t inv serves stepped => ?_) ran
  · exact ⟨inv.1.writes (step_writes stepped), inv.2.step (step_roster stepped)⟩
  · have registered := inv.1.writes (step_writes stepped)
    have all : AllKnown s := (serves_iff inv.1).mp serves
    exact (serves_iff registered).trans (allKnown_step_iff inv.2 all (step_roster stepped))

/-- The row of a mower without optional fields. -/
private def plain (name : String) : MowerConfig := ⟨name, none, "192.168.1.54", 9876, none⟩

/-- A roster of two mowers is saved on a server without one. -/
def twoMowers : List RegistryEvent := [.save 1 [plain "Luba-A", plain "Luba-B"], .resume 1]

/-- While the first one connects, the second one is accepted and not registered. -/
theorem twoMowers_not_served : ¬ Throughout step Serves (init []) twoMowers := by
  intro always
  obtain ⟨u, ran, running, found, missing⟩ : ∃ u, run step (init []) twoMowers = some u ∧
      u.requests 0 = .returned ∧ u.cfg "Luba-B" = .ok (plain "Luba-B") ∧ u.handle "Luba-B" = .error .unknownMower :=
    ⟨_, rfl, rfl, by decide, by decide⟩
  obtain ⟨⟨h, handle⟩, _⟩ := always.last ran running _ _ found
  cases missing.symm.trans handle

/-- A save replaces one mower by another, and the connect of the new one fails. -/
def oneMower : List RegistryEvent :=
  [.resume 0, .resume 0, .save 1 [plain "Luba-B"], .resume 1, .resume 1, .resume 1, .resume 1, .failed 1]

theorem roster_served_oneMower : Throughout step Serves (init [plain "Luba-A"]) oneMower := by
  obtain ⟨u, ran⟩ : ∃ u, run step (init [plain "Luba-A"]) oneMower = some u := ⟨_, rfl⟩
  refine (roster_served_iff [plain "Luba-A"] oneMower u ran).mpr (.of_getElem fun n e at_ s reached => ?_)
  intro i roster is tearing _
  have single : roster = [plain "Luba-B"] := by
    have short : n < 8 := (List.getElem?_eq_some_iff.mp at_).1
    interval_cases n <;> cases at_ <;> cases reached <;> cases is <;> cases tearing <;> rfl
  subst single
  intro a memA b memB
  rw [List.mem_singleton.mp memA, List.mem_singleton.mp memB]

end Registry

end MammotionRc.Server
