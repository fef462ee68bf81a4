import MammotionRc.Soundness.RegistryInvariants

/-! # A roster swap from its websocket loop to its last watchdog

A teardown that no other request overtakes marks what it passes in the dictionaries, loop by loop, and
clears them once everything in them is torn down; then its own roster is built row by row. `Inv` says
where the objects stand while several requests do this, whether or not one of them has been overtaken.
-/

namespace MammotionRc.Server

open Machine

/-- The names of a roster. -/
def mowerNames (roster : List MowerConfig) : List String := roster.map MowerConfig.name

namespace ApplyPc

/-- A request in `_build_and_connect`. -/
def Building : ApplyPc → Prop
  | connecting _ _ | starting _ _ => True
  | _ => False

/-- A request in one of the loops of `_teardown_all` over a dictionary. -/
def InLoop : ApplyPc → Prop
  | joiningWatchdogs _ _ _ | stoppingHandles _ _ _ | disconnecting _ _ _ => True
  | _ => False

/-- The roster that a request in `_teardown_all` is about to adopt. -/
def roster? : ApplyPc → Option (List MowerConfig)
  | closingSockets roster | joiningWatchdogs roster _ _ | stoppingHandles roster _ _
  | disconnecting roster _ _ => some roster
  | _ => none

theorem not_building {pc : ApplyPc} {roster : List MowerConfig} (at_ : pc.roster? = some roster) :
    ¬ pc.Building := by
  cases pc with
  | connecting next k | starting next k => cases at_
  | _ => exact id

theorem InLoop.roster {pc : ApplyPc} (inside : pc.InLoop) : ∃ roster, pc.roster? = some roster := by
  cases pc with
  | joiningWatchdogs roster | stoppingHandles roster | disconnecting roster => exact ⟨roster, rfl⟩
  | _ => cases inside

end ApplyPc

/-- Nothing was done to the objects of a build. -/
def Build.Live (build : Build) : Prop :=
  build.stopped = false ∧ build.disconnected = false ∧ build.watchdog ≠ .cancelled

/-- The three objects of a build are gone. -/
def Build.TornDown (build : Build) : Prop :=
  build.stopped = true ∧ build.disconnected = true ∧ build.watchdog = .cancelled

/-- What a teardown does to a build. -/
structure Build.Below (before after : Build) : Prop where
  cfg : after.cfg = before.cfg
  stopped : before.stopped = true → after.stopped = true
  disconnected : before.disconnected = true → after.disconnected = true
  cancelled : before.watchdog = .cancelled → after.watchdog = .cancelled
  created : before.watchdog ≠ .absent → after.watchdog ≠ .absent

theorem Build.Below.refl (build : Build) : build.Below build := ⟨rfl, id, id, id, id⟩

theorem Build.Below.trans {a b c : Build} (first : a.Below b) (second : b.Below c) : a.Below c :=
  ⟨second.cfg.trans first.cfg, second.stopped ∘ first.stopped, second.disconnected ∘ first.disconnected,
    second.cancelled ∘ first.cancelled, second.created ∘ first.created⟩

theorem Build.below_update {f : ℕ → Build} {j : ℕ} {build : Build} (below : (f j).Below build) (k : ℕ) :
    (f k).Below (Function.update f j build k) := by
  rw [Function.update_apply]
  split_ifs with same
  · rw [same]
    exact below
  · exact .refl _

theorem Build.Below.tornDown {before after : Build} (below : before.Below after)
    (torn : before.TornDown) : after.TornDown :=
  ⟨below.stopped torn.1, below.disconnected torn.2.1, below.cancelled torn.2.2⟩

namespace Registry

/-- Request `i` left its websocket loop when `n` mowers had been built. -/
def Entered (loaded : List MowerConfig) (es : List RegistryEvent) (i n : ℕ) : Prop :=
  ∃ before t roster, before ++ [.resume i] <+: es ∧ run step (init loaded) before = some t ∧
    t.requests i = .closingSockets roster ∧ t.built = n

/-- What the loops of a teardown have passed is torn down, and the one it is in can go on. -/
def Passed (s : Registry) : ApplyPc → Prop
  | .joiningWatchdogs _ _ c =>
    (∀ k ∈ s.watchdogTasks.values, (s.builds k).watchdog = .cancelled) ∧ c.size = s.watchdogTasks.size
  | .stoppingHandles _ _ c =>
    (∀ k ∈ s.watchdogTasks.values, (s.builds k).watchdog = .cancelled) ∧
      (∀ k ∈ s.handles.values.take c.passed, (s.builds k).stopped = true) ∧ c.size = s.handles.size
  | .disconnecting _ _ c =>
    (∀ k ∈ s.watchdogTasks.values, (s.builds k).watchdog = .cancelled) ∧
      (∀ k ∈ s.handles.values, (s.builds k).stopped = true) ∧
      (∀ k ∈ s.transports.values.take c.passed, (s.builds k).disconnected = true) ∧
      c.size = s.transports.size
  | _ => False

/-- No request builds. The dictionaries hold the roster, all of it live unless a teardown is under way. -/
structure Complete (s : Registry) : Prop where
  idle : ∀ i, ¬ (s.requests i).Building
  armed : s.watchdogTasks = s.handles
  names : s.handles.keys = mowerNames s.mowers
  created : ∀ k ∈ s.handles.values, (s.builds k).watchdog ≠ .absent
  live : (∃ i, s.Passed (s.requests i)) ∨ ∀ k ∈ s.handles.values, (s.builds k).Live

/-- Request `i` builds mower `k` and goes on at index `next`; everything registered is live. -/
structure Partial (s : Registry) (i next k : ℕ) : Prop where
  building : s.requests i = .connecting next k ∨ s.requests i = .starting next k
  only : ∀ j, (s.requests j).Building → j = i
  armed : s.handles.items = s.watchdogTasks.items ++ [((s.builds k).cfg.name, k)]
  names : s.handles.keys = mowerNames (s.mowers.take next)
  created : ∀ j ∈ s.watchdogTasks.values, (s.builds j).watchdog ≠ .absent
  live : ∀ j ∈ s.handles.values, (s.builds j).Live

/-- `MOWERS` is the roster of a request. -/
def Adopted (es : List RegistryEvent) (s : Registry) : Prop :=
  ∃ i roster, .save i roster ∈ es ∧ s.mowers = roster

/-- What a run of serialised saves keeps: whatever has left the registry is torn down, the registry is
complete or one request builds it, and a teardown since which nothing was built marks what it has passed. -/
structure Inv (loaded : List MowerConfig) (es : List RegistryEvent) (s : Registry) : Prop where
  registered : Registered s
  distinct : (mowerNames s.mowers).Nodup
  torn : ∀ k < s.built, k ∉ s.handles.values → (s.builds k).TornDown
  phase : Complete s ∨ ∃ i next k, Partial s i next k
  rosters : ∀ i roster, (s.requests i).roster? = some roster →
    (mowerNames roster).Nodup ∧ roster ≠ [] ∧ .save i roster ∈ es
  loops : ∀ i, (s.requests i).InLoop → ∃ n, Entered loaded es i n ∧ n ≤ s.built ∧
    (n = s.built → s.Passed (s.requests i) ∧ ∀ j, ¬ (s.requests j).Building) ∧
    (n = s.built ∨ Adopted es s)
  lifespan : s.requests 0 = .returned ∨
    (s.requests 0).Building ∧ ∀ i, i ≠ 0 → s.requests i = .absent
  adopted : Adopted es s ∨
    s.mowers = loaded ∧ ∀ i, i ≠ 0 → s.requests i = .absent ∨ (s.requests i).roster?.isSome

variable {loaded roster : List MowerConfig} {es : List RegistryEvent} {e : RegistryEvent} {s t : Registry}
  {f : ℕ → Build} {i k : ℕ} {c : OrderedDict.Cursor} {pc : ApplyPc}

theorem Entered.mono {n : ℕ} (entered : Entered loaded es i n) (e : RegistryEvent) :
    Entered loaded (es ++ [e]) i n := by
  obtain ⟨before, t, roster, inside, rest⟩ := entered
  exact ⟨before, t, roster, inside.trans (List.prefix_append es [e]), rest⟩

theorem Adopted.mono (adopted : Adopted es s) (e : RegistryEvent) : Adopted (es ++ [e]) s := by
  obtain ⟨i, roster, made, mowers⟩ := adopted
  exact ⟨i, roster, List.mem_append_left _ made, mowers⟩

theorem Inv.mono (inv : Inv loaded es s) (e : RegistryEvent) : Inv loaded (es ++ [e]) s := by
  refine { inv with rosters := ?_, loops := ?_, adopted := ?_ }
  · intro i roster at_
    obtain ⟨nodup, some_, made⟩ := inv.rosters i roster at_
    exact ⟨nodup, some_, List.mem_append_left _ made⟩
  · intro i inside
    obtain ⟨n, entered, le, fresh, adopted⟩ := inv.loops i inside
    exact ⟨n, entered.mono e, le, fresh, adopted.imp_right fun a => a.mono e⟩
  · exact inv.adopted.imp_left fun a => a.mono e

theorem Passed.mono (passed : s.Passed pc) (below : ∀ k, (s.builds k).Below (f k)) :
    { s with builds := f }.Passed pc := by
  cases pc with
  | joiningWatchdogs roster k c =>
    obtain ⟨cancelled, size⟩ := passed
    exact ⟨fun k mem => (below k).cancelled (cancelled k mem), size⟩
  | stoppingHandles roster k c =>
    obtain ⟨cancelled, stopped, size⟩ := passed
    exact ⟨fun k mem => (below k).cancelled (cancelled k mem),
      fun k mem => (below k).stopped (stopped k mem), size⟩
  | disconnecting roster k c =>
    obtain ⟨cancelled, stopped, disconnected, size⟩ := passed
    exact ⟨fun k mem => (below k).cancelled (cancelled k mem),
      fun k mem => (below k).stopped (stopped k mem),
      fun k mem => (below k).disconnected (disconnected k mem), size⟩
  | _ => cases passed

/-- Only a request other than the lifespan tears down. -/
theorem Inv.ne_lifespan (inv : Inv loaded es s) (at_ : (s.requests i).roster? = some roster) :
    i ≠ 0 ∧ s.requests 0 = .returned := by
  have ne : i ≠ 0 := by
    rintro rfl
    rcases inv.lifespan with returned | ⟨building, _⟩
    · rw [returned] at at_; cases at_
    · exact ApplyPc.not_building at_ building
  refine ⟨ne, inv.lifespan.resolve_right fun boot => ?_⟩
  rw [boot.2 i ne] at at_
  cases at_

/-- A teardown that nobody overtook moves on: it has done something to the builds, and the loop it is in
has passed what is torn down. -/
theorem Inv.advance (inv : Inv loaded es s) (at_ : (s.requests i).roster? = some roster)
    (entered : Entered loaded es i s.built) (idle : ∀ j, ¬ (s.requests j).Building)
    (below : ∀ k, (s.builds k).Below (f k)) (passed : { s with builds := f }.Passed pc)
    (same : pc.roster? = some roster) : Inv loaded es ({ s with builds := f }.suspend i pc) := by
  obtain ⟨ne, returned⟩ := inv.ne_lifespan at_
  obtain complete | ⟨j, next, k, part⟩ := inv.phase
  swap
  · rcases part.building with building | building <;>
      exact absurd (by rw [building]; trivial) (idle j)
  constructor
  · exact ⟨inv.registered.together, fun name k mem =>
      ⟨(inv.registered.own name k mem).1, (below k).cfg ▸ (inv.registered.own name k mem).2⟩⟩
  · exact inv.distinct
  · exact fun k lt out => (below k).tornDown (inv.torn k lt out)
  · refine .inl ⟨fun j => ?_, complete.armed, complete.names,
      fun k mem => (below k).created (complete.created k mem), .inl ⟨i, ?_⟩⟩
    · rw [suspend_requests]
      split_ifs
      · exact ApplyPc.not_building same
      · exact idle j
    · rw [suspend_requests, if_pos rfl]
      exact passed
  · intro j r atj
    rw [suspend_requests] at atj
    split_ifs at atj with self
    · rw [self]
      exact inv.rosters i r (at_.trans (same.symm.trans atj))
    · exact inv.rosters j r atj
  · intro j inside
    rw [suspend_requests] at inside ⊢
    have others : ∀ l, ¬ ((({ s with builds := f } : Registry).suspend i pc).requests l).Building := by
      intro l
      rw [suspend_requests]
      split_ifs
      · exact ApplyPc.not_building same
      · exact idle l
    split_ifs at inside ⊢ with self
    · subst self
      exact ⟨s.built, entered, le_rfl, fun _ => ⟨passed, others⟩, .inl rfl⟩
    · obtain ⟨n, enteredj, le, fresh, adopted⟩ := inv.loops j inside
      exact ⟨n, enteredj, le, fun now => ⟨(fresh now).1.mono below, others⟩, adopted⟩
  · left
    rw [suspend_requests, if_neg ne.symm]
    exact returned
  · refine inv.adopted.imp_right fun ⟨mowers, begun⟩ => ⟨mowers, fun j nej => ?_⟩
    rw [suspend_requests]
    split_ifs
    · exact .inr (same ▸ rfl)
    · exact begun j nej

/-- Request `i` is about to build its roster from index `n` on. -/
structure Ready (loaded : List MowerConfig) (es : List RegistryEvent) (i n : ℕ) (s : Registry) : Prop where
  registered : Registered s
  distinct : (mowerNames s.mowers).Nodup
  torn : ∀ k < s.built, k ∉ s.handles.values → (s.builds k).TornDown
  armed : s.watchdogTasks = s.handles
  names : s.handles.keys = mowerNames (s.mowers.take n)
  created : ∀ k ∈ s.handles.values, (s.builds k).watchdog ≠ .absent
  live : ∀ k ∈ s.handles.values, (s.builds k).Live
  only : ∀ j, (s.requests j).Building → j = i
  rosters : ∀ j roster, j ≠ i → (s.requests j).roster? = some roster →
    (mowerNames roster).Nodup ∧ roster ≠ [] ∧ .save j roster ∈ es
  loops : ∀ j, j ≠ i → (s.requests j).InLoop →
    ∃ m, Entered loaded es j m ∧ m ≤ s.built ∧ (m = s.built → n < s.mowers.length)
  owner : i = 0 ∧ (Adopted es s ∨ s.mowers = loaded) ∧ (∀ j, j ≠ 0 → s.requests j = .absent) ∨
    i ≠ 0 ∧ Adopted es s ∧ s.requests 0 = .returned

theorem Ready.loop_adopted {n j : ℕ} (ready : Ready loaded es i n s) (other : j ≠ i)
    (inside : (s.requests j).InLoop) : Adopted es s := by
  rcases ready.owner with ⟨rfl, _, absent⟩ | ⟨_, adopted, _⟩
  · rw [absent j other] at inside
    cases inside
  · exact adopted

theorem Ready.register {n : ℕ} {cfg : MowerConfig} (ready : Ready loaded es i n s)
    (row : s.mowers[n]? = some cfg) :
    Inv loaded es ((s.register cfg).suspend i (.connecting (n + 1) s.built)) := by
  have taken : s.mowers.take (n + 1) = s.mowers.take n ++ [cfg] := by
    rw [List.take_add_one, row, Option.toList_some]
  have fresh : cfg.name ∉ s.handles.keys := by
    have nodup : (mowerNames (s.mowers.take (n + 1))).Nodup :=
      ready.distinct.sublist ((List.take_sublist _ _).map _)
    rw [taken, mowerNames, List.map_append, List.map_singleton] at nodup
    rw [ready.names]
    exact fun mem => (List.nodup_append.mp nodup).2.2 _ mem _ (List.mem_singleton_self _) rfl
  have items := OrderedDict.set_items_of_notMem fresh s.built
  have builds : ∀ k, k ≠ s.built → (s.register cfg).builds k = s.builds k := fun k ne => by
    rw [Registry.register, setBuild_builds, if_neg ne]
  have new : (s.register cfg).builds s.built = ⟨cfg, false, false, .absent⟩ := by
    rw [Registry.register, setBuild_builds, if_pos rfl]
  have old : ∀ k, k ∈ s.handles.values → k ≠ s.built := fun k mem => by
    obtain ⟨name, mem⟩ := OrderedDict.mem_values_iff.mp mem
    have := (ready.registered.own name k mem).1
    omega
  have values : ∀ k, k ∈ (s.register cfg).handles.values ↔ k ∈ s.handles.values ∨ k = s.built := fun k => by
    simp only [OrderedDict.values, Registry.register, setBuild_handles, items, List.map_append,
      List.map_singleton, List.mem_append, List.mem_singleton]
  constructor
  · exact (ready.registered.write (.register cfg)).write (.suspend i _)
  · exact ready.distinct
  · intro k lt out
    have out : ¬ (k ∈ s.handles.values ∨ k = s.built) := fun mem => out ((values k).mpr mem)
    rw [not_or] at out
    rw [suspend_builds, builds k out.2]
    have lt : k < s.built + 1 := lt
    exact ready.torn k (by omega) out.1
  · refine .inr ⟨i, n + 1, s.built, ?_, fun j building => ?_, ?_, ?_, fun k mem => ?_, fun k mem => ?_⟩
    · left
      rw [suspend_requests, if_pos rfl]
    · rw [suspend_requests] at building
      split_ifs at building with self
      · exact self
      · exact ready.only j building
    · rw [suspend_builds, new, suspend_watchdogTasks,
        show (s.register cfg).watchdogTasks = s.watchdogTasks from rfl, ready.armed]
      exact items
    · rw [show ((s.register cfg).suspend i (.connecting (n + 1) s.built)).mowers = s.mowers from rfl, taken,
        mowerNames, List.map_append, List.map_singleton, ← mowerNames, ← ready.names]
      simp only [OrderedDict.keys, suspend_handles, Registry.register, setBuild_handles, items,
        List.map_append, List.map_singleton]
    · have mem : k ∈ s.watchdogTasks.values := mem
      rw [ready.armed] at mem
      rw [suspend_builds, builds k (old k mem)]
      exact ready.created k mem
    · rw [suspend_builds]
      rcases (values k).mp mem with before | rfl
      · rw [builds k (old k before)]
        exact ready.live k before
      · rw [new]
        exact ⟨rfl, rfl, by rintro ⟨⟩⟩
  · intro j roster at_
    rw [suspend_requests] at at_
    split_ifs at at_ with self
    · cases at_
    · exact ready.rosters j roster self at_
  · intro j inside
    rw [suspend_requests] at inside
    split_ifs at inside with self
    · cases inside
    · obtain ⟨m, entered, le, _⟩ := ready.loops j self inside
      refine ⟨m, entered, Nat.le_succ_of_le le, fun now => ?_, .inr (ready.loop_adopted self inside)⟩
      have now : m = s.built + 1 := now
      omega
  · rw [suspend_requests]
    rcases ready.owner with ⟨rfl, _, absent⟩ | ⟨ne, _, returned⟩
    · refine .inr ⟨by rw [if_pos rfl]; trivial, fun j ne => ?_⟩
      rw [suspend_requests, if_neg ne]
      exact absent j ne
    · rw [if_neg ne.symm]
      exact .inl returned
  · rcases ready.owner with ⟨rfl, adopted | mowers, absent⟩ | ⟨ne, adopted, _⟩
    · exact .inl adopted
    · refine .inr ⟨mowers, fun j ne => .inl ?_⟩
      rw [suspend_requests, if_neg ne]
      exact absent j ne
    · exact .inl adopted

theorem Ready.finished {n : ℕ} (ready : Ready loaded es i n s) (ends : s.mowers[n]? = none) :
    Inv loaded es (s.suspend i .returned) := by
  have beyond := List.getElem?_eq_none_iff.mp ends
  have idle : ∀ j, ¬ ((s.suspend i .returned).requests j).Building := fun j building => by
    rw [suspend_requests] at building
    split_ifs at building with self
    · exact building
    · exact self (ready.only j building)
  constructor
  · exact ready.registered.write (.suspend i _)
  · exact ready.distinct
  · exact ready.torn
  · refine .inl ⟨idle, ready.armed, ?_, ready.created, .inr ready.live⟩
    rw [suspend_handles, ready.names, List.take_of_length_le beyond, suspend_mowers]
  · intro j roster at_
    rw [suspend_requests] at at_
    split_ifs at at_ with self
    · cases at_
    · exact ready.rosters j roster self at_
  · intro j inside
    rw [suspend_requests] at inside
    split_ifs at inside with self
    · cases inside
    · obtain ⟨m, entered, le, more⟩ := ready.loops j self inside
      refine ⟨m, entered, le, fun now => ?_, .inr (ready.loop_adopted self inside)⟩
      have := more now
      omega
  · rw [suspend_requests]
    rcases ready.owner with ⟨rfl, _, _⟩ | ⟨ne, _, returned⟩
    · left
      rw [if_pos rfl]
    · rw [if_neg ne.symm]
      exact .inl returned
  · rcases ready.owner with ⟨rfl, adopted | mowers, absent⟩ | ⟨_, adopted, _⟩
    · exact .inl adopted
    · refine .inr ⟨mowers, fun j ne => .inl ?_⟩
      rw [suspend_requests, if_neg ne]
      exact absent j ne
    · exact .inl adopted

theorem Ready.buildNext {n : ℕ} (ready : Ready loaded es i n s) : Inv loaded es (s.buildNext i n) := by
  rw [Registry.buildNext]
  split
  · next row => exact ready.register row
  · next ends => exact ready.finished ends

/-- A teardown that nobody overtook leaves nothing behind. -/
theorem Inv.cleared (inv : Inv loaded es s) (at_ : (s.requests i).roster? = some roster)
    (idle : ∀ j, ¬ (s.requests j).Building) (below : ∀ k, (s.builds k).Below (f k))
    (gone : ∀ k ∈ s.handles.values, (f k).TornDown) :
    Ready loaded es i 0 { ({ s with builds := f } : Registry).clear with mowers := roster } := by
  obtain ⟨ne, returned⟩ := inv.ne_lifespan at_
  obtain ⟨nodup, nonempty, made⟩ := inv.rosters i roster at_
  have adopted : Adopted es { ({ s with builds := f } : Registry).clear with mowers := roster } :=
    ⟨i, roster, made, rfl⟩
  refine ⟨⟨rfl, fun _ _ mem => absurd mem List.not_mem_nil⟩, nodup, fun k lt _ => ?_, rfl, rfl,
    fun k mem => absurd mem List.not_mem_nil, fun k mem => absurd mem List.not_mem_nil,
    fun j building => absurd building (idle j), fun j roster _ => inv.rosters j roster,
    fun j _ inside => ?_, .inr ⟨ne, adopted, returned⟩⟩
  · by_cases registered : k ∈ s.handles.values
    · exact gone k registered
    · exact (below k).tornDown (inv.torn k lt registered)
  · obtain ⟨m, entered, le, _⟩ := inv.loops j inside
    exact ⟨m, entered, le, fun _ => List.length_pos_of_ne_nil nonempty⟩

/-- The builds of a `Complete` registry are registered with a watchdog each. -/
theorem Complete.values (complete : Complete s) : s.watchdogTasks.values = s.handles.values := by
  rw [complete.armed]

theorem Inv.complete (inv : Inv loaded es s) (idle : ∀ j, ¬ (s.requests j).Building) : Complete s := by
  obtain complete | ⟨j, next, k, part⟩ := inv.phase
  · exact complete
  · rcases part.building with building | building <;>
      exact absurd (by rw [building]; trivial) (idle j)

theorem Inv.disconnectNext (inv : Inv loaded es s) (at_ : (s.requests i).roster? = some roster)
    (entered : Entered loaded es i s.built) (idle : ∀ j, ¬ (s.requests j).Building)
    (below : ∀ k, (s.builds k).Below (f k))
    (passed : { s with builds := f }.Passed (.disconnecting roster k c)) :
    Inv loaded es ({ s with builds := f }.disconnectNext i roster c) := by
  obtain ⟨cancelled, stopped, disconnected, size⟩ := passed
  rw [Registry.disconnectNext]
  split
  · next changed => exact absurd changed (OrderedDict.advance_ne_changed size)
  · next j item =>
    have further : ∀ k, (f k).Below (Function.update f j { f j with disconnected := true } k) :=
      Build.below_update ⟨rfl, id, fun _ => rfl, id, id⟩
    refine inv.advance at_ entered idle (fun k => (below k).trans (further k))
      ⟨fun k mem => (further k).cancelled (cancelled k mem),
        fun k mem => (further k).stopped (stopped k mem), fun k mem => ?_, size⟩ rfl
    rw [OrderedDict.advance_item item, List.mem_append, List.mem_singleton] at mem
    rcases mem with mem | rfl
    · exact (further k).disconnected (disconnected k mem)
    · simp only [Function.update_self]
  · next ends =>
    refine (inv.cleared at_ idle below fun k mem => ⟨stopped k mem, ?_, ?_⟩).buildNext
    · rw [OrderedDict.advance_exhausted ends] at disconnected
      exact disconnected k (inv.registered.together ▸ mem)
    · exact cancelled k ((inv.complete idle).values ▸ mem)

theorem Inv.stopNext (inv : Inv loaded es s) (at_ : (s.requests i).roster? = some roster)
    (entered : Entered loaded es i s.built) (idle : ∀ j, ¬ (s.requests j).Building)
    (below : ∀ k, (s.builds k).Below (f k))
    (passed : { s with builds := f }.Passed (.stoppingHandles roster k c)) :
    Inv loaded es ({ s with builds := f }.stopNext i roster c) := by
  obtain ⟨cancelled, stopped, size⟩ := passed
  rw [Registry.stopNext]
  split
  · next changed => exact absurd changed (OrderedDict.advance_ne_changed size)
  · next j item =>
    have further : ∀ k, (f k).Below (Function.update f j { f j with stopped := true } k) :=
      Build.below_update ⟨rfl, fun _ => rfl, id, id, id⟩
    refine inv.advance at_ entered idle (fun k => (below k).trans (further k))
      ⟨fun k mem => (further k).cancelled (cancelled k mem), fun k mem => ?_, size⟩ rfl
    rw [OrderedDict.advance_item item, List.mem_append, List.mem_singleton] at mem
    rcases mem with mem | rfl
    · exact (further k).stopped (stopped k mem)
    · simp only [Function.update_self]
  · next ends =>
    rw [OrderedDict.advance_exhausted ends] at stopped
    exact inv.disconnectNext (k := 0) at_ entered idle below
      ⟨cancelled, stopped, fun k mem => absurd mem List.not_mem_nil, rfl⟩

theorem Inv.joinNext (inv : Inv loaded es s) (at_ : (s.requests i).roster? = some roster)
    (entered : Entered loaded es i s.built) (idle : ∀ j, ¬ (s.requests j).Building)
    (below : ∀ k, (s.builds k).Below (f k))
    (passed : { s with builds := f }.Passed (.joiningWatchdogs roster k c)) :
    Inv loaded es ({ s with builds := f }.joinNext i roster c) := by
  obtain ⟨cancelled, size⟩ := passed
  rw [Registry.joinNext]
  split
  · next changed => exact absurd changed (OrderedDict.advance_ne_changed size)
  · exact inv.advance at_ entered idle below ⟨cancelled, size⟩ rfl
  · exact inv.stopNext (k := 0) at_ entered idle below
      ⟨cancelled, fun k mem => absurd mem List.not_mem_nil, rfl⟩

/-- A request moves on without touching the registry. -/
theorem Inv.suspend (inv : Inv loaded es s) (stuck : ¬ s.Passed (s.requests i)) (outside : ¬ pc.InLoop)
    (building : pc.Building ↔ (s.requests i).Building)
    (goesOn : ∀ next k, s.requests i = .connecting next k ∨ s.requests i = .starting next k →
      pc = .connecting next k ∨ pc = .starting next k)
    (rosters : ∀ roster, pc.roster? = some roster →
      (mowerNames roster).Nodup ∧ roster ≠ [] ∧ .save i roster ∈ es)
    (returned : pc.Building ∨ i ≠ 0 ∧ s.requests 0 = .returned)
    (adopted : Adopted es s ∨ i = 0 ∨ pc.roster?.isSome) : Inv loaded es (s.suspend i pc) := by
  have same : ∀ j, ((s.suspend i pc).requests j).Building ↔ (s.requests j).Building := by
    intro j
    rw [suspend_requests]
    split_ifs with self
    · rw [self]
      exact building
    · exact Iff.rfl
  constructor
  · exact inv.registered.write (.suspend i _)
  · exact inv.distinct
  · exact inv.torn
  · rcases inv.phase with complete | ⟨j, next, k, part⟩
    · refine .inl ⟨fun j at_ => complete.idle j ((same j).mp at_), complete.armed, complete.names,
        complete.created, complete.live.imp_left fun ⟨j, passed⟩ => ⟨j, ?_⟩⟩
      rw [suspend_requests, if_neg (by rintro rfl; exact stuck passed)]
      exact passed
    · refine .inr ⟨j, next, k, ?_, fun l at_ => part.only l ((same l).mp at_), part.armed, part.names,
        part.created, part.live⟩
      rw [suspend_requests]
      split_ifs with self
      · exact goesOn next k (self ▸ part.building)
      · exact part.building
  · intro j roster at_
    rw [suspend_requests] at at_
    split_ifs at at_ with self
    · rw [self]
      exact rosters roster at_
    · exact inv.rosters j roster at_
  · intro j inside
    rw [suspend_requests] at inside ⊢
    split_ifs at inside ⊢
    · exact absurd inside outside
    · obtain ⟨m, entered, le, fresh, adopted⟩ := inv.loops j inside
      exact ⟨m, entered, le, fun now => ⟨(fresh now).1, fun l at_ => (fresh now).2 l ((same l).mp at_)⟩,
        adopted⟩
  · rcases returned with builds | ⟨ne, returned⟩
    · refine inv.lifespan.imp (fun returned => ?_) fun ⟨boot, absent⟩ => ⟨(same 0).mpr boot, fun j ne => ?_⟩
      · rw [suspend_requests, if_neg ?_]
        · exact returned
        · rintro rfl
          have := building.mp builds
          rw [returned] at this
          exact this
      · rw [suspend_requests, if_neg ?_]
        · exact absent j ne
        · rintro rfl
          have := building.mp builds
          rw [absent j ne] at this
          exact this
    · left
      rw [suspend_requests, if_neg ne.symm]
      exact returned
  · refine inv.adopted.elim .inl fun ⟨mowers, begun⟩ =>
      adopted.imp_right fun begins => ⟨mowers, fun j ne => ?_⟩
    rw [suspend_requests]
    split_ifs with self
    · exact .inr (begins.resolve_left (self ▸ ne))
    · exact begun j ne

/-- A request whose loop cannot go on leaves the registry as it is. -/
theorem Inv.raised (inv : Inv loaded es s) (inside : (s.requests i).InLoop)
    (stuck : ¬ s.Passed (s.requests i)) : Inv loaded es (s.suspend i .raised) := by
  obtain ⟨n, _, _, fresh, adopted⟩ := inv.loops i inside
  obtain ⟨roster, at_⟩ := inside.roster
  have notBuilding := ApplyPc.not_building at_
  refine inv.suspend stuck id ⟨nofun, fun builds => absurd builds notBuilding⟩ (fun next k at_ => ?_) nofun
    (.inr (inv.ne_lifespan at_)) (.inl (adopted.resolve_left fun now => stuck (fresh now).1))
  rcases at_ with at_ | at_ <;> exact absurd (by rw [at_]; trivial) notBuilding

theorem Inv.save (inv : Inv loaded es s) (returned : s.requests 0 = .returned)
    (absent : s.requests i = .absent) (distinct : (mowerNames roster).Nodup) (accepted : Accepted roster) :
    Inv loaded (es ++ [RegistryEvent.save i roster]) (s.suspend i (.closingSockets roster)) := by
  refine (inv.mono (.save i roster)).suspend (by rw [absent]; exact id) id (by rw [absent]; exact Iff.rfl)
    (fun next k at_ => ?_) ?_ (.inr ⟨?_, returned⟩) (.inr (.inr rfl))
  · rw [absent] at at_
    rcases at_ with at_ | at_ <;> cases at_
  · rintro _ ⟨⟩
    exact ⟨distinct, accepted.1, List.mem_append_right _ (List.mem_singleton_self _)⟩
  · rintro rfl
    rw [returned] at absent
    cases absent

theorem Inv.connected {next : ℕ} (inv : Inv loaded es s) (at_ : s.requests i = .connecting next k) :
    Inv loaded es (s.suspend i (.starting next k)) := by
  refine inv.suspend (by rw [at_]; exact id) id (by rw [at_]; exact Iff.rfl) (fun _ _ at' => ?_) nofun
    (.inl trivial) ?_
  · rw [at_] at at'
    rcases at' with at' | at' <;> cases at'
    exact .inr rfl
  · refine inv.adopted.imp_right fun ⟨_, begun⟩ => .inl (by_contra fun ne => ?_)
    rcases begun i ne with absent | tearing
    · rw [at_] at absent; cases absent
    · rw [at_] at tearing; cases tearing

/-- The watchdog of a mower is the last of its objects to be registered. -/
theorem Inv.arm {next : ℕ} (inv : Inv loaded es s)
    (at_ : s.requests i = .connecting next k ∨ s.requests i = .starting next k) :
    Ready loaded es i next (s.arm k) := by
  have builds : (s.requests i).Building := by rcases at_ with at_ | at_ <;> rw [at_] <;> trivial
  obtain complete | ⟨j, next', k', part⟩ := inv.phase
  · exact absurd builds (complete.idle i)
  obtain rfl := part.only i builds
  obtain ⟨rfl, rfl⟩ : next = next' ∧ k = k' := by
    rcases at_ with at_ | at_ <;> rcases part.building with is | is <;> rw [at_] at is <;> cases is <;>
      exact ⟨rfl, rfl⟩
  have fresh : (s.builds k).cfg.name ∉ s.watchdogTasks.keys := by
    have nodup := s.handles.nodup
    rw [part.armed, List.map_append] at nodup
    exact fun mem => (List.nodup_append.mp nodup).2.2 _ mem _ (List.mem_singleton_self _) rfl
  have armed : (s.arm k).watchdogTasks = s.handles := by
    apply OrderedDict.ext
    rw [part.armed]
    exact OrderedDict.set_items_of_notMem fresh k
  have builds' : ∀ j, (s.arm k).builds j = if j = k then { s.builds k with watchdog := .running } else
      s.builds j := setBuild_builds _ k _
  have mem_values : ∀ j, j ∈ s.handles.values → j ≠ k → j ∈ s.watchdogTasks.values := by
    intro j mem ne
    rw [OrderedDict.values, part.armed, List.map_append, List.mem_append] at mem
    exact mem.resolve_right fun last => ne (List.mem_singleton.mp last)
  have registered : k ∈ s.handles.values := by
    rw [OrderedDict.values, part.armed, List.map_append]
    exact List.mem_append_right _ (List.mem_singleton_self _)
  refine ⟨inv.registered.write (.arm k), inv.distinct, fun j lt out => ?_, armed, part.names,
    fun j mem => ?_, fun j mem => ?_, part.only, fun j roster _ => inv.rosters j roster,
    fun j _ inside => ?_, ?_⟩
  · rw [builds', if_neg (by rintro rfl; exact out registered)]
    exact inv.torn j lt out
  · rw [builds']
    split_ifs with same
    · rintro ⟨⟩
    · exact part.created j (mem_values j mem same)
  · rw [builds']
    split_ifs with same
    · obtain ⟨stopped, disconnected, _⟩ := part.live k registered
      exact ⟨stopped, disconnected, by rintro ⟨⟩⟩
    · exact part.live j mem
  · obtain ⟨m, entered, le, fresh, _⟩ := inv.loops j inside
    exact ⟨m, entered, le, fun now => absurd builds ((fresh now).2 i)⟩
  · rcases inv.lifespan with returned | ⟨boot, absent⟩
    · have ne : i ≠ 0 := by
        rintro rfl
        rw [returned] at builds
        exact builds
      refine .inr ⟨ne, inv.adopted.resolve_right ?_, returned⟩
      rintro ⟨_, begun⟩
      rcases begun i ne with absent | tearing
      · rw [absent] at builds
        exact builds
      · obtain ⟨roster, at_⟩ := Option.isSome_iff_exists.mp tearing
        exact ApplyPc.not_building at_ builds
    · exact .inl ⟨(part.only 0 boot).symm, inv.adopted.imp_right And.left, absent⟩

theorem inv_init (distinct : (mowerNames loaded).Nodup) : Inv loaded [] (init loaded) := by
  apply Ready.buildNext
  exact ⟨⟨rfl, fun _ _ mem => absurd mem List.not_mem_nil⟩, distinct,
    fun _ lt => absurd lt (Nat.not_lt_zero _), rfl, rfl, fun _ mem => absurd mem List.not_mem_nil,
    fun _ mem => absurd mem List.not_mem_nil, fun _ building => absurd building id,
    fun _ _ _ => nofun, fun _ _ inside => absurd inside id, .inl ⟨rfl, .inr rfl, fun _ _ => rfl⟩⟩

end Registry

end MammotionRc.Server
