import Mathlib.Logic.Relation
import MammotionRc.Server.Registry

/-! # What every run keeps of the live registry

Whatever a request does between two awaits is a sequence of a few writes. A fact that each of them keeps
holds in every state: a handle and its transport are registered together, a registered object belongs to
the mower it is registered for, and an object that left the registry never comes back.
-/

namespace MammotionRc.Server

open Machine

namespace Registry

section Fields

variable (s : Registry) (i k : ℕ) (pc : ApplyPc) (build : Build)

@[simp] theorem suspend_mowers : (s.suspend i pc).mowers = s.mowers := rfl
@[simp] theorem suspend_handles : (s.suspend i pc).handles = s.handles := rfl
@[simp] theorem suspend_transports : (s.suspend i pc).transports = s.transports := rfl
@[simp] theorem suspend_watchdogTasks : (s.suspend i pc).watchdogTasks = s.watchdogTasks := rfl
@[simp] theorem suspend_built : (s.suspend i pc).built = s.built := rfl
@[simp] theorem suspend_builds : (s.suspend i pc).builds = s.builds := rfl
@[simp] theorem suspend_requests (j : ℕ) :
    (s.suspend i pc).requests j = if j = i then pc else s.requests j := Function.update_apply ..

@[simp] theorem setBuild_mowers : (s.setBuild k build).mowers = s.mowers := rfl
@[simp] theorem setBuild_handles : (s.setBuild k build).handles = s.handles := rfl
@[simp] theorem setBuild_transports : (s.setBuild k build).transports = s.transports := rfl
@[simp] theorem setBuild_watchdogTasks : (s.setBuild k build).watchdogTasks = s.watchdogTasks := rfl
@[simp] theorem setBuild_built : (s.setBuild k build).built = s.built := rfl
@[simp] theorem setBuild_requests : (s.setBuild k build).requests = s.requests := rfl
@[simp] theorem setBuild_builds (j : ℕ) :
    (s.setBuild k build).builds j = if j = k then build else s.builds j := Function.update_apply ..

end Fields

/-- The writes that the tasks make. -/
inductive Write (s : Registry) : Registry → Prop
  | suspend (i : ℕ) (pc : ApplyPc) : Write s (s.suspend i pc)
  | cancelWatchdogs : Write s s.cancelWatchdogs
  | stop (k : ℕ) : Write s (s.setBuild k { s.builds k with stopped := true })
  | disconnect (k : ℕ) : Write s (s.setBuild k { s.builds k with disconnected := true })
  | adopt (roster : List MowerConfig) : Write s { s.clear with mowers := roster }
  | register (cfg : MowerConfig) : Write s (s.register cfg)
  | arm (k : ℕ) : Write s (s.arm k)

abbrev Writes : Registry → Registry → Prop := Relation.ReflTransGen Write

variable {s t : Registry}

theorem Writes.suspend (writes : Writes s t) (i : ℕ) (pc : ApplyPc) : Writes s (t.suspend i pc) :=
  writes.tail (.suspend i pc)

theorem Writes.buildNext (writes : Writes s t) (i next : ℕ) : Writes s (t.buildNext i next) := by
  rw [Registry.buildNext]
  split
  · exact Writes.suspend (writes.tail (.register _)) i _
  · exact writes.suspend i _

theorem Writes.disconnectNext (writes : Writes s t) (i : ℕ) (roster : List MowerConfig)
    (c : OrderedDict.Cursor) : Writes s (t.disconnectNext i roster c) := by
  rw [Registry.disconnectNext]
  split
  · exact writes.suspend i _
  · exact Writes.suspend (writes.tail (.disconnect _)) i _
  · exact Writes.buildNext (writes.tail (.adopt roster)) i 0

theorem Writes.stopNext (writes : Writes s t) (i : ℕ) (roster : List MowerConfig)
    (c : OrderedDict.Cursor) : Writes s (t.stopNext i roster c) := by
  rw [Registry.stopNext]
  split
  · exact writes.suspend i _
  · exact Writes.suspend (writes.tail (.stop _)) i _
  · exact writes.disconnectNext i roster _

theorem Writes.joinNext (writes : Writes s t) (i : ℕ) (roster : List MowerConfig)
    (c : OrderedDict.Cursor) : Writes s (t.joinNext i roster c) := by
  rw [Registry.joinNext]
  split
  · exact writes.suspend i _
  · exact writes.suspend i _
  · exact writes.stopNext i roster _

/-- A step is made of writes. -/
theorem step_writes {e : RegistryEvent} (stepped : s.step e = some t) : Writes s t := by
  have started : Writes s s := .refl
  cases e with
  | save i roster =>
    simp only [step] at stepped
    split_ifs at stepped
    cases stepped
    exact started.suspend i _
  | resume i =>
    simp only [step, resume] at stepped
    split at stepped <;> cases stepped
    · exact Writes.joinNext (started.tail .cancelWatchdogs) i _ _
    · exact started.joinNext i _ _
    · exact started.stopNext i _ _
    · exact started.disconnectNext i _ _
    · exact started.suspend i _
    · exact Writes.buildNext (started.tail (.arm _)) i _
  | failed i =>
    simp only [step] at stepped
    split at stepped <;> cases stepped <;> exact Writes.buildNext (started.tail (.arm _)) i _

/-- What becomes of a teardown between two awaits, when its loop over the transports has passed `passed`. -/
inductive Outcome (s : Registry) (i : ℕ) (roster : List MowerConfig) (passed : List ℕ) : Registry → Prop
  | raised (f : ℕ → Build) : Outcome s i roster passed ({ s with builds := f }.suspend i .raised)
  | joins (f : ℕ → Build) (k : ℕ) (c : OrderedDict.Cursor) :
      Outcome s i roster passed ({ s with builds := f }.suspend i (.joiningWatchdogs roster k c))
  | stops (f : ℕ → Build) (k : ℕ) (c : OrderedDict.Cursor) :
      Outcome s i roster passed ({ s with builds := f }.suspend i (.stoppingHandles roster k c))
  | disconnects (f : ℕ → Build) (k : ℕ) (c : OrderedDict.Cursor)
      (more : s.transports.values.take c.passed = passed ++ [k]) :
      Outcome s i roster passed ({ s with builds := f }.suspend i (.disconnecting roster k c))
  | swapped (f : ℕ → Build) (all : passed = s.transports.values) :
      Outcome s i roster passed ({ ({ s with builds := f } : Registry).clear with mowers := roster }.buildNext i 0)

theorem disconnectNext_outcome (s : Registry) (f : ℕ → Build) (i : ℕ) (roster : List MowerConfig)
    (c : OrderedDict.Cursor) : Outcome s i roster (s.transports.values.take c.passed)
      ({ s with builds := f }.disconnectNext i roster c) := by
  rw [Registry.disconnectNext]
  split
  · exact .raised f
  · next k item => exact .disconnects _ k c.next (OrderedDict.advance_item item)
  · next ends => exact .swapped f (OrderedDict.advance_exhausted ends)

theorem stopNext_outcome (s : Registry) (f : ℕ → Build) (i : ℕ) (roster : List MowerConfig)
    (c : OrderedDict.Cursor) : Outcome s i roster [] ({ s with builds := f }.stopNext i roster c) := by
  rw [Registry.stopNext]
  split
  · exact .raised f
  · next k _ => exact .stops _ k c.next
  · exact disconnectNext_outcome s f i roster s.transports.cursor

theorem joinNext_outcome (s : Registry) (f : ℕ → Build) (i : ℕ) (roster : List MowerConfig)
    (c : OrderedDict.Cursor) : Outcome s i roster [] ({ s with builds := f }.joinNext i roster c) := by
  rw [Registry.joinNext]
  split
  · exact .raised f
  · next k _ => exact .joins f k c.next
  · exact stopNext_outcome s f i roster s.handles.cursor

/-- What is registered is registered for its own mower, handle and transport together. -/
structure Registered (s : Registry) : Prop where
  together : s.transports = s.handles
  own : ∀ name k, (name, k) ∈ s.handles.items → k < s.built ∧ (s.builds k).cfg.name = name

theorem Registered.write (before : Registered s) (write : Write s t) : Registered t := by
  obtain ⟨together, own⟩ := before
  cases write with
  | suspend i pc => exact ⟨together, own⟩
  | cancelWatchdogs =>
    refine ⟨together, fun name k mem => ?_⟩
    obtain ⟨below, cfg⟩ := own name k mem
    refine ⟨below, ?_⟩
    simp only [cancelWatchdogs]
    split_ifs <;> exact cfg
  | stop j | disconnect j =>
    refine ⟨together, fun name k mem => ?_⟩
    obtain ⟨below, cfg⟩ := own name k mem
    refine ⟨below, ?_⟩
    rw [setBuild_builds]
    split_ifs with same
    · subst same; exact cfg
    · exact cfg
  | adopt roster => exact ⟨rfl, nofun⟩
  | register cfg =>
    refine ⟨congrArg (fun d : OrderedDict String ℕ => d.set cfg.name s.built) together,
      fun name k mem => ?_⟩
    rw [show (s.register cfg).built = s.built + 1 from rfl, register, setBuild_builds]
    rcases OrderedDict.mem_items_set.mp mem with ⟨rfl, rfl⟩ | ⟨_, old⟩
    · exact ⟨Nat.lt_succ_self _, by rw [if_pos rfl]⟩
    · obtain ⟨below, cfg⟩ := own name k old
      exact ⟨by omega, by rw [if_neg (by omega)]; exact cfg⟩
  | arm j =>
    refine ⟨together, fun name k mem => ?_⟩
    obtain ⟨below, cfg⟩ := own name k mem
    refine ⟨below, ?_⟩
    rw [arm, setBuild_builds]
    split_ifs with same
    · subst same; exact cfg
    · exact cfg

/-- The handles registered after some writes were registered before them or have been created by them. -/
structure Renews (s t : Registry) : Prop where
  grows : s.built ≤ t.built
  items : ∀ name k, (name, k) ∈ t.handles.items → (name, k) ∈ s.handles.items ∨ s.built ≤ k

theorem Renews.refl (s : Registry) : Renews s s := ⟨le_rfl, fun _ _ => .inl⟩

theorem Write.renews (write : Write s t) : Renews s t := by
  cases write with
  | adopt roster => exact ⟨le_rfl, nofun⟩
  | register cfg =>
    refine ⟨Nat.le_succ _, fun name k mem => ?_⟩
    rcases OrderedDict.mem_items_set.mp mem with ⟨_, rfl⟩ | ⟨_, old⟩
    · exact .inr le_rfl
    · exact .inl old
  | _ => exact ⟨le_rfl, fun _ _ => .inl⟩

theorem Writes.renews (writes : Writes s t) : Renews s t := by
  induction writes with
  | refl => exact .refl s
  | tail _ write ih =>
    refine ⟨ih.grows.trans write.renews.grows, fun name k mem => ?_⟩
    rcases write.renews.items name k mem with old | new
    · exact ih.items name k old
    · exact .inr (ih.grows.trans new)

theorem registered_init (loaded : List MowerConfig) : Registered (init loaded) := by
  rw [init, buildNext]
  split
  · exact Registered.write (Registered.write ⟨rfl, fun _ _ mem => absurd mem List.not_mem_nil⟩
      (.register _)) (.suspend 0 _)
  · exact ⟨rfl, fun _ _ mem => absurd mem List.not_mem_nil⟩

theorem Registered.writes (before : Registered s) (writes : Writes s t) : Registered t := by
  induction writes with
  | refl => exact before
  | tail _ write ih => exact ih.write write

theorem registered_of_run {loaded : List MowerConfig} {es : List RegistryEvent}
    (ran : run step (init loaded) es = some s) : Registered s :=
  run_invariant (I := fun _ s => Registered s) (registered_init loaded)
    (fun _ _ _ _ before stepped => before.writes (step_writes stepped)) ran

end Registry

end MammotionRc.Server
