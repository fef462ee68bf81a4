import Mathlib.Tactic.IntervalCases
import MammotionRc.Soundness.AppInvariants

/-! # A teardown is final

`_auto_reconnect` sequences are not tracked, handlers keep the handle they looked up, and a transport
reconnects at the next `send()`, so a task that outlives `_teardown_all` brings an old transport back to life.
When every other task has finished by the time a teardown disconnects the transports, what it clears is out
of reach: no transport built before it ever connects again, and nothing started before it writes a flag.
-/

namespace MammotionRc.Server

open Framing Machine

namespace App

variable {codec : Codec} {s t : App} {i k : ℕ} {roster : List MowerConfig}

/-- A request moves on without holding anything new; a loop over the transports has disconnected what it
passed. -/
theorem Inv.suspend (inv : Inv s) {pc : ApplyPc} (f : ℕ → Build)
    (registered : ({ s.registry with builds := f }.suspend i pc).Registered)
    (held : pc.held = (s.registry.requests i).held)
    (building : ∀ next k, pc = .connecting next k ∨ pc = .starting next k →
      s.registry.requests i = .connecting next k ∨ s.registry.requests i = .starting next k)
    (rosters : ∀ roster, pc.roster? = some roster → (mowerNames roster).Nodup ∧ roster ≠ [])
    (loop : ∀ roster k c, pc = .disconnecting roster k c → ∀ j ∈ s.registry.transports.values.take c.passed,
      (s.links j).isConnected = false ∨ j = k ∧ (s.links k).Disconnects (TaskId.request i).number) :
    Inv { s with registry := { s.registry with builds := f }.suspend i pc } := by
  have requests : ∀ j, ({ s.registry with builds := f }.suspend i pc).requests j =
      if j = i then pc else s.registry.requests j := fun j => Registry.suspend_requests ..
  have heldSame : ∀ id, App.held { s with registry := { s.registry with builds := f }.suspend i pc } id =
      s.held id := by
    intro id
    cases id with
    | request j =>
      simp only [App.held, requests]
      split_ifs with same
      · rw [same]
        exact held
      · rfl
    | _ => rfl
  have builds : ∀ j next k, ({ s.registry with builds := f }.suspend i pc).requests j = .connecting next k ∨
      ({ s.registry with builds := f }.suspend i pc).requests j = .starting next k →
        s.registry.requests j = .connecting next k ∨ s.registry.requests j = .starting next k := by
    intro j next k at_
    rw [requests] at at_
    split_ifs at at_ with same
    · rw [same]
      exact building next k at_
    · exact at_
  refine ⟨registered, inv.distinct, fun j roster at_ => ?_, fun j next k at_ => ?_, inv.dead,
    fun id k free => inv.uses id k (heldSame id ▸ free), fun id k at_ => inv.holds id k (heldSame id ▸ at_),
    inv.same, fun j roster k c at_ => ?_, inv.empty, fun k at_ => inv.unborn k ?_⟩
  · rw [requests] at at_
    split_ifs at at_
    · exact rosters roster at_
    · exact inv.rosters j roster at_
  · obtain ⟨keys, only⟩ := inv.builder j next k (builds j next k at_)
    refine ⟨keys, fun l building => only l ?_⟩
    cases was : ({ s.registry with builds := f }.suspend i pc).requests l with
    | connecting next k =>
      rcases builds l next k (.inl was) with at_ | at_ <;> rw [at_] <;> trivial
    | starting next k =>
      rcases builds l next k (.inr was) with at_ | at_ <;> rw [at_] <;> trivial
    | _ => rw [was] at building; cases building
  · rw [requests] at at_
    split_ifs at at_ with same
    · rw [same]
      exact loop roster k c at_
    · exact inv.loops j roster k c at_
  · rcases at_ with above | ⟨j, next, at_⟩
    · exact .inl above
    · exact .inr ⟨j, next, builds j next k at_⟩

/-- Request `i` is about to build its roster from index `n` on, and is in no call. -/
structure Ready (s : App) (i n : ℕ) : Prop where
  registered : s.registry.Registered
  distinct : (mowerNames s.registry.mowers).Nodup
  rosters : ∀ j roster, j ≠ i → (s.registry.requests j).roster? = some roster →
    (mowerNames roster).Nodup ∧ roster ≠ []
  names : s.registry.handles.keys = mowerNames (s.registry.mowers.take n)
  only : ∀ j, (s.registry.requests j).Building → j = i
  dead : ∀ k, k ∉ s.registry.handles.values → (s.links k).Dead
  quit : s.Quit (.request i)
  uses : ∀ id k, id ≠ .request i → s.held id ≠ some k → ((s.links k).calls id.number).Closing
  holds : ∀ id k, id ≠ .request i → s.held id = some k → k ∈ s.registry.handles.values
  same : ∀ j b, s.bounces j = some b → b.h = b.t
  loops : ∀ j roster k c, j ≠ i → s.registry.requests j = .disconnecting roster k c →
    ∀ l ∈ s.registry.transports.values, (s.links l).isConnected = false
  unborn : ∀ k, s.registry.built ≤ k → s.watchdogs k = .absent

theorem Ready.finished {n : ℕ} (ready : Ready s i n)
    (empty : s.registry.handles.items = [] → (∀ k, s.watchdogs k = .absent) ∧ ∀ j, s.bounces j = none) :
    Inv { s with registry := s.registry.suspend i .returned } := by
  have requests : ∀ j, (s.registry.suspend i .returned).requests j =
      if j = i then .returned else s.registry.requests j := fun j => Registry.suspend_requests ..
  have heldOf : ∀ id, id ≠ .request i →
      App.held { s with registry := s.registry.suspend i .returned } id = s.held id := by
    intro id ne
    cases id with
    | request j =>
      simp only [App.held, requests]
      rw [if_neg (by rintro rfl; exact ne rfl)]
    | _ => rfl
  have own : App.held { s with registry := s.registry.suspend i .returned } (.request i) = none := by
    simp only [App.held, requests, if_true, ApplyPc.held]
  have idle : ∀ j, ¬ ((s.registry.suspend i .returned).requests j).Building := fun j building => by
    rw [requests] at building
    split_ifs at building with same
    · exact building
    · exact same (ready.only j building)
  have notBuilding : ∀ j next k, ¬ ((s.registry.suspend i .returned).requests j = .connecting next k ∨
      (s.registry.suspend i .returned).requests j = .starting next k) := by
    rintro j next k (at_ | at_) <;> exact idle j (by rw [at_]; trivial)
  refine ⟨ready.registered.write (.suspend i _), ready.distinct, fun j roster at_ => ?_,
    fun j next k at_ => absurd at_ (notBuilding j next k), ready.dead, fun id k free => ?_,
    fun id k at_ => ?_, ready.same, fun j roster k c at_ l mem => ?_, empty, fun k at_ => ?_⟩
  · rw [requests] at at_
    split_ifs at at_ with same
    · cases at_
    · exact ready.rosters j roster same at_
  · by_cases same : id = .request i
    · rw [same]
      exact ready.quit k
    · exact ready.uses id k same (heldOf id same ▸ free)
  · by_cases same : id = .request i
    · rw [same, own] at at_
      cases at_
    · exact ready.holds id k same (heldOf id same ▸ at_)
  · rw [requests] at at_
    split_ifs at at_ with same
    exact .inl (ready.loops j roster k c same at_ l (List.mem_of_mem_take mem))
  · rcases at_ with above | ⟨j, next, at_⟩
    · exact ready.unborn k above
    · exact absurd at_ (notBuilding j next k)

theorem Ready.register {n : ℕ} {cfg : MowerConfig} (ready : Ready s i n)
    (row : s.registry.mowers[n]? = some cfg)
    (called : App.call codec { s with
      registry := (s.registry.register cfg).suspend i (.connecting (n + 1) s.registry.built) }
        s.registry.built (.connect (TaskId.request i).number) = some t) : Inv t := by
  obtain ⟨link, connects, rfl⟩ := Option.map_eq_some_iff.mp called
  have connects : (s.links s.registry.built).step codec (.connect (TaskId.request i).number) = some link :=
    connects
  let next := (s.registry.register cfg).suspend i (.connecting (n + 1) s.registry.built)
  have taken : s.registry.mowers.take (n + 1) = s.registry.mowers.take n ++ [cfg] := by
    rw [List.take_add_one, row, Option.toList_some]
  have fresh : cfg.name ∉ s.registry.handles.keys := by
    have nodup : (mowerNames (s.registry.mowers.take (n + 1))).Nodup :=
      ready.distinct.sublist ((List.take_sublist _ _).map _)
    rw [taken, mowerNames, List.map_append, List.map_singleton] at nodup
    rw [ready.names]
    exact fun mem => (List.nodup_append.mp nodup).2.2 _ mem _ (List.mem_singleton_self _) rfl
  have items : next.handles.items = s.registry.handles.items ++ [(cfg.name, s.registry.built)] :=
    OrderedDict.set_items_of_notMem fresh s.registry.built
  have values : next.handles.values = s.registry.handles.values ++ [s.registry.built] := by
    rw [OrderedDict.values, items, List.map_append]
    rfl
  have unbuilt : s.registry.built ∉ s.registry.handles.values := fun mem => by
    obtain ⟨name, mem⟩ := OrderedDict.mem_values_iff.mp mem
    exact absurd (ready.registered.own name _ mem).1 (Nat.lt_irrefl _)
  have requests : ∀ j, next.requests j =
      if j = i then .connecting (n + 1) s.registry.built else s.registry.requests j :=
    fun j => Registry.suspend_requests ..
  have linkOf : ∀ j, Function.update s.links s.registry.built link j =
      if j = s.registry.built then link else s.links j := fun j => Function.update_apply ..
  have heldOf : ∀ id, id ≠ .request i →
      App.held { s with registry := next, links := Function.update s.links s.registry.built link } id =
        s.held id := by
    intro id ne
    cases id with
    | request j =>
      simp only [App.held, requests]
      rw [if_neg (by rintro rfl; exact ne rfl)]
    | _ => rfl
  have own : App.held { s with registry := next, links := Function.update s.links s.registry.built link }
      (.request i) = some s.registry.built := by
    simp only [App.held, requests, if_true, ApplyPc.held]
  have only : ∀ j, (next.requests j).Building → j = i := fun j building => by
    rw [requests] at building
    split_ifs at building with same
    · exact same
    · exact ready.only j building
  have dead := ready.dead _ unbuilt
  have registered : next.Registered :=
    (ready.registered.write (.register cfg)).write (.suspend i _)
  have down : link.isConnected = false := by
    refine Bool.eq_false_of_not_eq_true fun up => ?_
    obtain ⟨_, opens⟩ | before := (HC33ProxyTransport.step_effect connects).isConnected_of up
    · cases opens
    · rw [dead.down] at before
      cases before
  refine ⟨registered, ready.distinct, fun j roster at_ => ?_, fun j m k at_ => ?_, fun j out => ?_,
    fun id k free => ?_, fun id k at_ => ?_, ready.same, fun j roster k c at_ l mem => ?_, fun none_ => ?_,
    fun k at_ => ?_⟩
  · rw [requests] at at_
    split_ifs at at_ with same
    · cases at_
    · exact ready.rosters j roster same at_
  · have self : j = i := only j (by rcases at_ with at_ | at_ <;> rw [at_] <;> trivial)
    subst self
    rw [requests, if_pos rfl] at at_
    obtain ⟨rfl, rfl⟩ : n + 1 = m ∧ s.registry.built = k := by
      rcases at_ with at_ | at_ <;> cases at_
      exact ⟨rfl, rfl⟩
    refine ⟨?_, only⟩
    have extended : mowerNames (next.mowers.take (n + 1)) =
        mowerNames (s.registry.mowers.take n) ++ [cfg.name] := by
      rw [show next.mowers = s.registry.mowers from rfl, taken, mowerNames, List.map_append]
      rfl
    rw [extended, OrderedDict.keys, items, List.map_append, ← OrderedDict.keys, ready.names]
    rfl
  · rw [values, List.mem_append, List.mem_singleton, not_or] at out
    simp only [linkOf, if_neg out.2]
    exact ready.dead j out.1
  · simp only [linkOf]
    by_cases same : id = .request i
    · subst same
      rw [own] at free
      rw [if_neg (by rintro rfl; exact free rfl)]
      exact ready.quit k
    · split_ifs with new
      · rw [HC33ProxyTransport.step_calls connects fun caller =>
          same (TaskId.number_inj (Option.some.inj caller)).symm]
        exact dead.closing _
      · exact ready.uses id k same (heldOf id same ▸ free)
  · rw [values, List.mem_append, List.mem_singleton]
    by_cases same : id = .request i
    · rw [same, own] at at_
      exact .inr (Option.some.inj at_).symm
    · exact .inl (ready.holds id k same (heldOf id same ▸ at_))
  · rw [requests] at at_
    split_ifs at at_ with same
    left
    simp only [linkOf]
    split_ifs with new
    · exact down
    · have mem : l ∈ next.transports.values := List.mem_of_mem_take mem
      rw [registered.together, values, List.mem_append, List.mem_singleton] at mem
      refine ready.loops j roster k c same at_ l ?_
      rw [ready.registered.together]
      exact mem.resolve_right new
  · rw [items] at none_
    simp at none_
  · refine ready.unborn k ?_
    rcases at_ with above | ⟨j, m, at_⟩
    · exact Nat.le_of_succ_le above
    · have self : j = i := only j (by rcases at_ with at_ | at_ <;> rw [at_] <;> trivial)
      subst self
      rw [requests, if_pos rfl] at at_
      rcases at_ with at_ | at_ <;> cases at_
      exact le_rfl

/-- The transports that a teardown has passed have no connection once its await is over. -/
theorem Inv.passed_down (inv : Inv s) {c : OrderedDict.Cursor}
    (at_ : s.registry.requests i = .disconnecting roster k c) (ends : s.returned (.request i) k = true) :
    ∀ j ∈ s.registry.transports.values.take c.passed, (s.links j).isConnected = false := by
  intro j mem
  rcases inv.loops i roster k c at_ j mem with down | ⟨rfl, down | ⟨r, joins⟩⟩
  · exact down
  · exact down
  · rw [of_decide_eq_true ends] at joins
    cases joins

/-- A teardown of request `i` moves on between two awaits. -/
theorem Inv.outcome (inv : Inv s) (quiet : s.Busy → s.Unused)
    (at_ : (s.registry.requests i).roster? = some roster) {passed : List ℕ} {r : Registry}
    (down : ∀ j ∈ passed, (s.links j).isConnected = false) (busy : passed ≠ [] → s.Busy)
    (registered : r.Registered) (outcome : s.registry.Outcome i roster passed r)
    (issued : App.issue codec { s with registry := r } i = some t) : Inv t := by
  have holdsNone := ApplyPc.held_of_roster at_
  have adopts := inv.rosters i roster at_
  have rosters : ∀ pc : ApplyPc, pc.roster? = some roster → ∀ other, pc.roster? = some other →
      (mowerNames other).Nodup ∧ other ≠ [] := by
    intro pc same other at'
    rw [same] at at'
    cases at'
    exact adopts
  cases outcome with
  | raised f =>
    simp only [App.issue, Registry.suspend_requests, if_true] at issued
    cases issued
    exact inv.suspend f registered holdsNone.symm (by rintro _ _ (h | h) <;> cases h) nofun nofun
  | joins f k c =>
    simp only [App.issue, Registry.suspend_requests, if_true] at issued
    cases issued
    exact inv.suspend f registered holdsNone.symm (by rintro _ _ (h | h) <;> cases h)
      (rosters _ rfl) nofun
  | stops f k c =>
    simp only [App.issue, Registry.suspend_requests, if_true] at issued
    cases issued
    exact inv.suspend f registered holdsNone.symm (by rintro _ _ (h | h) <;> cases h)
      (rosters _ rfl) nofun
  | disconnects f k c more =>
    simp only [App.issue, Registry.suspend_requests, if_true] at issued
    obtain ⟨link, stepped, rfl⟩ := Option.map_eq_some_iff.mp issued
    have stepped : (s.links k).step codec (.disconnect (TaskId.request i).number) = some link := stepped
    have disconnects : link.Disconnects (TaskId.request i).number := by
      simp only [HC33ProxyTransport.step] at stepped
      split at stepped <;> cases stepped
      exact HC33ProxyTransport.startDisconnect_disconnects _ _
    have after := inv.call (Option.map_eq_some_iff.mpr ⟨link, stepped, rfl⟩) (fun _ begins => absurd begins id)
      fun now => ⟨inv.closing (quiet now), fun _ => id⟩
    refine after.suspend f registered holdsNone.symm (by rintro _ _ (h | h) <;> cases h) (rosters _ rfl) ?_
    rintro _ _ _ ⟨⟩ j mem
    rw [more, List.mem_append, List.mem_singleton] at mem
    by_cases same : j = k
    · refine .inr ⟨same, ?_⟩
      simp only [Function.update_self]
      exact disconnects
    · simp only [Function.update_of_ne same]
      exact .inl (down j (mem.resolve_right same))
  | swapped f all =>
    have free : ∀ id, s.held id = none := by
      intro id
      by_cases none_ : passed = []
      · rw [none_, inv.registered.together] at all
        refine Option.eq_none_iff_forall_ne_some.mpr fun k at' => ?_
        have mem := inv.holds id k at'
        rw [← all] at mem
        exact List.not_mem_nil mem
      · exact (quiet (busy none_)).held
    have building : ∀ j, ¬ (s.registry.requests j).Building := fun j building =>
      ApplyPc.held_of_building building (free (.request j))
    obtain ⟨cfg, later, rfl⟩ := List.exists_cons_of_ne_nil adopts.2
    simp only [App.issue, Registry.buildNext, List.getElem?_cons_zero, Registry.suspend_requests, if_true]
      at issued
    refine Ready.register (i := i) (n := 0)
      (s := { s with registry := { ({ s.registry with builds := f } : Registry).clear with mowers := cfg :: later } })
      ⟨⟨rfl, fun _ _ mem => absurd mem List.not_mem_nil⟩, adopts.1, fun j roster _ => inv.rosters j roster, rfl,
        fun j at' => absurd at' (building j), fun k _ => ?_, inv.quit (free _),
        fun id k _ _ => inv.quit (free id) k, fun id k _ at' => ?_, inv.same,
        fun j roster k c _ _ l mem => absurd mem List.not_mem_nil, fun k above => inv.unborn k (.inl above)⟩
      rfl issued
    · by_cases old : k ∈ s.registry.handles.values
      · refine ⟨down k (by rw [all, inv.registered.together]; exact old), fun n => ?_⟩
        obtain ⟨id, rfl⟩ := TaskId.exists_number n
        exact inv.quit (free id) k
      · exact inv.dead k old
    · have at' : s.held id = some k := by
        cases id <;> exact at'
      rw [free id] at at'
      cases at'

/-- A request that has created the watchdog of its mower goes on to the next one. -/
theorem Inv.armed (inv : Inv s) (quiet : s.Busy → s.Unused) {next : ℕ} {name : String}
    (at_ : s.registry.requests i = .connecting next k ∨ s.registry.requests i = .starting next k)
    (ends : s.returned (.request i) k = true)
    (issued : App.issue codec { s with
      registry := (s.registry.arm k).buildNext i next
      watchdogs := Function.update s.watchdogs k (.created name) } i = some t) : Inv t := by
  have held : s.held (.request i) = some k := by
    rcases at_ with at_ | at_ <;> simp only [App.held, at_, ApplyPc.held]
  have building : (s.registry.requests i).Building := by
    rcases at_ with at_ | at_ <;> rw [at_] <;> trivial
  have mem := inv.holds _ k held
  obtain ⟨name', mem'⟩ := OrderedDict.mem_values_iff.mp mem
  have below := (inv.registered.own name' k mem').1
  obtain ⟨keys, only⟩ := inv.builder i next k at_
  have absent := inv.unborn k (.inr ⟨i, next, at_⟩)
  have heldOf : ∀ id, App.held { s with
      registry := s.registry.arm k
      watchdogs := Function.update s.watchdogs k (.created name) } id = s.held id := by
    intro id
    cases id with
    | watchdog j =>
      simp only [App.held, Function.update_apply]
      split_ifs with same
      · rw [same, absent]
        rfl
      · rfl
    | _ => rfl
  have ready : Ready { s with
      registry := s.registry.arm k
      watchdogs := Function.update s.watchdogs k (.created name) } i next := by
    refine ⟨inv.registered.write (.arm k), inv.distinct, fun j roster _ => inv.rosters j roster, keys, only,
      inv.dead, inv.quit_of_returned held ends, fun id j _ free => inv.uses id j (heldOf id ▸ free),
      fun id j _ at' => inv.holds id j (heldOf id ▸ at'), inv.same, fun j roster l c _ at' => ?_,
      fun j above => ?_⟩
    · exact absurd building ((quiet ⟨j, roster, l, c, at'⟩).requests i)
    · simp only [Function.update_apply]
      rw [if_neg (by rintro rfl; exact absurd above (Nat.not_le.mpr below))]
      exact inv.unborn j (.inl above)
  have mowers : (s.registry.arm k).mowers = s.registry.mowers := rfl
  cases row : s.registry.mowers[next]? with
  | some cfg =>
    have row' : (s.registry.arm k).mowers[next]? = some cfg := row
    simp only [App.issue, Registry.buildNext, row', Registry.suspend_requests, if_true] at issued
    exact ready.register row issued
  | none =>
    have row' : (s.registry.arm k).mowers[next]? = none := row
    simp only [App.issue, Registry.buildNext, row', Registry.suspend_requests, if_true] at issued
    cases issued
    exact ready.finished fun none_ => absurd none_ (items_ne_nil mem)

theorem Inv.stepRequest (inv : Inv s) {e : RegistryEvent} (quiet : Quiet s (.request e))
    (stepped : s.stepRequest codec e = some t) : Inv t := by
  have alone := quiet.alone
  cases e with
  | save i roster =>
    obtain ⟨r, saved, rfl⟩ := Option.map_eq_some_iff.mp stepped
    have registered := inv.registered.writes (Registry.step_writes saved)
    simp only [Registry.step] at saved
    split_ifs at saved with guard
    cases saved
    refine inv.suspend s.registry.builds registered ?_ (by rintro _ _ (h | h) <;> cases h) ?_ (by rintro _ _ _ ⟨⟩)
    · rw [guard.2.1]
      rfl
    · rintro _ ⟨⟩
      exact ⟨quiet.distinct i roster rfl, guard.2.2.1⟩
  | failed i =>
    simp only [App.stepRequest] at stepped
    split_ifs at stepped with ends
    obtain ⟨r, failed, issued⟩ := Option.bind_eq_some_iff.mp stepped
    simp only [Registry.step] at failed
    simp only [App.awaited] at ends
    split at failed <;> cases failed
    · next at_ =>
      rw [at_] at issued ends
      exact inv.armed alone (.inl at_) ends issued
    · next at_ =>
      rw [at_] at issued ends
      exact inv.armed alone (.inr at_) ends issued
  | resume i =>
    simp only [App.stepRequest] at stepped
    split_ifs at stepped with ends
    obtain ⟨r, resumed, issued⟩ := Option.bind_eq_some_iff.mp stepped
    have registered := inv.registered.writes (Registry.step_writes resumed)
    simp only [Registry.step, Registry.resume] at resumed
    simp only [App.awaited] at ends
    split at resumed <;> cases resumed
    · next roster at_ =>
      rw [at_] at issued
      exact inv.outcome alone (by rw [at_]; rfl) (fun _ mem => absurd mem List.not_mem_nil)
        (fun some_ => absurd rfl some_) registered (Registry.joinNext_outcome s.registry _ i roster _) issued
    · next roster k c at_ =>
      rw [at_] at issued
      exact inv.outcome alone (by rw [at_]; rfl) (fun _ mem => absurd mem List.not_mem_nil)
        (fun some_ => absurd rfl some_) registered
        (Registry.joinNext_outcome s.registry s.registry.builds i roster c) issued
    · next roster k c at_ =>
      rw [at_] at issued
      exact inv.outcome alone (by rw [at_]; rfl) (fun _ mem => absurd mem List.not_mem_nil)
        (fun some_ => absurd rfl some_) registered
        (Registry.stopNext_outcome s.registry s.registry.builds i roster c) issued
    · next roster k c at_ =>
      rw [at_] at issued ends
      exact inv.outcome alone (by rw [at_]; rfl) (inv.passed_down at_ ends)
        (fun _ => ⟨i, roster, k, c, at_⟩) registered
        (Registry.disconnectNext_outcome s.registry s.registry.builds i roster c) issued
    · next next k at_ =>
      rw [at_] at issued
      simp only [App.createWatchdogs, App.issue, Registry.suspend_requests, if_true] at issued
      cases issued
      refine inv.suspend s.registry.builds registered (by rw [at_]; rfl) ?_ (by rintro _ ⟨⟩)
        (by rintro _ _ _ ⟨⟩)
      rintro _ _ (h | h) <;> cases h
      exact .inl at_
    · next at_ =>
      rw [at_] at issued ends
      exact inv.armed alone (.inr at_) ends issued

theorem Inv.step (inv : Inv s) {e : AppEvent} (quiet : Quiet s e) (stepped : s.step codec e = some t) :
    Inv t := by
  cases e with
  | request e => exact inv.stepRequest quiet stepped
  | startSends i payload => exact inv.startSends quiet.alone stepped
  | watchdog k action => exact inv.stepWatchdog quiet.alone stepped
  | bounce j action => exact inv.stepBounce quiet.alone stepped
  | handler j action => exact inv.stepHandler quiet.alone stepped
  | link k e =>
    simp only [App.step] at stepped
    split_ifs at stepped with progress
    exact inv.link quiet.alone progress stepped

theorem inv_init {loaded : List MowerConfig} (distinct : (mowerNames loaded).Nodup) : Inv (init loaded) := by
  let start : App :=
    { registry :=
        { mowers := loaded
          handles := .empty
          transports := .empty
          watchdogTasks := .empty
          autoRetrying := fun _ => false
          autoGaveUp := fun _ => false
          manualOp := fun _ => false
          built := 0
          builds := fun _ => ⟨⟨"", none, "", 0, none⟩, false, false, .absent⟩
          requests := fun _ => .absent }
      links := fun _ => .init
      watchdogs := fun _ => .absent
      bounces := fun _ => none
      handlers := fun _ => .absent }
  have ready : Ready start 0 0 := by
    refine ⟨⟨rfl, fun _ _ mem => absurd mem List.not_mem_nil⟩, distinct, fun _ _ _ => nofun, rfl,
      fun _ building => absurd building id, fun _ _ => ⟨rfl, fun _ => trivial⟩, fun _ => trivial,
      fun _ _ _ _ => trivial, fun id _ _ at_ => ?_, fun _ _ => nofun,
      fun _ _ _ _ _ _ _ mem => absurd mem List.not_mem_nil, fun _ _ => rfl⟩
    cases id <;> cases at_
  cases loaded with
  | nil => exact ready.finished fun _ => ⟨fun _ => rfl, fun _ => rfl⟩
  | cons cfg later => exact ready.register rfl (show App.call .sample _ _ _ = _ from rfl)

/-- A step moves at most one link, leaves a bounce that is over as it is, and does not wake a watchdog that
has ended. -/
structure Frame (codec : Codec) (s t : App) : Prop where
  links : ∀ k, t.links k = s.links k ∨ ∃ e, (s.links k).step codec e = some (t.links k)
  ends : ∀ j b, s.bounces j = some b → b.pc = .done → t.bounces j = some b
  ended : ∀ k, s.watchdogs k = .absent ∨ s.watchdogs k = .done →
    t.watchdogs k = s.watchdogs k ∨ ∃ i, s.held (.request i) = some k

theorem Frame.of_eq (links : t.links = s.links) (bounces : t.bounces = s.bounces)
    (watchdogs : t.watchdogs = s.watchdogs) : Frame codec s t :=
  ⟨fun k => .inl (congrFun links k), fun j _ at_ _ => (congrFun bounces j).trans at_,
    fun k _ => .inl (congrFun watchdogs k)⟩

theorem Frame.setWatchdog {pc : WatchdogPc} (frame : Frame codec s t) (present : s.watchdogs k ≠ .absent)
    (running : s.watchdogs k ≠ .done) : Frame codec s (t.setWatchdog k pc) := by
  refine ⟨frame.links, frame.ends, fun l at_ => ?_⟩
  simp only [App.setWatchdog, Function.update_apply]
  rw [if_neg (by rintro rfl; exact at_.elim present running)]
  exact frame.ended l at_

theorem Frame.setBounce {j : ℕ} {b : Bounce} (frame : Frame codec s t)
    (running : ∀ b, s.bounces j = some b → b.pc ≠ .done) : Frame codec s (t.setBounce j b) := by
  refine ⟨frame.links, fun l c at_ ends => ?_, frame.ended⟩
  simp only [App.setBounce, Function.update_apply]
  rw [if_neg (by rintro rfl; exact running c at_ ends)]
  exact frame.ends l c at_ ends

/-- A call at the end of what a task does between two awaits. -/
theorem Frame.call {u : App} {e : TransportEvent} (frame : Frame codec s u) (links : u.links = s.links)
    (called : u.call codec k e = some t) : t.registry = u.registry ∧ Frame codec s t := by
  obtain ⟨link, stepped, rfl⟩ := Option.map_eq_some_iff.mp called
  refine ⟨rfl, fun j => ?_, frame.ends, frame.ended⟩
  simp only [Function.update_apply, links]
  split_ifs with same
  · subst same
    rw [links] at stepped
    exact .inr ⟨e, stepped⟩
  · exact .inl rfl

theorem Frame.refl (s : App) : Frame codec s s := .of_eq rfl rfl rfl

theorem Frame.probe {u : App} {name : String} {w : ℕ} {payload : Option Bytes} (frame : Frame codec s u)
    (links : u.links = s.links) (present : s.watchdogs k ≠ .absent) (running : s.watchdogs k ≠ .done)
    (probed : u.probe codec k name w payload = some t) : t.registry = u.registry ∧ Frame codec s t := by
  simp only [App.probe] at probed
  split at probed
  · cases probed
    exact ⟨rfl, frame.setWatchdog present running⟩
  · split at probed
    · split_ifs at probed
      exact Frame.call (u := u.setWatchdog k _) (frame.setWatchdog present running) links probed
    · cases probed

theorem stepWatchdog_frame {action : WatchdogAction} (stepped : s.stepWatchdog codec k action = some t) :
    (s.watchdogs k ≠ .absent ∧ s.watchdogs k ≠ .done) ∧ t.registry = s.registry ∧ Frame codec s t := by
  have start : Frame codec s s := .refl s
  simp only [App.stepWatchdog] at stepped
  split at stepped
  · next at_ =>
    refine ⟨by rw [at_]; constructor <;> rintro ⟨⟩, ?_⟩
    split at stepped <;> cases stepped <;>
      exact ⟨rfl, start.setWatchdog (by rw [at_]; rintro ⟨⟩) (by rw [at_]; rintro ⟨⟩)⟩
  · next at_ =>
    have present : s.watchdogs k ≠ .absent := by rw [at_]; rintro ⟨⟩
    have running : s.watchdogs k ≠ .done := by rw [at_]; rintro ⟨⟩
    refine ⟨⟨present, running⟩, ?_⟩
    split_ifs at stepped
    · obtain ⟨u, spawned, probed⟩ := Option.bind_eq_some_iff.mp stepped
      simp only [spawn] at spawned
      split at spawned <;> cases spawned
      next none_ =>
      refine Frame.probe (u := s.setBounce _ _) (start.setBounce fun c at_ => ?_) rfl present running probed
      rw [none_] at at_
      cases at_
    · exact start.probe rfl present running stepped
  · next at_ =>
    exact ⟨by rw [at_]; constructor <;> rintro ⟨⟩, start.call rfl stepped⟩
  · next at_ =>
    split_ifs at stepped
    cases stepped
    refine ⟨by rw [at_]; constructor <;> rintro ⟨⟩, rfl, start.setWatchdog ?_ ?_⟩ <;> rw [at_] <;> rintro ⟨⟩
  · split_ifs at stepped
    split at stepped
    · next at_ =>
      cases stepped
      refine ⟨by rw [at_]; constructor <;> rintro ⟨⟩, rfl, start.setWatchdog ?_ ?_⟩ <;> rw [at_] <;> rintro ⟨⟩
    · next at_ =>
      cases stepped
      refine ⟨by rw [at_]; constructor <;> rintro ⟨⟩, rfl, start.setWatchdog ?_ ?_⟩ <;> rw [at_] <;> rintro ⟨⟩
    · next at_ =>
      have moved : Frame codec s (s.setWatchdog k .done) := by
        refine start.setWatchdog ?_ ?_ <;> rw [at_] <;> rintro ⟨⟩
      refine ⟨by rw [at_]; constructor <;> rintro ⟨⟩, ?_⟩
      split_ifs at stepped
      · cases stepped
        exact ⟨rfl, moved⟩
      · exact moved.call rfl stepped
    · cases stepped
    · cases stepped
  · cases stepped

theorem stepHandler_frame {j : ℕ} {action : HandlerAction} (stepped : s.stepHandler codec j action = some t) :
    t.registry = s.registry ∧ Frame codec s t := by
  simp only [App.stepHandler] at stepped
  split at stepped
  · obtain ⟨k, _, rfl⟩ := Option.map_eq_some_iff.mp stepped
    exact ⟨rfl, .of_eq rfl rfl rfl⟩
  · exact Frame.call (.refl s) rfl stepped
  · exact Frame.call (.refl s) rfl stepped
  · split_ifs at stepped
    cases stepped
    exact ⟨rfl, .of_eq rfl rfl rfl⟩
  · cases stepped

/-- What a bounce does to the registry: it sets flags. -/
structure FlagsOnly (s t : App) : Prop where
  handles : t.registry.handles = s.registry.handles
  built : t.registry.built = s.registry.built

theorem nextAttempt_frame {u : App} {j : ℕ} {b : Bounce} (flags : FlagsOnly s u) (frame : Frame codec s u)
    (running : ∀ c, s.bounces j = some c → c.pc ≠ .done) :
    FlagsOnly s (u.nextAttempt j b) ∧ Frame codec s (u.nextAttempt j b) := by
  rw [App.nextAttempt]
  split <;> exact ⟨⟨flags.handles, flags.built⟩,
    Frame.setBounce ⟨frame.links, frame.ends, frame.ended⟩ running⟩

theorem stepBegun_frame {j : ℕ} {b : Bounce} {action : BounceAction} (at_ : s.bounces j = some b)
    (stepped : s.stepBegun codec j b action = some t) :
    b.pc ≠ .done ∧ FlagsOnly s t ∧ Frame codec s t := by
  by_cases done : b.pc = .done
  · simp only [App.stepBegun, done] at stepped
    cases action <;> cases stepped
  have running : ∀ c, s.bounces j = some c → c.pc ≠ .done := by
    intro c at'
    rw [at_] at at'
    cases at'
    exact done
  have moved : ∀ c : Bounce, Frame codec s (s.setBounce j c) := fun _ => Frame.setBounce (.refl s) running
  have called : ∀ {u : App} {k : ℕ} {e : TransportEvent}, u.call codec k e = some t → FlagsOnly s u →
      u.links = s.links → Frame codec s u → FlagsOnly s t ∧ Frame codec s t := by
    intro u k e called flags links frame
    obtain ⟨same, frame⟩ := frame.call links called
    exact ⟨⟨same ▸ flags.handles, same ▸ flags.built⟩, frame⟩
  refine ⟨done, ?_⟩
  simp only [App.stepBegun] at stepped
  split at stepped
  · cases stepped
    simp only [App.startAuto]
    split
    · exact nextAttempt_frame ⟨rfl, rfl⟩ (.of_eq rfl rfl rfl) running
    · exact ⟨⟨rfl, rfl⟩, Frame.setBounce (.of_eq rfl rfl rfl) running⟩
  · exact called stepped ⟨rfl, rfl⟩ rfl (moved _)
  · split_ifs at stepped
    exact called stepped ⟨rfl, rfl⟩ rfl (moved _)
  · split_ifs at stepped
    cases stepped
    exact ⟨⟨rfl, rfl⟩, moved _⟩
  · split_ifs at stepped
    cases stepped
    exact nextAttempt_frame ⟨rfl, rfl⟩ (.refl s) running
  · split_ifs at stepped
    cases stepped
    exact nextAttempt_frame ⟨rfl, rfl⟩ (.refl s) running
  · split_ifs at stepped
    cases stepped
    exact ⟨⟨rfl, rfl⟩, moved _⟩
  · split_ifs at stepped
    cases stepped
    rw [App.succeeded]
    split <;> exact ⟨⟨rfl, rfl⟩, Frame.setBounce (.of_eq rfl rfl rfl) running⟩
  · exact called stepped ⟨rfl, rfl⟩ rfl (.refl s)
  · exact called stepped ⟨rfl, rfl⟩ rfl (.refl s)
  · cases stepped

theorem stepBounce_frame {j : ℕ} {action : BounceAction} (stepped : s.stepBounce codec j action = some t) :
    (∀ b, s.bounces j = some b → b.pc ≠ .done) ∧ FlagsOnly s t ∧ Frame codec s t := by
  cases action with
  | manual name =>
    simp only [App.stepBounce, App.startManual] at stepped
    split at stepped
    · next none_ _ _ =>
      have running : ∀ c, s.bounces j = some c → c.pc ≠ .done := fun c at_ => by rw [none_] at at_; cases at_
      have moved : ∀ c, Frame codec s ((s.setManualOp name true).setBounce j c) :=
        fun c => Frame.setBounce (.of_eq rfl rfl rfl) running
      obtain ⟨same, frame⟩ := (moved _).call rfl stepped
      exact ⟨running, ⟨same ▸ rfl, same ▸ rfl⟩, frame⟩
    · cases stepped
  | _ =>
    obtain ⟨b, at_, stepped⟩ := Option.bind_eq_some_iff.mp stepped
    obtain ⟨running, flags, frame⟩ := stepBegun_frame at_ stepped
    refine ⟨fun c at' => ?_, flags, frame⟩
    rw [at_] at at'
    cases at'
    exact running

theorem issue_frame {u : App} (frame : Frame codec s u) (links : u.links = s.links)
    (issued : u.issue codec i = some t) :
    t.registry = u.registry ∧ t.bounces = u.bounces ∧ t.watchdogs = u.watchdogs ∧ Frame codec s t := by
  simp only [App.issue] at issued
  split at issued
  · obtain ⟨same, after⟩ := frame.call links issued
    obtain ⟨link, _, rfl⟩ := Option.map_eq_some_iff.mp issued
    exact ⟨same, rfl, rfl, after⟩
  · obtain ⟨same, after⟩ := frame.call links issued
    obtain ⟨link, _, rfl⟩ := Option.map_eq_some_iff.mp issued
    exact ⟨same, rfl, rfl, after⟩
  · cases issued
    exact ⟨rfl, rfl, rfl, frame⟩

/-- A request creates the watchdog of the build it holds. -/
theorem createWatchdogs_frame (codec : Codec) (s : App) (r : Registry) (e : RegistryEvent) (i : ℕ) :
    let created := { s with registry := r }.createWatchdogs (s.registry.requests i) e
    created.registry = r ∧ created.bounces = s.bounces ∧ created.links = s.links ∧ Frame codec s created := by
  have created : ∀ k, (s.registry.requests i).held = some k →
      Frame codec s ({ s with registry := r }.createWatchdog k) := by
    intro k held
    refine ⟨fun _ => .inl rfl, fun _ _ at_ _ => at_, fun l _ => ?_⟩
    by_cases same : l = k
    · exact .inr ⟨i, same ▸ held⟩
    · exact .inl (Function.update_of_ne same _ _)
  cases at_ : s.registry.requests i with
  | starting next k => exact ⟨rfl, rfl, rfl, created k (by rw [at_]; rfl)⟩
  | connecting next k =>
    cases e with
    | failed i => exact ⟨rfl, rfl, rfl, created k (by rw [at_]; rfl)⟩
    | save i roster | resume i => exact ⟨rfl, rfl, rfl, .of_eq rfl rfl rfl⟩
  | _ => exact ⟨rfl, rfl, rfl, .of_eq rfl rfl rfl⟩

theorem stepRequest_frame {e : RegistryEvent} (stepped : s.stepRequest codec e = some t) :
    s.registry.step e = some t.registry ∧ t.bounces = s.bounces ∧ Frame codec s t := by
  cases e with
  | save i roster =>
    obtain ⟨r, saved, rfl⟩ := Option.map_eq_some_iff.mp stepped
    exact ⟨saved, rfl, .of_eq rfl rfl rfl⟩
  | resume i | failed i =>
    simp only [App.stepRequest] at stepped
    split_ifs at stepped
    obtain ⟨r, resumed, issued⟩ := Option.bind_eq_some_iff.mp stepped
    obtain ⟨registry, bounces, links, frame⟩ := createWatchdogs_frame codec s r _ i
    obtain ⟨same, kept, _, after⟩ := issue_frame frame links issued
    rw [registry] at same
    exact ⟨resumed.trans (congrArg some same.symm), kept.trans bounces, after⟩

/-! ## After the teardown -/

/-- Without a registered handle nothing uses one. -/
theorem Inv.unused (inv : Inv s) (none_ : s.registry.handles.items = []) : s.Unused := by
  have free : ∀ k, k ∉ s.registry.handles.values := fun k mem => items_ne_nil mem none_
  obtain ⟨watchdogs, bounces⟩ := inv.empty none_
  refine ⟨fun k => .inl (watchdogs k), fun j b at_ => ?_, fun j k at_ => ?_, fun i building => ?_⟩
  · rw [bounces j] at at_
    cases at_
  · exact free k (inv.holds (.handler j) k (by simp only [held, at_, HolderPc.held]))
  · obtain ⟨k, held⟩ := Option.ne_none_iff_exists'.mp (ApplyPc.held_of_building building)
    exact free k (inv.holds (.request i) k held)

/-- A teardown that returns has found nothing in use, and the request registers its first handle. -/
theorem Inv.swapped (inv : Inv s) (at_ : (s.registry.requests i).roster? = some roster) {passed : List ℕ}
    {r : Registry} (unused : passed ≠ [] → s.Unused) (outcome : s.registry.Outcome i roster passed r)
    (issued : App.issue codec { s with registry := r } i = some t)
    (returned : (t.registry.requests i).Building) :
    s.Unused ∧ t.registry.handles.values = [s.registry.built] ∧ t.watchdogs = s.watchdogs := by
  obtain ⟨registry, _, watchdogs, _⟩ := issue_frame (s := s) (u := { s with registry := r })
    (.of_eq rfl rfl rfl) rfl issued
  rw [registry] at returned ⊢
  cases outcome with
  | raised f | joins f k c | stops f k c | disconnects f k c more =>
    simp only [Registry.suspend_requests, if_true] at returned
    cases returned
  | swapped f all =>
    refine ⟨?_, ?_, watchdogs⟩
    · by_cases empty : passed = []
      · refine inv.unused ?_
        rw [empty, inv.registered.together] at all
        exact List.map_eq_nil_iff.mp all.symm
      · exact unused empty
    · cases rows : roster with
      | nil => exact absurd rows (inv.rosters i roster at_).2
      | cons cfg later => rfl

theorem Inv.cleared (inv : Inv s) (quiet : s.Busy → s.Unused)
    (at_ : (s.registry.requests i).roster? = some roster)
    (stepped : s.step codec (.request (.resume i)) = some t) (returned : (t.registry.requests i).Building) :
    s.Unused ∧ t.registry.handles.values = [s.registry.built] ∧ t.watchdogs = s.watchdogs := by
  simp only [App.step, App.stepRequest] at stepped
  split_ifs at stepped
  obtain ⟨r, resumed, issued⟩ := Option.bind_eq_some_iff.mp stepped
  simp only [Registry.step, Registry.resume] at resumed
  cases pc : s.registry.requests i with
  | closingSockets roster' =>
    simp only [pc] at at_ resumed issued
    cases at_
    cases resumed
    exact inv.swapped (by rw [pc]; rfl) (absurd rfl) (Registry.joinNext_outcome s.registry _ i roster _) issued
      returned
  | joiningWatchdogs roster' k c =>
    simp only [pc] at at_ resumed issued
    cases at_
    cases resumed
    exact inv.swapped (by rw [pc]; rfl) (absurd rfl)
      (Registry.joinNext_outcome s.registry s.registry.builds i roster c) issued returned
  | stoppingHandles roster' k c =>
    simp only [pc] at at_ resumed issued
    cases at_
    cases resumed
    exact inv.swapped (by rw [pc]; rfl) (absurd rfl)
      (Registry.stopNext_outcome s.registry s.registry.builds i roster c) issued returned
  | disconnecting roster' k c =>
    simp only [pc] at at_ resumed issued
    cases at_
    cases resumed
    exact inv.swapped (by rw [pc]; rfl) (fun _ => quiet ⟨i, roster, k, c, pc⟩)
      (Registry.disconnectNext_outcome s.registry s.registry.builds i roster c) issued returned
  | _ =>
    rw [pc] at at_
    cases at_

/-- What is left of the tasks and transports that a teardown has found in state `t`, with `n` builds made. -/
structure Retired (n : ℕ) (t u : App) : Prop where
  inv : Inv u
  grows : n ≤ u.registry.built
  out : ∀ k < n, k ∉ u.registry.handles.values
  opened : ∀ k < n, (u.links k).opened = (t.links k).opened
  bounces : ∀ j b, t.bounces j = some b → b.pc = .done ∧ u.bounces j = some b
  watchdogs : ∀ k < n, u.watchdogs k = .absent ∨ u.watchdogs k = .done

variable {n : ℕ} {u v : App}

/-- A step renews the handles, and only a bounce or a request writes to the registry. -/
theorem step_frame {e : AppEvent} (stepped : s.step codec e = some t) :
    s.registry.Renews t.registry ∧ Frame codec s t ∧
      (t.registry = s.registry ∨ (∃ j action, e = .bounce j action) ∨ ∃ e', e = .request e') := by
  have idle : t.registry = s.registry ∧ Frame codec s t → s.registry.Renews t.registry ∧ Frame codec s t ∧
      (t.registry = s.registry ∨ (∃ j action, e = .bounce j action) ∨ ∃ e', e = .request e') :=
    fun ⟨same, frame⟩ => ⟨same ▸ .refl _, frame, .inl same⟩
  cases e with
  | request e =>
    obtain ⟨registry, _, frame⟩ := stepRequest_frame stepped
    exact ⟨(Registry.step_writes registry).renews, frame, .inr (.inr ⟨e, rfl⟩)⟩
  | bounce j action =>
    obtain ⟨_, flags, frame⟩ := stepBounce_frame stepped
    exact ⟨⟨flags.built.ge, fun name k mem => .inl (flags.handles ▸ mem)⟩, frame, .inr (.inl ⟨j, action, rfl⟩)⟩
  | startSends i payload =>
    simp only [App.step, App.startSends] at stepped
    split at stepped
    · exact idle (Frame.call (.refl s) rfl stepped)
    · cases stepped
  | watchdog k action => exact idle (stepWatchdog_frame stepped).2
  | handler j action => exact idle (stepHandler_frame stepped)
  | link k e =>
    simp only [App.step] at stepped
    split_ifs at stepped
    exact idle (Frame.call (.refl s) rfl stepped)

theorem Retired.step {e : AppEvent} (retired : Retired n t u) (quiet : Quiet u e)
    (stepped : u.step codec e = some v) : Retired n t v := by
  obtain ⟨inv, grows, out, opened, bounces, watchdogs⟩ := retired
  obtain ⟨renews, frame, _⟩ := step_frame stepped
  refine ⟨inv.step quiet stepped, grows.trans renews.grows, fun k below mem => ?_, fun k below => ?_,
    fun j b at_ => ?_, fun k below => ?_⟩
  · obtain ⟨name, mem⟩ := OrderedDict.mem_values_iff.mp mem
    rcases renews.items name k mem with old | new
    · exact out k below (OrderedDict.mem_values_iff.mpr ⟨name, old⟩)
    · omega
  · have dead := inv.dead k (out k below)
    rcases frame.links k with same | ⟨e, moved⟩
    · rw [same]
      exact opened k below
    · have never := HC33ProxyTransport.not_opened moved dead.closing
      rw [(HC33ProxyTransport.step_effect moved).opened_eq.resolve_left fun ⟨i, opens⟩ => never i opens]
      exact opened k below
  · obtain ⟨ends, kept⟩ := bounces j b at_
    exact ⟨ends, frame.ends j b kept ends⟩
  · rcases frame.ended k (watchdogs k below) with same | ⟨i, held⟩
    · rw [same]
      exact watchdogs k below
    · exact absurd (inv.holds (.request i) k held) (out k below)

/-- A teardown that has returned in state `t` is final, with `n` transports built before:
in every later state each of them is without a connection and has opened no new one, and every later step is
of a task that was created afterwards, unless it writes no flag. -/
structure Final (codec : Codec) (n : ℕ) (t : App) (later : List AppEvent) : Prop where
  links : Throughout (App.step codec) (fun _ u => ∀ k < n, (u.links k).isConnected = false ∧
    (u.links k).opened = (t.links k).opened) t later
  flags : ∀ pre e, pre ++ [e] <+: later → ∀ u v, run (App.step codec) t pre = some u →
    u.step codec e = some v →
      v.registry.autoRetrying = u.registry.autoRetrying ∧ v.registry.autoGaveUp = u.registry.autoGaveUp ∨
        (∃ j action, e = .bounce j action ∧ t.bounces j = none) ∨ ∃ e', e = .request e'
  watchdogs : ∀ pre k action, pre ++ [.watchdog k action] <+: later → ∀ u v,
    run (App.step codec) t pre = some u → u.step codec (.watchdog k action) = some v → n ≤ k

/-- What a teardown retires stays so as long as every step is quiet. -/
theorem Retired.final {later : List AppEvent} (retired : Retired n t t)
    (quiet : Meets (App.step codec) (fun _ => Quiet) t later) : Final codec n t later := by
  have along : Throughout (App.step codec) (fun _ => Retired n t) t later :=
    throughout_of_meets retired (fun _ _ _ _ before => before.step) quiet
  have before : ∀ {pre : List AppEvent} {e : AppEvent}, pre ++ [e] <+: later → pre <+: later :=
    fun inside => (List.prefix_append _ _).trans inside
  refine ⟨fun pre inside u ran k below => ?_, fun pre e inside u v ran stepped => ?_,
    fun pre k action inside u v ran stepped => ?_⟩
  · have at_ := along pre inside u ran
    exact ⟨(at_.inv.dead k (at_.out k below)).down, at_.opened k below⟩
  · rcases (step_frame stepped).2.2 with same | ⟨j, action, rfl⟩ | request
    · rw [same]
      exact .inl ⟨rfl, rfl⟩
    · refine .inr (.inl ⟨j, action, rfl, Option.eq_none_iff_forall_ne_some.mpr fun b at_ => ?_⟩)
      obtain ⟨ends, kept⟩ := (along pre (before inside) u ran).bounces j b at_
      exact (stepBounce_frame stepped).1 b kept ends
    · exact .inr (.inr request)
  · by_contra below
    obtain ⟨⟨present, running⟩, _⟩ := stepWatchdog_frame stepped
    exact ((along pre (before inside) u ran).watchdogs k (by omega)).elim present running

/-- **A teardown is final**: in every run in which rosters name each mower once and no other task uses a mower
while a teardown disconnects the transports, a `_teardown_all` that has returned keeps its promise for the
rest of the run. -/
theorem teardown_final (codec : Codec) (loaded : List MowerConfig) (earlier later : List AppEvent) (i : ℕ)
    (s t : App) (distinct : (mowerNames loaded).Nodup)
    (quiet : Meets (App.step codec) (fun _ => Quiet) (init loaded) (earlier ++ .request (.resume i) :: later))
    (ran : run (App.step codec) (init loaded) earlier = some s)
    (stepped : s.step codec (.request (.resume i)) = some t)
    (tearing : (s.registry.requests i).roster? ≠ none) (returned : (t.registry.requests i).Building) :
    Final codec s.registry.built t later := by
  have ranTo : run (App.step codec) (init loaded) (earlier ++ [AppEvent.request (.resume i)]) = some t :=
    run_concat_iff.mpr ⟨s, ran, stepped⟩
  rw [List.append_cons] at quiet
  have through := quiet.of_prefix (List.prefix_append _ later)
  have inv : Inv s := by
    have before := through.of_prefix (List.prefix_append earlier _)
    refine run_invariant_of_meets (I := fun _ => Inv) (inv_init distinct) ?_ before ran
    exact fun _ _ _ _ inv => inv.step
  have here := through.last ran
  obtain ⟨roster, at_⟩ := Option.ne_none_iff_exists'.mp tearing
  obtain ⟨unused, handles, watchdogs⟩ := inv.cleared here.alone at_ stepped returned
  have requested : s.stepRequest codec (.resume i) = some t := stepped
  have bounces := (stepRequest_frame requested).2.1
  refine Retired.final ⟨inv.step here stepped, (step_frame stepped).1.grows, fun k below mem => ?_, fun _ _ => rfl,
    fun j b at_ => ?_, fun k _ => ?_⟩ (quiet.after ranTo)
  · rw [handles, List.mem_singleton] at mem
    omega
  · exact ⟨unused.bounces j b (bounces ▸ at_), at_⟩
  · rw [watchdogs]
    exact unused.watchdogs k

/-- The only mower of a roster. -/
private def only (name : String) : List MowerConfig := [⟨name, none, "192.168.1.54", 9876, none⟩]

/-- The lifespan connects and starts the mower, and a save is about to replace it. -/
def liveMower : List AppEvent :=
  [.link 0 (.resume 0), .link 0 (.resume 0), .link 0 (.opened 0), .link 0 (.resume 0), .request (.resume 0),
    .request (.resume 0)]

/-- The save ends the watchdog, stops the handle and disconnects the transport. -/
def quietSave : List AppEvent :=
  liveMower ++ [.request (.save 1 (only "Luba-B")), .request (.resume 1), .watchdog 0 .cancelled,
    .request (.resume 1), .request (.resume 1), .link 0 (.reader 0 .cancelled), .link 0 (.resume 4),
    .link 0 (.resume 4), .link 0 (.disconnected 4)]

/-- The new mower connects. -/
def newMower : List AppEvent := [.link 1 (.resume 4), .link 1 (.resume 4), .link 1 (.opened 4)]

theorem teardown_final_quietSave :
    ∃ s t, run (App.step .sample) (init (only "Luba-A")) quietSave = some s ∧ s.registry.built = 1 ∧
      (s.links 0).opened = 1 ∧ s.step .sample (.request (.resume 1)) = some t ∧
        Final .sample s.registry.built t newMower := by
  obtain ⟨s, t, ran, built, opened, stepped, tearing, returned⟩ :
      ∃ s t, run (App.step .sample) (init (only "Luba-A")) quietSave = some s ∧ s.registry.built = 1 ∧
        (s.links 0).opened = 1 ∧ s.step .sample (.request (.resume 1)) = some t ∧
          (s.registry.requests 1).roster? ≠ none ∧ (t.registry.requests 1).Building :=
    ⟨_, _, rfl, rfl, rfl, rfl, nofun, trivial⟩
  refine ⟨s, t, ran, built, opened, stepped, teardown_final .sample (only "Luba-A") quietSave newMower 1 s t
    (by decide) (.of_getElem fun n e at_ u reached => ?_) ran stepped tearing returned⟩
  have short : n < 19 := (List.getElem?_eq_some_iff.mp at_).1
  refine ⟨fun i roster save => ?_, fun busy => ?_⟩
  · subst save
    interval_cases n <;> cases at_
    decide
  · obtain ⟨i, roster, k, c, disconnecting⟩ := busy
    interval_cases n <;> cases reached
    -- a disconnect is awaited in five of the states, and by then the watchdog has ended
    all_goals
      first
        | (rcases i with _ | _ | i <;> cases disconnecting; done)
        | (refine ⟨?_, (fun j b at_ => by cases at_), fun j l => nofun, ?_⟩
           · rintro (_ | l)
             · exact .inr rfl
             · exact .inl rfl
           · rintro (_ | _ | l) building <;> exact building)

/-- A retry sequence sleeps while a save tears its mower down, and bounces the old transport afterwards. -/
def sleepingRetry : List AppEvent :=
  liveMower ++ [.watchdog 0 .start, .link 0 (.reader 0 .start), .link 0 (.peerClosed 0),
    .link 0 (.reader 0 .ended), .link 0 (.reader 0 .notified), .watchdog 0 (.tick 0 none), .bounce 0 .start,
    .request (.save 1 (only "Luba-B")), .request (.resume 1), .watchdog 0 .cancelled, .request (.resume 1),
    .request (.resume 1), .link 0 (.resume 4), .link 0 (.disconnected 4)]

/-- The sequence wakes up, and the old transport takes the only client slot of the mower. -/
def revived : List AppEvent :=
  [.bounce 0 .wake, .link 0 (.disconnected 2), .bounce 0 .disconnected, .link 0 (.resume 2),
    .link 0 (.resume 2), .link 0 (.opened 2)]

theorem sleepingRetry_not_final :
    ∃ s t, run (App.step .sample) (init (only "Luba-A")) sleepingRetry = some s ∧
      (s.registry.requests 1).roster? ≠ none ∧ s.step .sample (.request (.resume 1)) = some t ∧
        (t.registry.requests 1).Building ∧ ¬ Final .sample s.registry.built t revived := by
  obtain ⟨s, t, u, ran, stepped, later, built, tearing, returned, up⟩ :
      ∃ s t u, run (App.step .sample) (init (only "Luba-A")) sleepingRetry = some s ∧
        s.step .sample (.request (.resume 1)) = some t ∧ run (App.step .sample) t revived = some u ∧
          s.registry.built = 1 ∧ (s.registry.requests 1).roster? ≠ none ∧
            (t.registry.requests 1).Building ∧ (u.links 0).isConnected = true :=
    ⟨_, _, _, rfl, rfl, rfl, rfl, nofun, trivial, rfl⟩
  refine ⟨s, t, ran, tearing, stepped, returned, fun final => ?_⟩
  have down := (final.links.last later 0 (by omega)).1
  rw [up] at down
  cases down

end App

end MammotionRc.Server
