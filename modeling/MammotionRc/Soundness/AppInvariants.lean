import MammotionRc.Server.App
import MammotionRc.Soundness.LinkCalls
import MammotionRc.Soundness.RosterSwap

/-! # Who can reach which transport

A task that is inside a call on a link holds the build of that link, and what a task holds is registered as
long as every teardown finds all other tasks finished when it disconnects the transports. A link whose build
has left the registry is then beyond the reach of every task: it has no connection and never gets one.
-/

namespace MammotionRc.Server

open Framing Machine

theorem TaskId.number_inj {a b : TaskId} (same : a.number = b.number) : a = b := by
  cases a <;> cases b <;> simp only [number] at same <;> congr 1 <;> omega

theorem TaskId.exists_number (n : ℕ) : ∃ id : TaskId, id.number = n := by
  obtain rest | rest | rest | rest : n % 4 = 0 ∨ n % 4 = 1 ∨ n % 4 = 2 ∨ n % 4 = 3 := by omega
  · exact ⟨.request (n / 4), by simp only [number]; omega⟩
  · exact ⟨.watchdog (n / 4), by simp only [number]; omega⟩
  · exact ⟨.bounce (n / 4), by simp only [number]; omega⟩
  · exact ⟨.handler (n / 4), by simp only [number]; omega⟩

/-! ## The build on whose link a task may call -/

def ApplyPc.held : ApplyPc → Option ℕ
  | connecting _ k | starting _ k => some k
  | _ => none

theorem ApplyPc.held_of_building {pc : ApplyPc} (building : pc.Building) : pc.held ≠ none := by
  cases pc with
  | connecting next k | starting next k => exact nofun
  | _ => cases building

theorem ApplyPc.held_of_roster {pc : ApplyPc} {roster : List MowerConfig} (at_ : pc.roster? = some roster) :
    pc.held = none := by
  cases pc with
  | connecting next k | starting next k => cases at_
  | _ => rfl

def WatchdogPc.held : WatchdogPc → Option ℕ
  | probing _ _ _ h => some h
  | _ => none

def Bounce.held (b : Bounce) : Option ℕ :=
  match b.pc with
  | .created | .done => none
  | _ => some b.t

def HolderPc.held : HolderPc → Option ℕ
  | holding k => some k
  | _ => none

namespace App

def held (s : App) : TaskId → Option ℕ
  | .request i => (s.registry.requests i).held
  | .watchdog k => (s.watchdogs k).held
  | .bounce j => (s.bounces j).bind Bounce.held
  | .handler j => (s.handlers j).held

/-- A request is disconnecting the transports. -/
def Busy (s : App) : Prop := ∃ i roster k c, s.registry.requests i = .disconnecting roster k c

/-- No task but those in `_teardown_all` uses a mower. -/
structure Unused (s : App) : Prop where
  watchdogs : ∀ k, s.watchdogs k = .absent ∨ s.watchdogs k = .done
  bounces : ∀ j b, s.bounces j = some b → b.pc = .done
  handlers : ∀ j k, s.handlers j ≠ .holding k
  requests : ∀ i, ¬ (s.registry.requests i).Building

/-- Every roster names each mower once, and a teardown that disconnects the transports is alone with them. -/
structure Quiet (s : App) (e : AppEvent) : Prop where
  distinct : ∀ i roster, e = .request (.save i roster) → (mowerNames roster).Nodup
  alone : s.Busy → s.Unused

/-- Task `id` is in no `connect()` or `send()`. -/
def Quit (s : App) (id : TaskId) : Prop := ∀ k, ((s.links k).calls id.number).Closing

structure Inv (s : App) : Prop where
  registered : s.registry.Registered
  distinct : (mowerNames s.registry.mowers).Nodup
  rosters : ∀ i roster, (s.registry.requests i).roster? = some roster →
    (mowerNames roster).Nodup ∧ roster ≠ []
  builder : ∀ i next k, s.registry.requests i = .connecting next k ∨ s.registry.requests i = .starting next k →
    s.registry.handles.keys = mowerNames (s.registry.mowers.take next) ∧
      ∀ j, (s.registry.requests j).Building → j = i
  dead : ∀ k, k ∉ s.registry.handles.values → (s.links k).Dead
  uses : ∀ id k, s.held id ≠ some k → ((s.links k).calls id.number).Closing
  holds : ∀ id k, s.held id = some k → k ∈ s.registry.handles.values
  same : ∀ j b, s.bounces j = some b → b.h = b.t
  loops : ∀ i roster k c, s.registry.requests i = .disconnecting roster k c →
    ∀ j ∈ s.registry.transports.values.take c.passed, (s.links j).isConnected = false ∨
      j = k ∧ (s.links k).Disconnects (TaskId.request i).number
  empty : s.registry.handles.items = [] →
    (∀ k, s.watchdogs k = .absent) ∧ ∀ j, s.bounces j = none
  unborn : ∀ k, (s.registry.built ≤ k ∨ ∃ i next, s.registry.requests i = .connecting next k ∨
    s.registry.requests i = .starting next k) → s.watchdogs k = .absent

variable {codec : Codec} {s t : App} {e : TransportEvent} {id : TaskId}
  {i j k : ℕ}

theorem Inv.quit (inv : Inv s) (free : s.held id = none) : s.Quit id :=
  fun k => inv.uses id k (by rw [free]; exact nofun)

/-- A task whose call has returned is in none. -/
theorem Inv.quit_of_returned (inv : Inv s) (held : s.held id = some k) (ends : s.returned id k = true) :
    s.Quit id := by
  intro j
  by_cases same : s.held id = some j
  · rw [held] at same
    cases same
    rw [of_decide_eq_true ends]
    trivial
  · exact inv.uses id j same

theorem Unused.held (unused : Unused s) : s.held id = none := by
  cases id with
  | request i =>
    have idle := unused.requests i
    simp only [App.held]
    cases at_ : s.registry.requests i with
    | connecting next k | starting next k => exact absurd (by rw [at_]; trivial) idle
    | _ => rfl
  | watchdog k =>
    simp only [App.held]
    rcases unused.watchdogs k with at_ | at_ <;> rw [at_] <;> rfl
  | bounce j =>
    simp only [App.held]
    cases at_ : s.bounces j with
    | none => rfl
    | some b => simp only [Option.bind_some, Bounce.held, unused.bounces j b at_]
  | handler j =>
    have free := unused.handlers j
    simp only [App.held]
    cases at_ : s.handlers j with
    | holding k => exact absurd at_ (free k)
    | absent | done => rfl

theorem Inv.closing (inv : Inv s) (unused : Unused s) (n k : ℕ) : ((s.links k).calls n).Closing := by
  obtain ⟨id, rfl⟩ := TaskId.exists_number n
  exact inv.quit unused.held k

/-- Tasks move on without a call. What one of them holds stays the same, unless it is in no call and holds
something registered from now on. -/
theorem Inv.moved (inv : Inv s) {retrying gaveUp manual : String → Bool} {watchdogs : ℕ → WatchdogPc}
    {bounces : ℕ → Option Bounce} {handlers : ℕ → HolderPc}
    (moves : ∀ id, App.held ⟨s.registry, s.links, watchdogs, bounces, handlers⟩ id = s.held id ∨
      s.Quit id ∧ ∀ k, App.held ⟨s.registry, s.links, watchdogs, bounces, handlers⟩ id = some k →
        k ∈ s.registry.handles.values)
    (same : ∀ j b, bounces j = some b → b.h = b.t)
    (empty : s.registry.handles.items = [] → (∀ k, watchdogs k = .absent) ∧ ∀ j, bounces j = none)
    (unborn : ∀ k, s.watchdogs k = .absent → watchdogs k = .absent) :
    Inv ⟨{ s.registry with autoRetrying := retrying, autoGaveUp := gaveUp, manualOp := manual }, s.links,
      watchdogs, bounces, handlers⟩ where
  registered := ⟨inv.registered.together, inv.registered.own⟩
  distinct := inv.distinct
  rosters := inv.rosters
  builder := inv.builder
  dead := inv.dead
  uses := fun id k free => by
    rcases moves id with held | ⟨quit, _⟩
    · exact inv.uses id k fun at_ => free (held.trans at_)
    · exact quit k
  holds := fun id k at_ => by
    rcases moves id with held | ⟨_, registered⟩
    · exact inv.holds id k (held.symm.trans at_)
    · exact registered k at_
  same := same
  loops := inv.loops
  empty := empty
  unborn := fun k at_ => unborn k (inv.unborn k at_)

/-- A link takes a step; only a task that holds its build begins to connect or to send. -/
theorem Inv.call (inv : Inv s) (called : s.call codec k e = some t)
    (holder : ∀ id, e.Begins id.number → s.held id = some k)
    (calm : s.Busy → (∀ n k, ((s.links k).calls n).Closing) ∧ ∀ n, ¬ e.Begins n) : Inv t := by
  obtain ⟨link, stepped, rfl⟩ := Option.map_eq_some_iff.mp called
  have linkOf : ∀ j, ({ s with links := Function.update s.links k link } : App).links j =
      if j = k then link else s.links j := fun j => Function.update_apply ..
  refine ⟨inv.registered, inv.distinct, inv.rosters, inv.builder, fun j out => ?_, fun id j free => ?_,
    inv.holds, inv.same, fun i roster k' c at_ j passed => ?_, inv.empty, inv.unborn⟩
  · rw [linkOf]
    split_ifs with same
    · subst same
      refine ((inv.dead j out).step stepped fun n begins => ?_).1
      obtain ⟨id, rfl⟩ := TaskId.exists_number n
      exact out (inv.holds id j (holder id begins))
    · exact inv.dead j out
  · rw [linkOf]
    split_ifs with same
    · subst same
      exact HC33ProxyTransport.step_closing stepped (inv.uses id j free) fun begins => free (holder id begins)
    · exact inv.uses id j free
  · obtain ⟨closing, begins⟩ := calm ⟨i, roster, k', c, at_⟩
    have before := inv.loops i roster k' c at_ j passed
    by_cases same : j = k
    · subst same
      rcases before with down | ⟨rfl, disconnects⟩
      · rw [linkOf, if_pos rfl]
        exact .inl (HC33ProxyTransport.Dead.step ⟨down, fun n => closing n j⟩ stepped begins).1.down
      · rw [linkOf, if_pos rfl]
        exact .inr ⟨rfl, disconnects.step (fun n => closing n j) stepped begins⟩
    · rw [linkOf, if_neg same]
      refine before.imp_right fun ⟨current, disconnects⟩ => ⟨current, ?_⟩
      rw [linkOf, if_neg (by rw [← current]; exact same)]
      exact disconnects

/-- Progress on a link. -/
theorem Inv.link (inv : Inv s) (quiet : s.Busy → s.Unused) (progress : e.progress = true)
    (called : s.call codec k e = some t) : Inv t := by
  have begins : ∀ n, ¬ e.Begins n := fun n begins => by
    cases e with
    | connect i | disconnect i | send i payload | cancelled i => exact absurd progress nofun
    | _ => exact begins
  exact inv.call called (fun id at_ => absurd at_ (begins _))
    fun busy => ⟨fun n k => inv.closing (quiet busy) n k, begins⟩

/-! ## Watchdogs, bounces and handlers -/

theorem Inv.setWatchdog (inv : Inv s) {pc : WatchdogPc}
    (moves : pc.held = (s.watchdogs k).held ∨
      s.Quit (.watchdog k) ∧ ∀ h, pc.held = some h → h ∈ s.registry.handles.values)
    (present : s.watchdogs k ≠ .absent) : Inv (s.setWatchdog k pc) := by
  refine inv.moved (fun id => ?_) inv.same (fun none_ => absurd ((inv.empty none_).1 k) present)
    fun j absent => ?_
  swap
  · rw [Function.update_apply, if_neg (by rintro rfl; exact present absent)]
    exact absent
  cases id with
  | watchdog j =>
    simp only [held, Function.update_apply]
    split_ifs with same
    · subst same
      exact moves
    · exact .inl rfl
  | _ => exact .inl rfl

theorem Inv.setBounce (inv : Inv s) {b : Bounce} {retrying gaveUp manual : String → Bool}
    (moves : b.held = s.held (.bounce j) ∨
      s.Quit (.bounce j) ∧ ∀ t, b.held = some t → t ∈ s.registry.handles.values)
    (same : b.h = b.t) (begun : s.registry.handles.items ≠ []) :
    Inv ({ s with
      registry := { s.registry with autoRetrying := retrying, autoGaveUp := gaveUp, manualOp := manual } }.setBounce
        j b) := by
  refine inv.moved (fun id => ?_) (fun i c at_ => ?_) (fun none_ => absurd none_ begun) fun _ => id
  · cases id with
    | bounce i =>
      simp only [held, Function.update_apply] at moves ⊢
      split_ifs with equal
      · subst equal
        exact moves
      · exact .inl rfl
    | _ => exact .inl rfl
  · rw [Function.update_apply] at at_
    split_ifs at at_
    · cases at_
      exact same
    · exact inv.same i c at_

theorem Inv.setHandler (inv : Inv s) {pc : HolderPc}
    (moves : pc.held = (s.handlers j).held ∨
      s.Quit (.handler j) ∧ ∀ k, pc.held = some k → k ∈ s.registry.handles.values) :
    Inv (s.setHandler j pc) := by
  refine inv.moved (fun id => ?_) inv.same inv.empty fun _ => id
  cases id with
  | handler i =>
    simp only [held, Function.update_apply]
    split_ifs with same
    · subst same
      exact moves
    · exact .inl rfl
  | _ => exact .inl rfl

/-- A call of one task on the link of the build it holds, while nobody disconnects the transports. -/
theorem Inv.callBy (inv : Inv s) (id : TaskId) (held : s.held id = some k) (calm : ¬ s.Busy)
    (only : ∀ n, e.Begins n → n = id.number) (called : s.call codec k e = some t) : Inv t :=
  inv.call called (fun _ begins => TaskId.number_inj (only _ begins) ▸ held) fun busy => absurd busy calm

theorem Inv.mem_of_get (inv : Inv s) {name : String} (found : s.registry.transports.get? name = some k) :
    k ∈ s.registry.handles.values := by
  rw [inv.registered.together] at found
  exact OrderedDict.mem_values_iff.mpr ⟨name, OrderedDict.get?_eq_some_iff.mp found⟩

theorem items_ne_nil (mem : k ∈ s.registry.handles.values) : s.registry.handles.items ≠ [] := by
  intro none_
  rw [OrderedDict.values, none_] at mem
  exact List.not_mem_nil mem

theorem Inv.probe (inv : Inv s) (calm : ¬ s.Busy) {name : String} {w : ℕ} {payload : Option Bytes}
    (sleeping : (s.watchdogs k).held = none) (present : s.watchdogs k ≠ .absent)
    (probed : s.probe codec k name w payload = some t) : Inv t := by
  simp only [App.probe] at probed
  split at probed
  · cases probed
    exact inv.setWatchdog (.inl sleeping.symm) present
  · split at probed
    · next h found =>
      split_ifs at probed
      have registered : h ∈ s.registry.handles.values :=
        OrderedDict.mem_values_iff.mpr ⟨name, OrderedDict.get?_eq_some_iff.mp found⟩
      refine (inv.setWatchdog (.inr ⟨inv.quit sleeping, ?_⟩) present).callBy (.watchdog k) ?_ calm ?_ probed
      · rintro _ ⟨⟩
        exact registered
      · simp only [held, App.setWatchdog, Function.update_self, WatchdogPc.held]
      · exact fun n begins => begins.symm
    · cases probed

theorem Inv.stepWatchdog (inv : Inv s) (quiet : s.Busy → s.Unused) {action : WatchdogAction}
    (stepped : s.stepWatchdog codec k action = some t) : Inv t := by
  have begun : s.watchdogs k ≠ .absent → s.registry.handles.items ≠ [] :=
    fun present none_ => present ((inv.empty none_).1 k)
  have calm : s.watchdogs k ≠ .absent → s.watchdogs k ≠ .done → ¬ s.Busy := fun present running busy =>
    ((quiet busy).watchdogs k).elim present running
  simp only [App.stepWatchdog] at stepped
  split at stepped
  · next name at_ =>
    have asleep : (s.watchdogs k).held = none := by rw [at_]; rfl
    split at stepped <;> cases stepped <;> exact inv.setWatchdog (.inl asleep.symm) (by rw [at_]; exact nofun)
  · next j payload name w last at_ =>
    have asleep : (s.watchdogs k).held = none := by rw [at_]; rfl
    have present : s.watchdogs k ≠ .absent := by rw [at_]; exact nofun
    have calm := calm present (by rw [at_]; exact nofun)
    split_ifs at stepped
    · obtain ⟨u, spawned, probed⟩ := Option.bind_eq_some_iff.mp stepped
      simp only [spawn] at spawned
      split at spawned
      · next none_ =>
        cases spawned
        refine Inv.probe (inv.setBounce (.inl ?_) rfl (begun present)) calm asleep present probed
        simp only [held, none_]
        rfl
      · cases spawned
    · exact inv.probe calm asleep present stepped
  · next payload name w last h at_ =>
    refine inv.callBy (.watchdog k) ?_ (calm (by rw [at_]; exact nofun) (by rw [at_]; exact nofun)) ?_ stepped
    · simp only [held, at_, WatchdogPc.held]
    · exact fun n begins => begins.symm
  · next name w last h at_ =>
    split_ifs at stepped with ends
    cases stepped
    refine inv.setWatchdog (.inr ⟨inv.quit_of_returned ?_ ends, nofun⟩) (by rw [at_]; exact nofun)
    simp only [held, at_, WatchdogPc.held]
  · next at_ =>
    split_ifs at stepped with requested
    split at stepped
    · next name at_ =>
      cases stepped
      exact inv.setWatchdog (.inl (by rw [at_]; rfl)) (by rw [at_]; exact nofun)
    · next name w last at_ =>
      cases stepped
      exact inv.setWatchdog (.inl (by rw [at_]; rfl)) (by rw [at_]; exact nofun)
    · next name w last h at_ =>
      have inside : s.held (.watchdog k) = some h := by simp only [held, at_, WatchdogPc.held]
      have present : s.watchdogs k ≠ .absent := by rw [at_]; exact nofun
      split_ifs at stepped with ends
      · cases stepped
        exact inv.setWatchdog (.inr ⟨inv.quit_of_returned inside ends, nofun⟩) present
      · obtain ⟨link, cancelled, rfl⟩ := Option.map_eq_some_iff.mp stepped
        have called : s.call codec h (.cancelled (TaskId.watchdog k).number) =
            some { s with links := Function.update s.links h link } := Option.map_eq_some_iff.mpr ⟨link, cancelled, rfl⟩
        have after := inv.call called (fun _ begins => absurd begins id) fun busy =>
          absurd busy (calm present (by rw [at_]; exact nofun))
        refine @Inv.setWatchdog _ k after .done (.inr ⟨fun j => ?_, nofun⟩) present
        simp only [Function.update_apply]
        split_ifs with same
        · exact HC33ProxyTransport.cancelled_closing cancelled
        · exact inv.uses _ j (by rw [inside]; exact fun equal => same (Option.some.inj equal).symm)
    · cases stepped
    · cases stepped
  · cases stepped

/-- A bounce whose attempt is over sleeps, gives up or reports its failure. -/
theorem Inv.nextAttempt (inv : Inv s) {b : Bounce} {retrying gaveUp manual : String → Bool}
    (quit : s.Quit (.bounce j)) (registered : b.t ∈ s.registry.handles.values) (same : b.h = b.t) :
    Inv (App.nextAttempt { s with
      registry := { s.registry with autoRetrying := retrying, autoGaveUp := gaveUp, manualOp := manual } } j b) := by
  have begun := items_ne_nil registered
  rw [App.nextAttempt]
  split
  · refine inv.setBounce (.inr ⟨quit, ?_⟩) same begun
    rintro _ ⟨⟩
    exact registered
  · exact inv.setBounce (.inr ⟨quit, nofun⟩) same begun
  · exact inv.setBounce (.inr ⟨quit, nofun⟩) same begun

theorem Inv.startAuto (inv : Inv s) {b : Bounce} (at_ : s.bounces j = some b) (created : b.pc = .created) :
    Inv (s.startAuto j b) := by
  have idle : s.held (.bounce j) = none := by
    simp only [held, at_, Option.bind_some, Bounce.held, created]
  have begun : s.registry.handles.items ≠ [] := fun none_ => by
    rw [(inv.empty none_).2 j] at at_
    cases at_
  simp only [App.startAuto]
  split
  · next w h transport handle =>
    have transport : s.registry.transports.get? b.name = some w := transport
    have handle : s.registry.handles.get? b.name = some h := handle
    have together : h = w := by
      rw [inv.registered.together, handle] at transport
      exact Option.some.inj transport
    exact Inv.nextAttempt inv (inv.quit idle) (inv.mem_of_get transport) together
  · exact inv.setBounce (.inr ⟨inv.quit idle, fun _ held => by cases held⟩) (inv.same j b at_) begun

theorem Inv.succeeded (inv : Inv s) {b : Bounce} (quit : s.Quit (.bounce j))
    (registered : b.t ∈ s.registry.handles.values) (same : b.h = b.t) : Inv (s.succeeded j b) := by
  rw [App.succeeded]
  split <;> exact inv.setBounce (.inr ⟨quit, nofun⟩) same (items_ne_nil registered)

theorem Inv.stepBegun (inv : Inv s) (calm : ¬ s.Busy) {b : Bounce} {action : BounceAction}
    (at_ : s.bounces j = some b) (stepped : s.stepBegun codec j b action = some t) : Inv t := by
  have same := inv.same j b at_
  have begun : s.registry.handles.items ≠ [] := fun none_ => by
    rw [(inv.empty none_).2 j] at at_
    cases at_
  have held : s.held (.bounce j) = b.held := by simp only [App.held, at_, Option.bind_some]
  have registered : ∀ k, b.held = some k → k ∈ s.registry.handles.values :=
    fun k has => inv.holds (.bounce j) k (held.trans has)
  have after : ∀ pc, Bounce.held { b with pc := pc } = some b.t →
      App.held (s.setBounce j { b with pc := pc }) (.bounce j) = some b.t := fun pc has => by
    simp only [App.held, App.setBounce, Function.update_self, Option.bind_some, has]
  simp only [App.stepBegun] at stepped
  split at stepped
  · next created =>
    cases stepped
    exact inv.startAuto at_ created
  · next pc =>
    refine Inv.callBy (inv.setBounce (b := { b with pc := .disconnecting }) (.inl ?_) same begun) (.bounce j)
      (after _ rfl) calm ?_ stepped
    · rw [held, Bounce.held, Bounce.held, pc]
    · exact fun n begins => absurd begins id
  · next pc =>
    split_ifs at stepped with ends
    refine Inv.callBy (inv.setBounce (b := { b with pc := .connecting }) (.inl ?_) same begun) (.bounce j)
      (after _ rfl) calm ?_ stepped
    · rw [held, Bounce.held, Bounce.held, pc]
    · exact fun n begins => begins.symm
  · next pc =>
    split_ifs at stepped with ends
    cases stepped
    refine inv.setBounce (.inl ?_) same begun
    rw [held, Bounce.held, Bounce.held, pc]
  · next pc =>
    split_ifs at stepped with ends
    cases stepped
    have has : b.held = some b.t := by rw [Bounce.held, pc]
    exact Inv.nextAttempt inv (inv.quit_of_returned (held.trans has) ends) (registered _ has) same
  · next pc =>
    split_ifs at stepped with ends
    cases stepped
    have has : b.held = some b.t := by rw [Bounce.held, pc]
    rw [same] at ends
    exact Inv.nextAttempt inv (inv.quit_of_returned (held.trans has) ends) (registered _ has) same
  · next pc =>
    split_ifs at stepped with ends
    cases stepped
    refine inv.setBounce (.inl ?_) same begun
    rw [held, Bounce.held, Bounce.held, pc]
  · next pc =>
    split_ifs at stepped with ends
    cases stepped
    have has : b.held = some b.t := by rw [Bounce.held, pc]
    rw [same] at ends
    exact inv.succeeded (inv.quit_of_returned (held.trans has) ends) (registered _ has) same
  · next pc =>
    refine inv.callBy (.bounce j) ?_ calm ?_ stepped
    · rw [held, Bounce.held, pc, same]
    · exact fun n begins => begins.symm
  · next pc =>
    refine inv.callBy (.bounce j) ?_ calm ?_ stepped
    · rw [held, Bounce.held, pc, same]
    · exact fun n begins => begins.symm
  · cases stepped

theorem Inv.startManual (inv : Inv s) (quiet : s.Busy → s.Unused) {name : String}
    (stepped : s.startManual codec j name = some t) : Inv t := by
  simp only [App.startManual] at stepped
  split at stepped
  · next w h none_ transport handle =>
    have idle : s.held (.bounce j) = none := by simp only [held, none_, Option.bind_none]
    have registered := inv.mem_of_get transport
    have together : h = w := by
      rw [inv.registered.together, handle] at transport
      exact Option.some.inj transport
    refine Inv.call (inv.setBounce (.inr ⟨inv.quit idle, ?_⟩) together (items_ne_nil registered)) stepped
      (fun _ begins => False.elim begins) fun busy =>
        ⟨inv.closing (quiet busy), fun n begins => begins⟩
    rintro _ ⟨⟩
    exact registered
  · cases stepped

theorem Inv.stepBounce (inv : Inv s) (quiet : s.Busy → s.Unused) {action : BounceAction}
    (stepped : s.stepBounce codec j action = some t) : Inv t := by
  cases action with
  | manual name => exact inv.startManual quiet stepped
  | _ =>
    obtain ⟨b, at_, stepped⟩ := Option.bind_eq_some_iff.mp stepped
    refine inv.stepBegun (fun busy => ?_) at_ stepped
    simp only [App.stepBegun, (quiet busy).bounces j b at_] at stepped
    cases stepped

theorem Inv.stepHandler (inv : Inv s) (quiet : s.Busy → s.Unused) {action : HandlerAction}
    (stepped : s.stepHandler codec j action = some t) : Inv t := by
  have calm : ∀ k, s.handlers j = .holding k → ¬ s.Busy := fun k at_ busy => (quiet busy).handlers j k at_
  have inside : ∀ k, s.handlers j = .holding k → s.held (.handler j) = some k := fun k at_ => by
    simp only [held, at_, HolderPc.held]
  simp only [App.stepHandler] at stepped
  split at stepped
  · next name at_ =>
    obtain ⟨k, found, rfl⟩ := Option.map_eq_some_iff.mp stepped
    refine inv.setHandler (.inr ⟨inv.quit (by simp only [held, at_, HolderPc.held]), ?_⟩)
    rintro _ ⟨⟩
    exact OrderedDict.mem_values_iff.mpr ⟨name, OrderedDict.get?_eq_some_iff.mp found⟩
  · next payload k at_ =>
    refine inv.callBy (.handler j) (inside k at_) (calm k at_) ?_ stepped
    exact fun n begins => begins.symm
  · next k at_ =>
    refine inv.callBy (.handler j) (inside k at_) (calm k at_) ?_ stepped
    exact fun n begins => absurd begins id
  · next k at_ =>
    split_ifs at stepped with ends
    cases stepped
    exact inv.setHandler (.inr ⟨inv.quit_of_returned (inside k at_) ends, nofun⟩)
  · cases stepped

theorem Inv.startSends (inv : Inv s) (quiet : s.Busy → s.Unused) {payload : Bytes}
    (stepped : s.startSends codec i payload = some t) : Inv t := by
  simp only [App.startSends] at stepped
  split at stepped
  · next next k at_ =>
    refine inv.callBy (.request i) ?_ (fun busy => (quiet busy).requests i ?_) ?_ stepped
    · simp only [held, at_, ApplyPc.held]
    · rw [at_]; trivial
    · exact fun n begins => begins.symm
  · cases stepped

end App

end MammotionRc.Server
