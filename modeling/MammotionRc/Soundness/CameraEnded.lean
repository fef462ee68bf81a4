import Mathlib.Tactic.IntervalCases
import MammotionRc.Machine.Table
import MammotionRc.Web.CameraPage

/-! # When a camera session that is not shown is ended

The server joins a mower to its video channel while the page is still waiting, and the page has ways to give a start
up without a stop. Each start that was carried out is followed by a stop of the page, is still worked on or is the
one that is shown, as long as the page gives none up that no stop follows and no stop overtakes a start.
-/

namespace MammotionRc.Web

open Machine Server

namespace CameraPage

/-- No camera request is in flight: no handler of the page runs and the server has worked off every request. -/
def Idle (s : CameraPage) : Prop :=
  s.starting = none ∧ s.stops = [] ∧ ∀ r ∈ s.requests, r.progress ≠ .waiting

/-- The page shows the camera of a mower. -/
def Shows (s : CameraPage) (name : String) : Prop := s.agora.map AgoraClient.target = some name

/-- The last `enter_state` that the server sent to a mower. -/
def lastEnter (s : CameraPage) (name : String) : Option ℕ :=
  ((s.commands.filter fun c => c.name = name).getLast?).map CameraCommand.enterState

/-- The camera of each mower that is not shown was left, or never joined, once nothing is in flight. -/
def Ended (s : CameraPage) : Prop :=
  s.Idle → ∀ name, ¬ s.Shows name → s.lastEnter name = none ∨ s.lastEnter name = some 0

/-- A `stopCamera` that will post a stop for a mower. -/
def Heads (s : CameraPage) (stop : CameraStop) (name : String) : Prop :=
  stop.pc = .leaving ∧ (stop.target <|> s.currentMower) = some name

/-- A stop for the mower was posted after request `i`, or is about to be. -/
def Covered (s : CameraPage) (i : ℕ) (name : String) : Prop :=
  (∃ j r, i < j ∧ s.requests[j]? = some r ∧ r.name = name ∧ r.kind = .stop) ∨ ∃ stop ∈ s.stops, s.Heads stop name

/-- The page gives its start up: it does not get the answer, cannot read it or cannot join. -/
def GivesUp : CameraEvent → Prop
  | .answered readable agora => readable = false ∨ agora ≠ .created
  | .failed | .joinFailed => True
  | _ => False

/-- The server carries out the start at `i`. -/
def CarriesOut (s : CameraPage) (e : CameraEvent) (i : ℕ) (name : String) : Prop :=
  ∃ call enterState, e = .serve i call ∧ s.requests[i]? = some ⟨name, .start, .waiting⟩ ∧
    call.cameraStart = .ok enterState

/-- Starts are not given up with the mower, and not overtaken. -/
structure Kept (s : CameraPage) (e : CameraEvent) : Prop where
  /-- A start that was carried out is given up only if a stop follows it. -/
  given : GivesUp e → ∀ start, s.starting = some start →
    (s.requests[start.request]?).map CameraRequest.progress = some .carried → s.Covered start.request start.target
  /-- A start that was given up is carried out only if a stop follows it. -/
  late : ∀ i name, s.CarriesOut e i name →
    (∃ start, s.starting = some start ∧ start.request = i) ∨ s.Covered i name
  /-- No later stop was carried out before a start. -/
  order : ∀ i name, s.CarriesOut e i name → ∀ c ∈ s.commands, c.name = name → c.enterState = 0 → c.request < i

variable {s t : CameraPage} {e : CameraEvent} {name : String} {i : ℕ} {target : Option String}

/-! ## The requests and what was sent for them -/

/-- The `enter_state` of a kind of request. -/
def enterStateOf : CameraKind → ℕ
  | .start => 1
  | .stop => 0

/-- No start was carried out after a later stop for its mower. -/
def InOrder (earlier later : CameraCommand) : Prop :=
  earlier.name = later.name → earlier.enterState = 0 → later.enterState = 1 → earlier.request < later.request

structure Logged (s : CameraPage) : Prop where
  named : ∀ r ∈ s.requests, r.name ≠ ""
  /-- Each command was sent for a request. -/
  requested : ∀ c ∈ s.commands, s.requests[c.request]? = some ⟨c.name, .start, .carried⟩ ∧ c.enterState = 1 ∨
    s.requests[c.request]? = some ⟨c.name, .stop, .carried⟩ ∧ c.enterState = 0
  /-- A stop waits or was carried out. -/
  stops : ∀ j name p, s.requests[j]? = some ⟨name, .stop, p⟩ → p = .waiting ∨ ⟨j, name, 0⟩ ∈ s.commands
  ordered : s.commands.Pairwise InOrder

/-- Requests are not forgotten, and what the server is done with stays so. -/
def Later (s t : CameraPage) : Prop :=
  ∀ (j : ℕ) (r : CameraRequest), s.requests[j]? = some r →
    ∃ p, t.requests[j]? = some ⟨r.name, r.kind, p⟩ ∧ (r.progress ≠ .waiting → p = r.progress)

theorem Later.of_eq (same : t.requests = s.requests) : Later s t :=
  fun _ r at_ => ⟨r.progress, same ▸ at_, fun _ => rfl⟩

theorem lt_of_request {r : CameraRequest} (at_ : s.requests[i]? = some r) : i < s.requests.length :=
  (List.getElem?_eq_some_iff.mp at_).1

theorem later_post (s : CameraPage) (name : String) (kind : CameraKind) : Later s (s.post name kind) := by
  intro j r at_
  exact ⟨r.progress, Table.concat at_ _, fun _ => rfl⟩

/-- What a request is after one of them was worked off. -/
theorem setProgress_getElem? {kind : CameraKind} (at_ : s.requests[i]? = some ⟨name, kind, .waiting⟩) (p : Progress)
    (j : ℕ) : (s.setProgress i p).requests[j]? = if i = j then some ⟨name, kind, p⟩ else s.requests[j]? := by
  rw [setProgress, List.getElem?_modify]
  split_ifs with same
  · rw [← same, at_]
    rfl
  · exact Option.map_id' ..

theorem later_setProgress {kind : CameraKind} (at_ : s.requests[i]? = some ⟨name, kind, .waiting⟩) (p : Progress) :
    Later s (s.setProgress i p) := by
  intro j r at'
  rw [setProgress_getElem? at_]
  split_ifs with same
  · rw [← same, at_] at at'
    cases at'
    exact ⟨p, rfl, fun served => absurd rfl served⟩
  · exact ⟨r.progress, at', fun _ => rfl⟩

theorem Logged.of_eq (logged : Logged s) (requests : t.requests = s.requests) (commands : t.commands = s.commands) :
    Logged t := by
  refine ⟨?_, ?_, ?_, ?_⟩
  · rw [requests]
    exact logged.named
  · rw [requests, commands]
    exact logged.requested
  · rw [requests, commands]
    exact logged.stops
  · rw [commands]
    exact logged.ordered

theorem logged_post (logged : Logged s) (kind : CameraKind) (nonempty : name ≠ "") : Logged (s.post name kind) := by
  refine ⟨fun r member => ?_, fun c member => ?_, fun j name' p at_ => ?_, logged.ordered⟩
  · rcases List.mem_append.mp member with before | new
    · exact logged.named r before
    · rw [List.mem_singleton.mp new]
      exact nonempty
  · rcases logged.requested c member with ⟨at_, enter⟩ | ⟨at_, enter⟩
    · exact Or.inl ⟨Table.concat at_ _, enter⟩
    · exact Or.inr ⟨Table.concat at_ _, enter⟩
  · rcases Table.of_concat at_ with at_ | ⟨_, same⟩
    · exact logged.stops j name' p at_
    · cases same
      exact Or.inl rfl

theorem logged_setProgress {kind : CameraKind} (logged : Logged s) (at_ : s.requests[i]? = some ⟨name, kind, .waiting⟩)
    (p : Progress) (start : kind = .start) : Logged (s.setProgress i p) := by
  subst start
  refine ⟨fun r member => ?_, fun c member => ?_, fun j name' q at' => ?_, logged.ordered⟩
  · obtain ⟨j, at'⟩ := List.mem_iff_getElem?.mp member
    rw [setProgress_getElem? at_] at at'
    split_ifs at at'
    · cases at'
      have before := logged.named _ (List.mem_of_getElem? at_)
      exact before
    · exact logged.named r (List.mem_of_getElem? at')
  · rw [setProgress_getElem? at_]
    split_ifs with same
    · rcases logged.requested c member with ⟨at', _⟩ | ⟨at', _⟩ <;>
      · rw [← same, at_] at at'
        cases at'
    · exact logged.requested c member
  · rw [setProgress_getElem? at_] at at'
    split_ifs at at'
    · cases at'
    · exact logged.stops j name' q at'

theorem logged_carried {kind : CameraKind} (logged : Logged s) (at_ : s.requests[i]? = some ⟨name, kind, .waiting⟩)
    (order : kind = .start → ∀ c ∈ s.commands, c.name = name → c.enterState = 0 → c.request < i) :
    Logged (s.serve i ⟨name, kind, .waiting⟩ (.ok (enterStateOf kind))) := by
  refine ⟨fun r member => ?_, fun c member => ?_, fun j name' q at' => ?_, ?_⟩
  · obtain ⟨j, at'⟩ := List.mem_iff_getElem?.mp member
    have at' : (s.setProgress i .carried).requests[j]? = some r := at'
    rw [setProgress_getElem? at_] at at'
    split_ifs at at'
    · cases at'
      have before := logged.named _ (List.mem_of_getElem? at_)
      exact before
    · exact logged.named r (List.mem_of_getElem? at')
  · change (s.setProgress i .carried).requests[c.request]? = _ ∧ _ ∨ (s.setProgress i .carried).requests[_]? = _ ∧ _
    rw [setProgress_getElem? at_]
    rcases List.mem_append.mp member with before | new
    · split_ifs with same
      · rcases logged.requested c before with ⟨at', _⟩ | ⟨at', _⟩ <;>
        · rw [← same, at_] at at'
          cases at'
      · exact logged.requested c before
    · cases List.mem_singleton.mp new
      rw [if_pos rfl]
      cases kind with
      | start => exact Or.inl ⟨rfl, rfl⟩
      | stop => exact Or.inr ⟨rfl, rfl⟩
  · have at' : (s.setProgress i .carried).requests[j]? = some ⟨name', .stop, q⟩ := at'
    rw [setProgress_getElem? at_] at at'
    split_ifs at at' with same
    · cases at'
      exact Or.inr (List.mem_append_right _ (same ▸ List.mem_singleton_self _))
    · exact (logged.stops j name' q at').imp_right (List.mem_append_left _)
  · refine List.pairwise_append.mpr ⟨logged.ordered, List.pairwise_singleton .., fun c member d new => ?_⟩
    cases List.mem_singleton.mp new
    intro same left joined
    cases kind with
    | start => exact order rfl c member same left
    | stop => cases joined

/-! ## The stops -/

theorem Covered.mono (covered : s.Covered i name) (later : Later s t)
    (heads : ∀ stop ∈ s.stops, s.Heads stop name → t.Covered i name) : t.Covered i name := by
  rcases covered with ⟨j, r, after, at_, is, kind⟩ | ⟨stop, member, leaves⟩
  · obtain ⟨p, at', _⟩ := later j r at_
    exact Or.inl ⟨j, _, after, at', is, kind⟩
  · exact heads stop member leaves

theorem Covered.of_le {j : ℕ} (covered : s.Covered j name) (le : i ≤ j) : s.Covered i name :=
  covered.imp_left fun ⟨k, r, after, rest⟩ => ⟨k, r, le.trans_lt after, rest⟩

/-- What a stop leaves as it is. -/
structure Stops (s t : CameraPage) : Prop where
  later : Later s t
  starts : ∀ (j : ℕ) name p, t.requests[j]? = some ⟨name, .start, p⟩ → s.requests[j]? = some ⟨name, .start, p⟩
  stops : ∀ stop ∈ s.stops, stop ∈ t.stops
  currentMower : t.currentMower = s.currentMower
  starting : t.starting = s.starting
  commands : t.commands = s.commands

theorem stops_postStop (s : CameraPage) (target : Option String) : Stops s (s.postStop target) := by
  rw [postStop]
  split
  · split
    · exact ⟨.of_eq rfl, fun _ _ _ at_ => at_, fun _ member => member, rfl, rfl, rfl⟩
    · next name _ _ =>
      refine ⟨s.later_post name .stop, fun j name' p at_ => ?_, fun _ => List.mem_append_left _, rfl, rfl, rfl⟩
      have at_ : (s.requests ++ [⟨name, .stop, .waiting⟩])[j]? = some ⟨name', .start, p⟩ := at_
      rcases Table.of_concat at_ with at_ | ⟨_, same⟩
      · exact at_
      · cases same
  · exact ⟨.of_eq rfl, fun _ _ _ at_ => at_, fun _ member => member, rfl, rfl, rfl⟩

theorem agora_postStop (s : CameraPage) (target : Option String) : (s.postStop target).agora = s.agora := by
  rw [postStop]
  split
  · split <;> rfl
  · rfl

theorem logged_postStop (logged : Logged s) (target : Option String) : Logged (s.postStop target) := by
  rw [postStop]
  split
  · split
    · exact logged
    · next nonempty => exact (logged_post logged .stop nonempty).of_eq rfl rfl
  · exact logged

/-- A stop that is posted follows every request before it. -/
theorem covered_postStop (heads : (target <|> s.currentMower) = some name) (nonempty : name ≠ "")
    (before : i < s.requests.length) : (s.postStop target).Covered i name := by
  rw [postStop, heads]
  refine Or.inl ⟨s.requests.length, ⟨name, .stop, .waiting⟩, before, ?_, rfl, rfl⟩
  simp only [nonempty, if_false, post, List.getElem?_concat_length]

theorem stops_stopCamera (s : CameraPage) (target : Option String) :
    Stops s (s.stopCamera target) ∧ (s.stopCamera target).agora = none := by
  rw [stopCamera]
  split
  · exact ⟨⟨.of_eq rfl, fun _ _ _ at_ => at_, fun _ => List.mem_append_left _, rfl, rfl, rfl⟩, rfl⟩
  · next none_ =>
    refine ⟨s.stops_postStop target, ?_⟩
    rw [agora_postStop]
    simpa using none_

theorem logged_stopCamera (logged : Logged s) (target : Option String) : Logged (s.stopCamera target) := by
  rw [stopCamera]
  split
  · exact logged.of_eq rfl rfl
  · exact logged_postStop logged target

theorem covered_stopCamera (heads : (target <|> s.currentMower) = some name) (nonempty : name ≠ "")
    (before : i < s.requests.length) : (s.stopCamera target).Covered i name := by
  rw [stopCamera]
  split
  · exact Or.inr ⟨⟨target, .leaving⟩, List.mem_append_right _ (List.mem_singleton_self _), rfl, heads⟩
  · exact covered_postStop heads nonempty before

/-! ## What the page owes -/

/-- Each start that was carried out is followed by a stop, worked on or shown. -/
structure Owes (s : CameraPage) : Prop where
  selected : ∀ client, s.agora = some client → s.currentMower = some client.target
  started : ∀ start, s.starting = some start → ∃ p, s.requests[start.request]? = some ⟨start.target, .start, p⟩ ∧
    (start.pc ≠ .posting → p = .carried)
  newest : ∀ start, s.starting = some start → ∀ (j : ℕ) name p, s.requests[j]? = some ⟨name, .start, p⟩ →
    j ≤ start.request
  switched : ∀ start, s.starting = some start →
    s.currentMower = some start.target ∨ s.Covered start.request start.target
  joining : ∀ start client, s.starting = some start → start.pc = .joining client →
    client.target = start.target ∧ (s.agora = some client ∨ s.Covered start.request start.target)
  leaving : ∀ start, s.starting = some start → start.pc = .leaving → s.Covered start.request start.target
  owed : ∀ c ∈ s.commands, c.enterState = 1 → s.Covered c.request c.name ∨
    (∃ start, s.starting = some start ∧ start.request = c.request) ∨ s.Shows c.name

/-- An event that leaves the start of the page alone. -/
structure Quiet (s t : CameraPage) : Prop where
  later : Later s t
  starts : ∀ (j : ℕ) name p, t.requests[j]? = some ⟨name, .start, p⟩ → ∃ q, s.requests[j]? = some ⟨name, .start, q⟩
  starting : t.starting = s.starting
  selected : ∀ client, t.agora = some client → t.currentMower = some client.target
  covers : ∀ i name, i < s.requests.length → name ≠ "" → s.Covered i name → t.Covered i name
  /-- A mower is not left without a stop, and neither is a client. -/
  moved : ∀ i name, i < s.requests.length → name ≠ "" → s.currentMower = some name →
    t.currentMower = some name ∨ t.Covered i name
  agora : ∀ i client, i < s.requests.length → client.target ≠ "" → s.agora = some client →
    t.agora = some client ∨ t.Covered i client.target

theorem Owes.of_quiet (owes : Owes s) (logged : Logged s) (quiet : Quiet s t) (commands : t.commands = s.commands) :
    Owes t := by
  have known (start : CameraStart) (is : s.starting = some start) :
      start.request < s.requests.length ∧ start.target ≠ "" := by
    obtain ⟨p, at_, _⟩ := owes.started start is
    exact ⟨lt_of_request at_, logged.named _ (List.mem_of_getElem? at_)⟩
  refine ⟨quiet.selected, fun start is => ?_, fun start is j name p at_ => ?_, fun start is => ?_,
    fun start client is pc => ?_, fun start is pc => ?_, fun c member enter => ?_⟩
  all_goals try rw [quiet.starting] at is
  · obtain ⟨p, at_, carried⟩ := owes.started start is
    obtain ⟨q, at', same⟩ := quiet.later _ _ at_
    refine ⟨q, at', fun pc => ?_⟩
    have served := carried pc
    exact (same (by simp [served])).trans served
  · obtain ⟨q, at'⟩ := quiet.starts j name p at_
    exact owes.newest start is j name q at'
  · obtain ⟨bound, nonempty⟩ := known start is
    rcases owes.switched start is with here | covered
    · exact quiet.moved _ _ bound nonempty here
    · exact Or.inr (quiet.covers _ _ bound nonempty covered)
  · obtain ⟨bound, nonempty⟩ := known start is
    obtain ⟨same, current | covered⟩ := owes.joining start client is pc
    · refine ⟨same, ?_⟩
      rcases quiet.agora start.request client bound (same ▸ nonempty) current with still | covered
      · exact Or.inl still
      · exact Or.inr (same ▸ covered)
    · exact ⟨same, Or.inr (quiet.covers _ _ bound nonempty covered)⟩
  · obtain ⟨bound, nonempty⟩ := known start is
    exact quiet.covers _ _ bound nonempty (owes.leaving start is pc)
  · rw [commands] at member
    rw [quiet.starting]
    have request : ∃ r, s.requests[c.request]? = some r ∧ r.name = c.name := by
      rcases logged.requested c member with ⟨at_, _⟩ | ⟨at_, _⟩ <;> exact ⟨_, at_, rfl⟩
    obtain ⟨r, at_, is⟩ := request
    have nonempty := is ▸ logged.named r (List.mem_of_getElem? at_)
    have bound := lt_of_request at_
    rcases owes.owed c member enter with covered | works | shows_
    · exact Or.inl (quiet.covers _ _ bound nonempty covered)
    · exact Or.inr (Or.inl works)
    · obtain ⟨client, current, target⟩ := Option.map_eq_some_iff.mp shows_
      rcases quiet.agora c.request client bound (target ▸ nonempty) current with still | covered
      · exact Or.inr (Or.inr (Option.map_eq_some_iff.mpr ⟨client, still, target⟩))
      · exact Or.inl (target ▸ covered)

/-- An event that leaves the mower and the client alone as well. -/
theorem Quiet.of_same (owes : Owes s) (later : Later s t)
    (starts : ∀ (j : ℕ) name p, t.requests[j]? = some ⟨name, .start, p⟩ → ∃ q, s.requests[j]? = some ⟨name, .start, q⟩)
    (starting : t.starting = s.starting) (currentMower : t.currentMower = s.currentMower) (agora : t.agora = s.agora)
    (stops : ∀ stop ∈ s.stops, stop.pc = .leaving → stop ∈ t.stops) : Quiet s t := by
  refine ⟨later, starts, starting, fun client is => ?_, fun i name _ _ covered => ?_, fun i name _ _ here => ?_,
    fun i client _ _ current => Or.inl (agora.trans current)⟩
  · rw [currentMower]
    exact owes.selected client (agora.symm.trans is)
  · refine covered.mono later fun stop member heads => Or.inr ⟨stop, stops stop member heads.1, heads.1, ?_⟩
    rw [currentMower]
    exact heads.2
  · exact Or.inl (currentMower.trans here)

theorem quiet_setProgress {kind : CameraKind} (owes : Owes s) (at_ : s.requests[i]? = some ⟨name, kind, .waiting⟩)
    (p : Progress) : Quiet s (s.setProgress i p) := by
  refine .of_same owes (later_setProgress at_ p) (fun j name' q at' => ?_) rfl rfl rfl fun _ member _ => member
  rw [setProgress_getElem? at_] at at'
  split_ifs at at' with same
  · cases at'
    exact ⟨.waiting, same ▸ at_⟩
  · exact ⟨q, at'⟩

theorem quiet_camStop (owes : Owes s) : Quiet s s.camStop := by
  rw [camStop]
  split
  · exact .of_same owes (.of_eq rfl) (fun _ _ p at_ => ⟨p, at_⟩) rfl rfl rfl fun _ member _ => member
  · obtain ⟨stops, none_⟩ := s.stops_stopCamera none
    refine ⟨stops.later, fun j name p at_ => ⟨p, stops.starts j name p at_⟩, stops.starting, fun client is => ?_,
      fun i name _ _ covered => ?_, fun i name _ _ here => Or.inl (stops.currentMower.trans here),
      fun i client bound nonempty is => Or.inr (covered_stopCamera (owes.selected client is) nonempty bound)⟩
    · cases none_.symm.trans is
    · refine covered.mono stops.later fun stop member heads => Or.inr ⟨stop, stops.stops stop member, heads.1, ?_⟩
      rw [stops.currentMower]
      exact heads.2

theorem previousOr_of_ne (nonempty : name ≠ "") (next : String) : previousOr (some name) next = name :=
  if_neg nonempty

/-- A switch posts a stop for the mower that is left. -/
theorem quiet_selectMower (owes : Owes s) (next : String) : Quiet s (s.selectMower next) := by
  have left (i : ℕ) (name : String) (bound : i < s.requests.length) (nonempty : name ≠ "")
      (here : s.currentMower = some name) : (s.selectMower next).Covered i name := by
    rw [selectMower, here, previousOr_of_ne nonempty]
    exact covered_stopCamera (s := { s with currentMower := some next }) rfl nonempty bound
  obtain ⟨stops, none_⟩ := stops_stopCamera { s with currentMower := some next } (some (previousOr s.currentMower next))
  refine ⟨fun j r => stops.later j r, fun j name p at_ => ⟨p, stops.starts j name p at_⟩, stops.starting,
    fun client is => ?_, fun i name bound nonempty covered => ?_,
    fun i name bound nonempty here => Or.inr (left i name bound nonempty here),
    fun i client bound nonempty is => Or.inr (left i _ bound nonempty (owes.selected client is))⟩
  · cases none_.symm.trans is
  · refine covered.mono (fun j r => stops.later j r) fun stop member ⟨leaves, heads⟩ => ?_
    cases target : stop.target with
    | none =>
      rw [target] at heads
      exact left i name bound nonempty heads
    | some other =>
      refine Or.inr ⟨stop, stops.stops stop member, leaves, ?_⟩
      rw [target] at heads ⊢
      exact heads

theorem mem_eraseIdx {stops : List CameraStop} {n : ℕ} {stop other : CameraStop} (at_ : stops[n]? = some other)
    (member : stop ∈ stops) (ne : stop ≠ other) : stop ∈ stops.eraseIdx n := by
  obtain ⟨k, at'⟩ := List.mem_iff_getElem?.mp member
  refine List.mem_eraseIdx_iff_getElem?.mpr ⟨k, fun same => ne ?_, at'⟩
  rw [same, at_] at at'
  exact (Option.some.inj at').symm

theorem quiet_stopSettled (owes : Owes s) {n : ℕ} (at_ : s.stops[n]? = some ⟨target, .posting⟩) :
    Quiet s { s with stops := s.stops.eraseIdx n } := by
  refine .of_same owes (.of_eq rfl) (fun _ _ p at_ => ⟨p, at_⟩) rfl rfl rfl fun stop member leaves => ?_
  refine mem_eraseIdx at_ member fun same => ?_
  rw [same] at leaves
  cases leaves

/-- A stop that has left its client is posted. -/
theorem quiet_stopLeft (owes : Owes s) {n : ℕ} (at_ : s.stops[n]? = some ⟨target, .leaving⟩) :
    Quiet s ({ s with stops := s.stops.eraseIdx n }.postStop target) := by
  have stops := stops_postStop { s with stops := s.stops.eraseIdx n } target
  refine ⟨fun j r => stops.later j r, fun j name p at_ => ⟨p, stops.starts j name p at_⟩, stops.starting,
    fun client is => ?_, fun i name bound nonempty covered => ?_,
    fun i name _ _ here => Or.inl (stops.currentMower.trans here), fun i client _ _ current => Or.inl ?_⟩
  · rw [agora_postStop] at is
    rw [stops.currentMower]
    exact owes.selected client is
  · refine covered.mono (fun j r => stops.later j r) fun stop member ⟨leaves, heads⟩ => ?_
    rcases eq_or_ne stop ⟨target, .leaving⟩ with rfl | ne
    · exact covered_postStop (s := { s with stops := s.stops.eraseIdx n }) heads nonempty bound
    · refine Or.inr ⟨stop, stops.stops stop (mem_eraseIdx at_ member ne), leaves, ?_⟩
      rw [stops.currentMower]
      exact heads
  · rw [agora_postStop]
    exact current

/-! ## The start -/

theorem carried_of_mem (logged : Logged s) {c : CameraCommand} (member : c ∈ s.commands) (enter : c.enterState = 1) :
    s.requests[c.request]? = some ⟨c.name, .start, .carried⟩ := by
  rcases logged.requested c member with ⟨at_, _⟩ | ⟨_, leaves⟩
  · exact at_
  · omega

/-- What the running start was carried out for. -/
theorem command_of_start (owes : Owes s) (logged : Logged s) {start : CameraStart} (is : s.starting = some start)
    {c : CameraCommand} (member : c ∈ s.commands) (enter : c.enterState = 1) :
    c.request ≤ start.request ∧ (start.request = c.request →
      c.name = start.target ∧ (s.requests[start.request]?).map CameraRequest.progress = some .carried) := by
  have at_ := carried_of_mem logged member enter
  refine ⟨owes.newest start is _ _ _ at_, fun same => ?_⟩
  obtain ⟨p, at', _⟩ := owes.started start is
  rw [same] at at' ⊢
  have both := Option.some.inj (at_.symm.trans at')
  rw [at_]
  exact ⟨congrArg CameraRequest.name both, rfl⟩

/-- A start that ends is followed by a stop, or shown, if it was carried out. -/
theorem Owes.finish (owes : Owes s) (logged : Logged s) {start : CameraStart} (is : s.starting = some start)
    (settled : (s.requests[start.request]?).map CameraRequest.progress = some .carried →
      s.Covered start.request start.target ∨ s.Shows start.target) : Owes { s with starting := none } := by
  refine ⟨owes.selected, by simp, by simp, by simp, by simp, by simp, fun c member enter => ?_⟩
  rcases owes.owed c member enter with covered | ⟨other, works, same⟩ | shows_
  · exact Or.inl covered
  · cases is.symm.trans works
    obtain ⟨name, carried⟩ := (command_of_start owes logged is member enter).2 same
    rcases settled carried with covered | shows_
    · exact Or.inl (by rw [← same, name]; exact covered)
    · exact Or.inr (Or.inr (by rw [name]; exact shows_))
  · exact Or.inr (Or.inr shows_)

/-- A start that leaves its client is followed by a stop. -/
theorem Owes.leave (owes : Owes s) (logged : Logged s) {start : CameraStart} {client : AgoraClient}
    (is : s.starting = some start) (pc : start.pc = .joining client) (covered : s.Covered start.request start.target) :
    Owes (s.leave start client) := by
  obtain ⟨target, _⟩ := owes.joining start client is pc
  have working : (s.leave start client).starting = some { start with pc := .leaving } := rfl
  refine ⟨fun other current => ?_, fun other is' => ?_, fun other is' j name p at_ => ?_, fun other is' => ?_,
    fun other client' is' pc' => ?_, fun other is' _ => ?_, fun c member enter => ?_⟩
  · simp only [CameraPage.leave] at current
    split_ifs at current
    exact owes.selected other current
  · cases working.symm.trans is'
    obtain ⟨p, at_, carried⟩ := owes.started start is
    exact ⟨p, at_, fun _ => carried (by simp [pc])⟩
  · cases working.symm.trans is'
    exact owes.newest start is j name p at_
  · cases working.symm.trans is'
    exact Or.inr covered
  · cases working.symm.trans is'
    cases pc'
  · cases working.symm.trans is'
    exact covered
  · rcases owes.owed c member enter with before | ⟨other, works, same⟩ | shows_
    · exact Or.inl before
    · cases is.symm.trans works
      exact Or.inr (Or.inl ⟨_, working, same⟩)
    · obtain ⟨current, at_, name⟩ := Option.map_eq_some_iff.mp shows_
      rcases eq_or_ne current client with rfl | ne
      · refine Or.inl ((?_ : s.Covered start.request c.name).of_le (command_of_start owes logged is member enter).1)
        rw [← name, target]
        exact covered
      · refine Or.inr (Or.inr (Option.map_eq_some_iff.mpr ⟨current, ?_, name⟩))
        simp only [CameraPage.leave, at_, Option.some.injEq, ne, if_false]

/-- A start that goes on to join is for the mower that is selected. -/
theorem Owes.enter (owes : Owes s) {start : CameraStart} (is : s.starting = some start)
    (carried : (s.requests[start.request]?).map CameraRequest.progress = some .carried)
    (here : s.currentMower = some start.target) : Owes { s with
      agora := some ⟨s.clients, start.target⟩, clients := s.clients + 1
      starting := some { start with pc := .joining ⟨s.clients, start.target⟩ } } := by
  refine ⟨fun client current => ?_, fun other is' => ?_, fun other is' j name p at_ => ?_, fun other is' => ?_,
    fun other client is' pc => ?_, fun other is' pc => ?_, fun c member enter => ?_⟩
  · cases current
    exact here
  · cases is'
    obtain ⟨p, at_, _⟩ := owes.started start is
    rw [at_] at carried
    exact ⟨p, at_, fun _ => Option.some.inj carried⟩
  · cases is'
    exact owes.newest start is j name p at_
  · cases is'
    exact Or.inl here
  · cases is'
    cases pc
    exact ⟨rfl, Or.inl rfl⟩
  · cases is'
    cases pc
  · rcases owes.owed c member enter with covered | ⟨other, works, same⟩ | shows_
    · exact Or.inl covered
    · cases is.symm.trans works
      exact Or.inr (Or.inl ⟨_, rfl, same⟩)
    · obtain ⟨current, at_, name⟩ := Option.map_eq_some_iff.mp shows_
      refine Or.inr (Or.inr (Option.map_eq_some_iff.mpr ⟨_, rfl, ?_⟩))
      exact (Option.some.inj (here.symm.trans (owes.selected current at_))).trans name

theorem Owes.camStart (owes : Owes s) : Owes s.startCamera := by
  rw [startCamera]
  split
  · next name here =>
    split
    · exact owes
    · next free =>
      rw [not_or, Bool.not_eq_true, Option.isSome_eq_false_iff, Option.isNone_iff_eq_none] at free
      refine ⟨owes.selected, fun start is => ?_, fun start is j name' p at_ => ?_, fun start is => ?_,
        fun start client is pc => ?_, fun start is pc => ?_, fun c member enter => ?_⟩
      · cases is
        exact ⟨.waiting, List.getElem?_concat_length .., fun pc => absurd rfl pc⟩
      · cases is
        have bound := lt_of_request at_
        rw [post, List.length_append] at bound
        exact Nat.lt_succ_iff.mp bound
      · cases is
        exact Or.inl here
      · cases is
        cases pc
      · cases is
        cases pc
      · rcases owes.owed c member enter with covered | ⟨start, is, _⟩ | shows_
        · exact Or.inl (covered.mono (s.later_post name .start) fun stop member heads => Or.inr ⟨stop, member, heads⟩)
        · cases free.2.symm.trans is
        · exact Or.inr (Or.inr shows_)
  · exact owes

theorem Owes.command (owes : Owes s) {c : CameraCommand} (owed : c.enterState = 1 → s.Covered c.request c.name ∨
    ∃ start, s.starting = some start ∧ start.request = c.request) : Owes { s with commands := s.commands ++ [c] } := by
  refine ⟨owes.selected, owes.started, owes.newest, owes.switched, owes.joining, owes.leaving, fun d member enter => ?_⟩
  rcases List.mem_append.mp member with before | new
  · exact owes.owed d before enter
  · cases List.mem_singleton.mp new
    exact (owed enter).imp_right Or.inl

/-! ## The runs -/

theorem enterState_of_start {call : CameraCall} {enterState : ℕ} (ok : call.cameraStart = .ok enterState) :
    enterState = 1 := by
  rw [CameraCall.cameraStart] at ok
  split at ok <;> try contradiction
  split at ok <;> try contradiction
  split at ok <;> try contradiction
  split at ok <;> try contradiction
  rw [CameraCall.sendEnter] at ok
  split_ifs at ok
  cases ok
  rfl

theorem enterState_of_stop {call : CameraCall} {enterState : ℕ} (ok : call.cameraStop = .ok enterState) :
    enterState = 0 := by
  simp only [CameraCall.cameraStop, CameraCall.sendEnter] at ok
  split_ifs at ok
  cases ok
  rfl

/-- The server works off a request. -/
theorem served_step {call : CameraCall} (logged : Logged s) (owes : Owes s) (kept : s.Kept (.serve i call))
    (stepped : s.step (.serve i call) = some t) : Logged t ∧ Owes t := by
  simp only [step] at stepped
  split at stepped <;> try contradiction
  next r at_ =>
  split_ifs at stepped with waiting
  obtain ⟨name, kind, progress⟩ := r
  simp only [ne_eq, not_not] at waiting
  subst waiting
  cases kind with
  | start =>
    simp only [Option.some.injEq] at stepped
    subst stepped
    cases ok : call.cameraStart with
    | error e =>
      exact ⟨logged_setProgress logged at_ .refused rfl, owes.of_quiet logged (quiet_setProgress owes at_ .refused) rfl⟩
    | ok enterState =>
      have carries : s.CarriesOut (.serve i call) i name := ⟨call, enterState, rfl, at_, ok⟩
      cases enterState_of_start ok
      have quiet := quiet_setProgress owes at_ .carried
      refine ⟨logged_carried logged at_ fun _ => kept.order i name carries, ?_⟩
      refine (owes.of_quiet logged quiet rfl).command (c := ⟨i, name, 1⟩) fun _ => ?_
      rcases kept.late i name carries with works | covered
      · exact Or.inr works
      · exact Or.inl (quiet.covers i name (lt_of_request at_) (logged.named _ (List.mem_of_getElem? at_)) covered)
  | stop =>
    cases ok : call.cameraStop with
    | error e =>
      simp only [ok] at stepped
      cases stepped
    | ok enterState =>
      cases enterState_of_stop ok
      simp only [ok, Option.some.injEq] at stepped
      subst stepped
      refine ⟨logged_carried logged at_ (by simp), ?_⟩
      exact (owes.of_quiet logged (quiet_setProgress owes at_ .carried) rfl).command (c := ⟨i, name, 0⟩) (by simp)

/-- The page has the answer to its start. -/
theorem answered_step {readable : Bool} {agora : AgoraAnswer} (logged : Logged s) (owes : Owes s)
    (kept : s.Kept (.answered readable agora)) (stepped : s.step (.answered readable agora) = some t) :
    Logged t ∧ Owes t := by
  simp only [step] at stepped
  split at stepped <;> try contradiction
  next target i is =>
  split at stepped <;> try contradiction
  · next carried =>
    have settled (gives : GivesUp (.answered readable agora)) : Owes { s with starting := none } :=
      owes.finish logged is fun carried => Or.inl (kept.given gives _ is carried)
    cases readable with
    | false =>
      cases stepped
      exact ⟨logged.of_eq rfl rfl, settled (Or.inl rfl)⟩
    | true =>
      cases stepped
      simp only [if_true, enter]
      split_ifs with here
      · refine ⟨logged.of_eq rfl rfl, owes.finish logged is fun _ => Or.inl ?_⟩
        exact (owes.switched _ is).resolve_left fun same => here same.symm
      · rw [ne_eq, not_not] at here
        cases agora with
        | missing => exact ⟨logged.of_eq rfl rfl, settled (Or.inr (by decide))⟩
        | throws => exact ⟨logged.of_eq rfl rfl, settled (Or.inr (by decide))⟩
        | created => exact ⟨logged.of_eq rfl rfl, owes.enter is carried here.symm⟩
  · next refused =>
    cases stepped
    refine ⟨logged.of_eq rfl rfl, owes.finish logged is fun carried => ?_⟩
    rw [refused] at carried
    cases carried

/-- The page is through with `join`. -/
theorem joined_step (logged : Logged s) (owes : Owes s) (stepped : s.step .joined = some t) : Logged t ∧ Owes t := by
  simp only [step] at stepped
  split at stepped <;> try contradiction
  next target i client is =>
  obtain ⟨same, joined⟩ := owes.joining _ client is rfl
  split_ifs at stepped with gone
  · cases stepped
    refine ⟨logged.of_eq rfl rfl, owes.leave logged is rfl ?_⟩
    rcases gone with switched | dropped
    · exact (owes.switched _ is).resolve_left fun same => switched same.symm
    · exact joined.resolve_left dropped
  · cases stepped
    rw [not_or, not_not, not_not] at gone
    refine ⟨logged.of_eq rfl rfl, owes.finish logged is fun _ => Or.inr ?_⟩
    rw [Shows, gone.2]
    exact congrArg some same

theorem inv_step (logged : Logged s) (owes : Owes s) (kept : s.Kept e) (stepped : s.step e = some t) :
    Logged t ∧ Owes t := by
  cases e with
  | selectMower name =>
    cases stepped
    have same : Logged { s with currentMower := some name } := logged.of_eq rfl rfl
    have stops := (stops_stopCamera { s with currentMower := some name } (some (previousOr s.currentMower name))).1
    exact ⟨logged_stopCamera same _, owes.of_quiet logged (quiet_selectMower owes name) stops.commands⟩
  | camStart =>
    cases stepped
    refine ⟨?_, owes.camStart⟩
    rw [startCamera]
    split
    · split
      · exact logged
      · next free =>
        rw [not_or] at free
        exact (logged_post logged .start free.1).of_eq rfl rfl
    · exact logged
  | camStop =>
    cases stepped
    refine ⟨?_, owes.of_quiet logged (quiet_camStop owes) ?_⟩ <;> rw [camStop] <;> split
    · exact logged
    · exact logged_stopCamera logged none
    · rfl
    · exact (s.stops_stopCamera none).1.commands
  | serve i call => exact served_step logged owes kept stepped
  | lose i =>
    simp only [step] at stepped
    split at stepped <;> try contradiction
    next r at_ =>
    split_ifs at stepped with waits
    cases stepped
    obtain ⟨name, kind, progress⟩ := r
    obtain ⟨rfl, rfl⟩ := waits
    exact ⟨logged_setProgress logged at_ .lost rfl, owes.of_quiet logged (quiet_setProgress owes at_ .lost) rfl⟩
  | answered readable agora => exact answered_step logged owes kept stepped
  | failed =>
    simp only [step] at stepped
    split at stepped <;> cases stepped
    next is =>
    exact ⟨logged.of_eq rfl rfl, owes.finish logged is fun carried => Or.inl (kept.given trivial _ is carried)⟩
  | joined => exact joined_step logged owes stepped
  | joinFailed =>
    simp only [step] at stepped
    split at stepped <;> cases stepped
    next target i client is =>
    refine ⟨logged.of_eq rfl rfl, owes.leave logged is rfl (kept.given trivial _ is ?_)⟩
    obtain ⟨p, at_, carried⟩ := owes.started _ is
    rw [at_, carried (by simp)]
    rfl
  | startLeft =>
    simp only [step] at stepped
    split at stepped <;> cases stepped
    next is => exact ⟨logged.of_eq rfl rfl, owes.finish logged is fun _ => Or.inl (owes.leaving _ is rfl)⟩
  | stopLeft n =>
    simp only [step] at stepped
    split at stepped <;> cases stepped
    next target at_ =>
    have same : Logged { s with stops := s.stops.eraseIdx n } := logged.of_eq rfl rfl
    have stops := stops_postStop { s with stops := s.stops.eraseIdx n } target
    exact ⟨logged_postStop same target, owes.of_quiet logged (quiet_stopLeft owes at_) stops.commands⟩
  | stopSettled n =>
    simp only [step] at stepped
    split at stepped <;> cases stepped
    next at_ => exact ⟨logged.of_eq rfl rfl, owes.of_quiet logged (quiet_stopSettled owes at_) rfl⟩

/-- Once nothing is in flight, a start that a stop follows is not the last that a mower hears of. -/
theorem ended_of_inv (logged : Logged s) (owes : Owes s) : s.Ended := by
  intro ⟨free, quiet, settled⟩ name hidden
  rw [lastEnter]
  cases last : (s.commands.filter fun c => c.name = name).getLast? with
  | none => exact Or.inl rfl
  | some c =>
    refine Or.inr (congrArg some ?_)
    obtain ⟨earlier, split_⟩ := List.getLast?_eq_some_iff.mp last
    have among : c ∈ s.commands.filter fun c => c.name = name :=
      split_ ▸ List.mem_append_right _ (List.mem_singleton_self c)
    rw [List.mem_filter, decide_eq_true_eq] at among
    obtain ⟨member, rfl⟩ := among
    rcases logged.requested c member with ⟨_, enter⟩ | ⟨_, leaves⟩
    · rcases owes.owed c member enter with covered | ⟨start, is, _⟩ | shows_
      · rcases covered with ⟨j, r, after, at_, is, kind⟩ | ⟨stop, inside, _⟩
        · obtain ⟨name, kind, progress⟩ := r
          cases is
          cases kind
          have left := (logged.stops j _ _ at_).resolve_left (settled _ (List.mem_of_getElem? at_))
          have inside : ⟨j, c.name, 0⟩ ∈ s.commands.filter fun d => d.name = c.name :=
            List.mem_filter.mpr ⟨left, decide_eq_true rfl⟩
          have ordered := logged.ordered.filter fun d => d.name = c.name
          rw [split_] at inside ordered
          rcases List.mem_append.mp inside with before | same
          · have := (List.pairwise_append.mp ordered).2.2 _ before c (List.mem_singleton_self c) rfl rfl enter
            exact absurd after (Nat.lt_asymm this)
          · have left : 0 = c.enterState := congrArg CameraCommand.enterState (List.mem_singleton.mp same)
            omega
        · rw [quiet] at inside
          cases inside
      · rw [free] at is
        cases is
      · exact absurd shows_ hidden
    · exact leaves

theorem logged_init : Logged init := ⟨by simp [init], by simp [init], by simp [init], .nil⟩

theorem owes_init : Owes init :=
  ⟨by simp [init], by simp [init], by simp [init], by simp [init], by simp [init], by simp [init], by simp [init]⟩

/-- Along every run: if the page gives no start up that the server carries out and no stop follows, and no stop
overtakes a start, then whenever nothing is in flight the camera of each mower that is not shown was left. -/
theorem ended_of_kept {es : List CameraEvent} (kept : Meets step (fun _ => Kept) init es) :
    Throughout step (fun _ => Ended) init es := by
  have preserved : ∀ (_ : List CameraEvent) t e u, Logged t ∧ Owes t → Kept t e → step t e = some u →
      Logged u ∧ Owes u :=
    fun _ _ _ _ inv kept stepped => inv_step inv.1 inv.2 kept stepped
  intro pre before t reached
  obtain ⟨logged, owes⟩ := throughout_of_meets (I := fun _ t => Logged t ∧ Owes t) ⟨logged_init, owes_init⟩
    preserved kept pre before t reached
  exact ended_of_inv logged owes

def working : CameraCall := ⟨some (some "iot"), true, true, some ⟨0, true⟩, true⟩

/-- The mower is switched while the answer to a start is on its way. -/
def switchedMidFlight : List CameraEvent :=
  [.selectMower "Luba", .serve 0 working, .stopSettled 0, .camStart, .serve 1 working, .selectMower "Yuka",
    .answered true .created, .serve 2 working, .stopSettled 0]

theorem switchedMidFlight_ended : (run step init switchedMidFlight).map (fun s => (s.agora, s.lastEnter "Luba")) =
    some (none, some 0) ∧ Throughout step (fun _ => Ended) init switchedMidFlight := by
  refine ⟨by decide, ended_of_kept (.of_getElem fun n e at_ s reached => ?_)⟩
  have short : n < 9 := (List.getElem?_eq_some_iff.mp at_).1
  refine ⟨fun gives => ?_, fun i name carries => ?_, fun i name carries => ?_⟩
  · interval_cases n <;> cases at_
    all_goals try exact gives.elim
    rcases gives with unreadable | missing
    · cases unreadable
    · exact absurd rfl missing
  · obtain ⟨call, _, is, at', _⟩ := carries
    subst is
    interval_cases n <;> cases at_ <;> cases reached
    · cases at'
    · exact Or.inl ⟨_, rfl, rfl⟩
    · cases at'
  · obtain ⟨call, _, is, at', _⟩ := carries
    subst is
    interval_cases n <;> cases at_ <;> cases reached
    · cases at'
    · cases at'
      decide
    · cases at'

/-- The video library did not load on the device of the page. -/
def sdkMissing : List CameraEvent :=
  [.selectMower "Luba", .serve 0 working, .stopSettled 0, .camStart, .serve 1 working, .answered true .missing]

theorem sdkMissing_streams : ¬ Throughout step (fun _ => Ended) init sdkMissing := by
  intro always
  have reached : run step init sdkMissing = some ⟨some "Luba", none, 0, none, [],
      [⟨"Luba", .stop, .carried⟩, ⟨"Luba", .start, .carried⟩], [⟨0, "Luba", 0⟩, ⟨1, "Luba", 1⟩]⟩ := by decide
  rcases always.last reached ⟨rfl, rfl, by decide⟩ "Luba" (by simp [Shows]) with never | left
  · exact absurd never (by decide)
  · exact absurd left (by decide)

end CameraPage

end MammotionRc.Web
