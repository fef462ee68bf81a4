import MammotionRc.Machine.Run
import MammotionRc.Web.PairingPage

/-! # One thing at a time on the pairing page

The handlers of the page start one after the other: each starts when none is under way, and disables what could start
another one until it is over. So the tasks are handlers that are over, and at most one behind them. Save is offered
exactly while nothing is under way and the last scan had an answer, and it posts mowers of that answer.
-/

namespace MammotionRc.Web

open Machine Server

/-- The answer to a scan. -/
def answeredScan : PairingEvent → Option (Option ScanResponse)
  | .scanned _ data => some data
  | _ => none

/-- The answer to the last scan; inside it is `none` if that one raised. -/
def lastScan (es : List PairingEvent) : Option (Option ScanResponse) :=
  es.foldl (fun last e => (answeredScan e).or last) none

theorem lastScan_concat (es : List PairingEvent) (e : PairingEvent) :
    lastScan (es ++ [e]) = (answeredScan e).or (lastScan es) := by
  rw [lastScan, List.foldl_concat, ← lastScan]

def PairingPc.isEnded : PairingPc → Bool
  | .ended => true
  | _ => false

/-- What does not change about a card. -/
def PairCard.origin (c : PairCard) : Bool × PyStr := (c.manual, c.name)

/-- Handlers that are over, and the one that is under way. -/
def tasksOf (n : ℕ) (active : Option PairingPc) : List PairingPc := List.replicate n .ended ++ active.toList

section Tasks

variable {n i : ℕ} {active : Option PairingPc} {pc : PairingPc}

theorem active_of_getElem? (at_ : (tasksOf n active)[i]? = some pc) (going : pc.isEnded = false) :
    active = some pc ∧ i = n := by
  rw [tasksOf] at at_
  rcases Nat.lt_or_ge i n with before | behind
  · rw [List.getElem?_append_left (by rwa [List.length_replicate]), List.getElem?_replicate_of_lt before] at at_
    cases at_
    cases going
  · rw [List.getElem?_append_right (by rwa [List.length_replicate]), List.length_replicate] at at_
    cases active with
    | none => cases at_
    | some other =>
      obtain ⟨inside, same⟩ := List.getElem?_eq_some_iff.mp at_
      have last : i = n := by
        have : i - n < 1 := inside
        omega
      subst last
      simp only [Nat.sub_self, Option.toList_some, List.getElem_cons_zero] at same
      exact ⟨congrArg some same, rfl⟩

theorem set_tasksOf (n : ℕ) (pc pc' : PairingPc) : (tasksOf n (some pc)).set n pc' = tasksOf n (some pc') := by
  rw [tasksOf, List.set_append_right _ _ (by rw [List.length_replicate]), List.length_replicate, Nat.sub_self]
  rfl

theorem tasksOf_ended (n : ℕ) : tasksOf n (some .ended) = tasksOf (n + 1) none := by
  rw [tasksOf, tasksOf, List.replicate_succ', Option.toList_none, List.append_nil]
  rfl

theorem tasksOf_concat (n : ℕ) (pc : PairingPc) : tasksOf n none ++ [pc] = tasksOf n (some pc) := by
  rw [tasksOf, Option.toList_none, List.append_nil]
  rfl

theorem count_tasksOf (n : ℕ) (active : Option PairingPc) :
    ((tasksOf n active).filter (!·.isEnded)).length ≤ 1 := by
  have endedOnes : (List.replicate n PairingPc.ended).filter (!·.isEnded) = [] :=
    List.filter_eq_nil_iff.mpr fun pc inside => by
      rw [List.eq_of_mem_replicate inside]
      decide
  rw [tasksOf, List.filter_append, endedOnes, List.nil_append]
  refine (List.length_filter_le _ _).trans ?_
  cases active with
  | none => exact Nat.zero_le 1
  | some => exact Nat.le_refl 1

theorem mem_tasksOf : pc ∈ tasksOf n active ↔ (n ≠ 0 ∧ pc = .ended) ∨ active = some pc := by
  rw [tasksOf, List.mem_append, List.mem_replicate, Option.mem_toList]

end Tasks

namespace PairingPage

/-- What is shown and offered while a handler is under way, or none. -/
def Flags (last : Option (Option ScanResponse)) (s : PairingPage) : Option PairingPc → Prop
  | some .status => s = init ∧ last = none
  | some (.login _ _) =>
    s.loginBusy = true ∧ s.loginShown = true ∧ s.scanShown = false ∧ s.saveDisabled = true ∧ last = none
  | some (.scan _) => s.loginShown = false ∧ s.scanShown = true ∧ s.saveDisabled = true ∧ s.rescanDisabled = true
  | some (.save rows) =>
    s.loginShown = false ∧ s.scanShown = true ∧ s.saveDisabled = true ∧ s.rescanDisabled = true ∧ rows ≠ [] ∧
      ∃ data, last = some (some data) ∧ (rows.map PairRow.name).Sublist ((renderCards data).map PairCard.name)
  | some .ended => False
  | none =>
    (s.loginShown = true ∧ s.loginBusy = false ∧ s.scanShown = false ∧ s.saveDisabled = true ∧ last = none) ∨
      (s.loginShown = false ∧ s.scanShown = true ∧ s.rescanDisabled = false ∧
        (s.saveDisabled = false ↔ ∃ data, last = some (some data)))

theorem Flags.idle_of_enabled {s : PairingPage} {last : Option (Option ScanResponse)} {active : Option PairingPc}
    (flags : s.Flags last active) (enabled : s.saveDisabled = false) : active = none := by
  cases active with
  | none => rfl
  | some pc =>
    cases pc with
    | status =>
      obtain ⟨rfl, _⟩ := flags
      exact absurd enabled (by decide)
    | login =>
      obtain ⟨_, _, _, off, _⟩ := flags
      cases off.symm.trans enabled
    | scan | save =>
      obtain ⟨_, _, off, _⟩ := flags
      cases off.symm.trans enabled
    | ended => exact flags.elim

theorem Flags.save_iff {s : PairingPage} {last : Option (Option ScanResponse)} (flags : s.Flags last none) :
    s.saveDisabled = false ↔ ∃ data, last = some (some data) := by
  obtain ⟨_, _, _, off, nothing⟩ | ⟨_, _, _, save⟩ := flags
  · rw [off, nothing]
    exact ⟨nofun, nofun⟩
  · exact save

structure Inv (last : Option (Option ScanResponse)) (s : PairingPage) : Prop where
  phase : ∃ n active, s.tasks = tasksOf n active ∧ s.Flags last active
  shows : ∀ data, last = some (some data) → s.cards.map PairCard.origin = (renderCards data).map PairCard.origin

variable {s t : PairingPage} {last : Option (Option ScanResponse)} {i k : ℕ}

theorem inv_init : Inv none init := ⟨⟨0, some .status, rfl, rfl, rfl⟩, nofun⟩

/-- The handler that an answer goes to is the one that is under way. -/
theorem Inv.awaiting (inv : Inv last s) {pc : PairingPc} (at_ : s.tasks[i]? = some pc) (going : pc.isEnded = false) :
    s.tasks = tasksOf i (some pc) ∧ s.Flags last (some pc) := by
  obtain ⟨n, active, tasks, flags⟩ := inv.phase
  rw [tasks] at at_
  obtain ⟨rfl, rfl⟩ := active_of_getElem? at_ going
  exact ⟨tasks, flags⟩

theorem tasks_setTask {pc : PairingPc} (tasks : s.tasks = tasksOf i (some pc)) (pc' : PairingPc) :
    (s.setTask i pc').tasks = tasksOf i (some pc') := by
  rw [setTask, tasks, set_tasksOf]

theorem tasks_endTask {pc : PairingPc} (tasks : s.tasks = tasksOf i (some pc)) :
    (s.setTask i .ended).tasks = tasksOf (i + 1) none := by
  rw [tasks_setTask tasks, tasksOf_ended]

theorem Inv.status {onboarded : Option Bool} (inv : Inv last s) (stepped : s.step (.status i onboarded) = some t) :
    Inv last t := by
  simp only [step] at stepped
  split at stepped
  · next at_ =>
    obtain ⟨tasks, same, nothing⟩ := inv.awaiting at_ rfl
    subst same nothing
    split at stepped
    · cases stepped
      exact ⟨⟨i, _, tasks_setTask (s := init.runScan) tasks _, rfl, rfl, rfl, rfl⟩, nofun⟩
    · cases stepped
      exact ⟨⟨i + 1, none, tasks_endTask (s := { init with loginShown := true }) tasks,
        .inl ⟨rfl, rfl, rfl, rfl, rfl⟩⟩, nofun⟩
  · cases stepped

/-- The login form waits for the user. -/
theorem Inv.form (inv : Inv last s) (shown : s.loginShown = true) (ready : s.loginBusy = false) :
    ∃ n, s.tasks = tasksOf n none ∧ s.scanShown = false ∧ s.saveDisabled = true ∧ last = none := by
  obtain ⟨n, active, tasks, flags⟩ := inv.phase
  cases active with
  | none =>
    obtain ⟨_, _, hidden, off, nothing⟩ | ⟨gone, _⟩ := flags
    · exact ⟨n, tasks, hidden, off, nothing⟩
    · cases gone.symm.trans shown
  | some pc =>
    cases pc with
    | status =>
      obtain ⟨rfl, _⟩ := flags
      exact absurd shown (by decide)
    | login => cases flags.1.symm.trans ready
    | scan | save => cases flags.1.symm.trans shown
    | ended => exact flags.elim

/-- One of the two buttons of the scan waits for the user. -/
theorem Inv.offers (inv : Inv last s) (shown : s.scanShown = true)
    (enabled : s.rescanDisabled = false ∨ s.saveDisabled = false) :
    ∃ n, s.tasks = tasksOf n none ∧ s.loginShown = false ∧
      (s.saveDisabled = false ↔ ∃ data, last = some (some data)) := by
  obtain ⟨n, active, tasks, flags⟩ := inv.phase
  cases active with
  | none =>
    obtain ⟨_, _, hidden, _⟩ | ⟨gone, _, _, save⟩ := flags
    · cases hidden.symm.trans shown
    · exact ⟨n, tasks, gone, save⟩
  | some pc =>
    cases pc with
    | status =>
      obtain ⟨rfl, _⟩ := flags
      exact absurd shown (by decide)
    | login => cases flags.2.2.1.symm.trans shown
    | scan =>
      obtain ⟨_, _, off, rescan⟩ := flags
      rw [off, rescan] at enabled
      cases enabled <;> contradiction
    | save =>
      obtain ⟨_, _, off, rescan, _⟩ := flags
      rw [off, rescan] at enabled
      cases enabled <;> contradiction
    | ended => exact flags.elim

theorem Inv.submit {email password : PyStr} (inv : Inv last s) (stepped : s.step (.submit email password) = some t) :
    Inv last t := by
  simp only [step] at stepped
  split at stepped
  · next offered =>
    split at stepped
    · cases stepped
      exact inv
    · cases stepped
      obtain ⟨n, tasks, hidden, off, nothing⟩ := inv.form offered.1 offered.2
      refine ⟨⟨n, some (.login (trim email) password), ?_, rfl, offered.1, hidden, off, nothing⟩, inv.shows⟩
      rw [startTask, tasks, tasksOf_concat]
  · cases stepped

theorem Inv.loggedIn {ok : Option Bool} (inv : Inv last s) (stepped : s.step (.loggedIn i ok) = some t) :
    Inv last t := by
  simp only [step] at stepped
  split at stepped
  · next at_ =>
    obtain ⟨tasks, busy, shown, hidden, off, nothing⟩ := inv.awaiting at_ rfl
    split at stepped
    · cases stepped
      exact ⟨⟨i, some (.scan true), tasks_setTask (s := { s with loginShown := false }.runScan) tasks _, rfl, rfl, rfl,
        rfl⟩, inv.shows⟩
    · cases stepped
      exact ⟨⟨i + 1, none, tasks_endTask (s := { s with loginBusy := false }) tasks,
        .inl ⟨shown, rfl, hidden, off, nothing⟩⟩, inv.shows⟩
  · cases stepped

theorem Inv.rescan (inv : Inv last s) (stepped : s.step .rescan = some t) : Inv last t := by
  simp only [step] at stepped
  split at stepped
  · next offered =>
    cases stepped
    obtain ⟨n, tasks, gone, _⟩ := inv.offers offered.1 (.inl offered.2)
    refine ⟨⟨n, some (.scan false), ?_, gone, rfl, rfl, rfl⟩, inv.shows⟩
    change s.tasks ++ _ = _
    rw [tasks, tasksOf_concat]
  · cases stepped

theorem Inv.scanned {data : Option ScanResponse} (inv : Inv last s) (stepped : s.step (.scanned i data) = some t) :
    Inv (some data) t := by
  simp only [step] at stepped
  split at stepped
  · next at_ =>
    obtain ⟨tasks, gone, shown, off, rescan⟩ := inv.awaiting at_ rfl
    cases stepped
    cases data with
    | some data =>
      refine ⟨⟨i + 1, none, ?_, .inr ⟨gone, shown, rfl, fun _ => ⟨data, rfl⟩, fun _ => rfl⟩⟩, ?_⟩
      · exact tasks_endTask (s := { s.showScan (some data) with loginBusy := _ }) tasks
      · intro other same
        cases same
        rfl
    | none =>
      refine ⟨⟨i + 1, none, ?_, .inr ⟨gone, shown, rfl, fun enabled => ?_, nofun⟩⟩, nofun⟩
      · exact tasks_endTask (s := { s.showScan none with loginBusy := _ }) tasks
      · cases off.symm.trans enabled
  · cases stepped

theorem name_row? {c : PairCard} {r : PairRow} (row : c.row? = some r) : r.name = c.name := by
  rw [PairCard.row?] at row
  split at row
  · dsimp only at row
    split at row
    · cases row
    · cases row
      rfl
  · cases row

theorem names_collectRows (cards : List PairCard) :
    ((collectRows cards).map PairRow.name).Sublist (cards.map PairCard.name) := by
  induction cards with
  | nil => exact List.Sublist.refl _
  | cons c cards ih =>
    rw [collectRows, List.filterMap_cons, ← collectRows]
    cases row : c.row? with
    | none => exact ih.cons _
    | some r =>
      rw [List.map_cons, List.map_cons, name_row? row]
      exact ih.cons_cons _

theorem Inv.save (inv : Inv last s) (stepped : s.step .save = some t) : Inv last t := by
  simp only [step] at stepped
  split at stepped
  · next offered =>
    split at stepped
    · cases stepped
      exact inv
    · next nonempty =>
      cases stepped
      obtain ⟨n, tasks, gone, save⟩ := inv.offers offered.1 (.inr offered.2)
      obtain ⟨data, answered⟩ := save.mp offered.2
      refine ⟨⟨n, some (.save _), ?_, gone, offered.1, rfl, rfl, nonempty, data, answered, ?_⟩, inv.shows⟩
      · change s.tasks ++ _ = _
        rw [tasks, tasksOf_concat]
      · have names := congrArg (List.map Prod.snd) (inv.shows data answered)
        rw [List.map_map, List.map_map] at names
        exact (names_collectRows s.cards).trans (names ▸ List.Sublist.refl _)
  · cases stepped

theorem Inv.saved {ok : Option Bool} (inv : Inv last s) (stepped : s.step (.saved i ok) = some t) : Inv last t := by
  simp only [step] at stepped
  split at stepped
  · next at_ =>
    obtain ⟨tasks, gone, shown, _, _, _, data, answered, _⟩ := inv.awaiting at_ rfl
    cases stepped
    exact ⟨⟨i + 1, none, tasks_endTask (s := { s with saveDisabled := false, rescanDisabled := false }) tasks,
      .inr ⟨gone, shown, rfl, fun _ => ⟨data, answered⟩, fun _ => rfl⟩⟩, inv.shows⟩
  · cases stepped

theorem origin_edit {c card : PairCard} {e : CardEdit} (edited : c.edit e = some card) : card.origin = c.origin := by
  cases e with
  | toggle | nick | iot =>
    cases edited
    rfl
  | pair | host | port =>
    rw [PairCard.edit] at edited
    split at edited
    · cases edited
      rfl
    · cases edited

/-- Cards are changed where results are shown, which the flags do not depend on. -/
theorem Flags.setCards {active : Option PairingPc} (flags : s.Flags last active) (shown : s.resultsShown = true)
    (cards : List PairCard) : Flags last { s with cards := cards } active := by
  cases active with
  | none => exact flags
  | some pc =>
    cases pc with
    | status =>
      obtain ⟨rfl, _⟩ := flags
      exact absurd shown (by decide)
    | login | scan | save | ended => exact flags

theorem Inv.edit {e : CardEdit} (inv : Inv last s) (stepped : s.step (.edit k e) = some t) : Inv last t := by
  simp only [step] at stepped
  split at stepped
  · next shown =>
    obtain ⟨card, edited, rfl⟩ := Option.map_eq_some_iff.mp stepped
    obtain ⟨c, at_, edited⟩ := Option.bind_eq_some_iff.mp edited
    obtain ⟨n, active, tasks, flags⟩ := inv.phase
    refine ⟨⟨n, active, tasks, flags.setCards shown _⟩, fun data answered => ?_⟩
    have same : s.cards.map PairCard.origin = (s.cards.set k card).map PairCard.origin := by
      obtain ⟨inside, rfl⟩ := List.getElem?_eq_some_iff.mp at_
      rw [List.map_set, origin_edit edited, ← List.map_set, List.set_getElem_self]
    exact same.symm.trans (inv.shows data answered)
  · cases stepped

theorem Inv.step {e : PairingEvent} (inv : Inv last s) (stepped : s.step e = some t) :
    Inv ((answeredScan e).or last) t := by
  cases e with
  | status => exact inv.status stepped
  | loggedIn => exact inv.loggedIn stepped
  | scanned => exact inv.scanned stepped
  | saved => exact inv.saved stepped
  | submit => exact inv.submit stepped
  | rescan => exact inv.rescan stepped
  | save => exact inv.save stepped
  | edit => exact inv.edit stepped

/-- **The pairing page does one thing at a time.** In whatever order the user acts and the server answers: at most one
request is under way. When none is, the login form or a new scan is on offer, so the page is never stuck. Save is
offered exactly while none is and the last scan had an answer; the cards are then those of that answer, whatever the
user has entered in them, and a save that is under way has posted at least one row, all of them of different cards. -/
theorem pairing_one_at_a_time (es : List PairingEvent) :
    Throughout PairingPage.step (fun es s =>
      (s.tasks.filter (!·.isEnded)).length ≤ 1 ∧
      ((∀ pc ∈ s.tasks, pc = .ended) →
        (s.loginShown = true ∧ s.loginBusy = false) ∨ (s.scanShown = true ∧ s.rescanDisabled = false)) ∧
      (s.saveDisabled = false ↔ (∀ pc ∈ s.tasks, pc = .ended) ∧ ∃ data, lastScan es = some (some data)) ∧
      (∀ data, lastScan es = some (some data) →
        s.cards.map PairCard.origin = (renderCards data).map PairCard.origin) ∧
      ∀ rows, .save rows ∈ s.tasks → rows ≠ [] ∧ ∃ data, lastScan es = some (some data) ∧
        (rows.map PairRow.name).Sublist ((renderCards data).map PairCard.name)) init es := by
  intro pre _ s reached
  have inv : Inv (lastScan pre) s :=
    run_invariant (I := fun es s => Inv (lastScan es) s) inv_init
      (fun es t e u inv stepped => lastScan_concat es e ▸ inv.step stepped) reached
  obtain ⟨n, active, tasks, flags⟩ := inv.phase
  have free : (∀ pc ∈ s.tasks, pc = .ended) → active = none := by
    intro all
    cases active with
    | none => rfl
    | some pc =>
      cases all pc (tasks ▸ mem_tasksOf.mpr (.inr rfl))
      exact flags.elim
  have ended : active = none → ∀ pc ∈ s.tasks, pc = .ended := by
    rintro rfl pc inside
    obtain ⟨_, same⟩ | same := mem_tasksOf.mp (tasks ▸ inside)
    · exact same
    · cases same
  refine ⟨tasks ▸ count_tasksOf n active, fun all => ?_, ⟨fun enabled => ?_, fun ⟨all, answered⟩ => ?_⟩, inv.shows,
    fun rows inside => ?_⟩
  · cases free all
    obtain ⟨shown, ready, _⟩ | ⟨_, shown, ready, _⟩ := flags
    · exact .inl ⟨shown, ready⟩
    · exact .inr ⟨shown, ready⟩
  · have idle := flags.idle_of_enabled enabled
    subst idle
    exact ⟨ended rfl, flags.save_iff.mp enabled⟩
  · cases free all
    exact flags.save_iff.mpr answered
  · obtain ⟨_, same⟩ | same := mem_tasksOf.mp (tasks ▸ inside)
    · cases same
    · subst same
      obtain ⟨_, _, _, _, nonempty, sent⟩ := flags
      exact ⟨nonempty, sent⟩

end PairingPage

end MammotionRc.Web
