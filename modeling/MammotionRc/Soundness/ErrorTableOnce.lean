import MammotionRc.Machine.Run
import MammotionRc.Server.CloudSession

/-! # The table of error texts is fetched once

Every status request with a fault asks for the table. The first creates a task that fetches it, and the flag keeps
the others from creating a second one until the table is there; after that its presence does. The task ends with some
table whatever the cloud answers, and that table stays.
-/

namespace MammotionRc.Server

open Machine

/-- The task is the fetch of the error table, under way or over. -/
def CloudPc.isTableFetch : CloudPc → Bool
  | ended .tableFetched => true
  | pc => pc.fetches

theorem CloudPc.isTableFetch_of_fetches {pc : CloudPc} (fetches : pc.fetches = true) : pc.isTableFetch = true := by
  cases pc with
  | ended => cases fetches
  | absent | loggingIn | fetchCreated | ensuring | confirming | handshaking | listing | listingElsewhere | fetching
  | applying => exact fetches

namespace CloudSession

variable {Table : Type} {s t : CloudSession Table} {i j : ℕ} {pc : CloudPc} {table : Table}
  {es : List (CloudEvent Table)} {e : CloudEvent Table}

/-- Task `i` has a turn that leaves the table and its flag alone. -/
structure Quiet (s : CloudSession Table) (i : ℕ) (pc : CloudPc) (t : CloudSession Table) : Prop where
  tasks : t.tasks = Function.update s.tasks i pc
  codes : t.errorCodes = s.errorCodes
  flag : t.errorTableFetching = s.errorTableFetching

/-- How far the fetch is. -/
inductive FetchPhase (s : CloudSession Table) : Prop
  | unasked (codes : s.errorCodes = none) (flag : s.errorTableFetching = false)
    (others : ∀ j, (s.tasks j).isTableFetch = false)
  | flying (i : ℕ) (fetches : (s.tasks i).fetches = true) (codes : s.errorCodes = none)
    (flag : s.errorTableFetching = true) (others : ∀ j, j ≠ i → (s.tasks j).isTableFetch = false)
  | landed (i : ℕ) (table : Table) (fetched : s.tasks i = .ended .tableFetched) (codes : s.errorCodes = some table)
    (flag : s.errorTableFetching = false) (others : ∀ j, j ≠ i → (s.tasks j).isTableFetch = false)

theorem Quiet.tasks_self (moved : Quiet s i pc t) : t.tasks i = pc := by
  rw [moved.tasks, Function.update_self]

theorem Quiet.tasks_ne (moved : Quiet s i pc t) (other : j ≠ i) : t.tasks j = s.tasks j := by
  rw [moved.tasks, Function.update_of_ne other]

theorem quiet_setTask (s : CloudSession Table) (i : ℕ) (pc : CloudPc) : Quiet s i pc (s.setTask i pc) := ⟨rfl, rfl, rfl⟩

theorem Quiet.keeps (moved : Quiet s i pc t) (after : pc.isTableFetch = false)
    (idle : (s.tasks j).isTableFetch = false) : (t.tasks j).isTableFetch = false := by
  by_cases own : j = i
  · rw [own, moved.tasks_self]
    exact after
  · rw [moved.tasks_ne own]
    exact idle

theorem ne_of_over {k : ℕ} (fetches : (s.tasks i).fetches = true) (fetched : s.tasks k = .ended .tableFetched) :
    i ≠ k := by
  rintro rfl
  rw [fetched] at fetches
  cases fetches

/-- While a task fetches, it is the only one and the table is missing. -/
theorem FetchPhase.of_fetches (phase : FetchPhase s) (fetches : (s.tasks i).fetches = true) :
    s.errorCodes = none ∧ s.errorTableFetching = true ∧ ∀ j, j ≠ i → (s.tasks j).isTableFetch = false := by
  have mine := CloudPc.isTableFetch_of_fetches fetches
  cases phase with
  | unasked codes flag others => cases (others i).symm.trans mine
  | flying k _ codes flag others =>
    have own : i = k := by
      by_contra other
      cases (others i other).symm.trans mine
    subst own
    exact ⟨codes, flag, others⟩
  | landed k table fetched codes flag others =>
    cases (others i (ne_of_over fetches fetched)).symm.trans mine

variable [EmptyCollection Table]

/-- What a step is for the fetch. -/
inductive FetchMove (s : CloudSession Table) (e : CloudEvent Table) (t : CloudSession Table) : Prop
  | same (same : t = s)
  /-- Another task has a turn. -/
  | other (i : ℕ) (pc : CloudPc) (moved : Quiet s i pc t) (before : (s.tasks i).isTableFetch = false)
    (after : pc.isTableFetch = false)
  | created (i : ℕ) (missing : s.errorCodes = none) (free : s.errorTableFetching = false)
    (made : t = { s with errorTableFetching := true }.setTask i .fetchCreated)
  | goesOn (i : ℕ) (pc : CloudPc) (moved : Quiet s i pc t) (before : (s.tasks i).fetches = true)
    (after : pc.fetches = true)
  | landed (i : ℕ) (table : Table) (before : (s.tasks i).fetches = true) (made : t = s.tableDone i table)
    (brought : table = ∅ ∨ e = .fetched i (some table))

theorem FetchPhase.step (phase : FetchPhase s) (move : FetchMove s e t) : FetchPhase t := by
  cases move with
  | same same => exact same ▸ phase
  | other i pc moved before after =>
    cases phase with
    | unasked codes flag others =>
      exact .unasked (moved.codes.trans codes) (moved.flag.trans flag) fun j => moved.keeps after (others j)
    | flying k fetches codes flag others =>
      have apart : k ≠ i := by
        rintro rfl
        cases (CloudPc.isTableFetch_of_fetches fetches).symm.trans before
      refine .flying k ?_ (moved.codes.trans codes) (moved.flag.trans flag) fun j other =>
        moved.keeps after (others j other)
      rw [moved.tasks_ne apart]
      exact fetches
    | landed k table fetched codes flag others =>
      have apart : k ≠ i := by
        rintro rfl
        rw [fetched] at before
        cases before
      refine .landed k table ?_ (moved.codes.trans codes) (moved.flag.trans flag) fun j other =>
        moved.keeps after (others j other)
      rw [moved.tasks_ne apart]
      exact fetched
  | created i missing free made =>
    subst made
    cases phase with
    | unasked codes flag others =>
      refine .flying i ?_ codes rfl fun j other => ?_
      · rw [setTask_tasks, Function.update_self]
        rfl
      · rw [setTask_tasks, Function.update_of_ne other]
        exact others j
    | flying k fetches codes flag others => cases free.symm.trans flag
    | landed k table fetched codes flag others => cases missing.symm.trans codes
  | goesOn i pc moved before after =>
    obtain ⟨codes, flag, others⟩ := phase.of_fetches before
    refine .flying i ?_ (moved.codes.trans codes) (moved.flag.trans flag) fun j other => ?_
    · rw [moved.tasks_self]
      exact after
    · rw [moved.tasks_ne other]
      exact others j other
  | landed i table before made =>
    obtain ⟨_, _, others⟩ := phase.of_fetches before
    subst made
    refine .landed i table (Function.update_self ..) rfl rfl fun j other => ?_
    rw [tableDone, setTask_tasks, Function.update_of_ne other]
    exact others j other

/-- A table that is there stays. -/
theorem codes_step (codes : s.errorCodes = some table) (phase : FetchPhase s) (move : FetchMove s e t) :
    t.errorCodes = some table := by
  cases move with
  | same same => exact same ▸ codes
  | other i pc moved | goesOn i pc moved => exact moved.codes.trans codes
  | created i missing => cases missing.symm.trans codes
  | landed i _ before => cases (phase.of_fetches before).1.symm.trans codes

/-- A request's task does not fetch, before its turn and after it. -/
theorem FetchMove.of_setTask {s' : CloudSession Table} (tasks : s'.tasks = s.tasks)
    (codes : s'.errorCodes = s.errorCodes) (flag : s'.errorTableFetching = s.errorTableFetching)
    (before : (s.tasks i).isTableFetch = false) (after : pc.isTableFetch = false) :
    FetchMove s e (s'.setTask i pc) :=
  .other i pc ⟨by rw [setTask_tasks, tasks], codes, flag⟩ before after

/-- Whoever awaits `_ensure_http` on behalf of the table is the fetch. -/
def Awaits (s : CloudSession Table) (i : ℕ) (caller : EnsureCaller) : Prop :=
  (s.tasks i).fetches = true ∧ caller = .errorTable ∨ (s.tasks i).isTableFetch = false ∧ caller ≠ .errorTable

theorem withHttp_move (current : Option Account) {caller : EnsureCaller} {http : Account}
    (awaits : s.Awaits i caller) : FetchMove s e ({ s with http := current }.withHttp i caller http) := by
  obtain ⟨fetches, rfl⟩ | ⟨before, other⟩ := awaits
  · exact .goesOn i _ ⟨rfl, rfl, rfl⟩ fetches rfl
  · cases caller with
    | camera | scan => exact .of_setTask rfl rfl rfl before rfl
    | errorTable => exact absurd rfl other

theorem ensureRaised_move {caller : EnsureCaller} {how : CloudEnd} (awaits : s.Awaits i caller)
    (failed : (CloudPc.ended how).isTableFetch = false) : FetchMove s e (s.ensureRaised i caller how) := by
  obtain ⟨fetches, rfl⟩ | ⟨before, other⟩ := awaits
  · exact .landed i ∅ fetches rfl (.inl rfl)
  · cases caller with
    | camera | scan => exact .of_setTask rfl rfl rfl before failed
    | errorTable => exact absurd rfl other

theorem ensureHttp_move {caller : EnsureCaller} (awaits : s.Awaits i caller) :
    FetchMove s e (s.ensureHttp i caller) := by
  rw [ensureHttp]
  split
  · exact withHttp_move s.http awaits
  · split
    · exact ensureRaised_move awaits rfl
    · obtain ⟨fetches, rfl⟩ | ⟨before, other⟩ := awaits
      · exact .goesOn i _ (quiet_setTask ..) fetches rfl
      · cases caller with
        | camera | scan => exact .of_setTask rfl rfl rfl before rfl
        | errorTable => exact absurd rfl other

theorem fetchMove_of_step (stepped : s.step e = some t) : FetchMove s e t := by
  cases e with
  | login i email password =>
    obtain ⟨pc, rfl⟩ := step_login.mp stepped
    rw [login]
    split_ifs <;> exact .of_setTask rfl rfl rfl (by rw [pc]; rfl) rfl
  | loginAnswered i a ok =>
    obtain ⟨pc, rfl⟩ := step_loginAnswered.mp stepped
    rw [loginAnswered]
    split_ifs <;> exact .of_setTask rfl rfl rfl (by rw [pc]; rfl) rfl
  | scan i =>
    obtain ⟨pc, rfl⟩ := step_scan.mp stepped
    exact ensureHttp_move (.inr ⟨by rw [pc]; rfl, nofun⟩)
  | camera i =>
    obtain ⟨pc, rfl⟩ := step_camera.mp stepped
    exact ensureHttp_move (.inr ⟨by rw [pc]; rfl, nofun⟩)
  | ensured i ok =>
    obtain ⟨a, caller, pc, rfl⟩ := step_ensured.mp stepped
    have awaits : s.Awaits i caller := by
      cases caller with
      | camera | scan => exact .inr ⟨by rw [pc]; rfl, nofun⟩
      | errorTable => exact .inl ⟨by rw [pc]; rfl, rfl⟩
    split_ifs
    · exact withHttp_move (some a) awaits
    · exact ensureRaised_move awaits rfl
  | confirmed i =>
    obtain ⟨h, pc, rfl⟩ := step_confirmed.mp stepped
    rw [openGateway]
    split <;> exact .of_setTask rfl rfl rfl (by rw [pc]; rfl) rfl
  | handshaken i ok =>
    obtain ⟨h, pc, rfl⟩ := step_handshaken.mp stepped
    rw [handshaken]
    split_ifs <;> exact .of_setTask rfl rfl rfl (by rw [pc]; rfl) rfl
  | gatewayListed i answer =>
    obtain ⟨h, g, pc, rfl⟩ := step_gatewayListed.mp stepped
    cases answer <;> exact .of_setTask rfl rfl rfl (by rw [pc]; rfl) rfl
  | elsewhereListed i =>
    obtain ⟨h, pc, rfl⟩ := step_elsewhereListed.mp stepped
    exact .of_setTask rfl rfl rfl (by rw [pc]; rfl) rfl
  | save i email password written =>
    obtain ⟨pc, rfl⟩ := step_save.mp stepped
    refine .of_setTask rfl rfl rfl (by rw [pc]; rfl) ?_
    split_ifs <;> rfl
  | applied i ok =>
    obtain ⟨pc, rfl⟩ := step_applied.mp stepped
    rw [applied]
    split_ifs <;> exact .of_setTask rfl rfl rfl (by rw [pc]; rfl) rfl
  | status i =>
    obtain ⟨pc, rfl⟩ := step_status.mp stepped
    rw [status]
    split_ifs with asked
    · exact .same rfl
    · rw [not_or, Option.not_isSome_iff_eq_none, Bool.not_eq_true] at asked
      exact .created i asked.1 asked.2 rfl
  | fetchStarted i =>
    obtain ⟨pc, rfl⟩ := step_fetchStarted.mp stepped
    exact ensureHttp_move (.inl ⟨by rw [pc]; rfl, rfl⟩)
  | fetched i answer =>
    obtain ⟨h, pc, rfl⟩ := step_fetched.mp stepped
    refine .landed i _ (by rw [pc]; rfl) rfl ?_
    cases answer with
    | some table => exact .inr rfl
    | none => exact .inl rfl
  | cancelled i =>
    obtain ⟨live, rfl⟩ := step_cancelled.mp stepped
    refine .of_setTask rfl rfl rfl ?_ rfl
    cases pc : s.tasks i with
    | absent | ended => rw [pc] at live; cases live
    | loggingIn | confirming | handshaking | listing | listingElsewhere | applying => rfl
    | fetchCreated | fetching => rw [pc] at live; cases live
    | ensuring a caller =>
      rw [pc] at live
      cases caller with
      | camera | scan => rfl
      | errorTable => cases live

/-- The fetch, and the table it has brought. -/
structure FetchInv (es : List (CloudEvent Table)) (s : CloudSession Table) : Prop where
  phase : FetchPhase s
  brought : ∀ table, s.errorCodes = some table → table = ∅ ∨ ∃ i, .fetched i (some table) ∈ es

theorem FetchInv.step (inv : FetchInv es s) (stepped : s.step e = some t) : FetchInv (es ++ [e]) t := by
  have move := fetchMove_of_step stepped
  refine ⟨inv.phase.step move, fun table codes => ?_⟩
  have kept (before : s.errorCodes = some table) : table = ∅ ∨ ∃ i, .fetched i (some table) ∈ es ++ [e] := by
    refine (inv.brought table before).imp_right fun ⟨i, fetched⟩ => ⟨i, List.mem_append_left _ fetched⟩
  cases move with
  | same same => exact kept (same ▸ codes)
  | other i pc moved | goesOn i pc moved => exact kept (moved.codes.symm.trans codes)
  | created i missing free made =>
    subst made
    exact kept codes
  | landed i table' before made brought =>
    subst made
    cases codes
    exact brought.imp_right fun last => ⟨i, by rw [last]; exact List.mem_concat_self⟩

/-- **The error table is fetched once.** In whatever order requests and answers come: at most one task of the run is
the fetch; the flag is set exactly while it is under way, and the table is there exactly when it is over. The table is
the one that the cloud answered or the empty one, and does not change. -/
theorem error_table_once (secrets : Option Account) (es : List (CloudEvent Table)) :
    Throughout step (fun es s =>
      (∀ i j, (s.tasks i).isTableFetch → (s.tasks j).isTableFetch → i = j) ∧
      (s.errorTableFetching ↔ ∃ i, (s.tasks i).fetches) ∧
      (s.errorCodes.isSome ↔ ∃ i, s.tasks i = .ended .tableFetched) ∧
      ∀ table, s.errorCodes = some table → (table = ∅ ∨ ∃ i, .fetched i (some table) ∈ es) ∧
        ∀ later t, run step s later = some t → t.errorTable = table) (init secrets) es := by
  intro pre _ s reached
  have inv : FetchInv pre s := by
    refine run_invariant (I := FetchInv) ⟨.unasked rfl rfl fun _ => rfl, nofun⟩ ?_ reached
    exact fun es t e u inv stepped => inv.step stepped
  refine ⟨fun i j mine yours => ?_, ?_, ?_, fun table codes => ⟨inv.brought table codes, fun later t ran => ?_⟩⟩
  · cases inv.phase with
    | unasked codes flag others => cases (others i).symm.trans mine
    | flying k _ codes flag others | landed k _ _ codes flag others =>
      have own {j : ℕ} (mine : (s.tasks j).isTableFetch = true) : j = k := by
        by_contra other
        cases (others j other).symm.trans mine
      rw [own mine, own yours]
  · constructor
    · intro flag
      cases inv.phase with
      | unasked _ free | landed _ _ _ _ free => cases free.symm.trans flag
      | flying k fetches => exact ⟨k, fetches⟩
    · rintro ⟨i, fetches⟩
      exact (inv.phase.of_fetches fetches).2.1
  · constructor
    · intro there
      cases inv.phase with
      | unasked missing | flying _ _ missing =>
        rw [missing] at there
        cases there
      | landed k _ fetched => exact ⟨k, fetched⟩
    · rintro ⟨i, fetched⟩
      have mine : (s.tasks i).isTableFetch = true := by rw [fetched]; rfl
      cases inv.phase with
      | unasked _ _ others => cases (others i).symm.trans mine
      | flying k fetches _ _ others =>
        cases (others i (ne_of_over fetches fetched).symm).symm.trans mine
      | landed _ _ _ codes => rw [codes]; rfl
  · have stays : t.errorCodes = some table ∧ FetchPhase t := by
      refine run_invariant (I := fun _ t => t.errorCodes = some table ∧ FetchPhase t) ⟨codes, inv.phase⟩ ?_ ran
      intro es u e v held stepped
      have move := fetchMove_of_step stepped
      exact ⟨codes_step held.1 held.2 move, held.2.step move⟩
    rw [errorTable, stays.1, Option.getD_some]

end CloudSession

end MammotionRc.Server
