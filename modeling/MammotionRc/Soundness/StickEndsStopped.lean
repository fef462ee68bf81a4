import MammotionRc.Web.JoystickHandler

/-! # The joystick handler ends with a stop

The handler hands over its final stop once its sender has finished, so that nothing can follow it. The sender is
cancelled wherever it is suspended, and each message that cannot be decoded ends the receive loop like a disconnect.
-/

namespace MammotionRc.Web

open Machine Server

/-- The handler has come to its final stop. -/
def Ending (tasks : JoystickWs) : Prop := tasks.handler = .stopping ∨ tasks.handler = .returned

/-- Behind the final stop only its completion is left. -/
theorem step_of_ending {a b : JoystickWs} {e : JoystickEvent} (ending : Ending a) (finished : a.sender = .finished)
    (stepped : a.step e = some b) : (∃ ok, e = .finalStop ok) ∧ b.handler = .returned ∧ b.sender = .finished := by
  obtain ⟨mailbox, counted, stopped, sender, handler⟩ := a
  cases finished
  rcases ending with rfl | rfl
  · cases e with
    | finalStop ok =>
      cases stepped
      exact ⟨⟨ok, rfl⟩, rfl, rfl⟩
    | _ => cases stepped
  · cases e <;> cases stepped

theorem dispatch_handler (a : JoystickWs) (cmd : Option StickCommand) (speeds : Speeds) :
    (a.dispatch cmd speeds).handler = a.handler := by
  unfold JoystickWs.dispatch
  split
  · rfl
  · split_ifs <;> rfl
  · split <;> rfl

/-- The handler comes to its final stop by joining its sender. -/
theorem joined_of_ending {a b : JoystickWs} {e : JoystickEvent} (before : ¬ Ending a) (stepped : a.step e = some b)
    (ending : Ending b) : e = .joined ∧ b.sender = .finished := by
  -- a step of the sender leaves the handler where it is
  have elsewhere (same : b.handler = a.handler) : e = .joined ∧ b.sender = .finished := by
    refine absurd ?_ before
    rw [Ending, ← same]
    exact ending
  cases e with
  | take cmd speeds =>
    obtain ⟨_, _, _, rfl⟩ := JoystickWs.step_take.mp stepped
    exact elsewhere (dispatch_handler _ cmd speeds)
  | sent command =>
    obtain ⟨cmd, _, rfl⟩ := JoystickWs.step_sent.mp stepped
    apply elsewhere
    cases cmd with
    | stop => rfl
    | axes x y => rfl
  | sendFailed command =>
    obtain ⟨cmd, _, rfl⟩ := JoystickWs.step_sendFailed.mp stepped
    exact elsewhere rfl
  | backoffOver =>
    obtain ⟨cmd, _, rfl⟩ := JoystickWs.step_backoffOver.mp stepped
    exact elsewhere rfl
  | joined =>
    obtain ⟨_, finished, rfl⟩ := JoystickWs.step_joined.mp stepped
    exact ⟨rfl, finished⟩
  | leave =>
    obtain ⟨_, rfl⟩ := JoystickWs.step_leave.mp stepped
    rcases ending with is | is
    · cases is
    · cases is
  | finalStop ok =>
    obtain ⟨stopping, rfl⟩ := JoystickWs.step_finalStop.mp stepped
    exact absurd (.inl stopping) before
  | frame frame =>
    obtain ⟨_, rfl⟩ := JoystickWs.step_frame.mp stepped
    exact elsewhere rfl
  | start =>
    obtain ⟨_, rfl⟩ := JoystickWs.step_start.mp stepped
    exact elsewhere rfl
  | cancelled =>
    obtain ⟨_, rfl⟩ := JoystickWs.step_cancelled.mp stepped
    exact elsewhere rfl

namespace JoystickHandler

variable {s t : JoystickHandler} {es : List HandlerEvent} {e : HandlerEvent}

/-- What holds from the final stop on. -/
structure Stopped (s : JoystickHandler) : Prop where
  last : s.calls.getLast? = some .stopAndNotSaveTask
  finished : s.tasks.sender = .finished
  removed : s.ws ∉ s.websockets

/-- What a step does to the tasks, the calls and the socket. -/
inductive Change (s t : JoystickHandler) : Prop
  | tasks (e : JoystickEvent) (stepped : s.tasks.step e = some t.tasks) (ne : e ≠ .joined)
      (websockets : t.websockets = s.websockets) (calls : t.calls = s.calls ++ (handed s.tasks e).toList)
  | joined (stepped : s.tasks.step .joined = some t.tasks) (removed : t.ws ∉ t.websockets)
      (calls : t.calls = s.calls ++ [.stopAndNotSaveTask])
  | others (tasks : t.tasks = s.tasks) (calls : t.calls = s.calls)
      (own : t.ws ∈ t.websockets ↔ s.ws ∈ s.websockets)

theorem change_of_step (stepped : s.step e = some t) : t.ws = s.ws ∧ Change s t := by
  cases e with
  | receive message =>
    simp only [step] at stepped
    split at stepped
    · obtain ⟨tasks, ran, rfl⟩ := Option.map_eq_some_iff.mp stepped
      refine ⟨rfl, .tasks _ ran ?_ rfl (List.append_nil _).symm⟩
      rintro ⟨⟩
    · obtain ⟨tasks, ran, rfl⟩ := Option.map_eq_some_iff.mp stepped
      refine ⟨rfl, .tasks _ ran ?_ rfl (List.append_nil _).symm⟩
      rintro ⟨⟩
  | task e =>
    simp only [step] at stepped
    split at stepped <;> try contradiction
    · obtain ⟨tasks, ran, rfl⟩ := Option.map_eq_some_iff.mp stepped
      exact ⟨rfl, .joined ran (Finset.notMem_erase _ _) rfl⟩
    · next ne =>
      obtain ⟨tasks, ran, rfl⟩ := Option.map_eq_some_iff.mp stepped
      exact ⟨rfl, .tasks e ran ne rfl rfl⟩
  | added other =>
    simp only [step] at stepped
    split_ifs at stepped with own
    cases stepped
    refine ⟨rfl, .others rfl rfl ?_⟩
    rw [Finset.mem_insert, or_iff_right (Ne.symm own)]
  | discarded other =>
    simp only [step] at stepped
    split_ifs at stepped with own
    cases stepped
    refine ⟨rfl, .others rfl rfl ?_⟩
    rw [Finset.mem_erase, and_iff_right (Ne.symm own)]

/-- Once the handler is ending, no call follows. -/
theorem Stopped.step (ending : Ending s.tasks) (stopped : s.Stopped) (stepped : s.step e = some t) :
    Ending t.tasks ∧ t.Stopped ∧ t.calls = s.calls := by
  obtain ⟨ws, change⟩ := change_of_step stepped
  cases change with
  | tasks e ran ne websockets calls =>
    obtain ⟨⟨ok, rfl⟩, returned, finished⟩ := step_of_ending ending stopped.finished ran
    have same : t.calls = s.calls := by
      rw [calls, show handed s.tasks (.finalStop ok) = none from rfl, Option.toList_none, List.append_nil]
    refine ⟨.inr returned, ⟨?_, finished, ?_⟩, same⟩
    · rw [same]
      exact stopped.last
    · rw [websockets, ws]
      exact stopped.removed
  | joined ran removed calls =>
    obtain ⟨⟨ok, is⟩, _⟩ := step_of_ending ending stopped.finished ran
    cases is
  | others tasks calls own =>
    rw [tasks]
    refine ⟨ending, ⟨?_, ?_, fun registered => stopped.removed (own.mp registered)⟩, calls⟩
    · rw [calls]
      exact stopped.last
    · rw [tasks]
      exact stopped.finished

theorem stopped_of_run {ws : ℕ} {websockets : Finset ℕ} {counted : Bool}
    (ran : run step (opened ws websockets counted) es = some s) (ending : Ending s.tasks) : s.Stopped := by
  revert ending
  refine run_invariant (I := fun _ s => Ending s.tasks → s.Stopped) ?_ ?_ ran
  · rintro (is | is)
    · cases is
    · cases is
  · intro _ s e t held stepped ending
    by_cases before : Ending s.tasks
    · exact (Stopped.step before (held before) stepped).2.1
    · obtain ⟨ws, change⟩ := change_of_step stepped
      cases change with
      | tasks e ran ne => exact absurd (joined_of_ending before ran ending).1 ne
      | joined ran removed calls =>
        refine ⟨?_, (joined_of_ending before ran ending).2, removed⟩
        rw [calls, List.getLast?_concat]
      | others tasks =>
        rw [tasks] at ending
        exact absurd ending before

theorem calls_of_stopped {later : List HandlerEvent} (ending : Ending s.tasks) (stopped : s.Stopped)
    (ran : run step s later = some t) : t.calls = s.calls := by
  have held := run_invariant (I := fun _ u => Ending u.tasks ∧ u.Stopped ∧ u.calls = s.calls) ⟨ending, stopped, rfl⟩
    (fun _ _ _ _ held stepped => by
      obtain ⟨ending, stopped, same⟩ := Stopped.step held.1 held.2.1 stepped
      exact ⟨ending, stopped, same.trans held.2.2⟩) ran
  exact held.2.2

/-- Whatever ends the receive loop, the cancelled sender can be joined, and behind the final stop there is no call, no
sender and no registered socket. -/
theorem ends_stopped {ws : ℕ} {websockets : Finset ℕ} {counted : Bool}
    (ran : run step (opened ws websockets counted) es = some s) :
    (s.tasks.handler = .receiving → ∀ message error, message.decode = .error error →
      ∃ t, s.step (.receive message) = some t ∧ t.tasks.handler = .joining) ∧
    (s.tasks.handler = .joining → ∃ t, run step s [.task .cancelled, .task .joined] = some t ∧ Ending t.tasks) ∧
    (Ending s.tasks → s.calls.getLast? = some .stopAndNotSaveTask ∧ s.tasks.sender = .finished ∧
      s.ws ∉ s.websockets ∧ ∀ later t, run step s later = some t → t.calls = s.calls) := by
  obtain ⟨⟨mailbox, counted, stopped, sender, handler⟩, ws, websockets, calls⟩ := s
  refine ⟨?_, ?_, fun ending => ?_⟩
  · rintro rfl message error fails
    exact ⟨_, by simp only [step, fails]; rfl, rfl⟩
  · rintro rfl
    exact ⟨_, rfl, .inl rfl⟩
  · obtain ⟨last, finished, removed⟩ := stopped_of_run ran ending
    exact ⟨last, finished, removed, fun later t goesOn => calls_of_stopped ending ⟨last, finished, removed⟩ goesOn⟩

/-- A frame that is not a number ends the loop while a movement is being sent. -/
def cutShort : List HandlerEvent :=
  [.task .start, .receive (.dict (some (.float (.fin 1))) none (some (.float (.fin 1)))),
    .task (.take (some (.axes (.fin 1) (.fin 0))) (.vector 0 40)), .receive (.dict (some .none) none none),
    .task .cancelled, .task .joined]

theorem cutShort_stopped : ∃ s, run step (opened 7 {3} true) cutShort = some s ∧
    s.calls = [.sendMovement 0 40, .stopAndNotSaveTask] ∧ s.ws ∉ s.websockets ∧
    ∀ later t, run step s later = some t → t.calls = s.calls := by
  have after : (run step (opened 7 {3} true) cutShort).map (fun s => (s.calls, s.tasks.handler)) =
      some ([.sendMovement 0 40, .stopAndNotSaveTask], .stopping) := by decide +kernel
  obtain ⟨s, ran, after⟩ := Option.map_eq_some_iff.mp after
  obtain ⟨calls, stopping⟩ := Prod.mk.inj after
  obtain ⟨_, _, removed, final⟩ := (ends_stopped ran).2.2 (.inl stopping)
  exact ⟨s, ran, calls, removed, final⟩

end JoystickHandler

end MammotionRc.Web
