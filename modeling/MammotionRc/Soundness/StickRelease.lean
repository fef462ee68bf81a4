import MammotionRc.Soundness.JoystickMailbox

/-! # When a stick release is honoured

`_sender` empties the mailbox before it sends, so a release whose stop raises is gone once the back-off
is over, unless a newer frame arrived meanwhile. `stopped` is exactly the absence of a movement since
the last successful stop, so this back-off is the only way in which a release gets lost: a run honours
every release if and only if it never leaves such a back-off with an empty mailbox.
-/

namespace MammotionRc.Server

open Machine

/-- The commands that `h.send_raw` completed without error, in order. -/
def completedCommands (es : List JoystickEvent) : List Command :=
  es.filterMap fun
    | .sent command => some command
    | .finalStop true => some .stopAndNotSaveTask
    | _ => none

/-- One event's effect on "a movement was issued since the last successful stop". -/
def movedAfter (moved : Bool) : JoystickEvent → Bool
  | .take (some (.axes _ _)) (.vector _ _) => true
  | .sent .stopAndNotSaveTask => false
  | .finalStop true => false
  | _ => moved

/-- A movement command has been handed to `h.send_raw` since the last successful stop. -/
def movedSinceStop (es : List JoystickEvent) : Bool := es.foldl movedAfter false

theorem completedCommands_concat (es : List JoystickEvent) (e : JoystickEvent) :
    completedCommands (es ++ [e]) = completedCommands es ++ completedCommands [e] :=
  List.filterMap_append

theorem movedSinceStop_concat (es : List JoystickEvent) (e : JoystickEvent) :
    movedSinceStop (es ++ [e]) = movedAfter (movedSinceStop es) e := by
  simp only [movedSinceStop, List.foldl_append, List.foldl_cons, List.foldl_nil]

/-- The last completed command is the stop, or nothing has moved since the last successful one. -/
def Honoured (es : List JoystickEvent) : Prop :=
  (completedCommands es).getLast? = some .stopAndNotSaveTask ∨ movedSinceStop es = false

/-- `_sender` waits on an empty mailbox after a release was received last. -/
def Released (es : List JoystickEvent) (s : JoystickWs) : Prop :=
  s.sender = .waiting ∧ s.mailbox.pending = none ∧ (decoded es).getLast? = some .stop

/-- A released stick stops the mower. -/
def ReleaseKept (es : List JoystickEvent) (s : JoystickWs) : Prop := Released es s → Honoured es

/-- The sender does not leave the back-off after a failed stop with an empty mailbox, unless the last
command that completed is itself a stop. -/
def NoReleaseDropped (es : List JoystickEvent) (s : JoystickWs) (e : JoystickEvent) : Prop :=
  e = .backoffOver → s.sender = .backoff .stop → s.mailbox.pending = none →
    (completedCommands es).getLast? = some .stopAndNotSaveTask

/-- What the position of `_sender` says about the command it is working on. -/
def SenderPhase (es : List JoystickEvent) (s : JoystickWs) : Prop :=
  match s.sender with
  | .created => taken es = [] ∧ s.stopped = true
  | .sending .stop command =>
    (taken es).getLast? = some .stop ∧ command = .stopAndNotSaveTask ∧ s.stopped = false
  | .sending (.axes x y) command =>
    (taken es).getLast? = some (.axes x y) ∧ command ≠ .stopAndNotSaveTask
  | .backoff cmd => (taken es).getLast? = some cmd ∧ (cmd = .stop → s.stopped = false)
  | .waiting | .finished => True

/-- While `_sender` lives, `stopped` is the absence of a movement since the last successful stop. -/
structure SenderInvariant (es : List JoystickEvent) (s : JoystickWs) : Prop where
  tracks : s.mailbox.Tracks (decoded es) (taken es)
  alive : s.sender ≠ .finished → s.handler = .receiving ∨ s.handler = .joining
  stopped : s.sender ≠ .finished → s.stopped = !movedSinceStop es
  phase : SenderPhase es s

/-- An event that is neither a take nor the end of a send moves no list of the history. -/
private theorem SenderPhase.of_quiet {es : List JoystickEvent} {s t : JoystickWs} {e : JoystickEvent}
    (phase : SenderPhase es s) (quiet : taken [e] = []) (sender : t.sender = s.sender)
    (stopped : t.stopped = s.stopped) : SenderPhase (es ++ [e]) t := by
  simp only [SenderPhase, taken_concat, quiet, List.append_nil, sender, stopped]
  exact phase

private theorem taken_last (es : List JoystickEvent) (cmd : StickCommand) (speeds : Speeds) :
    (taken (es ++ [JoystickEvent.take (some cmd) speeds])).getLast? = some cmd := by
  rw [taken_concat, show taken [.take (some cmd) speeds] = [cmd] from rfl, List.getLast?_concat]

theorem SenderInvariant.step {es : List JoystickEvent} {s t : JoystickWs} {e : JoystickEvent}
    (inv : SenderInvariant es s) (stepped : s.step e = some t) : SenderInvariant (es ++ [e]) t := by
  have tracks := (tracks_step inv.tracks stepped).1
  have flag := inv.tracks.flag
  obtain ⟨_, alive, stopped, phase⟩ := inv
  have moved := movedSinceStop_concat es e
  cases e with
  | frame frame =>
    obtain ⟨_, rfl⟩ := JoystickWs.step_frame.mp stepped
    refine ⟨tracks, alive, ?_, phase.of_quiet rfl rfl rfl⟩
    rw [moved]
    exact stopped
  | leave =>
    obtain ⟨_, rfl⟩ := JoystickWs.step_leave.mp stepped
    refine ⟨tracks, fun _ => .inr rfl, ?_, phase.of_quiet rfl rfl rfl⟩
    rw [moved]
    exact stopped
  | start =>
    obtain ⟨created, rfl⟩ := JoystickWs.step_start.mp stepped
    have live : s.sender ≠ .finished := by rw [created]; rintro ⟨⟩
    simp only [SenderPhase, created] at phase
    refine ⟨tracks, fun _ => alive live, fun _ => ?_, trivial⟩
    rw [moved]
    exact phase.2.symm.trans (stopped live)
  | take cmd speeds =>
    obtain ⟨waiting, up, pending, rfl⟩ := JoystickWs.step_take.mp stepped
    have live : s.sender ≠ .finished := by rw [waiting]; rintro ⟨⟩
    specialize alive live
    specialize stopped live
    cases cmd with
    | none =>
      rw [flag, pending] at up
      cases up
    | some cmd =>
      have last := taken_last es cmd speeds
      cases cmd with
      | stop =>
        simp only [JoystickWs.dispatch] at tracks ⊢
        split_ifs at tracks ⊢ with already
        · refine ⟨tracks, fun _ => alive, fun _ => moved ▸ stopped, ?_⟩
          simp only [SenderPhase, waiting]
        · exact ⟨tracks, fun _ => alive, fun _ => moved ▸ stopped,
            last, rfl, Bool.eq_false_of_not_eq_true already⟩
      | axes x y =>
        cases speeds with
        | raised =>
          exact ⟨tracks, fun _ => alive, fun _ => moved ▸ stopped, last, by rintro ⟨⟩⟩
        | declined =>
          refine ⟨tracks, fun _ => alive, fun _ => moved ▸ stopped, ?_⟩
          simp only [SenderPhase, JoystickWs.dispatch, waiting]
        | vector linear angular =>
          refine ⟨tracks, fun _ => alive, fun _ => ?_, last, by rintro ⟨⟩⟩
          rw [moved]
          rfl
  | sent command =>
    obtain ⟨cmd, sending, rfl⟩ := JoystickWs.step_sent.mp stepped
    have live : s.sender ≠ .finished := by rw [sending]; rintro ⟨⟩
    cases cmd with
    | stop =>
      simp only [SenderPhase, sending] at phase
      obtain ⟨_, rfl, _⟩ := phase
      refine ⟨tracks, fun _ => alive live, fun _ => ?_, trivial⟩
      rw [moved]
      rfl
    | axes x y =>
      simp only [SenderPhase, sending] at phase
      obtain ⟨_, other⟩ := phase
      refine ⟨tracks, fun _ => alive live, fun _ => ?_, trivial⟩
      rw [moved]
      cases command with
      | stopAndNotSaveTask => exact absurd rfl other
      | sendMovement linear angular => exact stopped live
  | sendFailed command =>
    obtain ⟨cmd, sending, rfl⟩ := JoystickWs.step_sendFailed.mp stepped
    have live : s.sender ≠ .finished := by rw [sending]; rintro ⟨⟩
    refine ⟨tracks, fun _ => alive live, fun _ => moved ▸ stopped live, ?_⟩
    simp only [SenderPhase, sending] at phase
    simp only [SenderPhase, taken_concat, show taken [.sendFailed command] = [] from rfl,
      List.append_nil]
    cases cmd with
    | stop => exact ⟨phase.1, fun _ => phase.2.2⟩
    | axes x y => exact ⟨phase.1, by rintro ⟨⟩⟩
  | backoffOver =>
    obtain ⟨cmd, backoff, rfl⟩ := JoystickWs.step_backoffOver.mp stepped
    have live : s.sender ≠ .finished := by rw [backoff]; rintro ⟨⟩
    exact ⟨tracks, fun _ => alive live, fun _ => moved ▸ stopped live, trivial⟩
  | cancelled =>
    obtain ⟨_, rfl⟩ := JoystickWs.step_cancelled.mp stepped
    exact ⟨tracks, fun live => absurd rfl live, fun live => absurd rfl live, trivial⟩
  | joined =>
    obtain ⟨_, finished, rfl⟩ := JoystickWs.step_joined.mp stepped
    refine ⟨tracks, fun live => absurd finished live, fun live => absurd finished live, ?_⟩
    simp only [SenderPhase, finished]
  | finalStop ok =>
    obtain ⟨stopping, rfl⟩ := JoystickWs.step_finalStop.mp stepped
    have finished : s.sender = .finished := by
      by_contra live
      rcases alive live with at_ | at_ <;> rw [stopping] at at_ <;> cases at_
    refine ⟨tracks, fun live => absurd finished live, fun live => absurd finished live, ?_⟩
    simp only [SenderPhase, finished]

theorem senderInvariant_opened (counted : Bool) : SenderInvariant [] (.opened counted) :=
  ⟨LatestSlot.tracks_empty, fun _ => .inl rfl, fun _ => rfl, rfl, rfl⟩

theorem senderInvariant_of_run {counted : Bool} {es : List JoystickEvent} {s : JoystickWs}
    (ran : run JoystickWs.step (.opened counted) es = some s) : SenderInvariant es s :=
  run_invariant (senderInvariant_opened counted) (fun _ _ _ _ inv stepped => inv.step stepped) ran

/-- `_sender` waits on an empty mailbox after a release was taken last. -/
def Settled (es : List JoystickEvent) (s : JoystickWs) : Prop :=
  s.sender = .waiting → s.mailbox.pending = none → (taken es).getLast? = some .stop → Honoured es

private theorem Settled.of_quiet {es : List JoystickEvent} {s t : JoystickWs} {e : JoystickEvent}
    (settled : Settled es s) (quiet : taken [e] = [] ∧ completedCommands [e] = [])
    (same : movedAfter (movedSinceStop es) e = movedSinceStop es)
    (sender : t.sender = s.sender) (pending : t.mailbox.pending = s.mailbox.pending) :
    Settled (es ++ [e]) t := by
  simp only [Settled, Honoured, sender, pending, taken_concat, completedCommands_concat,
    movedSinceStop_concat, quiet.1, quiet.2, List.append_nil, same]
  exact settled

theorem Settled.step {es : List JoystickEvent} {s t : JoystickWs} {e : JoystickEvent}
    (inv : SenderInvariant es s) (settled : Settled es s) (kept : NoReleaseDropped es s e)
    (stepped : s.step e = some t) : Settled (es ++ [e]) t := by
  obtain ⟨tracks, alive, stopped, phase⟩ := inv
  cases e with
  | frame frame =>
    obtain ⟨_, rfl⟩ := JoystickWs.step_frame.mp stepped
    intro _ vacant
    cases vacant
  | leave =>
    obtain ⟨_, rfl⟩ := JoystickWs.step_leave.mp stepped
    exact settled.of_quiet ⟨rfl, rfl⟩ rfl rfl rfl
  | start =>
    obtain ⟨created, rfl⟩ := JoystickWs.step_start.mp stepped
    simp only [SenderPhase, created] at phase
    intro _ _ last
    rw [taken_concat, phase.1] at last
    cases last
  | take cmd speeds =>
    obtain ⟨waiting, up, pending, rfl⟩ := JoystickWs.step_take.mp stepped
    have live : s.sender ≠ .finished := by rw [waiting]; rintro ⟨⟩
    intro back _ last
    cases cmd with
    | none =>
      rw [tracks.flag, pending] at up
      cases up
    | some cmd =>
      rw [taken_last] at last
      cases last
      simp only [JoystickWs.dispatch] at back
      split_ifs at back with already
      -- A release taken while `stopped` is set sends nothing: nothing moved since the last stop.
      have still : movedSinceStop es = false := by
        rw [stopped live] at already
        exact Bool.not_eq_true' _ ▸ already
      refine .inr ?_
      rw [movedSinceStop_concat]
      exact still
  | sent command =>
    obtain ⟨cmd, sending, rfl⟩ := JoystickWs.step_sent.mp stepped
    intro _ _ last
    rw [taken_concat, show taken [.sent command] = [] from rfl, List.append_nil] at last
    cases cmd with
    | stop =>
      simp only [SenderPhase, sending] at phase
      obtain ⟨_, rfl, _⟩ := phase
      refine .inl ?_
      rw [completedCommands_concat]
      exact List.getLast?_concat
    | axes x y =>
      simp only [SenderPhase, sending] at phase
      rw [phase.1] at last
      cases last
  | sendFailed command =>
    obtain ⟨cmd, sending, rfl⟩ := JoystickWs.step_sendFailed.mp stepped
    intro back
    cases back
  | backoffOver =>
    obtain ⟨cmd, backoff, rfl⟩ := JoystickWs.step_backoffOver.mp stepped
    simp only [SenderPhase, backoff] at phase
    intro _ vacant last
    rw [taken_concat, show taken [.backoffOver] = [] from rfl, List.append_nil, phase.1] at last
    cases last
    refine .inl ?_
    rw [completedCommands_concat, show completedCommands [.backoffOver] = [] from rfl,
      List.append_nil]
    exact kept rfl backoff vacant
  | cancelled =>
    obtain ⟨_, rfl⟩ := JoystickWs.step_cancelled.mp stepped
    intro back
    cases back
  | joined =>
    obtain ⟨_, _, rfl⟩ := JoystickWs.step_joined.mp stepped
    exact settled.of_quiet ⟨rfl, rfl⟩ rfl rfl rfl
  | finalStop ok =>
    obtain ⟨stopping, rfl⟩ := JoystickWs.step_finalStop.mp stepped
    intro back
    have live : s.sender ≠ .finished := by rw [show s.sender = .waiting from back]; rintro ⟨⟩
    rcases alive live with at_ | at_ <;> rw [stopping] at at_ <;> cases at_

/-- A run keeps every stick release if and only if no back-off after a failed stop ends on an empty
mailbox. -/
theorem release_kept_iff (counted : Bool) (es : List JoystickEvent) :
    Throughout JoystickWs.step ReleaseKept (.opened counted) es ↔
      Meets JoystickWs.step NoReleaseDropped (.opened counted) es := by
  constructor
  · intro always pre e inside s reached isOver backoff vacant
    subst isOver
    obtain ⟨tracks, alive, stopped, phase⟩ := senderInvariant_of_run reached
    have stepped : s.step .backoffOver = some { s with sender := .waiting } := by
      simp only [JoystickWs.step, backoff]
    have waiting := run_concat_iff.mpr ⟨s, reached, stepped⟩
    simp only [SenderPhase, backoff] at phase
    have last : (decoded (pre ++ [JoystickEvent.backoffOver])).getLast? = some .stop := by
      rw [← (tracks_of_run waiting).caughtUp vacant, taken_concat,
        show taken [.backoffOver] = [] from rfl, List.append_nil, phase.1]
    rcases always _ inside _ waiting ⟨rfl, vacant, last⟩ with completed | still
    · rw [completedCommands_concat, show completedCommands [.backoffOver] = [] from rfl,
        List.append_nil] at completed
      exact completed
    · have live : s.sender ≠ .finished := by rw [backoff]; rintro ⟨⟩
      have unmoved : movedSinceStop pre = false := by
        rw [movedSinceStop_concat] at still
        exact still
      have pushed := phase.2 trivial
      rw [stopped live, unmoved] at pushed
      cases pushed
  · intro meets
    have settled : Throughout JoystickWs.step (fun es s => SenderInvariant es s ∧ Settled es s)
        (.opened counted) es :=
      throughout_of_meets ⟨senderInvariant_opened counted, fun back => by cases back⟩
        (fun es s e t inv kept stepped => ⟨inv.1.step stepped, inv.2.step inv.1 kept stepped⟩) meets
    intro pre before s reached released
    obtain ⟨waiting, vacant, last⟩ := released
    obtain ⟨inv, settled⟩ := settled pre before s reached
    exact settled waiting vacant ((inv.tracks.caughtUp vacant).trans last)

/-- The stick is pushed and released, and the one send of the stop raises. -/
def lostRelease : List JoystickEvent :=
  [.start, .frame ⟨.fin 0, .fin (1 / 2), .fin 1⟩,
    .take (some (.axes (.fin 0) (.fin (1 / 2)))) (.vector 500 0),
    .sent (.sendMovement 500 0), .frame ⟨.fin 0, .fin 0, .fin 0⟩, .take (some .stop) .raised,
    .sendFailed .stopAndNotSaveTask, .backoffOver]

/-- After one failed stop the sender waits on an empty mailbox while the last command that completed
is the movement. -/
theorem lostRelease_not_kept :
    ¬ Throughout JoystickWs.step ReleaseKept (.opened true) lostRelease := by
  intro always
  obtain ⟨s, ran, waiting, vacant⟩ : ∃ s, run JoystickWs.step (.opened true) lostRelease = some s ∧
      s.sender = .waiting ∧ s.mailbox.pending = none :=
    ⟨⟨⟨none, false, 0⟩, true, false, .waiting, .receiving⟩, by decide +kernel, rfl, rfl⟩
  rcases always.last ran ⟨waiting, vacant, by decide +kernel⟩ with completed | still
  · exact absurd completed (by decide)
  · exact absurd still (by decide)

end MammotionRc.Server
