import MammotionRc.Server.Joystick

/-! # What the joystick mailbox delivers

Along any tape the mailbox tracks the frames received and the commands taken, because the receive loop
only puts and `_sender` only takes. Newest-wins, the account of dropped frames and the absence of a
lost wake-up are the laws of the slot read at those two lists.
-/

namespace MammotionRc.Server

open Machine

/-- The frames that the receive loop stored, in order. -/
def received (es : List JoystickEvent) : List Frame :=
  es.filterMap fun
    | .frame frame => some frame
    | _ => none

/-- The commands that `_sender` took out of the mailbox, in order. -/
def taken (es : List JoystickEvent) : List StickCommand :=
  es.filterMap fun
    | .take (some cmd) _ => some cmd
    | _ => none

/-- What the received frames put into the mailbox. -/
def decoded (es : List JoystickEvent) : List StickCommand := (received es).map Frame.command

namespace JoystickWs

theorem dispatch_mailbox (s : JoystickWs) (cmd : Option StickCommand) (speeds : Speeds) :
    (s.dispatch cmd speeds).mailbox = s.mailbox ∧ (s.dispatch cmd speeds).counted = s.counted := by
  simp only [dispatch]
  split
  · exact ⟨rfl, rfl⟩
  · split <;> exact ⟨rfl, rfl⟩
  · split <;> exact ⟨rfl, rfl⟩

theorem completed_mailbox (s : JoystickWs) (cmd : StickCommand) :
    (s.completed cmd).mailbox = s.mailbox ∧ (s.completed cmd).counted = s.counted := by
  cases cmd <;> exact ⟨rfl, rfl⟩

/-- The mailbox only changes by a put of the receive loop and a take of `_sender`. -/
theorem step_mailbox {s t : JoystickWs} {e : JoystickEvent} (stepped : s.step e = some t) :
    t.counted = s.counted ∧
      match e with
      | .frame frame => t.mailbox = s.mailbox.put s.counted frame.command
      | .take cmd _ =>
        s.sender = .waiting ∧ s.mailbox.flag = true ∧ s.mailbox.pending = cmd ∧
          t.mailbox = s.mailbox.take
      | _ => t.mailbox = s.mailbox := by
  cases e with
  | frame frame =>
    obtain ⟨_, rfl⟩ := step_frame.mp stepped
    exact ⟨rfl, rfl⟩
  | take cmd speeds =>
    obtain ⟨position, flag, pending, rfl⟩ := step_take.mp stepped
    obtain ⟨mailbox, counted⟩ := dispatch_mailbox { s with mailbox := s.mailbox.take } cmd speeds
    exact ⟨counted, position, flag, pending, mailbox⟩
  | sent command =>
    obtain ⟨cmd, _, rfl⟩ := step_sent.mp stepped
    exact ⟨(completed_mailbox s cmd).2, (completed_mailbox s cmd).1⟩
  | sendFailed command =>
    obtain ⟨cmd, _, rfl⟩ := step_sendFailed.mp stepped
    exact ⟨rfl, rfl⟩
  | backoffOver =>
    obtain ⟨cmd, _, rfl⟩ := step_backoffOver.mp stepped
    exact ⟨rfl, rfl⟩
  | joined =>
    obtain ⟨_, _, rfl⟩ := step_joined.mp stepped
    exact ⟨rfl, rfl⟩
  | leave =>
    obtain ⟨_, rfl⟩ := step_leave.mp stepped
    exact ⟨rfl, rfl⟩
  | start =>
    obtain ⟨_, rfl⟩ := step_start.mp stepped
    exact ⟨rfl, rfl⟩
  | cancelled =>
    obtain ⟨_, rfl⟩ := step_cancelled.mp stepped
    exact ⟨rfl, rfl⟩
  | finalStop ok =>
    obtain ⟨_, rfl⟩ := step_finalStop.mp stepped
    exact ⟨rfl, rfl⟩

end JoystickWs

theorem received_concat (es : List JoystickEvent) (e : JoystickEvent) :
    received (es ++ [e]) = received es ++ received [e] := List.filterMap_append

theorem taken_concat (es : List JoystickEvent) (e : JoystickEvent) :
    taken (es ++ [e]) = taken es ++ taken [e] := List.filterMap_append

theorem decoded_concat (es : List JoystickEvent) (e : JoystickEvent) :
    decoded (es ++ [e]) = decoded es ++ decoded [e] := by
  simp only [decoded, received_concat, List.map_append]

/-- Every step keeps the mailbox in line with the tape; a counted socket also keeps its account. -/
theorem tracks_step {es : List JoystickEvent} {s t : JoystickWs} {e : JoystickEvent}
    (tracks : s.mailbox.Tracks (decoded es) (taken es)) (stepped : s.step e = some t) :
    t.mailbox.Tracks (decoded (es ++ [e])) (taken (es ++ [e])) ∧
      (s.counted = true → s.mailbox.Accounts (decoded es) (taken es) →
        t.mailbox.Accounts (decoded (es ++ [e])) (taken (es ++ [e]))) := by
  have change := (JoystickWs.step_mailbox stepped).2
  rw [decoded_concat, taken_concat]
  cases e with
  | frame frame =>
    have change : t.mailbox = s.mailbox.put s.counted frame.command := change
    rw [change, show taken [.frame frame] = [] from rfl, List.append_nil]
    refine ⟨tracks.put s.counted frame.command, fun counted accounts => ?_⟩
    rw [counted]
    exact accounts.put tracks.flag frame.command
  | take cmd speeds =>
    obtain ⟨_, _, pending, change⟩ := change
    rw [change, show decoded [.take cmd speeds] = [] from rfl, List.append_nil]
    cases cmd with
    | none =>
      rw [show taken [.take none speeds] = [] from rfl, List.append_nil]
      exact ⟨tracks.take_empty pending, fun _ accounts => accounts.take_empty pending⟩
    | some cmd => exact ⟨tracks.take pending, fun _ accounts => accounts.take pending⟩
  | leave | start | sent command | sendFailed command | backoffOver | cancelled | joined
  | finalStop ok =>
    have change : t.mailbox = s.mailbox := change
    rw [change, show decoded [_] = [] from rfl, show taken [_] = [] from rfl, List.append_nil,
      List.append_nil]
    exact ⟨tracks, fun _ accounts => accounts⟩

theorem tracks_of_run {counted : Bool} {es : List JoystickEvent} {s : JoystickWs}
    (ran : run JoystickWs.step (.opened counted) es = some s) :
    s.mailbox.Tracks (decoded es) (taken es) :=
  run_invariant (I := fun es s => s.mailbox.Tracks (decoded es) (taken es))
    LatestSlot.tracks_empty (fun _ _ _ _ tracks stepped => (tracks_step tracks stepped).1) ran

end MammotionRc.Server
