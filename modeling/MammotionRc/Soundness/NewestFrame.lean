import MammotionRc.Soundness.JoystickMailbox
import MammotionRc.Soundness.RegistryInvariants

/-! # The newest frame wins

A socket that a live registry accepts counts the frames it replaces, because the handle and the transport
of a mower are registered together. Whatever the order of the receive loop and the sender, however long a
send takes and whether it fails, the sender takes the frame received last, at most once, and a received
frame is taken, counted as replaced, or still in the slot of a sender that is about to wake up.
-/

namespace MammotionRc.Server

open Machine

/-- `cmd` is what the last frame of the tape put into the mailbox, and it was not taken since. -/
def Newest (es : List JoystickEvent) (cmd : StickCommand) : Prop :=
  ∃ before frame after, es = before ++ .frame frame :: after ∧ frame.command = cmd ∧
    received after = [] ∧ taken after = []

/-- An event that neither stores nor takes a frame keeps the last frame where it is. -/
theorem Newest.concat {es : List JoystickEvent} {e : JoystickEvent} {cmd : StickCommand}
    (newest : Newest es cmd) (stores : received [e] = []) (takes : taken [e] = []) :
    Newest (es ++ [e]) cmd := by
  obtain ⟨before, frame, after, rfl, command, received, taken⟩ := newest
  refine ⟨before, frame, after ++ [e], by rw [List.append_assoc, List.cons_append], command, ?_, ?_⟩
  · rw [received_concat, received, stores, List.append_nil]
  · rw [taken_concat, taken, takes, List.append_nil]

/-- The slot holds the newest frame. -/
theorem newest_step {es : List JoystickEvent} {s t : JoystickWs} {e : JoystickEvent}
    (holds : ∀ cmd, s.mailbox.pending = some cmd → Newest es cmd) (stepped : s.step e = some t) :
    ∀ cmd, t.mailbox.pending = some cmd → Newest (es ++ [e]) cmd := by
  have change := (JoystickWs.step_mailbox stepped).2
  intro cmd pending
  cases e with
  | frame frame =>
    have change : t.mailbox = s.mailbox.put s.counted frame.command := change
    rw [change] at pending
    exact ⟨es, frame, [], rfl, Option.some.inj pending, rfl, rfl⟩
  | take cmd speeds =>
    obtain ⟨_, _, _, change⟩ := change
    rw [change] at pending
    cases pending
  | leave | start | sent command | sendFailed command | backoffOver | cancelled | joined
  | finalStop ok =>
    have change : t.mailbox = s.mailbox := change
    rw [change] at pending
    exact (holds cmd pending).concat rfl rfl

theorem newest_of_run {counted : Bool} {es : List JoystickEvent} {s : JoystickWs}
    (ran : run JoystickWs.step (.opened counted) es = some s) :
    ∀ cmd, s.mailbox.pending = some cmd → Newest es cmd :=
  run_invariant (I := fun es s => ∀ cmd, s.mailbox.pending = some cmd → Newest es cmd)
    (fun _ pending => by cases pending) (fun _ _ _ _ holds stepped => newest_step holds stepped) ran

theorem accounts_of_run {es : List JoystickEvent} {s : JoystickWs}
    (ran : run JoystickWs.step (.opened true) es = some s) :
    s.mailbox.Accounts (decoded es) (taken es) := by
  refine (run_invariant (I := fun es s => s.counted = true ∧
    s.mailbox.Tracks (decoded es) (taken es) ∧ s.mailbox.Accounts (decoded es) (taken es))
    ⟨rfl, LatestSlot.tracks_empty, LatestSlot.accounts_empty⟩ ?_ ran).2.2
  rintro es s e t ⟨counted, tracks, accounts⟩ stepped
  obtain ⟨after, account⟩ := tracks_step tracks stepped
  exact ⟨(JoystickWs.step_mailbox stepped).1.trans counted, after, account counted accounts⟩

/-- A socket on a live registry counts the frames it replaces. -/
theorem Registry.Registered.joystickWs {s : Registry} {name : String} {opened : JoystickWs}
    (registered : s.Registered) (accepted : s.joystickWs name = some opened) : opened = .opened true := by
  obtain ⟨k, found, rfl⟩ := Option.map_eq_some_iff.mp accepted
  rw [linkStats, registered.together, found]
  rfl

/-- **The newest frame wins**: for every socket that a live registry accepts and every order of its receive
loop and its sender, the frames taken are a subsequence of those received, each is the newest one when it is
taken and is taken once, every frame received is accounted for, and no wake-up is lost. -/
theorem newest_frame (loaded : List MowerConfig) (saves : List RegistryEvent) (registry : Registry)
    (reached : run Registry.step (.init loaded) saves = some registry) (name : String)
    (opened : JoystickWs) (accepted : registry.joystickWs name = some opened)
    (es : List JoystickEvent) (s : JoystickWs) (ran : run JoystickWs.step opened es = some s) :
    (taken es).Sublist (decoded es) ∧
      (∀ before cmd speeds, before ++ [.take (some cmd) speeds] <+: es → Newest before cmd) ∧
      (received es).length =
        (taken es).length + s.mailbox.dropped + (if s.mailbox.pending.isSome then 1 else 0) ∧
      ¬ (s.mailbox.pending.isSome ∧ s.sender = .waiting ∧ s.mailbox.flag = false) := by
  obtain rfl := (Registry.registered_of_run reached).joystickWs accepted
  have tracks := tracks_of_run ran
  refine ⟨tracks.sublist, fun before cmd speeds inside => ?_, ?_, fun ⟨occupied, _, down⟩ => ?_⟩
  · obtain ⟨t, after⟩ := run_of_prefix ran inside
    obtain ⟨u, reached, stepped⟩ := run_concat_iff.mp after
    obtain ⟨_, _, pending, _⟩ := (JoystickWs.step_mailbox stepped).2
    exact newest_of_run reached cmd pending
  · have accounts := accounts_of_run ran
    rw [LatestSlot.Accounts, decoded, List.length_map] at accounts
    rw [accounts]
    cases s.mailbox.pending <;> rfl
  · rw [tracks.vacant_of_flag down] at occupied
    cases occupied

/-- The stick is pushed; while that is sent it moves on and is released, and the send fails. -/
def burst : List JoystickEvent :=
  [.start, .frame ⟨.fin 0, .fin 1, .fin 1⟩, .take (some (.axes (.fin 0) (.fin 1))) (.vector 300 0),
    .frame ⟨.fin 1, .fin 0, .fin 1⟩, .frame ⟨.fin 0, .fin 0, .fin 0⟩, .sendFailed (.sendMovement 300 0),
    .backoffOver, .take (some .stop) .declined]

theorem newest_frame_burst :
    ∃ registry s, run Registry.step (.init [⟨"Luba-A", none, "192.168.1.54", 9876, none⟩]) [] = some registry ∧
      registry.joystickWs "Luba-A" = some (.opened true) ∧ run JoystickWs.step (.opened true) burst = some s ∧
      (received burst).length = (taken burst).length + s.mailbox.dropped + 0 := by
  obtain ⟨registry, reached, accepted⟩ : ∃ registry,
      run Registry.step (.init [⟨"Luba-A", none, "192.168.1.54", 9876, none⟩]) [] = some registry ∧
        registry.joystickWs "Luba-A" = some (.opened true) := ⟨_, rfl, rfl⟩
  obtain ⟨s, ran, vacant⟩ : ∃ s, run JoystickWs.step (.opened true) burst = some s ∧
      s.mailbox.pending.isSome = false := Option.map_eq_some_iff.mp (by decide +kernel)
  obtain ⟨_, _, accounts, _⟩ := newest_frame _ [] registry reached "Luba-A" _ accepted burst s ran
  rw [vacant] at accounts
  exact ⟨registry, s, reached, accepted, ran, accounts⟩

end MammotionRc.Server
