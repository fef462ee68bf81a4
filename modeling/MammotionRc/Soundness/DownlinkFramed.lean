import MammotionRc.Soundness.DownlinkFresh

/-! # The downlink stays framed

`send_frame_` hands header and payload to two calls of `client_.write` and looks at neither result. As long
as a call that falls short stops the client, nothing follows the gap, and the stream of a session is the
concatenation of the frames drained in it up to the point at which it ended. A call that falls short and
leaves the client connected shifts the framing for the rest of the session.
-/

namespace MammotionRc.Firmware

open Framing Machine LoopTask

/-- The longest payload that a header can announce, to which the server's reader adds no bound. -/
def maxPayload : ℕ := 2 ^ 16 - 1

namespace Downlink

/-- The payloads of some notifications as one stream. -/
def stream (notifications : List Notification) : Bytes :=
  (notifications.map Notification.data).flatMap encodeFrame

/-- The stream stays framed: what a client receives is a prefix of its session's frames, the server's reader
finds in it the notifications that arrived in full, and a session that goes on after a frame has received it. -/
structure StreamFramed (s : Downlink) : Prop where
  framed : ∀ client ∈ s.clients, client.received <+: client.frames
  decoded : ∀ client ∈ s.clients, ∃ n, stream (client.drained.take n) <+: client.received ∧
    decodeFrames maxPayload client.received =
      ((client.drained.take n).map Notification.data).filter (· ≠ []) ∧
    (n < client.drained.length → client.received.length < (stream (client.drained.take (n + 1))).length)
  whole : s.task.client.connected = true →
    ¬ s.task.pc.Sending → ∀ cur older, s.clients = cur :: older → cur.received = cur.frames

/-- A `client_.write` that falls short finds the client stopped, or stops it. -/
def KeepsFraming (s : Downlink) : Event → Prop
  | .clientWrite data accepted gaveUp =>
    s.task.client.isOpen = true → accepted < data.length → gaveUp = true
  | _ => True

/-- Where the stream of the client that is served stands. -/
def Current (s : Downlink) : Prop :=
  match s.task.pc with
  | .writeHeader frame =>
    s.task.client.isOpen = true ∧
      ∃ cur older, s.clients = cur :: older ∧ cur.frames = cur.received ++ encodeFrame frame
  | .writePayload frame =>
    ∃ cur older, s.clients = cur :: older ∧
      (s.task.client.isOpen = true → cur.frames = cur.received ++ frame)
  | _ => s.task.client.connected = true → ∃ cur older, s.clients = cur :: older ∧ cur.received = cur.frames

structure FramedInvariant (s : Downlink) : Prop where
  queuedShort : ∀ notification ∈ s.queued, notification.data.length < 2 ^ 16
  drainedShort : ∀ client ∈ s.clients, ∀ notification ∈ client.drained, notification.data.length < 2 ^ 16
  framed : ∀ client ∈ s.clients, client.received <+: client.frames
  current : s.Current

variable {s t : Downlink} {e : Event} {task : LoopTask}

theorem Current.of_outside (outside : ¬ s.task.pc.Sending)
    (caughtUp : s.task.client.connected = true →
      ∃ cur older, s.clients = cur :: older ∧ cur.received = cur.frames) : s.Current := by
  rw [Current]
  split
  · next frame at_ =>
    rw [at_] at outside
    exact absurd trivial outside
  · next frame at_ =>
    rw [at_] at outside
    exact absurd trivial outside
  · exact caughtUp

theorem Current.caughtUp (current : s.Current) (outside : ¬ s.task.pc.Sending)
    (up : s.task.client.connected = true) :
    ∃ cur older, s.clients = cur :: older ∧ cur.received = cur.frames := by
  rw [Current] at current
  split at current
  · next frame at_ =>
    rw [at_] at outside
    exact absurd trivial outside
  · next frame at_ =>
    rw [at_] at outside
    exact absurd trivial outside
  · exact current up

/-- The surroundings move; they may end the connection. -/
theorem Current.of_surroundings (current : s.Current) (clients : t.clients = s.clients)
    (pc : t.task.pc = s.task.pc) (isOpen : t.task.client.isOpen = s.task.client.isOpen)
    (connected : t.task.client.connected = true → s.task.client.connected = true) : t.Current := by
  simp only [Current, clients, pc, isOpen] at current ⊢
  split
  · next at_ => simpa only [at_] using current
  · next at_ => simpa only [at_] using current
  · next header payload =>
    split at current
    · next at_ => exact absurd at_ (header _)
    · next at_ => exact absurd at_ (payload _)
    · exact fun up => current (connected up)

/-- loopTask moves outside `send_frame_` and drains nothing. -/
theorem FramedInvariant.move (inv : FramedInvariant s)
    (was : ¬ s.task.pc.Sending) (pc : ¬ task.pc.Sending) (connected : task.client.connected = true → s.task.client.connected = true) :
    FramedInvariant { s with task := task } :=
  ⟨inv.queuedShort, inv.drainedShort, inv.framed,
    .of_outside pc fun up => inv.current.caughtUp was (connected up)⟩

theorem frames_concat (client : ClientRecord) (notification : Notification) (sent : List Notification) :
    ClientRecord.frames
      { client with drained := client.drained ++ [notification], sent := sent } =
        client.frames ++ encodeFrame notification.data := by
  simp only [ClientRecord.frames, List.map_append, List.flatMap_append, List.map_singleton,
    List.flatMap_singleton]

/-- A frame is sent to a connected client, and discarded otherwise. -/
theorem FramedInvariant.drains (inv : FramedInvariant s) (queue : Queued s) {frame : Bytes} {rest : List Bytes}
    (was : s.task.pc = .drain) (mutex : s.task.proxy.notifyMutex = true)
    (front : s.task.proxy.notifyQueue = frame :: rest) :
    FramedInvariant (s.observe .drain { s.task with
      proxy.notifyQueue := rest, pc := if s.task.client.connected then .writeHeader frame else .drain }) := by
  obtain ⟨notification, later, queued, rfl, _⟩ := queue.head front
  have here : notification ∈ s.queued := by
    rw [queued]
    exact List.mem_cons_self
  have outside : ¬ s.task.pc.Sending := by
    rw [was]
    exact id
  simp only [observe, mutex, queued]
  refine ⟨fun n mem => inv.queuedShort n (by rw [queued]; exact List.mem_cons_of_mem _ mem),
    forall_latest inv.drainedShort fun client _ short n mem => ?_, forall_latest inv.framed fun client _ part => ?_, ?_⟩
  · rcases List.mem_append.mp mem with old | new
    · exact short n old
    · rw [List.mem_singleton.mp new]
      exact inv.queuedShort notification here
  · rw [frames_concat]
    exact part.trans (List.prefix_append _ _)
  · by_cases up : s.task.client.connected = true
    · obtain ⟨cur, older, clients, caughtUp⟩ := inv.current.caughtUp outside up
      simp only [Current, up, if_true]
      refine ⟨NetClient.isOpen_of_connected up, _, older, by rw [clients]; rfl, ?_⟩
      rw [frames_concat, ← caughtUp]
    · refine .of_outside ?_ fun up' => absurd up' up
      simp only [if_neg up]
      exact id

/-- `client_.write` adds the accepted bytes to what the client received. -/
theorem FramedInvariant.clientWrite (inv : FramedInvariant s) {data : Bytes} {accepted : ℕ} {gaveUp : Bool}
    {pc : Pc} {cur : ClientRecord} {older : List ClientRecord} (clients : s.clients = cur :: older)
    (part : cur.received ++ data.take accepted <+: cur.frames)
    (current : Current (s.observe (.clientWrite data accepted gaveUp) (s.task.clientWritten gaveUp pc))) :
    FramedInvariant (s.observe (.clientWrite data accepted gaveUp) (s.task.clientWritten gaveUp pc)) := by
  refine ⟨inv.queuedShort, forall_latest inv.drainedShort fun _ _ => id, ?_, current⟩
  have framed := inv.framed
  simp only [observe, clients, latest] at framed ⊢
  intro client mem
  rcases List.mem_cons.mp mem with rfl | earlier
  · exact part
  · exact framed client (List.mem_cons_of_mem _ earlier)

/-- A call that leaves the client open has accepted everything. -/
theorem KeepsFraming.take_eq {data : Bytes} {accepted : ℕ} {gaveUp : Bool} {pc : Pc}
    (keeps : s.KeepsFraming (.clientWrite data accepted gaveUp))
    (isOpen : (s.task.clientWritten gaveUp pc).client.isOpen = true) :
    s.task.client.isOpen = true ∧ data.take accepted = data := by
  cases gaveUp with
  | true => cases isOpen
  | false =>
    refine ⟨isOpen, List.take_of_length_le (Nat.le_of_not_lt fun less => ?_)⟩
    cases keeps isOpen less

theorem FramedInvariant.header (inv : FramedInvariant s) {frame : Bytes} {accepted : ℕ} {gaveUp : Bool}
    (was : s.task.pc = .writeHeader frame)
    (keeps : s.KeepsFraming (.clientWrite (frameHeader frame) accepted gaveUp)) :
    FramedInvariant (s.observe (.clientWrite (frameHeader frame) accepted gaveUp)
      (s.task.clientWritten gaveUp (.writePayload frame))) := by
  have current := inv.current
  simp only [Current, was] at current
  obtain ⟨_, cur, older, clients, ahead⟩ := current
  have split : encodeFrame frame = frameHeader frame ++ frame := rfl
  refine inv.clientWrite clients ?_ ⟨_, older, by simp only [observe, clients, latest]; rfl, fun isOpen => ?_⟩
  · rw [ahead, split]
    exact (List.prefix_append_right_inj _).mpr ((List.take_prefix _ _).trans (List.prefix_append _ _))
  · rw [(keeps.take_eq isOpen).2]
    exact ahead.trans (by rw [split, ← List.append_assoc])

theorem FramedInvariant.payload (inv : FramedInvariant s) {frame : Bytes} {accepted : ℕ} {gaveUp : Bool}
    (was : s.task.pc = .writePayload frame) (may : s.task.client.mayAccept frame accepted)
    (keeps : s.KeepsFraming (.clientWrite frame accepted gaveUp)) :
    FramedInvariant (s.observe (.clientWrite frame accepted gaveUp) (s.task.clientWritten gaveUp .drain)) := by
  have current := inv.current
  simp only [Current, was] at current
  obtain ⟨cur, older, clients, ahead⟩ := current
  refine inv.clientWrite clients ?_ fun up =>
    ⟨_, older, by simp only [observe, clients, latest]; rfl, ?_⟩
  · by_cases isOpen : s.task.client.isOpen = true
    · rw [ahead isOpen]
      exact (List.prefix_append_right_inj _).mpr (List.take_prefix _ _)
    · rw [NetClient.mayAccept, if_neg isOpen] at may
      rw [Nat.le_zero.mp may, List.take_zero, List.append_nil]
      exact inv.framed cur (by rw [clients]; exact List.mem_cons_self)
  · obtain ⟨isOpen, whole⟩ := keeps.take_eq (NetClient.isOpen_of_connected up)
    rw [whole]
    exact (ahead isOpen).symm

theorem FramedInvariant.step (inv : FramedInvariant s) (queue : Queued s)
    (short : ∀ data, e = .notify data → data.length < 2 ^ 16) (keeps : s.KeepsFraming e)
    (stepped : s.step e = some t) : FramedInvariant t := by
  obtain ⟨task, ran, rfl⟩ := Option.map_eq_some_iff.mp stepped
  cases step_effect ran with
  | peerClose =>
    exact ⟨inv.queuedShort, inv.drainedShort, inv.framed, inv.current.of_surroundings rfl rfl rfl
      fun up => by cases (Bool.and_false s.task.client.isOpen).symm.trans up⟩
  | notify data =>
    simp only [observe, TcpProxy.notifyCallback]
    split_ifs with mutex
    · refine ⟨fun n mem => ?_, inv.drainedShort, inv.framed, inv.current.of_surroundings rfl rfl rfl id⟩
      rcases List.mem_append.mp mem with old | new
      · exact inv.queuedShort n old
      · rw [List.mem_singleton.mp new]
        exact short data rfl
    · exact inv
  | elapse ms =>
    exact ⟨inv.queuedShort, inv.drainedShort, inv.framed, inv.current.of_surroundings rfl rfl rfl id⟩
  | serving was up => exact inv.move (by rw [was]; exact id) id fun _ => up
  | gone was | vacant was | tornDown was | noClient was | opened was | openFailed was =>
    exact inv.move (by rw [was]; exact id) id id
  | abandoned was =>
    refine inv.move (by rw [was]; exact id) id fun up => ?_
    cases up
  | cleared was =>
    have outside : ¬ s.task.pc.Sending := by
      rw [was]
      exact id
    have current : ∀ queued proxy, Current { s with
        task := { s.task with proxy := proxy, pc := .accept }, queued := queued } :=
      fun _ _ => .of_outside id fun up => inv.current.caughtUp outside up
    simp only [observe, TcpProxy.swapQueue]
    split_ifs
    · exact ⟨fun _ mem => absurd mem List.not_mem_nil, inv.drainedShort, inv.framed, current _ _⟩
    · exact ⟨inv.queuedShort, inv.drainedShort, inv.framed, current _ _⟩
  | accepted was stream =>
    refine ⟨inv.queuedShort, fun client mem => ?_, fun client mem => ?_, fun _ => ⟨_, _, rfl, rfl⟩⟩
    · rcases List.mem_cons.mp mem with rfl | earlier
      · exact fun _ mem => absurd mem List.not_mem_nil
      · exact inv.drainedShort client earlier
    · rcases List.mem_cons.mp mem with rfl | earlier
      · exact List.nil_prefix
      · exact inv.framed client earlier
  | poll was event polls =>
    cases e <;> cases event <;> exact inv.move was.not_sending polls.not_sending polls.connected
  | drains was mutex front => exact inv.drains queue was mutex front
  | drained was empty =>
    have moved : FramedInvariant { s with task := { s.task with pc := .connected } } :=
      inv.move (by rw [was]; exact id) id id
    simp only [observe]
    split
    · next notification rest mutex queued =>
      rw [Queued, queued, empty mutex] at queue
      cases queue
    · exact moved
  | header gaveUp was may => exact inv.header was keeps
  | payload gaveUp was may => exact inv.payload was may keeps

theorem framedInvariant_init (mutex : Bool) : FramedInvariant (init mutex) :=
  ⟨fun _ mem => absurd mem List.not_mem_nil, fun _ mem => absurd mem List.not_mem_nil,
    fun _ mem => absurd mem List.not_mem_nil, fun up => by cases up⟩

theorem FramedInvariant.streamFramed (inv : FramedInvariant s) : s.StreamFramed := by
  refine ⟨inv.framed, fun client mem => ?_, fun up outside cur older clients => ?_⟩
  · have short : ∀ payload ∈ client.drained.map Notification.data, payload.length < 2 ^ 16 := by
      intro payload among
      obtain ⟨notification, drained, rfl⟩ := List.mem_map.mp among
      exact inv.drainedShort client mem notification drained
    obtain ⟨n, carried, decoded, bound⟩ := decodeFrames_of_prefix short
      (fun payload drained => Nat.le_of_lt_succ (short payload drained)) (inv.framed client mem)
    simp only [List.length_map] at carried decoded bound
    refine ⟨n, ?_, ?_, ?_⟩
    · rw [stream, List.map_take]
      exact carried
    · rw [List.map_take]
      exact decoded
    · rw [stream, List.map_take]
      exact bound
  · obtain ⟨cur', older', clients', caughtUp⟩ := inv.current.caughtUp outside up
    rw [clients'] at clients
    cases clients
    exact caughtUp

/-- **The downlink stays framed**: in every run in which each `client_.write` that falls short finds the
client stopped or stops it, every client's stream is a prefix of its session's frames. -/
theorem downlink_framed (mutex : Bool) (es : List Event) (s : Downlink)
    (short : ∀ data, .notify data ∈ es → data.length < 2 ^ 16)
    (keeps : Meets step (fun _ => KeepsFraming) (init mutex) es)
    (ran : run step (init mutex) es = some s) : s.StreamFramed := by
  have inv : Queued s ∧ ((∀ data, .notify data ∈ es → data.length < 2 ^ 16) → FramedInvariant s) := by
    refine run_invariant_of_meets (I := fun es s => Queued s ∧
      ((∀ data, .notify data ∈ es → data.length < 2 ^ 16) → FramedInvariant s))
        ⟨show Queued (init mutex) from rfl, fun _ => framedInvariant_init mutex⟩ ?_ keeps ran
    rintro es s e t ⟨queue, inv⟩ keeps stepped
    refine ⟨queue.step stepped, fun short => ?_⟩
    have before := inv fun data mem => short data (List.mem_append_left _ mem)
    refine before.step queue (fun data same => short data (List.mem_append_right _ ?_)) keeps stepped
    rw [same]
    exact List.mem_singleton_self _
  exact (inv.2 short).streamFramed

/-- A client connects, the mower sends three bytes, and loopTask is about to write their header. -/
def notifiedOnce : List Event :=
  [.connected, .accept (some []), .connectMower true, .notify [5, 6, 7], .connected, .idleCheck, .available 0,
    .drain]

/-- The frame is written in full. -/
def sentWhole : List Event :=
  notifiedOnce ++ [.clientWrite [0, 3] 2 false, .clientWrite [5, 6, 7] 3 false, .drain]

theorem downlink_framed_sentWhole :
    ∃ s, run step (init true) sentWhole = some s ∧ s.StreamFramed ∧
      s.clients.map ClientRecord.received = [[0, 3, 5, 6, 7]] := by
  obtain ⟨s, ran, received⟩ : ∃ s, run step (init true) sentWhole = some s ∧
      s.clients.map ClientRecord.received = [[0, 3, 5, 6, 7]] := ⟨_, rfl, rfl⟩
  refine ⟨s, ran, downlink_framed true sentWhole s (fun data mem => ?_) (.of_getElem fun n e at_ t _ => ?_) ran,
    received⟩
  · have sent : data = [5, 6, 7] := by simpa [sentWhole, notifiedOnce] using mem
    rw [sent]
    decide
  · have short : n < 11 := (List.getElem?_eq_some_iff.mp at_).1
    interval_cases n <;> cases at_ <;> first | trivial | exact fun _ less => absurd less (by decide)

/-- The TCP buffer takes the first byte of the header and then the payload. -/
def shortHeader : List Event :=
  notifiedOnce ++ [.clientWrite [0, 3] 1 false, .clientWrite [5, 6, 7] 3 false, .drain]

/-- The session goes on, and the client takes two bytes of the payload for a length. -/
theorem shortHeader_not_framed :
    ∃ s, run step (init true) shortHeader = some s ∧ s.task.client.connected = true ∧ ¬ s.StreamFramed := by
  obtain ⟨s, cur, ran, up, clients, received, frames⟩ : ∃ s cur, run step (init true) shortHeader = some s ∧
      s.task.client.connected = true ∧ s.clients = [cur] ∧ cur.received = [0, 5, 6, 7] ∧
        cur.frames = [0, 3, 5, 6, 7] := ⟨_, _, rfl, rfl, rfl, rfl, rfl⟩
  refine ⟨s, ran, up, fun holds => ?_⟩
  have part := holds.framed cur (by rw [clients]; exact List.mem_singleton_self _)
  rw [received, frames] at part
  revert part
  decide

end Downlink

end MammotionRc.Firmware
