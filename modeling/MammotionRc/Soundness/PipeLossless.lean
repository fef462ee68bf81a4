import MammotionRc.Firmware.TcpProxy

/-! # The TCP-to-BLE pipe loses nothing

A tape splits into sessions, one for each accepted peer; a session owns the stream its peer sends and
the payloads that `ble_.write` accepted during it. While the socket is open the reference decoding of
the stream is what was written followed by what the proxy still holds: the frame in `rx_buf_`, complete
or under assembly, and the frames in the unread part of the stream. Each step of loopTask keeps that
equation, however the stream was cut up, and a stopped socket never reaches another write.
-/

namespace MammotionRc.Firmware

open Framing Machine

/-- What one accepted peer sent and which payloads `ble_.write` accepted in its session. -/
structure Session where
  stream : Bytes
  written : List Bytes
deriving DecidableEq, Repr

/-- The sessions of a tape, latest first; a write before the first session would own an empty stream. -/
def record : List Session → Event → List Session
  | log, .accept (some stream) => ⟨stream, []⟩ :: log
  | cur :: older, .bleWrite data true => { cur with written := cur.written ++ [data] } :: older
  | [], .bleWrite data true => [⟨[], [data]⟩]
  | log, _ => log

def sessions (es : List Event) : List Session := es.foldl record []

theorem sessions_concat (es : List Event) (e : Event) :
    sessions (es ++ [e]) = record (sessions es) e := by
  simp only [sessions, List.foldl_append, List.foldl_cons, List.foldl_nil]

/-- The reference reading of a session's stream. -/
def Session.frames (session : Session) : List Bytes := decodeFrames MAX_FRAME_LEN session.stream

namespace LoopTask

/-- The decoded frames that are in `rx_buf_` or unread in the socket. -/
def held (s : LoopTask) : List Bytes :=
  match s.proxy.rxState with
  | .waitLen => decodeFrames MAX_FRAME_LEN s.client.unread
  | .readData =>
    decodeBody MAX_FRAME_LEN s.proxy.rxLen (s.proxy.rxBuf.take s.proxy.rxHave) s.client.unread
  | .writePending => s.proxy.rxBuf :: decodeFrames MAX_FRAME_LEN s.client.unread

/-- The receive state agrees with the call that loopTask makes next. -/
def Positioned (s : LoopTask) : Prop :=
  match s.pc with
  | .pollLen => s.proxy.rxState = .waitLen
  | .readLen => s.proxy.rxState = .waitLen ∧ 2 ≤ s.client.unread.length
  | .pollData => s.proxy.rxState = .readData
  | .readData toRead =>
    s.proxy.rxState = .readData ∧ toRead ≤ s.proxy.rxLen - s.proxy.rxHave ∧
      toRead ≤ s.client.unread.length
  | .bleConnected | .attempt _ => s.proxy.rxState = .writePending
  | _ => True

/-- `rx_buf_` and its counters during an open session. -/
structure Receiving (s : LoopTask) : Prop where
  buffer : s.proxy.rxState ≠ .waitLen → s.proxy.rxBuf.length = s.proxy.rxLen
  partly : s.proxy.rxState = .readData → s.proxy.rxHave < s.proxy.rxLen
  positioned : s.Positioned

/-- A stopped client has nothing to read, and loopTask is on its way back to `client_.connected()`. -/
def Closing (s : LoopTask) : Prop :=
  s.client.unread = [] ∧
    match s.pc with
    | .idleCheck | .readLen | .readData _ | .bleConnected | .attempt _ => False
    | _ => True

/-- Everything the current session's stream decodes to was written or is still held. -/
def Carries (log : List Session) (s : LoopTask) : Prop :=
  ∃ cur older, log = cur :: older ∧ cur.frames = cur.written ++ s.held

end LoopTask

open LoopTask

structure PipeInvariant (log : List Session) (s : LoopTask) : Prop where
  delivered : ∀ session ∈ log, session.written <+: session.frames
  opened : s.client.isOpen = true → s.Receiving ∧ s.Carries log
  closed : s.client.isOpen = false → s.Closing

/-- A step that leaves the sessions alone has to keep the frames held while the socket is open. -/
theorem PipeInvariant.keep {log : List Session} {s t : LoopTask} (inv : PipeInvariant log s)
    (opened : t.client.isOpen = true → s.client.isOpen = true ∧ t.Receiving ∧ t.held = s.held)
    (closed : t.client.isOpen = false → t.Closing) : PipeInvariant log t := by
  refine ⟨inv.delivered, fun up => ?_, closed⟩
  obtain ⟨wasOpen, receiving, same⟩ := opened up
  obtain ⟨cur, older, current, balance⟩ := (inv.opened wasOpen).2
  exact ⟨receiving, cur, older, current, by rw [same, balance]⟩

/-- A step that touches neither the receive state nor the unread bytes. -/
theorem PipeInvariant.skip {log : List Session} {s t : LoopTask} (inv : PipeInvariant log s)
    (receiver : t.proxy.rxState = s.proxy.rxState ∧ t.proxy.rxLen = s.proxy.rxLen ∧
      t.proxy.rxHave = s.proxy.rxHave ∧ t.proxy.rxBuf = s.proxy.rxBuf)
    (socket : t.client.isOpen = s.client.isOpen ∧ t.client.unread = s.client.unread)
    (positioned : s.client.isOpen = true → s.Receiving → t.Positioned)
    (closing : s.client.isOpen = false → s.Closing → t.Closing) : PipeInvariant log t := by
  obtain ⟨state, len, have', buf⟩ := receiver
  obtain ⟨isOpen, unread⟩ := socket
  apply inv.keep
  · intro up
    rw [isOpen] at up
    have receiving := (inv.opened up).1
    refine ⟨up, ⟨?_, ?_, positioned up receiving⟩, ?_⟩
    · rw [state, len, buf]; exact receiving.buffer
    · rw [state, len, have']; exact receiving.partly
    · simp only [held, state, len, have', buf, unread]
  · intro down
    rw [isOpen] at down
    exact closing down (inv.closed down)

/-- A step to a position at which nothing is known about the receive state. -/
theorem PipeInvariant.move {log : List Session} {s t : LoopTask} (inv : PipeInvariant log s)
    (receiver : t.proxy.rxState = s.proxy.rxState ∧ t.proxy.rxLen = s.proxy.rxLen ∧
      t.proxy.rxHave = s.proxy.rxHave ∧ t.proxy.rxBuf = s.proxy.rxBuf)
    (client : t.client = s.client) (free : t.Positioned)
    (closing : s.client.isOpen = false → t.client.unread = [] → t.Closing) : PipeInvariant log t :=
  inv.skip receiver (by rw [client]; exact ⟨rfl, rfl⟩) (fun _ _ => free) fun down c =>
    closing down (by rw [client]; exact c.1)

/-- A step that stops the client and goes back towards `client_.connected()`. -/
theorem PipeInvariant.stop {log : List Session} {s t : LoopTask} (inv : PipeInvariant log s)
    (stopped : t.client = .stopped) (closing : t.Closing) : PipeInvariant log t :=
  inv.keep (fun up => by rw [stopped] at up; contradiction) fun _ => closing

namespace LoopTask

/-- Entering `READ_DATA` with part of the payload missing asks the socket for more. -/
theorem enterReadData_of_partly {s : LoopTask} (partly : s.proxy.rxHave < s.proxy.rxLen) :
    s.enterReadData = { s with pc := .pollData } := if_pos partly

/-- Resuming `poll_socket_` in a new tick finds the receive state as the last tick left it. -/
theorem pollSocket_keeps {s : LoopTask} (receiving : s.Receiving) :
    s.pollSocket.Receiving ∧ s.pollSocket.held = s.held ∧ s.pollSocket.client = s.client := by
  obtain ⟨buffer, partly, _⟩ := receiving
  cases state : s.proxy.rxState with
  | waitLen =>
    simp only [pollSocket, state]
    exact ⟨⟨buffer, partly, state⟩, rfl, trivial⟩
  | readData =>
    simp only [pollSocket, state, enterReadData_of_partly (partly state)]
    exact ⟨⟨buffer, partly, state⟩, rfl, trivial⟩
  | writePending =>
    simp only [pollSocket, state]
    exact ⟨⟨buffer, partly, state⟩, rfl, trivial⟩

/-- A header read in full keeps the frames of the stream, or ends the session on an oversize one. -/
theorem headerRead_keeps {s : LoopTask} {hi lo : UInt8} {rest : Bytes}
    (state : s.proxy.rxState = .waitLen) (unread : s.client.unread = rest) :
    ((s.headerRead hi lo).client.isOpen = true →
      s.client.isOpen = true ∧ (s.headerRead hi lo).Receiving ∧
        (s.headerRead hi lo).held = decodeFrames MAX_FRAME_LEN (hi :: lo :: rest)) ∧
    ((s.headerRead hi lo).client.isOpen = false → s.client.isOpen = true →
      (s.headerRead hi lo).Closing) := by
  by_cases zero : headerLength hi lo = 0
  · have reads : s.headerRead hi lo =
        { s with proxy.rxLen := headerLength hi lo, pc := .pollLen } := if_pos zero
    rw [reads, decodeFrames_zero zero, ← unread]
    refine ⟨fun up => ⟨up, ⟨fun other => (other state).elim, ?_, state⟩, ?_⟩, ?_⟩
    · intro other
      exact absurd (state.symm.trans other) (by decide)
    · simp only [held, state]
    · intro down up
      exact absurd (up.symm.trans down) (by decide)
  by_cases ends : MAX_FRAME_LEN < headerLength hi lo
  · have reads : s.headerRead hi lo =
        { s with proxy.rxLen := headerLength hi lo, client := .stopped, pc := .drain } :=
      (if_neg zero).trans (if_pos ends)
    rw [reads]
    exact ⟨nofun, fun _ _ => ⟨rfl, trivial⟩⟩
  · have reads : s.headerRead hi lo =
        { s with
          proxy := { s.proxy with rxLen := headerLength hi lo }.beginFrame, pc := .pollData } :=
      (if_neg zero).trans ((if_neg ends).trans
        (enterReadData_of_partly (Nat.pos_of_ne_zero zero)))
    rw [reads, decodeFrames_header zero (Nat.not_lt.mp ends), ← unread]
    refine ⟨fun up => ⟨up, ⟨fun _ => ?_, fun _ => Nat.pos_of_ne_zero zero, rfl⟩, ?_⟩, ?_⟩
    · simp only [TcpProxy.beginFrame, List.length_replicate]
    · simp only [held, TcpProxy.beginFrame, List.take_zero]
    · intro down up
      exact absurd (up.symm.trans down) (by decide)

/-- A header buffer left over by a failed read asks a stopped client for bytes it does not have. -/
theorem headerRead_stopped {s : LoopTask} {hi lo : UInt8} (stopped : s.client = .stopped) :
    (s.headerRead hi lo).client = .stopped ∧ (s.headerRead hi lo).Closing := by
  have nothing : s.client.unread = [] := by rw [stopped]; rfl
  by_cases zero : headerLength hi lo = 0
  · simp only [headerRead, if_pos zero]
    exact ⟨stopped, nothing, trivial⟩
  by_cases ends : MAX_FRAME_LEN < headerLength hi lo
  · simp only [headerRead, if_neg zero, if_pos ends]
    exact ⟨trivial, rfl, trivial⟩
  · simp only [headerRead, if_neg zero, if_neg ends]
    rw [enterReadData_of_partly (Nat.pos_of_ne_zero zero)]
    exact ⟨stopped, nothing, trivial⟩

/-- Bytes copied into `rx_buf_` extend the part of the payload that was received. -/
theorem storeBytes_received {p : TcpProxy} {bytes : Bytes}
    (room : p.rxHave + bytes.length ≤ p.rxBuf.length) :
    (p.storeBytes bytes).rxBuf.take (p.storeBytes bytes).rxHave = p.rxBuf.take p.rxHave ++ bytes ∧
      (p.storeBytes bytes).rxBuf.length = p.rxBuf.length := by
  have received : (p.rxBuf.take p.rxHave ++ bytes).length = p.rxHave + bytes.length := by
    rw [List.length_append, List.length_take_of_le (by omega)]
  constructor
  · simp only [TcpProxy.storeBytes]
    rw [← received, List.take_left]
  · simp only [TcpProxy.storeBytes]
    rw [List.length_append, received, List.length_drop]
    omega

/-- A payload read, of whatever length, keeps the frames that the stream and the buffer make up. -/
theorem payloadRead_keeps {s : LoopTask} {n toRead : ℕ} (receiving : s.Receiving)
    (position : s.pc = .readData toRead) (granted : n ≤ toRead) :
    (s.payloadRead n).Receiving ∧ (s.payloadRead n).held = s.held ∧
      (s.payloadRead n).client.isOpen = s.client.isOpen := by
  obtain ⟨buffer, partly, positioned⟩ := receiving
  simp only [Positioned, position] at positioned
  obtain ⟨state, wanted, present⟩ := positioned
  have full : s.proxy.rxBuf.length = s.proxy.rxLen := buffer (by simp [state])
  have missing := partly state
  have taken : (s.client.unread.take n).length = n := List.length_take_of_le (by omega)
  have stored := storeBytes_received (show s.proxy.rxHave + (s.client.unread.take n).length ≤ s.proxy.rxBuf.length by omega)
  have counted : (s.proxy.storeBytes (s.client.unread.take n)).rxHave = s.proxy.rxHave + n := by
    simp only [TcpProxy.storeBytes, taken]
  have before : (s.proxy.rxBuf.take s.proxy.rxHave).length = s.proxy.rxHave :=
    List.length_take_of_le (by omega)
  have advance := decodeBody_advance MAX_FRAME_LEN
    (show (s.proxy.rxBuf.take s.proxy.rxHave).length + n ≤ s.proxy.rxLen by omega)
    (show n ≤ s.client.unread.length by omega)
  have heldBefore : s.held = decodeBody MAX_FRAME_LEN s.proxy.rxLen
      (s.proxy.rxBuf.take s.proxy.rxHave) s.client.unread := by simp only [held, state]
  by_cases more : s.proxy.rxHave + n < s.proxy.rxLen
  · have reads : s.payloadRead n =
        { s with
          proxy := s.proxy.storeBytes (s.client.unread.take n)
          client := s.client.consume n, pc := .drain } := if_pos (by rw [counted]; exact more)
    rw [reads]
    refine ⟨⟨fun _ => ?_, fun _ => ?_, trivial⟩, ?_, rfl⟩
    · exact stored.2.trans full
    · rw [counted]; exact more
    · rw [heldBefore, ← advance, ← stored.1]
      simp only [held, TcpProxy.storeBytes, state, NetClient.consume_unread]
  · have reads : s.payloadRead n =
        { s with
          proxy := (s.proxy.storeBytes (s.client.unread.take n)).frameReady s.millis
          client := s.client.consume n, pc := .bleConnected } := if_neg (by rw [counted]; exact more)
    have whole : (s.proxy.storeBytes (s.client.unread.take n)).rxBuf =
        s.proxy.rxBuf.take s.proxy.rxHave ++ s.client.unread.take n :=
      (List.take_of_length_le (by rw [stored.2, counted]; omega)).symm.trans stored.1
    rw [reads]
    refine ⟨⟨fun _ => stored.2.trans full, ?_, rfl⟩, ?_, rfl⟩
    · intro other
      exact absurd other (by simp [TcpProxy.frameReady])
    · rw [heldBefore, ← advance, decodeBody_complete
        (by rw [List.length_append, before, taken]; omega), ← whole]
      simp only [held, TcpProxy.frameReady, NetClient.consume_unread]

end LoopTask

theorem PipeInvariant.isOpen_of_busy {log : List Session} {s : LoopTask}
    (inv : PipeInvariant log s) (busy : ¬ s.Closing) : s.client.isOpen = true := by
  by_contra down
  exact busy (inv.closed (Bool.eq_false_iff.mpr down))

/-- The answer to `client_.available()` only decides where loopTask goes. -/
theorem PipeInvariant.available {log : List Session} {s t : LoopTask} {n : ℕ}
    (inv : PipeInvariant log s) (stepped : s.step (.available n) = some t) : PipeInvariant log t := by
  obtain ⟨reported, polled⟩ := LoopTask.step_available.mp stepped
  have nothing : s.Closing → n = 0 := fun c => by
    have bound : n ≤ s.client.unread.length := reported
    rw [c.1] at bound
    exact Nat.le_zero.mp bound
  rcases polled with ⟨position, rfl⟩ | ⟨position, rfl⟩
  · by_cases few : n < 2
    · simp only [if_pos few]
      exact inv.move ⟨rfl, rfl, rfl, rfl⟩ rfl trivial fun _ unread => ⟨unread, trivial⟩
    · simp only [if_neg few]
      refine inv.skip ⟨rfl, rfl, rfl, rfl⟩ ⟨rfl, rfl⟩ (fun _ r => ?_) fun _ c => ?_
      · have state := r.positioned
        simp only [Positioned, position] at state
        exact ⟨state, (Nat.not_lt.mp few).trans reported⟩
      · exact absurd (nothing c) (by omega)
  · by_cases none : n = 0
    · simp only [if_pos none]
      exact inv.move ⟨rfl, rfl, rfl, rfl⟩ rfl trivial fun _ unread => ⟨unread, trivial⟩
    · simp only [if_neg none]
      refine inv.skip ⟨rfl, rfl, rfl, rfl⟩ ⟨rfl, rfl⟩ (fun _ r => ?_) fun _ c => ?_
      · have state := r.positioned
        simp only [Positioned, position] at state
        exact ⟨state, Nat.min_le_right _ _, (Nat.min_le_left _ _).trans reported⟩
      · exact absurd (nothing c) none

/-- Whatever `client_.read` delivers, it comes from the front of the unread bytes. -/
theorem PipeInvariant.read {log : List Session} {s t : LoopTask} {result : ReadResult}
    (inv : PipeInvariant log s) (stepped : s.step (.read result) = some t) : PipeInvariant log t := by
  rcases LoopTask.step_read.mp stepped with ⟨hi, lo, rest, position, _, unread, rfl⟩ | ⟨hi, lo, _, _, rfl⟩ |
    ⟨toRead, n, position, _, granted, rfl⟩ | ⟨_, _, _, _, _, rfl⟩
  · have stillOpen := inv.isOpen_of_busy (by simp only [Closing, position, and_false, not_false_eq_true])
    have state := (inv.opened stillOpen).1.positioned
    simp only [Positioned, position] at state
    have consumed : (s.client.consume 2).unread = rest := by
      simp only [NetClient.consume_unread, unread]
      rfl
    have kept := @headerRead_keeps { s with client := s.client.consume 2 } hi lo rest state.1 consumed
    have before : s.held = decodeFrames MAX_FRAME_LEN (hi :: lo :: rest) := by
      simp only [held, state.1, unread]
    refine inv.keep (fun up => ?_) fun down => kept.2 down stillOpen
    obtain ⟨_, after, same⟩ := kept.1 up
    exact ⟨stillOpen, after, same.trans before.symm⟩
  · obtain ⟨stopped, closing⟩ := headerRead_stopped (s := { s with client := .stopped }) rfl
    exact inv.stop stopped closing
  · split_ifs with none
    · exact inv.move ⟨rfl, rfl, rfl, rfl⟩ rfl trivial fun _ unread => ⟨unread, trivial⟩
    · have stillOpen := inv.isOpen_of_busy (by simp only [Closing, position, and_false, not_false_eq_true])
      obtain ⟨receiving, same, isOpen⟩ :=
        payloadRead_keeps (inv.opened stillOpen).1 position granted
      refine inv.keep (fun _ => ⟨stillOpen, receiving, same⟩) fun down => ?_
      rw [isOpen, stillOpen] at down
      contradiction
  · exact inv.stop rfl ⟨rfl, trivial⟩

/-- `ble_.write` accepted the frame at the front of what is held. -/
theorem PipeInvariant.written {log : List Session} {s : LoopTask} {n : ℕ} {data : Bytes}
    (inv : PipeInvariant log s) (position : s.pc = .attempt n)
    (whole : data = s.proxy.rxBuf.take s.proxy.rxLen) :
    PipeInvariant (record log (.bleWrite data true)) (s.attempted n true) := by
  have stillOpen := inv.isOpen_of_busy (by simp only [Closing, position, and_false, not_false_eq_true])
  obtain ⟨receiving, cur, older, rfl, balance⟩ := inv.opened stillOpen
  have state := receiving.positioned
  simp only [Positioned, position] at state
  have complete : s.proxy.rxBuf.length = s.proxy.rxLen := receiving.buffer (by simp [state])
  rw [← complete, List.take_length] at whole
  have remaining : cur.frames =
      (cur.written ++ [data]) ++ decodeFrames MAX_FRAME_LEN s.client.unread := by
    rw [balance, whole]
    simp only [held, state, List.append_assoc, List.singleton_append]
  refine ⟨?_, fun _ => ⟨⟨?_, nofun, rfl⟩, _, older, rfl, remaining⟩, ?_⟩
  · intro session member
    rcases List.mem_cons.mp member with rfl | earlier
    · exact ⟨_, remaining.symm⟩
    · exact inv.delivered session (List.mem_cons_of_mem _ earlier)
  · intro other
    exact absurd rfl other
  · intro down
    exact absurd (stillOpen.symm.trans down) (by decide)

/-- Each event of loopTask or its surroundings keeps the balance of every session. -/
theorem PipeInvariant.step {log : List Session} {s t : LoopTask} {e : Event}
    (inv : PipeInvariant log s) (stepped : s.step e = some t) : PipeInvariant (record log e) t := by
  cases e with
  | peerClose =>
    cases stepped
    exact inv.skip ⟨rfl, rfl, rfl, rfl⟩ ⟨rfl, rfl⟩ (fun _ r => r.positioned) fun _ c => c
  | notify data =>
    cases stepped
    simp only [TcpProxy.notifyCallback]
    split
    · exact inv.skip ⟨rfl, rfl, rfl, rfl⟩ ⟨rfl, rfl⟩ (fun _ r => r.positioned) fun _ c => c
    · exact inv
  | elapse ms =>
    cases stepped
    exact inv.skip ⟨rfl, rfl, rfl, rfl⟩ ⟨rfl, rfl⟩ (fun _ r => r.positioned) fun _ c => c
  | connected =>
    obtain ⟨_, rfl⟩ := LoopTask.step_connected.mp stepped
    split_ifs with up bleOpen
    · refine inv.move ⟨rfl, rfl, rfl, rfl⟩ rfl trivial fun down _ => ?_
      exact absurd (NetClient.isOpen_of_connected up) (by rw [down]; decide)
    · exact inv.move ⟨rfl, rfl, rfl, rfl⟩ rfl trivial fun _ unread => ⟨unread, trivial⟩
    · exact inv.move ⟨rfl, rfl, rfl, rfl⟩ rfl trivial fun _ unread => ⟨unread, trivial⟩
  | disconnectMower =>
    rcases LoopTask.step_disconnectMower.mp stepped with ⟨_, rfl⟩ | ⟨_, rfl⟩
    · exact inv.move ⟨rfl, rfl, rfl, rfl⟩ rfl trivial fun _ unread => ⟨unread, trivial⟩
    · exact inv.stop rfl ⟨rfl, trivial⟩
  | clearQueue =>
    obtain ⟨_, rfl⟩ := LoopTask.step_clearQueue.mp stepped
    simp only [TcpProxy.swapQueue]
    split <;> exact inv.move ⟨rfl, rfl, rfl, rfl⟩ rfl trivial fun _ unread => ⟨unread, trivial⟩
  | accept incoming =>
    obtain ⟨_, ⟨rfl, rfl⟩ | ⟨stream, rfl, rfl⟩⟩ := LoopTask.step_accept.mp stepped
    · exact inv.move ⟨rfl, rfl, rfl, rfl⟩ rfl trivial fun _ unread => ⟨unread, trivial⟩
    · refine ⟨?_, fun _ => ⟨⟨nofun, nofun, trivial⟩, ⟨stream, []⟩, log, rfl, rfl⟩, nofun⟩
      intro session member
      rcases List.mem_cons.mp member with rfl | earlier
      · exact List.nil_prefix
      · exact inv.delivered session earlier
  | connectMower ok =>
    obtain ⟨_, rfl⟩ := LoopTask.step_connectMower.mp stepped
    cases ok <;>
      exact inv.move ⟨rfl, rfl, rfl, rfl⟩ rfl trivial fun _ unread => ⟨unread, trivial⟩
  | idleCheck =>
    obtain ⟨position, rfl⟩ := LoopTask.step_idleCheck.mp stepped
    split_ifs
    · exact inv.stop rfl ⟨rfl, trivial⟩
    · have stillOpen := inv.isOpen_of_busy (by simp only [Closing, position, and_false, not_false_eq_true])
      obtain ⟨receiving, same, client⟩ := pollSocket_keeps (inv.opened stillOpen).1
      refine inv.keep (fun _ => ⟨stillOpen, receiving, same⟩) fun down => ?_
      rw [client, stillOpen] at down
      contradiction
  | available n => exact inv.available stepped
  | read result => exact inv.read stepped
  | bleConnected up =>
    obtain ⟨position, rfl⟩ := LoopTask.step_bleConnected.mp stepped
    split_ifs with up
    · refine inv.skip ⟨rfl, rfl, rfl, rfl⟩ ⟨rfl, rfl⟩ (fun _ r => ?_) fun _ c => ?_
      · have := r.positioned
        simp only [Positioned, position] at this
        exact this
      · simp only [Closing, position, and_false] at c
    · exact inv.stop rfl ⟨rfl, trivial⟩
  | bleWrite data ok =>
    obtain ⟨n, position, whole, rfl⟩ := LoopTask.step_bleWrite.mp stepped
    cases ok with
    | true => exact inv.written position whole
    | false =>
      have state : s.client.isOpen = true → s.Receiving → s.proxy.rxState = .writePending := by
        intro _ r
        have := r.positioned
        simpa only [Positioned, position] using this
      have notClosing : s.client.isOpen = false → s.Closing → False := by
        intro _ c
        simp only [Closing, position, and_false] at c
      simp only [LoopTask.attempted, Bool.false_eq_true, if_false]
      split_ifs
      · exact inv.skip ⟨rfl, rfl, rfl, rfl⟩ ⟨rfl, rfl⟩ state fun down c =>
          (notClosing down c).elim
      · simp only [TcpProxy.burstFailed]
        split <;>
          exact inv.move ⟨rfl, rfl, rfl, rfl⟩ rfl trivial fun _ unread => ⟨unread, trivial⟩
  | drain =>
    obtain ⟨_, rfl⟩ := LoopTask.step_drain.mp stepped
    simp only [LoopTask.drainStep]
    split
    · split <;> exact inv.move ⟨rfl, rfl, rfl, rfl⟩ rfl trivial fun _ unread => ⟨unread, trivial⟩
    · exact inv.move ⟨rfl, rfl, rfl, rfl⟩ rfl trivial fun _ unread => ⟨unread, trivial⟩
  | clientWrite data accepted gaveUp =>
    obtain ⟨_, _, ⟨_, _, rfl⟩ | ⟨_, _, rfl⟩⟩ := LoopTask.step_clientWrite.mp stepped
    all_goals
      cases gaveUp
      · exact inv.move ⟨rfl, rfl, rfl, rfl⟩ rfl trivial fun _ unread => ⟨unread, trivial⟩
      · exact inv.stop rfl ⟨rfl, trivial⟩

theorem pipeInvariant_init (mutex : Bool) : PipeInvariant [] (.init mutex) :=
  ⟨nofun, nofun, fun _ => ⟨rfl, trivial⟩⟩

/-- In every run each session's accepted payloads are a prefix of the reference decoding of its own
stream, and while the socket is open the rest of that decoding is still held. -/
theorem pipe_lossless (mutex : Bool) (es : List Event) (s : LoopTask)
    (ran : run LoopTask.step (.init mutex) es = some s) :
    (∀ session ∈ sessions es, session.written <+: session.frames) ∧
      (s.client.isOpen = true →
        ∃ cur older, sessions es = cur :: older ∧ cur.frames = cur.written ++ s.held) := by
  have inv : PipeInvariant (sessions es) s := by
    refine run_invariant (I := fun es s => PipeInvariant (sessions es) s) ?_ ?_ ran
    · exact pipeInvariant_init mutex
    · intro es t e u inv stepped
      rw [sessions_concat]
      exact inv.step stepped
  exact ⟨inv.delivered, fun up => (inv.opened up).2⟩

/-- A frame that arrives in two pieces and is refused once by the BLE stack. -/
def splitFrameTape : List Event :=
  [.connected, .accept (some [0, 2, 7, 8, 0, 1, 9]), .connectMower true, .connected, .idleCheck,
    .available 3, .read (.got 2), .available 1, .read (.got 1), .drain, .connected, .idleCheck,
    .available 4, .read (.got 1), .bleConnected true, .bleWrite [7, 8] false, .bleWrite [7, 8] true]

theorem pipe_lossless_splitFrame :
    ∃ s, run LoopTask.step (.init true) splitFrameTape = some s ∧
      sessions splitFrameTape = [⟨[0, 2, 7, 8, 0, 1, 9], [[7, 8]]⟩] ∧
      (∀ session ∈ sessions splitFrameTape, session.written <+: session.frames) ∧
      (s.client.isOpen = true → ∃ cur older, sessions splitFrameTape = cur :: older ∧
        cur.frames = cur.written ++ s.held) := by
  obtain ⟨s, ran⟩ := Option.isSome_iff_exists.mp
    (by decide : (run LoopTask.step (.init true) splitFrameTape).isSome = true)
  exact ⟨s, ran, by decide, pipe_lossless true splitFrameTape s ran⟩

end MammotionRc.Firmware
