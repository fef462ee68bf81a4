import MammotionRc.Firmware.TcpProxy

/-! # What one step of loopTask can do

`LoopEffect` is the complete inversion of `LoopTask.step` as far as the session, the BLE link and the
notifications are concerned; what `poll_socket_` does to the receive state is left out. The invariants of
sessions, of BLE ownership and of the downlink are proved from it.
-/

namespace MammotionRc.Firmware

open Framing Machine

/-- The positions of the idle check and of `poll_socket_`. -/
def Pc.Polling : Pc → Prop
  | .idleCheck | .pollLen | .readLen | .pollData | .readData _ | .bleConnected | .attempt _ => True
  | .connected | .disconnectMower | .clearQueue | .accept | .connectMower | .abandonMower | .drain
  | .writeHeader _ | .writePayload _ => False

/-- The positions of `send_frame_`. -/
def Pc.Sending : Pc → Prop
  | .writeHeader _ | .writePayload _ => True
  | .connected | .disconnectMower | .clearQueue | .accept | .connectMower | .abandonMower | .drain
  | .idleCheck | .pollLen | .readLen | .pollData | .readData _ | .bleConnected | .attempt _ => False

theorem Pc.Polling.not_sending {pc : Pc} (polling : pc.Polling) : ¬ pc.Sending := by
  cases pc <;> first | exact id | exact polling.elim

/-- The events that answer a call of the idle check or of `poll_socket_`. -/
def Event.polls : Event → Bool
  | .idleCheck | .available _ | .read _ | .bleConnected _ | .bleWrite _ _ => true
  | .peerClose | .notify _ | .elapse _ | .connected | .disconnectMower | .clearQueue | .accept _
  | .connectMower _ | .drain | .clientWrite _ _ _ => false

namespace LoopTask

/-- `poll_socket_` goes on, or it returns; it may have stopped the client. -/
structure Polls (s t : LoopTask) : Prop where
  pc : t.pc.Polling ∨ t.pc = .drain ∨ t.pc = .connected ∧ t.client = .stopped
  bleOpen : t.proxy.bleOpen = s.proxy.bleOpen
  notifyMutex : t.proxy.notifyMutex = s.proxy.notifyMutex
  notifyQueue : t.proxy.notifyQueue = s.proxy.notifyQueue
  client : t.client = .stopped ∨ t.client.isOpen = s.client.isOpen ∧ t.client.peerGone = s.client.peerGone

inductive LoopEffect (s : LoopTask) : Event → LoopTask → Prop
  | peerClose : LoopEffect s .peerClose { s with client.peerGone := true }
  | notify (data : Bytes) : LoopEffect s (.notify data) { s with proxy := s.proxy.notifyCallback data }
  | elapse (ms : ℕ) : LoopEffect s (.elapse ms) { s with clock := s.clock + ms }
  | serving (was : s.pc = .connected) (up : s.client.connected = true) :
      LoopEffect s .connected { s with pc := .idleCheck }
  | gone (was : s.pc = .connected) (down : s.client.connected = false) (bleOpen : s.proxy.bleOpen = true) :
      LoopEffect s .connected { s with pc := .disconnectMower }
  | vacant (was : s.pc = .connected) (down : s.client.connected = false) (bleOpen : s.proxy.bleOpen = false) :
      LoopEffect s .connected { s with pc := .accept }
  | tornDown (was : s.pc = .disconnectMower) :
      LoopEffect s .disconnectMower { s with proxy.bleOpen := false, pc := .clearQueue }
  | abandoned (was : s.pc = .abandonMower) :
      LoopEffect s .disconnectMower { s with proxy.bleOpen := false, client := .stopped, pc := .connected }
  | cleared (was : s.pc = .clearQueue) :
      LoopEffect s .clearQueue { s with proxy := s.proxy.swapQueue, pc := .accept }
  | noClient (was : s.pc = .accept) : LoopEffect s (.accept none) { s with pc := .connected }
  | accepted (was : s.pc = .accept) (stream : Bytes) :
      LoopEffect s (.accept (some stream))
        { s with
          client := .accepted stream, proxy := s.proxy.onClientConnected s.millis, pc := .connectMower }
  | opened (was : s.pc = .connectMower) : LoopEffect s (.connectMower true) { s with pc := .connected }
  | openFailed (was : s.pc = .connectMower) :
      LoopEffect s (.connectMower false) { s with pc := .abandonMower }
  | poll {e : Event} {t : LoopTask} (was : s.pc.Polling) (event : e.polls = true) (polls : s.Polls t) :
      LoopEffect s e t
  | drains {frame : Bytes} {rest : List Bytes} (was : s.pc = .drain) (mutex : s.proxy.notifyMutex = true)
      (queue : s.proxy.notifyQueue = frame :: rest) :
      LoopEffect s .drain { s with
        proxy.notifyQueue := rest, pc := if s.client.connected then .writeHeader frame else .drain }
  | drained (was : s.pc = .drain) (empty : s.proxy.notifyMutex = true → s.proxy.notifyQueue = []) :
      LoopEffect s .drain { s with pc := .connected }
  | header {frame : Bytes} {accepted : ℕ} (gaveUp : Bool) (was : s.pc = .writeHeader frame)
      (may : s.client.mayAccept (frameHeader frame) accepted) :
      LoopEffect s (.clientWrite (frameHeader frame) accepted gaveUp)
        (s.clientWritten gaveUp (.writePayload frame))
  | payload {frame : Bytes} {accepted : ℕ} (gaveUp : Bool) (was : s.pc = .writePayload frame)
      (may : s.client.mayAccept frame accepted) :
      LoopEffect s (.clientWrite frame accepted gaveUp) (s.clientWritten gaveUp .drain)

variable {s t : LoopTask} {e : Event}

theorem Polls.moved {pc : Pc} (at_ : pc.Polling ∨ pc = .drain) : s.Polls { s with pc := pc } :=
  ⟨at_.imp_right .inl, rfl, rfl, rfl, .inr ⟨rfl, rfl⟩⟩

theorem Polls.stopped {pc : Pc} (at_ : pc = .drain ∨ pc = .connected) :
    s.Polls { s with client := .stopped, pc := pc } :=
  ⟨.inr (at_.imp_right fun same => ⟨same, rfl⟩), rfl, rfl, rfl, .inl rfl⟩

/-- A step that leaves the notifications, the link and the client's session as they are. -/
theorem Polls.of_eq {u : LoopTask} (polls : u.Polls t) (bleOpen : u.proxy.bleOpen = s.proxy.bleOpen)
    (notifyMutex : u.proxy.notifyMutex = s.proxy.notifyMutex)
    (notifyQueue : u.proxy.notifyQueue = s.proxy.notifyQueue)
    (client : u.client = .stopped ∨ u.client.isOpen = s.client.isOpen ∧ u.client.peerGone = s.client.peerGone)
    (closed : u.client = .stopped → t.client = .stopped) : s.Polls t := by
  refine ⟨polls.pc, polls.bleOpen.trans bleOpen, polls.notifyMutex.trans notifyMutex,
    polls.notifyQueue.trans notifyQueue, ?_⟩
  rcases polls.client with stopped | ⟨isOpen, peerGone⟩
  · exact .inl stopped
  · rcases client with stopped | ⟨isOpen', peerGone'⟩
    · exact .inl (closed stopped)
    · exact .inr ⟨isOpen.trans isOpen', peerGone.trans peerGone'⟩

theorem Polls.not_sending (polls : s.Polls t) : ¬ t.pc.Sending := by
  rcases polls.pc with at_ | at_ | ⟨at_, _⟩
  · exact at_.not_sending
  · rw [at_]; exact id
  · rw [at_]; exact id

theorem Polls.connected (polls : s.Polls t) (up : t.client.connected = true) : s.client.connected = true := by
  rcases polls.client with stopped | ⟨isOpen, peerGone⟩
  · rw [stopped] at up
    cases up
  · simpa only [NetClient.connected, isOpen, peerGone] using up

theorem enterReadData_polls (s : LoopTask) :
    s.Polls s.enterReadData ∧ s.enterReadData.client = s.client := by
  rw [enterReadData]
  split
  · exact ⟨.moved (.inl trivial), rfl⟩
  · exact ⟨⟨.inl trivial, rfl, rfl, rfl, .inr ⟨rfl, rfl⟩⟩, rfl⟩

theorem pollSocket_polls (s : LoopTask) : s.Polls s.pollSocket := by
  rw [pollSocket]
  split
  · exact .moved (.inl trivial)
  · exact s.enterReadData_polls.1
  · exact .moved (.inl trivial)

theorem headerRead_polls (s : LoopTask) (hi lo : UInt8) (u : LoopTask)
    (same : u.proxy = s.proxy)
    (client : u.client = .stopped ∨ u.client.isOpen = s.client.isOpen ∧ u.client.peerGone = s.client.peerGone) :
    s.Polls (u.headerRead hi lo) := by
  rw [headerRead]
  split_ifs
  · exact ⟨.inl trivial, by rw [← same], by rw [← same], by rw [← same], client⟩
  · exact ⟨.inr (.inl rfl), by rw [← same], by rw [← same], by rw [← same], .inl rfl⟩
  · obtain ⟨polls, kept⟩ := enterReadData_polls
      { u with proxy := TcpProxy.beginFrame { u.proxy with rxLen := headerLength hi lo } }
    exact polls.of_eq (by rw [← same]; rfl) (by rw [← same]; rfl) (by rw [← same]; rfl) client
      fun stopped => kept.trans stopped

theorem payloadRead_polls (s : LoopTask) (n : ℕ) : s.Polls (s.payloadRead n) := by
  rw [payloadRead]
  split_ifs
  · exact ⟨.inr (.inl rfl), rfl, rfl, rfl, .inr ⟨rfl, rfl⟩⟩
  · exact ⟨.inl trivial, rfl, rfl, rfl, .inr ⟨rfl, rfl⟩⟩

theorem attempted_polls (s : LoopTask) (n : ℕ) (ok : Bool) : s.Polls (s.attempted n ok) := by
  simp only [attempted, TcpProxy.burstFailed]
  split_ifs
  · exact ⟨.inl trivial, rfl, rfl, rfl, .inr ⟨rfl, rfl⟩⟩
  · exact ⟨.inl trivial, rfl, rfl, rfl, .inr ⟨rfl, rfl⟩⟩
  · exact ⟨.inr (.inl rfl), rfl, rfl, rfl, .inr ⟨rfl, rfl⟩⟩
  · exact ⟨.inr (.inl rfl), rfl, rfl, rfl, .inr ⟨rfl, rfl⟩⟩

theorem step_effect (stepped : s.step e = some t) : LoopEffect s e t := by
  cases e with
  | peerClose => cases stepped; exact .peerClose
  | notify data => cases stepped; exact .notify data
  | elapse ms => cases stepped; exact .elapse ms
  | connected =>
    obtain ⟨was, rfl⟩ := step_connected.mp stepped
    split_ifs with up bleOpen
    · exact .serving was up
    · exact .gone was (Bool.eq_false_iff.mpr up) bleOpen
    · exact .vacant was (Bool.eq_false_iff.mpr up) (Bool.eq_false_iff.mpr bleOpen)
  | disconnectMower =>
    rcases step_disconnectMower.mp stepped with ⟨was, rfl⟩ | ⟨was, rfl⟩
    · exact .tornDown was
    · exact .abandoned was
  | clearQueue =>
    obtain ⟨was, rfl⟩ := step_clearQueue.mp stepped
    exact .cleared was
  | accept incoming =>
    obtain ⟨was, ⟨rfl, rfl⟩ | ⟨stream, rfl, rfl⟩⟩ := step_accept.mp stepped
    · exact .noClient was
    · exact .accepted was stream
  | connectMower ok =>
    obtain ⟨was, rfl⟩ := step_connectMower.mp stepped
    cases ok with
    | true => exact .opened was
    | false => exact .openFailed was
  | idleCheck =>
    obtain ⟨was, rfl⟩ := step_idleCheck.mp stepped
    have at_ : s.pc.Polling := by rw [was]; trivial
    split_ifs
    · exact .poll at_ rfl (.stopped (.inr rfl))
    · exact .poll at_ rfl s.pollSocket_polls
  | available n =>
    obtain ⟨_, ⟨was, rfl⟩ | ⟨was, rfl⟩⟩ := step_available.mp stepped
    · exact .poll (by rw [was]; trivial) rfl (.moved (by split <;> simp [Pc.Polling]))
    · exact .poll (by rw [was]; trivial) rfl (.moved (by split <;> simp [Pc.Polling]))
  | read result =>
    rcases step_read.mp stepped with ⟨hi, lo, rest, was, _, _, rfl⟩ | ⟨hi, lo, was, _, rfl⟩ |
      ⟨toRead, n, was, _, _, rfl⟩ | ⟨toRead, hi, lo, was, _, rfl⟩
    · exact .poll (by rw [was]; trivial) rfl (headerRead_polls s _ _ _ rfl (.inr ⟨rfl, rfl⟩))
    · exact .poll (by rw [was]; trivial) rfl (headerRead_polls s _ _ _ rfl (.inl rfl))
    · have at_ : s.pc.Polling := by rw [was]; trivial
      split_ifs
      · exact .poll at_ rfl (.moved (.inr rfl))
      · exact .poll at_ rfl (s.payloadRead_polls _)
    · exact .poll (by rw [was]; trivial) rfl (.stopped (.inl rfl))
  | bleConnected up =>
    obtain ⟨was, rfl⟩ := step_bleConnected.mp stepped
    have at_ : s.pc.Polling := by rw [was]; trivial
    split_ifs
    · exact .poll at_ rfl (.moved (.inl trivial))
    · exact .poll at_ rfl (.stopped (.inl rfl))
  | bleWrite data ok =>
    obtain ⟨n, was, _, rfl⟩ := step_bleWrite.mp stepped
    exact .poll (by rw [was]; trivial) rfl (s.attempted_polls n ok)
  | drain =>
    obtain ⟨was, rfl⟩ := step_drain.mp stepped
    simp only [drainStep]
    split
    · next mutex queue => exact .drains was mutex queue
    · next none_ =>
      refine .drained was fun mutex => ?_
      cases queue : s.proxy.notifyQueue with
      | nil => rfl
      | cons frame rest => exact absurd queue (none_ frame rest mutex)
  | clientWrite data accepted gaveUp =>
    obtain ⟨may, frame, ⟨was, rfl, rfl⟩ | ⟨was, rfl, rfl⟩⟩ := step_clientWrite.mp stepped
    · exact .header gaveUp was may
    · exact .payload gaveUp was may

end LoopTask

end MammotionRc.Firmware
