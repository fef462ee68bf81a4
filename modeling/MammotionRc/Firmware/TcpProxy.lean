import MammotionRc.Firmware.Config
import MammotionRc.Firmware.NetClient
import MammotionRc.Machine.Run

/-! # `TcpProxy` as a machine of loopTask and its surroundings

loopTask calls `TcpProxy::loop()` over and over. A position `Pc` names the call into the socket, the
BLE link or the clock that it makes next; the event answering the call says what the call returned,
and the step runs the source up to the following call. Between two calls the peer may close, the
NimBLE host task may push a notification and time may pass. Frame bytes handed to `ble_.write` and to
`client_.write` are part of the events, so a tape records everything that crosses either link.
-/

namespace MammotionRc.Firmware

open Framing Machine

/-- What `poll_socket_` is waiting for. -/
inductive RxState
  | waitLen
  | readData
  | writePending
deriving DecidableEq, Repr

/-- The data members of `TcpProxy` other than `ble_`, `server_` and `client_`. -/
structure TcpProxy where
  bleOpen : Bool
  rxState : RxState
  rxLen : ℕ
  rxHave : ℕ
  rxBuf : Bytes
  lastRxMs : UInt32
  writePendingSinceMs : UInt32
  writeStalled : Bool
  /-- `xSemaphoreCreateMutex` returned a mutex. -/
  notifyMutex : Bool
  notifyQueue : List Bytes
deriving DecidableEq, Repr

/-- The call that loopTask makes next. -/
inductive Pc
  /-- `loop`: `client_.connected()`. -/
  | connected
  /-- `on_client_disconnected_`: `ble_.disconnect_mower()`. -/
  | disconnectMower
  /-- `on_client_disconnected_`: the swap under `notify_mutex_`. -/
  | clearQueue
  /-- `loop`: `server_.accept()`. -/
  | accept
  /-- `on_client_connected_`: `ble_.connect_mower()`. -/
  | connectMower
  /-- `on_client_connected_`: `ble_.disconnect_mower()` after a failed connect. -/
  | abandonMower
  /-- `loop`: the idle watchdog. -/
  | idleCheck
  /-- `poll_socket_`: `client_.available()` in `WAIT_LEN`. -/
  | pollLen
  /-- `poll_socket_`: `client_.read(hdr, 2)`. -/
  | readLen
  /-- `poll_socket_`: `client_.available()` in `READ_DATA`. -/
  | pollData
  /-- `poll_socket_`: `client_.read(rx_buf_.data() + rx_have_, to_read)`. -/
  | readData (toRead : ℕ)
  /-- `try_write_pending_`: `ble_.is_connected()`. -/
  | bleConnected
  /-- `try_write_pending_`: the `ble_.write` of this attempt. -/
  | attempt (n : ℕ)
  /-- `drain_notify_queue_`: the head of its loop. -/
  | drain
  /-- `send_frame_`: `client_.write(hdr, 2)`. -/
  | writeHeader (frame : Bytes)
  /-- `send_frame_`: `client_.write(data, len)`. -/
  | writePayload (frame : Bytes)
deriving DecidableEq, Repr

/-- loopTask, its socket and the clock; `clock` counts milliseconds without wrapping. -/
structure LoopTask where
  proxy : TcpProxy
  client : NetClient
  pc : Pc
  clock : ℕ
deriving DecidableEq, Repr

inductive Event
  /-- The peer closes or resets the connection. -/
  | peerClose
  /-- The NimBLE host task runs the notify callback. -/
  | notify (data : Bytes)
  /-- Time passes. -/
  | elapse (ms : ℕ)
  | connected
  | disconnectMower
  | clearQueue
  /-- `server_.accept()` returns nothing, or a peer that will send `stream`. -/
  | accept (incoming : Option Bytes)
  | connectMower (ok : Bool)
  | idleCheck
  | available (n : ℕ)
  | read (result : ReadResult)
  | bleConnected (up : Bool)
  | bleWrite (data : Bytes) (ok : Bool)
  | drain
  /-- `client_.write` accepts a prefix of the bytes and may give the socket up. -/
  | clientWrite (data : Bytes) (accepted : ℕ) (gaveUp : Bool)
deriving DecidableEq, Repr

namespace TcpProxy

/-- The members as the constructor leaves them. -/
def init (mutex : Bool) : TcpProxy :=
  { bleOpen := false, rxState := .waitLen, rxLen := 0, rxHave := 0, rxBuf := [], lastRxMs := 0,
    writePendingSinceMs := 0, writeStalled := false, notifyMutex := mutex, notifyQueue := [] }

/-- `on_client_connected_` up to the call of `ble_.connect_mower()`. -/
def onClientConnected (p : TcpProxy) (millis : UInt32) : TcpProxy :=
  { p with
    rxState := .waitLen, rxLen := 0, rxHave := 0, rxBuf := [], writeStalled := false
    lastRxMs := millis, bleOpen := true }

/-- The callback that the constructor registers with `ble_.set_notify_callback`. -/
def notifyCallback (p : TcpProxy) (data : Bytes) : TcpProxy :=
  if p.notifyMutex then { p with notifyQueue := p.notifyQueue ++ [data] } else p

/-- `on_client_disconnected_` after `ble_open_ = false`. -/
def swapQueue (p : TcpProxy) : TcpProxy :=
  if p.notifyMutex then { p with notifyQueue := [] } else p

/-- `poll_socket_` once a length between 1 and `MAX_FRAME_LEN` is known. -/
def beginFrame (p : TcpProxy) : TcpProxy :=
  { p with rxBuf := List.replicate p.rxLen 0, rxHave := 0, rxState := .readData }

/-- `poll_socket_` copies received bytes into `rx_buf_` at `rx_have_`. -/
def storeBytes (p : TcpProxy) (bytes : Bytes) : TcpProxy :=
  { p with
    rxBuf := p.rxBuf.take p.rxHave ++ bytes ++ p.rxBuf.drop (p.rxHave + bytes.length)
    rxHave := p.rxHave + bytes.length }

/-- `poll_socket_` hands a full frame to the BLE writer. -/
def frameReady (p : TcpProxy) (millis : UInt32) : TcpProxy :=
  { p with rxState := .writePending, writePendingSinceMs := millis }

/-- `poll_socket_` after `try_write_pending_` returned true. -/
def frameWritten (p : TcpProxy) (millis : UInt32) : TcpProxy :=
  { p with
    writeStalled := false, lastRxMs := millis, rxState := .waitLen, rxLen := 0, rxHave := 0 }

/-- `try_write_pending_` after a burst that failed throughout. -/
def burstFailed (p : TcpProxy) (millis : UInt32) : TcpProxy :=
  if !p.writeStalled && decide (BLE_WRITE_STALL_LOG_MS < millis - p.writePendingSinceMs) then
    { p with writeStalled := true }
  else p

end TcpProxy

namespace LoopTask

def init (mutex : Bool) : LoopTask := ⟨.init mutex, .stopped, .connected, 0⟩

/-- `millis()`. -/
def millis (s : LoopTask) : UInt32 := UInt32.ofNat s.clock

/-- `poll_socket_` in `READ_DATA`, down to its next call. -/
def enterReadData (s : LoopTask) : LoopTask :=
  if s.proxy.rxHave < s.proxy.rxLen then { s with pc := .pollData }
  else { s with proxy := s.proxy.frameReady s.millis, pc := .bleConnected }

/-- `poll_socket_` from the head of its loop, down to its next call. -/
def pollSocket (s : LoopTask) : LoopTask :=
  match s.proxy.rxState with
  | .waitLen => { s with pc := .pollLen }
  | .readData => s.enterReadData
  | .writePending => { s with pc := .bleConnected }

/-- `poll_socket_` after `client_.read(hdr, 2)` left `hi`, `lo` in the header buffer. -/
def headerRead (s : LoopTask) (hi lo : UInt8) : LoopTask :=
  let t := { s with proxy.rxLen := headerLength hi lo }
  if t.proxy.rxLen = 0 then { t with pc := .pollLen }
  else if MAX_FRAME_LEN < t.proxy.rxLen then { t with client := .stopped, pc := .drain }
  else { t with proxy := t.proxy.beginFrame }.enterReadData

/-- `poll_socket_` after `client_.read` delivered part of a payload. -/
def payloadRead (s : LoopTask) (n : ℕ) : LoopTask :=
  let t := { s with
    proxy := s.proxy.storeBytes (s.client.unread.take n), client := s.client.consume n }
  if t.proxy.rxHave < t.proxy.rxLen then { t with pc := .drain }
  else { t with proxy := t.proxy.frameReady t.millis, pc := .bleConnected }

/-- `try_write_pending_` after the answer to attempt `n`. -/
def attempted (s : LoopTask) (n : ℕ) (ok : Bool) : LoopTask :=
  if ok then { s with proxy := s.proxy.frameWritten s.millis, pc := .pollLen }
  else
    let t := { s with clock := s.clock + BLE_WRITE_RETRY_DELAY_MS }
    if n + 1 < BLE_WRITE_RETRY_BURST then { t with pc := .attempt (n + 1) }
    else { t with proxy := t.proxy.burstFailed t.millis, pc := .drain }

/-- `drain_notify_queue_` takes the front frame and `send_frame_` looks at the socket. -/
def drainStep (s : LoopTask) : LoopTask :=
  match s.proxy.notifyMutex, s.proxy.notifyQueue with
  | true, frame :: rest =>
    { s with
      proxy.notifyQueue := rest
      pc := if s.client.connected then .writeHeader frame else .drain }
  | _, _ => { s with pc := .connected }

/-- The two bytes that `send_frame_` puts in front of a payload. -/
def frameHeader (frame : Bytes) : Bytes :=
  [UInt8.ofNat (frame.length >>> 8), UInt8.ofNat frame.length]

/-- `client_.write` returned. -/
def clientWritten (s : LoopTask) (gaveUp : Bool) (next : Pc) : LoopTask :=
  { s with client := if gaveUp then .stopped else s.client, pc := next }

/-- One event of loopTask or of its surroundings; `none` when loopTask is not at that call. -/
def step (s : LoopTask) : Event → Option LoopTask
  | .peerClose => some { s with client.peerGone := true }
  | .notify data => some { s with proxy := s.proxy.notifyCallback data }
  | .elapse ms => some { s with clock := s.clock + ms }
  | .connected =>
    match s.pc with
    | .connected =>
      if s.client.connected then some { s with pc := .idleCheck }
      else if s.proxy.bleOpen then some { s with pc := .disconnectMower }
      else some { s with pc := .accept }
    | _ => none
  | .disconnectMower =>
    match s.pc with
    | .disconnectMower => some { s with proxy.bleOpen := false, pc := .clearQueue }
    | .abandonMower =>
      some { s with proxy.bleOpen := false, client := .stopped, pc := .connected }
    | _ => none
  | .clearQueue =>
    match s.pc with
    | .clearQueue => some { s with proxy := s.proxy.swapQueue, pc := .accept }
    | _ => none
  | .accept incoming =>
    match s.pc, incoming with
    | .accept, none => some { s with pc := .connected }
    | .accept, some stream =>
      some { s with
        client := .accepted stream, proxy := s.proxy.onClientConnected s.millis
        pc := .connectMower }
    | _, _ => none
  | .connectMower ok =>
    match s.pc with
    | .connectMower => some { s with pc := if ok then .connected else .abandonMower }
    | _ => none
  | .idleCheck =>
    match s.pc with
    | .idleCheck =>
      if CLIENT_IDLE_TIMEOUT_MS < s.millis - s.proxy.lastRxMs then
        some { s with client := .stopped, pc := .connected }
      else some s.pollSocket
    | _ => none
  | .available n =>
    if s.client.mayReport n then
      match s.pc with
      | .pollLen => some { s with pc := if n < 2 then .drain else .readLen }
      | .pollData =>
        some { s with
          pc := if n = 0 then .drain else .readData (min n (s.proxy.rxLen - s.proxy.rxHave)) }
      | _ => none
    else none
  | .read result =>
    match s.pc, result with
    | .readLen, .got 2 =>
      match s.client.unread with
      | hi :: lo :: _ => some ({ s with client := s.client.consume 2 }.headerRead hi lo)
      | _ => none
    | .readLen, .failed hi lo => some ({ s with client := .stopped }.headerRead hi lo)
    | .readData toRead, .got n =>
      if n ≤ toRead then
        if n = 0 then some { s with pc := .drain } else some (s.payloadRead n)
      else none
    | .readData _, .failed _ _ => some { s with client := .stopped, pc := .drain }
    | _, _ => none
  | .bleConnected up =>
    match s.pc with
    | .bleConnected =>
      if up then some { s with pc := .attempt 0 }
      else some { s with client := .stopped, pc := .drain }
    | _ => none
  | .bleWrite data ok =>
    match s.pc with
    | .attempt n =>
      if data = s.proxy.rxBuf.take s.proxy.rxLen then some (s.attempted n ok) else none
    | _ => none
  | .drain =>
    match s.pc with
    | .drain => some s.drainStep
    | _ => none
  | .clientWrite data accepted gaveUp =>
    if s.client.mayAccept data accepted then
      match s.pc with
      | .writeHeader frame =>
        if data = frameHeader frame then some (s.clientWritten gaveUp (.writePayload frame))
        else none
      | .writePayload frame =>
        if data = frame then some (s.clientWritten gaveUp .drain) else none
      | _ => none
    else none

/-! ## When an event can happen -/

variable {s t : LoopTask}

attribute [local simp] step

theorem step_connected : s.step .connected = some t ↔
    s.pc = .connected ∧
      (if s.client.connected then { s with pc := .idleCheck }
        else if s.proxy.bleOpen then { s with pc := .disconnectMower }
        else { s with pc := .accept }) = t := by
  cases at_ : s.pc <;> simp [at_, ← apply_ite some]

theorem step_disconnectMower : s.step .disconnectMower = some t ↔
    s.pc = .disconnectMower ∧ { s with proxy.bleOpen := false, pc := .clearQueue } = t ∨
      s.pc = .abandonMower ∧ { s with proxy.bleOpen := false, client := .stopped, pc := .connected } = t := by
  cases at_ : s.pc <;> simp [at_]

theorem step_clearQueue : s.step .clearQueue = some t ↔
    s.pc = .clearQueue ∧ { s with proxy := s.proxy.swapQueue, pc := .accept } = t := by
  cases at_ : s.pc <;> simp [at_]

theorem step_accept {incoming : Option Bytes} : s.step (.accept incoming) = some t ↔
    s.pc = .accept ∧
      (incoming = none ∧ { s with pc := .connected } = t ∨ ∃ stream, incoming = some stream ∧
        { s with
          client := .accepted stream, proxy := s.proxy.onClientConnected s.millis, pc := .connectMower } = t) := by
  cases at_ : s.pc <;> cases incoming <;> simp [at_]

theorem step_connectMower {ok : Bool} : s.step (.connectMower ok) = some t ↔
    s.pc = .connectMower ∧ { s with pc := if ok then .connected else .abandonMower } = t := by
  cases at_ : s.pc <;> simp [at_]

theorem step_idleCheck : s.step .idleCheck = some t ↔
    s.pc = .idleCheck ∧
      (if CLIENT_IDLE_TIMEOUT_MS < s.millis - s.proxy.lastRxMs then { s with client := .stopped, pc := .connected }
        else s.pollSocket) = t := by
  cases at_ : s.pc <;> simp [at_, ← apply_ite some]

theorem step_available {n : ℕ} : s.step (.available n) = some t ↔
    s.client.mayReport n ∧
      (s.pc = .pollLen ∧ { s with pc := if n < 2 then .drain else .readLen } = t ∨
        s.pc = .pollData ∧
          { s with pc := if n = 0 then .drain else .readData (min n (s.proxy.rxLen - s.proxy.rxHave)) } = t) := by
  cases at_ : s.pc <;> simp [at_]

theorem step_read {result : ReadResult} : s.step (.read result) = some t ↔
    (∃ hi lo rest, s.pc = .readLen ∧ result = .got 2 ∧ s.client.unread = hi :: lo :: rest ∧
      { s with client := s.client.consume 2 }.headerRead hi lo = t) ∨
    (∃ hi lo, s.pc = .readLen ∧ result = .failed hi lo ∧ { s with client := .stopped }.headerRead hi lo = t) ∨
    (∃ toRead n, s.pc = .readData toRead ∧ result = .got n ∧ n ≤ toRead ∧
      (if n = 0 then { s with pc := .drain } else s.payloadRead n) = t) ∨
    ∃ toRead hi lo, s.pc = .readData toRead ∧ result = .failed hi lo ∧
      { s with client := .stopped, pc := .drain } = t := by
  simp only [step]
  split
  · next at_ => rcases s.client.unread with _ | ⟨hi, _ | ⟨lo, rest⟩⟩ <;> simp [at_]
  · next at_ => simp [at_]
  · next at_ => simp [at_, ← apply_ite some]
  · next at_ => simp [at_]
  · simp_all

theorem step_bleConnected {up : Bool} : s.step (.bleConnected up) = some t ↔
    s.pc = .bleConnected ∧
      (if up then { s with pc := .attempt 0 } else { s with client := .stopped, pc := .drain }) = t := by
  cases at_ : s.pc <;> simp [at_, ← apply_ite some]

theorem step_bleWrite {data : Bytes} {ok : Bool} : s.step (.bleWrite data ok) = some t ↔
    ∃ n, s.pc = .attempt n ∧ data = s.proxy.rxBuf.take s.proxy.rxLen ∧ s.attempted n ok = t := by
  cases at_ : s.pc <;> simp [at_]

theorem step_drain : s.step .drain = some t ↔ s.pc = .drain ∧ s.drainStep = t := by
  cases at_ : s.pc <;> simp [at_]

theorem step_clientWrite {data : Bytes} {accepted : ℕ} {gaveUp : Bool} :
    s.step (.clientWrite data accepted gaveUp) = some t ↔
      s.client.mayAccept data accepted ∧ ∃ frame,
        (s.pc = .writeHeader frame ∧ data = frameHeader frame ∧ s.clientWritten gaveUp (.writePayload frame) = t ∨
          s.pc = .writePayload frame ∧ data = frame ∧ s.clientWritten gaveUp .drain = t) := by
  cases at_ : s.pc <;> simp [at_]

end LoopTask

end MammotionRc.Firmware
