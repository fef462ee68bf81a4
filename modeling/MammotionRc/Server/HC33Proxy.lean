import Mathlib.Logic.Function.Basic
import MammotionRc.Framing.LengthPrefix
import MammotionRc.Machine.Run

/-! # The TCP transport to the HC33

`HC33ProxyTransport` is shared by any number of tasks that call `connect()`, `disconnect()` and
`send()`, and by one reader loop per connection it opened. Tasks switch only at awaits, so an event runs
one task from an await to its next one; which task, what `open_connection`, `drain` and the peer do, and
where a cancellation strikes is up to the tape. Connection `k` is the `k`-th socket, together with the
reader loop and the `BleMessage` created for it. An await that would return at once is a suspension like
any other, and a free lock may go to any of its waiters; both only add interleavings.
-/

namespace MammotionRc.Server

open Framing Machine

inductive TransportAvailability
  | disconnected
  | connecting
  | connected
deriving DecidableEq, Repr

/-- `BleMessage` as far as the transport relies on it: the fragments that `post_custom_data_bytes` cuts a
payload into, and the frame of a fragment under the instance's next sequence number. -/
structure Codec where
  fragments : Bytes → List Bytes
  encode : ℕ → Bytes → Bytes
  /-- A frame is one BLE characteristic write. -/
  short : ∀ sequence fragment, (encode sequence fragment).length < 2 ^ 16

/-- Frames of a type byte, a control byte, the sequence number and the length in front of at most 16
bytes of payload. -/
def Codec.sample : Codec where
  fragments payload := payload.toChunks 16
  encode sequence fragment :=
    [0x4d, 0, UInt8.ofNat sequence, UInt8.ofNat (fragment.take 16).length] ++ fragment.take 16
  short sequence fragment := by
    simp only [List.length_append, List.length_cons, List.length_nil, List.length_take]
    omega

/-- A frame together with the `BleMessage` that emitted it. -/
structure BlufiFrame where
  message : ℕ
  data : Bytes
deriving DecidableEq, Repr

inductive SocketState
  | established
  /-- The peer sent its FIN; asyncio keeps the transport open for writing. -/
  | peerClosed
  /-- `connection_lost` was called without a `close()`. -/
  | lost
  | closed
deriving DecidableEq, Repr

/-- `StreamWriter.is_closing`. -/
@[grind =] def SocketState.isClosing : SocketState → Bool
  | .established | .peerClosed => false
  | .lost | .closed => true

/-- Where a reader loop is suspended. -/
inductive ReaderPc
  /-- Created by `create_task` and not run yet. -/
  | created
  /-- `readexactly` on the stream of connection `stream`. -/
  | reading (stream : ℕ)
  /-- `parseBlufiNotifyData` or `on_message`. -/
  | handling
  /-- The availability listeners of the `finally`. -/
  | notifying
  | done
deriving DecidableEq, Repr

structure Connection where
  socket : SocketState
  loop : ReaderPc
  /-- `cancel()` was called on the reader loop and `CancelledError` has not reached it. -/
  cancelRequested : Bool
  /-- The frames its `BleMessage` passed to `write_gatt_char`. -/
  emitted : List BlufiFrame
  /-- The frames written to its socket. -/
  written : List BlufiFrame
deriving DecidableEq, Repr

namespace Connection

/-- A connection that does not exist yet. -/
@[grind =] def absent : Connection := ⟨.closed, .done, false, [], []⟩

/-- What `open_connection`, `BleMessage(...)` and `create_task` leave behind. -/
@[grind =] def fresh : Connection := ⟨.established, .created, false, [], []⟩

end Connection

/-- Where `connect()` is suspended. -/
inductive ConnectPc
  | lockWait
  | notifyConnecting
  /-- `await asyncio.open_connection(...)`. -/
  | opening
  | notifyFailed
  | notifyConnected
deriving DecidableEq, Repr

/-- Where a task is suspended inside a call on the transport. -/
inductive CallPc
  | idle
  /-- `connect()`, called alone or by `send(payload)`. -/
  | connect (pc : ConnectPc) (payload : Option Bytes)
  /-- `disconnect()` awaiting the reader loop of a connection. -/
  | joinReader (k : ℕ)
  /-- `disconnect()` in `wait_closed`. -/
  | waitClosed
  /-- `disconnect()` in its final notification. -/
  | notifyDisconnected
  | sendLockWait (payload : Bytes)
  /-- `post_custom_data_bytes` of `message` after `n` frames, the last written to `draining`. -/
  | posting (payload : Bytes) (message : ℕ) (draining : Option ℕ) (n : ℕ)
  | notifySendFailed
deriving DecidableEq, Repr

structure HC33ProxyTransport where
  reader : Option ℕ
  writer : Option ℕ
  readerTask : Option ℕ
  message : Option ℕ
  availability : TransportAvailability
  /-- The task that holds `_connect_lock`. -/
  connectLock : Option ℕ
  /-- The task that holds `_send_lock`. -/
  sendLock : Option ℕ
  /-- How often `open_connection` returned a connection. -/
  opened : ℕ
  connections : ℕ → Connection
  calls : ℕ → CallPc

inductive ReaderAction
  /-- The task runs for the first time. -/
  | start
  /-- A frame arrived; it is a complete message that gets handled, or not. -/
  | frame (complete : Bool)
  /-- `on_message` returned. -/
  | handled
  /-- `readexactly` raises because the stream ended. -/
  | ended
  /-- Parsing the frame or handling the message raises. -/
  | crashed
  /-- `CancelledError` is raised at its await. -/
  | cancelled
  /-- The listeners of the `finally` returned. -/
  | notified
deriving DecidableEq, Repr

inductive TransportEvent
  /-- Task `i` calls `connect()`. -/
  | connect (i : ℕ)
  /-- Task `i` calls `disconnect()`. -/
  | disconnect (i : ℕ)
  /-- Task `i` calls `send(payload)`. -/
  | send (i : ℕ) (payload : Bytes)
  /-- The await of task `i` returns. -/
  | resume (i : ℕ)
  /-- `disconnect()` of task `i` returns. -/
  | disconnected (i : ℕ)
  /-- `open_connection` of task `i` returns a connection. -/
  | opened (i : ℕ)
  /-- `open_connection` of task `i` raises an `OSError`. -/
  | openFailed (i : ℕ)
  /-- `open_connection` of task `i` raises anything else. -/
  | openRaised (i : ℕ)
  /-- `drain` of task `i` raises. -/
  | drainFailed (i : ℕ)
  /-- `CancelledError` is raised at the await of task `i`. -/
  | cancelled (i : ℕ)
  | reader (k : ℕ) (action : ReaderAction)
  /-- The peer of connection `k` closes its side. -/
  | peerClosed (k : ℕ)
  /-- Connection `k` is reset. -/
  | connectionLost (k : ℕ)
deriving DecidableEq, Repr

namespace HC33ProxyTransport

def init : HC33ProxyTransport :=
  ⟨none, none, none, none, .disconnected, none, none, 0, fun _ => .absent, fun _ => .idle⟩

/-- `is_connected`. -/
def isConnected (s : HC33ProxyTransport) : Bool :=
  match s.writer with
  | some w => !(s.connections w).socket.isClosing
  | none => false

/-- Task `i` runs up to the await `pc`. -/
def suspend (s : HC33ProxyTransport) (i : ℕ) (pc : CallPc) : HC33ProxyTransport :=
  { s with calls := Function.update s.calls i pc }

def setConnection (s : HC33ProxyTransport) (k : ℕ) (c : Connection) : HC33ProxyTransport :=
  { s with connections := Function.update s.connections k c }

section Fields

variable (s : HC33ProxyTransport) (i k : ℕ) (pc : CallPc) (c : Connection)

@[simp, grind =] theorem suspend_calls (j : ℕ) :
    (s.suspend i pc).calls j = if j = i then pc else s.calls j := Function.update_apply ..

@[simp, grind =] theorem suspend_reader : (s.suspend i pc).reader = s.reader := rfl
@[simp, grind =] theorem suspend_writer : (s.suspend i pc).writer = s.writer := rfl
@[simp, grind =] theorem suspend_readerTask : (s.suspend i pc).readerTask = s.readerTask := rfl
@[simp, grind =] theorem suspend_message : (s.suspend i pc).message = s.message := rfl
@[simp, grind =] theorem suspend_availability : (s.suspend i pc).availability = s.availability := rfl
@[simp, grind =] theorem suspend_connectLock : (s.suspend i pc).connectLock = s.connectLock := rfl
@[simp, grind =] theorem suspend_sendLock : (s.suspend i pc).sendLock = s.sendLock := rfl
@[simp, grind =] theorem suspend_opened : (s.suspend i pc).opened = s.opened := rfl
@[simp, grind =] theorem suspend_connections : (s.suspend i pc).connections k = s.connections k := rfl

@[simp, grind =] theorem setConnection_connections (j : ℕ) :
    (s.setConnection k c).connections j = if j = k then c else s.connections j := Function.update_apply ..

@[simp, grind =] theorem setConnection_reader : (s.setConnection k c).reader = s.reader := rfl
@[simp, grind =] theorem setConnection_writer : (s.setConnection k c).writer = s.writer := rfl
@[simp, grind =] theorem setConnection_readerTask : (s.setConnection k c).readerTask = s.readerTask := rfl
@[simp, grind =] theorem setConnection_message : (s.setConnection k c).message = s.message := rfl
@[simp, grind =] theorem setConnection_availability :
    (s.setConnection k c).availability = s.availability := rfl
@[simp, grind =] theorem setConnection_connectLock : (s.setConnection k c).connectLock = s.connectLock := rfl
@[simp, grind =] theorem setConnection_sendLock : (s.setConnection k c).sendLock = s.sendLock := rfl
@[simp, grind =] theorem setConnection_opened : (s.setConnection k c).opened = s.opened := rfl
@[simp, grind =] theorem setConnection_calls : (s.setConnection k c).calls i = s.calls i := rfl

end Fields

/-- `send(payload)` after its connectivity check. -/
def checkMessage (s : HC33ProxyTransport) (i : ℕ) (payload : Bytes) : HC33ProxyTransport :=
  if s.message.isNone then s.suspend i .idle else s.suspend i (.sendLockWait payload)

/-- `connect()` returns to its caller. -/
def connectReturned (s : HC33ProxyTransport) (i : ℕ) (payload : Option Bytes) : HC33ProxyTransport :=
  match payload with
  | none => s.suspend i .idle
  | some payload => s.checkMessage i payload

/-- `connect()` once it holds `_connect_lock`; the early return releases it at once. -/
def connectLocked (s : HC33ProxyTransport) (i : ℕ) (payload : Option Bytes) : HC33ProxyTransport :=
  if s.isConnected then s.connectReturned i payload
  else
    { s with connectLock := some i, availability := .connecting }.suspend i
      (.connect .notifyConnecting payload)

/-- `connect()` after `open_connection` returned the streams of a new connection. -/
@[grind =] def connectOpened (s : HC33ProxyTransport) (i : ℕ) (payload : Option Bytes) : HC33ProxyTransport :=
  ({ s with
    reader := some s.opened
    writer := some s.opened
    message := some s.opened
    readerTask := some s.opened
    availability := .connected
    opened := s.opened + 1 }.setConnection s.opened .fresh).suspend i
      (.connect .notifyConnected payload)

/-- `connect()` leaves by an exception and releases `_connect_lock`. -/
def connectRaised (s : HC33ProxyTransport) (i : ℕ) : HC33ProxyTransport :=
  { s with connectLock := none }.suspend i .idle

/-- `disconnect()` after `wait_closed`, or without a writer. -/
@[grind =] def dropWriter (s : HC33ProxyTransport) (i : ℕ) : HC33ProxyTransport :=
  { s with writer := none, reader := none, message := none, availability := .disconnected }.suspend i
    .notifyDisconnected

/-- `disconnect()` once the reader loop is done. -/
def closeWriter (s : HC33ProxyTransport) (i : ℕ) : HC33ProxyTransport :=
  match s.writer with
  | some w =>
    ({ s with readerTask := none }.setConnection w
      { s.connections w with socket := .closed }).suspend i .waitClosed
  | none => { s with readerTask := none }.dropWriter i

/-- `cancel()` on a reader loop. -/
@[grind =] def cancelReader (s : HC33ProxyTransport) (k : ℕ) : HC33ProxyTransport :=
  s.setConnection k { s.connections k with cancelRequested := true }

/-- `disconnect()` up to its first await. -/
def startDisconnect (s : HC33ProxyTransport) (i : ℕ) : HC33ProxyTransport :=
  match s.readerTask with
  | some k =>
    if (s.connections k).loop = .done then s.closeWriter i
    else (s.cancelReader k).suspend i (.joinReader k)
  | none => s.closeWriter i

/-- The error path of `send` around the codec. -/
@[grind =] def postFailed (s : HC33ProxyTransport) (i : ℕ) : HC33ProxyTransport :=
  { s with availability := .disconnected }.suspend i .notifySendFailed

/-- `send` once it holds `_send_lock`. -/
def startPost (s : HC33ProxyTransport) (i : ℕ) (payload : Bytes) : HC33ProxyTransport :=
  match s.message with
  | some k => { s with sendLock := some i }.suspend i (.posting payload k none 0)
  | none => { s with sendLock := some i }.postFailed i

/-- `send` releases `_send_lock` and is over. -/
@[grind =] def releaseSend (s : HC33ProxyTransport) (i : ℕ) : HC33ProxyTransport :=
  { s with sendLock := none }.suspend i .idle

/-- `self._writer.write` on the socket of connection `w`. -/
@[grind =] def write (s : HC33ProxyTransport) (w : ℕ) (frame : BlufiFrame) : HC33ProxyTransport :=
  s.setConnection w { s.connections w with written := (s.connections w).written ++ [frame] }

/-- `_send_frame` of a frame that `BleMessage` number `k` just emitted. -/
def sendFrame (s : HC33ProxyTransport) (i : ℕ) (payload : Bytes) (k n : ℕ) (frame : BlufiFrame) :
    HC33ProxyTransport :=
  match s.writer with
  | some w =>
    if (s.connections w).socket.isClosing || decide (2 ^ 16 ≤ frame.data.length) then s.postFailed i
    else
      (s.write w frame).suspend i (.posting payload k (some w) (n + 1))
  | none => s.postFailed i

/-- The next frame of `BleMessage` number `k`, which counts the frames it emitted. -/
def nextFrame (codec : Codec) (s : HC33ProxyTransport) (k : ℕ) (fragment : Bytes) : BlufiFrame :=
  ⟨k, codec.encode (s.connections k).emitted.length fragment⟩

/-- `BleMessage` number `k` hands a frame to `write_gatt_char`. -/
@[grind =] def emit (s : HC33ProxyTransport) (k : ℕ) (frame : BlufiFrame) : HC33ProxyTransport :=
  s.setConnection k { s.connections k with emitted := (s.connections k).emitted ++ [frame] }

/-- `post_custom_data_bytes` goes on: it emits its next fragment, or it returns. -/
def postNext (codec : Codec) (s : HC33ProxyTransport) (i : ℕ) (payload : Bytes) (k n : ℕ) :
    HC33ProxyTransport :=
  match (codec.fragments payload)[n]? with
  | some fragment =>
    (s.emit k (s.nextFrame codec k fragment)).sendFrame i payload k n (s.nextFrame codec k fragment)
  | none => s.releaseSend i

/-- `CancelledError` reaches the reader loop of connection `k`. -/
def cancelDelivered (s : HC33ProxyTransport) (k : ℕ) : HC33ProxyTransport :=
  s.setConnection k { s.connections k with cancelRequested := false }

/-- The reader loop of connection `k` suspends at `pc`. -/
@[grind =] def suspendReader (s : HC33ProxyTransport) (k : ℕ) (pc : ReaderPc) : HC33ProxyTransport :=
  s.setConnection k { s.connections k with loop := pc }

/-- The `finally` of the reader loop of connection `k`. -/
def readerFinally (s : HC33ProxyTransport) (k : ℕ) : HC33ProxyTransport :=
  { s with availability := .disconnected }.suspendReader k .notifying

/-- Another coroutine waits for data of stream `r`. -/
def streamBusy (s : HC33ProxyTransport) (k r : ℕ) : Bool :=
  (List.range s.opened).any fun j => j ≠ k && (s.connections j).loop = .reading r

/-- The reader loop of connection `k` calls `self._reader.readexactly`. -/
def readerNext (s : HC33ProxyTransport) (k : ℕ) : HC33ProxyTransport :=
  match s.reader with
  | some r => if s.streamBusy k r then s.readerFinally k else s.suspendReader k (.reading r)
  | none => s.readerFinally k

/-- One turn of the reader loop of connection `k`. -/
def stepReader (s : HC33ProxyTransport) (k : ℕ) (action : ReaderAction) : Option HC33ProxyTransport :=
  match action, (s.connections k).loop with
  | .start, .created =>
    if (s.connections k).cancelRequested then none
    else if s.reader.isNone then some (s.suspendReader k .done)
    else some (s.readerNext k)
  | .frame complete, .reading _ =>
    if complete then
      if s.message.isSome then some (s.suspendReader k .handling) else none
    else some (s.readerNext k)
  | .handled, .handling => some (s.readerNext k)
  | .ended, .reading r =>
    if (s.connections r).socket = .established then none else some (s.readerFinally k)
  | .crashed, .reading _ | .crashed, .handling => some (s.readerFinally k)
  | .cancelled, pc =>
    if (s.connections k).cancelRequested then
      match pc with
      | .created | .notifying => some ((s.cancelDelivered k).suspendReader k .done)
      | .reading _ | .handling => some ((s.cancelDelivered k).readerFinally k)
      | .done => none
    else none
  | .notified, .notifying => some (s.suspendReader k .done)
  | _, _ => none

/-- The await of task `i` returns. -/
def resume (codec : Codec) (s : HC33ProxyTransport) (i : ℕ) : Option HC33ProxyTransport :=
  match s.calls i with
  | .connect .lockWait payload => if s.connectLock.isNone then some (s.connectLocked i payload) else none
  | .connect .notifyConnecting payload => some (s.suspend i (.connect .opening payload))
  | .connect .notifyFailed _ => some (s.connectRaised i)
  | .connect .notifyConnected payload =>
    some ({ s with connectLock := none }.connectReturned i payload)
  | .joinReader k => if (s.connections k).loop = .done then some (s.closeWriter i) else none
  | .waitClosed => some (s.dropWriter i)
  | .sendLockWait payload => if s.sendLock.isNone then some (s.startPost i payload) else none
  | .posting payload k _ n => some (s.postNext codec i payload k n)
  | .notifySendFailed => some (s.releaseSend i)
  | .connect .opening _ | .notifyDisconnected | .idle => none

/-- `CancelledError` at the await of task `i`. A `disconnect()` that waits for the reader loop only passes
the cancellation on to it. -/
def cancelCall (s : HC33ProxyTransport) (i : ℕ) : Option HC33ProxyTransport :=
  match s.calls i with
  | .connect .lockWait _ | .waitClosed | .notifyDisconnected | .sendLockWait _ =>
    some (s.suspend i .idle)
  | .connect _ _ => some (s.connectRaised i)
  | .joinReader k => some (s.cancelReader k)
  | .posting _ _ _ _ | .notifySendFailed => some (s.releaseSend i)
  | .idle => none

def step (codec : Codec) (s : HC33ProxyTransport) : TransportEvent → Option HC33ProxyTransport
  | .connect i =>
    match s.calls i with
    | .idle => some (s.suspend i (.connect .lockWait none))
    | _ => none
  | .disconnect i =>
    match s.calls i with
    | .idle => some (s.startDisconnect i)
    | _ => none
  | .send i payload =>
    match s.calls i with
    | .idle =>
      if s.isConnected then some (s.checkMessage i payload)
      else some (s.suspend i (.connect .lockWait (some payload)))
    | _ => none
  | .resume i => s.resume codec i
  | .disconnected i =>
    match s.calls i with
    | .notifyDisconnected => some (s.suspend i .idle)
    | _ => none
  | .opened i =>
    match s.calls i with
    | .connect .opening payload => some (s.connectOpened i payload)
    | _ => none
  | .openFailed i =>
    match s.calls i with
    | .connect .opening payload =>
      some ({ s with availability := .disconnected }.suspend i (.connect .notifyFailed payload))
    | _ => none
  | .openRaised i =>
    match s.calls i with
    | .connect .opening _ => some (s.connectRaised i)
    | _ => none
  | .drainFailed i =>
    match s.calls i with
    | .posting _ _ (some w) _ =>
      if (s.connections w).socket.isClosing then some (s.postFailed i) else none
    | _ => none
  | .cancelled i => s.cancelCall i
  | .reader k action => s.stepReader k action
  | .peerClosed k =>
    match (s.connections k).socket with
    | .established => some (s.setConnection k { s.connections k with socket := .peerClosed })
    | _ => none
  | .connectionLost k =>
    match (s.connections k).socket with
    | .established | .peerClosed => some (s.setConnection k { s.connections k with socket := .lost })
    | _ => none

end HC33ProxyTransport

end MammotionRc.Server
