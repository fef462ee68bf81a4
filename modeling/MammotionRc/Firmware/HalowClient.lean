import MammotionRc.Firmware.NetClient

/-! # `HalowClient`: the socket behind `client_` on the HaLow build

`HalowClientRxBuffer` keeps bytes between lwIP and `read`: `[_pos, _fill)` of `_buffer` is received and
not read yet. Every call into the kernel or the allocator takes one `Moment` off a tape, which says what
arrives from the peer before the call and how the call ends, so a statement about all tapes is one about
every way the peer, the stack and the heap can behave. `_fd` is never negative here: a client is built
around the descriptor that `accept` or `connect` returned.
-/

namespace MammotionRc.Firmware

open Framing

/-- How one call of `malloc`, `lwip_ioctl` or `recv` ends. -/
inductive Outcome
  /-- `recv` hands out at most `atMost` bytes, and at least one if there is one. -/
  | succeeds (atMost : ℕ)
  | fails
deriving DecidableEq, Repr

structure Moment where
  arrives : ℕ
  outcome : Outcome
deriving DecidableEq, Repr

/-- The receiving half of a TCP socket. -/
structure Kernel where
  /-- Received and acknowledged, not handed out. -/
  pending : Bytes
  /-- What the peer sends later in the session. -/
  coming : Bytes
  tape : List Moment
deriving DecidableEq, Repr

namespace Kernel

/-- The next moment of the tape; past its end nothing arrives and calls succeed in full. -/
def next (k : Kernel) : Outcome × Kernel :=
  match k.tape with
  | [] => (.succeeds k.pending.length, k)
  | m :: rest =>
    (m.outcome, ⟨k.pending ++ k.coming.take m.arrives, k.coming.drop m.arrives, rest⟩)

/-- `malloc(_size)`: the bytes of a fresh area are never read. -/
def malloc (k : Kernel) (size : ℕ) : Option Bytes × Kernel :=
  match k.next with
  | (.succeeds _, k) => (some (List.replicate size 0), k)
  | (.fails, k) => (none, k)

/-- `lwip_ioctl(_fd, FIONREAD, &count)`. -/
def fionread (k : Kernel) : Option ℕ × Kernel :=
  match k.next with
  | (.succeeds _, k) => (some k.pending.length, k)
  | (.fails, k) => (none, k)

/-- `recv` with `MSG_DONTWAIT`; `none` for an error other than `EWOULDBLOCK`. With nothing pending it
reports `EWOULDBLOCK`, or the end of the stream, and `fillBuffer` treats both as no bytes. -/
def recv (k : Kernel) (room : ℕ) : Option Bytes × Kernel :=
  match k.next with
  | (.succeeds atMost, k) =>
    let n := min room (max 1 atMost)
    (some (k.pending.take n), { k with pending := k.pending.drop n })
  | (.fails, k) => (none, k)

end Kernel

structure HalowClientRxBuffer where
  size : ℕ
  /-- `_buffer`; `none` until the first `fillBuffer`. -/
  buffer : Option Bytes
  pos : ℕ
  fill : ℕ
  failed : Bool
deriving DecidableEq, Repr

namespace HalowClientRxBuffer

/-- The constructor. -/
def init (size : ℕ) : HalowClientRxBuffer := ⟨size, none, 0, 0, false⟩

/-- `r_available`. -/
def rAvailable (b : HalowClientRxBuffer) (k : Kernel) : ℕ × HalowClientRxBuffer × Kernel :=
  match k.fionread with
  | (some count, k) => (count, b, k)
  | (none, k) => (0, { b with failed := true }, k)

/-- `fillBuffer` allocates `_buffer` on its first call. -/
def allocate (b : HalowClientRxBuffer) (k : Kernel) : HalowClientRxBuffer × Kernel :=
  match b.buffer with
  | some _ => (b, k)
  | none =>
    match k.malloc b.size with
    | (some area, k) => ({ b with buffer := some area }, k)
    | (none, k) => ({ b with failed := true }, k)

/-- `fillBuffer` starts over at the front once everything was read. -/
def rewind (b : HalowClientRxBuffer) : HalowClientRxBuffer :=
  if b.fill ≠ 0 ∧ b.pos = b.fill then { b with fill := 0, pos := 0 } else b

/-- `recv` wrote `data` at `_buffer + _fill`. -/
def append (b : HalowClientRxBuffer) (data : Bytes) : HalowClientRxBuffer :=
  { b with
    buffer := b.buffer.map fun area => area.take b.fill ++ data ++ area.drop (b.fill + data.length)
    fill := b.fill + data.length }

/-- The end of `fillBuffer`: one `recv` into the free part of `_buffer`. -/
def receive (b : HalowClientRxBuffer) (k : Kernel) : ℕ × HalowClientRxBuffer × Kernel :=
  match k.recv (b.size - b.fill) with
  | (some data, k) => (data.length, b.append data, k)
  | (none, k) => (0, { b with failed := true }, k)

def fillBuffer (b : HalowClientRxBuffer) (k : Kernel) : ℕ × HalowClientRxBuffer × Kernel :=
  let (b, k) := b.allocate k
  if b.buffer = none then (0, b, k)
  else
    let b := b.rewind
    if b.size ≤ b.fill then (0, b, k)
    else
      let (count, b, k) := b.rAvailable k
      if count = 0 then (0, b, k) else b.receive k

/-- `memcpy(dst, _buffer + _pos, n)`. -/
def copy (b : HalowClientRxBuffer) (n : ℕ) : Bytes := ((b.buffer.getD []).drop b.pos).take n

/-- `_pos += n`. -/
def advance (b : HalowClientRxBuffer) (n : ℕ) : HalowClientRxBuffer := { b with pos := b.pos + n }

/-- What a call of `read` returns and what it wrote to `dst`. -/
structure ReadReturn where
  res : ℤ
  dst : Bytes
deriving DecidableEq, Repr

/-- The loop of `read` with `left` bytes still wanted and `got` copied so far. Each round copies at least
one byte, so `left` rounds are enough; `rounds` counts them down. -/
def readLoop : ℕ → HalowClientRxBuffer → Kernel → ℕ → Bytes → ReadReturn × HalowClientRxBuffer × Kernel
  | 0, b, k, _, got => (⟨got.length, got⟩, b, k)
  | rounds + 1, b, k, left, got =>
    if left = 0 then (⟨got.length, got⟩, b, k)
    else
      let (filled, b, k) := b.fillBuffer k
      if filled = 0 then (⟨got.length, got⟩, b, k)
      else
        let a := b.fill - b.pos
        let toRead := if left < a then left else a
        readLoop rounds (b.advance toRead) k (left - toRead) (got ++ b.copy toRead)

/-- `read` once something is buffered. `a` keeps its value from before `fillBuffer`. -/
def readBuffered (b : HalowClientRxBuffer) (k : Kernel) (len : ℕ) :
    ReadReturn × HalowClientRxBuffer × Kernel :=
  let a := b.fill - b.pos
  if len ≤ a then (⟨len, b.copy len⟩, b.advance len, k)
  else
    let (filled, b, k) := if len - a ≤ b.size - b.fill then b.fillBuffer k else (0, b, k)
    if len - a ≤ filled then (⟨len, b.copy len⟩, b.advance len, k)
    else readLoop (len - a) (b.advance a) k (len - a) (b.copy a)

/-- `_pos == _fill && !fillBuffer()`. -/
def exhausted (b : HalowClientRxBuffer) (k : Kernel) : Bool × HalowClientRxBuffer × Kernel :=
  if b.pos = b.fill then
    let (filled, b, k) := b.fillBuffer k
    (filled = 0, b, k)
  else (false, b, k)

/-- `read(dst, len)` with a destination. -/
def read (b : HalowClientRxBuffer) (k : Kernel) (len : ℕ) : ReadReturn × HalowClientRxBuffer × Kernel :=
  if len = 0 then (⟨if b.failed then -1 else 0, []⟩, b, k)
  else
    let (nothing, b, k) := b.exhausted k
    if nothing then (⟨if b.failed then -1 else 0, []⟩, b, k) else b.readBuffered k len

/-- `peek()`; `none` for `-1`. -/
def peek (b : HalowClientRxBuffer) (k : Kernel) : Option UInt8 × HalowClientRxBuffer × Kernel :=
  let (nothing, b, k) := b.exhausted k
  if nothing then (none, b, k) else ((b.copy 1).head?, b, k)

/-- `available()`. -/
def available (b : HalowClientRxBuffer) (k : Kernel) : ℕ × HalowClientRxBuffer × Kernel :=
  let (count, b, k) := b.rAvailable k
  (b.fill - b.pos + count, b, k)

/-- `flush()`. -/
def flush (b : HalowClientRxBuffer) (k : Kernel) : HalowClientRxBuffer × Kernel :=
  let (count, b, k) := b.rAvailable k
  let (b, k) := if count = 0 then (b, k) else (b.fillBuffer k).2
  ({ b with pos := b.fill }, k)

end HalowClientRxBuffer

structure HalowClient where
  /-- `_rxBuffer`, which is set together with `clientSocketHandle`; `none` after `stop()`. -/
  rxBuffer : Option HalowClientRxBuffer
  /-- `_connected`. -/
  isConnected : Bool
deriving DecidableEq, Repr

namespace HalowClient

open HalowClientRxBuffer

/-- The default of the constructor of `HalowClientRxBuffer`. -/
def RX_BUFFER_SIZE : ℕ := 1436

/-- `HalowClient(fd)`. -/
def init : HalowClient := ⟨some (.init RX_BUFFER_SIZE), true⟩

/-- `stop()`. -/
def stopped : HalowClient := ⟨none, false⟩

/-- The end of `read`, `peek` and `available`: a buffer that has failed stops the client. -/
def keep (c : HalowClient) (b : HalowClientRxBuffer) : HalowClient :=
  if b.failed then stopped else { c with rxBuffer := some b }

/-- `connected()`: `gone` when the empty `recv` leaves one of the five errors of a dead socket in `errno`. -/
def connected (c : HalowClient) (gone : Bool) : Bool × HalowClient :=
  let up := c.isConnected && !gone
  (up, { c with isConnected := up })

/-- `read(buf, size)`. -/
def read (c : HalowClient) (k : Kernel) (size : ℕ) : ReadReturn × HalowClient × Kernel :=
  match c.rxBuffer with
  | none => (⟨-1, []⟩, c, k)
  | some b =>
    let (result, b, k) := b.read k size
    (result, c.keep b, k)

/-- `read()`: one byte, `none` for `-1`. -/
def readByte (c : HalowClient) (k : Kernel) : Option UInt8 × HalowClient × Kernel :=
  let (result, c, k) := c.read k 1
  (if result.res ≤ 0 then none else result.dst.head?, c, k)

/-- `peek()`. -/
def peek (c : HalowClient) (k : Kernel) : Option UInt8 × HalowClient × Kernel :=
  match c.rxBuffer with
  | none => (none, c, k)
  | some b =>
    let (byte, b, k) := b.peek k
    (byte, c.keep b, k)

/-- `available()`. -/
def available (c : HalowClient) (k : Kernel) : ℕ × HalowClient × Kernel :=
  match c.rxBuffer with
  | none => (0, c, k)
  | some b =>
    let (count, b, k) := b.available k
    (count, c.keep b, k)

/-- `flush()`: drops what is buffered; a failure is noticed by the next call. -/
def flush (c : HalowClient) (k : Kernel) : HalowClient × Kernel :=
  match c.rxBuffer with
  | none => (c, k)
  | some b =>
    let (b, k) := b.flush k
    ({ c with rxBuffer := some b }, k)

/-! ## Writing -/

/-- `Halow_CLIENT_MAX_WRITE_RETRY`. -/
def MAX_WRITE_RETRY : ℕ := 10

/-- One round of `write`: how `select` answers and, with the socket ready, what `send` returns. -/
inductive Attempt
  | selectFails
  /-- `select` waits its second without `FD_ISSET`. -/
  | notReady
  /-- `send` takes `n` of the bytes offered, or all of them if there are fewer. -/
  | sends (n : ℕ)
  /-- `send` fails with `EAGAIN`. -/
  | busy
  /-- `send` fails with another error. -/
  | breaks
deriving DecidableEq, Repr

structure WriteReturn where
  totalBytesSent : ℕ
  /-- The bytes that `send` handed to the stack, in order. -/
  handed : Bytes
  /-- How often `select` was called; each call takes a second at most. -/
  selects : ℕ
  /-- `stop()` was called. -/
  stops : Bool
deriving DecidableEq, Repr

/-- The loop of `write`. `buf` is what `bytesRemaining` counts; `attempts` answers the rounds. -/
def writeLoop (attempts : ℕ → Attempt) (size retry : ℕ) (buf handed : Bytes) (selects : ℕ) : WriteReturn :=
  match retry with
  | 0 => ⟨handed.length, handed, selects, false⟩
  | retry + 1 =>
    match attempts selects with
    | .selectFails => ⟨0, handed, selects + 1, false⟩
    | .notReady | .busy => writeLoop attempts size retry buf handed (selects + 1)
    | .breaks => ⟨handed.length, handed, selects + 1, true⟩
    | .sends n =>
      let res := min n buf.length
      if 0 < res then
        let handed' := handed ++ buf.take res
        if size ≤ handed'.length then ⟨handed'.length, handed', selects + 1, false⟩
        else writeLoop attempts size MAX_WRITE_RETRY (buf.drop res) handed' (selects + 1)
      else writeLoop attempts size retry buf handed (selects + 1)
termination_by (buf.length, retry)
decreasing_by
  all_goals simp_wf
  all_goals first | (apply Prod.Lex.right; omega) | (apply Prod.Lex.left; grind)

/-- `write(buf, size)`. -/
def write (c : HalowClient) (attempts : ℕ → Attempt) (buf : Bytes) : WriteReturn :=
  if !c.isConnected || c.rxBuffer.isNone then ⟨0, [], 0, false⟩
  else writeLoop attempts buf.length MAX_WRITE_RETRY buf [] 0

end HalowClient

end MammotionRc.Firmware
