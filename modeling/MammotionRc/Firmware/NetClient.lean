import MammotionRc.Framing.LengthPrefix

/-! # The accepted socket as `TcpProxy` sees it

`client_` is a `HalowClient` or a `WiFiClient`. What the proxy relies on is small: `available()`
reports some number of bytes that the peer has sent and that were not read yet, `read` hands out bytes
in stream order, `connected()` turns false for good once the peer is gone, and `stop()` ends the
session and discards whatever was not read. The stream a peer will send is fixed when it is accepted;
how much of it has arrived at a given moment is left to each answer of `available()`.
-/

namespace MammotionRc.Firmware

open Framing

structure NetClient where
  /-- A socket is attached: the client was accepted and `stop()` was not called since. -/
  isOpen : Bool
  /-- The peer closed or reset the connection. -/
  peerGone : Bool
  /-- What the peer sends during the session and the proxy has not read. -/
  unread : Bytes
deriving DecidableEq, Repr

namespace NetClient

/-- The client object before any peer was accepted, and after `stop()`. -/
def stopped : NetClient := ⟨false, false, []⟩

/-- A freshly accepted peer that sends `stream`. -/
def accepted (stream : Bytes) : NetClient := ⟨true, false, stream⟩

/-- `client_.connected()`. -/
def connected (c : NetClient) : Bool := c.isOpen && !c.peerGone

/-- `client_.available()` may report any part of the bytes that are still to be read. -/
def mayReport (c : NetClient) (n : ℕ) : Prop := n ≤ c.unread.length

instance (c : NetClient) (n : ℕ) : Decidable (c.mayReport n) := inferInstanceAs (Decidable (_ ≤ _))

/-- `client_.write` may accept any prefix of the bytes, and nothing without a socket. -/
def mayAccept (c : NetClient) (data : Bytes) (n : ℕ) : Prop :=
  n ≤ if c.isOpen then data.length else 0

instance (c : NetClient) (data : Bytes) (n : ℕ) : Decidable (c.mayAccept data n) :=
  inferInstanceAs (Decidable (_ ≤ _))

/-- `n` bytes are handed out in stream order. -/
def consume (c : NetClient) (n : ℕ) : NetClient := { c with unread := c.unread.drop n }

@[simp] theorem consume_isOpen (c : NetClient) (n : ℕ) : (c.consume n).isOpen = c.isOpen := rfl
@[simp] theorem consume_unread (c : NetClient) (n : ℕ) : (c.consume n).unread = c.unread.drop n := rfl
@[simp] theorem stopped_isOpen : stopped.isOpen = false := rfl
@[simp] theorem stopped_unread : stopped.unread = [] := rfl
@[simp] theorem stopped_connected : stopped.connected = false := rfl

theorem isOpen_of_connected {c : NetClient} (up : c.connected = true) : c.isOpen = true :=
  (Bool.and_eq_true_iff.mp up).1

end NetClient

/-- What one call of `client_.read` does. -/
inductive ReadResult
  /-- `n` bytes were copied; `0` when nothing could be read right now. -/
  | got (n : ℕ)
  /-- The socket failed: `HalowClient::read` stops the client and returns `-1`, and the two bytes of
  an uninitialised header buffer hold anything. -/
  | failed (hi lo : UInt8)
deriving DecidableEq, Repr

end MammotionRc.Firmware
