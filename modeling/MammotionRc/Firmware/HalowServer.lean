import Mathlib.Data.List.Basic

/-! # The listening half of the HaLow library

`TcpProxy` accepts its clients from a `HalowServer`, which listens on a socket without blocking. `hasClient` takes a
connection from lwIP and keeps it for the next `accept`; `accept` sets two options of the socket before it hands it out,
and forgets a socket that refuses one of them. The address that it listens on is left out.
-/

namespace MammotionRc.Firmware

variable {Peer : Type*}

/-- A client that `accept` hands out. -/
structure AcceptedClient (Peer : Type*) where
  peer : Peer
  /-- The value of `TCP_NODELAY`. -/
  noDelay : Bool
deriving DecidableEq, Repr

/-- `HalowServer`, and the connections that lwIP has completed on its socket, the oldest first. -/
structure HalowServer (Peer : Type*) where
  /-- The connection of `_accepted_sockfd`, unless that is -1. -/
  acceptedSockfd : Option Peer
  listening : Bool
  noDelay : Bool
  backlog : List Peer

/-- What lwIP answers in the course of `accept`. -/
structure AcceptAnswers where
  /-- There is no room for another socket. -/
  full : Bool
  /-- `SO_KEEPALIVE` is set. -/
  keepAlive : Bool
  /-- `TCP_NODELAY` is set. -/
  tcpNoDelay : Bool

namespace HalowServer

def init : HalowServer Peer := ⟨none, false, false, []⟩

/-- `begin`, by whether `socket`, `bind` and `listen` succeed. -/
def begin (s : HalowServer Peer) (socket bind listen : Bool) : HalowServer Peer :=
  if s.listening then s
  else if socket && bind && listen then ⟨none, true, false, []⟩
  else s

def setNoDelay (s : HalowServer Peer) (nodelay : Bool) : HalowServer Peer := { s with noDelay := nodelay }

/-- `lwip_accept(sockfd, ...)`, which fails on a socket that does not listen. -/
def lwipAccept (s : HalowServer Peer) (full : Bool) : Option Peer × HalowServer Peer :=
  if s.listening && !full then (s.backlog.head?, { s with backlog := s.backlog.tail }) else (none, s)

def hasClient (s : HalowServer Peer) (full : Bool) : Bool × HalowServer Peer :=
  match s.acceptedSockfd with
  | some _ => (true, s)
  | none =>
    let (taken, s) := s.lwipAccept full
    (taken.isSome, { s with acceptedSockfd := taken })

/-- The socket that `accept` is about: the one that is kept, else the next. -/
def takeClient (s : HalowServer Peer) (full : Bool) : Option Peer × HalowServer Peer :=
  match s.acceptedSockfd with
  | some peer => (some peer, { s with acceptedSockfd := none })
  | none => s.lwipAccept full

/-- `accept`; `none` is a client without a socket. -/
def accept (s : HalowServer Peer) (answers : AcceptAnswers) : Option (AcceptedClient Peer) × HalowServer Peer :=
  if s.listening then
    match s.takeClient answers.full with
    | (some peer, s) => (if answers.keepAlive && answers.tcpNoDelay then some ⟨peer, s.noDelay⟩ else none, s)
    | (none, s) => (none, s)
  else (none, s)

/-- `end`, which leaves `_accepted_sockfd` as it is. -/
def stop (s : HalowServer Peer) : HalowServer Peer := { s with listening := false, backlog := [] }

/-- lwIP completes a connection; nobody can connect to a socket that does not listen. -/
def arrive (s : HalowServer Peer) (peer : Peer) : HalowServer Peer :=
  if s.listening then { s with backlog := s.backlog ++ [peer] } else s

/-- lwIP drops a connection that it keeps, as when the peer resets it. -/
def abort (s : HalowServer Peer) (k : ℕ) : HalowServer Peer := { s with backlog := s.backlog.eraseIdx k }

end HalowServer

inductive ServerCall (Peer : Type*)
  | begin (socket bind listen : Bool)
  | setNoDelay (nodelay : Bool)
  | hasClient (full : Bool)
  | accept (answers : AcceptAnswers)
  | stop
  /-- A peer connects. -/
  | arrive (peer : Peer)
  /-- Connection `k` of those that lwIP keeps is gone. -/
  | abort (k : ℕ)

/-- Clients go that nobody was handed. -/
def ServerCall.dropping : ServerCall Peer → Bool
  | .stop | .abort _ => true
  | _ => false

end MammotionRc.Firmware
