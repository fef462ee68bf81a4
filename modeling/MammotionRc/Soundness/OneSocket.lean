import Mathlib.Tactic.IntervalCases
import MammotionRc.Soundness.TransportInvariants

/-! # One socket per transport

`disconnect()` takes no lock, so an `open_connection` that is under way may return after it: while it
waits for the old socket to close, the new one is then dropped without being closed, and afterwards it
brings the transport back to life. A reader loop that crashes, or one that outlives its connection, leaves
an open socket that nobody reads. In runs without these steps the transport holds the one open socket and
its reader task reads it.
-/

namespace MammotionRc.Server

open Framing Machine

/-- A `connect()` or `disconnect()` call is in progress. -/
@[simp, grind] def CallPc.Reconnecting : CallPc → Prop
  | .connect _ _ | .joinReader _ | .waitClosed | .notifyDisconnected => True
  | .idle | .sendLockWait _ | .posting _ _ _ _ | .notifySendFailed => False

/-- One event's effect on "a `disconnect()` returned and no `connect()` or `send()` started since". -/
def quietAfter (quiet : Bool) : TransportEvent → Bool
  | .disconnected _ => true
  | .connect _ | .send _ _ => false
  | _ => quiet

/-- A `disconnect()` has returned and no `connect()` or `send()` was called since. -/
def Quiet (es : List TransportEvent) : Prop := es.foldl quietAfter false = true

theorem quiet_concat {es : List TransportEvent} {e : TransportEvent} :
    Quiet (es ++ [e]) ↔ quietAfter (es.foldl quietAfter false) e = true := by
  simp only [Quiet, List.foldl_append, List.foldl_cons, List.foldl_nil]

namespace HC33ProxyTransport

/-- While no task reconnects at most one socket is open, and it is the one that is held, read and awaited. -/
structure OneSocket (es : List TransportEvent) (s : HC33ProxyTransport) : Prop where
  one : (∀ i, ¬ (s.calls i).Reconnecting) → ∀ j k, s.Up j → s.Up k → j = k
  held : (∀ i, ¬ (s.calls i).Reconnecting) → ∀ k, s.Up k → s.writer = some k ∧ s.reader = some k
  read : (∀ i, ¬ (s.calls i).Reconnecting) → ∀ k, (s.connections k).socket = .established →
    s.readerTask = some k ∧
      ((s.connections k).loop = .created ∨ (s.connections k).loop = .reading k ∨
        (s.connections k).loop = .handling)
  gone : Quiet es → ∀ k, ¬ s.Up k

/-- Sockets open in turn: not while a `disconnect()` that closed the old one has yet to return, nor after
one returned with nothing called since, nor beside the reader loop of an older connection. And no reader
loop crashes on an established connection. -/
structure InTurn (es : List TransportEvent) (s : HC33ProxyTransport) (e : TransportEvent) : Prop where
  closed : OpensAfterClose s e
  returned : ∀ i, e = .opened i → ∀ j, s.calls j ≠ .notifyDisconnected
  wanted : ∀ i, e = .opened i → ¬ Quiet es
  loop : OpensAfterLoop s e
  noCrash : ∀ k, e = .reader k .crashed → (s.connections k).socket ≠ .established

variable {codec : Codec} {es : List TransportEvent} {s t : HC33ProxyTransport} {e : TransportEvent}

theorem InTurn.of_ne (never : ∀ i, e ≠ .opened i) (noCrash : ∀ k, e ≠ .reader k .crashed) :
    InTurn es s e :=
  ⟨fun i at_ => absurd at_ (never i), fun i at_ => absurd at_ (never i),
    fun i at_ => absurd at_ (never i), fun i at_ => absurd at_ (never i),
    fun k at_ => absurd at_ (noCrash k)⟩

/-- Once a `disconnect()` dropped the writer, no socket is open. -/
structure Gone (es : List TransportEvent) (s : HC33ProxyTransport) : Prop where
  notified : ∀ i, s.calls i = .notifyDisconnected → ∀ k, ¬ s.Up k
  quiet : Quiet es → ∀ k, ¬ s.Up k

theorem Gone.step (sockets : SocketHeld s) (gone : Gone es s) (turn : InTurn es s e)
    (effect : Effect codec s e t) : Gone (es ++ [e]) t := by
  constructor
  · intro i notified k up
    rcases effect.up_of_up up with ⟨j, rfl⟩ | before
    · have none_ := turn.returned j rfl
      cases effect <;> grind
    · have down := gone.notified i
      have closed := fun j at_ => sockets.closed j at_ k
      have held := sockets.held k before
      cases effect <;> grind
  · intro quiet k up
    rw [quiet_concat] at quiet
    rcases effect.up_of_up up with ⟨j, rfl⟩ | before
    · exact turn.wanted j rfl quiet
    · cases e with
      | disconnected i => exact gone.notified i effect.of_disconnected k before
      | connect i | send i payload => cases quiet
      | _ => exact gone.quiet quiet k before

/-- Every established connection is read by the reader task, or a `disconnect()` has cancelled that. -/
def Read (s : HC33ProxyTransport) : Prop :=
  (∃ i k, s.calls i = .joinReader k) ∨
    ∀ k, (s.connections k).socket = .established →
      s.readerTask = some k ∧ (s.connections k).loop.Live

/-- The reader loop of an established connection only leaves to be cancelled by a `disconnect()`. -/
theorem Leaves.joined {k : ℕ} (inv : Consistent s) (awaited : Awaited s) (sockets : SocketHeld s)
    (single : SingleLoop s) (turn : InTurn es s e) (live : (s.connections k).loop.Live)
    (up : (s.connections k).socket = .established) (leaves : Leaves s k e) :
    ∃ i, s.calls i = .joinReader k := by
  have held : s.writer = some k := sockets.held k (by rw [Up, up]; rfl)
  cases leaves with
  | ended r reading ends =>
    rw [single.own k r reading] at ends
    exact absurd up ends
  | crashed event => exact absurd up (turn.noCrash k event)
  | cancelled requested => exact awaited k requested live.ne.1
  | noReader gone =>
    rw [inv.reader, held] at gone
    cases gone
  | busy j r _ other reading =>
    have newest := single.newest j (by rw [reading]; trivial)
    have same := single.newest k live
    exact absurd (by omega) other

theorem Read.step (inv : Consistent s) (awaited : Awaited s) (sockets : SocketHeld s)
    (single : SingleLoop s) (read : Read s) (turn : InTurn es s e) (effect : Effect codec s e t)
    (after : SocketHeld t) : Read t := by
  rcases read with ⟨i, k, joins⟩ | read
  · cases effect with
    | closed j w held was running =>
      exact .inr fun k' up => absurd (by rw [Up, up]; rfl) (after.closed j (by simp) k')
    | droppedNone j held was running =>
      refine .inr fun k' up => ?_
      cases after.held k' (by rw [Up, up]; rfl)
    | _ => exact .inl ⟨i, k, by grind⟩
  · cases effect with
    | joining i k idle task alive => exact .inl ⟨i, k, by simp⟩
    | readerFinally k requested pending live why =>
      by_cases up : (s.connections k).socket = .established
      · obtain ⟨i, joins⟩ := why.joined inv awaited sockets single turn live up
        exact .inl ⟨i, k, joins⟩
      · exact .inr (by grind)
    | readerStopped k requested was =>
      by_cases up : (s.connections k).socket = .established
      · have live := (read k up).2
        have held : s.writer = some k := sockets.held k (by rw [Up, up]; rfl)
        rcases was with notifying | cancelled | gone
        · exact absurd notifying live.ne.2
        · obtain ⟨i, joins⟩ := awaited k cancelled live.ne.1
          exact .inl ⟨i, k, joins⟩
        · rw [inv.reader, held] at gone
          cases gone
      · exact .inr (by grind)
    | closed j w held was running =>
      exact .inr fun k' up => absurd (by rw [Up, up]; rfl) (after.closed j (by simp) k')
    | droppedNone j held was running =>
      refine .inr fun k' up => ?_
      cases after.held k' (by rw [Up, up]; rfl)
    | opened i was =>
      have down : ∀ k, (s.connections k).socket ≠ .established := by
        intro k up
        have open_ : s.Up k := by rw [Up, up]; rfl
        exact inv.connecting i (by rw [was]; trivial) k (sockets.held k open_) open_
      exact .inr (by grind)
    | _ => exact .inr (by grind)

/-- What the runs in turn keep. -/
structure SocketInvariant (es : List TransportEvent) (s : HC33ProxyTransport) : Prop where
  consistent : Consistent s
  awaited : Awaited s
  sockets : SocketHeld s
  single : SingleLoop s
  gone : Gone es s
  read : Read s

theorem SocketInvariant.init : SocketInvariant [] init := by
  refine ⟨.init, ?_, ⟨?_, ?_⟩, ⟨?_, ?_⟩, ⟨?_, ?_⟩, .inr ?_⟩ <;>
    simp [HC33ProxyTransport.init, Connection.absent, Awaited, Quiet, SocketState.isClosing]

theorem SocketInvariant.step (inv : SocketInvariant es s) (turn : InTurn es s e)
    (stepped : s.step codec e = some t) : SocketInvariant (es ++ [e]) t := by
  have effect := step_effect stepped
  obtain ⟨consistent, awaited, sockets, single, gone, read⟩ := inv
  have after := sockets.step consistent turn.closed effect
  exact ⟨consistent.step effect, awaited.step effect, after, single.step consistent turn.loop effect,
    gone.step sockets turn effect, read.step consistent awaited sockets single turn effect after⟩

theorem SocketInvariant.oneSocket (inv : SocketInvariant es s) : OneSocket es s := by
  refine ⟨?_, ?_, ?_, inv.gone.quiet⟩
  · intro _ j k upJ upK
    have held := inv.sockets.held j upJ
    rw [inv.sockets.held k upK] at held
    exact (Option.some.inj held).symm
  · intro _ k up
    have held := inv.sockets.held k up
    exact ⟨held, inv.consistent.reader.trans held⟩
  · intro settled k up
    rcases inv.read with ⟨i, j, joins⟩ | read
    · exact absurd (by rw [joins]; trivial) (settled i)
    · obtain ⟨task, live⟩ := read k up
      refine ⟨task, ?_⟩
      cases loop : (s.connections k).loop with
      | created => exact .inl rfl
      | reading r => exact .inr (.inl (by rw [inv.single.own k r loop]))
      | handling => exact .inr (.inr rfl)
      | notifying => exact absurd loop live.ne.2
      | done => exact absurd loop live.ne.1

/-- In every run whose sockets open in turn, the transport holds the only open socket, its reader task
reads it, and none is left after the last `disconnect()`. -/
theorem one_socket (codec : Codec) (es : List TransportEvent)
    (turns : Meets (step codec) InTurn init es) : Throughout (step codec) OneSocket init es := by
  intro pre before s reached
  have inv : SocketInvariant pre s := run_invariant_of_meets .init
    (fun _ _ _ _ inv turn stepped => inv.step turn stepped) (turns.of_prefix before) reached
  exact inv.oneSocket

/-- A `connect()`, and a `disconnect()` that cancels the reader loop. -/
def connectedOnce : List TransportEvent :=
  [.connect 0, .resume 0, .resume 0, .opened 0, .resume 0, .reader 0 .start, .disconnect 1,
    .reader 0 .cancelled, .reader 0 .notified, .resume 1, .resume 1, .disconnected 1]

theorem one_socket_connectedOnce :
    (run (step .sample) init connectedOnce).isSome = true ∧
      Throughout (step .sample) OneSocket init connectedOnce := by
  refine ⟨by decide, one_socket .sample connectedOnce (.of_getElem fun n e at_ t reached => ?_)⟩
  have opening : ∃ s, run (step .sample) init (connectedOnce.take 3) = some s ∧
      s.calls 0 = .connect .opening none ∧ (∀ j, s.calls (j + 1) = .idle) ∧
      ∀ k, s.connections k = .absent :=
    ⟨_, rfl, rfl, fun _ => rfl, fun _ => rfl⟩
  obtain ⟨s, ran, zero, rest, absent⟩ := opening
  have calls : ∀ j, s.calls j = .idle ∨ s.calls j = .connect .opening none := by
    rintro (_ | j)
    · exact .inr zero
    · exact .inl (rest j)
  have short : n < 12 := (List.getElem?_eq_some_iff.mp at_).1
  interval_cases n <;> cases at_ <;> try (refine .of_ne ?_ ?_ <;> simp; done)
  obtain rfl := Option.some.inj (ran.symm.trans reached)
  refine ⟨?_, ?_, ?_, ?_, nofun⟩
  · exact fun _ _ j at_ => by rcases calls j with h | h <;> rw [h] at at_ <;> cases at_
  · exact fun _ _ j at_ => by rcases calls j with h | h <;> rw [h] at at_ <;> cases at_
  · exact fun _ _ => by unfold Quiet; decide
  · exact fun _ _ k => by rw [absent]; exact id

/-- `disconnect()` runs while `open_connection` is under way. -/
def staleConnect : List TransportEvent :=
  [.connect 0, .resume 0, .resume 0, .disconnect 1, .disconnected 1, .opened 0, .resume 0]

/-- The socket that opens after `disconnect()` returned stays open. -/
theorem staleConnect_not_one : ¬ Throughout (step .sample) OneSocket init staleConnect := by
  intro always
  obtain ⟨s, ran, up⟩ : ∃ s, run (step .sample) init staleConnect = some s ∧ s.Up 0 := ⟨_, rfl, rfl⟩
  exact (always.last ran).gone (by unfold Quiet; decide) 0 up

end HC33ProxyTransport

end MammotionRc.Server
