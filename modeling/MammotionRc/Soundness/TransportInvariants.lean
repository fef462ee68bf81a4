import MammotionRc.Soundness.TransportSteps

/-! # Invariants of the transport

`Consistent` holds in every state that the transport can reach. The other invariants need a promise about
the moments at which a socket opens: `SocketHeld` that no `disconnect()` is waiting for the old one to
close, `SingleLoop` that no reader loop of an older connection runs, `PostsOwn` that no `send` is inside
its codec.
-/

namespace MammotionRc.Server

open Framing Machine

namespace HC33ProxyTransport

variable {codec : Codec} {s t : HC33ProxyTransport} {e : TransportEvent}

/-- What every run keeps: both streams and the codec belong to the newest connection, each lock has one
holder, and only its holder finds the transport disconnected and opens a socket. -/
structure Consistent (s : HC33ProxyTransport) : Prop where
  reader : s.reader = s.writer
  message : s.message = s.writer
  writer : ∀ k, s.writer = some k → k + 1 = s.opened
  readerTask : ∀ k, s.readerTask = some k → k + 1 = s.opened
  absent : ∀ k, s.opened ≤ k → (s.connections k).loop = .done ∧ (s.connections k).socket = .closed
  connectLock : ∀ i, (s.calls i).HoldsConnectLock → s.connectLock = some i
  sendLock : ∀ i, (s.calls i).HoldsSendLock → s.sendLock = some i
  connecting : ∀ i, (s.calls i).Connecting → ∀ w, s.writer = some w → ¬ s.Up w

theorem Consistent.init : Consistent init := by
  constructor <;> simp [HC33ProxyTransport.init, Connection.absent]

/-- A lock that only its holder releases, and that is only taken when it is free, has one holder. -/
private theorem lock_of_moved {holds : ℕ → Prop} {lock lock' : Option ℕ}
    (held : ∀ i, holds i → lock = some i) {j : ℕ}
    (moved : lock' = some j ∨ (holds j ∧ (lock' = lock ∨ lock = none ∨ ∃ i, i ≠ j ∧ holds i))) :
    lock' = some j := by
  rcases moved with taken | ⟨mine, same | free | ⟨i, other, also⟩⟩
  · exact taken
  · exact same.trans (held j mine)
  · cases free.symm.trans (held j mine)
  · exact absurd (Option.some.inj ((held i also).symm.trans (held j mine))) other

theorem Consistent.connecting_step (inv : Consistent s) (effect : Effect codec s e t) {j w : ℕ}
    (connecting : (t.calls j).Connecting) (held : t.writer = some w) : ¬ t.Up w := by
  intro up
  by_cases opening : ∃ i, e = .opened i
  · obtain ⟨i, rfl⟩ := opening
    obtain ⟨payload, was, rfl⟩ := effect.of_opened
    have other : j ≠ i := by
      rintro rfl
      simp [connectOpened] at connecting
    have still : (s.calls j).Connecting := by simpa [connectOpened, other] using connecting
    have mine := inv.connectLock i (by rw [was]; trivial)
    exact other (Option.some.inj ((inv.connectLock j still.holds).symm.trans mine))
  · have heldBefore := (effect.newest.resolve_left fun opened => opening opened.1).2.1 w held
    have upBefore := (effect.up_of_up up).resolve_left opening
    rcases effect.connecting_of connecting with before | down
    · exact inv.connecting j before w heldBefore upBefore
    · exact down w heldBefore upBefore

theorem Consistent.step (inv : Consistent s) (effect : Effect codec s e t) : Consistent t := by
  have streams : t.reader = t.writer ∧ t.message = t.writer := by
    rcases effect.streams with ⟨reader, message, writer⟩ | same
    · exact ⟨reader.trans (inv.reader.trans writer.symm), message.trans (inv.message.trans writer.symm)⟩
    · exact same
  have newest : s.opened ≤ t.opened ∧ (∀ k, t.writer = some k → k + 1 = t.opened) ∧
      ∀ k, t.readerTask = some k → k + 1 = t.opened := by
    rcases effect.newest with ⟨_, opened, writer, task⟩ | ⟨opened, writer, task⟩
    · rw [opened, writer, task]
      exact ⟨Nat.le_succ _, fun k now => by cases now; rfl, fun k now => by cases now; rfl⟩
    · rw [opened]
      exact ⟨le_rfl, fun k now => inv.writer k (writer k now), fun k now => inv.readerTask k (task k now)⟩
  refine ⟨streams.1, streams.2, newest.2.1, newest.2.2, fun k later => ?_,
    fun i holds => lock_of_moved inv.connectLock (effect.connectLock_of holds),
    fun i holds => lock_of_moved inv.sendLock (effect.sendLock_of holds),
    fun i connecting w => inv.connecting_step effect connecting⟩
  have before : s.opened ≤ k := newest.1.trans later
  refine effect.absent_of later (fun held => ?_) (inv.absent k before)
  have := inv.writer k held
  omega

/-- A reader loop with an outstanding cancellation is awaited by a `disconnect()`. -/
def Awaited (s : HC33ProxyTransport) : Prop :=
  ∀ k, (s.connections k).cancelRequested = true → (s.connections k).loop ≠ .done →
    ∃ i, s.calls i = .joinReader k

/-- A step that keeps the waiting calls and requests no further cancellation. -/
private theorem Awaited.of_kept (awaited : Awaited s)
    (calls : ∀ i k, s.calls i = .joinReader k → (s.connections k).loop ≠ .done →
      t.calls i = .joinReader k)
    (loops : ∀ k, (t.connections k).cancelRequested = true → (t.connections k).loop ≠ .done →
      (s.connections k).cancelRequested = true ∧ (s.connections k).loop ≠ .done) : Awaited t := by
  intro k requested alive
  obtain ⟨requested, alive⟩ := loops k requested alive
  obtain ⟨i, joins⟩ := awaited k requested alive
  exact ⟨i, calls i k joins alive⟩

theorem Awaited.step (awaited : Awaited s) (effect : Effect codec s e t) : Awaited t := by
  cases effect with
  | joining i k idle task alive =>
    intro j requested live
    by_cases same : j = k
    · exact ⟨i, by rw [same]; exact Function.update_self ..⟩
    · simp only [suspend_connections, cancelReader, setConnection_connections, if_neg same]
        at requested live
      obtain ⟨i', joins⟩ := awaited j requested live
      have other : i' ≠ i := by
        rintro rfl
        rw [idle] at joins
        cases joins
      exact ⟨i', (Function.update_of_ne other ..).trans joins⟩
  | recancelled i k was =>
    intro j requested live
    by_cases same : j = k
    · exact ⟨i, by rw [same]; exact was⟩
    · simp only [cancelReader, setConnection_connections, if_neg same] at requested live
      exact awaited j requested live
  | _ => refine awaited.of_kept ?_ ?_ <;> grind

/-- No socket opens while a `disconnect()` waits for the previous one to close. -/
def OpensAfterClose (s : HC33ProxyTransport) (e : TransportEvent) : Prop :=
  ∀ i, e = .opened i → ∀ j, s.calls j ≠ .waitClosed

/-- The one socket that may be open is the one that the transport holds. -/
structure SocketHeld (s : HC33ProxyTransport) : Prop where
  held : ∀ k, s.Up k → s.writer = some k
  closed : ∀ i, s.calls i = .waitClosed → ∀ k, ¬ s.Up k

theorem SocketHeld.step (inv : Consistent s) (sockets : SocketHeld s) (opens : OpensAfterClose s e)
    (effect : Effect codec s e t) : SocketHeld t := by
  obtain ⟨held, closed⟩ := sockets
  by_cases opening : ∃ i, e = .opened i
  · obtain ⟨i, rfl⟩ := opening
    obtain ⟨payload, was, rfl⟩ := effect.of_opened
    have down : ∀ k, ¬ s.Up k := fun k up =>
      inv.connecting i (by rw [was]; trivial) k (held k up) up
    have open_ : ∀ j, s.calls j ≠ .waitClosed := opens i rfl
    constructor <;> grind
  · refine ⟨fun k up => ?_, fun i at_ k up => ?_⟩
    · have before := (effect.up_of_up up).resolve_left opening
      rcases effect.writer_eq.resolve_left opening with ⟨i, waiting⟩ | same
      · exact absurd before (closed i waiting k)
      · rw [same]
        exact held k before
    · have before := (effect.up_of_up up).resolve_left opening
      rcases effect.waitClosed_of at_ with waiting | ⟨w, writer, down⟩
      · exact closed i waiting k before
      · rw [held k before] at writer
        cases writer
        exact down up

/-- No socket opens while the reader loop of an older connection runs. -/
def OpensAfterLoop (s : HC33ProxyTransport) (e : TransportEvent) : Prop :=
  ∀ i, e = .opened i → ∀ k, ¬ (s.connections k).loop.Live

/-- At most the newest connection has a reader loop, and it reads its own stream. -/
structure SingleLoop (s : HC33ProxyTransport) : Prop where
  newest : ∀ k, (s.connections k).loop.Live → k + 1 = s.opened
  own : ∀ k r, (s.connections k).loop = .reading r → r = k

theorem SingleLoop.step (inv : Consistent s) (single : SingleLoop s) (opens : OpensAfterLoop s e)
    (effect : Effect codec s e t) : SingleLoop t := by
  obtain ⟨newest, own⟩ := single
  obtain ⟨reader, message, writer, readerTask, absent, -, -, -⟩ := inv
  cases effect with
  | opened i was =>
    have rest : ∀ k, ¬ (s.connections k).loop.Live := opens i rfl
    constructor <;> grind
  | readerReads k r live held =>
    have same : r = k := by
      have := newest k live
      have := writer r (reader ▸ held)
      omega
    constructor <;> grind
  | _ => constructor <;> grind

/-- No socket opens while a `send` is inside its codec. -/
def OpensAfterPost (s : HC33ProxyTransport) (e : TransportEvent) : Prop :=
  ∀ i, e = .opened i → ∀ j payload k draining n, s.calls j ≠ .posting payload k draining n

/-- A `send` inside its codec uses the newest connection only. -/
def PostsOwn (s : HC33ProxyTransport) : Prop :=
  ∀ i payload k draining n, s.calls i = .posting payload k draining n →
    k + 1 = s.opened ∧ ∀ w, draining = some w → w = k

theorem PostsOwn.step (inv : Consistent s) (posts : PostsOwn s) (opens : OpensAfterPost s e)
    (effect : Effect codec s e t) : PostsOwn t := by
  intro i payload k draining n
  obtain ⟨reader, message, writer, -, -, -, -, -⟩ := inv
  have same := posts i payload k draining n
  cases effect with
  | opened j was =>
    have free : ∀ j payload k draining n, s.calls j ≠ .posting payload k draining n := opens j rfl
    grind
  | _ => grind [PostsOwn]

end HC33ProxyTransport

end MammotionRc.Server
