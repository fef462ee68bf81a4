import Mathlib.Tactic.IntervalCases
import MammotionRc.Soundness.TransportInvariants

/-! # What the reported availability says

Availability is written by `connect()`, by `disconnect()`, by the error path of `send()` and by the
`finally` of a reader loop, while `is_connected` only looks at the writer. An `open_connection` that
raises anything but an `OSError` leaves CONNECTING behind, a socket that opens beside an older reader loop
or an older message is declared DISCONNECTED by these when they end, and after an EOF the writer still
counts as connected, so that `send()` writes to it. In runs without these steps both values agree.
-/

namespace MammotionRc.Server

open Framing Machine

/-- `disconnect()` has yet to announce DISCONNECTED. -/
@[simp, grind] def CallPc.Disconnecting : CallPc → Prop
  | .joinReader _ | .waitClosed => True
  | .idle | .connect _ _ | .notifyDisconnected | .sendLockWait _ | .posting _ _ _ _
  | .notifySendFailed => False

@[grind →]
theorem CallPc.Disconnecting.cases {pc : CallPc} (disconnecting : pc.Disconnecting) :
    (∃ k, pc = .joinReader k) ∨ pc = .waitClosed := by
  cases pc <;> simp_all

namespace HC33ProxyTransport

/-- No call is in progress, and each reader loop is done or waits for a peer that may still send. -/
structure Quiescent (s : HC33ProxyTransport) : Prop where
  calls : ∀ i, s.calls i = .idle
  loops : ∀ k, (s.connections k).loop = .done ∨
    ∃ r, (s.connections k).loop = .reading r ∧ (s.connections r).socket = .established

/-- The reported availability is true. The last field holds at any moment: nothing that an older connection leaves
behind takes back the CONNECTED of the current one. -/
structure Truthful (s : HC33ProxyTransport) : Prop where
  connected : Quiescent s → (s.availability = .connected ↔
    s.isConnected = true ∧ ∃ k j, s.writer = some k ∧ (s.connections j).loop = .reading k)
  settled : Quiescent s → s.availability = .connected ∨ s.availability = .disconnected
  current : ∀ k, s.writer = some k → s.Up k → (s.connections k).loop.Live → s.availability = .connected

/-- A `send()` that starts on a connection whose peer is gone goes through `connect()` first. -/
def SendsReconnect (codec : Codec) (s : HC33ProxyTransport) (e : TransportEvent) : Prop :=
  ∀ i payload, e = .send i payload → s.calls i = .idle →
    (∀ w, s.writer = some w → (s.connections w).socket ≠ .established) →
      s.step codec e = some (s.suspend i (.connect .lockWait (some payload)))

/-- `connect()` is not aborted while its CONNECTING stands, nor `disconnect()` while CONNECTED does; no
socket opens while an older reader loop runs or a `send()` is inside its codec; and no `send()` starts on
a connection that its peer half-closed. -/
structure KeepsTruth (s : HC33ProxyTransport) (e : TransportEvent) : Prop where
  connects : ∀ i, e = .openRaised i ∨ e = .cancelled i → (s.calls i).Connecting →
    s.availability ≠ .connecting
  disconnects : ∀ i, e = .cancelled i → s.calls i = .waitClosed → s.availability ≠ .connected
  loop : OpensAfterLoop s e
  posted : OpensAfterPost s e
  peer : ∀ i payload w, e = .send i payload → s.writer = some w →
    (s.connections w).socket ≠ .peerClosed

variable {codec : Codec} {s t : HC33ProxyTransport} {e : TransportEvent}

/-- CONNECTING is announced by a `connect()` that will replace it. -/
def Announced (s : HC33ProxyTransport) : Prop :=
  s.availability = .connecting → ∃ i, (s.calls i).Connecting

/-- CONNECTED is backed by the reader loop of the current connection, or about to be withdrawn. -/
def Backed (s : HC33ProxyTransport) : Prop :=
  s.availability = .connected →
    (∃ k, s.writer = some k ∧ (s.connections k).loop.Live) ∨ ∃ i, (s.calls i).Disconnecting

/-- A current connection with its reader loop is announced. -/
def Current (s : HC33ProxyTransport) : Prop :=
  ∀ k, s.writer = some k → s.Up k → (s.connections k).loop.Live → s.availability = .connected

theorem Announced.step (announced : Announced s) (keeps : KeepsTruth s e)
    (effect : Effect codec s e t) : Announced t := by
  intro connecting
  cases effect with
  | locked i was lock down => exact ⟨i, by simp⟩
  | unlockConnect i free was aborted running =>
    obtain ⟨j, connects⟩ := announced connecting
    have other : j ≠ i := by
      rintro rfl
      exact keeps.connects j (aborted connects) connects connecting
    exact ⟨j, by grind⟩
  | opened i was | openFailed i was | droppedNone i held was running | dropped i was
  | postRefused i was lock message | postFailed i was next down | drainFailed i was closing
  | readerFinally k requested pending live why => cases connecting
  | _ =>
    obtain ⟨j, connects⟩ := announced connecting
    exact ⟨j, by grind⟩

theorem Backed.step (inv : Consistent s) (awaited : Awaited s) (backed : Backed s)
    (keeps : KeepsTruth s e) (effect : Effect codec s e t) : Backed t := by
  intro connected
  cases effect with
  | opened i was => exact .inl ⟨s.opened, rfl, by simp [connectOpened, Connection.fresh]⟩
  | closed i w held was running => exact .inr ⟨i, by simp⟩
  | locked i was lock down | openFailed i was | droppedNone i held was running | dropped i was
  | postRefused i was lock message | postFailed i was next down | drainFailed i was closing
  | readerFinally k requested pending live why => cases connected
  | readerStopped k requested was =>
    rcases backed connected with ⟨k', held, live⟩ | ⟨j, disconnects⟩
    · by_cases same : k' = k
      · subst same
        rcases was with notifying | cancelled | gone
        · exact absurd notifying live.ne.2
        · obtain ⟨j, joins⟩ := awaited k' cancelled live.ne.1
          exact .inr ⟨j, by rw [setConnection_calls, joins]; trivial⟩
        · rw [inv.reader, held] at gone
          cases gone
      · exact .inl ⟨k', held, by grind⟩
    · exact .inr ⟨j, disconnects⟩
  | free i free running was aborted =>
    rcases backed connected with current | ⟨j, disconnects⟩
    · exact .inl current
    · have other : j ≠ i := by
        rintro rfl
        have closing : s.calls j = .waitClosed := by grind
        exact keeps.disconnects j (aborted closing) closing connected
      exact .inr ⟨j, by grind⟩
  | _ =>
    rcases backed connected with ⟨k, held, live⟩ | ⟨j, disconnects⟩
    · exact .inl ⟨k, held, by grind⟩
    · exact .inr ⟨j, by grind⟩

theorem Current.step (inv : Consistent s) (single : SingleLoop s) (posts : PostsOwn s)
    (current : Current s) (effect : Effect codec s e t) : Current t := by
  intro k
  have before := current k
  cases effect with
  | locked i was lock down => exact fun held up _ => absurd up (down k held)
  | openFailed i was =>
    exact fun held up _ => absurd up (inv.connecting i (by rw [was]; trivial) k held)
  | postRefused i was lock message =>
    intro held
    rw [postFailed, suspend_writer, show s.writer = none from inv.message ▸ message] at held
    cases held
  | postFailed i was next down =>
    intro held up
    refine absurd ?_ (down k held)
    rw [Up, ← emit_socket s _ k]
    exact up
  | @drainFailed i payload m n w was closing =>
    obtain ⟨newest, own⟩ := posts i payload m (some w) n was
    intro held up
    have same : k = w := by
      have := inv.writer k held
      have := own w rfl
      omega
    exact absurd (same ▸ up) closing
  | readerFinally k' requested pending live why =>
    intro held up alive
    by_cases same : k = k'
    · simp [same] at alive
    · have mine := inv.writer k held
      have other := single.newest k' live
      omega
  | _ => grind

/-- What the runs that keep the truth keep. -/
structure TruthInvariant (s : HC33ProxyTransport) : Prop where
  consistent : Consistent s
  awaited : Awaited s
  single : SingleLoop s
  posts : PostsOwn s
  announced : Announced s
  backed : Backed s
  current : Current s

theorem TruthInvariant.init : TruthInvariant init := by
  refine ⟨.init, nofun, ⟨?_, nofun⟩, nofun, nofun, nofun, nofun⟩
  intro k live
  cases live

theorem TruthInvariant.step (inv : TruthInvariant s) (keeps : KeepsTruth s e)
    (stepped : s.step codec e = some t) : TruthInvariant t := by
  have effect := step_effect stepped
  obtain ⟨consistent, awaited, single, posts, announced, backed, current⟩ := inv
  exact ⟨consistent.step effect, awaited.step effect, single.step consistent keeps.loop effect,
    posts.step consistent keeps.posted effect, announced.step keeps effect,
    backed.step consistent awaited keeps effect, current.step consistent single posts effect⟩

theorem TruthInvariant.truthful (inv : TruthInvariant s) : Truthful s := by
  refine ⟨fun quiescent => ⟨fun connected => ?_, ?_⟩, fun quiescent => ?_, inv.current⟩
  · rcases inv.backed connected with ⟨k, held, live⟩ | ⟨i, disconnects⟩
    · rcases quiescent.loops k with done | ⟨r, reading, up⟩
      · exact absurd done live.ne.1
      · obtain rfl := inv.single.own k r reading
        exact ⟨isConnected_iff.mpr ⟨r, held, by rw [Up, up]; rfl⟩, r, r, held, reading⟩
    · rw [quiescent.calls i] at disconnects
      cases disconnects
  · rintro ⟨connected, k, j, held, reading⟩
    obtain ⟨w, same, up⟩ := isConnected_iff.mp connected
    obtain rfl := Option.some.inj (held.symm.trans same)
    obtain rfl := inv.single.own j k reading
    exact inv.current k held up (by rw [reading]; trivial)
  · cases availability : s.availability with
    | connecting =>
      obtain ⟨i, connects⟩ := inv.announced availability
      rw [quiescent.calls i] at connects
      cases connects
    | connected => exact .inl rfl
    | disconnected => exact .inr rfl

theorem KeepsTruth.sendsReconnect (keeps : KeepsTruth s e) : SendsReconnect codec s e := by
  rintro i payload rfl idle gone
  have down : s.isConnected = false := by
    rw [← Bool.not_eq_true, isConnected_iff]
    rintro ⟨w, held, up⟩
    have half := keeps.peer i payload w rfl held
    have ends := gone w held
    cases socket : (s.connections w).socket with
    | established => exact ends socket
    | peerClosed => exact half socket
    | lost | closed => rw [Up, socket] at up; cases up
  simp only [HC33ProxyTransport.step, idle, down, Bool.false_eq_true, if_false]

/-- In every run that keeps the truth, availability and `is_connected` agree whenever nothing is pending,
and a `send()` on a connection whose peer is gone reconnects. -/
theorem availability_truth (codec : Codec) (es : List TransportEvent)
    (kept : Meets (step codec) (fun _ => KeepsTruth) init es) :
    Throughout (step codec) (fun _ => Truthful) init es ∧
      Meets (step codec) (fun _ => SendsReconnect codec) init es := by
  constructor
  · intro pre before s reached
    have inv : TruthInvariant s := by
      refine run_invariant_of_meets (I := fun _ => TruthInvariant) .init ?_ (kept.of_prefix before)
        reached
      exact fun _ _ _ _ inv keeps stepped => inv.step keeps stepped
    exact inv.truthful
  · exact kept.mono fun _ _ _ keeps => keeps.sendsReconnect

/-- The connection is reset and the next `send()` finds it so. -/
def resetOnce : List TransportEvent :=
  [.connect 0, .resume 0, .resume 0, .opened 0, .resume 0, .reader 0 .start, .connectionLost 0,
    .reader 0 .ended, .reader 0 .notified, .send 1 [1]]

theorem availability_truth_resetOnce :
    (run (step .sample) init resetOnce).isSome = true ∧
      Throughout (step .sample) (fun _ => Truthful) init resetOnce ∧
      Meets (step .sample) (fun _ => SendsReconnect .sample) init resetOnce := by
  refine ⟨by decide, availability_truth .sample resetOnce (.of_getElem fun n e at_ t reached => ?_)⟩
  obtain ⟨s, opening, zero, rest, absent⟩ : ∃ s, run (step .sample) init (resetOnce.take 3) = some s ∧
      s.calls 0 = .connect .opening none ∧ (∀ j, s.calls (j + 1) = .idle) ∧
      ∀ k, s.connections k = .absent := ⟨_, rfl, rfl, fun _ => rfl, fun _ => rfl⟩
  obtain ⟨u, sending, writer, lost⟩ : ∃ u, run (step .sample) init (resetOnce.take 9) = some u ∧
      u.writer = some 0 ∧ (u.connections 0).socket = .lost := ⟨_, rfl, rfl, rfl⟩
  have short : n < 10 := (List.getElem?_eq_some_iff.mp at_).1
  interval_cases n <;> cases at_ <;> try (refine ⟨?_, ?_, ?_, ?_, ?_⟩ <;> intro _ <;> simp; done)
  · obtain rfl := Option.some.inj (opening.symm.trans reached)
    refine ⟨by simp, by simp, fun _ _ k => by rw [absent]; exact id, ?_, by simp⟩
    rintro _ _ (_ | j) p k d n at_
    · rw [zero] at at_
      cases at_
    · rw [rest] at at_
      cases at_
  · obtain rfl := Option.some.inj (sending.symm.trans reached)
    refine ⟨by simp, by simp, by rintro _ ⟨⟩, by rintro _ ⟨⟩, ?_⟩
    rintro i payload w - held
    rw [writer] at held
    cases held
    rw [lost]
    rintro ⟨⟩

/-- `open_connection` is cancelled. -/
def abortedConnect : List TransportEvent := [.connect 0, .resume 0, .resume 0, .openRaised 0]

/-- The peer closes its side, the reader loop ends, and the next `send()` goes ahead. -/
def halfClosed : List TransportEvent :=
  [.connect 0, .resume 0, .resume 0, .opened 0, .resume 0, .reader 0 .start, .peerClosed 0,
    .reader 0 .ended, .reader 0 .notified, .send 1 [1]]

/-- An aborted `connect()` leaves CONNECTING behind for good, and after an EOF `send()` does not
reconnect. -/
theorem abortedConnect_not_truthful :
    ¬ Throughout (step .sample) (fun _ => Truthful) init abortedConnect ∧
      ¬ Meets (step .sample) (fun _ => SendsReconnect .sample) init halfClosed := by
  constructor
  · intro always
    obtain ⟨s, ran, idle, absent, stuck⟩ : ∃ s, run (step .sample) init abortedConnect = some s ∧
        (∀ i, s.calls i = .idle) ∧ (∀ k, s.connections k = .absent) ∧ s.availability = .connecting :=
      ⟨_, rfl, fun i => by cases i <;> rfl, fun _ => rfl, rfl⟩
    have quiescent : Quiescent s := ⟨idle, fun k => .inl (by rw [absent]; rfl)⟩
    rcases (always.last ran).settled quiescent with up | down
    · rw [stuck] at up
      cases up
    · rw [stuck] at down
      cases down
  · intro always
    obtain ⟨s, ran, idle, writer, half, up⟩ : ∃ s,
        run (step .sample) init (halfClosed.take 9) = some s ∧ s.calls 1 = .idle ∧
        s.writer = some 0 ∧ (s.connections 0).socket = .peerClosed ∧
        ((s.step .sample (.send 1 [1])).map fun t => t.calls 1) = some (.sendLockWait [1]) :=
      ⟨_, rfl, rfl, rfl, rfl, rfl⟩
    have reconnects := always (halfClosed.take 9) (.send 1 [1]) (List.prefix_refl _) s ran 1 [1] rfl idle
      fun w held => by
        rw [writer] at held
        cases held
        rw [half]
        nofun
    rw [reconnects, Option.map_some, suspend_calls, if_pos rfl] at up
    cases up

end HC33ProxyTransport

end MammotionRc.Server
