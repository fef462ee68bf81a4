import MammotionRc.Soundness.TransportSteps

/-! # Calls that only close

A link on which nobody is inside `connect()` or `send()` opens no socket, and a `disconnect()` that has joined
the reader loop leaves it without a connection. A step moves only the call of the task that takes it.
-/

namespace MammotionRc.Server

open Framing Machine

/-- Nothing, or a `disconnect()`, is in progress. -/
@[simp, grind] def CallPc.Closing : CallPc → Prop
  | .idle | .joinReader _ | .waitClosed | .notifyDisconnected => True
  | .connect _ _ | .sendLockWait _ | .posting _ _ _ _ | .notifySendFailed => False

/-- The task whose call an event moves. -/
@[simp] def TransportEvent.caller : TransportEvent → Option ℕ
  | .connect i | .disconnect i | .send i _ | .resume i | .disconnected i | .opened i | .openFailed i
  | .openRaised i | .drainFailed i | .cancelled i => some i
  | .reader _ _ | .peerClosed _ | .connectionLost _ => none

/-- The event begins a `connect()` or a `send()` of task `i`. -/
@[simp] def TransportEvent.Begins (i : ℕ) : TransportEvent → Prop
  | .connect j | .send j _ => j = i
  | _ => False

theorem CallPc.Closing.cases {pc : CallPc} (closing : pc.Closing) :
    pc = .idle ∨ (∃ k, pc = .joinReader k) ∨ pc = .waitClosed ∨ pc = .notifyDisconnected := by
  cases pc <;> simp_all

namespace HC33ProxyTransport

variable {codec : Codec} {s t : HC33ProxyTransport} {e : TransportEvent} {n : ℕ}

theorem Effect.opened_eq (effect : Effect codec s e t) : (∃ i, e = .opened i) ∨ t.opened = s.opened := by
  cases effect with
  | opened i was => exact .inl ⟨i, rfl⟩
  | _ => exact .inr rfl

/-- Only `open_connection` connects a transport. -/
theorem Effect.isConnected_of (effect : Effect codec s e t) (up : t.isConnected = true) :
    (∃ i, e = .opened i) ∨ s.isConnected = true := by
  rw [isConnected_iff] at up ⊢
  obtain ⟨w, held, up⟩ := up
  cases effect with
  | opened i was => exact .inl ⟨i, rfl⟩
  | _ => right; grind

/-- Task `i` alone moved, to `pc`. -/
def MovesOnly (s t : HC33ProxyTransport) (i : ℕ) : Prop := ∃ pc, t.calls = Function.update s.calls i pc

theorem MovesOnly.calls {i : ℕ} (moves : MovesOnly s t i) (other : n ≠ i) : t.calls n = s.calls n := by
  obtain ⟨pc, calls⟩ := moves
  rw [calls, Function.update_of_ne other]

theorem checkMessage_moves (s : HC33ProxyTransport) (i : ℕ) (payload : Bytes) :
    MovesOnly s (s.checkMessage i payload) i := by
  rw [checkMessage]
  split_ifs <;> exact ⟨_, rfl⟩

theorem connectReturned_moves (s : HC33ProxyTransport) (i : ℕ) (payload : Option Bytes) :
    MovesOnly s (s.connectReturned i payload) i := by
  cases payload with
  | none => exact ⟨_, rfl⟩
  | some payload => exact checkMessage_moves s i payload

theorem closeWriter_moves (s : HC33ProxyTransport) (i : ℕ) :
    MovesOnly s (s.closeWriter i) i ∧ ((s.closeWriter i).calls i).Closing := by
  rw [closeWriter]
  split
  · exact ⟨⟨_, rfl⟩, by rw [suspend_calls, if_pos rfl]; trivial⟩
  · exact ⟨⟨_, rfl⟩, by rw [dropWriter, suspend_calls, if_pos rfl]; trivial⟩

theorem startDisconnect_moves (s : HC33ProxyTransport) (i : ℕ) :
    MovesOnly s (s.startDisconnect i) i ∧ ((s.startDisconnect i).calls i).Closing := by
  rw [startDisconnect]
  split
  · split_ifs
    · exact closeWriter_moves s i
    · exact ⟨⟨_, rfl⟩, by rw [suspend_calls, if_pos rfl]; trivial⟩
  · exact closeWriter_moves s i

theorem sendFrame_moves (s : HC33ProxyTransport) (i : ℕ) (payload : Bytes) (k n : ℕ) (frame : BlufiFrame) :
    MovesOnly s (s.sendFrame i payload k n frame) i := by
  rw [sendFrame]
  split
  · split_ifs <;> exact ⟨_, rfl⟩
  · exact ⟨_, rfl⟩

theorem resume_moves {i : ℕ} (resumed : s.resume codec i = some t) : MovesOnly s t i := by
  rw [resume] at resumed
  split at resumed
  · split_ifs at resumed
    cases resumed
    rw [connectLocked]
    split_ifs
    · exact connectReturned_moves s i _
    · exact ⟨_, rfl⟩
  · cases resumed
    exact ⟨_, rfl⟩
  · cases resumed
    exact ⟨_, rfl⟩
  · cases resumed
    exact connectReturned_moves { s with connectLock := none } i _
  · split_ifs at resumed
    cases resumed
    exact (closeWriter_moves s i).1
  · cases resumed
    exact ⟨_, rfl⟩
  · split_ifs at resumed
    cases resumed
    rw [startPost]
    split <;> exact ⟨_, rfl⟩
  · cases resumed
    rw [postNext]
    split
    · exact sendFrame_moves _ i _ _ _ _
    · exact ⟨_, rfl⟩
  · cases resumed
    exact ⟨_, rfl⟩
  · cases resumed
  · cases resumed
  · cases resumed

theorem stepReader_calls {k : ℕ} {action : ReaderAction} (stepped : s.stepReader k action = some t) :
    t.calls = s.calls := by
  have next : (s.readerNext k).calls = s.calls := by
    rw [readerNext]
    split
    · split_ifs <;> rfl
    · rfl
  simp only [stepReader] at stepped
  split at stepped
  · split_ifs at stepped <;> cases stepped
    · rfl
    · exact next
  · split_ifs at stepped <;> cases stepped
    · rfl
    · exact next
  · cases stepped
    exact next
  · split_ifs at stepped
    cases stepped
    rfl
  · cases stepped
    rfl
  · cases stepped
    rfl
  · split_ifs at stepped
    split at stepped <;> cases stepped <;> rfl
  · cases stepped
    rfl
  · cases stepped

/-- A step moves the call of its caller, and no other. -/
theorem step_calls (stepped : s.step codec e = some t) (other : e.caller ≠ some n) :
    t.calls n = s.calls n := by
  have ne : ∀ i, e.caller = some i → n ≠ i := by
    rintro i caller rfl
    exact other caller
  cases e with
  | connect i | disconnected i | opened i | openFailed i | openRaised i =>
    simp only [step] at stepped
    split at stepped <;> cases stepped
    exact MovesOnly.calls ⟨_, rfl⟩ (ne i rfl)
  | disconnect i =>
    simp only [step] at stepped
    split at stepped <;> cases stepped
    exact (startDisconnect_moves s i).1.calls (ne i rfl)
  | send i payload =>
    simp only [step] at stepped
    split at stepped
    · split_ifs at stepped <;> cases stepped
      · exact (checkMessage_moves s i payload).calls (ne i rfl)
      · exact MovesOnly.calls ⟨_, rfl⟩ (ne i rfl)
    · cases stepped
  | resume i => exact (resume_moves stepped).calls (ne i rfl)
  | drainFailed i =>
    simp only [step] at stepped
    split at stepped
    · split_ifs at stepped
      cases stepped
      exact MovesOnly.calls ⟨_, rfl⟩ (ne i rfl)
    · cases stepped
  | cancelled i =>
    simp only [step, cancelCall] at stepped
    split at stepped <;> cases stepped <;> first
      | exact MovesOnly.calls ⟨_, rfl⟩ (ne i rfl)
      | rfl
  | reader k action => rw [stepReader_calls stepped]
  | peerClosed k | connectionLost k =>
    simp only [step] at stepped
    split at stepped <;> cases stepped <;> rfl

/-- What a task that begins neither `connect()` nor `send()` does inside a `disconnect()`. -/
theorem step_disconnecting (stepped : s.step codec e = some t) (closing : (s.calls n).Closing)
    (begins : ¬ e.Begins n) (caller : e.caller = some n) :
    e = .disconnect n ∧ t = s.startDisconnect n ∨
      (∃ k, s.calls n = .joinReader k ∧ (t = s.closeWriter n ∨ t = s.cancelReader k)) ∨
      s.calls n = .waitClosed ∧ (t = s.dropWriter n ∨ t = s.suspend n .idle) ∨
      s.calls n = .notifyDisconnected ∧ t = s.suspend n .idle := by
  obtain at_ | ⟨k, at_⟩ | at_ | at_ := CallPc.Closing.cases closing <;>
    cases e <;> cases caller <;> simp only [step, resume, cancelCall, at_] at stepped <;>
    first
      | contradiction
      | (split_ifs at stepped; cases stepped; grind)
      | (cases stepped; grind)

/-- A task that begins neither `connect()` nor `send()` stays out of them. -/
theorem step_closing (stepped : s.step codec e = some t) (closing : (s.calls n).Closing)
    (begins : ¬ e.Begins n) : (t.calls n).Closing := by
  by_cases caller : e.caller = some n
  · obtain ⟨_, rfl⟩ | ⟨k, at_, rfl | rfl⟩ | ⟨_, rfl | rfl⟩ | ⟨_, rfl⟩ :=
      step_disconnecting stepped closing begins caller
    · exact (startDisconnect_moves s n).2
    · exact (closeWriter_moves s n).2
    · exact closing
    · rw [dropWriter, suspend_calls, if_pos rfl]; trivial
    · rw [suspend_calls, if_pos rfl]; trivial
    · rw [suspend_calls, if_pos rfl]; trivial
  · rw [step_calls stepped caller]
    exact closing

/-- A cancelled call is over, unless it is a `disconnect()` that joins the reader loop. -/
theorem cancelled_closing (stepped : s.step codec (.cancelled n) = some t) : (t.calls n).Closing := by
  simp only [step, cancelCall] at stepped
  split at stepped <;> cases stepped
  case h_6 k at_ =>
    rw [cancelReader, setConnection_calls, at_]
    trivial
  all_goals
    first
      | rw [connectRaised, suspend_calls, if_pos rfl]; trivial
      | rw [releaseSend, suspend_calls, if_pos rfl]; trivial
      | rw [suspend_calls, if_pos rfl]; trivial

/-- Nobody connects or sends on the link, and it has no connection. -/
structure Dead (s : HC33ProxyTransport) : Prop where
  down : s.isConnected = false
  closing : ∀ n, (s.calls n).Closing

/-- The `disconnect()` of task `n` is in front of its reader loop, or the link has no connection. -/
def Disconnects (s : HC33ProxyTransport) (n : ℕ) : Prop :=
  s.isConnected = false ∨ ∃ k, s.calls n = .joinReader k

theorem not_opened (stepped : s.step codec e = some t) (closing : ∀ n, (s.calls n).Closing) :
    ∀ i, e ≠ .opened i := by
  rintro i rfl
  simp only [step] at stepped
  split at stepped
  next payload at_ => exact absurd (closing i) (by rw [at_]; exact id)
  next => cases stepped

/-- Without a call that connects or sends, a link without a connection gets none. -/
theorem Dead.step (dead : Dead s) (stepped : s.step codec e = some t) (begins : ∀ n, ¬ e.Begins n) :
    Dead t ∧ t.opened = s.opened := by
  have effect := step_effect stepped
  have never := not_opened stepped dead.closing
  refine ⟨⟨Bool.eq_false_of_not_eq_true fun up => ?_, fun n => step_closing stepped (dead.closing n) (begins n)⟩,
    effect.opened_eq.resolve_left fun ⟨i, opens⟩ => never i opens⟩
  have before := (effect.isConnected_of up).resolve_left fun ⟨i, opens⟩ => never i opens
  rw [dead.down] at before
  cases before

theorem closeWriter_down (s : HC33ProxyTransport) (i : ℕ) : (s.closeWriter i).isConnected = false := by
  refine Bool.eq_false_of_not_eq_true fun up => ?_
  obtain ⟨w, held, up⟩ := isConnected_iff.mp up
  rw [closeWriter] at held up
  split at held
  · grind
  · cases held

theorem startDisconnect_disconnects (s : HC33ProxyTransport) (i : ℕ) : Disconnects (s.startDisconnect i) i := by
  rw [startDisconnect]
  split
  · split_ifs
    · exact .inl (closeWriter_down s i)
    · exact .inr ⟨_, by rw [suspend_calls, if_pos rfl]⟩
  · exact .inl (closeWriter_down s i)

theorem Disconnects.step (disconnects : Disconnects s n) (closing : ∀ m, (s.calls m).Closing)
    (stepped : s.step codec e = some t) (begins : ∀ m, ¬ e.Begins m) : Disconnects t n := by
  rcases disconnects with down | ⟨k, at_⟩
  · exact .inl (Dead.step ⟨down, closing⟩ stepped begins).1.down
  by_cases caller : e.caller = some n
  · obtain ⟨rfl, rfl⟩ | ⟨j, _, rfl | rfl⟩ | ⟨other, _⟩ | ⟨other, _⟩ :=
      step_disconnecting stepped (closing n) (begins n) caller
    · exact startDisconnect_disconnects s n
    · exact .inl (closeWriter_down s n)
    · exact .inr ⟨k, at_⟩
    · rw [at_] at other; cases other
    · rw [at_] at other; cases other
  · exact .inr ⟨k, by rw [step_calls stepped caller, at_]⟩

end HC33ProxyTransport

end MammotionRc.Server
