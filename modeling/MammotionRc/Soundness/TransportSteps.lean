import MammotionRc.Server.HC33Proxy

/-! # What one step of the transport can do

`Effect` is the complete inversion of `HC33ProxyTransport.step`: one constructor for each kind of segment
between two awaits, with the guards under which it runs. The invariants of the transport are proved from
it and never unfold the step function.
-/

namespace MammotionRc.Server

open Framing Machine

/-- Positions at which a call relies on nothing. -/
@[simp, grind] def CallPc.Free : CallPc → Prop
  | .idle | .connect .lockWait _ | .sendLockWait _ => True
  | .connect .notifyConnecting _ | .connect .opening _ | .connect .notifyFailed _
  | .connect .notifyConnected _ | .joinReader _ | .waitClosed | .notifyDisconnected
  | .posting _ _ _ _ | .notifySendFailed => False

/-- Positions from which a call moves on without releasing a lock or having joined a reader loop. -/
@[simp, grind] def CallPc.Unlocked : CallPc → Prop
  | .idle | .connect .lockWait _ | .sendLockWait _ | .waitClosed | .notifyDisconnected => True
  | .connect .notifyConnecting _ | .connect .opening _ | .connect .notifyFailed _
  | .connect .notifyConnected _ | .joinReader _ | .posting _ _ _ _ | .notifySendFailed => False

/-- `connect()` has announced CONNECTING and its socket is not open yet. -/
@[simp, grind] def CallPc.Connecting : CallPc → Prop
  | .connect .notifyConnecting _ | .connect .opening _ => True
  | .idle | .connect .lockWait _ | .connect .notifyFailed _ | .connect .notifyConnected _
  | .joinReader _ | .waitClosed | .notifyDisconnected | .sendLockWait _ | .posting _ _ _ _
  | .notifySendFailed => False

@[simp, grind] def CallPc.HoldsConnectLock : CallPc → Prop
  | .connect .notifyConnecting _ | .connect .opening _ | .connect .notifyFailed _
  | .connect .notifyConnected _ => True
  | .idle | .connect .lockWait _ | .joinReader _ | .waitClosed | .notifyDisconnected
  | .sendLockWait _ | .posting _ _ _ _ | .notifySendFailed => False

@[simp, grind] def CallPc.HoldsSendLock : CallPc → Prop
  | .posting _ _ _ _ | .notifySendFailed => True
  | .idle | .connect _ _ | .joinReader _ | .waitClosed | .notifyDisconnected | .sendLockWait _ => False

@[grind →]
theorem CallPc.Free.holds {pc : CallPc} (free : pc.Free) :
    ¬ pc.HoldsConnectLock ∧ ¬ pc.HoldsSendLock ∧ ¬ pc.Connecting := by
  cases pc with
  | connect pc => cases pc <;> simp_all
  | _ => simp_all

@[grind →]
theorem CallPc.Connecting.holds {pc : CallPc} (connecting : pc.Connecting) : pc.HoldsConnectLock := by
  cases pc with
  | connect pc => cases pc <;> simp_all
  | _ => simp_all

@[grind →]
theorem CallPc.Unlocked.not_holds {pc : CallPc} (unlocked : pc.Unlocked) :
    ¬ pc.HoldsConnectLock ∧ ¬ pc.HoldsSendLock := by
  cases pc with
  | connect pc => cases pc <;> simp_all
  | _ => simp_all

@[grind →]
theorem CallPc.HoldsSendLock.not_connect {pc : CallPc} (holds : pc.HoldsSendLock) :
    ¬ pc.HoldsConnectLock := by
  cases pc <;> simp_all

/-- The reader loop is in front of its `finally`. -/
@[simp, grind] def ReaderPc.Live : ReaderPc → Prop
  | .created | .reading _ | .handling => True
  | .notifying | .done => False

/-- Neither a socket opens nor a `disconnect()` returns. -/
@[simp, grind] def TransportEvent.Plain : TransportEvent → Prop
  | .opened _ | .disconnected _ => False
  | .connect _ | .disconnect _ | .send _ _ | .resume _ | .openFailed _ | .openRaised _ | .drainFailed _
  | .cancelled _ | .reader _ _ | .peerClosed _ | .connectionLost _ => True

@[grind →]
theorem ReaderPc.Live.ne {pc : ReaderPc} (live : pc.Live) : pc ≠ .done ∧ pc ≠ .notifying := by
  cases pc <;> simp_all

namespace HC33ProxyTransport

/-- The socket of connection `k` is open on this side. -/
abbrev Up (s : HC33ProxyTransport) (k : ℕ) : Prop := (s.connections k).socket.isClosing = false

/-- Why the reader loop of connection `k` leaves its `while True`. -/
inductive Leaves (s : HC33ProxyTransport) (k : ℕ) (e : TransportEvent) : Prop
  | ended (r : ℕ) (reading : (s.connections k).loop = .reading r)
      (ends : (s.connections r).socket ≠ .established)
  | crashed (event : e = .reader k .crashed)
  | cancelled (requested : (s.connections k).cancelRequested = true)
  | noReader (gone : s.reader = none)
  | busy (j r : ℕ) (held : s.reader = some r) (other : j ≠ k)
      (reading : (s.connections j).loop = .reading r)

inductive Effect (codec : Codec) (s : HC33ProxyTransport) :
    TransportEvent → HC33ProxyTransport → Prop
  | free {e : TransportEvent} (i : ℕ) {pc : CallPc} (free : pc.Free) (running : e.Plain)
      (was : (s.calls i).Unlocked) (aborted : s.calls i = .waitClosed → e = .cancelled i) :
      Effect codec s e (s.suspend i pc)
  | returned (i : ℕ) (was : s.calls i = .notifyDisconnected) :
      Effect codec s (.disconnected i) (s.suspend i .idle)
  | unlockConnect {e : TransportEvent} (i : ℕ) {pc : CallPc} (free : pc.Free)
      (was : (s.calls i).HoldsConnectLock)
      (aborted : (s.calls i).Connecting → e = .openRaised i ∨ e = .cancelled i)
      (running : e.Plain) :
      Effect codec s e ({ s with connectLock := none }.suspend i pc)
  | locked (i : ℕ) {payload : Option Bytes} (was : s.calls i = .connect .lockWait payload)
      (lock : s.connectLock = none) (down : ∀ w, s.writer = some w → ¬ s.Up w) :
      Effect codec s (.resume i) ({ s with connectLock := some i, availability := .connecting }.suspend i
        (.connect .notifyConnecting payload))
  | opening (i : ℕ) {payload : Option Bytes} (was : s.calls i = .connect .notifyConnecting payload) :
      Effect codec s (.resume i) (s.suspend i (.connect .opening payload))
  | opened (i : ℕ) {payload : Option Bytes} (was : s.calls i = .connect .opening payload) :
      Effect codec s (.opened i) (s.connectOpened i payload)
  | openFailed (i : ℕ) {payload : Option Bytes} (was : s.calls i = .connect .opening payload) :
      Effect codec s (.openFailed i)
        ({ s with availability := .disconnected }.suspend i (.connect .notifyFailed payload))
  | joining (i k : ℕ) (idle : s.calls i = .idle) (task : s.readerTask = some k)
      (alive : (s.connections k).loop ≠ .done) :
      Effect codec s (.disconnect i) ((s.cancelReader k).suspend i (.joinReader k))
  | recancelled (i k : ℕ) (was : s.calls i = .joinReader k) :
      Effect codec s (.cancelled i) (s.cancelReader k)
  | closed {e : TransportEvent} (i w : ℕ) (held : s.writer = some w)
      (was : s.calls i = .idle ∨ ∃ k, s.calls i = .joinReader k ∧ (s.connections k).loop = .done)
      (running : e.Plain) :
      Effect codec s e (({ s with readerTask := none }.setConnection w
        { s.connections w with socket := .closed }).suspend i .waitClosed)
  | droppedNone {e : TransportEvent} (i : ℕ) (held : s.writer = none)
      (was : s.calls i = .idle ∨ ∃ k, s.calls i = .joinReader k ∧ (s.connections k).loop = .done)
      (running : e.Plain) :
      Effect codec s e ({ s with readerTask := none }.dropWriter i)
  | dropped (i : ℕ) (was : s.calls i = .waitClosed) : Effect codec s (.resume i) (s.dropWriter i)
  | startPost (i : ℕ) {payload : Bytes} {k : ℕ} (was : s.calls i = .sendLockWait payload)
      (lock : s.sendLock = none) (message : s.message = some k) :
      Effect codec s (.resume i) ({ s with sendLock := some i }.suspend i (.posting payload k none 0))
  | postRefused (i : ℕ) {payload : Bytes} (was : s.calls i = .sendLockWait payload)
      (lock : s.sendLock = none) (message : s.message = none) :
      Effect codec s (.resume i) ({ s with sendLock := some i }.postFailed i)
  | posted (i : ℕ) {payload : Bytes} {k n w : ℕ} {draining : Option ℕ} {fragment : Bytes}
      (was : s.calls i = .posting payload k draining n)
      (next : (codec.fragments payload)[n]? = some fragment) (held : s.writer = some w)
      (up : s.Up w) :
      Effect codec s (.resume i) (((s.emit k (s.nextFrame codec k fragment)).write w
        (s.nextFrame codec k fragment)).suspend i (.posting payload k (some w) (n + 1)))
  | postFailed (i : ℕ) {payload : Bytes} {k n : ℕ} {draining : Option ℕ} {fragment : Bytes}
      (was : s.calls i = .posting payload k draining n)
      (next : (codec.fragments payload)[n]? = some fragment) (down : ∀ w, s.writer = some w → ¬ s.Up w) :
      Effect codec s (.resume i) ((s.emit k (s.nextFrame codec k fragment)).postFailed i)
  | drainFailed (i : ℕ) {payload : Bytes} {k n w : ℕ}
      (was : s.calls i = .posting payload k (some w) n)
      (closing : ¬ s.Up w) :
      Effect codec s (.drainFailed i) (s.postFailed i)
  | released {e : TransportEvent} (i : ℕ) (was : (s.calls i).HoldsSendLock)
      (whole : ∀ payload k draining n, s.calls i = .posting payload k draining n →
        (codec.fragments payload)[n]? = none ∨ e = .cancelled i)
      (running : e.Plain) :
      Effect codec s e (s.releaseSend i)
  | readerReads {action : ReaderAction} (k r : ℕ) (live : (s.connections k).loop.Live)
      (held : s.reader = some r) : Effect codec s (.reader k action) (s.suspendReader k (.reading r))
  | readerHandles {action : ReaderAction} (k : ℕ) (live : (s.connections k).loop.Live) :
      Effect codec s (.reader k action) (s.suspendReader k .handling)
  | readerStopped {action : ReaderAction} (k : ℕ) (requested : Bool)
      (was : (s.connections k).loop = .notifying ∨ (s.connections k).cancelRequested = true ∨
        s.reader = none) :
      Effect codec s (.reader k action)
        (s.setConnection k { s.connections k with loop := .done, cancelRequested := requested })
  | readerFinally {action : ReaderAction} (k : ℕ) (requested : Bool)
      (pending : requested = true → (s.connections k).cancelRequested = true)
      (live : (s.connections k).loop.Live) (why : s.Leaves k (.reader k action)) :
      Effect codec s (.reader k action) ({ s with availability := .disconnected }.setConnection k
        { s.connections k with loop := .notifying, cancelRequested := requested })
  | peer {e : TransportEvent} (k : ℕ) (socket : SocketState) (ends : socket ≠ .established)
      (was : s.Up k) (running : e.Plain) :
      Effect codec s e (s.setConnection k { s.connections k with socket := socket })

variable {codec : Codec} {s t : HC33ProxyTransport} {e : TransportEvent}

private theorem checkMessage_eq (s : HC33ProxyTransport) (i : ℕ) (payload : Bytes) :
    ∃ pc : CallPc, pc.Free ∧ s.checkMessage i payload = s.suspend i pc := by
  simp only [checkMessage]
  split_ifs
  · exact ⟨.idle, trivial, rfl⟩
  · exact ⟨.sendLockWait payload, trivial, rfl⟩

private theorem connectReturned_eq (s : HC33ProxyTransport) (i : ℕ) (payload : Option Bytes) :
    ∃ pc : CallPc, pc.Free ∧ s.connectReturned i payload = s.suspend i pc := by
  cases payload with
  | none => exact ⟨.idle, trivial, rfl⟩
  | some payload => exact checkMessage_eq s i payload

private theorem closeWriter_effect {i : ℕ}
    (was : s.calls i = .idle ∨ ∃ k, s.calls i = .joinReader k ∧ (s.connections k).loop = .done)
    (running : e.Plain) : Effect codec s e (s.closeWriter i) := by
  simp only [closeWriter]
  split
  next w held => exact .closed i w held was running
  next held => exact .droppedNone i held was running

theorem isConnected_iff : s.isConnected = true ↔ ∃ w, s.writer = some w ∧ s.Up w := by
  simp only [isConnected, Up]
  cases s.writer with
  | none => simp
  | some w => simp

theorem down_of_not_isConnected (down : ¬ s.isConnected = true) :
    ∀ w, s.writer = some w → ¬ s.Up w :=
  fun w held up => down (isConnected_iff.mpr ⟨w, held, up⟩)

theorem emit_socket (s : HC33ProxyTransport) (k w : ℕ) (frame : BlufiFrame) :
    ((s.emit k frame).connections w).socket = (s.connections w).socket := by
  by_cases same : w = k
  · subst same
    simp only [emit, setConnection, Function.update_self]
  · simp only [emit, setConnection, Function.update_of_ne same]

private theorem postNext_effect {i : ℕ} {payload : Bytes} {k n : ℕ} {draining : Option ℕ}
    (was : s.calls i = .posting payload k draining n) :
    Effect codec s (.resume i) (s.postNext codec i payload k n) := by
  simp only [postNext]
  split
  next fragment next =>
    simp only [sendFrame]
    split
    next w held =>
      have held : s.writer = some w := held
      split_ifs with fails
      · refine .postFailed i was next fun v writer up => ?_
        rw [held] at writer
        cases writer
        rcases Bool.or_eq_true_iff.mp fails with closing | long
        · rw [emit_socket] at closing
          exact absurd closing (Bool.eq_false_iff.mp up)
        · exact absurd (of_decide_eq_true long) (Nat.not_le.mpr (codec.short _ _))
      · obtain ⟨up, _⟩ := Bool.or_eq_false_iff.mp (Bool.eq_false_of_not_eq_true fails)
        rw [emit_socket] at up
        exact .posted i was next held up
    next held =>
      refine .postFailed i was next fun v writer => ?_
      rw [show s.writer = none from held] at writer
      cases writer
  next finished =>
    refine .released i (by rw [was]; trivial) (fun p k' d n' at_ => ?_) trivial
    rw [was] at at_
    cases at_
    exact .inl finished

private theorem readerNext_effect {k : ℕ} {action : ReaderAction}
    (live : (s.connections k).loop.Live) : Effect codec s (.reader k action) (s.readerNext k) := by
  simp only [readerNext]
  split
  next r held =>
    split_ifs with busy
    · simp only [streamBusy, List.any_eq_true, List.mem_range, Bool.and_eq_true, decide_eq_true_eq] at busy
      obtain ⟨j, _, other, reading⟩ := busy
      exact .readerFinally k _ id live (.busy j r held other reading)
    · exact .readerReads k r live held
  next gone => exact .readerFinally k _ id live (.noReader gone)

private theorem cancelDelivered_suspendReader (s : HC33ProxyTransport) (k : ℕ) (pc : ReaderPc) :
    (s.cancelDelivered k).suspendReader k pc =
      s.setConnection k { s.connections k with loop := pc, cancelRequested := false } := by
  simp only [cancelDelivered, suspendReader, setConnection, Function.update_self,
    Function.update_idem]

private theorem cancelDelivered_readerFinally (s : HC33ProxyTransport) (k : ℕ) :
    (s.cancelDelivered k).readerFinally k =
      { s with availability := .disconnected }.setConnection k
        { s.connections k with loop := .notifying, cancelRequested := false } := by
  simp only [cancelDelivered, readerFinally, suspendReader, setConnection, Function.update_self,
    Function.update_idem]

private theorem stepReader_effect {k : ℕ} {action : ReaderAction}
    (stepped : s.stepReader k action = some t) : Effect codec s (.reader k action) t := by
  generalize pc : (s.connections k).loop = loop at stepped
  cases action with
  | start =>
    simp only [stepReader, pc] at stepped
    split at stepped <;> try contradiction
    next started =>
    split_ifs at stepped with requested gone
    · cases stepped
      exact .readerStopped k _ (.inr (.inr (Option.isNone_iff_eq_none.mp gone)))
    · cases stepped
      exact readerNext_effect (by rw [pc]; trivial)
  | frame complete =>
    simp only [stepReader, pc] at stepped
    split at stepped <;> try contradiction
    split_ifs at stepped
    · cases stepped
      exact .readerHandles k (by rw [pc]; trivial)
    · cases stepped
      exact readerNext_effect (by rw [pc]; trivial)
  | handled =>
    simp only [stepReader, pc] at stepped
    split at stepped <;> try contradiction
    cases stepped
    exact readerNext_effect (by rw [pc]; trivial)
  | ended =>
    simp only [stepReader, pc] at stepped
    split at stepped <;> try contradiction
    split_ifs at stepped with up
    cases stepped
    exact .readerFinally k _ id (by rw [pc]; trivial) (.ended _ pc up)
  | crashed =>
    simp only [stepReader, pc] at stepped
    split at stepped <;> try contradiction
    · cases stepped
      exact .readerFinally k _ id (by rw [pc]; trivial) (.crashed rfl)
    · cases stepped
      exact .readerFinally k _ id (by rw [pc]; trivial) (.crashed rfl)
  | cancelled =>
    simp only [stepReader, pc] at stepped
    split_ifs at stepped with requested
    split at stepped <;> cases stepped
    · rw [cancelDelivered_suspendReader]
      exact .readerStopped k false (.inr (.inl requested))
    · rw [cancelDelivered_suspendReader]
      exact .readerStopped k false (.inr (.inl requested))
    · rw [cancelDelivered_readerFinally]
      exact .readerFinally k false nofun (by rw [pc]; trivial) (.cancelled requested)
    · rw [cancelDelivered_readerFinally]
      exact .readerFinally k false nofun (by rw [pc]; trivial) (.cancelled requested)
  | notified =>
    simp only [stepReader, pc] at stepped
    split at stepped <;> try contradiction
    cases stepped
    exact .readerStopped k _ (.inl pc)

private theorem resume_effect {i : ℕ} (stepped : s.resume codec i = some t) :
    Effect codec s (.resume i) t := by
  generalize was : s.calls i = pc
  simp only [resume, was] at stepped
  split at stepped
  next payload =>
    split_ifs at stepped with free
    cases stepped
    simp only [connectLocked]
    split_ifs with up
    · obtain ⟨pc, free, returned⟩ := connectReturned_eq s i payload
      rw [returned]
      exact .free i free trivial (by rw [was]; trivial) (by rw [was]; nofun)
    · exact .locked i was (Option.isNone_iff_eq_none.mp free) (down_of_not_isConnected up)
  next payload =>
    cases stepped
    exact .opening i was
  next payload =>
    cases stepped
    exact .unlockConnect i (show CallPc.idle.Free from trivial) (by rw [was]; trivial) (by rw [was]; exact False.elim)
      trivial
  next payload =>
    cases stepped
    obtain ⟨pc, free, returned⟩ := connectReturned_eq { s with connectLock := none } i payload
    rw [returned]
    exact .unlockConnect i free (by rw [was]; trivial) (by rw [was]; exact False.elim) trivial
  next k =>
    split_ifs at stepped with finished
    cases stepped
    exact closeWriter_effect (.inr ⟨k, was, finished⟩) trivial
  next =>
    cases stepped
    exact .dropped i was
  next payload =>
    split_ifs at stepped with free
    cases stepped
    have lock := Option.isNone_iff_eq_none.mp free
    simp only [startPost]
    split
    next k message => exact .startPost i was lock message
    next message => exact .postRefused i was lock message
  next payload k draining n =>
    cases stepped
    exact postNext_effect was
  next =>
    cases stepped
    exact .released i (by rw [was]; trivial) (fun p k d n at_ => by rw [was] at at_; cases at_)
      trivial
  next => cases stepped
  next => cases stepped
  next => cases stepped

private theorem cancelCall_effect {i : ℕ} (stepped : s.cancelCall i = some t) :
    Effect codec s (.cancelled i) t := by
  generalize was : s.calls i = pc
  simp only [cancelCall, was] at stepped
  cases pc with
  | idle => cases stepped
  | connect pc payload =>
    cases pc with
    | lockWait =>
      cases stepped
      exact .free i (show CallPc.idle.Free from trivial) trivial (by rw [was]; trivial) (fun _ => rfl)
    | notifyConnecting | opening | notifyFailed | notifyConnected =>
      cases stepped
      exact .unlockConnect i (show CallPc.idle.Free from trivial) (by rw [was]; trivial) (fun _ => .inr rfl)
        trivial
  | joinReader k =>
    cases stepped
    exact .recancelled i k was
  | waitClosed | notifyDisconnected | sendLockWait payload =>
    cases stepped
    exact .free i (show CallPc.idle.Free from trivial) trivial (by rw [was]; trivial) (fun _ => rfl)
  | posting payload k draining n | notifySendFailed =>
    cases stepped
    exact .released i (by rw [was]; trivial) (fun _ _ _ _ _ => .inr rfl) trivial

/-- Every step of the transport is one of the listed effects. -/
theorem step_effect (stepped : s.step codec e = some t) : Effect codec s e t := by
  cases e with
  | connect i =>
    simp only [step] at stepped
    split at stepped <;> cases stepped
    next idle =>
    exact .free i (show (CallPc.connect .lockWait none).Free from trivial) trivial
      (by rw [idle]; trivial) (by rw [idle]; nofun)
  | disconnect i =>
    simp only [step] at stepped
    split at stepped <;> cases stepped
    next idle =>
    simp only [startDisconnect]
    split
    next k task =>
      split_ifs with finished
      · exact closeWriter_effect (.inl idle) trivial
      · exact .joining i k idle task finished
    next => exact closeWriter_effect (.inl idle) trivial
  | send i payload =>
    simp only [step] at stepped
    split at stepped <;> try contradiction
    next idle =>
    split_ifs at stepped
    · cases stepped
      obtain ⟨pc, free, checked⟩ := checkMessage_eq s i payload
      rw [checked]
      exact .free i free trivial (by rw [idle]; trivial) (by rw [idle]; nofun)
    · cases stepped
      exact .free i (show (CallPc.connect .lockWait (some payload)).Free from trivial) trivial
        (by rw [idle]; trivial) (by rw [idle]; nofun)
  | resume i => exact resume_effect stepped
  | disconnected i =>
    simp only [step] at stepped
    split at stepped <;> cases stepped
    next was => exact .returned i was
  | opened i =>
    simp only [step] at stepped
    split at stepped <;> cases stepped
    next payload was => exact .opened i was
  | openFailed i =>
    simp only [step] at stepped
    split at stepped <;> cases stepped
    next payload was => exact .openFailed i was
  | openRaised i =>
    simp only [step] at stepped
    split at stepped <;> cases stepped
    next payload was =>
    exact .unlockConnect i (show CallPc.idle.Free from trivial) (by rw [was]; trivial) (fun _ => .inl rfl)
      trivial
  | drainFailed i =>
    simp only [step] at stepped
    split at stepped <;> try contradiction
    next payload k w n was =>
    split_ifs at stepped with closing
    cases stepped
    exact .drainFailed i was fun up => absurd closing (Bool.eq_false_iff.mp up)
  | cancelled i => exact cancelCall_effect stepped
  | reader k action => exact stepReader_effect stepped
  | peerClosed k =>
    simp only [step] at stepped
    split at stepped <;> cases stepped
    next up => exact .peer k .peerClosed nofun (by rw [Up, up]; rfl) trivial
  | connectionLost k =>
    simp only [step] at stepped
    split at stepped <;> cases stepped
    next up => exact .peer k .lost nofun (by rw [Up, up]; rfl) trivial
    next up => exact .peer k .lost nofun (by rw [Up, up]; rfl) trivial

/-- Only `open_connection` brings an open socket. -/
theorem Effect.up_of_up (effect : Effect codec s e t) {k : ℕ} (up : t.Up k) :
    (∃ i, e = .opened i) ∨ s.Up k := by
  cases effect with
  | opened i was => exact .inl ⟨i, rfl⟩
  | _ => right; grind

/-- The writer changes when a socket opens, and when a `disconnect()` drops the closed one. -/
theorem Effect.writer_eq (effect : Effect codec s e t) :
    (∃ i, e = .opened i) ∨ (∃ i, s.calls i = .waitClosed) ∨ t.writer = s.writer := by
  cases effect with
  | opened i was => exact .inl ⟨i, rfl⟩
  | dropped i was => exact .inr (.inl ⟨i, was⟩)
  | droppedNone i held was running => exact .inr (.inr held.symm)
  | _ => exact .inr (.inr rfl)

/-- Both streams and the codec are replaced together. -/
theorem Effect.streams (effect : Effect codec s e t) :
    (t.reader = s.reader ∧ t.message = s.message ∧ t.writer = s.writer) ∨
      (t.reader = t.writer ∧ t.message = t.writer) := by
  cases effect with
  | opened | dropped | droppedNone => exact .inr ⟨rfl, rfl⟩
  | _ => exact .inl ⟨rfl, rfl, rfl⟩

/-- The transport takes up a connection only when its socket opens. -/
theorem Effect.newest (effect : Effect codec s e t) :
    ((∃ i, e = .opened i) ∧ t.opened = s.opened + 1 ∧ t.writer = some s.opened ∧
        t.readerTask = some s.opened) ∨
      (t.opened = s.opened ∧ (∀ k, t.writer = some k → s.writer = some k) ∧
        ∀ k, t.readerTask = some k → s.readerTask = some k) := by
  cases effect with
  | opened i => exact .inl ⟨⟨i, rfl⟩, rfl, rfl, rfl⟩
  | dropped => exact .inr ⟨rfl, nofun, fun _ => id⟩
  | droppedNone => exact .inr ⟨rfl, nofun, nofun⟩
  | closed => exact .inr ⟨rfl, fun _ => id, nofun⟩
  | _ => exact .inr ⟨rfl, fun _ => id, fun _ => id⟩

/-- A connection that does not exist yet is left alone. -/
theorem Effect.absent_of (effect : Effect codec s e t) {k : ℕ} (later : t.opened ≤ k)
    (notHeld : s.writer ≠ some k)
    (absent : (s.connections k).loop = .done ∧ (s.connections k).socket = .closed) :
    (t.connections k).loop = .done ∧ (t.connections k).socket = .closed := by
  cases effect <;> grind

/-- A task that holds `_connect_lock` has just taken it or had it; it is released by its holder. -/
theorem Effect.connectLock_of (effect : Effect codec s e t) {j : ℕ}
    (holds : (t.calls j).HoldsConnectLock) :
    t.connectLock = some j ∨ ((s.calls j).HoldsConnectLock ∧
      (t.connectLock = s.connectLock ∨ s.connectLock = none ∨
        ∃ i, i ≠ j ∧ (s.calls i).HoldsConnectLock)) := by
  cases effect <;> grind

/-- A task that holds `_send_lock` has just taken it or had it; it is released by its holder. -/
theorem Effect.sendLock_of (effect : Effect codec s e t) {j : ℕ} (holds : (t.calls j).HoldsSendLock) :
    t.sendLock = some j ∨ ((s.calls j).HoldsSendLock ∧
      (t.sendLock = s.sendLock ∨ s.sendLock = none ∨ ∃ i, i ≠ j ∧ (s.calls i).HoldsSendLock)) := by
  cases effect <;> grind

/-- CONNECTING is only announced while no open socket is held. -/
theorem Effect.connecting_of (effect : Effect codec s e t) {j : ℕ}
    (connecting : (t.calls j).Connecting) :
    (s.calls j).Connecting ∨ ∀ w, s.writer = some w → ¬ s.Up w := by
  cases effect <;> grind

/-- A `disconnect()` that starts to wait has closed the writer. -/
theorem Effect.waitClosed_of (effect : Effect codec s e t) {j : ℕ} (at_ : t.calls j = .waitClosed) :
    s.calls j = .waitClosed ∨ ∃ w, s.writer = some w ∧ ¬ t.Up w := by
  cases effect with
  | closed i w held was running => exact .inr ⟨w, held, by grind⟩
  | _ => left; grind

theorem Effect.of_opened {i : ℕ} (effect : Effect codec s (.opened i) t) :
    ∃ payload, s.calls i = .connect .opening payload ∧ t = s.connectOpened i payload := by
  cases effect with
  | opened i was => exact ⟨_, was, rfl⟩
  | free _ _ running | unlockConnect _ _ _ _ running | closed _ _ _ _ running
  | droppedNone _ _ _ running | released _ _ _ running | peer _ _ _ _ running => cases running

theorem Effect.of_disconnected {i : ℕ} (effect : Effect codec s (.disconnected i) t) :
    s.calls i = .notifyDisconnected := by
  cases effect with
  | returned i was => exact was
  | free _ _ running | unlockConnect _ _ _ _ running | closed _ _ _ _ running
  | droppedNone _ _ _ running | released _ _ _ running | peer _ _ _ _ running => cases running

end HC33ProxyTransport

end MammotionRc.Server
