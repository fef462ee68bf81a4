import MammotionRc.Soundness.WatchdogFed

/-! # Whom the idle watchdog drops

`last_rx_ms_` is set when a client is accepted and when a frame has been written to the mower. A connect that
blocks, and a frame that is held back, are signs of life that it does not know of. The watch keeps the moments
of these signs next to loopTask.
-/

namespace MammotionRc.Firmware

open Framing Machine

/-- What happened in the session of the present client, in milliseconds of the clock that does not wrap. -/
structure ClientSession where
  /-- `connect_mower` returned true. -/
  openedAt : Option ℕ
  /-- A complete frame had been received. -/
  frames : List ℕ
  /-- The frame that is held for the mower was complete. -/
  heldSince : Option ℕ
  /-- A frame was written to the mower since the connect. -/
  written : Bool
deriving DecidableEq, Repr

structure IdleWatch where
  task : LoopTask
  session : ClientSession
deriving DecidableEq, Repr

/-- `poll_socket_` found the frame complete during the step. -/
def LoopTask.completes (s t : LoopTask) : Bool :=
  decide (s.proxy.rxState ≠ .writePending) && decide (t.proxy.rxState = .writePending)

/-- An accepted client, or a frame written to the mower: where the source sets `last_rx_ms_`. -/
def Event.feedsIdle : Event → Bool
  | .accept (some _) | .bleWrite _ true => true
  | _ => false

namespace IdleWatch

def init (mutex : Bool) : IdleWatch := ⟨.init mutex, ⟨none, [], none, false⟩⟩

/-- The session after the step of loopTask from `s` to `t`. -/
def note (session : ClientSession) (s t : LoopTask) : Event → ClientSession
  | .accept (some _) => ⟨none, [], none, false⟩
  | .connectMower true => { session with openedAt := some t.clock, written := false }
  | .bleWrite _ true => { session with heldSince := none, written := true }
  | _ =>
    if s.completes t then { session with frames := t.clock :: session.frames, heldSince := some t.clock }
    else session

def step (s : IdleWatch) (e : Event) : Option IdleWatch :=
  (s.task.step e).map fun task => ⟨task, note s.session s.task task e⟩

/-- If the event is the idle check and it ends the client's session, then the last sign of life is too old. -/
def ActiveKept (s : IdleWatch) (e : Event) : Prop :=
  ∀ t, e = .idleCheck → s.task.step e = some t → s.task.client.isOpen = true → t.client.isOpen = false →
    (∀ at_ ∈ s.session.frames, at_ + CLIENT_IDLE_TIMEOUT_MS.toNat < s.task.clock) ∧
      ∀ at_ ∈ s.session.openedAt, at_ + CLIENT_IDLE_TIMEOUT_MS.toNat < s.task.clock

/-- The idle check finds the time since `last_rx_ms_` over. -/
def TimeoutOver (s : LoopTask) : Prop :=
  s.pc = .idleCheck ∧ s.client.isOpen = true ∧ CLIENT_IDLE_TIMEOUT_MS < s.millis - s.proxy.lastRxMs

/-- A timeout over comes neither early in the holding of a frame nor, before the first frame was written, early
after the connect. -/
def NothingNewer (s : IdleWatch) (e : Event) : Prop :=
  e = .idleCheck → TimeoutOver s.task →
    (∀ at_ ∈ s.session.heldSince, at_ + CLIENT_IDLE_TIMEOUT_MS.toNat < s.task.clock) ∧
      (s.session.written = false → ∀ at_ ∈ s.session.openedAt,
        at_ + CLIENT_IDLE_TIMEOUT_MS.toNat < s.task.clock)

end IdleWatch

namespace LoopTask

variable {s t : LoopTask} {e : Event}

/-! ## What the idle check does -/

theorem enterReadData_client (s : LoopTask) : s.enterReadData.client = s.client := by
  rw [enterReadData]
  split <;> rfl

theorem pollSocket_client (s : LoopTask) : s.pollSocket.client = s.client := by
  rw [pollSocket]
  split
  · rfl
  · exact s.enterReadData_client
  · rfl

theorem idleCheck_stops_iff (stepped : s.step .idleCheck = some t) (open_ : s.client.isOpen = true) :
    t.client.isOpen = false ↔ IdleWatch.TimeoutOver s := by
  obtain ⟨was, rfl⟩ := step_idleCheck.mp stepped
  split_ifs with expired
  · simp [IdleWatch.TimeoutOver, was, open_, expired]
  · simp [IdleWatch.TimeoutOver, open_, expired, pollSocket_client]

theorem idleCheck_of_pc (was : s.pc = .idleCheck) : ∃ t, s.step .idleCheck = some t :=
  ⟨_, step_idleCheck.mpr ⟨was, rfl⟩⟩

/-! ## When `last_rx_ms_` is set -/

theorem enterReadData_lastRxMs (s : LoopTask) : s.enterReadData.proxy.lastRxMs = s.proxy.lastRxMs := by
  rw [enterReadData]
  split <;> rfl

theorem pollSocket_lastRxMs (s : LoopTask) : s.pollSocket.proxy.lastRxMs = s.proxy.lastRxMs := by
  rw [pollSocket]
  split
  · rfl
  · exact s.enterReadData_lastRxMs
  · rfl

theorem headerRead_lastRxMs (s : LoopTask) (hi lo : UInt8) :
    (s.headerRead hi lo).proxy.lastRxMs = s.proxy.lastRxMs := by
  rw [headerRead]
  split_ifs
  · rfl
  · rfl
  · exact enterReadData_lastRxMs _

theorem payloadRead_lastRxMs (s : LoopTask) (n : ℕ) : (s.payloadRead n).proxy.lastRxMs = s.proxy.lastRxMs := by
  rw [payloadRead]
  split_ifs <;> rfl

theorem attempted_lastRxMs (s : LoopTask) (n : ℕ) (ok : Bool) :
    (s.attempted n ok).proxy.lastRxMs = if ok then s.millis else s.proxy.lastRxMs := by
  simp only [attempted, TcpProxy.burstFailed]
  cases ok
  · simp only [Bool.false_eq_true, if_false]
    split_ifs <;> rfl
  · rfl

theorem drainStep_lastRxMs (s : LoopTask) : s.drainStep.proxy.lastRxMs = s.proxy.lastRxMs := by
  rw [drainStep]
  split <;> rfl

theorem step_lastRxMs (stepped : s.step e = some t) :
    t.proxy.lastRxMs = if e.feedsIdle then s.millis else s.proxy.lastRxMs := by
  cases e with
  | peerClose | elapse ms => cases stepped; rfl
  | notify data =>
    cases stepped
    simp only [TcpProxy.notifyCallback]
    split <;> rfl
  | connected =>
    obtain ⟨_, rfl⟩ := step_connected.mp stepped
    show _ = s.proxy.lastRxMs
    split_ifs <;> rfl
  | disconnectMower => rcases step_disconnectMower.mp stepped with ⟨_, rfl⟩ | ⟨_, rfl⟩ <;> rfl
  | clearQueue =>
    obtain ⟨_, rfl⟩ := step_clearQueue.mp stepped
    simp only [TcpProxy.swapQueue]
    split <;> rfl
  | accept incoming => obtain ⟨_, ⟨rfl, rfl⟩ | ⟨_, rfl, rfl⟩⟩ := step_accept.mp stepped <;> rfl
  | connectMower ok =>
    obtain ⟨_, rfl⟩ := step_connectMower.mp stepped
    cases ok <;> rfl
  | idleCheck =>
    obtain ⟨_, rfl⟩ := step_idleCheck.mp stepped
    show _ = s.proxy.lastRxMs
    split_ifs
    · rfl
    · exact s.pollSocket_lastRxMs
  | available n => obtain ⟨_, ⟨_, rfl⟩ | ⟨_, rfl⟩⟩ := step_available.mp stepped <;> rfl
  | read result =>
    rcases step_read.mp stepped with ⟨_, _, _, _, _, _, rfl⟩ | ⟨_, _, _, _, rfl⟩ | ⟨_, _, _, _, _, rfl⟩ |
      ⟨_, _, _, _, _, rfl⟩
    · exact headerRead_lastRxMs _ _ _
    · exact headerRead_lastRxMs _ _ _
    · split
      · rfl
      · exact payloadRead_lastRxMs _ _
    · rfl
  | bleConnected up =>
    obtain ⟨_, rfl⟩ := step_bleConnected.mp stepped
    cases up <;> rfl
  | bleWrite data ok =>
    obtain ⟨n, _, _, rfl⟩ := step_bleWrite.mp stepped
    cases ok <;> exact attempted_lastRxMs _ _ _
  | drain =>
    obtain ⟨_, rfl⟩ := step_drain.mp stepped
    exact s.drainStep_lastRxMs
  | clientWrite data accepted gaveUp =>
    obtain ⟨_, _, ⟨_, _, rfl⟩ | ⟨_, _, rfl⟩⟩ := step_clientWrite.mp stepped <;> rfl

end LoopTask

namespace IdleWatch

variable {s t : IdleWatch} {e : Event}

/-! ## What `last_rx_ms_` knows of the session -/

/-- Every sign of life but the held frame and, before the first frame was written, the connect is known to
`last_rx_ms_`, which stands for the moment `rx`. -/
structure KnownAt (s : IdleWatch) (rx : ℕ) : Prop where
  le : rx ≤ s.task.clock
  lastRxMs : s.task.proxy.lastRxMs = UInt32.ofNat rx
  frames : ∀ at_ ∈ s.session.frames, at_ ≤ rx ∨ ∃ held ∈ s.session.heldSince, at_ ≤ held
  openedAt : s.session.written = true → ∀ at_ ∈ s.session.openedAt, at_ ≤ rx

structure Inv (s : IdleWatch) : Prop where
  known : ∃ rx, s.KnownAt rx
  frames_le : ∀ at_ ∈ s.session.frames, at_ ≤ s.task.clock
  openedAt_le : ∀ at_ ∈ s.session.openedAt, at_ ≤ s.task.clock
  held : ∀ at_ ∈ s.session.heldSince, at_ ∈ s.session.frames

theorem inv_init (mutex : Bool) : (init mutex).Inv := by
  refine ⟨⟨0, Nat.le_refl 0, rfl, fun at_ inside => ?_, fun _ at_ inside => ?_⟩, fun at_ inside => ?_,
    fun at_ inside => ?_, fun at_ inside => ?_⟩ <;> cases inside

/-- A step that does not touch `last_rx_ms_`. -/
theorem KnownAt.later {rx : ℕ} (known : s.KnownAt rx) (clock : s.task.clock ≤ t.task.clock)
    (kept : t.task.proxy.lastRxMs = s.task.proxy.lastRxMs) (session : t.session = s.session) : t.KnownAt rx := by
  refine ⟨known.le.trans clock, kept.trans known.lastRxMs, ?_, ?_⟩
  · rw [session]
    exact known.frames
  · rw [session]
    exact known.openedAt

theorem step_eq_some (stepped : s.step e = some t) :
    s.task.step e = some t.task ∧ t.session = note s.session s.task t.task e := by
  simp only [step, Option.map_eq_some_iff] at stepped
  obtain ⟨task, moved, rfl⟩ := stepped
  exact ⟨moved, rfl⟩

/-- A step in which no frame starts or ends its way to the mower. -/
theorem Inv.same (inv : s.Inv) (clock : s.task.clock ≤ t.task.clock)
    (kept : t.task.proxy.lastRxMs = s.task.proxy.lastRxMs) (session : t.session = s.session) : t.Inv := by
  obtain ⟨rx, known⟩ := inv.known
  refine ⟨⟨rx, known.later clock kept session⟩, ?_, ?_, ?_⟩
  · rw [session]
    exact fun at_ inside => (inv.frames_le at_ inside).trans clock
  · rw [session]
    exact fun at_ inside => (inv.openedAt_le at_ inside).trans clock
  · rw [session]
    exact inv.held

theorem Inv.completed (inv : s.Inv) (clock : s.task.clock ≤ t.task.clock)
    (kept : t.task.proxy.lastRxMs = s.task.proxy.lastRxMs)
    (session : t.session =
      { s.session with frames := t.task.clock :: s.session.frames, heldSince := some t.task.clock }) : t.Inv := by
  obtain ⟨rx, known⟩ := inv.known
  have old : ∀ at_ ∈ t.session.frames, at_ ≤ t.task.clock := by
    rw [session]
    exact List.forall_mem_cons.mpr ⟨Nat.le_refl _, fun at_ inside => (inv.frames_le at_ inside).trans clock⟩
  refine ⟨⟨rx, known.le.trans clock, kept.trans known.lastRxMs, fun at_ inside => Or.inr ?_, ?_⟩, old, ?_, ?_⟩
  · exact ⟨t.task.clock, by rw [session]; rfl, old at_ inside⟩
  · rw [session]
    exact known.openedAt
  · rw [session]
    exact fun at_ inside => (inv.openedAt_le at_ inside).trans clock
  · rw [session]
    intro at_ inside
    cases inside
    exact List.mem_cons_self

theorem Inv.opened (inv : s.Inv) (clock : s.task.clock ≤ t.task.clock)
    (kept : t.task.proxy.lastRxMs = s.task.proxy.lastRxMs)
    (session : t.session = { s.session with openedAt := some t.task.clock, written := false }) : t.Inv := by
  obtain ⟨rx, known⟩ := inv.known
  refine ⟨⟨rx, known.le.trans clock, kept.trans known.lastRxMs, ?_, fun written => ?_⟩, ?_, ?_, ?_⟩
  · rw [session]
    exact known.frames
  · rw [session] at written
    cases written
  · rw [session]
    exact fun at_ inside => (inv.frames_le at_ inside).trans clock
  · rw [session]
    intro at_ inside
    cases inside
    exact Nat.le_refl _
  · rw [session]
    exact inv.held

theorem Inv.written (inv : s.Inv) (clock : t.task.clock = s.task.clock)
    (set_ : t.task.proxy.lastRxMs = s.task.millis)
    (session : t.session = { s.session with heldSince := none, written := true }) : t.Inv := by
  have framesLe : ∀ at_ ∈ t.session.frames, at_ ≤ t.task.clock := by
    rw [session, clock]
    exact inv.frames_le
  have openedAtLe : ∀ at_ ∈ t.session.openedAt, at_ ≤ t.task.clock := by
    rw [session, clock]
    exact inv.openedAt_le
  refine ⟨⟨t.task.clock, Nat.le_refl _, ?_, fun at_ inside => Or.inl (framesLe at_ inside), fun _ => openedAtLe⟩,
    framesLe, openedAtLe, ?_⟩
  · rw [set_, clock]
    rfl
  · rw [session]
    intro at_ inside
    cases inside

theorem Inv.accepted (clock : t.task.clock = s.task.clock) (set_ : t.task.proxy.lastRxMs = s.task.millis)
    (session : t.session = ⟨none, [], none, false⟩) : t.Inv := by
  refine ⟨⟨t.task.clock, Nat.le_refl _, ?_, ?_, ?_⟩, ?_, ?_, ?_⟩
  · rw [set_, clock]
    rfl
  all_goals simp [session]

theorem inv_step (inv : s.Inv) (stepped : s.step e = some t) : t.Inv := by
  obtain ⟨moved, session⟩ := step_eq_some stepped
  have clock := LoopTask.step_clock moved
  have lastRxMs := LoopTask.step_lastRxMs moved
  have later : s.task.clock ≤ t.task.clock := by omega
  have other (noted : t.session = if s.task.completes t.task then
      { s.session with frames := t.task.clock :: s.session.frames, heldSince := some t.task.clock } else s.session)
      (kept : t.task.proxy.lastRxMs = s.task.proxy.lastRxMs) : t.Inv := by
    split at noted
    · exact inv.completed later kept noted
    · exact inv.same later kept noted
  cases e with
  | accept incoming =>
    cases incoming with
    | none => exact other session lastRxMs
    | some stream => exact Inv.accepted clock lastRxMs session
  | connectMower ok =>
    cases ok with
    | false => exact other session lastRxMs
    | true => exact inv.opened later lastRxMs session
  | bleWrite data ok =>
    cases ok with
    | false => exact other session lastRxMs
    | true => exact inv.written clock lastRxMs session
  | _ => exact other session lastRxMs

/-! ## The drops -/

/-- The 32-bit difference that the idle check looks at is never more than the time that has passed. -/
theorem lt_of_timeoutOver {rx : ℕ} (known : s.KnownAt rx) (expired : TimeoutOver s.task) :
    rx + CLIENT_IDLE_TIMEOUT_MS.toNat < s.task.clock := by
  have less := UInt32.lt_iff_toNat_lt.mp expired.2.2
  rw [known.lastRxMs, UInt32.toNat_sub] at less
  have le := known.le
  simp only [LoopTask.millis, UInt32.toNat_ofNat', CLIENT_IDLE_TIMEOUT_MS, UInt32.reduceToNat] at less ⊢
  omega

theorem activeKept_iff (inv : s.Inv) : s.ActiveKept e ↔ s.NothingNewer e := by
  obtain ⟨rx, known⟩ := inv.known
  constructor
  · intro kept check expired
    obtain ⟨t, stepped⟩ := LoopTask.idleCheck_of_pc expired.1
    have stops := (LoopTask.idleCheck_stops_iff stepped expired.2.1).mpr expired
    obtain ⟨frames, openedAt⟩ := kept t check (by rw [check]; exact stepped) expired.2.1 stops
    exact ⟨fun at_ inside => frames at_ (inv.held at_ inside), fun _ => openedAt⟩
  · intro newer t check stepped open_ stops
    rw [check] at stepped
    have expired := (LoopTask.idleCheck_stops_iff stepped open_).mp stops
    have passed := lt_of_timeoutOver known expired
    obtain ⟨held, openedAt⟩ := newer check expired
    refine ⟨fun at_ inside => ?_, fun at_ inside => ?_⟩
    · rcases known.frames at_ inside with le | ⟨since, holds, le⟩
      · omega
      · have old := held since holds
        omega
    · cases written : s.session.written with
      | true =>
        have le := known.openedAt written at_ inside
        omega
      | false => exact openedAt written at_ inside

/-- The idle check keeps every active client of a run exactly if it never finds the timeout over while the held
frame is newer than that or, with no frame written yet, the connect is. -/
theorem activeKept_throughout_iff (mutex : Bool) (es : List Event) :
    Meets step (fun _ => ActiveKept) (init mutex) es ↔ Meets step (fun _ => NothingNewer) (init mutex) es :=
  meets_congr (I := fun _ => Inv) (inv_init mutex) (fun _ _ _ _ => inv_step) fun _ _ _ inv => activeKept_iff inv

/-- A connect that takes 31 s, and then the first idle check. -/
def slowConnect : List Event :=
  [.connected, .accept (some []), .elapse 31000, .connectMower true, .connected, .idleCheck]

/-- The client is dropped in the millisecond in which its connect completes. -/
theorem slowConnect_dropped :
    (∃ t, run step (init true) slowConnect = some t ∧ t.task.client.isOpen = false) ∧
      ¬Meets step (fun _ => ActiveKept) (init true) slowConnect := by
  refine ⟨⟨_, rfl, by decide⟩, fun kept => ?_⟩
  have last := @Meets.last _ _ step _ _ _ slowConnect.dropLast _ kept rfl
  have old := (last _ rfl rfl (by decide) (by decide)).2 31000 (by decide)
  exact absurd old (by decide)

end IdleWatch

end MammotionRc.Firmware
