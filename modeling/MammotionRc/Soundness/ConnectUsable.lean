import MammotionRc.Firmware.BleCentral
import MammotionRc.Soundness.LoopSteps

/-! # When a successful BLE connect can be used

`on_client_disconnected_` and the failure path of `on_client_connected_` both null the characteristic
pointers, so `connect_mower` always starts without them. Its early return on a link that is still
going down therefore reports success with nothing to write to; on every other path success comes from
a fresh client object with both characteristics found and notifications enabled.
-/

namespace MammotionRc.Firmware

open Framing Machine

/-- Every position except the three calls around the start of a session. -/
def Pc.Inside : Pc → Prop
  | .clearQueue | .accept | .connectMower => False
  | _ => True

theorem Pc.Inside.ne {pc : Pc} (inside : pc.Inside) :
    pc ≠ .clearQueue ∧ pc ≠ .accept ∧ pc ≠ .connectMower := by
  refine ⟨?_, ?_, ?_⟩ <;> rintro rfl <;> exact inside

/-- What one event does to `ble_open_` and to the calls around the start of a session. -/
inductive SessionStep (s t : LoopTask) : Event → Prop
  | surroundings {e : Event} (pc : t.pc = s.pc) (bleOpen : t.proxy.bleOpen = s.proxy.bleOpen) :
      SessionStep s t e
  | inside {e : Event} (pc : t.pc.Inside) (bleOpen : t.proxy.bleOpen = s.proxy.bleOpen) :
      SessionStep s t e
  | free (pc : t.pc = .accept) (was : s.proxy.bleOpen = false) (bleOpen : t.proxy.bleOpen = false) :
      SessionStep s t .connected
  | tornDown (bleOpen : t.proxy.bleOpen = false) (pc : t.pc ≠ .connectMower) :
      SessionStep s t .disconnectMower
  | cleared (was : s.pc = .clearQueue) (pc : t.pc = .accept)
      (bleOpen : t.proxy.bleOpen = s.proxy.bleOpen) : SessionStep s t .clearQueue
  | begun {stream : Bytes} (was : s.pc = .accept) (pc : t.pc = .connectMower)
      (bleOpen : t.proxy.bleOpen = true) : SessionStep s t (.accept (some stream))

namespace LoopTask

theorem Polls.inside {s t : LoopTask} (polls : s.Polls t) : t.pc.Inside := by
  rcases polls.pc with at_ | at_ | ⟨at_, _⟩
  · cases pc : t.pc <;> rw [pc] at at_ <;> trivial
  · rw [at_]; trivial
  · rw [at_]; trivial

theorem step_session {s t : LoopTask} {e : Event} (stepped : s.step e = some t) :
    SessionStep s t e := by
  cases step_effect stepped with
  | peerClose | elapse ms => exact .surroundings rfl rfl
  | notify data =>
    simp only [TcpProxy.notifyCallback]
    split <;> exact .surroundings rfl rfl
  | serving | gone | noClient | opened | openFailed | drained => exact .inside trivial rfl
  | vacant was down bleOpen => exact .free rfl bleOpen bleOpen
  | tornDown | abandoned => exact .tornDown rfl nofun
  | cleared was =>
    simp only [TcpProxy.swapQueue]
    split <;> exact .cleared was rfl rfl
  | accepted was stream => exact .begun was rfl rfl
  | poll was event polls => exact .inside polls.inside polls.bleOpen
  | drains was mutex queue => exact .inside (by dsimp only; split <;> trivial) rfl
  | header gaveUp was may | payload gaveUp was may => exact .inside trivial rfl

theorem inside_connectMower {s t : LoopTask} {ok : Bool}
    (stepped : s.step (.connectMower ok) = some t) :
    s.pc = .connectMower ∧ t.proxy = s.proxy ∧ t.pc.Inside := by
  obtain ⟨was, rfl⟩ := step_connectMower.mp stepped
  refine ⟨was, rfl, ?_⟩
  cases ok <;> trivial

end LoopTask

namespace BleCentral

/-- Both characteristic pointers are null. -/
def Detached (b : BleCentral) : Prop := b.writeChar = none ∧ b.notifyChar = none

theorem disconnectMower_detached (b : BleCentral) : b.disconnectMower.Detached := by
  simp only [disconnectMower]
  split
  · exact ⟨rfl, rfl⟩
  · next none => exact ⟨rfl, none⟩

theorem Detached.not_usable {b : BleCentral} (detached : b.Detached) : ¬ b.Usable := by
  rintro ⟨_, write, _, _, present, _⟩
  rw [detached.1] at present
  contradiction

theorem linkDown_usable {b : BleCentral} (usable : b.Usable) : b.linkDown.Usable := by
  obtain ⟨client, write, notify, here, writes, notifies, rest⟩ := usable
  exact ⟨{ client with isConnected := false }, write, notify,
    by simp only [linkDown, here, Option.map_some], writes, notifies, rest⟩

/-- Success from the service lookup on leaves a link that can be used. -/
theorem discover_usable {b : BleCentral} {a : ConnectAnswers} (ok : (b.discover a).1 = true) :
    (b.discover a).2.Usable := by
  simp only [discover] at ok ⊢
  split_ifs at ok ⊢ with service missing silent refused
  simp only [Bool.or_eq_true, Option.isNone_iff_eq_none, not_or] at missing
  cases here : b.client with
  | none => simp [getCharacteristic, here] at missing
  | some client =>
    simp only [getCharacteristic, here, Option.map_some] at missing ⊢
    cases writes : a.writeChar <;> cases notifies : a.notifyChar <;>
      simp only [writes, notifies] at missing ⊢ <;> simp [Usable] at missing ⊢

theorem openLink_usable (b : BleCentral) (a : ConnectAnswers) :
    (b.openLink a).1 = true → (b.openLink a).2.Usable := by
  simp only [openLink]
  split
  · exact discover_usable
  · split
    · nofun
    · split
      · exact discover_usable
      · nofun

/-- A call that did not find the link up reports success only for a link that can be used. -/
theorem connectMower_usable {b : BleCentral} {a : ConnectAnswers} (down : b.isConnected = false)
    (ok : (b.connectMower a).1 = true) : (b.connectMower a).2.Usable := by
  have opened : ∀ r : Bool × BleCentral, (r.1 = true → r.2.Usable) → r.1 = true →
      (if a.lost then r.2.linkDown else r.2).Usable := by
    intro r usable success
    split
    · exact linkDown_usable (usable success)
    · exact usable success
  simp only [connectMower, down, Bool.false_eq_true, if_false] at ok ⊢
  refine opened _ ?_ ok
  split
  · exact openLink_usable _ a
  · split
    · nofun
    · exact openLink_usable _ a

end BleCentral

/-- The characteristic pointers are null whenever no session owns the link, and at each connect. -/
structure BleInvariant (s : BleSystem) : Prop where
  between : s.task.pc = .clearQueue ∨ s.task.pc = .accept → s.task.proxy.bleOpen = false
  owned : s.task.pc = .connectMower → s.task.proxy.bleOpen = true
  detached : s.task.proxy.bleOpen = false ∨ s.task.pc = .connectMower → s.ble.Detached

/-- Apart from the two calls that change the link's pointers, loopTask keeps the invariant. -/
theorem BleInvariant.keep {s t : LoopTask} {e : Event} {ble : BleCentral}
    (inv : BleInvariant ⟨s, ble⟩) (moved : SessionStep s t e) (other : e ≠ .disconnectMower) :
    BleInvariant ⟨t, ble⟩ := by
  obtain ⟨between, owned, detached⟩ := inv
  cases moved with
  | surroundings pc bleOpen =>
    constructor <;> simp only [pc, bleOpen] <;> assumption
  | inside pc bleOpen =>
    obtain ⟨notClosing, notAccepting, notConnecting⟩ := pc.ne
    refine ⟨?_, fun connecting => absurd connecting notConnecting, ?_⟩
    · rintro (closing | accepting)
      · exact absurd closing notClosing
      · exact absurd accepting notAccepting
    · rintro (released | connecting)
      · exact detached (.inl (bleOpen.symm.trans released))
      · exact absurd connecting notConnecting
  | free pc was bleOpen =>
    refine ⟨fun _ => bleOpen, ?_, fun _ => detached (.inl was)⟩
    intro connecting
    simp only [pc, reduceCtorEq] at connecting
  | tornDown _ _ => exact absurd rfl other
  | cleared was pc bleOpen =>
    have released := between (.inl was)
    refine ⟨fun _ => bleOpen.trans released, ?_, fun _ => detached (.inl released)⟩
    intro connecting
    simp only [pc, reduceCtorEq] at connecting
  | begun was pc bleOpen =>
    refine ⟨?_, fun _ => bleOpen, fun _ => detached (.inl (between (.inr was)))⟩
    rintro (closing | accepting)
    · simp only [pc, reduceCtorEq] at closing
    · simp only [pc, reduceCtorEq] at accepting

theorem BleInvariant.step {s t : BleSystem} {e : BleEvent} (inv : BleInvariant s)
    (stepped : s.step e = some t) : BleInvariant t := by
  cases e with
  | other e =>
    simp only [BleSystem.step] at stepped
    split_ifs at stepped with call
    obtain ⟨task, moved, rfl⟩ := Option.map_eq_some_iff.mp stepped
    refine inv.keep (LoopTask.step_session moved) ?_
    rintro rfl
    exact call rfl
  | connectMower answers =>
    obtain ⟨task, moved, rfl⟩ := Option.map_eq_some_iff.mp stepped
    obtain ⟨position, same, inside⟩ := LoopTask.inside_connectMower moved
    obtain ⟨notClosing, notAccepting, notConnecting⟩ := inside.ne
    have owned : task.proxy.bleOpen = true := by rw [same]; exact inv.owned position
    refine ⟨?_, fun _ => owned, ?_⟩
    · rintro (closing | accepting)
      · exact absurd closing notClosing
      · exact absurd accepting notAccepting
    · rintro (released | connecting)
      · exact absurd (released.symm.trans owned) (by decide)
      · exact absurd connecting notConnecting
  | disconnectMower =>
    obtain ⟨task, moved, rfl⟩ := Option.map_eq_some_iff.mp stepped
    have detached := s.ble.disconnectMower_detached
    rcases LoopTask.step_disconnectMower.mp moved with ⟨_, rfl⟩ | ⟨_, rfl⟩
    · exact ⟨fun _ => rfl, fun connecting => (by cases connecting), fun _ => detached⟩
    · exact ⟨fun _ => rfl, fun connecting => (by cases connecting), fun _ => detached⟩
  | isConnected =>
    obtain ⟨task, moved, rfl⟩ := Option.map_eq_some_iff.mp stepped
    exact inv.keep (LoopTask.step_session moved) Event.noConfusion
  | write data ok =>
    obtain ⟨task, moved, rfl⟩ := Option.map_eq_some_iff.mp stepped
    exact inv.keep (LoopTask.step_session moved) Event.noConfusion
  | linkDown =>
    cases stepped
    exact ⟨inv.between, inv.owned, inv.detached⟩

theorem bleInvariant_init (mutex : Bool) : BleInvariant (.init mutex) :=
  ⟨nofun, nofun, fun _ => ⟨rfl, rfl⟩⟩

/-- Where loopTask calls `connect_mower`, success depends on the link that the call finds. -/
theorem BleInvariant.connect_iff {s t : BleSystem} {a : ConnectAnswers} (inv : BleInvariant s)
    (stepped : s.step (.connectMower a) = some t) :
    ((s.ble.connectMower a).1 = true → (s.ble.connectMower a).2.Usable) ↔
      s.ble.isConnected = false := by
  constructor
  · intro usable
    by_contra up
    have up : s.ble.isConnected = true := Bool.not_eq_false _ |>.mp up
    have early : s.ble.connectMower a = (true, s.ble) := if_pos up
    obtain ⟨task, moved, _⟩ := Option.map_eq_some_iff.mp stepped
    rw [early] at usable
    exact (inv.detached (.inr (LoopTask.inside_connectMower moved).1)).not_usable (usable rfl)
  · intro down ok
    exact BleCentral.connectMower_usable down ok

/-- A `connect_mower` that returns true leaves a link that can be used. -/
def ConnectsUsably (_ : List BleEvent) (s : BleSystem) (e : BleEvent) : Prop :=
  ∀ a, e = .connectMower a → (s.ble.connectMower a).1 = true → (s.ble.connectMower a).2.Usable

/-- `connect_mower` is only called once the previous link is down. -/
def ConnectsWhenDown (_ : List BleEvent) (s : BleSystem) (e : BleEvent) : Prop :=
  ∀ a, e = .connectMower a → s.ble.isConnected = false

/-- Every successful `connect_mower` of a run can be used exactly when each call of it finds the
asynchronous termination of the previous link completed. -/
theorem connect_usable_iff (mutex : Bool) (es : List BleEvent) (u : BleSystem)
    (ran : run BleSystem.step (.init mutex) es = some u) :
    Meets BleSystem.step ConnectsUsably (.init mutex) es ↔
      Meets BleSystem.step ConnectsWhenDown (.init mutex) es := by
  have each : ∀ pre e, pre ++ [e] <+: es → ∀ s, run BleSystem.step (.init mutex) pre = some s →
      (ConnectsUsably pre s e ↔ ConnectsWhenDown pre s e) := by
    intro pre e inside s reached
    have inv : BleInvariant s := run_invariant (I := fun _ s => BleInvariant s)
      (bleInvariant_init mutex) (fun _ _ _ _ inv stepped => inv.step stepped) reached
    obtain ⟨t, ran⟩ := run_of_prefix ran inside
    obtain ⟨s', again, stepped⟩ := run_concat_iff.mp ran
    obtain rfl := Option.some.inj (reached.symm.trans again)
    refine forall_congr' fun a => forall_congr' fun call => ?_
    subst call
    exact inv.connect_iff stepped
  constructor
  · intro meets pre e inside s reached
    exact (each pre e inside s reached).mp (meets pre e inside s reached)
  · intro meets pre e inside s reached
    exact (each pre e inside s reached).mpr (meets pre e inside s reached)

/-- A scan, connect, lookup and subscribe that all succeed, on a link that stays up. -/
def allGood : ConnectAnswers :=
  { scan := some ⟨1, 0, []⟩, connect := true, rescan := none, reconnect := false, service := true,
    writeChar := true, notifyChar := true, canNotify := true, subscribe := true, lost := false }

/-- One session; its peer leaves and the next peer is accepted before the disconnect event. -/
def quickReconnectTape : List BleEvent :=
  [.other .connected, .other (.accept (some [])), .connectMower allGood, .other .peerClose,
    .other .connected, .disconnectMower, .other .clearQueue, .other (.accept (some [])),
    .connectMower allGood]

theorem connect_usable_iff_firstSession :
    ∃ u, run BleSystem.step (.init true) (quickReconnectTape.take 8) = some u ∧
      (Meets BleSystem.step ConnectsUsably (.init true) (quickReconnectTape.take 8) ↔
        Meets BleSystem.step ConnectsWhenDown (.init true) (quickReconnectTape.take 8)) := by
  obtain ⟨u, ran⟩ := Option.isSome_iff_exists.mp
    (by decide : (run BleSystem.step (.init true) (quickReconnectTape.take 8)).isSome = true)
  exact ⟨u, ran, connect_usable_iff true _ u ran⟩

/-- The second `connect_mower` reports success with both characteristic pointers null, and loopTask
announces a session in which no write can succeed. -/
theorem quickReconnect_not_usable :
    ∃ s t, run BleSystem.step (.init true) (quickReconnectTape.take 8) = some s ∧
      run BleSystem.step (.init true) quickReconnectTape = some t ∧
      (s.ble.connectMower allGood).1 = true ∧ ¬ (s.ble.connectMower allGood).2.Usable ∧
      t.task.pc = .connected ∧ t.task.client.connected = true ∧
      ∀ ok, t.ble.write ok = false := by
  refine ⟨_, _, rfl, rfl, rfl, ?_, rfl, rfl, fun _ => rfl⟩
  exact BleCentral.Detached.not_usable ⟨rfl, rfl⟩

end MammotionRc.Firmware
