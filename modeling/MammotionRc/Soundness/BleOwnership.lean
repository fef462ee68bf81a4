import Mathlib.Data.List.Chain
import MammotionRc.Soundness.LoopSteps

/-! # BLE ownership follows the client

A client can be stopped in five places, and only the failure path of `on_client_connected_` tears the BLE
link down itself; for the others `ble_open_` makes the next call of `loop()` do it before it accepts anybody.
The calls of `connect_mower()` and `disconnect_mower()` therefore alternate.
-/

namespace MammotionRc.Firmware

open Framing Machine LoopTask

inductive BleCall
  | connect
  | disconnect
deriving DecidableEq, Repr

/-- The call of the BLE link that an event answers, if it changes the link's owner. -/
def Event.bleCall : Event → Option BleCall
  | .connectMower _ => some .connect
  | .disconnectMower => some .disconnect
  | _ => none

def bleCalls (es : List Event) : List BleCall := es.filterMap Event.bleCall

/-- Connects and disconnects take turns, and a connect comes first. -/
structure Alternate (calls : List BleCall) : Prop where
  first : ∀ call, calls.head? = some call → call = .connect
  turns : calls.IsChain (· ≠ ·)

/-- A connect attempt has not been torn down. -/
def Outstanding (es : List Event) : Prop := (bleCalls es).getLast? = some .connect

/-- Something happens outside loopTask. -/
def Event.isOutside : Event → Bool
  | .peerClose | .notify _ | .elapse _ => true
  | _ => false

/-- `ble_open_` says who owns the link. A `loop()` call begins at the position `connected`; one that finds the client gone
while an attempt is outstanding does nothing before it tears the link down. -/
structure BleOwned (es : List Event) (s : LoopTask) : Prop where
  alternate : Alternate (bleCalls es)
  between : s.pc = .connected → (s.proxy.bleOpen = true ↔ Outstanding es)
  accepts : s.pc = .accept → s.client.connected = false ∧ ¬ Outstanding es
  gone : s.pc = .connected → s.client.connected = false → Outstanding es →
    ∀ later t, run step s (.connected :: later) = some t → t.pc ≠ .disconnectMower →
      ∃ before after, later = before ++ .disconnectMower :: after ∧ ∀ e ∈ before, e.isOutside = true

theorem bleCalls_concat (es : List Event) (e : Event) : bleCalls (es ++ [e]) = bleCalls es ++ e.bleCall.toList := by
  rw [bleCalls, List.filterMap_append, List.filterMap_cons, List.filterMap_nil]
  cases e.bleCall <;> rfl

theorem Alternate.connect {calls : List BleCall} (alternate : Alternate calls)
    (last : calls.getLast? ≠ some .connect) : Alternate (calls ++ [BleCall.connect]) := by
  refine ⟨fun call first => ?_, ?_⟩
  · cases calls with
    | nil => cases first; rfl
    | cons c later => exact alternate.first call first
  · refine List.isChain_append.mpr ⟨alternate.turns, .singleton _, fun c at_ d single => ?_⟩
    cases single
    rintro rfl
    exact last at_

theorem Alternate.disconnect {calls : List BleCall} (alternate : Alternate calls)
    (last : calls.getLast? = some .connect) : Alternate (calls ++ [BleCall.disconnect]) := by
  refine ⟨fun call first => ?_, ?_⟩
  · cases calls with
    | nil => cases last
    | cons c later => exact alternate.first call first
  · refine List.isChain_append.mpr ⟨alternate.turns, .singleton _, fun c at_ d single => ?_⟩
    cases single
    rintro rfl
    rw [last] at at_
    cases at_

/-- `ble_open_` around the calls that change it. -/
structure OwnedInvariant (es : List Event) (s : LoopTask) : Prop where
  alternate : Alternate (bleCalls es)
  outstanding : Outstanding es ↔ s.proxy.bleOpen = true ∧ s.pc ≠ .connectMower
  owned : s.pc = .disconnectMower ∨ s.pc = .connectMower ∨ s.pc = .abandonMower → s.proxy.bleOpen = true
  free : s.pc = .clearQueue ∨ s.pc = .accept → s.proxy.bleOpen = false
  down : s.pc = .disconnectMower ∨ s.pc = .clearQueue ∨ s.pc = .accept → s.client.connected = false

variable {es : List Event} {e : Event} {s t : LoopTask}

/-- A step that changes neither the link's owner nor `ble_open_`. -/
theorem OwnedInvariant.keep (inv : OwnedInvariant es s) (call : e.bleCall = none)
    (bleOpen : t.proxy.bleOpen = s.proxy.bleOpen) (connecting : t.pc ≠ .connectMower ∧ s.pc ≠ .connectMower)
    (owned : t.pc = .disconnectMower ∨ t.pc = .abandonMower → t.proxy.bleOpen = true)
    (free : t.pc = .clearQueue ∨ t.pc = .accept → t.proxy.bleOpen = false)
    (down : t.pc = .disconnectMower ∨ t.pc = .clearQueue ∨ t.pc = .accept → t.client.connected = false) :
    OwnedInvariant (es ++ [e]) t := by
  have same : bleCalls (es ++ [e]) = bleCalls es := by
    rw [bleCalls_concat, call, Option.toList_none, List.append_nil]
  refine ⟨same ▸ inv.alternate, ?_, fun at_ => owned ?_, free, down⟩
  · rw [Outstanding, same, bleOpen]
    exact inv.outstanding.trans (and_congr_right fun _ => iff_of_true connecting.2 connecting.1)
  · exact at_.imp_right fun at_ => at_.resolve_left connecting.1

theorem OwnedInvariant.outside (inv : OwnedInvariant es s) (call : e.bleCall = none)
    (bleOpen : t.proxy.bleOpen = s.proxy.bleOpen) (pc : t.pc = s.pc)
    (connected : t.client.connected = true → s.client.connected = true) : OwnedInvariant (es ++ [e]) t := by
  have same : bleCalls (es ++ [e]) = bleCalls es := by
    rw [bleCalls_concat, call, Option.toList_none, List.append_nil]
  refine ⟨same ▸ inv.alternate, ?_, ?_, ?_, fun at_ => ?_⟩
  · rw [Outstanding, same, bleOpen, pc]
    exact inv.outstanding
  · rw [pc, bleOpen]
    exact inv.owned
  · rw [pc, bleOpen]
    exact inv.free
  · rw [pc] at at_
    exact Bool.eq_false_iff.mpr fun up => Bool.eq_false_iff.mp (inv.down at_) (connected up)

theorem OwnedInvariant.connect (inv : OwnedInvariant es s) {ok : Bool} (was : s.pc = .connectMower)
    (proxy : t.proxy = s.proxy) (pc : t.pc = .connected ∨ t.pc = .abandonMower) :
    OwnedInvariant (es ++ [Event.connectMower ok]) t := by
  have calls : bleCalls (es ++ [Event.connectMower ok]) = bleCalls es ++ [BleCall.connect] := bleCalls_concat ..
  have bleOpen := inv.owned (.inr (.inl was))
  have idle : ¬ Outstanding es := fun outstanding => (inv.outstanding.mp outstanding).2 was
  refine ⟨?_, ?_, fun _ => by rw [proxy, bleOpen], ?_, ?_⟩
  · rw [calls]
    exact inv.alternate.connect idle
  · rw [Outstanding, calls, List.getLast?_concat, proxy, bleOpen]
    rcases pc with pc | pc <;> simp [pc]
  · rcases pc with pc | pc <;> simp [pc]
  · rcases pc with pc | pc <;> simp [pc]

theorem OwnedInvariant.disconnect (inv : OwnedInvariant es s) (outstanding : Outstanding es)
    (bleOpen : t.proxy.bleOpen = false)
    (pc : t.pc = .connected ∨ t.pc = .clearQueue ∧ t.client.connected = false) :
    OwnedInvariant (es ++ [Event.disconnectMower]) t := by
  have calls : bleCalls (es ++ [Event.disconnectMower]) = bleCalls es ++ [BleCall.disconnect] := bleCalls_concat ..
  refine ⟨?_, ?_, ?_, fun _ => bleOpen, ?_⟩
  · rw [calls]
    exact inv.alternate.disconnect outstanding
  · rw [Outstanding, calls, List.getLast?_concat, bleOpen]
    simp
  · rcases pc with pc | ⟨pc, _⟩ <;> simp [pc]
  · rcases pc with pc | ⟨pc, down⟩
    · simp [pc]
    · exact fun _ => down

theorem OwnedInvariant.step (inv : OwnedInvariant es s) (stepped : s.step e = some t) :
    OwnedInvariant (es ++ [e]) t := by
  cases step_effect stepped with
  | peerClose =>
    refine inv.outside rfl rfl rfl fun up => ?_
    cases (Bool.and_false s.client.isOpen).symm.trans up
  | notify data =>
    refine inv.outside rfl ?_ rfl id
    simp only [TcpProxy.notifyCallback]
    split <;> rfl
  | elapse ms => exact inv.outside rfl rfl rfl id
  | serving was up => exact inv.keep rfl rfl (by simp [was]) (by simp) (by simp) (by simp)
  | gone was down bleOpen =>
    exact inv.keep rfl rfl (by simp [was]) (fun _ => bleOpen) (by simp) fun _ => down
  | vacant was down bleOpen =>
    exact inv.keep rfl rfl (by simp [was]) (by simp) (fun _ => bleOpen) fun _ => down
  | tornDown was =>
    have outstanding := inv.outstanding.mpr ⟨inv.owned (.inl was), by simp [was]⟩
    exact inv.disconnect outstanding rfl (.inr ⟨rfl, inv.down (.inl was)⟩)
  | abandoned was =>
    have outstanding := inv.outstanding.mpr ⟨inv.owned (.inr (.inr was)), by simp [was]⟩
    exact inv.disconnect outstanding rfl (.inl rfl)
  | cleared was =>
    have bleOpen : s.proxy.swapQueue.bleOpen = s.proxy.bleOpen := by
      rw [TcpProxy.swapQueue]
      split <;> rfl
    exact inv.keep rfl bleOpen (by simp [was]) (by simp) (fun _ => bleOpen.trans (inv.free (.inl was)))
      fun _ => inv.down (.inr (.inl was))
  | noClient was => exact inv.keep rfl rfl (by simp [was]) (by simp) (by simp) (by simp)
  | accepted was stream =>
    have same : bleCalls (es ++ [Event.accept (some stream)]) = bleCalls es := by
      rw [bleCalls_concat]
      exact List.append_nil _
    have closed := inv.free (.inr was)
    refine ⟨same ▸ inv.alternate, ?_, fun _ => rfl, by simp, by simp⟩
    rw [Outstanding, same]
    refine ⟨fun outstanding => ?_, fun opened => absurd rfl opened.2⟩
    have bleOpen := (inv.outstanding.mp outstanding).1
    rw [closed] at bleOpen
    cases bleOpen
  | opened was => exact inv.connect was rfl (.inl rfl)
  | openFailed was => exact inv.connect was rfl (.inr rfl)
  | poll was event polls =>
    have call : e.bleCall = none := by cases e <;> first | rfl | cases event
    have idle : s.pc ≠ .connectMower := fun same => by rw [same] at was; exact was
    have away : ∀ pc : Pc, ¬ pc.Polling → pc ≠ .drain → pc ≠ .connected → t.pc ≠ pc := by
      rintro _ polling drain connected rfl
      rcases polls.pc with at_ | at_ | ⟨at_, _⟩
      · exact polling at_
      · exact drain at_
      · exact connected at_
    refine inv.keep call polls.bleOpen ⟨away _ id (by simp) (by simp), idle⟩ ?_ ?_ ?_
    · rintro (at_ | at_) <;> exact absurd at_ (away _ id (by simp) (by simp))
    · rintro (at_ | at_) <;> exact absurd at_ (away _ id (by simp) (by simp))
    · rintro (at_ | at_ | at_) <;> exact absurd at_ (away _ id (by simp) (by simp))
  | drains was mutex queue =>
    refine inv.keep rfl rfl ⟨?_, by simp [was]⟩ ?_ ?_ ?_ <;> dsimp only <;> split <;> simp
  | drained was empty => exact inv.keep rfl rfl (by simp [was]) (by simp) (by simp) (by simp)
  | header gaveUp was may | payload gaveUp was may =>
    exact inv.keep rfl rfl ⟨nofun, by simp [was]⟩ (by rintro (⟨⟨⟩⟩ | ⟨⟨⟩⟩)) (by rintro (⟨⟨⟩⟩ | ⟨⟨⟩⟩))
      (by rintro (⟨⟨⟩⟩ | ⟨⟨⟩⟩ | ⟨⟨⟩⟩))

/-- At the call of `disconnect_mower()` loopTask does nothing else. -/
theorem step_disconnectMower (at_ : s.pc = .disconnectMower) (stepped : s.step e = some t) :
    e = .disconnectMower ∨ e.isOutside = true ∧ t.pc = .disconnectMower := by
  cases step_effect stepped with
  | peerClose | notify data | elapse ms => exact .inr ⟨rfl, at_⟩
  | tornDown was => exact .inl rfl
  | abandoned was => exact .inl rfl
  | serving was | gone was | vacant was | cleared was | noClient was | accepted was stream | opened was
  | openFailed was | drains was | drained was | header gaveUp was | payload gaveUp was =>
    rw [at_] at was
    cases was
  | poll was event polls =>
    rw [at_] at was
    exact was.elim

theorem first_disconnectMower {later : List Event} (at_ : s.pc = .disconnectMower)
    (ran : run LoopTask.step s later = some t) (moved : t.pc ≠ .disconnectMower) :
    ∃ before after, later = before ++ .disconnectMower :: after ∧ ∀ e ∈ before, e.isOutside = true := by
  induction later generalizing s with
  | nil =>
    cases ran
    exact absurd at_ moved
  | cons e later ih =>
    obtain ⟨u, stepped, ran⟩ := Option.bind_eq_some_iff.mp ran
    rcases step_disconnectMower at_ stepped with rfl | ⟨outside, stays⟩
    · exact ⟨[], later, rfl, fun _ mem => absurd mem List.not_mem_nil⟩
    · obtain ⟨before, after, rfl, all⟩ := ih stays ran
      refine ⟨e :: before, after, rfl, fun d mem => ?_⟩
      rcases List.mem_cons.mp mem with rfl | mem
      · exact outside
      · exact all d mem

theorem ownedInvariant_init (mutex : Bool) : OwnedInvariant [] (.init mutex) := by
  refine ⟨⟨nofun, .nil⟩, ?_, ?_, ?_, ?_⟩ <;> simp [Outstanding, bleCalls, LoopTask.init, TcpProxy.init]

/-- **BLE ownership follows the client**: in every run the calls of `connect_mower()` and
`disconnect_mower()` take turns, `ble_open_` tells between two calls of `loop()` whether an attempt is
outstanding, and nobody is accepted before the link of the previous client was torn down. -/
theorem ble_owned (mutex : Bool) (es : List Event) (s : LoopTask)
    (ran : run LoopTask.step (.init mutex) es = some s) : BleOwned es s := by
  have inv : OwnedInvariant es s :=
    run_invariant (I := OwnedInvariant) (ownedInvariant_init mutex) (fun _ _ _ _ inv => inv.step) ran
  refine ⟨inv.alternate, fun at_ => ?_, fun at_ => ⟨inv.down (.inr (.inr at_)), fun outstanding => ?_⟩,
    fun at_ down outstanding later t continued moved => ?_⟩
  · rw [inv.outstanding, at_]
    simp
  · have bleOpen := (inv.outstanding.mp outstanding).1
    rw [inv.free (.inr at_)] at bleOpen
    cases bleOpen
  · obtain ⟨u, stepped, continued⟩ := Option.bind_eq_some_iff.mp continued
    have bleOpen := (inv.outstanding.mp outstanding).1
    refine first_disconnectMower ?_ continued moved
    simp only [LoopTask.step, at_, down, bleOpen] at stepped
    cases stepped
    rfl

/-- A connect fails, the next client is dropped for an oversize frame, and a third one is accepted. -/
def threeClients : List Event :=
  [.connected, .accept (some []), .connectMower false, .disconnectMower, .connected,
    .accept (some [255, 255]), .connectMower true, .connected, .idleCheck, .available 2, .read (.got 2), .drain,
    .connected, .disconnectMower, .clearQueue, .accept (some []), .connectMower true]

theorem ble_owned_threeClients :
    ∃ s, run LoopTask.step (.init true) threeClients = some s ∧ BleOwned threeClients s ∧
      bleCalls threeClients = [.connect, .disconnect, .connect, .disconnect, .connect] := by
  obtain ⟨s, ran⟩ : ∃ s, run LoopTask.step (.init true) threeClients = some s := ⟨_, rfl⟩
  exact ⟨s, ran, ble_owned true threeClients s ran, by decide⟩

end MammotionRc.Firmware
