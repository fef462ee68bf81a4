import MammotionRc.Firmware.PktMem

/-! # The packet pools stay within their bounds and flow control comes back

The counters are the admission counters of `CountedPool`, so the pools never hold more packets than they
may, whatever the tasks do. Pausing and resuming transmission each take two accesses, and a task between
them can overtake or be overtaken; what keeps the flag from staying up is that whoever sets it still holds a
packet, which will be freed, and that the last to free one finds the counter below the threshold.
-/

namespace MammotionRc.Firmware

open Machine

namespace PktMem

variable {s t : PktMem} {e : PktEvent} {es : List PktEvent}

/-- What the pools hold, and where. -/
structure Accounted (s : PktMem) : Prop where
  tx : s.txData.Bounded MMPKTMEM_TX_POOL_N_BLOCKS
  rx : s.rx.Bounded MMPKTMEM_RX_POOL_N_BLOCKS
  /-- A packet on the heap was returned, or its allocation is at one of the three places after it. -/
  live : s.txData.live = s.held + s.checking + s.pausing + s.tellingPaused
  commands : (s.commandFree ++ s.commandTaken ++ s.commandHeld).Perm (List.range TX_COMMAND_POOL_N_BLOCKS)

theorem accounted_init : Accounted init :=
  ⟨.empty (by decide), .empty (by decide), rfl, .refl _⟩

/-- The transmit pool after a step of its counter: only these fields tell how many packets are where. -/
theorem Accounted.counter {p : CountedPool} {event : PoolEvent} (accounted : s.Accounted)
    (stepped : s.txData.step MMPKTMEM_TX_POOL_N_BLOCKS event = some p)
    (live : p.live = t.held + t.checking + t.pausing + t.tellingPaused) (same : t.txData = p)
    (rx : t.rx = s.rx) (commands : t.commandFree = s.commandFree ∧ t.commandTaken = s.commandTaken ∧
      t.commandHeld = s.commandHeld) : t.Accounted := by
  obtain ⟨free, taken, held⟩ := commands
  refine ⟨?_, ?_, ?_, ?_⟩
  · rw [same]
    exact accounted.tx.step stepped
  · rw [rx]
    exact accounted.rx
  · rw [same, live]
  · rw [free, taken, held]
    exact accounted.commands

/-- Every access leaves the packets and the blocks accounted for. -/
theorem Accounted.step (accounted : s.Accounted) (stepped : s.step e = some t) : t.Accounted := by
  have live := accounted.live
  cases e with
  | txTake =>
    obtain ⟨p, counted, rfl⟩ := step_txTake.mp stepped
    refine accounted.counter counted ?_ rfl rfl ⟨rfl, rfl, rfl⟩
    obtain rfl := CountedPool.step_take.mp counted
    split_ifs <;> exact live
  | txAllocate ok =>
    obtain ⟨p, counted, rfl⟩ := step_txAllocate.mp stepped
    refine accounted.counter counted ?_ rfl rfl ⟨rfl, rfl, rfl⟩
    obtain ⟨-, rfl⟩ := CountedPool.step_allocate.mp counted
    cases ok
    · exact live
    · simp only [↓reduceIte]
      omega
  | txGiveBack =>
    obtain ⟨p, counted, rfl⟩ := step_txGiveBack.mp stepped
    refine accounted.counter counted ?_ rfl rfl ⟨rfl, rfl, rfl⟩
    obtain ⟨-, rfl⟩ := CountedPool.step_giveBack.mp counted
    exact live
  | checkPause =>
    obtain ⟨some_, rfl⟩ := step_checkPause.mp stepped
    split_ifs
    · exact ⟨accounted.tx, accounted.rx, by dsimp only; omega, accounted.commands⟩
    · exact ⟨accounted.tx, accounted.rx, by dsimp only; omega, accounted.commands⟩
  | pause =>
    obtain ⟨some_, rfl⟩ := step_pause.mp stepped
    split_ifs
    · exact ⟨accounted.tx, accounted.rx, by dsimp only; omega, accounted.commands⟩
    · exact ⟨accounted.tx, accounted.rx, by dsimp only; omega, accounted.commands⟩
  | tellPaused =>
    obtain ⟨some_, rfl⟩ := step_tellPaused.mp stepped
    exact ⟨accounted.tx, accounted.rx, by dsimp only; omega, accounted.commands⟩
  | txFree =>
    obtain ⟨some_, p, counted, rfl⟩ := step_txFree.mp stepped
    refine accounted.counter counted ?_ rfl rfl ⟨rfl, rfl, rfl⟩
    obtain ⟨-, rfl⟩ := CountedPool.step_release.mp counted
    dsimp only
    omega
  | checkUnpause =>
    obtain ⟨some_, rfl⟩ := step_checkUnpause.mp stepped
    split_ifs <;> exact ⟨accounted.tx, accounted.rx, live, accounted.commands⟩
  | unpause =>
    obtain ⟨some_, rfl⟩ := step_unpause.mp stepped
    split_ifs <;> exact ⟨accounted.tx, accounted.rx, live, accounted.commands⟩
  | tellReady =>
    obtain ⟨some_, rfl⟩ := step_tellReady.mp stepped
    exact ⟨accounted.tx, accounted.rx, live, accounted.commands⟩
  | commandDequeue =>
    obtain ⟨-, rfl⟩ | ⟨block, rest, free, rfl⟩ := step_commandDequeue.mp stepped
    · exact accounted
    · refine ⟨accounted.tx, accounted.rx, live, .trans ?_ accounted.commands⟩
      rw [free, List.append_assoc, List.append_assoc]
      exact List.perm_middle
  | commandInit block spaceAtStart spaceAtEnd metadataSize =>
    obtain ⟨taken, rfl⟩ := step_commandInit.mp stepped
    have out := List.perm_cons_erase taken
    split_ifs
    · refine ⟨accounted.tx, accounted.rx, live, .trans ?_ accounted.commands⟩
      rw [List.append_assoc, List.append_assoc]
      refine .append_left _ (.trans List.perm_middle ?_)
      exact .append_right s.commandHeld out.symm
    · refine ⟨accounted.tx, accounted.rx, live, .trans ?_ accounted.commands⟩
      dsimp only
      rw [List.append_assoc s.commandFree]
      exact .append_right _ (.append_left _ out.symm)
  | commandFree block =>
    obtain ⟨held, rfl⟩ := step_commandFree.mp stepped
    have out := List.perm_cons_erase held
    refine ⟨accounted.tx, accounted.rx, live, .trans ?_ accounted.commands⟩
    dsimp only
    rw [List.append_assoc, List.append_assoc, List.append_assoc]
    refine .append_left _ (.trans ?_ (.append_left _ out.symm))
    change (block :: (s.commandTaken ++ s.commandHeld.erase block)).Perm _
    exact List.perm_middle.symm
  | rx access =>
    obtain ⟨p, counted, rfl⟩ := step_rx.mp stepped
    exact ⟨accounted.tx, accounted.rx.step counted, live, accounted.commands⟩

theorem accounted_of_run (ran : run step init es = some s) : Accounted s :=
  run_invariant (I := fun _ => Accounted) accounted_init (fun _ _ _ _ held stepped => held.step stepped) ran

/-- Flow control: the driver was told of the last change or is about to be, and a raised flag has somebody
who will look at the counter again. -/
structure Awake (s : PktMem) : Prop where
  told : s.tellingPaused = 0 → s.tellingReady = 0 → s.told = s.txPaused
  responsible : s.txPaused = true → 0 < s.txData.live + s.freed + s.unpausing

/-- A task that compares the counter with the unpause threshold meets fewer than 18 allocations between the
two halves of their own access. -/
def FewAllocating (_ : List PktEvent) (s : PktMem) (e : PktEvent) : Prop :=
  e = .checkUnpause → s.txData.admitted + s.txData.refused < 18

/-- A step of the transmit counter that frees nothing. -/
theorem Awake.counter {p : CountedPool} (awake : s.Awake) (same : s.txPaused = t.txPaused ∧ s.told = t.told ∧
      s.tellingPaused = t.tellingPaused ∧ s.tellingReady = t.tellingReady)
    (more : s.txData.live + s.freed + s.unpausing ≤ p.live + t.freed + t.unpausing) (pool : t.txData = p) :
    t.Awake := by
  obtain ⟨paused, told, tellingPaused, tellingReady⟩ := same
  refine ⟨?_, ?_⟩
  · rw [← paused, ← told, ← tellingPaused, ← tellingReady]
    exact awake.told
  · intro up
    have := awake.responsible (paused.trans up)
    rw [pool]
    omega

/-- Every access keeps flow control awake, if whoever may clear the flag does not misread the counter. -/
theorem Awake.step (accounted : s.Accounted) (awake : s.Awake) (few : FewAllocating es s e)
    (stepped : s.step e = some t) : t.Awake := by
  have live := accounted.live
  cases e with
  | txTake =>
    obtain ⟨p, counted, rfl⟩ := step_txTake.mp stepped
    obtain rfl := CountedPool.step_take.mp counted
    refine awake.counter ⟨rfl, rfl, rfl, rfl⟩ ?_ rfl
    split_ifs <;> exact le_rfl
  | txAllocate ok =>
    obtain ⟨p, counted, rfl⟩ := step_txAllocate.mp stepped
    obtain ⟨-, rfl⟩ := CountedPool.step_allocate.mp counted
    refine awake.counter ⟨rfl, rfl, rfl, rfl⟩ ?_ rfl
    dsimp only
    split_ifs <;> dsimp only <;> omega
  | txGiveBack =>
    obtain ⟨p, counted, rfl⟩ := step_txGiveBack.mp stepped
    obtain ⟨-, rfl⟩ := CountedPool.step_giveBack.mp counted
    refine awake.counter ⟨rfl, rfl, rfl, rfl⟩ ?_ rfl
    exact le_rfl
  | checkPause =>
    obtain ⟨some_, rfl⟩ := step_checkPause.mp stepped
    split_ifs <;> exact ⟨awake.told, awake.responsible⟩
  | pause =>
    obtain ⟨some_, rfl⟩ := step_pause.mp stepped
    split_ifs with up
    · exact ⟨awake.told, awake.responsible⟩
    · exact ⟨fun none_ => by simp at none_, fun _ => by dsimp only; omega⟩
  | tellPaused =>
    obtain ⟨some_, rfl⟩ := step_tellPaused.mp stepped
    exact ⟨fun _ _ => rfl, awake.responsible⟩
  | txFree =>
    obtain ⟨some_, p, counted, rfl⟩ := step_txFree.mp stepped
    obtain ⟨held, rfl⟩ := CountedPool.step_release.mp counted
    refine awake.counter ⟨rfl, rfl, rfl, rfl⟩ ?_ rfl
    dsimp only
    omega
  | checkUnpause =>
    obtain ⟨some_, rfl⟩ := step_checkUnpause.mp stepped
    split_ifs with low
    · exact ⟨awake.told, fun up => by have := awake.responsible up; dsimp only; omega⟩
    · -- the counter is high although few are allocating, so a packet is still there to be freed
      have exact_ := accounted.tx.exact
      have := few rfl
      simp only [TX_DATA_POOL_UNPAUSE_THRESHOLD, MMPKTMEM_TX_POOL_N_BLOCKS] at low
      exact ⟨awake.told, fun up => by dsimp only; omega⟩
  | unpause =>
    obtain ⟨some_, rfl⟩ := step_unpause.mp stepped
    split_ifs with up
    · exact ⟨fun _ none_ => by simp at none_, fun up => Bool.noConfusion up⟩
    · exact ⟨awake.told, fun up' => absurd up' up⟩
  | tellReady =>
    obtain ⟨some_, rfl⟩ := step_tellReady.mp stepped
    exact ⟨fun _ _ => rfl, awake.responsible⟩
  | commandDequeue =>
    obtain ⟨-, rfl⟩ | ⟨block, rest, free, rfl⟩ := step_commandDequeue.mp stepped
    · exact awake
    · exact ⟨awake.told, awake.responsible⟩
  | commandInit block spaceAtStart spaceAtEnd metadataSize =>
    obtain ⟨taken, rfl⟩ := step_commandInit.mp stepped
    split_ifs <;> exact ⟨awake.told, awake.responsible⟩
  | commandFree block =>
    obtain ⟨held, rfl⟩ := step_commandFree.mp stepped
    exact ⟨awake.told, awake.responsible⟩
  | rx access =>
    obtain ⟨p, counted, rfl⟩ := step_rx.mp stepped
    exact ⟨awake.told, awake.responsible⟩

/-- A packet that comes and goes. -/
def onePacket : List PktEvent := [.txTake, .txAllocate true, .checkPause, .txFree, .checkUnpause, .unpause]

set_option maxRecDepth 4000 in
/-- The bound is sharp: with eighteen allocations under way, each of which finds the pool full, twenty frees
in a row leave the flag up, and nobody is left to take it down. -/
example : (run step init (List.replicate 20 PktEvent.txTake ++ List.replicate 20 (.txAllocate true) ++
      List.replicate 20 .checkPause ++ List.replicate 20 .pause ++ [PktEvent.tellPaused] ++ List.replicate 18 .txTake ++
      (List.replicate 20 [PktEvent.txFree, .checkUnpause]).flatten ++ List.replicate 18 .txGiveBack)).map
        (fun s => (s.txData.live, s.txData.count, s.txPaused, s.freed + s.unpausing + s.tellingReady)) =
    some (0, 0, true, 0) := by
  decide

end PktMem

end MammotionRc.Firmware
