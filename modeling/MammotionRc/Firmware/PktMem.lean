import MammotionRc.Firmware.Mmpkt
import MammotionRc.Machine.CountedPool
import Mathlib.Data.List.Range

/-! # `mmpktmem_heap.c`: the packet memory of the HaLow driver

The tasks that allocate and free packets share two counters, a pause flag and a free list, each accessed
atomically. Tasks differ in nothing but where they stand, so the state counts them: one field for each
place between two accesses of `mmhal_wlan_alloc_mmpkt_for_tx` and of `tx_data_pool_pkt_free`. An event
lets one of the tasks at such a place make its next access.
-/

namespace MammotionRc.Firmware

open Machine

def MMPKTMEM_TX_POOL_N_BLOCKS : ℤ := 20
def MMPKTMEM_RX_POOL_N_BLOCKS : ℤ := 23
def TX_DATA_POOL_UNPAUSE_THRESHOLD : ℤ := MMPKTMEM_TX_POOL_N_BLOCKS - 2
def TX_DATA_POOL_PAUSE_THRESHOLD : ℤ := MMPKTMEM_TX_POOL_N_BLOCKS - 1
def TX_COMMAND_POOL_BLOCK_SIZE : UInt32 := 256
def TX_COMMAND_POOL_N_BLOCKS : ℕ := 2

/-- `pktmem`, and how many tasks stand where. -/
structure PktMem where
  /-- `tx_data_pool_allocated`. -/
  txData : CountedPool
  /-- `rx_pool_allocated`. -/
  rx : CountedPool
  /-- `tx_data_pool_tx_paused`. -/
  txPaused : Bool
  /-- What the last `tx_flow_control_cb` saw of `mmhal_wlan_pktmem_tx_flow_control_state()`. -/
  told : Bool
  /-- Allocated, about to compare the counter with the pause threshold. -/
  checking : ℕ
  /-- Allocated, about to exchange the pause flag for 1. -/
  pausing : ℕ
  /-- Allocated, about to call `tx_flow_control_cb`. -/
  tellingPaused : ℕ
  /-- Packets that an allocation returned. -/
  held : ℕ
  /-- Freed, about to compare the counter with the unpause threshold. -/
  freed : ℕ
  /-- Freed, about to exchange the pause flag for 0. -/
  unpausing : ℕ
  /-- Freed, about to call `tx_flow_control_cb`. -/
  tellingReady : ℕ
  /-- `tx_command_pool_free_list`, by block. -/
  commandFree : List ℕ
  /-- Dequeued, about to be laid out by `mmpkt_init_buf`. -/
  commandTaken : List ℕ
  /-- Command packets that an allocation returned. -/
  commandHeld : List ℕ
deriving DecidableEq, Repr

inductive PktEvent
  /-- `atomic_fetch_add(&tx_data_pool_allocated, 1)`. -/
  | txTake
  /-- `mmpkt_alloc_on_heap` for a packet to transmit. -/
  | txAllocate (ok : Bool)
  /-- `atomic_fetch_sub` before `return NULL`. -/
  | txGiveBack
  | checkPause
  | pause
  | tellPaused
  /-- `tx_data_pool_pkt_free` up to `mmosal_free`. -/
  | txFree
  | checkUnpause
  | unpause
  | tellReady
  /-- `mmpkt_list_dequeue` on the command pool. -/
  | commandDequeue
  /-- `mmpkt_init_buf` in a dequeued block, and the append that returns the block if it is too small. -/
  | commandInit (block : ℕ) (spaceAtStart spaceAtEnd metadataSize : UInt32)
  /-- `tx_command_reserved_free`. -/
  | commandFree (block : ℕ)
  /-- `mmhal_wlan_alloc_mmpkt_for_rx` of a packet that is no command, and `rx_pkt_free`. -/
  | rx (access : PoolEvent)
deriving DecidableEq, Repr

namespace PktMem

/-- `mmhal_wlan_pktmem_init`. -/
def init : PktMem :=
  { txData := .empty, rx := .empty, txPaused := false, told := false, checking := 0, pausing := 0
    tellingPaused := 0, held := 0, freed := 0, unpausing := 0, tellingReady := 0
    commandFree := List.range TX_COMMAND_POOL_N_BLOCKS, commandTaken := [], commandHeld := [] }

/-- One access by one of the tasks; `none` when no task stands there. -/
def step (s : PktMem) : PktEvent → Option PktMem
  | .txTake =>
    (s.txData.step MMPKTMEM_TX_POOL_N_BLOCKS .take).map fun p => { s with txData := p }
  | .txAllocate ok =>
    (s.txData.step MMPKTMEM_TX_POOL_N_BLOCKS (.allocate ok)).map fun p =>
      { s with txData := p, checking := if ok then s.checking + 1 else s.checking }
  | .txGiveBack =>
    (s.txData.step MMPKTMEM_TX_POOL_N_BLOCKS .giveBack).map fun p => { s with txData := p }
  | .checkPause =>
    if 0 < s.checking then
      some (if TX_DATA_POOL_PAUSE_THRESHOLD < s.txData.count then
          { s with checking := s.checking - 1, pausing := s.pausing + 1 }
        else { s with checking := s.checking - 1, held := s.held + 1 })
    else none
  | .pause =>
    if 0 < s.pausing then
      some (if s.txPaused then { s with pausing := s.pausing - 1, held := s.held + 1 }
        else { s with pausing := s.pausing - 1, txPaused := true, tellingPaused := s.tellingPaused + 1 })
    else none
  | .tellPaused =>
    if 0 < s.tellingPaused then
      some { s with tellingPaused := s.tellingPaused - 1, told := s.txPaused, held := s.held + 1 }
    else none
  | .txFree =>
    if 0 < s.held then
      (s.txData.step MMPKTMEM_TX_POOL_N_BLOCKS .release).map fun p =>
        { s with txData := p, held := s.held - 1, freed := s.freed + 1 }
    else none
  | .checkUnpause =>
    if 0 < s.freed then
      some (if s.txData.count < TX_DATA_POOL_UNPAUSE_THRESHOLD then
          { s with freed := s.freed - 1, unpausing := s.unpausing + 1 }
        else { s with freed := s.freed - 1 })
    else none
  | .unpause =>
    if 0 < s.unpausing then
      some (if s.txPaused then
          { s with unpausing := s.unpausing - 1, txPaused := false, tellingReady := s.tellingReady + 1 }
        else { s with unpausing := s.unpausing - 1 })
    else none
  | .tellReady =>
    if 0 < s.tellingReady then some { s with tellingReady := s.tellingReady - 1, told := s.txPaused } else none
  | .commandDequeue =>
    match s.commandFree with
    | [] => some s
    | block :: rest => some { s with commandFree := rest, commandTaken := block :: s.commandTaken }
  | .commandInit block spaceAtStart spaceAtEnd metadataSize =>
    if block ∈ s.commandTaken then
      some (if (mmpktInitBuf TX_COMMAND_POOL_BLOCK_SIZE spaceAtStart spaceAtEnd metadataSize).isSome then
          { s with commandTaken := s.commandTaken.erase block, commandHeld := block :: s.commandHeld }
        else { s with commandTaken := s.commandTaken.erase block, commandFree := s.commandFree ++ [block] })
    else none
  | .commandFree block =>
    if block ∈ s.commandHeld then
      some { s with commandHeld := s.commandHeld.erase block, commandFree := s.commandFree ++ [block] }
    else none
  | .rx access => (s.rx.step MMPKTMEM_RX_POOL_N_BLOCKS access).map fun p => { s with rx := p }

/-! ## When an access can happen -/

variable {s t : PktMem}

attribute [local simp] step

theorem step_txTake : s.step .txTake = some t ↔
    ∃ p, s.txData.step MMPKTMEM_TX_POOL_N_BLOCKS .take = some p ∧ { s with txData := p } = t := by
  simp

theorem step_txAllocate {ok : Bool} : s.step (.txAllocate ok) = some t ↔
    ∃ p, s.txData.step MMPKTMEM_TX_POOL_N_BLOCKS (.allocate ok) = some p ∧
      { s with txData := p, checking := if ok then s.checking + 1 else s.checking } = t := by
  simp

theorem step_txGiveBack : s.step .txGiveBack = some t ↔
    ∃ p, s.txData.step MMPKTMEM_TX_POOL_N_BLOCKS .giveBack = some p ∧ { s with txData := p } = t := by
  simp

theorem step_checkPause : s.step .checkPause = some t ↔ 0 < s.checking ∧
    (if TX_DATA_POOL_PAUSE_THRESHOLD < s.txData.count then
        { s with checking := s.checking - 1, pausing := s.pausing + 1 }
      else { s with checking := s.checking - 1, held := s.held + 1 }) = t := by
  simp

theorem step_pause : s.step .pause = some t ↔ 0 < s.pausing ∧
    (if s.txPaused then { s with pausing := s.pausing - 1, held := s.held + 1 }
      else { s with pausing := s.pausing - 1, txPaused := true, tellingPaused := s.tellingPaused + 1 }) = t := by
  simp

theorem step_tellPaused : s.step .tellPaused = some t ↔ 0 < s.tellingPaused ∧
    { s with tellingPaused := s.tellingPaused - 1, told := s.txPaused, held := s.held + 1 } = t := by
  simp

theorem step_txFree : s.step .txFree = some t ↔ 0 < s.held ∧
    ∃ p, s.txData.step MMPKTMEM_TX_POOL_N_BLOCKS .release = some p ∧
      { s with txData := p, held := s.held - 1, freed := s.freed + 1 } = t := by
  simp

theorem step_checkUnpause : s.step .checkUnpause = some t ↔ 0 < s.freed ∧
    (if s.txData.count < TX_DATA_POOL_UNPAUSE_THRESHOLD then
        { s with freed := s.freed - 1, unpausing := s.unpausing + 1 }
      else { s with freed := s.freed - 1 }) = t := by
  simp

theorem step_unpause : s.step .unpause = some t ↔ 0 < s.unpausing ∧
    (if s.txPaused then
        { s with unpausing := s.unpausing - 1, txPaused := false, tellingReady := s.tellingReady + 1 }
      else { s with unpausing := s.unpausing - 1 }) = t := by
  simp

theorem step_tellReady : s.step .tellReady = some t ↔ 0 < s.tellingReady ∧
    { s with tellingReady := s.tellingReady - 1, told := s.txPaused } = t := by
  simp

theorem step_commandDequeue : s.step .commandDequeue = some t ↔
    s.commandFree = [] ∧ s = t ∨ ∃ block rest, s.commandFree = block :: rest ∧
      { s with commandFree := rest, commandTaken := block :: s.commandTaken } = t := by
  cases free : s.commandFree <;> simp [free]

theorem step_commandInit {block : ℕ} {spaceAtStart spaceAtEnd metadataSize : UInt32} :
    s.step (.commandInit block spaceAtStart spaceAtEnd metadataSize) = some t ↔ block ∈ s.commandTaken ∧
      (if (mmpktInitBuf TX_COMMAND_POOL_BLOCK_SIZE spaceAtStart spaceAtEnd metadataSize).isSome then
          { s with commandTaken := s.commandTaken.erase block, commandHeld := block :: s.commandHeld }
        else
          { s with commandTaken := s.commandTaken.erase block, commandFree := s.commandFree ++ [block] }) = t := by
  simp

theorem step_commandFree {block : ℕ} : s.step (.commandFree block) = some t ↔ block ∈ s.commandHeld ∧
    { s with commandHeld := s.commandHeld.erase block, commandFree := s.commandFree ++ [block] } = t := by
  simp

theorem step_rx {access : PoolEvent} : s.step (.rx access) = some t ↔
    ∃ p, s.rx.step MMPKTMEM_RX_POOL_N_BLOCKS access = some p ∧ { s with rx := p } = t := by
  simp

end PktMem

end MammotionRc.Firmware
