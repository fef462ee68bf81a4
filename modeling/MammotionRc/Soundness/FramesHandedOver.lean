import MammotionRc.Firmware.LinkOutput
import MammotionRc.Soundness.PacketDeque

/-! # Every frame that lwIP sends is handed over whole or counted as dropped

The loop over the `pbuf` chain appends to an empty packet with room for all of it, so no assertion fails and
the packet's data is the frame. What happens to a call depends on its answers alone; the counters only count.
-/

namespace MammotionRc.Firmware

open Framing Machine

theorem foldlM_appendData (m : Mmpkt) (segments : List Bytes) :
    (appendChain m segments).map Mmpkt.deque = segments.foldlM RoomedDeque.append m.deque := by
  induction segments generalizing m with
  | nil => rfl
  | cons segment rest ih =>
    rw [appendChain, List.foldlM_cons, List.foldlM_cons, ← Mmpkt.appendData_deque]
    cases m.appendData segment with
    | none => rfl
    | some filled => exact ih filled

/-- The chain fits in a packet with room for `tot_len` bytes, and its bytes become the packet's data. -/
theorem appendChain_eq {m : Mmpkt} {p : PbufChain} (empty : m.dataLen = 0) (room : p.totLen ≤ m.availableSpaceAtEnd) :
    ∃ filled, appendChain m p.segments = some filled ∧ filled.data = p.segments.flatten := by
  have fits : p.segments.flatten.length ≤ m.deque.back := by
    rw [← p.sums]
    exact room
  have chained := foldlM_appendData m p.segments
  rw [RoomedDeque.foldlM_append fits] at chained
  obtain ⟨filled, appended, same⟩ := Option.map_eq_some_iff.mp chained
  refine ⟨filled, appended, ?_⟩
  have none_ : m.deque.items = [] := Mmpkt.data_eq_nil_iff.mpr empty
  rw [none_, List.nil_append] at same
  exact congrArg RoomedDeque.items same

/-- How the answers to a call make it end: by its error and the frame it hands over. -/
def TxCall.expected (c : TxCall) : Err × Option Bytes :=
  if !c.ready then (.buf, none)
  else if c.pkt.isNone then (.mem, none)
  else (if c.accepted then .ok else .buf, some c.p.segments.flatten)

/-- The frame in the packet that a call handed to `mmwlan_tx_pkt`. -/
def TxEnd.frame : TxEnd → Option Bytes
  | .busy | .noPacket => none
  | .refused m | .sent m => some m.data

theorem transmit_eq (c : TxCall) : ∃ ended, c.transmit = some ended ∧ (ended.err, ended.frame) = c.expected := by
  obtain ⟨p, ready, pkt, accepted⟩ := c
  cases ready with
  | false => exact ⟨.busy, rfl, rfl⟩
  | true =>
    rcases pkt with _ | ⟨m, empty, room⟩
    · exact ⟨.noPacket, rfl, rfl⟩
    · obtain ⟨filled, appended, data⟩ := appendChain_eq empty room
      refine ⟨if accepted then .sent filled else .refused filled, ?_, ?_⟩
      · simp [TxCall.transmit, appended]
      · cases accepted <;> simp [TxCall.expected, TxEnd.err, TxEnd.frame, data]

/-- One call ends in exactly one of the four counters. -/
theorem count_sum (s : TxStats) (ended : TxEnd) :
    (s.count ended).ok + (s.count ended).busyDrops + (s.count ended).allocDrops + (s.count ended).sendDrops =
      s.ok + s.busyDrops + s.allocDrops + s.sendDrops + 1 ∧ (s.count ended).attempts = s.attempts := by
  cases ended <;> refine ⟨?_, rfl⟩ <;> simp only [TxStats.count] <;> grind

end MammotionRc.Firmware
