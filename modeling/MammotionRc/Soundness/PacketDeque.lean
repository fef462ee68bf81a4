import MammotionRc.Firmware.Mmpkt
import MammotionRc.Machine.RoomedDeque
import MammotionRc.Machine.Simulation

/-! # A packet is a deque of bytes

The calls of `mmpkt.h` move `start_offset` and `data_len` and copy bytes. Seen through `mmpkt_get_data_start`
and the two available spaces they are the operations of a deque between two rooms, the failing assertions are
its refusals, and no call ever writes outside the buffer.
-/

namespace MammotionRc.Firmware

open Framing Machine

namespace Mmpkt

/-- What the accessors of a packet show. -/
def deque (m : Mmpkt) : RoomedDeque UInt8 := ⟨m.availableSpaceAtStart, m.data, m.availableSpaceAtEnd⟩

/-- The same calls on a deque of bytes. -/
def onDeque (d : RoomedDeque UInt8) : Op → Option (Option Bytes × RoomedDeque UInt8)
  | .prependData bytes => (d.prepend bytes).map (none, ·)
  | .appendData bytes => (d.append bytes).map (none, ·)
  | .removeFromStart len => some (d.popFront len)
  | .removeFromEnd len => some (d.popBack len)
  | .truncate len => (d.keep len).map (none, ·)
  | .adjustStartOffset delta => (d.shift delta.toInt).map (none, ·)

variable {m : Mmpkt}

theorem data_length (m : Mmpkt) : m.data.length = m.dataLen := by
  have := m.within
  rw [data, List.length_take, List.length_drop]
  omega

/-- The rooms and the data of a packet take up its buffer, whatever is called. -/
theorem deque_capacity (m : Mmpkt) : m.deque.capacity = m.buf.length := by
  have := m.within
  simp only [RoomedDeque.capacity, deque, data_length, availableSpaceAtStart, availableSpaceAtEnd]
  omega

theorem deque_fresh {buf : Bytes} {start : ℕ} (within : start ≤ buf.length) (sized : buf.length < 2 ^ 31) :
    (fresh buf start within sized).deque = .empty start buf.length := by
  simp [deque, fresh, data, availableSpaceAtStart, availableSpaceAtEnd, RoomedDeque.empty]

/-- Bytes written right behind the data extend it. -/
theorem write_behind {buf bytes : Bytes} {start len : ℕ} (room : start + len + bytes.length ≤ buf.length) :
    ((write buf (start + len) bytes).drop start).take (len + bytes.length) =
      (buf.drop start).take len ++ bytes := by
  have front : (buf.take (start + len)).length = start + len := by
    rw [List.length_take]
    omega
  have inner : ((buf.take (start + len)).drop start).length = len := by
    rw [List.length_drop, front]
    omega
  rw [write, List.append_assoc, List.drop_append_of_le_length (by omega), List.take_append, inner,
    List.take_of_length_le (by omega), Nat.add_sub_cancel_left, List.take_left, List.drop_take,
    Nat.add_sub_cancel_left]

/-- Bytes written right in front of the data extend it. -/
theorem write_before {buf bytes : Bytes} {start len : ℕ} (room : bytes.length ≤ start)
    (within : start + len ≤ buf.length) :
    ((write buf (start - bytes.length) bytes).drop (start - bytes.length)).take (len + bytes.length) =
      bytes ++ (buf.drop start).take len := by
  have front : (buf.take (start - bytes.length)).length = start - bytes.length := by
    rw [List.length_take]
    omega
  rw [write, List.append_assoc, List.drop_left' front, Nat.sub_add_cancel room, Nat.add_comm,
    List.take_length_add_append]

theorem prependData_deque (bytes : Bytes) : (m.prependData bytes).map deque = m.deque.prepend bytes := by
  have within := m.within
  by_cases room : bytes.length ≤ m.availableSpaceAtStart
  · have room' : bytes.length ≤ m.startOffset := room
    have grown := write_before room' within
    have length : (write m.buf (m.startOffset - bytes.length) bytes).length = m.buf.length :=
      write_length (by omega)
    rw [prependData, dif_pos room, RoomedDeque.prepend, if_pos (show _ ≤ m.deque.front from room)]
    simp only [Option.map_some, deque, data, grown, availableSpaceAtStart, availableSpaceAtEnd, length,
      Option.some.injEq, RoomedDeque.mk.injEq, true_and]
    omega
  · rw [prependData, dif_neg room, RoomedDeque.prepend, if_neg (show ¬ _ ≤ m.deque.front from room)]
    rfl

theorem appendData_deque (bytes : Bytes) : (m.appendData bytes).map deque = m.deque.append bytes := by
  have within := m.within
  by_cases room : bytes.length ≤ m.availableSpaceAtEnd
  · have room' : m.startOffset + m.dataLen + bytes.length ≤ m.buf.length := by
      rw [availableSpaceAtEnd] at room
      omega
    have grown := write_behind room'
    have length := write_length room'
    rw [appendData, dif_pos room, RoomedDeque.append, if_pos (show _ ≤ m.deque.back from room)]
    simp only [Option.map_some, deque, data, grown, availableSpaceAtStart, availableSpaceAtEnd, length,
      Option.some.injEq, RoomedDeque.mk.injEq, true_and]
    omega
  · rw [appendData, dif_neg room, RoomedDeque.append, if_neg (show ¬ _ ≤ m.deque.back from room)]
    rfl

theorem removeFromStart_deque (len : ℕ) :
    Prod.map id deque (m.removeFromStart len) = m.deque.popFront len := by
  have within := m.within
  have size : m.deque.items.length = m.dataLen := data_length m
  by_cases enough : len ≤ m.dataLen
  · rw [removeFromStart, dif_pos enough, RoomedDeque.popFront, if_pos (by rwa [size])]
    simp only [Prod.map_apply, id, deque, data, availableSpaceAtStart, availableSpaceAtEnd, Prod.mk.injEq, true_and,
      RoomedDeque.mk.injEq, List.drop_take, List.drop_drop]
    omega
  · rw [removeFromStart, dif_neg enough, RoomedDeque.popFront, if_neg (by rwa [size])]
    rfl

theorem removeFromEnd_deque (len : ℕ) : Prod.map id deque (m.removeFromEnd len) = m.deque.popBack len := by
  have within := m.within
  have size : m.deque.items.length = m.dataLen := data_length m
  by_cases enough : len ≤ m.dataLen
  · rw [removeFromEnd, dif_pos enough, RoomedDeque.popBack, if_pos (by rwa [size]), size]
    simp only [Prod.map_apply, id, deque, data, availableSpaceAtStart, availableSpaceAtEnd, Prod.mk.injEq, true_and,
      RoomedDeque.mk.injEq, List.take_take]
    exact ⟨by rw [min_eq_left (by omega)], by omega⟩
  · rw [removeFromEnd, dif_neg enough, RoomedDeque.popBack, if_neg (by rwa [size])]
    rfl

theorem truncate_deque (len : ℕ) : (m.truncate len).map deque = m.deque.keep len := by
  have within := m.within
  have size : m.deque.items.length = m.dataLen := data_length m
  by_cases shorter : len ≤ m.dataLen
  · rw [truncate, dif_pos shorter, RoomedDeque.keep, if_pos (by rwa [size]), size]
    simp only [Option.map_some, deque, data, availableSpaceAtStart, availableSpaceAtEnd, Option.some.injEq,
      RoomedDeque.mk.injEq, true_and, List.take_take]
    exact ⟨by rw [min_eq_left shorter], by omega⟩
  · rw [truncate, dif_neg shorter, RoomedDeque.keep, if_neg (by rwa [size])]
    rfl

theorem data_eq_nil_iff : m.data = [] ↔ m.dataLen = 0 := by
  rw [← List.length_eq_zero_iff, data_length]

/-- An offset that went below zero wraps to one beyond any buffer. -/
theorem adjustStartOffset_deque (delta : Int32) :
    (m.adjustStartOffset delta).map deque = m.deque.shift delta.toInt := by
  have within := m.within
  have sized := m.sized
  have low := delta.le_toInt
  have high := delta.toInt_lt
  have empty_iff : m.deque.items = [] ↔ m.dataLen = 0 := data_eq_nil_iff
  have front : m.deque.front = m.startOffset := rfl
  rw [adjustStartOffset, RoomedDeque.shift, deque_capacity, front]
  by_cases empty : m.dataLen = 0
  · by_cases inside : 0 ≤ (m.startOffset : ℤ) + delta.toInt ∧ (m.startOffset : ℤ) + delta.toInt ≤ m.buf.length
    · have offset : ((m.startOffset + delta.toInt) % 2 ^ 32).toNat = (m.startOffset + delta.toInt).toNat := by
        rw [Int.emod_eq_of_lt inside.1 (by omega)]
      have most : ((m.startOffset + delta.toInt) % 2 ^ 32).toNat ≤ m.buf.length := by omega
      rw [dif_pos empty, dif_pos most, if_pos ⟨empty_iff.mpr empty, inside⟩]
      simp only [Option.map_some, deque, data, availableSpaceAtStart, availableSpaceAtEnd, empty, List.take_zero,
        Nat.add_zero, offset]
    · have beyond : ¬ ((m.startOffset + delta.toInt) % 2 ^ 32).toNat ≤ m.buf.length := by omega
      rw [dif_pos empty, dif_neg beyond, if_neg fun both => inside both.2]
      rfl
  · rw [dif_neg empty, if_neg fun both => empty (empty_iff.mp both.1)]
    rfl

theorem perform_deque (m : Mmpkt) (op : Op) : (m.perform op).map (Prod.map id deque) = onDeque m.deque op := by
  cases op with
  | prependData bytes =>
    rw [perform, onDeque, ← prependData_deque, Option.map_map, Option.map_map]
    rfl
  | appendData bytes =>
    rw [perform, onDeque, ← appendData_deque, Option.map_map, Option.map_map]
    rfl
  | removeFromStart len => exact congrArg some (removeFromStart_deque len)
  | removeFromEnd len => exact congrArg some (removeFromEnd_deque len)
  | truncate len =>
    rw [perform, onDeque, ← truncate_deque, Option.map_map, Option.map_map]
    rfl
  | adjustStartOffset delta =>
    rw [perform, onDeque, ← adjustStartOffset_deque, Option.map_map, Option.map_map]
    rfl

/-- Any calls on any packet: they abort where a deque of bytes with the packet's two rooms refuses, and else
return what it returns and leave what it leaves. -/
theorem mmpkt_is_deque (m : Mmpkt) (calls : List Op) :
    (sessionOrAbort perform m calls).map (Prod.map id deque) = sessionOrAbort onDeque m.deque calls :=
  sessionOrAbort_abstracted perform_deque m calls

end Mmpkt

end MammotionRc.Firmware
