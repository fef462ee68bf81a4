import MammotionRc.Framing.LengthPrefix
import Mathlib.Data.UInt

/-! # `mmpkt.h`: packet buffers with head room and tail room

`[start_offset, start_offset + data_len)` of the buffer holds the data of a packet. The fields are
`uint32_t`; the data lies in the buffer and no packet is longer than `INT32_MAX`, so no sum of them wraps and
the model counts in `ℕ`. A failing `MMOSAL_ASSERT` restarts the device and has no result here.
-/

namespace MammotionRc.Firmware

open Framing

/-- `MM_FAST_ROUND_UP(x, 4)`. -/
def roundUp4 (x : UInt32) : UInt32 := ((x - 1) ||| 3) + 1

/-- `MM_FAST_ROUND_UP(sizeof(*mmpkt), 4)`: seven words. -/
def MMPKT_HEADER_SIZE : UInt32 := 28

/-- `buf_len` and `start_offset` of the packet that `mmpkt_init_buf` lays out in a buffer. -/
structure MmpktLayout where
  bufLen : UInt32
  startOffset : UInt32
  metadataSize : UInt32
deriving DecidableEq, Repr

/-- `data_len` of `mmpkt_init_buf`; `none` for its early `return NULL`. -/
def mmpktDataLen (bufLen spaceAtStart spaceAtEnd metadataSize : UInt32) : Option UInt32 :=
  if spaceAtEnd ≠ 0xFFFFFFFF then some (roundUp4 (spaceAtStart + spaceAtEnd))
  else
    let dataLen := (bufLen - MMPKT_HEADER_SIZE - metadataSize) &&& ~~~3
    if dataLen.toInt32 < spaceAtStart.toInt32 then none else some dataLen

/-- `mmpkt_init_buf`; `none` for `NULL`. -/
def mmpktInitBuf (bufLen spaceAtStart spaceAtEnd metadataSize : UInt32) : Option MmpktLayout :=
  let metadataSize := roundUp4 metadataSize
  (mmpktDataLen bufLen spaceAtStart spaceAtEnd metadataSize).bind fun dataLen =>
    if bufLen < MMPKT_HEADER_SIZE + dataLen + metadataSize then none
    else some ⟨dataLen, spaceAtStart, metadataSize⟩

/-- `struct mmpkt` around its buffer. -/
structure Mmpkt where
  buf : Bytes
  startOffset : ℕ
  dataLen : ℕ
  within : startOffset + dataLen ≤ buf.length
  /-- "We do not expect to allocate an mmpkt with length > INT32_MAX". -/
  sized : buf.length < 2 ^ 31
deriving DecidableEq, Repr

namespace Mmpkt

/-- `mmpkt_init` on a buffer that has room for the offset. -/
def fresh (buf : Bytes) (dataStartOffset : ℕ) (within : dataStartOffset ≤ buf.length)
    (sized : buf.length < 2 ^ 31) : Mmpkt :=
  ⟨buf, dataStartOffset, 0, within, sized⟩

/-- The bytes from `mmpkt_get_data_start` to `mmpkt_get_data_end`. -/
def data (m : Mmpkt) : Bytes := (m.buf.drop m.startOffset).take m.dataLen

/-- `mmpkt_available_space_at_start`. -/
def availableSpaceAtStart (m : Mmpkt) : ℕ := m.startOffset

/-- `mmpkt_available_space_at_end`. -/
def availableSpaceAtEnd (m : Mmpkt) : ℕ := m.buf.length - (m.startOffset + m.dataLen)

/-- `memcpy(buf + at, bytes, len)`. -/
def write (buf : Bytes) (at_ : ℕ) (bytes : Bytes) : Bytes :=
  buf.take at_ ++ bytes ++ buf.drop (at_ + bytes.length)

theorem write_length {buf bytes : Bytes} {at_ : ℕ} (room : at_ + bytes.length ≤ buf.length) :
    (write buf at_ bytes).length = buf.length := by
  simp only [write, List.length_append, List.length_take, List.length_drop]
  omega

/-- `mmpkt_prepend_data`. -/
def prependData (m : Mmpkt) (bytes : Bytes) : Option Mmpkt :=
  if room : bytes.length ≤ m.availableSpaceAtStart then
    have within := m.within
    have length : (write m.buf (m.startOffset - bytes.length) bytes).length = m.buf.length :=
      write_length (by rw [availableSpaceAtStart] at room; omega)
    some
      { buf := write m.buf (m.startOffset - bytes.length) bytes
        startOffset := m.startOffset - bytes.length
        dataLen := m.dataLen + bytes.length
        within := by rw [length]; rw [availableSpaceAtStart] at room; omega
        sized := by rw [length]; exact m.sized }
  else none

/-- `mmpkt_append_data`. -/
def appendData (m : Mmpkt) (bytes : Bytes) : Option Mmpkt :=
  if room : bytes.length ≤ m.availableSpaceAtEnd then
    have within := m.within
    have length : (write m.buf (m.startOffset + m.dataLen) bytes).length = m.buf.length :=
      write_length (by rw [availableSpaceAtEnd] at room; omega)
    some
      { buf := write m.buf (m.startOffset + m.dataLen) bytes
        startOffset := m.startOffset
        dataLen := m.dataLen + bytes.length
        within := by rw [length]; rw [availableSpaceAtEnd] at room; omega
        sized := by rw [length]; exact m.sized }
  else none

/-- `mmpkt_remove_from_start`: the bytes removed, or `none` for `NULL`. -/
def removeFromStart (m : Mmpkt) (len : ℕ) : Option Bytes × Mmpkt :=
  if enough : len ≤ m.dataLen then
    (some (m.data.take len),
      { m with
        startOffset := m.startOffset + len, dataLen := m.dataLen - len
        within := by have := m.within; omega })
  else (none, m)

/-- `mmpkt_remove_from_end`. -/
def removeFromEnd (m : Mmpkt) (len : ℕ) : Option Bytes × Mmpkt :=
  if enough : len ≤ m.dataLen then
    (some (m.data.drop (m.dataLen - len)),
      { m with dataLen := m.dataLen - len, within := by have := m.within; omega })
  else (none, m)

/-- `mmpkt_truncate`. -/
def truncate (m : Mmpkt) (len : ℕ) : Option Mmpkt :=
  if shorter : len ≤ m.dataLen then
    some { m with dataLen := len, within := by have := m.within; omega }
  else none

/-- `mmpkt_adjust_start_offset`: `start_offset += delta` is arithmetic modulo `2 ^ 32`. -/
def adjustStartOffset (m : Mmpkt) (delta : Int32) : Option Mmpkt :=
  let startOffset := ((m.startOffset + delta.toInt) % 2 ^ 32).toNat
  if empty : m.dataLen = 0 then
    if inside : startOffset ≤ m.buf.length then
      some { m with startOffset := startOffset, within := by rw [empty]; exact inside }
    else none
  else none

/-- A call on an opened packet. -/
inductive Op
  | prependData (bytes : Bytes)
  | appendData (bytes : Bytes)
  | removeFromStart (len : ℕ)
  | removeFromEnd (len : ℕ)
  | truncate (len : ℕ)
  | adjustStartOffset (delta : Int32)
deriving DecidableEq

/-- What the call hands back, `none` for `NULL` and for calls that return nothing, and the packet after it. -/
def perform (m : Mmpkt) : Op → Option (Option Bytes × Mmpkt)
  | .prependData bytes => (m.prependData bytes).map (none, ·)
  | .appendData bytes => (m.appendData bytes).map (none, ·)
  | .removeFromStart len => some (m.removeFromStart len)
  | .removeFromEnd len => some (m.removeFromEnd len)
  | .truncate len => (m.truncate len).map (none, ·)
  | .adjustStartOffset delta => (m.adjustStartOffset delta).map (none, ·)

end Mmpkt

end MammotionRc.Firmware
