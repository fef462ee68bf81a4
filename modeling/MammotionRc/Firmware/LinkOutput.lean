import MammotionRc.Firmware.Mmpkt

/-! # `linkoutput` of the HaLow interface

lwIP hands an Ethernet frame to the interface as a chain of `pbuf`s. `mmnetif_tx` is what the SDK installs;
`halow_tx_nonblock.cpp` replaces it by a function of the same structure that waits `s_timeout_ms` instead of a
second and counts how its calls end.
-/

namespace MammotionRc.Firmware

open Framing

/-- A `pbuf` chain: lwIP keeps in `tot_len` of the first one the length of the whole chain. -/
structure PbufChain where
  totLen : ℕ
  segments : List Bytes
  sums : totLen = segments.flatten.length
deriving DecidableEq

/-- A call of `linkoutput` and the answers that it gets. -/
structure TxCall where
  p : PbufChain
  /-- `mmwlan_tx_wait_until_ready` returns `MMWLAN_SUCCESS`. -/
  ready : Bool
  /-- `mmwlan_alloc_mmpkt_for_tx`: an empty packet with at least `tot_len` bytes of space, or `NULL`. -/
  pkt : Option { m : Mmpkt // m.dataLen = 0 ∧ p.totLen ≤ m.availableSpaceAtEnd }
  /-- `mmwlan_tx_pkt` returns `MMWLAN_SUCCESS`. -/
  accepted : Bool

inductive Err
  | ok
  | buf
  | mem
deriving DecidableEq, Repr

/-- How a call ends, and the packet that it gave to `mmwlan_tx_pkt`. -/
inductive TxEnd
  | busy
  | noPacket
  | refused (m : Mmpkt)
  | sent (m : Mmpkt)
deriving DecidableEq

def TxEnd.err : TxEnd → Err
  | .busy => .buf
  | .noPacket => .mem
  | .refused _ => .buf
  | .sent _ => .ok

/-- The loop over the chain. -/
def appendChain (m : Mmpkt) (segments : List Bytes) : Option Mmpkt := segments.foldlM Mmpkt.appendData m

/-- The calls that both functions make, with their early returns; `none` when an assertion fails. -/
def TxCall.transmit (c : TxCall) : Option TxEnd :=
  if !c.ready then some .busy
  else
    match c.pkt with
    | none => some .noPacket
    | some m =>
      (appendChain m.1 c.p.segments).map fun filled => if c.accepted then .sent filled else .refused filled

/-- The counters of `halow_tx_nonblock.cpp`. -/
structure TxStats where
  attempts : UInt32
  ok : UInt32
  busyDrops : UInt32
  allocDrops : UInt32
  sendDrops : UInt32
deriving DecidableEq, Repr

def TxStats.init : TxStats := ⟨0, 0, 0, 0, 0⟩

def TxStats.count (s : TxStats) : TxEnd → TxStats
  | .busy => { s with busyDrops := s.busyDrops + 1 }
  | .noPacket => { s with allocDrops := s.allocDrops + 1 }
  | .refused _ => { s with sendDrops := s.sendDrops + 1 }
  | .sent _ => { s with ok := s.ok + 1 }

/-- `hc33_halow_linkoutput`. -/
def hc33HalowLinkoutput (s : TxStats) (c : TxCall) : Option (TxEnd × TxStats) :=
  c.transmit.map fun ended => (ended, { s with attempts := s.attempts + 1 }.count ended)

/-- `lwip_stats.link` as far as `mmnetif_tx` counts in it. -/
structure LinkStats where
  drop : UInt16
  memerr : UInt16
  xmit : UInt16
deriving DecidableEq, Repr

def LinkStats.count (s : LinkStats) : TxEnd → LinkStats
  | .busy | .refused _ => { s with drop := s.drop + 1 }
  | .noPacket => { s with memerr := s.memerr + 1 }
  | .sent _ => { s with xmit := s.xmit + 1 }

/-- `mmnetif_tx`. -/
def mmnetifTx (s : LinkStats) (c : TxCall) : Option (TxEnd × LinkStats) :=
  c.transmit.map fun ended => (ended, s.count ended)

end MammotionRc.Firmware
