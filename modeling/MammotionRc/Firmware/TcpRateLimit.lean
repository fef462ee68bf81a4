import Mathlib.Data.Nat.Notation
import MammotionRc.Machine.Checked

/-! # The rate limiter in front of lwIP's IPv4 input

Each direction has a bucket with two counts of tokens, one for bytes and one for packets. A limited packet
refills both counts of its bucket with what the time since then is worth, and passes if it can pay in both.
Conversions, signed additions and 64-bit products are stored by `fit`; the clock, which is a 32-bit `millis()`,
and the counters of `s_stats` wrap.
-/

namespace MammotionRc.Firmware

open Machine

/-- `struct rl_bucket`. -/
structure RlBucket where
  byteTokens : Int32
  byteLastMs : UInt32
  ppsTokens : Int32
  ppsLastMs : UInt32
deriving DecidableEq

/-- `hc33_tcp_limit_stats_t`. -/
structure LimitStats where
  tcpPassedPkts : UInt32
  tcpPassedBytes : UInt32
  tcpDroppedPkts : UInt32
  tcpDroppedBytes : UInt32
  dropBytesFullPkts : UInt32
  dropPpsFullPkts : UInt32
  udpSeenPkts : UInt32
  tokensNow : UInt32
  ppsTokensNow : UInt32
  rateBps : UInt32
  burst : UInt32
  pps : UInt32
  ppsBurst : UInt32
deriving DecidableEq

/-- The static variables of `tcp_rate_limit.cpp`; a netif is named by a number. -/
structure TcpRateLimit where
  rateBps : UInt32
  burst : UInt32
  pps : UInt32
  ppsBurst : UInt32
  bktIn : RlBucket
  bktOut : RlBucket
  halowNetif : Option ℕ
  softapNetif : Option ℕ
  stats : LimitStats
deriving DecidableEq

inductive Direction
  | halowRx
  | softapRx
deriving DecidableEq, Repr

/-- `limit_udp`. -/
def Direction.limitUdp : Direction → Bool
  | .halowRx => true
  | .softapRx => false

/-- What the hook reads of a `struct pbuf` and its IP header. -/
structure Pbuf where
  len : UInt16
  totLen : UInt16
  version : ℕ
  proto : UInt8
deriving DecidableEq

def IP_PROTO_TCP : UInt8 := 6
def IP_PROTO_UDP : UInt8 := 17

/-- `sizeof(struct ip_hdr)`. -/
def ipHdrSize : UInt16 := 20

/-- `refill_bytes` and `refill_pps`, for the tokens and the clock of one count. -/
def refill (rate burst : UInt32) (tokens : Int32) (lastMs nowMs : UInt32) : Checked (Int32 × UInt32) :=
  if lastMs = 0 then pure (tokens, nowMs)
  else
    let dt := nowMs - lastMs
    if dt = 0 then pure (tokens, lastMs)
    else
      Checked.fit UInt64 (dt.toNat * rate.toNat) >>= fun product =>
      let add := product / 1000
      if add = 0 then pure (tokens, lastMs)
      else
        Checked.fit Int64 add.toNat >>= fun addend =>
        Checked.fit Int64 (tokens.toInt + addend.toInt) >>= fun sum =>
        Checked.fit Int64 burst.toNat >>= fun cap =>
        Checked.fit Int32 (if cap < sum then cap else sum).toInt >>= fun filled =>
        Checked.fit UInt64 (add.toNat * 1000) >>= fun scaled =>
        (if 0 < rate then Checked.fit UInt32 (scaled / rate.toUInt64).toNat else pure dt) >>= fun consumedMs =>
        pure (filled, lastMs + consumedMs)

namespace TcpRateLimit

def init : TcpRateLimit where
  rateBps := 250000
  burst := 65536
  pps := 100
  ppsBurst := 50
  bktIn := ⟨65536, 0, 50, 0⟩
  bktOut := ⟨65536, 0, 50, 0⟩
  halowNetif := none
  softapNetif := none
  stats := ⟨0, 0, 0, 0, 0, 0, 0, 0, 0, 0, 0, 0, 0⟩

/-- `hc33_tcp_limit_set_halow_netif`. -/
def setHalowNetif (s : TcpRateLimit) (netif : Option ℕ) : TcpRateLimit := { s with halowNetif := netif }

/-- `hc33_tcp_limit_set_softap_netif`. -/
def setSoftapNetif (s : TcpRateLimit) (netif : Option ℕ) : TcpRateLimit := { s with softapNetif := netif }

/-- `if (tokens > (int32_t)burst) tokens = (int32_t)burst;`. -/
def clip (tokens : Int32) (burst : UInt32) : Checked Int32 :=
  Checked.fit Int32 burst.toNat >>= fun cap => pure (if cap < tokens then cap else tokens)

/-- `hc33_tcp_limit_configure`. -/
def configure (s : TcpRateLimit) (rateBytesPerSec burstBytes : UInt32) : Checked TcpRateLimit :=
  clip s.bktIn.byteTokens burstBytes >>= fun inTokens =>
  clip s.bktOut.byteTokens burstBytes >>= fun outTokens =>
  pure { s with
    rateBps := rateBytesPerSec
    burst := burstBytes
    bktIn.byteTokens := inTokens
    bktOut.byteTokens := outTokens }

/-- `hc33_tcp_limit_configure_pps`. -/
def configurePps (s : TcpRateLimit) (ppsRate ppsBurst : UInt32) : Checked TcpRateLimit :=
  clip s.bktIn.ppsTokens ppsBurst >>= fun inTokens =>
  clip s.bktOut.ppsTokens ppsBurst >>= fun outTokens =>
  pure { s with
    pps := ppsRate
    ppsBurst := ppsBurst
    bktIn.ppsTokens := inTokens
    bktOut.ppsTokens := outTokens }

/-- `hc33_tcp_limit_get_stats`. -/
def getStats (s : TcpRateLimit) : LimitStats :=
  let bt := if s.bktIn.byteTokens < s.bktOut.byteTokens then s.bktIn.byteTokens else s.bktOut.byteTokens
  let pt := if s.bktIn.ppsTokens < s.bktOut.ppsTokens then s.bktIn.ppsTokens else s.bktOut.ppsTokens
  { s.stats with
    tokensNow := if bt < 0 then 0 else bt.toUInt32
    ppsTokensNow := if pt < 0 then 0 else pt.toUInt32
    rateBps := s.rateBps
    burst := s.burst
    pps := s.pps
    ppsBurst := s.ppsBurst }

def refillBytes (s : TcpRateLimit) (b : RlBucket) (nowMs : UInt32) : Checked RlBucket :=
  refill s.rateBps s.burst b.byteTokens b.byteLastMs nowMs >>= fun (tokens, lastMs) =>
  pure { b with byteTokens := tokens, byteLastMs := lastMs }

def refillPps (s : TcpRateLimit) (b : RlBucket) (nowMs : UInt32) : Checked RlBucket :=
  refill s.pps s.ppsBurst b.ppsTokens b.ppsLastMs nowMs >>= fun (tokens, lastMs) =>
  pure { b with ppsTokens := tokens, ppsLastMs := lastMs }

def bucket (s : TcpRateLimit) : Direction → RlBucket
  | .halowRx => s.bktIn
  | .softapRx => s.bktOut

def setBucket (s : TcpRateLimit) (d : Direction) (b : RlBucket) : TcpRateLimit :=
  match d with
  | .halowRx => { s with bktIn := b }
  | .softapRx => { s with bktOut := b }

/-- The direction of the packets from a netif. -/
def direction (s : TcpRateLimit) (inp : Option ℕ) : Option Direction :=
  if s.halowNetif.isSome ∧ inp = s.halowNetif then some .halowRx
  else if s.softapNetif.isSome ∧ inp = s.softapNetif then some .softapRx
  else none

/-- The hook from the reading of the clock on; 1 if it consumes the packet, and 0 if lwIP goes on with it. -/
def meter (s : TcpRateLimit) (d : Direction) (p : Pbuf) (millis : UInt32) : Checked (ℕ × TcpRateLimit) :=
  s.refillBytes (s.bucket d) millis >>= fun b =>
  s.refillPps b millis >>= fun b =>
  Checked.fit Int32 p.totLen.toNat >>= fun plen =>
  let bytesOk : Bool := plen ≤ b.byteTokens
  let ppsOk : Bool := s.pps = 0 ∨ 1 ≤ b.ppsTokens
  if bytesOk ∧ ppsOk then
    Checked.fit Int32 (b.byteTokens.toInt - plen.toInt) >>= fun byteTokens =>
    (if s.pps ≠ 0 then Checked.fit Int32 (b.ppsTokens.toInt - 1) else pure b.ppsTokens) >>= fun ppsTokens =>
    let stats := { s.stats with
      tcpPassedPkts := s.stats.tcpPassedPkts + 1
      tcpPassedBytes := s.stats.tcpPassedBytes + p.totLen.toUInt32 }
    pure (0, { s with stats := stats }.setBucket d { b with byteTokens := byteTokens, ppsTokens := ppsTokens })
  else
    let stats := { s.stats with
      tcpDroppedPkts := s.stats.tcpDroppedPkts + 1
      tcpDroppedBytes := s.stats.tcpDroppedBytes + p.totLen.toUInt32
      dropBytesFullPkts := s.stats.dropBytesFullPkts + if bytesOk then 0 else 1
      dropPpsFullPkts := s.stats.dropPpsFullPkts + if ppsOk then 0 else 1 }
    pure (1, { s with stats := stats }.setBucket d b)

/-- `hc33_lwip_ip4_input_hook`. -/
def lwipIp4InputHook (s : TcpRateLimit) (p : Option Pbuf) (inp : Option ℕ) (millis : UInt32) :
    Checked (ℕ × TcpRateLimit) :=
  match p with
  | none => pure (0, s)
  | some p =>
    if p.len < ipHdrSize then pure (0, s)
    else
      match s.direction inp with
      | none => pure (0, s)
      | some d =>
        if p.version ≠ 4 then pure (0, s)
        else if p.proto = IP_PROTO_UDP then
          let s := { s with stats.udpSeenPkts := s.stats.udpSeenPkts + 1 }
          if !d.limitUdp then pure (0, s) else s.meter d p millis
        else if p.proto ≠ IP_PROTO_TCP then pure (0, s)
        else s.meter d p millis

end TcpRateLimit

/-- The calls that reach the limiter. -/
inductive LimitCall
  | setHalowNetif (netif : Option ℕ)
  | setSoftapNetif (netif : Option ℕ)
  | configure (rateBytesPerSec burstBytes : UInt32)
  | configurePps (ppsRate ppsBurst : UInt32)
  | lwipIp4InputHook (p : Option Pbuf) (inp : Option ℕ) (millis : UInt32)
deriving DecidableEq

namespace TcpRateLimit

/-- What a call returns, 0 if it returns nothing, and the state that it leaves. -/
def call (s : TcpRateLimit) : LimitCall → Checked (ℕ × TcpRateLimit)
  | .setHalowNetif netif => pure (0, s.setHalowNetif netif)
  | .setSoftapNetif netif => pure (0, s.setSoftapNetif netif)
  | .configure rate burst => s.configure rate burst >>= fun s => pure (0, s)
  | .configurePps rate burst => s.configurePps rate burst >>= fun s => pure (0, s)
  | .lwipIp4InputHook p inp millis => s.lwipIp4InputHook p inp millis

def step (s : TcpRateLimit) (c : LimitCall) : Option TcpRateLimit := some (s.call c).val.2

end TcpRateLimit

end MammotionRc.Firmware
