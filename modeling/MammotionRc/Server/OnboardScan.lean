import MammotionRc.Machine.PyInt
import MammotionRc.Server.Discover

/-! # The pairing proposal

`onboard_scan` looks the mowers of the account up among the proxies that were found, by the name of the mower
that a proxy is bonded to. It remembers the proxies it has used by their chip.
-/

namespace MammotionRc.Server

open Machine

/-- A mower of the account, as `_cloud_mowers` returns it. -/
structure CloudMower where
  name : String
  iotId : Option String
  nickname : Option String
deriving DecidableEq, Repr

structure MatchedMower where
  name : String
  nickname : Option String
  iotId : Option String
  hc33Host : String
  hc33Port : ℤ
  chipId : Option String
  variant : Option String
deriving DecidableEq, Repr

structure ScanResponse where
  matched : List MatchedMower
  unmatchedMowers : List CloudMower
  unmatchedProxies : List ProxyReply

/-- `int(p.get("proxy_port", 9876))`; `none` if it raises. -/
def proxyPort (p : ProxyReply) : Option ℤ :=
  match p.get? "proxy_port" with
  | some port => PyInt.int? port.toList
  | none => some 9876

/-- `p.get("bonded_name")` is truthy and not `none`. -/
def bondedName (p : ProxyReply) : Option String :=
  match p.get? "bonded_name" with
  | some name => if name = "" ∨ name = "none" then none else some name
  | none => none

/-- The proxies by the name of the mower that they are bonded to. -/
def bonded (proxies : List ProxyReply) : OrderedDict String ProxyReply :=
  .ofPairs (proxies.filterMap fun p => (bondedName p).map (·, p))

/-- The variables of the loop over the mowers. -/
structure Pairing where
  matched : List MatchedMower
  unmatchedMowers : List CloudMower
  usedChips : List (Option String)

/-- One mower of the account; `none` if the turn raises. -/
def pairMower (bonded : OrderedDict String ProxyReply) (s : Pairing) (m : CloudMower) : Option Pairing :=
  match bonded.get? m.name with
  | some p => do
    let host ← p.get? "ip"
    let port ← proxyPort p
    some { s with
      matched := s.matched ++ [⟨m.name, m.nickname, m.iotId, host, port, p.get? "chip_id", p.get? "variant"⟩]
      usedChips := s.usedChips ++ [p.get? "chip_id"] }
  | none => some { s with unmatchedMowers := s.unmatchedMowers ++ [m] }

/-- The pairing of `onboard_scan`. -/
def pair (cloud : List CloudMower) (proxies : List ProxyReply) : Option ScanResponse := do
  let s ← cloud.foldlM (pairMower (bonded proxies)) ⟨[], [], []⟩
  some ⟨s.matched, s.unmatchedMowers, proxies.filter (·.get? "chip_id" ∉ s.usedChips)⟩

/-- The proxies that the scan pairs: if one of the first ones is not bonded, those are poked, and it looks again.
`none` if a poke raises. -/
def scanProxies (first second : List ProxyReply) : Option (List ProxyReply) :=
  match first.filter fun p => bondedName p = none with
  | [] => some first
  | unbonded => (unbonded.mapM proxyPort).map fun _ => second

/-- `onboard_scan`, by the mowers of the account and what its two searches find; `none` if it raises. -/
def onboardScan (cloud : List CloudMower) (first second : List ProxyReply) : Option ScanResponse :=
  (scanProxies first second).bind (pair cloud)

end MammotionRc.Server
