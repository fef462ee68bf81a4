import MammotionRc.Machine.Run

/-! # The soft AP and the HaLow link

`halow_softap_sync` polls the state of the HaLow link and starts or stops the soft AP when it has changed.
`soft_ap_begin` is a sequence of driver calls, most of which may fail; the calls and the answers that the code
reads are recorded in order, and what the radio does follows from the record alone.
-/

namespace MammotionRc.Firmware

open Machine

inductive MmwlanStaState
  | disabled
  | connecting
  | connected
deriving DecidableEq, Repr

inductive EspErr
  | ok
  /-- `ESP_ERR_ESP_NETIF_DHCP_ALREADY_STARTED`. -/
  | alreadyStarted
  | other
deriving DecidableEq, Repr

/-- A call into the drivers, with the answer if the code reads it. -/
inductive DriverCall
  | halowTxNonblockInstall
  /-- `WiFi.mode(WIFI_AP)`. -/
  | mode (ok : Bool)
  /-- `WiFi.onEvent`, for the three events of the AP. -/
  | onEvent
  | getHandleFromIfkey (found : Bool)
  | dhcpsStop
  | setIpInfo (err : EspErr)
  | dhcpsOption
  | setDnsInfo
  | softAP (ok : Bool)
  | getConfig (err : EspErr)
  | setConfig
  | dhcpsStart (err : EspErr)
  | naptEnable (err : EspErr)
  | netifSetDefault
  /-- `WiFi.softAPdisconnect(true)`. -/
  | softAPdisconnect
deriving DecidableEq, Repr

/-- What the drivers answer to one `soft_ap_begin`. -/
structure DriverAnswers where
  mode : Bool
  handle : Bool
  setIpInfo : EspErr
  softAP : Bool
  getConfig : EspErr
  dhcpsStart : EspErr
  naptEnable : EspErr
deriving DecidableEq, Repr

structure SoftAp where
  /-- `s_softap_up`. -/
  softapUp : Bool
  /-- `s_event_registered`. -/
  eventRegistered : Bool
  /-- `last_state` of `halow_softap_sync`. -/
  lastState : MmwlanStaState
  calls : List DriverCall
deriving DecidableEq, Repr

/-- A call of `halow_softap_sync`: the state that `mmwlan_get_sta_state` gives, and the answers to the
`soft_ap_begin` that it may make. -/
structure SyncEvent where
  state : MmwlanStaState
  answers : DriverAnswers
deriving DecidableEq, Repr

/-- The SSID is being broadcast after these calls. -/
def broadcasting (calls : List DriverCall) : Bool :=
  calls.foldl (fun on call =>
    match call with
    | .softAP true => true
    | .softAPdisconnect => false
    | _ => on) false

namespace SoftAp

/-- No AP; `last_state` starts as DISABLED. -/
def init : SoftAp := ⟨false, false, .disabled, []⟩

def call (s : SoftAp) (c : DriverCall) : SoftAp := { s with calls := s.calls ++ [c] }

def softApIsUp (s : SoftAp) : Bool := s.softapUp

def softApStop (s : SoftAp) : SoftAp :=
  if !s.softapUp then s else { s.call .softAPdisconnect with softapUp := false }

def registerEvents (s : SoftAp) : SoftAp :=
  if s.eventRegistered then s
  else { ((s.call .onEvent).call .onEvent).call .onEvent with eventRegistered := true }

/-- `soft_ap_begin` once the SSID is on the air. -/
def finishBegin (s : SoftAp) (d : DriverAnswers) : SoftAp × Bool :=
  let s := s.call (.getConfig d.getConfig)
  let s := if d.getConfig = .ok then s.call .setConfig else s
  let s := s.call (.dhcpsStart d.dhcpsStart)
  if d.dhcpsStart ≠ .ok ∧ d.dhcpsStart ≠ .alreadyStarted then (s, false)
  else
    let s := s.call (.naptEnable d.naptEnable)
    if d.naptEnable ≠ .ok then (s, false)
    else ({ s.call .netifSetDefault with softapUp := true }, true)

def softApBegin (s : SoftAp) (d : DriverAnswers) : SoftAp × Bool :=
  if s.softapUp then (s, true)
  else
    let s := s.call .halowTxNonblockInstall
    let s := s.call (.mode d.mode)
    if !d.mode then (s, false)
    else
      let s := s.registerEvents
      let s := s.call (.getHandleFromIfkey d.handle)
      if !d.handle then (s, false)
      else
        let s := s.call .dhcpsStop
        let s := s.call (.setIpInfo d.setIpInfo)
        if d.setIpInfo ≠ .ok then (s, false)
        else
          let s := s.call .dhcpsOption
          let s := s.call .setDnsInfo
          let s := s.call (.softAP d.softAP)
          if !d.softAP then (s, false) else s.finishBegin d

def halowSoftapSync (s : SoftAp) (e : SyncEvent) : SoftAp :=
  if e.state = s.lastState then s
  else
    let s :=
      if e.state = .connected then
        if !s.softApIsUp then (s.softApBegin e.answers).1 else s
      else if s.softApIsUp then s.softApStop else s
    { s with lastState := e.state }

def step (s : SoftAp) (e : SyncEvent) : Option SoftAp := some (s.halowSoftapSync e)

end SoftAp

end MammotionRc.Firmware
