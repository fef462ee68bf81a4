import MammotionRc.Firmware.TcpProxy

/-! # `BleCentral` and its composition with `TcpProxy`

The NimBLE stack owns client objects and their remote characteristics; `BleCentral` keeps one client
and two characteristic pointers into it. `client->disconnect()` only starts the termination of a link:
`isConnected()` stays true until the stack delivers the disconnect event. What the stack answers during
one call of `connect_mower` is a record `ConnectAnswers`; the fields of calls that are not made are
ignored. `BleSystem` runs loopTask against this link, with link loss possible between any two steps.
-/

namespace MammotionRc.Firmware

open Framing Machine

/-- A device chosen by `scan_for_mower_`: address, address type and advertised name. -/
structure Advertiser where
  addr : ℕ
  addrType : UInt8
  name : Bytes
deriving DecidableEq, Repr

/-- A `NimBLEClient`; `id` tells apart the objects that `createClient` returned over time. -/
structure NimBLEClient where
  id : ℕ
  isConnected : Bool
  /-- Notifications of the notify characteristic were enabled and not disabled since. -/
  subscribed : Bool
deriving DecidableEq, Repr

/-- A `NimBLERemoteCharacteristic` of the client object `client`. -/
structure Characteristic where
  client : ℕ
deriving DecidableEq, Repr

structure BleCentral where
  client : Option NimBLEClient
  writeChar : Option Characteristic
  notifyChar : Option Characteristic
  /-- `mower_addr_`, `mower_addr_type_` and `bonded_name_`. -/
  mower : Advertiser
  addrKnown : Bool
  /-- Client objects created so far. -/
  created : ℕ
deriving DecidableEq, Repr

/-- The answers of the NimBLE stack during one `connect_mower`, in the order of the calls. -/
structure ConnectAnswers where
  scan : Option Advertiser
  connect : Bool
  rescan : Option Advertiser
  reconnect : Bool
  service : Bool
  writeChar : Bool
  notifyChar : Bool
  canNotify : Bool
  subscribe : Bool
  /-- The link is lost again before `connect_mower` returns. -/
  lost : Bool
deriving DecidableEq, Repr

namespace BleCentral

def init : BleCentral := ⟨none, none, none, ⟨0, 0, []⟩, false, 0⟩

/-- `is_connected()`. -/
def isConnected (b : BleCentral) : Bool :=
  match b.client with
  | some client => client.isConnected
  | none => false

/-- The link of the current client object goes down. -/
def linkDown (b : BleCentral) : BleCentral :=
  { b with client := b.client.map fun client => { client with isConnected := false } }

/-- `connect_mower` frees what a prior attempt left behind. -/
def deleteClient (b : BleCentral) : BleCentral :=
  match b.client with
  | some _ => { b with writeChar := none, notifyChar := none, client := none }
  | none => b

/-- `scan_for_mower_`. -/
def scanForMower (b : BleCentral) (found : Option Advertiser) : Bool × BleCentral :=
  match found with
  | some mower => (true, { b with mower := mower, addrKnown := true })
  | none => (false, b)

/-- `NimBLEDevice::createClient()`. -/
def createClient (b : BleCentral) : BleCentral :=
  { b with client := some ⟨b.created, false, false⟩, created := b.created + 1 }

/-- `client_->connect`. -/
def connect (b : BleCentral) (ok : Bool) : BleCentral :=
  { b with client := b.client.map fun client => { client with isConnected := ok } }

/-- `svc->getCharacteristic` on a service of the current client object. -/
def getCharacteristic (b : BleCentral) (found : Bool) : Option Characteristic :=
  if found then b.client.map fun client => ⟨client.id⟩ else none

/-- `connect_mower` from the service lookup on. -/
def discover (b : BleCentral) (a : ConnectAnswers) : Bool × BleCentral :=
  if !a.service then (false, b)
  else
    let b := { b with
      writeChar := b.getCharacteristic a.writeChar, notifyChar := b.getCharacteristic a.notifyChar }
    if b.writeChar.isNone || b.notifyChar.isNone then (false, b)
    else if !a.canNotify then (false, b)
    else if !a.subscribe then (false, b)
    else (true, { b with client := b.client.map fun client => { client with subscribed := true } })

/-- `connect_mower` from the creation of the client object on. -/
def openLink (b : BleCentral) (a : ConnectAnswers) : Bool × BleCentral :=
  let b := b.createClient.connect a.connect
  if a.connect then b.discover a
  else
    let b : BleCentral := { b with addrKnown := false }
    match b.scanForMower a.rescan with
    | (false, b) => (false, b)
    | (true, b) =>
      let b := b.connect a.reconnect
      if a.reconnect then b.discover a else (false, b)

/-- `connect_mower()`. -/
def connectMower (b : BleCentral) (a : ConnectAnswers) : Bool × BleCentral :=
  if b.isConnected then (true, b)
  else
    let b := b.deleteClient
    let (ok, b) :=
      if b.addrKnown then b.openLink a
      else
        match b.scanForMower a.scan with
        | (false, b) => (false, b)
        | (true, b) => b.openLink a
    (ok, if a.lost then b.linkDown else b)

/-- `notify_char_->unsubscribe()`. -/
def unsubscribe (b : BleCentral) : BleCentral :=
  { b with client := b.client.map fun client => { client with subscribed := false } }

/-- `disconnect_mower()`; the link itself stays up until the disconnect event. -/
def disconnectMower (b : BleCentral) : BleCentral :=
  match b.notifyChar with
  | some _ => { b.unsubscribe with notifyChar := none, writeChar := none }
  | none => { b with writeChar := none }

/-- `write()`, where the stack answers `ok` if there is a characteristic to write to. -/
def write (b : BleCentral) (ok : Bool) : Bool :=
  match b.writeChar with
  | none => false
  | some _ => ok

/-- Both characteristics are there, belong to the current client object, and notify. -/
def Usable (b : BleCentral) : Prop :=
  ∃ client write notify, b.client = some client ∧ b.writeChar = some write ∧
    b.notifyChar = some notify ∧ write.client = client.id ∧ notify.client = client.id ∧
    client.subscribed = true

end BleCentral

/-- loopTask with the link it drives. -/
structure BleSystem where
  task : LoopTask
  ble : BleCentral
deriving DecidableEq, Repr

inductive BleEvent
  /-- An event of loopTask or its surroundings other than a call of `ble_`. -/
  | other (e : Event)
  | connectMower (answers : ConnectAnswers)
  | disconnectMower
  | isConnected
  | write (data : Bytes) (ok : Bool)
  /-- A disconnect event of the current client object, at any moment. -/
  | linkDown
deriving DecidableEq, Repr

/-- The events that answer a call of `ble_`. -/
def Event.isBleCall : Event → Bool
  | .connectMower _ | .disconnectMower | .bleConnected _ | .bleWrite _ _ => true
  | _ => false

namespace BleSystem

def init (mutex : Bool) : BleSystem := ⟨.init mutex, .init⟩

def step (s : BleSystem) : BleEvent → Option BleSystem
  | .other e => if e.isBleCall then none else (s.task.step e).map fun task => ⟨task, s.ble⟩
  | .connectMower answers =>
    let (ok, ble) := s.ble.connectMower answers
    (s.task.step (.connectMower ok)).map fun task => ⟨task, ble⟩
  | .disconnectMower =>
    (s.task.step .disconnectMower).map fun task => ⟨task, s.ble.disconnectMower⟩
  | .isConnected =>
    (s.task.step (.bleConnected s.ble.isConnected)).map fun task => ⟨task, s.ble⟩
  | .write data ok =>
    (s.task.step (.bleWrite data (s.ble.write ok))).map fun task => ⟨task, s.ble⟩
  | .linkDown => some { s with ble := s.ble.linkDown }

end BleSystem

end MammotionRc.Firmware
