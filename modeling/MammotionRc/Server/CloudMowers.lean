import MammotionRc.Machine.Grouping
import MammotionRc.Server.OnboardScan

/-! # The mowers of the account

`_cloud_mowers` accepts the shares that are pending, lists the devices of the account over the Aliyun gateway and,
as long as it has found none, over three other endpoints, and leaves out the RTK base stations. What the calls
answer is a parameter: a value, or the text of the exception that they raise.
-/

namespace MammotionRc.Server

open Machine

/-- A record of the share page. -/
structure ShareRecord where
  deviceName : Option String
  iotId : Option String
  isReceiver : ℤ
  status : ℤ
  batchId : String
  recordId : ℤ
deriving DecidableEq, Repr

/-- A row of `devices_by_account_response`. -/
structure BindingRow where
  deviceName : String
  iotId : String
  productKey : Option String
  nickName : Option String
deriving DecidableEq, Repr

/-- A row of the owned device list. -/
structure OwnedRow where
  deviceName : String
  iotId : String
deriving DecidableEq, Repr

/-- A record of the device page. -/
structure PageRecord where
  deviceName : Option String
  iotId : Option String
  productKey : Option String
deriving DecidableEq, Repr

/-- An entry of `devices`. -/
structure CloudDevice where
  name : String
  iotId : String
  productKey : String
  nickname : Option String
deriving DecidableEq, Repr

/-- What a call of the cloud answers: a value, or `str(exc)`. -/
abbrev Answer := Except String

/-- The answers of the cloud during one scan. A response without data is an empty list. -/
structure CloudAnswers where
  sharedPage : Answer (List ShareRecord)
  /-- `confirm_share` of the account, by batch. -/
  confirmShare : String → Answer Unit
  /-- The first of the six calls of the handshake that raises. -/
  handshake : Answer Unit
  /-- The notices of the gateway: `record_id` and `status`. -/
  noticeList : Answer (List (String × ℤ))
  listBinding : Answer Unit
  refreshSession : Answer Unit
  listBindingAgain : Answer Unit
  bindingRows : List BindingRow
  deviceList : Answer (List OwnedRow)
  devicePage : Answer (List PageRecord)
  /-- The share page, when it is asked a second time. -/
  sharedPageLast : Answer (List ShareRecord)

/-- The calls that change the account. -/
inductive Acceptance
  | share (batchId : String) (recordIds : List ℤ)
  | notices (recordIds : List String)
deriving DecidableEq, Repr

/-- `s or ""`. -/
def orEmpty (s : Option String) : String := s.getD ""

/-- `s or None`. -/
def orNone (s : Option String) : Option String := s.filter (· ≠ "")

/-- `pending` of `_confirm_pending_shares`. -/
def pendingShares (records : List ShareRecord) : OrderedDict String (List ℤ) :=
  .groups ((records.filter fun r => r.isReceiver = 1 ∧ r.status = -1).map fun r => (r.batchId, r.recordId))

/-- The loop over the batches, up to the first call that raises. -/
def confirmBatches (confirm : String → Answer Unit) : List (String × List ℤ) → List Acceptance
  | [] => []
  | (batchId, recordIds) :: rest =>
    .share batchId recordIds ::
      match confirm batchId with
      | .ok () => confirmBatches confirm rest
      | .error _ => []

/-- `_confirm_pending_shares`. -/
def confirmPendingShares (a : CloudAnswers) : List Acceptance :=
  match a.sharedPage with
  | .ok records => confirmBatches a.confirmShare (pendingShares records).items
  | .error _ => []

/-- The notices that are accepted once there is a session of the gateway. -/
def confirmNotices (a : CloudAnswers) : List Acceptance :=
  match a.noticeList with
  | .ok notices =>
    match (notices.filter fun d => d.2 = -1).map Prod.fst with
    | [] => []
    | pending => [.notices pending]
  | .error _ => []

/-- The handshake, unless there is a session already. -/
def openGateway (cached : Bool) (a : CloudAnswers) : Answer Unit := if cached then .ok () else a.handshake

/-- `list_binding_by_account`; if it raises, the session is refreshed and it is called again. -/
def listBindingByAccount (a : CloudAnswers) : Answer (List BindingRow) :=
  match a.listBinding with
  | .ok () => .ok a.bindingRows
  | .error _ => do
    a.refreshSession
    a.listBindingAgain
    return a.bindingRows

/-- The block that talks to the gateway. -/
def gatewayDevices (cached : Bool) (a : CloudAnswers) : Answer (List CloudDevice) := do
  openGateway cached a
  let rows ← listBindingByAccount a
  return rows.map fun d => ⟨d.deviceName, d.iotId, orEmpty d.productKey, orNone d.nickName⟩

/-- `except Exception`: there are no devices. -/
def orNoDevices (answer : Answer (List CloudDevice)) : List CloudDevice :=
  match answer with
  | .ok devices => devices
  | .error _ => []

def ownedDevices (a : CloudAnswers) : Answer (List CloudDevice) :=
  a.deviceList.map fun rows => rows.map fun d => ⟨d.deviceName, d.iotId, "", none⟩

def pageDevices (a : CloudAnswers) : Answer (List CloudDevice) :=
  a.devicePage.map fun recs => (recs.filter fun r => orEmpty r.deviceName ≠ "").map fun r =>
    ⟨orEmpty r.deviceName, orEmpty r.iotId, orEmpty r.productKey, none⟩

def sharedDevices (a : CloudAnswers) : Answer (List CloudDevice) :=
  a.sharedPageLast.map fun recs => (recs.filter fun r => orEmpty r.deviceName ≠ "" ∧ r.status ≠ -1).map fun r =>
    ⟨orEmpty r.deviceName, orEmpty r.iotId, "", none⟩

/-- `if not devices`. -/
def orElse (devices : List CloudDevice) (next : Answer (List CloudDevice)) : List CloudDevice :=
  if devices = [] then orNoDevices next else devices

/-- `devices`, when all sources have been asked that are. -/
def accountDevices (cached : Bool) (a : CloudAnswers) : List CloudDevice :=
  let devices := orNoDevices (gatewayDevices cached a)
  let devices := orElse devices (ownedDevices a)
  let devices := orElse devices (pageDevices a)
  orElse devices (sharedDevices a)

/-- The variables of the last loop. -/
structure Listing where
  out : List CloudMower
  seen : List String

/-- One device; `isRtk` is `DeviceType.is_rtk`. -/
def listDevice (isRtk : String → String → Bool) (s : Listing) (d : CloudDevice) : Listing :=
  if d.name = "" ∨ d.name ∈ s.seen then s
  else if isRtk d.name d.productKey then s
  else ⟨s.out ++ [⟨d.name, orNone (some d.iotId), d.nickname⟩], s.seen ++ [d.name]⟩

/-- `HTTPException`. -/
structure HttpException where
  statusCode : ℕ
  detail : String
deriving DecidableEq, Repr

/-- What `_cloud_mowers` returns or raises, whether `state.cloud_client` is set afterwards, and what it accepted. -/
structure CloudListing where
  result : Except HttpException (List CloudMower)
  cached : Bool
  accepted : List Acceptance

/-- `gateway_error`. -/
def gatewayError (cached : Bool) (a : CloudAnswers) : Option String :=
  match gatewayDevices cached a with
  | .ok _ => none
  | .error text => some text

/-- `_cloud_mowers`, with a login. -/
def cloudMowers (isRtk : String → String → Bool) (cached : Bool) (a : CloudAnswers) : CloudListing where
  result :=
    let devices := accountDevices cached a
    if devices = [] ∧ orEmpty (gatewayError cached a) ≠ "" then
      .error ⟨502, "Could not list account devices: " ++ orEmpty (gatewayError cached a)⟩
    else .ok (devices.foldl (listDevice isRtk) ⟨[], []⟩).out
  cached := (gatewayError cached a).isNone
  accepted :=
    confirmPendingShares a ++
      match openGateway cached a with
      | .ok () => confirmNotices a
      | .error _ => []

end MammotionRc.Server
