import Mathlib.Logic.Function.Basic
import MammotionRc.Machine.PyValue

/-! # The session with the cloud

`state.http` is a session of one account, `state.cloud_client` a gateway that was opened with such a session, and the
credentials of the last login are kept until they are saved. Logins, scans, camera requests, saves and the fetch of
the error table are tasks that suspend at every call of the cloud and share these variables; a step goes from one
`await` to the next. A session or gateway is known here by the account it is for.
-/

namespace MammotionRc.Server

open Machine

structure Account where
  email : PyStr
  password : PyStr
deriving DecidableEq, Repr

/-- Who awaits `_ensure_http`. -/
inductive EnsureCaller
  | camera
  | scan
  | errorTable
deriving DecidableEq, Repr

/-- What a task came to. -/
inductive CloudEnd
  /-- `HTTPException(400, ...)`. -/
  | badRequest
  | loginOk
  | loginFailed
  /-- `HTTPException(503, ...)`. -/
  | noCredentials
  /-- `HTTPException(502, ...)`, or what the login raises. -/
  | ensureFailed
  /-- The camera goes on with a session. -/
  | camera (account : Account)
  /-- The devices of an account are listed. -/
  | listed (account : Account)
  | saved
  | saveRaised
  | tableFetched
  | cancelled
deriving DecidableEq, Repr

/-- Where a task waits. -/
inductive CloudPc
  | absent
  /-- `onboard_login` awaits `login_v2`. -/
  | loggingIn (account : Account)
  /-- The task of the error table was created. -/
  | fetchCreated
  /-- `_ensure_http` awaits `login_v2`. -/
  | ensuring (account : Account) (caller : EnsureCaller)
  /-- `_cloud_mowers` awaits `_confirm_pending_shares`. -/
  | confirming (http : Account)
  /-- `_cloud_mowers` opens a gateway. -/
  | handshaking (http : Account)
  /-- `_cloud_mowers` asks a gateway. -/
  | listing (http cloud : Account)
  /-- `_cloud_mowers` asks the other endpoints. -/
  | listingElsewhere (http : Account)
  /-- `get_all_error_codes`. -/
  | fetching (http : Account)
  /-- `onboard_save` awaits `_apply_mowers`. -/
  | applying
  | ended (how : CloudEnd)
deriving DecidableEq, Repr

/-- The task is the fetch of the error table. -/
def CloudPc.fetches : CloudPc → Bool
  | fetchCreated | ensuring _ .errorTable | fetching _ => true
  | _ => false

/-- The task serves a request, which may be cancelled. -/
def CloudPc.cancellable : CloudPc → Bool
  | absent | ended _ => false
  | pc => !pc.fetches

structure CloudSession (Table : Type) where
  http : Option Account
  cloudClient : Option Account
  /-- `state.onboard_email` and `state.onboard_password`, which are set and cleared together. -/
  onboard : Option Account
  /-- What `load_secrets` finds, if it finds both. -/
  secrets : Option Account
  errorCodes : Option Table
  errorTableFetching : Bool
  tasks : ℕ → CloudPc

/-- What the gateway answers. -/
inductive GatewayAnswer
  | devices
  | nothing
  | raised
deriving DecidableEq, Repr

inductive CloudEvent (Table : Type)
  /-- `POST /api/onboard/login`. -/
  | login (i : ℕ) (email password : PyStr)
  | loginAnswered (i : ℕ) (account : Account) (ok : Bool)
  /-- `GET /api/onboard/scan`. -/
  | scan (i : ℕ)
  /-- `POST /api/camera/{name}/start`. -/
  | camera (i : ℕ)
  | ensured (i : ℕ) (ok : Bool)
  | confirmed (i : ℕ)
  | handshaken (i : ℕ) (ok : Bool)
  | gatewayListed (i : ℕ) (answer : GatewayAnswer)
  | elsewhereListed (i : ℕ)
  /-- `POST /api/onboard/save` with a roster that passes, the credentials of the body, and whether the roster file is
  written. -/
  | save (i : ℕ) (email password : PyStr) (written : Bool)
  | applied (i : ℕ) (ok : Bool)
  /-- A status request with a fault; `i` is the task that it may create. -/
  | status (i : ℕ)
  | fetchStarted (i : ℕ)
  | fetched (i : ℕ) (answer : Option Table)
  | cancelled (i : ℕ)

namespace CloudSession

variable {Table : Type} [EmptyCollection Table]

/-- Nobody has logged in since the start. -/
def init (secrets : Option Account) : CloudSession Table :=
  ⟨none, none, none, secrets, none, false, fun _ => .absent⟩

def setTask (s : CloudSession Table) (i : ℕ) (pc : CloudPc) : CloudSession Table :=
  { s with tasks := Function.update s.tasks i pc }

omit [EmptyCollection Table] in
theorem setTask_tasks (s : CloudSession Table) (i : ℕ) (pc : CloudPc) :
    (s.setTask i pc).tasks = Function.update s.tasks i pc := rfl

/-- The `except` and the `finally` of `_fetch_error_table`. -/
def tableDone (s : CloudSession Table) (i : ℕ) (table : Table) : CloudSession Table :=
  { s with errorCodes := some table, errorTableFetching := false }.setTask i (.ended .tableFetched)

/-- `_ensure_http` raises. -/
def ensureRaised (s : CloudSession Table) (i : ℕ) (caller : EnsureCaller) (how : CloudEnd) : CloudSession Table :=
  match caller with
  | .errorTable => s.tableDone i ∅
  | _ => s.setTask i (.ended how)

/-- `_ensure_http` returns. -/
def withHttp (s : CloudSession Table) (i : ℕ) (caller : EnsureCaller) (http : Account) : CloudSession Table :=
  s.setTask i <| match caller with
    | .camera => .ended (.camera http)
    | .scan => .confirming http
    | .errorTable => .fetching http

/-- `_ensure_http` up to its `await`. -/
def ensureHttp (s : CloudSession Table) (i : ℕ) (caller : EnsureCaller) : CloudSession Table :=
  match s.http with
  | some http => s.withHttp i caller http
  | none =>
    match s.secrets with
    | none => s.ensureRaised i caller .noCredentials
    | some account => s.setTask i (.ensuring account caller)

/-- `onboard_login` up to its `await`. -/
def login (s : CloudSession Table) (i : ℕ) (email password : PyStr) : CloudSession Table :=
  if email.strip = [] ∨ password = [] then s.setTask i (.ended .badRequest)
  else s.setTask i (.loggingIn ⟨email.strip, password⟩)

/-- `onboard_login` after its `await`. -/
def loginAnswered (s : CloudSession Table) (i : ℕ) (account : Account) (ok : Bool) : CloudSession Table :=
  if ok then
    { s with http := some account, cloudClient := none, onboard := some account }.setTask i (.ended .loginOk)
  else s.setTask i (.ended .loginFailed)

/-- `a or b`. -/
def orStr (a b : PyStr) : PyStr := if a = [] then b else a

/-- The credentials that `onboard_save` writes, if both are there. -/
def savedAccount (s : CloudSession Table) (email password : PyStr) : Option Account :=
  let account : Account :=
    ⟨(orStr email ((s.onboard.map Account.email).getD [])).strip,
      orStr password ((s.onboard.map Account.password).getD [])⟩
  if account.email ≠ [] ∧ account.password ≠ [] then some account else none

/-- `onboard_save` up to its `await`. -/
def save (s : CloudSession Table) (i : ℕ) (email password : PyStr) (written : Bool) : CloudSession Table :=
  { s with secrets := (s.savedAccount email password).or s.secrets }.setTask i
    (if written then .applying else .ended .saveRaised)

/-- `_cloud_mowers` looks for a gateway. -/
def openGateway (s : CloudSession Table) (i : ℕ) (http : Account) : CloudSession Table :=
  match s.cloudClient with
  | none => s.setTask i (.handshaking http)
  | some cloud => s.setTask i (.listing http cloud)

/-- The gateway fails, and is given up. -/
def gatewayFailed (s : CloudSession Table) (i : ℕ) (http : Account) : CloudSession Table :=
  { s with cloudClient := none }.setTask i (.listingElsewhere http)

def handshaken (s : CloudSession Table) (i : ℕ) (http : Account) (ok : Bool) : CloudSession Table :=
  if ok then { s with cloudClient := some http }.setTask i (.listing http http) else s.gatewayFailed i http

def gatewayListed (s : CloudSession Table) (i : ℕ) (http cloud : Account) : GatewayAnswer → CloudSession Table
  | .devices => s.setTask i (.ended (.listed cloud))
  | .nothing => s.setTask i (.listingElsewhere http)
  | .raised => s.gatewayFailed i http

/-- `onboard_save` after its `await`. -/
def applied (s : CloudSession Table) (i : ℕ) (ok : Bool) : CloudSession Table :=
  if ok then { s with onboard := none }.setTask i (.ended .saved) else s.setTask i (.ended .saveRaised)

/-- `_error_table`. -/
def status (s : CloudSession Table) (i : ℕ) : CloudSession Table :=
  if s.errorCodes.isSome ∨ s.errorTableFetching then s
  else { s with errorTableFetching := true }.setTask i .fetchCreated

/-- What `_error_table` returns. -/
def errorTable (s : CloudSession Table) : Table := s.errorCodes.getD ∅

def step (s : CloudSession Table) : CloudEvent Table → Option (CloudSession Table)
  | .login i email password => if s.tasks i = .absent then some (s.login i email password) else none
  | .loginAnswered i account ok =>
    if s.tasks i = .loggingIn account then some (s.loginAnswered i account ok) else none
  | .scan i => if s.tasks i = .absent then some (s.ensureHttp i .scan) else none
  | .camera i => if s.tasks i = .absent then some (s.ensureHttp i .camera) else none
  | .ensured i ok =>
    match s.tasks i with
    | .ensuring account caller =>
      some (if ok then { s with http := some account }.withHttp i caller account
        else s.ensureRaised i caller .ensureFailed)
    | _ => none
  | .confirmed i =>
    match s.tasks i with
    | .confirming http => some (s.openGateway i http)
    | _ => none
  | .handshaken i ok =>
    match s.tasks i with
    | .handshaking http => some (s.handshaken i http ok)
    | _ => none
  | .gatewayListed i answer =>
    match s.tasks i with
    | .listing http cloud => some (s.gatewayListed i http cloud answer)
    | _ => none
  | .elsewhereListed i =>
    match s.tasks i with
    | .listingElsewhere http => some (s.setTask i (.ended (.listed http)))
    | _ => none
  | .save i email password written => if s.tasks i = .absent then some (s.save i email password written) else none
  | .applied i ok => if s.tasks i = .applying then some (s.applied i ok) else none
  | .status i => if s.tasks i = .absent then some (s.status i) else none
  | .fetchStarted i => if s.tasks i = .fetchCreated then some (s.ensureHttp i .errorTable) else none
  | .fetched i answer =>
    match s.tasks i with
    | .fetching _ => some (s.tableDone i (answer.getD ∅))
    | _ => none
  | .cancelled i => if (s.tasks i).cancellable then some (s.setTask i (.ended .cancelled)) else none

/-! ## What each step does -/

section Steps

variable {s t : CloudSession Table} {i : ℕ}

attribute [local simp] step

theorem step_login {email password : PyStr} :
    s.step (.login i email password) = some t ↔ s.tasks i = .absent ∧ s.login i email password = t := by
  simp

theorem step_loginAnswered {account : Account} {ok : Bool} : s.step (.loginAnswered i account ok) = some t ↔
    s.tasks i = .loggingIn account ∧ s.loginAnswered i account ok = t := by
  simp

theorem step_scan : s.step (.scan i) = some t ↔ s.tasks i = .absent ∧ s.ensureHttp i .scan = t := by
  simp

theorem step_camera : s.step (.camera i) = some t ↔ s.tasks i = .absent ∧ s.ensureHttp i .camera = t := by
  simp

theorem step_ensured {ok : Bool} : s.step (.ensured i ok) = some t ↔
    ∃ account caller, s.tasks i = .ensuring account caller ∧
      (if ok then { s with http := some account }.withHttp i caller account
        else s.ensureRaised i caller .ensureFailed) = t := by
  cases pc : s.tasks i <;> simp [pc]

theorem step_confirmed : s.step (.confirmed i) = some t ↔
    ∃ http, s.tasks i = .confirming http ∧ s.openGateway i http = t := by
  cases pc : s.tasks i <;> simp [pc]

theorem step_handshaken {ok : Bool} : s.step (.handshaken i ok) = some t ↔
    ∃ http, s.tasks i = .handshaking http ∧ s.handshaken i http ok = t := by
  cases pc : s.tasks i <;> simp [pc]

theorem step_gatewayListed {answer : GatewayAnswer} : s.step (.gatewayListed i answer) = some t ↔
    ∃ http cloud, s.tasks i = .listing http cloud ∧ s.gatewayListed i http cloud answer = t := by
  cases pc : s.tasks i <;> simp [pc]

theorem step_elsewhereListed : s.step (.elsewhereListed i) = some t ↔
    ∃ http, s.tasks i = .listingElsewhere http ∧ s.setTask i (.ended (.listed http)) = t := by
  cases pc : s.tasks i <;> simp [pc]

theorem step_save {email password : PyStr} {written : Bool} : s.step (.save i email password written) = some t ↔
    s.tasks i = .absent ∧ s.save i email password written = t := by
  simp

theorem step_applied {ok : Bool} : s.step (.applied i ok) = some t ↔ s.tasks i = .applying ∧ s.applied i ok = t := by
  simp

theorem step_status : s.step (.status i) = some t ↔ s.tasks i = .absent ∧ s.status i = t := by
  simp

theorem step_fetchStarted :
    s.step (.fetchStarted i) = some t ↔ s.tasks i = .fetchCreated ∧ s.ensureHttp i .errorTable = t := by
  simp

theorem step_fetched {answer : Option Table} : s.step (.fetched i answer) = some t ↔
    ∃ http, s.tasks i = .fetching http ∧ s.tableDone i (answer.getD ∅) = t := by
  cases pc : s.tasks i <;> simp [pc]

theorem step_cancelled : s.step (.cancelled i) = some t ↔
    (s.tasks i).cancellable = true ∧ s.setTask i (.ended .cancelled) = t := by
  simp

end Steps

end CloudSession

end MammotionRc.Server
