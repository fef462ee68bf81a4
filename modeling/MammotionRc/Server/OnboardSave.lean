import MammotionRc.Server.Persist

/-! # Saving the roster

`/api/onboard/save` checks the posted object, writes the credentials and the roster to their files, and swaps the live
roster. What the swap does to the handles and transports of the old roster is the matter of the registry: here they
are a type, and the swap without other requests in between is a parameter. The constructors that it calls do not
raise.
-/

namespace MammotionRc.Server

open Machine

/-- `Live` has the registered handles and transports. -/
structure Site (Live : Type*) where
  /-- `secrets.toml`. -/
  secrets : File
  /-- `mowers.toml`. -/
  roster : File
  /-- `MOWERS`. -/
  mowers : List Row
  live : Live
  /-- `state.onboard_email`; `None` if nobody has logged in. -/
  onboardEmail : PyValue
  /-- `state.onboard_password`. -/
  onboardPassword : PyValue

/-- Why the handler raises. -/
inductive SaveError
  /-- `HTTPException(400, ...)`. -/
  | badRequest
  /-- Any other exception. -/
  | raised
deriving DecidableEq, Repr

/-- A step that raises an exception of its own. -/
def orRaise {α : Type*} : Option α → Except SaveError α
  | some x => .ok x
  | none => .error .raised

/-- `(m.get(key) or "").strip()`. -/
def strippedField (m : PyValue) (key : String) : Option PyStr :=
  (m.get? key).bind fun v => (v.or (.str [])).strip?

/-- A row of `norm`. -/
def normaliseRow (m : PyValue) : Except SaveError Row := do
  let name ← orRaise (strippedField m "name")
  let host ← orRaise (strippedField m "hc33_host")
  if name = [] ∨ host = [] then .error .badRequest
  else
    let nickname ← orRaise (strippedField m "nickname")
    let port ← orRaise ((m.get? "hc33_port").bind fun v => (v.or (.int 9876)).toInt?)
    let iotId ← orRaise (m.get? "iot_id")
    .ok ⟨.str name, (PyValue.str nickname).or .none, .str host, port, iotId.or .none⟩

/-- `norm`. -/
def normalise (payload : PyValue) : Except SaveError (List Row) := do
  let mowers ← orRaise (payload.get? "mowers")
  let rows ← orRaise (mowers.or (.list [])).iterate?
  let norm ← rows.mapM normaliseRow
  if norm = [] then .error .badRequest else .ok norm

/-- The email address and the password. -/
def credentials {Live : Type*} (site : Site Live) (payload : PyValue) : Except SaveError (PyStr × PyValue) := do
  let email ← orRaise (payload.get? "email")
  let email ← orRaise ((email.or site.onboardEmail).or (.str [])).strip?
  let password ← orRaise (payload.get? "password")
  .ok (email, (password.or site.onboardPassword).or (.str []))

/-- What the handler has before it writes. -/
structure Prepared where
  norm : List Row
  email : PyStr
  password : PyValue

def prepare {Live : Type*} (site : Site Live) (payload : PyValue) : Except SaveError Prepared := do
  let norm ← normalise payload
  let account ← credentials site payload
  .ok ⟨norm, account.1, account.2⟩

/-- `email and password`. -/
def Prepared.HasAccount (p : Prepared) : Prop := p.email ≠ [] ∧ p.password.truthy = true

instance (p : Prepared) : Decidable p.HasAccount := inferInstanceAs (Decidable (_ ∧ _))

section

variable {Live : Type*} (beyond : TomlRest) (newline : PyText.Newline) (swap : List Row → Live → Live)

/-- The credentials are written if there are any. -/
def writeSecrets (site : Site Live) (p : Prepared) : Option (Site Live) :=
  if p.HasAccount then
    (saveSecrets beyond newline site.secrets (.str p.email) p.password).map fun bytes =>
      { site with secrets := some bytes }
  else some site

/-- `_apply_mowers`, and what follows it. -/
def applyMowers (site : Site Live) (norm : List Row) : Site Live :=
  { site with mowers := norm, live := swap norm site.live, onboardEmail := .none, onboardPassword := .none }

/-- `onboard_save`: the number of mowers, or why it raises, and what it leaves. -/
def onboardSave (site : Site Live) (payload : PyValue) : Except SaveError ℕ × Site Live :=
  match prepare site payload with
  | .error e => (.error e, site)
  | .ok p =>
    match writeSecrets beyond newline site p with
    | none => (.error .raised, site)
    | some site =>
      match saveMowers newline p.norm with
      | none => (.error .raised, site)
      | some bytes => (.ok p.norm.length, applyMowers swap { site with roster := some bytes } p.norm)

end

end MammotionRc.Server
