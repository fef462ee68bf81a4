import Mathlib.Data.List.Infix
import MammotionRc.Machine.Base64
import MammotionRc.Machine.OrderedDict
import MammotionRc.Machine.UrlEncoded

/-! # The gate of the web server

`BasicAuthMiddleware` stands in front of every route. It lets a request through with the credentials of the web
UI or with the cookie that the login form hands out, and compares both with a function that raises for strings
that are not ASCII. Strings are lists of characters, headers are bytes.
-/

namespace MammotionRc.Server

open Machine

def AUTH_COOKIE : List Char := "luba_auth".toList

inductive ScopeType
  | http
  | websocket
  | other
deriving DecidableEq, Repr

/-- An ASGI scope, as far as the middleware reads it. -/
structure Scope where
  type : ScopeType
  path : Option (List Char)
  method : Option (List Char)
  headers : List (List UInt8 × List UInt8)
deriving DecidableEq, Repr

/-- What the middleware does with a scope. -/
inductive AuthOutcome
  /-- It calls the app, and the response gets the cookie or not. -/
  | app (cookie : Bool)
  | close (code : ℕ)
  | respond (status : ℕ) (location : Option (List Char))
deriving DecidableEq, Repr

structure BasicAuthMiddleware where
  username : List Char
  password : Option (List Char)
  token : Option (List Char)
deriving DecidableEq, Repr

/-- `secrets.compare_digest` for strings; `none` if it raises. -/
def compareDigest (a b : List Char) : Option Bool :=
  if PyText.isAscii a && PyText.isAscii b then some (a = b) else none

/-- `headers.get(name, b"")` of `dict(headers)`. -/
def header (headers : List (List UInt8 × List UInt8)) (name : String) : List UInt8 :=
  ((OrderedDict.ofPairs headers).get? (Utf8.encode name.toList)).getD []

/-- The credentials of a `Basic` header, unless it is malformed. -/
def basicCredentials (headers : List (List UInt8 × List UInt8)) : Option (List Char × List Char) :=
  let raw := header headers "authorization"
  if !(Utf8.encode "Basic ".toList).isPrefixOf raw then none
  else ((Base64.b64decode (raw.drop 6)).bind Utf8.decode?).map (PyText.splitOnce ':')

/-- `decode("latin-1")`. -/
def latin1 (bytes : List UInt8) : List Char := bytes.map fun b => Char.ofNat b.toNat

/-- The value of a part of the cookie header that is named like the cookie. -/
def authCookie? (part : List Char) : Option (List Char) :=
  let (k, v) := PyText.splitOnce '=' (PyText.strip part)
  if k = AUTH_COOKIE then some v else none

/-- The value of the first such cookie. -/
def firstAuthCookie (headers : List (List UInt8 × List UInt8)) : Option (List Char) :=
  ((latin1 (header headers "cookie")).splitOn ';').findSome? authCookie?

namespace BasicAuthMiddleware

variable (m : BasicAuthMiddleware)

/-- `_basic_ok` for a middleware with a password. -/
def basicOk (password : List Char) (headers : List (List UInt8 × List UInt8)) : Option Bool :=
  match basicCredentials headers with
  | none => some false
  | some (user, pw) => do
    let same ← compareDigest user m.username
    if same then compareDigest pw password else some false

def cookieOk (headers : List (List UInt8 × List UInt8)) : Option Bool :=
  match firstAuthCookie headers with
  | none => some false
  | some v => compareDigest v (m.token.getD [])

/-- `_basic_ok(headers) or _cookie_ok(headers)`. -/
def authenticated (password : List Char) (headers : List (List UInt8 × List UInt8)) : Option Bool := do
  let basic ← m.basicOk password headers
  if basic then some true else m.cookieOk headers

/-- A request that did not show who it is from. -/
def refuse (scope : Scope) : AuthOutcome :=
  if scope.type = .websocket then .close 1008
  else if scope.method = some "GET".toList ∧ Utf8.encode "text/html".toList <:+: header scope.headers "accept" then
    .respond 303 (some "/login".toList)
  else .respond 401 none

/-- `__call__`; `none` if it raises. -/
def call (scope : Scope) : Option AuthOutcome :=
  match m.password with
  | none => some (.app false)
  | some password =>
    if password = [] ∨ scope.type = .other then some (.app false)
    else if scope.type = .http ∧ scope.path = some "/login".toList then some (.app false)
    else
      (m.authenticated password scope.headers).map fun ok =>
        if !ok then refuse scope else .app (scope.type = .http)

end BasicAuthMiddleware

/-- `hexdigest`. -/
def hexdigest (digest : List UInt8) : List Char :=
  digest.flatMap fun b => (Hex.byte b).map Char.toLower

/-- `_WS_TOKEN`, by the function that `hmac` computes. -/
def wsToken (hmac : List UInt8 → List UInt8 → List UInt8) (password : List Char) : List Char :=
  hexdigest (hmac (Utf8.encode password) (Utf8.encode "luba-ws-auth".toList))

/-- What the module sets up for the credentials of `load_web_auth`. -/
def authMiddleware (hmac : List UInt8 → List UInt8 → List UInt8) (username : List Char)
    (password : Option (List Char)) : BasicAuthMiddleware :=
  ⟨username, password, (password.filter (· ≠ [])).map (wsToken hmac)⟩

inductive LoginAnswer
  /-- To the app, with the cookie. -/
  | signedIn (cookie : List Char)
  /-- The form again, with status 401. -/
  | refused
deriving DecidableEq, Repr

/-- `data.get(name, [""])[0]`. -/
def formValue (data : List (List Char × List Char)) (name : String) : List Char :=
  ((data.find? (·.1 = name.toList)).map Prod.snd).getD []

/-- `login_submit`, by the credentials and the cookie of the middleware; `none` if it raises. -/
def loginSubmit (m : BasicAuthMiddleware) (body : List UInt8) : Option LoginAnswer :=
  let data := UrlEncoded.parseQsl (Utf8.decodeReplace body)
  let user := PyText.strip (formValue data "username")
  let pw := formValue data "password"
  match m.password with
  | none => some .refused
  | some password =>
    if password = [] then some .refused
    else do
      let same ← compareDigest user m.username
      if !same then some .refused
      else (compareDigest pw password).map fun ok => if ok then .signedIn (m.token.getD []) else .refused

end MammotionRc.Server
