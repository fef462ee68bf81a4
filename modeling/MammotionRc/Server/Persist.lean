import MammotionRc.Machine.PyValue
import MammotionRc.Machine.Toml
import MammotionRc.Server.Registry

/-! # `mowers.toml` and `secrets.toml`

A file is the list of its bytes, and `none` before it is written for the first time. `_atomic_write` replaces a file
as a whole, so a function that writes one is its new content, or `none` if it raises. What `tomllib` does with
documents of other forms than those that are written here is the parameter `beyond`.
-/

namespace MammotionRc.Server

open Machine

abbrev File := Option (List UInt8)

/-- What `tomllib` does from a line on that is not of a plain form. -/
abbrev TomlRest := Toml.Document PyValue → List (List Char) → Option (Toml.Root PyValue)

/-- The environment; a variable that is not set is `None`. -/
abbrev Environ := String → PyValue

/-! ## Reading and writing -/

def ofTomlValue : Toml.Value PyValue → PyValue
  | .string text => .str (PyStr.ofChars text)
  | .integer n => .int n
  | .other v => v

def ofTomlTable (table : Toml.Table PyValue) : PyValue :=
  .dict (table.items.map fun item => (PyStr.ofChars item.1, ofTomlValue item.2))

def ofTomlItem : Toml.Item PyValue → PyValue
  | .value v => ofTomlValue v
  | .tables rows => .list (rows.map ofTomlTable)

/-- `tomllib.load`. -/
def tomlLoad (beyond : TomlRest) (bytes : List UInt8) : Option PyValue :=
  (Toml.load beyond bytes).map fun root =>
    .dict (root.items.map fun item => (PyStr.ofChars item.1, ofTomlItem item.2))

/-- `tmp.write_text(text, encoding="utf-8")`. -/
def writeText (newline : PyText.Newline) (text : PyStr) : Option (List UInt8) :=
  text.chars?.map fun chars => Utf8.encode (newline.translate chars)

/-- The branches of `_toml_quote` for a character. -/
def escapeChar (c : Char) : List Char :=
  if c = '\\' then ['\\', '\\']
  else if c = '"' then ['\\', '"']
  else if c = '\n' then ['\\', 'n']
  else if c = '\r' then ['\\', 'r']
  else if c = '\t' then ['\\', 't']
  else if c.toNat < 0x20 then '\\' :: 'u' :: Hex.word c.toNat
  else [c]

/-- A surrogate is beyond the control characters. -/
def escape : PyChar → PyStr
  | .char c => PyStr.ofChars (escapeChar c)
  | .surrogate i => [.surrogate i]

/-- `_toml_quote`. -/
def tomlQuote (s : PyValue) : Option PyStr :=
  s.characters?.map fun chars => PyStr.lit "\"" ++ chars.flatMap escape ++ PyStr.lit "\""

/-! ## `mowers.toml` -/

/-- A row of the normalised list. -/
structure Row where
  name : PyValue
  nickname : PyValue
  hc33Host : PyValue
  hc33Port : ℤ
  iotId : PyValue

/-- The row of a mower. -/
def MowerConfig.row (cfg : MowerConfig) : Row where
  name := .str (PyStr.lit cfg.name)
  nickname := (cfg.nickname.map fun s => PyValue.str (PyStr.lit s)).getD .none
  hc33Host := .str (PyStr.lit cfg.hc33Host)
  hc33Port := cfg.hc33Port
  iotId := (cfg.iotId.map fun s => PyValue.str (PyStr.lit s)).getD .none

/-- What `load_mowers` makes of an entry; malformed entries are skipped. -/
def loadRow (m : PyValue) : Option (Option Row) := do
  let named ← m.contains? "name"
  let placed ← if named then m.contains? "hc33_host" else some false
  if placed then
    let name ← m.getItem? "name"
    let nickname ← m.get? "nickname"
    let hc33Host ← m.getItem? "hc33_host"
    let hc33Port ← (m.getD? "hc33_port" (.int 9876)).bind PyValue.toInt?
    let iotId ← m.get? "iot_id"
    some (some ⟨name, nickname.or .none, hc33Host, hc33Port, iotId.or .none⟩)
  else some none

/-- `load_mowers`. -/
def loadMowers (beyond : TomlRest) : File → Option (List Row)
  | none => some []
  | some bytes => do
    let data ← tomlLoad beyond bytes
    let mowers ← (data.getD? "mower" (.list [])).bind PyValue.iterate?
    let rows ← mowers.mapM loadRow
    some (rows.filterMap id)

/-- A line that is left out if there is nothing to write. -/
def optionalLine (key : String) (v : PyValue) : Option (List PyStr) :=
  if v.truthy then (tomlQuote v).map fun quoted => [PyStr.lit key ++ quoted] else some []

/-- The lines of `save_mowers` for a mower. -/
def mowerLines (m : Row) : Option (List PyStr) := do
  let name ← tomlQuote m.name
  let nickname ← optionalLine "nickname  = " m.nickname
  let hc33Host ← tomlQuote m.hc33Host
  let hc33Port ← PyInt.str? m.hc33Port
  let iotId ← optionalLine "iot_id    = " m.iotId
  some ([PyStr.lit "[[mower]]", PyStr.lit "name      = " ++ name] ++ nickname ++
    [PyStr.lit "hc33_host = " ++ hc33Host, PyStr.lit "hc33_port = " ++ PyStr.ofChars hc33Port] ++ iotId ++ [[]])

/-- The first lines of `mowers.toml`. -/
def rosterHeader : List String :=
  ["# HC33 mower roster — generated by the onboarding flow.",
    "# Safe to commit (no secrets).  Re-run onboarding or edit by hand.",
    ""]

/-- `save_mowers`. -/
def saveMowers (newline : PyText.Newline) (mowers : List Row) : Option (List UInt8) := do
  let lines ← mowers.mapM mowerLines
  writeText newline ((PyStr.lit "\n").intercalate (rosterHeader.map PyStr.lit ++ lines.flatten))

/-! ## `secrets.toml` -/

/-- The keys of a file that may be missing. -/
def loadExisting (beyond : TomlRest) : File → Option PyValue
  | none => some (.dict [])
  | some bytes => tomlLoad beyond bytes

/-- `load_secrets`: the email address and the password. -/
def loadSecrets (beyond : TomlRest) (environ : Environ) (secrets : File) : Option (PyValue × PyValue) := do
  let data ← loadExisting beyond secrets
  let email ← data.get? "email"
  let password ← data.get? "password"
  some (email.or (environ "EMAIL"), password.or (environ "PASSWORD"))

/-- The comments at the start of a file, each on a line of its own. -/
def commentLines (header : List String) : PyStr := header.flatMap fun line => PyStr.lit line ++ PyStr.lit "\n"

/-- The first lines of what `save_secrets` writes. -/
def secretsHeader : List String :=
  ["# Mammotion account credentials — DO NOT COMMIT.",
    "# Used for cloud login (camera) and ~monthly token refresh."]

/-- A key that is left out if there is nothing to write, on a line of its own. -/
def optionalKey (quote : PyValue → Option PyStr) (key : String) (v : PyValue) : Option PyStr :=
  if v.truthy then (quote v).map fun quoted => PyStr.lit key ++ quoted ++ PyStr.lit "\n" else some []

/-- `save_secrets`. -/
def saveSecrets (beyond : TomlRest) (newline : PyText.Newline) (secrets : File) (email password : PyValue) :
    Option (List UInt8) := do
  let existing ← loadExisting beyond secrets
  let webUsername ← existing.get? "web_username"
  let webPassword ← existing.get? "web_password"
  let email ← tomlQuote email
  let password ← tomlQuote password
  let webUsername ← optionalKey tomlQuote "web_username = " webUsername
  let webPassword ← optionalKey tomlQuote "web_password = " webPassword
  writeText newline
    (commentLines secretsHeader ++ (PyStr.lit "email    = " ++ email ++ PyStr.lit "\n") ++
      (PyStr.lit "password = " ++ password ++ PyStr.lit "\n") ++ webUsername ++ webPassword)

/-- `load_web_auth`: the username and the password. -/
def loadWebAuth (beyond : TomlRest) (environ : Environ) (secrets : File) : Option (PyValue × PyValue) := do
  let username := environ "LUBA_WEB_USERNAME"
  let password := environ "LUBA_WEB_PASSWORD"
  let data ← if username.truthy ∧ password.truthy then some (.dict []) else loadExisting beyond secrets
  let webUsername ← data.get? "web_username"
  let webPassword ← data.get? "web_password"
  some ((username.or webUsername).or (.str (PyStr.lit "luba")), (password.or webPassword).or .none)

end MammotionRc.Server
