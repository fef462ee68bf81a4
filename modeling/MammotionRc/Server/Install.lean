import MammotionRc.Server.Persist

/-! # The credentials of the installer

`setup_secrets` of `install.py` and `save_secrets` of the server write one file. The installer has its own
`toml_quote`, and its own rules for what it keeps of what the file had before. A prompt is an input, and is only looked
at when the installer asks.
-/

namespace MammotionRc.Server

open Machine

/-- The flags that matter here; `none` is a flag that is missing. -/
structure InstallArgs where
  webPassword : Option (List Char)
  email : Option (List Char)
  password : Option (List Char)

/-- What is entered at the prompts. -/
structure Entered where
  webPassword : List Char
  email : List Char
  password : List Char

/-- `toml_quote`. -/
def installQuote : PyValue → Option PyStr
  | .str s => some (PyStr.lit "\"" ++ (s.replace '\\' ['\\', '\\']).replace '"' ['\\', '"'] ++ PyStr.lit "\"")
  | _ => none

/-- The web password that is written. -/
def chosenWebPassword (args : InstallArgs) (interactive : Bool) (entered : Entered) (webPassword : PyValue) : PyValue :=
  match args.webPassword with
  | some given => (PyValue.str (PyStr.ofChars given)).or .none
  | none =>
    if interactive ∧ entered.webPassword ≠ [] then .str (PyStr.ofChars entered.webPassword) else webPassword

/-- The account that is written: the email address and the password. -/
def chosenAccount (args : InstallArgs) (interactive : Bool) (entered : Entered) (email password : PyValue) :
    PyValue × PyValue :=
  match args.email with
  | some given =>
    ((PyValue.str (PyStr.ofChars given)).or email,
      (args.password.map fun given => PyValue.str (PyStr.ofChars given)).getD password)
  | none =>
    if interactive ∧ PyText.strip entered.email ≠ [] then
      (.str (PyStr.ofChars (PyText.strip entered.email)), (PyValue.str (PyStr.ofChars entered.password)).or password)
    else (email, password)

/-- The first line of what `setup_secrets` writes. -/
def installHeader : List String := ["# Written by install.py. Gitignored — never commit."]

/-- `setup_secrets`. -/
def setupSecrets (beyond : TomlRest) (newline : PyText.Newline) (args : InstallArgs) (interactive : Bool)
    (entered : Entered) (secrets : File) : Option (List UInt8) := do
  let existing ← loadExisting beyond secrets
  let email ← existing.get? "email"
  let password ← existing.get? "password"
  let webUsername ← existing.get? "web_username"
  let webPassword ← existing.get? "web_password"
  let account := chosenAccount args interactive entered email password
  let emailLine ← optionalKey installQuote "email    = " account.1
  let passwordLine ← optionalKey installQuote "password = " account.2
  let usernameLine ← optionalKey installQuote "web_username = " webUsername
  let webPasswordLine ← optionalKey installQuote "web_password = "
    (chosenWebPassword args interactive entered webPassword)
  writeText newline (commentLines installHeader ++ emailLine ++ passwordLine ++ usernameLine ++ webPasswordLine)

/-! ## The two writers of `secrets.toml` -/

inductive SecretsEvent
  /-- `setup_secrets`; `interactive` if it may prompt. -/
  | install (args : InstallArgs) (interactive : Bool) (entered : Entered)
  /-- `save_secrets`. -/
  | save (email password : List Char)

/-- A writer that raises leaves the file as it is. -/
def secretsStep (beyond : TomlRest) (newline : PyText.Newline) (secrets : File) : SecretsEvent → Option File
  | .install args interactive entered =>
    some ((setupSecrets beyond newline args interactive entered secrets).or secrets)
  | .save email password =>
    some ((saveSecrets beyond newline secrets (.str (PyStr.ofChars email)) (.str (PyStr.ofChars password))).or secrets)

end MammotionRc.Server
