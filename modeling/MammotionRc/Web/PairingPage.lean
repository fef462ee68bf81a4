import MammotionRc.Machine.JsNumeral
import MammotionRc.Server.OnboardScan

/-! # The pairing page

`onboarding.html` logs in, asks the server what it can pair, and posts the mowers that are switched on when the user
saves. Its texts are trimmed, compared with the empty one and sent, and nothing else, so they are taken as their code
points; JSON carries those over. What the page shows of its progress, and its messages, are left out.
-/

namespace MammotionRc.Web

open Machine Server

/-- White space and line terminators of JavaScript. -/
def isJsSpace : PyChar → Bool
  | .char c => JsNumber.isSpace c
  | .surrogate _ => false

/-- `s.trim()`. -/
def trim (s : PyStr) : PyStr := (s.dropWhile isJsSpace).rdropWhile isJsSpace

/-- `s || null`. -/
def orNull (s : PyStr) : Option PyStr := if s = [] then none else some s

/-- `s || ""` of a text or null. -/
def orBlank (s : Option String) : PyStr := PyStr.lit (s.getD "")

/-- What a text input has as its value; line breaks are dropped. -/
def textValue (s : PyStr) : PyStr := s.filter fun ch => ch ≠ .char '\n' ∧ ch ≠ .char '\r'

/-- What may follow the digits of a number. -/
def isExponent : List Char → Bool
  | [] => true
  | e :: rest => (e = 'e' ∨ e = 'E') ∧
    let digits := if rest.head? = some '+' ∨ rest.head? = some '-' then rest.drop 1 else rest
    digits ≠ [] ∧ digits.all Char.isDigit

/-- A text is a number to an input element of that type. -/
def isFloat (s : List Char) : Bool :=
  let s := if s.head? = some '-' then s.drop 1 else s
  match s.dropWhile Char.isDigit with
  | '.' :: rest => rest.takeWhile Char.isDigit ≠ [] ∧ isExponent (rest.dropWhile Char.isDigit)
  | rest => s.takeWhile Char.isDigit ≠ [] ∧ isExponent rest

/-- What a number input has as its value; what is no number is dropped. -/
def numberValue (s : List Char) : List Char := if isFloat s then s else []

/-- A card of the page. -/
structure PairCard where
  /-- `card.dataset.kind` is `manual`. -/
  manual : Bool
  /-- `card.dataset.name`. -/
  name : PyStr
  included : Bool
  nick : PyStr
  iot : PyStr
  host : PyStr
  port : List Char
  /-- The fields of the proxy are shown. -/
  opened : Bool

/-- `matchedCard`. -/
def matchedCard (m : MatchedMower) : PairCard where
  manual := false
  name := PyStr.lit m.name
  included := true
  nick := textValue (orBlank m.nickname)
  iot := textValue (orBlank m.iotId)
  host := textValue (PyStr.lit m.hc33Host)
  port := numberValue (JsNumber.ofInt m.hc33Port).text
  opened := true

/-- `manualCard`. -/
def manualCard (m : CloudMower) : PairCard where
  manual := true
  name := PyStr.lit m.name
  included := false
  nick := textValue (orBlank m.nickname)
  iot := textValue (orBlank m.iotId)
  host := []
  port := numberValue (JsNumber.fin 9876).text
  opened := false

/-- `renderMatched` and `renderUnmatchedMowers`. -/
def renderCards (data : ScanResponse) : List PairCard :=
  data.matched.map matchedCard ++ data.unmatchedMowers.map manualCard

/-- What the user does to a card. -/
inductive CardEdit
  | toggle (on : Bool)
  /-- The button `Pair manually`. -/
  | pair
  | nick (s : PyStr)
  | iot (s : PyStr)
  | host (s : PyStr)
  | port (s : List Char)

/-- `none` if the card does not offer it. -/
def PairCard.edit (c : PairCard) : CardEdit → Option PairCard
  | .toggle on => some { c with included := on }
  | .pair => if c.manual ∧ c.opened = false then some { c with opened := true, included := true } else none
  | .nick s => some { c with nick := textValue s }
  | .iot s => some { c with iot := textValue s }
  | .host s => if c.opened then some { c with host := textValue s } else none
  | .port s => if c.opened then some { c with port := numberValue s } else none

/-- A row that the page posts. -/
structure PairRow where
  name : PyStr
  nickname : Option PyStr
  iotId : Option PyStr
  hc33Host : PyStr
  hc33Port : JsNumber

/-- The row of a card, if the card is to be saved. -/
def PairCard.row? (c : PairCard) : Option PairRow :=
  if c.included then
    let host := trim c.host
    if host = [] then none
    else some ⟨c.name, orNull (trim c.nick), orNull (trim c.iot), host, (JsNumber.parseInt c.port).or (.fin 9876)⟩
  else none

def collectRows (cards : List PairCard) : List PairRow := cards.filterMap PairCard.row?

def jsonText : Option PyStr → PyValue
  | some s => .str s
  | none => .none

def PairRow.json (r : PairRow) : PyValue :=
  .dict [(PyStr.lit "name", .str r.name), (PyStr.lit "nickname", jsonText r.nickname),
    (PyStr.lit "iot_id", jsonText r.iotId), (PyStr.lit "hc33_host", .str r.hc33Host),
    (PyStr.lit "hc33_port", r.hc33Port.json)]

/-- The body of the request to `/api/onboard/save`, as the server reads it. -/
def saveBody (rows : List PairRow) : PyValue := .dict [(PyStr.lit "mowers", .list (rows.map PairRow.json))]

/-- What a handler of the page awaits. -/
inductive PairingPc
  /-- `boot` awaits the status. -/
  | status
  | login (email password : PyStr)
  /-- `runScan`; `login` if the handler of the login form awaits it in turn. -/
  | scan (login : Bool)
  | save (rows : List PairRow)
  | ended

structure PairingPage where
  /-- `step-login` is shown. -/
  loginShown : Bool
  loginBusy : Bool
  /-- `step-scan` is shown, with its two buttons. -/
  scanShown : Bool
  resultsShown : Bool
  scannedOnce : Bool
  rescanDisabled : Bool
  saveDisabled : Bool
  cards : List PairCard
  /-- The handlers in the order of their starts. -/
  tasks : List PairingPc

inductive PairingEvent
  /-- Handler `i` hears whether there is a roster; `none` if `jget` raises. -/
  | status (i : ℕ) (onboarded : Option Bool)
  /-- `none` if `jpost` raises. -/
  | loggedIn (i : ℕ) (ok : Option Bool)
  | scanned (i : ℕ) (data : Option ScanResponse)
  | saved (i : ℕ) (ok : Option Bool)
  | submit (email password : PyStr)
  | rescan
  | save
  /-- The user does something to card `k`. -/
  | edit (k : ℕ) (e : CardEdit)

namespace PairingPage

def init : PairingPage := ⟨false, false, false, false, false, true, true, [], [.status]⟩

/-- `runScan` up to its `await`. -/
def runScan (s : PairingPage) : PairingPage :=
  { s with scanShown := true, resultsShown := false, saveDisabled := true, rescanDisabled := true }

/-- `runScan` after its `await`. -/
def showScan (s : PairingPage) : Option ScanResponse → PairingPage
  | some data =>
    { s with
      cards := renderCards data
      scannedOnce := true
      resultsShown := true
      saveDisabled := false
      rescanDisabled := false }
  | none => { s with resultsShown := s.resultsShown || s.scannedOnce, rescanDisabled := false }

def setTask (s : PairingPage) (i : ℕ) (pc : PairingPc) : PairingPage := { s with tasks := s.tasks.set i pc }

def startTask (s : PairingPage) (pc : PairingPc) : PairingPage := { s with tasks := s.tasks ++ [pc] }

/-- One event; `none` if it cannot happen now. -/
def step (s : PairingPage) : PairingEvent → Option PairingPage
  | .status i onboarded =>
    match s.tasks[i]? with
    | some .status =>
      if onboarded = some true then some (s.runScan.setTask i (.scan false))
      else some ({ s with loginShown := true }.setTask i .ended)
    | _ => none
  | .submit email password =>
    if s.loginShown = true ∧ s.loginBusy = false then
      if trim email = [] ∨ password = [] then some s
      else some ({ s with loginBusy := true }.startTask (.login (trim email) password))
    else none
  | .loggedIn i ok =>
    match s.tasks[i]? with
    | some (.login _ _) =>
      if ok = some true then some ({ s with loginShown := false }.runScan.setTask i (.scan true))
      else some ({ s with loginBusy := false }.setTask i .ended)
    | _ => none
  | .rescan =>
    if s.scanShown = true ∧ s.rescanDisabled = false then some (s.runScan.startTask (.scan false)) else none
  | .scanned i data =>
    match s.tasks[i]? with
    | some (.scan login) =>
      let s := s.showScan data
      some ({ s with loginBusy := s.loginBusy && !login }.setTask i .ended)
    | _ => none
  | .save =>
    if s.scanShown = true ∧ s.saveDisabled = false then
      match collectRows s.cards with
      | [] => some s
      | rows => some ({ s with saveDisabled := true, rescanDisabled := true }.startTask (.save rows))
    else none
  | .saved i _ =>
    match s.tasks[i]? with
    | some (.save _) => some ({ s with saveDisabled := false, rescanDisabled := false }.setTask i .ended)
    | _ => none
  | .edit k e =>
    if s.resultsShown then
      (s.cards[k]?.bind (·.edit e)).map fun card => { s with cards := s.cards.set k card }
    else none

end PairingPage

end MammotionRc.Web
