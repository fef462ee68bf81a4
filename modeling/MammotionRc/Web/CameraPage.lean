import Mathlib.Data.List.Infix
import MammotionRc.Machine.Run
import MammotionRc.Server.Camera

/-! # The camera of the page

`startCamera`, `stopCamera` and what `selectMower` does to the camera, with the requests that the server works off
in any order. An async function is at one of its awaits; a POST of the page settles at any moment, with the answer
of the server or without it, and a POST that the page has given up stays with the server. What the camera card shows
besides the picture is cosmetic and left out.
-/

namespace MammotionRc.Web

open Machine Server

/-- A client of the video library. -/
structure AgoraClient where
  id : ℕ
  /-- The mower whose channel it was created for. -/
  target : String
deriving DecidableEq, Repr

inductive CameraKind
  | start
  | stop
deriving DecidableEq, Repr

inductive Progress
  /-- On its way, or at the server before its command. -/
  | waiting
  /-- The server sent the command. -/
  | carried
  /-- The server answered with an error. -/
  | refused
  /-- It never reached the server. -/
  | lost
deriving DecidableEq, Repr

/-- A POST of the page. -/
structure CameraRequest where
  name : String
  kind : CameraKind
  progress : Progress
deriving DecidableEq, Repr

/-- A `device_agora_join_channel_with_position` that the server sent. -/
structure CameraCommand where
  request : ℕ
  name : String
  enterState : ℕ
deriving DecidableEq, Repr

/-- Where `startCameraInner` waits. -/
inductive StartPc
  | posting
  | joining (client : AgoraClient)
  | leaving
deriving DecidableEq, Repr

structure CameraStart where
  target : String
  /-- Its POST. -/
  request : ℕ
  pc : StartPc
deriving DecidableEq, Repr

/-- Where `stopCamera` waits. -/
inductive StopPc
  | leaving
  | posting
deriving DecidableEq, Repr

structure CameraStop where
  /-- `none` in the handler of the stop button. -/
  target : Option String
  pc : StopPc
deriving DecidableEq, Repr

structure CameraPage where
  currentMower : Option String
  agora : Option AgoraClient
  /-- How many clients were created. -/
  clients : ℕ
  /-- The `startCamera` that runs, which holds `cam-start` in `pending`. -/
  starting : Option CameraStart
  /-- The `stopCamera` that run. -/
  stops : List CameraStop
  requests : List CameraRequest
  /-- What the server sent to the mowers, oldest first. -/
  commands : List CameraCommand
deriving DecidableEq, Repr

/-- What the video library does with a token. -/
inductive AgoraAnswer
  /-- `AgoraRTC` is undefined. -/
  | missing
  /-- `createClient` throws. -/
  | throws
  | created
deriving DecidableEq, Repr

inductive CameraEvent
  | selectMower (name : String)
  /-- `els.camStart.onclick`. -/
  | camStart
  /-- `els.camStop.onclick`. -/
  | camStop
  /-- The server works off request `i`. -/
  | serve (i : ℕ) (call : CameraCall)
  /-- A POST of a start that does not reach the server. -/
  | lose (i : ℕ)
  /-- The page has the answer to its start; `readable` if the body could be read. -/
  | answered (readable : Bool) (agora : AgoraAnswer)
  /-- The POST of the start fails or reaches its deadline. -/
  | failed
  | joined
  /-- `join` throws or does not settle in time. -/
  | joinFailed
  /-- `leave` settles in `startCameraInner`. -/
  | startLeft
  /-- `leave` settles in the `stopCamera` at position `n`. -/
  | stopLeft (n : ℕ)
  /-- The POST of the `stopCamera` at position `n` settles. -/
  | stopSettled (n : ℕ)
deriving DecidableEq, Repr

namespace CameraPage

def init : CameraPage := ⟨none, none, 0, none, [], [], []⟩

/-- `fetch` of a camera request. -/
def post (s : CameraPage) (name : String) (kind : CameraKind) : CameraPage :=
  { s with requests := s.requests ++ [⟨name, kind, .waiting⟩] }

/-- `stopCamera` from where it reads the name. -/
def postStop (s : CameraPage) (target : Option String) : CameraPage :=
  match target <|> s.currentMower with
  | some name => if name = "" then s else { s.post name .stop with stops := s.stops ++ [⟨target, .posting⟩] }
  | none => s

def stopCamera (s : CameraPage) (target : Option String) : CameraPage :=
  if s.agora.isSome then { s with agora := none, stops := s.stops ++ [⟨target, .leaving⟩] } else s.postStop target

/-- `prev || name`. -/
def previousOr (prev : Option String) (name : String) : String :=
  match prev with
  | some prev => if prev = "" then name else prev
  | none => name

/-- `selectMower`, as far as the camera is concerned. -/
def selectMower (s : CameraPage) (name : String) : CameraPage :=
  { s with currentMower := some name }.stopCamera (some (previousOr s.currentMower name))

def startCamera (s : CameraPage) : CameraPage :=
  match s.currentMower with
  | some name =>
    if name = "" ∨ s.starting.isSome then s
    else { s.post name .start with starting := some ⟨name, s.requests.length, .posting⟩ }
  | none => s

/-- The stop button does nothing while its `stopCamera` runs. -/
def camStop (s : CameraPage) : CameraPage :=
  if s.stops.any fun stop => stop.target.isNone then s else s.stopCamera none

def setProgress (s : CameraPage) (i : ℕ) (progress : Progress) : CameraPage :=
  { s with requests := s.requests.modify i fun r => { r with progress } }

def serve (s : CameraPage) (i : ℕ) (r : CameraRequest) (answer : Except CameraError ℕ) : CameraPage :=
  match answer with
  | .ok enterState => { s.setProgress i .carried with commands := s.commands ++ [⟨i, r.name, enterState⟩] }
  | .error _ => s.setProgress i .refused

/-- `startCameraInner` once it has a token. -/
def enter (s : CameraPage) (start : CameraStart) (agora : AgoraAnswer) : CameraPage :=
  if some start.target ≠ s.currentMower then { s with starting := none }
  else
    match agora with
    | .missing | .throws => { s with starting := none }
    | .created =>
      let client : AgoraClient := ⟨s.clients, start.target⟩
      { s with agora := some client, clients := s.clients + 1, starting := some { start with pc := .joining client } }

/-- `if (agora === client) agora = null`, and `leave`. -/
def leave (s : CameraPage) (start : CameraStart) (client : AgoraClient) : CameraPage :=
  { s with
    agora := if s.agora = some client then none else s.agora
    starting := some { start with pc := .leaving } }

/-- One event; `none` if it cannot happen now. -/
def step (s : CameraPage) : CameraEvent → Option CameraPage
  | .selectMower name => some (s.selectMower name)
  | .camStart => some s.startCamera
  | .camStop => some s.camStop
  | .serve i call =>
    match s.requests[i]? with
    | some r =>
      if r.progress ≠ .waiting then none
      else
        match r.kind, call.cameraStop with
        | .start, _ => some (s.serve i r call.cameraStart)
        -- a stop that the page sends is carried out
        | .stop, .ok enterState => some (s.serve i r (.ok enterState))
        | .stop, .error _ => none
    | none => none
  | .lose i =>
    match s.requests[i]? with
    | some r => if r.progress = .waiting ∧ r.kind = .start then some (s.setProgress i .lost) else none
    | none => none
  | .answered readable agora =>
    match s.starting with
    | some ⟨target, i, .posting⟩ =>
      match (s.requests[i]?).map CameraRequest.progress with
      | some .carried =>
        some (if readable then s.enter ⟨target, i, .posting⟩ agora else { s with starting := none })
      | some .refused => some { s with starting := none }
      | _ => none
    | _ => none
  | .failed =>
    match s.starting with
    | some ⟨_, _, .posting⟩ => some { s with starting := none }
    | _ => none
  | .joined =>
    match s.starting with
    | some ⟨target, i, .joining client⟩ =>
      if some target ≠ s.currentMower ∨ s.agora ≠ some client then
        some (s.leave ⟨target, i, .joining client⟩ client)
      else some { s with starting := none }
    | _ => none
  | .joinFailed =>
    match s.starting with
    | some ⟨target, i, .joining client⟩ => some (s.leave ⟨target, i, .joining client⟩ client)
    | _ => none
  | .startLeft =>
    match s.starting with
    | some ⟨_, _, .leaving⟩ => some { s with starting := none }
    | _ => none
  | .stopLeft n =>
    match s.stops[n]? with
    | some ⟨target, .leaving⟩ => some ({ s with stops := s.stops.eraseIdx n }.postStop target)
    | _ => none
  | .stopSettled n =>
    match s.stops[n]? with
    | some ⟨_, .posting⟩ => some { s with stops := s.stops.eraseIdx n }
    | _ => none

end CameraPage

end MammotionRc.Web
