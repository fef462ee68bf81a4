import Mathlib.Data.Int.Notation
import Mathlib.Data.Nat.Notation

/-! # The camera requests of the server

`camera_start` and `camera_stop` up to the command that joins the mower to its video channel or makes it leave.
What comes after that command (the report stream and the answer) cannot fail. The cloud and the transport answer
as they like.
-/

namespace MammotionRc.Server

inductive CameraError
  /-- `HTTPException(404, ...)`. -/
  | unknownMower
  /-- `HTTPException(400, ...)`. -/
  | noIotId
  /-- `HTTPException(502, ...)`. -/
  | subscriptionFailed
  /-- Any other exception of a call. -/
  | raised
deriving DecidableEq, Repr

/-- What `get_stream_subscription` returns, as far as it is checked. -/
structure StreamSubscription where
  code : ℤ
  hasData : Bool
deriving DecidableEq, Repr

/-- What a camera handler finds. -/
structure CameraCall where
  /-- The `iot_id` of the mower, if it is configured. -/
  cfg : Option (Option String)
  /-- The mower has a handle. -/
  handle : Bool
  /-- `_ensure_http` returns. -/
  http : Bool
  /-- `none` if the request raises. -/
  subscription : Option StreamSubscription
  /-- `send_raw` does not raise. -/
  sends : Bool
deriving DecidableEq, Repr

namespace CameraCall

/-- `h.send_raw(device_agora_join_channel_with_position(enter_state))`. -/
def sendEnter (c : CameraCall) (enterState : ℕ) : Except CameraError ℕ :=
  if c.sends then .ok enterState else .error .raised

/-- `camera_start`: the `enter_state` that was sent. -/
def cameraStart (c : CameraCall) : Except CameraError ℕ :=
  match c.cfg with
  | none => .error .unknownMower
  | some none => .error .noIotId
  | some (some _) =>
    if !c.handle then .error .unknownMower
    else if !c.http then .error .raised
    else
      match c.subscription with
      | none => .error .raised
      | some sub => if sub.code ≠ 0 ∨ !sub.hasData then .error .subscriptionFailed else c.sendEnter 1

/-- `camera_stop`. -/
def cameraStop (c : CameraCall) : Except CameraError ℕ :=
  if !c.handle then .error .unknownMower else c.sendEnter 0

end CameraCall

end MammotionRc.Server
