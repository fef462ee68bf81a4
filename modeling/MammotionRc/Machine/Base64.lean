import Mathlib.Data.List.Basic

/-! # Base64 as Python decodes it

`base64.b64decode` skips what is no digit, stops at the padding that fills up the last quadruple and refuses a
quadruple that is not full.
-/

namespace MammotionRc.Machine.Base64

/-- The value of a digit. -/
def sextet? (b : UInt8) : Option ℕ :=
  if 0x41 ≤ b ∧ b ≤ 0x5A then some (b.toNat - 0x41)
  else if 0x61 ≤ b ∧ b ≤ 0x7A then some (b.toNat - 0x61 + 26)
  else if 0x30 ≤ b ∧ b ≤ 0x39 then some (b.toNat - 0x30 + 52)
  else if b = 0x2B then some 62
  else if b = 0x2F then some 63
  else none

/-- `binascii.a2b_base64` after `quad` digits of a quadruple whose bits `leftchar` are not used up, and `pads` of
its padding. -/
def decodeFrom (quad leftchar pads : ℕ) : List UInt8 → Option (List UInt8)
  | [] => if quad = 0 then some [] else none
  | b :: rest =>
    if b = 0x3D then
      if 2 ≤ quad then if 4 ≤ quad + (pads + 1) then some [] else decodeFrom quad leftchar (pads + 1) rest
      else decodeFrom quad leftchar pads rest
    else
      match sextet? b with
      | none => decodeFrom quad leftchar pads rest
      | some v =>
        match quad with
        | 0 => decodeFrom 1 v 0 rest
        | 1 => (decodeFrom 2 (v % 16) 0 rest).map (UInt8.ofNat (leftchar * 4 + v / 16) :: ·)
        | 2 => (decodeFrom 3 (v % 4) 0 rest).map (UInt8.ofNat (leftchar * 16 + v / 4) :: ·)
        | _ => (decodeFrom 0 0 0 rest).map (UInt8.ofNat (leftchar * 64 + v) :: ·)

/-- `base64.b64decode`; `none` if it raises. -/
def b64decode (bytes : List UInt8) : Option (List UInt8) := decodeFrom 0 0 0 bytes

example : b64decode ("bHViYTpzZWNyZXQ=".toList.flatMap String.utf8EncodeChar) =
    some ("luba:secret".toList.flatMap String.utf8EncodeChar) := by decide

end MammotionRc.Machine.Base64
