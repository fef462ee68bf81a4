import Mathlib.Data.List.Basic

/-! # UTF-16 with unpaired surrogates

A string of JavaScript is a sequence of code units. As text it has U+FFFD in the place of each surrogate without a
partner.
-/

namespace MammotionRc.Machine

abbrev JsString := List UInt16

namespace Utf16

def encodeChar (c : Char) : JsString :=
  if c.toNat < 0x10000 then [UInt16.ofNat c.toNat]
  else [UInt16.ofNat (0xD800 + (c.toNat - 0x10000) / 0x400), UInt16.ofNat (0xDC00 + (c.toNat - 0x10000) % 0x400)]

def encode (text : List Char) : JsString := text.flatMap encodeChar

def isHigh (u : UInt16) : Bool := 0xD800 ≤ u ∧ u < 0xDC00

def isLow (u : UInt16) : Bool := 0xDC00 ≤ u ∧ u < 0xE000

/-- The character of a pair of surrogates. -/
def pair (u v : UInt16) : Char := .ofNat (0x10000 + (u.toNat - 0xD800) * 0x400 + (v.toNat - 0xDC00))

/-- The character of a unit by itself. -/
def single (u : UInt16) : Char := if isHigh u || isLow u then '\uFFFD' else .ofNat u.toNat

/-- The scalar values of a string. -/
def scalars : JsString → List Char
  | [] => []
  | [u] => [single u]
  | u :: v :: rest => if isHigh u && isLow v then pair u v :: scalars rest else single u :: scalars (v :: rest)

end Utf16

end MammotionRc.Machine
