import MammotionRc.Machine.Utf16
import MammotionRc.Packers.PackJs

/-! # The form of the flasher

`validateForm` looks at what the variant shows, and `install` packs every field. The limits of the page count the
units of a text, as `length` does; `TextEncoder` encodes its scalar values.
-/

namespace MammotionRc.Packers.Js

open Machine JsNumber

inductive Variant
  | halow
  | wifi
deriving DecidableEq, Repr

/-- `needsHaLowFields`. -/
def Variant.needsHaLowFields : Variant → Bool
  | .halow => true
  | .wifi => false

/-- The values of the form's elements. -/
structure FlasherForm where
  variant : Variant
  uplinkSsid : JsString
  uplinkPass : JsString
  region : JsString
  softapSsid : JsString
  softapPass : JsString
  softapChannel : JsString
deriving DecidableEq, Repr

/-- The options of the region. -/
def REGIONS : List String := ["AU", "CA", "EU", "IN", "JP", "KR", "NZ", "SG", "US"]

/-- A text that an input element with a `maxlength` takes. -/
def MayType (maxlength : ℕ) (s : JsString) : Prop := s.length ≤ maxlength ∧ 0x0A ∉ s ∧ 0x0D ∉ s

instance (maxlength : ℕ) (s : JsString) : Decidable (MayType maxlength s) := inferInstanceAs (Decidable (_ ∧ _ ∧ _))

namespace FlasherForm

/-- What the constraints of the page leave. -/
structure Allowed (f : FlasherForm) : Prop where
  uplinkSsid : MayType 32 f.uplinkSsid
  uplinkPass : MayType 63 f.uplinkPass
  region : f.region ∈ REGIONS.map fun s => Utf16.encode s.toList
  softapSsid : MayType 32 f.softapSsid
  softapPass : MayType 63 f.softapPass

/-- `!s.trim()`. -/
def isBlank (s : JsString) : Bool := (Utf16.scalars s).all isSpace

/-- `ch >= lo && ch <= hi`, which no NaN and no infinity passes. -/
def between (lo hi : ℤ) : JsNumber → Bool
  | .fin ch => lo ≤ ch ∧ ch ≤ hi
  | _ => false

/-- The checks of `validateForm` that fail, with their messages. -/
def failures (f : FlasherForm) : List String :=
  (if isBlank f.uplinkSsid then ["Enter the uplink SSID."] else []) ++
    (if f.uplinkPass = [] then ["Enter the uplink password."] else []) ++
    if f.variant.needsHaLowFields then
      (if isBlank f.softapSsid then ["Enter the SoftAP SSID."] else []) ++
        (if f.softapPass.length < 8 then ["SoftAP password must be ≥8 chars (WPA2)."] else []) ++
        (if between 1 14 (parseInt (Utf16.scalars f.softapChannel)) then [] else ["SoftAP channel must be 1–14."])
    else []

/-- `validateForm`, with the message that it shows. -/
def validateForm (f : FlasherForm) : Bool × String := (f.failures.isEmpty, f.failures.headD "")

def collectFormValues (f : FlasherForm) : FormValues :=
  ⟨Utf16.scalars f.uplinkSsid, Utf16.scalars f.uplinkPass, Utf16.scalars f.region, Utf16.scalars f.softapSsid,
    Utf16.scalars f.softapPass, Utf16.scalars f.softapChannel⟩

end FlasherForm

end MammotionRc.Packers.Js
