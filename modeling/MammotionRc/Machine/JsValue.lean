import Mathlib.Data.Rat.Defs
import MammotionRc.Machine.Utf16

/-! # What `JSON.parse` makes

A program that reads a value without a check meets `undefined` for a property that is missing, and an exception for a
property of `null` or `undefined`. An object of JSON with a property `toString` of its own has no text, since that
property is never a function.
-/

namespace MammotionRc.Machine

/-- A number beyond the doubles is an infinity. -/
inductive JsValue
  | null
  | bool (b : Bool)
  | num (x : ℚ)
  | infinite (negative : Bool)
  | str (s : JsString)
  | arr (items : List JsValue)
  | obj (fields : List (JsString × JsValue))

namespace JsValue

/-- The units of a literal. -/
def lit (s : String) : JsString := Utf16.encode s.toList

/-- A property by its name; `undefined` is `none`. The last of several members with one name counts. -/
def get? (v : JsValue) (key : String) : Option JsValue :=
  match v with
  | .obj fields => (fields.reverse.find? fun field => field.1 = lit key).map Prod.snd
  | _ => none

/-- `v.key` of a value that may be `undefined`; `none` if it raises. -/
def member? (v : Option JsValue) (key : String) : Option (Option JsValue) :=
  match v with
  | none | some .null => none
  | some v => some (v.get? key)

def truthy : Option JsValue → Bool
  | none | some .null => false
  | some (.bool b) => b
  | some (.num x) => x ≠ 0
  | some (.str s) => s ≠ []
  | some (.infinite _) | some (.arr _) | some (.obj _) => true

def isNumber : Option JsValue → Bool
  | some (.num _) | some (.infinite _) => true
  | _ => false

/-- `v` is null or undefined. -/
def isNullish : Option JsValue → Bool
  | none | some .null => true
  | _ => false

/-- `typeof v === "boolean"` gives the boolean. -/
def bool? : Option JsValue → Option Bool
  | some (.bool b) => some b
  | _ => none

mutual

/-- `String(v)` does not raise. -/
def hasText : JsValue → Bool
  | .arr items => haveText items
  | .obj fields => !fields.any fun field => field.1 = lit "toString"
  | _ => true

/-- `items.join()` does not raise. -/
def haveText : List JsValue → Bool
  | [] => true
  | item :: rest => hasText item && haveText rest

end

end JsValue

end MammotionRc.Machine
