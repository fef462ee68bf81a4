import MammotionRc.Machine.Binary64
import MammotionRc.Machine.PyInt
import MammotionRc.Machine.PyValue
import MammotionRc.Server.PyFloat

/-! # Numbers of Python

`max` and `min` keep their first argument unless the second is greater or less, which with a NaN it never is. A
float becomes an integer by dropping its fraction, and `float()` takes numbers and what strings denote.
-/

namespace MammotionRc.Server

open Machine

/-- What a conversion raises. -/
inductive NumberError
  | typeError
  | valueError
  | overflowError
deriving DecidableEq, Repr

namespace PyFloat

/-- `max(a, b)`. -/
def pyMax (a b : PyFloat) : PyFloat := if a.lt b then b else a

/-- `min(a, b)`. -/
def pyMin (a b : PyFloat) : PyFloat := if b.lt a then b else a

/-- `int(x)`. -/
def toInt : PyFloat → Except NumberError ℤ
  | .nan => .error .valueError
  | .inf _ => .error .overflowError
  | .fin x => .ok (if x < 0 then ⌈x⌉ else ⌊x⌋)

/-- `round(x, 2)`. -/
def round2 : PyFloat → PyFloat
  | .fin x => .fin (Binary64.round2 x)
  | x => x

def neg : PyFloat → PyFloat
  | .nan => .nan
  | .inf negative => .inf !negative
  | .fin x => .fin (-x)

/-- The double for a number; from the middle between the greatest double and `2 ** 1024` on it is an infinity. -/
def ofRat (x : ℚ) : PyFloat :=
  if 2 ^ 1024 ≤ |Binary64.nearest x| then .inf (decide (x < 0)) else .fin (Binary64.nearest x)

/-! ## Strings -/

/-- Underscores may stand between digits. -/
def dropUnderscores : Bool → List Char → Option (List Char)
  | _, [] => some []
  | digitBefore, c :: rest =>
    if c = '_' then
      if digitBefore && (rest.head?.map Char.isDigit).getD false then dropUnderscores false rest else none
    else (dropUnderscores c.isDigit rest).map (c :: ·)

/-- The exponent behind a mantissa. -/
def exponent? : List Char → Option ℤ
  | [] => some 0
  | e :: rest =>
    if e.toLower ≠ 'e' then none
    else
      let negative := rest.head? = some '-'
      let digits := if rest.head? = some '-' ∨ rest.head? = some '+' then rest.tail else rest
      if digits ≠ [] ∧ digits.all Char.isDigit then
        some (if negative then -(Nat.ofDigitChars 10 digits 0 : ℤ) else Nat.ofDigitChars 10 digits 0)
      else none

/-- A decimal without a sign. -/
def decimal? (text : List Char) : Option ℚ :=
  let whole := text.takeWhile Char.isDigit
  let rest := text.dropWhile Char.isDigit
  let fraction := if rest.head? = some '.' then rest.tail.takeWhile Char.isDigit else []
  let behind := if rest.head? = some '.' then rest.tail.dropWhile Char.isDigit else rest
  if whole = [] ∧ fraction = [] then none
  else (exponent? behind).map fun exponent : ℤ =>
    (Nat.ofDigitChars 10 (whole ++ fraction) 0 : ℚ) * 10 ^ (exponent - (fraction.length : ℤ))

def unsigned? (text : List Char) : Option PyFloat :=
  let lower := text.map Char.toLower
  if lower = "inf".toList ∨ lower = "infinity".toList then some (.inf false)
  else if lower = "nan".toList then some .nan
  else (decimal? text).map ofRat

/-- The digits of every script as those of ASCII. -/
def asciiDigit (c : Char) : Char := ((PyInt.digit? c).map Nat.digitChar).getD c

/-- `float(text)`; `none` if it raises. -/
def ofText? (text : List Char) : Option PyFloat := do
  let ascii := text.all (·.toNat < 0x80)
  let stripped := (text.dropWhile (PyInt.surrounds ascii)).rdropWhile (PyInt.surrounds ascii)
  match ← dropUnderscores false (stripped.map asciiDigit) with
  | '-' :: body => (unsigned? body).map neg
  | '+' :: body => unsigned? body
  | body => unsigned? body

end PyFloat

/-- What `json.loads` makes of a number or a constant, and what it makes of the rest as far as `float()` looks at it. -/
inductive JsonValue
  | none
  | bool (b : Bool)
  | int (n : ℤ)
  | float (x : PyFloat)
  | str (s : PyStr)
  | list
  | dict
deriving DecidableEq, Repr

/-- `float(v)`. -/
def JsonValue.toFloat : JsonValue → Except NumberError PyFloat
  | none | list | dict => .error .typeError
  | bool b => .ok (.fin (if b then 1 else 0))
  | int n =>
    match PyFloat.ofRat n with
    | .inf _ => .error .overflowError
    | x => .ok x
  | float x => .ok x
  | str s =>
    match s.chars?.bind PyFloat.ofText? with
    | Option.none => .error .valueError
    | some x => .ok x

end MammotionRc.Server
