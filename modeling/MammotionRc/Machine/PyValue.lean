import Mathlib.Data.Rat.Floor
import MammotionRc.Machine.PyInt

/-! # Values of Python

The values that a reader of JSON or TOML makes, and what a program does with one without looking at its type: it
asks whether the value is true, iterates over it, looks something up in it or converts it to a number. Each of
these but the first can raise. A string may hold lone surrogates, which have no encoding.
-/

namespace MammotionRc.Machine

inductive PyChar
  | char (c : Char)
  | surrogate (i : Fin 0x800)
deriving DecidableEq, Repr

abbrev PyStr := List PyChar

namespace PyStr

/-- The string of a text. -/
def ofChars (text : List Char) : PyStr := text.map .char

def lit (s : String) : PyStr := ofChars s.toList

/-- The text of a string without surrogates. -/
def chars? (s : PyStr) : Option (List Char) :=
  s.mapM fun
    | .char c => some c
    | .surrogate _ => none

def isSpace : PyChar → Bool
  | .char c => PyText.isSpace c
  | .surrogate _ => false

/-- `s.replace(old, new)` of a character. -/
def replace (s : PyStr) (old : Char) (new : List Char) : PyStr :=
  s.flatMap fun ch => if ch = .char old then ofChars new else [ch]

/-- `str.strip()`. -/
def strip (s : PyStr) : PyStr := (s.dropWhile isSpace).rdropWhile isSpace

end PyStr

namespace PyStr

variable {s t : PyStr} {text : List Char}

@[simp] theorem ofChars_append (first second : List Char) :
    ofChars (first ++ second) = ofChars first ++ ofChars second := List.map_append

@[simp] theorem chars?_ofChars (text : List Char) : (ofChars text).chars? = some text := by
  rw [chars?, ofChars]
  induction text with
  | nil => rfl
  | cons c text ih =>
    rw [List.map_cons, List.mapM_cons, ih]
    rfl

/-- A string without surrogates is that of its text. -/
theorem chars?_eq_some_iff : s.chars? = some text ↔ s = ofChars text := by
  refine ⟨fun chars => ?_, fun same => same ▸ chars?_ofChars text⟩
  induction s generalizing text with
  | nil => cases chars; rfl
  | cons ch s ih =>
    rw [chars?, List.mapM_cons, ← chars?] at chars
    cases ch with
    | surrogate i => cases chars
    | char c =>
      simp only [Option.bind_eq_bind, Option.bind_some] at chars
      obtain ⟨more, tail, same⟩ := Option.bind_eq_some_iff.mp chars
      cases same
      rw [ih tail]
      rfl

/-- The string has a text. -/
def Encodable (s : PyStr) : Prop := ∀ ch ∈ s, ∃ c, ch = .char c

theorem encodable_iff : s.Encodable ↔ ∃ text, s.chars? = some text := by
  simp only [chars?_eq_some_iff]
  refine ⟨fun encodable => ?_, ?_⟩
  · induction s with
    | nil => exact ⟨[], rfl⟩
    | cons ch s ih =>
      obtain ⟨c, rfl⟩ := encodable ch List.mem_cons_self
      obtain ⟨text, rfl⟩ := ih fun ch inside => encodable ch (List.mem_cons_of_mem _ inside)
      exact ⟨c :: text, rfl⟩
  · rintro ⟨text, rfl⟩ ch inside
    obtain ⟨c, _, rfl⟩ := List.mem_map.mp inside
    exact ⟨c, rfl⟩

theorem encodable_append : Encodable (s ++ t) ↔ s.Encodable ∧ t.Encodable := List.forall_mem_append

end PyStr

/-- `float x` is the finite number `x`, or an infinity or NaN; `object` is of a type that the others do not cover,
which is neither a number nor a container. -/
inductive PyValue
  | none
  | bool (b : Bool)
  | int (n : ℤ)
  | float (x : Option ℚ)
  | str (s : PyStr)
  | list (items : List PyValue)
  | dict (items : List (PyStr × PyValue))
  | object

namespace PyValue

/-- `bool(v)`. -/
def truthy : PyValue → Bool
  | none => false
  | bool b => b
  | int n => n ≠ 0
  | float x => x ≠ some 0
  | str s => s ≠ []
  | list items => !items.isEmpty
  | dict items => !items.isEmpty
  | object => true

/-- `v or w`. -/
def or (v w : PyValue) : PyValue := if v.truthy then v else w

/-- The items that `for _ in v` runs over. -/
def iterate? : PyValue → Option (List PyValue)
  | str s => some (s.map fun c => .str [c])
  | list items => some items
  | dict items => some (items.map fun item => .str item.1)
  | _ => Option.none

/-- `v.get(key, default)`. -/
def getD? (v : PyValue) (key : String) (default : PyValue) : Option PyValue :=
  match v with
  | dict items => some ((items.lookup (PyStr.lit key)).getD default)
  | _ => Option.none

/-- `v.get(key)`. -/
def get? (v : PyValue) (key : String) : Option PyValue := v.getD? key none

/-- `key in v`. -/
def contains? (v : PyValue) (key : String) : Option Bool :=
  match v with
  | dict items => some (items.any (·.1 = PyStr.lit key))
  | list items => some (items.any fun | str s => s = PyStr.lit key | _ => false)
  | str s => some (decide (PyStr.lit key <:+: s))
  | _ => Option.none

/-- `v[key]`. -/
def getItem? (v : PyValue) (key : String) : Option PyValue :=
  match v with
  | dict items => items.lookup (PyStr.lit key)
  | _ => Option.none

/-- `v.strip()`. -/
def strip? : PyValue → Option PyStr
  | str s => some s.strip
  | _ => Option.none

/-- `int(v)`. -/
def toInt? : PyValue → Option ℤ
  | bool b => some (if b then 1 else 0)
  | int n => some n
  | float x => x.map fun x => if x < 0 then ⌈x⌉ else ⌊x⌋
  | str s => s.chars?.bind PyInt.int?
  | _ => Option.none

/-- A string of one character, which is what `ord` takes. -/
def character? : PyValue → Option PyChar
  | str [c] => some c
  | _ => Option.none

/-- The characters of a string, or of what looks like one to a loop over its items. -/
def characters? (v : PyValue) : Option PyStr := v.iterate?.bind (·.mapM character?)

/-- The text that such a loop sees, if it has one. -/
def text? (v : PyValue) : Option (List Char) := v.characters?.bind PyStr.chars?

@[simp] theorem characters?_str (s : PyStr) : (str s).characters? = some s := by
  rw [characters?, iterate?, Option.bind_some]
  induction s with
  | nil => rfl
  | cons c s ih =>
    rw [List.map_cons, List.mapM_cons, ih]
    rfl

@[simp] theorem text?_str (s : PyStr) : (str s).text? = s.chars? := by
  rw [text?, characters?_str, Option.bind_some]

end PyValue

end MammotionRc.Machine
