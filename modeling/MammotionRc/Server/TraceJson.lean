import MammotionRc.Machine.Hex
import MammotionRc.Machine.OrderedDict
import MammotionRc.Machine.PyValue

/-! # The rendering of traced frames (app.py)

A decoded frame is a graph of Python objects, which may have cycles: containers, dataclass instances and other
objects lie in a heap and are reached through references. Of a key, of the value of an enum member and of an
object of any other type, only what `str` or `repr` makes of it matters, a text or an exception.
-/

namespace MammotionRc.Server

open Machine

def TRACE_MAX_ITEMS : ℕ := 64
def TRACE_MAX_DEPTH : ℕ := 6
def TRACE_MAX_STR : ℕ := 512

/-- The text of an object, or the text of the exception that is raised instead. -/
abbrev Shown := Except PyStr PyStr

/-- The items of a string or a container, of which there are at most `sys.maxsize`. -/
abbrev Sized (α : Type*) := { items : List α // items.length < 2 ^ 63 }

/-- A value that is traced. `float none` is an infinity or NaN. A member of an enum that is an `int`, a `float` or a
`str` as well is one of these, as the code asks for them first. -/
inductive TraceValue (Ref : Type*)
  | none
  | bool (b : Bool)
  | int (n : ℤ)
  | float (x : Option ℚ)
  | str (s : Sized PyChar)
  | enum (typeName : List Char) (name : PyStr) (value : Shown)
  | bytes (data : Sized UInt8)
  | ref (r : Ref)

/-- What an object holds: a `dict` its items by keys, a list, tuple or set its items in the order of iteration, a
dataclass instance the attributes for its fields, of which `none` raises. -/
inductive TraceContent (Ref : Type*)
  | dict (items : Sized (Shown × TraceValue Ref))
  | sequence (items : Sized (TraceValue Ref))
  | dataclass (fields : List (PyStr × Option (TraceValue Ref))) (distinct : (fields.map Prod.fst).Nodup)
  | other (repr : Shown)

structure TraceObject (Ref : Type*) where
  typeName : List Char
  content : TraceContent Ref

/-- A number in the middle of a text. -/
def numbered (before : String) (n : ℕ) (after : String) : PyStr :=
  PyStr.ofChars (before.toList ++ Nat.toDigits 10 n ++ after.toList)

/-- A string with its marker, if it is too long. -/
def traceStr (s : PyStr) : PyStr :=
  if s.length ≤ TRACE_MAX_STR then s
  else s.take TRACE_MAX_STR ++ numbered "…(+" (s.length - TRACE_MAX_STR) " chars)"

def traceBytes (data : List UInt8) : PyValue :=
  .dict ([(PyStr.lit "_bytes_len", .int data.length),
      (PyStr.lit "hex", .str (PyStr.ofChars ((data.take TRACE_MAX_ITEMS).flatMap Hex.lowerByte)))] ++
    if TRACE_MAX_ITEMS < data.length then [(PyStr.lit "_truncated", .bool true)] else [])

def depthLimit (typeName : List Char) : PyStr := PyStr.ofChars ('<' :: typeName ++ " — depth limit>".toList)

def unrenderable (typeName : List Char) (exc : PyStr) : PyStr :=
  PyStr.ofChars ("<unrenderable ".toList ++ typeName ++ ": ".toList) ++ exc ++ PyStr.lit ">"

variable {Ref : Type*}

/-- The fields that are rendered: their attribute can be read and is not `None`. -/
def presentFields (fields : List (PyStr × Option (TraceValue Ref))) : List (PyStr × TraceValue Ref) :=
  fields.filterMap fun field =>
    match field.2 with
    | some .none | none => none
    | some val => some (field.1, val)

/-- The branches for containers and other objects; `render` is the call one level deeper. -/
def traceContent (render : TraceValue Ref → Except PyStr PyValue) : TraceContent Ref → Except PyStr PyValue
  | .dict items => do
    let pairs ← (items.val.take TRACE_MAX_ITEMS).mapM fun item => do
      let key ← item.1
      let x ← render item.2
      pure (key, x)
    let out := OrderedDict.ofPairs pairs
    pure <| .dict <| OrderedDict.items <|
      if TRACE_MAX_ITEMS < items.val.length then
        out.set (PyStr.lit "_truncated") (.str (numbered "+" (items.val.length - TRACE_MAX_ITEMS) " more keys"))
      else out
  | .sequence items => do
    let out ← (items.val.take TRACE_MAX_ITEMS).mapM render
    pure <| .list <|
      if TRACE_MAX_ITEMS < items.val.length then
        out ++ [.str (numbered "…(+" (items.val.length - TRACE_MAX_ITEMS) " more of " ++
          numbered "" items.val.length ")")]
      else out
  | .dataclass fields _ => do
    let out ← (presentFields fields).mapM fun field => do
      let x ← render field.2
      pure (field.1, x)
    pure (.dict out)
  | .other repr => do
    let text ← repr
    pure (.str (text.take TRACE_MAX_STR))

variable (heap : Ref → TraceObject Ref)

/-- `type(v).__name__`. -/
def TraceValue.typeName : TraceValue Ref → List Char
  | .none => "NoneType".toList
  | .bool _ => "bool".toList
  | .int _ => "int".toList
  | .float _ => "float".toList
  | .str _ => "str".toList
  | .enum typeName _ _ => typeName
  | .bytes _ => "bytes".toList
  | .ref r => (heap r).typeName

/-- What is tried; at the depth limit there is no call one level deeper. -/
def traceBody (render : Option (TraceValue Ref → Except PyStr PyValue)) : TraceValue Ref → Except PyStr PyValue
  | .none => pure .none
  | .bool b => pure (.bool b)
  | .int n => pure (.int n)
  | .float x => pure (.float x)
  | .str s => pure (.str (traceStr s.val))
  | .enum _ name value => do
    let text ← value
    pure (.str (name ++ PyStr.lit "(" ++ text ++ PyStr.lit ")"))
  | .bytes data => pure (traceBytes data.val)
  | .ref r =>
    match render with
    | none => pure (.str (depthLimit (heap r).typeName))
    | some render => traceContent render (heap r).content

/-- The `except` clause. -/
def traceGuarded (v : TraceValue Ref) (body : Except PyStr PyValue) : Except PyStr PyValue :=
  tryCatch body fun exc => pure (.str (unrenderable (v.typeName heap) exc))

/-- `_trace_jsonable` at the depth `TRACE_MAX_DEPTH - left`. -/
def traceJsonable : ℕ → TraceValue Ref → Except PyStr PyValue
  | 0, v => traceGuarded heap v (traceBody heap none v)
  | left + 1, v => traceGuarded heap v (traceBody heap (some (traceJsonable left)) v)

/-! ## What every value is rendered to -/

/-- What the `except` clause makes of the outcome. -/
def settled (typeName : List Char) : Except PyStr PyValue → PyValue
  | .ok out => out
  | .error exc => .str (unrenderable typeName exc)

variable {heap}

theorem traceGuarded_eq (v : TraceValue Ref) (body : Except PyStr PyValue) :
    traceGuarded heap v body = .ok (settled (v.typeName heap) body) := by
  cases body <;> rfl

/-- The rendering ends and raises nothing. -/
theorem traceJsonable_total (left : ℕ) (v : TraceValue Ref) : ∃ out, traceJsonable heap left v = .ok out := by
  cases left with
  | zero => exact ⟨_, traceGuarded_eq v _⟩
  | succ left => exact ⟨_, traceGuarded_eq v _⟩

end MammotionRc.Server
