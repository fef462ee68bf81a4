import MammotionRc.Machine.Hex
import MammotionRc.Machine.PyValue
import MammotionRc.Machine.Utf8

/-! # Strict JSON

What `json.dumps(v, ensure_ascii=False, allow_nan=False)` writes, and its bytes in UTF-8. The writer raises at a
float that is not finite, at an integer with too many digits and at an object; the codec raises at a surrogate.
So a value has bytes if and only if nothing of this is anywhere in it. The text of a finite float is a parameter.
-/

namespace MammotionRc.Machine

namespace PyValue

theorem inductionOn {motive : PyValue → Prop} (v : PyValue) (none : motive .none) (bool : ∀ b, motive (.bool b))
    (int : ∀ n, motive (.int n)) (float : ∀ x, motive (.float x)) (str : ∀ s, motive (.str s))
    (list : ∀ items, (∀ x ∈ items, motive x) → motive (.list items))
    (dict : ∀ items, (∀ item ∈ items, motive item.2) → motive (.dict items)) (object : motive .object) :
    motive v :=
  @PyValue.rec motive (fun items => ∀ x ∈ items, motive x) (fun items => ∀ item ∈ items, motive item.2)
    (fun item => motive item.2) none bool int float str list dict object
    (List.forall_mem_nil _) (fun _ _ first rest => List.forall_mem_cons.mpr ⟨first, rest⟩)
    (List.forall_mem_nil _) (fun _ _ first rest => List.forall_mem_cons.mpr ⟨first, rest⟩)
    (fun _ _ value => value) v

mutual

/-- Something holds of the value, of all values in it and of their keys. -/
def All (p : PyValue → Prop) : PyValue → Prop
  | .list items => p (.list items) ∧ AllItems p items
  | .dict items => p (.dict items) ∧ AllEntries p items
  | v => p v

def AllItems (p : PyValue → Prop) : List PyValue → Prop
  | [] => True
  | x :: rest => All p x ∧ AllItems p rest

def AllEntries (p : PyValue → Prop) : List (PyStr × PyValue) → Prop
  | [] => True
  | (key, x) :: rest => (p (.str key) ∧ All p x) ∧ AllEntries p rest

end

mutual

/-- How deep lists and dictionaries are nested. -/
def nesting : PyValue → ℕ
  | .list items => nestingItems items + 1
  | .dict items => nestingEntries items + 1
  | _ => 0

def nestingItems : List PyValue → ℕ
  | [] => 0
  | x :: rest => max (nesting x) (nestingItems rest)

def nestingEntries : List (PyStr × PyValue) → ℕ
  | [] => 0
  | (_, x) :: rest => max (nesting x) (nestingEntries rest)

end

variable {p q : PyValue → Prop} {items : List PyValue} {entries : List (PyStr × PyValue)} {n : ℕ}

attribute [local simp] All AllItems AllEntries nesting nestingItems nestingEntries

theorem all_list : All p (.list items) ↔ p (.list items) ∧ ∀ x ∈ items, All p x := by
  have each : AllItems p items ↔ ∀ x ∈ items, All p x := by
    induction items with
    | nil => simp
    | cons x rest ih => rw [AllItems, ih, List.forall_mem_cons]
  rw [All, each]

theorem all_dict :
    All p (.dict entries) ↔ p (.dict entries) ∧ ∀ entry ∈ entries, p (.str entry.1) ∧ All p entry.2 := by
  have each : AllEntries p entries ↔ ∀ entry ∈ entries, p (.str entry.1) ∧ All p entry.2 := by
    induction entries with
    | nil => simp
    | cons entry rest ih => rw [AllEntries, ih, List.forall_mem_cons]
  rw [All, each]

theorem nesting_list_le : nesting (.list items) ≤ n + 1 ↔ ∀ x ∈ items, nesting x ≤ n := by
  have each : nestingItems items ≤ n ↔ ∀ x ∈ items, nesting x ≤ n := by
    induction items with
    | nil => simp
    | cons x rest ih => rw [nestingItems, Nat.max_le, ih, List.forall_mem_cons]
  rw [nesting, Nat.add_le_add_iff_right, each]

theorem nesting_dict_le : nesting (.dict entries) ≤ n + 1 ↔ ∀ entry ∈ entries, nesting entry.2 ≤ n := by
  have each : nestingEntries entries ≤ n ↔ ∀ entry ∈ entries, nesting entry.2 ≤ n := by
    induction entries with
    | nil => simp
    | cons entry rest ih => rw [nestingEntries, Nat.max_le, ih, List.forall_mem_cons]
  rw [nesting, Nat.add_le_add_iff_right, each]

theorem all_and {v : PyValue} : All (fun w => p w ∧ q w) v ↔ All p v ∧ All q v := by
  induction v using inductionOn with
  | list items ih =>
    simp only [all_list]
    rw [forall₂_congr ih]
    grind
  | dict entries ih =>
    simp only [all_dict]
    grind
  | _ => simp only [All]

end PyValue

/-! ## The writer -/

namespace PyJson

/-- The short escape of a character, if it has one. -/
def escape? (c : Char) : Option Char :=
  if c = '"' then some '"'
  else if c = '\\' then some '\\'
  else if c = '\n' then some 'n'
  else if c = '\r' then some 'r'
  else if c = '\t' then some 't'
  else if c = '\x08' then some 'b'
  else if c = '\x0C' then some 'f'
  else none

/-- A character between the quotes of a string. -/
def escaped : PyChar → PyStr
  | .surrogate i => [.surrogate i]
  | .char c => PyStr.ofChars <|
    match escape? c with
    | some letter => ['\\', letter]
    | none =>
      if c.toNat < 0x20 then ['\\', 'u', '0', '0', Hex.lowerDigit (c.toNat / 16), Hex.lowerDigit (c.toNat % 16)]
      else [c]

def quote (s : PyStr) : PyStr := .char '"' :: s.flatMap escaped ++ [.char '"']

/-- Pieces with commas between them, in brackets. -/
def bracket (opens closes : Char) (pieces : List PyStr) : PyStr :=
  .char opens :: [.char ','].intercalate pieces ++ [.char closes]

variable (floatText : ℚ → List Char)

mutual

/-- `json.dumps(v, ensure_ascii=False, allow_nan=False, separators=(",", ":"))`; `none` if it raises. -/
def dumps? : PyValue → Option PyStr
  | .none => some (PyStr.lit "null")
  | .bool b => some (PyStr.lit (if b then "true" else "false"))
  | .int n => (PyInt.str? n).map PyStr.ofChars
  | .float x => x.map fun x => PyStr.ofChars (floatText x)
  | .str s => some (quote s)
  | .list items => (dumpsItems? items).map (bracket '[' ']')
  | .dict entries => (dumpsEntries? entries).map (bracket '{' '}')
  | .object => none

def dumpsItems? : List PyValue → Option (List PyStr)
  | [] => some []
  | x :: rest => do
    let text ← dumps? x
    let texts ← dumpsItems? rest
    some (text :: texts)

def dumpsEntries? : List (PyStr × PyValue) → Option (List PyStr)
  | [] => some []
  | (key, x) :: rest => do
    let text ← dumps? x
    let texts ← dumpsEntries? rest
    some ((quote key ++ .char ':' :: text) :: texts)

end

/-- `json.dumps(…).encode("utf-8")`. -/
def encode? (v : PyValue) : Option (List UInt8) :=
  (dumps? floatText v).bind fun text => text.chars?.map Utf8.encode

/-- Nothing of the value itself makes the writer or the codec raise. -/
def Encodes : PyValue → Prop
  | .int n => ∃ text, PyInt.str? n = some text
  | .float x => x ≠ none
  | .str s => s.Encodable
  | .object => False
  | _ => True

section Encodable

variable {s : PyStr} {ch : PyChar} {pieces : List PyStr}

theorem encodable_ofChars (text : List Char) : (PyStr.ofChars text).Encodable :=
  PyStr.encodable_iff.mpr ⟨text, PyStr.chars?_ofChars text⟩

theorem encodable_escaped : (escaped ch).Encodable ↔ ∃ c, ch = .char c := by
  cases ch with
  | surrogate i => simp [escaped, PyStr.Encodable]
  | char c => exact ⟨fun _ => ⟨c, rfl⟩, fun _ => encodable_ofChars _⟩

theorem encodable_quote : (quote s).Encodable ↔ s.Encodable := by
  have inner : PyStr.Encodable (s.flatMap escaped) ↔ s.Encodable := by
    simp only [PyStr.Encodable, List.mem_flatMap, forall_exists_index, and_imp]
    refine ⟨fun all ch mem => ?_, fun all c ch mem inside => ?_⟩
    · exact encodable_escaped.mp fun c inside => all c ch mem inside
    · exact encodable_escaped.mpr (all ch mem) c inside
  have mark : PyStr.Encodable [.char '"'] := encodable_ofChars ['"']
  have split : quote s = [PyChar.char '"'] ++ s.flatMap escaped ++ [PyChar.char '"'] := rfl
  rw [split, PyStr.encodable_append, PyStr.encodable_append, inner]
  exact ⟨fun both => both.1.2, fun all => ⟨⟨mark, all⟩, mark⟩⟩

theorem encodable_intercalate : PyStr.Encodable ([.char ','].intercalate pieces) ↔ ∀ t ∈ pieces, t.Encodable := by
  induction pieces with
  | nil => simp [PyStr.Encodable]
  | cons first rest ih =>
    cases rest with
    | nil => simp
    | cons second rest =>
      have comma : PyStr.Encodable [.char ','] := encodable_ofChars [',']
      have both : (∀ t ∈ first :: second :: rest, t.Encodable) ↔
          PyStr.Encodable first ∧ ∀ t ∈ second :: rest, t.Encodable := List.forall_mem_cons
      rw [List.intercalate_cons_cons, PyStr.encodable_append, PyStr.encodable_append, ih, both]
      exact ⟨fun all => ⟨all.1.1, all.2⟩, fun all => ⟨⟨all.1, comma⟩, all.2⟩⟩

theorem encodable_bracket {opens closes : Char} :
    (bracket opens closes pieces).Encodable ↔ ∀ t ∈ pieces, t.Encodable := by
  have mark (c : Char) : PyStr.Encodable [.char c] := encodable_ofChars [c]
  have split : bracket opens closes pieces =
      [PyChar.char opens] ++ [PyChar.char ','].intercalate pieces ++ [PyChar.char closes] := rfl
  rw [split, PyStr.encodable_append, PyStr.encodable_append, encodable_intercalate]
  exact ⟨fun both => both.1.2, fun all => ⟨⟨mark opens, all⟩, mark closes⟩⟩

end Encodable

attribute [local simp] dumps? dumpsItems? dumpsEntries?

/-- The value has a text, and the text has bytes. -/
def Writable (v : PyValue) : Prop := ∃ text, dumps? floatText v = some text ∧ text.Encodable

variable {floatText}

theorem writable_list {items : List PyValue} :
    Writable floatText (.list items) ↔ ∀ x ∈ items, Writable floatText x := by
  have each : (∃ texts, dumpsItems? floatText items = some texts ∧ ∀ t ∈ texts, t.Encodable) ↔
      ∀ x ∈ items, Writable floatText x := by
    induction items with
    | nil => simp
    | cons x rest ih =>
      rw [List.forall_mem_cons, ← ih, Writable, dumpsItems?]
      cases dumps? floatText x with
      | none => simp
      | some text => cases dumpsItems? floatText rest <;> simp
  rw [← each, Writable, dumps?]
  cases dumpsItems? floatText items with
  | none => simp
  | some texts => simp [encodable_bracket]

theorem writable_dict {entries : List (PyStr × PyValue)} : Writable floatText (.dict entries) ↔
    ∀ entry ∈ entries, entry.1.Encodable ∧ Writable floatText entry.2 := by
  have each : (∃ texts, dumpsEntries? floatText entries = some texts ∧ ∀ t ∈ texts, t.Encodable) ↔
      ∀ entry ∈ entries, entry.1.Encodable ∧ Writable floatText entry.2 := by
    induction entries with
    | nil => simp
    | cons entry rest ih =>
      have colon (text : PyStr) : PyStr.Encodable (quote entry.1 ++ .char ':' :: text) ↔
          entry.1.Encodable ∧ text.Encodable := by
        have mark : PyStr.Encodable [.char ':'] := encodable_ofChars [':']
        rw [← List.singleton_append, PyStr.encodable_append, PyStr.encodable_append, encodable_quote]
        exact and_congr_right fun _ => and_iff_right mark
      rw [List.forall_mem_cons, ← ih, Writable, dumpsEntries?]
      cases dumps? floatText entry.2 with
      | none => simp
      | some text => cases dumpsEntries? floatText rest <;> simp [colon]
  rw [← each, Writable, dumps?]
  cases dumpsEntries? floatText entries with
  | none => simp
  | some texts => simp [encodable_bracket]

theorem writable_iff {v : PyValue} : Writable floatText v ↔ v.All Encodes := by
  induction v using PyValue.inductionOn with
  | none => simp [Writable, PyValue.All, Encodes, PyStr.lit, encodable_ofChars]
  | bool b => simp [Writable, PyValue.All, Encodes, PyStr.lit, encodable_ofChars]
  | int n => simp [Writable, PyValue.All, Encodes, encodable_ofChars]
  | float x => cases x <;> simp [Writable, PyValue.All, Encodes, encodable_ofChars]
  | str s => simp [Writable, PyValue.All, Encodes, encodable_quote]
  | object => simp [Writable, PyValue.All, Encodes]
  | list items ih =>
    rw [writable_list, PyValue.all_list, forall₂_congr ih]
    exact (and_iff_right trivial).symm
  | dict entries ih =>
    rw [writable_dict, PyValue.all_dict]
    refine Iff.trans ?_ (and_iff_right trivial).symm
    exact forall₂_congr fun entry mem => and_congr_right fun _ => ih entry mem

/-- Strict encoding accepts just the values in which everything can be encoded. -/
theorem encode?_iff {v : PyValue} : (∃ bytes, encode? floatText v = some bytes) ↔ v.All Encodes := by
  have writable : Writable floatText v ↔ v.All Encodes := writable_iff
  simp only [← writable, encode?, Option.bind_eq_some_iff, Option.map_eq_some_iff, Writable, PyStr.encodable_iff]
  constructor
  · rintro ⟨_, text, wrote, chars, has, _⟩
    exact ⟨text, wrote, chars, has⟩
  · rintro ⟨text, wrote, chars, has⟩
    exact ⟨_, text, wrote, chars, has, rfl⟩

end PyJson

end MammotionRc.Machine
