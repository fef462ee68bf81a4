import MammotionRc.Machine.Hex
import MammotionRc.Machine.PyText
import MammotionRc.Machine.Utf8

/-! # Urlencoded forms

A form writes a blank as a plus sign, keeps some characters of ASCII and escapes the bytes of all others.
`parseQsl` is `urllib.parse.parse_qsl`, which reads every text: an escape that is none stands for itself, and
bytes that are not UTF-8 become U+FFFD. It reads a form as it was written, fields without a value apart.
-/

namespace MammotionRc.Machine.UrlEncoded

/-- The characters that a form does not escape. -/
def keeps (c : Char) : Bool := c.isAlphanum || c ∈ ['*', '-', '.', '_']

def escape (b : UInt8) : List Char := '%' :: Hex.byte b

def encodeChar (c : Char) : List Char :=
  if c = ' ' then ['+'] else if keeps c then [c] else (String.utf8EncodeChar c).flatMap escape

def encode (text : List Char) : List Char := text.flatMap encodeChar

/-- `unquote` after the bytes of a run of ASCII. -/
def unquoteFrom (run : List UInt8) : List Char → List Char
  | [] => Utf8.decodeReplace run
  | c :: rest =>
    match c, rest with
    | '%', high :: low :: rest =>
      match Hex.value? high, Hex.value? low with
      | some h, some l => unquoteFrom (run ++ [UInt8.ofNat (16 * h + l)]) rest
      | _, _ => unquoteFrom (run ++ [0x25]) (high :: low :: rest)
    | c, rest =>
      if c.toNat < 0x80 then unquoteFrom (run ++ [UInt8.ofNat c.toNat]) rest
      else Utf8.decodeReplace run ++ c :: unquoteFrom [] rest

/-- `unquote(text.replace("+", " "))`. -/
def decode (text : List Char) : List Char := unquoteFrom [] (text.map fun c => if c = '+' then ' ' else c)

/-- One field of a form, if it has a value. -/
def parseField (field : List Char) : Option (List Char × List Char) :=
  if '=' ∈ field then
    let (name, value) := PyText.splitOnce '=' field
    if value = [] then none else some (decode name, decode value)
  else none

/-- `parse_qsl`. -/
def parseQsl (qs : List Char) : List (List Char × List Char) := (qs.splitOn '&').filterMap parseField

/-- A field as a form writes it. -/
def field (name value : List Char) : List Char := encode name ++ '=' :: encode value

variable {text : List Char} {c : Char}

theorem keeps_graphic (kept : keeps c = true) : c.toNat < 0x80 ∧ c ∉ ['%', '+', '&', '='] := by
  constructor
  · delta keeps Char.isAlphanum Char.isAlpha Char.isUpper Char.isLower Char.isDigit at kept
    simp only [Bool.or_eq_true, Bool.and_eq_true, decide_eq_true_eq, List.mem_cons, List.not_mem_nil, or_false,
      ge_iff_le, UInt32.le_iff_toNat_le] at kept
    rcases kept with (((upper | lower) | digit) | other)
    · simp at upper
      omega
    · simp at lower
      omega
    · simp at digit
      omega
    · rcases other with rfl | rfl | rfl | rfl <;> decide
  · intro mem
    simp only [List.mem_cons, List.not_mem_nil, or_false] at mem
    rcases mem with rfl | rfl | rfl | rfl <;> revert kept <;> decide

theorem not_mem_separators_of_mem_byte {b : UInt8} (mem : c ∈ Hex.byte b) : c ∉ ['%', '+', '&', '='] := by
  have each : ∀ c ∈ "0123456789ABCDEF".toList, c ∉ ['%', '+', '&', '='] := PyText.forall_of_all (by decide)
  rcases List.mem_pair.mp mem with rfl | rfl <;> exact each _ (Hex.digit_mem _)

/-- A form is ASCII, and its separators are not part of what it encodes. -/
theorem of_mem_encode (mem : c ∈ encode text) : c.toNat < 0x80 ∧ c ≠ '&' ∧ c ≠ '=' := by
  obtain ⟨d, _, mem⟩ := List.mem_flatMap.mp mem
  rw [encodeChar] at mem
  split_ifs at mem with blank kept
  · cases List.mem_singleton.mp mem
    decide
  · cases List.mem_singleton.mp mem
    obtain ⟨ascii, free⟩ := keeps_graphic kept
    simp only [List.mem_cons, not_or] at free
    exact ⟨ascii, free.2.2.1, free.2.2.2.1⟩
  · obtain ⟨b, _, mem⟩ := List.mem_flatMap.mp mem
    rcases List.mem_cons.mp mem with rfl | mem
    · decide
    · have free := not_mem_separators_of_mem_byte mem
      simp only [List.mem_cons, not_or] at free
      have graphic := Hex.graphic_of_isHexDigit (Hex.isHexDigit_of_mem_byte mem)
      exact ⟨by omega, free.2.2.1, free.2.2.2.1⟩

theorem unquoteFrom_ascii (run : List UInt8) (rest : List Char) (ascii : c.toNat < 0x80) (plain : c ≠ '%') :
    unquoteFrom run (c :: rest) = unquoteFrom (run ++ [UInt8.ofNat c.toNat]) rest := by
  rw [unquoteFrom, if_pos ascii]
  exact fun _ _ _ same => absurd same plain

theorem unquoteFrom_escape (run : List UInt8) (b : UInt8) (rest : List Char) :
    unquoteFrom run (escape b ++ rest) = unquoteFrom (run ++ [b]) rest := by
  have high : b.toNat / 16 < 16 := by have := b.toNat_lt; omega
  have low : b.toNat % 16 < 16 := by omega
  have same : UInt8.ofNat (16 * (b.toNat / 16) + b.toNat % 16) = b := by
    rw [Nat.div_add_mod]
    exact UInt8.ofNat_toNat
  rw [escape, Hex.byte, List.cons_append, List.cons_append, List.cons_append, List.nil_append, unquoteFrom]
  simp only [Hex.value?_digit high, Hex.value?_digit low, same]

theorem unquoteFrom_escapes (run bytes : List UInt8) (rest : List Char) :
    unquoteFrom run (bytes.flatMap escape ++ rest) = unquoteFrom (run ++ bytes) rest := by
  induction bytes generalizing run with
  | nil => rw [List.flatMap_nil, List.nil_append, List.append_nil]
  | cons b bytes ih =>
    rw [List.flatMap_cons, List.append_assoc, unquoteFrom_escape, ih, List.append_assoc, List.singleton_append]

/-- What a form writes for a character is read as the bytes of the character. -/
theorem unquoteFrom_encodeChar (run : List UInt8) (c : Char) (rest : List Char) :
    unquoteFrom run ((encodeChar c).map (fun c => if c = '+' then ' ' else c) ++ rest) =
      unquoteFrom (run ++ String.utf8EncodeChar c) rest := by
  rw [encodeChar]
  split_ifs with blank kept
  · subst blank
    exact unquoteFrom_ascii run rest (by decide) (by decide)
  · obtain ⟨ascii, free⟩ := keeps_graphic kept
    simp only [List.mem_cons, not_or] at free
    rw [List.map_singleton, if_neg free.2.1, List.singleton_append, unquoteFrom_ascii run rest ascii free.1,
      Utf8.encodeChar_of_ascii ascii]
  · have same : ((String.utf8EncodeChar c).flatMap escape).map (fun c => if c = '+' then ' ' else c) =
        (String.utf8EncodeChar c).flatMap escape := by
      refine (List.map_congr_left fun d mem => if_neg ?_).trans (List.map_id _)
      obtain ⟨b, _, mem⟩ := List.mem_flatMap.mp mem
      rcases List.mem_cons.mp mem with rfl | mem
      · decide
      · have free := not_mem_separators_of_mem_byte mem
        simp only [List.mem_cons, not_or] at free
        exact free.2.1
    rw [same, unquoteFrom_escapes]

/-- A form is read as it was written. -/
theorem decode_encode (text : List Char) : decode (encode text) = text := by
  have each (run : List UInt8) : unquoteFrom run ((encode text).map fun c => if c = '+' then ' ' else c) =
      Utf8.decodeReplace (run ++ Utf8.encode text) := by
    induction text generalizing run with
    | nil => rw [Utf8.encode_nil, List.append_nil]; rfl
    | cons c text ih =>
      rw [encode, List.flatMap_cons, List.map_append, unquoteFrom_encodeChar, ← encode, ih, Utf8.encode_cons,
        List.append_assoc]
  rw [decode, each [], List.nil_append, Utf8.decodeReplace_encode]

theorem encodeChar_ne_nil (c : Char) : encodeChar c ≠ [] := by
  rw [encodeChar]
  split_ifs
  · exact List.cons_ne_nil _ _
  · exact List.cons_ne_nil _ _
  · cases bytes : String.utf8EncodeChar c with
    | nil => exact absurd bytes String.utf8EncodeChar_ne_nil
    | cons b rest => exact List.cons_ne_nil _ _

theorem encode_ne_nil (nonempty : text ≠ []) : encode text ≠ [] := by
  obtain ⟨c, rest, rfl⟩ := List.exists_cons_of_ne_nil nonempty
  exact List.append_ne_nil_of_left_ne_nil (encodeChar_ne_nil c) _

theorem parseField_field (name value : List Char) :
    parseField (field name value) = if value = [] then none else some (name, value) := by
  have free : '=' ∉ encode name := fun mem => (of_mem_encode mem).2.2 rfl
  have mem : '=' ∈ encode name ++ '=' :: encode value := List.mem_append_right _ List.mem_cons_self
  rw [field, parseField, if_pos mem, PyText.splitOnce_append _ _ free]
  simp only [decode_encode]
  by_cases blank : value = []
  · subst blank
    rfl
  · rw [if_neg blank, if_neg (encode_ne_nil blank)]

theorem separator_notMem_field (name value : List Char) : '&' ∉ field name value := by
  rw [field, List.mem_append, List.mem_cons, not_or, not_or]
  exact ⟨fun mem => (of_mem_encode mem).2.1 rfl, by decide, fun mem => (of_mem_encode mem).2.1 rfl⟩

/-- A form of two fields is read as it was written, up to fields without a value. -/
theorem parseQsl_fields (name value name' value' : List Char) :
    parseQsl (field name value ++ '&' :: field name' value') =
      (if value = [] then [] else [(name, value)]) ++ if value' = [] then [] else [(name', value')] := by
  rw [parseQsl, List.splitOn_append_cons_self_of_not_mem (separator_notMem_field name value),
    List.splitOn_eq_singleton (separator_notMem_field name' value'), List.filterMap_cons, List.filterMap_cons,
    parseField_field, parseField_field]
  split_ifs <;> rfl

end MammotionRc.Machine.UrlEncoded
