import Mathlib.Data.List.Basic

/-! # UTF-8 with malformed input

A decoder cuts its input into characters and malformed pieces. A malformed piece is the longest start of a
character that cannot be continued, or one byte, and a decoder in the mode `replace` puts U+FFFD in its place;
in the mode `strict` there may be none.
-/

namespace MammotionRc.Machine.Utf8

def encode (text : List Char) : List UInt8 := text.flatMap String.utf8EncodeChar

/-- The character that a sequence of bytes starts with. -/
def next? (bytes : List UInt8) : Option Char := bytes.toByteArray.utf8DecodeChar? 0

def isContinuation (b : UInt8) : Bool := 0x80 ≤ b ∧ b ≤ 0xBF

/-- A byte that may follow the first byte of a character of three or four bytes. -/
def maySecond (first second : UInt8) : Bool :=
  isContinuation second ∧ (first = 0xE0 → 0xA0 ≤ second) ∧ (first = 0xED → second < 0xA0) ∧
    (first = 0xF0 → 0x90 ≤ second) ∧ (first = 0xF4 → second < 0x90)

/-- How long the malformed piece at the start of the input is. -/
def malformedLength : List UInt8 → ℕ
  | first :: second :: rest =>
    if 0xE0 ≤ first ∧ first ≤ 0xF4 ∧ maySecond first second then
      match rest with
      | third :: _ => if 0xF0 ≤ first ∧ isContinuation third then 3 else 2
      | [] => 2
    else 1
  | _ => 1

/-- The pieces of the input; the first `skip` bytes belong to the piece before. -/
def piecesFrom : ℕ → List UInt8 → List (Option Char)
  | _, [] => []
  | skip + 1, _ :: rest => piecesFrom skip rest
  | 0, b :: rest =>
    match next? (b :: rest) with
    | some c => some c :: piecesFrom (c.utf8Size - 1) rest
    | none => none :: piecesFrom (malformedLength (b :: rest) - 1) rest

def pieces (bytes : List UInt8) : List (Option Char) := piecesFrom 0 bytes

/-- Decoding with the error handler `replace`. -/
def decodeReplace (bytes : List UInt8) : List Char := (pieces bytes).map (·.getD '\uFFFD')

/-- Decoding with the error handler `strict`. -/
def decode? (bytes : List UInt8) : Option (List Char) := (pieces bytes).mapM id

variable {text : List Char} {bytes rest : List UInt8} {c : Char}

@[simp] theorem encode_nil : encode [] = [] := rfl

@[simp] theorem encode_cons (c : Char) (text : List Char) :
    encode (c :: text) = String.utf8EncodeChar c ++ encode text := rfl

@[simp] theorem encode_append (first second : List Char) : encode (first ++ second) = encode first ++ encode second :=
  List.flatMap_append

theorem next?_encodeChar (c : Char) (rest : List UInt8) : next? (String.utf8EncodeChar c ++ rest) = some c := by
  rw [next?, List.toByteArray_append]
  exact ByteArray.utf8DecodeChar?_utf8EncodeChar_append

theorem piecesFrom_length (skip : List UInt8) (rest : List UInt8) :
    piecesFrom skip.length (skip ++ rest) = piecesFrom 0 rest := by
  induction skip with
  | nil => rfl
  | cons b skip ih => exact ih

theorem pieces_encodeChar (c : Char) (rest : List UInt8) :
    pieces (String.utf8EncodeChar c ++ rest) = some c :: pieces rest := by
  have first := next?_encodeChar c rest
  have size := String.length_utf8EncodeChar c
  cases split : String.utf8EncodeChar c with
  | nil => exact absurd split String.utf8EncodeChar_ne_nil
  | cons b more =>
    rw [split] at first size
    rw [List.cons_append] at first ⊢
    rw [pieces, piecesFrom, first]
    simp only [List.cons.injEq, true_and]
    rw [← size, List.length_cons, Nat.add_sub_cancel]
    exact piecesFrom_length more rest

theorem pieces_encode_append (text : List Char) (rest : List UInt8) :
    pieces (encode text ++ rest) = text.map some ++ pieces rest := by
  induction text with
  | nil => rfl
  | cons c text ih => rw [encode_cons, List.append_assoc, pieces_encodeChar, ih, List.map_cons, List.cons_append]

theorem pieces_encode (text : List Char) : pieces (encode text) = text.map some := by
  simpa [pieces, piecesFrom] using pieces_encode_append text []

/-- Well-formed input is decoded as it was encoded. -/
@[simp] theorem decodeReplace_encode (text : List Char) : decodeReplace (encode text) = text := by
  rw [decodeReplace, pieces_encode, List.map_map]
  exact List.map_id _

/-- Nothing that was encoded is refused. -/
@[simp] theorem decode?_encode (text : List Char) : decode? (encode text) = some text := by
  rw [decode?, pieces_encode]
  induction text with
  | nil => rfl
  | cons c text ih =>
    rw [List.map_cons, List.mapM_cons, ih]
    rfl

theorem encodeChar_of_ascii (ascii : c.toNat < 0x80) : String.utf8EncodeChar c = [UInt8.ofNat c.toNat] := by
  rw [String.utf8EncodeChar]
  exact if_pos (Nat.le_of_lt_succ ascii)

/-- The bytes of a character are its code, or all of them are out of the range of ASCII. -/
theorem byte_of_mem_encodeChar {b : UInt8} (mem : b ∈ String.utf8EncodeChar c) :
    (c.toNat < 0x80 ∧ b.toNat = c.toNat) ∨ (0x80 ≤ c.toNat ∧ 0x80 ≤ b.toNat) := by
  by_cases ascii : c.toNat < 0x80
  · rw [encodeChar_of_ascii ascii, List.mem_singleton] at mem
    subst mem
    exact .inl ⟨ascii, UInt8.toNat_ofNat_of_lt' (Nat.lt_trans ascii (by decide))⟩
  · refine .inr ⟨Nat.le_of_not_lt ascii, ?_⟩
    have wide : ¬ c.val.toNat ≤ 0x7f := fun le => ascii (Nat.lt_succ_of_le le)
    simp only [String.utf8EncodeChar, if_neg wide] at mem
    split_ifs at mem <;> simp only [List.mem_cons, List.not_mem_nil, or_false] at mem <;>
      rcases mem with rfl | rfl | rfl | rfl <;> simp only [UInt8.toNat_ofNat'] <;> omega

theorem byte_of_mem_encode {b : UInt8} (mem : b ∈ encode text) :
    (∃ c ∈ text, c.toNat < 0x80 ∧ b.toNat = c.toNat) ∨ 0x80 ≤ b.toNat := by
  obtain ⟨c, inside, mem⟩ := List.mem_flatMap.mp mem
  rcases byte_of_mem_encodeChar mem with ascii | high
  · exact .inl ⟨c, inside, ascii⟩
  · exact .inr high.2

/-- A text without NUL has no zero byte. -/
theorem zero_notMem_encode (clean : '\x00' ∉ text) : 0 ∉ encode text := by
  intro mem
  rcases byte_of_mem_encode mem with ⟨c, inside, _, same⟩ | high
  · have nul : c.toNat = '\x00'.toNat := same.symm
    exact clean (Char.toNat_inj.mp nul ▸ inside)
  · exact absurd high (by decide)

/-- A text of ASCII has one byte for each character. -/
theorem length_encode_of_ascii (ascii : ∀ c ∈ text, c.toNat < 0x80) : (encode text).length = text.length := by
  induction text with
  | nil => rfl
  | cons c text ih =>
    rw [encode_cons, encodeChar_of_ascii (ascii c List.mem_cons_self), List.length_append, List.length_singleton,
      List.length_cons, ih fun c inside => ascii c (List.mem_cons_of_mem _ inside), Nat.add_comm]

theorem zero_notMem_encode_iff : 0 ∉ encode text ↔ '\x00' ∉ text := by
  refine ⟨fun clean mem => clean ?_, zero_notMem_encode⟩
  exact List.mem_flatMap.mpr ⟨'\x00', mem, by decide⟩

theorem encode_eq_nil (none_ : encode text = []) : text = [] := by
  cases text with
  | nil => rfl
  | cons c text => exact absurd (List.append_eq_nil_iff.mp none_).1 String.utf8EncodeChar_ne_nil

/-! ## Prefixes of whole characters -/

variable {first second : List Char} {n : ℕ}

theorem prefix_encode (before : first <+: text) : encode first <+: encode text := by
  obtain ⟨rest, rfl⟩ := before
  rw [encode_append]
  exact List.prefix_append _ _

/-- Cutting behind a whole character gives the encoding of a prefix. -/
theorem take_encode (before : first <+: text) : (encode text).take (encode first).length = encode first :=
  (List.prefix_iff_eq_take.mp (prefix_encode before)).symm

/-- A longer prefix has a longer encoding. -/
theorem prefix_of_length_encode_le (one : first <+: text) (other : second <+: text)
    (le : (encode first).length ≤ (encode second).length) : first <+: second := by
  rcases List.prefix_or_prefix_of_prefix one other with before | ⟨rest, rfl⟩
  · exact before
  · rw [encode_append, List.length_append] at le
    have none_ : encode rest = [] := List.eq_nil_of_length_eq_zero (by omega)
    have no_more : rest = [] := encode_eq_nil none_
    exact ⟨[], by simp [no_more]⟩

/-- `first` is the longest prefix of whole characters in `n` bytes. -/
structure IsLongestPrefix (text : List Char) (n : ℕ) (first : List Char) : Prop where
  before : first <+: text
  fits : (encode first).length ≤ n
  longest : ∀ other, other <+: text → (encode other).length ≤ n → other <+: first

/-- The first `n` bytes are whole characters exactly if the text ends there or a prefix does. -/
theorem take_encode_iff : (∃ first, IsLongestPrefix text n first ∧ (encode text).take n = encode first) ↔
    (encode text).length ≤ n ∨ ∃ first, first <+: text ∧ (encode first).length = n := by
  constructor
  · rintro ⟨first, longest, whole⟩
    have length := congrArg List.length whole
    rw [List.length_take] at length
    rcases Nat.le_total (encode text).length n with short | long
    · exact .inl short
    · exact .inr ⟨first, longest.before, by omega⟩
  · rintro (short | ⟨first, before, rfl⟩)
    · exact ⟨text, ⟨List.prefix_refl text, short, fun _ before _ => before⟩, List.take_of_length_le short⟩
    · exact ⟨first, ⟨before, Nat.le_refl _, fun other is fits => prefix_of_length_encode_le is before fits⟩,
        take_encode before⟩

end MammotionRc.Machine.Utf8
