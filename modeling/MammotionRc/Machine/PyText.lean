import Mathlib.Data.List.Basic
import Mathlib.Data.List.DropRight

/-! # White space in Python strings

`str.split()` and `str.strip()` take the characters for white space that Unicode calls so, and the four
separators of ASCII. The pieces of `split` have none of them, and a text without any is its own only piece.
-/

namespace MammotionRc.Machine.PyText

/-- `str.isspace` for the character with a code. -/
def isSpaceCode (code : ℕ) : Bool :=
  code ∈ [0x20, 0x85, 0xA0, 0x1680, 0x2028, 0x2029, 0x202F, 0x205F, 0x3000] ∨ (0x09 ≤ code ∧ code ≤ 0x0D) ∨
    (0x1C ≤ code ∧ code ≤ 0x1F) ∨ (0x2000 ≤ code ∧ code ≤ 0x200A)

def isSpace (c : Char) : Bool := isSpaceCode c.toNat

/-- A property of the characters of a literal can be decided. -/
theorem forall_of_all {p : Char → Prop} [DecidablePred p] {text : List Char} (all : text.all (decide <| p ·) = true) :
    ∀ c ∈ text, p c := fun c mem => of_decide_eq_true (List.all_eq_true.mp all c mem)

/-- The printable characters of ASCII behind the blank are no white space. -/
theorem isSpace_of_graphic {c : Char} (above : 0x20 < c.toNat) (below : c.toNat < 0x7F) : isSpace c = false := by
  rw [isSpace, isSpaceCode, decide_eq_false_iff_not]
  simp only [List.mem_cons, List.not_mem_nil, or_false]
  omega

/-- `str.split()`. -/
def split (text : List Char) : List (List Char) := (text.splitOnP isSpace).filter (!·.isEmpty)

/-- `text.split(sep, 1)` of a text that has the separator. -/
def splitOnce (sep : Char) (text : List Char) : List Char × List Char :=
  (text.takeWhile (· ≠ sep), (text.dropWhile (· ≠ sep)).drop 1)

/-- `str.strip()`. -/
def strip (text : List Char) : List Char := (text.dropWhile isSpace).rdropWhile isSpace

/-- `str.isascii`. -/
def isAscii (text : List Char) : Bool := text.all (·.toNat < 0x80)

/-- What a text file gets for the end of a line, `os.linesep`. -/
inductive Newline
  | lf
  | crlf
deriving DecidableEq, Repr

def Newline.chars : Newline → List Char
  | lf => ['\n']
  | crlf => ['\r', '\n']

/-- What is written to a text file. -/
def Newline.translate (newline : Newline) (text : List Char) : List Char :=
  text.flatMap fun c => if c = '\n' then newline.chars else [c]

variable {text piece : List Char} {c sep : Char}

theorem split_append_cons (first rest : List Char) (space : isSpace c = true) :
    split (first ++ c :: rest) = split first ++ split rest := by
  rw [split, List.splitOnP_append_cons _ _ space, List.filter_append, split, split]

/-- A text without white space is its own only piece. -/
theorem split_of_not_isSpace (solid : ∀ c ∈ text, isSpace c = false) (nonempty : text ≠ []) : split text = [text] := by
  rw [split, List.splitOnP_eq_singleton solid, List.filter_cons_of_pos]
  · rfl
  · simpa using nonempty

theorem not_isSpace_of_mem_splitOnP (mem : piece ∈ text.splitOnP isSpace) : ∀ c ∈ piece, isSpace c = false := by
  induction text generalizing piece with
  | nil =>
    rw [List.splitOnP_nil, List.mem_singleton] at mem
    subst mem
    exact fun c absurd => by cases absurd
  | cons head rest ih =>
    rw [List.splitOnP_cons_eq_if_modifyHead] at mem
    split_ifs at mem with space
    · rcases List.mem_cons.mp mem with rfl | mem
      · exact fun c absurd => by cases absurd
      · exact ih mem
    · cases split : rest.splitOnP isSpace with
      | nil => exact absurd split (List.splitOnP_ne_nil isSpace rest)
      | cons first more =>
        rw [split] at mem ih
        rcases List.mem_cons.mp mem with rfl | mem
        · intro c inside
          rcases List.mem_cons.mp inside with rfl | inside
          · exact Bool.eq_false_iff.mpr space
          · exact ih List.mem_cons_self c inside
        · exact ih (List.mem_cons_of_mem _ mem)

/-- The pieces of a text have no white space. -/
theorem not_isSpace_of_mem_split (mem : piece ∈ split text) : ∀ c ∈ piece, isSpace c = false :=
  not_isSpace_of_mem_splitOnP (List.mem_filter.mp mem).1

theorem splitOnce_append (first rest : List Char) (free : sep ∉ first) :
    splitOnce sep (first ++ sep :: rest) = (first, rest) := by
  have before : (first ++ sep :: rest).takeWhile (· ≠ sep) = first := by
    rw [List.takeWhile_append_of_pos fun c inside => decide_eq_true (ne_of_mem_of_not_mem inside free)]
    simp
  have after : (first ++ sep :: rest).dropWhile (· ≠ sep) = sep :: rest := by
    rw [List.dropWhile_append_of_pos fun c inside => decide_eq_true (ne_of_mem_of_not_mem inside free)]
    simp
  rw [splitOnce, before, after, List.drop_one, List.tail_cons]

theorem mem_of_mem_splitOnce (inside : c ∈ (splitOnce sep text).2) : c ∈ text :=
  (List.dropWhile_sublist _).mem (List.mem_of_mem_drop inside)

theorem isAscii_iff : isAscii text = true ↔ ∀ c ∈ text, c.toNat < 0x80 := by
  simp only [isAscii, List.all_eq_true, decide_eq_true_eq]

/-- A list without items to drop keeps both ends. -/
theorem stripped_eq_self {α : Type*} {p : α → Bool} {l : List α} (solid : ∀ x ∈ l, p x = false) :
    (l.dropWhile p).rdropWhile p = l := by
  have front : l.dropWhile p = l :=
    List.dropWhile_eq_self_iff.mpr fun bound => by simp [solid _ (List.getElem_mem bound)]
  rw [front]
  exact List.rdropWhile_eq_self_iff.mpr fun nonempty => by simp [solid _ (List.getLast_mem nonempty)]

/-- A text without white space is not stripped. -/
theorem strip_of_not_isSpace (solid : ∀ c ∈ text, isSpace c = false) : strip text = text := stripped_eq_self solid

end MammotionRc.Machine.PyText
