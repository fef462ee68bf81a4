import Mathlib.Algebra.Group.Nat.Defs
import Mathlib.Data.List.Infix
import MammotionRc.Machine.PyText

/-! # Integers in Python strings

`int()` reads the decimal digits of every script, with single underscores between them, and `str()` writes those
of ASCII. Neither deals with numbers of more than 4300 digits.
-/

namespace MammotionRc.Machine.PyInt

/-- `sys.get_int_max_str_digits()`, if nobody changed it. -/
def maxStrDigits : ℕ := 4300

/-- The codes of the digits zero, of Unicode 15. -/
def zeros : List ℕ :=
  [0x30, 0x660, 0x6F0, 0x7C0, 0x966, 0x9E6, 0xA66, 0xAE6, 0xB66, 0xBE6, 0xC66, 0xCE6, 0xD66, 0xDE6, 0xE50, 0xED0,
    0xF20, 0x1040, 0x1090, 0x17E0, 0x1810, 0x1946, 0x19D0, 0x1A80, 0x1A90, 0x1B50, 0x1BB0, 0x1C40, 0x1C50, 0xA620,
    0xA8D0, 0xA900, 0xA9D0, 0xA9F0, 0xAA50, 0xABF0, 0xFF10, 0x104A0, 0x10D30, 0x11066, 0x110F0, 0x11136, 0x111D0,
    0x112F0, 0x11450, 0x114D0, 0x11650, 0x116C0, 0x11730, 0x118E0, 0x11950, 0x11C50, 0x11D50, 0x11DA0, 0x11F50,
    0x16A60, 0x16AC0, 0x16B50, 0x1D7CE, 0x1D7D8, 0x1D7E2, 0x1D7EC, 0x1D7F6, 0x1E140, 0x1E2F0, 0x1E4F0, 0x1E950,
    0x1FBF0]

def digit? (c : Char) : Option ℕ := (zeros.find? fun start => start ≤ c.toNat ∧ c.toNat < start + 10).map (c.toNat - ·)

/-- The white space that may surround a number: in a text of ASCII, the separators do not count. -/
def surrounds (ascii : Bool) (c : Char) : Bool :=
  if ascii then c.toNat = 0x20 ∨ (0x09 ≤ c.toNat ∧ c.toNat ≤ 0x0D) else PyText.isSpace c

/-- A number without a sign. -/
def natural? (body : List Char) : Option ℕ := do
  let groups ← (body.splitOn '_').mapM fun group => if group = [] then none else group.mapM digit?
  if maxStrDigits < groups.flatten.length then none else some (groups.flatten.foldl (10 * · + ·) 0)

/-- `int(text)`; `none` if it raises. -/
def int? (text : List Char) : Option ℤ :=
  let ascii := text.all (·.toNat < 0x80)
  match (text.dropWhile (surrounds ascii)).rdropWhile (surrounds ascii) with
  | '-' :: body => (natural? body).map fun n => -n
  | '+' :: body => (natural? body).map fun n => n
  | body => (natural? body).map fun n => n

/-- `str(n)`; `none` if it raises. -/
def str? (n : ℤ) : Option (List Char) :=
  let digits := Nat.toDigits 10 n.natAbs
  if maxStrDigits < digits.length then none else some (if n < 0 then '-' :: digits else digits)

theorem ofDigitChars_lt {text : List Char} (all : ∀ c ∈ text, c.isDigit = true) (init : ℕ) :
    Nat.ofDigitChars 10 text init < 10 ^ text.length * (init + 1) := by
  induction text generalizing init with
  | nil => simp
  | cons c text ih =>
    have digit := all c List.mem_cons_self
    simp only [Char.isDigit, Bool.and_eq_true, decide_eq_true_eq, UInt32.le_iff_toNat_le] at digit
    have small : c.toNat - '0'.toNat ≤ 9 := Nat.sub_le_iff_le_add'.mpr digit.2
    rw [Nat.ofDigitChars_cons, List.length_cons, Nat.pow_succ]
    calc Nat.ofDigitChars 10 text (10 * init + (c.toNat - '0'.toNat))
        < 10 ^ text.length * (10 * init + (c.toNat - '0'.toNat) + 1) :=
          ih (fun d inside => all d (List.mem_cons_of_mem _ inside)) _
      _ ≤ 10 ^ text.length * (10 * (init + 1)) := Nat.mul_le_mul_left _ (by omega)
      _ = 10 ^ text.length * 10 * (init + 1) := (Nat.mul_assoc ..).symm

/-- A number is written without leading zeros. -/
theorem toDigits_zero_cons {n : ℕ} {more : List Char} (starts : Nat.toDigits 10 n = '0' :: more) : more = [] := by
  by_contra nonempty
  have all : ∀ c ∈ more, c.isDigit = true := fun c inside =>
    Nat.isDigit_of_mem_toDigits (b := 10) (n := n) (by decide) (by decide) (starts ▸ List.mem_cons_of_mem _ inside)
  have small := ofDigitChars_lt all 0
  have value := Nat.ofDigitChars_ten_toDigits (n := n)
  rw [starts, Nat.ofDigitChars_cons] at value
  have short : (Nat.toDigits 10 n).length ≤ more.length := by
    rw [Nat.length_toDigits_le_iff (by decide) (List.length_pos_iff.mpr nonempty), ← value]
    simpa using small
  rw [starts, List.length_cons] at short
  omega

end MammotionRc.Machine.PyInt
