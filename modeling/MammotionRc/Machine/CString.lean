import Mathlib.Data.List.Basic
import Mathlib.Data.List.TakeWhile

/-! # Strings in fixed-width fields

A field of `width` bytes holds a string of at most `width - 1` bytes before its first NUL. `fixedField` is
how a field is written and `cstr` how it is read; reading what was written gives the string back, cut to the
width and at its own first NUL.
-/

namespace MammotionRc.Machine

/-- The string at the start of an array: everything before the first NUL. -/
def cstr (bytes : List UInt8) : List UInt8 := bytes.takeWhile (· ≠ 0)

def strlen (bytes : List UInt8) : ℕ := (cstr bytes).length

/-- `strncpy`: at most `n` bytes of the string at `src`, filled with NULs up to `n`. -/
def strncpy (dst src : List UInt8) (n : ℕ) : List UInt8 :=
  ((cstr src).take n).rightpad n 0 ++ dst.drop n

/-- A string cut to `width - 1` bytes and filled with NULs. -/
def fixedField (width : ℕ) (s : List UInt8) : List UInt8 := (s.take (width - 1)).rightpad width 0

theorem zero_notMem_cstr (bytes : List UInt8) : 0 ∉ cstr bytes := by
  intro member
  have nonzero := List.mem_takeWhile_imp member
  exact of_decide_eq_true nonzero rfl

theorem cstr_eq_self {s : List UInt8} (clean : 0 ∉ s) : cstr s = s :=
  List.takeWhile_eq_self_iff.mpr fun _ member => decide_eq_true (ne_of_mem_of_not_mem member clean)

theorem take_strlen (bytes : List UInt8) : bytes.take (strlen bytes) = cstr bytes :=
  (List.prefix_iff_eq_take.mp (List.takeWhile_prefix _)).symm

theorem cstr_cstr (bytes : List UInt8) : cstr (cstr bytes) = cstr bytes := cstr_eq_self (zero_notMem_cstr bytes)

/-- A string ends at the first NUL behind it, whatever follows. -/
theorem cstr_append_zero (s rest : List UInt8) : cstr (s ++ 0 :: rest) = cstr s := by
  induction s with
  | nil => rfl
  | cons b s ih =>
    rw [List.cons_append, cstr, cstr, List.takeWhile_cons, List.takeWhile_cons]
    split
    · exact congrArg (b :: ·) ih
    · rfl

theorem cstr_replicate_zero (s : List UInt8) (n : ℕ) : cstr (s ++ List.replicate n 0) = cstr s := by
  cases n with
  | zero => rw [List.replicate_zero, List.append_nil]
  | succ n => rw [List.replicate_succ, cstr_append_zero]

@[simp] theorem cstr_rightpad (n : ℕ) (s : List UInt8) : cstr (s.rightpad n 0) = cstr s := by
  rw [List.rightpad, cstr_replicate_zero]

theorem cstr_take (n : ℕ) (s : List UInt8) : cstr (s.take n) = (cstr s).take n := by
  induction s generalizing n with
  | nil => rw [List.take_nil]; exact List.take_nil.symm
  | cons b s ih =>
    cases n with
    | zero => rfl
    | succ n =>
      rw [List.take_succ_cons, cstr, cstr, List.takeWhile_cons, List.takeWhile_cons]
      split
      · exact congrArg (b :: ·) (ih n)
      · rfl

variable {width : ℕ}

@[simp] theorem length_fixedField (s : List UInt8) : (fixedField width s).length = width := by
  rw [fixedField, List.length_rightpad, List.length_take]
  omega

@[simp] theorem cstr_fixedField (s : List UInt8) : cstr (fixedField width s) = cstr (s.take (width - 1)) :=
  cstr_rightpad _ _

/-- The last byte of a field is never part of its string. -/
theorem fixedField_dropLast (s : List UInt8) (nonempty : 0 < width) :
    (fixedField width s).dropLast ++ [0] = fixedField width s := by
  have short : (s.take (width - 1)).length ≤ width - 1 := by rw [List.length_take]; omega
  obtain ⟨k, padding⟩ : ∃ k, width - (s.take (width - 1)).length = k + 1 :=
    ⟨width - (s.take (width - 1)).length - 1, by omega⟩
  rw [fixedField, List.rightpad, padding, List.replicate_succ', ← List.append_assoc, List.dropLast_concat]

theorem length_strncpy (dst src : List UInt8) (n : ℕ) : (strncpy dst src n).length = n + (dst.length - n) := by
  rw [strncpy, List.length_append, List.length_rightpad, List.length_take, List.length_drop]
  omega

/-- `strncpy` into zeroed memory keeps the first `n` bytes of the string. -/
theorem strncpy_zeros (src : List UInt8) (n size : ℕ) :
    cstr (strncpy (List.replicate size 0) src n) = (cstr src).take n := by
  rw [strncpy, List.drop_replicate, cstr_replicate_zero, cstr_rightpad, cstr_take, cstr_cstr]

end MammotionRc.Machine
