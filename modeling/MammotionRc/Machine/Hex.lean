import MammotionRc.Machine.PyText

/-! # Hexadecimal digits

What is written with the digits of `%X` is read back, and is printable ASCII.
-/

namespace MammotionRc.Machine.Hex

/-- A digit of `%X`. -/
def digit (n : ℕ) : Char := "0123456789ABCDEF".toList.getD n '0'

/-- A byte in the format `%02X`. -/
def byte (b : UInt8) : List Char := [digit (b.toNat / 16), digit (b.toNat % 16)]

/-- A digit of `%x`. -/
def lowerDigit (n : ℕ) : Char := "0123456789abcdef".toList.getD n '0'

/-- A byte in the format `%02x`. -/
def lowerByte (b : UInt8) : List Char := [lowerDigit (b.toNat / 16), lowerDigit (b.toNat % 16)]

/-- A number in the format `%04X`, if it has no more digits. -/
def word (n : ℕ) : List Char := [digit (n / 0x1000), digit (n / 0x100 % 16), digit (n / 16 % 16), digit (n % 16)]

/-- The value of a digit in either case. -/
def value? (c : Char) : Option ℕ :=
  if '0' ≤ c ∧ c ≤ '9' then some (c.toNat - '0'.toNat)
  else if 'A' ≤ c ∧ c ≤ 'F' then some (c.toNat - 'A'.toNat + 10)
  else if 'a' ≤ c ∧ c ≤ 'f' then some (c.toNat - 'a'.toNat + 10)
  else none

theorem length_lowerBytes (bytes : List UInt8) : (bytes.flatMap lowerByte).length = 2 * bytes.length := by
  induction bytes with
  | nil => rfl
  | cons b bytes ih =>
    rw [List.flatMap_cons, List.length_append, ih, List.length_cons, lowerByte, List.length_cons, List.length_singleton]
    omega

theorem value?_digit {n : ℕ} (small : n < 16) : value? (digit n) = some n := by
  have each : ∀ n < 16, value? (digit n) = some n := by decide
  exact each n small

theorem digit_mem (n : ℕ) : digit n ∈ "0123456789ABCDEF".toList := by
  rw [digit, List.getD_eq_getElem?_getD]
  cases at_ : "0123456789ABCDEF".toList[n]? with
  | none => decide
  | some c => exact List.mem_of_getElem? at_

theorem isHexDigit_digit (n : ℕ) : (digit n).isHexDigit = true := by
  have each : ∀ c ∈ "0123456789ABCDEF".toList, c.isHexDigit = true := PyText.forall_of_all (by decide)
  exact each _ (digit_mem n)

theorem isHexDigit_of_mem_byte {b : UInt8} {c : Char} (mem : c ∈ byte b) : c.isHexDigit = true := by
  rcases List.mem_pair.mp mem with rfl | rfl <;> exact isHexDigit_digit _

theorem isHexDigit_of_mem_bytes {bytes : List UInt8} {c : Char} (mem : c ∈ bytes.flatMap byte) :
    c.isHexDigit = true := by
  obtain ⟨b, _, mem⟩ := List.mem_flatMap.mp mem
  exact isHexDigit_of_mem_byte mem

theorem graphic_of_isHexDigit {c : Char} (hex : c.isHexDigit = true) : 0x20 < c.toNat ∧ c.toNat < 0x7F := by
  simp only [Char.isHexDigit, Char.isDigit, Bool.or_eq_true, Bool.and_eq_true, decide_eq_true_eq, ge_iff_le,
    UInt32.le_iff_toNat_le] at hex
  simp at hex
  omega

end MammotionRc.Machine.Hex
