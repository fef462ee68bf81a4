import Mathlib.Data.Int.Notation
import Mathlib.Data.List.TakeWhile
import Mathlib.Tactic.Ring

/-! # Integers in JavaScript

A Number that holds an integer is a double, so `parseInt` rounds what it reads to 53 significant bits and
overflows to an infinity. The bitwise operators work on the 32-bit two's complement of their operands; all
but `>>>` give a signed result.
-/

namespace MammotionRc.Machine

inductive JsNumber
  | nan
  | infinite (negative : Bool)
  | fin (value : ℤ)
deriving DecidableEq, Repr

namespace JsNumber

/-- The nearest multiple of the unit in the last place, ties to even. -/
def roundMagnitude (n : ℕ) : ℕ :=
  let unit := 2 ^ (n.log2 - 52)
  let q := n / unit
  let r := n % unit
  (if unit < 2 * r ∨ unit = 2 * r ∧ q % 2 = 1 then q + 1 else q) * unit

/-- Magnitudes that round to this or more are infinite. -/
def limit : ℕ := 2 ^ 1024

/-- The Number value for a mathematical integer. -/
def ofInt (z : ℤ) : JsNumber :=
  let m := roundMagnitude z.natAbs
  if limit ≤ m then .infinite (z < 0) else .fin (if z < 0 then -m else m)

def isFinite : JsNumber → Bool
  | .fin _ => true
  | _ => false

/-- `a < n` for an integer literal `n`. -/
def ltInt : JsNumber → ℤ → Bool
  | .nan, _ => false
  | .infinite negative, _ => negative
  | .fin a, n => a < n

/-- `a > n` for an integer literal `n`. -/
def gtInt : JsNumber → ℤ → Bool
  | .nan, _ => false
  | .infinite negative, _ => !negative
  | .fin a, n => n < a

theorem roundMagnitude_of_lt {n : ℕ} (small : n < 2 ^ 53) : roundMagnitude n = n := by
  have exponent : n.log2 - 52 = 0 := by
    rcases Nat.eq_zero_or_pos n with zero | positive
    · rw [zero, Nat.log2_zero]
    · have := (Nat.log2_lt positive.ne').mpr small
      omega
  simp [roundMagnitude, exponent, Nat.mod_one]

theorem le_roundMagnitude {n : ℕ} (large : 2 ^ 53 ≤ n) : 2 ^ 52 ≤ roundMagnitude n := by
  have positive : n ≠ 0 := by
    rintro rfl
    exact absurd large (by decide)
  have exponent : 53 ≤ n.log2 := by
    by_contra short
    have := (Nat.log2_lt positive).mp (show n.log2 < 53 by omega)
    omega
  have quotient : 2 ^ 52 ≤ n / 2 ^ (n.log2 - 52) := by
    rw [Nat.le_div_iff_mul_le (Nat.two_pow_pos _), ← pow_add, show 52 + (n.log2 - 52) = n.log2 by omega]
    exact Nat.log2_self_le positive
  calc
    2 ^ 52 ≤ n / 2 ^ (n.log2 - 52) := quotient
    _ ≤ (n / 2 ^ (n.log2 - 52)) * 2 ^ (n.log2 - 52) := Nat.le_mul_of_pos_right _ (Nat.two_pow_pos _)
    _ ≤ roundMagnitude n := by
      rw [roundMagnitude]
      apply Nat.mul_le_mul_right
      split <;> omega

theorem pow_le_limit : 2 ^ 53 ≤ limit := by
  rw [limit, Nat.pow_le_pow_iff_right (by decide)]
  decide

theorem ofInt_of_lt {z : ℤ} (small : z.natAbs < 2 ^ 53) : ofInt z = .fin z := by
  have bounded : ¬ limit ≤ z.natAbs := by
    have := pow_le_limit
    omega
  rw [ofInt, roundMagnitude_of_lt small, if_neg bounded]
  congr 1
  split <;> omega

/-- A Number lies in a small range exactly when the integer it was read from does. -/
theorem ofInt_between (z : ℤ) {lo hi : ℤ} (low : -2 ^ 52 < lo) (high : hi < 2 ^ 52) :
    (isFinite (ofInt z) = true ∧ ltInt (ofInt z) lo = false ∧ gtInt (ofInt z) hi = false) ↔ lo ≤ z ∧ z ≤ hi := by
  rcases Nat.lt_or_ge z.natAbs (2 ^ 53) with small | large
  · rw [ofInt_of_lt small]
    simp [isFinite, ltInt, gtInt]
  · have magnitude := le_roundMagnitude large
    rw [ofInt]
    generalize roundMagnitude z.natAbs = m at magnitude
    split
    · simp only [isFinite, Bool.false_eq_true, false_and, false_iff]
      omega
    · simp only [isFinite, ltInt, gtInt, decide_eq_false_iff_not, true_and]
      split <;> omega

/-- White space and line terminators. -/
def isSpace (c : Char) : Bool :=
  c.toNat ∈ [0x9, 0xA, 0xB, 0xC, 0xD, 0x20, 0xA0, 0x1680, 0x2028, 0x2029, 0x202F, 0x205F, 0x3000, 0xFEFF] ||
    (0x2000 ≤ c.toNat && c.toNat ≤ 0x200A)

/-- An optional sign: whether it is a minus, and what follows it. -/
def readSign : List Char → Bool × List Char
  | '-' :: rest => (true, rest)
  | '+' :: rest => (false, rest)
  | text => (false, text)

/-- `parseInt(text, 10)`. -/
def parseInt (text : List Char) : JsNumber :=
  let (negative, text) := readSign (text.dropWhile isSpace)
  let digits := text.takeWhile Char.isDigit
  if digits.isEmpty then .nan
  else
    let magnitude : ℤ := Nat.ofDigitChars 10 digits 0
    ofInt (if negative then -magnitude else magnitude)

/-- An integer in decimal. -/
def decimal : ℤ → List Char
  | .ofNat n => Nat.toDigits 10 n
  | .negSucc n => '-' :: Nat.toDigits 10 (n + 1)

theorem isDigit_of_mem_toDigits {n : ℕ} : ∀ c ∈ Nat.toDigits 10 n, c.isDigit = true :=
  fun _ member => Nat.isDigit_of_mem_toDigits (by decide) (by decide) member

theorem not_isSpace_of_isDigit {c : Char} (digit : c.isDigit = true) : isSpace c = false := by
  have inside : 48 ≤ c.toNat ∧ c.toNat ≤ 57 := by
    simpa [Char.isDigit, UInt32.le_iff_toNat_le] using digit
  simp only [isSpace, Bool.or_eq_false_iff, decide_eq_false_iff_not, List.mem_cons, List.not_mem_nil, or_false,
    Bool.and_eq_false_iff]
  omega

theorem readSign_of_isDigit {c : Char} {rest : List Char} (digit : c.isDigit = true) :
    readSign (c :: rest) = (false, c :: rest) := by
  rw [readSign]
  · rintro _ ⟨⟩
    exact absurd digit (by decide)
  · rintro _ ⟨⟩
    exact absurd digit (by decide)

theorem parseInt_nat (n : ℕ) : parseInt (Nat.toDigits 10 n) = ofInt n := by
  obtain ⟨c, rest, digits⟩ := List.exists_cons_of_ne_nil (Nat.toDigits_ne_nil (n := n) (b := 10))
  have all : (c :: rest).takeWhile Char.isDigit = c :: rest :=
    List.takeWhile_eq_self_iff.mpr (digits ▸ isDigit_of_mem_toDigits)
  have first : c.isDigit = true := isDigit_of_mem_toDigits (n := n) c (digits ▸ List.mem_cons_self)
  have value : Nat.ofDigitChars 10 (c :: rest) 0 = n := digits ▸ Nat.ofDigitChars_ten_toDigits
  rw [digits, parseInt, List.dropWhile_cons, not_isSpace_of_isDigit first, if_neg Bool.false_ne_true,
    readSign_of_isDigit first]
  simp [all, value]

theorem parseInt_neg (n : ℕ) : parseInt ('-' :: Nat.toDigits 10 n) = ofInt (-n) := by
  have all : (Nat.toDigits 10 n).takeWhile Char.isDigit = Nat.toDigits 10 n :=
    List.takeWhile_eq_self_iff.mpr isDigit_of_mem_toDigits
  have minus : isSpace '-' = false := by decide
  rw [parseInt, List.dropWhile_cons, minus, if_neg Bool.false_ne_true, readSign]
  simp [all, Nat.toDigits_ne_nil, Nat.ofDigitChars_ten_toDigits]

/-- Reading a decimal text back gives the Number value for the integer. -/
theorem parseInt_decimal (z : ℤ) : parseInt (decimal z) = ofInt z := by
  cases z with
  | ofNat n => exact parseInt_nat n
  | negSucc n => exact parseInt_neg (n + 1)

/-- The operand of a bitwise operator. -/
def toInt32 (x : ℤ) : BitVec 32 := BitVec.ofInt 32 x

def bitAnd (a b : ℤ) : ℤ := (toInt32 a &&& toInt32 b).toInt

def bitXor (a b : ℤ) : ℤ := (toInt32 a ^^^ toInt32 b).toInt

/-- `a >>> k`. -/
def ushr (a : ℤ) (k : ℕ) : ℤ := (toInt32 a >>> k).toNat

@[simp] theorem toInt32_bitXor (a b : ℤ) : toInt32 (bitXor a b) = toInt32 a ^^^ toInt32 b := BitVec.ofInt_toInt

@[simp] theorem toInt32_ushr (a : ℤ) (k : ℕ) : toInt32 (ushr a k) = toInt32 a >>> k := by
  rw [ushr, toInt32, BitVec.ofInt_natCast, BitVec.ofNat_toNat, BitVec.setWidth_eq]

theorem bitAnd_one (c : ℤ) : bitAnd c 1 ≠ 0 ↔ (toInt32 c).getLsbD 0 = true := by
  rw [bitAnd, show toInt32 1 = 1#32 from rfl, BitVec.and_one_eq_setWidth_ofBool_getLsbD]
  cases (toInt32 c).getLsbD 0 <;> decide

/-- What `>>>` gives is the unsigned value of its own 32 bits. -/
theorem ushr_eq_toNat (a : ℤ) (k : ℕ) : ushr a k = (toInt32 (ushr a k)).toNat := by
  rw [toInt32_ushr, ushr]

end JsNumber

end MammotionRc.Machine
