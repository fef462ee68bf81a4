import MammotionRc.Machine.JsNumber
import MammotionRc.Machine.PyValue

/-! # The text of a Number

`String(x)` of an integer is the shortest decimal that rounds to it, filled up with zeros, and has an exponent from
`10 ^ 21` on. Integers below `2 ^ 53` are written as they are. JSON has the same text, and Python reads it back as an
integer or, if it has an exponent, as a float.
-/

namespace MammotionRc.Machine.JsNumber

/-- The digits in front of `z` zeros: of the two numbers around `m`, the closer one that rounds to it. -/
def roundedAt (m z : ℕ) : Option ℕ :=
  let low := m / 10 ^ z
  let r := m % 10 ^ z
  let candidates :=
    if 2 * r < 10 ^ z ∨ 2 * r = 10 ^ z ∧ low % 2 = 0 then [low, low + 1] else [low + 1, low]
  candidates.find? fun s => roundMagnitude (s * 10 ^ z) = m

/-- The digits and the zeros behind them, of which there are as many as possible. -/
def shortestFrom (m : ℕ) : ℕ → ℕ × ℕ
  | 0 => (m, 0)
  | z + 1 =>
    match roundedAt m (z + 1) with
    | some s => (s, z + 1)
    | none => shortestFrom m z

def shortest (m : ℕ) : ℕ × ℕ := shortestFrom m (Nat.toDigits 10 m).length

/-- How many digits the text of a positive integer has without an exponent. -/
def places (m : ℕ) : ℕ := (Nat.toDigits 10 (shortest m).1).length + (shortest m).2

/-- `String(m)`. -/
def magnitude (m : ℕ) : List Char :=
  if m = 0 then ['0']
  else
    let digits := Nat.toDigits 10 (shortest m).1
    if places m ≤ 21 then digits ++ List.replicate (shortest m).2 '0'
    else
      let fraction := if digits.length = 1 then [] else '.' :: digits.drop 1
      digits.take 1 ++ fraction ++ ['e', '+'] ++ Nat.toDigits 10 (places m - 1)

/-- `String(x)`. -/
def text : JsNumber → List Char
  | nan => "NaN".toList
  | infinite negative => (if negative then "-Infinity" else "Infinity").toList
  | fin z => if z < 0 then '-' :: magnitude z.natAbs else magnitude z.natAbs

/-- The integer that a text without an exponent stands for. -/
def written (z : ℤ) : ℤ := z.sign * ((shortest z.natAbs).1 * 10 ^ (shortest z.natAbs).2 : ℕ)

/-- What `json.loads` makes of what `JSON.stringify` writes. -/
def json : JsNumber → PyValue
  | nan | infinite _ => .none
  | fin z => if places z.natAbs ≤ 21 then .int (written z) else .float (some z)

/-- `x || y`. -/
def or (x y : JsNumber) : JsNumber :=
  match x with
  | nan => y
  | infinite _ => x
  | fin z => if z = 0 then y else x

section Small

variable {m z s : ℕ}

theorem two_pow_le_roundMagnitude (large : 2 ^ 53 ≤ m) : 2 ^ 53 ≤ roundMagnitude m := by
  have positive : m ≠ 0 := by
    rintro rfl
    exact absurd large (by decide)
  have exponent : 53 ≤ m.log2 := (Nat.le_log2 positive).mpr large
  have quotient : 2 ^ 52 ≤ m / 2 ^ (m.log2 - 52) := by
    rw [Nat.le_div_iff_mul_le (Nat.two_pow_pos _), ← pow_add, show 52 + (m.log2 - 52) = m.log2 by omega]
    exact Nat.log2_self_le positive
  calc
    2 ^ 53 = 2 ^ 52 * 2 ^ 1 := by norm_num
    _ ≤ (m / 2 ^ (m.log2 - 52)) * 2 ^ (m.log2 - 52) :=
      Nat.mul_le_mul quotient (Nat.pow_le_pow_right (by decide) (by omega))
    _ ≤ roundMagnitude m := by
      rw [roundMagnitude]
      apply Nat.mul_le_mul_right
      split <;> omega

/-- No other number rounds to a small integer. -/
theorem eq_of_roundMagnitude (small : m < 2 ^ 53) {n : ℕ} (rounds : roundMagnitude n = m) : n = m := by
  rcases Nat.lt_or_ge n (2 ^ 53) with below | above
  · rw [← rounds, roundMagnitude_of_lt below]
  · have := two_pow_le_roundMagnitude above
    omega

theorem roundMagnitude_of_roundedAt (found : roundedAt m z = some s) : roundMagnitude (s * 10 ^ z) = m := by
  have rounds := List.find?_some found
  exact of_decide_eq_true rounds

theorem mul_shortestFrom (small : m < 2 ^ 53) : (shortestFrom m z).1 * 10 ^ (shortestFrom m z).2 = m := by
  induction z with
  | zero => rw [shortestFrom, pow_zero, Nat.mul_one]
  | succ z ih =>
    rw [shortestFrom]
    cases found : roundedAt m (z + 1) with
    | none => exact ih
    | some s => exact eq_of_roundMagnitude small (roundMagnitude_of_roundedAt found)

theorem toDigits_mul_pow (positive : 0 < s) (z : ℕ) :
    Nat.toDigits 10 (s * 10 ^ z) = Nat.toDigits 10 s ++ List.replicate z '0' := by
  induction z with
  | zero => rw [pow_zero, Nat.mul_one, List.replicate_zero, List.append_nil]
  | succ z ih =>
    have grown := Nat.toDigits_append_toDigits (b := 10) (n := s * 10 ^ z) (d := 0) (by decide)
      (Nat.mul_pos positive (Nat.pow_pos (by decide))) (by decide)
    rw [show s * 10 ^ (z + 1) = 10 * (s * 10 ^ z) + 0 by ring, ← grown, ih, List.append_assoc,
      List.replicate_succ']
    rfl

theorem shortestFrom_pos (positive : 0 < m) : 0 < (shortestFrom m z).1 := by
  induction z with
  | zero => exact positive
  | succ z ih =>
    rw [shortestFrom]
    cases found : roundedAt m (z + 1) with
    | none => exact ih
    | some s =>
      have rounds := roundMagnitude_of_roundedAt found
      apply Nat.pos_of_ne_zero
      rintro rfl
      rw [Nat.zero_mul, roundMagnitude_of_lt (by decide)] at rounds
      omega

theorem digits_shortest (small : m < 2 ^ 53) (positive : 0 < m) :
    Nat.toDigits 10 (shortest m).1 ++ List.replicate (shortest m).2 '0' = Nat.toDigits 10 m := by
  have whole : (shortest m).1 * 10 ^ (shortest m).2 = m := mul_shortestFrom small
  rw [← toDigits_mul_pow (show 0 < (shortest m).1 from shortestFrom_pos positive), whole]

theorem places_small (small : m < 2 ^ 53) : places m ≤ 21 := by
  rcases Nat.eq_zero_or_pos m with rfl | positive
  · decide
  · have digits := congrArg List.length (digits_shortest small positive)
    rw [List.length_append, List.length_replicate] at digits
    rw [places, digits, Nat.length_toDigits_le_iff (by decide) (by decide)]
    exact small.trans (by norm_num)

theorem magnitude_small (small : m < 2 ^ 53) : magnitude m = Nat.toDigits 10 m := by
  rw [magnitude]
  split
  · next zero =>
    rw [zero]
    rfl
  · next positive =>
    rw [if_pos (places_small small), digits_shortest small (Nat.pos_of_ne_zero positive)]

end Small

theorem text_small {z : ℤ} (small : z.natAbs < 2 ^ 53) : (fin z).text = decimal z := by
  rw [text, magnitude_small small]
  cases z with
  | ofNat n => rfl
  | negSucc n =>
    rw [if_pos (Int.negSucc_lt_zero n)]
    rfl

theorem written_small {z : ℤ} (small : z.natAbs < 2 ^ 53) : written z = z := by
  rw [written, shortest, mul_shortestFrom small, Int.sign_mul_natAbs]

theorem written_ne_zero {z : ℤ} (ne : z ≠ 0) : written z ≠ 0 := by
  have positive : 0 < (shortest z.natAbs).1 := shortestFrom_pos (Int.natAbs_pos.mpr ne)
  refine mul_ne_zero (mt Int.sign_eq_zero_iff_zero.mp ne) ?_
  have := Nat.mul_pos positive (Nat.pow_pos (n := (shortest z.natAbs).2) (show 0 < 10 by decide))
  omega

end MammotionRc.Machine.JsNumber
