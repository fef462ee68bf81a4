import Mathlib.Data.Int.Log
import Mathlib.Data.Rat.Floor
import Mathlib.Tactic.Linarith
import Mathlib.Tactic.Positivity
import Mathlib.Tactic.Ring

/-! # Doubles as the rationals they denote

`nearest` rounds a rational to a double, ties to even, without a bound on the exponent. It is monotone, and a
decimal of two digits that was rounded to a double is a fixed point of rounding to two digits.
-/

namespace MammotionRc.Machine.Binary64

/-! ## Rounding to an integer -/

/-- The nearest integer; in the middle of two, the even one. -/
def roundHalfEven (x : ℚ) : ℤ :=
  let k := ⌊x⌋
  if x - k < 1 / 2 then k
  else if 1 / 2 < x - k then k + 1
  else k + k % 2

variable {x y : ℚ} {k : ℤ}

theorem floor_le_roundHalfEven (x : ℚ) : ⌊x⌋ ≤ roundHalfEven x := by
  simp only [roundHalfEven]
  split_ifs <;> omega

theorem roundHalfEven_le (x : ℚ) : roundHalfEven x ≤ ⌊x⌋ + 1 := by
  simp only [roundHalfEven]
  split_ifs <;> omega

theorem roundHalfEven_mono (le : x ≤ y) : roundHalfEven x ≤ roundHalfEven y := by
  rcases (Int.floor_le_floor le).lt_or_eq with less | same
  · have upper := roundHalfEven_le x
    have lower := floor_le_roundHalfEven y
    omega
  · simp only [roundHalfEven, same]
    split_ifs <;> first | omega | linarith

theorem roundHalfEven_eq_of_lt (lower : (k : ℚ) - 1 / 2 < x) (upper : x < k + 1 / 2) : roundHalfEven x = k := by
  by_cases le : (k : ℚ) ≤ x
  · have floor : ⌊x⌋ = k := Int.floor_eq_iff.mpr ⟨le, by linarith⟩
    simp only [roundHalfEven, floor]
    rw [if_pos (by linarith)]
  · have floor : ⌊x⌋ = k - 1 := by
      refine Int.floor_eq_iff.mpr ⟨?_, ?_⟩ <;> push_cast <;> linarith
    simp only [roundHalfEven, floor]
    rw [if_neg (by push_cast; linarith), if_pos (by push_cast; linarith)]
    omega

theorem roundHalfEven_intCast (k : ℤ) : roundHalfEven k = k :=
  roundHalfEven_eq_of_lt (by linarith) (by linarith)

theorem abs_roundHalfEven_sub_le (x : ℚ) : |(roundHalfEven x : ℚ) - x| ≤ 1 / 2 := by
  have lower := Int.floor_le x
  have upper := Int.lt_floor_add_one x
  rw [abs_le]
  simp only [roundHalfEven]
  split_ifs with below above
  · exact ⟨by linarith, by linarith⟩
  · push_cast
    exact ⟨by linarith, by linarith⟩
  · rcases Int.emod_two_eq_zero_or_one ⌊x⌋ with even | odd
    · rw [even]
      push_cast
      exact ⟨by linarith, by linarith⟩
    · rw [odd]
      push_cast
      exact ⟨by linarith, by linarith⟩

theorem roundHalfEven_neg (x : ℚ) : roundHalfEven (-x) = -roundHalfEven x := by
  have lower := Int.floor_le x
  have upper := Int.lt_floor_add_one x
  rcases lower.lt_or_eq with less | same
  · have floor : ⌊-x⌋ = -⌊x⌋ - 1 := by
      refine Int.floor_eq_iff.mpr ⟨?_, ?_⟩ <;> push_cast <;> linarith
    simp only [roundHalfEven, floor]
    push_cast
    split_ifs <;> first | omega | linarith
  · rw [← same, ← Int.cast_neg, roundHalfEven_intCast, roundHalfEven_intCast]

/-! ## Rounding to a double -/

/-- The exponent of the unit in the last place; subnormal numbers share one. -/
def exponent (x : ℚ) : ℤ := max (Int.log 2 |x|) (-1022) - 52

/-- The unit in the last place. -/
def quantum (x : ℚ) : ℚ := 2 ^ exponent x

/-- The nearest double; in the middle of two, the one with the even significand. -/
def nearest (x : ℚ) : ℚ := roundHalfEven (x / quantum x) * quantum x

theorem quantum_pos (x : ℚ) : 0 < quantum x := zpow_pos (by norm_num) _

@[simp] theorem exponent_neg (x : ℚ) : exponent (-x) = exponent x := by rw [exponent, exponent, abs_neg]

theorem nearest_neg (x : ℚ) : nearest (-x) = -nearest x := by
  simp only [nearest, quantum, exponent_neg, neg_div, roundHalfEven_neg, Int.cast_neg, neg_mul]

theorem nearest_le_of_multiple (le : x ≤ k * quantum x) : nearest x ≤ k * quantum x := by
  have quotient : x / quantum x ≤ k := (div_le_iff₀ (quantum_pos x)).mpr le
  have rounded := roundHalfEven_mono quotient
  rw [roundHalfEven_intCast] at rounded
  exact mul_le_mul_of_nonneg_right (by exact_mod_cast rounded) (quantum_pos x).le

theorem le_nearest_of_multiple (le : k * quantum x ≤ x) : k * quantum x ≤ nearest x := by
  have quotient : (k : ℚ) ≤ x / quantum x := (le_div_iff₀ (quantum_pos x)).mpr le
  have rounded := roundHalfEven_mono quotient
  rw [roundHalfEven_intCast] at rounded
  exact mul_le_mul_of_nonneg_right (by exact_mod_cast rounded) (quantum_pos x).le

theorem abs_nearest_sub_le (x : ℚ) : |nearest x - x| ≤ quantum x / 2 := by
  have pos := quantum_pos x
  have close := abs_roundHalfEven_sub_le (x / quantum x)
  calc |nearest x - x| = |(roundHalfEven (x / quantum x) : ℚ) - x / quantum x| * quantum x := by
        rw [← abs_of_pos pos, ← abs_mul, abs_of_pos pos, sub_mul, div_mul_cancel₀ x pos.ne', nearest]
    _ ≤ 1 / 2 * quantum x := mul_le_mul_of_nonneg_right close pos.le
    _ = quantum x / 2 := by ring

/-- A power of two is a multiple of every smaller one. -/
theorem exists_zpow_eq_mul {i j : ℤ} (le : i ≤ j) : ∃ n : ℤ, (2 : ℚ) ^ j = n * 2 ^ i := by
  refine ⟨2 ^ (j - i).toNat, ?_⟩
  push_cast
  rw [← zpow_natCast, ← zpow_add₀ (by norm_num)]
  congr 1
  omega

theorem nearest_le_zpow {j : ℤ} (le : x ≤ 2 ^ j) (fine : exponent x ≤ j) : nearest x ≤ 2 ^ j := by
  obtain ⟨n, multiple⟩ := exists_zpow_eq_mul fine
  rw [multiple] at le ⊢
  exact nearest_le_of_multiple le

theorem zpow_le_nearest {j : ℤ} (le : 2 ^ j ≤ x) (fine : exponent x ≤ j) : 2 ^ j ≤ nearest x := by
  obtain ⟨n, multiple⟩ := exists_zpow_eq_mul fine
  rw [multiple] at le ⊢
  exact le_nearest_of_multiple le

theorem nearest_nonneg (nonneg : 0 ≤ x) : 0 ≤ nearest x := by
  have le := le_nearest_of_multiple (x := x) (k := 0) (by simpa using nonneg)
  simpa using le

/-- Between numbers of different binades lies the power of two at which the upper one starts. -/
theorem lt_zpow_log (pos : 0 < y) (less : Int.log 2 x < Int.log 2 y) :
    x < 2 ^ Int.log 2 y ∧ 2 ^ Int.log 2 y ≤ y := by
  refine ⟨?_, by exact_mod_cast Int.zpow_log_le_self (b := 2) (by norm_num) pos⟩
  have below := Int.lt_zpow_succ_log_self (b := 2) (by norm_num) x
  have le : (2 : ℚ) ^ (Int.log 2 x + 1) ≤ 2 ^ Int.log 2 y := zpow_le_zpow_right₀ (by norm_num) (by omega)
  exact lt_of_lt_of_le (by exact_mod_cast below) le

theorem nearest_mono_of_pos (pos : 0 < x) (le : x ≤ y) : nearest x ≤ nearest y := by
  have posY := lt_of_lt_of_le pos le
  have log := Int.log_mono_right (b := 2) pos le
  by_cases same : exponent x = exponent y
  · simp only [nearest, quantum, same]
    refine mul_le_mul_of_nonneg_right ?_ (quantum_pos y).le
    exact_mod_cast roundHalfEven_mono (div_le_div_of_nonneg_right le (quantum_pos y).le)
  · simp only [exponent, abs_of_pos pos, abs_of_pos posY] at same
    obtain ⟨less, reaches⟩ := lt_zpow_log (x := x) posY (by omega)
    calc nearest x ≤ 2 ^ Int.log 2 y := nearest_le_zpow less.le (by simp only [exponent, abs_of_pos pos]; omega)
      _ ≤ nearest y := zpow_le_nearest reaches (by simp only [exponent, abs_of_pos posY]; omega)

theorem nearest_mono (le : x ≤ y) : nearest x ≤ nearest y := by
  rcases lt_or_ge 0 x with pos | nonpos
  · exact nearest_mono_of_pos pos le
  · rcases le_or_gt 0 y with nonneg | neg
    · have upper := nearest_nonneg (neg_nonneg.mpr nonpos)
      rw [nearest_neg] at upper
      exact le_trans (by linarith) (nearest_nonneg nonneg)
    · have flipped := nearest_mono_of_pos (neg_pos.mpr neg) (neg_le_neg le)
      rw [nearest_neg, nearest_neg] at flipped
      linarith

/-! ## Rounding to two digits -/

/-- `round(x, 2)`: to the nearest decimal of two digits, in the middle of two to the even one, and then to a double. -/
def round2 (x : ℚ) : ℚ := nearest (roundHalfEven (100 * x) / 100)

theorem round2_mono (le : x ≤ y) : round2 x ≤ round2 y := by
  apply nearest_mono
  apply div_le_div_of_nonneg_right _ (by norm_num)
  exact_mod_cast roundHalfEven_mono (by linarith)

theorem nearest_zpow (j : ℤ) (fine : exponent (2 ^ j) ≤ j) : nearest (2 ^ j) = 2 ^ j :=
  le_antisymm (nearest_le_zpow le_rfl fine) (zpow_le_nearest le_rfl fine)

/-- A rational closer to a multiple of its unit than half that unit. -/
theorem nearest_eq_of_close (close : |x - k * quantum x| < quantum x / 2) : nearest x = k * quantum x := by
  have pos := quantum_pos x
  rw [abs_lt] at close
  have rounded : roundHalfEven (x / quantum x) = k := by
    apply roundHalfEven_eq_of_lt
    · rw [lt_div_iff₀ pos]
      linarith
    · rw [div_lt_iff₀ pos]
      linarith
  rw [nearest, rounded]

/-- Where doubles are dense enough the decimal can be read back from its double. -/
theorem roundHalfEven_nearest_of_dense (dense : quantum (k / 100) < 1 / 100) :
    roundHalfEven (100 * nearest (k / 100)) = k := by
  have close := abs_nearest_sub_le (k / 100 : ℚ)
  rw [abs_le] at close
  apply roundHalfEven_eq_of_lt <;> linarith

theorem neg_seven_lt_exponent (sparse : 1 / 100 ≤ quantum x) : -7 < exponent x := by
  by_contra le
  have small : (2 : ℚ) ^ exponent x ≤ 2 ^ (-7 : ℤ) := zpow_le_zpow_right₀ (by norm_num) (by omega)
  rw [quantum] at sparse
  norm_num at small
  linarith

/-- Two multiples of a unit that differ by less than the unit. -/
theorem mul_eq_of_abs_lt {m n : ℤ} {u : ℚ} (pos : 0 < u) (close : |(m : ℚ) * u - n * u| < u) : m = n := by
  rw [← sub_mul, abs_mul, abs_of_pos pos] at close
  have small : |((m - n : ℤ) : ℚ)| < 1 := by
    push_cast
    exact lt_of_mul_lt_mul_right (by linarith) pos.le
  rw [← Int.cast_abs] at small
  have zero : |m - n| < 1 := by exact_mod_cast small
  rw [abs_lt] at zero
  omega

theorem exponent_zpow_le {j : ℤ} (nonneg : 0 ≤ j) : exponent ((2 : ℚ) ^ j) ≤ j := by
  have log : Int.log 2 ((2 : ℚ) ^ j) = j := by exact_mod_cast Int.log_zpow (R := ℚ) (b := 2) (by norm_num) j
  rw [exponent, abs_of_pos (zpow_pos (by norm_num) j), log]
  omega

/-- A decimal of two digits next to a large power of two is that power. -/
theorem nearest_of_close_zpow {j : ℤ} (nonneg : 0 ≤ j) (close : |(k : ℚ) / 100 - 2 ^ j| ≤ 1 / 200) :
    nearest (k / 100) = 2 ^ j := by
  obtain ⟨n, rfl⟩ := Int.eq_ofNat_of_zero_le nonneg
  have whole : ((2 : ℚ) ^ (n : ℤ)) = ((2 ^ n : ℤ) : ℚ) := by push_cast; rfl
  have same : k = 100 * 2 ^ n := by
    rw [whole, abs_le] at close
    have upper : (k : ℚ) < ((100 * 2 ^ n + 1 : ℤ) : ℚ) := by
      push_cast at close ⊢
      linarith
    have lower : ((100 * 2 ^ n - 1 : ℤ) : ℚ) < k := by
      push_cast at close ⊢
      linarith
    have upper : k < 100 * 2 ^ n + 1 := by exact_mod_cast upper
    have lower : 100 * 2 ^ n - 1 < k := by exact_mod_cast lower
    omega
  have exact_ : (k : ℚ) / 100 = 2 ^ (n : ℤ) := by
    rw [same, whole]
    push_cast
    ring
  rw [exact_, nearest_zpow _ (exponent_zpow_le nonneg)]

/-- Where doubles are as far apart as decimals, the decimal nearest to a double goes back to that double. -/
theorem nearest_of_sparse (pos : 0 < x) (sparse : 1 / 100 ≤ quantum x)
    (close : |(k : ℚ) / 100 - nearest x| ≤ 1 / 200) : nearest (k / 100) = nearest x := by
  have large := neg_seven_lt_exponent sparse
  have fine : 1 / 64 ≤ quantum x := by
    have le : (2 : ℚ) ^ (-6 : ℤ) ≤ 2 ^ exponent x := zpow_le_zpow_right₀ (by norm_num) (by omega)
    norm_num at le
    rw [quantum]
    linarith
  simp only [exponent, abs_of_pos pos] at large
  have reaches : (2 : ℚ) ^ Int.log 2 x ≤ x := by exact_mod_cast Int.zpow_log_le_self (b := 2) (by norm_num) pos
  have start := zpow_le_nearest reaches (by simp only [exponent, abs_of_pos pos]; omega)
  have one : (2 : ℚ) ^ (0 : ℤ) ≤ 2 ^ Int.log 2 x := zpow_le_zpow_right₀ (by norm_num) (by omega)
  have bounds := abs_le.mp close
  rw [zpow_zero] at one
  have posY : 0 < (k : ℚ) / 100 := by linarith
  -- A power of two between the decimal and `x` is the double itself.
  have at_ {j : ℤ} (log : Int.log 2 x ≤ j) (near : |(2 : ℚ) ^ j - nearest x| ≤ 1 / 200) :
      nearest (k / 100) = nearest x := by
    obtain ⟨n, multiple⟩ := exists_zpow_eq_mul (i := exponent x) (j := j) (by simp only [exponent, abs_of_pos pos]; omega)
    have same : n = roundHalfEven (x / quantum x) := by
      refine mul_eq_of_abs_lt (quantum_pos x) ?_
      have near' := near
      rw [multiple] at near'
      exact lt_of_le_of_lt near' (by linarith)
    have power : nearest x = 2 ^ j := by
      rw [nearest, ← same, multiple]
      rfl
    rw [power]
    rw [power] at close
    exact nearest_of_close_zpow (by omega) close
  rcases lt_trichotomy (Int.log 2 x) (Int.log 2 ((k : ℚ) / 100)) with above | same | below
  · obtain ⟨less, le⟩ := lt_zpow_log posY above
    have upper := nearest_le_zpow less.le (by simp only [exponent, abs_of_pos pos]; omega)
    refine at_ above.le ?_
    rw [abs_le]
    exact ⟨by linarith, by linarith⟩
  · have unit : quantum ((k : ℚ) / 100) = quantum x := by
      simp only [quantum, exponent, abs_of_pos pos, abs_of_pos posY, same]
    have rounded := nearest_eq_of_close (x := (k : ℚ) / 100) (k := roundHalfEven (x / quantum x)) (by
      rw [unit]
      exact lt_of_le_of_lt close (by linarith))
    rw [rounded, unit]
    rfl
  · obtain ⟨less, le⟩ := lt_zpow_log pos below
    refine at_ le_rfl ?_
    rw [abs_le]
    exact ⟨by linarith, by linarith⟩

theorem round2_nearest_of_pos (pos : 0 < k) : round2 (nearest (k / 100)) = nearest (k / 100) := by
  rcases lt_or_ge (quantum ((k : ℚ) / 100)) (1 / 100) with dense | sparse
  · rw [round2, roundHalfEven_nearest_of_dense dense]
  · refine nearest_of_sparse (by positivity) sparse ?_
    have close := abs_roundHalfEven_sub_le (100 * nearest (k / 100))
    rw [abs_le] at close ⊢
    exact ⟨by linarith, by linarith⟩

theorem round2_neg (x : ℚ) : round2 (-x) = -round2 x := by
  rw [round2, mul_neg, roundHalfEven_neg, Int.cast_neg, neg_div, nearest_neg, round2]

/-- Rounding to two digits keeps the double of a decimal of two digits. -/
theorem round2_nearest (k : ℤ) : round2 (nearest (k / 100)) = nearest (k / 100) := by
  rcases lt_trichotomy k 0 with neg | rfl | pos
  · have flipped := round2_nearest_of_pos (neg_pos.mpr neg)
    rw [Int.cast_neg, neg_div, nearest_neg, round2_neg] at flipped
    exact neg_injective flipped
  · have zero : nearest (((0 : ℤ) : ℚ) / 100) = 0 := by
      rw [Int.cast_zero, zero_div, nearest, zero_div]
      norm_num [roundHalfEven]
    rw [zero, round2, mul_zero]
    norm_num [roundHalfEven, nearest]
  · exact round2_nearest_of_pos pos

end MammotionRc.Machine.Binary64
