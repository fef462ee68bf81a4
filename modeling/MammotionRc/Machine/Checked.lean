import Mathlib.Algebra.Group.Int.Defs
import Mathlib.Algebra.Group.Nat.Defs

/-! # Machine integers, with a record of overflow

A type of machine integers stores the integers of a range; outside of it a store wraps. `fit` stores an exact
result, as an operation or a conversion does, and notes whether the range has it. `Checked` collects these
notes over a computation, whose value is the one that the machine computes either way.
-/

namespace MammotionRc.Machine

class MachineInt (α : Type) where
  lowest : ℤ
  highest : ℤ
  ofInt : ℤ → α
  toInt : α → ℤ
  toInt_ofInt : ∀ n, lowest ≤ n → n ≤ highest → toInt (ofInt n) = n

instance : MachineInt UInt32 where
  lowest := 0
  highest := 2 ^ 32 - 1
  ofInt := UInt32.ofInt
  toInt x := x.toNat
  toInt_ofInt n low high := by
    simp only [UInt32.ofInt, UInt32.toNat_ofNat']
    omega

instance : MachineInt UInt64 where
  lowest := 0
  highest := 2 ^ 64 - 1
  ofInt := UInt64.ofInt
  toInt x := x.toNat
  toInt_ofInt n low high := by
    simp only [UInt64.ofInt, UInt64.toNat_ofNat']
    omega

instance : MachineInt Int32 where
  lowest := -2 ^ 31
  highest := 2 ^ 31 - 1
  ofInt := Int32.ofInt
  toInt := Int32.toInt
  toInt_ofInt n low high := by
    rw [Int32.toInt_ofInt]
    exact Int.bmod_eq_of_le (by simpa using low) (by simp [Int32.size]; omega)

instance : MachineInt Int64 where
  lowest := -2 ^ 63
  highest := 2 ^ 63 - 1
  ofInt := Int64.ofInt
  toInt := Int64.toInt
  toInt_ofInt n low high := by
    rw [Int64.toInt_ofInt]
    exact Int.bmod_eq_of_le (by simpa using low) (by simp [Int64.size]; omega)

/-- A result and whether everything on the way to it was exact. -/
structure Checked (α : Type) where
  val : α
  exact : Bool
deriving DecidableEq, Repr

namespace Checked

variable {α β : Type}

instance : Monad Checked where
  pure a := ⟨a, true⟩
  bind x f := ⟨(f x.val).val, x.exact && (f x.val).exact⟩

@[simp] theorem val_pure (a : α) : (pure a : Checked α).val = a := rfl

@[simp] theorem exact_pure (a : α) : (pure a : Checked α).exact = true := rfl

@[simp] theorem val_bind (x : Checked α) (f : α → Checked β) : (x >>= f).val = (f x.val).val := rfl

@[simp] theorem exact_bind (x : Checked α) (f : α → Checked β) :
    (x >>= f).exact = (x.exact && (f x.val).exact) := rfl

@[simp] theorem val_map (x : Checked α) (f : α → β) : (f <$> x).val = f x.val := rfl

@[simp] theorem exact_map (x : Checked α) (f : α → β) : (f <$> x).exact = x.exact := Bool.and_true _

/-- Store an exact result. -/
def fit (α : Type) [MachineInt α] (n : ℤ) : Checked α :=
  ⟨MachineInt.ofInt n, decide (MachineInt.lowest α ≤ n ∧ n ≤ MachineInt.highest α)⟩

section Fit

variable [MachineInt α] {n : ℤ}

theorem exact_fit : (fit α n).exact = true ↔ MachineInt.lowest α ≤ n ∧ n ≤ MachineInt.highest α :=
  decide_eq_true_iff

theorem toInt_fit (exact_ : (fit α n).exact = true) : MachineInt.toInt (fit α n).val = n :=
  MachineInt.toInt_ofInt n (exact_fit.mp exact_).1 (exact_fit.mp exact_).2

end Fit

theorem fit_uint32 {n : ℕ} (small : n < 2 ^ 32) :
    (fit UInt32 n).exact = true ∧ (fit UInt32 n).val.toNat = n := by
  have fits : (fit UInt32 n).exact = true :=
    exact_fit.mpr ⟨Int.natCast_nonneg n, by simp only [MachineInt.highest]; omega⟩
  exact ⟨fits, Int.ofNat.inj (toInt_fit fits)⟩

theorem fit_uint64 {n : ℕ} (small : n < 2 ^ 64) :
    (fit UInt64 n).exact = true ∧ (fit UInt64 n).val.toNat = n := by
  have fits : (fit UInt64 n).exact = true :=
    exact_fit.mpr ⟨Int.natCast_nonneg n, by simp only [MachineInt.highest]; omega⟩
  exact ⟨fits, Int.ofNat.inj (toInt_fit fits)⟩

theorem fit_int32 {n : ℤ} (low : -2 ^ 31 ≤ n) (high : n < 2 ^ 31) :
    (fit Int32 n).exact = true ∧ (fit Int32 n).val.toInt = n := by
  have fits : (fit Int32 n).exact = true := exact_fit.mpr ⟨low, Int.le_sub_one_of_lt high⟩
  exact ⟨fits, toInt_fit fits⟩

theorem fit_int64 {n : ℤ} (low : -2 ^ 63 ≤ n) (high : n < 2 ^ 63) :
    (fit Int64 n).exact = true ∧ (fit Int64 n).val.toInt = n := by
  have fits : (fit Int64 n).exact = true := exact_fit.mpr ⟨low, Int.le_sub_one_of_lt high⟩
  exact ⟨fits, toInt_fit fits⟩

end Checked

end MammotionRc.Machine
