import Mathlib.Data.List.Basic
import Mathlib.Data.List.Count

/-! # Tables of calls

A machine with any number of calls under way keeps them in a list, where a call is known by its position: a new call
is appended, and one that goes on is replaced. Both leave the other calls where they are.
-/

namespace MammotionRc.Machine.Table

variable {α : Type*} {xs : List α} {x y : α} {i j : ℕ}

theorem of_concat (found : (xs ++ [y])[i]? = some x) : xs[i]? = some x ∨ (i = xs.length ∧ x = y) := by
  rcases Nat.lt_trichotomy i xs.length with below | same | above
  · rw [List.getElem?_append_left below] at found
    exact .inl found
  · subst same
    rw [List.getElem?_concat_length] at found
    exact .inr ⟨rfl, (Option.some.inj found).symm⟩
  · rw [List.getElem?_eq_none (by rw [List.length_append, List.length_singleton]; omega)] at found
    cases found

theorem concat (found : xs[i]? = some x) (y : α) : (xs ++ [y])[i]? = some x := by
  rw [List.getElem?_append_left (List.getElem?_eq_some_iff.mp found).1]
  exact found

theorem of_set (found : (xs.set i y)[j]? = some x) : (i = j ∧ x = y) ∨ (i ≠ j ∧ xs[j]? = some x) := by
  rw [List.getElem?_set] at found
  split at found
  · next same =>
    split at found
    · exact .inl ⟨same, (Option.some.inj found).symm⟩
    · cases found
  · next ne => exact .inr ⟨ne, found⟩

theorem set_self (found : xs[i]? = some x) (y : α) : (xs.set i y)[i]? = some y :=
  List.getElem?_set_self (List.getElem?_eq_some_iff.mp found).1

theorem set_of_ne (found : xs[j]? = some x) (ne : i ≠ j) (y : α) : (xs.set i y)[j]? = some x := by
  rw [List.getElem?_set_ne ne]
  exact found

/-- Replacing a call changes a count by what the two count for. -/
theorem countP_set {p : α → Bool} (found : xs[i]? = some x) (y : α) :
    (xs.set i y).countP p + (if p x then 1 else 0) = xs.countP p + (if p y then 1 else 0) := by
  obtain ⟨below, rfl⟩ := List.getElem?_eq_some_iff.mp found
  have counted : (if p xs[i] then 1 else 0) ≤ xs.countP p := by
    split
    · next holds => exact List.countP_pos_iff.mpr ⟨_, List.getElem_mem below, holds⟩
    · exact Nat.zero_le _
  rw [List.countP_set below]
  omega

end MammotionRc.Machine.Table
