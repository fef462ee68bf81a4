import Mathlib.Data.Fin.Basic
import Mathlib.Data.List.Basic
import Mathlib.Data.Nat.ModEq

/-! # A ring of recent items

Item `i` of a history is written into slot `i % n` of a ring with `n` slots, in the place of item `i - n`. Whoever
knows the length of the history modulo a multiple of `n` finds its last `n` items.
-/

namespace MammotionRc.Machine.RecentRing

variable {n : ℕ} [NeZero n] {α : Type*} {slots : Vector α n} {history : List α}

/-- The slot of item `i`. -/
def slot (n : ℕ) [NeZero n] (i : ℕ) : Fin n := Fin.ofNat n i

/-- The ring has the last `n` items of a history. -/
def Holds (slots : Vector α n) (history : List α) : Prop :=
  ∀ i < history.length, history.length ≤ i + n → history[i]? = some slots[slot n i]

theorem slot_eq_iff {i j : ℕ} : slot n i = slot n j ↔ i ≡ j [MOD n] := by
  rw [slot, slot, Fin.ext_iff, Fin.val_ofNat, Fin.val_ofNat, Nat.ModEq]

theorem holds_nil : Holds slots [] := fun i inside => absurd inside (Nat.not_lt_zero i)

/-- A new item replaces the one that is no longer recent. -/
theorem Holds.concat (holds : Holds slots history) (x : α) :
    Holds (slots.set (slot n history.length) x) (history ++ [x]) := by
  intro i inside recent
  rw [List.length_append, List.length_singleton] at inside recent
  rw [Fin.getElem_fin, Vector.getElem_set]
  rcases Nat.lt_succ_iff_lt_or_eq.mp inside with older | rfl
  · have apart : ¬ (slot n history.length : ℕ) = slot n i := by
      intro same
      have congruent := slot_eq_iff.mp (Fin.ext same.symm)
      have := (Nat.modEq_iff_dvd' older.le).mp congruent
      have := Nat.le_of_dvd (by omega) this
      omega
    rw [if_neg apart, List.getElem?_append_left older]
    exact holds i older (by omega)
  · rw [if_pos rfl, List.getElem?_concat_length]

/-- The last `k` items, read from the ring. -/
theorem Holds.recent (holds : Holds slots history) {k : ℕ} (fits : k ≤ n) (there : k ≤ history.length) :
    ((List.range k).map fun offset => slots[slot n (history.length - k + offset)]) =
      history.drop (history.length - k) := by
  apply List.ext_getElem?
  intro offset
  rw [List.getElem?_drop, List.getElem?_map]
  by_cases inside : offset < k
  · rw [List.getElem?_range inside, Option.map_some, holds _ (by omega) (by omega)]
  · rw [List.getElem?_eq_none (by simpa using inside), Option.map_none, List.getElem?_eq_none (by omega)]

end MammotionRc.Machine.RecentRing
