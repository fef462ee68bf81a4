import Mathlib.Data.Rat.Defs
import Mathlib.Logic.Function.Basic

/-! # Timers of an event loop

`setTimeout` arms a callback under a new number, and `clearTimeout` disarms it. An armed timer fires at any
moment, since a delay only bounds its time from below, and is disarmed by that. A program keeps the number of
a pending timer in a variable; `Holds` says that the variable has the number of the only armed timer of a kind,
or nothing if there is none.
-/

namespace MammotionRc.Machine

structure Timers (α : Type*) where
  next : ℕ
  /-- The callback and the delay of an armed timer. -/
  armed : ℕ → Option (α × ℚ)
  fresh : ∀ id, next ≤ id → armed id = none

namespace Timers

variable {α : Type*}

def empty : Timers α := ⟨0, fun _ => none, fun _ _ => rfl⟩

theorem setTimeout_fresh (t : Timers α) (callback : α) (delay : ℚ) (id : ℕ) (le : t.next + 1 ≤ id) :
    Function.update t.armed t.next (some (callback, delay)) id = none := by
  rw [Function.update_of_ne (Nat.ne_of_gt le)]
  exact t.fresh id (Nat.le_of_succ_le le)

/-- Arm a callback; its number is `t.next`. -/
def setTimeout (t : Timers α) (callback : α) (delay : ℚ) : Timers α :=
  ⟨t.next + 1, Function.update t.armed t.next (some (callback, delay)), t.setTimeout_fresh callback delay⟩

theorem clearTimeout_fresh (t : Timers α) (id other : ℕ) (le : t.next ≤ other) :
    Function.update t.armed id none other = none := by
  rw [Function.update_apply]
  split
  · rfl
  · exact t.fresh other le

def clearTimeout (t : Timers α) (id : ℕ) : Timers α :=
  ⟨t.next, Function.update t.armed id none, t.clearTimeout_fresh id⟩

/-- Disarm the timer that a variable names, if it names one. -/
def clearHeld (t : Timers α) : Option ℕ → Timers α
  | none => t
  | some id => t.clearTimeout id

variable {t : Timers α} {kind other : α → Prop} {held : Option ℕ} {callback c : α} {delay d : ℚ} {id id' : ℕ}

theorem armed_setTimeout : (t.setTimeout callback delay).armed id = some (c, d) ↔
    (id = t.next ∧ callback = c ∧ delay = d) ∨ t.armed id = some (c, d) := by
  change Function.update t.armed t.next (some (callback, delay)) id = some (c, d) ↔ _
  rw [Function.update_apply]
  split
  · next same =>
    subst same
    simp [t.fresh t.next le_rfl]
  · next ne => simp [ne]

theorem armed_clearTimeout :
    (t.clearTimeout id).armed id' = some (c, d) ↔ id' ≠ id ∧ t.armed id' = some (c, d) := by
  change Function.update t.armed id none id' = some (c, d) ↔ _
  rw [Function.update_apply]
  split
  · next same => simp [same]
  · next ne => simp [ne]

theorem armed_clearHeld :
    (t.clearHeld held).armed id = some (c, d) ↔ held ≠ some id ∧ t.armed id = some (c, d) := by
  cases held with
  | none => simp [clearHeld]
  | some number => rw [clearHeld, armed_clearTimeout, ne_comm, Ne, Ne, Option.some.injEq]

/-- `held` is the number of the only armed timer of a kind, or nothing if none is armed. -/
structure Holds (t : Timers α) (kind : α → Prop) (held : Option ℕ) : Prop where
  only : ∀ id c d, t.armed id = some (c, d) → kind c → held = some id
  armed : ∀ id, held = some id → ∃ c d, t.armed id = some (c, d) ∧ kind c

theorem holds_empty (kind : α → Prop) : (empty : Timers α).Holds kind none :=
  ⟨fun _ _ _ armed => absurd armed (Option.some_ne_none _).symm, fun _ held => absurd held (Option.some_ne_none _).symm⟩

/-- At most one timer of the kind is armed. -/
theorem Holds.unique {c' : α} {d' : ℚ} (holds : t.Holds kind held) (first : t.armed id = some (c, d)) (is : kind c)
    (second : t.armed id' = some (c', d')) (is' : kind c') : id = id' :=
  Option.some.inj ((holds.only id c d first is).symm.trans (holds.only id' c' d' second is'))

theorem Holds.setTimeout (holds : t.Holds kind none) (is : kind callback) :
    (t.setTimeout callback delay).Holds kind (some t.next) := by
  refine ⟨fun id c d armed kinds => ?_, fun id same => ?_⟩
  · rcases armed_setTimeout.mp armed with ⟨rfl, _⟩ | before
    · rfl
    · cases holds.only id c d before kinds
  · cases same
    exact ⟨callback, delay, armed_setTimeout.mpr (.inl ⟨rfl, rfl, rfl⟩), is⟩

theorem Holds.setTimeout_of_not (holds : t.Holds kind held) (isNot : ¬ kind callback) :
    (t.setTimeout callback delay).Holds kind held := by
  refine ⟨fun id c d armed kinds => ?_, fun id same => ?_⟩
  · rcases armed_setTimeout.mp armed with ⟨_, rfl, _⟩ | before
    · exact absurd kinds isNot
    · exact holds.only id c d before kinds
  · obtain ⟨c, d, armed, kinds⟩ := holds.armed id same
    exact ⟨c, d, armed_setTimeout.mpr (.inr armed), kinds⟩

theorem Holds.clearHeld (holds : t.Holds kind held) : (t.clearHeld held).Holds kind none := by
  refine ⟨fun id c d armed kinds => ?_, fun _ none => absurd none (Option.some_ne_none _).symm⟩
  obtain ⟨ne, before⟩ := armed_clearHeld.mp armed
  exact absurd (holds.only id c d before kinds) ne

/-- Disarming a timer of one kind leaves those of another. -/
theorem Holds.clearTimeout_of_not (holds : t.Holds kind held)
    (isNot : ∀ c d, t.armed id = some (c, d) → ¬ kind c) : (t.clearTimeout id).Holds kind held := by
  refine ⟨fun id' c d armed kinds => holds.only id' c d (armed_clearTimeout.mp armed).2 kinds, fun id' same => ?_⟩
  obtain ⟨c, d, armed, kinds⟩ := holds.armed id' same
  refine ⟨c, d, armed_clearTimeout.mpr ⟨?_, armed⟩, kinds⟩
  rintro rfl
  exact isNot c d armed kinds

theorem Holds.clearHeld_of_not {name : Option ℕ} (holds : t.Holds kind held) (others : t.Holds other name)
    (apart : ∀ c, other c → ¬ kind c) : (t.clearHeld name).Holds kind held := by
  cases name with
  | none => exact holds
  | some id =>
    refine holds.clearTimeout_of_not fun c d armed => ?_
    obtain ⟨c', d', armed', is⟩ := others.armed id rfl
    cases armed.symm.trans armed'
    exact apart c is

end Timers

end MammotionRc.Machine
