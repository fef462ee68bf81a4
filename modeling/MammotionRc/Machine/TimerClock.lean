import Mathlib.Algebra.Order.Ring.Unbundled.Rat
import MammotionRc.Machine.Timers

/-! # Timers with the time that they count

Timer time stands still as long as an armed timer is due, so that no armed timer is ever overdue.
-/

namespace MammotionRc.Machine

/-- Each armed callback has the time at which it is due. -/
structure TimerClock (α : Type*) where
  now : ℚ
  timers : Timers (α × ℚ)
  punctual : ∀ id callback due delay, timers.armed id = some ((callback, due), delay) → now ≤ due

namespace TimerClock

variable {α : Type*} (t : TimerClock α)

def start : TimerClock α := ⟨0, .empty, fun _ _ _ _ armed => absurd armed (Option.some_ne_none _).symm⟩

/-- No armed timer is due before the time has passed. -/
def MayElapse (ms : ℚ) : Prop :=
  0 ≤ ms ∧ ∀ id, id < t.timers.next → ((t.timers.armed id).all fun armed => decide (t.now + ms ≤ armed.1.2)) = true

instance (ms : ℚ) : Decidable (t.MayElapse ms) := inferInstanceAs (Decidable (_ ∧ _))

theorem MayElapse.le {t : TimerClock α} {ms due delay : ℚ} {id : ℕ} {callback : α} (may : t.MayElapse ms)
    (armed : t.timers.armed id = some ((callback, due), delay)) : t.now + ms ≤ due := by
  rcases Nat.lt_or_ge id t.timers.next with below | fresh
  · have all := may.2 id below
    rw [armed] at all
    exact of_decide_eq_true all
  · rw [t.timers.fresh id fresh] at armed
    cases armed

def elapse (ms : ℚ) (may : t.MayElapse ms) : TimerClock α :=
  ⟨t.now + ms, t.timers, fun _ _ _ _ armed => may.le armed⟩

/-- Arm a callback that is due after a delay; its number is `t.timers.next`. -/
def setTimeout (callback : α) (delay : ℚ) (later : 0 ≤ delay) : TimerClock α where
  now := t.now
  timers := t.timers.setTimeout (callback, t.now + delay) delay
  punctual := by
    intro id c due d armed
    rcases Timers.armed_setTimeout.mp armed with ⟨_, same, _⟩ | before
    · cases same
      exact le_add_of_nonneg_right later
    · exact t.punctual id c due d before

def clearTimeout (id : ℕ) : TimerClock α where
  now := t.now
  timers := t.timers.clearTimeout id
  punctual := fun id' c due d armed => t.punctual id' c due d (Timers.armed_clearTimeout.mp armed).2

/-- Disarm the timer that a variable names, if it names one. -/
def clearHeld : Option ℕ → TimerClock α
  | none => t
  | some id => t.clearTimeout id

/-- The callback of an armed timer that is due. -/
def due (id : ℕ) : Option α :=
  match t.timers.armed id with
  | some ((callback, due), _) => if due ≤ t.now then some callback else none
  | none => none

variable {t}

@[simp] theorem clearHeld_now (held : Option ℕ) : (t.clearHeld held).now = t.now := by cases held <;> rfl

@[simp] theorem clearHeld_timers (held : Option ℕ) : (t.clearHeld held).timers = t.timers.clearHeld held := by
  cases held <;> rfl

theorem armed_of_due {id : ℕ} {callback : α} (fires : t.due id = some callback) :
    ∃ due delay, t.timers.armed id = some ((callback, due), delay) := by
  simp only [due] at fires
  split at fires
  · next armed =>
    split at fires
    · cases fires
      exact ⟨_, _, armed⟩
    · cases fires
  · cases fires

end TimerClock

end MammotionRc.Machine
