import MammotionRc.Machine.Run
import Mathlib.Data.Int.Notation

/-! # A pool bounded by one shared counter

A task that wants a block adds one to the counter and looks at what was there before: `limit` or more and
it takes its one back, fewer and it may allocate. Whoever releases a block subtracts one. Between the two
halves other tasks do the same, so the counter also counts those that will take their one back.
-/

namespace MammotionRc.Machine

structure CountedPool where
  count : ℤ
  /-- Tasks that added one and have to take it back. -/
  refused : ℕ
  /-- Tasks that added one and may allocate. -/
  admitted : ℕ
  /-- Blocks allocated and not released. -/
  live : ℕ
deriving DecidableEq, Repr

inductive PoolEvent
  /-- The counter is fetched and increased. -/
  | take
  | allocate (ok : Bool)
  | giveBack
  | release
deriving DecidableEq, Repr

namespace CountedPool

def empty : CountedPool := ⟨0, 0, 0, 0⟩

/-- One atomic access to the counter, or the allocation between two of them. -/
def step (limit : ℤ) (p : CountedPool) : PoolEvent → Option CountedPool
  | .take =>
    some (if limit ≤ p.count then { p with count := p.count + 1, refused := p.refused + 1 }
      else { p with count := p.count + 1, admitted := p.admitted + 1 })
  | .allocate ok =>
    if 0 < p.admitted then
      some (if ok then { p with admitted := p.admitted - 1, live := p.live + 1 }
        else { p with admitted := p.admitted - 1, refused := p.refused + 1 })
    else none
  | .giveBack =>
    if 0 < p.refused then some { p with count := p.count - 1, refused := p.refused - 1 } else none
  | .release => if 0 < p.live then some { p with count := p.count - 1, live := p.live - 1 } else none

variable {limit : ℤ} {p q : CountedPool}

attribute [local simp] step

theorem step_take : p.step limit .take = some q ↔
    (if limit ≤ p.count then { p with count := p.count + 1, refused := p.refused + 1 }
      else { p with count := p.count + 1, admitted := p.admitted + 1 }) = q := by
  simp

theorem step_allocate {ok : Bool} : p.step limit (.allocate ok) = some q ↔ 0 < p.admitted ∧
    (if ok then { p with admitted := p.admitted - 1, live := p.live + 1 }
      else { p with admitted := p.admitted - 1, refused := p.refused + 1 }) = q := by
  simp

theorem step_giveBack : p.step limit .giveBack = some q ↔
    0 < p.refused ∧ { p with count := p.count - 1, refused := p.refused - 1 } = q := by
  simp

theorem step_release : p.step limit .release = some q ↔
    0 < p.live ∧ { p with count := p.count - 1, live := p.live - 1 } = q := by
  simp

/-- The counter is exact, and those who passed it and the blocks they got are within the limit. -/
structure Bounded (limit : ℤ) (p : CountedPool) : Prop where
  exact : p.count = p.live + p.admitted + p.refused
  within : (p.live + p.admitted : ℤ) ≤ limit

theorem Bounded.empty (positive : 0 ≤ limit) : Bounded limit .empty := ⟨rfl, positive⟩

/-- The counter at an empty pool reads what the tasks on their way in have added. -/
theorem Bounded.count_pos (bounded : p.Bounded limit) (held : 0 < p.live) : 0 < p.count := by
  have := bounded.exact
  omega

/-- Every access keeps the pool bounded: a task is only admitted when the counter, which is never less
than what is taken, was below the limit. -/
theorem Bounded.step {e : PoolEvent} (bounded : p.Bounded limit) (stepped : p.step limit e = some q) :
    q.Bounded limit := by
  obtain ⟨exact_, within⟩ := bounded
  cases e with
  | take =>
    obtain rfl := step_take.mp stepped
    split_ifs <;> constructor <;> push_cast <;> omega
  | allocate ok =>
    obtain ⟨some_, rfl⟩ := step_allocate.mp stepped
    split_ifs <;> constructor <;> push_cast <;> omega
  | giveBack =>
    obtain ⟨some_, rfl⟩ := step_giveBack.mp stepped
    constructor <;> push_cast <;> omega
  | release =>
    obtain ⟨some_, rfl⟩ := step_release.mp stepped
    constructor <;> push_cast <;> omega

end CountedPool

end MammotionRc.Machine
