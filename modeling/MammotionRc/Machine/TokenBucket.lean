import Mathlib.Algebra.GroupWithZero.Nat
import Mathlib.Algebra.Order.Group.Nat
import Mathlib.Data.Nat.Notation

/-! # Token buckets

A bucket earns `rate` tokens in a thousand units of time and holds at most `burst` of them; its clock says up to
when it was refilled. Refills that credit no more than their clock moves bound what can be taken in any window.
Refills that move their clock by no more than what they credit costs lose nothing of the time that passes.
-/

namespace MammotionRc.Machine

structure TokenBucket where
  tokens : ℕ
  /-- The time up to which it was refilled. -/
  clock : ℕ

namespace TokenBucket

variable {rate burst : ℕ} {b c d : TokenBucket} {now last width : ℕ} {visits : List (ℕ × ℕ)}

/-- A refill of `b` to `c`. -/
structure Sound (rate burst : ℕ) (b c : TokenBucket) (now : ℕ) : Prop where
  capped : c.tokens ≤ burst
  paid : 1000 * c.tokens + rate * b.clock ≤ 1000 * b.tokens + rate * c.clock
  past : c.clock ≤ now
  due : rate * now < rate * c.clock + 1000

/-- Visits at their times, each of which refills the bucket and takes some of its tokens. -/
inductive Visited (rate burst : ℕ) : TokenBucket → List (ℕ × ℕ) → TokenBucket → Prop
  | nil (b : TokenBucket) : Visited rate burst b [] b
  | cons {b c d : TokenBucket} {now n : ℕ} {visits : List (ℕ × ℕ)} (refill : Sound rate burst b c now)
      (pays : n ≤ c.tokens) (rest : Visited rate burst ⟨c.tokens - n, c.clock⟩ visits d) :
      Visited rate burst b ((now, n) :: visits) d

/-- The tokens that the visits take. -/
def taken (visits : List (ℕ × ℕ)) : ℕ := (visits.map Prod.snd).sum

/-- What is taken is paid by the tokens that were there and by the time that the clock moves. -/
theorem Visited.paid (visited : Visited rate burst b visits d) :
    1000 * taken visits + 1000 * d.tokens + rate * b.clock ≤ 1000 * b.tokens + rate * d.clock := by
  induction visited with
  | nil b => simp [taken]
  | cons refill pays rest ih =>
    have paid := refill.paid
    simp only [taken, List.map_cons, List.sum_cons] at ih ⊢
    omega

theorem Visited.past (visited : Visited rate burst b visits d) (before : b.clock ≤ last)
    (times : ∀ visit ∈ visits, visit.1 ≤ last) : d.clock ≤ last := by
  induction visited with
  | nil b => exact before
  | cons refill pays rest ih =>
    exact ih (refill.past.trans (times _ List.mem_cons_self))
      fun visit inside => times visit (List.mem_cons_of_mem _ inside)

/-- The tokens taken by visits that lie within a window. -/
theorem Visited.taken_le (visited : Visited rate burst b visits d)
    (times : ∀ first ∈ visits, ∀ visit ∈ visits, visit.1 ≤ first.1 + width) :
    taken visits ≤ burst + rate * width / 1000 + 1 := by
  cases visited with
  | nil b => exact Nat.zero_le _
  | @cons b c d now n visits refill pays rest =>
    have within : d.clock ≤ now + width :=
      rest.past (refill.past.trans (Nat.le_add_right now width))
        fun visit inside => times _ List.mem_cons_self visit (List.mem_cons_of_mem _ inside)
    have moved : rate * d.clock ≤ rate * now + rate * width := by
      rw [← Nat.mul_add]
      exact Nat.mul_le_mul_left rate within
    have paid := rest.paid
    have capped := refill.capped
    have due := refill.due
    simp only [taken, List.map_cons, List.sum_cons] at paid ⊢
    omega

/-- The account of a bucket since a first visit: the time up to its latest visit and the time that its clock
lags behind that, against what it was credited. -/
structure Accounts (rate elapsed lag credited : ℕ) : Prop where
  covers : rate * elapsed < 1000 * credited + 1000
  owes : rate * elapsed ≤ 1000 * credited + rate * lag

theorem Accounts.first (rate : ℕ) : Accounts rate 0 0 0 := ⟨by simp, by simp⟩

/-- What has been credited is at least what the elapsed time is worth, in whole tokens. -/
theorem Accounts.le_credited {elapsed lag credited : ℕ} (accounts : Accounts rate elapsed lag credited) :
    rate * elapsed / 1000 ≤ credited := by
  have covers := accounts.covers
  omega

/-- A refill that credits the whole tokens of the time since its clock, and moves it by no more than they cost. -/
theorem Accounts.refill {elapsed lag credited spacing spent : ℕ} (accounts : Accounts rate elapsed lag credited)
    (within : spent ≤ lag + spacing) (cheap : rate * spent ≤ 1000 * (rate * (lag + spacing) / 1000)) :
    Accounts rate (elapsed + spacing) (lag + spacing - spent) (credited + rate * (lag + spacing) / 1000) := by
  have owes := accounts.owes
  have whole : rate * (lag + spacing) = rate * lag + rate * spacing := Nat.mul_add rate lag spacing
  have rest : rate * (lag + spacing - spent) + rate * spent = rate * (lag + spacing) := by
    rw [← Nat.mul_add, Nat.sub_add_cancel within]
  constructor
  · rw [Nat.mul_add rate elapsed spacing]
    omega
  · rw [Nat.mul_add rate elapsed spacing]
    omega

end TokenBucket

end MammotionRc.Machine
