import Mathlib.Data.Rat.Defs
import Mathlib.Algebra.Order.Ring.Unbundled.Rat

/-! # Python floats as far as they are compared

A `float` is a NaN, an infinity or a finite number; finite numbers are kept as the rationals they
denote. Only comparisons are needed here, and those follow Python: every ordering test with a NaN is
false.
-/

namespace MammotionRc.Server

inductive PyFloat
  | nan
  | inf (negative : Bool)
  | fin (value : ℚ)
deriving DecidableEq, Repr

namespace PyFloat

/-- `a < b`. -/
def lt : PyFloat → PyFloat → Bool
  | .nan, _ | _, .nan => false
  | .inf true, .inf true => false
  | .inf true, _ => true
  | .inf false, _ => false
  | .fin _, .inf negative => !negative
  | .fin a, .fin b => decide (a < b)

end PyFloat

/-- Inputs below this force count as a centred stick; the double nearest to `0.15`. -/
def DEAD_ZONE : PyFloat := .fin (5404319552844595 / 2 ^ 55)

end MammotionRc.Server
