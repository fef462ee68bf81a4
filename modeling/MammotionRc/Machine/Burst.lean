import Mathlib.Data.List.GetD
import MammotionRc.Machine.Crc

/-! # Error bursts

A message is read as its bits, in storage order and the lowest bit of a byte first. The register is linear in
the message, so two messages of one length leave the same remainder exactly when their difference leaves
none. A division step is injective once the polynomial has its constant term, and a burst that fits into the
register is a nonzero word moved through such steps: no message survives one unnoticed.
-/

namespace MammotionRc.Machine.Crc

variable {w : ℕ} (poly : BitVec w)

/-- The bits of a message, the lowest of a byte first. -/
def bits (message : List UInt8) : List Bool :=
  message.flatMap fun byte => (List.range 8).map byte.toBitVec.getLsbD

/-- The remainder of a message of bits. -/
def registerBits (init : BitVec w) (message : List Bool) : BitVec w := message.foldl (feed poly) init

/-- The set bits lie within `width` consecutive ones, and there is one. -/
def Burst (width : ℕ) (error : List Bool) : Prop :=
  true ∈ error ∧ ∃ start, ∀ n, error[n]? = some true → start ≤ n ∧ n < start + width

theorem burst_of_window {width : ℕ} {window : List Bool} (set : true ∈ window) (short : window.length ≤ width)
    (before after : ℕ) : Burst width (List.replicate before false ++ (window ++ List.replicate after false)) := by
  refine ⟨List.mem_append_right _ (List.mem_append_left _ set), before, fun n bit => ?_⟩
  rcases Nat.lt_or_ge n before with left | right
  · rw [List.getElem?_append_left (by rwa [List.length_replicate]), List.getElem?_replicate_of_lt left] at bit
    cases bit
  rw [List.getElem?_append_right (by rwa [List.length_replicate]), List.length_replicate] at bit
  rcases Nat.lt_or_ge (n - before) window.length with inside | beyond
  · omega
  · rw [List.getElem?_append_right beyond, List.getElem?_replicate] at bit
    split_ifs at bit
    cases bit

theorem register_eq_registerBits (init : BitVec w) (message : List UInt8) :
    register poly init message = registerBits poly init (bits message) := by
  rw [register, registerBits, bits, List.foldl_flatMap]
  simp only [List.foldl_map]
  rfl

theorem length_bits (message : List UInt8) : (bits message).length = 8 * message.length := by
  induction message with
  | nil => rfl
  | cons byte message ih =>
    rw [bits, List.flatMap_cons, List.length_append, List.length_map, List.length_range, ← bits, ih,
      List.length_cons]
    omega

/-- Bytes are added bit by bit. -/
theorem bits_zipWith_xor (a b : List UInt8) :
    bits (List.zipWith (· ^^^ ·) a b) = List.zipWith (· ^^ ·) (bits a) (bits b) := by
  induction a generalizing b with
  | nil => rfl
  | cons x a ih =>
    cases b with
    | nil =>
      simp only [List.zipWith_nil_right]
      exact List.zipWith_nil_right.symm
    | cons y b =>
      have byte : (List.range 8).map (x ^^^ y).toBitVec.getLsbD =
          List.zipWith (· ^^ ·) ((List.range 8).map x.toBitVec.getLsbD) ((List.range 8).map y.toBitVec.getLsbD) := by
        rw [List.zipWith_map, List.zipWith_self]
        exact List.map_congr_left fun i _ => by rw [UInt8.toBitVec_xor, BitVec.getLsbD_xor]
      simp only [bits, List.zipWith_cons_cons, List.flatMap_cons] at ih ⊢
      rw [byte, ih, List.zipWith_append (by simp)]

theorem feed_xor (a b : BitVec w) (x y : Bool) (nonempty : 0 < w) :
    feed poly (a ^^^ b) (x ^^ y) = feed poly a x ^^^ feed poly b y := by
  have added : (single (x ^^ y) 0 : BitVec w) = single x 0 ^^^ single y 0 := by
    cases x <;> cases y <;> simp [single]
  rw [feed_eq_shift poly _ _ nonempty, feed_eq_shift poly _ _ nonempty, feed_eq_shift poly _ _ nonempty, added,
    ← shift_xor]
  congr 1
  ac_rfl

/-- The register is linear in its start and in the message. -/
theorem registerBits_xor {x y : List Bool} (same : x.length = y.length) (a b : BitVec w) (nonempty : 0 < w) :
    registerBits poly (a ^^^ b) (List.zipWith (· ^^ ·) x y) = registerBits poly a x ^^^ registerBits poly b y := by
  induction x generalizing y a b with
  | nil =>
    cases y with
    | nil => rfl
    | cons => cases same
  | cons p x ih =>
    cases y with
    | nil => cases same
    | cons q y =>
      rw [registerBits, List.zipWith_cons_cons, List.foldl_cons, feed_xor poly a b p q nonempty]
      exact ih (Nat.succ.inj same) _ _

theorem registerBits_append (init : BitVec w) (x y : List Bool) :
    registerBits poly init (x ++ y) = registerBits poly (registerBits poly init x) y := List.foldl_append ..

/-- Clear bits only step the register. -/
theorem registerBits_clear {x : List Bool} (clear : true ∉ x) (r : BitVec w) :
    registerBits poly r x = (shift poly)^[x.length] r := by
  induction x generalizing r with
  | nil => rfl
  | cons b x ih =>
    obtain rfl : b = false := Bool.not_eq_true _ |>.mp fun set => clear (set ▸ List.mem_cons_self)
    have step : feed poly r false = shift poly r := by
      rw [feed, shift]
      cases r.getLsbD 0 <;> rfl
    rw [registerBits, List.foldl_cons, step]
    exact ih (fun mem => clear (List.mem_cons_of_mem _ mem)) _

theorem shift_zero : shift poly 0#w = 0#w := by
  rw [shift_of_even poly (by simp)]
  simp

/-- With a constant term, the coefficient that leaves the register comes back at its top. -/
theorem shift_injective (top : poly.getLsbD (w - 1) = true) : Function.Injective (shift poly) := by
  intro a b same
  have bit (i : ℕ) : (a.getLsbD (1 + i) ^^ (a.getLsbD 0 && poly.getLsbD i)) =
      (b.getLsbD (1 + i) ^^ (b.getLsbD 0 && poly.getLsbD i)) := by
    rw [← getLsbD_shift, ← getLsbD_shift, same]
  have low : a.getLsbD 0 = b.getLsbD 0 := by
    have := bit (w - 1)
    rwa [top, BitVec.getLsbD_of_ge a _ (by omega), BitVec.getLsbD_of_ge b _ (by omega), Bool.and_true, Bool.and_true,
      Bool.false_xor, Bool.false_xor] at this
  apply BitVec.eq_of_getLsbD_eq
  intro i _
  cases i with
  | zero => exact low
  | succ i =>
    have := bit i
    rw [low] at this
    rw [Nat.add_comm]
    exact Bool.xor_left_inj.mp this

theorem iterate_shift_eq_zero_iff (top : poly.getLsbD (w - 1) = true) (k : ℕ) (r : BitVec w) :
    (shift poly)^[k] r = 0#w ↔ r = 0#w := by
  have fixed : (shift poly)^[k] 0#w = 0#w := Function.iterate_fixed (shift_zero poly) k
  constructor
  · intro gone
    exact (shift_injective poly top).iterate k (gone.trans fixed.symm)
  · rintro rfl
    exact fixed

/-- Bits as a word, the first of them lowest. -/
def word (x : List Bool) : BitVec w := (BitVec.ofBoolListLE x).setWidth w

theorem getLsbD_word (x : List Bool) {i : ℕ} (inside : i < w) : (word x : BitVec w).getLsbD i = x.getD i false := by
  rw [word, BitVec.getLsbD_setWidth, BitVec.getLsbD_ofBoolListLE, decide_eq_true inside, Bool.true_and]

theorem word_ne_zero {x : List Bool} (set : true ∈ x) (short : x.length ≤ w) : (word x : BitVec w) ≠ 0#w := by
  intro zero
  obtain ⟨i, inside, bit⟩ := List.getElem_of_mem set
  have := getLsbD_word (w := w) x (i := i) (by omega)
  rw [zero, List.getD_eq_getElem _ _ inside, bit] at this
  simp at this

/-- Bits that fit into the register may be added to it before the steps. -/
theorem registerBits_word {x : List Bool} (short : x.length ≤ w) (r : BitVec w) :
    registerBits poly r x = (shift poly)^[x.length] (r ^^^ word x) := by
  have low : lowBits x.length (word x : BitVec w) = word x := by
    apply BitVec.eq_of_getLsbD_eq
    intro i inside
    rw [getLsbD_lowBits, getLsbD_word x inside]
    rcases Nat.lt_or_ge i x.length with small | large
    · rw [decide_eq_true small, Bool.true_and]
    · rw [List.getD_eq_default _ _ large, Bool.and_false]
  have listed : x = (List.range x.length).map (word x : BitVec w).getLsbD := by
    apply List.ext_getElem (by simp)
    intro i inside _
    rw [List.getElem_map, List.getElem_range, getLsbD_word x (by omega), List.getD_eq_getElem _ _ inside]
  have fed := feed_lowBits poly r (word x) short
  rw [low] at fed
  rw [← fed, registerBits]
  conv_lhs => rw [listed, List.foldl_map]

/-- A burst that fits into the register leaves a remainder. -/
theorem registerBits_burst_ne_zero (top : poly.getLsbD (w - 1) = true) {error : List Bool}
    (burst : Burst w error) : registerBits poly 0#w error ≠ 0#w := by
  obtain ⟨set, start, within⟩ := burst
  have before : true ∉ error.take start := by
    intro mem
    obtain ⟨n, inside⟩ := List.mem_iff_getElem?.mp mem
    rw [List.getElem?_take] at inside
    split_ifs at inside
    exact absurd (within n inside).1 (by omega)
  have after : true ∉ (error.drop start).drop w := by
    intro mem
    obtain ⟨n, inside⟩ := List.mem_iff_getElem?.mp mem
    rw [List.drop_drop, List.getElem?_drop] at inside
    exact absurd (within _ inside).2 (by omega)
  have window : true ∈ (error.drop start).take w := by
    rw [← List.take_append_drop start error, List.mem_append] at set
    have set := set.resolve_left before
    rw [← List.take_append_drop w (error.drop start), List.mem_append] at set
    exact set.resolve_right after
  have length : ((error.drop start).take w).length ≤ w := List.length_take_le ..
  have start_ : registerBits poly 0#w (error.take start) = 0#w := by
    rw [registerBits_clear poly before, iterate_shift_eq_zero_iff poly top]
  have split : error = error.take start ++ ((error.drop start).take w ++ (error.drop start).drop w) := by
    rw [List.take_append_drop, List.take_append_drop]
  rw [split, registerBits_append, registerBits_append, start_, registerBits_word poly length,
    registerBits_clear poly after, BitVec.zero_xor, ne_eq, iterate_shift_eq_zero_iff poly top,
    iterate_shift_eq_zero_iff poly top]
  exact word_ne_zero window length

/-- A message and the same message under a burst have different remainders. -/
theorem register_burst_ne (top : poly.getLsbD (w - 1) = true) (init : BitVec w) {message error : List UInt8}
    (same : message.length = error.length) (burst : Burst w (bits error)) :
    register poly init (List.zipWith (· ^^^ ·) message error) ≠ register poly init message := by
  have nonempty : 0 < w := by
    by_contra empty
    rw [BitVec.getLsbD_of_ge _ _ (by omega)] at top
    cases top
  have lengths : (bits message).length = (bits error).length := by rw [length_bits, length_bits, same]
  have linear := registerBits_xor poly lengths init 0#w nonempty
  rw [BitVec.xor_zero] at linear
  rw [register_eq_registerBits, register_eq_registerBits, bits_zipWith_xor, linear]
  intro unnoticed
  refine registerBits_burst_ne_zero poly top burst ?_
  have := congrArg (registerBits poly init (bits message) ^^^ ·) unnoticed
  simpa only [← BitVec.xor_assoc, BitVec.xor_self, BitVec.zero_xor] using this

end MammotionRc.Machine.Crc
