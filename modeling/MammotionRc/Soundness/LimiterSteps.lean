import Mathlib.Tactic.Ring
import MammotionRc.Firmware.TcpRateLimit

/-! # What a call does to the buckets

A refill in numbers, for a cap below `2 ^ 31`, and the debit of a packet.
-/

namespace MammotionRc.Firmware

open Machine

/-- The tokens that a time in milliseconds is worth. -/
def worth (rate : UInt32) (ms : ℕ) : ℕ := ms * rate.toNat / 1000

/-- The time that a refill pays for a number of tokens, in whole milliseconds. -/
def spent (rate : UInt32) (tokens : ℕ) : ℕ := tokens * 1000 / rate.toNat

theorem spent_worth_le (rate : UInt32) (ms : ℕ) : spent rate (worth rate ms) ≤ ms := by
  rcases Nat.eq_zero_or_pos rate.toNat with zero | positive
  · rw [spent, zero, Nat.div_zero]
    exact Nat.zero_le ms
  · calc worth rate ms * 1000 / rate.toNat
        ≤ ms * rate.toNat / rate.toNat := Nat.div_le_div_right (Nat.div_mul_le_self _ _)
      _ = ms := Nat.mul_div_cancel ms positive

section Refill

variable {rate burst : UInt32} {tokens : Int32} {lastMs nowMs : UInt32}

theorem refill_fresh : refill rate burst tokens 0 nowMs = pure (tokens, nowMs) := rfl

theorem product_lt (dt rate : UInt32) : dt.toNat * rate.toNat < 2 ^ 64 :=
  calc dt.toNat * rate.toNat < 2 ^ 32 * 2 ^ 32 := Nat.mul_lt_mul'' dt.toNat_lt rate.toNat_lt
    _ = 2 ^ 64 := rfl

theorem toInt_cap (cap sum : Int64) : (if cap < sum then cap else sum).toInt = min cap.toInt sum.toInt := by
  split
  · next above => rw [Int.min_eq_left (Int.le_of_lt (Int64.lt_iff_toInt_lt.mp above))]
  · next under => rw [Int.min_eq_right (Int.not_lt.mp fun above => under (Int64.lt_iff_toInt_lt.mpr above))]

/-- A refill of a count that has its clock, where the filled count fits. -/
theorem refill_started (rate nowMs : UInt32) (started : lastMs ≠ 0) (high : tokens.toInt ≤ burst.toNat)
    (fits : min (burst.toNat : ℤ) (tokens.toInt + worth rate (nowMs - lastMs).toNat) < 2 ^ 31) :
    (refill rate burst tokens lastMs nowMs).exact = true ∧
    (refill rate burst tokens lastMs nowMs).val.1.toInt =
      min (burst.toNat : ℤ) (tokens.toInt + worth rate (nowMs - lastMs).toNat) ∧
    (refill rate burst tokens lastMs nowMs).val.2 =
      lastMs + UInt32.ofNat (spent rate (worth rate (nowMs - lastMs).toNat)) := by
  have none_ : worth rate (nowMs - lastMs).toNat = 0 →
      tokens.toInt = min (burst.toNat : ℤ) (tokens.toInt + worth rate (nowMs - lastMs).toNat) ∧
      lastMs = lastMs + UInt32.ofNat (spent rate (worth rate (nowMs - lastMs).toNat)) := by
    intro nothing
    rw [nothing, spent, Nat.zero_mul, Nat.zero_div]
    exact ⟨by omega, (UInt32.add_zero lastMs).symm⟩
  rw [refill, if_neg started]
  by_cases still : nowMs - lastMs = 0
  · rw [if_pos still]
    exact ⟨rfl, none_ (by rw [still, worth, UInt32.toNat_zero, Nat.zero_mul, Nat.zero_div])⟩
  rw [if_neg still]
  obtain ⟨productFits, product⟩ := Checked.fit_uint64 (product_lt (nowMs - lastMs) rate)
  push_cast at productFits product
  generalize Checked.fit UInt64 ((nowMs - lastMs).toNat * rate.toNat) = p at productFits product
  have add : (p.val / 1000).toNat = worth rate (nowMs - lastMs).toNat := by
    rw [UInt64.toNat_div, product]
    rfl
  simp only [Checked.exact_bind, Checked.val_bind, productFits, Bool.true_and]
  by_cases nothing : p.val / 1000 = 0
  · rw [if_pos nothing]
    exact ⟨rfl, none_ (by rw [← add, nothing, UInt64.toNat_zero])⟩
  rw [if_neg nothing]
  have total : worth rate (nowMs - lastMs).toNat * 1000 ≤ (nowMs - lastMs).toNat * rate.toNat :=
    Nat.div_mul_le_self _ _
  have bounded := product_lt (nowMs - lastMs) rate
  have short := spent_worth_le rate (nowMs - lastMs).toNat
  have dt := (nowMs - lastMs).toNat_lt
  have tokensLow := tokens.le_toInt
  have tokensHigh := tokens.toInt_lt
  have burstHigh := burst.toNat_lt
  rw [add]
  generalize worth rate (nowMs - lastMs).toNat = w at *
  obtain ⟨addendFits, addend⟩ := Checked.fit_int64 (n := w) (by omega) (by omega)
  obtain ⟨sumFits, sum⟩ := Checked.fit_int64 (n := tokens.toInt + w) (by omega) (by omega)
  obtain ⟨capFits, capped⟩ := Checked.fit_int64 (n := burst.toNat) (by omega) (by omega)
  obtain ⟨scaledFits, scaled⟩ := Checked.fit_uint64 (n := w * 1000) (by omega)
  obtain ⟨consumedFits, consumed⟩ := Checked.fit_uint32 (n := spent rate w) (by omega)
  push_cast at scaledFits scaled
  have positive : 0 < rate := by
    rw [UInt32.lt_iff_toNat_lt]
    by_contra zero
    have zero : rate.toNat = 0 := by simpa using zero
    rw [zero, Nat.mul_zero] at total
    exact nothing (UInt64.toNat_inj.mp (by rw [add]; simpa using total))
  have quotient : ((Checked.fit UInt64 (w * 1000)).val / rate.toUInt64).toNat = spent rate w := by
    rw [UInt64.toNat_div, scaled, UInt32.toNat_toUInt64]
    rfl
  obtain ⟨filledFits, filled⟩ := Checked.fit_int32 (n := min (burst.toNat : ℤ) (tokens.toInt + w))
    (by omega) fits
  simp only [if_pos positive, Checked.exact_bind, Checked.val_bind, Checked.exact_pure, Checked.val_pure, addend,
    toInt_cap, sum, capped, quotient, addendFits, sumFits, capFits, scaledFits, consumedFits, filledFits, filled,
    Bool.and_true, true_and]
  exact congrArg (lastMs + ·) (UInt32.toNat_inj.mp (by rw [consumed, UInt32.toNat_ofNat_of_lt' (Nat.lt_of_le_of_lt short dt)]))

/-- A refill keeps its count within the cap. -/
theorem refill_inRange (rate lastMs nowMs : UInt32) (cap : burst.toNat < 2 ^ 31) (low : 0 ≤ tokens.toInt)
    (high : tokens.toInt ≤ burst.toNat) :
    (refill rate burst tokens lastMs nowMs).exact = true ∧
    0 ≤ (refill rate burst tokens lastMs nowMs).val.1.toInt ∧
    (refill rate burst tokens lastMs nowMs).val.1.toInt ≤ burst.toNat := by
  by_cases started : lastMs = 0
  · rw [started, refill_fresh]
    exact ⟨rfl, low, high⟩
  · obtain ⟨exact_, filled, _⟩ := refill_started rate nowMs started high (by omega)
    rw [filled]
    exact ⟨exact_, by omega, by omega⟩

end Refill

/-- Both counts lie between nothing and the cap. -/
structure RlBucket.InRange (b : RlBucket) (burst ppsBurst : UInt32) : Prop where
  byteLow : 0 ≤ b.byteTokens.toInt
  byteHigh : b.byteTokens.toInt ≤ burst.toNat
  ppsLow : 0 ≤ b.ppsTokens.toInt
  ppsHigh : b.ppsTokens.toInt ≤ ppsBurst.toNat

namespace TcpRateLimit

/-- The caps fit the signed counts. -/
structure Signed (s : TcpRateLimit) : Prop where
  burst : s.burst.toNat < 2 ^ 31
  ppsBurst : s.ppsBurst.toNat < 2 ^ 31

def InRange (s : TcpRateLimit) : Prop := ∀ d, (s.bucket d).InRange s.burst s.ppsBurst

/-- A bucket with what it is due at a time. -/
def refilled (s : TcpRateLimit) (b : RlBucket) (nowMs : UInt32) : RlBucket :=
  (s.refillPps (s.refillBytes b nowMs).val nowMs).val

/-- The tokens of a bucket are enough for a packet. -/
def Affords (s : TcpRateLimit) (p : Pbuf) (b : RlBucket) : Prop :=
  p.totLen.toNat ≤ b.byteTokens.toInt ∧ (s.pps = 0 ∨ 1 ≤ b.ppsTokens.toInt)

/-- A bucket after it paid for a packet. -/
structure Debited (s : TcpRateLimit) (p : Pbuf) (b c : RlBucket) : Prop where
  byteTokens : c.byteTokens.toInt = b.byteTokens.toInt - p.totLen.toNat
  ppsTokens : c.ppsTokens.toInt = b.ppsTokens.toInt - if s.pps = 0 then 0 else 1
  byteLastMs : c.byteLastMs = b.byteLastMs
  ppsLastMs : c.ppsLastMs = b.ppsLastMs

variable {s : TcpRateLimit} {b : RlBucket} {d e : Direction} {p : Pbuf} {nowMs : UInt32}

@[simp] theorem bucket_setBucket : (s.setBucket d b).bucket d = b := by cases d <;> rfl

theorem bucket_setBucket_of_ne (ne : e ≠ d) : (s.setBucket d b).bucket e = s.bucket e := by
  cases d <;> cases e <;> first | rfl | exact absurd rfl ne

theorem refilled_inRange (nowMs : UInt32) (signed : s.Signed) (inRange : b.InRange s.burst s.ppsBurst) :
    (s.refillBytes b nowMs).exact = true ∧ (s.refillPps (s.refillBytes b nowMs).val nowMs).exact = true ∧
    (s.refilled b nowMs).InRange s.burst s.ppsBurst := by
  obtain ⟨bytesExact, byteLow, byteHigh⟩ := refill_inRange s.rateBps b.byteLastMs nowMs
    signed.burst inRange.byteLow inRange.byteHigh
  obtain ⟨ppsExact, ppsLow, ppsHigh⟩ := refill_inRange s.pps b.ppsLastMs nowMs
    signed.ppsBurst inRange.ppsLow inRange.ppsHigh
  exact ⟨by rw [refillBytes, Checked.exact_bind, bytesExact]; rfl,
    by rw [refillPps, Checked.exact_bind]; exact (Bool.and_eq_true _ _).mpr ⟨ppsExact, rfl⟩,
    byteLow, byteHigh, ppsLow, ppsHigh⟩

theorem plen_fits (p : Pbuf) :
    (Checked.fit Int32 p.totLen.toNat).exact = true ∧ (Checked.fit Int32 p.totLen.toNat).val.toInt = p.totLen.toNat := by
  have := p.totLen.toNat_lt
  exact Checked.fit_int32 (by omega) (by omega)

/-- What the limiter answers and leaves for a packet, if the bucket has been refilled to `b`. -/
inductive Metered (s : TcpRateLimit) (d : Direction) (p : Pbuf) (b : RlBucket) : ℕ × TcpRateLimit → Prop
  | passed (stats : LimitStats) (c : RlBucket) (affords : s.Affords p b) (debited : s.Debited p b c) :
      Metered s d p b (0, { s with stats := stats }.setBucket d c)
  | dropped (stats : LimitStats) (dry : ¬ s.Affords p b) :
      Metered s d p b (1, { s with stats := stats }.setBucket d b)

theorem meter_metered (s : TcpRateLimit) (d : Direction) (p : Pbuf) (nowMs : UInt32) :
    s.Metered d p (s.refilled (s.bucket d) nowMs) (s.meter d p nowMs).val ∧
    ((s.refillBytes (s.bucket d) nowMs).exact = true →
      (s.refillPps (s.refillBytes (s.bucket d) nowMs).val nowMs).exact = true → (s.meter d p nowMs).exact = true) := by
  obtain ⟨plenFits, plen⟩ := plen_fits p
  simp only [meter, Checked.exact_bind, Checked.val_bind, plenFits, Bool.true_and]
  rw [show (s.refillPps (s.refillBytes (s.bucket d) nowMs).val nowMs).val = s.refilled (s.bucket d) nowMs from rfl]
  generalize s.refilled (s.bucket d) nowMs = c
  have one : (1 : Int32).toInt = 1 := rfl
  have affords : (decide ((Checked.fit Int32 p.totLen.toNat).val ≤ c.byteTokens) = true ∧
      decide (s.pps = 0 ∨ 1 ≤ c.ppsTokens) = true) ↔ s.Affords p c := by
    rw [decide_eq_true_iff, decide_eq_true_iff, Int32.le_iff_toInt_le, Int32.le_iff_toInt_le, plen, one, Affords]
  by_cases pays : s.Affords p c
  · rw [if_pos (affords.mpr pays)]
    obtain ⟨bytes, packets⟩ := pays
    have byteHigh := c.byteTokens.toInt_lt
    have ppsHigh := c.ppsTokens.toInt_lt
    obtain ⟨byteFits, byteLeft⟩ := Checked.fit_int32
      (n := c.byteTokens.toInt - (Checked.fit Int32 p.totLen.toNat).val.toInt) (by omega) (by omega)
    by_cases off : s.pps = 0
    · simp only [if_neg (not_not_intro off), Checked.exact_bind, Checked.val_bind, byteFits]
      refine ⟨.passed _ _ ⟨bytes, .inl off⟩ ⟨?_, ?_, rfl, rfl⟩, fun first second => by rw [first, second]; rfl⟩
      · rw [byteLeft, plen]
      · rw [if_pos off, Int.sub_zero]
        rfl
    · have enough := packets.resolve_left off
      obtain ⟨ppsFits, ppsLeft⟩ := Checked.fit_int32 (n := c.ppsTokens.toInt - 1) (by omega) (by omega)
      simp only [if_pos off, Checked.exact_bind, Checked.val_bind, byteFits, ppsFits]
      refine ⟨.passed _ _ ⟨bytes, packets⟩ ⟨?_, ?_, rfl, rfl⟩, fun first second => by rw [first, second]; rfl⟩
      · rw [byteLeft, plen]
      · rw [ppsLeft, if_neg off]
  · rw [if_neg (affords.not.mpr pays)]
    exact ⟨.dropped _ pays, fun first second => by rw [first, second]; rfl⟩

/-- The packets that the hook limits, with their direction. -/
def limits (s : TcpRateLimit) (p : Option Pbuf) (inp : Option ℕ) : Option (Direction × Pbuf) :=
  p.bind fun p =>
    if p.len < ipHdrSize then none
    else (s.direction inp).bind fun d =>
      if p.version = 4 ∧ (p.proto = IP_PROTO_TCP ∨ p.proto = IP_PROTO_UDP ∧ d.limitUdp) then some (d, p) else none

variable {q : Option Pbuf} {inp : Option ℕ}

/-- The hook limits a packet after it has counted it, or lets it pass and only counts it. -/
theorem hook_eq (s : TcpRateLimit) (q : Option Pbuf) (inp : Option ℕ) (nowMs : UInt32) : ∃ stats,
    s.lwipIp4InputHook q inp nowMs =
      match s.limits q inp with
      | some (d, p) => { s with stats := stats }.meter d p nowMs
      | none => pure (0, { s with stats := stats }) := by
  cases q with
  | none => exact ⟨s.stats, rfl⟩
  | some p =>
    simp only [lwipIp4InputHook, limits, Option.bind_some]
    by_cases short : p.len < ipHdrSize
    · exact ⟨s.stats, by rw [if_pos short, if_pos short]⟩
    rw [if_neg short, if_neg short]
    cases s.direction inp with
    | none => exact ⟨s.stats, rfl⟩
    | some d =>
      simp only [Option.bind_some]
      by_cases version : p.version = 4
      · rw [if_neg (not_not_intro version)]
        by_cases udp : p.proto = IP_PROTO_UDP
        · rw [if_pos udp]
          have notTcp : IP_PROTO_UDP ≠ IP_PROTO_TCP := by decide
          cases d with
          | halowRx => exact ⟨_, by simp [version, udp, Direction.limitUdp]; rfl⟩
          | softapRx => exact ⟨_, by simp [version, udp, notTcp, Direction.limitUdp]; rfl⟩
        · rw [if_neg udp]
          by_cases tcp : p.proto = IP_PROTO_TCP
          · exact ⟨s.stats, by simp [version, tcp]⟩
          · exact ⟨s.stats, by simp [udp, tcp]⟩
      · exact ⟨s.stats, by simp [version]⟩

theorem Metered.of_stats {stats : LimitStats} {r : ℕ × TcpRateLimit}
    (metered : Metered { s with stats := stats } d p b r) : Metered s d p b r := by
  cases metered with
  | passed stats c affords debited =>
    exact .passed stats c affords ⟨debited.byteTokens, debited.ppsTokens, debited.byteLastMs, debited.ppsLastMs⟩
  | dropped stats dry => exact .dropped stats dry

theorem hook_metered (limited : s.limits q inp = some (d, p)) (nowMs : UInt32) :
    s.Metered d p (s.refilled (s.bucket d) nowMs) (s.lwipIp4InputHook q inp nowMs).val ∧
    ((s.refillBytes (s.bucket d) nowMs).exact = true →
      (s.refillPps (s.refillBytes (s.bucket d) nowMs).val nowMs).exact = true →
      (s.lwipIp4InputHook q inp nowMs).exact = true) := by
  obtain ⟨stats, hook⟩ := s.hook_eq q inp nowMs
  rw [hook, limited]
  have same : ({ s with stats := stats } : TcpRateLimit).bucket d = s.bucket d := by cases d <;> rfl
  obtain ⟨metered, exact_⟩ := meter_metered { s with stats := stats } d p nowMs
  rw [same] at metered exact_
  exact ⟨metered.of_stats, exact_⟩

end TcpRateLimit

end MammotionRc.Firmware
