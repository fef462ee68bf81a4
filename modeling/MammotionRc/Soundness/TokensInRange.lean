import Mathlib.Data.UInt
import MammotionRc.Machine.Run
import MammotionRc.Soundness.LimiterSteps

/-! # Token counts stay in range

A cap of `2 ^ 31` tokens or more does not fit the signed counts. While no call sets one, every call leaves both
buckets between nothing and their caps, computes nothing that its type cannot hold, and takes tokens only from
a bucket that affords the packet.
-/

namespace MammotionRc.Firmware

open Machine

/-- The cap that a call sets. -/
def LimitCall.cap? : LimitCall → Option UInt32
  | .configure _ burst => some burst
  | .configurePps _ burst => some burst
  | _ => none

/-- A call sets no cap that the signed counts cannot hold. -/
def LimitCall.Signed (c : LimitCall) : Prop := ∀ burst ∈ c.cap?, burst.toNat < 2 ^ 31

namespace TcpRateLimit

/-- What the limiter keeps in every call. -/
structure Kept (s : TcpRateLimit) (c : LimitCall) : Prop where
  inRange : (s.call c).val.2.InRange
  exact_ : (s.call c).exact = true
  metered : ∀ q inp nowMs d p, c = .lwipIp4InputHook q inp nowMs → s.limits q inp = some (d, p) →
    s.Metered d p (s.refilled (s.bucket d) nowMs) (s.call c).val
  /-- A refill takes nothing away. -/
  refills : ∀ d nowMs, (s.bucket d).byteTokens.toInt ≤ (s.refilled (s.bucket d) nowMs).byteTokens.toInt ∧
    (s.bucket d).ppsTokens.toInt ≤ (s.refilled (s.bucket d) nowMs).ppsTokens.toInt

variable {s : TcpRateLimit} {c : LimitCall} {b : RlBucket} {d : Direction} {p : Pbuf} {tokens : Int32} {burst : UInt32}

theorem clip_exact (exact_ : (clip tokens burst).exact = true) : burst.toNat < 2 ^ 31 := by
  have high := (Checked.exact_fit.mp ((Bool.and_eq_true _ _).mp exact_).1).2
  simp only [MachineInt.highest] at high
  omega

theorem clip_spec (cap : burst.toNat < 2 ^ 31) :
    (clip tokens burst).exact = true ∧ (clip tokens burst).val.toInt = min (burst.toNat : ℤ) tokens.toInt := by
  obtain ⟨fits, value⟩ := Checked.fit_int32 (n := burst.toNat) (by omega) (by omega)
  refine ⟨by rw [clip, Checked.exact_bind, fits]; rfl, ?_⟩
  rw [clip, Checked.val_bind, Checked.val_pure]
  split
  · next above =>
    rw [Int32.lt_iff_toInt_lt, value] at above
    rw [value, Int.min_eq_left (Int.le_of_lt above)]
  · next under =>
    rw [Int32.lt_iff_toInt_lt, value] at under
    rw [Int.min_eq_right (Int.not_lt.mp under)]

theorem clip_inRange (cap : burst.toNat < 2 ^ 31) (low : 0 ≤ tokens.toInt) :
    0 ≤ (clip tokens burst).val.toInt ∧ (clip tokens burst).val.toInt ≤ burst.toNat := by
  rw [(clip_spec cap).2]
  omega

/-- A cap that does not fit makes a call inexact. -/
theorem signed_of_exact (exact_ : (s.call c).exact = true) : c.Signed := by
  intro burst set
  cases c with
  | configure rate cap =>
    cases set
    exact clip_exact ((Bool.and_eq_true _ _).mp ((Bool.and_eq_true _ _).mp exact_).1).1
  | configurePps rate cap =>
    cases set
    exact clip_exact ((Bool.and_eq_true _ _).mp ((Bool.and_eq_true _ _).mp exact_).1).1
  | setHalowNetif netif => cases set
  | setSoftapNetif netif => cases set
  | lwipIp4InputHook q inp nowMs => cases set

theorem refill_grows {rate lastMs nowMs : UInt32} (cap : burst.toNat < 2 ^ 31)
    (high : tokens.toInt ≤ burst.toNat) :
    tokens.toInt ≤ (refill rate burst tokens lastMs nowMs).val.1.toInt := by
  by_cases started : lastMs = 0
  · rw [started, refill_fresh]
    exact Int.le_refl _
  · rw [(refill_started _ _ started high (by omega)).2.1]
    omega

theorem refills (signed : s.Signed) (inRange : s.InRange) (d : Direction) (nowMs : UInt32) :
    (s.bucket d).byteTokens.toInt ≤ (s.refilled (s.bucket d) nowMs).byteTokens.toInt ∧
    (s.bucket d).ppsTokens.toInt ≤ (s.refilled (s.bucket d) nowMs).ppsTokens.toInt :=
  ⟨refill_grows signed.burst (inRange d).byteHigh, refill_grows signed.ppsBurst (inRange d).ppsHigh⟩

theorem InRange.setBucket (inRange : s.InRange) (bucket : b.InRange s.burst s.ppsBurst) :
    (s.setBucket d b).InRange := by
  intro e
  have caps : (s.setBucket d b).burst = s.burst ∧ (s.setBucket d b).ppsBurst = s.ppsBurst := by
    cases d <;> exact ⟨rfl, rfl⟩
  rw [caps.1, caps.2]
  by_cases same : e = d
  · rw [same, bucket_setBucket]
    exact bucket
  · rw [bucket_setBucket_of_ne same]
    exact inRange e

/-- The netifs and the counters have no part in it. -/
theorem InRange.of_same (inRange : s.InRange) (halow softap : Option ℕ) (stats : LimitStats) :
    ({ s with halowNetif := halow, softapNetif := softap, stats := stats } : TcpRateLimit).InRange := by
  intro e
  cases e with
  | halowRx => exact inRange .halowRx
  | softapRx => exact inRange .softapRx

theorem Debited.inRange {c : RlBucket} (debited : s.Debited p b c) (affords : s.Affords p b)
    (inRange : b.InRange s.burst s.ppsBurst) : c.InRange s.burst s.ppsBurst := by
  obtain ⟨bytes, packets⟩ := affords
  have byteHigh := inRange.byteHigh
  have ppsLow := inRange.ppsLow
  have ppsHigh := inRange.ppsHigh
  have byteTokens := debited.byteTokens
  have ppsTokens := debited.ppsTokens
  split at ppsTokens
  · exact ⟨by omega, by omega, by omega, by omega⟩
  · next on =>
    have := packets.resolve_left on
    exact ⟨by omega, by omega, by omega, by omega⟩

theorem Metered.inRange {r : ℕ × TcpRateLimit} (metered : s.Metered d p b r) (inRange : s.InRange)
    (bucket : b.InRange s.burst s.ppsBurst) : r.2.InRange := by
  cases metered with
  | passed stats c affords debited =>
    exact InRange.setBucket (s := { s with stats := stats }) (inRange.of_same _ _ _) (debited.inRange affords bucket)
  | dropped stats dry => exact InRange.setBucket (s := { s with stats := stats }) (inRange.of_same _ _ _) bucket

theorem Metered.signed {r : ℕ × TcpRateLimit} (metered : s.Metered d p b r) (signed : s.Signed) : r.2.Signed := by
  cases metered with
  | passed stats c affords debited => cases d <;> exact ⟨signed.burst, signed.ppsBurst⟩
  | dropped stats dry => cases d <;> exact ⟨signed.burst, signed.ppsBurst⟩

theorem configure_spec (rate : UInt32) (cap : burst.toNat < 2 ^ 31) (signed : s.Signed) (inRange : s.InRange) :
    (s.configure rate burst).exact = true ∧ (s.configure rate burst).val.InRange ∧
    (s.configure rate burst).val.Signed := by
  refine ⟨?_, fun d => ?_, cap, signed.ppsBurst⟩
  · rw [configure, Checked.exact_bind, Checked.exact_bind, (clip_spec cap).1, (clip_spec cap).1]
    rfl
  · have before := inRange d
    have after := clip_inRange cap before.byteLow
    cases d with
    | halowRx => exact ⟨after.1, after.2, before.ppsLow, before.ppsHigh⟩
    | softapRx => exact ⟨after.1, after.2, before.ppsLow, before.ppsHigh⟩

theorem configurePps_spec (rate : UInt32) (cap : burst.toNat < 2 ^ 31) (signed : s.Signed) (inRange : s.InRange) :
    (s.configurePps rate burst).exact = true ∧ (s.configurePps rate burst).val.InRange ∧
    (s.configurePps rate burst).val.Signed := by
  refine ⟨?_, fun d => ?_, signed.burst, cap⟩
  · rw [configurePps, Checked.exact_bind, Checked.exact_bind, (clip_spec cap).1, (clip_spec cap).1]
    rfl
  · have before := inRange d
    have after := clip_inRange cap before.ppsLow
    cases d with
    | halowRx => exact ⟨before.byteLow, before.byteHigh, after.1, after.2⟩
    | softapRx => exact ⟨before.byteLow, before.byteHigh, after.1, after.2⟩

/-- A call that sets no cap of `2 ^ 31` or more keeps the contract. -/
theorem kept_of_signed (call : c.Signed) (signed : s.Signed) (inRange : s.InRange) :
    s.Kept c ∧ (s.call c).val.2.Signed := by
  have refills := refills signed inRange
  cases c with
  | setHalowNetif netif =>
    exact ⟨⟨inRange.of_same _ _ _, rfl, nofun, refills⟩, signed.burst, signed.ppsBurst⟩
  | setSoftapNetif netif =>
    exact ⟨⟨inRange.of_same _ _ _, rfl, nofun, refills⟩, signed.burst, signed.ppsBurst⟩
  | configure rate burst =>
    obtain ⟨exact_, after, caps⟩ := configure_spec rate (call burst rfl) signed inRange
    exact ⟨⟨after, (Bool.and_eq_true _ _).mpr ⟨exact_, rfl⟩, nofun, refills⟩, caps⟩
  | configurePps rate burst =>
    obtain ⟨exact_, after, caps⟩ := configurePps_spec rate (call burst rfl) signed inRange
    exact ⟨⟨after, (Bool.and_eq_true _ _).mpr ⟨exact_, rfl⟩, nofun, refills⟩, caps⟩
  | lwipIp4InputHook q inp nowMs =>
    cases limited : s.limits q inp with
    | none =>
      obtain ⟨stats, hook⟩ := s.hook_eq q inp nowMs
      rw [limited] at hook
      have call : s.call (.lwipIp4InputHook q inp nowMs) = pure (0, { s with stats := stats }) := hook
      refine ⟨⟨?_, by rw [call]; rfl, fun q' inp' nowMs' d p is limited' => ?_, refills⟩, ?_⟩
      · rw [call]
        exact inRange.of_same _ _ _
      · cases is
        cases limited.symm.trans limited'
      · rw [call]
        exact ⟨signed.burst, signed.ppsBurst⟩
    | some found =>
      obtain ⟨d, p⟩ := found
      obtain ⟨metered, exact_⟩ := hook_metered limited nowMs
      obtain ⟨bytesExact, ppsExact, bucket⟩ := refilled_inRange nowMs signed (inRange d)
      refine ⟨⟨metered.inRange inRange bucket, exact_ bytesExact ppsExact, fun q' inp' nowMs' d' p' is limited' => ?_, refills⟩,
        metered.signed signed⟩
      cases is
      cases limited.symm.trans limited'
      exact metered

/-- A packet at the hook, and what `millis()` says then. -/
structure Arrival where
  p : Option Pbuf
  inp : Option ℕ
  millis : UInt32
deriving DecidableEq

def arrive (s : TcpRateLimit) (a : Arrival) : TcpRateLimit := (s.lwipIp4InputHook a.p a.inp a.millis).val.2

theorem arrive_kept (a : Arrival) (signed : s.Signed) (inRange : s.InRange) :
    (s.arrive a).Signed ∧ (s.arrive a).InRange := by
  obtain ⟨kept, after⟩ := kept_of_signed (c := .lwipIp4InputHook a.p a.inp a.millis) nofun signed inRange
  exact ⟨after, kept.inRange⟩

/-- A packet changes the buckets and the counters only. -/
theorem arrive_eq (s : TcpRateLimit) (a : Arrival) : ∃ bktIn bktOut stats,
    s.arrive a = { s with bktIn := bktIn, bktOut := bktOut, stats := stats } := by
  cases limited : s.limits a.p a.inp with
  | none =>
    obtain ⟨stats, hook⟩ := s.hook_eq a.p a.inp a.millis
    rw [limited] at hook
    exact ⟨s.bktIn, s.bktOut, stats, by rw [arrive, hook]; rfl⟩
  | some found =>
    obtain ⟨d, p⟩ := found
    have metered := (hook_metered limited a.millis).1
    rw [arrive]
    generalize (s.lwipIp4InputHook a.p a.inp a.millis).val = r at metered ⊢
    cases metered <;> cases d <;> exact ⟨_, _, _, rfl⟩

/-- A packet that a direction does not limit leaves its bucket alone. -/
theorem arrive_other {a : Arrival} (other : ∀ p, s.limits a.p a.inp ≠ some (d, p)) :
    (s.arrive a).bucket d = s.bucket d := by
  cases limited : s.limits a.p a.inp with
  | none =>
    obtain ⟨stats, hook⟩ := s.hook_eq a.p a.inp a.millis
    rw [limited] at hook
    rw [arrive, hook]
    cases d <;> rfl
  | some found =>
    obtain ⟨e, p⟩ := found
    have ne : d ≠ e := fun same => other p (same ▸ limited)
    have metered := (hook_metered limited a.millis).1
    rw [arrive]
    generalize (s.lwipIp4InputHook a.p a.inp a.millis).val = r at metered ⊢
    cases metered with
    | passed stats c affords debited => rw [bucket_setBucket_of_ne ne]; cases d <;> rfl
    | dropped stats dry => rw [bucket_setBucket_of_ne ne]; cases d <;> rfl

theorem init_inRange : init.InRange := by
  intro d
  cases d <;> exact ⟨by decide, by decide, by decide, by decide⟩

theorem init_signed : init.Signed := ⟨by decide, by decide⟩

theorem reported {x y : Int32} (xLow : 0 ≤ x.toInt) (yLow : 0 ≤ y.toInt) :
    let smaller := if x < y then x else y
    ((if smaller < 0 then 0 else smaller.toUInt32).toNat : ℤ) = min x.toInt y.toInt := by
  have value : (if x < y then x else y).toInt = min x.toInt y.toInt := by
    split
    · next less => rw [Int.min_eq_left (Int.le_of_lt (Int32.lt_iff_toInt_lt.mp less))]
    · next more => rw [Int.min_eq_right (Int.not_lt.mp fun less => more (Int32.lt_iff_toInt_lt.mpr less))]
  dsimp only
  generalize (if x < y then x else y) = smaller at value ⊢
  have low : 0 ≤ smaller.toInt := by omega
  rw [if_neg (Int.not_lt.mpr low ∘ Int32.lt_iff_toInt_lt.mp), ← value]
  rw [Int32.toNat_toUInt32_of_le (Int32.le_iff_toInt_le.mpr low)]
  exact Int.toNat_of_nonneg low

/-- The statistics report the tokens of the bucket that has fewer. -/
theorem getStats_spec (inRange : s.InRange) :
    (s.getStats.tokensNow.toNat : ℤ) = min s.bktIn.byteTokens.toInt s.bktOut.byteTokens.toInt ∧
    (s.getStats.ppsTokensNow.toNat : ℤ) = min s.bktIn.ppsTokens.toInt s.bktOut.ppsTokens.toInt :=
  ⟨reported (inRange .halowRx).byteLow (inRange .softapRx).byteLow,
    reported (inRange .halowRx).ppsLow (inRange .softapRx).ppsLow⟩

/-- Every call keeps the contract exactly if none sets a cap of `2 ^ 31` or more. -/
theorem tokens_inRange_iff (calls : List LimitCall) :
    Meets step (fun _ s c => s.Kept c) init calls ↔ ∀ c ∈ calls, c.Signed := by
  constructor
  · intro kept c inside
    obtain ⟨pre, post, rfl⟩ := List.append_of_mem inside
    obtain ⟨t, reached⟩ := run_total (fun _ _ => ⟨_, rfl⟩) init pre
    exact signed_of_exact (kept pre c ⟨post, List.append_assoc _ _ _⟩ t reached).exact_
  · intro signed pre c before t reached
    have holds : t.Signed ∧ t.InRange := by
      refine run_invariant_of_meets (I := fun _ s => s.Signed ∧ s.InRange) (C := fun _ _ c => c.Signed)
        ⟨init_signed, init_inRange⟩ (fun _ s c u held fits stepped => ?_) (fun first e inside u _ => ?_) reached
      · cases stepped
        obtain ⟨kept, after⟩ := kept_of_signed fits held.1 held.2
        exact ⟨after, kept.inRange⟩
      · refine signed e (List.IsPrefix.subset (inside.trans ?_) (List.mem_append_right _ List.mem_cons_self))
        exact (List.prefix_append pre [c]).trans before
    have inside : c ∈ calls := before.subset (List.mem_append_right _ List.mem_cons_self)
    exact (kept_of_signed (signed c inside) holds.1 holds.2).1

/-- A cap of `2 ^ 31` bytes makes the counts negative. -/
theorem wideCap_not_kept : ¬ Meets step (fun _ s c => s.Kept c) init [.configure 250000 (2 ^ 31)] := by
  intro kept
  have low := ((kept [] _ (List.prefix_refl _) init rfl).inRange .halowRx).byteLow
  revert low
  decide

end TcpRateLimit

end MammotionRc.Firmware
