import MammotionRc.Soundness.RateEnforced

/-! # No refill time is lost where the clock is not taken for a new one

A count with a clock of 0 counts as not started, and the time since a clock is a difference of 32-bit values. While
no clock in use is 0 and no difference wraps, a direction is credited at least what the time since its first packet
is worth, until its bucket is full.
-/

namespace MammotionRc.Firmware

open Machine TcpRateLimit

/-- A packet at a time that counts milliseconds without wrapping. -/
structure TimedArrival where
  p : Option Pbuf
  inp : Option ℕ
  now : ℕ
deriving DecidableEq

def TimedArrival.arrival (a : TimedArrival) : Arrival := ⟨a.p, a.inp, UInt32.ofNat a.now⟩

/-- The refills of a direction so far. -/
structure Ledger where
  first : ℕ
  latest : ℕ
  /-- The tokens that refills have added. -/
  credited : Count → ℤ
  /-- A refill has filled the bucket to its cap. -/
  full : Count → Bool

/-- The limiter and the ledger of one direction, which begins with its first limited packet. -/
structure Audited where
  limiter : TcpRateLimit
  ledger : Option Ledger

namespace Audited

/-- A direction takes a limited packet. -/
def record (s : Audited) (d : Direction) (a : TimedArrival) : Option Audited :=
  match s.ledger with
  | none => some ⟨s.limiter.arrive a.arrival, some ⟨a.now, a.now, fun _ => 0, fun _ => false⟩⟩
  | some l =>
    if l.latest ≤ a.now ∧ a.now < l.latest + 2 ^ 32 then
      let before := s.limiter.bucket d
      let after := s.limiter.refilled before a.arrival.millis
      some ⟨s.limiter.arrive a.arrival, some
        { l with
          latest := a.now
          credited := fun k => l.credited k + ((k.tokens after).toInt - (k.tokens before).toInt)
          full := fun k => l.full k || decide ((k.cap s.limiter).toNat ≤ (k.tokens after).toInt) }⟩
    else none

/-- The calls on direction `d` are less than `2 ^ 32` ms apart; packets that it does not limit do not count. -/
def step (d : Direction) (s : Audited) (a : TimedArrival) : Option Audited :=
  if (s.limiter.limits a.p a.inp).any (·.1 = d) then s.record d a
  else some { s with limiter := s.limiter.arrive a.arrival }

/-- Until its bucket is full, a count is credited the whole tokens that the time is worth. -/
def Covered (s : Audited) : Prop :=
  ∀ l, s.ledger = some l → ∀ k : Count, l.full k = false →
    (((k.rate s.limiter).toNat * (l.latest - l.first) / 1000 : ℕ) : ℤ) ≤ l.credited k

/-- The refill of a count reads its clock as it is: a clock of 0 is not taken for a new one, the time since it does
not wrap, and the filled count fits. -/
structure Timed (k : Count) (d : Direction) (s : TcpRateLimit) (latest now : ℕ) : Prop where
  started : k.lastMs (s.bucket d) ≠ 0
  within : (UInt32.ofNat latest - k.lastMs (s.bucket d)).toNat + (now - latest) < 2 ^ 32
  fits : min ((k.cap s).toNat : ℤ) ((k.tokens (s.bucket d)).toInt +
    worth (k.rate s) (UInt32.ofNat now - k.lastMs (s.bucket d)).toNat) < 2 ^ 31

/-- A packet finds every count timed that earns tokens and has not been full. -/
def Punctual (d : Direction) (s : Audited) (a : TimedArrival) : Prop :=
  ∀ l, s.ledger = some l → (s.limiter.limits a.p a.inp).any (·.1 = d) →
    ∀ k : Count, k.rate s.limiter ≠ 0 → l.full k = false → Timed k d s.limiter l.latest a.now

/-- The account of a count. -/
def Accounted (d : Direction) (s : Audited) : Prop :=
  match s.ledger with
  | none => ∀ k : Count, k.lastMs (s.limiter.bucket d) = 0 ∧ (k.tokens (s.limiter.bucket d)).toInt ≤ (k.cap s.limiter).toNat
  | some l => l.first ≤ l.latest ∧ ∀ k : Count, l.full k = false →
    (k.tokens (s.limiter.bucket d)).toInt ≤ (k.cap s.limiter).toNat ∧ ∃ credited : ℕ, l.credited k = credited ∧
    TokenBucket.Accounts (k.rate s.limiter).toNat (l.latest - l.first)
      (UInt32.ofNat l.latest - k.lastMs (s.limiter.bucket d)).toNat credited

variable {d : Direction} {k : Count} {s u : Audited} {a : TimedArrival} {l : Ledger} {limiter : TcpRateLimit}
  {b : RlBucket} {nowMs : UInt32} {arrival : Arrival} {latest now : ℕ}

theorem tokens_refilled (k : Count) (limiter : TcpRateLimit) (b : RlBucket) (nowMs : UInt32) : k.tokens (limiter.refilled b nowMs) =
      (refill (k.rate limiter) (k.cap limiter) (k.tokens b) (k.lastMs b) nowMs).val.1 ∧
    k.lastMs (limiter.refilled b nowMs) =
      (refill (k.rate limiter) (k.cap limiter) (k.tokens b) (k.lastMs b) nowMs).val.2 := by
  cases k <;> exact ⟨rfl, rfl⟩

theorem any_limits {found : Option (Direction × Pbuf)} :
    found.any (·.1 = d) = true ↔ ∃ p, found = some (d, p) := by
  cases found with
  | none => simp
  | some found =>
    obtain ⟨e, p⟩ := found
    simp

/-- A limited packet pays from the refilled bucket and leaves its clocks. -/
theorem arrive_bucket (k : Count) (arrival : Arrival)
    (limited : (limiter.limits arrival.p arrival.inp).any (·.1 = d)) :
    (k.tokens ((limiter.arrive arrival).bucket d)).toInt ≤
      (k.tokens (limiter.refilled (limiter.bucket d) arrival.millis)).toInt ∧
    k.lastMs ((limiter.arrive arrival).bucket d) =
      k.lastMs (limiter.refilled (limiter.bucket d) arrival.millis) := by
  obtain ⟨p, found⟩ := any_limits.mp limited
  have metered := (hook_metered found arrival.millis).1
  rw [arrive]
  generalize (limiter.lwipIp4InputHook arrival.p arrival.inp arrival.millis).val = r at metered ⊢
  cases metered with
  | passed stats c affords debited =>
    rw [bucket_setBucket]
    have bytes := debited.byteTokens
    have packets := debited.ppsTokens
    cases k with
    | bytes => exact ⟨by simp only [Count.tokens]; omega, debited.byteLastMs⟩
    | packets => exact ⟨by simp only [Count.tokens]; split at packets <;> omega, debited.ppsLastMs⟩
  | dropped stats dry =>
    rw [bucket_setBucket]
    exact ⟨Int.le_refl _, rfl⟩

/-- A count that earns nothing keeps its tokens. -/
theorem refill_of_rate_zero {burst : UInt32} {tokens : Int32} {lastMs : UInt32} (high : tokens.toInt ≤ burst.toNat) :
    (refill 0 burst tokens lastMs nowMs).val.1.toInt = tokens.toInt := by
  have nothing : worth 0 (nowMs - lastMs).toNat = 0 := by
    rw [worth, UInt32.toNat_zero, Nat.mul_zero, Nat.zero_div]
  have small := tokens.toInt_lt
  by_cases fresh : lastMs = 0
  · rw [fresh, refill_fresh]
    rfl
  · rw [(refill_started _ _ fresh high (by omega)).2.1, nothing]
    omega

/-- The clock of a timed refill, before and after it. -/
theorem Timed.lag (timed : Timed k d limiter latest now) (ordered : latest ≤ now) :
    (UInt32.ofNat now - k.lastMs (limiter.bucket d)).toNat =
      (UInt32.ofNat latest - k.lastMs (limiter.bucket d)).toNat + (now - latest) := by
  have within := timed.within
  generalize k.lastMs (limiter.bucket d) = lastMs at within ⊢
  have small := lastMs.toNat_lt
  rw [UInt32.toNat_sub, UInt32.toNat_ofNat'] at within ⊢
  rw [UInt32.toNat_sub, UInt32.toNat_ofNat']
  omega

/-- Moving a clock by no more than the time since it shortens that time. -/
theorem lag_moved {lastMs : UInt32} {spent : ℕ} (within : spent ≤ (UInt32.ofNat now - lastMs).toNat) :
    (UInt32.ofNat now - (lastMs + UInt32.ofNat spent)).toNat = (UInt32.ofNat now - lastMs).toNat - spent := by
  have small := lastMs.toNat_lt
  rw [UInt32.toNat_sub] at within ⊢
  rw [UInt32.toNat_sub, UInt32.toNat_add, UInt32.toNat_ofNat', UInt32.toNat_ofNat'] at *
  omega

/-- A refill that does not fill its bucket keeps the account of its count. -/
theorem refilled_accounts {elapsed credited : ℕ} (ordered : latest ≤ now)
    (high : (k.tokens (limiter.bucket d)).toInt ≤ (k.cap limiter).toNat)
    (accounts : TokenBucket.Accounts (k.rate limiter).toNat elapsed
      (UInt32.ofNat latest - k.lastMs (limiter.bucket d)).toNat credited)
    (timed : k.rate limiter ≠ 0 → Timed k d limiter latest now)
    (below : (k.tokens (limiter.refilled (limiter.bucket d) (UInt32.ofNat now))).toInt < (k.cap limiter).toNat) :
    ∃ credited' : ℕ, (credited : ℤ) + ((k.tokens (limiter.refilled (limiter.bucket d) (UInt32.ofNat now))).toInt -
        (k.tokens (limiter.bucket d)).toInt) = credited' ∧
      TokenBucket.Accounts (k.rate limiter).toNat (elapsed + (now - latest))
        (UInt32.ofNat now - k.lastMs (limiter.refilled (limiter.bucket d) (UInt32.ofNat now))).toNat credited' := by
  obtain ⟨tokens, lastMs⟩ := tokens_refilled k limiter (limiter.bucket d) (UInt32.ofNat now)
  rw [tokens] at below ⊢
  rw [lastMs]
  by_cases idle : k.rate limiter = 0
  · rw [idle, refill_of_rate_zero high, Int.sub_self, Int.add_zero]
    exact ⟨credited, rfl, by simp, by simp⟩
  · have timed := timed idle
    obtain ⟨_, filled, moved⟩ := refill_started _ _ timed.started high timed.fits
    have lag := timed.lag ordered
    have cheap : (k.rate limiter).toNat * spent (k.rate limiter) (worth (k.rate limiter)
        (UInt32.ofNat now - k.lastMs (limiter.bucket d)).toNat) ≤ worth (k.rate limiter)
        (UInt32.ofNat now - k.lastMs (limiter.bucket d)).toNat * 1000 := Nat.mul_div_le _ _
    have within := spent_worth_le (k.rate limiter) (UInt32.ofNat now - k.lastMs (limiter.bucket d)).toNat
    rw [filled] at below ⊢
    rw [moved, lag_moved within]
    rw [lag] at below cheap within ⊢
    have value : worth (k.rate limiter) ((UInt32.ofNat latest - k.lastMs (limiter.bucket d)).toNat + (now - latest)) =
        (k.rate limiter).toNat * ((UInt32.ofNat latest - k.lastMs (limiter.bucket d)).toNat + (now - latest)) / 1000 := by
      rw [worth, Nat.mul_comm]
    rw [value] at below cheap within ⊢
    exact ⟨_, by omega, accounts.refill within (by omega)⟩

/-- A packet keeps the accounts of its direction. -/
theorem Accounted.step (accounted : s.Accounted d) (punctual : s.Punctual d a) (stepped : s.step d a = some u) :
    u.Accounted d := by
  simp only [Audited.step] at stepped
  split at stepped
  · next limited =>
    simp only [record] at stepped
    obtain ⟨limiter, ledger⟩ := s
    cases ledger with
    | none =>
      cases stepped
      refine ⟨Nat.le_refl _, fun k _ => ?_⟩
      obtain ⟨pays, clock⟩ := arrive_bucket k a.arrival limited
      obtain ⟨rate, cap, _⟩ := limiter.arrive_count k a.arrival
      obtain ⟨tokens, lastMs⟩ := tokens_refilled k limiter (limiter.bucket d) a.arrival.millis
      obtain ⟨fresh, high⟩ := accounted k
      rw [fresh, refill_fresh] at tokens lastMs
      dsimp only
      rw [cap, rate, clock, lastMs]
      refine ⟨pays.trans (tokens ▸ high), 0, rfl, ?_⟩
      rw [Nat.sub_self]
      change TokenBucket.Accounts _ 0 (UInt32.ofNat a.now - UInt32.ofNat a.now).toNat 0
      rw [UInt32.sub_self]
      exact .first _
    | some l =>
      dsimp only at stepped
      split at stepped
      · next ordered =>
        cases stepped
        obtain ⟨since, accounts⟩ := accounted
        refine ⟨since.trans ordered.1, fun k notFull => ?_⟩
        dsimp only at notFull ⊢
        rw [Bool.or_eq_false_iff, decide_eq_false_iff_not, Int.not_le] at notFull
        obtain ⟨notFull, below⟩ := notFull
        obtain ⟨high, credited, value, account⟩ := accounts k notFull
        obtain ⟨pays, clock⟩ := arrive_bucket k a.arrival limited
        obtain ⟨rate, cap, _⟩ := limiter.arrive_count k a.arrival
        obtain ⟨credited', value', account'⟩ := refilled_accounts ordered.1 high account
          (fun earns => punctual l rfl limited k earns notFull) below
        rw [cap, rate, clock, value]
        refine ⟨pays.trans (Int.le_of_lt below), credited', value', ?_⟩
        rw [show a.now - l.first = l.latest - l.first + (a.now - l.latest) by omega]
        exact account'
      · cases stepped
  · next other =>
    cases stepped
    have same : (s.limiter.arrive a.arrival).bucket d = s.limiter.bucket d :=
      arrive_other fun p is => other (any_limits.mpr ⟨p, is⟩)
    obtain ⟨limiter, ledger⟩ := s
    have counts := fun k => limiter.arrive_count k a.arrival
    cases ledger with
    | none =>
      intro k
      obtain ⟨rate, cap, _⟩ := counts k
      dsimp only at same ⊢
      rw [same, cap]
      exact accounted k
    | some l =>
      refine ⟨accounted.1, fun k notFull => ?_⟩
      obtain ⟨rate, cap, _⟩ := counts k
      dsimp only at same ⊢
      rw [same, cap, rate]
      exact accounted.2 k notFull

theorem Accounted.covered (accounted : s.Accounted d) : s.Covered := by
  intro l has k notFull
  rw [Accounted, has] at accounted
  obtain ⟨_, credited, value, account⟩ := accounted.2 k notFull
  rw [value]
  exact Int.ofNat_le.mpr account.le_credited

/-- The limiter at boot, configured, before it has seen a packet. -/
def start (rate burst pps ppsBurst : UInt32) (halow softap : Option ℕ) : Audited :=
  ⟨configured rate burst pps ppsBurst halow softap, none⟩

/-- What a count is clipped to is at most the cap, also where the cap does not fit. -/
theorem clip_le (tokens : Int32) (burst : UInt32) : (clip tokens burst).val.toInt ≤ burst.toNat := by
  have cap : (Checked.fit Int32 burst.toNat).val.toInt ≤ burst.toNat := by
    change (Int32.ofInt burst.toNat).toInt ≤ _
    rw [Int32.toInt_ofInt, Int.bmod_def, Int32.size]
    omega
  rw [clip, Checked.val_bind, Checked.val_pure]
  split
  · exact cap
  · next under =>
    rw [Int32.lt_iff_toInt_lt, Int.not_lt] at under
    exact under.trans cap

theorem start_accounted {rate burst pps ppsBurst : UInt32} {halow softap : Option ℕ} :
    (start rate burst pps ppsBurst halow softap).Accounted d := by
  intro k
  cases k <;> cases d <;> exact ⟨rfl, clip_le _ _⟩

/-- Nothing of the time is lost in a run whose packets all find their counts timed. -/
theorem covered_of_punctual {rate burst pps ppsBurst : UInt32} {halow softap : Option ℕ} {arrivals : List TimedArrival}
    (punctual : Meets (step d) (fun _ s a => s.Punctual d a) (start rate burst pps ppsBurst halow softap) arrivals) :
    Throughout (step d) (fun _ s => s.Covered) (start rate burst pps ppsBurst halow softap) arrivals := by
  intro pre before s reached
  have accounted : s.Accounted d := throughout_of_meets (I := fun _ s => s.Accounted d) start_accounted
    (fun _ _ _ _ accounted punctual stepped => accounted.step punctual stepped) punctual pre before s
    reached
  exact accounted.covered

/-- Three packets, a millisecond apart. -/
def threePackets : List TimedArrival :=
  [⟨some (tcpPacket 1500), some 0, 1⟩, ⟨some (tcpPacket 1500), some 0, 2⟩, ⟨some (tcpPacket 1500), some 0, 3⟩]

/-- The limiter as it is shipped. -/
theorem covered_threePackets : Throughout (step .halowRx) (fun _ s => s.Covered)
    (start 250000 65536 100 50 (some 0) (some 1)) threePackets := by
  refine covered_of_punctual (Meets.of_getElem fun n a at_ s reached => ?_)
  rcases n with _ | _ | _ | n
  · cases reached
    intro l begun
    cases begun
  · cases at_
    cases reached
    intro l has _ k _ _
    cases has
    cases k <;> exact ⟨by decide, by decide, by decide⟩
  · cases at_
    cases reached
    intro l has _ k _ _
    cases has
    cases k <;> exact ⟨by decide, by decide, by decide⟩
  · cases at_

/-- Packets before, at and after the moment that `millis()` is 0 again. -/
def aroundZero : List TimedArrival :=
  [⟨some (tcpPacket 1000), some 0, 2 ^ 32 - 1000⟩, ⟨some (tcpPacket 1000), some 0, 2 ^ 32⟩,
    ⟨some (tcpPacket 1000), some 0, 2 ^ 32 + 1000⟩]

/-- The second refill leaves a clock of 0, and the third packet is credited nothing. -/
theorem aroundZero_not_covered : ¬ Throughout (step .halowRx) (fun _ s => s.Covered)
    (start 1000 100000 100 50 (some 0) (some 1)) aroundZero := by
  intro covered
  have short := covered aroundZero (List.prefix_refl _) _ rfl _ rfl .bytes
  revert short
  decide

end Audited

end MammotionRc.Firmware
