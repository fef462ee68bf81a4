import MammotionRc.Machine.TokenBucket
import MammotionRc.Soundness.TokensInRange

/-! # The rate is enforced where refills are whole

A refill credits whole tokens and moves its clock by what they cost, rounded down to milliseconds. Where the cost
is whole, the buckets are sound token buckets, and what passes in any window is bounded. Where it is not, each
refill gives away part of a millisecond.
-/

namespace MammotionRc.Firmware

open Machine

/-- The two counts of a bucket. -/
inductive Count
  | bytes
  | packets
deriving DecidableEq, Repr

namespace Count

/-- What a packet costs. -/
def size : Count → Pbuf → ℕ
  | .bytes, p => p.totLen.toNat
  | .packets, _ => 1

def tokens : Count → RlBucket → Int32
  | .bytes, b => b.byteTokens
  | .packets, b => b.ppsTokens

def lastMs : Count → RlBucket → UInt32
  | .bytes, b => b.byteLastMs
  | .packets, b => b.ppsLastMs

def rate : Count → TcpRateLimit → UInt32
  | .bytes, s => s.rateBps
  | .packets, s => s.pps

def cap : Count → TcpRateLimit → UInt32
  | .bytes, s => s.burst
  | .packets, s => s.ppsBurst

/-- The count as a token bucket. -/
def bucket (k : Count) (b : RlBucket) : TokenBucket := ⟨(k.tokens b).toInt.toNat, (k.lastMs b).toNat⟩

end Count

/-- The tokens that a refill credits cost a whole number of milliseconds. -/
def Whole (rate lastMs nowMs : UInt32) : Prop :=
  lastMs ≠ 0 → rate.toNat ∣ worth rate (nowMs - lastMs).toNat * 1000

/-- A rate that divides 1000 or that 1000 divides makes every refill whole. -/
theorem whole_of_rate {rate : UInt32} (even : rate.toNat ∣ 1000 ∨ 1000 ∣ rate.toNat) (lastMs nowMs : UInt32) :
    Whole rate lastMs nowMs := by
  intro _
  rcases even with divides | divided
  · exact divides.mul_left _
  · rw [worth, Nat.div_mul_cancel (divided.mul_left _)]
    exact Nat.dvd_mul_left _ _

section Refill

variable {rate burst : UInt32} {tokens : Int32} {lastMs nowMs : UInt32}

/-- A whole refill is sound. -/
theorem refill_sound (cap : burst.toNat < 2 ^ 31) (low : 0 ≤ tokens.toInt) (high : tokens.toInt ≤ burst.toNat)
    (past : lastMs.toNat ≤ nowMs.toNat) (whole : Whole rate lastMs nowMs) :
    TokenBucket.Sound rate.toNat burst.toNat ⟨tokens.toInt.toNat, lastMs.toNat⟩
      ⟨(refill rate burst tokens lastMs nowMs).val.1.toInt.toNat,
        (refill rate burst tokens lastMs nowMs).val.2.toNat⟩ nowMs.toNat := by
  obtain ⟨count, value⟩ := Int.eq_ofNat_of_zero_le low
  rw [value] at high
  by_cases fresh : lastMs = 0
  · rw [fresh, refill_fresh, value]
    simp only [Checked.val_pure, value]
    refine ⟨Int.ofNat_le.mp high, ?_, Nat.le_refl _, Nat.lt_add_of_pos_right (by decide)⟩
    rw [UInt32.toNat_zero, Nat.mul_zero]
    exact Nat.le_add_right _ _
  obtain ⟨_, filled, moved⟩ := refill_started rate nowMs fresh (value ▸ high) (by omega)
  have dt : (nowMs - lastMs).toNat = nowMs.toNat - lastMs.toNat :=
    UInt32.toNat_sub_of_le nowMs lastMs (UInt32.le_iff_toNat_le.mpr past)
  have short := spent_worth_le rate (nowMs - lastMs).toNat
  have cost : rate.toNat * spent rate (worth rate (nowMs - lastMs).toNat) =
      worth rate (nowMs - lastMs).toNat * 1000 := Nat.mul_div_cancel' (whole fresh)
  have floor : (nowMs - lastMs).toNat * rate.toNat < worth rate (nowMs - lastMs).toNat * 1000 + 1000 := by
    rw [worth]
    omega
  rw [filled, moved, value]
  rw [dt] at floor short cost ⊢
  generalize worth rate (nowMs.toNat - lastMs.toNat) = w at *
  have last := nowMs.toNat_lt
  have clock : (lastMs + UInt32.ofNat (spent rate w)).toNat = lastMs.toNat + spent rate w := by
    rw [UInt32.toNat_add, UInt32.toNat_ofNat_of_lt' (by simp only [UInt32.size]; omega), Nat.mod_eq_of_lt (by omega)]
  have now : nowMs.toNat * rate.toNat = (nowMs.toNat - lastMs.toNat) * rate.toNat + lastMs.toNat * rate.toNat := by
    rw [← Nat.add_mul, Nat.sub_add_cancel past]
  rw [clock]
  constructor <;> dsimp only
  · omega
  · rw [Nat.mul_add, cost]
    omega
  · omega
  · rw [Nat.mul_add, cost, Nat.mul_comm rate.toNat nowMs.toNat, now, Nat.mul_comm rate.toNat lastMs.toNat]
    omega

end Refill

namespace TcpRateLimit

variable {s : TcpRateLimit} {b c : RlBucket} {d : Direction} {p : Pbuf} {a : Arrival} {k : Count}
  {arrivals : List Arrival} {nowMs : UInt32}

def stepArrival (s : TcpRateLimit) (a : Arrival) : Option TcpRateLimit := some (s.arrive a)

/-- What a packet adds to the passed bytes or packets of a direction. -/
def passedSize (k : Count) (d : Direction) (s : TcpRateLimit) (a : Arrival) : ℕ :=
  match s.limits a.p a.inp with
  | some (e, p) => if e = d ∧ (s.lwipIp4InputHook a.p a.inp a.millis).val.1 = 0 then k.size p else 0
  | none => 0

/-- The bytes or packets that the limiter passes in a direction. -/
def passed (k : Count) (d : Direction) : TcpRateLimit → List Arrival → ℕ
  | _, [] => 0
  | s, a :: arrivals => passedSize k d s a + passed k d (s.arrive a) arrivals

/-- The refills that a packet makes are whole. -/
def WholeRefill (s : TcpRateLimit) (a : Arrival) : Prop :=
  ∀ d p, s.limits a.p a.inp = some (d, p) → ∀ k : Count, Whole (k.rate s) (k.lastMs (s.bucket d)) a.millis

theorem Debited.bucket (debited : s.Debited p b c) (on : s.pps ≠ 0) :
    k.bucket c = ⟨(k.bucket b).tokens - k.size p, (k.bucket b).clock⟩ := by
  have byteTokens := debited.byteTokens
  have ppsTokens := debited.ppsTokens
  rw [if_neg on] at ppsTokens
  cases k with
  | bytes =>
    simp only [Count.bucket, Count.tokens, Count.lastMs, Count.size, byteTokens, debited.byteLastMs]
    rw [Int.toNat_sub']
  | packets =>
    simp only [Count.bucket, Count.tokens, Count.lastMs, Count.size, ppsTokens, debited.ppsLastMs]
    exact congrArg (TokenBucket.mk · _) (Int.toNat_sub' b.ppsTokens.toInt 1)

theorem Affords.pays (affords : s.Affords p b) (on : s.pps ≠ 0) : k.size p ≤ (k.bucket b).tokens := by
  cases k with
  | bytes => exact (Int.le_toNat ((Int.natCast_nonneg _).trans affords.1)).mpr affords.1
  | packets =>
    have enough := affords.2.resolve_left on
    exact (Int.le_toNat (Int.le_trans (by decide) enough)).mpr enough

/-- A limited packet refills both counts soundly. -/
theorem refilled_sound (signed : s.Signed) (inRange : s.InRange)
    (past : (k.lastMs (s.bucket d)).toNat ≤ nowMs.toNat) (whole : Whole (k.rate s) (k.lastMs (s.bucket d)) nowMs) :
    TokenBucket.Sound (k.rate s).toNat (k.cap s).toNat (k.bucket (s.bucket d))
      (k.bucket (s.refilled (s.bucket d) nowMs)) nowMs.toNat := by
  cases k with
  | bytes => exact refill_sound signed.burst (inRange d).byteLow (inRange d).byteHigh past whole
  | packets => exact refill_sound signed.ppsBurst (inRange d).ppsLow (inRange d).ppsHigh past whole

theorem arrive_count (s : TcpRateLimit) (k : Count) (a : Arrival) :
    k.rate (s.arrive a) = k.rate s ∧ k.cap (s.arrive a) = k.cap s ∧ (s.arrive a).pps = s.pps := by
  obtain ⟨bktIn, bktOut, stats, same⟩ := s.arrive_eq a
  rw [same]
  cases k <;> exact ⟨rfl, rfl, rfl⟩

/-- A limited packet takes from the refilled bucket what it adds to the passed bytes or packets. -/
theorem arrive_visit (limited : s.limits a.p a.inp = some (d, p)) (on : s.pps ≠ 0) :
    passedSize k d s a ≤ (k.bucket (s.refilled (s.bucket d) a.millis)).tokens ∧
      k.bucket ((s.arrive a).bucket d) =
        ⟨(k.bucket (s.refilled (s.bucket d) a.millis)).tokens - passedSize k d s a,
          (k.bucket (s.refilled (s.bucket d) a.millis)).clock⟩ := by
  have metered := (hook_metered limited a.millis).1
  simp only [passedSize, limited, true_and, arrive]
  generalize (s.lwipIp4InputHook a.p a.inp a.millis).val = r at metered ⊢
  cases metered with
  | passed stats c affords debited =>
    rw [if_pos rfl, bucket_setBucket]
    exact ⟨affords.pays on, debited.bucket on⟩
  | dropped stats dry =>
    rw [if_neg Nat.one_ne_zero, bucket_setBucket]
    exact ⟨Nat.zero_le _, rfl⟩

/-- A packet leaves no clock behind it that is ahead of its time. -/
theorem arrive_clock (signed : s.Signed) (inRange : s.InRange) (on : s.pps ≠ 0) (whole : s.WholeRefill a)
    (past : (k.lastMs (s.bucket d)).toNat ≤ a.millis.toNat) :
    (k.lastMs ((s.arrive a).bucket d)).toNat ≤ a.millis.toNat := by
  by_cases limited : ∃ p, s.limits a.p a.inp = some (d, p)
  · obtain ⟨p, limited⟩ := limited
    calc (k.lastMs ((s.arrive a).bucket d)).toNat
        = (k.bucket (s.refilled (s.bucket d) a.millis)).clock :=
          congrArg TokenBucket.clock (arrive_visit (k := k) limited on).2
      _ ≤ a.millis.toNat := (refilled_sound (k := k) signed inRange past (whole d p limited k)).past
  · rw [arrive_other fun p is => limited ⟨p, is⟩]
    exact past

theorem passedSize_other (other : ∀ p, s.limits a.p a.inp ≠ some (d, p)) : passedSize k d s a = 0 := by
  rw [passedSize]
  split
  · next e p limited =>
    rw [if_neg]
    rintro ⟨rfl, _⟩
    exact other p limited
  · rfl

/-- What the limiter passes is what visits of its token bucket take. -/
theorem visited (signed : s.Signed) (inRange : s.InRange) (on : s.pps ≠ 0)
    (ordered : arrivals.Pairwise fun a b => a.millis.toNat ≤ b.millis.toNat)
    (past : ∀ a ∈ arrivals, (k.lastMs (s.bucket d)).toNat ≤ a.millis.toNat)
    (whole : Meets stepArrival (fun _ s a => s.WholeRefill a) s arrivals) : ∃ visits c,
      TokenBucket.Visited (k.rate s).toNat (k.cap s).toNat (k.bucket (s.bucket d)) visits c ∧
      TokenBucket.taken visits = passed k d s arrivals ∧
      ∀ visit ∈ visits, ∃ a ∈ arrivals, visit.1 = a.millis.toNat := by
  induction arrivals generalizing s with
  | nil => exact ⟨[], _, .nil _, rfl, fun visit inside => absurd inside List.not_mem_nil⟩
  | cons a arrivals ih =>
    obtain ⟨later, ordered⟩ := List.pairwise_cons.mp ordered
    obtain ⟨signed', inRange'⟩ := s.arrive_kept a signed inRange
    obtain ⟨rate, cap, pps⟩ := s.arrive_count k a
    have whole' := whole.tail (t := s.arrive a) rfl
    have first : s.WholeRefill a := whole [] a (List.prefix_append [a] arrivals) s rfl
    have past' : ∀ b ∈ arrivals, (k.lastMs ((s.arrive a).bucket d)).toNat ≤ b.millis.toNat := fun b inside =>
      (arrive_clock signed inRange on first (past a List.mem_cons_self)).trans (later b inside)
    obtain ⟨visits, c, visited, total, times⟩ := ih signed' inRange' (pps ▸ on) ordered past' whole'
    by_cases limited : ∃ p, s.limits a.p a.inp = some (d, p)
    · obtain ⟨p, limited⟩ := limited
      have sound := refilled_sound (k := k) signed inRange (past a List.mem_cons_self) (first d p limited k)
      obtain ⟨pays, after⟩ := arrive_visit (k := k) limited on
      rw [rate, cap, after] at visited
      refine ⟨_, c, .cons sound pays visited, ?_, fun visit inside => ?_⟩
      · rw [TokenBucket.taken, List.map_cons, List.sum_cons, passed, ← total]
        rfl
      · rcases List.mem_cons.mp inside with rfl | inside
        · exact ⟨a, List.mem_cons_self, rfl⟩
        · obtain ⟨b, member, time⟩ := times visit inside
          exact ⟨b, List.mem_cons_of_mem _ member, time⟩
    · have same := arrive_other fun p is => limited ⟨p, is⟩
      rw [rate, cap, same] at visited
      refine ⟨visits, c, visited, ?_, fun visit inside => ?_⟩
      · rw [passed, passedSize_other fun p is => limited ⟨p, is⟩, Nat.zero_add, total]
      · obtain ⟨b, member, time⟩ := times visit inside
        exact ⟨b, List.mem_cons_of_mem _ member, time⟩

/-- In every window of a run the limiter passes no more than its rate and its burst allow. -/
def RateKept (s : TcpRateLimit) (arrivals : List Arrival) : Prop :=
  ∀ pre window post t width d, arrivals = pre ++ window ++ post → run stepArrival s pre = some t →
    (∀ a ∈ window, ∀ b ∈ window, b.millis.toNat ≤ a.millis.toNat + width) →
    ∀ k : Count, passed k d t window ≤ (k.cap s).toNat + (k.rate s).toNat * width / 1000 + 1

/-- The limiter at boot, once it is configured. -/
def configured (rate burst pps ppsBurst : UInt32) (halow softap : Option ℕ) : TcpRateLimit :=
  (((init.setHalowNetif halow).setSoftapNetif softap).configure rate burst >>= fun s => s.configurePps pps ppsBurst).val

theorem configured_spec {burst ppsBurst : UInt32} (rate pps : UInt32) (halow softap : Option ℕ)
    (burstCap : burst.toNat < 2 ^ 31) (ppsCap : ppsBurst.toNat < 2 ^ 31) :
    (configured rate burst pps ppsBurst halow softap).Signed ∧ (configured rate burst pps ppsBurst halow softap).InRange := by
  obtain ⟨_, inRange, signed⟩ := configure_spec rate
    (s := (init.setHalowNetif halow).setSoftapNetif softap) burstCap ⟨init_signed.burst, init_signed.ppsBurst⟩
    (init_inRange.of_same halow softap init.stats)
  obtain ⟨_, inRange', signed'⟩ := configurePps_spec pps ppsCap signed inRange
  exact ⟨signed', inRange'⟩

/-- What holds after some packets of an ordered run. -/
theorem run_arrivals {pre window : List Arrival} {t : TcpRateLimit} (signed : s.Signed) (inRange : s.InRange)
    (on : s.pps ≠ 0) (ordered : (pre ++ window).Pairwise fun a b => a.millis.toNat ≤ b.millis.toNat)
    (past : ∀ a ∈ pre ++ window, (k.lastMs (s.bucket d)).toNat ≤ a.millis.toNat)
    (whole : Meets stepArrival (fun _ s a => s.WholeRefill a) s (pre ++ window))
    (reached : run stepArrival s pre = some t) :
    t.Signed ∧ t.InRange ∧ t.pps = s.pps ∧ k.rate t = k.rate s ∧ k.cap t = k.cap s ∧
      ∀ a ∈ window, (k.lastMs (t.bucket d)).toNat ≤ a.millis.toNat := by
  induction pre generalizing s with
  | nil =>
    cases reached
    exact ⟨signed, inRange, rfl, rfl, rfl, past⟩
  | cons a pre ih =>
    obtain ⟨later, ordered⟩ := List.pairwise_cons.mp ordered
    obtain ⟨signed', inRange'⟩ := s.arrive_kept a signed inRange
    obtain ⟨rate, cap, pps⟩ := s.arrive_count k a
    have first : s.WholeRefill a := whole [] a (List.prefix_append [a] _) s rfl
    have past' : ∀ b ∈ pre ++ window, (k.lastMs ((s.arrive a).bucket d)).toNat ≤ b.millis.toNat := fun b inside =>
      (arrive_clock signed inRange on first (past a List.mem_cons_self)).trans (later b inside)
    have := ih signed' inRange' (pps ▸ on) ordered past' (whole.tail rfl) reached
    rwa [rate, cap, pps] at this

/-- The rate is enforced in every run whose refills are all whole. -/
theorem rate_kept_of_whole {rate burst pps ppsBurst : UInt32} {halow softap : Option ℕ}
    (burstCap : burst.toNat < 2 ^ 31) (ppsCap : ppsBurst.toNat < 2 ^ 31) (on : pps ≠ 0)
    (ordered : arrivals.Pairwise fun a b => a.millis.toNat ≤ b.millis.toNat)
    (whole : Meets stepArrival (fun _ s a => s.WholeRefill a) (configured rate burst pps ppsBurst halow softap) arrivals) :
    RateKept (configured rate burst pps ppsBurst halow softap) arrivals := by
  rintro pre window post t width d rfl reached within k
  obtain ⟨signed, inRange⟩ := configured_spec rate pps halow softap burstCap ppsCap
  have whole := whole.of_prefix (List.prefix_append (pre ++ window) post)
  have ordered := (List.pairwise_append.mp ordered).1
  obtain ⟨signed', inRange', pps', rate', cap', past⟩ := run_arrivals (k := k) (d := d) signed inRange on ordered
    (fun a _ => by cases k <;> cases d <;> exact Nat.zero_le _) whole reached
  obtain ⟨visits, c, visited, total, times⟩ := visited (k := k) (d := d) signed' inRange' (pps' ▸ on)
    (List.pairwise_append.mp ordered).2.1 past (whole.after reached)
  rw [← total, ← rate', ← cap']
  refine visited.taken_le fun first inside visit member => ?_
  obtain ⟨a, arrival, isTime⟩ := times first inside
  obtain ⟨b, arrival', isTime'⟩ := times visit member
  rw [isTime, isTime']
  exact within a arrival b arrival'

/-- Rates that divide 1000 or that 1000 divides make every refill of a run whole. -/
theorem whole_of_rates (signed : s.Signed) (inRange : s.InRange)
    (even : ∀ k : Count, (k.rate s).toNat ∣ 1000 ∨ 1000 ∣ (k.rate s).toNat) (arrivals : List Arrival) :
    Meets stepArrival (fun _ s a => s.WholeRefill a) s arrivals := by
  intro pre a _ t reached
  have holds : t.Signed ∧ t.InRange ∧ ∀ k : Count, k.rate t = k.rate s := by
    refine run_invariant (I := fun _ t => t.Signed ∧ t.InRange ∧ ∀ k : Count, k.rate t = k.rate s)
      ⟨signed, inRange, fun _ => rfl⟩ (fun _ t a u held stepped => ?_) reached
    cases stepped
    obtain ⟨signed, inRange, rates⟩ := held
    obtain ⟨signed', inRange'⟩ := t.arrive_kept a signed inRange
    exact ⟨signed', inRange', fun k => (t.arrive_count k a).1.trans (rates k)⟩
  intro d p _ k
  rw [holds.2.2 k]
  exact whole_of_rate (even k) _ _

def tcpPacket (totLen : UInt16) : Pbuf := ⟨20, totLen, 4, IP_PROTO_TCP⟩

/-- The limiter as it is shipped. -/
theorem rate_kept_shipped :
    RateKept (configured 250000 65536 100 50 (some 0) (some 1))
      [⟨some (tcpPacket 1500), some 0, 1⟩, ⟨some (tcpPacket 1500), some 0, 12⟩] :=
  rate_kept_of_whole (by decide) (by decide) (by decide) (by decide)
    (whole_of_rates (configured_spec _ _ _ _ (by decide) (by decide)).1 (configured_spec _ _ _ _ (by decide) (by decide)).2
      (fun k => by cases k <;> decide) _)

/-- At 1000001 bytes a second every packet of one millisecond is credited 1000 bytes. -/
theorem unevenRate_not_kept :
    ¬ RateKept (configured 1000001 1000 100 50 (some 0) (some 1))
      (⟨some (tcpPacket 1000), some 0, 1⟩ :: List.replicate 5 ⟨some (tcpPacket 1000), some 0, 2⟩) := by
  intro kept
  have bound := kept [⟨some (tcpPacket 1000), some 0, 1⟩] (List.replicate 5 ⟨some (tcpPacket 1000), some 0, 2⟩) []
    _ 0 .halowRx rfl rfl (by decide) .bytes
  revert bound
  decide

end TcpRateLimit

end MammotionRc.Firmware
