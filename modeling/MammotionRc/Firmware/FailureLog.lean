import MammotionRc.Machine.RecentRing

/-! # The record of failures

A failed assertion leaves a record in memory that a reset does not clear, and the next boot prints what was left since
the boot before. A magic number tells the records from what the memory holds after power-up. The calls are taken one
after the other.
-/

namespace MammotionRc.Firmware

/-- `struct mmosal_failure_info`. -/
structure FailureInfo where
  pc : UInt32
  lr : UInt32
  fileid : UInt32
  line : UInt32
  platform_info : Vector UInt32 4
deriving DecidableEq, Repr

def MAX_FAILURE_RECORDS : ℕ := 4

def ASSERT_INFO_MAGIC : UInt32 := 0xabcd1234

/-- `struct mmosal_preserved_failure_info`. -/
structure PreservedFailureInfo where
  magic : UInt32
  failure_count : UInt32
  displayed_failure_count : UInt32
  info : Vector FailureInfo MAX_FAILURE_RECORDS

/-- `FAST_MOD(x, MAX_FAILURE_RECORDS)`. -/
def fastMod (x : UInt32) : UInt32 := x &&& (UInt32.ofNat MAX_FAILURE_RECORDS - 1)

theorem toNat_fastMod (x : UInt32) : (fastMod x).toNat = x.toNat % MAX_FAILURE_RECORDS := by
  rw [fastMod, UInt32.toNat_and]
  exact Nat.and_two_pow_sub_one_eq_mod x.toNat 2

theorem fastMod_lt (x : UInt32) : (fastMod x).toNat < MAX_FAILURE_RECORDS := by
  rw [toNat_fastMod]
  exact Nat.mod_lt _ (by decide)

/-- What is printed of a failure. -/
structure FailureLine where
  number : UInt32
  info : FailureInfo
deriving DecidableEq, Repr

namespace PreservedFailureInfo

/-- The counters that `mmosal_log_failure_info` goes on from. -/
def counted (s : PreservedFailureInfo) : PreservedFailureInfo :=
  if s.magic ≠ ASSERT_INFO_MAGIC then { s with failure_count := 0, displayed_failure_count := 0 } else s

/-- The rest of `mmosal_log_failure_info`. -/
def record (s : PreservedFailureInfo) (info : FailureInfo) : PreservedFailureInfo :=
  { s with
    magic := ASSERT_INFO_MAGIC
    failure_count := s.failure_count + 1
    info := s.info.set (fastMod s.failure_count).toNat info (fastMod_lt _) }

/-- `mmosal_log_failure_info`. -/
def logFailureInfo (s : PreservedFailureInfo) (info : FailureInfo) : PreservedFailureInfo := s.counted.record info

/-- One turn of the loop of `mmosal_dump_failure_info`. -/
def line (s : PreservedFailureInfo) (number : UInt32) : FailureLine :=
  ⟨number, s.info.get ⟨(fastMod number).toNat, fastMod_lt number⟩⟩

/-- `mmosal_dump_failure_info`: what it prints. -/
def dumpFailureInfo (s : PreservedFailureInfo) : List FailureLine × PreservedFailureInfo :=
  let first := s.displayed_failure_count
  let count := s.failure_count - s.displayed_failure_count
  let (first, count) :=
    if count ≥ UInt32.ofNat MAX_FAILURE_RECORDS then
      (fastMod s.failure_count, UInt32.ofNat MAX_FAILURE_RECORDS)
    else (first, count)
  ((List.range count.toNat).map fun offset => s.line (first + UInt32.ofNat offset),
    { s with displayed_failure_count := s.failure_count })

end PreservedFailureInfo

inductive FailureEvent
  | log (info : FailureInfo)
  /-- The secondary initialization of a boot; a build that halts on a failed assertion does the same before it halts. -/
  | boot

/-- What is printed. -/
def PreservedFailureInfo.respond (s : PreservedFailureInfo) : FailureEvent → List FailureLine × PreservedFailureInfo
  | .log info => ([], s.logFailureInfo info)
  | .boot => if s.magic = ASSERT_INFO_MAGIC then s.dumpFailureInfo else ([], s)

end MammotionRc.Firmware
