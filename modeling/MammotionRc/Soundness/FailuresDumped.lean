import MammotionRc.Firmware.FailureLog
import MammotionRc.Machine.Simulation

/-! # A boot prints the failures before it

What is left in memory stands for the list of all failures since power-up and for how many of them there were when some
were printed last. A boot prints the newest of those that came after. The counters are kept modulo `2 ^ 32` and there
are four records, so that is how many can be told apart.
-/

namespace MammotionRc.Firmware

open Machine RecentRing

/-- The failures since power-up, and how many of them there were when some were printed last. -/
structure FailureHistory where
  failures : List FailureInfo
  displayed : ℕ

namespace FailureHistory

/-- How many failures are new, as far as the counters tell. -/
def fresh (h : FailureHistory) : ℕ := (h.failures.length - h.displayed) % 2 ^ 32

/-- The new failures, or the four last of them. They are numbered from power-up on; four are numbered from the slot of
the first on. -/
def dump (h : FailureHistory) : List FailureLine :=
  let first := if h.fresh < MAX_FAILURE_RECORDS then h.displayed else h.failures.length % MAX_FAILURE_RECORDS
  (h.failures.drop (h.failures.length - min h.fresh MAX_FAILURE_RECORDS)).mapIdx fun offset info =>
    ⟨UInt32.ofNat (first + offset), info⟩

def respond (h : FailureHistory) : FailureEvent → List FailureLine × FailureHistory
  | .log info => ([], { h with failures := h.failures ++ [info] })
  | .boot => (h.dump, { h with displayed := h.failures.length })

def init : FailureHistory := ⟨[], 0⟩

end FailureHistory

instance : NeZero MAX_FAILURE_RECORDS := ⟨by decide⟩

variable {s : PreservedFailureInfo} {h : FailureHistory}

/-- The memory stands for a history. -/
inductive Records (s : PreservedFailureInfo) : FailureHistory → Prop
  /-- Nothing was recorded since power-up. -/
  | blank (magic : s.magic ≠ ASSERT_INFO_MAGIC) : Records s .init
  | kept {h : FailureHistory} (magic : s.magic = ASSERT_INFO_MAGIC)
      (count : s.failure_count = UInt32.ofNat h.failures.length)
      (displayed : s.displayed_failure_count = UInt32.ofNat h.displayed)
      (bound : h.displayed ≤ h.failures.length) (holds : Holds s.info h.failures) : Records s h

theorem fastMod_ofNat (k : ℕ) : (fastMod (UInt32.ofNat k)).toNat = slot MAX_FAILURE_RECORDS k := by
  rw [toNat_fastMod, UInt32.toNat_ofNat', Nat.mod_mod_of_dvd k (show MAX_FAILURE_RECORDS ∣ 2 ^ 32 from ⟨2 ^ 30, rfl⟩)]
  rfl

theorem line_ofNat (s : PreservedFailureInfo) (k : ℕ) :
    s.line (UInt32.ofNat k) = ⟨UInt32.ofNat k, s.info[slot MAX_FAILURE_RECORDS k]⟩ := by
  have same : (⟨(fastMod (UInt32.ofNat k)).toNat, fastMod_lt _⟩ : Fin MAX_FAILURE_RECORDS) =
      slot MAX_FAILURE_RECORDS k := Fin.ext (fastMod_ofNat k)
  rw [PreservedFailureInfo.line, same]
  rfl

theorem record_ofNat {k : ℕ} (count : s.failure_count = UInt32.ofNat k) (info : FailureInfo) :
    s.record info =
      ⟨ASSERT_INFO_MAGIC, UInt32.ofNat (k + 1), s.displayed_failure_count, s.info.set (slot MAX_FAILURE_RECORDS k) info⟩ := by
  simp only [PreservedFailureInfo.record, count, fastMod_ofNat, UInt32.ofNat_add]
  rfl

theorem Records.log (records : Records s h) (info : FailureInfo) :
    Records (s.logFailureInfo info) { h with failures := h.failures ++ [info] } := by
  cases records with
  | blank magic =>
    -- The counters start from zero, as if they had been zero from power-up on.
    rw [PreservedFailureInfo.logFailureInfo, PreservedFailureInfo.counted, if_pos magic, record_ofNat (k := 0) rfl]
    exact .kept rfl rfl rfl (Nat.zero_le _) (holds_nil.concat info)
  | kept magic count displayed bound holds =>
    rw [PreservedFailureInfo.logFailureInfo, PreservedFailureInfo.counted, if_neg (not_not.mpr magic), record_ofNat count]
    refine .kept rfl ?_ displayed ?_ (holds.concat info)
    · rw [List.length_append, List.length_singleton]
    · rw [List.length_append]
      exact Nat.le_add_right_of_le bound

theorem fresh_toNat {h : FailureHistory} (count : s.failure_count = UInt32.ofNat h.failures.length)
    (displayed : s.displayed_failure_count = UInt32.ofNat h.displayed) (bound : h.displayed ≤ h.failures.length) :
    (s.failure_count - s.displayed_failure_count).toNat = h.fresh := by
  rw [count, displayed, ← UInt32.ofNat_sub bound, UInt32.toNat_ofNat', FailureHistory.fresh]

/-- The lines for some of the last failures, by any number that gives the slot of the first. -/
theorem lines_recent {failures : List FailureInfo} (holds : Holds s.info failures) {k first : ℕ}
    (fits : k ≤ MAX_FAILURE_RECORDS) (there : k ≤ failures.length)
    (begins : slot MAX_FAILURE_RECORDS first = slot MAX_FAILURE_RECORDS (failures.length - k)) :
    ((List.range k).map fun offset => s.line (UInt32.ofNat first + UInt32.ofNat offset)) =
      (failures.drop (failures.length - k)).mapIdx fun offset info => ⟨UInt32.ofNat (first + offset), info⟩ := by
  rw [← holds.recent fits there]
  apply List.ext_getElem?
  intro offset
  rw [List.getElem?_mapIdx, List.getElem?_map, List.getElem?_map, Option.map_map]
  cases at_ : (List.range k)[offset]? with
  | none => rfl
  | some i =>
    have same : i = offset := by
      obtain ⟨inside, value⟩ := List.getElem?_eq_some_iff.mp at_
      rw [← value, List.getElem_range]
    subst same
    have congruent : slot MAX_FAILURE_RECORDS (first + i) = slot MAX_FAILURE_RECORDS (failures.length - k + i) :=
      slot_eq_iff.mpr ((slot_eq_iff.mp begins).add_right i)
    rw [Option.map_some, Option.map_some, Function.comp_apply, ← UInt32.ofNat_add, line_ofNat]
    simp only [congruent]

theorem dumpFailureInfo_lines {h : FailureHistory} (count : s.failure_count = UInt32.ofNat h.failures.length)
    (displayed : s.displayed_failure_count = UInt32.ofNat h.displayed) (bound : h.displayed ≤ h.failures.length)
    (holds : Holds s.info h.failures) : s.dumpFailureInfo.1 = h.dump := by
  have few := fresh_toNat count displayed bound
  have there : h.fresh ≤ h.failures.length := (Nat.mod_le _ _).trans (Nat.sub_le _ _)
  have many : s.failure_count - s.displayed_failure_count ≥ UInt32.ofNat MAX_FAILURE_RECORDS ↔
      MAX_FAILURE_RECORDS ≤ h.fresh := by
    rw [ge_iff_le, UInt32.le_iff_toNat_le, few]
    rfl
  simp only [PreservedFailureInfo.dumpFailureInfo, FailureHistory.dump, many]
  by_cases full : MAX_FAILURE_RECORDS ≤ h.fresh
  · have enough : MAX_FAILURE_RECORDS ≤ h.failures.length := full.trans there
    have first : fastMod s.failure_count = UInt32.ofNat (h.failures.length % MAX_FAILURE_RECORDS) := by
      rw [count, ← UInt32.ofNat_toNat (x := fastMod _), fastMod_ofNat]
      rfl
    have begins : h.failures.length % MAX_FAILURE_RECORDS ≡ h.failures.length - MAX_FAILURE_RECORDS
        [MOD MAX_FAILURE_RECORDS] :=
      (Nat.mod_modEq _ _).trans ((Nat.sub_modulus_modEq_iff enough).mpr rfl).symm
    simp only [if_pos full, if_neg (Nat.not_lt.mpr full), Nat.min_eq_right full, first]
    exact lines_recent holds le_rfl enough (slot_eq_iff.mpr begins)
  · have short : h.fresh < MAX_FAILURE_RECORDS := Nat.not_le.mp full
    have begins : h.displayed ≡ h.failures.length - h.fresh [MOD MAX_FAILURE_RECORDS] := by
      rw [FailureHistory.fresh, Nat.ModEq, MAX_FAILURE_RECORDS]
      omega
    simp only [if_neg full, if_pos short, Nat.min_eq_left short.le, few]
    rw [displayed]
    exact lines_recent holds short.le there (slot_eq_iff.mpr begins)

theorem Records.boot (records : Records s h) : (s.respond .boot).1 = (h.respond .boot).1 ∧
    Records (s.respond .boot).2 (h.respond .boot).2 := by
  rw [PreservedFailureInfo.respond]
  cases records with
  | blank magic =>
    rw [if_neg magic]
    exact ⟨rfl, .blank magic⟩
  | kept magic count displayed bound holds =>
    rw [if_pos magic]
    exact ⟨dumpFailureInfo_lines count displayed bound holds, .kept magic count count le_rfl holds⟩

/-- Memory after power-up, in which both counters happen to be 7. -/
def unrecorded : PreservedFailureInfo := ⟨0, 7, 7, .replicate _ ⟨0, 0, 0, 0, .replicate _ 0⟩⟩

/-- A failure in a line of a file. -/
def failureAt (line : UInt32) : FailureInfo := ⟨0x42000000, 0x42000010, 3, line, .replicate _ 0⟩

end MammotionRc.Firmware
