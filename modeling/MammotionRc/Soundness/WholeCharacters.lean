import Mathlib.Data.List.Infix
import MammotionRc.Machine.Utf8
import MammotionRc.Soundness.BlobAgreement

/-! # What the packers leave of a character at the end of a field

Both packers cut the encoding of a text behind `width - 1` bytes. The last character stays whole only if the text ends
there, or one of its characters does.
-/

namespace MammotionRc.Packers

open Machine

variable {s : Text} {width : ℕ}

/-- The field has the longest prefix of whole characters that leaves room for a NUL, and NULs behind it. -/
def KeepsWhole (field : List UInt8) (s : Text) (width : ℕ) : Prop :=
  ∃ first, Utf8.IsLongestPrefix s (width - 1) first ∧
    field = utf8 first ++ List.replicate (width - (utf8 first).length) 0

/-- Some character ends where the field has to be cut, if it has to be. -/
def CutBetween (s : Text) (width : ℕ) : Prop :=
  (utf8 s).length ≤ width - 1 ∨ ∃ first, first <+: s ∧ (utf8 first).length = width - 1

theorem keepsWhole_fixed_iff (clean : '\x00' ∉ s) : KeepsWhole (fixed s width) s width ↔ CutBetween s width := by
  refine Iff.trans ?_ Utf8.take_encode_iff
  refine exists_congr fun first => and_congr_right fun longest => ?_
  constructor
  · intro same
    -- neither side has a NUL of its own
    have cut : 0 ∉ (utf8 s).take (width - 1) := fun mem => Utf8.zero_notMem_encode clean (List.mem_of_mem_take mem)
    have whole : 0 ∉ utf8 first :=
      Utf8.zero_notMem_encode fun mem => clean (longest.before.subset mem)
    have strings := congrArg cstr same
    rw [fixed, cstr_replicate_zero, cstr_replicate_zero, cstr_eq_self cut, cstr_eq_self whole] at strings
    exact strings
  · intro same
    change (utf8 s).take (width - 1) = utf8 first at same
    rw [fixed, same]

theorem fixedField_eq_fixed (s : Text) (width : ℕ) : Js.fixedField s width = .ok (fixed s width) :=
  Js.fixedField_eq s width

/-- Both packers keep the characters whole exactly if the cut falls between two of them. -/
theorem keepsWhole_iff (clean : '\x00' ∉ s) :
    ((∃ field, Js.fixedField s width = .ok field ∧ KeepsWhole field s width) ↔ CutBetween s width) ∧
      (KeepsWhole (fixed s width) s width ↔ CutBetween s width) := by
  refine ⟨Iff.trans ⟨?_, fun whole => ?_⟩ (keepsWhole_fixed_iff clean), keepsWhole_fixed_iff clean⟩
  · rintro ⟨field, packed, whole⟩
    cases packed.symm.trans (fixedField_eq_fixed s width)
    exact whole
  · exact ⟨_, fixedField_eq_fixed s width, whole⟩

/-- Umlauts fit into a field that is wide enough. -/
theorem keepsWhole_umlaut : KeepsWhole (fixed ['a', 'é'] 4) ['a', 'é'] 4 :=
  (keepsWhole_iff (by decide)).2.mpr (.inl (by decide))

/-- The two bytes of the last character straddle the end of a field of 33 bytes. -/
def straddling : Text := List.replicate 31 'a' ++ ['é']

theorem not_cutBetween_straddling : ¬ CutBetween straddling 33 := by
  have lengths : (utf8 straddling).length = 33 ∧ ∀ first ∈ straddling.inits, (utf8 first).length ≠ 32 := by
    decide
  rintro (short | ⟨first, before, length⟩)
  · rw [lengths.1] at short
    exact absurd short (by decide)
  · exact lengths.2 first ((List.mem_inits _ _).mpr before) length

/-- An SSID of 32 characters is stored with half of its last one. -/
theorem straddling_split : '\x00' ∉ straddling ∧
    (¬ ∃ field, Js.fixedField straddling 33 = .ok field ∧ KeepsWhole field straddling 33) ∧
    ¬ KeepsWhole (fixed straddling 33) straddling 33 := by
  have clean : '\x00' ∉ straddling := by decide
  have split_ : ¬ KeepsWhole (fixed straddling 33) straddling 33 :=
    mt (keepsWhole_fixed_iff clean).mp not_cutBetween_straddling
  refine ⟨clean, ?_, split_⟩
  rintro ⟨field, packed, whole⟩
  cases packed.symm.trans (fixedField_eq_fixed straddling 33)
  exact split_ whole

end MammotionRc.Packers
