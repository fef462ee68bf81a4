import MammotionRc.Soundness.ElementsFound

/-! # Elements are parsed

An RSN element lists suites behind their counts, an S1G operation element has fields of fixed width. The parsers take
a body if it begins with what such an element says and leave what follows it alone; of the suites as many are kept as
there is room for.
-/

namespace MammotionRc.Firmware

open Framing

/-- What an RSN element says. -/
structure Rsn where
  version : UInt16
  group : UInt32
  pairwise : List UInt32
  akm : List UInt32
  capabilities : UInt16
  pairwise_lt : pairwise.length < 2 ^ 16
  akm_lt : akm.length < 2 ^ 16

def le16 (x : UInt16) : Bytes := [x.toUInt8, (x >>> 8).toUInt8]

def be32 (x : UInt32) : Bytes := [(x >>> 24).toUInt8, (x >>> 16).toUInt8, (x >>> 8).toUInt8, x.toUInt8]

/-- A count and its suites. -/
def encodeSuites (suites : List UInt32) : Bytes := le16 (UInt16.ofNat suites.length) ++ suites.flatMap be32

def Rsn.encode (r : Rsn) : Bytes :=
  le16 r.version ++ (be32 r.group ++ (encodeSuites r.pairwise ++ (encodeSuites r.akm ++ le16 r.capabilities)))

/-- The suites that there is room for. -/
def clipSuites (suites : List UInt32) : Suites := Vector.ofFn fun i => suites[i.val]?.getD 0

/-- What the parsers keep of it. -/
def Rsn.kept (r : Rsn) : MmRsnInformation where
  groupCipherSuite := r.group
  pairwiseCipherSuites := clipSuites r.pairwise
  akmSuites := clipSuites r.akm
  numPairwiseCipherSuites := keptSuites (UInt16.ofNat r.pairwise.length)
  numAkmSuites := keptSuites (UInt16.ofNat r.akm.length)
  version := r.version
  rsnCapabilities := r.capabilities

/-! ## Words -/

section Words

theorem byte_ext {x y : UInt8} (bits : ∀ i < 8, x.toBitVec.getLsbD i = y.toBitVec.getLsbD i) : x = y :=
  UInt8.toBitVec_inj.mp (BitVec.eq_of_getLsbD_eq fun i inside => bits i inside)

theorem le16_bytes (x : UInt16) : x.toUInt8.toUInt16 ||| (x >>> 8).toUInt8.toUInt16 <<< 8 = x := by
  apply UInt16.toBitVec_inj.mp
  apply BitVec.eq_of_getLsbD_eq
  intro i inside
  simp [BitVec.getLsbD_setWidth, inside, -UInt16.toUInt16_toUInt8]
  grind

theorem le16_of_bytes (a b : UInt8) : le16 (a.toUInt16 ||| b.toUInt16 <<< 8) = [a, b] := by
  simp only [le16, List.cons.injEq, and_true]
  constructor
  · refine byte_ext fun i inside => ?_
    simp [inside]
  · refine byte_ext fun i inside => ?_
    simp [BitVec.getLsbD_setWidth, inside]
    grind

theorem be32_bytes (x : UInt32) : (x >>> 24).toUInt8.toUInt32 <<< 24 ||| (x >>> 16).toUInt8.toUInt32 <<< 16 |||
    (x >>> 8).toUInt8.toUInt32 <<< 8 ||| x.toUInt8.toUInt32 = x := by
  apply UInt32.toBitVec_inj.mp
  apply BitVec.eq_of_getLsbD_eq
  intro i inside
  simp [BitVec.getLsbD_setWidth, inside, -UInt32.toUInt32_toUInt8]
  grind

theorem be32_of_bytes (a b c d : UInt8) :
    be32 (a.toUInt32 <<< 24 ||| b.toUInt32 <<< 16 ||| c.toUInt32 <<< 8 ||| d.toUInt32) = [a, b, c, d] := by
  simp only [be32, List.cons.injEq, and_true]
  refine ⟨?_, ?_, ?_, ?_⟩ <;> refine byte_ext fun i inside => ?_ <;>
    simp [BitVec.getLsbD_setWidth, BitVec.getLsbD_shiftLeft, inside] <;> grind

end Words

variable {ies rest : Bytes} {offset : ℕ}

/-- What is at an offset is what follows it in the buffer. -/
theorem getElem?_of_drop {stream : Bytes} (at_ : ies.drop offset = stream) (i : ℕ) : ies[offset + i]? = stream[i]? := by
  rw [← at_, List.getElem?_drop]

theorem read16_le16 {x : UInt16} (at_ : ies.drop offset = le16 x ++ rest) : read16 ies offset = some x := by
  have first : ies[offset]? = some x.toUInt8 := getElem?_of_drop at_ 0
  have second : ies[offset + 1]? = some (x >>> 8).toUInt8 := getElem?_of_drop at_ 1
  rw [read16, first, second]
  exact congrArg some (le16_bytes x)

theorem read32_be32 {x : UInt32} (at_ : ies.drop offset = be32 x ++ rest) : read32 ies offset = some x := by
  have first : ies[offset]? = some (x >>> 24).toUInt8 := getElem?_of_drop at_ 0
  have second : ies[offset + 1]? = some (x >>> 16).toUInt8 := getElem?_of_drop at_ 1
  have third : ies[offset + 2]? = some (x >>> 8).toUInt8 := getElem?_of_drop at_ 2
  have last : ies[offset + 3]? = some x.toUInt8 := getElem?_of_drop at_ 3
  rw [read32, first, second, third, last]
  exact congrArg some (be32_bytes x)

/-- The next part of the buffer. -/
theorem drop_behind {part : Bytes} (at_ : ies.drop offset = part ++ rest) : ies.drop (offset + part.length) = rest := by
  rw [← List.drop_drop, at_, List.drop_left]

/-! ## The loop over suites -/

theorem getElem_clip (suites : List UInt32) (i : ℕ) (room : i < MM_RSN_INFORMATION_MAX_SUITES) :
    (clipSuites suites)[i] = suites[i]?.getD 0 := by
  rw [clipSuites, Vector.getElem_ofFn]

theorem clip_concat (got : List UInt32) (suite : UInt32) :
    clipSuites (got ++ [suite]) = if room : got.length < MM_RSN_INFORMATION_MAX_SUITES then
      (clipSuites got).set got.length suite room else clipSuites got := by
  ext i room
  split_ifs with more
  · rw [getElem_clip, Vector.getElem_set, getElem_clip]
    split_ifs with here
    · rw [← here, List.getElem?_concat_length, Option.getD_some]
    · by_cases before : i < got.length
      · rw [List.getElem?_append_left before]
      · rw [List.getElem?_eq_none (by simp; omega), List.getElem?_eq_none (by omega)]
  · rw [getElem_clip, getElem_clip, List.getElem?_append_left (by omega)]

/-- One turn of the loop. -/
theorem keepSuite_eq (got : List UInt32) {suite : UInt32} {kept : UInt16} {length : UInt8} {n : ℕ}
    (num : kept.toNat = min MM_RSN_INFORMATION_MAX_SUITES n) (more : got.length < n)
    (at_ : ies.drop offset = be32 suite ++ rest) :
    keepSuite ies kept got.length ⟨clipSuites got, offset, length⟩ = some (clipSuites (got ++ [suite])) := by
  rw [keepSuite, clip_concat]
  by_cases room : got.length < MM_RSN_INFORMATION_MAX_SUITES
  · rw [if_pos (by omega), read32_be32 at_, dif_pos room]
    exact dif_pos room
  · rw [if_neg (by omega), dif_neg room]

theorem readSuites_eq (got : List UInt32) {suites : List UInt32} {kept : UInt16} {length : UInt8}
    (num : kept.toNat = min MM_RSN_INFORMATION_MAX_SUITES (got ++ suites).length)
    (at_ : ies.drop offset = suites.flatMap be32 ++ rest) (fits : 4 * suites.length ≤ length.toNat) :
    ∃ left, left.toNat = length.toNat - 4 * suites.length ∧
      readSuites ies kept suites.length got.length ⟨clipSuites got, offset, length⟩ =
        some ⟨clipSuites (got ++ suites), offset + 4 * suites.length, left⟩ := by
  induction suites generalizing got offset length with
  | nil => exact ⟨length, rfl, by rw [List.append_nil]; rfl⟩
  | cons suite suites ih =>
    rw [List.flatMap_cons, List.append_assoc] at at_
    rw [List.length_cons] at fits
    have turn : keepSuite ies kept got.length ⟨clipSuites got, offset, length⟩ = some (clipSuites (got ++ [suite])) :=
      keepSuite_eq got num (by rw [List.length_append, List.length_cons]; omega) at_
    have less : (length - 4).toNat = length.toNat - 4 := UInt8.toNat_sub_of_le _ _ (UInt8.le_iff_toNat_le.mpr (by
      change 4 ≤ length.toNat
      omega))
    have fits' : 4 * suites.length ≤ (length - 4).toNat := by omega
    have split : got ++ suite :: suites = got ++ [suite] ++ suites := List.append_cons ..
    rw [split] at num ⊢
    obtain ⟨left, same, read⟩ := ih (got ++ [suite]) num (drop_behind at_) fits'
    refine ⟨left, by rw [same, less, List.length_cons]; omega, ?_⟩
    rw [List.length_cons, readSuites, turn]
    rw [List.length_append, List.length_singleton] at read
    rw [Option.bind_eq_bind, Option.bind_some]
    refine read.trans ?_
    rw [show (be32 suite).length = 4 from rfl, Nat.add_assoc, Nat.mul_add, Nat.mul_one, Nat.add_comm 4]

/-! ## The body of an element -/

theorem length_flatMap_be32 (suites : List UInt32) : (suites.flatMap be32).length = 4 * suites.length := by
  induction suites with
  | nil => rfl
  | cons suite suites ih =>
    rw [List.flatMap_cons, List.length_append, ih, List.length_cons]
    change 4 + _ = _
    omega

/-- A count and its suites are read, and as many are kept as there is room for. -/
theorem readSuites_encode {suites : List UInt32} (lt : suites.length < 2 ^ 16) (length : UInt8)
    (at_ : ies.drop offset = encodeSuites suites ++ rest) (fits : 4 * suites.length ≤ length.toNat) :
    read16 ies offset = some (UInt16.ofNat suites.length) ∧
    ∃ left, left.toNat = length.toNat - 4 * suites.length ∧
      readSuites ies (keptSuites (UInt16.ofNat suites.length)) (UInt16.ofNat suites.length).toNat 0
          ⟨.replicate _ 0, offset + 2, length⟩ =
        some ⟨clipSuites suites, offset + (encodeSuites suites).length, left⟩ := by
  have num : (UInt16.ofNat suites.length).toNat = suites.length := by
    rw [UInt16.toNat_ofNat', Nat.mod_eq_of_lt lt]
  have kept : (keptSuites (UInt16.ofNat suites.length)).toNat =
      min MM_RSN_INFORMATION_MAX_SUITES ([] ++ suites).length := by
    rw [keptSuites, num, List.nil_append]
    split_ifs with many
    · change 2 = min 2 _
      exact (Nat.min_eq_left (Nat.le_of_lt many)).symm
    · rw [num, Nat.min_eq_right (Nat.not_lt.mp many)]
  rw [encodeSuites, List.append_assoc] at at_
  obtain ⟨left, same, read⟩ := readSuites_eq [] kept (drop_behind at_) fits
  refine ⟨read16_le16 at_, left, same, ?_⟩
  have empty : clipSuites [] = .replicate _ 0 := rfl
  have size : (encodeSuites suites).length = 2 + 4 * suites.length := by
    rw [encodeSuites, List.length_append, length_flatMap_be32]
    rfl
  rw [List.nil_append, empty] at read
  rw [num, size, ← Nat.add_assoc]
  exact read

theorem length_encodeSuites (suites : List UInt32) : (encodeSuites suites).length = 2 + 4 * suites.length := by
  rw [encodeSuites, List.length_append, length_flatMap_be32]
  rfl

theorem Rsn.length_encode (r : Rsn) : r.encode.length = 12 + 4 * r.pairwise.length + 4 * r.akm.length := by
  simp only [Rsn.encode, List.length_append, length_encodeSuites]
  change 2 + (4 + (_ + (_ + 2))) = _
  omega

theorem toNat_sub_two (length : UInt8) (room : 2 ≤ length.toNat) : (length - 2).toNat = length.toNat - 2 :=
  UInt8.toNat_sub_of_le _ _ (UInt8.le_iff_toNat_le.mpr room)

theorem toNat_sub_four (length : UInt8) (room : 4 ≤ length.toNat) : (length - 4).toNat = length.toNat - 4 :=
  UInt8.toNat_sub_of_le _ _ (UInt8.le_iff_toNat_le.mpr room)

theorem toNat_behindGroup (length : UInt8) (room : 8 ≤ length.toNat) :
    (length - 2 - 4 - 2).toNat = length.toNat - 8 := by
  have first := toNat_sub_two length (by omega)
  have second := toNat_sub_four (length - 2) (by omega)
  rw [toNat_sub_two _ (by omega), second, first]
  omega

/-- A body that begins with what an RSN element says is taken. -/
theorem parseRsnBody_encode (r : Rsn) {length : UInt8} (at_ : ies.drop offset = r.encode ++ rest)
    (fits : r.encode.length ≤ length.toNat) : parseRsnBody ies offset length = some (true, r.kept) := by
  have size := r.length_encode
  have long : ¬ length < 8 := by
    rw [UInt8.lt_iff_toNat_lt]
    change ¬ length.toNat < 8
    omega
  have behind := toNat_behindGroup length (by omega)
  have numPairwise : (UInt16.ofNat r.pairwise.length).toNat = r.pairwise.length := by
    rw [UInt16.toNat_ofNat', Nat.mod_eq_of_lt r.pairwise_lt]
  have numAkm : (UInt16.ofNat r.akm.length).toNat = r.akm.length := by
    rw [UInt16.toNat_ofNat', Nat.mod_eq_of_lt r.akm_lt]
  simp only [Rsn.encode, List.append_assoc] at at_
  have atGroup : ies.drop (offset + 2) = _ := drop_behind at_
  have atPairwise : ies.drop (offset + 6) = _ := drop_behind atGroup
  have atAkm := drop_behind atPairwise
  have atCapabilities := drop_behind atAkm
  obtain ⟨readPairwise, left, leftEq, pairwise⟩ :=
    readSuites_encode r.pairwise_lt (length - 2 - 4 - 2) atPairwise (by omega)
  have left2 := toNat_sub_two left (by omega)
  obtain ⟨readAkm, left', _, akm⟩ := readSuites_encode r.akm_lt (left - 2) atAkm (by omega)
  have enoughPairwise : ¬ (length - 2 - 4 - 2).toNat < 4 * (UInt16.ofNat r.pairwise.length).toNat + 2 := by omega
  have enoughAkm : ¬ (left - 2).toNat < 4 * (UInt16.ofNat r.akm.length).toNat + 2 := by omega
  simp only [parseRsnBody, if_neg long, read16_le16 at_, read32_be32 atGroup, readPairwise, Option.bind_eq_bind,
    Option.bind_some, if_neg enoughPairwise]
  have pairwise' : readSuites ies (keptSuites (UInt16.ofNat r.pairwise.length)) (UInt16.ofNat r.pairwise.length).toNat 0
      ⟨MmRsnInformation.zero.pairwiseCipherSuites, offset + 8, length - 2 - 4 - 2⟩ = _ := pairwise
  have akm' : readSuites ies (keptSuites (UInt16.ofNat r.akm.length)) (UInt16.ofNat r.akm.length).toNat 0
      ⟨MmRsnInformation.zero.akmSuites, offset + 6 + (encodeSuites r.pairwise).length + 2, left - 2⟩ = _ := akm
  simp only [pairwise', readAkm, akm', Option.bind_some, if_neg enoughAkm, read16_le16 atCapabilities]
  rfl

theorem exists_le16 {b : Bytes} (long : 2 ≤ b.length) : ∃ x more, b = le16 x ++ more ∧ b.length = 2 + more.length := by
  match b, long with
  | a :: b :: more, _ => exact ⟨_, more, by rw [le16_of_bytes]; rfl, by simp; omega⟩

theorem exists_be32 {b : Bytes} (long : 4 ≤ b.length) : ∃ x more, b = be32 x ++ more ∧ b.length = 4 + more.length := by
  match b, long with
  | a :: b :: c :: d :: more, _ => exact ⟨_, more, by rw [be32_of_bytes]; rfl, by simp; omega⟩

theorem exists_suites (n : ℕ) {b : Bytes} (long : 4 * n ≤ b.length) :
    ∃ (suites : List UInt32) (more : Bytes), suites.length = n ∧ b = suites.flatMap be32 ++ more := by
  induction n generalizing b with
  | zero => exact ⟨[], b, rfl, rfl⟩
  | succ n ih =>
    obtain ⟨suite, more, rfl, size⟩ := exists_be32 (show 4 ≤ b.length by omega)
    obtain ⟨suites, last, length, rfl⟩ := ih (show 4 * n ≤ more.length by omega)
    exact ⟨suite :: suites, last, by rw [List.length_cons, length], by rw [List.flatMap_cons, List.append_assoc]⟩

/-- A count and as many suites. -/
theorem exists_encodeSuites {n : UInt16} {b : Bytes} (long : 4 * n.toNat ≤ b.length) :
    ∃ (suites : List UInt32) (more : Bytes), suites.length = n.toNat ∧ b.length = 4 * n.toNat + more.length ∧
      le16 n ++ b = encodeSuites suites ++ more := by
  obtain ⟨suites, more, length, rfl⟩ := exists_suites n.toNat long
  refine ⟨suites, more, length, ?_, ?_⟩
  · rw [List.length_append, length_flatMap_be32, length]
  · rw [encodeSuites, length, UInt16.ofNat_toNat, List.append_assoc]

/-- A body that does not begin with what an RSN element says is not taken. -/
theorem parseRsnBody_refuses {body : Bytes} {length : UInt8} (at_ : ies.drop offset = body ++ rest)
    (size : length.toNat = body.length) (other : ∀ r : Rsn, ¬ r.encode <+: body) :
    ∃ output, parseRsnBody ies offset length = some (false, output) := by
  by_cases long : length < 8
  · exact ⟨_, if_pos long⟩
  have enough : 8 ≤ length.toNat := by
    rw [UInt8.lt_iff_toNat_lt] at long
    exact Nat.not_lt.mp long
  have behind := toNat_behindGroup length enough
  obtain ⟨version, b, rfl, size1⟩ := exists_le16 (show 2 ≤ body.length by omega)
  obtain ⟨group, b, rfl, size2⟩ := exists_be32 (show 4 ≤ b.length by omega)
  obtain ⟨numPairwise, b, rfl, size3⟩ := exists_le16 (show 2 ≤ b.length by omega)
  simp only [List.append_assoc] at at_
  have atGroup : ies.drop (offset + 2) = _ := drop_behind at_
  have atPairwise : ies.drop (offset + 6) = _ := drop_behind atGroup
  simp only [parseRsnBody, if_neg long, read16_le16 at_, read32_be32 atGroup, read16_le16 atPairwise,
    Option.bind_eq_bind, Option.bind_some]
  by_cases short : (length - 2 - 4 - 2).toNat < 4 * numPairwise.toNat + 2
  · exact ⟨_, if_pos short⟩
  rw [if_neg short]
  have room : 4 * numPairwise.toNat ≤ b.length := by omega
  obtain ⟨pairwise, b', pairwiseNum, size4, split⟩ := exists_encodeSuites room
  have numEq : UInt16.ofNat pairwise.length = numPairwise := by rw [pairwiseNum, UInt16.ofNat_toNat]
  have pairwiseLt : pairwise.length < 2 ^ 16 := pairwiseNum ▸ numPairwise.toNat_lt
  rw [← List.append_assoc (le16 _), split, List.append_assoc] at atPairwise
  obtain ⟨_, left, leftEq, readPairwise⟩ :=
    readSuites_encode pairwiseLt (length - 2 - 4 - 2) atPairwise (by omega)
  have readPairwise' : readSuites ies (keptSuites numPairwise) numPairwise.toNat 0
      ⟨MmRsnInformation.zero.pairwiseCipherSuites, offset + 8, length - 2 - 4 - 2⟩ = _ := numEq ▸ readPairwise
  have left2 := toNat_sub_two left (by omega)
  obtain ⟨numAkm, b', rfl, size5⟩ := exists_le16 (show 2 ≤ b'.length by omega)
  have atAkm := drop_behind atPairwise
  rw [List.append_assoc] at atAkm
  simp only [readPairwise', Option.bind_some, read16_le16 atAkm]
  by_cases short' : (left - 2).toNat < 4 * numAkm.toNat + 2
  · exact ⟨_, if_pos short'⟩
  -- the rest of the body would be that of an element
  obtain ⟨akm, b'', akmNum, size6, split'⟩ := exists_encodeSuites (show 4 * numAkm.toNat ≤ b'.length by omega)
  have akmLt : akm.length < 2 ^ 16 := akmNum ▸ numAkm.toNat_lt
  obtain ⟨capabilities, more, rfl, _⟩ := exists_le16 (show 2 ≤ b''.length by omega)
  refine absurd ?_ (other ⟨version, group, pairwise, akm, capabilities, pairwiseLt, akmLt⟩)
  refine ⟨more, ?_⟩
  simp only [Rsn.encode, List.append_assoc]
  rw [← split', split]

/-! ## The first RSN element of a buffer -/

/-- What the parser of the body does with an element. -/
theorem parseRsnBody_element (front : Bytes) (e : Element) (stream : Bytes) :
    (∀ (r : Rsn) (more : Bytes), e.body = r.encode ++ more → parseRsnBody (front ++ (e.encode ++ stream))
      (front.length + 2) (UInt8.ofNat e.body.length) = some (true, r.kept)) ∧
    ((∀ r : Rsn, ¬ r.encode <+: e.body) → ∃ output, parseRsnBody (front ++ (e.encode ++ stream))
      (front.length + 2) (UInt8.ofNat e.body.length) = some (false, output)) := by
  have at_ := drop_header front e stream
  refine ⟨fun r more split => ?_, fun other => parseRsnBody_refuses at_ e.toNat_length other⟩
  have fits : r.encode.length ≤ (UInt8.ofNat e.body.length).toNat := by
    rw [e.toNat_length, split, List.length_append]
    exact Nat.le_add_right ..
  rw [split, List.append_assoc] at at_
  exact parseRsnBody_encode r at_ fits

theorem mmParseRsnInformation_found {skipped : List Element} {e : Element} {stream : Bytes}
    (others : ∀ x ∈ skipped, x.type ≠ MM_RSN_INFORMATION_IE_TYPE) (type : e.type = MM_RSN_INFORMATION_IE_TYPE) :
    mmParseRsnInformation (encodeElements skipped ++ (e.encode ++ stream)) =
      (parseRsnBody (encodeElements skipped ++ (e.encode ++ stream)) ((encodeElements skipped).length + 2)
        (UInt8.ofNat e.body.length)).map fun parsed => (if parsed.1 then 0 else -2, parsed.2) := by
  rw [← type] at others
  have length := (getElem?_header (encodeElements skipped) stream e).2
  rw [mmParseRsnInformation, ← type, mmFindIe_found others, Option.bind_eq_bind, Option.bind_some, if_neg (by omega),
    Int.toNat_natCast, length, Option.bind_eq_bind, Option.bind_some]
  cases parseRsnBody _ _ _ <;> rfl

theorem mmParseRsnInformation_missing {es : List Element} {tail : Bytes} (cut : Cut tail)
    (others : ∀ x ∈ es, x.type ≠ MM_RSN_INFORMATION_IE_TYPE) : mmParseRsnInformation (encodeElements es ++ tail) =
      some (if cutType tail = some MM_RSN_INFORMATION_IE_TYPE then -2 else -1, .zero) := by
  have negative : (if cutType tail = some MM_RSN_INFORMATION_IE_TYPE then -2 else -1 : ℤ) < 0 := by
    split_ifs <;> decide
  rw [mmParseRsnInformation, mmFindIe_missing cut others, Option.bind_eq_bind, Option.bind_some, if_pos negative]

/-- **RSN elements are parsed.** For every buffer: if the body of its first RSN element begins with what an RSN
element says, this is kept, and else the element is refused; a buffer without one is told apart from one that ends
in the middle of one. No read goes behind the end. -/
theorem rsn_parsed (ies : Bytes) :
    (∀ (r : Rsn) (more : Bytes), firstBody ies MM_RSN_INFORMATION_IE_TYPE = some (r.encode ++ more) →
      mmParseRsnInformation ies = some (0, r.kept)) ∧
    (∀ body, firstBody ies MM_RSN_INFORMATION_IE_TYPE = some body → (∀ r : Rsn, ¬ r.encode <+: body) →
      ∃ output, mmParseRsnInformation ies = some (-2, output)) ∧
    (firstBody ies MM_RSN_INFORMATION_IE_TYPE = none → mmParseRsnInformation ies =
      some (if cutType (decodeElements ies).2 = some MM_RSN_INFORMATION_IE_TYPE then -2 else -1, .zero)) := by
  obtain ⟨skipped, e, stream, rfl, others, type, first⟩ | ⟨es, tail, rfl, cut, others, decoded, none_⟩ :=
    firstBody_cases ies MM_RSN_INFORMATION_IE_TYPE
  · rw [first, mmParseRsnInformation_found others type]
    obtain ⟨takes, refuses⟩ := parseRsnBody_element (encodeElements skipped) e stream
    refine ⟨fun r more same => ?_, fun body same other => ?_, nofun⟩
    · rw [takes r more (Option.some.inj same)]
      rfl
    · cases same
      obtain ⟨output, refused⟩ := refuses other
      exact ⟨output, by rw [refused]; rfl⟩
  · rw [none_, decoded]
    exact ⟨nofun, nofun, fun _ => mmParseRsnInformation_missing cut others⟩

/-! ## S1G operation elements -/

/-- What an S1G operation element says. -/
structure S1g where
  reserved : Fin 8
  operatingWidthMhz : ℕ
  primaryWidthMhz : ℕ
  operatingClass : UInt8
  primaryChannel : UInt8
  operatingChannel : UInt8
  mcsNssSet : UInt8 × UInt8
  operatingWidth_le : 1 ≤ operatingWidthMhz ∧ operatingWidthMhz ≤ 16
  primaryWidth_le : 1 ≤ primaryWidthMhz ∧ primaryWidthMhz ≤ 2

def S1g.channelWidth (s : S1g) : UInt8 :=
  UInt8.ofNat (32 * s.reserved + 2 * (s.operatingWidthMhz - 1) + (2 - s.primaryWidthMhz))

def S1g.encode (s : S1g) : Bytes :=
  [s.channelWidth, s.operatingClass, s.primaryChannel, s.operatingChannel, s.mcsNssSet.1, s.mcsNssSet.2]

/-- What the parser keeps of it. -/
def S1g.kept (s : S1g) : MmS1gOperation where
  operatingClass := s.operatingClass
  operatingChannelWidthMhz := UInt8.ofNat s.operatingWidthMhz
  primaryChannelWidthMhz := UInt8.ofNat s.primaryWidthMhz
  operatingChannelNumber := s.operatingChannel
  primaryChannelNumber := s.primaryChannel

theorem S1g.toNat_channelWidth (s : S1g) : s.channelWidth.toNat =
    32 * s.reserved + 2 * (s.operatingWidthMhz - 1) + (2 - s.primaryWidthMhz) := by
  have operating := s.operatingWidth_le
  have primary := s.primaryWidth_le
  have reserved := s.reserved.isLt
  rw [channelWidth, UInt8.toNat_ofNat', Nat.mod_eq_of_lt (by omega)]

theorem S1g.operatingWidth_eq (s : S1g) : ((s.channelWidth >>> 1) &&& 0x0f) + 1 = UInt8.ofNat s.operatingWidthMhz := by
  have operating := s.operatingWidth_le
  have primary := s.primaryWidth_le
  have masked : (s.channelWidth.toNat >>> 1) &&& 15 = s.channelWidth.toNat / 2 % 16 := by
    rw [Nat.shiftRight_eq_div_pow, pow_one]
    exact Nat.and_two_pow_sub_one_eq_mod _ 4
  apply UInt8.toNat_inj.mp
  simp only [UInt8.toNat_add, UInt8.toNat_and, UInt8.toNat_shiftRight, UInt8.toNat_ofNat']
  change (((s.channelWidth.toNat >>> 1) &&& 15) + 1) % 256 = s.operatingWidthMhz % 256
  rw [masked, s.toNat_channelWidth]
  omega

theorem S1g.primaryWidth_eq (s : S1g) : 2 - (s.channelWidth &&& 0x01) = UInt8.ofNat s.primaryWidthMhz := by
  have operating := s.operatingWidth_le
  have primary := s.primaryWidth_le
  have masked : s.channelWidth.toNat &&& 1 = s.channelWidth.toNat % 2 := Nat.and_two_pow_sub_one_eq_mod _ 1
  apply UInt8.toNat_inj.mp
  simp only [UInt8.toNat_sub, UInt8.toNat_and, UInt8.toNat_ofNat']
  change (256 - (s.channelWidth.toNat &&& 1) + 2) % 256 = s.primaryWidthMhz % 256
  rw [masked, s.toNat_channelWidth]
  omega

/-- Every body that is long enough begins with what an S1G operation element says. -/
theorem exists_s1g {body : Bytes} (long : 6 ≤ body.length) : ∃ s : S1g, s.encode <+: body := by
  match body, long with
  | width :: class_ :: primary :: operating :: a :: b :: more, _ =>
    have bound := width.toNat_lt
    let s : S1g := ⟨⟨width.toNat / 32, by omega⟩, width.toNat / 2 % 16 + 1, 2 - width.toNat % 2, class_, primary,
      operating, (a, b), by omega, by omega⟩
    have same : s.channelWidth = width := by
      apply UInt8.toNat_inj.mp
      rw [s.toNat_channelWidth]
      change 32 * (width.toNat / 32) + 2 * (width.toNat / 2 % 16 + 1 - 1) + (2 - (2 - width.toNat % 2)) = width.toNat
      omega
    exact ⟨s, more, by rw [S1g.encode, same]; rfl⟩

theorem mmParseS1gOperation_missing {es : List Element} {tail : Bytes} (cut : Cut tail)
    (others : ∀ x ∈ es, x.type ≠ MM_S1G_OPERATION_IE_TYPE) : mmParseS1gOperation (encodeElements es ++ tail) =
      some (if cutType tail = some MM_S1G_OPERATION_IE_TYPE then -2 else -1, none) := by
  have negative : (if cutType tail = some MM_S1G_OPERATION_IE_TYPE then -2 else -1 : ℤ) < 0 := by
    split_ifs <;> decide
  rw [mmParseS1gOperation, mmFindIe_missing cut others, Option.bind_eq_bind, Option.bind_some, if_pos negative]

theorem mmParseS1gOperation_found {skipped : List Element} {e : Element} (stream : Bytes)
    (others : ∀ x ∈ skipped, x.type ≠ MM_S1G_OPERATION_IE_TYPE) (type : e.type = MM_S1G_OPERATION_IE_TYPE) :
    (∀ (s : S1g) (more : Bytes), e.body = s.encode ++ more →
      mmParseS1gOperation (encodeElements skipped ++ (e.encode ++ stream)) = some (0, some s.kept)) ∧
    (e.body.length < 6 → mmParseS1gOperation (encodeElements skipped ++ (e.encode ++ stream)) = some (-2, none)) := by
  rw [← type] at others
  have length := (getElem?_header (encodeElements skipped) stream e).2
  have at_ := drop_header (encodeElements skipped) e stream
  rw [mmParseS1gOperation, ← type, mmFindIe_found others, Option.bind_eq_bind, Option.bind_some, if_neg (by omega),
    Int.toNat_natCast, length, Option.bind_eq_bind, Option.bind_some, e.toNat_length]
  constructor
  · intro s more split
    have enough : ¬ S1G_OPERATION_SIZE > e.body.length + 2 := by
      rw [split, List.length_append]
      change ¬ 8 > 6 + _ + 2
      omega
    rw [split] at at_
    generalize encodeElements skipped ++ (e.encode ++ stream) = ies at at_ ⊢
    have width : ies[(encodeElements skipped).length + 2]? = some s.channelWidth := getElem?_of_drop at_ 0
    have class_ : ies[(encodeElements skipped).length + 3]? = some s.operatingClass := getElem?_of_drop at_ 1
    have primary : ies[(encodeElements skipped).length + 4]? = some s.primaryChannel := getElem?_of_drop at_ 2
    have operating : ies[(encodeElements skipped).length + 5]? = some s.operatingChannel := getElem?_of_drop at_ 3
    rw [if_neg enough, width, class_, primary, operating, S1g.kept, ← s.operatingWidth_eq, ← s.primaryWidth_eq]
    rfl
  · intro short
    exact if_pos (by change 8 > e.body.length + 2; omega)

theorem s1g_parsed (ies : Bytes) :
    (∀ (s : S1g) (more : Bytes), firstBody ies MM_S1G_OPERATION_IE_TYPE = some (s.encode ++ more) →
      mmParseS1gOperation ies = some (0, some s.kept)) ∧
    (∀ body, firstBody ies MM_S1G_OPERATION_IE_TYPE = some body → (∀ s : S1g, ¬ s.encode <+: body) →
      mmParseS1gOperation ies = some (-2, none)) ∧
    (firstBody ies MM_S1G_OPERATION_IE_TYPE = none → mmParseS1gOperation ies =
      some (if cutType (decodeElements ies).2 = some MM_S1G_OPERATION_IE_TYPE then -2 else -1, none)) := by
  obtain ⟨skipped, e, stream, rfl, others, type, first⟩ | ⟨es, tail, rfl, cut, others, decoded, none_⟩ :=
    firstBody_cases ies MM_S1G_OPERATION_IE_TYPE
  · rw [first]
    obtain ⟨takes, refuses⟩ := mmParseS1gOperation_found stream others type
    refine ⟨fun s more same => takes s more (Option.some.inj same), fun body same other => ?_, nofun⟩
    cases same
    refine refuses (Nat.lt_of_not_le fun long => ?_)
    obtain ⟨s, begins⟩ := exists_s1g long
    exact other s begins
  · rw [none_, decoded]
    exact ⟨nofun, nofun, fun _ => mmParseS1gOperation_missing cut others⟩

end MammotionRc.Firmware
