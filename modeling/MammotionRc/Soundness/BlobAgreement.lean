import MammotionRc.Soundness.CrcAgreement

/-! # The two packers and the loader agree

Both packers write the bytes of one and the same `hc33_config_v1`, and `config_load` reads that blob back
without repairing anything.
-/

namespace MammotionRc.Packers

open Firmware Machine JsNumber

/-- The values that a user chose. -/
structure ConfigValues where
  uplinkSsid : Text
  uplinkPass : Text
  region : Text
  softapSsid : Text
  softapPass : Text
  softapChannel : ℤ
deriving DecidableEq, Repr

namespace ConfigValues

/-- The values in an INI file. -/
def toSection (v : ConfigValues) : ConfigSection :=
  ⟨some v.uplinkSsid, some v.uplinkPass, some v.region, some v.softapSsid, some v.softapPass, some v.softapChannel⟩

/-- The values in the form, where the channel is a decimal text. -/
def toForm (v : ConfigValues) : Js.FormValues :=
  ⟨v.uplinkSsid, v.uplinkPass, v.region, v.softapSsid, v.softapPass, decimal v.softapChannel⟩

/-- The channel is one of 802.11 b/g/n. -/
def InRange (v : ConfigValues) : Prop := 1 ≤ v.softapChannel ∧ v.softapChannel ≤ 14

/-- A blob of the values, whatever its CRC. -/
def blobWith (v : ConfigValues) (crc : BitVec 32) : Hc33ConfigV1 where
  magic := HC33_CONFIG_MAGIC
  version := HC33_CONFIG_VERSION
  uplinkSsid := charField 33 (utf8 v.uplinkSsid)
  uplinkPass := charField 65 (utf8 v.uplinkPass)
  region := charField 4 (utf8 v.region)
  softapSsid := charField 33 (utf8 v.softapSsid)
  softapPass := charField 65 (utf8 v.softapPass)
  softapChannel := ⟨BitVec.ofInt 8 v.softapChannel⟩
  crc32 := crc

/-- The bytes that the CRC covers. -/
def body (v : ConfigValues) : List UInt8 := (v.blobWith 0).toBytes.take 206

/-- The blob that both packers write. -/
def blob (v : ConfigValues) : Hc33ConfigV1 := v.blobWith (Crc.crc32 v.body)

theorem toBytes_blobWith (v : ConfigValues) (crc : BitVec 32) : (v.blobWith crc).toBytes = v.body ++ le32 crc := by
  rw [body, Hc33ConfigV1.toBytes, Hc33ConfigV1.toBytes, List.take_append_of_le_length]
  · rw [List.take_of_length_le]
    · rfl
    · simp [length_le32]
  · simp [length_le32]

end ConfigValues

variable {v : ConfigValues}

theorem length_body (v : ConfigValues) : v.body.length = 206 := by
  rw [ConfigValues.body, List.length_take, Hc33ConfigV1.length_toBytes]
  rfl

/-- The fields that precede the CRC, as both packers write them. -/
theorem body_eq (v : ConfigValues) :
    v.body = le32 MAGIC ++ [VERSION] ++ fixedField 33 (utf8 v.uplinkSsid) ++ fixedField 65 (utf8 v.uplinkPass) ++
      fixedField 4 (utf8 v.region) ++ fixedField 33 (utf8 v.softapSsid) ++ fixedField 65 (utf8 v.softapPass) ++
      [⟨BitVec.ofInt 8 v.softapChannel⟩] :=
  (List.append_inj_left' (v.toBytes_blobWith 0) rfl).symm

theorem toBytes_blob (v : ConfigValues) : v.blob.toBytes = v.body ++ le32 (Crc.crc32 v.body) := by
  rw [ConfigValues.blob, ConfigValues.toBytes_blobWith]

theorem pack_of_inRange (inRange : v.InRange) : pack v.toSection = .ok v.blob.toBytes := by
  have length := length_body v
  have bytes := toBytes_blob v
  rw [body_eq] at length bytes
  rw [pack, bytes]
  exact (if_neg (not_not.mpr inRange)).trans (if_neg (not_not.mpr length))

theorem pack_of_not_inRange (outside : ¬ v.InRange) : ∃ message, pack v.toSection = .error message := by
  rw [pack]
  exact ⟨_, if_pos outside⟩

namespace Js

/-- An array whose first bytes have been written. -/
def writing (written : List UInt8) (n : ℕ) : List UInt8 := written ++ newArray (n - written.length)

theorem writing_nil (n : ℕ) : writing [] n = newArray n := rfl

theorem writing_full {written : List UInt8} {n : ℕ} (full : written.length = n) : writing written n = written := by
  rw [writing, full, Nat.sub_self]
  exact List.append_nil _

/-- Writing right behind what was written before. -/
theorem setBytes_writing {written source : List UInt8} {n off : ℕ} (behind : off = written.length)
    (fits : written.length + source.length ≤ n) :
    setBytes (writing written n) source off = .ok (writing (written ++ source) n) := by
  have length : (writing written n).length = n := by
    rw [writing, newArray, List.length_append, List.length_replicate]
    omega
  rw [setBytes, length, behind, if_pos fits, writing, List.take_left, List.drop_append, newArray,
    List.drop_replicate, writing, newArray, List.length_append]
  have gone : written.drop (written.length + source.length) = [] := List.drop_of_length_le (by omega)
  rw [gone, List.nil_append, show n - written.length - (written.length + source.length - written.length) =
    n - (written.length + source.length) by omega]

theorem fixedField_eq (s : Text) (width : ℕ) : Js.fixedField s width = .ok (Machine.fixedField width (utf8 s)) := by
  have short : ((utf8 s).take (min (utf8 s).length (width - 1))) = (utf8 s).take (width - 1) := by
    rw [List.take_eq_take_iff]
    omega
  rw [Js.fixedField, short, ← writing_nil, setBytes_writing (List.length_nil).symm]
  · rfl
  · rw [List.length_nil, List.length_take]
    omega

theorem bind_of_ok {α β : Type} {x : Except String α} {a : α} {f : α → Except String β} {r : Except String β}
    (ok : x = .ok a) (rest : f a = r) : (x >>= f) = r := by
  rw [ok]
  exact rest

/-- One field of the form goes behind what was written before. -/
theorem writeField {β : Type} {s : Text} {width n off : ℕ} {written : List UInt8}
    {f : List UInt8 → Except String β} {r : Except String β} (behind : off = written.length)
    (fits : written.length + width ≤ n)
    (rest : f (writing (written ++ Machine.fixedField width (utf8 s)) n) = r) :
    (do f (← setBytes (writing written n) (← Js.fixedField s width) off)) = r := by
  refine bind_of_ok (fixedField_eq s width) (bind_of_ok (setBytes_writing behind ?_) rest)
  rw [length_fixedField]
  exact fits

theorem eq_of_mem_built : ∀ t ∈ some buildCrcTable, t = buildCrcTable :=
  fun _ cached => (Option.some.inj cached).symm

/-- The cached table is filled by the first call and never changes. -/
def filled : CrcTable := ⟨some buildCrcTable, eq_of_mem_built⟩

/-- The last step: the body and its CRC are copied into the result. -/
theorem appendCrc (cache : CrcTable) {written body : List UInt8} (same : written = body)
    (length : body.length = BODY_LEN) :
    (do
      let out ← setBytes (writing [] TOTAL_LEN) (writing written BODY_LEN) 0
      let out ← setBytes out (le32 (toInt32 (crc32 cache (writing written BODY_LEN)).1)) BODY_LEN
      Except.ok (out, (crc32 cache (writing written BODY_LEN)).2)) =
      Except.ok (body ++ le32 (Crc.crc32 body), filled) := by
  rw [same, writing_full length, crc32_eq]
  refine bind_of_ok (setBytes_writing rfl ?_) (bind_of_ok (setBytes_writing ?_ ?_) ?_)
  · rw [List.length_nil, length]
    decide
  · rw [List.nil_append, length]
  · rw [List.nil_append, length, length_le32]
    decide
  · rw [List.nil_append, writing_full]
    · rfl
    · rw [List.length_append, length]
      rfl

theorem channelAccepted_iff (v : ConfigValues) :
    (!(parseInt (decimal v.softapChannel)).isFinite || (parseInt (decimal v.softapChannel)).ltInt 1 ||
      (parseInt (decimal v.softapChannel)).gtInt 14) = false ↔ v.InRange := by
  rw [parseInt_decimal, ConfigValues.InRange, ← ofInt_between v.softapChannel (by decide) (by decide),
    Bool.or_eq_false_iff, Bool.or_eq_false_iff, Bool.not_eq_false', and_assoc]

theorem buildConfigBlob_of_not_inRange (cache : CrcTable) (outside : ¬ v.InRange) :
    ∃ message, buildConfigBlob cache v.toForm = .error message := by
  have rejected := (Bool.eq_false_or_eq_true _).resolve_right (mt (channelAccepted_iff v).mp outside)
  rw [buildConfigBlob]
  exact ⟨_, if_pos rejected⟩

theorem buildConfigBlob_of_inRange (cache : CrcTable) (inRange : v.InRange) :
    buildConfigBlob cache v.toForm = .ok (v.blob.toBytes, filled) := by
  have accepted := (channelAccepted_iff v).mpr inRange
  have channel : parseInt (decimal v.softapChannel) = .fin v.softapChannel := by
    rw [parseInt_decimal, ofInt_of_lt]
    have := inRange.1
    have := inRange.2
    omega
  rw [buildConfigBlob]
  refine (if_neg (by rw [ConfigValues.toForm, accepted]; decide)).trans ?_
  rw [← writing_nil, ← writing_nil]
  refine bind_of_ok (setBytes_writing rfl (by decide)) ?_
  refine bind_of_ok (setBytes_writing rfl (by decide)) ?_
  refine writeField (by simp [length_le32]) (by simp [length_le32]; decide) ?_
  refine writeField (by simp [length_le32]; omega) (by simp [length_le32]; decide) ?_
  refine writeField (by simp [length_le32]; omega) (by simp [length_le32]; decide) ?_
  refine writeField (by simp [length_le32]; omega) (by simp [length_le32]; decide) ?_
  refine writeField (by simp [length_le32]; omega) (by simp [length_le32]; decide) ?_
  refine bind_of_ok (setBytes_writing (by simp [length_le32]; omega) (by simp [length_le32]; decide)) ?_
  refine (if_neg (not_not.mpr rfl)).trans ?_
  rw [toBytes_blob]
  refine appendCrc cache ?_ (length_body v)
  rw [body_eq, ConfigValues.toForm, channel]
  rfl

end Js

/-- A NUL-filled field already ends in a NUL. -/
theorem eq_charField_of_nulAtEnd {n : ℕ} {loaded : CharArray (n + 1)} {s : List UInt8}
    (same : NulAtEnd loaded (charField (n + 1) s)) : loaded = charField (n + 1) s := by
  apply List.Vector.eq
  rw [same]
  exact fixedField_dropLast s (Nat.succ_pos n)

/-- The bytes of the packed blob. -/
def ConfigValues.packed (v : ConfigValues) : CharArray 210 := ⟨v.blob.toBytes, v.blob.length_toBytes⟩

theorem toNat_channel (inRange : v.InRange) : (v.blob.softapChannel.toNat : ℤ) = v.softapChannel := by
  have low := inRange.1
  have high := inRange.2
  show ((BitVec.ofInt 8 v.softapChannel).toNat : ℤ) = v.softapChannel
  rw [BitVec.toNat_ofInt]
  omega

theorem accepted_packed (v : ConfigValues) : Accepted v.packed := by
  have same : Hc33ConfigV1.ofBytes v.packed = v.blob := Hc33ConfigV1.ofBytes_eq_iff.mpr rfl
  have covered : v.packed.toList.take 206 = v.body := by
    show v.blob.toBytes.take 206 = v.body
    rw [toBytes_blob, ← length_body v, List.take_left]
  exact ⟨congrArg _ same, congrArg _ same, by rw [same, covered]; rfl⟩

/-- The loader takes the packed blob over without repairing it. -/
theorem configLoad_packed (env : Env) (g_cfg : Hc33ConfigV1) (inRange : v.InRange) :
    configLoad env (.content v.packed) g_cfg = (v.blob, .configPartition) := by
  have same : Hc33ConfigV1.ofBytes v.packed = v.blob := Hc33ConfigV1.ofBytes_eq_iff.mpr rfl
  rcases configLoad_content env v.packed g_cfg with ⟨_, repaired, source⟩ | ⟨rejected, _⟩
  · rw [same] at repaired
    have low := inRange.1
    have high := inRange.2
    have channel := toNat_channel inRange
    refine Prod.ext ?_ source
    generalize (configLoad env (.content v.packed) g_cfg).1 = loaded at repaired
    cases loaded
    simp only [ConfigValues.blob, ConfigValues.blobWith, Hc33ConfigV1.mk.injEq]
    refine ⟨repaired.magic, repaired.version, eq_charField_of_nulAtEnd repaired.uplinkSsid,
      eq_charField_of_nulAtEnd repaired.uplinkPass, eq_charField_of_nulAtEnd repaired.region,
      eq_charField_of_nulAtEnd repaired.softapSsid, eq_charField_of_nulAtEnd repaired.softapPass, ?_, repaired.crc32⟩
    exact repaired.softapChannel.trans (if_pos (by omega))
  · exact absurd (accepted_packed v) rejected

/-- What is left of a value in a field: its bytes up to the width and to the first NUL. -/
def cut (s : Text) (width : ℕ) : List UInt8 := cstr ((utf8 s).take (width - 1))

/-- The loader accepted the blob and took the values over. -/
structure Takes (v : ConfigValues) (result : Hc33ConfigV1 × Source) : Prop where
  accepted : result.2 = .configPartition
  uplinkSsid : cstr result.1.uplinkSsid.toList = cut v.uplinkSsid 33
  uplinkPass : cstr result.1.uplinkPass.toList = cut v.uplinkPass 65
  region : cstr result.1.region.toList = cut v.region 4
  softapSsid : cstr result.1.softapSsid.toList = cut v.softapSsid 33
  softapPass : cstr result.1.softapPass.toList = cut v.softapPass 65
  softapChannel : (result.1.softapChannel.toNat : ℤ) = v.softapChannel

/-- Both packers reject the values. -/
def Rejected (cache : Js.CrcTable) (v : ConfigValues) : Prop :=
  (∃ message, pack v.toSection = .error message) ∧ ∃ message, Js.buildConfigBlob cache v.toForm = .error message

/-- Both packers write the same bytes. -/
def Written (cache : Js.CrcTable) (v : ConfigValues) (raw : CharArray 210) : Prop :=
  pack v.toSection = .ok raw.toList ∧ ∃ later, Js.buildConfigBlob cache v.toForm = .ok (raw.toList, later)

theorem blob_agreed (env : Env) (g_cfg : Hc33ConfigV1) (cache : Js.CrcTable) (v : ConfigValues) :
    (¬ v.InRange ∧ Rejected cache v) ∨
      (v.InRange ∧ ∃ raw, Written cache v raw ∧ Takes v (configLoad env (.content raw) g_cfg)) := by
  by_cases inRange : v.InRange
  · refine .inr ⟨inRange, v.packed, ⟨pack_of_inRange inRange, _, Js.buildConfigBlob_of_inRange cache inRange⟩, ?_⟩
    rw [configLoad_packed env g_cfg inRange]
    refine ⟨rfl, cstr_fixedField _, cstr_fixedField _, cstr_fixedField _, cstr_fixedField _, cstr_fixedField _,
      toNat_channel inRange⟩
  · exact .inl ⟨inRange, pack_of_not_inRange inRange, Js.buildConfigBlob_of_not_inRange cache inRange⟩

end MammotionRc.Packers
