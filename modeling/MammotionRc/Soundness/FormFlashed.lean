import MammotionRc.Machine.Utf8
import MammotionRc.Packers.FlasherForm
import MammotionRc.Soundness.BlobAgreement

/-! # What becomes of the flasher's form

The packer reads the channel and the byte lengths of all fields, whatever the variant; the page counts units and looks
at the fields of the HaLow variant only there.
-/

namespace MammotionRc.Packers

open Firmware Machine JsNumber

/-- A field holds a text, all of it, with a NUL behind it. -/
def Stores {n : ℕ} (field : CharArray n) (text : Text) : Prop := cstr field.toList = utf8 text ∧ 0 ∈ field.toList

/-- A text fits into a field of `n` bytes with its NUL. -/
def FitsField (n : ℕ) (text : Text) : Prop := (utf8 text).length < n ∧ '\x00' ∉ text

theorem stores_charField_iff {n : ℕ} {text : Text} (wide : 0 < n) :
    Stores (charField n (utf8 text)) text ↔ FitsField n text := by
  have contents : (charField n (utf8 text)).toList = fixedField n (utf8 text) := rfl
  rw [Stores, FitsField, contents, cstr_fixedField]
  constructor
  · rintro ⟨whole, _⟩
    have clean : 0 ∉ utf8 text := whole ▸ zero_notMem_cstr _
    refine ⟨?_, Utf8.zero_notMem_encode_iff.mp clean⟩
    have length := congrArg List.length whole
    rw [cstr_take, cstr_eq_self clean, List.length_take] at length
    omega
  · rintro ⟨fits, clean⟩
    have clean : 0 ∉ utf8 text := Utf8.zero_notMem_encode clean
    rw [cstr_take, cstr_eq_self clean, List.take_of_length_le (by omega)]
    refine ⟨rfl, ?_⟩
    rw [← fixedField_dropLast _ wide]
    exact List.mem_append_right _ (List.mem_singleton_self 0)

namespace Js

open FlasherForm

theorem buildConfigBlob_of_between (cache : CrcTable) {c : FormValues} {channel : ℤ}
    (parsed : parseInt c.softapChannel = .fin channel) (low : 1 ≤ channel) (high : channel ≤ 14) :
    buildConfigBlob cache c = .ok ((ConfigValues.mk c.uplinkSsid c.uplinkPass c.region c.softapSsid c.softapPass
      channel).blob.toBytes, filled) := by
  have decimals : parseInt (ConfigValues.toForm ⟨c.uplinkSsid, c.uplinkPass, c.region, c.softapSsid, c.softapPass,
      channel⟩).softapChannel = .fin channel := by
    have small : channel.natAbs < 2 ^ 53 := by omega
    exact (parseInt_decimal channel).trans (ofInt_of_lt small)
  have passes : (!(JsNumber.fin channel).isFinite || (JsNumber.fin channel).ltInt 1 ||
      (JsNumber.fin channel).gtInt 14) = false := by
    simp only [isFinite, ltInt, gtInt, Bool.not_true, Bool.false_or, Bool.or_eq_false_iff, decide_eq_false_iff_not]
    omega
  -- the packer reads the channel text for nothing but its number
  rw [← buildConfigBlob_of_inRange cache ⟨low, high⟩, buildConfigBlob, buildConfigBlob, parsed, decimals]
  exact (if_neg (Bool.eq_false_iff.mp passes)).trans (if_neg (Bool.eq_false_iff.mp passes)).symm

/-- The packer accepts the channels from 1 to 14 only. -/
theorem between_of_buildConfigBlob {cache : CrcTable} {c : FormValues} {result : List UInt8 × CrcTable}
    (built : buildConfigBlob cache c = .ok result) : between 1 14 (parseInt c.softapChannel) = true := by
  rw [buildConfigBlob] at built
  cases parsed : parseInt c.softapChannel with
  | fin channel =>
    by_contra outside
    have rejected : (!(JsNumber.fin channel).isFinite || (JsNumber.fin channel).ltInt 1 ||
        (JsNumber.fin channel).gtInt 14) = true := by
      simp only [isFinite, ltInt, gtInt, Bool.not_true, Bool.false_or, Bool.or_eq_true, decide_eq_true_eq]
      simp only [between, decide_eq_true_eq] at outside
      omega
    simp only [parsed, rejected, if_true] at built
    cases built
  | nan =>
    simp only [parsed, isFinite] at built
    cases built
  | infinite negative =>
    simp only [parsed, isFinite] at built
    cases built

/-- The blob of a form holds each SSID and password in full. -/
def Flashed (cache : CrcTable) (f : FlasherForm) : Prop :=
  ∃ (blob : Hc33ConfigV1) (cache' : CrcTable), buildConfigBlob cache f.collectFormValues = .ok (blob.toBytes, cache') ∧
    Stores blob.uplinkSsid (Utf16.scalars f.uplinkSsid) ∧ Stores blob.uplinkPass (Utf16.scalars f.uplinkPass) ∧
    Stores blob.softapSsid (Utf16.scalars f.softapSsid) ∧ Stores blob.softapPass (Utf16.scalars f.softapPass)

/-- The channel is a number from 1 to 14, and the texts fit as UTF-8. -/
def Fits (f : FlasherForm) : Prop :=
  between 1 14 (parseInt (Utf16.scalars f.softapChannel)) = true ∧
    FitsField 33 (Utf16.scalars f.uplinkSsid) ∧ FitsField 65 (Utf16.scalars f.uplinkPass) ∧
    FitsField 33 (Utf16.scalars f.softapSsid) ∧ FitsField 65 (Utf16.scalars f.softapPass)

theorem flashed_iff_fits (cache : CrcTable) (f : FlasherForm) : Flashed cache f ↔ Fits f := by
  have fields (channel : ℤ) :
      let blob := (ConfigValues.mk (Utf16.scalars f.uplinkSsid) (Utf16.scalars f.uplinkPass) (Utf16.scalars f.region)
        (Utf16.scalars f.softapSsid) (Utf16.scalars f.softapPass) channel).blob
      (Stores blob.uplinkSsid (Utf16.scalars f.uplinkSsid) ∧ Stores blob.uplinkPass (Utf16.scalars f.uplinkPass) ∧
        Stores blob.softapSsid (Utf16.scalars f.softapSsid) ∧ Stores blob.softapPass (Utf16.scalars f.softapPass)) ↔
      (FitsField 33 (Utf16.scalars f.uplinkSsid) ∧ FitsField 65 (Utf16.scalars f.uplinkPass) ∧
        FitsField 33 (Utf16.scalars f.softapSsid) ∧ FitsField 65 (Utf16.scalars f.softapPass)) :=
    and_congr (stores_charField_iff (by decide)) <| and_congr (stores_charField_iff (by decide)) <|
      and_congr (stores_charField_iff (by decide)) (stores_charField_iff (by decide))
  constructor
  · rintro ⟨blob, cache', built, stored⟩
    have inside := between_of_buildConfigBlob built
    refine ⟨inside, ?_⟩
    cases parsed : parseInt f.collectFormValues.softapChannel with
    | fin channel =>
      rw [parsed, between, decide_eq_true_eq] at inside
      have same := built.symm.trans (buildConfigBlob_of_between cache parsed inside.1 inside.2)
      have bytes := congrArg Prod.fst (Except.ok.inj same)
      cases Hc33ConfigV1.toBytes_injective bytes
      exact (fields channel).mp stored
    | nan | infinite _ =>
      rw [parsed] at inside
      cases inside
  · rintro ⟨inside, fit⟩
    cases parsed : parseInt (Utf16.scalars f.softapChannel) with
    | fin channel =>
      rw [parsed, between, decide_eq_true_eq] at inside
      exact ⟨_, _, buildConfigBlob_of_between cache (c := f.collectFormValues) parsed inside.1 inside.2,
        (fields channel).mpr fit⟩
    | nan | infinite _ =>
      rw [parsed] at inside
      cases inside

/-- A form that the page accepts is flashed in full exactly if it fits. -/
theorem flashed_iff (cache : CrcTable) (f : FlasherForm) :
    (f.validateForm.1 = true → Flashed cache f) ↔ (f.validateForm.1 = true → Fits f) :=
  imp_congr_right fun _ => flashed_iff_fits cache f

/-- A password for the standard firmware, whose channel field is hidden and empty. -/
def hiddenChannel : FlasherForm :=
  ⟨.wifi, Utf16.encode "home".toList, Utf16.encode "secret12".toList, Utf16.encode "AU".toList,
    Utf16.encode "MowerAP".toList, [], []⟩

/-- An SSID of 32 umlauts. -/
def umlauts : FlasherForm :=
  ⟨.halow, List.replicate 32 0xFC, Utf16.encode "secret12".toList, Utf16.encode "AU".toList,
    Utf16.encode "MowerAP".toList, Utf16.encode "mower-ap-password".toList, Utf16.encode "6".toList⟩

/-- The table before the first call. -/
def unbuilt : CrcTable := ⟨none, fun _ cached => by cases cached⟩

/-- The page accepts both forms; one cannot be packed, and the other loses half of its SSID. -/
theorem accepted_not_flashed :
    (hiddenChannel.Allowed ∧ hiddenChannel.validateForm.1 = true ∧ ¬ Flashed unbuilt hiddenChannel) ∧
      umlauts.Allowed ∧ umlauts.validateForm.1 = true ∧ ¬ Flashed unbuilt umlauts := by
  refine ⟨⟨⟨by decide, by decide, by decide, by decide, by decide⟩, by decide, ?_⟩,
    ⟨by decide, by decide, by decide, by decide, by decide⟩, by decide +kernel, ?_⟩
  · rw [flashed_iff_fits]
    rintro ⟨inside, _⟩
    exact absurd inside (by decide)
  · rw [flashed_iff_fits]
    rintro ⟨_, ⟨short, _⟩, _⟩
    exact absurd short (by decide)

end Js

end MammotionRc.Packers
