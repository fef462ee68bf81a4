import MammotionRc.Firmware.HalowAssociate
import MammotionRc.Soundness.BlobAgreement

/-! # The SSID that is joined

The packers and the loader keep 32 bytes of an SSID, but `strncpy` into the driver's 32-byte array is given one
byte less. Passphrases fit everywhere.
-/

namespace MammotionRc.Packers

open Firmware Machine

/-- One of the packers wrote these bytes. -/
def PackedBy (cache : Js.CrcTable) (v : ConfigValues) (raw : CharArray 210) : Prop :=
  pack v.toSection = .ok raw.toList ∨ ∃ later, Js.buildConfigBlob cache v.toForm = .ok (raw.toList, later)

/-- A value of at most `most` bytes, none of them NUL. -/
structure Fits (s : Text) (most : ℕ) : Prop where
  length : (utf8 s).length ≤ most
  clean : 0 ∉ utf8 s

/-- The arguments carry exactly the configured SSID and passphrase. -/
structure Carries (v : ConfigValues) (args : MmwlanStaArgs) : Prop where
  ssidLen : args.ssidLen.toNat = (utf8 v.uplinkSsid).length
  ssid : args.ssid.toList.take args.ssidLen.toNat = utf8 v.uplinkSsid
  passphraseLen : args.passphraseLen.toNat = (utf8 v.uplinkPass).length
  passphrase : args.passphrase.toList.take args.passphraseLen.toNat = utf8 v.uplinkPass

/-- Every call of the driver joins the network that the user configured. -/
def Joined (v : ConfigValues) (g_cfg : Hc33ConfigV1) (outcome : ℕ → Attempt) : Prop :=
  ∀ args ∈ (halowAssociateWithRetry g_cfg outcome).1, Carries v args

variable {v : ConfigValues} {cache : Js.CrcTable} {raw : CharArray 210}

/-- Whichever packer wrote the bytes, they are the packed blob of a valid channel. -/
theorem PackedBy.eq_packed (packed : PackedBy cache v raw) : v.InRange ∧ raw = v.packed := by
  have inRange : v.InRange := by
    by_contra outside
    rcases packed with packed | ⟨later, packed⟩
    · obtain ⟨message, rejected⟩ := pack_of_not_inRange outside
      rw [rejected] at packed
      cases packed
    · obtain ⟨message, rejected⟩ := Js.buildConfigBlob_of_not_inRange cache outside
      rw [rejected] at packed
      cases packed
  refine ⟨inRange, List.Vector.eq _ _ ?_⟩
  rcases packed with packed | ⟨later, packed⟩
  · rw [pack_of_inRange inRange] at packed
    exact (Except.ok.inj packed).symm
  · rw [Js.buildConfigBlob_of_inRange cache inRange] at packed
    exact (congrArg Prod.fst (Except.ok.inj packed)).symm

/-- A field of the driver holds what fits into it and into the configuration field. -/
theorem cstr_strncpyField {n m : ℕ} {s : Text} (clean : 0 ∉ utf8 s) :
    cstr (strncpyField (.replicate (n + 1) 0) (charField (m + 1) (utf8 s))).toList = (utf8 s).take (min n m) := by
  show cstr (strncpy (List.replicate (n + 1) 0) (fixedField (m + 1) (utf8 s)) (n + 1 - 1)) = _
  rw [strncpy_zeros, cstr_fixedField, cstr_take, cstr_eq_self clean, List.take_take]
  rfl

theorem ssid_staArgs (clean : 0 ∉ utf8 v.uplinkSsid) :
    cstr (staArgs v.blob).ssid.toList = (utf8 v.uplinkSsid).take 31 :=
  cstr_strncpyField (n := 31) (m := 32) clean

theorem passphrase_staArgs (clean : 0 ∉ utf8 v.uplinkPass) :
    cstr (staArgs v.blob).passphrase.toList = (utf8 v.uplinkPass).take 64 :=
  cstr_strncpyField (n := 100) (m := 64) clean

theorem ssidLen_staArgs (clean : 0 ∉ utf8 v.uplinkSsid) :
    (staArgs v.blob).ssidLen.toNat = min 31 (utf8 v.uplinkSsid).length := by
  show (UInt16.ofNat (strlen (staArgs v.blob).ssid.toList)).toNat = _
  rw [strlen, ssid_staArgs clean, List.length_take, UInt16.toNat_ofNat_of_lt']
  exact (min_le_left _ _).trans_lt (by decide)

theorem passphraseLen_staArgs (clean : 0 ∉ utf8 v.uplinkPass) :
    (staArgs v.blob).passphraseLen.toNat = min 64 (utf8 v.uplinkPass).length := by
  show (UInt16.ofNat (strlen (staArgs v.blob).passphrase.toList)).toNat = _
  rw [strlen, passphrase_staArgs clean, List.length_take, UInt16.toNat_ofNat_of_lt']
  exact (min_le_left _ _).trans_lt (by decide)

theorem carries_iff (ssid : Fits v.uplinkSsid 32) (pass : Fits v.uplinkPass 63) :
    Carries v (staArgs v.blob) ↔ (utf8 v.uplinkSsid).length ≤ 31 := by
  have ssidLen := ssidLen_staArgs ssid.clean
  have passLen := passphraseLen_staArgs pass.clean
  have passShort := pass.length
  constructor
  · intro carries
    have := carries.ssidLen
    omega
  · intro short
    have ssidBytes : (staArgs v.blob).ssidLen.toNat = strlen (staArgs v.blob).ssid.toList := by
      rw [strlen, ssid_staArgs ssid.clean, ssidLen, List.length_take]
    have passBytes : (staArgs v.blob).passphraseLen.toNat = strlen (staArgs v.blob).passphrase.toList := by
      rw [strlen, passphrase_staArgs pass.clean, passLen, List.length_take]
    refine ⟨by omega, ?_, by omega, ?_⟩
    · rw [ssidBytes, take_strlen, ssid_staArgs ssid.clean, List.take_of_length_le short]
    · rw [passBytes, take_strlen, passphrase_staArgs pass.clean, List.take_of_length_le (by omega)]

theorem ssid_joined_iff (env : Env) (g_cfg : Hc33ConfigV1) (outcome : ℕ → Attempt)
    (ssid : Fits v.uplinkSsid 32) (pass : Fits v.uplinkPass 63) (packed : PackedBy cache v raw) :
    Joined v (configLoad env (.content raw) g_cfg).1 outcome ↔ (utf8 v.uplinkSsid).length ≤ 31 := by
  obtain ⟨inRange, rfl⟩ := packed.eq_packed
  rw [Joined, configLoad_packed env g_cfg inRange, forall_halowAssociateWithRetry, carries_iff ssid pass]

/-- A network whose SSID has the maximal 32 bytes. -/
def longestSsid : ConfigValues where
  uplinkSsid := List.replicate 32 'a'
  uplinkPass := ['p', 'a', 's', 's', 'w', 'o', 'r', 'd']
  region := ['A', 'U']
  softapSsid := ['M', 'o', 'w', 'e', 'r', 'A', 'P']
  softapPass := ['m', 'o', 'w', 'e', 'r', 'p', 'a', 's', 's']
  softapChannel := 6

/-- A network with a short SSID. -/
def shortSsid : ConfigValues := { longestSsid with uplinkSsid := ['m', 'y', '-', 'a', 'p'] }

theorem ssid_joined_shortSsid :
    Joined shortSsid (configLoad .hc33 (.content shortSsid.packed) .zero).1 fun _ => .stuck := by
  have packed : PackedBy ⟨none, by rintro t ⟨⟩⟩ shortSsid shortSsid.packed :=
    .inl (pack_of_inRange ⟨by decide, by decide⟩)
  have ssid : Fits shortSsid.uplinkSsid 32 := ⟨by decide, by decide⟩
  have pass : Fits shortSsid.uplinkPass 63 := ⟨by decide, by decide⟩
  exact (ssid_joined_iff .hc33 .zero (fun _ => .stuck) ssid pass packed).mpr (by decide)

/-- The driver is asked to join a network whose name lacks the last byte. -/
theorem longestSsid_not_joined :
    Fits longestSsid.uplinkSsid 32 ∧ Fits longestSsid.uplinkPass 63 ∧
      pack longestSsid.toSection = .ok longestSsid.packed.toList ∧
      ¬ Joined longestSsid (configLoad .hc33 (.content longestSsid.packed) .zero).1 (fun _ => .connected) := by
  have ssid : Fits longestSsid.uplinkSsid 32 := ⟨by decide, by decide⟩
  have pass : Fits longestSsid.uplinkPass 63 := ⟨by decide, by decide⟩
  have inRange : longestSsid.InRange := ⟨by decide, by decide⟩
  refine ⟨ssid, pass, pack_of_inRange inRange, ?_⟩
  rw [Joined, configLoad_packed _ _ inRange, forall_halowAssociateWithRetry, carries_iff ssid pass]
  decide

end MammotionRc.Packers
