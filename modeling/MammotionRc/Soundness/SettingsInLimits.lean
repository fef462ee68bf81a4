import MammotionRc.Server.Settings

/-! # Settings within the limits of the mower

A number that is not NaN is clamped into the limits, whether it is finite or not, and neither dropping the
fraction between integers nor rounding to two digits between decimals of two digits leaves them. NaN passes both
comparisons of the clamp.
-/

namespace MammotionRc.Server

open Machine

/-! ## The limits in force -/

/-- Working speeds with at most two decimals, and no empty range. -/
structure Limits.Valid (limits : Limits) : Prop where
  bladeHeight : limits.bladeHeight.min ≤ limits.bladeHeight.max
  workingSpeed : limits.workingSpeed.min ≤ limits.workingSpeed.max
  decimalMin : ∃ k, limits.workingSpeed.min = hundredths k
  decimalMax : ∃ k, limits.workingSpeed.max = hundredths k

theorem hundredths_mono {k l : ℤ} (le : k ≤ l) : hundredths k ≤ hundredths l := by
  apply Binary64.nearest_mono
  apply div_le_div_of_nonneg_right _ (by norm_num)
  exact_mod_cast le

theorem valid_fallback : _LUBA_FALLBACK_LIMITS.Valid :=
  ⟨by decide, hundredths_mono (by decide), ⟨20, rfl⟩, ⟨120, rfl⟩⟩

namespace SettingsApp

variable {app : SettingsApp} {h : Option Limits} {name : String} {r : SettingRequest} {limits : Limits}
  {x : PyFloat} {lo hi q : ℚ}

theorem valid_of_familyLimits (found : app.familyLimits name = some limits) : limits.Valid := by
  simp only [familyLimits] at found
  split at found
  · cases found
    exact valid_fallback
  · cases found

theorem valid_of_deviceLimits (valid : ∀ limits ∈ h, limits.Valid) (found : app.deviceLimits h name = some limits) :
    limits.Valid := by
  cases h with
  | none => exact valid_of_familyLimits found
  | some known =>
    simp only [deviceLimits] at found
    split at found
    · cases found
      exact valid _ rfl
    · exact valid_of_familyLimits found

theorem bladeHeightRange_le (app : SettingsApp) (name : String) (valid : ∀ limits ∈ h, limits.Valid) :
    (app.bladeHeightRange h name).min ≤ (app.bladeHeightRange h name).max := by
  simp only [bladeHeightRange]
  split
  · next found => exact (valid_of_deviceLimits valid found).bladeHeight
  · decide

theorem speedRange_valid (app : SettingsApp) (name : String) (valid : ∀ limits ∈ h, limits.Valid) :
    (app.speedRange h name).min ≤ (app.speedRange h name).max ∧
      (∃ k, (app.speedRange h name).min = hundredths k) ∧ ∃ k, (app.speedRange h name).max = hundredths k := by
  simp only [speedRange]
  split
  · next found =>
    have valid := valid_of_deviceLimits valid found
    exact ⟨valid.workingSpeed, valid.decimalMin, valid.decimalMax⟩
  · exact ⟨hundredths_mono (by decide), ⟨20, rfl⟩, ⟨60, rfl⟩⟩

/-! ## The clamp -/

theorem clamp_nan : clamp .nan lo hi = .nan := rfl

/-- Anything but NaN is clamped to a finite number between the bounds. -/
theorem exists_of_clamp (number : x ≠ .nan) (le : lo ≤ hi) : ∃ q, clamp x lo hi = .fin q ∧ lo ≤ q ∧ q ≤ hi := by
  cases x with
  | nan => exact absurd rfl number
  | inf negative =>
    cases negative with
    | true =>
      by_cases less : hi < lo
      · exact absurd le (not_le.mpr less)
      · exact ⟨lo, by simp [clamp, PyFloat.pyMax, PyFloat.pyMin, PyFloat.lt, less], le_rfl, le⟩
    | false => exact ⟨hi, by simp [clamp, PyFloat.pyMax, PyFloat.pyMin, PyFloat.lt], le, le_rfl⟩
  | fin q =>
    by_cases below : q < lo
    · refine ⟨lo, ?_, le_rfl, le⟩
      simp [clamp, PyFloat.pyMax, PyFloat.pyMin, PyFloat.lt, below, not_lt.mpr le]
    · by_cases above : hi < q
      · refine ⟨hi, ?_, le, le_rfl⟩
        simp [clamp, PyFloat.pyMax, PyFloat.pyMin, PyFloat.lt, below, above]
      · refine ⟨q, ?_, not_lt.mp below, not_lt.mp above⟩
        simp [clamp, PyFloat.pyMax, PyFloat.pyMin, PyFloat.lt, below, above]

/-- Between integers the fraction can be dropped. -/
theorem toInt_between {a b : ℤ} (lower : (a : ℚ) ≤ q) (upper : q ≤ b) :
    ∃ v, (PyFloat.fin q).toInt = .ok v ∧ a ≤ v ∧ v ≤ b := by
  refine ⟨_, rfl, ?_, ?_⟩
  · split
    · exact_mod_cast lower.trans (Int.le_ceil q)
    · exact Int.le_floor.mpr lower
  · split
    · exact Int.ceil_le.mpr upper
    · exact_mod_cast (Int.floor_le q).trans upper

/-- Between decimals of two digits a number can be rounded to two digits. -/
theorem round2_between {a b : ℤ} (lower : hundredths a ≤ q) (upper : q ≤ hundredths b) :
    hundredths a ≤ Binary64.round2 q ∧ Binary64.round2 q ≤ hundredths b := by
  have first := Binary64.round2_mono lower
  have second := Binary64.round2_mono upper
  rw [hundredths, Binary64.round2_nearest] at first second
  exact ⟨first, second⟩

end SettingsApp

/-! ## Outcomes -/

/-- The cutting heights that a command sets. -/
def SettingCommand.heights : SettingCommand → List ℤ
  | .setBladeHeight v | .operateOnDevice _ _ v _ => [v]
  | .setSpeed _ | .setCutterMode _ | .getCutterMode => []

/-- The working speeds that a command sets; `max_run_speed` of a command that stops the blades is none. -/
def SettingCommand.speeds : SettingCommand → List PyFloat
  | .setSpeed v => [v]
  | .setBladeHeight _ | .operateOnDevice _ _ _ _ | .setCutterMode _ | .getCutterMode => []

def PyFloat.Within (x : PyFloat) (lo hi : ℚ) : Prop := ∃ q, x = .fin q ∧ lo ≤ q ∧ q ≤ hi

def PyNumber.Within (lo hi : ℚ) : PyNumber → Prop
  | .int n => lo ≤ n ∧ n ≤ hi
  | .float x => x.Within lo hi

namespace SettingsApp

/-- A refused request sends nothing, no other exception leaves the handler, and heights and speeds are within the
limits in force, those sent and the one returned. -/
structure InLimits (app : SettingsApp) (r : SettingRequest) : Prop where
  refused : ∀ status detail, (app.postSetting r).2 = .error (.httpException status detail) →
    400 ≤ status ∧ status < 500 ∧ (app.postSetting r).1 = []
  expected : ∀ e, (app.postSetting r).2 ≠ .error (.raised e)
  bladeHeight : r.setting = "blade_height" → ∀ h ∈ app.handles r.name, ∀ applied ∈ (app.postSetting r).2.toOption,
    applied.Within (app.bladeHeightRange h r.name).min (app.bladeHeightRange h r.name).max ∧
      ∀ c ∈ (app.postSetting r).1, ∀ v ∈ c.heights,
        (app.bladeHeightRange h r.name).min ≤ v ∧ v ≤ (app.bladeHeightRange h r.name).max
  speed : r.setting = "speed" → ∀ h ∈ app.handles r.name, ∀ applied ∈ (app.postSetting r).2.toOption,
    applied.Within (app.speedRange h r.name).min (app.speedRange h r.name).max ∧
      ∀ c ∈ (app.postSetting r).1, ∀ v ∈ c.speeds,
        v.Within (app.speedRange h r.name).min (app.speedRange h r.name).max

/-- The mower is known, and the number is one that the branch of the setting does not expect. -/
structure Slips (app : SettingsApp) (r : SettingRequest) (x : PyFloat) : Prop where
  known : ∃ h, app.handles r.name = some h
  number : (r.setting = "blade_height" ∨ r.setting = "speed") ∧ x = .nan ∨
    r.setting = "cutter_mode" ∧ ∀ q, x ≠ .fin q

variable {app : SettingsApp} {h : Option Limits} {r : SettingRequest} {x : PyFloat}

attribute [local simp] applySetting

theorem postSetting_known (found : app.handles r.name = some h) (accepts : r.value.toFloat = .ok x) :
    app.postSetting r = app.applySetting h r x := by
  simp only [postSetting, found, accepts]

theorem applySetting_bladeHeight (setting : r.setting = "blade_height") {v : ℤ}
    (height : (clamp x (app.bladeHeightRange h r.name).min (app.bladeHeightRange h r.name).max).toInt = .ok v) :
    app.applySetting h r x = (bladeHeightCommands (app.methodOf r.method) v, .ok (.int v)) := by
  simp only [applySetting, if_pos setting, height]

theorem applySetting_speed (setting : r.setting = "speed") :
    app.applySetting h r x =
      ([.setSpeed (clamp x (app.speedRange h r.name).min (app.speedRange h r.name).max).round2],
        .ok (.float (clamp x (app.speedRange h r.name).min (app.speedRange h r.name).max).round2)) := by
  simp [setting]

theorem heights_bladeHeightCommands {method : String} {v w : ℤ} {c : SettingCommand}
    (inside : c ∈ bladeHeightCommands method v) (sets : w ∈ c.heights) : w = v := by
  simp only [bladeHeightCommands] at inside
  split_ifs at inside
  · rw [List.mem_singleton.mp inside] at sets
    exact List.mem_singleton.mp sets
  · rcases List.mem_cons.mp inside with rfl | inside
    · exact List.mem_singleton.mp sets
    · rw [List.mem_singleton.mp inside] at sets
      exact List.mem_singleton.mp sets
  · rw [List.mem_singleton.mp inside] at sets
    exact List.mem_singleton.mp sets

theorem inLimits_of_unknown (unknown : app.handles r.name = none) : app.InLimits r := by
  have outcome : app.postSetting r = ([], .error (.httpException 404 ("unknown mower " ++ app.repr r.name))) := by
    simp only [postSetting, unknown]
  refine ⟨fun status detail answer => ?_, fun e answer => ?_, fun _ h found => ?_, fun _ h found => ?_⟩
  · rw [outcome] at answer ⊢
    cases answer
    exact ⟨by decide, by decide, rfl⟩
  · rw [outcome] at answer
    cases answer
  · rw [unknown] at found
    cases found
  · rw [unknown] at found
    cases found

theorem inLimits_bladeHeight (found : app.handles r.name = some h) (accepts : r.value.toFloat = .ok x)
    (valid : ∀ limits ∈ h, limits.Valid) (setting : r.setting = "blade_height") (number : x ≠ .nan) :
    app.InLimits r := by
  have le := bladeHeightRange_le app r.name valid
  obtain ⟨q, clamped, lower, upper⟩ := exists_of_clamp number (Int.cast_le.mpr le)
  obtain ⟨v, height, min, max⟩ := toInt_between lower upper
  rw [← clamped] at height
  have outcome := (postSetting_known found accepts).trans (applySetting_bladeHeight setting height)
  refine ⟨fun status detail answer => ?_, fun e answer => ?_, fun _ h' found' => ?_, fun speed => ?_⟩
  · rw [outcome] at answer
    cases answer
  · rw [outcome] at answer
    cases answer
  · rw [found] at found'
    cases found'
    rw [outcome]
    intro applied answer
    cases answer
    refine ⟨⟨by exact_mod_cast min, by exact_mod_cast max⟩, fun c inside w sets => ?_⟩
    rw [heights_bladeHeightCommands inside sets]
    exact ⟨min, max⟩
  · exact absurd (setting.symm.trans speed) (by decide)

theorem inLimits_speed (found : app.handles r.name = some h) (accepts : r.value.toFloat = .ok x)
    (valid : ∀ limits ∈ h, limits.Valid) (setting : r.setting = "speed") (number : x ≠ .nan) : app.InLimits r := by
  obtain ⟨le, ⟨a, min⟩, b, max⟩ := speedRange_valid app r.name valid
  obtain ⟨q, clamped, lower, upper⟩ := exists_of_clamp number le
  have within : PyFloat.Within (clamp x (app.speedRange h r.name).min (app.speedRange h r.name).max).round2
      (app.speedRange h r.name).min (app.speedRange h r.name).max := by
    rw [clamped, min, max]
    rw [min] at lower
    rw [max] at upper
    exact ⟨_, rfl, round2_between lower upper⟩
  have outcome := (postSetting_known found accepts).trans (applySetting_speed setting)
  refine ⟨fun status detail answer => ?_, fun e answer => ?_, fun height => ?_, fun _ h' found' => ?_⟩
  · rw [outcome] at answer
    cases answer
  · rw [outcome] at answer
    cases answer
  · exact absurd (setting.symm.trans height) (by decide)
  · rw [found] at found'
    cases found'
    rw [outcome]
    intro applied answer
    cases answer
    refine ⟨within, fun c inside v sets => ?_⟩
    rw [List.mem_singleton.mp inside] at sets
    rw [List.mem_singleton.mp sets]
    exact within

theorem toInt_fin (q : ℚ) : ∃ v, (PyFloat.fin q).toInt = .ok v := ⟨_, rfl⟩

theorem inLimits_cutterMode {q : ℚ} (found : app.handles r.name = some h) (accepts : r.value.toFloat = .ok (.fin q))
    (setting : r.setting = "cutter_mode") : app.InLimits r := by
  obtain ⟨v, whole⟩ := toInt_fin q
  have outcome := postSetting_known found accepts
  simp only [applySetting, setting, whole] at outcome
  refine ⟨fun status detail answer => ?_, fun e answer => ?_, fun height => ?_, fun speed => ?_⟩
  · rw [outcome] at answer ⊢
    simp only [String.reduceEq, if_false, if_true] at answer ⊢
    split at answer
    · cases answer
    · next unknown =>
      cases answer
      rw [if_neg unknown]
      exact ⟨by decide, by decide, rfl⟩
  · rw [outcome] at answer
    simp only [String.reduceEq, if_false, if_true] at answer
    split at answer <;> cases answer
  · exact absurd (setting.symm.trans height) (by decide)
  · exact absurd (setting.symm.trans speed) (by decide)

theorem inLimits_of_other (found : app.handles r.name = some h) (accepts : r.value.toFloat = .ok x)
    (height : r.setting ≠ "blade_height") (speed : r.setting ≠ "speed") (cutter : r.setting ≠ "cutter_mode") :
    app.InLimits r := by
  have outcome := postSetting_known found accepts
  simp only [applySetting, if_neg height, if_neg speed, if_neg cutter] at outcome
  refine ⟨fun status detail answer => ?_, fun e answer => ?_, fun is => absurd is height, fun is => absurd is speed⟩
  · rw [outcome] at answer ⊢
    cases answer
    exact ⟨by decide, by decide, rfl⟩
  · rw [outcome] at answer
    cases answer

/-- What does not fit the branch of its setting fails in it, or goes out as it is. -/
theorem not_inLimits_of_slips (accepts : r.value.toFloat = .ok x) (slips : app.Slips r x) : ¬app.InLimits r := by
  intro safe
  obtain ⟨h, found⟩ := slips.known
  have outcome := postSetting_known found accepts
  rcases slips.number with ⟨height | speed, rfl⟩ | ⟨cutter, infinite⟩
  · refine safe.expected .valueError ?_
    rw [outcome]
    simp [height, clamp_nan, PyFloat.toInt]
  · have answer := outcome.trans (applySetting_speed speed)
    obtain ⟨q, is, _⟩ := (safe.speed speed h found (.float .nan) (by rw [answer]; rfl)).1
    cases is
  · cases x with
    | nan =>
      refine safe.expected .valueError ?_
      rw [outcome]
      simp [cutter, PyFloat.toInt]
    | inf negative =>
      refine safe.expected .overflowError ?_
      rw [outcome]
      simp [cutter, PyFloat.toInt]
    | fin q => exact infinite q rfl

/-- With a number that `float()` accepts, settings stay within the limits unless the number is NaN for a height or a
speed, or NaN or an infinity for the cutter mode, of a known mower. -/
theorem inLimits_iff (app : SettingsApp) (r : SettingRequest) {x : PyFloat} (accepts : r.value.toFloat = .ok x)
    (valid : ∀ h ∈ app.handles r.name, ∀ limits ∈ h, limits.Valid) : app.InLimits r ↔ ¬app.Slips r x := by
  constructor
  · exact fun safe slips => not_inLimits_of_slips accepts slips safe
  · intro fits
    cases found : app.handles r.name with
    | none => exact inLimits_of_unknown found
    | some h =>
      have valid := valid h found
      have number (setting : r.setting = "blade_height" ∨ r.setting = "speed") : x ≠ .nan :=
        fun is => fits ⟨⟨h, found⟩, Or.inl ⟨setting, is⟩⟩
      by_cases height : r.setting = "blade_height"
      · exact inLimits_bladeHeight found accepts valid height (number (Or.inl height))
      by_cases speed : r.setting = "speed"
      · exact inLimits_speed found accepts valid speed (number (Or.inr speed))
      by_cases cutter : r.setting = "cutter_mode"
      · cases x with
        | fin q => exact inLimits_cutterMode found accepts cutter
        | nan => exact absurd ⟨⟨h, found⟩, Or.inr ⟨cutter, fun q is => by cases is⟩⟩ fits
        | inf negative => exact absurd ⟨⟨h, found⟩, Or.inr ⟨cutter, fun q is => by cases is⟩⟩ fits
      exact inLimits_of_other found accepts height speed cutter

/-- One mower without limits of its own. -/
def oneMower : SettingsApp :=
  { handles := fun name => if name = "Luba-VS123" then some none else none
    isYuka := fun name => decide ("Yuka".toList <+: name.toList)
    bladeHeightMethod := "both"
    repr := fun s => "'" ++ s ++ "'" }

/-- A request for a working speed. -/
def speedRequest (text : String) : SettingRequest := ⟨"Luba-VS123", "speed", .str (PyStr.lit text), none⟩

theorem infinity_inLimits : oneMower.InLimits (speedRequest "inf") := by
  refine (inLimits_iff oneMower (speedRequest "inf") (x := .inf false) (by decide) ?_).mpr fun slips => ?_
  · intro h found
    simp only [oneMower, speedRequest, if_true, Option.mem_some] at found
    subst found
    intro limits inside
    cases inside
  · rcases slips.number with ⟨_, is⟩ | ⟨is, _⟩
    · cases is
    · exact absurd is (by decide)

/-- A working speed that is no number is sent to the mower. -/
theorem nan_sent : (speedRequest "nan").value.toFloat = .ok .nan ∧
    oneMower.postSetting (speedRequest "nan") = ([.setSpeed .nan], .ok (.float .nan)) ∧
    ¬oneMower.InLimits (speedRequest "nan") := by
  have accepts : (speedRequest "nan").value.toFloat = .ok .nan := by decide
  have found : oneMower.handles (speedRequest "nan").name = some none := by decide
  have slips : oneMower.Slips (speedRequest "nan") .nan := ⟨⟨none, found⟩, Or.inl ⟨Or.inr rfl, rfl⟩⟩
  exact ⟨accepts, (postSetting_known found accepts).trans (applySetting_speed rfl), not_inLimits_of_slips accepts slips⟩

end SettingsApp

end MammotionRc.Server
