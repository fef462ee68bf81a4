import MammotionRc.Firmware.SoftAp

/-! # The soft AP follows the uplink

`soft_ap_begin` puts the SSID on the air in the middle of its calls and sets its flag after the last one. A
call that fails in between leaves an AP that the flag denies, which nothing takes down again.
-/

namespace MammotionRc.Firmware

open Machine

/-- The driver calls up to `WiFi.softAP` succeed. -/
def DriverAnswers.Starts (d : DriverAnswers) : Prop :=
  d.mode = true ∧ d.handle = true ∧ d.setIpInfo = .ok ∧ d.softAP = true

/-- The driver calls behind `WiFi.softAP` succeed. -/
def DriverAnswers.Finishes (d : DriverAnswers) : Prop :=
  (d.dhcpsStart = .ok ∨ d.dhcpsStart = .alreadyStarted) ∧ d.naptEnable = .ok

namespace SoftAp

/-- After a call that saw the link in some other state than CONNECTED the SSID is not on the air, and
`soft_ap_is_up` says whether it is. -/
structure Tracked (es : List SyncEvent) (s : SoftAp) : Prop where
  down : ∀ e, es.getLast? = some e → e.state ≠ .connected → broadcasting s.calls = false
  isUp : s.softApIsUp = true ↔ broadcasting s.calls = true

/-- If this call begins an AP whose SSID goes on the air, the rest of the driver calls succeeds too. -/
def FinishesStarted (_ : List SyncEvent) (s : SoftAp) (e : SyncEvent) : Prop :=
  e.state = .connected → s.lastState ≠ .connected → s.softApIsUp = false → e.answers.Starts → e.answers.Finishes

variable {s t : SoftAp} {e : SyncEvent} {es : List SyncEvent} {d : DriverAnswers}

theorem broadcasting_concat (calls : List DriverCall) (c : DriverCall) :
    broadcasting (calls ++ [c]) =
      match c with
      | .softAP true => true
      | .softAPdisconnect => false
      | _ => broadcasting calls := by
  rw [broadcasting, List.foldl_concat]
  rfl

/-- No SSID is on the air, and the flag says so. -/
structure OffAir (s : SoftAp) : Prop where
  off : broadcasting s.calls = false
  down : s.softapUp = false

theorem OffAir.call (off : OffAir s) {c : DriverCall} (quiet : c ≠ .softAP true) : OffAir (s.call c) := by
  refine ⟨?_, off.down⟩
  rw [SoftAp.call, broadcasting_concat]
  split
  · exact absurd rfl quiet
  · rfl
  · exact off.off

theorem OffAir.registerEvents (off : OffAir s) : OffAir s.registerEvents := by
  rw [SoftAp.registerEvents]
  split
  · exact off
  · exact ⟨by simp only [SoftAp.call, broadcasting_concat, off.off], off.down⟩

theorem OffAir.failed (off : OffAir s) (fails : ¬ d.Starts) :
    (broadcasting s.calls = true ↔ d.Starts) ∧ (s.softapUp = true ↔ d.Starts ∧ d.Finishes) := by
  rw [off.off, off.down]
  exact ⟨iff_of_false Bool.false_ne_true fails, iff_of_false Bool.false_ne_true fun both => fails both.1⟩

/-- What remains of `soft_ap_begin` leaves the SSID on the air, and sets the flag if it succeeds. -/
theorem finishBegin_spec (on : broadcasting s.calls = true) (down : s.softapUp = false) :
    broadcasting (s.finishBegin d).1.calls = true ∧ ((s.finishBegin d).1.softapUp = true ↔ d.Finishes) := by
  have configured : broadcasting (if d.getConfig = .ok then (s.call (.getConfig d.getConfig)).call .setConfig
      else s.call (.getConfig d.getConfig)).calls = true := by
    split <;> simp only [call, broadcasting_concat, on]
  have flag : (if d.getConfig = .ok then (s.call (.getConfig d.getConfig)).call .setConfig
      else s.call (.getConfig d.getConfig)).softapUp = false := by
    split <;> exact down
  simp only [finishBegin]
  generalize (if d.getConfig = .ok then (s.call (.getConfig d.getConfig)).call .setConfig
      else s.call (.getConfig d.getConfig)) = u at configured flag
  split_ifs with dhcps napt
  · refine ⟨by simp only [call, broadcasting_concat, configured], ?_⟩
    simp only [call, flag, DriverAnswers.Finishes, Bool.false_eq_true, false_iff]
    rintro ⟨ok | started, _⟩
    · exact dhcps.1 ok
    · exact dhcps.2 started
  · refine ⟨by simp only [call, broadcasting_concat, configured], ?_⟩
    simp only [call, flag, DriverAnswers.Finishes, Bool.false_eq_true, false_iff]
    exact fun finishes => napt finishes.2
  · refine ⟨by simp only [call, broadcasting_concat, configured], ?_⟩
    simp only [true_iff]
    exact ⟨by tauto, not_not.mp napt⟩

theorem OffAir.finish (off : OffAir s) (started : d.softAP = true) :
    broadcasting ((s.call (.softAP d.softAP)).finishBegin d).1.calls = true ∧
      (((s.call (.softAP d.softAP)).finishBegin d).1.softapUp = true ↔ d.Finishes) := by
  refine finishBegin_spec ?_ off.down
  rw [SoftAp.call, broadcasting_concat, started]

/-- `soft_ap_begin` without an AP puts the SSID on the air if the calls up to `WiFi.softAP` succeed, and the
flag is set if all of them do. -/
theorem softApBegin_spec (off : OffAir s) :
    (broadcasting (s.softApBegin d).1.calls = true ↔ d.Starts) ∧
      ((s.softApBegin d).1.softapUp = true ↔ d.Starts ∧ d.Finishes) := by
  have moded := (off.call (c := .halowTxNonblockInstall) nofun).call (c := .mode d.mode) nofun
  have handled := moded.registerEvents.call (c := .getHandleFromIfkey d.handle) nofun
  have addressed := (handled.call (c := .dhcpsStop) nofun).call (c := .setIpInfo d.setIpInfo) nofun
  have configured := (addressed.call (c := .dhcpsOption) nofun).call (c := .setDnsInfo) nofun
  simp only [softApBegin, off.down, Bool.false_eq_true, if_false, Bool.not_eq_true']
  split_ifs with mode handle info softAP
  · exact moded.failed fun starts => by cases mode.symm.trans starts.1
  · exact handled.failed fun starts => by cases handle.symm.trans starts.2.1
  · exact addressed.failed fun starts => info starts.2.2.1
  · refine (configured.call (c := .softAP d.softAP) ?_).failed fun starts => by cases softAP.symm.trans starts.2.2.2
    rw [softAP]
    exact nofun
  · have started : d.softAP = true := Bool.not_eq_false _ |>.mp softAP
    have starts : d.Starts :=
      ⟨Bool.not_eq_false _ |>.mp mode, Bool.not_eq_false _ |>.mp handle, not_not.mp info, started⟩
    obtain ⟨stays, set⟩ := configured.finish started
    exact ⟨iff_of_true stays starts, set.trans (and_iff_right starts).symm⟩

theorem softApStop_offAir (up : s.softapUp = true) : OffAir s.softApStop := by
  rw [softApStop, up]
  exact ⟨broadcasting_concat _ _, rfl⟩

/-- `last_state` is the state that the last call saw. -/
def Polled (es : List SyncEvent) (s : SoftAp) : Prop :=
  (es = [] → s = init) ∧ ∀ e, es.getLast? = some e → s.lastState = e.state

theorem Polled.step (_ : Polled es s) (stepped : s.step e = some t) : Polled (es ++ [e]) t := by
  cases stepped
  refine ⟨fun empty => absurd empty (List.append_ne_nil_of_right_ne_nil _ (List.cons_ne_nil _ _)), fun f last => ?_⟩
  rw [List.getLast?_concat] at last
  cases last
  rw [halowSoftapSync]
  split
  next same => exact same.symm
  next => rfl

/-- One call keeps the AP tracked exactly if an AP that it starts is finished. -/
theorem tracked_step_iff (polled : Polled es s) (tracked : Tracked es s) (stepped : s.step e = some t) :
    Tracked (es ++ [e]) t ↔ FinishesStarted es s e := by
  cases stepped
  have last {f : SyncEvent} (at_ : (es ++ [e]).getLast? = some f) : f = e := by
    rw [List.getLast?_concat] at at_
    exact (Option.some.inj at_).symm
  rw [halowSoftapSync]
  split_ifs with same isConnected noAp up
  · -- nothing has changed since the last call
    refine iff_of_true ⟨fun f at_ other => ?_, tracked.isUp⟩ fun now before => absurd (same.symm.trans now) before
    obtain rfl := last at_
    rcases eq_or_ne es [] with empty | nonempty
    · rw [polled.1 empty]
      rfl
    · obtain ⟨g, at_'⟩ := Option.ne_none_iff_exists'.mp (mt List.getLast?_eq_none_iff.mp nonempty)
      exact tracked.down g at_' (by rwa [← polled.2 g at_', ← same])
  · -- the link has come up without an AP
    have down : s.softapUp = false := Bool.not_eq_true' _ |>.mp noAp
    have off : OffAir s := ⟨Bool.not_eq_true _ |>.mp (mt tracked.isUp.mpr (by rw [softApIsUp, down]; decide)), down⟩
    obtain ⟨starts, finishes⟩ := softApBegin_spec (d := e.answers) off
    constructor
    · intro tracked' _ _ _ begun
      exact (finishes.mp (tracked'.isUp.mpr (starts.mpr begun))).2
    · intro whole
      refine ⟨fun f at_ other => absurd isConnected (last at_ ▸ other), ?_⟩
      have whole := whole isConnected (fun before => same (isConnected.trans before.symm)) down
      exact finishes.trans ((and_iff_left_of_imp whole).trans starts.symm)
  · -- the link has come up and the AP is there already
    refine iff_of_true ⟨fun f at_ other => absurd isConnected (last at_ ▸ other), tracked.isUp⟩ fun _ _ down => ?_
    rw [down] at noAp
    exact absurd rfl noAp
  · -- the link has gone down under an AP
    have off := softApStop_offAir up
    exact iff_of_true ⟨fun _ _ _ => off.off, iff_of_false (Bool.eq_false_iff.mp off.down) (Bool.eq_false_iff.mp off.off)⟩
      fun now => absurd now isConnected
  · -- the link has gone down without an AP
    refine iff_of_true ⟨fun f at_ other => ?_, tracked.isUp⟩ fun now => absurd now isConnected
    exact Bool.not_eq_true _ |>.mp (mt tracked.isUp.mpr up)

theorem tracked_init : Tracked [] init := ⟨fun _ _ _ => rfl, iff_of_false Bool.false_ne_true Bool.false_ne_true⟩

/-- **The soft AP is tracked** throughout exactly if no call starts an AP that it does not finish. -/
theorem soft_ap_tracked_iff (es : List SyncEvent) :
    Throughout step Tracked init es ↔ Meets step FinishesStarted init es := by
  have ran : ∃ u, run step init es = some u := by
    induction es using List.reverseRecOn with
    | nil => exact ⟨init, rfl⟩
    | append_singleton es e ih =>
      obtain ⟨u, ran⟩ := ih
      exact ⟨_, run_concat_iff.mpr ⟨u, ran, rfl⟩⟩
  obtain ⟨u, ran⟩ := ran
  exact throughout_iff_meets (I := Polled) ⟨fun _ => rfl, fun _ none => by cases none⟩
    (fun _ _ _ _ polled stepped => polled.step stepped) tracked_init
    (fun _ _ _ _ polled tracked stepped => tracked_step_iff polled tracked stepped) ran

/-- Every driver call succeeds except `esp_netif_napt_enable`. -/
def noNapt : DriverAnswers := ⟨true, true, .ok, true, .ok, .ok, .other⟩

/-- The SSID stays on the air when the uplink goes down. -/
theorem noNapt_not_tracked :
    ¬ Throughout step Tracked init [⟨.connected, noNapt⟩, ⟨.disabled, noNapt⟩] := by
  intro always
  obtain ⟨u, ran, on⟩ : ∃ u, run step init [⟨.connected, noNapt⟩, ⟨.disabled, noNapt⟩] = some u ∧
      broadcasting u.calls = true := ⟨_, rfl, rfl⟩
  have down := (always.last ran).down _ rfl (by decide)
  cases on.symm.trans down

end SoftAp

end MammotionRc.Firmware
