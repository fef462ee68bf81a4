import MammotionRc.Firmware.BleScan

/-! # Which device the scan chooses

The callback judges each result on its own, while what a device is shows in all its results together: one with the
name of an RTK base rules the device out wherever it stands, and each of its results counts for its strength.
-/

namespace MammotionRc.Firmware

open Framing Machine

variable {results pre post : List AdvertisedDevice} {d q : AdvertisedDevice} {cb : ScanCb}

/-- A result that `onResult` does not skip, whatever came before it. -/
def AdvertisedDevice.accepted (d : AdvertisedDevice) : Bool := d.service && !bleNameIsRtk d.name

/-! ## The callback -/

/-- What the callback holds if `kept` is the best result so far. -/
structure ScanCb.Keeps (cb : ScanCb) (kept : Option AdvertisedDevice) : Prop where
  have_ : cb.haveCandidate = kept.isSome
  rssi : ∀ d ∈ kept, cb.bestRssi = d.rssi
  best : ∀ d ∈ kept, cb.best = d.toAdvertiser

namespace ScanCb

variable {kept : Option AdvertisedDevice}

theorem keeps_reset : cb.reset.Keeps none := by
  refine ⟨rfl, fun d inside => ?_, fun d inside => ?_⟩
  · cases inside
  · cases inside

theorem keeps_some : Keeps ⟨true, d.rssi, d.toAdvertiser⟩ (some d) := by
  refine ⟨rfl, fun e inside => ?_, fun e inside => ?_⟩
  · rw [Option.mem_some.mp inside]
  · rw [Option.mem_some.mp inside]

theorem keeps_onResult (keeps : cb.Keeps kept) :
    (cb.onResult d).1.Keeps (keepGreater AdvertisedDevice.accepted (·.rssi) kept d) := by
  cases passes : d.accepted with
  | false =>
    rw [keepGreater_of_not passes]
    have skipped : (cb.onResult d).1 = cb := by
      simp only [AdvertisedDevice.accepted, Bool.and_eq_false_iff, Bool.not_eq_false'] at passes
      rcases passes with service | rtk
      · simp [onResult, service]
      · simp only [onResult, rtk]
        split <;> simp
    rw [skipped]
    exact keeps
  | true =>
    simp only [AdvertisedDevice.accepted, Bool.and_eq_true, Bool.not_eq_true'] at passes
    cases kept with
    | none =>
      rw [keepGreater_none (by simp [AdvertisedDevice.accepted, passes])]
      have none_ : cb.haveCandidate = false := keeps.have_
      simp only [onResult, passes.1, passes.2, none_]
      exact keeps_some
    | some best =>
      rw [keepGreater_some (by simp [AdvertisedDevice.accepted, passes])]
      have some_ : cb.haveCandidate = true := keeps.have_
      have rssi := keeps.rssi best rfl
      simp only [onResult, passes.1, passes.2, some_, rssi]
      by_cases le : d.rssi ≤ best.rssi
      · simp only [le]
        exact keeps
      · simp only [le]
        exact keeps_some

/-- The callback after a scan holds the first of the strongest results that it accepts. -/
theorem keeps_scan (results : List AdvertisedDevice) :
    (cb.scan results).Keeps (firstMax AdvertisedDevice.accepted (·.rssi) results) := by
  induction results using List.reverseRecOn with
  | nil => exact keeps_reset
  | append_singleton results d ih =>
    rw [firstMax_append_singleton, scan, List.foldl_append]
    exact keeps_onResult ih

theorem Keeps.candidate_eq (keeps : cb.Keeps kept) : cb.candidate = kept.map (·.toAdvertiser) := by
  cases kept with
  | none =>
    have none_ : cb.haveCandidate = false := keeps.have_
    simp [candidate, none_]
  | some d =>
    have some_ : cb.haveCandidate = true := keeps.have_
    simp [candidate, some_, keeps.best d rfl]

theorem candidate_scan :
    (cb.scan results).candidate = (firstMax AdvertisedDevice.accepted (·.rssi) results).map (·.toAdvertiser) :=
  (keeps_scan results).candidate_eq

end ScanCb

/-! ## What the results say of an address -/

/-- Some result names the address as an RTK base. -/
def NamedRtk (results : List AdvertisedDevice) (addr : ℕ) : Prop :=
  ∃ r ∈ results, r.addr = addr ∧ bleNameIsRtk r.name = true

/-- The address advertised the service and was never named as an RTK base. -/
structure IsMower (results : List AdvertisedDevice) (addr : ℕ) : Prop where
  service : ∃ r ∈ results, r.addr = addr ∧ r.service = true
  notRtk : ¬NamedRtk results addr

/-- `pre ++ d :: post` with `d` the first of the strongest results of all mowers. -/
abbrev IsStrongest (results : List AdvertisedDevice) :=
  IsFirstMax (fun d : AdvertisedDevice => IsMower results d.addr) (·.rssi)

/-- The same among the results that advertise the service. -/
abbrev IsStrongestService (results : List AdvertisedDevice) :=
  IsFirstMax (fun d : AdvertisedDevice => IsMower results d.addr ∧ d.service = true) (·.rssi)

/-- The chosen address is that of the strongest mower, with a name that it reported. -/
structure PicksMower (results : List AdvertisedDevice) (chosen : Advertiser) : Prop where
  strongest : ∃ pre d post, results = pre ++ d :: post ∧ d.addr = chosen.addr ∧ IsStrongest results pre d post
  named : ∃ d ∈ results, d.addr = chosen.addr ∧ d.name = chosen.name

/-- A base that did not tell its name at once is outdone by a mower, each time that it is accepted. -/
def BasesOutdone (results : List AdvertisedDevice) : Prop :=
  ∀ pre q post, results = pre ++ q :: post → q.accepted = true → NamedRtk results q.addr →
    (∃ d ∈ pre, IsMower results d.addr ∧ d.service = true ∧ q.rssi ≤ d.rssi) ∨
      ∃ d ∈ post, IsMower results d.addr ∧ d.service = true ∧ q.rssi < d.rssi

/-- The results without the service do not make another mower the strongest. -/
def ServiceDecides (results : List AdvertisedDevice) : Prop :=
  ∀ pre d post, results = pre ++ d :: post → IsStrongestService results pre d post →
    ∃ pre' d' post', results = pre' ++ d' :: post' ∧ d'.addr = d.addr ∧ IsStrongest results pre' d' post'

theorem accepted_of_isMower (inside : d ∈ results) (mower : IsMower results d.addr) (service : d.service = true) :
    d.accepted = true := by
  have unnamed : bleNameIsRtk d.name = false := by
    by_contra named
    rw [Bool.not_eq_false] at named
    exact mower.notRtk ⟨d, inside, rfl, named⟩
  simp [AdvertisedDevice.accepted, service, unnamed]

/-! ## The choice -/

theorem scanForMowerWith_true {b b' : BleCentral} (returns : b.scanForMowerWith cb results = (true, b')) :
    ∃ d, firstMax AdvertisedDevice.accepted (·.rssi) results = some d ∧ b'.mower = d.toAdvertiser := by
  rw [BleCentral.scanForMowerWith, ScanCb.candidate_scan] at returns
  cases found : firstMax AdvertisedDevice.accepted (·.rssi) results with
  | none => simp [found, BleCentral.scanForMower] at returns
  | some d =>
    simp only [found, Option.map_some, BleCentral.scanForMower, Prod.mk.injEq, true_and] at returns
    exact ⟨d, rfl, by rw [← returns]⟩

theorem scanForMowerWith_of_firstMax (b : BleCentral) (cb : ScanCb)
    (found : firstMax AdvertisedDevice.accepted (·.rssi) results = some d) :
    ∃ b', b.scanForMowerWith cb results = (true, b') ∧ b'.mower = d.toAdvertiser := by
  refine ⟨{ b with mower := d.toAdvertiser, addrKnown := true }, ?_, rfl⟩
  rw [BleCentral.scanForMowerWith, ScanCb.candidate_scan, found]
  rfl

theorem isMower_of_picksMower {chosen : Advertiser} (picks : PicksMower results chosen) :
    IsMower results chosen.addr := by
  obtain ⟨pre, d, post, _, addr, strongest⟩ := picks.strongest
  rw [← addr]
  exact strongest.holds

/-- The accepted result that is kept, if it is one of a mower, is the strongest service report of the mowers. -/
theorem isStrongestService_of_kept (split_ : results = pre ++ d :: post) (mower : IsMower results d.addr)
    (kept : IsFirstMax (·.accepted = true) (·.rssi) pre d post) : IsStrongestService results pre d post := by
  have service : d.service = true := by
    have accepted := kept.holds
    simp only [AdvertisedDevice.accepted, Bool.and_eq_true] at accepted
    exact accepted.1
  refine ⟨⟨mower, service⟩, fun q inside has => ?_, fun q inside has => ?_⟩
  · exact kept.before q inside (accepted_of_isMower (by simp [split_, inside]) has.1 has.2)
  · exact kept.after q inside (accepted_of_isMower (by simp [split_, inside]) has.1 has.2)

/-- A base that is kept outdoes every mower. -/
theorem isMower_of_outdone (outdone : BasesOutdone results) (split_ : results = pre ++ d :: post)
    (kept : IsFirstMax (·.accepted = true) (·.rssi) pre d post) : IsMower results d.addr := by
  have accepted := kept.holds
  simp only [AdvertisedDevice.accepted, Bool.and_eq_true] at accepted
  refine ⟨⟨d, by simp [split_], rfl, accepted.1⟩, fun named => ?_⟩
  rcases outdone pre d post split_ kept.holds named with ⟨q, inside, mower, service, le⟩ | ⟨q, inside, mower, service, less⟩
  · have lower := kept.before q inside (accepted_of_isMower (by simp [split_, inside]) mower service)
    omega
  · have le := kept.after q inside (accepted_of_isMower (by simp [split_, inside]) mower service)
    omega

theorem picksMower_of_kept (outdone : BasesOutdone results) (decides : ServiceDecides results)
    (found : firstMax AdvertisedDevice.accepted (·.rssi) results = some d) : PicksMower results d.toAdvertiser := by
  obtain ⟨pre, post, split_, kept⟩ := exists_of_firstMax found
  have mower := isMower_of_outdone outdone split_ kept
  refine ⟨?_, d, by simp [split_], rfl, rfl⟩
  exact decides pre d post split_ (isStrongestService_of_kept split_ mower kept)

theorem basesOutdone_of_picks
    (picks : ∀ d, firstMax AdvertisedDevice.accepted (·.rssi) results = some d → PicksMower results d.toAdvertiser) :
    BasesOutdone results := by
  intro pre q post split_ accepted named
  have inside : q ∈ results := by simp [split_]
  obtain ⟨d, found⟩ := firstMax_isSome_of_mem (·.rssi) inside accepted
  have mower : IsMower results d.addr := isMower_of_picksMower (picks d found)
  obtain ⟨pre', post', split', kept⟩ := exists_of_firstMax found
  have service := (isStrongestService_of_kept split' mower kept).holds.2
  rcases split_cases (split_.symm.trans split') with ⟨_, same, _⟩ | ⟨first, later⟩ | ⟨first, later⟩
  · rw [same] at named
    exact absurd named mower.notRtk
  · exact Or.inr ⟨d, later, mower, service, kept.before q first accepted⟩
  · exact Or.inl ⟨d, first, mower, service, kept.after q later accepted⟩

theorem serviceDecides_of_picks
    (picks : ∀ d, firstMax AdvertisedDevice.accepted (·.rssi) results = some d → PicksMower results d.toAdvertiser) :
    ServiceDecides results := by
  intro pre d post split_ strongest
  have inside : d ∈ results := by simp [split_]
  have accepted := accepted_of_isMower inside strongest.holds.1 strongest.holds.2
  obtain ⟨e, found⟩ := firstMax_isSome_of_mem (·.rssi) inside accepted
  have mower : IsMower results e.addr := isMower_of_picksMower (picks e found)
  obtain ⟨pre', post', split', kept⟩ := exists_of_firstMax found
  have same : d = e := strongest.unique (isStrongestService_of_kept split' mower kept) (split_.symm.trans split')
  rw [same]
  exact (picks e found).strongest

/-- The scan chooses the strongest mower exactly if every base that told its name too late is outdone by a mower and
no mower is stronger only by results without the service. -/
theorem picksMower_iff (b : BleCentral) (cb : ScanCb) (results : List AdvertisedDevice) :
    (∀ b', b.scanForMowerWith cb results = (true, b') → PicksMower results b'.mower) ↔
      BasesOutdone results ∧ ServiceDecides results := by
  constructor
  · intro chooses
    have picks : ∀ d, firstMax AdvertisedDevice.accepted (·.rssi) results = some d →
        PicksMower results d.toAdvertiser := by
      intro d found
      obtain ⟨b', returns, mower⟩ := scanForMowerWith_of_firstMax b cb found
      rw [← mower]
      exact chooses b' returns
    exact ⟨basesOutdone_of_picks picks, serviceDecides_of_picks picks⟩
  · rintro ⟨outdone, decides⟩ b' returns
    obtain ⟨d, found, mower⟩ := scanForMowerWith_true returns
    rw [mower]
    exact picksMower_of_kept outdone decides found

/-- A mower at -70 dBm, and a base at -60 dBm that tells its name in its second result. -/
def lateBase : List AdvertisedDevice :=
  [⟨⟨1, 0, literal "Luba-VS"⟩, -70, true⟩, ⟨⟨2, 0, []⟩, -60, true⟩, ⟨⟨2, 0, literal "RTKBAU"⟩, -60, true⟩]

/-- It chooses the base. -/
theorem lateBase_chosen :
    (BleCentral.init.scanForMowerWith ⟨false, -127, ⟨0, 0, []⟩⟩ lateBase).1 = true ∧
      (BleCentral.init.scanForMowerWith ⟨false, -127, ⟨0, 0, []⟩⟩ lateBase).2.mower = ⟨2, 0, []⟩ ∧
      ¬PicksMower lateBase (BleCentral.init.scanForMowerWith ⟨false, -127, ⟨0, 0, []⟩⟩ lateBase).2.mower := by
  have chosen : (BleCentral.init.scanForMowerWith ⟨false, -127, ⟨0, 0, []⟩⟩ lateBase).2.mower = ⟨2, 0, []⟩ := by
    decide
  refine ⟨by decide, chosen, fun picks => ?_⟩
  rw [chosen] at picks
  refine (isMower_of_picksMower picks).notRtk ⟨⟨⟨2, 0, literal "RTKBAU"⟩, -60, true⟩, ?_, rfl, ?_⟩
  · simp [lateBase]
  · decide

end MammotionRc.Firmware
