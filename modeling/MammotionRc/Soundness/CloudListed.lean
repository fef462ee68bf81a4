import MammotionRc.Server.CloudMowers
import MammotionRc.Soundness.PairingPartition

/-! # The account as the setup page sees it

The listing of the account keeps the first row of each name, so the pairing proposal that is made of it has each
mower of the account in one of its lists, once. The shares that are accepted on the way are those that are
pending, each once.
-/

namespace MammotionRc.Server

open Machine

variable {isRtk : String → String → Bool} {cached : Bool} {a : CloudAnswers} {devices : List CloudDevice}
  {cloud : List CloudMower} {m : CloudMower} {name : String}

/-- A device that is shown: it has a name and is no RTK base station. -/
def CloudDevice.Shown (isRtk : String → String → Bool) (d : CloudDevice) : Prop :=
  d.name ≠ "" ∧ isRtk d.name d.productKey = false

instance (d : CloudDevice) : Decidable (d.Shown isRtk) := inferInstanceAs (Decidable (_ ∧ _))

def CloudDevice.mower (d : CloudDevice) : CloudMower := ⟨d.name, orNone (some d.iotId), d.nickname⟩

/-- The loop keeps the first device of each name that is shown. -/
theorem foldl_listDevice (isRtk : String → String → Bool) (devices : List CloudDevice) :
    devices.foldl (listDevice isRtk) ⟨[], []⟩ =
      ⟨(firstOfEach CloudDevice.name (devices.filter (·.Shown isRtk))).map CloudDevice.mower,
        (firstOfEach CloudDevice.name (devices.filter (·.Shown isRtk))).map CloudDevice.name⟩ := by
  induction devices using List.reverseRecOn with
  | nil => rfl
  | append_singleton devices d ih =>
    rw [List.foldl_concat, ih, List.filter_append]
    by_cases shown : d.Shown isRtk
    · have single : [d].filter (·.Shown isRtk) = [d] := by simp [shown]
      obtain ⟨named, rover⟩ := shown
      rw [single, firstOfEach_concat, listDevice]
      simp only [named, false_or, firstOfEach_keys]
      split_ifs with seen
      · rfl
      · simp_all
      · simp [CloudDevice.mower]
    · have single : [d].filter (·.Shown isRtk) = [] := by simp [shown]
      rw [single, List.append_nil, listDevice]
      split_ifs with seen rtk
      · rfl
      · rfl
      · exact absurd ⟨fun unnamed => seen (.inl unnamed), (Bool.not_eq_true _).mp rtk⟩ shown

/-- A source is asked only if those before it had nothing. -/
theorem orElse_eq_find? (devices : List CloudDevice) (next : Answer (List CloudDevice))
    (rest : List (List CloudDevice)) :
    (orElse devices next :: rest).find? (· ≠ []) = (devices :: orNoDevices next :: rest).find? (· ≠ []) := by
  rw [orElse]
  split_ifs with empty
  · simp [empty]
  · simp [empty]

theorem accountDevices_eq (cached : Bool) (a : CloudAnswers) :
    accountDevices cached a =
      ([gatewayDevices cached a, ownedDevices a, pageDevices a, sharedDevices a].map orNoDevices
        |>.find? (· ≠ [])).getD [] := by
  have first (devices : List CloudDevice) : devices = ([devices].find? (· ≠ [])).getD [] := by
    by_cases empty : devices = [] <;> simp [empty]
  rw [accountDevices, first (orElse _ (sharedDevices a)), orElse_eq_find?, orElse_eq_find?, orElse_eq_find?]
  rfl

theorem mem_mowers : m ∈ (firstOfEach CloudDevice.name (devices.filter (·.Shown isRtk))).map CloudDevice.mower ↔
    ∃ d, devices.find? (fun d => d.Shown isRtk ∧ d.name = m.name) = some d ∧ m = d.mower := by
  simp only [List.mem_map, mem_firstOfEach, List.find?_filter, decide_eq_true_eq]
  constructor
  · rintro ⟨d, found, rfl⟩
    exact ⟨d, found, rfl⟩
  · rintro ⟨d, found, rfl⟩
    exact ⟨d, found, rfl⟩

theorem gatewayDevices_of_told (told : orEmpty (gatewayError cached a) ≠ "") :
    gatewayDevices cached a = .error (orEmpty (gatewayError cached a)) := by
  rw [gatewayError] at told ⊢
  cases outcome : gatewayDevices cached a with
  | error text => rfl
  | ok devices =>
    rw [outcome] at told
    exact absurd rfl told

theorem listed_spec (listed : (cloudMowers isRtk cached a).result = .ok cloud) :
    (cloud.map CloudMower.name).Nodup ∧ ∀ m, m ∈ cloud ↔
      ∃ d, (accountDevices cached a).find? (fun d => d.Shown isRtk ∧ d.name = m.name) = some d ∧ m = d.mower := by
  simp only [cloudMowers, foldl_listDevice] at listed
  split_ifs at listed
  cases listed
  refine ⟨?_, fun m => mem_mowers⟩
  rw [List.map_map]
  exact nodup_firstOfEach

/-- The mower that an entry is about. -/
def MatchedMower.mower (e : MatchedMower) : CloudMower := ⟨e.name, e.iotId, e.nickname⟩

/-- The loop divides the mowers. -/
theorem divided_of_pair {proxies : List ProxyReply} {r : ScanResponse} (answered : pair cloud proxies = some r) :
    (r.matched.map MatchedMower.mower ++ r.unmatchedMowers).Perm cloud := by
  have turns {cloud : List CloudMower} {dict : OrderedDict String ProxyReply} {s t : Pairing}
      (ran : cloud.foldlM (pairMower dict) s = some t) :
      (t.matched.map MatchedMower.mower ++ t.unmatchedMowers).Perm
        (s.matched.map MatchedMower.mower ++ s.unmatchedMowers ++ cloud) := by
    induction cloud generalizing s with
    | nil =>
      cases ran
      simp
    | cons m cloud ih =>
      obtain ⟨u, turn, rest⟩ := Option.bind_eq_some_iff.mp ran
      refine (ih rest).trans ?_
      have once : (u.matched.map MatchedMower.mower ++ u.unmatchedMowers).Perm
          (s.matched.map MatchedMower.mower ++ s.unmatchedMowers ++ [m]) := by
        rw [pairMower] at turn
        split at turn
        · obtain ⟨host, _, turn⟩ := Option.bind_eq_some_iff.mp turn
          obtain ⟨port, _, turn⟩ := Option.bind_eq_some_iff.mp turn
          cases turn
          simp only [List.map_append, List.map_cons, List.map_nil, MatchedMower.mower, List.append_assoc]
          exact List.perm_append_comm.append_left _
        · cases turn
          rw [List.append_assoc]
      simpa using once.append_right cloud
  obtain ⟨s, ran, made⟩ := Option.bind_eq_some_iff.mp answered
  cases made
  simpa using turns ran

/-- **The scan shows the account.** The pairing proposal has each mower of the account that is shown, with what the
account says about it, in exactly one of its two lists. -/
theorem scan_shows_account {first second : List ProxyReply} {r : ScanResponse}
    (listed : (cloudMowers isRtk cached a).result = .ok cloud) (answered : onboardScan cloud first second = some r) :
    ∃ shown, (r.matched.map MatchedMower.mower ++ r.unmatchedMowers).Perm shown ∧
      (shown.map CloudMower.name).Nodup ∧
      ∀ m, m ∈ shown ↔ ∃ d, (accountDevices cached a).find? (fun d => d.Shown isRtk ∧ d.name = m.name) = some d ∧
        m = d.mower := by
  obtain ⟨proxies, _, paired⟩ := Option.bind_eq_some_iff.mp answered
  exact ⟨cloud, divided_of_pair paired, listed_spec listed⟩

private def lubaRow : BindingRow := ⟨"Luba-A", "iot-a", some "pk", none⟩

/-- An account with a pending share, a mower that is listed twice and a base station; the gateway needs its second
try. -/
def twiceListed : CloudAnswers where
  sharedPage := .ok [⟨none, none, 1, -1, "batch", 7⟩]
  confirmShare := fun _ => .ok ()
  handshake := .ok ()
  noticeList := .error "timeout"
  listBinding := .error "request auth error"
  refreshSession := .ok ()
  listBindingAgain := .ok ()
  bindingRows := [lubaRow, ⟨"RTK-B", "iot-b", none, none⟩, lubaRow]
  deviceList := .ok []
  devicePage := .ok []
  sharedPageLast := .ok []

theorem scan_shows_account_twiceListed : ∃ r, onboardScan [⟨"Luba-A", some "iot-a", none⟩] [] [] = some r ∧
    ∃ shown : List CloudMower, (r.matched.map MatchedMower.mower ++ r.unmatchedMowers).Perm shown := by
  have listed : (cloudMowers (fun name _ => name = "RTK-B") false twiceListed).result =
      .ok [⟨"Luba-A", some "iot-a", none⟩] := rfl
  have answered : onboardScan [⟨"Luba-A", some "iot-a", none⟩] [] [] =
      some ⟨[], [⟨"Luba-A", some "iot-a", none⟩], []⟩ := rfl
  obtain ⟨shown, divided, _⟩ := scan_shows_account listed answered
  exact ⟨_, answered, shown, divided⟩

/-- The loop over the batches comes to its end, or the last call that was made raised. -/
theorem confirmBatches_split (confirm : String → Answer Unit) (items : List (String × List ℤ)) :
    ∃ done rest, items = done ++ rest ∧ confirmBatches confirm items = done.map (fun item => .share item.1 item.2) ∧
      (rest = [] ∨ ∃ item text, done.getLast? = some item ∧ confirm item.1 = .error text) := by
  induction items with
  | nil => exact ⟨[], [], rfl, rfl, .inl rfl⟩
  | cons item items ih =>
    obtain ⟨batchId, recordIds⟩ := item
    rw [confirmBatches]
    cases outcome : confirm batchId with
    | error text => exact ⟨[(batchId, recordIds)], items, rfl, rfl, .inr ⟨_, text, rfl, outcome⟩⟩
    | ok _ =>
      obtain ⟨done, rest, rfl, calls, stopped⟩ := ih
      refine ⟨(batchId, recordIds) :: done, rest, rfl, by rw [calls]; rfl, stopped.imp_right ?_⟩
      rintro ⟨last, text, at_, failed⟩
      exact ⟨last, text, by rw [List.getLast?_cons, at_]; rfl, failed⟩

/-- **The pending shares are accepted.** Each batch is confirmed at most once, with all records of it that are pending
for this account and no others; a batch is left out only behind one whose confirmation raised. -/
theorem pending_shares_accepted (a : CloudAnswers) {records : List ShareRecord} (page : a.sharedPage = .ok records) :
    ∃ done rest : List (String × List ℤ),
      confirmPendingShares a = done.map (fun item => .share item.1 item.2) ∧
      ((done ++ rest).map Prod.fst).Nodup ∧
      ((done ++ rest).flatMap fun item => item.2.map fun id => (item.1, id)).Perm
        ((records.filter fun r => r.isReceiver = 1 ∧ r.status = -1).map fun r => (r.batchId, r.recordId)) ∧
      (rest = [] ∨ ∃ item text, done.getLast? = some item ∧ a.confirmShare item.1 = .error text) := by
  obtain ⟨done, rest, split, calls, stopped⟩ := confirmBatches_split a.confirmShare (pendingShares records).items
  refine ⟨done, rest, ?_, ?_, ?_, stopped⟩
  · rw [confirmPendingShares, page]
    exact calls
  · rw [← split]
    exact (pendingShares records).nodup
  · rw [← split]
    exact OrderedDict.groups_ungrouped _

theorem pending_shares_accepted_twiceListed : ∃ done : List (String × List ℤ),
    confirmPendingShares twiceListed = done.map (fun item => .share item.1 item.2) := by
  obtain ⟨done, _, calls, _⟩ := pending_shares_accepted twiceListed rfl
  exact ⟨done, calls⟩

end MammotionRc.Server
