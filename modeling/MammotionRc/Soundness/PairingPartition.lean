import MammotionRc.Server.OnboardScan

/-! # The pairing proposal as a partition

The proposal takes proxies by name and leaves out by chip. Both agree on a proxy that tells its chip; those that
do not are all left out as soon as one of them is taken.
-/

namespace MammotionRc.Server

open Machine

/-- The entry was made from this proxy; replies differ in their chip or their address. -/
def MatchedMower.Uses (e : MatchedMower) (p : ProxyReply) : Prop :=
  e.chipId = p.get? "chip_id" ∧ p.get? "ip" = some e.hc33Host

/-- The response divides the mowers and the proxies, and pairs them by name. -/
structure ScanResponse.Partitions (r : ScanResponse) (cloud : List CloudMower) (proxies : List ProxyReply) :
    Prop where
  eachMower : ∀ m ∈ cloud, ((∃! e, e ∈ r.matched ∧ e.name = m.name) ∧ m ∉ r.unmatchedMowers) ∨
    ((∀ e ∈ r.matched, e.name ≠ m.name) ∧ m ∈ r.unmatchedMowers)
  eachProxy : ∀ p ∈ proxies, ((∃! e, e ∈ r.matched ∧ e.Uses p) ∧ p ∉ r.unmatchedProxies) ∨
    ((∀ e ∈ r.matched, ¬ e.Uses p) ∧ p ∈ r.unmatchedProxies)
  hosts : ∀ e ∈ r.matched, ∃ p ∈ proxies, p.get? "ip" = some e.hc33Host ∧ p.get? "bonded_name" = some e.name

/-- A proxy is bonded to a mower of the account, and no later one is bonded to the same. -/
def Taken (cloud : List CloudMower) (proxies : List ProxyReply) (p : ProxyReply) : Prop :=
  ∃ m ∈ cloud, (proxies.filter fun q => bondedName q = some m.name).getLast? = some p

/-- Of the proxies that do not tell their chip, all are taken or none is. -/
def ChiplessAlike (cloud : List CloudMower) (proxies : List ProxyReply) : Prop :=
  (∀ p ∈ proxies, p.get? "chip_id" = none → Taken cloud proxies p) ∨
    (∀ p ∈ proxies, p.get? "chip_id" = none → ¬ Taken cloud proxies p)

variable {cloud : List CloudMower} {proxies : List ProxyReply} {p q : ProxyReply} {m : CloudMower} {name : String}

theorem bonded_get? (proxies : List ProxyReply) (name : String) :
    (bonded proxies).get? name = (proxies.filter fun q => bondedName q = some name).getLast? := by
  rw [bonded, OrderedDict.get?_ofPairs]
  congr 1
  induction proxies with
  | nil => rfl
  | cons p proxies ih =>
    cases is : bondedName p with
    | none => simp [is, ih]
    | some other =>
      by_cases same : other = name
      · simp [is, ih, same]
      · simp [is, ih, same]

theorem taken_iff : Taken cloud proxies p ↔ ∃ m ∈ cloud, (bonded proxies).get? m.name = some p := by
  simp only [Taken, bonded_get?]

theorem mem_of_bonded (at_ : (bonded proxies).get? name = some p) : p ∈ proxies ∧ bondedName p = some name := by
  rw [bonded_get?] at at_
  obtain ⟨mem, is⟩ := List.mem_filter.mp (List.mem_of_getLast? at_)
  exact ⟨mem, of_decide_eq_true is⟩

theorem bonded_name_of_bondedName (is : bondedName p = some name) : p.get? "bonded_name" = some name := by
  rw [bondedName] at is
  split at is
  · next other at_ =>
    split_ifs at is
    cases is
    exact at_
  · cases is

/-- The entry for a mower that has a proxy. -/
def Entry (dict : OrderedDict String ProxyReply) (m : CloudMower) (e : MatchedMower) : Prop :=
  e.name = m.name ∧ ∃ p, dict.get? m.name = some p ∧ e.Uses p

/-- The loop puts each mower into one of its lists. -/
theorem foldlM_pairMower {dict : OrderedDict String ProxyReply} {s t : Pairing}
    (ran : cloud.foldlM (pairMower dict) s = some t) :
    (∃ entries, t.matched = s.matched ++ entries ∧
      List.Forall₂ (Entry dict) (cloud.filter fun m => (dict.get? m.name).isSome) entries) ∧
    t.unmatchedMowers = s.unmatchedMowers ++ cloud.filter (fun m => (dict.get? m.name).isNone) ∧
    t.usedChips = s.usedChips ++ (cloud.filterMap fun m => dict.get? m.name).map (·.get? "chip_id") := by
  induction cloud generalizing s with
  | nil =>
    cases ran
    simp
  | cons m cloud ih =>
    obtain ⟨u, turn, rest⟩ := Option.bind_eq_some_iff.mp ran
    obtain ⟨⟨entries, matched, each⟩, unmatched, used⟩ := ih rest
    rw [pairMower] at turn
    split at turn
    · next p at_ =>
      obtain ⟨host, ip, turn⟩ := Option.bind_eq_some_iff.mp turn
      obtain ⟨port, _, turn⟩ := Option.bind_eq_some_iff.mp turn
      cases turn
      refine ⟨⟨_ :: entries, by rw [matched, List.append_assoc]; rfl, ?_⟩, ?_, ?_⟩
      · have kept : (m :: cloud).filter (fun m => (dict.get? m.name).isSome) =
            m :: cloud.filter fun m => (dict.get? m.name).isSome := by simp [at_]
        rw [kept]
        exact .cons ⟨rfl, p, at_, rfl, ip⟩ each
      · rw [unmatched]
        simp [at_]
      · rw [used]
        simp [at_]
    · next at_ =>
      cases turn
      refine ⟨⟨entries, matched, ?_⟩, ?_, ?_⟩
      · simpa [at_] using each
      · rw [unmatched]
        simp [at_]
      · rw [used]
        simp [at_]

/-- Every reply has an address, and two replies differ in their chips or, without these, in their addresses. -/
structure Distinct (proxies : List ProxyReply) : Prop where
  address : ∀ p ∈ proxies, ∃ ip, p.get? "ip" = some ip
  chip : ∀ p ∈ proxies, ∀ q ∈ proxies, p.get? "chip_id" = q.get? "chip_id" →
    p.get? "chip_id" ≠ none ∨ p.get? "ip" = q.get? "ip" → p = q

/-- A reply is found under its chip or its address. -/
def Keyed (found : OrderedDict String ProxyReply) : Prop :=
  ∀ key kv, (key, kv) ∈ found.items → ∃ ip, kv.get? "ip" = some ip ∧ key = (kv.get? "chip_id").getD ip

theorem Keyed.set {found : OrderedDict String ProxyReply} (keyed : Keyed found) {kv : ProxyReply} {ip : String}
    (address : kv.get? "ip" = some ip) : Keyed (found.set ((kv.get? "chip_id").getD ip) kv) := by
  intro key other mem
  rcases OrderedDict.mem_items_set.mp mem with ⟨rfl, rfl⟩ | ⟨_, before⟩
  · exact ⟨ip, address, rfl⟩
  · exact keyed key other before

/-- A search finds distinct replies. -/
theorem distinct_discoverBlocking (datagrams : List (List UInt8 × String)) : Distinct (discoverBlocking datagrams) := by
  have keyed : ∀ found, Keyed found → Keyed (datagrams.foldl receive found) := by
    induction datagrams with
    | nil => exact fun found keyed => keyed
    | cons packet datagrams ih =>
      intro found keyed
      refine ih _ ?_
      rw [receive]
      split
      · exact keyed
      · exact keyed.set ((OrderedDict.get?_set ..).trans (if_pos rfl))
  have keyed := keyed .empty fun key kv mem => absurd mem List.not_mem_nil
  refine ⟨fun p mem => ?_, fun p memP q memQ chips differ => ?_⟩
  · obtain ⟨key, mem⟩ := OrderedDict.mem_values_iff.mp mem
    obtain ⟨ip, address, _⟩ := keyed key p mem
    exact ⟨ip, address⟩
  · obtain ⟨key, memP⟩ := OrderedDict.mem_values_iff.mp memP
    obtain ⟨key', memQ⟩ := OrderedDict.mem_values_iff.mp memQ
    obtain ⟨ip, address, rfl⟩ := keyed key p memP
    obtain ⟨ip', address', rfl⟩ := keyed key' q memQ
    have same : (p.get? "chip_id").getD ip = (q.get? "chip_id").getD ip' := by
      rw [← chips]
      cases chip : p.get? "chip_id" with
      | some _ => rfl
      | none =>
        rcases differ with told | ips
        · exact absurd chip told
        · exact Option.some.inj (address.symm.trans (ips.trans address'))
    exact OrderedDict.value_unique (same ▸ memP) memQ

/-- What a response is made of. -/
structure Made (cloud : List CloudMower) (proxies : List ProxyReply) (r : ScanResponse) : Prop where
  entries : List.Forall₂ (Entry (bonded proxies)) (cloud.filter fun m => ((bonded proxies).get? m.name).isSome) r.matched
  mowers : ∀ m, m ∈ r.unmatchedMowers ↔ m ∈ cloud ∧ (bonded proxies).get? m.name = none
  proxies : ∀ p, p ∈ r.unmatchedProxies ↔
    p ∈ proxies ∧ ∀ q, Taken cloud proxies q → q.get? "chip_id" ≠ p.get? "chip_id"

theorem made_of_pair {r : ScanResponse} (answered : pair cloud proxies = some r) : Made cloud proxies r := by
  obtain ⟨s, ran, made⟩ := Option.bind_eq_some_iff.mp answered
  cases made
  obtain ⟨⟨entries, matched, each⟩, unmatched, used⟩ := foldlM_pairMower ran
  refine ⟨by rw [matched]; exact each, fun m => ?_, fun p => ?_⟩
  · rw [unmatched, List.nil_append, List.mem_filter, Option.isNone_iff_eq_none]
  · rw [List.mem_filter, decide_eq_true_eq, used, List.nil_append]
    refine and_congr_right fun _ => ?_
    simp only [List.mem_map, List.mem_filterMap, taken_iff]
    constructor
    · rintro fresh q ⟨m, mem, at_⟩ same
      exact fresh ⟨q, ⟨m, mem, at_⟩, same⟩
    · rintro other ⟨q, ⟨m, mem, at_⟩, same⟩
      exact other q ⟨m, mem, at_⟩ same

variable {r : ScanResponse} {e e' : MatchedMower}

theorem Made.of_mem (made : Made cloud proxies r) (mem : e ∈ r.matched) :
    ∃ m ∈ cloud, Entry (bonded proxies) m e := by
  obtain ⟨i, bound, rfl⟩ := List.getElem_of_mem mem
  have length := made.entries.length_eq
  refine ⟨_, (List.mem_filter.mp (List.getElem_mem (length ▸ bound))).1, ?_⟩
  exact made.entries.get (length ▸ bound) bound

theorem Made.exists_entry (made : Made cloud proxies r) (mem : m ∈ cloud)
    (at_ : (bonded proxies).get? m.name = some p) : ∃ e ∈ r.matched, Entry (bonded proxies) m e := by
  have kept : m ∈ cloud.filter fun m => ((bonded proxies).get? m.name).isSome :=
    List.mem_filter.mpr ⟨mem, Option.isSome_iff_exists.mpr ⟨p, at_⟩⟩
  obtain ⟨i, bound, rfl⟩ := List.getElem_of_mem kept
  have length := made.entries.length_eq
  exact ⟨_, List.getElem_mem (length ▸ bound), made.entries.get bound (length ▸ bound)⟩

/-- A mower has one entry. -/
theorem Made.entry_unique (made : Made cloud proxies r) (distinct : (cloud.map CloudMower.name).Nodup)
    (mem : e ∈ r.matched) (mem' : e' ∈ r.matched) (same : e.name = e'.name) : e = e' := by
  have names : r.matched.map MatchedMower.name =
      (cloud.filter fun m => ((bonded proxies).get? m.name).isSome).map CloudMower.name := by
    refine (List.forall₂_eq_eq_eq ▸ List.forall₂_map_left_iff.mpr (List.forall₂_map_right_iff.mpr ?_))
    exact made.entries.flip.imp fun e m entry => entry.1
  have nodup : (r.matched.map MatchedMower.name).Nodup :=
    names ▸ distinct.sublist (List.filter_sublist.map CloudMower.name)
  exact List.inj_on_of_nodup_map nodup mem mem' same

/-- The entries that use a reply are those of the mower that takes it. -/
theorem Made.uses_iff (made : Made cloud proxies r) (distinct : Distinct proxies) (mem : p ∈ proxies) :
    (∃ e ∈ r.matched, e.Uses p) ↔ Taken cloud proxies p := by
  rw [taken_iff]
  constructor
  · rintro ⟨e, among, chip, ip⟩
    obtain ⟨m, inside, _, q, at_, chip', ip'⟩ := made.of_mem among
    have same : p = q := distinct.chip p mem q (mem_of_bonded at_).1 (chip.symm.trans chip') (.inr (ip.trans ip'.symm))
    exact ⟨m, inside, same ▸ at_⟩
  · rintro ⟨m, inside, at_⟩
    obtain ⟨e, among, _, q, at_', uses⟩ := made.exists_entry inside at_
    cases at_.symm.trans at_'
    exact ⟨e, among, uses⟩

theorem Made.user_unique (made : Made cloud proxies r) (distinct : Distinct proxies)
    (names : (cloud.map CloudMower.name).Nodup) (mem : p ∈ proxies) (among : e ∈ r.matched) (uses : e.Uses p)
    (among' : e' ∈ r.matched) (uses' : e'.Uses p) : e = e' := by
  have bonded_of {e : MatchedMower} (among : e ∈ r.matched) (uses : e.Uses p) : bondedName p = some e.name := by
    obtain ⟨m, _, name, q, at_, chip, ip⟩ := made.of_mem among
    have same : p = q :=
      distinct.chip p mem q (mem_of_bonded at_).1 (uses.1.symm.trans chip) (.inr (uses.2.trans ip.symm))
    rw [same, name]
    exact (mem_of_bonded at_).2
  exact made.entry_unique names among among' (Option.some.inj ((bonded_of among uses).symm.trans (bonded_of among' uses')))

/-- A reply is in its right place if it is left out exactly when it is not taken. -/
theorem Made.partitions_iff (made : Made cloud proxies r) (distinct : Distinct proxies)
    (names : (cloud.map CloudMower.name).Nodup) :
    r.Partitions cloud proxies ↔ ∀ p ∈ proxies, (p ∈ r.unmatchedProxies ↔ ¬ Taken cloud proxies p) := by
  constructor
  · rintro parts p mem
    rw [← made.uses_iff distinct mem]
    rcases parts.eachProxy p mem with ⟨⟨e, ⟨among, uses⟩, _⟩, absent⟩ | ⟨free, listed⟩
    · exact iff_of_false absent fun none => none ⟨e, among, uses⟩
    · exact iff_of_true listed fun ⟨e, among, uses⟩ => free e among uses
  · intro each
    refine ⟨fun m mem => ?_, fun p mem => ?_, fun e among => ?_⟩
    · cases at_ : (bonded proxies).get? m.name with
      | some p =>
        obtain ⟨e, among, entry⟩ := made.exists_entry mem at_
        refine .inl ⟨⟨e, ⟨among, entry.1⟩, fun e' other => ?_⟩, fun left => ?_⟩
        · exact made.entry_unique names other.1 among (other.2.trans entry.1.symm)
        · cases at_.symm.trans ((made.mowers m).mp left).2
      | none =>
        refine .inr ⟨fun e among same => ?_, (made.mowers m).mpr ⟨mem, at_⟩⟩
        obtain ⟨m', _, name, p, found, _⟩ := made.of_mem among
        rw [← name, same, at_] at found
        cases found
    · by_cases taken : Taken cloud proxies p
      · obtain ⟨e, among, uses⟩ := (made.uses_iff distinct mem).mpr taken
        refine .inl ⟨⟨e, ⟨among, uses⟩, fun e' other => ?_⟩, fun left => (each p mem).mp left taken⟩
        exact made.user_unique distinct names mem other.1 other.2 among uses
      · exact .inr ⟨fun e among uses => taken ((made.uses_iff distinct mem).mp ⟨e, among, uses⟩), (each p mem).mpr taken⟩
    · obtain ⟨m, _, name, p, at_, _, ip⟩ := made.of_mem among
      obtain ⟨mem, is⟩ := mem_of_bonded at_
      exact ⟨p, mem, ip, name ▸ bonded_name_of_bondedName is⟩

theorem Taken.mem (taken : Taken cloud proxies p) : p ∈ proxies := by
  obtain ⟨m, _, last⟩ := taken
  exact (List.mem_filter.mp (List.mem_of_getLast? last)).1

/-- The chips tell the replies apart that have one. -/
theorem Made.alike_iff (made : Made cloud proxies r) (distinct : Distinct proxies) :
    (∀ p ∈ proxies, (p ∈ r.unmatchedProxies ↔ ¬ Taken cloud proxies p)) ↔ ChiplessAlike cloud proxies := by
  constructor
  · intro each
    by_cases some_ : ∃ q, Taken cloud proxies q ∧ q.get? "chip_id" = none
    · obtain ⟨q, taken, chipless⟩ := some_
      refine .inl fun p mem chip => ?_
      by_contra free
      exact ((made.proxies p).mp ((each p mem).mpr free)).2 q taken (chipless.trans chip.symm)
    · exact .inr fun p _ chip taken => some_ ⟨p, taken, chip⟩
  · intro alike p mem
    rw [made.proxies]
    constructor
    · rintro ⟨_, other⟩ taken
      exact other p taken rfl
    · intro free
      refine ⟨mem, fun q taken chips => free ?_⟩
      cases chip : p.get? "chip_id" with
      | some c =>
        have told : q.get? "chip_id" ≠ none := by
          rw [chips, chip]
          exact Option.some_ne_none c
        exact distinct.chip q taken.mem p mem chips (.inl told) ▸ taken
      | none =>
        rcases alike with all | no
        · exact all p mem chip
        · exact absurd taken (no q taken.mem (chips.trans chip))

theorem distinct_of_scanProxies {first second : List (List UInt8 × String)}
    (found : scanProxies (discoverBlocking first) (discoverBlocking second) = some proxies) : Distinct proxies := by
  rw [scanProxies] at found
  split at found
  · cases found
    exact distinct_discoverBlocking first
  · obtain ⟨_, _, rfl⟩ := Option.map_eq_some_iff.mp found
    exact distinct_discoverBlocking second

/-- **The pairing proposal is a partition** exactly if of the replies without a chip all are taken or none is. -/
theorem pairing_partitions_iff (cloud : List CloudMower) (first second : List (List UInt8 × String))
    (proxies : List ProxyReply) (r : ScanResponse) (names : (cloud.map CloudMower.name).Nodup)
    (found : scanProxies (discoverBlocking first) (discoverBlocking second) = some proxies)
    (answered : onboardScan cloud (discoverBlocking first) (discoverBlocking second) = some r) :
    r.Partitions cloud proxies ↔ ChiplessAlike cloud proxies := by
  rw [onboardScan, found, Option.bind_some] at answered
  have made := made_of_pair answered
  have distinct := distinct_of_scanProxies found
  exact (made.partitions_iff distinct names).trans (made.alike_iff distinct)

private def lubaA : CloudMower := ⟨"Luba-A", some "iot-a", none⟩

/-- Two proxies that do not tell their chip, for two mowers. -/
def twoChipless : List (List UInt8 × String) :=
  [(Utf8.encode "HC33-PROXY bonded_name=Luba-A".toList, "192.168.1.5"),
    (Utf8.encode "HC33-PROXY bonded_name=Luba-B".toList, "192.168.1.6")]

/-- The proxy of the mower that is not in the account is in no list. -/
theorem twoChipless_not_partitioned : ∃ proxies r,
    scanProxies (discoverBlocking twoChipless) (discoverBlocking []) = some proxies ∧
    onboardScan [lubaA] (discoverBlocking twoChipless) (discoverBlocking []) = some r ∧
    ¬ r.Partitions [lubaA] proxies := by
  refine ⟨_, _, rfl, rfl, fun parts => ?_⟩
  rcases parts.eachProxy _ (List.mem_cons_of_mem _ (List.mem_singleton_self _)) with ⟨⟨e, ⟨among, _, ip⟩, _⟩, _⟩ | ⟨_, left⟩
  · cases List.mem_singleton.mp among
    exact absurd ip (by decide)
  · exact absurd left List.not_mem_nil

/-- Two proxies that tell their chips. -/
def twoChips : List (List UInt8 × String) :=
  [(Utf8.encode "HC33-PROXY chip_id=A49DF4 proxy_port=9876 bonded_name=Luba-A".toList, "192.168.1.5"),
    (Utf8.encode "HC33-PROXY chip_id=A49DF5 proxy_port=9876 bonded_name=Luba-B".toList, "192.168.1.6")]

theorem pairing_partitions_twoChips : ∃ proxies r,
    scanProxies (discoverBlocking twoChips) (discoverBlocking []) = some proxies ∧
    onboardScan [lubaA] (discoverBlocking twoChips) (discoverBlocking []) = some r ∧
    r.Partitions [lubaA] proxies := by
  have proposed : (onboardScan [lubaA] (discoverBlocking twoChips) (discoverBlocking [])).isSome = true := by
    decide +kernel
  have told : ∀ proxies ∈ scanProxies (discoverBlocking twoChips) (discoverBlocking []), ∀ p ∈ proxies,
      (p.get? "chip_id").isSome = true := by decide +kernel
  obtain ⟨r, answered⟩ := Option.isSome_iff_exists.mp proposed
  obtain ⟨proxies, found, _⟩ := Option.bind_eq_some_iff.mp answered
  refine ⟨proxies, r, found, answered, ?_⟩
  refine (pairing_partitions_iff [lubaA] twoChips [] proxies r (by decide) found answered).mpr
    (.inr fun p mem chipless => ?_)
  exact absurd (told proxies found p mem) (Option.not_isSome_iff_eq_none.mpr chipless)

end MammotionRc.Server
