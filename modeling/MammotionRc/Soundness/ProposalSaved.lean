import MammotionRc.Soundness.DiscoveryRoundTrip
import MammotionRc.Soundness.PairingPartition
import MammotionRc.Soundness.PairingSaved

/-! # An untouched proposal is saved as it is

From the datagrams of the proxies to the rows of the roster: the scan matches mowers and proxies, the page shows a card
of each, and posts the matched ones if the user saves at once. The name of a matched mower is a token of a reply and its
host the address the reply came from, so no trimming on the way changes them and the server does not refuse the request.
-/

namespace MammotionRc.Web

open Machine Server

/-- An address of the family that the scan searches. -/
def IsAddress (ip : String) : Prop := ip ≠ "" ∧ ∀ c ∈ ip.toList, c.isDigit = true ∨ c = '.'

/-- What the page posts of a text of the account. -/
def posted (s : Option String) : PyStr := trim (textValue (orBlank s))

/-- The row of the roster for a matched mower. -/
def proposedRow (e : MatchedMower) : Row :=
  ⟨.str (PyStr.lit e.name), (PyValue.str (posted e.nickname).strip).or .none, .str (PyStr.lit e.hc33Host), e.hc33Port,
    (PyValue.str (posted e.iotId)).or .none⟩

/-! ## Texts without white space -/

section Texts

variable {s : String} {c : Char}

theorem forall_mem_lit {p : PyChar → Bool} (solid : ∀ c ∈ s.toList, p (.char c) = false) :
    ∀ ch ∈ PyStr.lit s, p ch = false := by
  rintro _ inside
  obtain ⟨c, among, rfl⟩ := List.mem_map.mp inside
  exact solid c among

theorem trim_lit (solid : ∀ c ∈ s.toList, JsNumber.isSpace c = false) : trim (PyStr.lit s) = PyStr.lit s :=
  PyText.stripped_eq_self (forall_mem_lit solid)

theorem strip_lit (solid : ∀ c ∈ s.toList, PyText.isSpace c = false) : (PyStr.lit s).strip = PyStr.lit s :=
  PyText.stripped_eq_self (forall_mem_lit solid)

theorem lit_ne_nil (nonempty : s ≠ "") : PyStr.lit s ≠ [] := by
  rw [PyStr.lit, PyStr.ofChars, ne_eq, List.map_eq_nil_iff, String.toList_eq_nil_iff]
  exact nonempty

theorem textValue_lit (solid : ∀ c ∈ s.toList, PyText.isSpace c = false) : textValue (PyStr.lit s) = PyStr.lit s := by
  refine List.filter_eq_self.mpr fun ch inside => ?_
  obtain ⟨c, among, rfl⟩ := List.mem_map.mp inside
  refine decide_eq_true ⟨?_, ?_⟩
  · rintro ⟨⟩
    cases solid _ among
  · rintro ⟨⟩
    cases solid _ among

theorem not_isSpace_of_address (one : c.isDigit = true ∨ c = '.') :
    JsNumber.isSpace c = false ∧ PyText.isSpace c = false := by
  obtain digit | rfl := one
  · obtain ⟨above, below⟩ := Firmware.graphic_of_isDigit digit
    exact ⟨JsNumber.not_isSpace_of_isDigit digit, PyText.isSpace_of_graphic above below⟩
  · decide

end Texts

/-! ## The port -/

theorem isFloat_digits {text : List Char} (digits : ∀ c ∈ text, c.isDigit = true) (nonempty : text ≠ []) :
    isFloat text = true := by
  obtain ⟨c, rest, rfl⟩ := List.exists_cons_of_ne_nil nonempty
  have unsigned : (c :: rest).head? ≠ some '-' := by
    rintro ⟨⟩
    exact absurd (digits _ List.mem_cons_self) (by decide)
  have all : (c :: rest).dropWhile Char.isDigit = [] := List.dropWhile_eq_nil_iff.mpr digits
  have taken : (c :: rest).takeWhile Char.isDigit = c :: rest := List.takeWhile_eq_self_iff.mpr digits
  rw [isFloat, if_neg unsigned]
  simp only [all, taken, isExponent]
  simp

/-- The field of a port shows the port, and the server reads it back. -/
theorem keptPort_shown {port : ℤ} (positive : 0 < port) (small : port < 2 ^ 53) :
    keptPort (JsNumber.parseInt (numberValue (JsNumber.ofInt port).text)) = port := by
  obtain ⟨n, rfl⟩ := Int.eq_ofNat_of_zero_le positive.le
  have below : (n : ℤ).natAbs < 2 ^ 53 := by
    rw [Int.natAbs_natCast]
    exact_mod_cast small
  have digits : (JsNumber.ofInt n).text = Nat.toDigits 10 n := by
    rw [JsNumber.ofInt_of_lt below, JsNumber.text_small below]
    rfl
  have float : isFloat (Nat.toDigits 10 n) = true := isFloat_digits JsNumber.isDigit_of_mem_toDigits Nat.toDigits_ne_nil
  rw [digits, numberValue, if_pos float, JsNumber.parseInt_nat, JsNumber.ofInt_of_lt below, keptPort,
    if_neg positive.ne', if_pos (JsNumber.places_small below), JsNumber.written_small below]

/-! ## What the scan finds -/

/-- Every reply that a search finds has the fields of a text, and the address it came from. -/
theorem told_of_mem {datagrams : List (List UInt8 × String)} {p : ProxyReply} (mem : p ∈ discoverBlocking datagrams) :
    ∃ packet ∈ datagrams, ∃ text, p = (replyFields text).set "ip" packet.2 := by
  have told (all : List (List UInt8 × String)) : ∀ found : OrderedDict String ProxyReply, datagrams ⊆ all →
      (∀ p ∈ found.values, ∃ packet ∈ all, ∃ text, p = (replyFields text).set "ip" packet.2) →
      ∀ p ∈ (datagrams.foldl receive found).values,
        ∃ packet ∈ all, ∃ text, p = (replyFields text).set "ip" packet.2 := by
    clear mem
    induction datagrams with
    | nil => exact fun found _ before => before
    | cons packet datagrams ih =>
      intro found within before
      refine ih _ (List.subset_of_cons_subset within) fun p inside => ?_
      rw [receive] at inside
      split at inside
      · exact before p inside
      · next kv parsed =>
        obtain ⟨key, inside⟩ := OrderedDict.mem_values_iff.mp inside
        obtain ⟨_, rfl⟩ | ⟨_, kept⟩ := OrderedDict.mem_items_set.mp inside
        · rw [parseReply] at parsed
          split at parsed
          · cases parsed
          · cases parsed
            exact ⟨packet, within List.mem_cons_self, _, rfl⟩
        · exact before p (OrderedDict.mem_values_iff.mpr ⟨key, kept⟩)
  exact told datagrams .empty (List.Subset.refl _) (fun p inside => absurd inside List.not_mem_nil) p mem

section Scan

variable {cloud : List CloudMower} {first second : List (List UInt8 × String)} {data : ScanResponse} {e : MatchedMower}

theorem bondedName_ne_empty {p : ProxyReply} {name : String} (is : bondedName p = some name) : name ≠ "" := by
  rw [bondedName] at is
  split at is
  · split_ifs at is with none_
    cases is
    exact fun empty => none_ (.inl empty)
  · cases is

/-- A matched mower has a name of one token and the address of a reply. -/
theorem matched_told (scanned : onboardScan cloud (discoverBlocking first) (discoverBlocking second) = some data)
    (mem : e ∈ data.matched) :
    e.name ≠ "" ∧ (∀ c ∈ e.name.toList, PyText.isSpace c = false) ∧
      ∃ packet ∈ first ++ second, packet.2 = e.hc33Host := by
  obtain ⟨proxies, found, paired⟩ := Option.bind_eq_some_iff.mp scanned
  have told : ∀ p ∈ proxies, ∃ packet ∈ first ++ second, ∃ text, p = (replyFields text).set "ip" packet.2 := by
    intro p inside
    rw [scanProxies] at found
    split at found
    · cases found
      obtain ⟨packet, among, made⟩ := told_of_mem inside
      exact ⟨packet, List.mem_append_left _ among, made⟩
    · obtain ⟨_, _, rfl⟩ := Option.map_eq_some_iff.mp found
      obtain ⟨packet, among, made⟩ := told_of_mem inside
      exact ⟨packet, List.mem_append_right _ among, made⟩
  obtain ⟨m, _, named, p, at_, _, ip⟩ := (made_of_pair paired).of_mem mem
  obtain ⟨inside, bond⟩ := mem_of_bonded at_
  obtain ⟨packet, among, text, rfl⟩ := told p inside
  have field := bonded_name_of_bondedName bond
  rw [OrderedDict.get?_set, if_neg (by decide)] at field
  rw [OrderedDict.get?_set, if_pos rfl] at ip
  rw [named]
  exact ⟨bondedName_ne_empty bond, fun c => Firmware.not_isSpace_of_field field, packet, among, Option.some.inj ip⟩

end Scan

/-! ## The cards -/

section Cards

variable {e : MatchedMower}

theorem host_shown (address : IsAddress e.hc33Host) : trim (matchedCard e).host = PyStr.lit e.hc33Host := by
  rw [matchedCard, textValue_lit fun c inside => (not_isSpace_of_address (address.2 c inside)).2,
    trim_lit fun c inside => (not_isSpace_of_address (address.2 c inside)).1]

theorem chosen_matchedCard (address : IsAddress e.hc33Host) : (matchedCard e).chosen = true := by
  rw [PairCard.chosen, host_shown address, Bool.and_eq_true]
  exact ⟨rfl, decide_eq_true (lit_ne_nil address.1)⟩

theorem strip_host (address : IsAddress e.hc33Host) : (PyStr.lit e.hc33Host).strip = PyStr.lit e.hc33Host :=
  strip_lit fun c inside => (not_isSpace_of_address (address.2 c inside)).2

theorem blank_matchedCard (address : IsAddress e.hc33Host) (nonempty : e.name ≠ "")
    (solid : ∀ c ∈ e.name.toList, PyText.isSpace c = false) : (matchedCard e).blank = false := by
  have name : (matchedCard e).name.strip = PyStr.lit e.name := strip_lit solid
  rw [PairCard.blank, name, host_shown address, strip_host address, decide_eq_false_iff_not]
  exact not_or.mpr ⟨lit_ne_nil nonempty, lit_ne_nil address.1⟩

theorem kept_matchedCard (address : IsAddress e.hc33Host) (solid : ∀ c ∈ e.name.toList, PyText.isSpace c = false)
    (positive : 0 < e.hc33Port) (small : e.hc33Port < 2 ^ 53) : (matchedCard e).kept = proposedRow e := by
  have name : (matchedCard e).name.strip = PyStr.lit e.name := strip_lit solid
  have port : (matchedCard e).port = numberValue (JsNumber.ofInt e.hc33Port).text := by rw [matchedCard]
  rw [PairCard.kept, name, host_shown address, strip_host address, port, keptPort_shown positive small]
  rfl

theorem chosen_renderCards {data : ScanResponse} (addresses : ∀ e ∈ data.matched, IsAddress e.hc33Host) :
    (renderCards data).filter PairCard.chosen = data.matched.map matchedCard := by
  have matched : (data.matched.map matchedCard).filter PairCard.chosen = data.matched.map matchedCard := by
    refine List.filter_eq_self.mpr fun c inside => ?_
    obtain ⟨e, mem, rfl⟩ := List.mem_map.mp inside
    exact chosen_matchedCard (addresses e mem)
  have manual : (data.unmatchedMowers.map manualCard).filter PairCard.chosen = [] := by
    refine List.filter_eq_nil_iff.mpr fun c inside => ?_
    obtain ⟨m, _, rfl⟩ := List.mem_map.mp inside
    exact Bool.false_ne_true
  rw [renderCards, List.filter_append, matched, manual, List.append_nil]

end Cards

/-- **An untouched proposal is saved as it is.** Whatever datagrams come from whatever addresses, and whatever mowers
the account has: if the user saves what the scan proposes, the roster has one row of every matched mower, in their order
and with the address and port of its proxy. The request is refused only if there is none. -/
theorem proposal_saved (cloud : List CloudMower) (first second : List (List UInt8 × String)) (data : ScanResponse)
    (scanned : onboardScan cloud (discoverBlocking first) (discoverBlocking second) = some data)
    (addresses : ∀ packet ∈ first ++ second, IsAddress packet.2)
    (ports : ∀ e ∈ data.matched, 0 < e.hc33Port ∧ e.hc33Port < 2 ^ 53) :
    normalise (saveBody (collectRows (renderCards data))) =
      if data.matched = [] then .error .badRequest else .ok (data.matched.map proposedRow) := by
  have hosts : ∀ e ∈ data.matched, IsAddress e.hc33Host := by
    intro e mem
    obtain ⟨_, _, packet, among, ip⟩ := matched_told scanned mem
    exact ip ▸ addresses packet among
  have fine : ((data.matched.map matchedCard).map PairCard.row).any PairRow.blank = false := by
    rw [List.map_map]
    refine List.any_eq_false.mpr fun r inside => ?_
    obtain ⟨e, mem, rfl⟩ := List.mem_map.mp inside
    obtain ⟨nonempty, solid, _⟩ := matched_told scanned mem
    exact Bool.eq_false_iff.mp (blank_matchedCard (hosts e mem) nonempty solid)
  have rows : ((data.matched.map matchedCard).map PairCard.row).map PairRow.kept = data.matched.map proposedRow := by
    rw [List.map_map, List.map_map]
    refine List.map_congr_left fun e mem => ?_
    obtain ⟨_, solid, _⟩ := matched_told scanned mem
    exact (kept_row _).trans <| kept_matchedCard (hosts e mem) solid (ports e mem).1 (ports e mem).2
  rw [normalise_saveBody, collectRows_eq, chosen_renderCards hosts, fine, rows]
  cases data.matched <;> rfl

/-- A proxy that answers with the name of its mower. -/
def oneProxy : List (List UInt8 × String) :=
  [(Utf8.encode "HC33-PROXY chip_id=A49DF4 proxy_port=9876 bonded_name=Luba-A".toList, "192.168.1.5")]

/-- What the scan proposes if the mower is one of the account. -/
def oneMatched : ScanResponse := ⟨[⟨"Luba-A", none, some "iot-a", "192.168.1.5", 9876, some "A49DF4", none⟩], [], []⟩

theorem proposal_saved_oneProxy :
    onboardScan [⟨"Luba-A", some "iot-a", none⟩] (discoverBlocking oneProxy) (discoverBlocking []) = some oneMatched ∧
    normalise (saveBody (collectRows (renderCards oneMatched))) = .ok (oneMatched.matched.map proposedRow) := by
  have scanned : onboardScan [⟨"Luba-A", some "iot-a", none⟩] (discoverBlocking oneProxy) (discoverBlocking []) =
      some oneMatched := rfl
  have ports : ∀ e ∈ oneMatched.matched, 0 < e.hc33Port ∧ e.hc33Port < 2 ^ 53 := by
    intro e mem
    cases List.mem_singleton.mp mem
    decide
  have addresses : ∀ packet ∈ oneProxy ++ [], IsAddress packet.2 := by
    intro packet mem
    cases List.mem_singleton.mp mem
    exact ⟨by decide, PyText.forall_of_all rfl⟩
  have some_ : ¬ oneMatched.matched = [] := List.cons_ne_nil _ _
  exact ⟨scanned, (proposal_saved _ oneProxy [] oneMatched scanned addresses ports).trans (if_neg some_)⟩

end MammotionRc.Web
