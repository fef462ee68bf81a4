import MammotionRc.Firmware.HalowScan
import MammotionRc.Machine.Grouping
import MammotionRc.Soundness.ElementsParsed

/-! # A scan lists the networks it has seen

The parser of `HalowScan.cpp` agrees with the one in `mmutils_wlan.c`, except that it reads one byte behind the buffer
if the list of elements ends in a type without a length. What is listed are the first results of the different
networks, as many as there are records.
-/

namespace MammotionRc.Firmware

open Framing Machine

/-! ## The parser of the scan -/

variable {ies front tail stream : Bytes} {e : Element} {skipped : List Element}

theorem parseRsnInformationFrom_element (front stream : Bytes) (e : Element) :
    parseRsnInformationFrom (front ++ (e.encode ++ stream)) front.length =
      if e.type = MM_RSN_INFORMATION_IE_TYPE then
        (parseRsnBody (front ++ (e.encode ++ stream)) (front.length + 2) (UInt8.ofNat e.body.length)).map fun parsed =>
          (if parsed.1 then 1 else -1, parsed.2)
      else parseRsnInformationFrom (front ++ e.encode ++ stream) (front ++ e.encode).length := by
  obtain ⟨type, length⟩ := getElem?_header front stream e
  have size := e.length_encode
  have more : front.length < (front ++ (e.encode ++ stream)).length := by
    simp only [List.length_append]
    omega
  have whole : ¬ front.length + 2 + (UInt8.ofNat e.body.length).toNat > (front ++ (e.encode ++ stream)).length := by
    rw [e.toNat_length]
    simp only [List.length_append]
    omega
  rw [parseRsnInformationFrom, dif_pos more, type, length, Option.bind_eq_bind, Option.bind_some, Option.bind_some,
    if_neg whole, e.toNat_length, List.length_append, e.length_encode, List.append_assoc]
  split_ifs
  · cases parseRsnBody _ _ _ <;> rfl
  · rfl

theorem parseRsnInformationFrom_skip (front stream : Bytes)
    (others : ∀ x ∈ skipped, x.type ≠ MM_RSN_INFORMATION_IE_TYPE) :
    parseRsnInformationFrom (front ++ (encodeElements skipped ++ stream)) front.length =
      parseRsnInformationFrom (front ++ encodeElements skipped ++ stream) (front ++ encodeElements skipped).length := by
  induction skipped generalizing front with
  | nil => simp only [encodeElements_nil, List.nil_append, List.append_nil]
  | cons e skipped ih =>
    obtain ⟨other, others⟩ := List.forall_mem_cons.mp others
    rw [encodeElements_cons, List.append_assoc, parseRsnInformationFrom_element, if_neg other, ih _ others]
    simp only [List.append_assoc]

theorem parseRsnInformationFrom_tail (front : Bytes) (cut : Cut tail) :
    parseRsnInformationFrom (front ++ tail) front.length =
      if tail.length = 1 then none
      else some (if cutType tail = some MM_RSN_INFORMATION_IE_TYPE then -1 else 0, .zero) := by
  rcases tail with _ | ⟨type, _ | ⟨length, rest⟩⟩
  · rw [parseRsnInformationFrom, dif_neg (by simp)]
    rfl
  · rw [parseRsnInformationFrom, dif_pos (by simp), List.getElem?_append_right (Nat.le_refl _),
      List.getElem?_append_right (Nat.le_add_right ..), Nat.sub_self, Nat.add_sub_cancel_left]
    rfl
  · have less := cut type length rest rfl
    have first : (front ++ type :: length :: rest)[front.length]? = some type := by simp
    have second : (front ++ type :: length :: rest)[front.length + 1]? = some length := by simp
    have beyond : front.length + 2 + length.toNat > (front ++ type :: length :: rest).length := by
      simp only [List.length_append, List.length_cons]
      omega
    rw [parseRsnInformationFrom, dif_pos (by simp), first, second, Option.bind_eq_bind, Option.bind_some,
      Option.bind_some, if_pos beyond, parseRsnInformationFrom, dif_neg (by omega)]
    have long : (type :: length :: rest).length ≠ 1 := by simp
    simp only [cutType, Option.some.injEq, if_neg long]
    split_ifs <;> rfl

theorem parseRsnInformation_found (stream : Bytes) (others : ∀ x ∈ skipped, x.type ≠ MM_RSN_INFORMATION_IE_TYPE)
    (type : e.type = MM_RSN_INFORMATION_IE_TYPE) :
    parseRsnInformation (encodeElements skipped ++ (e.encode ++ stream)) =
      (parseRsnBody (encodeElements skipped ++ (e.encode ++ stream)) ((encodeElements skipped).length + 2)
        (UInt8.ofNat e.body.length)).map fun parsed => (if parsed.1 then 1 else -1, parsed.2) := by
  have whole := parseRsnInformationFrom_skip [] (e.encode ++ stream) others
  rw [List.nil_append, List.nil_append, parseRsnInformationFrom_element, if_pos type] at whole
  exact whole

theorem parseRsnInformation_missing {es : List Element} (cut : Cut tail)
    (others : ∀ x ∈ es, x.type ≠ MM_RSN_INFORMATION_IE_TYPE) : parseRsnInformation (encodeElements es ++ tail) =
      if tail.length = 1 then none
      else some (if cutType tail = some MM_RSN_INFORMATION_IE_TYPE then -1 else 0, .zero) := by
  have whole := parseRsnInformationFrom_skip [] tail others
  rw [List.nil_append, List.nil_append, parseRsnInformationFrom_tail _ cut] at whole
  exact whole

/-- The codes of the copy. -/
def scanCode (ret : ℤ) : ℤ := if ret = 0 then 1 else if ret = -1 then 0 else -1

/-- **The two parsers agree.** On every buffer the parser of the scan comes to the same as the other, in its own codes,
unless there is no RSN element and a lone type ends the list: then it reads behind the buffer. -/
theorem scan_parser_agrees (ies : Bytes) :
    parseRsnInformation ies =
      if firstBody ies MM_RSN_INFORMATION_IE_TYPE = none ∧ (decodeElements ies).2.length = 1 then none
      else (mmParseRsnInformation ies).map fun parsed => (scanCode parsed.1, parsed.2) := by
  obtain ⟨skipped, e, stream, rfl, others, type, first⟩ | ⟨es, tail, rfl, cut, others, decoded, none_⟩ :=
    firstBody_cases ies MM_RSN_INFORMATION_IE_TYPE
  · rw [first, if_neg (by simp), mmParseRsnInformation_found others type, parseRsnInformation_found stream others type,
      Option.map_map]
    congr 1
    funext parsed
    obtain ⟨taken, output⟩ := parsed
    cases taken <;> rfl
  · rw [none_, decoded, mmParseRsnInformation_missing cut others, parseRsnInformation_missing cut others]
    simp only [true_and]
    split_ifs <;> rfl

/-! ## The security of a network -/

/-- The security type that a scan writes down, if its parser stays in the buffer. -/
def securityOf (ies : Bytes) : Option SecurityType :=
  (parseRsnInformation ies).map fun parsed => scanSecurityType .other parsed.1 parsed.2

/-- What the first suite tells. -/
def akmSecurity : List UInt32 → SecurityType
  | [] => .open
  | suite :: _ =>
    if suite = AKM_SUITE_SAE then .sae else if suite = AKM_SUITE_OWE then .owe
    else if suite = AKM_SUITE_NONE then .open else .other

theorem keptSuites_eq_zero {n : ℕ} (lt : n < 2 ^ 16) : keptSuites (UInt16.ofNat n) = 0 ↔ n = 0 := by
  have num : (UInt16.ofNat n).toNat = n := by rw [UInt16.toNat_ofNat', Nat.mod_eq_of_lt lt]
  rw [keptSuites, num]
  split_ifs with many
  · have nonzero : n ≠ 0 := by
      rintro rfl
      exact absurd many (Nat.not_lt_zero _)
    simp [nonzero]
  · rw [← UInt16.toNat_inj, num]
    rfl

theorem scanSecurityType_kept (old : SecurityType) (r : Rsn) : scanSecurityType old 1 r.kept = akmSecurity r.akm := by
  have none_ : r.kept.numAkmSuites = 0 ↔ r.akm.length = 0 := keptSuites_eq_zero r.akm_lt
  rw [scanSecurityType, if_neg (by decide)]
  cases suites : r.akm with
  | nil => exact if_pos (none_.mpr (by rw [suites]; rfl))
  | cons suite more =>
    have some_ : ¬ r.kept.numAkmSuites = 0 := by
      rw [none_, suites]
      exact Nat.succ_ne_zero _
    have first : r.kept.akmSuites[0] = suite := by
      change (clipSuites r.akm)[0] = suite
      rw [getElem_clip, suites]
      rfl
    rw [if_neg some_, if_pos (by decide), first]
    rfl

theorem scan_security (ies : Bytes) :
    (∀ (r : Rsn) (more : Bytes), firstBody ies MM_RSN_INFORMATION_IE_TYPE = some (r.encode ++ more) →
      securityOf ies = some (akmSecurity r.akm)) ∧
    (∀ body, firstBody ies MM_RSN_INFORMATION_IE_TYPE = some body → (∀ r : Rsn, ¬ r.encode <+: body) →
      securityOf ies = some .other) ∧
    (firstBody ies MM_RSN_INFORMATION_IE_TYPE = none → securityOf ies =
      if (decodeElements ies).2.length = 1 then none
      else some (if cutType (decodeElements ies).2 = some MM_RSN_INFORMATION_IE_TYPE then .other else .open)) := by
  obtain ⟨skipped, e, stream, rfl, others, type, first⟩ | ⟨es, tail, rfl, cut, others, decoded, none_⟩ :=
    firstBody_cases ies MM_RSN_INFORMATION_IE_TYPE
  · rw [first, securityOf, parseRsnInformation_found stream others type]
    obtain ⟨takes, refuses⟩ := parseRsnBody_element (encodeElements skipped) e stream
    refine ⟨fun r more same => ?_, fun body same other => ?_, nofun⟩
    · rw [takes r more (Option.some.inj same)]
      exact congrArg some (scanSecurityType_kept .other r)
    · cases same
      obtain ⟨output, refused⟩ := refuses other
      rw [refused]
      rfl
  · rw [none_, decoded, securityOf, parseRsnInformation_missing cut others]
    refine ⟨nofun, nofun, fun _ => ?_⟩
    split_ifs <;> rfl

/-! ## The records -/

namespace HalowScan

variable {results : List MmwlanScanResult} {result : MmwlanScanResult}

/-- A field that is all written, from the bytes that are read. -/
theorem saferStrcpy_eq {n : ℕ} (dst dst' : CharArray n) (src : Bytes) : saferStrcpy dst src = saferStrcpy dst' src := by
  have same : strncpy dst.toList src n = strncpy dst'.toList src n := by
    rw [strncpy, strncpy, List.drop_of_length_le (Nat.le_of_eq dst.toList_length),
      List.drop_of_length_le (Nat.le_of_eq dst'.toList_length)]
  simp only [saferStrcpy, same]

/-- The security type is always written. -/
theorem scanSecurityType_eq {ies : Bytes} {parsed : ℤ × MmRsnInformation}
    (parses : parseRsnInformation ies = some parsed) (old old' : SecurityType) :
    scanSecurityType old parsed.1 parsed.2 = scanSecurityType old' parsed.1 parsed.2 := by
  obtain ⟨skipped, e, stream, rfl, others, type, _⟩ | ⟨es, tail, rfl, cut, others, _⟩ :=
    firstBody_cases ies MM_RSN_INFORMATION_IE_TYPE
  · rw [parseRsnInformation_found stream others type, Option.map_eq_some_iff] at parses
    obtain ⟨⟨taken, output⟩, _, rfl⟩ := parses
    cases taken <;> rfl
  · rw [parseRsnInformation_missing cut others] at parses
    split_ifs at parses
    all_goals
      cases parses
      rfl

/-- A record is all written. -/
theorem fill_eq (old old' : HalowScanResult) (result : MmwlanScanResult) : fill old result = fill old' result := by
  rw [fill, fill, saferStrcpy_eq old.ssid old'.ssid]
  cases parses : parseRsnInformation result.ies with
  | none => rfl
  | some parsed =>
    have security := scanSecurityType_eq parses old.securityType old'.securityType
    simp only [Option.bind_eq_bind, Option.bind_some, security]

theorem bssid_of_fill {old record : HalowScanResult} (filled : fill old result = some record) :
    record.bssid = result.bssid := by
  obtain ⟨ssid, _, filled⟩ := Option.bind_eq_some_iff.mp filled
  obtain ⟨parsed, _, filled⟩ := Option.bind_eq_some_iff.mp filled
  cases filled
  rfl

/-- What is printed of a record. -/
def lineOf (record : HalowScanResult) : Line :=
  ⟨cstr record.ssid.toList, record.rssi, some record.bssid, record.securityType⟩

/-- What is printed of a result, if what is read is in the frame: its SSID up to its length or its NUL. -/
def line (result : MmwlanScanResult) : Option Line :=
  if result.ssid.length < 33 ∧ 0 ∉ result.ssid then none
  else (securityOf result.ies).map fun security =>
    ⟨cstr (result.ssid.take (min result.ssidLen.toNat 32)), result.rssi, some result.bssid, security⟩

theorem cstr_set_zero {l : List UInt8} {i : ℕ} (inside : i < l.length) : cstr (l.set i 0) = (cstr l).take i := by
  rw [List.set_eq_take_append_cons_drop, if_pos inside, cstr_append_zero, cstr_take]

theorem cstr_endSsid {dst ssid : CharArray 33} {src : Bytes} (copied : saferStrcpy dst src = some ssid)
    (ssidLen : UInt8) : cstr (endSsid ssid ssidLen).toList = cstr (src.take (min ssidLen.toNat 32)) := by
  have cut : cstr ssid.toList = (cstr src).take 32 := by
    rw [saferStrcpy] at copied
    split_ifs at copied
    cases copied
    have long : 33 - 1 < (strncpy dst.toList src 33).length := by
      rw [length_strncpy, dst.toList_length]
      decide
    change cstr ((strncpy dst.toList src 33).set (33 - 1) 0) = _
    rw [cstr_set_zero long, strncpy, List.drop_of_length_le (Nat.le_of_eq dst.toList_length), List.append_nil,
      cstr_rightpad, cstr_take, cstr_cstr, List.take_take]
    rfl
  rw [cstr_take]
  by_cases room : ssidLen.toNat < 33
  · have ended : (endSsid ssid ssidLen).toList = ssid.toList.set ssidLen.toNat 0 :=
      congrArg List.Vector.toList (if_pos room)
    rw [ended, cstr_set_zero (by rw [ssid.toList_length]; exact room), cut, List.take_take]
  · have same : endSsid ssid ssidLen = ssid := if_neg room
    rw [same, cut, Nat.min_eq_right (by omega)]

theorem lineOf_fill (old : HalowScanResult) (result : MmwlanScanResult) :
    (fill old result).map lineOf = line result := by
  rw [line, fill]
  cases copied : saferStrcpy old.ssid result.ssid with
  | none =>
    rw [saferStrcpy] at copied
    split_ifs at copied with outside
    rw [if_pos outside]
    rfl
  | some ssid =>
    have inside : ¬ (result.ssid.length < 33 ∧ 0 ∉ result.ssid) := by
      intro outside
      rw [saferStrcpy, if_pos outside] at copied
      cases copied
    rw [if_neg inside, securityOf]
    cases parses : parseRsnInformation result.ies with
    | none => rfl
    | some parsed =>
      rw [Option.map_some, Option.map_some, scanSecurityType_eq parses .other old.securityType,
        ← cstr_endSsid copied result.ssidLen]
      rfl

/-! ## A whole scan -/

theorem length_records (s : HalowScan) (room : s.numScanResults < MAX_SCAN_RECORD_NUM) :
    s.records.length = s.numScanResults := by
  rw [records, List.length_take, Vector.length_toList]
  exact Nat.min_eq_left (Nat.le_of_lt room)

theorem take_set_self {l : List HalowScanResult} {i : ℕ} (inside : i < l.length) (record : HalowScanResult) :
    (l.set i record).take (i + 1) = l.take i ++ [record] := by
  rw [List.take_succ_eq_append_getElem (by rw [List.length_set]; exact inside), List.getElem_set_self, List.take_set,
    List.set_eq_of_length_le (List.length_take_le ..)]

/-- What one result does to the records. -/
theorem scanRxCallback_records {s : HalowScan} (room : s.numScanResults < MAX_SCAN_RECORD_NUM)
    (blank : HalowScanResult) (result : MmwlanScanResult) :
    (scanRxCallback s result).map records =
        (if s.records.length = MAX_SCAN_RECORD_NUM - 1 ∨ result.bssid ∈ s.records.map HalowScanResult.bssid then
          some s.records else (fill blank result).map fun record => s.records ++ [record]) ∧
      ∀ t, scanRxCallback s result = some t → t.numScanResults < MAX_SCAN_RECORD_NUM := by
  have seen : (s.records.any fun record => record.bssid = result.bssid) = true ↔
      result.bssid ∈ s.records.map HalowScanResult.bssid := by
    simp
  rw [length_records s room, scanRxCallback]
  by_cases full : s.numScanResults = MAX_SCAN_RECORD_NUM - 1
  · rw [if_pos full, if_pos (.inl full)]
    exact ⟨rfl, fun t same => by cases same; exact room⟩
  · rw [if_neg full]
    by_cases known : result.bssid ∈ s.records.map HalowScanResult.bssid
    · rw [if_pos (seen.mpr known), if_pos (.inr known)]
      exact ⟨rfl, fun t same => by cases same; exact room⟩
    · rw [if_neg (mt seen.mp known), dif_pos room, if_neg (not_or.mpr ⟨full, known⟩),
        fill_eq s.apRecord[s.numScanResults] blank]
      cases fill blank result with
      | none => exact ⟨rfl, nofun⟩
      | some record =>
        constructor
        · change some ((s.apRecord.set s.numScanResults record room).toList.take (s.numScanResults + 1)) =
            some (s.apRecord.toList.take s.numScanResults ++ [record])
          rw [Vector.toList_set, take_set_self (by rw [Vector.length_toList]; exact room)]
        · intro t same
          cases same
          change s.numScanResults + 1 < MAX_SCAN_RECORD_NUM
          omega

theorem bssids_of_mapM {blank : HalowScanResult} {recorded : List HalowScanResult}
    (filled : results.mapM (fill blank) = some recorded) :
    recorded.map HalowScanResult.bssid = results.map MmwlanScanResult.bssid := by
  induction results generalizing recorded with
  | nil =>
    cases filled
    rfl
  | cons result results ih =>
    rw [List.mapM_cons] at filled
    obtain ⟨record, first, filled⟩ := Option.bind_eq_some_iff.mp filled
    obtain ⟨others, more, filled⟩ := Option.bind_eq_some_iff.mp filled
    cases filled
    rw [List.map_cons, List.map_cons, bssid_of_fill first, ih more]

/-- The results that are recorded. -/
def kept (results : List MmwlanScanResult) : List MmwlanScanResult :=
  (firstOfEach MmwlanScanResult.bssid results).take (MAX_SCAN_RECORD_NUM - 1)

theorem kept_concat (results : List MmwlanScanResult) (result : MmwlanScanResult) :
    kept (results ++ [result]) =
      if (kept results).length = MAX_SCAN_RECORD_NUM - 1 ∨ result.bssid ∈ (kept results).map MmwlanScanResult.bssid then
        kept results else kept results ++ [result] := by
  rw [kept, kept, take_firstOfEach_concat]
  congr

/-- The records after any results, whatever was recorded before. -/
theorem foldlM_records (s : HalowScan) (blank : HalowScanResult) (results : List MmwlanScanResult) :
    (results.foldlM scanRxCallback s.scanNetworks).map records = (kept results).mapM (fill blank) ∧
      ∀ t, results.foldlM scanRxCallback s.scanNetworks = some t → t.numScanResults < MAX_SCAN_RECORD_NUM := by
  induction results using List.reverseRecOn with
  | nil =>
    refine ⟨rfl, fun t same => ?_⟩
    cases same
    exact Nat.zero_lt_succ _
  | append_singleton results result ih =>
    rw [List.foldlM_append, kept_concat]
    cases reached : results.foldlM scanRxCallback s.scanNetworks with
    | none =>
      have nothing : (kept results).mapM (fill blank) = none := by rw [← ih.1, reached]; rfl
      refine ⟨?_, nofun⟩
      split_ifs
      · exact nothing.symm
      · rw [List.mapM_append, nothing]
        rfl
    | some t =>
      have filled : (kept results).mapM (fill blank) = some t.records := by rw [← ih.1, reached]; rfl
      have room := ih.2 t reached
      obtain ⟨now, room'⟩ := scanRxCallback_records room blank result
      have bssids := bssids_of_mapM filled
      have lengths : t.records.length = (kept results).length := by
        rw [← List.length_map (f := HalowScanResult.bssid), bssids, List.length_map]
      have last : [result].foldlM scanRxCallback t = scanRxCallback t result := by
        rw [List.foldlM_cons]
        exact bind_pure _
      rw [Option.bind_eq_bind, Option.bind_some, last]
      refine ⟨?_, room'⟩
      rw [now, lengths, bssids]
      split_ifs with skips
      · exact filled.symm
      · rw [List.mapM_append, filled]
        cases record : fill blank result <;> simp [record]

theorem mapM_line (blank : HalowScanResult) (results : List MmwlanScanResult) :
    (results.mapM (fill blank)).map (List.map lineOf) = results.mapM line := by
  induction results with
  | nil => rfl
  | cons result results ih =>
    rw [List.mapM_cons, List.mapM_cons, ← lineOf_fill blank result, ← ih]
    cases fill blank result with
    | none => rfl
    | some record => cases List.mapM (fill blank) results <;> rfl

/-- Once the scan is done the accessors read the records. -/
theorem lines_scanDone (s : HalowScan) (room : s.numScanResults < MAX_SCAN_RECORD_NUM) :
    s.scanDone.lines = s.records.map lineOf := by
  refine List.ext_getElem ?_ fun i bound bound' => ?_
  · rw [lines, List.length_map, List.length_range, List.length_map, length_records s room]
    rfl
  · rw [List.length_map, length_records s room] at bound'
    have index : (UInt8.ofNat i).toNat = i := by
      rw [UInt8.toNat_ofNat', Nat.mod_eq_of_lt (by change s.numScanResults < 10 at room; omega)]
    have inside : i < MAX_SCAN_RECORD_NUM := by omega
    have read : s.scanDone.record? (UInt8.ofNat i) = some s.apRecord[i] := by
      rw [record?, index]
      exact (if_pos bound').trans (Vector.getElem?_eq_getElem inside)
    simp only [lines, List.getElem_map, List.getElem_range, ssid, rssi, bssid, encryptionType, read, records,
      List.getElem_take, Vector.getElem_toList]
    rfl

/-- **A scan lists the networks it has seen.** Whatever results the driver hands over, and whatever was recorded before:
what is printed after the scan are the first results of the different BSSIDs, as many as there are records, each with
its SSID, signal and security; and there is a read outside the frame only if one of these results has it. -/
theorem scan_lists_first (s : HalowScan) (results : List MmwlanScanResult) :
    (results.foldlM scanRxCallback s.scanNetworks).map (fun t => t.scanDone.lines) =
      ((firstOfEach MmwlanScanResult.bssid results).take (MAX_SCAN_RECORD_NUM - 1)).mapM line := by
  obtain ⟨recorded, room⟩ := foldlM_records s s.apRecord[0] results
  change _ = (kept results).mapM line
  rw [← mapM_line s.apRecord[0], ← recorded, Option.map_map]
  cases reached : results.foldlM scanRxCallback s.scanNetworks with
  | none => rfl
  | some t => exact congrArg some (lines_scanDone t (room t reached))

end HalowScan

end MammotionRc.Firmware
