import MammotionRc.Machine.PrefixCode
import MammotionRc.Server.BlufiWifi

/-! # What the connection report makes of its records

Complete records are reported in order and in full. The loop goes on with two bytes or more behind them, and
then the slice of the value ends with the data: such a rest adds a part with a shortened value.
-/

namespace MammotionRc.Server

open Machine

/-- A complete entry of extra information: its type, the length of its value and the value. -/
structure TlvRecord where
  type : UInt8
  value : List UInt8
  fits : value.length ≤ 255

namespace TlvRecord

def bytes (r : TlvRecord) : List UInt8 := r.type :: UInt8.ofNat r.value.length :: r.value

/-- What the report says about the record. -/
def part (r : TlvRecord) : List Char := tlvPart r.type r.value

theorem toNat_length (r : TlvRecord) : (UInt8.ofNat r.value.length).toNat = r.value.length := by
  have fits := r.fits
  rw [UInt8.toNat_ofNat']
  omega

theorem eq_of_starts {r s : TlvRecord} (start : r.bytes <+: s.bytes) : r = s := by
  obtain ⟨type, start⟩ := List.cons_prefix_cons.mp start
  have value : r.value = s.value := eq_of_counted r.fits s.fits start
  cases r
  cases s
  simp_all

end TlvRecord

/-- The format of the extra information. -/
def extraInfo : PrefixCode TlvRecord UInt8 where
  encode := TlvRecord.bytes
  encode_ne_nil _ := List.cons_ne_nil _ _
  eq_of_starts := TlvRecord.eq_of_starts

variable {front tail v : List UInt8} {t ln : UInt8} {parts : List (List Char)}

theorem ends_of_short (short : tail.length < 2) : extraInfo.Ends tail := by
  intro r start
  have length : r.bytes.length ≤ tail.length := start.length_le
  simp only [TlvRecord.bytes, List.length_cons] at length
  omega

/-- A header starts a record unless bytes of the value are missing. -/
theorem ends_cons_cons : extraInfo.Ends (t :: ln :: v) ↔ v.length < ln.toNat := by
  refine ⟨fun ends => ?_, fun missing r start => ?_⟩
  · by_contra present
    have taken : (v.take ln.toNat).length = ln.toNat := List.length_take_of_le (Nat.not_lt.mp present)
    have below := ln.toNat_lt
    refine ends ⟨t, v.take ln.toNat, by omega⟩ ?_
    change t :: UInt8.ofNat (v.take ln.toNat).length :: v.take ln.toNat <+: t :: ln :: v
    rw [taken, UInt8.ofNat_toNat, List.cons_prefix_cons, List.cons_prefix_cons]
    exact ⟨rfl, rfl, List.take_prefix _ _⟩
  · obtain ⟨_, start⟩ := List.cons_prefix_cons.mp start
    obtain ⟨length, start⟩ := List.cons_prefix_cons.mp start
    have whole := start.length_le
    rw [← length, r.toNat_length] at missing
    omega

/-! ## The loop -/

/-- A pass over two bytes and what is there of the value that they announce. -/
theorem parseBlufiWifiStatusFrom_header :
    parseBlufiWifiStatusFrom (front ++ t :: ln :: v) front.length parts =
      parseBlufiWifiStatusFrom (front ++ t :: ln :: v) (front.length + 2 + ln.toNat)
        (parts ++ [tlvPart t (v.take ln.toNat)]) := by
  have inside : front.length + 2 ≤ (front ++ t :: ln :: v).length := by simp
  have type : (front ++ t :: ln :: v)[front.length]? = some t := getElem?_append_length front _ 0
  have length : (front ++ t :: ln :: v)[front.length + 1]? = some ln := getElem?_append_length front _ 1
  have value : slice (front ++ t :: ln :: v) (front.length + 2) ln.toNat = v.take ln.toNat := slice_append ..
  rw [parseBlufiWifiStatusFrom, if_pos inside, type, length]
  simp only [Option.bind_eq_bind, Option.bind_some, value]

theorem parseBlufiWifiStatusFrom_record (front : List UInt8) (r : TlvRecord) (tail : List UInt8)
    (parts : List (List Char)) :
    parseBlufiWifiStatusFrom (front ++ (r.bytes ++ tail)) front.length parts =
      parseBlufiWifiStatusFrom (front ++ r.bytes ++ tail) (front ++ r.bytes).length (parts ++ [r.part]) := by
  have behind : (front ++ r.bytes).length = front.length + 2 + r.value.length := by
    simp [TlvRecord.bytes]
    omega
  have value : (r.value ++ tail).take r.value.length = r.value := List.take_left' rfl
  have header : front ++ (r.bytes ++ tail) =
      front ++ r.type :: UInt8.ofNat r.value.length :: (r.value ++ tail) := rfl
  rw [List.append_assoc, header, parseBlufiWifiStatusFrom_header, r.toNat_length, value, behind, TlvRecord.part]

/-- What is added behind the last complete record. -/
def tailParts : List UInt8 → List (List Char)
  | t :: _ :: v => [tlvPart t v]
  | _ => []

theorem parseBlufiWifiStatusFrom_short {data : List UInt8} {i : ℕ} (short : data.length < i + 2) :
    parseBlufiWifiStatusFrom data i parts = some parts := by
  rw [parseBlufiWifiStatusFrom, if_neg (Nat.not_le.mpr short)]

/-- Where no record starts, the loop still takes a header for one. -/
theorem parseBlufiWifiStatusFrom_ends (ends : extraInfo.Ends tail) :
    parseBlufiWifiStatusFrom (front ++ tail) front.length parts = some (parts ++ tailParts tail) := by
  match tail, ends with
  | [], _ => rw [parseBlufiWifiStatusFrom_short (by simp), tailParts, List.append_nil]; simp
  | [_], _ => rw [parseBlufiWifiStatusFrom_short (by simp), tailParts, List.append_nil]; simp
  | t :: ln :: v, ends =>
    have missing := ends_cons_cons.mp ends
    rw [parseBlufiWifiStatusFrom_header, parseBlufiWifiStatusFrom_short (by simp; omega),
      List.take_of_length_le (Nat.le_of_lt missing), tailParts]

/-! ## The report -/

variable {opmode staState softapCnt : UInt8} {records : List TlvRecord}

/-- The text for three status bytes and some records. -/
def statusReport (opmode staState softapCnt : UInt8) (records : List TlvRecord) : List Char :=
  joinParts (statusParts opmode staState softapCnt ++ records.map TlvRecord.part)

/-- The report is about the three status bytes and the records of the longest stream behind them, and nothing more. -/
def ReportsExactly (data : List UInt8) : Prop :=
  ∃ opmode staState softapCnt extra records, data = opmode :: staState :: softapCnt :: extra ∧
    extraInfo.IsLongest extra records ∧
    parseBlufiWifiStatus data = some (statusReport opmode staState softapCnt records)

theorem parseBlufiWifiStatus_stream (ends : extraInfo.Ends tail) :
    parseBlufiWifiStatus (opmode :: staState :: softapCnt :: (extraInfo.stream records ++ tail)) =
      some (joinParts (statusParts opmode staState softapCnt ++ records.map TlvRecord.part ++ tailParts tail)) := by
  have read := extraInfo.loop_stream parseBlufiWifiStatusFrom TlvRecord.part parseBlufiWifiStatusFrom_record
    records [opmode, staState, softapCnt] tail (statusParts opmode staState softapCnt)
  have loop := read.trans (parseBlufiWifiStatusFrom_ends ends)
  rw [parseBlufiWifiStatus, if_neg (by simp)]
  simp only [List.getElem?_cons_zero, List.getElem?_cons_succ, Option.bind_eq_bind, Option.bind_some]
  exact (congrArg (Option.bind · fun parts => some (joinParts parts)) loop).trans rfl

theorem joinParts_concat (part : List Char) (some_ : parts ≠ []) :
    joinParts (parts ++ [part]) = joinParts parts ++ "  ".toList ++ part := by
  induction parts with
  | nil => exact absurd rfl some_
  | cons first rest ih =>
    cases rest with
    | nil => rw [List.singleton_append, joinParts, List.intercalate_cons_cons, joinParts, List.intercalate_singleton,
        List.intercalate_singleton]
    | cons second rest =>
      have joined := ih (List.cons_ne_nil _ _)
      rw [joinParts] at joined ⊢
      rw [List.cons_append, List.cons_append, List.intercalate_cons_cons, ← List.cons_append, joined, joinParts,
        joinParts, List.intercalate_cons_cons]
      simp only [List.append_assoc]

theorem not_reportsExactly (ends : extraInfo.Ends tail) (long : 2 ≤ tail.length) :
    ¬ReportsExactly (opmode :: staState :: softapCnt :: (extraInfo.stream records ++ tail)) := by
  rintro ⟨_, _, _, _, others, same, longest, reported⟩
  simp only [List.cons.injEq] at same
  obtain ⟨rfl, rfl, rfl, rfl⟩ := same
  have same : others = records := longest.unique (extraInfo.isLongest_of_ends ends)
  obtain ⟨part, added⟩ : ∃ part, tailParts tail = [part] := by
    match tail, long with
    | t :: _ :: v, _ => exact ⟨_, rfl⟩
  have some_ : statusParts opmode staState softapCnt ++ records.map TlvRecord.part ≠ [] :=
    List.append_ne_nil_of_left_ne_nil (List.cons_ne_nil _ _) _
  rw [parseBlufiWifiStatus_stream ends, added, same, statusReport, Option.some_inj, joinParts_concat part some_]
    at reported
  have separator : "  ".toList.length = 2 := by decide
  have lengths := congrArg List.length reported
  rw [List.length_append, List.length_append, separator] at lengths
  omega

theorem reportsExactly_of_short (short : tail.length < 2) :
    ReportsExactly (opmode :: staState :: softapCnt :: (extraInfo.stream records ++ tail)) := by
  have ends := ends_of_short short
  have none_added : tailParts tail = [] := by
    match tail, short with
    | [], _ => rfl
    | [_], _ => rfl
  refine ⟨opmode, staState, softapCnt, _, records, rfl, extraInfo.isLongest_of_ends ends, ?_⟩
  rw [parseBlufiWifiStatus_stream ends, none_added, List.append_nil, statusReport]

/-- The parser ends on all bytes. Its report is exact for those payloads whose extra information is made of
complete records, with at most one byte behind them. -/
theorem reportsExactly_iff (data : List UInt8) :
    (∃ report, parseBlufiWifiStatus data = some report) ∧
    (ReportsExactly data ↔ ∃ opmode staState softapCnt records tail,
      data = opmode :: staState :: softapCnt :: (extraInfo.stream records ++ tail) ∧ tail.length < 2) := by
  refine ⟨?_, ?_, ?_⟩
  · by_cases short : data.length < 3
    · exact ⟨_, if_pos short⟩
    · match data, short with
      | [], short => exact absurd (by simp) short
      | [_], short => exact absurd (by simp) short
      | [_, _], short => exact absurd (by simp) short
      | opmode :: staState :: softapCnt :: extra, _ =>
        obtain ⟨records, tail, rfl, ends⟩ := extraInfo.exists_stream extra
        exact ⟨_, parseBlufiWifiStatus_stream ends⟩
  · intro reported
    obtain ⟨opmode, staState, softapCnt, extra, _, rfl, _⟩ := id reported
    obtain ⟨records, tail, rfl, ends⟩ := extraInfo.exists_stream extra
    refine ⟨opmode, staState, softapCnt, records, tail, rfl, ?_⟩
    by_contra long
    exact not_reportsExactly ends (Nat.not_lt.mp long) reported
  · rintro ⟨opmode, staState, softapCnt, records, tail, rfl, short⟩
    exact reportsExactly_of_short short

/-- The first two bytes of a network name of five are reported as the name. -/
theorem shortenedSsid_reported :
    parseBlufiWifiStatus [1, 0, 0, 2, 5, 0x61, 0x62] =
      some "opmode=STA  sta=CONNECTED  softap_clients=0  SSID=ab".toList ∧
    ¬ReportsExactly [1, 0, 0, 2, 5, 0x61, 0x62] := by
  have ends : extraInfo.Ends [2, 5, 0x61, 0x62] := ends_cons_cons.mpr (by decide)
  have header : parseBlufiWifiStatus (1 :: 0 :: 0 :: (extraInfo.stream [] ++ [2, 5, 0x61, 0x62])) = _ :=
    parseBlufiWifiStatus_stream ends
  have not_exact : ¬ReportsExactly (1 :: 0 :: 0 :: (extraInfo.stream [] ++ [2, 5, 0x61, 0x62])) :=
    not_reportsExactly ends (by decide)
  refine ⟨header.trans ?_, not_exact⟩
  decide

end MammotionRc.Server
