import MammotionRc.Machine.PrefixCode
import MammotionRc.Server.BlufiWifi

/-! # The list of access points is read back

The records of the Wi-Fi list are a code: the length byte says where a record ends. On any bytes the parser
returns the records of the longest stream in front and stops there.
-/

namespace MammotionRc.Server

open Machine

/-- A well-formed record: its length byte counts the RSSI byte and the bytes of the SSID. -/
structure WifiRecord where
  rssi : UInt8
  ssid : List UInt8
  fits : ssid.length + 1 ≤ 255

namespace WifiRecord

def length (r : WifiRecord) : ℕ := r.ssid.length + 1

def bytes (r : WifiRecord) : List UInt8 := UInt8.ofNat r.length :: r.rssi :: r.ssid

/-- The entry that the parser makes of a record. -/
def entry (r : WifiRecord) : ℤ × List Char := (signedByte r.rssi, Utf8.decodeReplace r.ssid)

theorem toNat_length (r : WifiRecord) : (UInt8.ofNat r.length).toNat = r.length := by
  have fits := r.fits
  rw [UInt8.toNat_ofNat', length]
  omega

theorem eq_of_starts {r s : WifiRecord} (start : r.bytes <+: s.bytes) : r = s := by
  have bodies : r.rssi :: r.ssid = s.rssi :: s.ssid := eq_of_counted r.fits s.fits start
  cases r
  cases s
  simp_all

/-- Bytes at the beginning of which the length byte and all that it counts are there. -/
theorem exists_starts {n : UInt8} {rest : List UInt8} (counts : 1 ≤ n.toNat) (there : n.toNat ≤ rest.length) :
    ∃ r : WifiRecord, r.bytes <+: n :: rest := by
  cases rest with
  | nil => simp at there; omega
  | cons rssi rest =>
    have below := n.toNat_lt
    have taken : (rest.take (n.toNat - 1)).length + 1 = n.toNat := by
      rw [List.length_take, List.length_cons] at *
      omega
    refine ⟨⟨rssi, rest.take (n.toNat - 1), by omega⟩, ?_⟩
    have byte : UInt8.ofNat ((rest.take (n.toNat - 1)).length + 1) = n := by rw [taken, UInt8.ofNat_toNat]
    simp only [bytes, length, byte, List.cons_prefix_cons, true_and]
    exact List.take_prefix _ _

end WifiRecord

/-- The format of the list. -/
def wifiList : PrefixCode WifiRecord UInt8 where
  encode := WifiRecord.bytes
  encode_ne_nil _ := List.cons_ne_nil _ _
  eq_of_starts := WifiRecord.eq_of_starts

variable {front tail : List UInt8} {aps : List (ℤ × List Char)}

/-- A pass over a complete record. -/
theorem parseBlufiWifiListFrom_record (front : List UInt8) (r : WifiRecord) (tail : List UInt8)
    (aps : List (ℤ × List Char)) :
    parseBlufiWifiListFrom (front ++ (r.bytes ++ tail)) front.length aps =
      parseBlufiWifiListFrom (front ++ r.bytes ++ tail) (front ++ r.bytes).length (aps ++ [r.entry]) := by
  have inside : front.length < (front ++ (r.bytes ++ tail)).length := by simp [WifiRecord.bytes]
  have whole : ¬(r.length < 1 ∨ (front ++ (r.bytes ++ tail)).length < front.length + 1 + r.length) := by
    simp [WifiRecord.bytes, WifiRecord.length]
    omega
  have head : (front ++ (r.bytes ++ tail))[front.length]? = some (UInt8.ofNat r.length) :=
    getElem?_append_length front _ 0
  have body : slice (front ++ (r.bytes ++ tail)) (front.length + 1) r.length = r.rssi :: r.ssid := by
    rw [slice_append]
    exact List.take_left' rfl
  have behind : (front ++ r.bytes).length = front.length + 1 + r.length := by
    simp [WifiRecord.bytes, WifiRecord.length]
    omega
  rw [parseBlufiWifiListFrom, if_pos inside, head, Option.bind_eq_bind, Option.bind_some, r.toNat_length,
    if_neg whole, body, behind, List.append_assoc]
  rfl

/-- Where no record starts, the loop ends. -/
theorem parseBlufiWifiListFrom_ends (ends : wifiList.Ends tail) :
    parseBlufiWifiListFrom (front ++ tail) front.length aps = some aps := by
  cases tail with
  | nil => rw [parseBlufiWifiListFrom, if_neg (by simp)]
  | cons n rest =>
    have head : (front ++ n :: rest)[front.length]? = some n := getElem?_append_length front _ 0
    have broken : n.toNat < 1 ∨ (front ++ n :: rest).length < front.length + 1 + n.toNat := by
      by_contra complete
      simp only [List.length_append, List.length_cons, not_or, Nat.not_lt] at complete
      obtain ⟨r, start⟩ := WifiRecord.exists_starts complete.1 (show n.toNat ≤ rest.length by omega)
      exact ends r start
    rw [parseBlufiWifiListFrom, if_pos (by simp), head, Option.bind_eq_bind, Option.bind_some, if_pos broken]

/-- The parser reads the records of a stream and stops behind them. -/
theorem parseBlufiWifiList_stream (ends : wifiList.Ends tail) (records : List WifiRecord) :
    parseBlufiWifiList (wifiList.stream records ++ tail) = some (records.map WifiRecord.entry) := by
  have read := wifiList.loop_stream parseBlufiWifiListFrom WifiRecord.entry parseBlufiWifiListFrom_record
    records [] tail []
  exact read.trans (parseBlufiWifiListFrom_ends ends)

/-! ## Access points -/

/-- An access point that the format has room for. -/
structure AccessPoint where
  rssi : ℤ
  ssid : List Char
  rssi_signed : -128 ≤ rssi ∧ rssi ≤ 127
  ssid_short : (Utf8.encode ssid).length ≤ 254

namespace AccessPoint

/-- The record of an access point. -/
def record (ap : AccessPoint) : WifiRecord where
  rssi := UInt8.ofInt ap.rssi
  ssid := Utf8.encode ap.ssid
  fits := Nat.succ_le_succ ap.ssid_short

/-- A length byte, the signed RSSI byte and the bytes of the SSID. -/
def encode (ap : AccessPoint) : List UInt8 :=
  UInt8.ofNat ((Utf8.encode ap.ssid).length + 1) :: UInt8.ofInt ap.rssi :: Utf8.encode ap.ssid

theorem signedByte_ofInt {n : ℤ} (low : -128 ≤ n) (high : n ≤ 127) : signedByte (UInt8.ofInt n) = n := by
  have byte : ((UInt8.ofInt n).toNat : ℤ) = n % 256 := by
    rw [UInt8.ofInt, UInt8.toNat_ofNat']
    omega
  rw [signedByte]
  split
  · omega
  · omega

theorem entry_record (ap : AccessPoint) : ap.record.entry = (ap.rssi, ap.ssid) := by
  rw [WifiRecord.entry, record, signedByte_ofInt ap.rssi_signed.1 ap.rssi_signed.2, Utf8.decodeReplace_encode]

end AccessPoint

/-- What is encoded is read back, and any bytes are read up to the end of their longest stream of records. -/
theorem wifiList_inverted :
    (∀ aps : List AccessPoint,
      parseBlufiWifiList (aps.flatMap AccessPoint.encode) = some (aps.map fun ap => (ap.rssi, ap.ssid))) ∧
    ∀ data, ∃ records, wifiList.IsLongest data records ∧
      parseBlufiWifiList data = some (records.map WifiRecord.entry) := by
  refine ⟨fun aps => ?_, fun data => ?_⟩
  · have stream : aps.flatMap AccessPoint.encode = wifiList.stream (aps.map AccessPoint.record) ++ [] := by
      rw [PrefixCode.stream, List.flatMap_map, List.append_nil]
      rfl
    rw [stream, parseBlufiWifiList_stream wifiList.ends_nil, List.map_map]
    exact congrArg some (List.map_congr_left fun ap _ => ap.entry_record)
  · obtain ⟨records, tail, rfl, ends⟩ := wifiList.exists_stream data
    exact ⟨records, wifiList.isLongest_of_ends ends, parseBlufiWifiList_stream ends records⟩

end MammotionRc.Server
