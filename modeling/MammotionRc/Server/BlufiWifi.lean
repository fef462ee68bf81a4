import MammotionRc.Machine.Hex
import MammotionRc.Machine.Utf8

/-! # The Wi-Fi reports of the mower's BluFi firmware (wifi_over_proxy.py)

Both parsers read bytes at indices and slices of bytes. A byte that is not there raises an `IndexError`, which is
`none` here; a slice ends where the data end.
-/

namespace MammotionRc.Server

open Machine

/-- `data[i : i + n]`. -/
def slice (data : List UInt8) (i n : ℕ) : List UInt8 := (data.drop i).take n

theorem slice_append (front rest : List UInt8) (i n : ℕ) :
    slice (front ++ rest) (front.length + i) n = slice rest i n := by
  rw [slice, List.drop_length_add_append, slice]

theorem getElem?_append_length (front rest : List UInt8) (i : ℕ) : (front ++ rest)[front.length + i]? = rest[i]? := by
  rw [List.getElem?_append_right (Nat.le_add_right _ _), Nat.add_sub_cancel_left]

/-- Where a byte counts the bytes behind it, it says where they end. -/
theorem eq_of_counted {first second : List UInt8} (few : first.length ≤ 255) (few' : second.length ≤ 255)
    (start : UInt8.ofNat first.length :: first <+: UInt8.ofNat second.length :: second) : first = second := by
  obtain ⟨lengths, start⟩ := List.cons_prefix_cons.mp start
  have counts := congrArg UInt8.toNat lengths
  rw [UInt8.toNat_ofNat', UInt8.toNat_ofNat'] at counts
  exact start.eq_of_length (by omega)

/-- The signed value of an RSSI byte. -/
def signedByte (raw : UInt8) : ℤ := if 127 < raw.toNat then (raw.toNat : ℤ) - 256 else raw.toNat

/-- The loop of `_parse_blufi_wifi_list` at the index `i`. -/
def parseBlufiWifiListFrom (data : List UInt8) (i : ℕ) (aps : List (ℤ × List Char)) :
    Option (List (ℤ × List Char)) :=
  if i < data.length then do
    let recLen ← data[i]?
    if recLen.toNat < 1 ∨ data.length < i + 1 + recLen.toNat then some aps
    else do
      let rec_ := slice data (i + 1) recLen.toNat
      let rssiRaw ← rec_[0]?
      parseBlufiWifiListFrom data (i + 1 + recLen.toNat)
        (aps ++ [(signedByte rssiRaw, Utf8.decodeReplace (rec_.drop 1))])
  else some aps
termination_by data.length - i

def parseBlufiWifiList (data : List UInt8) : Option (List (ℤ × List Char)) := parseBlufiWifiListFrom data 0 []

/-- What the report says about an entry of extra information. -/
def tlvPart (t : UInt8) (v : List UInt8) : List Char :=
  if t = 0x01 ∧ v.length = 6 then "bssid=".toList ++ [':'].intercalate (v.map Hex.lowerByte)
  else if t = 0x02 then "SSID=".toList ++ Utf8.decodeReplace v
  else if t = 0x04 then "softap_ssid=".toList ++ Utf8.decodeReplace v
  else "tlv".toList ++ Nat.toDigits 10 t.toNat ++ '=' :: v.flatMap Hex.lowerByte

/-- The loop of `_parse_blufi_wifi_status` at the index `i`. -/
def parseBlufiWifiStatusFrom (data : List UInt8) (i : ℕ) (parts : List (List Char)) : Option (List (List Char)) :=
  if i + 2 ≤ data.length then do
    let t ← data[i]?
    let ln ← data[i + 1]?
    let v := slice data (i + 2) ln.toNat
    parseBlufiWifiStatusFrom data (i + 2 + ln.toNat) (parts ++ [tlvPart t v])
  else some parts
termination_by data.length - i

/-- `opmodes.get(opmode, opmode)`. -/
def opmodeName (opmode : UInt8) : List Char :=
  if opmode = 0 then "NULL".toList
  else if opmode = 1 then "STA".toList
  else if opmode = 2 then "SoftAP".toList
  else if opmode = 3 then "STA+SoftAP".toList
  else Nat.toDigits 10 opmode.toNat

/-- What the report says about the three bytes in front. -/
def statusParts (opmode staState softapCnt : UInt8) : List (List Char) :=
  [ "opmode=".toList ++ opmodeName opmode,
    "sta=".toList ++ (if staState = 0 then "CONNECTED".toList
      else "not-connected(".toList ++ Nat.toDigits 10 staState.toNat ++ ")".toList),
    "softap_clients=".toList ++ Nat.toDigits 10 softapCnt.toNat ]

/-- The text of a report. -/
def joinParts (parts : List (List Char)) : List Char := "  ".toList.intercalate parts

def parseBlufiWifiStatus (data : List UInt8) : Option (List Char) :=
  if data.length < 3 then some ("(short) raw=".toList ++ data.flatMap Hex.lowerByte)
  else do
    let opmode ← data[0]?
    let staState ← data[1]?
    let softapCnt ← data[2]?
    let parts ← parseBlufiWifiStatusFrom data 3 (statusParts opmode staState softapCnt)
    some (joinParts parts)

end MammotionRc.Server
