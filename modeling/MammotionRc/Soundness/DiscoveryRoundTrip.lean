import MammotionRc.Firmware.Discovery
import MammotionRc.Server.Discover

/-! # A discovery reply on the wire

What the proxy announces reaches the server as it was announced if the whole line fits into the buffer of the
proxy and the name of the mower has no white space, and only then: a longer line is sent with the NUL of the
buffer and what lies behind it, and white space ends the name at the server.
-/

namespace MammotionRc.Firmware

open Machine Server

/-- A name that a BLE device may advertise. -/
structure BleName where
  text : List Char
  clean : '\x00' ∉ text

def BleName.announced (name : BleName) : List Char := if name.text = [] then "none".toList else name.text

/-- The answer to the probe is the text that was formatted, lies in the buffer, and reads as it was meant. -/
structure Survives (memory : ℕ → UInt8) (chipId : ChipId) (kVariant : Variant) (proxyPort : UInt16)
    (name : BleName) (datagram : List UInt8) : Prop where
  sent : discoveryAnswer memory chipId kVariant proxyPort (Utf8.encode name.text) PROBE = some datagram
  formatted : datagram = replyText chipId kVariant proxyPort (Utf8.encode name.text)
  inside : datagram.length ≤ replySize
  parsed : ∃ kv, parseReply (receivedBytes datagram) = some kv ∧ kv.get? "chip_id" = some (.ofList chipId.digits) ∧
    kv.get? "variant" = some (.ofList kVariant.text) ∧ kv.get? "proxy_port" = some (toString proxyPort.toNat) ∧
    kv.get? "bonded_name" = some (.ofList name.announced)

/-- The line fits into the buffer: of the 159 bytes, 59 are the same for every proxy. -/
def Fits (kVariant : Variant) (proxyPort : UInt16) (name : BleName) : Prop :=
  kVariant.text.length + (Nat.toDigits 10 proxyPort.toNat).length + (Utf8.encode name.announced).length ≤ 100

/-- The name has no white space. -/
def BleName.Solid (name : BleName) : Prop := ∀ c ∈ name.announced, PyText.isSpace c = false

variable {memory : ℕ → UInt8} {chipId : ChipId} {kVariant : Variant} {proxyPort : UInt16} {name : BleName}
  {datagram : List UInt8} {c : Char}

/-- The tokens of a reply. -/
def replyTokens (chipId : ChipId) (kVariant : Variant) (proxyPort : UInt16) : List (List Char) :=
  ["HC33-PROXY".toList, "chip_id=".toList ++ chipId.digits, "variant=".toList ++ kVariant.text,
    "proxy_port=".toList ++ Nat.toDigits 10 proxyPort.toNat]

theorem announced_encode (name : BleName) : announced (Utf8.encode name.text) = Utf8.encode name.announced := by
  rw [Firmware.announced, BleName.announced]
  have empty : Utf8.encode name.text = [] ↔ name.text = [] := by
    cases name.text with
    | nil => exact iff_of_true rfl rfl
    | cons c rest => simp [String.utf8EncodeChar_ne_nil]
  simp only [empty]
  split <;> rfl

theorem clean_announced (name : BleName) : '\x00' ∉ name.announced := by
  rw [BleName.announced]
  split
  · decide
  · exact name.clean

/-- The text of a reply is the encoding of its tokens. -/
theorem replyText_eq : replyText chipId kVariant proxyPort (Utf8.encode name.text) =
    Utf8.encode ((replyTokens chipId kVariant proxyPort).flatMap (· ++ [' ']) ++
      ("bonded_name=".toList ++ name.announced)) := by
  have chip : "HC33-PROXY chip_id=".toList = "HC33-PROXY".toList ++ ([' '] ++ "chip_id=".toList) := by simp
  have variant : " variant=".toList = [' '] ++ "variant=".toList := by simp
  have port : " proxy_port=".toList = [' '] ++ "proxy_port=".toList := by simp
  have bonded : " bonded_name=".toList = [' '] ++ "bonded_name=".toList := by simp
  rw [replyText, announced_encode, cstr_eq_self (Utf8.zero_notMem_encode (clean_announced name)), chip, variant, port,
    bonded]
  simp only [replyTokens, List.flatMap_cons, List.flatMap_nil, Utf8.encode_append, List.append_assoc, List.append_nil]

theorem graphic_of_isDigit (digit : c.isDigit = true) : 0x20 < c.toNat ∧ c.toNat < 0x7F := by
  refine Hex.graphic_of_isHexDigit ?_
  rw [Char.isHexDigit, digit]
  rfl

theorem graphic_of_mem_toDigits (mem : c ∈ Nat.toDigits 10 proxyPort.toNat) : 0x20 < c.toNat ∧ c.toNat < 0x7F :=
  graphic_of_isDigit (Nat.isDigit_of_mem_toDigits (by decide) (by decide) mem)

theorem graphic_of_mem_variant (mem : c ∈ kVariant.text) : 0x20 < c.toNat ∧ c.toNat < 0x7F := by
  cases kVariant
  · have each : ∀ c ∈ Variant.wifi.text, 0x20 < c.toNat ∧ c.toNat < 0x7F := PyText.forall_of_all (by decide)
    exact each c mem
  · have each : ∀ c ∈ Variant.halow.text, 0x20 < c.toNat ∧ c.toNat < 0x7F := PyText.forall_of_all (by decide)
    exact each c mem

/-- A reply is 59 bytes and the three values. -/
theorem length_replyText (chipId : ChipId) (kVariant : Variant) (proxyPort : UInt16) (name : BleName) :
    (replyText chipId kVariant proxyPort (Utf8.encode name.text)).length =
    59 + kVariant.text.length + (Nat.toDigits 10 proxyPort.toNat).length + (Utf8.encode name.announced).length := by
  have chip : (Utf8.encode chipId.digits).length = 6 :=
    (Utf8.length_encode_of_ascii fun c mem => by have := Hex.graphic_of_isHexDigit (chipId.hex c mem); omega).trans
      chipId.six
  have variant : (Utf8.encode kVariant.text).length = kVariant.text.length :=
    Utf8.length_encode_of_ascii fun c mem => by have := graphic_of_mem_variant mem; omega
  have port : (Utf8.encode (Nat.toDigits 10 proxyPort.toNat)).length = (Nat.toDigits 10 proxyPort.toNat).length :=
    Utf8.length_encode_of_ascii fun c mem => by have := graphic_of_mem_toDigits mem; omega
  have labels : (Utf8.encode "HC33-PROXY chip_id=".toList).length = 19 ∧
      (Utf8.encode " variant=".toList).length = 9 ∧ (Utf8.encode " proxy_port=".toList).length = 12 ∧
      (Utf8.encode " bonded_name=".toList).length = 13 := ⟨rfl, rfl, rfl, rfl⟩
  rw [replyText, announced_encode, cstr_eq_self (Utf8.zero_notMem_encode (clean_announced name))]
  simp only [List.length_append, chip, variant, port, labels]
  omega

theorem snprintf_length {text : List UInt8} {size : ℕ} (small : text.length < 2 ^ 31) :
    (snprintf memory size text).2 = text.length := if_pos small

/-- A text that fits is sent as it is. -/
theorem snprintf_fits {text : List UInt8} {size : ℕ} (fits : text.length < size) :
    (List.range text.length).map (snprintf memory size text).1 = text := by
  refine List.ext_getElem (by simp) fun i inside _ => ?_
  have short : i < text.length := by simpa using inside
  have before : i < min text.length (size - 1) := by omega
  simp only [List.getElem_map, List.getElem_range, snprintf, if_pos before, List.getD_eq_getElem?_getD,
    List.getElem?_eq_getElem short, Option.getD_some]

/-- Of a text that does not fit, the NUL of the buffer is sent as well. -/
theorem snprintf_cut {text : List UInt8} {size n : ℕ} (nonempty : 0 < size) (cut : size ≤ text.length) (long : size ≤ n) :
    0 ∈ (List.range n).map (snprintf memory size text).1 := by
  refine List.mem_map.mpr ⟨size - 1, List.mem_range.mpr (by omega), ?_⟩
  have last : min text.length (size - 1) = size - 1 := by omega
  simp only [snprintf, last, lt_irrefl, if_true, if_false]

/-- The tokens in front of the name are printable. -/
theorem graphic_of_mem_replyTokens {token : List Char} (mem : token ∈ replyTokens chipId kVariant proxyPort)
    (inside : c ∈ token) : 0x20 < c.toNat ∧ c.toNat < 0x7F := by
  have labels : ∀ label ∈ ["HC33-PROXY".toList, "chip_id=".toList, "variant=".toList, "proxy_port=".toList],
      ∀ c ∈ label, 0x20 < c.toNat ∧ c.toNat < 0x7F := by
    simp only [List.forall_mem_cons]
    refine ⟨?_, ?_, ?_, ?_, nofun⟩ <;> exact PyText.forall_of_all (by decide)
  simp only [replyTokens, List.mem_cons, List.not_mem_nil, or_false] at mem
  rcases mem with rfl | rfl | rfl | rfl
  · exact labels _ (by simp) c inside
  · rcases List.mem_append.mp inside with label | value
    · exact labels _ (by simp) c label
    · exact Hex.graphic_of_isHexDigit (chipId.hex c value)
  · rcases List.mem_append.mp inside with label | value
    · exact labels _ (by simp) c label
    · exact graphic_of_mem_variant value
  · rcases List.mem_append.mp inside with label | value
    · exact labels _ (by simp) c label
    · exact graphic_of_mem_toDigits value

theorem zero_notMem_replyText : 0 ∉ replyText chipId kVariant proxyPort (Utf8.encode name.text) := by
  rw [replyText_eq]
  refine Utf8.zero_notMem_encode fun mem => ?_
  rcases List.mem_append.mp mem with mem | mem
  · obtain ⟨token, among, inside⟩ := List.mem_flatMap.mp mem
    rcases List.mem_append.mp inside with inside | blank
    · exact absurd (graphic_of_mem_replyTokens among inside).1 (by decide)
    · revert blank
      decide
  · rcases List.mem_append.mp mem with label | value
    · revert label
      decide
    · exact clean_announced name value

/-- Exactly the text is sent if and only if it fits. -/
theorem sent_text_iff : discoveryAnswer memory chipId kVariant proxyPort (Utf8.encode name.text) PROBE =
    some (replyText chipId kVariant proxyPort (Utf8.encode name.text)) ↔ Fits kVariant proxyPort name := by
  have probed : PROBE.take kProbe.length = kProbe := Utf8.take_encode (by decide)
  have length := length_replyText chipId kVariant proxyPort name
  rw [discoveryAnswer, if_neg (not_not.mpr probed)]
  dsimp only
  set text := replyText chipId kVariant proxyPort (Utf8.encode name.text)
  rw [Fits]
  constructor
  · intro sent
    by_contra wide
    have cut : replySize ≤ text.length := by
      rw [replySize]
      omega
    split_ifs at sent with positive
    have zero : 0 ∈ text := by
      rw [← Option.some.inj sent]
      refine snprintf_cut (by decide) cut ?_
      simp only [snprintf] at positive ⊢
      split_ifs at positive ⊢ with fits
      · rw [Int.toNat_natCast]
        exact cut
      · omega
    exact zero_notMem_replyText zero
  · intro fits
    have short : text.length < replySize := by
      rw [replySize]
      omega
    have rn : (snprintf memory replySize text).2 = text.length := snprintf_length (short.trans (by decide))
    have positive : 0 < (snprintf memory replySize text).2 := by omega
    rw [if_pos positive, rn, Int.toNat_natCast, snprintf_fits short]

/-- The tokens at the server are those of the reply and those of the name. -/
theorem split_line (rest : List Char) :
    PyText.split ((replyTokens chipId kVariant proxyPort).flatMap (· ++ [' ']) ++ rest) =
      replyTokens chipId kVariant proxyPort ++ PyText.split rest := by
  have each (tokens : List (List Char)) (solid : ∀ token ∈ tokens, token ≠ [] ∧ ∀ c ∈ token, PyText.isSpace c = false) :
      PyText.split (tokens.flatMap (· ++ [' ']) ++ rest) = tokens ++ PyText.split rest := by
    induction tokens with
    | nil => rfl
    | cons token tokens ih =>
      obtain ⟨nonempty, clean⟩ := solid token List.mem_cons_self
      rw [List.flatMap_cons, List.append_assoc, List.append_assoc, List.singleton_append,
        PyText.split_append_cons _ _ rfl, PyText.split_of_not_isSpace clean nonempty,
        ih fun token mem => solid token (List.mem_cons_of_mem _ mem)]
      rfl
  refine each _ fun token mem => ⟨?_, fun c inside => ?_⟩
  · simp only [replyTokens, List.mem_cons, List.not_mem_nil, or_false] at mem
    rcases mem with rfl | rfl | rfl | rfl <;> simp
  · obtain ⟨above, below⟩ := graphic_of_mem_replyTokens mem inside
    exact PyText.isSpace_of_graphic above below

theorem tokenPairs_append (first rest : List (List Char)) :
    tokenPairs (first ++ rest) = tokenPairs first ++ tokenPairs rest := by
  rw [tokenPairs, List.filter_append, List.map_append, tokenPairs, tokenPairs]

theorem tokenPairs_singleton {key : List Char} (value : List Char) (free : '=' ∉ key) :
    tokenPairs [key ++ '=' :: value] = [(.ofList key, .ofList value)] := by
  have mem : '=' ∈ key ++ '=' :: value := List.mem_append_right _ List.mem_cons_self
  have keeps : [key ++ '=' :: value].filter (fun token => decide ('=' ∈ token)) = [key ++ '=' :: value] :=
    List.filter_eq_self.mpr fun token only => decide_eq_true (List.mem_singleton.mp only ▸ mem)
  rw [tokenPairs, keeps, List.map_singleton, PyText.splitOnce_append key value free]

/-- The values at the server have no white space. -/
theorem not_isSpace_of_field {text : List Char} {key value : String}
    (at_ : (replyFields text).get? key = some value) (inside : c ∈ value.toList) : PyText.isSpace c = false := by
  obtain ⟨token, mem, same⟩ := List.mem_map.mp (OrderedDict.mem_of_get?_ofPairs at_)
  have among : token ∈ PyText.split text := List.mem_of_mem_drop (List.mem_filter.mp mem).1
  cases same
  rw [String.toList_ofList] at inside
  exact PyText.not_isSpace_of_mem_split among c (PyText.mem_of_mem_splitOnce inside)

/-- The fields of a reply whose name is one token. -/
theorem replyFields_line (solid : name.Solid) :
    replyFields ((replyTokens chipId kVariant proxyPort).flatMap (· ++ [' ']) ++
      ("bonded_name=".toList ++ name.announced)) =
    .ofPairs [("chip_id", .ofList chipId.digits), ("variant", .ofList kVariant.text),
      ("proxy_port", toString proxyPort.toNat), ("bonded_name", .ofList name.announced)] := by
  have label : ∀ c ∈ "bonded_name=".toList, PyText.isSpace c = false := PyText.forall_of_all (by decide)
  have last : PyText.split ("bonded_name=".toList ++ name.announced) = ["bonded_name=".toList ++ name.announced] :=
    PyText.split_of_not_isSpace (fun c mem => (List.mem_append.mp mem).elim (label c) (solid c)) (by simp)
  have chip : "chip_id=".toList = "chip_id".toList ++ ['='] := by simp
  have variant : "variant=".toList = "variant".toList ++ ['='] := by simp
  have port : "proxy_port=".toList = "proxy_port".toList ++ ['='] := by simp
  have bonded : "bonded_name=".toList = "bonded_name".toList ++ ['='] := by simp
  have cut : ((replyTokens chipId kVariant proxyPort) ++ ["bonded_name=".toList ++ name.announced]).drop 1 =
      ["chip_id".toList ++ '=' :: chipId.digits] ++ ["variant".toList ++ '=' :: kVariant.text] ++
        ["proxy_port".toList ++ '=' :: Nat.toDigits 10 proxyPort.toNat] ++
        ["bonded_name".toList ++ '=' :: name.announced] := by
    rw [replyTokens, chip, variant, port, bonded, List.append_assoc, List.append_assoc, List.append_assoc,
      List.append_assoc]
    rfl
  rw [replyFields, split_line, last, cut, tokenPairs_append, tokenPairs_append, tokenPairs_append,
    tokenPairs_singleton _ (by decide), tokenPairs_singleton _ (by decide), tokenPairs_singleton _ (by decide),
    tokenPairs_singleton _ (by decide)]
  simp only [List.cons_append, List.nil_append, String.ofList_toList, Nat.toString_eq_ofList_toDigits]

/-- The server takes the text for a reply. -/
theorem parseReply_replyText : parseReply (replyText chipId kVariant proxyPort (Utf8.encode name.text)) =
    some (replyFields ((replyTokens chipId kVariant proxyPort).flatMap (· ++ [' ']) ++
      ("bonded_name=".toList ++ name.announced))) := by
  rw [replyText_eq]
  refine parseReply_encode ?_
  rw [replyTokens, List.flatMap_cons, List.append_assoc, List.append_assoc]
  exact List.prefix_append _ _

theorem Survives.fits (survives : Survives memory chipId kVariant proxyPort name datagram) :
    Fits kVariant proxyPort name := by
  obtain ⟨sent, rfl, _⟩ := survives
  exact sent_text_iff.mp sent

theorem Survives.solid (survives : Survives memory chipId kVariant proxyPort name datagram) : name.Solid := by
  obtain ⟨_, rfl, inside, kv, parsed, _, _, _, bonded⟩ := survives
  have whole := List.take_of_length_le (inside.trans (by decide : replySize ≤ 512))
  rw [receivedBytes, whole, parseReply_replyText, Option.some.injEq] at parsed
  rw [← parsed] at bonded
  exact fun c mem => not_isSpace_of_field bonded (by rwa [String.toList_ofList])

/-- **A discovery reply survives the wire** exactly if it fits into the buffer and the name has no white space. -/
theorem reply_survives_iff (memory : ℕ → UInt8) (chipId : ChipId) (kVariant : Variant) (proxyPort : UInt16)
    (name : BleName) : (∃ datagram, Survives memory chipId kVariant proxyPort name datagram) ↔
      Fits kVariant proxyPort name ∧ name.Solid := by
  constructor
  · rintro ⟨datagram, survives⟩
    exact ⟨survives.fits, survives.solid⟩
  · rintro ⟨fits, solid⟩
    have length := length_replyText chipId kVariant proxyPort name
    have short : (replyText chipId kVariant proxyPort (Utf8.encode name.text)).length ≤ replySize := by
      rw [Fits] at fits
      rw [replySize]
      omega
    have whole := List.take_of_length_le (short.trans (by decide : replySize ≤ 512))
    refine ⟨_, sent_text_iff.mpr fits, rfl, short, ?_⟩
    rw [receivedBytes, whole, parseReply_replyText, replyFields_line solid]
    refine ⟨_, rfl, ?_, ?_, ?_, ?_⟩ <;> simp [OrderedDict.ofPairs, OrderedDict.get?_set]

/-- A mower whose name has a blank. -/
private def twoWords : BleName := ⟨"Luba 2".toList, by decide⟩

/-- The server knows it by the first word only. -/
theorem twoWords_lost :
    ¬ ∃ datagram, Survives (fun _ => 0xA5) (chipIdHex 0xA4 0x9D 0xF4) .wifi 9876 twoWords datagram := by
  rintro ⟨datagram, survives⟩
  exact absurd (survives.solid ' ' (by decide)) (by decide)

end MammotionRc.Firmware
