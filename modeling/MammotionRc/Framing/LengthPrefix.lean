import Mathlib.Data.List.Infix
import Mathlib.Tactic.Ring

/-! # Byte streams of length-prefixed frames

A frame on the wire is a two-byte big-endian length followed by that many bytes. `decodeFrames` is
the reference reading of a whole stream: zero-length frames carry nothing, the first length above the
bound ends the reading, and an incomplete frame at the end is not reported. The equations below say
what each kind of header does to the frames that a stream still holds.
-/

namespace MammotionRc.Framing

abbrev Bytes := List UInt8

/-- The length announced by a big-endian header. -/
def headerLength (hi lo : UInt8) : ℕ := hi.toNat <<< 8 ||| lo.toNat

theorem headerLength_eq (hi lo : UInt8) : headerLength hi lo = hi.toNat * 256 + lo.toNat := by
  have low : lo.toNat < 2 ^ 8 := lo.toNat_lt
  rw [headerLength, ← Nat.shiftLeft_add_eq_or_of_lt low, Nat.shiftLeft_eq]

/-- All payloads of a stream up to its first incomplete or oversize frame. -/
def decodeFrames (maxLen : ℕ) : Bytes → List Bytes
  | hi :: lo :: rest =>
    if headerLength hi lo = 0 then decodeFrames maxLen rest
    else if maxLen < headerLength hi lo then []
    else if headerLength hi lo ≤ rest.length then
      rest.take (headerLength hi lo) :: decodeFrames maxLen (rest.drop (headerLength hi lo))
    else []
  | _ => []
termination_by stream => stream.length
decreasing_by all_goals simp only [List.length_cons, List.length_drop]; omega

variable {maxLen : ℕ}

theorem decodeFrames_of_short {stream : Bytes} (short : stream.length < 2) :
    decodeFrames maxLen stream = [] := by
  match stream, short with
  | [], _ => rw [decodeFrames]; simp
  | [_], _ => rw [decodeFrames]; simp

theorem decodeFrames_zero {hi lo : UInt8} {rest : Bytes} (zero : headerLength hi lo = 0) :
    decodeFrames maxLen (hi :: lo :: rest) = decodeFrames maxLen rest := by
  rw [decodeFrames, if_pos zero]

/-- The frames of a stream whose next `len` bytes complete the payload `got ++ _`. -/
def decodeBody (maxLen len : ℕ) (got rest : Bytes) : List Bytes :=
  if len - got.length ≤ rest.length then
    (got ++ rest.take (len - got.length)) :: decodeFrames maxLen (rest.drop (len - got.length))
  else []

/-- An acceptable header leaves a stream that starts with its payload. -/
theorem decodeFrames_header {hi lo : UInt8} {rest : Bytes} (nonzero : headerLength hi lo ≠ 0)
    (fits : headerLength hi lo ≤ maxLen) :
    decodeFrames maxLen (hi :: lo :: rest) = decodeBody maxLen (headerLength hi lo) [] rest := by
  rw [decodeFrames, if_neg nonzero, if_neg (Nat.not_lt.mpr fits)]
  rfl

/-- Moving bytes from the stream into the payload under assembly changes no frame. -/
theorem decodeBody_advance (maxLen : ℕ) {len n : ℕ} {got rest : Bytes}
    (room : got.length + n ≤ len) (present : n ≤ rest.length) :
    decodeBody maxLen len (got ++ rest.take n) (rest.drop n) = decodeBody maxLen len got rest := by
  have taken : (got ++ rest.take n).length = got.length + n := by
    rw [List.length_append, List.length_take_of_le present]
  have split : len - got.length = n + (len - (got.length + n)) := by omega
  simp only [decodeBody, taken, List.length_drop, List.append_assoc]
  rw [split, List.take_add, List.drop_drop]
  by_cases enough : n + (len - (got.length + n)) ≤ rest.length
  · rw [if_pos enough, if_pos (by omega)]
  · rw [if_neg enough, if_neg (by omega)]

/-- A payload that is complete is the next frame. -/
theorem decodeBody_complete {len : ℕ} {got rest : Bytes} (complete : got.length = len) :
    decodeBody maxLen len got rest = got :: decodeFrames maxLen rest := by
  simp [decodeBody, complete]

/-! ## Encoding -/

/-- A payload behind its header; a length of `2 ^ 16` or more does not fit into it. -/
def encodeFrame (payload : Bytes) : Bytes :=
  UInt8.ofNat (payload.length >>> 8) :: UInt8.ofNat payload.length :: payload

@[simp] theorem encodeFrame_length (payload : Bytes) :
    (encodeFrame payload).length = payload.length + 2 := rfl

theorem headerLength_encode {n : ℕ} (short : n < 2 ^ 16) :
    headerLength (UInt8.ofNat (n >>> 8)) (UInt8.ofNat n) = n := by
  rw [headerLength_eq, UInt8.toNat_ofNat', UInt8.toNat_ofNat', Nat.shiftRight_eq_div_pow]
  omega

/-- Reading an encoded frame yields its payload, unless that is empty. -/
theorem decodeFrames_encodeFrame {payload rest : Bytes} (short : payload.length < 2 ^ 16)
    (fits : payload.length ≤ maxLen) :
    decodeFrames maxLen (encodeFrame payload ++ rest) =
      [payload].filter (· ≠ []) ++ decodeFrames maxLen rest := by
  have header := headerLength_encode short
  by_cases empty : payload = []
  · subst empty
    rw [encodeFrame, List.cons_append, List.cons_append, decodeFrames_zero header]
    rfl
  · have nonzero : payload.length ≠ 0 := fun zero => empty (List.length_eq_zero_iff.mp zero)
    have kept : [payload].filter (· ≠ []) = [payload] := by simp [empty]
    rw [encodeFrame, List.cons_append, List.cons_append, decodeFrames_header (by omega) (by omega), header,
      kept, decodeBody, if_pos (by simp)]
    simp

/-- A stream that breaks off inside its first frame yields nothing. -/
theorem decodeFrames_of_partial {payload stream : Bytes} (short : payload.length < 2 ^ 16)
    (part : stream <+: encodeFrame payload) (less : stream.length < (encodeFrame payload).length) :
    decodeFrames maxLen stream = [] := by
  match stream, part with
  | [], _ => exact decodeFrames_of_short (by decide)
  | [_], _ => exact decodeFrames_of_short (by simp)
  | hi :: lo :: rest, part =>
    obtain ⟨high, part⟩ := List.cons_prefix_cons.mp part
    obtain ⟨low, _⟩ := List.cons_prefix_cons.mp part
    have missing : rest.length < payload.length := by simpa using less
    have header := headerLength_encode short
    rw [decodeFrames, high, low, header, if_neg (by omega), if_neg (Nat.not_le.mpr missing)]
    exact ite_self []

/-- A stream that breaks off yields the payloads of the frames it carries in full. -/
theorem decodeFrames_of_prefix {payloads : List Bytes} {stream : Bytes}
    (short : ∀ payload ∈ payloads, payload.length < 2 ^ 16)
    (fits : ∀ payload ∈ payloads, payload.length ≤ maxLen) (part : stream <+: payloads.flatMap encodeFrame) :
    ∃ n, (payloads.take n).flatMap encodeFrame <+: stream ∧
      decodeFrames maxLen stream = (payloads.take n).filter (· ≠ []) ∧
      (n < payloads.length → stream.length < ((payloads.take (n + 1)).flatMap encodeFrame).length) := by
  induction payloads generalizing stream with
  | nil =>
    rw [List.flatMap_nil, List.prefix_nil] at part
    subst part
    exact ⟨0, List.prefix_refl _, decodeFrames_of_short (by decide), nofun⟩
  | cons payload later ih =>
    rw [List.flatMap_cons] at part
    have first := List.prefix_append (encodeFrame payload) (later.flatMap encodeFrame)
    have short' := short payload List.mem_cons_self
    by_cases whole : (encodeFrame payload).length ≤ stream.length
    · obtain ⟨rest, rfl⟩ := List.prefix_of_prefix_length_le first part whole
      rw [List.prefix_append_right_inj] at part
      obtain ⟨n, carried, decoded, bound⟩ := ih (fun p mem => short p (List.mem_cons_of_mem _ mem))
        (fun p mem => fits p (List.mem_cons_of_mem _ mem)) part
      refine ⟨n + 1, ?_, ?_, fun below => ?_⟩
      · rw [List.take_succ_cons, List.flatMap_cons]
        exact (List.prefix_append_right_inj _).mpr carried
      · rw [decodeFrames_encodeFrame short' (fits payload List.mem_cons_self), decoded, ← List.filter_append]
        rfl
      · rw [List.take_succ_cons, List.flatMap_cons, List.length_append, List.length_append]
        have := bound (Nat.lt_of_succ_lt_succ below)
        omega
    · have less := Nat.lt_of_not_le whole
      refine ⟨0, List.nil_prefix, ?_, fun _ => ?_⟩
      · exact decodeFrames_of_partial short' (List.prefix_of_prefix_length_le part first less.le) less
      · rw [List.take_succ_cons, List.flatMap_cons, List.length_append]
        omega

end MammotionRc.Framing
