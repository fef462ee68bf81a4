import MammotionRc.Framing.LengthPrefix

/-! # Lists of elements with a type byte and a length byte

An element is its type, the length of its body and the body. Every byte string is the encoding of some elements and
a tail that is no whole element: too short for a header, or with a header that announces more than there is.
-/

namespace MammotionRc.Framing

structure Element where
  type : UInt8
  body : Bytes
  short : body.length < 256
deriving DecidableEq, Repr

def Element.encode (e : Element) : Bytes := e.type :: UInt8.ofNat e.body.length :: e.body

def encodeElements (es : List Element) : Bytes := es.flatMap Element.encode

/-- No element is whole at the start of the tail. -/
def Cut (tail : Bytes) : Prop :=
  ∀ type length rest, tail = type :: length :: rest → rest.length < length.toNat

/-- The type of the element that is cut off, if its header is there. -/
def cutType : Bytes → Option UInt8
  | type :: _ :: _ => some type
  | _ => none

/-- The whole elements of a byte string, and its tail. -/
def decodeElements : Bytes → List Element × Bytes
  | type :: length :: rest =>
    if whole : length.toNat ≤ rest.length then
      (⟨type, rest.take length.toNat, by rw [List.length_take_of_le whole]; exact length.toNat_lt⟩ ::
        (decodeElements (rest.drop length.toNat)).1, (decodeElements (rest.drop length.toNat)).2)
    else ([], type :: length :: rest)
  | tail => ([], tail)
termination_by bytes => bytes.length
decreasing_by all_goals simp only [List.length_cons, List.length_drop]; omega

/-- Where the first element with a property begins. -/
def offsetOf? (p : Element → Bool) : List Element → Option ℕ
  | [] => none
  | e :: es => if p e then some 0 else (offsetOf? p es).map (e.encode.length + ·)

variable {e : Element} {es : List Element} {tail : Bytes} {p : Element → Bool}

theorem Element.length_encode (e : Element) : e.encode.length = 2 + e.body.length := by
  rw [Element.encode, List.length_cons, List.length_cons]
  omega

theorem Element.toNat_length (e : Element) : (UInt8.ofNat e.body.length).toNat = e.body.length := by
  rw [UInt8.toNat_ofNat', Nat.mod_eq_of_lt e.short]

@[simp] theorem encodeElements_nil : encodeElements [] = [] := rfl

@[simp] theorem encodeElements_cons (e : Element) (es : List Element) :
    encodeElements (e :: es) = e.encode ++ encodeElements es := List.flatMap_cons ..

@[simp] theorem encodeElements_append (es fs : List Element) :
    encodeElements (es ++ fs) = encodeElements es ++ encodeElements fs := List.flatMap_append ..

@[simp] theorem offsetOf?_nil : offsetOf? p [] = none := rfl

theorem offsetOf?_cons (e : Element) (es : List Element) :
    offsetOf? p (e :: es) = if p e then some 0 else (offsetOf? p es).map (e.encode.length + ·) := rfl

/-- One whole element. -/
theorem decodeElements_whole {type length : UInt8} {rest : Bytes} (whole : length.toNat ≤ rest.length) :
    decodeElements (type :: length :: rest) =
      (⟨type, rest.take length.toNat, (List.length_take_of_le whole).trans_lt length.toNat_lt⟩ ::
        (decodeElements (rest.drop length.toNat)).1, (decodeElements (rest.drop length.toNat)).2) := by
  rw [decodeElements, dif_pos whole]

theorem decodeElements_cons (e : Element) (stream : Bytes) :
    decodeElements (e.encode ++ stream) = (e :: (decodeElements stream).1, (decodeElements stream).2) := by
  obtain ⟨type, body, short⟩ := e
  have length : (UInt8.ofNat body.length).toNat = body.length := Element.toNat_length ⟨type, body, short⟩
  have whole : (UInt8.ofNat body.length).toNat ≤ (body ++ stream).length := by
    rw [length, List.length_append]
    exact Nat.le_add_right ..
  rw [Element.encode, List.cons_append, List.cons_append, decodeElements_whole whole]
  simp only [length, List.take_left, List.drop_left]

theorem decodeElements_cut (cut : Cut tail) : decodeElements tail = ([], tail) := by
  rcases tail with _ | ⟨type, _ | ⟨length, rest⟩⟩
  · rw [decodeElements]
    exact nofun
  · rw [decodeElements]
    exact nofun
  · rw [decodeElements, dif_neg (Nat.not_le.mpr (cut type length rest rfl))]

/-- Elements and a tail are read back. -/
theorem decodeElements_encode (es : List Element) (cut : Cut tail) :
    decodeElements (encodeElements es ++ tail) = (es, tail) := by
  induction es with
  | nil => exact decodeElements_cut cut
  | cons e es ih => rw [encodeElements_cons, List.append_assoc, decodeElements_cons, ih]

/-- Every byte string consists of elements and a tail. -/
theorem encode_decodeElements (bytes : Bytes) :
    encodeElements (decodeElements bytes).1 ++ (decodeElements bytes).2 = bytes ∧ Cut (decodeElements bytes).2 := by
  induction bytes using decodeElements.induct with
  | case1 type length rest whole ih =>
    rw [decodeElements_whole whole]
    refine ⟨?_, ih.2⟩
    rw [encodeElements_cons, List.append_assoc, ih.1, Element.encode]
    simp only [List.length_take_of_le whole, UInt8.ofNat_toNat, List.cons_append, List.take_append_drop]
  | case2 type length rest short =>
    have cut : Cut (type :: length :: rest) := by
      rintro _ _ _ ⟨⟩
      exact Nat.lt_of_not_le short
    rw [decodeElements_cut cut]
    exact ⟨rfl, cut⟩
  | case3 tail short =>
    have cut : Cut tail := fun type length rest same => absurd same (short type length rest)
    rw [decodeElements_cut cut]
    exact ⟨rfl, cut⟩

theorem exists_elements (bytes : Bytes) : ∃ es tail, Cut tail ∧ bytes = encodeElements es ++ tail ∧
    decodeElements bytes = (es, tail) := by
  obtain ⟨whole, cut⟩ := encode_decodeElements bytes
  exact ⟨_, _, cut, whole.symm, rfl⟩

theorem offsetOf?_eq_some {k : ℕ} : offsetOf? p es = some k ↔
    ∃ pre e post, es = pre ++ e :: post ∧ (∀ x ∈ pre, p x = false) ∧ p e = true ∧
      k = (encodeElements pre).length := by
  induction es generalizing k with
  | nil => simp
  | cons e es ih =>
    rw [offsetOf?_cons]
    split_ifs with here
    · constructor
      · rintro ⟨⟩
        exact ⟨[], e, es, rfl, nofun, here, rfl⟩
      · rintro ⟨pre, e', post, split, others, _, rfl⟩
        cases pre with
        | nil => rfl
        | cons x pre =>
          cases split
          exact absurd here (by rw [others e List.mem_cons_self]; exact Bool.false_ne_true)
    · rw [Option.map_eq_some_iff]
      constructor
      · rintro ⟨k, found, rfl⟩
        obtain ⟨pre, e', post, rfl, others, there, rfl⟩ := ih.mp found
        refine ⟨e :: pre, e', post, rfl, ?_, there, ?_⟩
        · exact List.forall_mem_cons.mpr ⟨(Bool.not_eq_true _).mp here, others⟩
        · rw [encodeElements_cons, List.length_append]
      · rintro ⟨pre, e', post, split, others, there, rfl⟩
        cases pre with
        | nil =>
          cases split
          exact absurd there here
        | cons x pre =>
          cases split
          refine ⟨_, ih.mpr ⟨pre, e', post, rfl, (List.forall_mem_cons.mp others).2, there, rfl⟩, ?_⟩
          rw [encodeElements_cons, List.length_append]

theorem offsetOf?_eq_none : offsetOf? p es = none ↔ ∀ x ∈ es, p x = false := by
  induction es with
  | nil => simp
  | cons e es ih =>
    rw [offsetOf?_cons, List.forall_mem_cons, ← ih]
    split_ifs with here
    · simp [here]
    · simp [here]

theorem offsetOf?_append_of_none {fs : List Element} (none_ : ∀ x ∈ es, p x = false) :
    offsetOf? p (es ++ fs) = (offsetOf? p fs).map ((encodeElements es).length + ·) := by
  induction es with
  | nil => simp
  | cons e es ih =>
    obtain ⟨head, others⟩ := List.forall_mem_cons.mp none_
    rw [List.cons_append, offsetOf?_cons, head, if_neg Bool.false_ne_true, ih others, Option.map_map]
    simp only [Function.comp_def, encodeElements_cons, List.length_append, Nat.add_assoc]

end MammotionRc.Framing
