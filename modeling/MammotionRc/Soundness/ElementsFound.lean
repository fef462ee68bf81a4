import MammotionRc.Firmware.InformationElements
import MammotionRc.Framing.Elements
import Mathlib.Data.List.DropRight

/-! # Information elements are found where they are

The searches walk a buffer byte by byte, and a list of elements with a tail is what the buffer means. They never read
behind its end and come to the first element they look for; if there is none, they tell whether the tail is the head
of such an element.
-/

namespace MammotionRc.Firmware

open Framing

/-- Where element `n` of a buffer begins, or the tail if there are less. -/
def ieOffset (ies : Bytes) (n : ℕ) : ℕ := (encodeElements ((decodeElements ies).1.take n)).length

/-- What a search from `base` on comes to. -/
def searchResult (base : ℕ) (found : Option ℕ) (cut : Bool) : ℤ :=
  found.elim (if cut then -2 else -1) fun k => (base + k : ℕ)

variable {front tail : Bytes} {es : List Element} {e : Element}

theorem getElem?_header (front stream : Bytes) (e : Element) :
    (front ++ (e.encode ++ stream))[front.length]? = some e.type ∧
      (front ++ (e.encode ++ stream))[front.length + 1]? = some (UInt8.ofNat e.body.length) := by
  constructor
  · rw [List.getElem?_append_right (Nat.le_refl _), Nat.sub_self]
    rfl
  · rw [List.getElem?_append_right (Nat.le_add_right ..), Nat.add_sub_cancel_left]
    rfl

/-- The search in front of an element, read off its equation. -/
theorem mmFindIeFromOffset_element (front stream : Bytes) (e : Element) (ieType : UInt8) :
    mmFindIeFromOffset (front ++ (e.encode ++ stream)) front.length ieType =
      if e.type = ieType then some (front.length : ℤ)
      else mmFindIeFromOffset (front ++ e.encode ++ stream) (front ++ e.encode).length ieType := by
  obtain ⟨type, length⟩ := getElem?_header front stream e
  have size := e.length_encode
  have room : front.length + 2 ≤ (front ++ (e.encode ++ stream)).length := by
    simp only [List.length_append]
    omega
  have whole : ¬ front.length + 2 + (UInt8.ofNat e.body.length).toNat > (front ++ (e.encode ++ stream)).length := by
    rw [e.toNat_length]
    simp only [List.length_append]
    omega
  rw [mmFindIeFromOffset, dif_pos room, type, length, Option.bind_eq_bind, Option.bind_some, Option.bind_some,
    if_neg whole, e.toNat_length, List.length_append, e.length_encode, List.append_assoc]

theorem mmFindIeFromOffset_tail (front : Bytes) (cut : Cut tail) (ieType : UInt8) :
    mmFindIeFromOffset (front ++ tail) front.length ieType =
      some (if cutType tail = some ieType then -2 else -1) := by
  rcases tail with _ | ⟨type, _ | ⟨length, rest⟩⟩
  · rw [mmFindIeFromOffset, dif_neg (by simp)]
    rfl
  · rw [mmFindIeFromOffset, dif_neg (by simp)]
    rfl
  · have less := cut type length rest rfl
    have room : front.length + 2 ≤ (front ++ type :: length :: rest).length := by
      simp
    have first : (front ++ type :: length :: rest)[front.length]? = some type := by simp
    have second : (front ++ type :: length :: rest)[front.length + 1]? = some length := by simp
    have beyond : front.length + 2 + length.toNat > (front ++ type :: length :: rest).length := by
      simp only [List.length_append, List.length_cons]
      omega
    rw [mmFindIeFromOffset, dif_pos room, first, second, Option.bind_eq_bind, Option.bind_some, Option.bind_some,
      if_pos beyond, mmFindIeFromOffset, dif_neg (by omega), cutType]
    simp only [Option.some.injEq]
    split_ifs <;> rfl

theorem mmFindIeFromOffset_eq (front : Bytes) (es : List Element) (cut : Cut tail) (ieType : UInt8) :
    mmFindIeFromOffset (front ++ (encodeElements es ++ tail)) front.length ieType =
      some (searchResult front.length (offsetOf? (·.type = ieType) es) (cutType tail = some ieType)) := by
  induction es generalizing front with
  | nil =>
    rw [encodeElements_nil, List.nil_append, mmFindIeFromOffset_tail front cut]
    simp [searchResult, offsetOf?]
  | cons e es ih =>
    rw [encodeElements_cons, List.append_assoc, mmFindIeFromOffset_element, offsetOf?]
    by_cases here : e.type = ieType
    · simp [here, searchResult]
    · rw [if_neg here, ih, if_neg (by simpa using here)]
      cases offsetOf? (fun e => decide (e.type = ieType)) es with
      | none => rfl
      | some k =>
        simp [searchResult, add_assoc]

/-- A buffer as the elements in front of one of them, the rest, and the tail. -/
theorem exists_elements_at (ies : Bytes) (n : ℕ) : ∃ (es : List Element) (tail : Bytes), Cut tail ∧
    ies = encodeElements (es.take n) ++ (encodeElements (es.drop n) ++ tail) ∧ decodeElements ies = (es, tail) := by
  obtain ⟨es, tail, cut, split, decoded⟩ := exists_elements ies
  refine ⟨es, tail, cut, ?_, decoded⟩
  rw [← List.append_assoc, ← encodeElements_append, List.take_append_drop, split]

/-- **An element is found where it is.** From the beginning of any element on, in any buffer: the search comes to
the first element of the type, or tells whether the tail is the head of one. -/
theorem ie_found (ies : Bytes) (n : ℕ) (ieType : UInt8) :
    mmFindIeFromOffset ies (ieOffset ies n) ieType = some (searchResult (ieOffset ies n)
      (offsetOf? (·.type = ieType) ((decodeElements ies).1.drop n))
      (cutType (decodeElements ies).2 = some ieType)) := by
  obtain ⟨es, tail, cut, split, decoded⟩ := exists_elements_at ies n
  rw [ieOffset, decoded]
  conv_lhs => rw [split]
  exact mmFindIeFromOffset_eq _ _ cut ieType

/-! ## The first element of a type -/

/-- The body of the first element of a type. -/
def firstBody (ies : Bytes) (type : UInt8) : Option Bytes :=
  ((decodeElements ies).1.find? (·.type = type)).map Element.body

/-- Elements in front of which there is none of the type. -/
theorem firstBody_cases (ies : Bytes) (type : UInt8) :
    (∃ (skipped : List Element) (e : Element) (stream : Bytes),
      ies = encodeElements skipped ++ (e.encode ++ stream) ∧ (∀ x ∈ skipped, x.type ≠ type) ∧ e.type = type ∧
        firstBody ies type = some e.body) ∨
    ∃ (es : List Element) (tail : Bytes), ies = encodeElements es ++ tail ∧ Cut tail ∧
      (∀ x ∈ es, x.type ≠ type) ∧ (decodeElements ies).2 = tail ∧ firstBody ies type = none := by
  obtain ⟨es, tail, cut, split, decoded⟩ := exists_elements ies
  rw [firstBody, decoded]
  cases found : es.find? (·.type = type) with
  | none =>
    refine .inr ⟨es, tail, split, cut, fun x inside => ?_, rfl, rfl⟩
    exact of_decide_eq_false ((Bool.not_eq_true _).mp (List.find?_eq_none.mp found x inside))
  | some e =>
    obtain ⟨here, skipped, more, rfl, others⟩ := List.find?_eq_some_iff_append.mp found
    refine .inl ⟨skipped, e, encodeElements more ++ tail, ?_, fun x inside => ?_, of_decide_eq_true here, rfl⟩
    · simp only [split, encodeElements_append, encodeElements_cons, List.append_assoc]
    · simpa using others x inside

/-- The parser of the body starts behind the header. -/
theorem drop_header (front : Bytes) (e : Element) (stream : Bytes) :
    (front ++ (e.encode ++ stream)).drop (front.length + 2) = e.body ++ stream := by
  rw [← List.drop_drop, List.drop_left]
  rfl

theorem mmFindIe_found {skipped : List Element} {e : Element} {stream : Bytes}
    (others : ∀ x ∈ skipped, x.type ≠ e.type) :
    mmFindIe (encodeElements skipped ++ (e.encode ++ stream)) e.type = some ((encodeElements skipped).length : ℤ) := by
  obtain ⟨more, tail, cut, rfl, _⟩ := exists_elements stream
  have split : encodeElements skipped ++ (e.encode ++ (encodeElements more ++ tail)) =
      [] ++ (encodeElements (skipped ++ e :: more) ++ tail) := by
    simp only [encodeElements_append, encodeElements_cons, List.append_assoc, List.nil_append]
  have search := mmFindIeFromOffset_eq [] (skipped ++ e :: more) cut e.type
  rw [offsetOf?_append_of_none fun x inside => decide_eq_false (others x inside), offsetOf?,
    if_pos (decide_eq_true rfl), Option.map_some, Nat.add_zero, ← split] at search
  refine search.trans ?_
  simp [searchResult]

theorem mmFindIe_missing {es : List Element} {tail : Bytes} {type : UInt8} (cut : Cut tail)
    (others : ∀ x ∈ es, x.type ≠ type) :
    mmFindIe (encodeElements es ++ tail) type = some (if cutType tail = some type then -2 else -1) := by
  have search := mmFindIeFromOffset_eq [] es cut type
  rw [offsetOf?_eq_none.mpr fun x inside => decide_eq_false (others x inside)] at search
  refine search.trans ?_
  simp [searchResult]

/-! ## Vendor specific elements -/

/-- A vendor specific element whose body begins with `id`. -/
def isVendor (id : Bytes) (e : Element) : Bool := e.type = MM_VENDOR_SPECIFIC_IE_TYPE ∧ id <+: e.body

/-- The elements behind the last vendor specific one. -/
def behindVendors (es : List Element) : List Element := es.rtakeWhile (·.type ≠ MM_VENDOR_SPECIFIC_IE_TYPE)

/-- The tail is the head of a vendor specific element, and `id` is not too long for what the last turn looks at. -/
def vendorCut (id : Bytes) (es : List Element) (tail : Bytes) : Bool :=
  cutType tail = some MM_VENDOR_SPECIFIC_IE_TYPE ∧ id.length ≤ (encodeElements (behindVendors es) ++ tail).length

variable {id : Bytes} {skipped rest : List Element} {v : Element}

theorem behindVendors_append (vendor : v.type = MM_VENDOR_SPECIFIC_IE_TYPE) :
    behindVendors (skipped ++ v :: rest) = behindVendors rest := by
  rw [behindVendors, behindVendors, List.rtakeWhile, List.rtakeWhile, List.reverse_append, List.reverse_cons,
    List.append_assoc, List.takeWhile_append]
  split_ifs with all
  · rw [List.singleton_append, List.takeWhile_cons_of_neg (by simpa using vendor), List.append_nil,
      (List.takeWhile_prefix _).eq_of_length all]
  · rfl

theorem behindVendors_eq_self (others : ∀ x ∈ es, x.type ≠ MM_VENDOR_SPECIFIC_IE_TYPE) : behindVendors es = es :=
  List.rtakeWhile_eq_self_iff.mpr fun x inside => decide_eq_true (others x inside)

theorem matchesId_element (front stream : Bytes) (vendor : v.type = MM_VENDOR_SPECIFIC_IE_TYPE) (id : Bytes) :
    matchesId (front ++ (v.encode ++ stream)) front.length v.type (UInt8.ofNat v.body.length) id =
      some (decide (id <+: v.body)) := by
  rw [matchesId, v.toNat_length]
  split_ifs with fits
  · have inside : front.length + 2 + id.length ≤ (front ++ (v.encode ++ stream)).length := by
      have := v.length_encode
      simp only [List.length_append]
      omega
    have data : (front ++ (v.encode ++ stream)).drop (front.length + 2) = v.body ++ stream := by
      rw [List.drop_append, List.drop_of_length_le (Nat.le_add_right ..), Nat.add_sub_cancel_left]
      rfl
    rw [readBytes, if_pos inside, data, Option.map_some, List.take_append_of_le_length fits.2]
    simp only [List.prefix_iff_eq_take]
  · have long : ¬ id <+: v.body := fun inside => fits ⟨vendor, inside.length_le⟩
    rw [decide_eq_false long]

/-- One turn of the search that comes to a vendor specific element. -/
theorem mmFindVendor_turn {searchOffset : ℕ} (front stream : Bytes) (vendor : v.type = MM_VENDOR_SPECIFIC_IE_TYPE)
    (room : searchOffset + id.length ≤ (front ++ (v.encode ++ stream)).length)
    (next : mmFindIeFromOffset (front ++ (v.encode ++ stream)) searchOffset MM_VENDOR_SPECIFIC_IE_TYPE =
      some (front.length : ℤ)) :
    mmFindVendorSpecificIeFromOffset (front ++ (v.encode ++ stream)) searchOffset id =
      if id <+: v.body then some (front.length : ℤ)
      else mmFindVendorSpecificIeFromOffset (front ++ v.encode ++ stream) (front ++ v.encode).length id := by
  obtain ⟨type, length⟩ := getElem?_header front stream v
  have whole : ¬ front.length + 2 + (UInt8.ofNat v.body.length).toNat > (front ++ (v.encode ++ stream)).length := by
    rw [v.toNat_length]
    have := v.length_encode
    simp only [List.length_append]
    omega
  rw [mmFindVendorSpecificIeFromOffset, if_pos room]
  split
  · next none_ => cases next.symm.trans none_
  · next offset found =>
    cases next.symm.trans found
    rw [dif_neg (by omega), Int.toNat_natCast, type, length, Option.bind_eq_bind, Option.bind_some, Option.bind_some,
      matchesId_element front stream vendor, Option.bind_eq_bind, Option.bind_some, if_neg whole]
    simp only [decide_eq_true_eq, List.append_assoc, List.length_append, v.length_encode, v.toNat_length]
    rw [show 2 + v.body.length + front.length = front.length + (2 + v.body.length) by omega]

/-- What the search looks for is not longer than what there is. -/
theorem length_le_of_isVendor {k : ℕ} (found : offsetOf? (isVendor id) es = some k) :
    id.length ≤ (encodeElements es).length := by
  obtain ⟨pre, e, post, rfl, _, vendor, _⟩ := offsetOf?_eq_some.mp found
  have inside := (of_decide_eq_true vendor).2.length_le
  have size := e.length_encode
  rw [encodeElements_append, encodeElements_cons, List.length_append, List.length_append]
  omega

theorem length_behindVendors_le (es : List Element) :
    (encodeElements (behindVendors es)).length ≤ (encodeElements es).length := by
  obtain ⟨before, split⟩ := List.rtakeWhile_suffix (fun e : Element => e.type ≠ MM_VENDOR_SPECIFIC_IE_TYPE) es
  conv_rhs => rw [← split]
  rw [encodeElements_append, List.length_append]
  exact Nat.le_add_left ..

theorem offsetOf?_isVendor (others : ∀ x ∈ skipped, x.type ≠ MM_VENDOR_SPECIFIC_IE_TYPE)
    (vendor : v.type = MM_VENDOR_SPECIFIC_IE_TYPE) :
    offsetOf? (isVendor id) (skipped ++ v :: rest) = if id <+: v.body then some (encodeElements skipped).length
      else (offsetOf? (isVendor id) rest).map ((encodeElements skipped ++ v.encode).length + ·) := by
  have none_ (x : Element) (inside : x ∈ skipped) : isVendor id x = false :=
    decide_eq_false fun both => others x inside both.1
  rw [offsetOf?_append_of_none none_, offsetOf?]
  by_cases same : id <+: v.body
  · have found : isVendor id v = true := decide_eq_true ⟨vendor, same⟩
    rw [if_pos same, found, if_pos rfl]
    rfl
  · have other : isVendor id v = false := decide_eq_false fun both => same both.2
    rw [if_neg same, other, if_neg Bool.false_ne_true, Option.map_map, List.length_append]
    simp only [Function.comp_def, Nat.add_assoc]

theorem mmFindVendor_eq (front : Bytes) (es : List Element) (cut : Cut tail) :
    mmFindVendorSpecificIeFromOffset (front ++ (encodeElements es ++ tail)) front.length id =
      some (searchResult front.length (offsetOf? (isVendor id) es) (vendorCut id es tail)) := by
  have next := mmFindIeFromOffset_eq front es cut MM_VENDOR_SPECIFIC_IE_TYPE
  by_cases room : front.length + id.length ≤ (front ++ (encodeElements es ++ tail)).length
  · cases where_ : offsetOf? (·.type = MM_VENDOR_SPECIFIC_IE_TYPE) es with
    | none =>
      have others := offsetOf?_eq_none.mp where_
      have plain (x : Element) (inside : x ∈ es) : isVendor id x = false :=
        decide_eq_false fun both => of_decide_eq_false (others x inside) both.1
      have all : behindVendors es = es := behindVendors_eq_self fun x inside => of_decide_eq_false (others x inside)
      have fits : id.length ≤ (encodeElements es ++ tail).length := by
        rw [List.length_append] at room
        omega
      rw [where_] at next
      rw [mmFindVendorSpecificIeFromOffset, if_pos room, offsetOf?_eq_none.mpr plain, vendorCut, all]
      split
      · next none_ => cases next.symm.trans none_
      · next offset found =>
        cases next.symm.trans found
        rw [dif_pos (by simp only [searchResult, Option.elim_none]; split_ifs <;> decide)]
        simp only [fits, and_true]
    | some k =>
      obtain ⟨skipped, v, rest, rfl, others, vendor, rfl⟩ := offsetOf?_eq_some.mp where_
      have others (x : Element) (inside : x ∈ skipped) : x.type ≠ MM_VENDOR_SPECIFIC_IE_TYPE :=
        of_decide_eq_false (others x inside)
      have vendor := of_decide_eq_true vendor
      have layout : front ++ (encodeElements (skipped ++ v :: rest) ++ tail) =
          front ++ encodeElements skipped ++ (v.encode ++ (encodeElements rest ++ tail)) := by
        simp only [encodeElements_append, encodeElements_cons, List.append_assoc]
      rw [where_, layout] at next
      rw [layout] at room ⊢
      have shorter : rest.length < (skipped ++ v :: rest).length := by
        rw [List.length_append, List.length_cons]
        omega
      rw [mmFindVendor_turn _ _ vendor room (next.trans (by simp [searchResult])), offsetOf?_isVendor others vendor,
        vendorCut, behindVendors_append vendor]
      split_ifs with same
      · simp [searchResult]
      · rw [mmFindVendor_eq _ rest cut]
        cases offsetOf? (isVendor id) rest with
        | none => rfl
        | some k => simp [searchResult, add_assoc]
  · have long : ¬ id.length ≤ (encodeElements es ++ tail).length := by
      rw [List.length_append] at room
      omega
    have none_ : offsetOf? (isVendor id) es = none := by
      by_contra found
      obtain ⟨k, found⟩ := Option.ne_none_iff_exists'.mp found
      have := length_le_of_isVendor found
      rw [List.length_append] at long
      omega
    have whole : vendorCut id es tail = false := by
      refine decide_eq_false fun both => long (both.2.trans ?_)
      rw [List.length_append, List.length_append]
      exact Nat.add_le_add_right (length_behindVendors_le es) _
    rw [mmFindVendorSpecificIeFromOffset, if_neg room, none_, whole]
    rfl
termination_by es.length

/-- **A vendor specific element is found where it is.** From the beginning of any element on, in any buffer: the
search comes to the first vendor specific element whose body begins with `id`. -/
theorem vendor_ie_found (ies : Bytes) (n : ℕ) (id : Bytes) :
    mmFindVendorSpecificIeFromOffset ies (ieOffset ies n) id = some (searchResult (ieOffset ies n)
      (offsetOf? (isVendor id) ((decodeElements ies).1.drop n))
      (vendorCut id ((decodeElements ies).1.drop n) (decodeElements ies).2)) := by
  obtain ⟨es, tail, cut, split, decoded⟩ := exists_elements_at ies n
  rw [ieOffset, decoded]
  conv_lhs => rw [split]
  exact mmFindVendor_eq _ _ cut

end MammotionRc.Firmware
