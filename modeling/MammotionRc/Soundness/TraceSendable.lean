import MammotionRc.Machine.PyJson
import MammotionRc.Server.TraceJson

/-! # When a rendered frame can be sent

The rendering passes integers and floats on and cuts only strings, bytes, lists and dictionaries. So a frame can be
sent if every scalar it reaches can be encoded, and if the texts of keys, names and enum members and the number
of fields are short of their own accord.
-/

namespace MammotionRc.Server

open Machine

/-- The longest marker of a string: a number below `2 ^ 63` between `…(+` and ` chars)`. -/
def MARKER_LENGTH : ℕ := 29

/-- A string or a container is no longer than its limit and a marker. -/
def WithinLimits : PyValue → Prop
  | .str s => s.length ≤ TRACE_MAX_STR + MARKER_LENGTH
  | .list items => items.length ≤ TRACE_MAX_ITEMS + 1
  | .dict entries => entries.length ≤ TRACE_MAX_ITEMS + 1
  | _ => True

variable {Ref : Type*} {floatText : ℚ → List Char} {heap : Ref → TraceObject Ref}

/-- What `_trace_jsonable` is for. -/
def RendersSafely (floatText : ℚ → List Char) (heap : Ref → TraceObject Ref) (v : TraceValue Ref) : Prop :=
  ∃ out, traceJsonable heap TRACE_MAX_DEPTH v = .ok out ∧
    (∃ bytes, PyJson.encode? floatText out = some bytes) ∧
    out.nesting ≤ TRACE_MAX_DEPTH + 1 ∧ out.All WithinLimits

/-! ## The condition -/

/-- A text that can be encoded and that, with `n` more characters, is not too long. -/
def Short (n : ℕ) (s : PyStr) : Prop := s.Encodable ∧ s.length + n ≤ TRACE_MAX_STR + MARKER_LENGTH

/-- The exception fits into `<unrenderable …: …>`. -/
def ShortException (typeName : List Char) (exc : PyStr) : Prop := Short (typeName.length + 17) exc

/-- The items of a dictionary with the texts of their keys, or the first exception. -/
def keyed (items : List (Shown × TraceValue Ref)) : Except PyStr (List (PyStr × TraceValue Ref)) :=
  items.mapM fun item => item.1.map (·, item.2)

/-- The condition on a container or another object, given that on the values in it. An item of a dictionary does
not count if a later one has the same text for its key, or if the marker for the missing items has. -/
def RenderableContent (inner : TraceValue Ref → Prop) (typeName : List Char) : TraceContent Ref → Prop
  | .dict items =>
    match keyed (items.val.take TRACE_MAX_ITEMS) with
    | .error exc => ShortException typeName exc
    | .ok pairs =>
      (∀ pair ∈ pairs, Short 0 pair.1) ∧
      ∀ key x, (OrderedDict.ofPairs pairs).get? key = some x →
        ¬(TRACE_MAX_ITEMS < items.val.length ∧ key = PyStr.lit "_truncated") → inner x
  | .sequence items => ∀ x ∈ items.val.take TRACE_MAX_ITEMS, inner x
  | .dataclass fields _ =>
    (presentFields fields).length ≤ TRACE_MAX_ITEMS + 1 ∧
    ∀ field ∈ presentFields fields, Short 0 field.1 ∧ inner field.2
  | .other (.ok text) => PyStr.Encodable (text.take TRACE_MAX_STR)
  | .other (.error exc) => ShortException typeName exc

/-- The condition on a value, given that on the values in it unless the depth limit is reached. -/
def RenderableValue (heap : Ref → TraceObject Ref) (inner : Option (TraceValue Ref → Prop)) : TraceValue Ref → Prop
  | .none | .bool _ | .bytes _ => True
  | .int n => (Nat.toDigits 10 n.natAbs).length ≤ PyInt.maxStrDigits
  | .float x => x ≠ none
  | .str s => PyStr.Encodable (s.val.take TRACE_MAX_STR)
  | .enum _ name (.ok text) => text.Encodable ∧ Short (text.length + 2) name
  | .enum typeName _ (.error exc) => ShortException typeName exc
  | .ref r =>
    match inner with
    | none => (heap r).typeName.length + 16 ≤ TRACE_MAX_STR + MARKER_LENGTH
    | some inner => RenderableContent inner (heap r).typeName (heap r).content

/-- The condition on a value that has `left` levels above the depth limit. -/
def Renderable (heap : Ref → TraceObject Ref) : ℕ → TraceValue Ref → Prop
  | 0 => RenderableValue heap none
  | left + 1 => RenderableValue heap (some (Renderable heap left))

/-! ## Texts -/

/-- A value can be encoded and is within the limits. -/
def Fine (w : PyValue) : Prop := PyJson.Encodes w ∧ WithinLimits w

theorem fine_str {s : PyStr} : (PyValue.str s).All Fine ↔ Short 0 s := Iff.rfl

theorem length_lit (text : String) : (PyStr.lit text).length = text.toList.length := List.length_map _

theorem encodable_numbered (before after : String) (n : ℕ) : (numbered before n after).Encodable :=
  PyJson.encodable_ofChars _

theorem length_numbered {n : ℕ} (small : n < 2 ^ 63) (before after : String) :
    (numbered before n after).length ≤ before.toList.length + 19 + after.toList.length := by
  have digits : (Nat.toDigits 10 n).length ≤ 19 := by
    rw [Nat.length_toDigits_le_iff (by decide) (by decide)]
    omega
  simp only [numbered, PyStr.ofChars, List.length_map, List.length_append]
  omega

/-- A marker for what is missing is short. -/
theorem short_marker {n : ℕ} (small : n < 2 ^ 63) {before after : String}
    (around : before.toList.length + after.toList.length ≤ TRACE_MAX_STR) : Short 0 (numbered before n after) := by
  have length := length_numbered small before after
  refine ⟨encodable_numbered _ _ _, ?_⟩
  simp only [TRACE_MAX_STR, MARKER_LENGTH] at around ⊢
  omega

theorem fine_traceStr (s : Sized PyChar) :
    (PyValue.str (traceStr s.val)).All Fine ↔ PyStr.Encodable (s.val.take TRACE_MAX_STR) := by
  rw [fine_str, Short, traceStr]
  split_ifs with short
  · rw [List.take_of_length_le short]
    exact and_iff_left (Nat.le_trans short (Nat.le_add_right _ _))
  · have marker := length_numbered (Nat.lt_of_le_of_lt (Nat.sub_le s.val.length TRACE_MAX_STR) s.property)
      "…(+" " chars)"
    have around : "…(+".toList.length + 19 + " chars)".toList.length = MARKER_LENGTH := by decide
    rw [PyStr.encodable_append, List.length_append, List.length_take_of_le (Nat.le_of_not_le short)]
    refine ⟨fun fine => fine.1.1, fun encodable => ⟨⟨encodable, encodable_numbered _ _ _⟩, ?_⟩⟩
    omega

theorem fine_unrenderable {typeName : List Char} {exc : PyStr} :
    (PyValue.str (unrenderable typeName exc)).All Fine ↔ ShortException typeName exc := by
  have before : "<unrenderable ".toList.length = 14 := by decide
  have colon : ": ".toList.length = 2 := by decide
  have after : ">".toList.length = 1 := by decide
  have length : (unrenderable typeName exc).length = exc.length + (typeName.length + 17) := by
    simp only [unrenderable, List.length_append, length_lit, PyStr.ofChars, List.length_map, before, colon, after]
    omega
  rw [fine_str, Short, ShortException, Short, length, unrenderable, PyStr.encodable_append, PyStr.encodable_append]
  refine ⟨fun fine => ⟨fine.1.1.2, fine.2⟩, fun short => ⟨⟨⟨?_, short.1⟩, ?_⟩, short.2⟩⟩
  · exact PyJson.encodable_ofChars _
  · exact PyJson.encodable_ofChars _

theorem fine_depthLimit {typeName : List Char} :
    (PyValue.str (depthLimit typeName)).All Fine ↔ typeName.length + 16 ≤ TRACE_MAX_STR + MARKER_LENGTH := by
  have after : " — depth limit>".toList.length = 15 := by decide
  have length : (depthLimit typeName).length = typeName.length + 16 := by
    simp only [depthLimit, PyStr.ofChars, List.length_map, List.cons_append, List.length_cons, List.length_append,
      after]
  rw [fine_str, Short, length]
  exact and_iff_right (PyJson.encodable_ofChars _)

theorem fine_enum {name text : PyStr} :
    (PyValue.str (name ++ PyStr.lit "(" ++ text ++ PyStr.lit ")")).All Fine ↔
      text.Encodable ∧ Short (text.length + 2) name := by
  have opens : "(".toList.length = 1 := by decide
  have closes : ")".toList.length = 1 := by decide
  have length : (name ++ PyStr.lit "(" ++ text ++ PyStr.lit ")").length = name.length + (text.length + 2) := by
    simp only [List.length_append, length_lit, opens, closes]
    omega
  rw [fine_str, Short, Short, length, PyStr.encodable_append, PyStr.encodable_append, PyStr.encodable_append]
  constructor
  · intro fine
    exact ⟨fine.1.1.2, fine.1.1.1.1, fine.2⟩
  · rintro ⟨value, short⟩
    exact ⟨⟨⟨⟨short.1, PyJson.encodable_ofChars _⟩, value⟩, PyJson.encodable_ofChars _⟩, short.2⟩

theorem fine_int {n : ℤ} : (PyValue.int n).All Fine ↔ (Nat.toDigits 10 n.natAbs).length ≤ PyInt.maxStrDigits := by
  have written : (∃ text, PyInt.str? n = some text) ↔ (Nat.toDigits 10 n.natAbs).length ≤ PyInt.maxStrDigits := by
    rw [PyInt.str?]
    by_cases long : PyInt.maxStrDigits < (Nat.toDigits 10 n.natAbs).length
    · rw [if_pos long]
      exact ⟨fun written => by simp at written, fun short => absurd long (Nat.not_lt.mpr short)⟩
    · rw [if_neg long]
      exact ⟨fun _ => Nat.not_lt.mp long, fun _ => ⟨_, rfl⟩⟩
  rw [← written]
  exact and_iff_left trivial

/-- A length has few digits. -/
theorem fine_length (data : Sized UInt8) : (PyValue.int data.val.length).All Fine := by
  have small : (2 : ℕ) ^ 63 ≤ 10 ^ PyInt.maxStrDigits :=
    calc 2 ^ 63 ≤ 10 ^ 19 := by decide
      _ ≤ 10 ^ PyInt.maxStrDigits := Nat.pow_le_pow_right (by decide) (by decide)
  rw [fine_int, Nat.length_toDigits_le_iff (by decide) (by decide)]
  exact Nat.lt_of_lt_of_le data.property small

theorem fine_traceBytes (data : Sized UInt8) : (traceBytes data.val).All Fine := by
  have key (text : String) (short : text.toList.length ≤ TRACE_MAX_STR) : Fine (.str (PyStr.lit text)) := by
    refine ⟨PyJson.encodable_ofChars _, ?_⟩
    rw [WithinLimits, length_lit]
    exact Nat.le_trans short (Nat.le_add_right _ _)
  have hex : (PyValue.str (PyStr.ofChars ((data.val.take TRACE_MAX_ITEMS).flatMap Hex.lowerByte))).All Fine := by
    have kept : (data.val.take TRACE_MAX_ITEMS).length ≤ TRACE_MAX_ITEMS := List.length_take_le _ _
    refine ⟨PyJson.encodable_ofChars _, ?_⟩
    rw [WithinLimits, PyStr.ofChars, List.length_map, Hex.length_lowerBytes]
    exact Nat.le_trans (Nat.mul_le_mul_left 2 kept) (by decide)
  have entries : ∀ entry ∈ ([(PyStr.lit "_bytes_len", .int data.val.length),
      (PyStr.lit "hex", .str (PyStr.ofChars ((data.val.take TRACE_MAX_ITEMS).flatMap Hex.lowerByte))),
      (PyStr.lit "_truncated", .bool true)] : List (PyStr × PyValue)), Fine (.str entry.1) ∧ entry.2.All Fine := by
    simp only [List.forall_mem_cons, List.not_mem_nil, false_imp_iff, implies_true, and_true]
    refine ⟨⟨key _ (by decide), fine_length data⟩, ⟨key _ (by decide), hex⟩, key _ (by decide), ?_⟩
    exact ⟨trivial, trivial⟩
  rw [traceBytes, PyValue.all_dict]
  split_ifs with long
  · exact ⟨⟨trivial, show 3 ≤ TRACE_MAX_ITEMS + 1 by decide⟩, entries⟩
  · refine ⟨⟨trivial, show 2 ≤ TRACE_MAX_ITEMS + 1 by decide⟩, fun entry mem => ?_⟩
    exact entries entry (List.mem_append_left [_] mem)

/-! ## Containers -/

section Containers

variable {render : TraceValue Ref → Except PyStr PyValue} {made : TraceValue Ref → PyValue}
  {inner : TraceValue Ref → Prop} {typeName : List Char}

/-- The keys of the items and the rendered values. -/
theorem mapM_keyed (made : TraceValue Ref → PyValue) (items : List (Shown × TraceValue Ref)) :
    (items.mapM fun item => do
      let key ← item.1
      let x ← (Except.ok (made item.2) : Except PyStr PyValue)
      pure (key, x)) = (keyed items).map (List.map fun pair => (pair.1, made pair.2)) := by
  induction items with
  | nil => rfl
  | cons item items ih =>
    rw [List.mapM_cons, ih, keyed, keyed, List.mapM_cons]
    obtain ⟨key, x⟩ := item
    cases key with
    | error exc => rfl
    | ok key => cases List.mapM (fun item => item.1.map (·, item.2)) items <;> rfl

theorem traceContent_items (renders : ∀ v, render v = .ok (made v)) (items : Sized (Shown × TraceValue Ref)) :
    traceContent render (.dict items) = (keyed (items.val.take TRACE_MAX_ITEMS)).map fun pairs =>
      .dict <| OrderedDict.items <|
        if TRACE_MAX_ITEMS < items.val.length then
          (OrderedDict.ofPairs (pairs.map fun pair => (pair.1, made pair.2))).set (PyStr.lit "_truncated")
            (.str (numbered "+" (items.val.length - TRACE_MAX_ITEMS) " more keys"))
        else OrderedDict.ofPairs (pairs.map fun pair => (pair.1, made pair.2)) := by
  rw [traceContent, funext renders, mapM_keyed made]
  cases keyed (items.val.take TRACE_MAX_ITEMS) <;> rfl

theorem traceContent_sequence (renders : ∀ v, render v = .ok (made v)) (items : Sized (TraceValue Ref)) :
    traceContent render (.sequence items) = .ok (.list (
      if TRACE_MAX_ITEMS < items.val.length then
        (items.val.take TRACE_MAX_ITEMS).map made ++ [.str (numbered "…(+" (items.val.length - TRACE_MAX_ITEMS)
          " more of " ++ numbered "" items.val.length ")")]
      else (items.val.take TRACE_MAX_ITEMS).map made)) := by
  have all : (items.val.take TRACE_MAX_ITEMS).mapM (fun v => (Except.ok (made v) : Except PyStr PyValue)) =
      .ok ((items.val.take TRACE_MAX_ITEMS).map made) := List.mapM_pure
  rw [traceContent, funext renders, all]
  rfl

theorem traceContent_fields (renders : ∀ v, render v = .ok (made v))
    (fields : List (PyStr × Option (TraceValue Ref))) (distinct : (fields.map Prod.fst).Nodup) :
    traceContent render (.dataclass fields distinct) =
      .ok (.dict ((presentFields fields).map fun field => (field.1, made field.2))) := by
  have all : ((presentFields fields).mapM fun field => do
      let x ← (Except.ok (made field.2) : Except PyStr PyValue)
      pure (field.1, x)) = .ok ((presentFields fields).map fun field => (field.1, made field.2)) := List.mapM_pure
  rw [traceContent, funext renders, all]
  rfl

theorem fine_list {items : List PyValue} :
    (PyValue.list items).All Fine ↔ items.length ≤ TRACE_MAX_ITEMS + 1 ∧ ∀ x ∈ items, x.All Fine := by
  rw [PyValue.all_list]
  exact and_congr_left fun _ => and_iff_right trivial

theorem fine_dict {entries : List (PyStr × PyValue)} : (PyValue.dict entries).All Fine ↔
    entries.length ≤ TRACE_MAX_ITEMS + 1 ∧ ∀ entry ∈ entries, Short 0 entry.1 ∧ entry.2.All Fine := by
  rw [PyValue.all_dict]
  exact and_congr_left fun _ => and_iff_right trivial

theorem fine_sequence (renders : ∀ v, render v = .ok (made v)) (fine : ∀ v, (made v).All Fine ↔ inner v)
    (items : Sized (TraceValue Ref)) :
    (settled typeName (traceContent render (.sequence items))).All Fine ↔
      ∀ x ∈ items.val.take TRACE_MAX_ITEMS, inner x := by
  have kept : (items.val.take TRACE_MAX_ITEMS).length ≤ TRACE_MAX_ITEMS := List.length_take_le _ _
  have each : (∀ x ∈ (items.val.take TRACE_MAX_ITEMS).map made, x.All Fine) ↔
      ∀ x ∈ items.val.take TRACE_MAX_ITEMS, inner x := by
    rw [List.forall_mem_map]
    exact forall₂_congr fun x _ => fine x
  rw [traceContent_sequence renders, settled, fine_list]
  split_ifs with long
  · have missing := length_numbered (Nat.lt_of_le_of_lt (Nat.sub_le items.val.length TRACE_MAX_ITEMS) items.property)
      "…(+" " more of "
    have total := length_numbered items.property "" ")"
    have marker : (PyValue.str (numbered "…(+" (items.val.length - TRACE_MAX_ITEMS) " more of " ++
        numbered "" items.val.length ")")).All Fine := by
      refine ⟨PyStr.encodable_append.mpr ⟨encodable_numbered _ _ _, encodable_numbered _ _ _⟩, ?_⟩
      rw [WithinLimits, List.length_append]
      exact Nat.le_trans (Nat.add_le_add missing total) (by decide)
    rw [List.forall_mem_append, each, List.length_append, List.length_map, List.length_singleton]
    exact ⟨fun all => all.2.1, fun all => ⟨by omega, all, List.forall_mem_singleton.mpr marker⟩⟩
  · rw [each, List.length_map]
    exact and_iff_right (by omega)

theorem length_keyed {items : List (Shown × TraceValue Ref)} {pairs : List (PyStr × TraceValue Ref)}
    (texts : keyed items = .ok pairs) : pairs.length = items.length := by
  induction items generalizing pairs with
  | nil =>
    cases texts
    rfl
  | cons item items ih =>
    obtain ⟨key, x⟩ := item
    rw [keyed, List.mapM_cons, ← keyed] at texts
    cases key with
    | error exc => cases texts
    | ok key =>
      cases rest : keyed items with
      | error exc => rw [rest] at texts; cases texts
      | ok pairs =>
        rw [rest] at texts
        cases texts
        rw [List.length_cons, List.length_cons, ih rest]

theorem fine_ofDict {d : OrderedDict PyStr PyValue} : (PyValue.dict d.items).All Fine ↔
    d.size ≤ TRACE_MAX_ITEMS + 1 ∧ (∀ key ∈ d.keys, Short 0 key) ∧ ∀ key x, d.get? key = some x → x.All Fine := by
  rw [fine_dict]
  apply and_congr_right
  intro _
  constructor
  · intro all
    refine ⟨fun key mem => ?_, fun key x at_ => (all _ (OrderedDict.get?_eq_some_iff.mp at_)).2⟩
    obtain ⟨x, mem⟩ := OrderedDict.mem_keys_iff.mp mem
    exact (all _ mem).1
  · rintro ⟨keys, values⟩ entry mem
    exact ⟨keys _ (OrderedDict.mem_keys_of_mem mem), values entry.1 _ (OrderedDict.get?_eq_some_iff.mpr mem)⟩

/-- The marker for missing items takes the place of an item with its key. -/
theorem fine_set_truncated {d : OrderedDict PyStr PyValue} {text : PyStr} (few : d.size ≤ TRACE_MAX_ITEMS)
    (marker : Short 0 text) : (PyValue.dict (d.set (PyStr.lit "_truncated") (.str text)).items).All Fine ↔
      (∀ key ∈ d.keys, Short 0 key) ∧
      ∀ key x, d.get? key = some x → key ≠ PyStr.lit "_truncated" → x.All Fine := by
  have name : Short 0 (PyStr.lit "_truncated") := ⟨PyJson.encodable_ofChars _, by decide⟩
  rw [fine_ofDict]
  constructor
  · rintro ⟨_, short, all⟩
    refine ⟨fun key mem => short key (OrderedDict.mem_keys_set.mpr (.inr mem)), ?_⟩
    intro key x at_ other
    apply all key x
    rw [OrderedDict.get?_set, if_neg other, at_]
  · rintro ⟨short, all⟩
    refine ⟨Nat.le_trans (OrderedDict.size_set_le _ _ _) (Nat.succ_le_succ few), ?_, ?_⟩
    · intro key mem
      rcases OrderedDict.mem_keys_set.mp mem with rfl | mem
      · exact name
      · exact short key mem
    · intro key x at_
      rw [OrderedDict.get?_set] at at_
      split_ifs at at_ with same
      · cases at_
        exact fine_str.mpr marker
      · exact all key x at_ same

theorem fine_items (renders : ∀ v, render v = .ok (made v)) (fine : ∀ v, (made v).All Fine ↔ inner v)
    (items : Sized (Shown × TraceValue Ref)) :
    (settled typeName (traceContent render (.dict items))).All Fine ↔
      RenderableContent inner typeName (.dict items) := by
  rw [traceContent_items renders, RenderableContent]
  cases texts : keyed (items.val.take TRACE_MAX_ITEMS) with
  | error exc => exact fine_unrenderable
  | ok pairs =>
    change (PyValue.dict (OrderedDict.items _)).All Fine ↔ (∀ pair ∈ pairs, Short 0 pair.1) ∧ _
    let out := OrderedDict.ofPairs (pairs.map fun pair => (pair.1, made pair.2))
    have size : out.size ≤ TRACE_MAX_ITEMS := by
      have few := OrderedDict.size_ofPairs_le (pairs.map fun pair => (pair.1, made pair.2))
      rw [List.length_map, length_keyed texts] at few
      exact Nat.le_trans few (List.length_take_le _ _)
    have keys : (∀ key ∈ out.keys, Short 0 key) ↔ ∀ pair ∈ pairs, Short 0 pair.1 := by
      simp only [out, OrderedDict.mem_keys_ofPairs, List.map_map, List.forall_mem_map, Function.comp_apply]
    have values (key : PyStr) (p : Prop) : (∀ y, out.get? key = some y → p → y.All Fine) ↔
        ∀ x, (OrderedDict.ofPairs pairs).get? key = some x → p → inner x := by
      rw [OrderedDict.get?_ofPairs_map made pairs key]
      simp only [Option.map_eq_some_iff, forall_exists_index, and_imp, forall_apply_eq_imp_iff₂, fine]
    split_ifs with long
    · have marker := short_marker (Nat.lt_of_le_of_lt (Nat.sub_le items.val.length TRACE_MAX_ITEMS) items.property)
        (show "+".toList.length + " more keys".toList.length ≤ TRACE_MAX_STR by decide)
      rw [fine_set_truncated size marker, keys, forall_congr' fun key => values key _]
      simp only [long, true_and, ne_eq]
    · rw [fine_ofDict, and_iff_right (Nat.le_succ_of_le size), keys]
      have each (key : PyStr) := values key True
      simp only [forall_const] at each
      simp only [long, false_and, not_false_eq_true, forall_const]
      exact and_congr_right fun _ => forall_congr' each

theorem fine_fields (renders : ∀ v, render v = .ok (made v)) (fine : ∀ v, (made v).All Fine ↔ inner v)
    (fields : List (PyStr × Option (TraceValue Ref))) (distinct : (fields.map Prod.fst).Nodup) :
    (settled typeName (traceContent render (.dataclass fields distinct))).All Fine ↔
      RenderableContent inner typeName (.dataclass fields distinct) := by
  rw [traceContent_fields renders, settled, fine_dict, List.length_map, List.forall_mem_map, RenderableContent]
  exact and_congr_right fun _ => forall₂_congr fun field _ => and_congr_right fun _ => fine field.2

theorem fine_other (repr : Shown) : (settled typeName (traceContent render (.other repr))).All Fine ↔
    RenderableContent inner typeName (.other repr) := by
  cases repr with
  | error exc => exact fine_unrenderable
  | ok text =>
    have kept : (text.take TRACE_MAX_STR).length ≤ TRACE_MAX_STR := List.length_take_le _ _
    exact and_iff_left (Nat.le_trans kept (Nat.le_add_right _ _))

end Containers

/-! ## The whole rendering -/

theorem fine_content {render : TraceValue Ref → Except PyStr PyValue} {made : TraceValue Ref → PyValue}
    {inner : TraceValue Ref → Prop} (renders : ∀ v, render v = .ok (made v))
    (fine : ∀ v, (made v).All Fine ↔ inner v) (typeName : List Char) (content : TraceContent Ref) :
    (settled typeName (traceContent render content)).All Fine ↔ RenderableContent inner typeName content := by
  cases content with
  | dict items => exact fine_items renders fine items
  | sequence items => exact fine_sequence renders fine items
  | dataclass fields distinct => exact fine_fields renders fine fields distinct
  | other repr => exact fine_other repr

/-- A value that is not a reference is rendered without a call one level deeper. -/
theorem fine_value {render : Option (TraceValue Ref → Except PyStr PyValue)} {inner : Option (TraceValue Ref → Prop)}
    (reference : ∀ r, (settled (heap r).typeName (traceBody heap render (.ref r))).All Fine ↔
      RenderableValue heap inner (.ref r)) (v : TraceValue Ref) :
    (settled (v.typeName heap) (traceBody heap render v)).All Fine ↔ RenderableValue heap inner v := by
  cases v with
  | none => exact iff_of_true ⟨trivial, trivial⟩ trivial
  | bool b => exact iff_of_true ⟨trivial, trivial⟩ trivial
  | int n => exact fine_int
  | float x => exact and_iff_left trivial
  | str s => exact fine_traceStr s
  | enum typeName name value =>
    cases value with
    | error exc => exact fine_unrenderable
    | ok text => exact fine_enum
  | bytes data => exact iff_of_true (fine_traceBytes data) trivial
  | ref r => exact reference r

/-- The condition says when all of what is rendered can be encoded and is within the limits. -/
theorem fine_iff_renderable (left : ℕ) : ∀ v out, traceJsonable heap left v = .ok out →
    (out.All Fine ↔ Renderable heap left v) := by
  induction left with
  | zero =>
    intro v out made
    rw [traceJsonable, traceGuarded_eq] at made
    cases made
    refine fine_value (fun r => ?_) v
    exact fine_depthLimit
  | succ left ih =>
    intro v out made
    have total (x : TraceValue Ref) : ∃ out, traceJsonable heap left x = .ok out := traceJsonable_total left x
    choose rendered renders using total
    rw [traceJsonable, traceGuarded_eq] at made
    cases made
    refine fine_value (fun r => ?_) v
    exact fine_content renders (fun x => ih x _ (renders x)) _ _

/-! ## Nesting -/

theorem nesting_traceBytes (data : List UInt8) : (traceBytes data).nesting ≤ 1 := by
  rw [traceBytes, PyValue.nesting_dict_le]
  split_ifs with long
  · simp [PyValue.nesting]
  · simp [PyValue.nesting]

theorem nesting_ofDict {d : OrderedDict PyStr PyValue} {n : ℕ} :
    (PyValue.dict d.items).nesting ≤ n + 1 ↔ ∀ key x, d.get? key = some x → x.nesting ≤ n := by
  rw [PyValue.nesting_dict_le]
  simp only [OrderedDict.get?_eq_some_iff, Prod.forall]

/-- A container is one level deeper than what is rendered in it. -/
theorem nesting_content {render : TraceValue Ref → Except PyStr PyValue} {made : TraceValue Ref → PyValue} {n : ℕ}
    (renders : ∀ v, render v = .ok (made v)) (shallow : ∀ v, (made v).nesting ≤ n) (typeName : List Char)
    (content : TraceContent Ref) : (settled typeName (traceContent render content)).nesting ≤ n + 1 := by
  have text (s : PyStr) (m : ℕ) : (PyValue.str s).nesting ≤ m := Nat.zero_le m
  cases content with
  | sequence items =>
    have each : ∀ x ∈ (items.val.take TRACE_MAX_ITEMS).map made, x.nesting ≤ n :=
      List.forall_mem_map.mpr fun v _ => shallow v
    rw [traceContent_sequence renders, settled, PyValue.nesting_list_le]
    split_ifs with long
    · exact List.forall_mem_append.mpr ⟨each, List.forall_mem_singleton.mpr (text _ _)⟩
    · exact each
  | dataclass fields distinct =>
    rw [traceContent_fields renders, settled, PyValue.nesting_dict_le, List.forall_mem_map]
    exact fun field _ => shallow field.2
  | other repr => cases repr <;> exact text _ _
  | dict items =>
    rw [traceContent_items renders]
    cases keyed (items.val.take TRACE_MAX_ITEMS) with
    | error exc => exact text _ _
    | ok pairs =>
      have each : ∀ key y, (OrderedDict.ofPairs (pairs.map fun pair => (pair.1, made pair.2))).get? key = some y →
          y.nesting ≤ n := by
        intro key y at_
        rw [OrderedDict.get?_ofPairs_map made] at at_
        obtain ⟨v, _, rfl⟩ := Option.map_eq_some_iff.mp at_
        exact shallow v
      change (PyValue.dict (OrderedDict.items _)).nesting ≤ n + 1
      rw [nesting_ofDict]
      intro key y at_
      split_ifs at at_ with long
      · rw [OrderedDict.get?_set] at at_
        split_ifs at at_ with same
        · cases at_
          exact text _ _
        · exact each key y at_
      · exact each key y at_

/-- One level for each that is above the depth limit, and the dictionary for bytes. -/
theorem nesting_le (left : ℕ) : ∀ v out, traceJsonable heap left v = .ok out → out.nesting ≤ left + 1 := by
  induction left with
  | zero =>
    intro v out made
    rw [traceJsonable, traceGuarded_eq] at made
    cases made
    cases v with
    | bytes data => exact nesting_traceBytes data.val
    | enum typeName name value => cases value <;> exact Nat.zero_le _
    | _ => exact Nat.zero_le _
  | succ left ih =>
    intro v out made
    have total (x : TraceValue Ref) : ∃ out, traceJsonable heap left x = .ok out := traceJsonable_total left x
    choose rendered renders using total
    rw [traceJsonable, traceGuarded_eq] at made
    cases made
    cases v with
    | bytes data => exact Nat.le_trans (nesting_traceBytes data.val) (Nat.le_add_left _ _)
    | enum typeName name value => cases value <;> exact Nat.zero_le _
    | ref r => exact nesting_content renders (fun x => ih x _ (renders x)) _ _
    | _ => exact Nat.zero_le _

/-- A message with a field that is not a number. -/
def nanMessage : Unit → TraceObject Unit := fun _ =>
  ⟨"Report".toList, .dataclass [(PyStr.lit "height", some (.float none))] (by decide)⟩

end MammotionRc.Server
