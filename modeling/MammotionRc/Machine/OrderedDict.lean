import Mathlib.Data.List.Induction
import Mathlib.Data.List.Nodup

/-! # A dictionary that iterates in insertion order

Assigning to a new key appends an item and assigning to an existing key replaces its value in place, so
the items that an iterator has not reached keep their positions. An iterator remembers how many items
there were when it started and refuses to go on when that number has changed.
-/

namespace MammotionRc.Machine

structure OrderedDict (κ α : Type*) where
  items : List (κ × α)
  nodup : (items.map Prod.fst).Nodup
deriving DecidableEq

namespace OrderedDict

variable {κ α : Type*}

def empty : OrderedDict κ α := ⟨[], List.nodup_nil⟩

def keys (d : OrderedDict κ α) : List κ := d.items.map Prod.fst

def size (d : OrderedDict κ α) : ℕ := d.items.length

def values (d : OrderedDict κ α) : List α := d.items.map Prod.snd

/-- An iterator over the values: how many of them it passed, and how many items there were at its
start. -/
structure Cursor where
  passed : ℕ
  size : ℕ
deriving DecidableEq, Repr

/-- What an iterator answers. -/
inductive Advance (α : Type*)
  /-- It raises, because the number of items has changed. -/
  | changed
  | exhausted
  | item (x : α)
deriving DecidableEq, Repr

/-- A new iterator. -/
def cursor (d : OrderedDict κ α) : Cursor := ⟨0, d.size⟩

def Cursor.next (c : Cursor) : Cursor := { c with passed := c.passed + 1 }

def advance (d : OrderedDict κ α) (c : Cursor) : Advance α :=
  if d.size = c.size then
    match d.values[c.passed]? with
    | some x => .item x
    | none => .exhausted
  else .changed

@[ext] theorem ext {d e : OrderedDict κ α} (same : d.items = e.items) : d = e := by
  cases d; cases e; cases same; rfl

theorem mem_keys_of_mem {d : OrderedDict κ α} {key : κ} {x : α} (mem : (key, x) ∈ d.items) :
    key ∈ d.keys := List.mem_map_of_mem mem

theorem mem_keys_iff {d : OrderedDict κ α} {key : κ} : key ∈ d.keys ↔ ∃ x, (key, x) ∈ d.items := by
  simp only [keys, List.mem_map, Prod.exists, exists_eq_right, exists_and_right]

theorem mem_values_iff {d : OrderedDict κ α} {x : α} : x ∈ d.values ↔ ∃ key, (key, x) ∈ d.items := by
  simp only [values, List.mem_map, Prod.exists, exists_eq_right]

/-- An iterator that can go on sees as many items as at its start. -/
theorem advance_ne_changed {d : OrderedDict κ α} {c : Cursor} (same : c.size = d.size) :
    d.advance c ≠ .changed := by
  rw [advance, if_pos same.symm]
  split <;> exact nofun

theorem advance_item {d : OrderedDict κ α} {c : Cursor} {x : α} (item : d.advance c = .item x) :
    d.values.take c.next.passed = d.values.take c.passed ++ [x] := by
  simp only [advance] at item
  split_ifs at item
  split at item <;> cases item
  next reached => rw [Cursor.next, List.take_add_one, reached, Option.toList_some]

theorem advance_exhausted {d : OrderedDict κ α} {c : Cursor} (ends : d.advance c = .exhausted) :
    d.values.take c.passed = d.values := by
  simp only [advance] at ends
  split_ifs at ends
  split at ends <;> cases ends
  next beyond => exact List.take_of_length_le (List.getElem?_eq_none_iff.mp beyond)

/-- A key has one value. -/
theorem value_unique {d : OrderedDict κ α} {key : κ} {x y : α} (left : (key, x) ∈ d.items)
    (right : (key, y) ∈ d.items) : x = y :=
  congrArg Prod.snd (List.inj_on_of_nodup_map d.nodup left right rfl)

variable [DecidableEq κ]

/-- The value of a key. -/
def get? (d : OrderedDict κ α) (key : κ) : Option α := d.items.lookup key

/-- Assign to a key. -/
def set (d : OrderedDict κ α) (key : κ) (x : α) : OrderedDict κ α :=
  if mem : key ∈ d.keys then
    ⟨d.items.map fun item => if item.1 = key then (key, x) else item, by
      rw [List.map_map, show (Prod.fst ∘ fun item : κ × α => if item.1 = key then (key, x) else item) =
        Prod.fst from funext fun item => by simp only [Function.comp_apply]; split_ifs <;> simp_all]
      exact d.nodup⟩
  else
    ⟨d.items ++ [(key, x)], by
      rw [List.map_append]
      exact d.nodup.append (List.nodup_singleton key) (List.disjoint_singleton.mpr mem)⟩

theorem get?_eq_some_iff {d : OrderedDict κ α} {key : κ} {x : α} :
    d.get? key = some x ↔ (key, x) ∈ d.items := by
  rw [get?, List.lookup_eq_some_iff]
  constructor
  · rintro ⟨before, after, split, _⟩
    rw [split]
    exact List.mem_append_right _ List.mem_cons_self
  · intro mem
    obtain ⟨before, after, split⟩ := List.append_of_mem mem
    refine ⟨before, after, split, fun item inside => bne_iff_ne.mpr fun same => ?_⟩
    have nodup := d.nodup
    rw [split, List.map_append, List.map_cons, List.nodup_append] at nodup
    exact nodup.2.2 item.1 (List.mem_map_of_mem inside) key List.mem_cons_self same.symm

theorem set_items_of_notMem {d : OrderedDict κ α} {key : κ} (fresh : key ∉ d.keys) (x : α) :
    (d.set key x).items = d.items ++ [(key, x)] := by
  rw [set, dif_neg fresh]

theorem mem_items_set {d : OrderedDict κ α} {key other : κ} {x y : α} :
    (other, y) ∈ (d.set key x).items ↔
      other = key ∧ y = x ∨ other ≠ key ∧ (other, y) ∈ d.items := by
  by_cases mem : key ∈ d.keys
  · rw [set, dif_pos mem]
    simp only [List.mem_map, Prod.exists]
    constructor
    · rintro ⟨k, z, inside, image⟩
      split_ifs at image with same
      · cases image
        exact .inl ⟨rfl, rfl⟩
      · cases image
        exact .inr ⟨same, inside⟩
    · rintro (⟨rfl, rfl⟩ | ⟨distinct, inside⟩)
      · obtain ⟨z, inside⟩ := mem_keys_iff.mp mem
        exact ⟨other, z, inside, if_pos rfl⟩
      · exact ⟨other, y, inside, if_neg distinct⟩
  · rw [set_items_of_notMem mem, List.mem_append, List.mem_singleton, Prod.mk.injEq]
    constructor
    · rintro (inside | new)
      · exact .inr ⟨fun same => mem (same ▸ mem_keys_of_mem inside), inside⟩
      · exact .inl new
    · rintro (new | ⟨_, inside⟩)
      · exact .inr new
      · exact .inl inside

theorem mem_keys_set {d : OrderedDict κ α} {key other : κ} {x : α} :
    other ∈ (d.set key x).keys ↔ other = key ∨ other ∈ d.keys := by
  simp only [mem_keys_iff, mem_items_set]
  constructor
  · rintro ⟨y, ⟨same, _⟩ | ⟨_, inside⟩⟩
    · exact .inl same
    · exact .inr ⟨y, inside⟩
  · rintro (same | ⟨y, inside⟩)
    · exact ⟨x, .inl ⟨same, rfl⟩⟩
    · by_cases same : other = key
      · exact ⟨x, .inl ⟨same, rfl⟩⟩
      · exact ⟨y, .inr ⟨same, inside⟩⟩

theorem mem_keys_iff_get? {d : OrderedDict κ α} {key : κ} : key ∈ d.keys ↔ ∃ x, d.get? key = some x := by
  simp only [mem_keys_iff, get?_eq_some_iff]

theorem get?_set (d : OrderedDict κ α) (key other : κ) (x : α) :
    (d.set key x).get? other = if other = key then some x else d.get? other := by
  refine Option.ext fun y => ?_
  rw [get?_eq_some_iff, mem_items_set]
  split_ifs with same
  · simp [same, eq_comm]
  · simp [same, get?_eq_some_iff]

theorem set_items_of_mem {d : OrderedDict κ α} {key : κ} (old : key ∈ d.keys) (x : α) :
    (d.set key x).items = d.items.map fun item => if item.1 = key then (key, x) else item := by
  rw [set, dif_pos old]

theorem set_set (d : OrderedDict κ α) (key : κ) (x y : α) : (d.set key x).set key y = d.set key y := by
  have still : key ∈ (d.set key x).keys := mem_keys_set.mpr (.inl rfl)
  apply OrderedDict.ext
  rw [set_items_of_mem still]
  by_cases old : key ∈ d.keys
  · rw [set_items_of_mem old, set_items_of_mem old, List.map_map]
    refine List.map_congr_left fun item _ => ?_
    simp only [Function.comp_apply]
    split_ifs <;> simp_all
  · rw [set_items_of_notMem old, set_items_of_notMem old, List.map_append, List.map_singleton, if_pos rfl]
    congr 1
    refine (List.map_congr_left fun item inside => ?_).trans (List.map_id _)
    exact if_neg fun same : item.1 = key => old (same ▸ mem_keys_of_mem inside)

/-- The dictionary of pairs, of which a later one replaces an earlier one with the same key. -/
def ofPairs (pairs : List (κ × α)) : OrderedDict κ α := pairs.foldl (fun d pair => d.set pair.1 pair.2) empty

theorem ofPairs_concat (pairs : List (κ × α)) (key : κ) (x : α) :
    ofPairs (pairs ++ [(key, x)]) = (ofPairs pairs).set key x := List.foldl_concat ..

/-- A key has the value of its last pair. -/
theorem get?_ofPairs (pairs : List (κ × α)) (key : κ) :
    (ofPairs pairs).get? key = ((pairs.filter (·.1 = key)).map Prod.snd).getLast? := by
  induction pairs using List.reverseRecOn with
  | nil => rfl
  | append_singleton pairs last ih =>
    rw [ofPairs_concat, get?_set, ih, List.filter_append, List.map_append]
    split_ifs with same
    · rw [List.filter_singleton, decide_eq_true same.symm]
      simp
    · rw [List.filter_singleton, decide_eq_false (Ne.symm same)]
      simp

/-- The items of a dictionary are among its pairs. -/
theorem mem_of_get?_ofPairs {pairs : List (κ × α)} {key : κ} {x : α} (at_ : (ofPairs pairs).get? key = some x) :
    (key, x) ∈ pairs := by
  rw [get?_ofPairs] at at_
  obtain ⟨pair, found, rfl⟩ := List.mem_map.mp (List.mem_of_getLast? at_)
  obtain ⟨mem, same⟩ := List.mem_filter.mp found
  rw [← of_decide_eq_true same]
  exact mem

theorem mem_keys_ofPairs {pairs : List (κ × α)} {key : κ} : key ∈ (ofPairs pairs).keys ↔ key ∈ pairs.map Prod.fst := by
  induction pairs using List.reverseRecOn with
  | nil => exact Iff.rfl
  | append_singleton pairs last ih =>
    rw [ofPairs_concat, mem_keys_set, ih, List.map_append, List.mem_append, List.map_singleton, List.mem_singleton]
    exact or_comm

theorem size_set_le (d : OrderedDict κ α) (key : κ) (x : α) : (d.set key x).size ≤ d.size + 1 := by
  by_cases old : key ∈ d.keys
  · rw [size, set_items_of_mem old, List.length_map]
    exact Nat.le_succ _
  · rw [size, set_items_of_notMem old, List.length_append, List.length_singleton]
    exact Nat.le_refl _

theorem size_ofPairs_le (pairs : List (κ × α)) : (ofPairs pairs).size ≤ pairs.length := by
  induction pairs using List.reverseRecOn with
  | nil => exact Nat.le_refl _
  | append_singleton pairs last ih =>
    rw [ofPairs_concat, List.length_append, List.length_singleton]
    exact Nat.le_trans (size_set_le _ _ _) (Nat.succ_le_succ ih)

/-- A function of the values goes through the making of a dictionary. -/
theorem get?_ofPairs_map {β : Type*} (f : α → β) (pairs : List (κ × α)) (key : κ) :
    (ofPairs (pairs.map fun pair => (pair.1, f pair.2))).get? key = ((ofPairs pairs).get? key).map f := by
  rw [get?_ofPairs, get?_ofPairs, List.filter_map, List.map_map, ← List.getLast?_map, List.map_map]
  rfl

/-- Pairs with distinct keys are the items of their dictionary. -/
theorem ofPairs_items {pairs : List (κ × α)} (distinct : (pairs.map Prod.fst).Nodup) :
    (ofPairs pairs).items = pairs := by
  induction pairs using List.reverseRecOn with
  | nil => rfl
  | append_singleton pairs last ih =>
    rw [List.map_append, List.nodup_append] at distinct
    rw [ofPairs_concat, set_items_of_notMem, ih distinct.1]
    exact fun mem => distinct.2.2 _ (mem_keys_ofPairs.mp mem) _ List.mem_cons_self rfl

end OrderedDict

end MammotionRc.Machine
