import MammotionRc.Machine.OrderedDict
import Mathlib.Data.List.Perm.Basic

/-! # The first of each key, and all of each key

Two ways to go over a list by a key: a loop that remembers the keys it has seen keeps the first item of each, and
`d.setdefault(key, []).append(x)` gathers the items of each.
-/

namespace MammotionRc.Machine

variable {κ α : Type*} [DecidableEq κ]

section FirstOfEach

variable (key : α → κ)

/-- The first item of each key, in order. -/
def firstOfEach : List α → List α
  | [] => []
  | x :: rest => x :: (firstOfEach rest).filter fun y => key y ≠ key x

variable {key} {xs : List α} {x : α}

@[simp] theorem firstOfEach_nil : firstOfEach key [] = [] := rfl

theorem firstOfEach_cons (x : α) (rest : List α) :
    firstOfEach key (x :: rest) = x :: (firstOfEach key rest).filter fun y => key y ≠ key x := rfl

theorem mem_firstOfEach : x ∈ firstOfEach key xs ↔ xs.find? (fun y => key y = key x) = some x := by
  induction xs with
  | nil => simp
  | cons y rest ih =>
    rw [firstOfEach_cons, List.mem_cons, List.mem_filter, List.find?_cons]
    by_cases same : key y = key x
    · simp [same, eq_comm]
    · have other : x ≠ y := fun equal => same (equal ▸ rfl)
      simp [same, other, ih, Ne.symm same]

theorem firstOfEach_keys {k : κ} : k ∈ (firstOfEach key xs).map key ↔ k ∈ xs.map key := by
  induction xs with
  | nil => simp
  | cons y rest ih =>
    rw [firstOfEach_cons, List.map_cons, List.map_cons, List.mem_cons, List.mem_cons]
    by_cases same : k = key y
    · simp [same]
    · simp only [same, false_or, ← ih, List.mem_map, List.mem_filter, decide_eq_true_eq]
      constructor
      · rintro ⟨x, ⟨mem, _⟩, is⟩
        exact ⟨x, mem, is⟩
      · rintro ⟨x, mem, is⟩
        exact ⟨x, ⟨mem, is ▸ same⟩, is⟩

theorem nodup_firstOfEach : ((firstOfEach key xs).map key).Nodup := by
  induction xs with
  | nil => exact List.nodup_nil
  | cons y rest ih =>
    rw [firstOfEach_cons, List.map_cons, List.nodup_cons]
    constructor
    · simp
    · exact ih.sublist (List.filter_sublist.map key)

theorem firstOfEach_concat (xs : List α) (x : α) :
    firstOfEach key (xs ++ [x]) =
      if key x ∈ xs.map key then firstOfEach key xs else firstOfEach key xs ++ [x] := by
  induction xs with
  | nil => simp [firstOfEach_cons]
  | cons y rest ih =>
    rw [List.cons_append, firstOfEach_cons, ih, firstOfEach_cons]
    by_cases inside : key x ∈ rest.map key
    · have still : key x ∈ (y :: rest).map key := List.mem_cons_of_mem _ inside
      rw [if_pos inside, if_pos still]
    · rw [if_neg inside, List.filter_append]
      by_cases same : key x = key y
      · have repeated : key x ∈ (y :: rest).map key := same ▸ List.mem_cons_self
        rw [if_pos repeated]
        simp [same]
      · have fresh : key x ∉ (y :: rest).map key := List.not_mem_cons_of_ne_of_not_mem same inside
        rw [if_neg fresh]
        simp [same]

/-- A loop that stops recording when it has `n` items need only look at those. -/
theorem take_firstOfEach_concat (xs : List α) (x : α) (n : ℕ) :
    (firstOfEach key (xs ++ [x])).take n =
      if ((firstOfEach key xs).take n).length = n ∨ key x ∈ ((firstOfEach key xs).take n).map key then
        (firstOfEach key xs).take n else (firstOfEach key xs).take n ++ [x] := by
  have known : key x ∈ xs.map key ↔ key x ∈ (firstOfEach key xs).map key := firstOfEach_keys.symm
  rw [firstOfEach_concat]
  by_cases full : n ≤ (firstOfEach key xs).length
  · have enough : ((firstOfEach key xs).take n).length = n := List.length_take_of_le full
    rw [enough, if_pos (Or.inl rfl)]
    split_ifs
    · rfl
    · exact List.take_append_of_le_length full
  · have all : (firstOfEach key xs).take n = firstOfEach key xs := List.take_of_length_le (by omega)
    have short : ¬ (firstOfEach key xs).length = n := by omega
    simp only [all, short, false_or, ← known]
    split_ifs
    · exact all
    · exact List.take_of_length_le (by rw [List.length_append, List.length_singleton]; omega)

end FirstOfEach

namespace OrderedDict

/-- `d.setdefault(key, []).append(x)`. -/
def gather (d : OrderedDict κ (List α)) (pair : κ × α) : OrderedDict κ (List α) :=
  d.set pair.1 ((d.get? pair.1).getD [] ++ [pair.2])

/-- The items of each key. -/
def groups (pairs : List (κ × α)) : OrderedDict κ (List α) := pairs.foldl gather empty

/-- The pairs that a dictionary of lists has gathered. -/
def ungrouped (d : OrderedDict κ (List α)) : List (κ × α) :=
  d.items.flatMap fun item => item.2.map fun x => (item.1, x)

theorem gather_ungrouped (d : OrderedDict κ (List α)) (pair : κ × α) :
    (d.gather pair).ungrouped.Perm (pair :: d.ungrouped) := by
  obtain ⟨key, x⟩ := pair
  by_cases old : key ∈ d.keys
  · obtain ⟨xs, mem⟩ := mem_keys_iff.mp old
    obtain ⟨before, after, split⟩ := List.append_of_mem mem
    have nodup := d.nodup
    rw [split, List.map_append, List.map_cons, List.nodup_append, List.nodup_cons] at nodup
    have others (items : List (κ × List α)) (fresh : key ∉ items.map Prod.fst) (ys : List α) :
        items.map (fun item => if item.1 = key then (key, ys) else item) = items := by
      refine (List.map_congr_left fun item inside => ?_).trans (List.map_id _)
      exact if_neg fun same : item.1 = key => fresh (same ▸ List.mem_map_of_mem inside)
    have now : (d.gather (key, x)).items = before ++ (key, xs ++ [x]) :: after := by
      rw [gather, set_items_of_mem old, get?_eq_some_iff.mpr mem, Option.getD_some, split, List.map_append,
        List.map_cons, others before fun inside => nodup.2.2 _ inside _ List.mem_cons_self rfl,
        others after nodup.2.1.1, if_pos rfl]
    rw [ungrouped, ungrouped, now, split]
    simp only [List.flatMap_append, List.flatMap_cons, List.map_append, List.map_cons, List.map_nil, List.append_assoc,
      List.cons_append, List.nil_append]
    rw [← List.append_assoc, ← List.append_assoc]
    exact List.perm_middle
  · rw [ungrouped, ungrouped, gather, set_items_of_notMem old, List.flatMap_append]
    have none_ : d.get? key = none := by
      refine Option.eq_none_iff_forall_not_mem.mpr fun xs at_ => old ?_
      exact mem_keys_of_mem (get?_eq_some_iff.mp at_)
    simp only [none_, Option.getD_none, List.nil_append, List.flatMap_cons, List.flatMap_nil, List.map_cons,
      List.map_nil, List.append_nil]
    exact List.perm_append_singleton _ _

/-- Gathering loses nothing and repeats nothing. -/
theorem groups_ungrouped (pairs : List (κ × α)) : (groups pairs).ungrouped.Perm pairs := by
  induction pairs using List.reverseRecOn with
  | nil => exact .refl _
  | append_singleton pairs pair ih =>
    rw [groups, List.foldl_concat]
    exact (gather_ungrouped _ pair).trans ((ih.cons pair).trans (List.perm_append_singleton pair pairs).symm)

end OrderedDict

end MammotionRc.Machine
