import Mathlib.Data.Int.Notation
import Mathlib.Data.List.Induction

/-! # The first of the greatest

A fold that keeps one element of a list: among those that satisfy a test it keeps the one with the greatest key,
and of several with that key the first.
-/

namespace MammotionRc.Machine

variable {α : Type*}

/-- Two occurrences in one list are the same, or one comes before the other. -/
theorem split_cases {pre post pre' post' : List α} {x y : α} (same : pre ++ x :: post = pre' ++ y :: post') :
    (pre = pre' ∧ x = y ∧ post = post') ∨ (x ∈ pre' ∧ y ∈ post) ∨ (y ∈ pre ∧ x ∈ post') := by
  rcases List.append_eq_append_iff.mp same with ⟨between, hpre, hpost⟩ | ⟨between, hpre, hpost⟩
  · cases between with
    | nil =>
      simp only [List.append_nil] at hpre
      simp only [List.nil_append, List.cons.injEq] at hpost
      exact Or.inl ⟨hpre.symm, hpost⟩
    | cons first between =>
      simp only [List.cons_append, List.cons.injEq] at hpost
      obtain ⟨rfl, rfl⟩ := hpost
      exact Or.inr (Or.inl ⟨by simp [hpre], by simp⟩)
  · cases between with
    | nil =>
      simp only [List.append_nil] at hpre
      simp only [List.nil_append, List.cons.injEq] at hpost
      exact Or.inl ⟨hpre, hpost.1.symm, hpost.2.symm⟩
    | cons first between =>
      simp only [List.cons_append, List.cons.injEq] at hpost
      obtain ⟨rfl, rfl⟩ := hpost
      exact Or.inr (Or.inr ⟨by simp [hpre], by simp⟩)

/-- An element with the property, greater than those before it and at least as great as those after it. -/
structure IsFirstMax (P : α → Prop) (key : α → ℤ) (pre : List α) (x : α) (post : List α) : Prop where
  holds : P x
  before : ∀ y ∈ pre, P y → key y < key x
  after : ∀ y ∈ post, P y → key y ≤ key x

namespace IsFirstMax

variable {P : α → Prop} {key : α → ℤ} {pre post pre' post' : List α} {x y : α}

theorem unique (is : IsFirstMax P key pre x post) (is' : IsFirstMax P key pre' y post')
    (same : pre ++ x :: post = pre' ++ y :: post') : x = y := by
  rcases split_cases same with ⟨_, eq, _⟩ | ⟨first, later⟩ | ⟨first, later⟩
  · exact eq
  · have less := is'.before x first is.holds
    have le := is.after y later is'.holds
    omega
  · have less := is.before y first is'.holds
    have le := is'.after x later is.holds
    omega

/-- An element put at the end that is not greater, or has not the property. -/
theorem append (is : IsFirstMax P key pre x post) (le : P y → key y ≤ key x) :
    IsFirstMax P key pre x (post ++ [y]) := by
  refine ⟨is.holds, is.before, fun z inside holds => ?_⟩
  rcases List.mem_append.mp inside with inside | inside
  · exact is.after z inside holds
  · rw [List.mem_singleton.mp inside] at holds ⊢
    exact le holds

/-- A greater element put at the end. -/
theorem replace (is : IsFirstMax P key pre x post) (holds : P y) (greater : key x < key y) :
    IsFirstMax P key (pre ++ x :: post) y [] := by
  refine ⟨holds, fun z inside has => ?_, fun z inside => absurd inside List.not_mem_nil⟩
  rcases List.mem_append.mp inside with inside | inside
  · exact Int.lt_trans (is.before z inside has) greater
  · rcases List.mem_cons.mp inside with rfl | inside
    · exact greater
    · exact Int.lt_of_le_of_lt (is.after z inside has) greater

end IsFirstMax

variable (test : α → Bool) (key : α → ℤ)

/-- Keep the element so far, or the next one if it passes the test with a greater key. -/
def keepGreater (kept : Option α) (x : α) : Option α :=
  if !test x then kept
  else
    match kept with
    | none => some x
    | some y => if key x ≤ key y then some y else some x

def firstMax (xs : List α) : Option α := xs.foldl (keepGreater test key) none

variable {test key} {xs : List α} {x y : α} {kept : Option α}

theorem keepGreater_of_not (fails : test x = false) : keepGreater test key kept x = kept := by simp [keepGreater, fails]

theorem keepGreater_none (passes : test x = true) : keepGreater test key none x = some x := by
  simp [keepGreater, passes]

theorem keepGreater_some (passes : test x = true) :
    keepGreater test key (some y) x = if key x ≤ key y then some y else some x := by simp [keepGreater, passes]

theorem firstMax_append_singleton : firstMax test key (xs ++ [x]) = keepGreater test key (firstMax test key xs) x := by
  rw [firstMax, List.foldl_append]
  rfl

/-- What is known of a list by the element that was kept of it. -/
theorem firstMax_spec (test : α → Bool) (key : α → ℤ) (xs : List α) :
    (firstMax test key xs = none ∧ ∀ y ∈ xs, test y = false) ∨
      ∃ pre x post, firstMax test key xs = some x ∧ xs = pre ++ x :: post ∧ IsFirstMax (test · = true) key pre x post := by
  induction xs using List.reverseRecOn with
  | nil => exact Or.inl ⟨rfl, fun y inside => absurd inside List.not_mem_nil⟩
  | append_singleton xs z ih =>
    rw [firstMax_append_singleton]
    rcases ih with ⟨found, fails⟩ | ⟨pre, x, post, found, rfl, is⟩
    · rw [found]
      cases passes : test z with
      | false =>
        refine Or.inl ⟨keepGreater_of_not passes, List.forall_mem_append.mpr ⟨fails, ?_⟩⟩
        exact List.forall_mem_singleton.mpr passes
      | true =>
        refine Or.inr ⟨xs, z, [], keepGreater_none passes, rfl, passes, fun y inside holds => ?_, fun y inside => ?_⟩
        · rw [fails y inside] at holds
          cases holds
        · exact absurd inside List.not_mem_nil
    · rw [found]
      cases passes : test z with
      | false =>
        refine Or.inr ⟨pre, x, post ++ [z], keepGreater_of_not passes, by simp, is.append fun holds => ?_⟩
        rw [passes] at holds
        cases holds
      | true =>
        rw [keepGreater_some passes]
        split
        · next le => exact Or.inr ⟨pre, x, post ++ [z], rfl, by simp, is.append fun _ => le⟩
        · next greater => exact Or.inr ⟨_, z, [], rfl, rfl, is.replace passes (Int.not_le.mp greater)⟩

theorem exists_of_firstMax (found : firstMax test key xs = some x) :
    ∃ pre post, xs = pre ++ x :: post ∧ IsFirstMax (test · = true) key pre x post := by
  rcases firstMax_spec test key xs with ⟨none_, _⟩ | ⟨pre, y, post, some_, split_, is⟩
  · rw [none_] at found
    cases found
  · rw [some_] at found
    cases found
    exact ⟨pre, post, split_, is⟩

theorem firstMax_isSome_of_mem (key : α → ℤ) (inside : x ∈ xs) (passes : test x = true) :
    ∃ y, firstMax test key xs = some y := by
  rcases firstMax_spec test key xs with ⟨_, fails⟩ | ⟨_, y, _, found, _⟩
  · rw [fails x inside] at passes
    cases passes
  · exact ⟨y, found⟩

end MammotionRc.Machine
