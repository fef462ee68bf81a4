import Mathlib.Data.List.Infix
import Mathlib.Order.Basic

/-! # Codes of which no word starts another

A stream of such words can be read in one way only. Every list of symbols is a stream followed by a tail at
which no word starts, and that stream is the longest one that the list starts with.
-/

namespace MammotionRc.Machine

/-- Words for the values of a type. None is empty, and none is the beginning of another. -/
structure PrefixCode (β α : Type*) where
  encode : β → List α
  encode_ne_nil : ∀ x, encode x ≠ []
  eq_of_starts : ∀ {x y}, encode x <+: encode y → x = y

namespace PrefixCode

variable {α β : Type*} (C : PrefixCode β α) {data tail : List α} {xs ys : List β}

/-- The words of some values, one behind the other. -/
def stream (xs : List β) : List α := xs.flatMap C.encode

/-- No word starts here. -/
def Ends (tail : List α) : Prop := ∀ x, ¬C.encode x <+: tail

/-- The values make up the longest stream that the data start with. -/
structure IsLongest (data : List α) (xs : List β) : Prop where
  stream_starts : C.stream xs <+: data
  longest : ∀ ys, C.stream ys <+: data → (C.stream ys).length ≤ (C.stream xs).length

@[simp] theorem stream_cons (x : β) (xs : List β) : C.stream (x :: xs) = C.encode x ++ C.stream xs := rfl

theorem stream_append (xs ys : List β) : C.stream (xs ++ ys) = C.stream xs ++ C.stream ys :=
  List.flatMap_append

theorem ends_nil : C.Ends [] := fun x start => C.encode_ne_nil x (List.prefix_nil.mp start)

theorem eq_nil_of_stream (empty : C.stream xs = []) : xs = [] := by
  cases xs with
  | nil => rfl
  | cons x xs =>
    rw [stream_cons, List.append_eq_nil_iff] at empty
    exact absurd empty.1 (C.encode_ne_nil x)

/-- Two words at the beginning of the same list are the same word. -/
theorem eq_of_append {x y : β} {first second : List α}
    (start : C.encode x ++ first <+: C.encode y ++ second) : x = y ∧ first <+: second := by
  have one : C.encode x <+: C.encode y ++ second := (List.prefix_append _ _).trans start
  have same : x = y := by
    rcases List.prefix_or_prefix_of_prefix one (List.prefix_append (C.encode y) second) with before | before
    · exact C.eq_of_starts before
    · exact (C.eq_of_starts before).symm
  subst same
  exact ⟨rfl, (List.prefix_append_right_inj _).mp start⟩

/-- Where no word starts behind a stream, every other stream in front is a part of it. -/
theorem prefix_of_starts (ends : C.Ends tail) (start : C.stream ys <+: C.stream xs ++ tail) : ys <+: xs := by
  induction ys generalizing xs with
  | nil => exact List.nil_prefix
  | cons y ys ih =>
    rw [stream_cons] at start
    cases xs with
    | nil =>
      have first : C.encode y <+: tail := (List.prefix_append _ _).trans start
      exact absurd first (ends y)
    | cons x xs =>
      rw [stream_cons, List.append_assoc] at start
      obtain ⟨same, rest⟩ := C.eq_of_append start
      rw [same]
      exact (List.prefix_append_right_inj [x]).mpr (ih rest)

theorem isLongest_of_ends (ends : C.Ends tail) : C.IsLongest (C.stream xs ++ tail) xs where
  stream_starts := List.prefix_append _ _
  longest ys start := by
    obtain ⟨rest, rfl⟩ := C.prefix_of_starts ends start
    rw [stream_append, List.length_append]
    exact Nat.le_add_right _ _

/-- Every list is a stream up to where no word starts. -/
theorem exists_stream (data : List α) : ∃ xs tail, data = C.stream xs ++ tail ∧ C.Ends tail := by
  induction size : data.length using Nat.strong_induction_on generalizing data with
  | _ n ih =>
    by_cases ends : C.Ends data
    · exact ⟨[], data, rfl, ends⟩
    · obtain ⟨x, rest, rfl⟩ : ∃ x, C.encode x <+: data := by simpa [Ends] using ends
      have word : 0 < (C.encode x).length := List.length_pos_iff.mpr (C.encode_ne_nil x)
      have shorter : rest.length < n := by
        rw [← size, List.length_append]
        omega
      obtain ⟨xs, tail, split, ends⟩ := ih rest.length shorter rest rfl
      exact ⟨x :: xs, tail, by rw [split, stream_cons, List.append_assoc], ends⟩

/-- A loop over indices that takes a word in one pass takes a stream in many. -/
theorem loop_stream {γ τ : Type*} (loop : List α → ℕ → List γ → τ) (item : β → γ)
    (pass : ∀ front x tail out, loop (front ++ (C.encode x ++ tail)) front.length out =
      loop (front ++ C.encode x ++ tail) (front ++ C.encode x).length (out ++ [item x]))
    (xs : List β) (front tail : List α) (out : List γ) :
    loop (front ++ (C.stream xs ++ tail)) front.length out =
      loop (front ++ C.stream xs ++ tail) (front ++ C.stream xs).length (out ++ xs.map item) := by
  induction xs generalizing front out with
  | nil =>
    have none_here : front ++ C.stream [] = front := List.append_nil front
    rw [none_here, List.map_nil, List.append_nil]
    rfl
  | cons x xs ih =>
    have joined : front ++ C.encode x ++ C.stream xs = front ++ C.stream (x :: xs) := List.append_assoc ..
    calc loop (front ++ (C.stream (x :: xs) ++ tail)) front.length out
        = loop (front ++ (C.encode x ++ (C.stream xs ++ tail))) front.length out := by
          rw [stream_cons, List.append_assoc]
      _ = loop (front ++ C.encode x ++ (C.stream xs ++ tail)) (front ++ C.encode x).length (out ++ [item x]) :=
          pass _ _ _ _
      _ = loop (front ++ C.encode x ++ C.stream xs ++ tail) (front ++ C.encode x ++ C.stream xs).length
            (out ++ [item x] ++ xs.map item) := ih _ _
      _ = _ := by rw [joined, List.append_assoc out, List.map_cons, List.singleton_append]

variable {C} in
/-- There is one longest stream only. -/
theorem IsLongest.unique (one : C.IsLongest data xs) (other : C.IsLongest data ys) : xs = ys := by
  obtain ⟨zs, tail, split, ends⟩ := C.exists_stream data
  have whole : C.stream zs <+: data := ⟨tail, split.symm⟩
  have is_zs {xs : List β} (longest : C.IsLongest data xs) : xs = zs := by
    obtain ⟨rest, joined⟩ := C.prefix_of_starts ends (split ▸ longest.stream_starts)
    have length := longest.longest zs whole
    rw [← joined, stream_append, List.length_append] at length
    have none_left : rest = [] := C.eq_nil_of_stream (List.eq_nil_of_length_eq_zero (by omega))
    rw [← joined, none_left, List.append_nil]
  rw [is_zs one, is_zs other]

end PrefixCode

end MammotionRc.Machine
