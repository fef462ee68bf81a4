import Mathlib.Data.Int.Notation
import Mathlib.Data.List.Basic

/-! # A deque between two rooms

A list with so much room in front of it and so much behind it. Items go in at either end while there is
room, and taking items out leaves the room they took.
-/

namespace MammotionRc.Machine

structure RoomedDeque (α : Type*) where
  front : ℕ
  items : List α
  back : ℕ
deriving DecidableEq, Repr

namespace RoomedDeque

variable {α : Type*}

/-- An empty deque of `capacity` with its cut at `front`. -/
def empty (front capacity : ℕ) : RoomedDeque α := ⟨front, [], capacity - front⟩

def capacity (d : RoomedDeque α) : ℕ := d.front + d.items.length + d.back

def prepend (d : RoomedDeque α) (xs : List α) : Option (RoomedDeque α) :=
  if xs.length ≤ d.front then some ⟨d.front - xs.length, xs ++ d.items, d.back⟩ else none

def append (d : RoomedDeque α) (xs : List α) : Option (RoomedDeque α) :=
  if xs.length ≤ d.back then some ⟨d.front, d.items ++ xs, d.back - xs.length⟩ else none

def popFront (d : RoomedDeque α) (n : ℕ) : Option (List α) × RoomedDeque α :=
  if n ≤ d.items.length then (some (d.items.take n), ⟨d.front + n, d.items.drop n, d.back⟩) else (none, d)

def popBack (d : RoomedDeque α) (n : ℕ) : Option (List α) × RoomedDeque α :=
  if n ≤ d.items.length then
    (some (d.items.drop (d.items.length - n)),
      ⟨d.front, d.items.take (d.items.length - n), d.back + n⟩)
  else (none, d)

/-- Keep the first `n` items. -/
def keep (d : RoomedDeque α) (n : ℕ) : Option (RoomedDeque α) :=
  if n ≤ d.items.length then some ⟨d.front, d.items.take n, d.back + (d.items.length - n)⟩ else none

/-- Move the cut of an empty deque. -/
def shift (d : RoomedDeque α) (delta : ℤ) : Option (RoomedDeque α) :=
  if d.items = [] ∧ 0 ≤ d.front + delta ∧ d.front + delta ≤ d.capacity then
    some ⟨(d.front + delta).toNat, [], d.capacity - (d.front + delta).toNat⟩
  else none

theorem append_of_le {d : RoomedDeque α} {xs : List α} (fits : xs.length ≤ d.back) :
    d.append xs = some ⟨d.front, d.items ++ xs, d.back - xs.length⟩ := if_pos fits

/-- Pieces appended one after the other are appended as one. -/
theorem foldlM_append {d : RoomedDeque α} {pieces : List (List α)} (room : pieces.flatten.length ≤ d.back) :
    pieces.foldlM append d = some ⟨d.front, d.items ++ pieces.flatten, d.back - pieces.flatten.length⟩ := by
  induction pieces generalizing d with
  | nil => simp
  | cons piece rest ih =>
    rw [List.flatten_cons, List.length_append] at room
    have fits : piece.length ≤ d.back := by omega
    rw [List.foldlM_cons, append_of_le fits]
    change rest.foldlM append _ = _
    rw [ih (by dsimp only; omega), List.flatten_cons, List.length_append, List.append_assoc, Nat.sub_sub]

end RoomedDeque

end MammotionRc.Machine
