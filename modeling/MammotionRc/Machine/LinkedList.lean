import Mathlib.Data.List.Nodup
import Mathlib.Logic.Function.Basic

/-! # Singly linked lists in a heap of nodes

The heap gives each node the next one. A segment is a list of nodes each of which points to the one after it and
whose last points to `stop`; a whole linked list is a segment that stops at `none`. The lemmas say how segments are
cut and joined and which writes leave them alone.
-/

namespace MammotionRc.Machine

variable {ν : Type*}

/-- The nodes of `xs` are linked in order, and the last one points to `stop`. -/
def Segment (next : ν → Option ν) (stop : Option ν) : List ν → Prop
  | [] => True
  | p :: rest => next p = rest.head?.or stop ∧ Segment next stop rest

/-- A linked list that ends in a null pointer. -/
def Linked (next : ν → Option ν) (xs : List ν) : Prop := Segment next none xs

namespace Segment

variable {next next' : ν → Option ν} {stop : Option ν} {xs ys : List ν} {p q : ν}

@[simp] theorem nil : Segment next stop [] := trivial

theorem cons : Segment next stop (p :: xs) ↔ next p = xs.head?.or stop ∧ Segment next stop xs := Iff.rfl

/-- A segment is cut where the second part begins. -/
theorem append : Segment next stop (xs ++ ys) ↔ Segment next (ys.head?.or stop) xs ∧ Segment next stop ys := by
  induction xs with
  | nil => simp
  | cons p xs ih =>
    rw [List.cons_append, cons, cons, ih, List.head?_append, Option.or_assoc, and_assoc]

/-- Writes to other nodes leave a segment alone. -/
theorem congr (segment : Segment next stop xs) (same : ∀ p ∈ xs, next' p = next p) : Segment next' stop xs := by
  induction xs with
  | nil => exact nil
  | cons p xs ih =>
    obtain ⟨points, rest⟩ := segment
    exact ⟨(same p List.mem_cons_self).trans points, ih rest fun q inside => same q (List.mem_cons_of_mem p inside)⟩

/-- A write to a node outside a segment. -/
theorem update [DecidableEq ν] {target : Option ν} (segment : Segment next stop xs) (outside : p ∉ xs) :
    Segment (Function.update next p target) stop xs := by
  refine segment.congr fun q inside => Function.update_of_ne ?_ _ _
  rintro rfl
  exact outside inside

/-- The last node of a segment is redirected. -/
theorem redirect [DecidableEq ν] {target : Option ν} (segment : Segment next stop (xs ++ [p])) (once : p ∉ xs) :
    Segment (Function.update next p target) target (xs ++ [p]) := by
  rw [append] at segment ⊢
  obtain ⟨front, -⟩ := segment
  exact ⟨front.update once, by simp [Segment]⟩

/-- What a node points to is the head of what comes after it. -/
theorem next_eq (segment : Segment next stop (xs ++ p :: ys)) : next p = ys.head?.or stop :=
  (cons.mp (append.mp segment).2).1

end Segment

theorem Linked.next_eq {next : ν → Option ν} {xs ys : List ν} {p : ν} (linked : Linked next (xs ++ p :: ys)) :
    next p = ys.head? := by
  rw [Segment.next_eq linked, Option.or_none]

end MammotionRc.Machine
