import Mathlib.Data.List.Sublists

/-! # A single-slot mailbox that keeps the newest value

One task puts values into a slot and raises a flag; another clears the flag and takes what is there. A
value put while the flag is up replaces the one before it and is counted as dropped, if anybody counts.
`Tracks` relates the slot to everything received and taken so far, whatever the order of the two tasks,
and `Accounts` adds the number of values that were replaced.
-/

namespace MammotionRc.Machine

structure LatestSlot (α : Type*) where
  pending : Option α
  flag : Bool
  /-- Values this mailbox saw replaced. -/
  dropped : ℕ
deriving DecidableEq, Repr

namespace LatestSlot

variable {α : Type*}

def empty : LatestSlot α := ⟨none, false, 0⟩

/-- Store a value and raise the flag. -/
def put (slot : LatestSlot α) (counted : Bool) (x : α) : LatestSlot α :=
  { pending := some x
    flag := true
    dropped := if slot.flag && counted then slot.dropped + 1 else slot.dropped }

/-- Clear the flag and empty the slot. -/
def take (slot : LatestSlot α) : LatestSlot α := { slot with pending := none, flag := false }

/-- The slot after `received` was put into it and `taken` was taken out, in some interleaving. -/
structure Tracks (slot : LatestSlot α) (received taken : List α) : Prop where
  flag : slot.flag = slot.pending.isSome
  split : ∃ earlier, received = earlier ++ slot.pending.toList ∧ taken.Sublist earlier
  caughtUp : slot.pending = none → taken.getLast? = received.getLast?

/-- Every value received was taken, was replaced, or is in the slot. -/
def Accounts (slot : LatestSlot α) (received taken : List α) : Prop :=
  received.length = taken.length + slot.dropped + slot.pending.toList.length

theorem tracks_empty : Tracks (empty : LatestSlot α) [] [] :=
  ⟨rfl, ⟨[], rfl, .refl _⟩, fun _ => rfl⟩

theorem accounts_empty : Accounts (empty : LatestSlot α) [] [] := rfl

variable {slot : LatestSlot α} {received taken : List α} {x : α}

theorem Tracks.put (tracks : slot.Tracks received taken) (counted : Bool) (x : α) :
    (slot.put counted x).Tracks (received ++ [x]) taken := by
  obtain ⟨_, ⟨earlier, split, sub⟩, _⟩ := tracks
  refine ⟨rfl, ⟨received, rfl, ?_⟩, nofun⟩
  rw [split]
  exact sub.trans (List.sublist_append_left _ _)

theorem Tracks.take (tracks : slot.Tracks received taken) (full : slot.pending = some x) :
    slot.take.Tracks received (taken ++ [x]) := by
  obtain ⟨_, ⟨earlier, split, sub⟩, _⟩ := tracks
  rw [full, Option.toList_some] at split
  refine ⟨rfl, ⟨received, (List.append_nil _).symm, ?_⟩, fun _ => ?_⟩
  · rw [split]
    exact sub.append_right _
  · rw [split, List.getLast?_concat, List.getLast?_concat]

/-- Taking from an empty slot changes nothing that is tracked. -/
theorem Tracks.take_empty (tracks : slot.Tracks received taken) (vacant : slot.pending = none) :
    slot.take.Tracks received taken := by
  obtain ⟨_, split, caughtUp⟩ := tracks
  rw [vacant] at split
  exact ⟨rfl, split, fun _ => caughtUp vacant⟩

theorem Tracks.sublist (tracks : slot.Tracks received taken) : taken.Sublist received := by
  obtain ⟨earlier, split, sub⟩ := tracks.split
  rw [split]
  exact sub.trans (List.sublist_append_left _ _)

/-- Once the flag is down nothing waits in the slot. -/
theorem Tracks.vacant_of_flag (tracks : slot.Tracks received taken) (down : slot.flag = false) :
    slot.pending = none := by
  rw [tracks.flag] at down
  exact Option.isNone_iff_eq_none.mp (Option.isSome_eq_false_iff.mp down)

theorem Accounts.put (accounts : slot.Accounts received taken)
    (flag : slot.flag = slot.pending.isSome) (x : α) :
    (slot.put true x).Accounts (received ++ [x]) taken := by
  simp only [Accounts] at accounts
  simp only [Accounts, LatestSlot.put, flag, List.length_append, List.length_singleton, accounts,
    Option.toList_some, Bool.and_true]
  cases slot.pending with
  | none => simp
  | some _ => simp; omega

theorem Accounts.take (accounts : slot.Accounts received taken) (full : slot.pending = some x) :
    slot.take.Accounts received (taken ++ [x]) := by
  simp only [Accounts, full, Option.toList_some, List.length_singleton] at accounts
  simp only [Accounts, LatestSlot.take, List.length_append, List.length_singleton, accounts,
    Option.toList_none, List.length_nil]
  omega

theorem Accounts.take_empty (accounts : slot.Accounts received taken)
    (vacant : slot.pending = none) : slot.take.Accounts received taken := by
  simp only [Accounts, vacant] at accounts
  exact accounts

end LatestSlot

end MammotionRc.Machine
