import Mathlib.Data.List.Pairwise
import Mathlib.Data.List.Basic

/-! # Runs behind a lock that is only tried

A run enters if the lock is free, and is refused otherwise. It then has turns, in each of which it may act, until
it ends and gives the lock back. The log has the actions of all runs, each with the number of its run. Where runs
only enter when the lock is free, one run is active at a time and the actions of two runs do not mix.
-/

namespace MammotionRc.Machine

/-- The runs in the order of their entries. -/
structure TryLock (ρ α : Type*) where
  runs : List ρ
  locked : Bool
  log : List (ℕ × α)

namespace TryLock

variable {ρ α : Type*} (ended : ρ → Bool)

def empty : TryLock ρ α := ⟨[], false, []⟩

/-- A new run takes the lock and has its first turn. -/
def enter (s : TryLock ρ α) (turn : ρ × List α) : TryLock ρ α where
  runs := s.runs ++ [turn.1]
  locked := !ended turn.1
  log := s.log ++ turn.2.map fun a => (s.runs.length, a)

/-- Run `i` has a turn; with its end it gives the lock back. -/
def resume (s : TryLock ρ α) (i : ℕ) (turn : ρ × List α) : TryLock ρ α where
  runs := s.runs.set i turn.1
  locked := if ended turn.1 then false else s.locked
  log := s.log ++ turn.2.map fun a => (i, a)

/-- Something happens to the runs that is no turn of theirs. -/
def revise (s : TryLock ρ α) (f : ρ → ρ) : TryLock ρ α := { s with runs := s.runs.map f }

/-- The actions of run `i`. -/
def logOf (s : TryLock ρ α) (i : ℕ) : List α := (s.log.filter (·.1 = i)).map Prod.snd

/-- Only the last run may be active, it is the one that holds the lock, and the actions are those of one run after
the other. -/
structure Exclusive (s : TryLock ρ α) : Prop where
  last : ∀ i r, s.runs[i]? = some r → ended r = false → i + 1 = s.runs.length
  held : s.locked = true ↔ ∃ r ∈ s.runs, ended r = false
  logged : ∀ x ∈ s.log, x.1 < s.runs.length
  grouped : (s.log.map Prod.fst).Pairwise (· ≤ ·)

/-- Every run is as its actions tell. -/
def EachRun (P : ρ → List α → Prop) (s : TryLock ρ α) : Prop := ∀ i r, s.runs[i]? = some r → P r (s.logOf i)

variable {ended} {s : TryLock ρ α} {turn : ρ × List α} {i : ℕ} {r : ρ} {f : ρ → ρ} {P : ρ → List α → Prop}

theorem Exclusive.empty : Exclusive ended (TryLock.empty : TryLock ρ α) := by
  refine ⟨fun _ _ at_ => ?_, ?_, fun _ inside => absurd inside List.not_mem_nil, List.Pairwise.nil⟩
  · cases at_
  · simp [TryLock.empty]

theorem Exclusive.eq_of_active (exclusive : Exclusive ended s) {j : ℕ} {r' : ρ} (at_ : s.runs[i]? = some r)
    (active : ended r = false) (at' : s.runs[j]? = some r') (active' : ended r' = false) : i = j := by
  have first := exclusive.last i r at_ active
  have second := exclusive.last j r' at' active'
  omega

/-- Actions of a run that is not overtaken go to the end of the log. -/
theorem Exclusive.pairwise_append (exclusive : Exclusive ended s) (acts : List α) (newest : s.runs.length ≤ i + 1) :
    ((s.log ++ acts.map fun a => (i, a)).map Prod.fst).Pairwise (· ≤ ·) := by
  rw [List.map_append, List.pairwise_append]
  refine ⟨exclusive.grouped, ?_, ?_⟩
  · rw [List.map_map]
    exact List.pairwise_map.mpr (List.pairwise_of_forall fun _ _ => Nat.le_refl i)
  · intro n before m new
    obtain ⟨x, inside, rfl⟩ := List.mem_map.mp before
    obtain ⟨y, acted, rfl⟩ := List.mem_map.mp new
    obtain ⟨a, _, rfl⟩ := List.mem_map.mp acted
    have := exclusive.logged x inside
    dsimp only
    omega

theorem Exclusive.enter (exclusive : Exclusive ended s) (free : s.locked = false) (turn : ρ × List α) :
    Exclusive ended (s.enter ended turn) := by
  have allEnded (r : ρ) (inside : r ∈ s.runs) : ended r = true := by
    by_contra active
    exact Bool.noConfusion (free.symm.trans (exclusive.held.mpr ⟨r, inside, (Bool.not_eq_true _).mp active⟩))
  refine ⟨?_, ?_, ?_, ?_⟩
  · intro i r at_ active
    simp only [TryLock.enter, List.length_append, List.length_singleton] at at_ ⊢
    by_cases old : i < s.runs.length
    · rw [List.getElem?_append_left old] at at_
      rw [allEnded r (List.mem_of_getElem? at_)] at active
      cases active
    · have bound := (List.getElem?_eq_some_iff.mp at_).1
      simp only [List.length_append, List.length_singleton] at bound
      omega
  · simp only [TryLock.enter, List.mem_append, List.mem_singleton]
    constructor
    · intro active
      exact ⟨turn.1, .inr rfl, by simpa using active⟩
    · rintro ⟨r, old | rfl, active⟩
      · rw [allEnded r old] at active
        cases active
      · rw [active]
        rfl
  · intro x inside
    simp only [TryLock.enter, List.length_append, List.length_singleton] at inside ⊢
    obtain old | new := List.mem_append.mp inside
    · have := exclusive.logged x old
      omega
    · obtain ⟨a, _, rfl⟩ := List.mem_map.mp new
      exact Nat.lt_succ_self _
  · exact exclusive.pairwise_append turn.2 (Nat.le_succ _)

theorem Exclusive.resume (exclusive : Exclusive ended s) (at_ : s.runs[i]? = some r) (active : ended r = false)
    (turn : ρ × List α) : Exclusive ended (s.resume ended i turn) := by
  have newest := exclusive.last i r at_ active
  have bound := (List.getElem?_eq_some_iff.mp at_).1
  have locked : s.locked = true := exclusive.held.mpr ⟨r, List.mem_of_getElem? at_, active⟩
  refine ⟨?_, ?_, ?_, ?_⟩
  · intro j r' at' active'
    simp only [TryLock.resume, List.length_set] at at' ⊢
    by_cases same : j = i
    · rw [same]
      exact newest
    · rw [List.getElem?_set_ne (Ne.symm same)] at at'
      exact exclusive.last j r' at' active'
  · simp only [TryLock.resume, locked]
    constructor
    · intro kept
      refine ⟨turn.1, List.mem_set bound _, ?_⟩
      by_contra ends
      rw [if_pos ((Bool.not_eq_false _).mp ends)] at kept
      cases kept
    · rintro ⟨r', inside, active'⟩
      obtain ⟨j, bound', rfl⟩ := List.getElem_of_mem inside
      by_cases same : i = j
      · subst same
        rw [List.getElem_set_self] at active'
        rw [if_neg (by rw [active']; exact Bool.false_ne_true)]
      · rw [List.getElem_set_ne same] at active'
        rw [List.length_set] at bound'
        have := exclusive.last j _ (List.getElem?_eq_getElem bound') active'
        omega
  · intro x inside
    simp only [TryLock.resume, List.length_set] at inside ⊢
    obtain old | new := List.mem_append.mp inside
    · exact exclusive.logged x old
    · obtain ⟨a, _, rfl⟩ := List.mem_map.mp new
      exact bound
  · exact exclusive.pairwise_append turn.2 (by omega)

theorem Exclusive.revise (exclusive : Exclusive ended s) (same : ∀ r, ended (f r) = ended r) :
    Exclusive ended (s.revise f) := by
  refine ⟨?_, ?_, ?_, exclusive.grouped⟩
  · intro i r at_ active
    simp only [TryLock.revise, List.getElem?_map, List.length_map] at at_ ⊢
    obtain ⟨r, before, rfl⟩ := Option.map_eq_some_iff.mp at_
    exact exclusive.last i r before ((same r).symm.trans active)
  · simp [TryLock.revise, exclusive.held, same]
  · intro x inside
    rw [TryLock.revise, List.length_map]
    exact exclusive.logged x inside

theorem logOf_append (s : TryLock ρ α) (j : ℕ) (acts : List α) :
    (((s.log ++ acts.map fun a => (j, a)).filter (·.1 = i)).map Prod.snd) =
      s.logOf i ++ if i = j then acts else [] := by
  rw [List.filter_append, List.map_append, List.filter_map, logOf]
  by_cases same : i = j
  · simp [same, Function.comp_def]
  · simp [same, Ne.symm same, Function.comp_def]

theorem EachRun.enter (each : EachRun P s) (exclusive : Exclusive ended s) (first : P turn.1 turn.2) :
    EachRun P (s.enter ended turn) := by
  intro i r at_
  have acts : (s.enter ended turn).logOf i = _ := logOf_append s s.runs.length turn.2
  rw [acts]
  by_cases new : i = s.runs.length
  · subst new
    rw [TryLock.enter, List.getElem?_concat_length] at at_
    cases at_
    have none_ : s.logOf s.runs.length = [] := by
      rw [logOf, List.map_eq_nil_iff, List.filter_eq_nil_iff]
      intro x inside same
      have := exclusive.logged x inside
      rw [decide_eq_true_iff] at same
      omega
    rw [none_, if_pos rfl, List.nil_append]
    exact first
  · have bound := (List.getElem?_eq_some_iff.mp at_).1
    rw [TryLock.enter, List.length_append, List.length_singleton] at bound
    rw [TryLock.enter, List.getElem?_append_left (by omega)] at at_
    rw [if_neg new, List.append_nil]
    exact each i r at_

theorem EachRun.resume (each : EachRun P s) (at_ : s.runs[i]? = some r)
    (next : ∀ acts, P r acts → P turn.1 (acts ++ turn.2)) : EachRun P (s.resume ended i turn) := by
  intro j r' at'
  have acts : (s.resume ended i turn).logOf j = _ := logOf_append s i turn.2
  rw [acts]
  by_cases same : j = i
  · subst same
    have bound := (List.getElem?_eq_some_iff.mp at_).1
    rw [TryLock.resume, List.getElem?_set_self bound] at at'
    cases at'
    rw [if_pos rfl]
    exact next _ (each j r at_)
  · rw [TryLock.resume, List.getElem?_set_ne (Ne.symm same)] at at'
    rw [if_neg same, List.append_nil]
    exact each j r' at'

theorem EachRun.revise (each : EachRun P s) (kept : ∀ r acts, P r acts → P (f r) acts) : EachRun P (s.revise f) := by
  intro i r at_
  rw [TryLock.revise, List.getElem?_map] at at_
  obtain ⟨r, before, rfl⟩ := Option.map_eq_some_iff.mp at_
  exact kept r _ (each i r before)

end TryLock

end MammotionRc.Machine
