import Mathlib.Data.List.Infix

/-! # Runs of a machine whose nondeterminism lives in its labels

`run step s es` replays the event tape `es` from `s`; a tape that no step accepts has no result.
Every choice of the surroundings (a scheduler, a peer, a driver answering a call) is part of a label,
so a statement about all tapes is a statement about all interleavings. Invariants may read the
history next to the state. `Throughout` speaks of every state reached along a tape and `Meets` of
every step taken along it; the two rules at the end derive the first from the second.
-/

namespace MammotionRc.Machine

variable {σ ε : Type*} (step : σ → ε → Option σ)

/-- Replay an event tape from a state. -/
def run : σ → List ε → Option σ
  | s, [] => some s
  | s, e :: es => (step s e).bind fun t => run t es

@[simp] theorem run_nil (s : σ) : run step s [] = some s := rfl

theorem run_append (s : σ) (first second : List ε) :
    run step s (first ++ second) = (run step s first).bind fun t => run step t second := by
  induction first generalizing s with
  | nil => rfl
  | cons e es ih => simp only [List.cons_append, run, ih, Option.bind_assoc]

variable {step}

/-- The last event of a tape acts on the state its prefix reaches. -/
theorem run_concat_iff {s u : σ} {es : List ε} {e : ε} :
    run step s (es ++ [e]) = some u ↔ ∃ t, run step s es = some t ∧ step t e = some u := by
  rw [run_append, Option.bind_eq_some_iff]
  simp only [run, Option.bind_fun_some]

/-- A run can be cut after any prefix of its tape. -/
theorem run_of_prefix {s u : σ} {es pre : List ε} (ran : run step s es = some u)
    (before : pre <+: es) : ∃ t, run step s pre = some t := by
  obtain ⟨post, rfl⟩ := before
  rw [run_append, Option.bind_eq_some_iff] at ran
  obtain ⟨t, reached, _⟩ := ran
  exact ⟨t, reached⟩

/-- A machine that accepts every event replays every tape. -/
theorem run_total (total : ∀ s e, ∃ t, step s e = some t) (s : σ) (es : List ε) : ∃ t, run step s es = some t := by
  induction es generalizing s with
  | nil => exact ⟨s, rfl⟩
  | cons e es ih =>
    obtain ⟨t, stepped⟩ := total s e
    obtain ⟨u, ran⟩ := ih t
    exact ⟨u, by rw [run, stepped, Option.bind_some, ran]⟩

/-- An invariant over history and state that every step preserves holds at the end of every run. -/
theorem run_invariant {I : List ε → σ → Prop} {s : σ} (start : I [] s)
    (preserved : ∀ es t e u, I es t → step t e = some u → I (es ++ [e]) u)
    {es : List ε} {u : σ} (ran : run step s es = some u) : I es u := by
  induction es using List.reverseRecOn generalizing u with
  | nil => cases ran; exact start
  | append_singleton es e ih =>
    obtain ⟨t, reached, stepped⟩ := run_concat_iff.mp ran
    exact preserved es t e u (ih reached) stepped

variable (step)

/-- Every state along the tape, its endpoints included, satisfies `P` with the history so far. -/
def Throughout (P : List ε → σ → Prop) (s : σ) (es : List ε) : Prop :=
  ∀ pre, pre <+: es → ∀ t, run step s pre = some t → P pre t

/-- Every step along the tape is taken from a state, after a history and by an event in `C`. -/
def Meets (C : List ε → σ → ε → Prop) (s : σ) (es : List ε) : Prop :=
  ∀ pre e, pre ++ [e] <+: es → ∀ t, run step s pre = some t → C pre t e

variable {step}

theorem Throughout.last {P : List ε → σ → Prop} {s u : σ} {es : List ε}
    (always : Throughout step P s es) (ran : run step s es = some u) : P es u :=
  always es (List.prefix_refl es) u ran

theorem Meets.of_prefix {C : List ε → σ → ε → Prop} {s : σ} {es pre : List ε}
    (meets : Meets step C s es) (before : pre <+: es) : Meets step C s pre :=
  fun _ e inside => meets _ e (inside.trans before)

/-- What follows a prefix of the tape meets a condition that does not read the history. -/
theorem Meets.after {C : σ → ε → Prop} {s t : σ} {pre post : List ε}
    (meets : Meets step (fun _ => C) s (pre ++ post)) (reached : run step s pre = some t) :
    Meets step (fun _ => C) t post := by
  intro first e inside u ran
  refine meets (pre ++ first) e ?_ u ?_
  · rw [List.append_assoc]
    exact (List.prefix_append_right_inj pre).mpr inside
  · rw [run_append, reached]
    exact ran

theorem Meets.tail {C : σ → ε → Prop} {s t : σ} {e : ε} {es : List ε} (meets : Meets step (fun _ => C) s (e :: es))
    (stepped : step s e = some t) : Meets step (fun _ => C) t es := by
  refine Meets.after (show Meets step (fun _ => C) s ([e] ++ es) from meets) ?_
  rw [run, stepped]
  rfl

theorem Meets.last {C : List ε → σ → ε → Prop} {s t : σ} {es : List ε} {e : ε}
    (meets : Meets step C s (es ++ [e])) (reached : run step s es = some t) : C es t e :=
  meets es e (List.prefix_refl _) t reached

/-- A run that meets a condition can be prolonged by a step that does. -/
theorem Meets.concat {C : List ε → σ → ε → Prop} {s : σ} {es : List ε} {e : ε} (meets : Meets step C s es)
    (next : ∀ t, run step s es = some t → C es t e) : Meets step C s (es ++ [e]) := by
  intro pre e' inside t reached
  rcases List.prefix_concat_iff.mp inside with same | before
  · obtain ⟨rfl, last⟩ := List.append_inj' same rfl
    cases last
    exact next t reached
  · exact meets pre e' before t reached

/-- A condition can be checked position by position. -/
theorem Meets.of_getElem {C : List ε → σ → ε → Prop} {s : σ} {es : List ε}
    (each : ∀ n e, es[n]? = some e → ∀ t, run step s (es.take n) = some t → C (es.take n) t e) :
    Meets step C s es := by
  intro pre e inside t reached
  obtain ⟨post, rfl⟩ := inside
  have := each pre.length e (by simp) t
  rw [List.append_assoc, List.take_left] at this
  exact this reached

theorem Meets.mono {C D : List ε → σ → ε → Prop} {s : σ} {es : List ε}
    (meets : Meets step C s es) (weaker : ∀ pre t e, C pre t e → D pre t e) : Meets step D s es :=
  fun pre e inside t reached => weaker pre t e (meets pre e inside t reached)

/-- Conditions that an invariant makes equivalent are met by the same tapes. -/
theorem meets_congr {C D : List ε → σ → ε → Prop} {I : List ε → σ → Prop} {s : σ} {es : List ε} (start : I [] s)
    (preserved : ∀ es t e u, I es t → step t e = some u → I (es ++ [e]) u)
    (same : ∀ es t e, I es t → (C es t e ↔ D es t e)) : Meets step C s es ↔ Meets step D s es := by
  constructor
  · intro meets pre e inside t reached
    exact (same pre t e (run_invariant start preserved reached)).mp (meets pre e inside t reached)
  · intro meets pre e inside t reached
    exact (same pre t e (run_invariant start preserved reached)).mpr (meets pre e inside t reached)

/-- An invariant preserved by the steps in `C` holds at the end of a run made of such steps. -/
theorem run_invariant_of_meets {C : List ε → σ → ε → Prop} {I : List ε → σ → Prop} {s : σ}
    (start : I [] s)
    (preserved : ∀ es t e u, I es t → C es t e → step t e = some u → I (es ++ [e]) u)
    {es : List ε} {u : σ} (meets : Meets step C s es) (ran : run step s es = some u) : I es u := by
  induction es using List.reverseRecOn generalizing u with
  | nil => cases ran; exact start
  | append_singleton es e ih =>
    obtain ⟨t, reached, stepped⟩ := run_concat_iff.mp ran
    exact preserved es t e u (ih (meets.of_prefix (List.prefix_append es [e])) reached)
      (meets.last reached) stepped

/-- The same invariant holds in every state along such a run. -/
theorem throughout_of_meets {C : List ε → σ → ε → Prop} {I : List ε → σ → Prop} {s : σ}
    (start : I [] s)
    (preserved : ∀ es t e u, I es t → C es t e → step t e = some u → I (es ++ [e]) u)
    {es : List ε} (meets : Meets step C s es) : Throughout step I s es :=
  fun _ before _ reached => run_invariant_of_meets start preserved (meets.of_prefix before) reached

/-- A property that each step keeps exactly when it is in `C` holds throughout a run exactly when all of its
steps are in `C`. -/
theorem throughout_iff_meets {C : List ε → σ → ε → Prop} {I P : List ε → σ → Prop} {s u : σ} {es : List ε}
    (start : I [] s) (preserved : ∀ es t e u, I es t → step t e = some u → I (es ++ [e]) u) (holds : P [] s)
    (exact_ : ∀ es t e u, I es t → P es t → step t e = some u → (P (es ++ [e]) u ↔ C es t e))
    (ran : run step s es = some u) : Throughout step P s es ↔ Meets step C s es := by
  constructor
  · intro always pre e inside t reached
    obtain ⟨u, stepped⟩ := run_of_prefix ran inside
    obtain ⟨t', reached', stepped'⟩ := run_concat_iff.mp stepped
    cases reached.symm.trans reached'
    have before : pre <+: es := (List.prefix_append pre [e]).trans inside
    exact (exact_ pre t e u (run_invariant start preserved reached) (always pre before t reached) stepped').mp
      (always _ inside u stepped)
  · intro meets
    have both := throughout_of_meets (I := fun es t => I es t ∧ P es t) ⟨start, holds⟩
      (fun es t e u held brief stepped => ⟨preserved es t e u held.1 stepped,
        (exact_ es t e u held.1 held.2 stepped).mpr brief⟩) meets
    exact fun pre before t reached => (both pre before t reached).2

end MammotionRc.Machine
