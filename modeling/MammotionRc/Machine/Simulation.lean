import MammotionRc.Machine.Run

/-! # Forward simulation of a component by its specification

A component that answers every call is a function `respond` from its state and the call to an answer and
its next state. Its specification is a machine whose labels are the answers. If every call in related
states gets an answer that the specification admits, and the states after it are related again, then so
is every session.
-/

namespace MammotionRc.Machine

variable {σ α ε ω : Type*}

/-- The answers to a list of calls and the state after them. -/
def session (respond : σ → ε → ω × σ) : σ → List ε → List ω × σ
  | s, [] => ([], s)
  | s, e :: es =>
    let (answer, t) := respond s e
    let (answers, u) := session respond t es
    (answer :: answers, u)

variable {respond : σ → ε → ω × σ}

@[simp] theorem session_nil (s : σ) : session respond s [] = ([], s) := rfl

theorem session_cons (s : σ) (e : ε) (es : List ε) : session respond s (e :: es) =
    ((respond s e).1 :: (session respond (respond s e).2 es).1, (session respond (respond s e).2 es).2) := rfl

/-- The specification admits the answers of every session, and the relation holds at its end. -/
theorem session_simulated {spec : α → ω → Option α} {R : σ → α → Prop}
    (each : ∀ s a e, R s a → ∃ b, spec a (respond s e).1 = some b ∧ R (respond s e).2 b)
    {s : σ} {a : α} (related : R s a) (es : List ε) :
    ∃ b, run spec a (session respond s es).1 = some b ∧ R (session respond s es).2 b := by
  induction es generalizing s a with
  | nil => exact ⟨a, rfl, related⟩
  | cons e es ih =>
    obtain ⟨b, admitted, related'⟩ := each s a e related
    obtain ⟨c, ran, final⟩ := ih related'
    refine ⟨c, ?_, final⟩
    rw [session_cons, run, admitted]
    exact ran

/-- A component that answers every call as its specification does. -/
theorem session_follows {τ : Type*} {spec : τ → ε → ω × τ} {R : σ → τ → Prop}
    (each : ∀ s a e, R s a → (respond s e).1 = (spec a e).1 ∧ R (respond s e).2 (spec a e).2)
    {s : σ} {a : τ} (related : R s a) (es : List ε) :
    (session respond s es).1 = (session spec a es).1 ∧ R (session respond s es).2 (session spec a es).2 := by
  induction es generalizing s a with
  | nil => exact ⟨rfl, related⟩
  | cons e es ih =>
    obtain ⟨answer, related'⟩ := each s a e related
    obtain ⟨answers, final⟩ := ih related'
    rw [session_cons, session_cons, answer, answers]
    exact ⟨rfl, final⟩

/-! ## Abstraction functions

A component that may abort a call has a partial step. Where its specification is a function of its state,
a session of the one is a session of the other, aborts and answers included.
-/

variable {τ : Type*}

/-- The answers to a list of calls none of which aborts, and the state after them. -/
def sessionOrAbort (perform : σ → ε → Option (ω × σ)) : σ → List ε → Option (List ω × σ)
  | s, [] => some ([], s)
  | s, e :: es =>
    (perform s e).bind fun answered =>
      (sessionOrAbort perform answered.2 es).map fun rest => (answered.1 :: rest.1, rest.2)

theorem sessionOrAbort_abstracted {perform : σ → ε → Option (ω × σ)} {spec : τ → ε → Option (ω × τ)} {abs : σ → τ}
    (each : ∀ s e, (perform s e).map (Prod.map id abs) = spec (abs s) e) (s : σ) (es : List ε) :
    (sessionOrAbort perform s es).map (Prod.map id abs) = sessionOrAbort spec (abs s) es := by
  induction es generalizing s with
  | nil => rfl
  | cons e es ih =>
    rw [sessionOrAbort, sessionOrAbort, ← each]
    cases perform s e with
    | none => rfl
    | some answered =>
      simp only [Option.bind_some, Option.map_some, Prod.map_fst, Prod.map_snd, ← ih, id, Option.map_map]
      rfl

/-- A component that answers as its specification wherever the specification accepts the call. -/
theorem sessionOrAbort_follows {perform : σ → ε → Option (ω × σ)} {spec : τ → ε → Option (ω × τ)} {R : σ → τ → Prop}
    (each : ∀ s a e answer b, R s a → spec a e = some (answer, b) → ∃ t, perform s e = some (answer, t) ∧ R t b)
    {s : σ} {a b : τ} {es : List ε} {answers : List ω} (related : R s a)
    (accepted : sessionOrAbort spec a es = some (answers, b)) :
    ∃ t, sessionOrAbort perform s es = some (answers, t) ∧ R t b := by
  induction es generalizing s a answers with
  | nil =>
    cases accepted
    exact ⟨s, rfl, related⟩
  | cons e es ih =>
    obtain ⟨⟨answer, a'⟩, called, after⟩ := Option.bind_eq_some_iff.mp accepted
    obtain ⟨⟨rest, b'⟩, ran, same⟩ := Option.map_eq_some_iff.mp after
    cases same
    obtain ⟨s', called', related'⟩ := each s a e answer a' related called
    obtain ⟨t, ran', final⟩ := ih related' ran
    refine ⟨t, ?_, final⟩
    rw [sessionOrAbort, called', Option.bind_some, ran', Option.map_some]

end MammotionRc.Machine
