import MammotionRc.Server.Watchdog

/-! # Which drops the watchdog notices

A tick replaces `last` whether or not it may fire, so the only tick that can notice the end of a CONNECTED
period is the first one after it. It does so if the tick before sampled CONNECTED and it samples
DISCONNECTED itself, unmasked; a first sample of CONNECTING, a masked one, or a period between two ticks
loses the drop. A drop that is noticed stays in hand: a sequence is retrying or has given up.
-/

namespace MammotionRc.Server

open Machine

namespace WatchedMower

/-- A tick samples DISCONNECTED while neither `/api/reconnect` nor a retry sequence is running. -/
def BareDrop (s : WatchedMower) : Prop :=
  s.availability = .disconnected ∧ s.manualOp = false ∧ s.autoRetrying = false

/-- The tape ends with a second of two ticks in a row that sample an unmasked DISCONNECTED, after an
earlier tick sampled CONNECTED. -/
def LastingDrop (s : WatchedMower) (es : List WatchEvent) : Prop :=
  ∃ first mid quiet t u v, es = first ++ [.tick] ++ mid ++ [.tick] ++ quiet ++ [.tick] ∧ .tick ∉ quiet ∧
    run step s first = some t ∧ t.availability = .connected ∧
    run step s (first ++ [.tick] ++ mid) = some u ∧ u.BareDrop ∧
    run step s (first ++ [.tick] ++ mid ++ [.tick] ++ quiet) = some v ∧ v.BareDrop

/-- The transport was CONNECTED last before the first event of the tape. -/
def NotAgain (s : WatchedMower) (es : List WatchEvent) : Prop :=
  ∀ pre, pre <+: es → pre ≠ [] → ∀ t, run step s pre = some t → t.availability ≠ .connected

/-- A tick of the tape spawns a retry sequence. -/
def Noticed (s : WatchedMower) (es : List WatchEvent) : Prop :=
  ∃ pre t, pre ++ [.tick] <+: es ∧ run step s pre = some t ∧ t.unexpectedDrop = true

/-- The tick before the tape sampled CONNECTED, and its first tick DISCONNECTED without a mask. -/
def Sampled (s : WatchedMower) (es : List WatchEvent) : Prop :=
  s.last = .connected ∧ ∃ pre t, pre ++ [.tick] <+: es ∧ .tick ∉ pre ∧ run step s pre = some t ∧
    t.BareDrop

/-- Retry sequence `i` has attempts to make before it could report success. -/
def Pursuing (s : WatchedMower) (i : ℕ) : Prop :=
  match s.retries i with
  | .created | .sleeping _ | .disconnecting _ => True
  | .connecting _ => s.isConnected = false
  | .absent | .starting _ | .reporting | .done => False

/-- The mower is being retried or marked as given up. -/
def InHand (s : WatchedMower) : Prop := (∃ i, s.Pursuing i) ∨ s.autoGaveUp = true

theorem unexpectedDrop_iff {s : WatchedMower} :
    s.unexpectedDrop = true ↔ s.last = .connected ∧ s.BareDrop := by
  simp only [unexpectedDrop, BareDrop, Bool.and_eq_true, decide_eq_true_eq, Bool.not_eq_true', and_assoc]
  exact and_left_comm

theorem nextAttempt_last (s : WatchedMower) (i : ℕ) (later : List ℕ) :
    (s.nextAttempt i later).last = s.last := by
  cases later <;> rfl

theorem tick_last (s : WatchedMower) : s.tick.last = s.availability := by
  simp only [tick]
  split_ifs <;> rfl

/-- Only a tick moves `last`. -/
theorem step_last {s t : WatchedMower} {e : WatchEvent} (stepped : s.step e = some t) :
    t.last = if e = .tick then s.availability else s.last := by
  cases e with
  | tick =>
    cases stepped
    exact s.tick_last
  | retry i action =>
    simp only [step] at stepped
    rw [if_neg nofun]
    cases action with
    | connected opened =>
      simp only [stepRetry] at stepped
      split at stepped <;> try contradiction
      split_ifs at stepped <;> cases stepped <;> rfl
    | start | failed =>
      simp only [stepRetry] at stepped
      split at stepped <;> cases stepped
      all_goals exact nextAttempt_last _ _ _
    | wake | dropped | started | reported =>
      simp only [stepRetry] at stepped
      split at stepped <;> cases stepped
      rfl
  | _ =>
    cases stepped
    rfl

theorem tick_availability (s : WatchedMower) : s.tick.availability = s.availability := by
  simp only [tick]
  split_ifs <;> rfl

/-- Until its first tick the tape keeps `last`; from then on `last` is not CONNECTED. -/
theorem last_of_run {s : WatchedMower} {es : List WatchEvent} (notAgain : NotAgain s es)
    {pre : List WatchEvent} (inside : pre <+: es) {t : WatchedMower} (ran : run step s pre = some t) :
    (.tick ∉ pre ∧ t.last = s.last) ∨ (.tick ∈ pre ∧ t.last ≠ .connected) := by
  induction pre using List.reverseRecOn generalizing t with
  | nil =>
    cases ran
    exact .inl ⟨List.not_mem_nil, rfl⟩
  | append_singleton pre e ih =>
    obtain ⟨v, reached, stepped⟩ := run_concat_iff.mp ran
    have before : pre <+: es := (List.prefix_append pre [e]).trans inside
    have moved := step_last stepped
    by_cases isTick : e = .tick
    · subst isTick
      refine .inr ⟨by simp, ?_⟩
      have away := notAgain _ inside (by simp) t ran
      cases stepped
      rw [v.tick_last]
      rw [v.tick_availability] at away
      exact away
    · rw [if_neg isTick] at moved
      rw [moved]
      rcases ih before reached with ⟨none_, same⟩ | ⟨some_, other⟩
      · refine .inl ⟨?_, same⟩
        rw [List.mem_append, List.mem_singleton]
        rintro (earlier | this)
        · exact none_ earlier
        · exact isTick this.symm
      · exact .inr ⟨List.mem_append_left _ some_, other⟩

theorem noticed_iff_sampled {s : WatchedMower} {es : List WatchEvent} (notAgain : NotAgain s es) :
    Noticed s es ↔ Sampled s es := by
  constructor
  · rintro ⟨pre, t, inside, reached, fires⟩
    obtain ⟨last, drop⟩ := unexpectedDrop_iff.mp fires
    rcases last_of_run notAgain ((List.prefix_append _ _).trans inside) reached with
      ⟨none_, same⟩ | ⟨_, other⟩
    · exact ⟨same ▸ last, pre, t, inside, none_, reached, drop⟩
    · exact absurd last other
  · rintro ⟨last, pre, t, inside, none_, reached, drop⟩
    refine ⟨pre, t, inside, reached, unexpectedDrop_iff.mpr ⟨?_, drop⟩⟩
    rcases last_of_run notAgain ((List.prefix_append _ _).trans inside) reached with
      ⟨_, same⟩ | ⟨some_, _⟩
    · exact same.trans last
    · exact absurd some_ none_

theorem pursuing_moveRetry_self {s : WatchedMower} {i : ℕ} {later : List ℕ} :
    (s.moveRetry i (.sleeping later)).Pursuing i := by
  simp only [Pursuing, moveRetry, Function.update_self]

theorem pursuing_moveRetry_of_ne {s : WatchedMower} {i j : ℕ} {pc : RetryPc} (other : i ≠ j) :
    (s.moveRetry j pc).Pursuing i ↔ s.Pursuing i := by
  simp only [Pursuing, moveRetry, Function.update_of_ne other]

theorem nextAttempt_inHand (s : WatchedMower) (i : ℕ) (later : List ℕ) :
    (s.nextAttempt i later).InHand := by
  cases later with
  | nil => exact .inr rfl
  | cons delay later => exact .inl ⟨i, pursuing_moveRetry_self⟩

/-- A sequence that is past its attempts moves on without effect. -/
theorem InHand.moveRetry {s : WatchedMower} {i : ℕ} (hand : s.InHand) (past : ¬ s.Pursuing i)
    (pc : RetryPc) : (s.moveRetry i pc).InHand := by
  rcases hand with ⟨j, pursuing⟩ | gaveUp
  · have other : j ≠ i := by
      rintro rfl
      exact past pursuing
    exact .inl ⟨j, (pursuing_moveRetry_of_ne other).mpr pursuing⟩
  · exact .inr gaveUp

theorem stepRetry_inHand {s t : WatchedMower} {i : ℕ} {action : RetryAction} (hand : s.InHand)
    (away : t.availability ≠ .connected) (stepped : s.stepRetry i action = some t) : t.InHand := by
  cases action with
  | start | failed =>
    simp only [stepRetry] at stepped
    split at stepped <;> cases stepped
    all_goals exact nextAttempt_inHand _ i _
  | wake =>
    simp only [stepRetry] at stepped
    split at stepped <;> cases stepped
    exact .inl ⟨i, by simp only [Pursuing, moveRetry, Function.update_self]⟩
  | dropped =>
    simp only [stepRetry] at stepped
    split at stepped <;> cases stepped
    exact .inl ⟨i, by simp only [Pursuing, moveRetry, Function.update_self]⟩
  | connected opened =>
    simp only [stepRetry] at stepped
    split at stepped <;> try contradiction
    next later connecting =>
    split_ifs at stepped with opens found
    · cases stepped
      exact absurd rfl away
    · cases stepped
      refine hand.moveRetry ?_ _
      simp only [Pursuing, connecting, found, Bool.true_eq_false, not_false_eq_true]
  | started =>
    simp only [stepRetry] at stepped
    split at stepped <;> cases stepped
    next later starting =>
    exact hand.moveRetry (by simp only [Pursuing, starting, not_false_eq_true]) _
  | reported =>
    simp only [stepRetry] at stepped
    split at stepped <;> cases stepped
    next reporting =>
    have past : ¬ s.Pursuing i := by simp only [Pursuing, reporting, not_false_eq_true]
    exact InHand.moveRetry (s := { s with autoRetrying := false }) hand past _

/-- A tick that fires puts the mower in hand. -/
theorem tick_inHand {s : WatchedMower} (fires : s.unexpectedDrop = true) : s.tick.InHand := by
  rw [tick, if_pos fires]
  exact .inl ⟨s.spawned, by simp only [Pursuing, moveRetry, Function.update_self]⟩

theorem InHand.weaken {s t : WatchedMower} (hand : s.InHand) (retries : t.retries = s.retries)
    (down : s.isConnected = false → t.isConnected = false) (gaveUp : t.autoGaveUp = s.autoGaveUp) :
    t.InHand := by
  rcases hand with ⟨i, pursuing⟩ | marked
  · refine .inl ⟨i, ?_⟩
    simp only [Pursuing] at pursuing ⊢
    rw [retries]
    cases pc : s.retries i <;> simp only [pc] at pursuing ⊢
    exact down pursuing
  · exact .inr (gaveUp.trans marked)

/-- Outside a CONNECTED period only a successful `/api/reconnect` takes a mower out of hand. -/
theorem InHand.step {s t : WatchedMower} {e : WatchEvent} (hand : s.InHand)
    (away : t.availability ≠ .connected) (kept : e ≠ .manualEnds true) (stepped : s.step e = some t) :
    t.InHand := by
  cases e with
  | opened =>
    cases stepped
    exact absurd rfl away
  | connecting | manualBegins =>
    cases stepped
    exact hand
  | disconnected dropped =>
    cases stepped
    exact hand.weaken rfl (fun down => by simp only [down, Bool.false_and]) rfl
  | lost =>
    cases stepped
    exact hand.weaken rfl (fun _ => rfl) rfl
  | manualEnds ok =>
    cases ok with
    | true => exact absurd rfl kept
    | false =>
      cases stepped
      rcases hand with pursuing | gaveUp
      · exact .inl pursuing
      · exact .inr (by rw [gaveUp]; rfl)
  | tick =>
    cases stepped
    by_cases fires : s.unexpectedDrop = true
    · exact tick_inHand fires
    · rw [tick, if_neg fires]
      exact hand
  | retry i action => exact stepRetry_inHand hand away stepped

theorem NotAgain.of_prefix {s : WatchedMower} {es pre : List WatchEvent} (notAgain : NotAgain s es)
    (before : pre <+: es) : NotAgain s pre :=
  fun _ inside => notAgain _ (inside.trans before)

theorem inHand_of_noticed {s u : WatchedMower} {es : List WatchEvent} (notAgain : NotAgain s es)
    (noticed : Noticed s es) (kept : .manualEnds true ∉ es) (ran : run step s es = some u) :
    u.InHand := by
  obtain ⟨pre, t, ⟨post, rfl⟩, reached, fires⟩ := noticed
  induction post using List.reverseRecOn generalizing u with
  | nil =>
    rw [List.append_nil] at ran
    obtain ⟨t', again, stepped⟩ := run_concat_iff.mp ran
    obtain rfl := Option.some.inj (reached.symm.trans again)
    cases stepped
    exact tick_inHand fires
  | append_singleton post e ih =>
    have away := notAgain _ (List.prefix_refl _) (by simp) u ran
    rw [← List.append_assoc] at ran notAgain kept
    obtain ⟨v, before, stepped⟩ := run_concat_iff.mp ran
    rw [List.mem_append, not_or, List.mem_singleton] at kept
    have hand := ih (notAgain.of_prefix (List.prefix_append _ _)) kept.1 before
    exact hand.step away (fun same => kept.2 same.symm) stepped

/-- A tape that was CONNECTED once has a last CONNECTED moment. -/
theorem exists_last_connected {s : WatchedMower} {es pre : List WatchEvent} (inside : pre <+: es)
    {t : WatchedMower} (reached : run step s pre = some t) (connected : t.availability = .connected) :
    ∃ before after t, es = before ++ after ∧ run step s before = some t ∧
      t.availability = .connected ∧ NotAgain t after := by
  induction es using List.reverseRecOn with
  | nil =>
    obtain rfl := List.prefix_nil.mp inside
    exact ⟨[], [], t, rfl, reached, connected, fun pre at_ some_ => absurd (List.prefix_nil.mp at_) some_⟩
  | append_singleton es e ih =>
    by_cases again : ∃ u, run step s (es ++ [e]) = some u ∧ u.availability = .connected
    · obtain ⟨u, ran, up⟩ := again
      exact ⟨es ++ [e], [], u, (List.append_nil _).symm, ran, up,
        fun pre at_ some_ => absurd (List.prefix_nil.mp at_) some_⟩
    · have inside : pre <+: es := by
        rcases List.prefix_concat_iff.mp inside with rfl | inside
        · exact absurd ⟨t, reached, connected⟩ again
        · exact inside
      obtain ⟨before, after, u, rfl, ran, up, notAgain⟩ := ih inside
      refine ⟨before, after ++ [e], u, List.append_assoc .., ran, up, fun q at_ some_ v found away => ?_⟩
      rcases List.prefix_concat_iff.mp at_ with rfl | at_
      · refine again ⟨v, ?_, away⟩
        rw [List.append_assoc, run_append, ran]
        exact found
      · exact notAgain q at_ some_ v found away

/-- One attempt of the first retry sequence that fails to connect. -/
def failedAttempt : List WatchEvent := [.retry 0 .wake, .retry 0 .dropped, .retry 0 .failed]

/-- The connection drops between two ticks, all five attempts fail, and two more ticks pass. -/
def abandonedDrop : List WatchEvent :=
  [.tick, .disconnected false, .tick, .retry 0 .start] ++
    (List.replicate 5 failedAttempt).flatten ++ [.tick, .tick]

/-- The connection is reset and a `send()` tries in vain to reconnect over the next tick. -/
def maskedDrop : List WatchEvent :=
  [.tick, .disconnected false, .connecting, .tick, .disconnected false, .tick, .tick]

end WatchedMower

end MammotionRc.Server
