import MammotionRc.Web.JoystickLink

/-! # What an event does to the current socket

A socket becomes current when it is created and at no other time, and it is created for the mower and under the
generation that the page has then. Only a teardown changes either.
-/

namespace MammotionRc.Web

open Machine

namespace JoystickLink

/-- The current socket was created for the current mower and generation. -/
structure Owned (s : JoystickLink) : Prop where
  bound : ∀ k, s.ws = some k → k < s.created
  current : ∀ k, s.ws = some k → ∃ sock, s.sockets k = some sock ∧ sock.gen = s.wsGen ∧ s.wsMower = some sock.name

/-- No old socket became current. -/
structure Later (s t : JoystickLink) : Prop where
  created : s.created ≤ t.created
  ws : ∀ k, t.ws = some k → s.ws = some k ∨ s.created ≤ k

/-- The mower and the generation are the same, and the current socket is theirs if it was before. -/
structure Kept (s t : JoystickLink) : Prop extends Later s t where
  wsMower : t.wsMower = s.wsMower
  wsGen : t.wsGen = s.wsGen
  owned : s.Owned → t.Owned

variable {s t u : JoystickLink} {browser : Browser} {e : LinkEvent × Browser} {k : ℕ} {gen : ℕ}

theorem Owned.of_none (none_ : s.ws = none) : s.Owned := by
  refine ⟨fun k current => ?_, fun k current => ?_⟩ <;>
  · rw [none_] at current
    cases current

theorem Later.trans (first : Later s t) (second : Later t u) : Later s u := by
  refine ⟨first.created.trans second.created, fun k current => ?_⟩
  rcases second.ws k current with before | fresh
  · exact first.ws k before
  · exact Or.inr (first.created.trans fresh)

theorem Kept.refl (s : JoystickLink) : Kept s s := ⟨⟨Nat.le_refl _, fun _ => Or.inl⟩, rfl, rfl, id⟩

theorem Kept.trans (first : Kept s t) (second : Kept t u) : Kept s u :=
  ⟨first.toLater.trans second.toLater, second.wsMower.trans first.wsMower, second.wsGen.trans first.wsGen,
    fun owned => second.owned (first.owned owned)⟩

theorem Kept.of_same (ws : t.ws = s.ws) (wsMower : t.wsMower = s.wsMower) (wsGen : t.wsGen = s.wsGen)
    (created : t.created = s.created) (sockets : t.sockets = s.sockets) : Kept s t := by
  refine ⟨⟨created.ge, fun k current => Or.inl (ws ▸ current)⟩, wsMower, wsGen, fun owned => ⟨?_, ?_⟩⟩
  · rw [ws, created]
    exact owned.bound
  · rw [ws, wsMower, wsGen, sockets]
    exact owned.current

theorem Kept.of_none (none_ : t.ws = none) (wsMower : t.wsMower = s.wsMower) (wsGen : t.wsGen = s.wsGen)
    (created : t.created = s.created) : Kept s t := by
  refine ⟨⟨created.ge, fun k current => ?_⟩, wsMower, wsGen, fun _ => .of_none none_⟩
  rw [none_] at current
  cases current

/-! ## The parts of the handlers -/

/-- Sockets change their states, not their names and generations. -/
theorem kept_of_sockets {sockets : ℕ → Option WebSocket}
    (same : ∀ k sock, s.sockets k = some sock → ∃ sock', sockets k = some sock' ∧ sock'.gen = sock.gen ∧
      sock'.name = sock.name) : Kept s { s with sockets := sockets } := by
  refine ⟨⟨Nat.le_refl _, fun _ => Or.inl⟩, rfl, rfl, fun owned => ⟨owned.bound, fun k current => ?_⟩⟩
  obtain ⟨sock, at_, gen, name⟩ := owned.current k current
  obtain ⟨sock', at', gen', name'⟩ := same k sock at_
  exact ⟨sock', at', gen'.trans gen, name' ▸ name⟩

theorem exists_update {sockets : ℕ → Option WebSocket} (change : WebSocket → WebSocket) {j : ℕ}
    (gen : ∀ sock, (change sock).gen = sock.gen) (name : ∀ sock, (change sock).name = sock.name) {sock : WebSocket}
    (at_ : sockets j = some sock) : ∃ sock', Function.update sockets k ((sockets k).map change) j = some sock' ∧
      sock'.gen = sock.gen ∧ sock'.name = sock.name := by
  rcases eq_or_ne j k with rfl | ne
  · refine ⟨change sock, ?_, gen sock, name sock⟩
    rw [Function.update_self, at_]
    rfl
  · exact ⟨sock, (Function.update_of_ne ne ..).trans at_, rfl, rfl⟩

theorem kept_setReadyState (s : JoystickLink) (k : ℕ) (r : ReadyState) : Kept s (s.setReadyState k r) :=
  kept_of_sockets fun _ _ at_ =>
    exists_update (fun sock => { sock with readyState := r }) (fun _ => rfl) (fun _ => rfl) at_

theorem kept_closeSocket (s : JoystickLink) (k : ℕ) : Kept s (s.closeSocket k) := by
  rw [closeSocket]
  split
  · exact s.kept_setReadyState k .CLOSING
  · exact .refl s

theorem kept_clearGuard (s : JoystickLink) : Kept s s.clearGuard := .of_same rfl rfl rfl rfl rfl

theorem kept_dropSocket (s : JoystickLink) : Kept s s.dropSocket := by
  rw [dropSocket]
  split
  · exact .refl s
  · refine Kept.trans ?_ (kept_closeSocket _ _)
    exact .of_none rfl rfl rfl rfl

theorem kept_scheduleWsRetry (s : JoystickLink) (browser : Browser) (gen : ℕ) (delay : Option ℚ) :
    Kept s (s.scheduleWsRetry browser gen delay) := by
  simp only [scheduleWsRetry]
  split
  · exact .refl s
  · split
    · exact .refl s
    · cases delay <;> exact .of_same rfl rfl rfl rfl rfl

theorem kept_adopt (s : JoystickLink) (mower : s.hasMower = true) : Kept s (s.adopt s.wsGen) := by
  refine ⟨⟨Nat.le_succ _, fun k current => ?_⟩, rfl, rfl, fun _ => ⟨fun k current => ?_, fun k current => ?_⟩⟩
  · cases current
    exact Or.inr (Nat.le_refl _)
  · cases current
    exact Nat.lt_succ_self _
  · cases current
    obtain ⟨name, is⟩ : ∃ name, s.wsMower = some name := by
      cases is : s.wsMower with
      | none => simp [hasMower, is] at mower
      | some name => exact ⟨name, rfl⟩
    refine ⟨⟨name, s.wsGen, .CONNECTING, true, false⟩, ?_, rfl, is⟩
    rw [adopt, is]
    exact Function.update_self ..

theorem kept_connectJoystickWs (s : JoystickLink) (browser : Browser) (gen : ℕ) :
    Kept s (s.connectJoystickWs browser gen) := by
  rw [connectJoystickWs]
  split_ifs with stale
  · exact .refl s
  · exact .refl s
  · exact .refl s
  · exact .refl s
  · exact .refl s
  · exact s.kept_scheduleWsRetry browser gen _
  · refine Kept.trans ?_ (kept_scheduleWsRetry _ browser gen _)
    exact .of_same rfl rfl rfl rfl rfl
  · rw [not_or, not_not] at stale
    obtain ⟨rfl, mower⟩ := stale
    have attempted : Kept s { s with wsLastAttempt := browser.now } := .of_same rfl rfl rfl rfl rfl
    have same : { s with wsLastAttempt := browser.now }.hasMower = s.hasMower := rfl
    rw [Bool.not_eq_true, Bool.not_eq_false'] at mower
    exact attempted.trans (kept_adopt _ (same.trans mower))

theorem kept_ensureJoystickWs (s : JoystickLink) (browser : Browser) (force : Bool) :
    Kept s (s.ensureJoystickWs browser force) := by
  rw [ensureJoystickWs]
  split
  · exact .refl s
  · split
    · exact .refl s
    · have dropped : Kept s (if force = true then s.dropSocket else s) := by
        split
        · exact s.kept_dropSocket
        · exact .refl s
      have reset : Kept s { (if force = true then s.dropSocket else s) with wsAttempt := 0 }.clearRetry :=
        dropped.trans (.of_same rfl rfl rfl rfl rfl)
      exact reset.trans (kept_connectJoystickWs _ browser _)

theorem kept_nudgeJoystickWs (s : JoystickLink) (browser : Browser) : Kept s (s.nudgeJoystickWs browser) := by
  rw [nudgeJoystickWs]
  split
  · exact .refl s
  · refine Kept.trans ?_ (kept_ensureJoystickWs _ browser false)
    exact .of_same rfl rfl rfl rfl rfl

theorem kept_loadNipple (s : JoystickLink) : Kept s s.loadNipple := by
  rw [loadNipple]
  split
  · exact .refl s
  · exact .of_same rfl rfl rfl rfl rfl

theorem kept_scriptLoaded (s : JoystickLink) (browser : Browser) (defined : Bool) :
    Kept s (s.scriptLoaded browser defined) := by
  rw [scriptLoaded]
  have loaded : Kept s { s with nippleLoading := false, nippleReady := defined } := .of_same rfl rfl rfl rfl rfl
  dsimp only
  split
  · exact loaded.trans (kept_connectJoystickWs _ browser _)
  · exact loaded

theorem kept_guardFired (s : JoystickLink) (k : ℕ) : Kept s (s.guardFired k) := by
  rw [guardFired]
  have fired : Kept s { s with wsConnectGuard := none } := .of_same rfl rfl rfl rfl rfl
  dsimp only
  split
  · exact fired.trans (kept_closeSocket _ k)
  · exact fired

theorem kept_fire (s : JoystickLink) (browser : Browser) (timer : LinkTimer) : Kept s (s.fire browser timer) := by
  cases timer with
  | retry gen =>
    have fired : Kept s { s with wsTimer := none } := .of_same rfl rfl rfl rfl rfl
    exact fired.trans (kept_connectJoystickWs _ browser gen)
  | connectGuard k => exact s.kept_guardFired k
  | loadNipple => exact s.kept_loadNipple

theorem kept_onopen (s : JoystickLink) (k : ℕ) (sock : WebSocket) : Kept s (s.onopen k sock) := by
  rw [onopen]
  split
  · exact s.kept_clearGuard.trans (kept_closeSocket _ k)
  · exact s.kept_clearGuard.trans (.of_same rfl rfl rfl rfl rfl)

theorem kept_onclose (s : JoystickLink) (browser : Browser) (k : ℕ) (sock : WebSocket) (code : ℕ) :
    Kept s (s.onclose browser k sock code) := by
  rw [onclose]
  dsimp only
  split
  · exact s.kept_clearGuard
  · have dropped : Kept s { s.clearGuard with ws := none } := .of_none rfl rfl rfl rfl
    split
    · exact dropped
    · split
      · exact dropped.trans (kept_scheduleWsRetry _ browser _ _)
      · exact dropped.trans (kept_scheduleWsRetry _ browser _ _)

theorem kept_changeVisibility (s : JoystickLink) (browser : Browser) (hidden : Bool) :
    Kept s (s.changeVisibility browser hidden) := by
  rw [changeVisibility]
  split
  · exact .of_same rfl rfl rfl rfl rfl
  · have shown : Kept s { s with hidden := false, hiddenSince := 0 } := .of_same rfl rfl rfl rfl rfl
    exact shown.trans (kept_ensureJoystickWs _ browser _)

/-! ## The events -/

theorem teardownJoystickWs_fields (s : JoystickLink) :
    s.teardownJoystickWs.ws = none ∧ s.teardownJoystickWs.created = s.created ∧
      s.teardownJoystickWs.wsMower = none := by
  have dropped (u : JoystickLink) : u.dropSocket.ws = none ∧ u.dropSocket.created = u.created ∧
      u.dropSocket.wsMower = u.wsMower := by
    rw [dropSocket]
    split
    · next none_ => exact ⟨none_, rfl, rfl⟩
    · rw [closeSocket]
      split <;> exact ⟨rfl, rfl, rfl⟩
  exact dropped _

theorem later_teardownJoystickWs (s : JoystickLink) : Later s s.teardownJoystickWs := by
  obtain ⟨none_, created, _⟩ := s.teardownJoystickWs_fields
  refine ⟨created.ge, fun k current => ?_⟩
  rw [none_] at current
  cases current

theorem owned_teardownJoystickWs (s : JoystickLink) : s.teardownJoystickWs.Owned :=
  .of_none s.teardownJoystickWs_fields.1

/-- A new mower starts without a socket of the old one. -/
theorem startJoystick_spec (s : JoystickLink) (browser : Browser) (name : String) :
    Later s (s.startJoystick browser name) ∧ (s.startJoystick browser name).Owned ∧
      (s.startJoystick browser name).wsMower = some name := by
  obtain ⟨none_, created, _⟩ := s.teardownJoystickWs_fields
  have started : Kept { s.teardownJoystickWs with wsMower := some name } (s.startJoystick browser name) := by
    rw [startJoystick]
    dsimp only
    split
    · exact (kept_connectJoystickWs _ browser _).trans (kept_loadNipple _)
    · exact kept_connectJoystickWs _ browser _
  have cut : Later s { s.teardownJoystickWs with wsMower := some name } := ⟨created.ge, fun k current => by
    rw [show s.teardownJoystickWs.ws = some k from current] at none_
    cases none_⟩
  exact ⟨cut.trans started.toLater, started.owned (.of_none none_), started.wsMower⟩

/-- An event that neither selects a mower nor finds none. -/
theorem kept_step (stepped : s.step e = some t) (select : ∀ name, e.1 ≠ .startJoystick name) (some_ : e.1 ≠ .noMowers) :
    Kept s t := by
  obtain ⟨event, browser⟩ := e
  cases event with
  | startJoystick name => exact absurd rfl (select name)
  | noMowers => exact absurd rfl some_
  | reconnected => cases stepped; exact s.kept_ensureJoystickWs browser false
  | nudge => cases stepped; exact s.kept_nudgeJoystickWs browser
  | visibilitychange hidden => cases stepped; exact s.kept_changeVisibility browser hidden
  | pageshow persisted => cases stepped; exact s.kept_ensureJoystickWs browser persisted
  | online =>
    cases stepped
    have back : Kept s { s with onLine := true } := .of_same rfl rfl rfl rfl rfl
    exact back.trans (kept_ensureJoystickWs _ browser true)
  | offline => cases stepped; exact .of_same rfl rfl rfl rfl rfl
  | scriptLoad defined =>
    simp only [step] at stepped
    split at stepped <;> cases stepped
    exact s.kept_scriptLoaded browser defined
  | scriptError =>
    simp only [step] at stepped
    split at stepped <;> cases stepped
    exact .of_same rfl rfl rfl rfl rfl
  | timer id =>
    simp only [step] at stepped
    split at stepped <;> cases stepped
    have fired : Kept s { s with timers := s.timers.clearTimeout id } := .of_same rfl rfl rfl rfl rfl
    exact fired.trans (kept_fire _ browser _)
  | «open» k =>
    simp only [step] at stepped
    split at stepped <;> try contradiction
    split_ifs at stepped
    · cases stepped
      exact (s.kept_setReadyState k .OPEN).trans (kept_onopen _ k _)
    · cases stepped
      exact s.kept_setReadyState k .OPEN
  | closing k =>
    simp only [step] at stepped
    split at stepped <;> cases stepped
    exact s.kept_setReadyState k .CLOSING
  | closed k =>
    simp only [step] at stepped
    split at stepped <;> cases stepped
    exact s.kept_setReadyState k .CLOSED
  | close k code =>
    simp only [step] at stepped
    split at stepped <;> try contradiction
    next sock at_ =>
    split_ifs at stepped
    all_goals
      cases stepped
      have delivered : Kept s
          { s with sockets := Function.update s.sockets k (some { sock with closeDelivered := true }) } := by
        refine kept_of_sockets fun j sock' at' => ?_
        rcases eq_or_ne j k with rfl | ne
        · cases at_.symm.trans at'
          exact ⟨_, Function.update_self .., rfl, rfl⟩
        · exact ⟨sock', (Function.update_of_ne ne ..).trans at', rfl, rfl⟩
    · exact delivered.trans (kept_onclose _ browser k sock code)
    · exact delivered
  | error k =>
    simp only [step] at stepped
    split at stepped <;> cases stepped
    exact .refl s

end JoystickLink

end MammotionRc.Web
