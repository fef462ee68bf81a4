import MammotionRc.Web.JoystickLink
import Mathlib.Tactic.IntervalCases

/-! # The joystick socket is never stuck

The page waits for its socket, for the guard of that socket or for a retry. The three share one variable each,
so a socket that the page has replaced, whose close event comes while the new one connects, takes away the
guard of the new one; in every other order of events there is always something to wait for.
-/

namespace MammotionRc.Web

open Machine

def LinkTimer.IsRetry (c : LinkTimer) : Prop := ∃ gen, c = .retry gen

def LinkTimer.IsGuard (c : LinkTimer) : Prop := ∃ k, c = .connectGuard k

/-- A socket of a generation whose callbacks are yet to see its end. -/
structure WebSocket.Attached (sock : WebSocket) (gen : ℕ) : Prop where
  gen : sock.gen = gen
  handlers : sock.handlers = true
  pending : sock.closeDelivered = false

namespace JoystickLink

/-- The socket is usable, or something will happen that ends with a new one. -/
inductive Progress (s : JoystickLink) : Prop
  | usable {k : ℕ} (current : s.ws = some k) (isOpen : s.readyState k = some .OPEN)
  | guarded {k id : ℕ} {d : ℚ} (current : s.ws = some k) (connecting : s.readyState k = some .CONNECTING)
      (armed : s.timers.armed id = some (.connectGuard k, d))
  | ending {k : ℕ} {sock : WebSocket} (current : s.ws = some k) (at_ : s.sockets k = some sock)
      (ends : sock.readyState = .CLOSING ∨ sock.readyState = .CLOSED) (attached : sock.handlers = true)
      (pending : sock.closeDelivered = false)
  | retry {id : ℕ} {d : ℚ} (armed : s.timers.armed id = some (.retry s.wsGen, d))

/-- While the stick is wanted and can be had, the page is not stuck, and it never has two retries. -/
structure NeverStuck (_ : List (LinkEvent × Browser)) (s : JoystickLink) : Prop where
  progress : s.hasMower = true → s.nippleReady = true → s.hidden = false → s.onLine = true → s.Progress
  single : ∀ id id' gen gen' d d', s.timers.armed id = some (.retry gen, d) →
    s.timers.armed id' = some (.retry gen', d') → id = id'

/-- The close event of a socket that the page has replaced does not come while the new one is connecting. -/
def EndsInTime (_ : List (LinkEvent × Browser)) (s : JoystickLink) (e : LinkEvent × Browser) : Prop :=
  ∀ k code sock j, e.1 = .close k code → s.sockets k = some sock → sock.handlers = true → s.ws ≠ some k →
    s.ws = some j → s.readyState j ≠ some .CONNECTING

structure Inv (s : JoystickLink) : Prop where
  retry : s.timers.Holds LinkTimer.IsRetry s.wsTimer
  guard : s.timers.Holds LinkTimer.IsGuard s.wsConnectGuard
  retryGen : ∀ id gen d, s.timers.armed id = some (.retry gen, d) → gen = s.wsGen
  guardSock : ∀ id k d, s.timers.armed id = some (.connectGuard k, d) → k + 1 = s.created
  newest : ∀ k, s.ws = some k → k + 1 = s.created
  current : ∀ k, s.ws = some k → ∃ sock, s.sockets k = some sock ∧ sock.Attached s.wsGen
  /-- Without a mower or the joystick library there is neither a socket nor a retry. -/
  wanted : s.ws ≠ none ∨ s.wsTimer ≠ none → s.hasMower = true ∧ s.nippleReady = true
  /-- A retry waits only while there is no usable socket. -/
  waiting : s.wsTimer ≠ none → s.connectingOrOpen = false
  replaced : ∀ k sock, s.sockets k = some sock → sock.handlers = true → s.ws ≠ some k →
    sock.readyState = .CLOSING ∨ sock.readyState = .CLOSED
  guarded : ∀ k, s.ws = some k → s.readyState k = some .CONNECTING → s.wsConnectGuard ≠ none
  loading : s.nippleLoading = true → s.nippleReady = false

/-- There is a socket or a retry, if the stick is wanted and can be had. -/
def Live (s : JoystickLink) : Prop :=
  s.hasMower = true → s.nippleReady = true → s.hidden = false → s.onLine = true → s.ws ≠ none ∨ s.wsTimer ≠ none

variable {s t : JoystickLink} {browser : Browser} {es : List (LinkEvent × Browser)} {e : LinkEvent × Browser} {k : ℕ}
  {gen : ℕ} {sock : WebSocket}

theorem readyState_of (at_ : s.sockets k = some sock) : s.readyState k = some sock.readyState :=
  congrArg (Option.map WebSocket.readyState) at_

theorem ended_of_idle (idle : s.connectingOrOpen = false) (current : s.ws = some k) (at_ : s.sockets k = some sock) :
    sock.readyState = .CLOSING ∨ sock.readyState = .CLOSED := by
  simp only [connectingOrOpen, current, readyState_of at_, Option.some.injEq, decide_eq_false_iff_not, not_or] at idle
  cases is : sock.readyState with
  | CONNECTING => exact absurd is idle.1
  | OPEN => exact absurd is idle.2
  | CLOSING => exact .inl rfl
  | CLOSED => exact .inr rfl

theorem Inv.neverStuck (inv : Inv s) (live : Live s) : NeverStuck es s := by
  refine ⟨fun mower ready visible online => ?_, fun id id' gen gen' d d' first second => ?_⟩
  · cases current : s.ws with
    | some k =>
      obtain ⟨sock, is, attached⟩ := inv.current k current
      have state : s.readyState k = some sock.readyState := readyState_of is
      cases at_ : sock.readyState with
      | CONNECTING =>
        rw [at_] at state
        obtain ⟨id, held⟩ := Option.ne_none_iff_exists'.mp (inv.guarded k current state)
        obtain ⟨_, d, armed, j, rfl⟩ := inv.guard.armed id held
        have same : j = k := Nat.succ.inj ((inv.guardSock id j d armed).trans (inv.newest k current).symm)
        subst same
        exact .guarded current state armed
      | OPEN => exact .usable current (state.trans (congrArg some at_))
      | CLOSING => exact .ending current is (.inl at_) attached.handlers attached.pending
      | CLOSED => exact .ending current is (.inr at_) attached.handlers attached.pending
    | none =>
      rcases live mower ready visible online with set | waits
      · exact absurd current set
      · obtain ⟨id, held⟩ := Option.ne_none_iff_exists'.mp waits
        obtain ⟨_, d, armed, gen, rfl⟩ := inv.retry.armed id held
        have same := inv.retryGen id gen d armed
        subst same
        exact .retry armed
  · exact inv.retry.unique first ⟨gen, rfl⟩ second ⟨gen', rfl⟩

theorem isGuard_not_isRetry (c : LinkTimer) (guard : c.IsGuard) : ¬ c.IsRetry := by
  obtain ⟨k, rfl⟩ := guard
  rintro ⟨gen, is⟩
  cases is

theorem isRetry_not_isGuard (c : LinkTimer) (retry : c.IsRetry) : ¬ c.IsGuard :=
  fun guard => isGuard_not_isRetry c guard retry

theorem Inv.clearRetry (inv : Inv s) : Inv s.clearRetry where
  retry := inv.retry.clearHeld
  guard := inv.guard.clearHeld_of_not inv.retry isRetry_not_isGuard
  retryGen id gen d armed := inv.retryGen id gen d (Timers.armed_clearHeld.mp armed).2
  guardSock id k d armed := inv.guardSock id k d (Timers.armed_clearHeld.mp armed).2
  newest := inv.newest
  current := inv.current
  wanted some := inv.wanted (some.imp_right fun absurd => (absurd rfl).elim)
  waiting absurd := (absurd rfl).elim
  replaced := inv.replaced
  guarded := inv.guarded
  loading := inv.loading

/-- The guard may go once the current socket is not connecting. -/
theorem Inv.clearGuard (inv : Inv s) (settled : ∀ k, s.ws = some k → s.readyState k ≠ some .CONNECTING) :
    Inv s.clearGuard where
  retry := inv.retry.clearHeld_of_not inv.guard isGuard_not_isRetry
  guard := inv.guard.clearHeld
  retryGen id gen d armed := inv.retryGen id gen d (Timers.armed_clearHeld.mp armed).2
  guardSock id k d armed := inv.guardSock id k d (Timers.armed_clearHeld.mp armed).2
  newest := inv.newest
  current := inv.current
  wanted := inv.wanted
  waiting := inv.waiting
  replaced := inv.replaced
  guarded k current connecting := absurd connecting (settled k current)
  loading := inv.loading

theorem Inv.armRetry (inv : Inv s) (free : s.wsTimer = none) (mower : s.hasMower = true)
    (ready : s.nippleReady = true) (idle : s.connectingOrOpen = false) (d : ℚ) :
    Inv { s with wsTimer := some s.timers.next, timers := s.timers.setTimeout (.retry s.wsGen) d } where
  retry := (free ▸ inv.retry).setTimeout ⟨s.wsGen, rfl⟩
  guard := inv.guard.setTimeout_of_not (isRetry_not_isGuard _ ⟨s.wsGen, rfl⟩)
  retryGen id gen d armed := by
    rcases Timers.armed_setTimeout.mp armed with ⟨_, same, _⟩ | before
    · cases same
      rfl
    · exact inv.retryGen id gen d before
  guardSock id k d armed := by
    rcases Timers.armed_setTimeout.mp armed with ⟨_, same, _⟩ | before
    · cases same
    · exact inv.guardSock id k d before
  newest := inv.newest
  current := inv.current
  wanted _ := ⟨mower, ready⟩
  waiting _ := idle
  replaced := inv.replaced
  guarded := inv.guarded
  loading := inv.loading

/-- A retry is due once it is asked for, whether or not one was already waiting. -/
theorem Inv.scheduleWsRetry (inv : Inv s) (ready : s.nippleReady = true) (idle : s.connectingOrOpen = false)
    (browser : Browser) (delayOverride : Option ℚ) :
    Inv (s.scheduleWsRetry browser s.wsGen delayOverride) ∧
      (s.hasMower = true → (s.scheduleWsRetry browser s.wsGen delayOverride).wsTimer ≠ none) := by
  unfold JoystickLink.scheduleWsRetry
  split_ifs with stale waits
  · refine ⟨inv, fun mower => ?_⟩
    rw [mower] at stale
    simp at stale
  · exact ⟨inv, fun _ => Option.isSome_iff_ne_none.mp waits⟩
  · have free : s.wsTimer = none := by simpa using waits
    have mower : s.hasMower = true := by
      rw [not_or] at stale
      simpa using stale.2
    cases delayOverride with
    | some d => exact ⟨inv.armRetry free mower ready idle d, fun _ => Option.some_ne_none _⟩
    | none =>
      have bumped : Inv { s with wsAttempt := s.wsAttempt + 1 } := { inv with }
      exact ⟨bumped.armRetry free mower ready idle _, fun _ => Option.some_ne_none _⟩

/-- A new socket becomes the current one, with its own guard. -/
theorem Inv.adopt (inv : Inv s) (free : s.wsTimer = none) (mower : s.hasMower = true) (ready : s.nippleReady = true)
    (idle : s.connectingOrOpen = false) : Inv (s.adopt s.wsGen) := by
  have cleared : (s.timers.clearHeld s.wsConnectGuard).Holds LinkTimer.IsGuard none := inv.guard.clearHeld
  have retries : (s.timers.clearHeld s.wsConnectGuard).Holds LinkTimer.IsRetry s.wsTimer :=
    inv.retry.clearHeld_of_not inv.guard isGuard_not_isRetry
  have newest : Function.update s.sockets s.created (some ⟨s.wsMower.getD "", s.wsGen, .CONNECTING, true, false⟩)
      s.created = some ⟨s.wsMower.getD "", s.wsGen, .CONNECTING, true, false⟩ := Function.update_self ..
  exact {
    retry := retries.setTimeout_of_not (isGuard_not_isRetry _ ⟨_, rfl⟩)
    guard := cleared.setTimeout ⟨_, rfl⟩
    retryGen := fun id gen d armed => by
      rcases Timers.armed_setTimeout.mp armed with ⟨_, same, _⟩ | before
      · cases same
      · exact inv.retryGen id gen d (Timers.armed_clearHeld.mp before).2
    guardSock := fun id k d armed => by
      rcases Timers.armed_setTimeout.mp armed with ⟨_, same, _⟩ | before
      · cases same
        rfl
      · cases cleared.only id _ d before ⟨k, rfl⟩
    newest := fun k current => by
      cases current
      rfl
    current := fun k current => by
      cases current
      exact ⟨_, newest, rfl, rfl, rfl⟩
    wanted := fun _ => ⟨mower, ready⟩
    waiting := fun waits => absurd free waits
    replaced := fun k sock at_ handlers ne => by
      have old : k ≠ s.created := fun same => ne (congrArg some same.symm)
      have at_ : s.sockets k = some sock := (Function.update_of_ne old ..).symm.trans at_
      by_cases current : s.ws = some k
      · exact ended_of_idle idle current at_
      · exact inv.replaced k sock at_ handlers current
    guarded := fun _ _ _ => Option.some_ne_none _
    loading := inv.loading }

theorem readyState_setReadyState (s : JoystickLink) (k j : ℕ) (r : ReadyState) :
    (s.setReadyState k r).readyState j = if j = k then (s.readyState k).map fun _ => r else s.readyState j := by
  simp only [readyState, setReadyState, Function.update_apply]
  split
  · rw [Option.map_map, Option.map_map]
    rfl
  · rfl

theorem connectingOrOpen_iff :
    s.connectingOrOpen = true ↔
      ∃ k, s.ws = some k ∧ (s.readyState k = some .CONNECTING ∨ s.readyState k = some .OPEN) := by
  rw [connectingOrOpen]
  cases s.ws <;> simp

/-- A socket moves on: it opens after it was connecting, or it comes closer to its end. -/
theorem Inv.setReadyState (inv : Inv s) {r : ReadyState}
    (onwards : r = .OPEN ∧ s.readyState k = some .CONNECTING ∨ r = .CLOSING ∨ r = .CLOSED) :
    Inv (s.setReadyState k r) where
  retry := inv.retry
  guard := inv.guard
  retryGen := inv.retryGen
  guardSock := inv.guardSock
  newest := inv.newest
  current j current := by
    obtain ⟨sock, at_, attached⟩ := inv.current j current
    rcases eq_or_ne j k with rfl | ne
    · refine ⟨{ sock with readyState := r }, ?_, attached.gen, attached.handlers, attached.pending⟩
      exact (Function.update_self ..).trans (congrArg _ at_)
    · exact ⟨sock, (Function.update_of_ne ne ..).trans at_, attached⟩
  wanted := inv.wanted
  waiting waits := by
    have idle := inv.waiting waits
    rw [← Bool.not_eq_true, connectingOrOpen_iff] at idle ⊢
    rintro ⟨j, current, usable⟩
    refine idle ⟨j, current, ?_⟩
    rw [readyState_setReadyState] at usable
    split at usable
    · next same =>
      rcases onwards with ⟨rfl, connecting⟩ | rfl | rfl
      · exact .inl (same ▸ connecting)
      · simp at usable
      · simp at usable
    · exact usable
  replaced j sock at_ handlers old := by
    rcases eq_or_ne j k with rfl | ne
    · simp only [JoystickLink.setReadyState, Function.update_self] at at_
      obtain ⟨before, at_', rfl⟩ := Option.map_eq_some_iff.mp at_
      rcases onwards with ⟨rfl, connecting⟩ | ended
      · have state : before.readyState = .CONNECTING := Option.some.inj ((readyState_of at_').symm.trans connecting)
        rcases inv.replaced j before at_' handlers old with ends | ends <;> cases state.symm.trans ends
      · exact ended
    · exact inv.replaced j sock ((Function.update_of_ne ne ..).symm.trans at_) handlers old
  guarded j current connecting := by
    rw [readyState_setReadyState] at connecting
    split at connecting
    · rcases onwards with ⟨rfl, _⟩ | rfl | rfl <;> simp at connecting
    · exact inv.guarded j current connecting
  loading := inv.loading

theorem Inv.closeSocket (inv : Inv s) (k : ℕ) : Inv (s.closeSocket k) := by
  rw [JoystickLink.closeSocket]
  split
  · exact inv.setReadyState (.inr (.inl rfl))
  · exact inv

/-- The page has no socket, and a new one can only come from a connect. -/
theorem Inv.dropSocket (inv : Inv s) : Inv s.dropSocket := by
  unfold JoystickLink.dropSocket
  split
  · exact inv
  · next k current =>
    refine Inv.closeSocket ?_ k
    exact {
      inv with
      newest := fun j same => absurd same.symm (Option.some_ne_none j)
      current := fun j same => absurd same.symm (Option.some_ne_none j)
      wanted := fun some => inv.wanted (some.imp_left fun absurd => (absurd rfl).elim)
      waiting := fun _ => rfl
      replaced := fun j sock at_ handlers _ => by
        rcases eq_or_ne j k with rfl | ne
        · simp only [Function.update_self] at at_
          obtain ⟨before, _, rfl⟩ := Option.map_eq_some_iff.mp at_
          cases handlers
        · refine inv.replaced j sock ((Function.update_of_ne ne ..).symm.trans at_) handlers fun same => ?_
          exact ne (Option.some.inj (same.symm.trans current))
      guarded := fun j same => absurd same.symm (Option.some_ne_none j) }

/-- Trying to connect leaves something to wait for. -/
theorem Inv.connectJoystickWs (inv : Inv s) (free : s.wsTimer = none) (browser : Browser) :
    Inv (s.connectJoystickWs browser s.wsGen) ∧ Live (s.connectJoystickWs browser s.wsGen) := by
  unfold JoystickLink.connectJoystickWs
  split_ifs with stale missing busy hidden offline early fails
  · refine ⟨inv, fun mower => ?_⟩
    simp [mower] at stale
  · refine ⟨inv, fun _ ready => ?_⟩
    simp [ready] at missing
  · obtain ⟨k, current, _⟩ := connectingOrOpen_iff.mp busy
    exact ⟨inv, fun _ _ _ _ => .inl (current ▸ Option.some_ne_none k)⟩
  · refine ⟨inv, fun _ _ visible => ?_⟩
    cases hidden.symm.trans visible
  · refine ⟨inv, fun _ _ _ online => ?_⟩
    simp [online] at offline
  all_goals
    have mower : s.hasMower = true := by simpa using (not_or.mp stale).2
    have ready : s.nippleReady = true := by simpa using missing
    have idle : s.connectingOrOpen = false := by simpa using busy
  · obtain ⟨kept, waits⟩ := inv.scheduleWsRetry ready idle browser (some WS_ATTEMPT_FLOOR_MS)
    exact ⟨kept, fun _ _ _ _ => .inr (waits mower)⟩
  · have attempted : Inv { s with wsLastAttempt := browser.now } := { inv with }
    obtain ⟨kept, waits⟩ := attempted.scheduleWsRetry ready idle browser none
    exact ⟨kept, fun _ _ _ _ => .inr (waits mower)⟩
  · have attempted : Inv { s with wsLastAttempt := browser.now } := { inv with }
    exact ⟨attempted.adopt free mower ready idle, fun _ _ _ _ => .inl (Option.some_ne_none _)⟩

theorem Inv.ensureJoystickWs (inv : Inv s) (browser : Browser) (force : Bool) :
    Inv (s.ensureJoystickWs browser force) ∧ Live (s.ensureJoystickWs browser force) := by
  unfold JoystickLink.ensureJoystickWs
  split_ifs with unwanted busy forced
  · refine ⟨inv, fun mower _ visible => ?_⟩
    simp [mower, visible] at unwanted
  · obtain ⟨k, current, _⟩ := connectingOrOpen_iff.mp (Bool.and_eq_true_iff.mp busy).2
    exact ⟨inv, fun _ _ _ _ => .inl (current ▸ Option.some_ne_none k)⟩
  · have dropped : Inv { s.dropSocket with wsAttempt := 0 } := { inv.dropSocket with }
    exact dropped.clearRetry.connectJoystickWs rfl browser
  · have reset : Inv { s with wsAttempt := 0 } := { inv with }
    exact reset.clearRetry.connectJoystickWs rfl browser

theorem dropSocket_ws (s : JoystickLink) : s.dropSocket.ws = none := by
  unfold JoystickLink.dropSocket
  split
  · assumption
  · rw [JoystickLink.closeSocket]
    split <;> rfl

theorem closeSocket_eq (s : JoystickLink) (k : ℕ) :
    s.closeSocket k = { s with sockets := (s.closeSocket k).sockets } := by
  rw [JoystickLink.closeSocket]
  split <;> rfl

/-- What a close does to the sockets depends on nothing else. -/
theorem closeSocket_sockets (same : s.sockets = t.sockets) : (s.closeSocket k).sockets = (t.closeSocket k).sockets := by
  have state : s.readyState k = t.readyState k := congrArg (fun sockets => (sockets k).map WebSocket.readyState) same
  rw [JoystickLink.closeSocket, JoystickLink.closeSocket]
  by_cases usable : t.readyState k = some .CONNECTING ∨ t.readyState k = some .OPEN
  · rw [if_pos (state ▸ usable), if_pos usable]
    simp only [JoystickLink.setReadyState, same]
  · rw [if_neg (state ▸ usable), if_neg usable, same]

/-- A teardown is a dropped socket and a cleared retry and guard, under the next generation and without a mower. -/
theorem teardownJoystickWs_eq (s : JoystickLink) :
    s.teardownJoystickWs =
      { s.dropSocket.clearRetry.clearGuard with wsGen := s.wsGen + 1, wsMower := none, wsAttempt := 0 } := by
  unfold JoystickLink.teardownJoystickWs JoystickLink.dropSocket
  simp only [JoystickLink.clearRetry, JoystickLink.clearGuard]
  split
  · rfl
  · rw [closeSocket_eq, closeSocket_eq { s with ws := none, sockets := _ }]
    congr 1
    exact closeSocket_sockets rfl

/-- Without a socket and a retry the page can turn to any mower. -/
theorem Inv.retarget (inv : Inv s) (dropped : s.ws = none) (free : s.wsTimer = none) (gen : ℕ)
    (name : Option String) (attempt : ℕ) : Inv { s with wsGen := gen, wsMower := name, wsAttempt := attempt } :=
  { inv with
    retryGen := fun id gen d armed => absurd (free.symm.trans (inv.retry.only id _ d armed ⟨gen, rfl⟩)).symm
      (Option.some_ne_none id)
    current := fun k current => absurd (dropped.symm.trans current).symm (Option.some_ne_none k)
    wanted := fun some => absurd some (by simp [dropped, free]) }

theorem Inv.teardownJoystickWs (inv : Inv s) (name : Option String) :
    Inv { s.teardownJoystickWs with wsMower := name } := by
  rw [teardownJoystickWs_eq]
  have dropped : s.dropSocket.clearRetry.ws = none := dropSocket_ws s
  have settled : ∀ k, s.dropSocket.clearRetry.ws = some k →
      s.dropSocket.clearRetry.readyState k ≠ some .CONNECTING := by
    intro k current
    cases dropped.symm.trans current
  exact (inv.dropSocket.clearRetry.clearGuard settled).retarget dropped rfl (s.wsGen + 1) name 0

theorem Inv.loadNipple (inv : Inv s) : Inv s.loadNipple := by
  rw [JoystickLink.loadNipple]
  split
  · exact inv
  · next missing => exact { inv with loading := fun _ => by simpa using (not_or.mp missing).1 }

theorem Live.loadNipple (live : Live s) : Live s.loadNipple := by
  rw [JoystickLink.loadNipple]
  split
  · exact live
  · exact live

theorem Inv.startJoystick (inv : Inv s) (browser : Browser) (name : String) :
    Inv (s.startJoystick browser name) ∧ Live (s.startJoystick browser name) := by
  have free : s.teardownJoystickWs.wsTimer = none := by
    rw [teardownJoystickWs_eq]
    rfl
  obtain ⟨kept, live⟩ := (inv.teardownJoystickWs (some name)).connectJoystickWs free browser
  unfold JoystickLink.startJoystick
  dsimp only
  split
  · exact ⟨kept.loadNipple, live.loadNipple⟩
  · exact ⟨kept, live⟩

/-- The library arrives on a page that has neither a socket nor a retry. -/
theorem Inv.scriptLoaded (inv : Inv s) (loading : s.nippleLoading = true) (browser : Browser) (defined : Bool) :
    Inv (s.scriptLoaded browser defined) ∧ Live (s.scriptLoaded browser defined) := by
  have idle : ¬ (s.ws ≠ none ∨ s.wsTimer ≠ none) := by
    intro some
    cases (inv.wanted some).2.symm.trans (inv.loading loading)
  have loaded : Inv { s with nippleLoading := false, nippleReady := defined } :=
    { inv with
      wanted := fun some => absurd some idle
      loading := fun again => by cases again }
  unfold JoystickLink.scriptLoaded
  dsimp only
  split
  · exact loaded.connectJoystickWs (not_not.mp (not_or.mp idle).2) browser
  · next unwanted =>
    refine ⟨loaded, fun mower ready => absurd ?_ unwanted⟩
    exact Bool.and_eq_true_iff.mpr ⟨ready, mower⟩

theorem Inv.armLoadNipple (inv : Inv s) (d : ℚ) :
    Inv { s with nippleLoading := false, timers := s.timers.setTimeout .loadNipple d } :=
  { inv with
    retry := inv.retry.setTimeout_of_not (by rintro ⟨_, ⟨⟩⟩)
    guard := inv.guard.setTimeout_of_not (by rintro ⟨_, ⟨⟩⟩)
    retryGen := fun id gen d armed => by
      rcases Timers.armed_setTimeout.mp armed with ⟨_, same, _⟩ | before
      · cases same
      · exact inv.retryGen id gen d before
    guardSock := fun id k d armed => by
      rcases Timers.armed_setTimeout.mp armed with ⟨_, same, _⟩ | before
      · cases same
      · exact inv.guardSock id k d before
    loading := fun again => by cases again }

theorem Inv.fired_loadNipple (inv : Inv s) {id : ℕ} {d : ℚ} (armed : s.timers.armed id = some (.loadNipple, d)) :
    Inv { s with timers := s.timers.clearTimeout id } :=
  { inv with
    retry := inv.retry.clearTimeout_of_not fun c d' armed' => by
      cases armed.symm.trans armed'
      rintro ⟨_, ⟨⟩⟩
    guard := inv.guard.clearTimeout_of_not fun c d' armed' => by
      cases armed.symm.trans armed'
      rintro ⟨_, ⟨⟩⟩
    retryGen := fun id gen d armed => inv.retryGen id gen d (Timers.armed_clearTimeout.mp armed).2
    guardSock := fun id k d armed => inv.guardSock id k d (Timers.armed_clearTimeout.mp armed).2 }

/-- The guard closes the socket that it is for, which is the current one if that is still connecting. -/
theorem Inv.guardFired {id : ℕ} {d : ℚ} (inv : Inv s) (armed : s.timers.armed id = some (.connectGuard k, d)) :
    Inv ({ s with timers := s.timers.clearTimeout id }.guardFired k) := by
  have held : s.wsConnectGuard = some id := inv.guard.only id _ d armed ⟨k, rfl⟩
  have cleared : { s with timers := s.timers.clearTimeout id }.guardFired k = s.clearGuard.guardFired k := by
    rw [JoystickLink.clearGuard, held]
    rfl
  rw [cleared]
  unfold JoystickLink.guardFired
  dsimp only
  split
  · next connecting =>
    have closes : s.clearGuard.closeSocket k = (s.setReadyState k .CLOSING).clearGuard := if_pos (.inl connecting.2)
    refine closes.symm ▸ (inv.setReadyState (.inr (.inl rfl))).clearGuard fun j current state => ?_
    cases current.symm.trans connecting.1
    rw [readyState_setReadyState, if_pos rfl] at state
    obtain ⟨_, _, ⟨⟩⟩ := Option.map_eq_some_iff.mp state
  · next other =>
    refine inv.clearGuard fun j current connecting => other ?_
    have same : j = k := Nat.succ.inj ((inv.newest j current).trans (inv.guardSock id k d armed).symm)
    subst same
    exact ⟨current, connecting⟩

theorem Live.guardFired (live : Live s) (timers : Timers LinkTimer) : Live ({ s with timers }.guardFired k) := by
  unfold JoystickLink.guardFired
  dsimp only
  split
  · rw [closeSocket_eq]
    exact live
  · exact live

theorem Inv.fire {id : ℕ} {c : LinkTimer} {d : ℚ} (inv : Inv s) (live : Live s)
    (armed : s.timers.armed id = some (c, d)) (browser : Browser) :
    Inv ({ s with timers := s.timers.clearTimeout id }.fire browser c) ∧
      Live ({ s with timers := s.timers.clearTimeout id }.fire browser c) := by
  cases c with
  | retry gen =>
    have held : s.wsTimer = some id := inv.retry.only id _ d armed ⟨gen, rfl⟩
    have current : gen = s.wsGen := inv.retryGen id gen d armed
    subst current
    have fires : { s with timers := s.timers.clearTimeout id }.fire browser (.retry s.wsGen) =
        s.clearRetry.connectJoystickWs browser s.wsGen := by
      rw [JoystickLink.clearRetry, held]
      rfl
    rw [fires]
    exact inv.clearRetry.connectJoystickWs rfl browser
  | connectGuard k => exact ⟨inv.guardFired armed, live.guardFired _⟩
  | loadNipple => exact ⟨(inv.fired_loadNipple armed).loadNipple, Live.loadNipple live⟩

/-- A socket that opens is the current one. -/
theorem Inv.onopen (inv : Inv s) (live : Live s) (at_ : s.sockets k = some sock)
    (connecting : sock.readyState = .CONNECTING) (handlers : sock.handlers = true) :
    Inv ((s.setReadyState k .OPEN).onopen k sock) ∧ Live ((s.setReadyState k .OPEN).onopen k sock) := by
  have current : s.ws = some k := by
    by_contra old
    rcases inv.replaced k sock at_ handlers old with ends | ends <;> cases connecting.symm.trans ends
  obtain ⟨sock', at_', attached⟩ := inv.current k current
  cases at_.symm.trans at_'
  have opened := inv.setReadyState (.inl ⟨rfl, (readyState_of at_).trans (congrArg some connecting)⟩)
  have cleared : Inv (s.setReadyState k .OPEN).clearGuard := by
    refine opened.clearGuard fun j same state => ?_
    cases same.symm.trans current
    rw [readyState_setReadyState, if_pos rfl] at state
    obtain ⟨_, _, ⟨⟩⟩ := Option.map_eq_some_iff.mp state
  have mine : ¬ (sock.gen ≠ (s.setReadyState k .OPEN).clearGuard.wsGen ∨
      (s.setReadyState k .OPEN).clearGuard.ws ≠ some k) :=
    not_or.mpr ⟨not_not.mpr attached.gen, not_not.mpr current⟩
  rw [JoystickLink.onopen, if_neg mine]
  exact ⟨{ cleared with }, live⟩

/-- A socket whose close event is delivered is the current one no longer. -/
theorem Inv.deliver (inv : Inv s) (at_ : s.sockets k = some sock) (closed : sock.readyState = .CLOSED) :
    Inv { s with
      ws := if s.ws = some k then none else s.ws
      sockets := Function.update s.sockets k (some { sock with closeDelivered := true }) } := by
  have still {j : ℕ} (current : (if s.ws = some k then none else s.ws) = some j) : s.ws = some j ∧ j ≠ k := by
    split_ifs at current with mine
    refine ⟨current, ?_⟩
    rintro rfl
    exact mine current
  have state (j : ℕ) : ((Function.update s.sockets k (some { sock with closeDelivered := true })) j).map
      WebSocket.readyState = s.readyState j := by
    rw [Function.update_apply]
    split
    · next same => exact same ▸ (readyState_of at_).symm
    · rfl
  exact {
    inv with
    newest := fun j current => inv.newest j (still current).1
    current := fun j current => by
      obtain ⟨current, ne⟩ := still current
      obtain ⟨sock', at_', attached⟩ := inv.current j current
      exact ⟨sock', (Function.update_of_ne ne ..).trans at_', attached⟩
    wanted := fun some => inv.wanted (some.imp_left fun set => by
      obtain ⟨j, current⟩ := Option.ne_none_iff_exists'.mp set
      exact (still current).1 ▸ Option.some_ne_none j)
    waiting := fun waits => by
      have idle := inv.waiting waits
      rw [← Bool.not_eq_true, connectingOrOpen_iff] at idle ⊢
      rintro ⟨j, current, usable⟩
      rw [readyState, state] at usable
      exact idle ⟨j, (still current).1, usable⟩
    replaced := fun j sock' at_' handlers old => by
      simp only [Function.update_apply] at at_'
      split at at_'
      · cases at_'
        exact .inr closed
      · next ne =>
        refine inv.replaced j sock' at_' handlers fun current => old ?_
        exact (if_neg fun mine => ne (Option.some.inj (current.symm.trans mine))).trans current
    guarded := fun j current connecting => by
      rw [readyState, state] at connecting
      exact inv.guarded j (still current).1 connecting }

/-- The close event of a replaced socket clears the guard, whichever socket it is for. -/
theorem onclose_of_replaced (browser : Browser) (sock : WebSocket) (code : ℕ) (old : s.ws ≠ some k) :
    s.onclose browser k sock code = s.clearGuard := if_pos old

/-- The end of the current socket asks for a new one; the end of another changes nothing, unless its close event
takes the guard of one that is connecting. -/
theorem Inv.onclose (inv : Inv s) (live : Live s) (at_ : s.sockets k = some sock)
    (closed : sock.readyState = .CLOSED)
    (inTime : s.ws ≠ some k → ∀ j, s.ws = some j → s.readyState j ≠ some .CONNECTING) (browser : Browser)
    (code : ℕ) :
    let t : JoystickLink :=
      { s with sockets := Function.update s.sockets k (some { sock with closeDelivered := true }) }
    Inv (t.onclose browser k sock code) ∧ Live (t.onclose browser k sock code) := by
  intro t
  have delivered := inv.deliver at_ closed
  by_cases current : s.ws = some k
  · unfold JoystickLink.onclose
    dsimp only
    rw [if_pos current] at delivered
    have cleared := delivered.clearGuard fun j same => absurd same.symm (Option.some_ne_none j)
    obtain ⟨sock', at_', attached⟩ := inv.current k current
    cases at_.symm.trans at_'
    obtain ⟨mower, ready⟩ := inv.wanted (.inl (current ▸ Option.some_ne_none k))
    have mine : ¬ (t.clearGuard.ws ≠ some k) := not_not.mpr current
    have same : ¬ (sock.gen ≠ t.clearGuard.wsGen) := not_not.mpr attached.gen
    rw [if_neg mine, if_neg same, attached.gen]
    split
    · obtain ⟨kept, waits⟩ := cleared.scheduleWsRetry ready rfl browser (some WS_DEAD_BACKOFF)
      exact ⟨kept, fun _ _ _ _ => .inr (waits mower)⟩
    · obtain ⟨kept, waits⟩ := cleared.scheduleWsRetry ready rfl browser none
      exact ⟨kept, fun _ _ _ _ => .inr (waits mower)⟩
  · rw [if_neg current] at delivered
    rw [onclose_of_replaced browser sock code (s := t) current]
    refine ⟨delivered.clearGuard fun j same state => inTime current j same ?_, live⟩
    have ne : j ≠ k := fun same' => current (same' ▸ same)
    rw [readyState] at state ⊢
    exact (congrArg _ (Function.update_of_ne ne ..)).symm.trans state

/-- The page goes on with something to wait for, whatever happens. -/
theorem step_inv (inv : Inv s) (live : Live s) (inTime : EndsInTime es s e) (stepped : s.step e = some t) :
    Inv t ∧ Live t := by
  obtain ⟨event, browser⟩ := e
  cases event with
  | startJoystick name =>
    cases stepped
    exact inv.startJoystick browser name
  | noMowers =>
    cases stepped
    have none : s.teardownJoystickWs = { s.teardownJoystickWs with wsMower := none } := by
      rw [teardownJoystickWs_eq]
    exact ⟨none ▸ inv.teardownJoystickWs Option.none, none ▸ fun mower => by cases mower⟩
  | reconnected =>
    cases stepped
    exact inv.ensureJoystickWs browser false
  | nudge =>
    cases stepped
    rw [JoystickLink.nudgeJoystickWs]
    split
    · exact ⟨inv, live⟩
    · have nudged : Inv { s with lastNudge := browser.now } := { inv with }
      exact nudged.ensureJoystickWs browser false
  | visibilitychange hidden =>
    cases stepped
    rw [JoystickLink.changeVisibility]
    split
    · exact ⟨{ inv with }, fun _ _ visible => by cases visible⟩
    · have shown : Inv { s with hidden := false, hiddenSince := 0 } := { inv with }
      exact shown.ensureJoystickWs browser _
  | pageshow persisted =>
    cases stepped
    exact inv.ensureJoystickWs browser persisted
  | online =>
    cases stepped
    have reached : Inv { s with onLine := true } := { inv with }
    exact reached.ensureJoystickWs browser true
  | offline =>
    cases stepped
    exact ⟨{ inv with }, fun _ _ _ online => by cases online⟩
  | scriptLoad defined =>
    simp only [step] at stepped
    split_ifs at stepped with loading
    cases stepped
    exact inv.scriptLoaded loading browser defined
  | scriptError =>
    simp only [step] at stepped
    split_ifs at stepped
    cases stepped
    exact ⟨inv.armLoadNipple _, live⟩
  | timer id =>
    simp only [step] at stepped
    split at stepped
    · next c d armed =>
      cases stepped
      exact inv.fire live armed browser
    · cases stepped
  | «open» k =>
    simp only [step] at stepped
    split at stepped
    · next sock at_ =>
      split_ifs at stepped with state handlers <;> cases stepped
      · exact inv.onopen live at_ (not_not.mp state) handlers
      · have connecting := (readyState_of at_).trans (congrArg some (not_not.mp state))
        exact ⟨inv.setReadyState (.inl ⟨rfl, connecting⟩), live⟩
    · cases stepped
  | closing k =>
    simp only [step] at stepped
    split_ifs at stepped
    cases stepped
    exact ⟨inv.setReadyState (.inr (.inl rfl)), live⟩
  | closed k =>
    simp only [step] at stepped
    split_ifs at stepped
    cases stepped
    exact ⟨inv.setReadyState (.inr (.inr rfl)), live⟩
  | close k code =>
    simp only [step] at stepped
    split at stepped
    · next sock at_ =>
      split_ifs at stepped with state handlers <;> cases stepped
      · exact inv.onclose live at_ (not_not.mp (not_or.mp state).1)
          (fun old j => inTime k code sock j rfl at_ handlers old) browser code
      · have delivered := inv.deliver at_ (not_not.mp (not_or.mp state).1)
        have old : s.ws ≠ some k := by
          intro current
          obtain ⟨sock', at_', attached⟩ := inv.current k current
          cases at_.symm.trans at_'
          exact handlers attached.handlers
        rw [if_neg old] at delivered
        exact ⟨delivered, live⟩
    · cases stepped
  | error k =>
    simp only [step] at stepped
    split_ifs at stepped
    cases stepped
    exact ⟨inv, live⟩

/-- A late close event leaves a socket that connects with nothing to end that. -/
theorem late_close_stuck (inv : Inv s) (late : ¬ EndsInTime es s e) (stepped : s.step e = some t) :
    ¬ t.Progress := by
  obtain ⟨event, browser⟩ := e
  simp only [EndsInTime, not_forall, not_not] at late
  obtain ⟨k, code, sock, j, rfl, at_, handlers, old, current, connecting⟩ := late
  simp only [step, at_] at stepped
  split_ifs at stepped
  cases stepped
  have other : k ≠ j := fun same => old (same ▸ current)
  set t := { s with sockets := Function.update s.sockets k (some { sock with closeDelivered := true }) }
  rw [onclose_of_replaced browser sock code (s := t) old]
  have state : t.clearGuard.readyState j = some .CONNECTING :=
    (congrArg _ (Function.update_of_ne other.symm ..)).trans connecting
  have guards : t.clearGuard.timers.Holds LinkTimer.IsGuard none := inv.guard.clearHeld
  have retries : t.clearGuard.timers.Holds LinkTimer.IsRetry s.wsTimer := inv.retry.clearHeld_of_not inv.guard isGuard_not_isRetry
  intro progress
  cases progress with
  | usable same is =>
    cases current.symm.trans same
    cases state.symm.trans is
  | guarded _ _ armed => cases guards.only _ _ _ armed ⟨_, rfl⟩
  | ending same at_ ends =>
    cases current.symm.trans same
    rcases ends with ends | ends <;>
      cases (state.symm.trans (readyState_of at_)).trans (congrArg some ends)
  | retry armed =>
    have waits : s.wsTimer ≠ none := retries.only _ _ _ armed ⟨_, rfl⟩ ▸ Option.some_ne_none _
    have idle := inv.waiting waits
    rw [connectingOrOpen_iff.mpr ⟨j, current, .inl connecting⟩] at idle
    cases idle

theorem boot_inv (nippleReady hidden onLine : Bool) :
    Inv (boot nippleReady hidden onLine) ∧ Live (boot nippleReady hidden onLine) := by
  have empty : Inv ⟨hidden, onLine, nippleReady, false, 0, none, none, 0, 0, none, none, 0, 0, 0, .empty,
      fun _ => none, 0⟩ :=
    { retry := Timers.holds_empty _
      guard := Timers.holds_empty _
      retryGen := fun _ _ _ armed => absurd armed.symm (Option.some_ne_none _)
      guardSock := fun _ _ _ armed => absurd armed.symm (Option.some_ne_none _)
      newest := fun _ same => absurd same.symm (Option.some_ne_none _)
      current := fun _ same => absurd same.symm (Option.some_ne_none _)
      wanted := fun some => absurd some (by simp)
      waiting := fun waits => absurd rfl waits
      replaced := fun _ _ at_ => absurd at_.symm (Option.some_ne_none _)
      guarded := fun _ same => absurd same.symm (Option.some_ne_none _)
      loading := fun loading => by cases loading }
  have live : Live ⟨hidden, onLine, nippleReady, false, 0, none, none, 0, 0, none, none, 0, 0, 0, .empty,
      fun _ => none, 0⟩ := fun mower => by cases mower
  rw [boot]
  dsimp only
  split
  · exact ⟨empty.loadNipple, live.loadNipple⟩
  · exact ⟨empty, live⟩

/-- **The joystick socket is never stuck** in a run in which no socket that the page has replaced ends while the
current one is connecting. -/
theorem joystick_never_stuck (nippleReady hidden onLine : Bool) (es : List (LinkEvent × Browser))
    (inTime : Meets step EndsInTime (boot nippleReady hidden onLine) es) :
    Throughout step NeverStuck (boot nippleReady hidden onLine) es := by
  have always := throughout_of_meets (C := EndsInTime) (I := fun _ s => Inv s ∧ Live s)
    (boot_inv nippleReady hidden onLine)
    (fun es s e t both inTime (stepped : s.step e = some t) => step_inv both.1 both.2 inTime stepped) inTime
  intro pre before s reached
  obtain ⟨inv, live⟩ := always pre before s reached
  exact inv.neverStuck live

/-- A second has passed and a socket can be created. -/
private def at_ (second : ℤ) : Browser := ⟨1000 * second, 0, true⟩

/-- The server closes the first socket, and the page replaces it before the close event is delivered. -/
def replacedSocket : List (LinkEvent × Browser) :=
  [(.startJoystick "Luba-A", at_ 1), (.open 0, at_ 2), (.closing 0, at_ 3), (.reconnected, at_ 4), (.closed 0, at_ 5),
    (.close 0 1001, at_ 6)]

/-- The second socket connects without a guard and without a retry. -/
theorem replacedSocket_stuck : ¬ Throughout step NeverStuck (boot true false true) replacedSocket := by
  intro always
  obtain ⟨u, ran, current, connecting, quiet, mower, ready, visible, online⟩ :
      ∃ u, run step (boot true false true) replacedSocket = some u ∧ u.ws = some 1 ∧
        u.readyState 1 = some .CONNECTING ∧ (∀ id, u.timers.armed id = none) ∧
        u.hasMower = true ∧ u.nippleReady = true ∧ u.hidden = false ∧ u.onLine = true := by
    refine ⟨_, rfl, rfl, rfl, fun id => ?_, rfl, rfl, rfl, rfl⟩
    rcases id with _ | _ | id <;> rfl
  cases (always.last ran).progress mower ready visible online with
  | usable same is =>
    cases current.symm.trans same
    cases connecting.symm.trans is
  | guarded _ _ armed => cases (quiet _).symm.trans armed
  | ending same at_ ends =>
    cases current.symm.trans same
    rcases ends with ends | ends <;>
      cases (connecting.symm.trans (readyState_of at_)).trans (congrArg some ends)
  | retry armed => cases (quiet _).symm.trans armed

/-- The close event comes before the page connects again. -/
def endedSocket : List (LinkEvent × Browser) :=
  [(.startJoystick "Luba-A", at_ 1), (.open 0, at_ 2), (.closed 0, at_ 3), (.close 0 1001, at_ 4), (.timer 1, at_ 5)]

theorem joystick_never_stuck_endedSocket : Throughout step NeverStuck (boot true false true) endedSocket := by
  refine joystick_never_stuck true false true endedSocket (.of_getElem fun n e at_ s reached => ?_)
  intro k code sock j is _ _ old current
  have short : n < 5 := (List.getElem?_eq_some_iff.mp at_).1
  interval_cases n <;> cases at_ <;> cases is
  cases reached
  exact absurd rfl old

end JoystickLink

end MammotionRc.Web
