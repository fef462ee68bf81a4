import MammotionRc.Soundness.LinkSteps
import MammotionRc.Soundness.StickSteps

/-! # No frame of the stick reaches the wrong mower

A frame goes out on the current socket only, which belongs to the selected mower, and one with force repeats what
the stick said last. Selecting a mower puts the recorded state at rest, and the stick that comes up then has not
been touched yet, so the gesture behind such a frame began after the last switch.
-/

namespace MammotionRc.Web

open Machine Server

/-- Another mower is selected. -/
def StickEvent.selects : StickEvent → Bool
  | .selectMower _ => true
  | _ => false

/-- The socket is torn down. -/
def StickEvent.tearsDown : StickEvent → Bool
  | .selectMower _ | .noMowers => true
  | _ => false

/-- A gesture began after the last switch and goes on. -/
def Touching (es : List (StickEvent × StickBrowser)) : Prop :=
  ∃ pre browser post, es = pre ++ (.start, browser) :: post ∧ ∀ e ∈ post, e.1.selects = false ∧ e.1 ≠ .end

/-- The frame is what a gesture that began after the last switch recorded. -/
def Recorded (es : List (StickEvent × StickBrowser)) (frame : Frame) : Prop :=
  ∃ pre data browser post, es = pre ++ (.move data, browser) :: post ∧ Touching pre ∧ frame = recordMove data ∧
    ∀ e ∈ post, e.1.selects = false

variable {es : List (StickEvent × StickBrowser)} {e : StickEvent × StickBrowser} {frame : Frame}

theorem Touching.concat (touching : Touching es) (selects : e.1.selects = false) (end_ : e.1 ≠ .end) :
    Touching (es ++ [e]) := by
  obtain ⟨pre, browser, post, rfl, kept⟩ := touching
  refine ⟨pre, browser, post ++ [e], by simp, fun e' member => ?_⟩
  rcases List.mem_append.mp member with before | last
  · exact kept e' before
  · rw [List.mem_singleton] at last
    exact last ▸ ⟨selects, end_⟩

theorem Recorded.concat (recorded : Recorded es frame) (selects : e.1.selects = false) :
    Recorded (es ++ [e]) frame := by
  obtain ⟨pre, data, browser, post, rfl, touching, is, kept⟩ := recorded
  refine ⟨pre, data, browser, post ++ [e], by simp, touching, is, fun e' member => ?_⟩
  rcases List.mem_append.mp member with before | last
  · exact kept e' before
  · rw [List.mem_singleton] at last
    exact last ▸ selects

theorem not_positive_zero : positive ZERO_FRAME = false := by decide

namespace StickPage

/-- The frames that went out on a socket, oldest first. -/
def sentOn (s : StickPage) (k : ℕ) : List Sent := s.sent.filter fun x => x.sock = k

/-- A frame went out on a socket of the mower and the generation that the page had then. -/
def Reaches (s : StickPage) (x : Sent) : Prop :=
  ∃ sock, s.link.sockets x.sock = some sock ∧ x.currentMower = some sock.name ∧ x.wsMower = some sock.name ∧
    x.wsGen = sock.gen

/-- A socket that is not current and never will be. -/
def Retired (s : StickPage) (k : ℕ) : Prop := k < s.link.created ∧ s.link.ws ≠ some k

/-- What ties the stick, the recorded state and the socket to the selected mower. -/
structure Driven (es : List (StickEvent × StickBrowser)) (s : StickPage) : Prop where
  owned : s.link.Owned
  mower : s.link.wsMower = none ∨ s.link.wsMower = s.currentMower
  touched : ∀ stick, s.joystick = some stick → stick.touched = true → Touching es
  recorded : positive s.joyState = true → Recorded es s.joyState

/-- What one event sends. -/
structure Sends (tearsDown : Bool) (s t : StickPage) : Prop where
  later : s.link.Later t.link
  sent : t.sent = s.sent ∨ ∃ x, t.sent = s.sent ++ [x] ∧ s.link.ws = some x.sock ∧
    (tearsDown = false → t.link.ws = some x.sock) ∧
    (x.frame = ZERO_FRAME ∨
      tearsDown = false ∧ x = ⟨x.sock, t.joyState, t.currentMower, t.link.wsMower, t.link.wsGen⟩)

variable {s t u : StickPage} {browser : StickBrowser} {k : ℕ} {tearsDown : Bool}

/-! ## The parts of the handlers -/

theorem openSocket_some {s : StickPage} (open_ : s.openSocket = some k) : s.link.ws = some k :=
  (Option.filter_eq_some_iff.mp open_).1

/-- A frame goes out on the current socket, or the page looks after that socket instead. -/
theorem sendJoystick_spec (s : StickPage) (browser : StickBrowser) (payload : Frame) :
    (s.sendJoystick browser payload).link = s.link ∧ (∃ k, s.link.ws = some k ∧
      (s.sendJoystick browser payload).sent =
        s.sent ++ [⟨k, payload, s.currentMower, s.link.wsMower, s.link.wsGen⟩]) ∨
    (s.sendJoystick browser payload).sent = s.sent ∧ s.link.Kept (s.sendJoystick browser payload).link ∧
      (positive payload = false → (s.sendJoystick browser payload).link = s.link) := by
  simp only [sendJoystick]
  split
  · next k open_ _ => exact Or.inl ⟨rfl, k, openSocket_some open_, rfl⟩
  · refine Or.inr ?_
    split
    · next force => exact ⟨rfl, s.link.kept_nudgeJoystickWs browser.toBrowser, fun zero => by simp [force] at zero⟩
    · exact ⟨rfl, .refl s.link, fun _ => rfl⟩

theorem link_sendZero (s : StickPage) (browser : StickBrowser) :
    (s.sendJoystick browser ZERO_FRAME).link = s.link := by
  rcases s.sendJoystick_spec browser ZERO_FRAME with ⟨link, _⟩ | ⟨_, _, link⟩
  · exact link
  · exact link not_positive_zero

/-- A zero frame on the current socket. -/
theorem sends_sendZero (s : StickPage) (browser : StickBrowser) :
    Sends false s (s.sendJoystick browser ZERO_FRAME) := by
  refine ⟨?_, ?_⟩
  · rw [link_sendZero]
    exact (JoystickLink.Kept.refl s.link).toLater
  · rcases s.sendJoystick_spec browser ZERO_FRAME with ⟨link, k, current, sent⟩ | ⟨sent, _⟩
    · exact Or.inr ⟨_, sent, current, fun _ => link ▸ current, Or.inl rfl⟩
    · exact Or.inl sent

/-- The recorded frame on the current socket. -/
theorem sends_sendJoystick (s : StickPage) (browser : StickBrowser) :
    Sends false s (s.sendJoystick browser s.joyState) := by
  have same := (s.sendJoystick_same browser s.joyState).1
  rcases s.sendJoystick_spec browser s.joyState with ⟨link, k, current, sent⟩ | ⟨sent, kept, _⟩
  · rw [← link] at current
    refine ⟨link ▸ (JoystickLink.Kept.refl s.link).toLater, Or.inr ⟨_, sent, link ▸ current, fun _ => current, ?_⟩⟩
    rw [link, same.joyState, same.currentMower]
    exact Or.inr ⟨rfl, rfl⟩
  · exact ⟨kept.toLater, Or.inl sent⟩

/-- An event that leaves the frames alone. -/
theorem Sends.of_later (later : s.link.Later t.link) (sent : t.sent = s.sent) : Sends tearsDown s t :=
  ⟨later, Or.inl sent⟩

/-- The socket sees what is sent, not what the page does around it. -/
theorem Sends.of_same {r : StickPage} (sends : Sends tearsDown s t) (created : s.link.created = r.link.created)
    (ws : s.link.ws = r.link.ws) (sent : s.sent = r.sent) : Sends tearsDown r t := by
  obtain ⟨⟨more, later⟩, sends⟩ := sends
  rw [created] at more later
  rw [ws] at later sends
  rw [sent] at sends
  exact ⟨⟨more, later⟩, sends⟩

/-- The stick is put at rest, or left as it is. -/
structure Calms (s t : StickPage) : Prop where
  link : t.link = s.link
  currentMower : t.currentMower = s.currentMower
  joystick : t.joystick = s.joystick
  joyState : t.joyState = s.joyState ∨ t.joyState = ZERO_FRAME
  sends : Sends false s t

theorem calms_ended (s : StickPage) (browser : StickBrowser) : Calms s (s.ended browser) := by
  have same := (s.stopHeartbeat.sendJoystick_same browser ZERO_FRAME).1
  have sends := s.stopHeartbeat.sends_sendZero browser
  exact ⟨s.stopHeartbeat.link_sendZero browser, same.currentMower, same.joystick, Or.inr same.joyState,
    sends.of_same rfl rfl rfl⟩

theorem calms_joystickFailsafeStop (s : StickPage) (browser : StickBrowser) :
    Calms s (s.joystickFailsafeStop browser) := by
  rw [joystickFailsafeStop]
  split
  · exact ⟨rfl, rfl, rfl, Or.inl rfl, .of_later (JoystickLink.Kept.refl s.link).toLater rfl⟩
  · let calm : StickPage := { s.stopHeartbeat with latched := s.latched || s.joystick.any Stick.touched }
    have same := (calm.sendJoystick_same browser ZERO_FRAME).1
    have sends := calm.sends_sendZero browser
    exact ⟨calm.link_sendZero browser, same.currentMower, same.joystick, Or.inr same.joyState,
      sends.of_same rfl rfl rfl⟩

/-! ## The steps -/

theorem Driven.of_kept (driven : Driven es s) (kept : s.link.Kept t.link)
    (currentMower : t.currentMower = s.currentMower) (selects : e.1.selects = false)
    (touched : ∀ stick, t.joystick = some stick → stick.touched = true →
      s.joystick = some stick ∧ e.1 ≠ .end ∨ Touching (es ++ [e]))
    (recorded : t.joyState = s.joyState ∨ t.joyState = ZERO_FRAME ∨ Recorded (es ++ [e]) t.joyState) :
    Driven (es ++ [e]) t := by
  refine ⟨kept.owned driven.owned, ?_, fun stick is finger => ?_, fun force => ?_⟩
  · rw [kept.wsMower, currentMower]
    exact driven.mower
  · rcases touched stick is finger with ⟨before, end_⟩ | touching
    · exact (driven.touched stick before finger).concat selects end_
    · exact touching
  · rcases recorded with same | zero | recorded
    · rw [same] at force ⊢
      exact (driven.recorded force).concat selects
    · rw [zero, not_positive_zero] at force
      cases force
    · exact recorded

/-- An event that puts the stick at rest on its way. -/
theorem Driven.of_calms (driven : Driven es s) (calms : Calms s t) (kept : t.link.Kept u.link)
    (same : SameStick t u) (selects : e.1.selects = false) (end_ : e.1 ≠ .end) : Driven (es ++ [e]) u := by
  refine driven.of_kept ?_ (same.currentMower.trans calms.currentMower) selects (fun stick is _ => Or.inl ⟨?_, end_⟩) ?_
  · rw [← calms.link]
    exact kept
  · rw [← is, same.joystick, calms.joystick]
  · rcases calms.joyState with before | zero
    · exact Or.inl (same.joyState.trans before)
    · exact Or.inr (Or.inl (same.joyState.trans zero))

theorem Driven.of_link {link : JoystickLink} (driven : Driven es s) (kept : s.link.Kept link) :
    Driven es { s with link := link } :=
  ⟨kept.owned driven.owned, by rw [kept.wsMower]; exact driven.mower, driven.touched, driven.recorded⟩

theorem link_teardownJoystickWs (s : StickPage) (browser : StickBrowser) :
    (s.teardownJoystickWs browser).link = s.link.teardownJoystickWs := by
  rw [teardownJoystickWs]
  split <;> rfl

/-- The old mower hears that it is to stop, on its own socket. -/
theorem sends_teardownJoystickWs (s : StickPage) (browser : StickBrowser) :
    Sends true s (s.teardownJoystickWs browser) := by
  refine ⟨?_, ?_⟩
  · rw [link_teardownJoystickWs]
    exact s.link.later_teardownJoystickWs
  · rw [teardownJoystickWs]
    split
    · next k open_ _ => exact Or.inr ⟨_, rfl, openSocket_some open_, by simp, Or.inl rfl⟩
    · exact Or.inl rfl

/-- What a switch leaves behind before the new stick comes up. -/
theorem selectMower_eq (s : StickPage) (browser : StickBrowser) (name : String) :
    ∃ r : StickPage, s.selectMower browser name = r.mountStick browser ∧ Sends true s r ∧
      r.link = s.link.startJoystick browser.toBrowser name ∧ r.currentMower = some name ∧ r.joystick = none ∧
      r.joyState = ZERO_FRAME := by
  let calm : StickPage := { s with currentMower := some name }.stopHeartbeat
  have same := (calm.teardownJoystickWs_same browser).1
  have sends := calm.sends_teardownJoystickWs browser
  obtain ⟨later, _⟩ := s.link.startJoystick_spec browser.toBrowser name
  refine ⟨_, rfl, ⟨later, ?_⟩, rfl, same.currentMower, rfl, same.joyState⟩
  rcases sends.sent with quiet | ⟨x, sent, current, _, zero⟩
  · exact Or.inl quiet
  · exact Or.inr ⟨x, sent, current, by simp, Or.inl (zero.resolve_right (by simp))⟩

/-- The new stick was not touched, and the old one is gone with its socket. -/
theorem driven_selectMower (s : StickPage) (browser : StickBrowser) (name : String) :
    Driven es (s.selectMower browser name) := by
  obtain ⟨r, is, _, link, mower, none_, zero⟩ := s.selectMower_eq browser name
  obtain ⟨_, owned, wsMower⟩ := s.link.startJoystick_spec browser.toBrowser name
  have mounts := r.mounts_mountStick browser
  rw [is]
  refine ⟨?_, Or.inr ?_, fun stick mounted finger => ?_, fun force => ?_⟩
  · rw [mounts.link, link]
    exact owned
  · rw [mounts.link, link, mounts.currentMower, mower, wsMower]
  · rcases mounts.joystick with before | new
    · rw [before, none_] at mounted
      cases mounted
    · cases new.symm.trans mounted
      cases finger
  · rw [mounts.joyState, zero, not_positive_zero] at force
    cases force

theorem sends_selectMower (s : StickPage) (browser : StickBrowser) (name : String) :
    Sends true s (s.selectMower browser name) := by
  obtain ⟨r, is, sends, _⟩ := s.selectMower_eq browser name
  have mounts := r.mounts_mountStick browser
  rw [is]
  refine ⟨mounts.link ▸ sends.later, ?_⟩
  rcases sends.sent with quiet | ⟨x, sent, current, _, zero⟩
  · exact Or.inl (mounts.sent.trans quiet)
  · exact Or.inr ⟨x, mounts.sent.trans sent, current, by simp, Or.inl (zero.resolve_right (by simp))⟩

/-- A finger that comes down on the stick, and one that moves it. -/
theorem driven_start (driven : Driven es s) (stick : Stick) :
    Driven (es ++ [(StickEvent.start, browser)])
      { s with joystick := some { stick with touched := true }, latched := false } :=
  driven.of_kept (.refl s.link) rfl rfl
    (fun _ _ _ => Or.inr ⟨es, browser, [], rfl, by simp⟩) (Or.inl rfl)

theorem moved_spec (s : StickPage) (browser : StickBrowser) (data : Frame) :
    Sends false s (s.moved browser data) ∧ s.link.Kept (s.moved browser data).link ∧
      SameStick { s with joyState := recordMove data } (s.moved browser data) := by
  rw [moved]
  dsimp only
  split
  · exact ⟨.of_later (JoystickLink.Kept.refl s.link).toLater rfl, .refl s.link, rfl, rfl, rfl, rfl⟩
  · let held : StickPage := { s with joyState := recordMove data }
    have sends := held.sends_sendJoystick browser
    have same := (held.sendJoystick_same browser held.joyState).1
    have kept : s.link.Kept (held.sendJoystick browser held.joyState).link := by
      rcases held.sendJoystick_spec browser held.joyState with ⟨link, _⟩ | ⟨_, kept, _⟩
      · rw [link]
        exact .refl s.link
      · exact kept
    exact ⟨⟨sends.later, sends.sent⟩, kept, same.currentMower, same.joystick, same.joyState, same.latched⟩

theorem driven_moved (driven : Driven es s) {stick : Stick} (mounted : s.joystick = some stick)
    (finger : stick.touched = true) (data : Frame) :
    Driven (es ++ [(StickEvent.move data, browser)]) (s.moved browser data) := by
  obtain ⟨_, kept, same⟩ := s.moved_spec browser data
  refine driven.of_kept kept same.currentMower rfl (fun other is _ => Or.inl ⟨?_, by simp⟩) (Or.inr (Or.inr ?_))
  · rw [← is, same.joystick]
  · exact ⟨es, data, browser, [], rfl, driven.touched stick mounted finger, same.joyState, by simp⟩

theorem ws_onopen (link : JoystickLink) (sock : WebSocket) : (link.onopen k sock).ws = link.ws := by
  rw [JoystickLink.onopen]
  split
  · rw [JoystickLink.closeSocket]
    split <;> rfl
  · rfl

/-- A socket that opens stays current or not as it was. -/
theorem ws_open {link : JoystickLink} (stepped : s.link.step (.open k, browser.toBrowser) = some link) :
    link.ws = s.link.ws := by
  simp only [JoystickLink.step] at stepped
  split at stepped <;> try contradiction
  split_ifs at stepped
  · cases stepped
    exact ws_onopen ..
  · cases stepped
    rfl

theorem assertStopped_spec (s : StickPage) (browser : StickBrowser) (k : ℕ) (sock : WebSocket) :
    (s.assertStopped browser k sock).link = s.link ∧
      ((s.assertStopped browser k sock).sent = s.sent ∨ s.link.ws = some k ∧
        (s.assertStopped browser k sock).sent =
          s.sent ++ [⟨k, ZERO_FRAME, s.currentMower, s.link.wsMower, s.link.wsGen⟩]) := by
  rw [assertStopped]
  split
  · next held =>
    simp only [Bool.and_eq_true, decide_eq_true_eq] at held
    exact ⟨rfl, Or.inr ⟨held.1.1.2, rfl⟩⟩
  · exact ⟨rfl, Or.inl rfl⟩

theorem kept_plain {link : JoystickLink} {event : LinkEvent} (plain : event.plain = true)
    (stepped : s.link.step (event, browser.toBrowser) = some link) : s.link.Kept link := by
  refine JoystickLink.kept_step stepped (fun name is => ?_) fun is => ?_
  · simp only at is
    rw [is] at plain
    cases plain
  · simp only at is
    rw [is] at plain
    cases plain

/-- The page is put at rest before it goes away. -/
theorem hide_spec (s : StickPage) (browser : StickBrowser) :
    ∃ r : StickPage, Calms { s with link := { s.link with hidden := true } } r ∧
      s.step (.visibilitychange true, browser) =
        some { r with link := r.link.changeVisibility browser.toBrowser true } :=
  ⟨_, calms_joystickFailsafeStop _ browser, rfl⟩

theorem driven_step (driven : Driven es s) (stepped : s.step e = some t) : Driven (es ++ [e]) t := by
  obtain ⟨event, browser⟩ := e
  cases event with
  | link event =>
    obtain ⟨plain, link, linked, rfl⟩ := step_link.mp stepped
    exact driven.of_kept (kept_plain plain linked) rfl rfl (fun _ is _ => Or.inl ⟨is, by simp⟩) (Or.inl rfl)
  | selectMower name =>
    cases stepped
    exact driven_selectMower s browser name
  | noMowers =>
    cases stepped
    have same := (s.teardownJoystickWs_same browser).1
    obtain ⟨_, _, none_⟩ := s.link.teardownJoystickWs_fields
    refine ⟨?_, Or.inl ?_, fun stick is finger => ?_, fun force => ?_⟩
    · rw [link_teardownJoystickWs]
      exact s.link.owned_teardownJoystickWs
    · rw [link_teardownJoystickWs, none_]
    · rw [same.joystick] at is
      exact (driven.touched stick is finger).concat rfl (by simp)
    · rw [same.joyState] at force ⊢
      exact (driven.recorded force).concat rfl
  | visibilitychange hidden =>
    cases hidden with
    | false =>
      cases stepped
      exact driven.of_kept (s.link.kept_changeVisibility browser.toBrowser false) rfl rfl
        (fun _ is _ => Or.inl ⟨is, by simp⟩) (Or.inl rfl)
    | true =>
      obtain ⟨r, calms, is⟩ := s.hide_spec browser
      cases is.symm.trans stepped
      have hidden : Driven es { s with link := { s.link with hidden := true } } :=
        driven.of_link (.of_same rfl rfl rfl rfl rfl)
      exact hidden.of_calms calms (r.link.kept_changeVisibility browser.toBrowser true)
        ⟨rfl, rfl, rfl, rfl⟩ rfl (by simp)
  | pagehide | blur | stop =>
    cases stepped
    exact driven.of_calms (s.calms_joystickFailsafeStop browser) (.refl _) (.refl _) rfl (by simp)
  | scriptLoad defined =>
    obtain ⟨_, rfl⟩ := step_scriptLoad.mp stepped
    have mounts := s.mounts_scriptLoaded browser defined
    refine driven.of_kept ?_ mounts.currentMower rfl (fun stick is finger => ?_) (Or.inl mounts.joyState)
    · rw [mounts.link]
      exact s.link.kept_scriptLoaded browser.toBrowser defined
    · rcases mounts.joystick with before | new
      · exact Or.inl ⟨before.symm.trans is, by simp⟩
      · cases new.symm.trans is
        cases finger
  | «open» k =>
    obtain ⟨sock, link, _, opened, rfl⟩ := step_open.mp stepped
    have same := (({ s with link := link } : StickPage).assertStopped_same browser k sock).1
    have is := (({ s with link := link } : StickPage).assertStopped_spec browser k sock).1
    refine driven.of_kept ?_ same.currentMower rfl (fun stick mounted _ => Or.inl ⟨?_, by simp⟩) (Or.inl same.joyState)
    · rw [is]
      exact JoystickLink.kept_step opened (by simp) (by simp)
    · rw [← mounted, same.joystick]
  | start =>
    obtain ⟨stick, _, _, rfl⟩ := step_start.mp stepped
    exact driven_start driven stick
  | move data =>
    obtain ⟨stick, mounted, finger, rfl⟩ := step_move.mp stepped
    exact driven_moved driven mounted finger data
  | «end» =>
    obtain ⟨stick, _, _, rfl⟩ := step_end.mp stepped
    have calms := calms_ended { s with joystick := some { stick with touched := false } } browser
    refine driven.of_kept ?_ calms.currentMower rfl (fun other is finger => ?_) ?_
    · rw [calms.link]
      exact .refl s.link
    · cases calms.joystick.symm.trans is
      cases finger
    · rcases calms.joyState with before | zero
      · exact Or.inl before
      · exact Or.inr (Or.inl zero)
  | lateEnd =>
    obtain ⟨_, rfl⟩ := step_lateEnd.mp stepped
    exact driven.of_calms (s.calms_ended browser) (.refl _) (.refl _) rfl (by simp)
  | interval id =>
    obtain ⟨_, rfl⟩ := step_interval.mp stepped
    have same := (s.sendJoystick_same browser s.joyState).1
    refine driven.of_kept ?_ same.currentMower rfl (fun stick is _ => Or.inl ⟨?_, by simp⟩) (Or.inl same.joyState)
    · rcases s.sendJoystick_spec browser s.joyState with ⟨link, _⟩ | ⟨_, kept, _⟩
      · rw [link]
        exact .refl s.link
      · exact kept
    · rw [← is, same.joystick]

theorem sends_step (stepped : s.step e = some t) : Sends e.1.tearsDown s t := by
  obtain ⟨event, browser⟩ := e
  cases event with
  | link event =>
    obtain ⟨plain, link, linked, rfl⟩ := step_link.mp stepped
    exact .of_later (kept_plain plain linked).toLater rfl
  | selectMower name =>
    cases stepped
    exact s.sends_selectMower browser name
  | noMowers =>
    cases stepped
    exact s.sends_teardownJoystickWs browser
  | visibilitychange hidden =>
    cases hidden with
    | false =>
      cases stepped
      exact .of_later (s.link.kept_changeVisibility browser.toBrowser false).toLater rfl
    | true =>
      obtain ⟨r, calms, is⟩ := s.hide_spec browser
      cases is.symm.trans stepped
      have sends := calms.sends
      exact ⟨⟨sends.later.created, sends.later.ws⟩, sends.sent⟩
  | pagehide | blur | stop =>
    cases stepped
    exact (s.calms_joystickFailsafeStop browser).sends
  | scriptLoad defined =>
    obtain ⟨_, rfl⟩ := step_scriptLoad.mp stepped
    have mounts := s.mounts_scriptLoaded browser defined
    refine .of_later ?_ mounts.sent
    rw [mounts.link]
    exact (s.link.kept_scriptLoaded browser.toBrowser defined).toLater
  | «open» k =>
    obtain ⟨sock, link, _, opened, rfl⟩ := step_open.mp stepped
    obtain ⟨is, sent⟩ := ({ s with link := link } : StickPage).assertStopped_spec browser k sock
    refine ⟨is ▸ (JoystickLink.kept_step opened (by simp) (by simp)).toLater, ?_⟩
    rcases sent with quiet | ⟨current, sent⟩
    · exact Or.inl quiet
    · exact Or.inr ⟨_, sent, (ws_open opened).symm.trans current, fun _ => is ▸ current, Or.inl rfl⟩
  | start =>
    obtain ⟨_, _, _, rfl⟩ := step_start.mp stepped
    exact .of_later (JoystickLink.Kept.refl s.link).toLater rfl
  | move data =>
    obtain ⟨_, _, _, rfl⟩ := step_move.mp stepped
    exact (s.moved_spec browser data).1
  | «end» =>
    obtain ⟨_, _, _, rfl⟩ := step_end.mp stepped
    exact (calms_ended _ browser).sends.of_same rfl rfl rfl
  | lateEnd =>
    obtain ⟨_, rfl⟩ := step_lateEnd.mp stepped
    exact (s.calms_ended browser).sends
  | interval id =>
    obtain ⟨_, rfl⟩ := step_interval.mp stepped
    exact s.sends_sendJoystick browser

/-! ## The runs -/

theorem sentOn_append {more : List Sent} (sent : t.sent = s.sent ++ more) (k : ℕ) :
    t.sentOn k = s.sentOn k ++ more.filter fun x => x.sock = k := by
  rw [sentOn, sent, List.filter_append]
  rfl

theorem sentOn_of_ne {x : Sent} (sent : t.sent = s.sent ++ [x]) (ne : x.sock ≠ k) : t.sentOn k = s.sentOn k := by
  rw [sentOn_append sent, List.filter_singleton, decide_eq_false ne]
  exact List.append_nil _

/-- A retired socket stays so, and nothing more goes out on it. -/
theorem retired_step (retired : s.Retired k) (stepped : s.step e = some t) :
    t.Retired k ∧ t.sentOn k = s.sentOn k := by
  obtain ⟨bound, old⟩ := retired
  obtain ⟨later, sent⟩ := sends_step stepped
  refine ⟨⟨bound.trans_le later.created, fun current => ?_⟩, ?_⟩
  · rcases later.ws k current with before | fresh
    · exact old before
    · exact absurd bound (by omega)
  · rcases sent with quiet | ⟨x, sent, current, _⟩
    · rw [sentOn, quiet, sentOn]
    · refine sentOn_of_ne sent fun same => old ?_
      rw [← same]
      exact current

theorem retired_run (retired : s.Retired k) (ran : run step s es = some t) : t.Retired k ∧ t.sentOn k = s.sentOn k := by
  refine run_invariant (I := fun _ u => u.Retired k ∧ u.sentOn k = s.sentOn k) ⟨retired, rfl⟩ ?_ ran
  intro es t e u held stepped
  obtain ⟨still, quiet⟩ := retired_step held.1 stepped
  exact ⟨still, quiet.trans held.2⟩

theorem driven_boot (nippleReady hidden onLine : Bool) : Driven [] (boot nippleReady hidden onLine) := by
  refine ⟨.of_none ?_, Or.inl ?_, by simp [boot], fun force => ?_⟩
  · simp only [boot, JoystickLink.boot, JoystickLink.loadNipple]
    split_ifs <;> rfl
  · simp only [boot, JoystickLink.boot, JoystickLink.loadNipple]
    split_ifs <;> rfl
  · cases force

theorem driven_run {nippleReady hidden onLine : Bool} (ran : run step (boot nippleReady hidden onLine) es = some s) :
    Driven es s :=
  run_invariant (driven_boot nippleReady hidden onLine) (fun _ _ _ _ driven stepped => driven_step driven stepped) ran

/-- The current socket is that of the mower. -/
theorem reaches_of_driven (driven : Driven es t) (current : t.link.ws = some k) (frame : Frame) :
    t.Reaches ⟨k, frame, t.currentMower, t.link.wsMower, t.link.wsGen⟩ := by
  obtain ⟨sock, at_, gen, mower⟩ := driven.owned.current k current
  refine ⟨sock, at_, ?_, mower, gen.symm⟩
  rcases driven.mower with none_ | same
  · cases none_.symm.trans mower
  · exact same.symm.trans mower

/-- Along every run, a frame with force goes out on a socket of the selected mower and generation and was recorded
by a gesture that began after the last switch. A socket that stops being the current one never is again, and
nothing more goes out on it but one zero frame if it is torn down. -/
theorem frames_reach_their_mower {nippleReady hidden onLine : Bool} {more : List (StickEvent × StickBrowser)}
    (ran : run step (boot nippleReady hidden onLine) es = some s) (stepped : s.step e = some t)
    (rest : run step t more = some u) :
    (∃ more, t.sent = s.sent ++ more ∧
      ∀ x ∈ more, positive x.frame = true → t.Reaches x ∧ Recorded (es ++ [e]) x.frame) ∧
    ∀ k, s.link.ws = some k → t.link.ws ≠ some k → u.link.ws ≠ some k ∧
      ∃ last, u.sentOn k = s.sentOn k ++ last ∧ last.length ≤ (if e.1.tearsDown then 1 else 0) ∧
        ∀ x ∈ last, x.frame = ZERO_FRAME := by
  have before := driven_run ran
  have after := driven_step before stepped
  obtain ⟨later, sent⟩ := sends_step stepped
  refine ⟨?_, fun k current gone => ?_⟩
  · rcases sent with quiet | ⟨x, sent, _, current, frame⟩
    · exact ⟨[], by rw [quiet, List.append_nil], by simp⟩
    · refine ⟨[x], sent, fun y member force => ?_⟩
      cases List.mem_singleton.mp member
      rcases frame with zero | ⟨kept, is⟩
      · rw [zero, not_positive_zero] at force
        cases force
      · rw [is] at force ⊢
        exact ⟨reaches_of_driven after (current kept) _, after.recorded force⟩
  · have retired : t.Retired k := ⟨(before.owned.bound k current).trans_le later.created, gone⟩
    obtain ⟨still, quiet'⟩ := retired_run retired rest
    refine ⟨still.2, ?_⟩
    rcases sent with quiet | ⟨x, sent, on, current', frame⟩
    · exact ⟨[], by rw [quiet', sentOn, quiet, List.append_nil, sentOn], by simp, by simp⟩
    · cases on.symm.trans current
      cases torn : e.1.tearsDown with
      | false => exact absurd (current' torn) gone
      | true =>
        refine ⟨[x], ?_, by simp, fun y member => ?_⟩
        · rw [quiet', sentOn_append sent, List.filter_singleton, decide_eq_true rfl]
          rfl
        · cases List.mem_singleton.mp member
          exact frame.resolve_right (by simp [torn])

def smooth : StickBrowser := ⟨⟨1000, 0, true⟩, true, true⟩
def forward : Frame := ⟨.fin 0, .fin 1, .fin 2⟩

/-- A drive up to a switch of mowers, and the drive after it. -/
def drive : List (StickEvent × StickBrowser) :=
  [.selectMower "Luba", .open 0, .start, .move forward].map (·, smooth)
def nextDrive : List (StickEvent × StickBrowser) :=
  [(.open 1, ⟨⟨2000, 0, true⟩, true, true⟩), (.start, smooth), (.move forward, smooth)]

theorem switch_retires : ∃ s t u, run step (boot true false true) drive = some s ∧
    s.step (.selectMower "Yuka", ⟨⟨2000, 0, true⟩, true, true⟩) = some t ∧ run step t nextDrive = some u ∧
    u.sent.map (fun x => (x.sock, x.frame)) =
      [(0, ZERO_FRAME), (0, recordMove forward), (0, ZERO_FRAME), (1, ZERO_FRAME), (1, recordMove forward)] ∧
    u.link.ws ≠ some 0 ∧ (u.sentOn 0).length ≤ (s.sentOn 0).length + 1 := by
  have sent : ((run step (boot true false true) drive).bind fun s =>
      (s.step (.selectMower "Yuka", ⟨⟨2000, 0, true⟩, true, true⟩)).bind fun t =>
      (run step t nextDrive).map fun u => (s.link.ws, t.link.ws, u.sent.map fun x => (x.sock, x.frame))) =
      some (some 0, some 1, [(0, ZERO_FRAME), (0, recordMove forward), (0, ZERO_FRAME), (1, ZERO_FRAME),
        (1, recordMove forward)]) := by decide
  obtain ⟨s, ran, sent⟩ := Option.bind_eq_some_iff.mp sent
  obtain ⟨t, stepped, sent⟩ := Option.bind_eq_some_iff.mp sent
  obtain ⟨u, rest, sent⟩ := Option.map_eq_some_iff.mp sent
  simp only [Prod.mk.injEq] at sent
  obtain ⟨before, after, sent⟩ := sent
  obtain ⟨retired, last, more, brief, _⟩ :=
    (frames_reach_their_mower ran stepped rest).2 0 before (by rw [after]; decide)
  refine ⟨s, t, u, ran, stepped, rest, sent, retired, ?_⟩
  rw [more, List.length_append]
  exact Nat.add_le_add_left brief _

end StickPage

end MammotionRc.Web
