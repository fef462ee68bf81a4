import MammotionRc.Soundness.StickRelease
import MammotionRc.Web.Session

/-! # When STOP has the last word

STOP sends a zero frame, a `stop` and a `blades-off`. Frames of one socket are in order and every handler ends
with a stop of its own, so the motion part holds unless the stick goes on moving. The two POSTs are less certain:
a `blades-on` in flight may be processed after them, and `pending` knows actions but neither mowers nor what the
server has processed, so it may suppress either of them because of a POST whose fate the page does not know yet.
-/

namespace MammotionRc.Web

open Machine Server

theorem sendBlades_isOn (isLuba1 : Bool) (height : Option ℤ) (on : Bool) :
    (sendBlades isLuba1 height on).isOn = on := by
  cases isLuba1 <;> cases on <;> rfl

theorem zeroFrame_command : ZERO_FRAME.command = .stop := by decide +kernel

/-! ## One socket and its handler -/

/-- The handler will send a stop: it took a stick position last. -/
structure Drives (ws : JoystickWs) (log : List JoystickEvent) : Prop where
  alive : ws.handler = .receiving ∨ ws.handler = .joining
  stopped : ws.stopped = false
  took : ∃ x y, (taken log).getLast? = some (.axes x y)

section Handler

variable {ws next : JoystickWs} {log : List JoystickEvent} {e : JoystickEvent}

theorem handed_take {cmd : Option StickCommand} {speeds : Speeds} (waiting : ws.sender = .waiting) :
    handed ws (.take cmd speeds) = match cmd, speeds with
      | some .stop, _ => if ws.stopped then none else some .stopAndNotSaveTask
      | some (.axes _ _), .vector linear angular => some (.sendMovement linear angular)
      | _, _ => none := by
  simp only [handed, JoystickWs.dispatch]
  cases cmd with
  | none => rw [waiting]
  | some cmd =>
    cases cmd with
    | stop =>
      split_ifs with stopped
      · rw [waiting]
      · rfl
    | axes x y => cases speeds <;> simp only [waiting]

theorem taken_getLast (log : List JoystickEvent) (cmd : StickCommand) (speeds : Speeds) :
    (taken (log ++ [JoystickEvent.take (some cmd) speeds])).getLast? = some cmd := by
  rw [taken_concat]
  exact List.getLast?_concat

/-- A step that takes nothing keeps what was taken last. -/
theorem Drives.of_quiet (drives : Drives ws log) (quiet : taken [e] = [])
    (alive : next.handler = .receiving ∨ next.handler = .joining) (stopped : next.stopped = ws.stopped) :
    Drives next (log ++ [e]) := by
  refine ⟨alive, stopped.trans drives.stopped, ?_⟩
  rw [taken_concat, quiet, List.append_nil]
  exact drives.took

/-- A handler that hands over a movement drives from then on. -/
theorem Drives.of_handed {linear angular : ℤ} (inv : SenderInvariant log ws) (stepped : ws.step e = some next)
    (moves : handed ws e = some (.sendMovement linear angular)) : Drives next (log ++ [e]) := by
  cases e with
  | take cmd speeds =>
    obtain ⟨waiting, _, _, rfl⟩ := JoystickWs.step_take.mp stepped
    rw [handed_take waiting] at moves
    cases cmd with
    | none => cases moves
    | some cmd =>
      cases cmd with
      | stop => split_ifs at moves; cases moves
      | axes x y =>
        cases speeds with
        | vector l a => exact ⟨inv.alive (by rw [waiting]; exact SenderPc.noConfusion), rfl, x, y, taken_getLast ..⟩
        | raised | declined => cases moves
  | joined => cases moves
  | _ => cases moves

/-- A handler that drives goes on doing so until it hands over its stop. -/
theorem Drives.step (drives : Drives ws log) (inv : SenderInvariant log ws) (stepped : ws.step e = some next)
    (silent : handed ws e = none) : Drives next (log ++ [e]) := by
  obtain ⟨x, y, last⟩ := drives.took
  have notStop : (taken log).getLast? ≠ some .stop := by rw [last]; exact nofun
  have phase := inv.phase
  cases e with
  | frame frame =>
    obtain ⟨_, rfl⟩ := JoystickWs.step_frame.mp stepped
    exact drives.of_quiet rfl drives.alive rfl
  | leave =>
    obtain ⟨_, rfl⟩ := JoystickWs.step_leave.mp stepped
    exact drives.of_quiet rfl (.inr rfl) rfl
  | start =>
    obtain ⟨created, rfl⟩ := JoystickWs.step_start.mp stepped
    simp only [SenderPhase, created] at phase
    rw [phase.1] at last
    cases last
  | take cmd speeds =>
    obtain ⟨waiting, _, _, rfl⟩ := JoystickWs.step_take.mp stepped
    rw [handed_take waiting, drives.stopped] at silent
    cases cmd with
    | none => exact drives.of_quiet rfl drives.alive rfl
    | some cmd =>
      cases cmd with
      | stop => cases silent
      | axes x' y' =>
        have took := taken_getLast log (.axes x' y') speeds
        cases speeds with
        | vector l a => cases silent
        | raised | declined => exact ⟨drives.alive, drives.stopped, x', y', took⟩
  | sent command =>
    obtain ⟨cmd, sending, rfl⟩ := JoystickWs.step_sent.mp stepped
    cases cmd with
    | stop =>
      simp only [SenderPhase, sending] at phase
      exact absurd phase.1 notStop
    | axes x' y' => exact drives.of_quiet rfl drives.alive rfl
  | sendFailed command =>
    obtain ⟨cmd, _, rfl⟩ := JoystickWs.step_sendFailed.mp stepped
    exact drives.of_quiet rfl drives.alive rfl
  | backoffOver =>
    obtain ⟨cmd, _, rfl⟩ := JoystickWs.step_backoffOver.mp stepped
    exact drives.of_quiet rfl drives.alive rfl
  | cancelled =>
    obtain ⟨_, rfl⟩ := JoystickWs.step_cancelled.mp stepped
    exact drives.of_quiet rfl drives.alive rfl
  | joined => cases silent
  | finalStop ok =>
    obtain ⟨stopping, rfl⟩ := JoystickWs.step_finalStop.mp stepped
    rcases drives.alive with at_ | at_ <;> rw [stopping] at at_ <;> cases at_

/-- Once the mailbox is empty, a handler whose last frame was a release does not drive. -/
theorem Drives.last_frame (drives : Drives ws log) (tracks : ws.mailbox.Tracks (decoded log) (taken log))
    (empty : ws.mailbox.pending = none) : ∃ frame, (received log).getLast? = some frame ∧ frame.command ≠ .stop := by
  obtain ⟨x, y, last⟩ := drives.took
  rw [tracks.caughtUp empty, decoded, List.getLast?_map] at last
  obtain ⟨frame, latest, command⟩ := Option.map_eq_some_iff.mp last
  exact ⟨frame, latest, by rw [command]; exact StickCommand.noConfusion⟩

end Handler

/-! ## What the server sent last -/

def motionOf (name : String) : String × MowerCommand → Option Command
  | (other, .motion command) => if other = name then some command else none
  | _ => none

def bladesOf (name : String) : String × MowerCommand → Option Bool
  | (other, .blades command) => if other = name then some command.isOn else none
  | _ => none

/-- The last joystick motion or stop that was sent to the mower. -/
def lastMotion (name : String) (sent : List (String × MowerCommand)) : Option Command :=
  (sent.filterMap (motionOf name)).getLast?

/-- Whether the last blade command that was sent to the mower spins the blades. -/
def lastBlades (name : String) (sent : List (String × MowerCommand)) : Option Bool :=
  (sent.filterMap (bladesOf name)).getLast?

theorem lastMotion_concat (name : String) (sent : List (String × MowerCommand)) (x : String × MowerCommand) :
    lastMotion name (sent ++ [x]) = (motionOf name x).or (lastMotion name sent) := by
  rw [lastMotion, List.filterMap_append, List.getLast?_append]
  cases here : motionOf name x <;> simp [here, lastMotion]

theorem lastBlades_concat (name : String) (sent : List (String × MowerCommand)) (x : String × MowerCommand) :
    lastBlades name (sent ++ [x]) = (bladesOf name x).or (lastBlades name sent) := by
  rw [lastBlades, List.filterMap_append, List.getLast?_append]
  cases here : bladesOf name x <;> simp [here, lastBlades]

namespace PageSocket

/-- The frames that the page sent and that did not get lost. -/
def frames (socket : PageSocket) : List Frame := received socket.log ++ socket.inFlight

/-- The page sent a release last, or nothing. -/
def Still (socket : PageSocket) : Prop :=
  ∀ frame, socket.frames.getLast? = some frame → frame.command = .stop

/-- The log leads to the state of the handler. -/
def Lived (socket : PageSocket) : Prop :=
  match socket.handler with
  | some ws => ∃ counted, run JoystickWs.step (.opened counted) socket.log = some ws
  | none => socket.log = []

theorem still_of_frames {socket : PageSocket} (nothing : socket.frames = []) : socket.Still := by
  intro frame last
  rw [nothing] at last
  cases last

end PageSocket

theorem received_receive {inFlight rest : List Frame} {e : JoystickEvent} (log : List JoystickEvent)
    (received_ : receive inFlight e = some rest) : received (log ++ [e]) ++ rest = received log ++ inFlight := by
  rw [received_concat, List.append_assoc]
  congr 1
  cases e with
  | frame frame =>
    cases inFlight with
    | nil => cases received_
    | cons next later =>
      simp only [receive] at received_
      split_ifs at received_ with same
      cases received_
      rw [same]
      rfl
  | _ =>
    cases received_
    rfl

namespace Session

variable {s t : Session} {j : ℕ} {name : String}

/-- Some joystick handler of the mower drives. -/
def DrivenBy (s : Session) (name : String) : Prop :=
  ∃ j socket ws, s.sockets j = some socket ∧ socket.name = name ∧ socket.handler = some ws ∧ Drives ws socket.log

structure Inv (s : Session) : Prop where
  lived : ∀ j socket, s.sockets j = some socket → socket.Lived
  current : ∀ j socket, s.sockets j = some socket → socket.closed = false → s.page.ws = some j
  unopened : ∀ j socket, s.page.ws = some j → s.sockets j = some socket → socket.isOpen = false →
    socket.frames = []
  still : s.page.joyTimer = false → ∀ j socket, s.page.ws = some j → s.sockets j = some socket → socket.Still
  driven : ∀ name linear angular, lastMotion name s.sent = some (.sendMovement linear angular) → s.DrivenBy name

theorem DrivenBy.setSocket {socket next : PageSocket} (driven : s.DrivenBy name) (at_ : s.sockets j = some socket)
    (same : next.name = socket.name) (handler : next.handler = socket.handler) (log : next.log = socket.log) :
    (s.setSocket j next).DrivenBy name := by
  obtain ⟨i, other, ws, there, is, serves, drives⟩ := driven
  by_cases equal : i = j
  · subst equal
    cases at_.symm.trans there
    exact ⟨i, next, ws, Function.update_self .., same.trans is, handler.trans serves, log ▸ drives⟩
  · exact ⟨i, other, ws, (Function.update_of_ne equal ..).trans there, is, serves, drives⟩

theorem sockets_setSocket (s : Session) (j i : ℕ) (socket : PageSocket) :
    (s.setSocket j socket).sockets i = if i = j then some socket else s.sockets i := Function.update_apply ..

/-- The page changes without sending a frame. -/
theorem Inv.setPage (inv : Inv s) {page : Page} (posts : List (Action × String)) (ws : page.ws = s.page.ws)
    (timer : page.joyTimer = false → s.page.joyTimer = false) : Inv ⟨page, posts, s.sockets, s.sent⟩ :=
  ⟨inv.lived, fun j socket at_ open_ => ws.trans (inv.current j socket at_ open_),
    fun j socket here => inv.unopened j socket (ws.symm.trans here),
    fun off j socket here => inv.still (timer off) j socket (ws.symm.trans here), inv.driven⟩

/-- The page changes and sends a frame, which is a release if the heartbeat is off. -/
theorem Inv.sendJoystick (inv : Inv s) {page : Page} {frame : Frame} (ws : page.ws = s.page.ws)
    (off : page.joyTimer = false → frame.command = .stop) :
    Inv (Session.sendJoystick ⟨page, s.posts, s.sockets, s.sent⟩ frame) := by
  have mute : (page.joyTimer = false → ∀ j socket, page.ws = some j → s.sockets j = some socket → socket.Still) →
      Inv ⟨page, s.posts, s.sockets, s.sent⟩ := fun still =>
    ⟨inv.lived, fun j socket at_ open_ => ws.trans (inv.current j socket at_ open_),
      fun j socket here => inv.unopened j socket (ws.symm.trans here), still, inv.driven⟩
  simp only [Session.sendJoystick]
  split
  · next j here =>
    have here : page.ws = some j := here
    split
    · next socket at_ =>
      have at_ : s.sockets j = some socket := at_
      split_ifs with isOpen
      · have sockets := sockets_setSocket ⟨page, s.posts, s.sockets, s.sent⟩ j
        refine ⟨fun i other there => ?_, fun i other there open_ => ?_, fun i other now there shut => ?_,
          fun timer i other now there => ?_, fun name l a moves => ?_⟩
        · rw [sockets] at there
          split_ifs at there
          · cases there
            exact inv.lived j socket at_
          · exact inv.lived i other there
        · rw [sockets] at there
          split_ifs at there with same
          · rw [same]
            exact here
          · exact ws.trans (inv.current i other there open_)
        · rw [sockets] at there
          split_ifs at there
          · cases there
            exact Bool.noConfusion (isOpen.symm.trans shut)
          · exact inv.unopened i other (ws.symm.trans now) there shut
        · have same : i = j := Option.some.inj (now.symm.trans here)
          rw [sockets, if_pos same] at there
          cases there
          intro last latest
          rw [PageSocket.frames, ← List.append_assoc, List.getLast?_concat] at latest
          cases latest
          exact off timer
        · exact DrivenBy.setSocket (s := ⟨page, s.posts, s.sockets, s.sent⟩) (inv.driven name l a moves) at_ rfl rfl rfl
      · refine mute fun _ i other now there => ?_
        cases here.symm.trans now
        cases at_.symm.trans there
        exact PageSocket.still_of_frames
          (inv.unopened j socket (ws.symm.trans here) at_ (Bool.eq_false_of_not_eq_true isOpen))
    · next none_ =>
      refine mute fun _ i other now there => ?_
      cases here.symm.trans now
      cases (show s.sockets j = none from none_).symm.trans there
  · next none_ =>
    refine mute fun _ i other now _ => ?_
    cases (show page.ws = none from none_).symm.trans now

/-- One socket changes, and the server may have sent something. -/
theorem Inv.replace (inv : Inv s) {next : PageSocket} {posts : List (Action × String)}
    {sent : List (String × MowerCommand)} (lived : next.Lived) (current : next.closed = false → s.page.ws = some j)
    (unopened : s.page.ws = some j → next.isOpen = false → next.frames = [])
    (still : s.page.joyTimer = false → s.page.ws = some j → next.Still)
    (driven : ∀ name linear angular, lastMotion name sent = some (.sendMovement linear angular) →
      DrivenBy ⟨s.page, posts, Function.update s.sockets j (some next), sent⟩ name) :
    Inv ⟨s.page, posts, Function.update s.sockets j (some next), sent⟩ := by
  refine ⟨fun i other there => ?_, fun i other there open_ => ?_, fun i other now there shut => ?_,
    fun timer i other now there => ?_, driven⟩ <;> simp only [Function.update_apply] at there <;>
      split_ifs at there with same
  · cases there
    exact lived
  · exact inv.lived i other there
  · cases there
    rw [same]
    exact current open_
  · exact inv.current i other there open_
  · cases there
    exact unopened (same ▸ now) shut
  · exact inv.unopened i other now there shut
  · cases there
    exact still timer (same ▸ now)
  · exact inv.still timer i other now there

theorem Inv.letGo (inv : Inv s) (touching : Bool) : Inv (s.letGo touching) :=
  inv.sendJoystick rfl fun _ => zeroFrame_command

theorem Inv.joystickFailsafeStop (inv : Inv s) : Inv s.joystickFailsafeStop := by
  rw [Session.joystickFailsafeStop]
  split_ifs
  · exact inv.letGo _
  · exact inv

theorem Inv.disarmBlades (inv : Inv s) : Inv s.disarmBlades := inv.setPage s.posts rfl id

theorem Inv.runAction (inv : Inv s) (action : Action) : Inv (s.runAction action) := by
  rw [Session.runAction]
  split
  · split_ifs
    · exact inv
    · exact inv.setPage _ rfl id
  · exact inv

/-- The page has no socket any more. -/
theorem inv_of_shut {page : Page} {posts : List (Action × String)} {sockets : ℕ → Option PageSocket}
    {sent : List (String × MowerCommand)} (ws : page.ws = none)
    (lived : ∀ j socket, sockets j = some socket → socket.Lived)
    (shut : ∀ j socket, sockets j = some socket → socket.closed = true)
    (driven : ∀ name linear angular, lastMotion name sent = some (.sendMovement linear angular) →
      DrivenBy ⟨page, posts, sockets, sent⟩ name) : Inv ⟨page, posts, sockets, sent⟩ := by
  refine ⟨lived, fun j socket at_ open_ => ?_, fun j socket now => ?_, fun _ j socket now => ?_, driven⟩
  · rw [shut j socket at_] at open_
    cases open_
  · cases ws.symm.trans now
  · cases ws.symm.trans now

theorem Inv.dropWs (inv : Inv s) : Inv s.dropWs := by
  simp only [Session.dropWs]
  split
  · next j here =>
    have alone : ∀ i other, i ≠ j → s.sockets i = some other → other.closed = true := by
      intro i other ne there
      refine Bool.eq_true_of_not_eq_false fun open_ => ne ?_
      exact Option.some.inj ((inv.current i other there open_).symm.trans here)
    split
    · next socket at_ =>
      refine inv_of_shut rfl (fun i other there => ?_) (fun i other there => ?_) fun name l a moves => ?_
      · simp only [Function.update_apply] at there
        split_ifs at there
        · cases there
          exact inv.lived j socket at_
        · exact inv.lived i other there
      · simp only [Function.update_apply] at there
        split_ifs at there with same
        · cases there
          rfl
        · exact alone i other same there
      · exact DrivenBy.setSocket (s := ⟨{ s.page with ws := none }, s.posts, s.sockets, s.sent⟩)
          (inv.driven name l a moves) at_ rfl rfl rfl
    · next none_ =>
      refine inv_of_shut rfl inv.lived (fun i other there => alone i other ?_ there) inv.driven
      rintro rfl
      cases none_.symm.trans there
  · exact inv

theorem Inv.selectMower (inv : Inv s) (name : String) : Inv (s.selectMower name) :=
  Inv.dropWs (inv.sendJoystick rfl fun _ => zeroFrame_command)

theorem Inv.moved (inv : Inv s) (frame : Frame) : Inv (s.moved frame) := by
  rw [Session.moved]
  split_ifs
  · exact inv.setPage s.posts rfl id
  · exact inv.sendJoystick rfl fun off => by cases off

theorem Inv.connectWs (inv : Inv s) (stepped : s.connectWs j = some t) : Inv t := by
  simp only [Session.connectWs] at stepped
  split at stepped <;> cases stepped
  next name _ none_ fresh =>
  have sockets := sockets_setSocket ⟨{ s.page with ws := some j }, s.posts, s.sockets, s.sent⟩ j
  have shut : ∀ i other, s.sockets i = some other → other.closed ≠ false := by
    intro i other there open_
    cases none_.symm.trans (inv.current i other there open_)
  refine ⟨fun i other there => ?_, fun i other there open_ => ?_, fun i other now there _ => ?_,
    fun _ i other now there => ?_, fun name l a moves => ?_⟩
  · rw [sockets] at there
    split_ifs at there
    · cases there
      rfl
    · exact inv.lived i other there
  · rw [sockets] at there
    split_ifs at there with same
    · rw [same]
      rfl
    · exact absurd open_ (shut i other there)
  · cases now
    rw [sockets, if_pos rfl] at there
    cases there
    rfl
  · cases now
    rw [sockets, if_pos rfl] at there
    cases there
    exact PageSocket.still_of_frames rfl
  · obtain ⟨i, other, ws, there, rest⟩ := inv.driven name l a moves
    refine ⟨i, other, ws, (sockets i _).trans ?_, rest⟩
    rw [if_neg (by rintro rfl; cases fresh.symm.trans there)]
    exact there

theorem Inv.wsOpened (inv : Inv s) (stepped : s.wsOpened = some t) : Inv t := by
  simp only [Session.wsOpened] at stepped
  split at stepped <;> try contradiction
  next j here =>
  split at stepped <;> try contradiction
  next socket at_ =>
  have opened : Inv (s.setSocket j { socket with isOpen := true }) := by
    refine inv.replace (inv.lived j socket at_) (fun _ => here) (fun _ shut => by cases shut)
      (fun timer now => inv.still timer j socket now at_) fun name l a moves => ?_
    exact DrivenBy.setSocket (inv.driven name l a moves) at_ rfl rfl rfl
  split_ifs at stepped <;> cases stepped
  · exact opened
  · exact opened.sendJoystick rfl fun _ => zeroFrame_command

theorem Inv.stepPage (inv : Inv s) {e : PageEvent} (stepped : s.stepPage e = some t) : Inv t := by
  cases e with
  | selectMower name =>
    cases stepped
    exact inv.selectMower name
  | stop =>
    cases stepped
    exact ((inv.joystickFailsafeStop.disarmBlades).runAction .stop).runAction .bladesOff
  | bladesOn =>
    cases stepped
    rw [Session.bladesOn]
    split_ifs
    · exact inv
    · exact inv.disarmBlades.runAction .bladesOn
    · exact inv.setPage s.posts rfl id
  | bladesOff =>
    cases stepped
    rw [Session.bladesOff]
    split_ifs
    · exact inv
    · exact inv.disarmBlades.runAction .bladesOff
  | press action =>
    simp only [Session.stepPage] at stepped
    split_ifs at stepped
    cases stepped
    exact inv.runAction action
  | armExpired =>
    simp only [Session.stepPage] at stepped
    split_ifs at stepped
    cases stepped
    exact inv.disarmBlades
  | settled action =>
    simp only [Session.stepPage] at stepped
    split_ifs at stepped
    cases stepped
    exact inv.setPage s.posts rfl id
  | touched =>
    simp only [Session.stepPage] at stepped
    split_ifs at stepped
    cases stepped
    exact inv.setPage s.posts rfl id
  | moved frame =>
    simp only [Session.stepPage] at stepped
    split_ifs at stepped
    cases stepped
    exact inv.moved frame
  | released =>
    simp only [Session.stepPage] at stepped
    split_ifs at stepped
    cases stepped
    exact inv.letGo false
  | heartbeat =>
    simp only [Session.stepPage] at stepped
    split_ifs at stepped with on
    cases stepped
    exact inv.sendJoystick rfl fun off => by rw [on] at off; cases off
  | blurred =>
    cases stepped
    exact inv.joystickFailsafeStop
  | hidden =>
    cases stepped
    exact inv.joystickFailsafeStop.disarmBlades
  | connectWs j => exact inv.connectWs stepped
  | wsOpened => exact inv.wsOpened stepped
  | wsClosed =>
    simp only [Session.stepPage] at stepped
    split_ifs at stepped
    cases stepped
    exact inv.dropWs

theorem Inv.accepted (inv : Inv s) {socket : PageSocket} {counted : Bool} (at_ : s.sockets j = some socket)
    (none_ : socket.handler = none) : Inv (s.setSocket j { socket with handler := some (.opened counted) }) := by
  have lived := inv.lived j socket at_
  simp only [PageSocket.Lived, none_] at lived
  refine inv.replace ⟨counted, by rw [lived]; rfl⟩ (inv.current j socket at_) (fun now => inv.unopened j socket now at_)
    (fun timer now => inv.still timer j socket now at_) fun name l a moves => ?_
  obtain ⟨i, other, ws, there, is, serves, drives⟩ := inv.driven name l a moves
  refine ⟨i, other, ws, (Function.update_of_ne ?_ ..).trans there, is, serves, drives⟩
  rintro rfl
  cases at_.symm.trans there
  cases none_.symm.trans serves

theorem motionOf_postAction {isLuba1 : Bool} {height : Option ℤ} {action : Action} {other : String} :
    motionOf name (other, postAction isLuba1 height action) =
      if action = .stop ∧ other = name then some .stopAndNotSaveTask else none := by
  cases action with
  | stop => simp [postAction, motionOf]
  | _ => simp only [postAction, motionOf, reduceCtorEq, false_and, if_false]

theorem bladesOf_postAction {isLuba1 : Bool} {height : Option ℤ} {action : Action} {other : String} :
    bladesOf name (other, postAction isLuba1 height action) =
      if other = name then
        if action = .bladesOn then some true else if action = .bladesOff then some false else none
      else none := by
  cases action with
  | bladesOn | bladesOff => simp only [postAction, bladesOf, sendBlades_isOn, reduceCtorEq, if_true, if_false]
  | _ => simp only [postAction, bladesOf, reduceCtorEq, if_false, ite_self]

theorem Inv.post (inv : Inv s) {posts : List (Action × String)} {isLuba1 : Bool} {height : Option ℤ}
    {action : Action} {other : String} :
    Inv ⟨s.page, posts, s.sockets, s.sent ++ [(other, postAction isLuba1 height action)]⟩ := by
  refine ⟨inv.lived, inv.current, inv.unopened, inv.still, fun name l a moves => ?_⟩
  rw [lastMotion_concat, motionOf_postAction] at moves
  split_ifs at moves
  · cases moves
  · exact inv.driven name l a moves

theorem Inv.stepHandler (inv : Inv s) {socket : PageSocket} {ws : JoystickWs} {e : JoystickEvent}
    (at_ : s.sockets j = some socket) (serves : socket.handler = some ws)
    (stepped : s.stepHandler j socket ws e = some t) : Inv t := by
  obtain ⟨rest, taken_, stepped⟩ := Option.bind_eq_some_iff.mp stepped
  obtain ⟨next, moved, rfl⟩ := Option.map_eq_some_iff.mp stepped
  have lived := inv.lived j socket at_
  simp only [PageSocket.Lived, serves] at lived
  obtain ⟨counted, ran⟩ := lived
  have sender := senderInvariant_of_run ran
  let after : PageSocket := { socket with inFlight := rest, handler := some next, log := socket.log ++ [e] }
  have frames : after.frames = socket.frames := received_receive socket.log taken_
  have still : socket.Still → after.Still := fun still frame last => still frame (frames ▸ last)
  have livedOn : after.Lived := ⟨counted, run_concat_iff.mpr ⟨ws, ran, moved⟩⟩
  refine inv.replace livedOn (inv.current j socket at_)
    (fun now shut => frames.trans (inv.unopened j socket now at_ shut))
    (fun timer now => still (inv.still timer j socket now at_)) fun name l a moves => ?_
  -- whoever drives goes on, unless this handler has just sent its stop
  have goesOn : handed ws e = none ∨ socket.name ≠ name → s.DrivenBy name →
      DrivenBy ⟨s.page, s.posts, Function.update s.sockets j (some after), s.sent ++
        (handed ws e).toList.map fun command => (socket.name, MowerCommand.motion command)⟩ name := by
    rintro silent ⟨i, other, ws', there, is, serves', drives⟩
    by_cases same : i = j
    · subst same
      cases at_.symm.trans there
      cases serves.symm.trans serves'
      refine ⟨i, after, next, Function.update_self .., is, rfl, drives.step sender moved ?_⟩
      exact silent.resolve_right fun ne => ne is
    · exact ⟨i, other, ws', (Function.update_of_ne same ..).trans there, is, serves', drives⟩
  cases hands : handed ws e with
  | none =>
    rw [hands, Option.toList_none, List.map_nil, List.append_nil] at moves
    exact hands ▸ goesOn (.inl hands) (inv.driven name l a moves)
  | some command =>
    rw [hands, Option.toList_some, List.map_singleton, lastMotion_concat] at moves
    simp only [motionOf] at moves
    split_ifs at moves with is
    · cases moves
      exact ⟨j, after, next, Function.update_self .., is, rfl, .of_handed sender moved hands⟩
    · exact hands ▸ goesOn (.inr is) (inv.driven name l a moves)

theorem Inv.step (inv : Inv s) {isLuba1 : String → Bool} {e : SessionEvent} (stepped : s.step isLuba1 e = some t) :
    Inv t := by
  cases e with
  | page e => exact inv.stepPage stepped
  | post n height =>
    obtain ⟨⟨action, other⟩, _, rfl⟩ := Option.map_eq_some_iff.mp stepped
    exact inv.post
  | accepted j counted =>
    obtain ⟨socket, at_, stepped⟩ := Option.bind_eq_some_iff.mp stepped
    split at stepped <;> cases stepped
    next none_ => exact inv.accepted at_ none_
  | handler j e =>
    obtain ⟨socket, at_, stepped⟩ := Option.bind_eq_some_iff.mp stepped
    obtain ⟨ws, serves, stepped⟩ := Option.bind_eq_some_iff.mp stepped
    exact inv.stepHandler at_ serves stepped

theorem inv_init : Inv init :=
  inv_of_shut rfl (fun _ _ at_ => by cases at_) (fun _ _ at_ => by cases at_) fun _ _ _ moves => by cases moves

/-! ## From STOP on -/

/-- The tap on Blades On confirms it. -/
def Confirms (s : Session) (e : SessionEvent) : Prop :=
  e = .page .bladesOn ∧ s.page.bladesArmTimer = true ∧ s.page.pending .bladesOn = false

/-- The event ends the heartbeat. -/
def LetsGo : SessionEvent → Prop
  | .page (.selectMower _) | .page .stop | .page .released | .page .blurred | .page .hidden => True
  | _ => False

/-- The server has processed what the page sent: no POST is left; an open socket is empty, and its mailbox; the
handler of any other one has sent its final stop. -/
structure Processed (s : Session) : Prop where
  posts : s.posts = []
  sockets : ∀ j socket ws, s.sockets j = some socket → socket.handler = some ws →
    (ws.handler = .receiving ∧ socket.closed = false ∧ socket.inFlight = [] ∧ ws.mailbox.pending = none) ∨
      ws.handler = .stopping ∨ ws.handler = .returned

/-- STOP has the last word on a page that goes through `earlier`, where it is pressed, and then through `later`. -/
def StopDominates (isLuba1 : String → Bool) (earlier later : List SessionEvent) : Prop :=
  ∀ s t u name, run (step isLuba1) init earlier = some s → s.page.currentMower = some name →
    s.step isLuba1 (.page .stop) = some t → run (step isLuba1) t later = some u →
      Meets (step isLuba1) (fun _ v e => ¬ v.Confirms e) t later → .page .touched ∉ later → u.Processed →
        lastBlades name u.sent = some false ∧ lastMotion name u.sent = some .stopAndNotSaveTask

/-- What the page may have in flight when STOP is pressed: no `blades-on`, and a POST of the same action that
suppresses `blades-off` or `stop` is yet to be processed by this mower, or has made the new one unnecessary. -/
structure Clear (s : Session) (name : String) : Prop where
  bladesOn : (.bladesOn, name) ∉ s.posts
  bladesOff : s.page.pending .bladesOff = true →
    (.bladesOff, name) ∈ s.posts ∨ lastBlades name s.sent = some false
  stop : s.page.pending .stop = true → (.stop, name) ∈ s.posts ∨ lastMotion name s.sent ≠ none

structure Stopped (name : String) (later : List SessionEvent) (s : Session) : Prop where
  bladesOn : (.bladesOn, name) ∉ s.posts
  bladesOff : (.bladesOff, name) ∈ s.posts ∨ lastBlades name s.sent = some false
  stop : (.stop, name) ∈ s.posts ∨ lastMotion name s.sent ≠ none
  timer : s.page.joyTimer = true →
    ∃ pre frame post, later = pre ++ .page (.moved frame) :: post ∧ ∀ e ∈ post, ¬ LetsGo e

/-- What a step of the page does to the rest of the session, and to the heartbeat. -/
structure Rest (s t : Session) (e : PageEvent) : Prop where
  sent : t.sent = s.sent
  posts : ∃ new, t.posts = s.posts ++ new ∧ ∀ name, (.bladesOn, name) ∈ new → s.Confirms (.page e)
  timer : t.page.joyTimer = true → (∃ frame, e = .moved frame) ∨ s.page.joyTimer = true ∧ ¬ LetsGo (.page e)

theorem runAction_posts (s : Session) (action : Action) : (s.runAction action).sent = s.sent ∧
    (s.runAction action).page.joyTimer = s.page.joyTimer ∧
      ∃ new, (s.runAction action).posts = s.posts ++ new ∧ ∀ x ∈ new, x.1 = action := by
  rw [Session.runAction]
  split
  · split_ifs
    · exact ⟨rfl, rfl, [], (List.append_nil _).symm, fun _ mem => absurd mem List.not_mem_nil⟩
    · exact ⟨rfl, rfl, _, rfl, fun x mem => by rw [List.mem_singleton.mp mem]⟩
  · exact ⟨rfl, rfl, [], (List.append_nil _).symm, fun _ mem => absurd mem List.not_mem_nil⟩

theorem dropWs_rest (s : Session) : s.dropWs.sent = s.sent ∧ s.dropWs.posts = s.posts ∧
    s.dropWs.page.joyTimer = s.page.joyTimer := by
  simp only [Session.dropWs]
  split
  · split <;> exact ⟨rfl, rfl, rfl⟩
  · exact ⟨rfl, rfl, rfl⟩

theorem failsafe_rest (s : Session) : s.joystickFailsafeStop.sent = s.sent ∧
    s.joystickFailsafeStop.posts = s.posts ∧ s.joystickFailsafeStop.page.joyTimer = false ∧
      s.joystickFailsafeStop.page.currentMower = s.page.currentMower ∧
        s.joystickFailsafeStop.page.pending = s.page.pending := by
  rw [Session.joystickFailsafeStop]
  split_ifs with on
  · simp only [Session.letGo, sendJoystick_page, sendJoystick_posts, sendJoystick_sent, and_self]
  · exact ⟨rfl, rfl, Bool.eq_false_of_not_eq_true on, rfl, rfl⟩

theorem Rest.of_eq {e : PageEvent} (sent : t.sent = s.sent) (posts : t.posts = s.posts)
    (timer : t.page.joyTimer = true → (∃ frame, e = .moved frame) ∨ s.page.joyTimer = true ∧ ¬ LetsGo (.page e)) :
    Rest s t e :=
  ⟨sent, ⟨[], posts.trans (List.append_nil _).symm, fun _ mem => absurd mem List.not_mem_nil⟩, timer⟩

/-- A button posts its action on top of what the page did before. -/
theorem Rest.runAction {u : Session} {e : PageEvent} (rest : Rest s u e) (action : Action)
    (confirms : action = .bladesOn → s.Confirms (.page e)) : Rest s (u.runAction action) e := by
  obtain ⟨sent, timer, new, posts, only⟩ := runAction_posts u action
  obtain ⟨before, posts', on⟩ := rest.posts
  refine ⟨sent.trans rest.sent, ⟨before ++ new, by rw [posts, posts', List.append_assoc], fun name mem => ?_⟩,
    fun up => rest.timer (timer ▸ up)⟩
  rcases List.mem_append.mp mem with mem | mem
  · exact on name mem
  · exact confirms (only _ mem).symm

theorem stepPage_rest {e : PageEvent} (stepped : s.stepPage e = some t) : Rest s t e := by
  have same : ¬ LetsGo (.page e) → ∀ {u : Session}, u.page.joyTimer = s.page.joyTimer → u.page.joyTimer = true →
      (∃ frame, e = .moved frame) ∨ s.page.joyTimer = true ∧ ¬ LetsGo (.page e) :=
    fun kept _ timer up => .inr ⟨timer ▸ up, kept⟩
  have failsafe : Rest s s.joystickFailsafeStop e ∧ Rest s s.joystickFailsafeStop.disarmBlades e := by
    obtain ⟨sent, posts, timer, _⟩ := failsafe_rest s
    refine ⟨.of_eq sent posts fun up => ?_, .of_eq sent posts fun up => ?_⟩ <;>
      cases timer.symm.trans up
  cases e with
  | selectMower name =>
    cases stepped
    obtain ⟨sent, posts, timer⟩ := dropWs_rest (Session.sendJoystick ⟨{ s.page with
      currentMower := some name
      bladesArmTimer := false
      touching := false
      joyTimer := false
      joyState := ZERO_FRAME }, s.posts, s.sockets, s.sent⟩ ZERO_FRAME)
    rw [sendJoystick_sent] at sent
    rw [sendJoystick_posts] at posts
    rw [sendJoystick_page] at timer
    refine .of_eq sent posts fun up => ?_
    cases timer.symm.trans up
  | stop =>
    cases stepped
    exact (failsafe.2.runAction .stop nofun).runAction .bladesOff nofun
  | bladesOn =>
    cases stepped
    rw [Session.bladesOn]
    split_ifs with waiting armed
    · exact .of_eq rfl rfl (same id rfl)
    · have disarmed : Rest s s.disarmBlades .bladesOn := .of_eq rfl rfl (same id rfl)
      exact disarmed.runAction .bladesOn fun _ => ⟨rfl, armed, Bool.eq_false_of_not_eq_true waiting⟩
    · exact .of_eq rfl rfl (same id rfl)
  | bladesOff =>
    cases stepped
    rw [Session.bladesOff]
    split_ifs
    · exact .of_eq rfl rfl (same id rfl)
    · have disarmed : Rest s s.disarmBlades .bladesOff := .of_eq rfl rfl (same id rfl)
      exact disarmed.runAction .bladesOff nofun
  | press action =>
    simp only [Session.stepPage] at stepped
    split_ifs at stepped with plain
    cases stepped
    refine Rest.runAction (.of_eq rfl rfl (same id rfl)) action ?_
    rintro rfl
    cases plain
  | moved frame =>
    simp only [Session.stepPage, Session.moved] at stepped
    split_ifs at stepped <;> cases stepped
    · exact .of_eq rfl rfl fun _ => .inl ⟨frame, rfl⟩
    · exact .of_eq (sendJoystick_sent ..) (sendJoystick_posts ..) fun _ => .inl ⟨frame, rfl⟩
  | released =>
    simp only [Session.stepPage] at stepped
    split_ifs at stepped
    cases stepped
    refine .of_eq (sendJoystick_sent ..) (sendJoystick_posts ..) fun up => ?_
    simp only [Session.letGo, sendJoystick_page] at up
    cases up
  | heartbeat =>
    simp only [Session.stepPage] at stepped
    split_ifs at stepped
    cases stepped
    exact .of_eq (sendJoystick_sent ..) (sendJoystick_posts ..)
      (same id (congrArg Page.joyTimer (sendJoystick_page ..)))
  | blurred =>
    cases stepped
    exact failsafe.1
  | hidden =>
    cases stepped
    exact failsafe.2
  | armExpired | settled action | touched =>
    simp only [Session.stepPage] at stepped
    split_ifs at stepped
    cases stepped
    exact .of_eq rfl rfl (same id rfl)
  | connectWs j =>
    simp only [Session.stepPage, Session.connectWs] at stepped
    split at stepped <;> cases stepped
    exact .of_eq rfl rfl (same id rfl)
  | wsOpened =>
    simp only [Session.stepPage, Session.wsOpened] at stepped
    split at stepped <;> try contradiction
    split at stepped <;> try contradiction
    split_ifs at stepped <;> cases stepped
    · exact .of_eq rfl rfl (same id rfl)
    · exact .of_eq (sendJoystick_sent ..) (sendJoystick_posts ..)
        (same id (congrArg Page.joyTimer (sendJoystick_page ..)))
  | wsClosed =>
    simp only [Session.stepPage] at stepped
    split_ifs at stepped
    cases stepped
    obtain ⟨sent, posts, timer⟩ := dropWs_rest s
    exact .of_eq sent posts (same id timer)

/-- Every POST in flight is the one that is processed or stays in flight. -/
theorem mem_eraseIdx {posts : List (Action × String)} {n : ℕ} {x y : Action × String} (at_ : posts[n]? = some x) :
    y ∈ posts ↔ y = x ∨ y ∈ posts.eraseIdx n := by
  obtain ⟨short, rfl⟩ := List.getElem?_eq_some_iff.mp at_
  rw [← (List.getElem_cons_eraseIdx_perm short).mem_iff, List.mem_cons]

theorem Stopped.page {later : List SessionEvent} (stopped : Stopped name later s) {e : PageEvent}
    (calm : ¬ s.Confirms (.page e)) (stepped : s.stepPage e = some t) :
    Stopped name (later ++ [SessionEvent.page e]) t := by
  obtain ⟨sent, ⟨new, posts, confirms⟩, timer⟩ := stepPage_rest stepped
  have kept : ∀ {x}, x ∈ s.posts → x ∈ t.posts := fun mem => posts ▸ List.mem_append_left _ mem
  refine ⟨fun mem => ?_, stopped.bladesOff.imp kept (sent ▸ id), stopped.stop.imp kept (sent ▸ id), fun up => ?_⟩
  · rw [posts] at mem
    rcases List.mem_append.mp mem with mem | mem
    · exact stopped.bladesOn mem
    · exact calm (confirms name mem)
  · rcases timer up with ⟨frame, rfl⟩ | ⟨was, kept⟩
    · exact ⟨later, frame, [], rfl, fun _ mem => absurd mem List.not_mem_nil⟩
    · obtain ⟨pre, frame, post, rfl, none_⟩ := stopped.timer was
      refine ⟨pre, frame, post ++ [SessionEvent.page e], by simp, fun e' mem => ?_⟩
      rcases List.mem_append.mp mem with mem | mem
      · exact none_ e' mem
      · rw [List.mem_singleton.mp mem]
        exact kept

theorem Stopped.server {later : List SessionEvent} (stopped : Stopped name later s) {e : SessionEvent}
    (page : t.page = s.page) (quiet : ¬ LetsGo e) (bladesOn : (.bladesOn, name) ∉ t.posts)
    (bladesOff : (.bladesOff, name) ∈ t.posts ∨ lastBlades name t.sent = some false)
    (stop : (.stop, name) ∈ t.posts ∨ lastMotion name t.sent ≠ none) : Stopped name (later ++ [e]) t := by
  refine ⟨bladesOn, bladesOff, stop, fun up => ?_⟩
  obtain ⟨pre, frame, post, rfl, none_⟩ := stopped.timer (page ▸ up)
  refine ⟨pre, frame, post ++ [e], by simp, fun e' mem => ?_⟩
  rcases List.mem_append.mp mem with mem | mem
  · exact none_ e' mem
  · rw [List.mem_singleton.mp mem]
    exact quiet

theorem Stopped.post {later : List SessionEvent} (stopped : Stopped name later s) {n : ℕ} {height : Option ℤ}
    {isLuba1 : String → Bool} (stepped : s.step isLuba1 (.post n height) = some t) :
    Stopped name (later ++ [SessionEvent.post n height]) t := by
  obtain ⟨⟨action, other⟩, at_, rfl⟩ := Option.map_eq_some_iff.mp stepped
  have moved : ∀ x : Action × String, x ∈ s.posts ↔ x = (action, other) ∨ x ∈ s.posts.eraseIdx n :=
    fun x => mem_eraseIdx at_
  refine stopped.server rfl id (fun mem => stopped.bladesOn ((moved _).mpr (.inr mem))) ?_ ?_
  · have notOn : ¬ (action = .bladesOn ∧ other = name) := by
      rintro ⟨rfl, rfl⟩
      exact stopped.bladesOn ((moved _).mpr (.inl rfl))
    simp only [lastBlades_concat, bladesOf_postAction]
    by_cases mine : other = name
    · by_cases off : action = .bladesOff
      · exact .inr (by simp [mine, off])
      · have on : action ≠ .bladesOn := fun on => notOn ⟨on, mine⟩
        refine stopped.bladesOff.imp (fun mem => ?_) fun last => by simp [mine, off, on, last]
        exact ((moved _).mp mem).resolve_left fun same => off (Prod.mk.inj same).1.symm
    · refine stopped.bladesOff.imp (fun mem => ?_) fun last => by simp [mine, last]
      exact ((moved _).mp mem).resolve_left fun same => mine (Prod.mk.inj same).2.symm
  · simp only [lastMotion_concat, motionOf_postAction]
    by_cases mine : action = .stop ∧ other = name
    · exact .inr (by simp [mine])
    · refine stopped.stop.imp (fun mem => ?_) fun last => by simp [mine, last]
      exact ((moved _).mp mem).resolve_left fun same => mine ⟨(Prod.mk.inj same).1.symm, (Prod.mk.inj same).2.symm⟩

/-- Only POSTs carry blade commands, and motions are never taken back. -/
theorem Stopped.handler {later : List SessionEvent} (stopped : Stopped name later s) {j : ℕ} {e : JoystickEvent}
    {socket : PageSocket} {ws : JoystickWs} (stepped : s.stepHandler j socket ws e = some t) :
    Stopped name (later ++ [SessionEvent.handler j e]) t := by
  obtain ⟨rest, _, stepped⟩ := Option.bind_eq_some_iff.mp stepped
  obtain ⟨next, _, rfl⟩ := Option.map_eq_some_iff.mp stepped
  refine stopped.server rfl id stopped.bladesOn (stopped.bladesOff.imp_right fun last => ?_)
    (stopped.stop.imp_right fun last => ?_)
  · cases hands : handed ws e with
    | none => simpa [Session.setSocket] using last
    | some command =>
      simp only [Session.setSocket, Option.toList_some, List.map_singleton, lastBlades_concat, bladesOf, Option.none_or]
      exact last
  · cases hands : handed ws e with
    | none => simpa [Session.setSocket] using last
    | some command =>
      simp only [Session.setSocket, Option.toList_some, List.map_singleton, lastMotion_concat]
      cases motionOf name (socket.name, .motion command) with
      | none => exact last
      | some c => exact nofun

theorem Stopped.step {later : List SessionEvent} (stopped : Stopped name later s) {isLuba1 : String → Bool}
    {e : SessionEvent} (calm : ¬ s.Confirms e) (stepped : s.step isLuba1 e = some t) :
    Stopped name (later ++ [e]) t := by
  cases e with
  | page e => exact stopped.page calm stepped
  | post n height => exact stopped.post stepped
  | accepted j counted =>
    obtain ⟨socket, _, stepped⟩ := Option.bind_eq_some_iff.mp stepped
    split at stepped <;> cases stepped
    exact stopped.server rfl id stopped.bladesOn stopped.bladesOff stopped.stop
  | handler j e =>
    obtain ⟨socket, _, stepped⟩ := Option.bind_eq_some_iff.mp stepped
    obtain ⟨ws, _, stepped⟩ := Option.bind_eq_some_iff.mp stepped
    exact stopped.handler stepped

/-- STOP posts what is not suppressed. -/
theorem runAction_posted (action : Action) (mower : s.page.currentMower = some name) :
    (s.runAction action).posts =
        (if s.page.pending action then s.posts else s.posts ++ [(action, name)]) ∧
      (s.runAction action).page.currentMower = some name ∧
        ∀ other, other ≠ action → (s.runAction action).page.pending other = s.page.pending other := by
  simp only [Session.runAction, mower]
  split_ifs with waiting
  · exact ⟨rfl, mower, fun _ _ => rfl⟩
  · exact ⟨rfl, rfl, fun other ne => Function.update_of_ne ne ..⟩

theorem stopped_of_stop (mower : s.page.currentMower = some name) (clear : Clear s name) : Stopped name [] s.stop := by
  obtain ⟨sent, posts, timer, current, pending⟩ := failsafe_rest s
  let quiet := s.joystickFailsafeStop.disarmBlades
  have current : quiet.page.currentMower = some name := current.trans mower
  have pending : quiet.page.pending = s.page.pending := pending
  obtain ⟨stopPosts, still, others⟩ := runAction_posted .stop current
  obtain ⟨offPosts, _⟩ := runAction_posted .bladesOff still
  have sent' : s.stop.sent = s.sent := (runAction_posts _ _).1.trans ((runAction_posts _ _).1.trans sent)
  have timer' : s.stop.page.joyTimer = false :=
    (runAction_posts _ _).2.1.trans ((runAction_posts _ _).2.1.trans timer)
  rw [pending, show quiet.posts = s.posts from posts] at stopPosts
  rw [others .bladesOff nofun, pending, stopPosts] at offPosts
  have all : s.stop.posts = _ := offPosts
  refine ⟨?_, ?_, ?_, fun up => by cases timer'.symm.trans up⟩
  · rw [all]
    have none_ := clear.bladesOn
    split_ifs <;> simp [none_]
  · rw [all, sent']
    by_cases waiting : s.page.pending .bladesOff = true
    · refine (clear.bladesOff waiting).imp_left fun mem => ?_
      rw [if_pos waiting]
      split_ifs <;> simp [mem]
    · exact .inl (by rw [if_neg waiting]; simp)
  · rw [all, sent']
    by_cases waiting : s.page.pending .stop = true
    · refine (clear.stop waiting).imp_left fun mem => ?_
      rw [if_pos waiting]
      split_ifs <;> simp [mem]
    · exact .inl (by rw [if_neg waiting]; split_ifs <;> simp)

/-- A processed session without a heartbeat has stopped every mower it has moved. -/
theorem Inv.still_of_processed (inv : Inv s) (processed : s.Processed) (off : s.page.joyTimer = false)
    (linear angular : ℤ) : lastMotion name s.sent ≠ some (.sendMovement linear angular) := by
  intro moves
  obtain ⟨j, socket, ws, at_, rfl, serves, drives⟩ := inv.driven name linear angular moves
  rcases processed.sockets j socket ws at_ serves with ⟨_, open_, empty, vacant⟩ | ended
  · have lived := inv.lived j socket at_
    simp only [PageSocket.Lived, serves] at lived
    obtain ⟨counted, ran⟩ := lived
    obtain ⟨frame, last, drive⟩ := drives.last_frame (tracks_of_run ran) vacant
    refine drive (inv.still off j socket (inv.current j socket at_ open_) at_ frame ?_)
    rw [PageSocket.frames, empty, List.append_nil]
    exact last
  · rcases drives.alive with at_ | at_ <;> rcases ended with ends | ends <;> cases at_.symm.trans ends

/-- **STOP dominates**: if nothing in flight when STOP is pressed can take effect after it or suppresses it, and
the stick is let go wherever it is moved afterwards, then the last blade command the mower gets is an off
and its last motion a stop. -/
theorem stop_dominates (isLuba1 : String → Bool) (earlier later : List SessionEvent)
    (clear : ∀ s name, run (step isLuba1) init earlier = some s → s.page.currentMower = some name → Clear s name)
    (letGo : ∀ pre frame post, later = pre ++ .page (.moved frame) :: post → ∃ e ∈ post, LetsGo e) :
    StopDominates isLuba1 earlier later := by
  intro s t u name ran mower stepped ranOn noOn _ processed
  have start : Inv s := run_invariant (I := fun _ => Inv) inv_init (fun _ _ _ _ inv => inv.step) ran
  have inv : Inv u := run_invariant (I := fun _ => Inv) (start.step stepped) (fun _ _ _ _ inv => inv.step) ranOn
  cases stepped
  have stopped : Stopped name later u :=
    run_invariant_of_meets (stopped_of_stop mower (clear s name ran mower))
      (fun _ _ _ _ stopped calm => stopped.step calm) noOn ranOn
  have off : u.page.joyTimer = false := by
    refine Bool.eq_false_of_not_eq_true fun up => ?_
    obtain ⟨pre, frame, post, split, none_⟩ := stopped.timer up
    obtain ⟨e, mem, lets⟩ := letGo pre frame post split
    exact none_ e mem lets
  have gone : ∀ x, x ∉ u.posts := fun x mem => by
    rw [processed.posts] at mem
    exact List.not_mem_nil mem
  refine ⟨stopped.bladesOff.resolve_left (gone _), ?_⟩
  cases last : lastMotion name u.sent with
  | none => exact absurd last (stopped.stop.resolve_left (gone _))
  | some command =>
    cases command with
    | stopAndNotSaveTask => rfl
    | sendMovement linear angular => exact absurd last (inv.still_of_processed processed off linear angular)

theorem not_confirms_of_notMem {isLuba1 : String → Bool} {later : List SessionEvent}
    (untapped : .page .bladesOn ∉ later) : Meets (step isLuba1) (fun _ v e => ¬ v.Confirms e) s later := by
  rintro pre e inside t - ⟨rfl, -⟩
  exact untapped (inside.subset (List.mem_append_right _ (List.mem_singleton_self _)))

/-- A stick pushed forward. -/
def forward : Frame := ⟨.fin 0, .fin 1, .fin 1⟩

/-- The blades are on, and the stick is held. -/
def mowing : List SessionEvent :=
  [.page (.selectMower "Luba-A"), .page (.connectWs 0), .accepted 0 true, .page .wsOpened, .page .bladesOn,
    .page .bladesOn, .post 0 none, .page .touched, .page (.moved forward)]

/-- The stick is released, and the server processes everything. -/
def allProcessed : List SessionEvent :=
  [.page .released, .post 1 none, .post 0 none, .handler 0 .start, .handler 0 (.frame ZERO_FRAME),
    .handler 0 (.frame forward), .handler 0 (.take (some (.axes (.fin 0) (.fin 1))) (.vector 500 0)),
    .handler 0 (.frame ZERO_FRAME), .handler 0 (.frame ZERO_FRAME), .handler 0 (.sent (.sendMovement 500 0)),
    .handler 0 (.take (some .stop) .raised)]

theorem stop_dominates_mowing :
    ((run (step fun _ => false) init (mowing ++ .page .stop :: allProcessed)).map fun u =>
        (u.posts, lastBlades "Luba-A" u.sent, lastMotion "Luba-A" u.sent)) =
          some ([], some false, some .stopAndNotSaveTask) ∧
      StopDominates (fun _ => false) mowing allProcessed := by
  refine ⟨by decide +kernel, stop_dominates _ mowing allProcessed (fun s name ran mower => ?_)
    fun pre frame post split => ?_⟩
  · cases ran
    exact ⟨List.not_mem_nil, nofun, nofun⟩
  · have mem : .page (.moved frame) ∈ allProcessed := split ▸ by simp
    simp [allProcessed] at mem

/-- Blades On is confirmed, and its POST is still in flight when STOP is pressed. -/
def confirmed : List SessionEvent := [.page (.selectMower "Luba-A"), .page .bladesOn, .page .bladesOn]

/-- The blades were turned off and on again before the response to the first POST reached the page. -/
def offAndOn : List SessionEvent :=
  [.page (.selectMower "Luba-A"), .page .bladesOff, .post 0 none, .page .bladesOn, .page .bladesOn, .post 0 none]

/-- STOP was pressed for another mower, whose link is slow. -/
def otherMower : List SessionEvent :=
  [.page (.selectMower "Luba-B"), .page .stop, .page (.selectMower "Luba-A"), .page .bladesOn, .page .bladesOn,
    .post 2 none]

theorem stop_overtaken_suppressed :
    ¬ StopDominates (fun _ => false) confirmed [.post 1 none, .post 1 none, .post 0 none] ∧
      ¬ StopDominates (fun _ => false) offAndOn [.post 0 none] ∧
        ¬ StopDominates (fun _ => false) otherMower [.post 0 none, .post 0 none] := by
  have untapped : ∀ later : List SessionEvent, (∀ e ∈ later, ∃ n height, e = .post n height) →
      .page .bladesOn ∉ later ∧ .page .touched ∉ later := by
    refine fun later posts => ⟨fun mem => ?_, fun mem => ?_⟩ <;> obtain ⟨_, _, is⟩ := posts _ mem <;> cases is
  refine ⟨fun dominates => ?_, fun dominates => ?_, fun dominates => ?_⟩
  · obtain ⟨tapped, touched⟩ := untapped [.post 1 none, .post 1 none, .post 0 none] (by simp)
    have last := (dominates _ _ _ "Luba-A" rfl rfl rfl rfl (not_confirms_of_notMem tapped) touched
      ⟨rfl, fun _ _ _ at_ => by cases at_⟩).1
    cases last
  · obtain ⟨tapped, touched⟩ := untapped [.post 0 none] (by simp)
    have last := (dominates _ _ _ "Luba-A" rfl rfl rfl rfl (not_confirms_of_notMem tapped) touched
      ⟨rfl, fun _ _ _ at_ => by cases at_⟩).1
    cases last
  · obtain ⟨tapped, touched⟩ := untapped [.post 0 none, .post 0 none] (by simp)
    have last := (dominates _ _ _ "Luba-A" rfl rfl rfl rfl (not_confirms_of_notMem tapped) touched
      ⟨rfl, fun _ _ _ at_ => by cases at_⟩).1
    cases last

end Session

end MammotionRc.Web
