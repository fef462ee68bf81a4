import MammotionRc.Web.Stick

/-! # What the parts of a handler leave alone

Sending, tearing the socket down, mounting the stick and greeting a new socket change few fields of the page each.
-/

namespace MammotionRc.Web

open Server

namespace StickPage

/-- Everything but the socket, the heartbeat and what was sent. -/
structure SameStick (s t : StickPage) : Prop where
  currentMower : t.currentMower = s.currentMower
  joystick : t.joystick = s.joystick
  joyState : t.joyState = s.joyState
  latched : t.latched = s.latched

/-- A stick that comes up has not been touched. -/
structure Mounts (s t : StickPage) : Prop where
  link : t.link = s.link
  currentMower : t.currentMower = s.currentMower
  joystick : t.joystick = s.joystick ∨ t.joystick = some ⟨false⟩
  joyState : t.joyState = s.joyState
  latched : t.latched = s.latched
  passed : t.passed = s.passed
  sent : t.sent = s.sent

theorem SameStick.refl (s : StickPage) : SameStick s s := ⟨rfl, rfl, rfl, rfl⟩

theorem sendJoystick_same (s : StickPage) (browser : StickBrowser) (payload : Frame) :
    SameStick s (s.sendJoystick browser payload) ∧
      (s.sendJoystick browser payload).passed = s.passed ++ [payload] := by
  simp only [sendJoystick]
  split
  · exact ⟨⟨rfl, rfl, rfl, rfl⟩, rfl⟩
  · split <;> exact ⟨⟨rfl, rfl, rfl, rfl⟩, rfl⟩

theorem teardownJoystickWs_same (s : StickPage) (browser : StickBrowser) :
    SameStick s (s.teardownJoystickWs browser) ∧ (s.teardownJoystickWs browser).passed = s.passed := by
  rw [teardownJoystickWs]
  split <;> exact ⟨⟨rfl, rfl, rfl, rfl⟩, rfl⟩

theorem assertStopped_same (s : StickPage) (browser : StickBrowser) (k : ℕ) (sock : WebSocket) :
    SameStick s (s.assertStopped browser k sock) ∧ (s.assertStopped browser k sock).passed = s.passed := by
  rw [assertStopped]
  split <;> exact ⟨⟨rfl, rfl, rfl, rfl⟩, rfl⟩

theorem mounts_mountStick (s : StickPage) (browser : StickBrowser) : Mounts s (s.mountStick browser) := by
  rw [mountStick]
  split
  · exact ⟨rfl, rfl, Or.inl rfl, rfl, rfl, rfl, rfl⟩
  · split
    · exact ⟨rfl, rfl, Or.inr rfl, rfl, rfl, rfl, rfl⟩
    · exact ⟨rfl, rfl, Or.inl rfl, rfl, rfl, rfl, rfl⟩

theorem mounts_scriptLoaded (s : StickPage) (browser : StickBrowser) (defined : Bool) :
    Mounts { s with link := s.link.scriptLoaded browser.toBrowser defined } (s.scriptLoaded browser defined) := by
  rw [scriptLoaded]
  split
  · exact mounts_mountStick ..
  · exact ⟨rfl, rfl, Or.inl rfl, rfl, rfl, rfl, rfl⟩

end StickPage

end MammotionRc.Web
