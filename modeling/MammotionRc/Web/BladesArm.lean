import MammotionRc.Machine.Run
import MammotionRc.Machine.TimerClock
import MammotionRc.Web.Session

/-! # The confirmation of Blades On

The buttons of the page, the one timer that an armed Blades On waits for, and the POSTs that the page waits for.
Time is that of the timers. A POST settles at any moment, with a response, an error or its deadline. What the page
shows, and its polls, do not matter here.
-/

namespace MammotionRc.Web

open Machine

/-- The callbacks that the buttons arm. -/
inductive BladesTimer
  | disarmBlades
deriving DecidableEq, Repr

structure BladesPage where
  currentMower : Option String
  /-- The set `pending`. -/
  pending : Action → Bool
  bladesArmTimer : Option ℕ
  clock : TimerClock BladesTimer
  /-- The POSTs that the page waits for, with the mower they are for. -/
  waiting : List (Action × String)
  /-- The POSTs that the page sent, oldest first. -/
  sent : List (Action × String)

inductive BladesEvent
  | selectMower (name : String)
  | stop
  | bladesOn
  | bladesOff
  /-- The button of any other action. -/
  | press (action : Action)
  | pagehide
  | visibilitychange (hidden : Bool)
  /-- An armed timer that is due fires. -/
  | timer (id : ℕ)
  | elapse (ms : ℚ)
  /-- The POST at position `n` of those waited for settles. -/
  | settled (n : ℕ)
deriving DecidableEq, Repr

/-- The delay of `setTimeout(disarmBlades, 3500)`. -/
def BLADES_ARM_MS : ℚ := 3500

namespace BladesPage

def init : BladesPage := ⟨none, fun _ => false, none, .start, [], []⟩

def disarmBlades (s : BladesPage) : BladesPage :=
  { s with clock := s.clock.clearHeld s.bladesArmTimer, bladesArmTimer := none }

/-- `runAction` and `action` up to the POST. -/
def runAction (s : BladesPage) (action : Action) : BladesPage :=
  match s.currentMower with
  | some name =>
    if name = "" ∨ s.pending action then s
    else
      { s with
        pending := Function.update s.pending action true
        waiting := s.waiting ++ [(action, name)]
        sent := s.sent ++ [(action, name)] }
  | none => s

/-- `els.stop.onclick`, without the stick. -/
def stop (s : BladesPage) : BladesPage := (s.disarmBlades.runAction .stop).runAction .bladesOff

/-- The first tap on Blades On. -/
def arm (s : BladesPage) : BladesPage :=
  { s with
    bladesArmTimer := some s.clock.timers.next
    clock := s.clock.setTimeout .disarmBlades BLADES_ARM_MS (by decide) }

/-- `els.bladesOn.onclick`. -/
def bladesOn (s : BladesPage) : BladesPage :=
  if s.pending .bladesOn then s
  else if s.bladesArmTimer.isNone then s.arm
  else s.disarmBlades.runAction .bladesOn

/-- `els.bladesOff.onclick`. -/
def bladesOff (s : BladesPage) : BladesPage :=
  if s.pending .bladesOff then s else s.disarmBlades.runAction .bladesOff

/-- `selectMower` as far as the buttons are concerned. -/
def selectMower (s : BladesPage) (name : String) : BladesPage := { s with currentMower := some name }.disarmBlades

/-- The `finally` of `runAction`. -/
def settle (s : BladesPage) (n : ℕ) (action : Action) : BladesPage :=
  { s with waiting := s.waiting.eraseIdx n, pending := Function.update s.pending action false }

/-- One event of the page; `none` if it cannot happen now. -/
def step (s : BladesPage) : BladesEvent → Option BladesPage
  | .selectMower name => some (s.selectMower name)
  | .stop => some s.stop
  | .bladesOn => some s.bladesOn
  | .bladesOff => some s.bladesOff
  | .press action => if action.plain then some (s.runAction action) else none
  | .pagehide => some s.disarmBlades
  | .visibilitychange hidden => some (if hidden then s.disarmBlades else s)
  | .timer id =>
    match s.clock.due id with
    | some .disarmBlades => some { s with clock := s.clock.clearTimeout id }.disarmBlades
    | none => none
  | .elapse ms =>
    if may : s.clock.MayElapse ms then some { s with clock := s.clock.elapse ms may } else none
  | .settled n => (s.waiting[n]?).map fun request => s.settle n request.1

end BladesPage

end MammotionRc.Web
