import Mathlib.Data.List.DropRight

/-! # The log drawer

The page keeps its log in two places: lines wait while the drawer is closed, and once it is open they are appended to it
as one text node. Either place is cut at its front. The texts and times of the lines, and the scrolling, are left out.
-/

namespace MammotionRc.Web

@[irreducible] def LOG_MAX_LINES : ℕ := 400

structure LogDrawer (Line : Type*) where
  /-- The drawer has the class `open`. -/
  isOpen : Bool
  logPending : List Line
  /-- The text nodes in the drawer, each with its lines. -/
  nodes : List (List Line)
  logNodes : ℕ

namespace LogDrawer

variable {Line : Type*}

/-- The page as it is loaded; on a wide screen the drawer is open. -/
def init (isOpen : Bool) : LogDrawer Line := ⟨isOpen, [], [], 0⟩

/-- The loop of `flushLog`, by the nodes in the drawer and `logNodes`. -/
def trimNodes : List (List Line) → ℕ → List (List Line) × ℕ
  | [], logNodes => ([], logNodes)
  | node :: nodes, logNodes =>
    if LOG_MAX_LINES < logNodes then trimNodes nodes (logNodes - 1) else (node :: nodes, logNodes)

def flushLog (s : LogDrawer Line) : LogDrawer Line :=
  if s.logPending = [] ∨ s.isOpen = false then s
  else
    let (nodes, logNodes) := trimNodes (s.nodes ++ [s.logPending]) (s.logNodes + 1)
    ⟨s.isOpen, [], nodes, logNodes⟩

/-- `logPending` after its `push` and `splice`. -/
def capped (lines : List Line) : List Line :=
  if LOG_MAX_LINES < lines.length then lines.drop (lines.length - LOG_MAX_LINES) else lines

def log (s : LogDrawer Line) (line : Line) : LogDrawer Line :=
  { s with logPending := capped (s.logPending ++ [line]) }.flushLog

/-- The handler of `log-toggle`. -/
def toggle (s : LogDrawer Line) : LogDrawer Line := { s with isOpen := !s.isOpen }.flushLog

end LogDrawer

inductive LogEvent (Line : Type*)
  | log (line : Line)
  | toggle
  /-- The tab `System` is opened, or the page is visible again. -/
  | flush

namespace LogDrawer

variable {Line : Type*}

def step (s : LogDrawer Line) : LogEvent Line → LogDrawer Line
  | .log line => s.log line
  | .toggle => s.toggle
  | .flush => s.flushLog

end LogDrawer

end MammotionRc.Web
