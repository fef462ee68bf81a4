import MammotionRc.Web.LogDrawer

/-! # The log keeps its last lines

Lines leave either place at its front, and one whole place can only be cut when it has enough lines left. So in the
nodes and behind them in the buffer are the last lines, without a gap, however often the drawer is opened and closed.
Lines before these may be there too: a node is cut off as a whole, and may have many.
-/

namespace MammotionRc.Web

variable {Line : Type*}

/-- The lines that were logged. -/
def logged : List (LogEvent Line) → List Line
  | [] => []
  | .log line :: es => line :: logged es
  | .toggle :: es | .flush :: es => logged es

section Lists

variable {n : ℕ} {l kept kept' : List Line}

/-- Enough lines at the end of what is kept have the last ones. -/
theorem rtake_suffix (last : l.rtake n <:+ kept) (shorter : kept' <:+ kept) (enough : n ≤ kept'.length) :
    l.rtake n <:+ kept' := by
  refine List.suffix_of_suffix_length_le last shorter (le_trans ?_ enough)
  rw [List.rtake, List.length_drop]
  omega

theorem rtake_concat (l : List Line) (n : ℕ) (x : Line) : (l ++ [x]).rtake n <:+ l.rtake n ++ [x] := by
  cases n with
  | zero =>
    rw [List.rtake_zero]
    exact List.nil_suffix
  | succ n =>
    rw [List.rtake_concat_succ]
    have fewer : l.rtake n <:+ l.rtake (n + 1) := by
      rw [List.rtake, List.rtake]
      exact List.suffix_of_suffix_length_le (List.drop_suffix _ l) (List.drop_suffix _ l) (by
        rw [List.length_drop, List.length_drop]
        omega)
    exact List.suffix_append_self_iff.mpr fewer

theorem length_le_flatten {ls : List (List Line)} (nonempty : ∀ node ∈ ls, node ≠ []) :
    ls.length ≤ ls.flatten.length := by
  induction ls with
  | nil => exact le_rfl
  | cons node ls ih =>
    have first : 0 < node.length := List.length_pos_iff.mpr (nonempty node List.mem_cons_self)
    have rest := ih fun node inside => nonempty node (List.mem_cons_of_mem _ inside)
    rw [List.flatten_cons, List.length_append, List.length_cons]
    omega

theorem flatten_suffix {ls ls' : List (List Line)} (suffix : ls' <:+ ls) : ls'.flatten <:+ ls.flatten := by
  obtain ⟨front, rfl⟩ := suffix
  rw [List.flatten_append]
  exact List.suffix_append _ _

end Lists

namespace LogDrawer

/-- The lines that can be read, now or once the drawer is open. -/
def lines (s : LogDrawer Line) : List Line := s.nodes.flatten ++ s.logPending

theorem trimNodes_eq (nodes : List (List Line)) :
    trimNodes nodes nodes.length = (nodes.drop (nodes.length - LOG_MAX_LINES), min nodes.length LOG_MAX_LINES) := by
  induction nodes with
  | nil => rw [trimNodes, List.drop_nil, List.length_nil, Nat.zero_min]
  | cons node nodes ih =>
    rw [trimNodes, List.length_cons]
    split
    · next long =>
      have one : nodes.length + 1 - LOG_MAX_LINES = (nodes.length - LOG_MAX_LINES) + 1 := by omega
      rw [Nat.add_sub_cancel, ih, one, List.drop_succ_cons]
      congr 1
      omega
    · next short =>
      rw [show nodes.length + 1 - LOG_MAX_LINES = 0 by omega, List.drop_zero]
      congr 1
      omega

theorem capped_suffix (lines : List Line) : capped lines <:+ lines := by
  rw [capped]
  split
  · exact List.drop_suffix _ _
  · exact List.suffix_refl _

theorem length_capped (lines : List Line) : (capped lines).length = min lines.length LOG_MAX_LINES := by
  rw [capped]
  split
  · rw [List.length_drop]
    omega
  · omega

/-- What holds between two events, of the lines that were logged. -/
structure Inv (history : List Line) (s : LogDrawer Line) : Prop where
  count : s.logNodes = s.nodes.length
  few : s.nodes.length ≤ LOG_MAX_LINES
  nonempty : ∀ node ∈ s.nodes, node ≠ []
  short : ∀ node ∈ s.nodes, node.length ≤ LOG_MAX_LINES
  waiting : s.logPending.length ≤ LOG_MAX_LINES
  sublist : s.lines.Sublist history
  last : history.rtake LOG_MAX_LINES <:+ s.lines

variable {history : List Line} {s : LogDrawer Line}

theorem inv_init (isOpen : Bool) : Inv [] (init isOpen : LogDrawer Line) :=
  ⟨rfl, Nat.zero_le _, nofun, nofun, Nat.zero_le _, List.Sublist.refl _, by
    rw [List.rtake_nil]
    exact List.nil_suffix⟩

theorem flushLog_shown (s : LogDrawer Line) (up : s.flushLog.isOpen = true) : s.flushLog.logPending = [] := by
  rw [flushLog] at up ⊢
  split at up
  · next idle =>
    rw [if_pos idle]
    exact idle.resolve_right fun down => by rw [down] at up; cases up
  · next busy => rw [if_neg busy]

theorem Inv.flushLog (inv : Inv history s) : Inv history s.flushLog := by
  rw [LogDrawer.flushLog]
  split
  · exact inv
  · next busy =>
    have counted : s.logNodes + 1 = (s.nodes ++ [s.logPending]).length := by
      rw [inv.count, List.length_append, List.length_singleton]
    rw [counted, trimNodes_eq]
    have within : (s.nodes ++ [s.logPending]).drop ((s.nodes ++ [s.logPending]).length - LOG_MAX_LINES) <:+
        s.nodes ++ [s.logPending] := List.drop_suffix _ _
    have whole : (s.nodes ++ [s.logPending]).flatten = s.lines := by
      rw [List.flatten_append, List.flatten_singleton, lines]
    have mem : ∀ node ∈ s.nodes ++ [s.logPending], node ≠ [] ∧ node.length ≤ LOG_MAX_LINES := by
      intro node inside
      obtain before | now := List.mem_append.mp inside
      · exact ⟨inv.nonempty node before, inv.short node before⟩
      · rw [List.mem_singleton.mp now]
        exact ⟨fun none_ => busy (.inl none_), inv.waiting⟩
    have shorter := whole ▸ flatten_suffix within
    refine ⟨?_, ?_, fun node inside => (mem node (within.subset inside)).1,
      fun node inside => (mem node (within.subset inside)).2, Nat.zero_le _, ?_, ?_⟩
    · change min _ _ = (List.drop _ _).length
      rw [List.length_drop]
      omega
    · rw [List.length_drop]
      omega
    · rw [lines, List.append_nil]
      exact shorter.sublist.trans inv.sublist
    · rw [lines, List.append_nil]
      by_cases long : LOG_MAX_LINES < (s.nodes ++ [s.logPending]).length
      · refine rtake_suffix inv.last shorter (le_trans ?_ (length_le_flatten fun node inside =>
          (mem node (within.subset inside)).1))
        rw [List.length_drop]
        omega
      · rw [show (s.nodes ++ [s.logPending]).length - LOG_MAX_LINES = 0 by omega, List.drop_zero, whole]
        exact inv.last

theorem Inv.push (inv : Inv history s) (line : Line) :
    Inv (history ++ [line]) { s with logPending := capped (s.logPending ++ [line]) } := by
  have sub : (s.nodes.flatten ++ capped (s.logPending ++ [line])).Sublist (s.lines ++ [line]) := by
    rw [lines, List.append_assoc]
    exact (capped_suffix _).sublist.append_left _
  have last : (history ++ [line]).rtake LOG_MAX_LINES <:+ s.lines ++ [line] :=
    (rtake_concat history _ line).trans (List.suffix_append_self_iff.mpr inv.last)
  refine ⟨inv.count, inv.few, inv.nonempty, inv.short, ?_, sub.trans (inv.sublist.append_right _), ?_⟩
  · exact (length_capped _).le.trans (min_le_right _ _)
  · rw [lines]
    by_cases long : LOG_MAX_LINES < (s.logPending ++ [line]).length
    · have inside : capped (s.logPending ++ [line]) <:+ s.lines ++ [line] := by
        rw [lines, List.append_assoc]
        exact (capped_suffix _).trans (List.suffix_append _ _)
      have enough : LOG_MAX_LINES ≤ (capped (s.logPending ++ [line])).length := by
        rw [length_capped]
        omega
      exact (rtake_suffix last inside enough).trans (List.suffix_append _ _)
    · rw [capped, if_neg long, ← List.append_assoc]
      exact last

theorem Inv.toggle (inv : Inv history s) : Inv history s.toggle :=
  Inv.flushLog (s := { s with isOpen := !s.isOpen })
    ⟨inv.count, inv.few, inv.nonempty, inv.short, inv.waiting, inv.sublist, inv.last⟩

theorem Inv.run (inv : Inv history s) (es : List (LogEvent Line)) : Inv (history ++ logged es) (es.foldl step s) := by
  induction es generalizing history s with
  | nil => exact (List.append_nil history).symm ▸ inv
  | cons e es ih =>
    cases e with
    | log line =>
      rw [logged, ← List.singleton_append, ← List.append_assoc]
      exact ih (inv.push line).flushLog
    | toggle => exact ih inv.toggle
    | flush => exact ih inv.flushLog

/-- Nothing waits in an open drawer. -/
theorem shown_run {isOpen : Bool} (es : List (LogEvent Line)) (up : (es.foldl step (init isOpen)).isOpen = true) :
    (es.foldl step (init isOpen)).logPending = [] := by
  induction es using List.reverseRecOn with
  | nil => rfl
  | append_singleton es e =>
    rw [List.foldl_concat] at up ⊢
    cases e with
    | log | toggle | flush => exact flushLog_shown _ up

/-- **The log keeps its last lines.** Whatever is logged and however often the drawer is opened, closed and looked at:
what can be read in it, now or once it is open, are lines that were logged, in their order, and the last 400 of them at
its end. Nothing waits while it is open. It has at most 400 nodes of at most 400 lines, and at most 400 lines wait. -/
theorem log_kept (isOpen : Bool) (es : List (LogEvent Line)) :
    let s := es.foldl step (init isOpen)
    s.lines.Sublist (logged es) ∧ (logged es).rtake LOG_MAX_LINES <:+ s.lines ∧ (s.isOpen = true → s.logPending = []) ∧
      s.nodes.length ≤ LOG_MAX_LINES ∧ (∀ node ∈ s.nodes, node.length ≤ LOG_MAX_LINES) ∧
      s.logPending.length ≤ LOG_MAX_LINES := by
  intro s
  have inv : Inv (logged es) s := (inv_init isOpen).run es
  exact ⟨inv.sublist, inv.last, shown_run es, inv.few, inv.short, inv.waiting⟩

end LogDrawer

end MammotionRc.Web
