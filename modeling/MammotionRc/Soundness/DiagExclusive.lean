import MammotionRc.Machine.Run
import MammotionRc.Server.Diagnostics

/-! # One diagnostics run at a time

The lock is tried and taken in one turn, so the runs are sections of a `TryLock`: at most one is active and the
commands of two runs never mix. What a run sends is fixed by what it is for: a capability run all probes that the
library has, in order, and a trace its command and, however it ends, the command that cleans up after it.
-/

namespace MammotionRc.Server

open Machine

variable {M V : Type} {lib : DiagLibrary}

/-- The commands of the probes that the library has. -/
def DiagLibrary.probeCommands (lib : DiagLibrary) (probes : List DiagProbe) : List DiagCommand :=
  (probes.map DiagProbe.command).filter lib.has

/-- The command of a trace, if there is one that the library has. -/
def DiagLibrary.traceCommand (lib : DiagLibrary) (handle : ℕ) (t : TraceRequest) : List DiagCommand :=
  ((t.key.command t.value (lib.bladeLimits handle).1 (lib.bladeLimits handle).2).filter lib.has).toList

theorem DiagLibrary.probeCommands_prefix {done rest : List DiagProbe} {p : DiagProbe}
    (split : PROBES = done ++ p :: rest) :
    lib.probeCommands (done ++ [p]) <+: lib.probeCommands PROBES := by
  rw [split, DiagLibrary.probeCommands, DiagLibrary.probeCommands]
  refine List.IsPrefix.filter _ (List.IsPrefix.map _ ?_)
  exact ⟨rest, by rw [List.append_assoc, List.singleton_append]⟩

namespace DiagRun

variable {r : DiagRun M V} {turn : DiagTurn M V} {cmds : List DiagCommand} {done rest : List DiagProbe}

/-- What a run has sent, by where it waits. -/
def Stage (lib : DiagLibrary) (r : DiagRun M V) (cmds : List DiagCommand) : Prop :=
  match r.pc with
  | .probing _ p rest | .waiting _ p rest =>
    r.kind = .probe ∧ ∃ done, PROBES = done ++ p :: rest ∧ cmds = lib.probeCommands (done ++ [p]) ∧
      r.probes.map Prod.fst = done.map DiagProbe.label
  | .sending | .listening => ∃ t, r.kind = .trace t ∧ cmds = lib.traceCommand r.handle t
  | .cleaning _ => ∃ t, r.kind = .trace t ∧ cmds = lib.traceCommand r.handle t ++ t.key.cleanup.toList ∧
      r.subscribed = false
  | .ended how =>
    (r.kind = .probe ∧ cmds <+: lib.probeCommands PROBES ∧
      (how = .answered → cmds = lib.probeCommands PROBES ∧ r.probes.map Prod.fst = PROBES.map DiagProbe.label)) ∨
    ∃ t, r.kind = .trace t ∧ cmds = lib.traceCommand r.handle t ++ t.key.cleanup.toList ∧ r.subscribed = false

/-- A turn leaves alone what only frames change. -/
def Keeps (r r' : DiagRun M V) : Prop :=
  r'.kind = r.kind ∧ r'.handle = r.handle ∧ r'.captured = r.captured ∧ r'.overflow = r.overflow

variable (lib) in
theorem nextProbe_keeps (r : DiagRun M V) (now : DiagSnapshot V) (rest : List DiagProbe) :
    r.Keeps (r.nextProbe lib now rest).1 := by
  induction rest generalizing r with
  | nil => exact ⟨rfl, rfl, rfl, rfl⟩
  | cons p rest ih =>
    rw [nextProbe]
    split_ifs
    · exact ⟨rfl, rfl, rfl, rfl⟩
    · exact ih { r with probes := r.probes ++ [(p.label, ⟨.notInLib, none⟩)] }

variable (lib) in
theorem openTrace_keeps (r : DiagRun M V) (t : TraceRequest) (now : DiagSnapshot V) :
    r.Keeps (r.openTrace lib t now).1 := by
  simp only [openTrace]
  split
  · exact ⟨rfl, rfl, rfl, rfl⟩
  · split_ifs <;> exact ⟨rfl, rfl, rfl, rfl⟩

theorem closeTrace_keeps (r : DiagRun M V) (t : TraceRequest) (how : DiagEnd) :
    r.Keeps (r.closeTrace t how).1 := by
  simp only [closeTrace]
  split <;> exact ⟨rfl, rfl, rfl, rfl⟩

/-- The loop goes on behind the probes that are done. -/
theorem nextProbe_stage (now : DiagSnapshot V) (kind : r.kind = .probe) (split : PROBES = done ++ rest)
    (labels : r.probes.map Prod.fst = done.map DiagProbe.label) :
    Stage lib (r.nextProbe lib now rest).1 (lib.probeCommands done ++ (r.nextProbe lib now rest).2) := by
  induction rest generalizing r done with
  | nil =>
    rw [List.append_nil] at split
    rw [← split] at labels ⊢
    rw [nextProbe, finish, List.append_nil]
    exact .inl ⟨kind, List.prefix_refl _, fun _ => ⟨rfl, labels⟩⟩
  | cons p rest ih =>
    rw [nextProbe]
    split_ifs with present
    · refine ⟨kind, done, split, ?_, labels⟩
      simp [DiagLibrary.probeCommands, present]
    · have skipped : lib.probeCommands (done ++ [p]) = lib.probeCommands done := by
        simp [DiagLibrary.probeCommands, present]
      rw [← skipped]
      refine ih kind (by rw [split, List.append_assoc, List.singleton_append]) ?_
      rw [List.map_append, labels, List.map_append]
      rfl

theorem split_behind {p : DiagProbe} (split : PROBES = done ++ p :: rest) : PROBES = done ++ [p] ++ rest := by
  rw [split, List.append_assoc, List.singleton_append]

/-- The probe that was under way gets its entry. -/
theorem labels_behind {entries : List (String × ProbeEntry)} {p : DiagProbe} {entry : ProbeEntry}
    (labels : entries.map Prod.fst = done.map DiagProbe.label) :
    (entries ++ [(p.label, entry)]).map Prod.fst = (done ++ [p]).map DiagProbe.label := by
  rw [List.map_append, labels, List.map_append]
  rfl

theorem openTrace_stage {t : TraceRequest} (now : DiagSnapshot V) (kind : r.kind = .trace t) :
    Stage lib (r.openTrace lib t now).1 (r.openTrace lib t now).2 := by
  simp only [openTrace]
  split
  · next nothing => exact ⟨t, kind, by simp [DiagLibrary.traceCommand, nothing]⟩
  · next c command =>
    split_ifs with present
    · exact ⟨t, kind, by simp [DiagLibrary.traceCommand, command, Option.filter, present]⟩
    · exact ⟨t, kind, by simp [DiagLibrary.traceCommand, command, Option.filter, present]⟩

theorem closeTrace_stage {t : TraceRequest} (how : DiagEnd) (kind : r.kind = .trace t)
    (sent : cmds = lib.traceCommand r.handle t) :
    Stage lib (r.closeTrace t how).1 (cmds ++ (r.closeTrace t how).2) := by
  simp only [closeTrace]
  cases last : t.key.cleanup with
  | some c => exact ⟨t, kind, by rw [sent, last]; rfl, rfl⟩
  | none => exact .inr ⟨t, kind, by rw [sent, last]; rfl, rfl⟩

variable (lib) in
theorem start_spec (kind : DiagKind) (handle : ℕ) (now : DiagSnapshot V) :
    Stage lib (start lib kind handle now : DiagTurn M V).1 (start lib kind handle now : DiagTurn M V).2 ∧
      (start lib kind handle now : DiagTurn M V).1.captured = [] ∧
      (start lib kind handle now : DiagTurn M V).1.overflow = 0 := by
  cases kind with
  | probe =>
    have keeps := nextProbe_keeps lib
      (⟨.probe, handle, .ended .answered, [], false, [], 0, none, none, false⟩ : DiagRun M V) now PROBES
    have all : PROBES = [] ++ PROBES := rfl
    exact ⟨nextProbe_stage now rfl all rfl, keeps.2.2.1, keeps.2.2.2⟩
  | trace t =>
    have keeps := openTrace_keeps lib
      (⟨.trace t, handle, .ended .answered, [], false, [], 0, none, none, false⟩ : DiagRun M V) t now
    exact ⟨openTrace_stage now rfl, keeps.2.2.1, keeps.2.2.2⟩

/-- What a turn does: it is had by an active run, goes on from what was sent, and leaves the frames alone. -/
structure Turns (lib : DiagLibrary) (r : DiagRun M V) (turn : DiagTurn M V) : Prop where
  active : r.pc.isEnded = false
  stage : ∀ cmds, Stage lib r cmds → Stage lib turn.1 (cmds ++ turn.2)
  keeps : r.Keeps turn.1

theorem sendOver_turns {ok : Bool} {now : DiagSnapshot V} (turned : r.sendOver lib ok now = some turn) :
    Turns lib r turn := by
  rw [sendOver] at turned
  cases pc : r.pc with
  | probing before p rest =>
    simp only [pc, Option.some.injEq] at turned
    subst turned
    refine ⟨by rw [pc]; rfl, fun cmds stage => ?_, ?_⟩
    · rw [Stage, pc] at stage
      obtain ⟨kind, done, split, sent, labels⟩ := stage
      split_ifs
      · exact ⟨kind, done, split, by rw [List.append_nil]; exact sent, labels⟩
      · rw [sent]
        exact nextProbe_stage now kind (split_behind split) (labels_behind labels)
    · split_ifs
      · exact ⟨rfl, rfl, rfl, rfl⟩
      · exact nextProbe_keeps lib
          { r with pc := .probing before p rest, probes := r.probes ++ [(p.label, ⟨.error, none⟩)] } now rest
  | sending =>
    simp only [pc, Option.some.injEq] at turned
    subst turned
    refine ⟨by rw [pc]; rfl, fun cmds stage => ?_, ⟨rfl, rfl, rfl, rfl⟩⟩
    rw [Stage, pc] at stage
    rw [List.append_nil]
    exact stage
  | cleaning how =>
    simp only [pc, Option.some.injEq] at turned
    subst turned
    refine ⟨by rw [pc]; rfl, fun cmds stage => ?_, ⟨rfl, rfl, rfl, rfl⟩⟩
    rw [Stage, pc] at stage
    rw [finish, List.append_nil]
    exact .inr stage
  | waiting | listening | ended => simp only [pc, reduceCtorEq] at turned

theorem sleepOver_turns [DecidableEq V] {nonzero : V → Bool} {now : DiagSnapshot V}
    (turned : r.sleepOver lib nonzero now = some turn) : Turns lib r turn := by
  rw [sleepOver] at turned
  cases pc : r.pc with
  | waiting before p rest =>
    simp only [pc, Option.some.injEq] at turned
    subst turned
    refine ⟨by rw [pc]; rfl, fun cmds stage => ?_, ?_⟩
    · rw [Stage, pc] at stage
      obtain ⟨kind, done, split, sent, labels⟩ := stage
      rw [sent]
      exact nextProbe_stage now kind (split_behind split) (labels_behind labels)
    · exact nextProbe_keeps lib
        { r with pc := .waiting before p rest, probes := r.probes ++ [(p.label, p.entry nonzero before now)] } now rest
  | listening =>
    cases kind : r.kind with
    | probe => simp only [pc, kind, reduceCtorEq] at turned
    | trace t =>
      simp only [pc, kind, Option.some.injEq] at turned
      subst turned
      refine ⟨by rw [pc]; rfl, fun cmds stage => ?_, ?_⟩
      · rw [Stage, pc] at stage
        obtain ⟨t', kind', sent⟩ := stage
        cases kind.symm.trans kind'
        exact closeTrace_stage .answered rfl sent
      · rw [Keeps, kind]
        exact closeTrace_keeps { r with kind := .trace t, pc := .listening, after := some now } t .answered
  | probing | sending | cleaning | ended => simp only [pc, reduceCtorEq] at turned

theorem cancel_turns (turned : r.cancel = some turn) : Turns lib r turn := by
  rw [cancel] at turned
  cases pc : r.pc with
  | probing before p rest | waiting before p rest =>
    simp only [pc, Option.some.injEq] at turned
    subst turned
    refine ⟨by rw [pc]; rfl, fun cmds stage => ?_, ⟨rfl, rfl, rfl, rfl⟩⟩
    rw [Stage, pc] at stage
    obtain ⟨kind, done, split, sent, labels⟩ := stage
    rw [finish, List.append_nil]
    exact .inl ⟨kind, sent ▸ DiagLibrary.probeCommands_prefix split, nofun⟩
  | cleaning how =>
    simp only [pc, Option.some.injEq] at turned
    subst turned
    refine ⟨by rw [pc]; rfl, fun cmds stage => ?_, ⟨rfl, rfl, rfl, rfl⟩⟩
    rw [Stage, pc] at stage
    rw [finish, List.append_nil]
    exact .inr stage
  | sending | listening =>
    cases kind : r.kind with
    | probe => simp only [pc, kind, reduceCtorEq] at turned
    | trace t =>
      simp only [pc, kind, Option.some.injEq] at turned
      subst turned
      refine ⟨by rw [pc]; rfl, fun cmds stage => ?_, closeTrace_keeps r t .cancelled⟩
      rw [Stage, pc] at stage
      obtain ⟨t', kind', sent⟩ := stage
      cases kind.symm.trans kind'
      exact closeTrace_stage .cancelled kind sent
  | ended => simp only [pc, reduceCtorEq] at turned

theorem onMsg_rest (r : DiagRun M V) (msg : M) : (r.onMsg msg).pc = r.pc ∧ (r.onMsg msg).kind = r.kind ∧
    (r.onMsg msg).handle = r.handle ∧ (r.onMsg msg).probes = r.probes ∧ (r.onMsg msg).subscribed = r.subscribed := by
  rw [onMsg]
  split_ifs <;> exact ⟨rfl, rfl, rfl, rfl, rfl⟩

theorem hear_rest (r : DiagRun M V) (handle : ℕ) (msg : M) :
    (r.hear handle msg).pc = r.pc ∧ (r.hear handle msg).kind = r.kind ∧ (r.hear handle msg).handle = r.handle ∧
      (r.hear handle msg).probes = r.probes ∧ (r.hear handle msg).subscribed = r.subscribed := by
  rw [hear]
  split_ifs
  · exact onMsg_rest r msg
  · exact ⟨rfl, rfl, rfl, rfl, rfl⟩

theorem Stage.hear {handle : ℕ} {msg : M} (stage : Stage lib r cmds) : Stage lib (r.hear handle msg) cmds := by
  obtain ⟨pc, kind, handle_, probes, subscribed⟩ := hear_rest r handle msg
  simp only [Stage, pc, kind, handle_, probes, subscribed]
  exact stage

end DiagRun

namespace Diagnostics

variable {s t : Diagnostics M V} {i : ℕ} {es : List (DiagEvent M V)} {e : DiagEvent M V}

/-- What the handler of run `i` hears when an event happens. -/
def hears (s : Diagnostics M V) (i : ℕ) : DiagEvent M V → List M
  | .frame handle msg => if s.runs[i]?.any fun r => r.subscribed && r.handle = handle then [msg] else []
  | _ => []

variable (lib) in
theorem request_cases (s : Diagnostics M V) (handle : Option ℕ) (kind : Except DiagRefusal DiagKind)
    (now : DiagSnapshot V) : s.request lib handle kind now = s ∨
      s.locked = false ∧ ∃ k h, s.request lib handle kind now = s.enter runEnded (DiagRun.start lib k h now) := by
  rw [request]
  cases admitted : s.checkRequest handle kind with
  | error _ => exact .inl rfl
  | ok run =>
    refine .inr ⟨?_, run.2, run.1, rfl⟩
    cases handle with
    | none => cases admitted
    | some h =>
      cases kind with
      | error _ => cases admitted
      | ok k =>
        by_contra held
        have refused : s.checkRequest (some h) (.ok k) = .error .busy := if_pos ((Bool.not_eq_false _).mp held)
        cases admitted.symm.trans refused

theorem turn_cases {next : DiagRun M V → Option (DiagTurn M V)} (had : s.turn i next = some t) :
    ∃ r turn, s.runs[i]? = some r ∧ next r = some turn ∧ t = s.resume runEnded i turn := by
  obtain ⟨turn, found, rfl⟩ := Option.map_eq_some_iff.mp had
  obtain ⟨r, at_, next⟩ := Option.bind_eq_some_iff.mp found
  exact ⟨r, turn, at_, next, rfl⟩

section Step

variable [DecidableEq V] {nonzero : V → Bool}

/-- A step is a refusal, the start of a run while the lock is free, a turn of an active run, or a frame. -/
theorem step_cases (stepped : step lib nonzero s e = some t) :
    (t = s ∧ ∀ i, s.hears i e = []) ∨
    (s.locked = false ∧ (∀ i, s.hears i e = []) ∧ ∃ k h now, t = s.enter runEnded (DiagRun.start lib k h now)) ∨
    ((∀ i, s.hears i e = []) ∧ ∃ i r turn, s.runs[i]? = some r ∧ r.Turns lib turn ∧ t = s.resume runEnded i turn) ∨
    ∃ handle msg, e = .frame handle msg ∧ t = s.revise fun r => r.hear handle msg := by
  cases e with
  | probe handle now =>
    cases stepped
    obtain same | ⟨free, k, h, entered⟩ := request_cases lib s handle (.ok .probe) now
    · exact .inl ⟨same, fun _ => rfl⟩
    · exact .inr (.inl ⟨free, fun _ => rfl, k, h, now, entered⟩)
  | trace handle body now =>
    cases stepped
    obtain same | ⟨free, k, h, entered⟩ := request_cases lib s handle (body.request.map .trace) now
    · exact .inl ⟨same, fun _ => rfl⟩
    · exact .inr (.inl ⟨free, fun _ => rfl, k, h, now, entered⟩)
  | sent i ok now =>
    obtain ⟨r, turn, at_, turned, rfl⟩ := turn_cases stepped
    exact .inr (.inr (.inl ⟨fun _ => rfl, i, r, turn, at_, DiagRun.sendOver_turns turned, rfl⟩))
  | slept i now =>
    obtain ⟨r, turn, at_, turned, rfl⟩ := turn_cases stepped
    exact .inr (.inr (.inl ⟨fun _ => rfl, i, r, turn, at_, DiagRun.sleepOver_turns turned, rfl⟩))
  | cancelled i =>
    obtain ⟨r, turn, at_, turned, rfl⟩ := turn_cases stepped
    exact .inr (.inr (.inl ⟨fun _ => rfl, i, r, turn, at_, DiagRun.cancel_turns turned, rfl⟩))
  | frame handle msg =>
    cases stepped
    exact .inr (.inr (.inr ⟨handle, msg, rfl, rfl⟩))

theorem exclusive_step (exclusive : TryLock.Exclusive runEnded s) (stepped : step lib nonzero s e = some t) :
    TryLock.Exclusive runEnded t := by
  obtain ⟨rfl, _⟩ | ⟨free, _, k, h, now, rfl⟩ | ⟨_, i, r, turn, at_, turns, rfl⟩ | ⟨handle, msg, _, rfl⟩ :=
    step_cases stepped
  · exact exclusive
  · exact exclusive.enter free _
  · exact exclusive.resume at_ turns.active turn
  · refine exclusive.revise fun r => ?_
    rw [runEnded, runEnded, (DiagRun.hear_rest r handle msg).1]

theorem stages_step (exclusive : TryLock.Exclusive runEnded s) (stages : TryLock.EachRun (DiagRun.Stage lib) s)
    (stepped : step lib nonzero s e = some t) : TryLock.EachRun (DiagRun.Stage lib) t := by
  obtain ⟨rfl, _⟩ | ⟨free, _, k, h, now, rfl⟩ | ⟨_, i, r, turn, at_, turns, rfl⟩ | ⟨handle, msg, _, rfl⟩ :=
    step_cases stepped
  · exact stages
  · exact stages.enter exclusive (DiagRun.start_spec lib k h now).1
  · exact stages.resume at_ turns.stage
  · exact stages.revise fun r cmds stage => stage.hear

/-- What the handler of run `i` hears along a tape. -/
def heard (lib : DiagLibrary) (nonzero : V → Bool) (i : ℕ) : Diagnostics M V → List (DiagEvent M V) → List M
  | _, [] => []
  | s, e :: es => s.hears i e ++ ((step lib nonzero s e).map fun t => heard lib nonzero i t es).getD []

theorem heard_concat (ran : run (step lib nonzero) s es = some t) :
    heard lib nonzero i s (es ++ [e]) = heard lib nonzero i s es ++ t.hears i e := by
  induction es generalizing s with
  | nil =>
    cases ran
    simp only [List.nil_append, heard]
    cases step lib nonzero t e <;> simp
  | cons first es ih =>
    obtain ⟨u, stepped, rest⟩ := Option.bind_eq_some_iff.mp ran
    simp only [List.cons_append, heard, stepped, Option.map_some, Option.getD_some, ih rest, List.append_assoc]

/-- The handlers have the first frames that they heard, and the number of the others. -/
def Captures (heard : ℕ → List M) (s : Diagnostics M V) : Prop :=
  ∀ i, (∀ r, s.runs[i]? = some r → r.captured = (heard i).take TRACE_MAX_MESSAGES ∧
    r.overflow = (heard i).length - TRACE_MAX_MESSAGES) ∧ (s.runs.length ≤ i → heard i = [])

omit [DecidableEq V] in
theorem onMsg_captures {r : DiagRun M V} {msgs : List M} (captured : r.captured = msgs.take TRACE_MAX_MESSAGES)
    (overflow : r.overflow = msgs.length - TRACE_MAX_MESSAGES) (msg : M) :
    (r.onMsg msg).captured = (msgs ++ [msg]).take TRACE_MAX_MESSAGES ∧
      (r.onMsg msg).overflow = (msgs ++ [msg]).length - TRACE_MAX_MESSAGES := by
  rw [DiagRun.onMsg, captured, List.length_take, List.length_append, List.length_singleton]
  split_ifs with room
  · have fits : msgs.length < TRACE_MAX_MESSAGES := by omega
    rw [List.take_of_length_le (by omega),
      List.take_of_length_le (by rw [List.length_append, List.length_singleton]; omega)]
    exact ⟨rfl, by dsimp only; omega⟩
  · have full : TRACE_MAX_MESSAGES ≤ msgs.length := by omega
    rw [List.take_append_of_le_length full]
    exact ⟨rfl, by dsimp only; omega⟩

theorem captures_step (captures : Captures (fun i => heard lib nonzero i init es) s)
    (ran : run (step lib nonzero) init es = some s) (stepped : step lib nonzero s e = some t) :
    Captures (fun i => heard lib nonzero i init (es ++ [e])) t := by
  simp only [heard_concat ran]
  obtain ⟨rfl, quiet⟩ | ⟨_, quiet, k, h, now, rfl⟩ | ⟨quiet, i, r, turn, at_, turns, rfl⟩ | ⟨handle, msg, rfl, rfl⟩ :=
    step_cases stepped
  · simpa only [quiet, List.append_nil] using captures
  · intro i
    simp only [quiet, List.append_nil, TryLock.enter, List.length_append, List.length_singleton]
    refine ⟨fun r at_ => ?_, fun beyond => (captures i).2 (by omega)⟩
    by_cases old : i < s.runs.length
    · rw [List.getElem?_append_left old] at at_
      exact (captures i).1 r at_
    · have bound := (List.getElem?_eq_some_iff.mp at_).1
      rw [List.length_append, List.length_singleton] at bound
      have new : i = s.runs.length := by omega
      rw [new, List.getElem?_concat_length] at at_
      cases at_
      obtain ⟨_, captured, overflow⟩ := DiagRun.start_spec (M := M) lib k h now
      have silent : heard lib nonzero i init es = [] := (captures i).2 (by omega)
      rw [silent, captured, overflow]
      exact ⟨List.take_nil.symm, (Nat.zero_sub _).symm⟩
  · intro j
    simp only [quiet, List.append_nil, TryLock.resume, List.length_set]
    refine ⟨fun r' at' => ?_, (captures j).2⟩
    by_cases same : j = i
    · subst same
      rw [List.getElem?_set_self (List.getElem?_eq_some_iff.mp at_).1] at at'
      cases at'
      obtain ⟨_, _, captured, overflow⟩ := turns.keeps
      rw [captured, overflow]
      exact (captures j).1 r at_
    · rw [List.getElem?_set_ne (Ne.symm same)] at at'
      exact (captures j).1 r' at'
  · intro i
    simp only [TryLock.revise, List.getElem?_map, List.length_map]
    refine ⟨fun r' at' => ?_, fun beyond => ?_⟩
    · obtain ⟨r, at_, rfl⟩ := Option.map_eq_some_iff.mp at'
      obtain ⟨captured, overflow⟩ := (captures i).1 r at_
      by_cases hearing : r.subscribed = true ∧ r.handle = handle
      · have now : s.hears i (.frame handle msg) = [msg] := by simp [hears, at_, hearing]
        rw [now, DiagRun.hear, if_pos hearing]
        exact onMsg_captures captured overflow msg
      · have now : s.hears i (.frame handle msg) = [] := by
          rw [hears, at_, if_neg]
          simpa using hearing
        rw [now, List.append_nil, DiagRun.hear, if_neg hearing]
        exact ⟨captured, overflow⟩
    · have silent : heard lib nonzero i init es = [] := (captures i).2 beyond
      rw [silent, hears, List.getElem?_eq_none beyond]
      rfl

/-- All of it, along a run. -/
structure Inv (lib : DiagLibrary) (nonzero : V → Bool) (es : List (DiagEvent M V)) (s : Diagnostics M V) : Prop where
  ran : run (step lib nonzero) init es = some s
  exclusive : TryLock.Exclusive runEnded s
  stages : TryLock.EachRun (DiagRun.Stage lib) s
  captures : Captures (fun i => heard lib nonzero i init es) s

theorem inv_throughout (lib : DiagLibrary) (nonzero : V → Bool) (es : List (DiagEvent M V)) :
    Throughout (step lib nonzero) (Inv lib nonzero) init es := by
  intro pre _ s reached
  refine run_invariant (I := Inv lib nonzero) ⟨rfl, .empty, fun _ _ at_ => ?_, fun i => ⟨fun _ at_ => ?_, fun _ => rfl⟩⟩
    (fun es t e u inv stepped => ?_) reached
  · cases at_
  · cases at_
  · exact ⟨run_concat_iff.mpr ⟨t, inv.ran, stepped⟩, exclusive_step inv.exclusive stepped,
      stages_step inv.exclusive inv.stages stepped, captures_step inv.captures inv.ran stepped⟩

/-- **One diagnostics run at a time.** In whatever order requests, sends, sleeps, cancellations and frames come: the
commands are those of one run after the other, at most one run is active, and requests are refused as busy while one
is and at no other time. -/
theorem diag_runs_exclusive (lib : DiagLibrary) (nonzero : V → Bool) (es : List (DiagEvent M V)) :
    Throughout (step lib nonzero) (fun _ (s : Diagnostics M V) =>
      (s.log.map Prod.fst).Pairwise (· ≤ ·) ∧
      (∀ (i j : ℕ) (r r' : DiagRun M V), s.runs[i]? = some r → s.runs[j]? = some r' → r.pc.isEnded = false →
        r'.pc.isEnded = false → i = j) ∧
      ∀ h kind, s.checkRequest (some h) (.ok kind) = .error .busy ↔ ∃ r ∈ s.runs, r.pc.isEnded = false) init es := by
  intro pre before s reached
  have exclusive := (inv_throughout lib nonzero es pre before s reached).exclusive
  refine ⟨exclusive.grouped, fun i j r r' at_ at' active active' => ?_, fun h kind => ?_⟩
  · exact exclusive.eq_of_active at_ active at' active'
  · refine Iff.trans ?_ exclusive.held
    change (if s.locked then Except.error DiagRefusal.busy else Except.ok (h, kind)) = _ ↔ _
    split_ifs with held
    · exact ⟨fun _ => held, fun _ => rfl⟩
    · exact ⟨nofun, fun now => absurd now held⟩

/-- **What a diagnostics run does.** A capability run sends the probes that the library has in their order and, when it
answers, has sent all and reports all. A trace keeps the first frames that its handler hears and counts the others;
once it has ended, in whatever way, its handler is gone, and it has sent its command and then the one that cleans
up after it. -/
theorem diag_runs_complete (lib : DiagLibrary) (nonzero : V → Bool) (es : List (DiagEvent M V)) :
    Throughout (step lib nonzero) (fun es s => ∀ i r, s.runs[i]? = some r →
      (r.kind = .probe → s.logOf i <+: lib.probeCommands PROBES ∧ (r.pc = .ended .answered →
        s.logOf i = lib.probeCommands PROBES ∧ r.probes.map Prod.fst = PROBES.map DiagProbe.label)) ∧
      ∀ t, r.kind = .trace t →
        r.captured = (heard lib nonzero i init es).take TRACE_MAX_MESSAGES ∧
        r.overflow = (heard lib nonzero i init es).length - TRACE_MAX_MESSAGES ∧
        (r.pc.isEnded = true → r.subscribed = false ∧
          s.logOf i = lib.traceCommand r.handle t ++ t.key.cleanup.toList)) init es := by
  intro pre before s reached i r at_
  have inv := inv_throughout lib nonzero es pre before s reached
  have stage := inv.stages i r at_
  refine ⟨fun kind => ?_, fun t kind => ⟨((inv.captures i).1 r at_).1, ((inv.captures i).1 r at_).2, fun ended => ?_⟩⟩
  · rw [DiagRun.Stage] at stage
    cases pc : r.pc with
    | probing _ p rest | waiting _ p rest =>
      rw [pc] at stage
      obtain ⟨_, done, split, sent, _⟩ := stage
      exact ⟨sent ▸ DiagLibrary.probeCommands_prefix split, nofun⟩
    | sending | listening | cleaning =>
      rw [pc] at stage
      obtain ⟨t, other, _⟩ := stage
      cases kind.symm.trans other
    | ended how =>
      rw [pc] at stage
      obtain ⟨_, sent, all⟩ | ⟨t, other, _⟩ := stage
      · exact ⟨sent, fun answered => all (by cases answered; rfl)⟩
      · cases kind.symm.trans other
  · rw [DiagRun.Stage] at stage
    cases pc : r.pc with
    | ended how =>
      rw [pc] at stage
      obtain ⟨other, _⟩ | ⟨t', kind', sent, quiet⟩ := stage
      · cases kind.symm.trans other
      · cases kind.symm.trans kind'
        exact ⟨quiet, sent⟩
    | probing | waiting | sending | listening | cleaning =>
      rw [pc] at ended
      cases ended

end Step

end Diagnostics

end MammotionRc.Server
