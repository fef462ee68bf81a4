import Mathlib.Tactic.IntervalCases
import MammotionRc.Firmware.Downlink
import MammotionRc.Soundness.LoopSteps

/-! # Sessions do not share notifications

`notify_queue_` is only emptied by `on_client_disconnected_`. A notification that is pushed after that, or
while a connect attempt fails, stays in the queue until the next client is served. In runs in which the
queue is empty whenever a client is accepted, a client is only sent what was pushed since; the order of
arrival is kept in every run.
-/

namespace MammotionRc.Firmware

open Framing Machine LoopTask

namespace Downlink

/-- Sessions do not mix: what a client is sent was pushed after `on_client_connected_` began, and arrives
in order and once. -/
structure SessionsApart (s : Downlink) : Prop where
  fresh : ∀ client ∈ s.clients, ∀ notification ∈ client.sent, client.pushed ≤ notification.number
  ordered : ∀ client ∈ s.clients, (client.sent.map Notification.number).Pairwise (· < ·)

/-- A client is accepted with nothing in `notify_queue_`. -/
def AcceptsEmpty (s : Downlink) : Event → Prop
  | .accept (some _) => s.task.proxy.notifyQueue = []
  | _ => True

/-- The record shows what is in `notify_queue_`. -/
def Queued (s : Downlink) : Prop := s.queued.map Notification.data = s.task.proxy.notifyQueue

variable {s t : Downlink} {e : Event} {task : LoopTask}

theorem Queued.eq_nil (queue : Queued s) (empty : s.task.proxy.notifyQueue = []) : s.queued = [] :=
  List.map_eq_nil_iff.mp (queue.trans empty)

/-- What `drain_notify_queue_` takes from the queue. -/
theorem Queued.head (queue : Queued s) {frame : Bytes} {rest : List Bytes}
    (front : s.task.proxy.notifyQueue = frame :: rest) : ∃ notification later,
      s.queued = notification :: later ∧ notification.data = frame ∧ later.map Notification.data = rest :=
  List.map_eq_cons_iff.mp (queue.trans front)

theorem Queued.step (queue : Queued s) (stepped : s.step e = some t) : Queued t := by
  obtain ⟨task, ran, rfl⟩ := Option.map_eq_some_iff.mp stepped
  cases step_effect ran with
  | notify data =>
    simp only [observe, TcpProxy.notifyCallback]
    split_ifs
    · rw [Queued, List.map_append, show s.queued.map Notification.data = _ from queue]
      rfl
    · exact queue
  | cleared was =>
    simp only [observe, TcpProxy.swapQueue]
    split_ifs
    · rfl
    · exact queue
  | poll was event polls =>
    cases e <;> cases event <;> exact queue.trans polls.notifyQueue.symm
  | drains was mutex front =>
    obtain ⟨notification, later, queued, _, remaining⟩ := queue.head front
    simp only [observe, mutex, queued]
    exact remaining
  | drained was empty =>
    simp only [observe]
    split
    · next mutex queued =>
      rw [Queued, queued, empty mutex] at queue
      cases queue
    · exact queue
  | _ => exact queue

/-- A property of all clients' records that an addition to the latest of them keeps. -/
theorem forall_latest {clients : List ClientRecord} {add : ClientRecord → ClientRecord}
    {P : ClientRecord → Prop} (all : ∀ client ∈ clients, P client)
    (keeps : ∀ client ∈ clients, P client → P (add client)) : ∀ client ∈ latest clients add, P client := by
  cases clients with
  | nil => exact all
  | cons cur older =>
    intro client mem
    rcases List.mem_cons.mp mem with rfl | earlier
    · exact keeps cur List.mem_cons_self (all cur List.mem_cons_self)
    · exact all client (List.mem_cons_of_mem _ earlier)

/-- Numbers grow from what was sent over what is in the queue to what will be pushed. -/
structure OrderInvariant (s : Downlink) : Prop where
  queued : (s.queued.map Notification.number).Pairwise (· < ·)
  next : ∀ notification ∈ s.queued, notification.number < s.pushed
  sent : ∀ client ∈ s.clients, (client.sent.map Notification.number).Pairwise (· < ·)
  older : ∀ client ∈ s.clients, ∀ earlier ∈ client.sent,
    earlier.number < s.pushed ∧ ∀ later ∈ s.queued, earlier.number < later.number

theorem pairwise_concat {notifications : List Notification} {n : Notification}
    (sorted : (notifications.map Notification.number).Pairwise (· < ·))
    (below : ∀ earlier ∈ notifications, earlier.number < n.number) :
    ((notifications ++ [n]).map Notification.number).Pairwise (· < ·) := by
  rw [List.map_append, List.pairwise_append]
  refine ⟨sorted, List.pairwise_singleton _ _, fun a mem b single => ?_⟩
  obtain ⟨earlier, among, rfl⟩ := List.mem_map.mp mem
  rw [List.mem_singleton.mp single]
  exact below earlier among

theorem OrderInvariant.drains (inv : OrderInvariant s) {notification : Notification}
    {rest : List Notification} (queue : s.queued = notification :: rest) :
    OrderInvariant { s with
      task := task
      queued := rest
      clients := latest s.clients fun cur => { cur with
        drained := cur.drained ++ [notification]
        sent := if s.task.client.connected then cur.sent ++ [notification] else cur.sent } } := by
  have here : notification ∈ s.queued := by
    rw [queue]
    exact List.mem_cons_self
  have later : ∀ n ∈ rest, n ∈ s.queued := fun n mem => by
    rw [queue]
    exact List.mem_cons_of_mem _ mem
  have sorted := inv.queued
  rw [queue, List.map_cons, List.pairwise_cons] at sorted
  refine ⟨sorted.2, fun n mem => inv.next n (later n mem), forall_latest inv.sent fun client mem ordered => ?_,
    forall_latest (fun client mem earlier sent => ?_) fun client mem before earlier sent => ?_⟩
  · dsimp only
    split_ifs
    · exact pairwise_concat ordered fun earlier sent => (inv.older client mem earlier sent).2 _ here
    · exact ordered
  · obtain ⟨past, ahead⟩ := inv.older client mem earlier sent
    exact ⟨past, fun n among => ahead n (later n among)⟩
  · dsimp only at sent
    split_ifs at sent
    · rcases List.mem_append.mp sent with old | new
      · exact before earlier old
      · rw [List.mem_singleton.mp new]
        exact ⟨inv.next _ here, fun n among => sorted.1 _ (List.mem_map_of_mem among)⟩
    · exact before earlier sent

theorem OrderInvariant.observe (inv : OrderInvariant s) (e : Event) (task : LoopTask) :
    OrderInvariant (s.observe e task) := by
  have kept : OrderInvariant { s with task := task } := ⟨inv.queued, inv.next, inv.sent, inv.older⟩
  cases e with
  | notify data =>
    simp only [Downlink.observe]
    split_ifs
    · refine ⟨pairwise_concat inv.queued inv.next, fun n mem => ?_, inv.sent, fun client mem earlier sent => ?_⟩
      · rcases List.mem_append.mp mem with old | new
        · exact Nat.lt_succ_of_lt (inv.next n old)
        · rw [List.mem_singleton.mp new]
          exact Nat.lt_succ_self _
      · obtain ⟨past, ahead⟩ := inv.older client mem earlier sent
        refine ⟨Nat.lt_succ_of_lt past, fun later among => ?_⟩
        rcases List.mem_append.mp among with old | new
        · exact ahead later old
        · rw [List.mem_singleton.mp new]
          exact past
    · exact kept
  | clearQueue =>
    simp only [Downlink.observe]
    split_ifs
    · exact ⟨.nil, fun _ mem => absurd mem List.not_mem_nil, inv.sent, fun client mem earlier sent =>
        ⟨(inv.older client mem earlier sent).1, fun _ among => absurd among List.not_mem_nil⟩⟩
    · exact kept
  | accept incoming =>
    cases incoming with
    | none => exact kept
    | some stream =>
      refine ⟨inv.queued, inv.next, fun client mem => ?_, fun client mem => ?_⟩
      · rcases List.mem_cons.mp mem with rfl | earlier
        · exact .nil
        · exact inv.sent client earlier
      · rcases List.mem_cons.mp mem with rfl | earlier
        · exact fun _ sent => absurd sent List.not_mem_nil
        · exact inv.older client earlier
  | drain =>
    simp only [Downlink.observe]
    split
    · next queued => exact inv.drains queued
    · exact kept
  | clientWrite data accepted gaveUp =>
    exact ⟨inv.queued, inv.next, forall_latest inv.sent fun _ _ => id, forall_latest inv.older fun _ _ => id⟩
  | _ => exact kept

/-! ## Freshness -/

/-- What was sent, or may be sent next, was pushed since the client was accepted. -/
structure FreshInvariant (s : Downlink) : Prop where
  sent : ∀ client ∈ s.clients, ∀ notification ∈ client.sent, client.pushed ≤ notification.number
  past : ∀ client ∈ s.clients, client.pushed ≤ s.pushed
  queued : ∀ client ∈ s.clients, ∀ notification ∈ s.queued, client.pushed ≤ notification.number

theorem FreshInvariant.observe (inv : FreshInvariant s) (queue : Queued s) (accepts : s.AcceptsEmpty e)
    (task : LoopTask) : FreshInvariant (s.observe e task) := by
  have kept : FreshInvariant { s with task := task } := ⟨inv.sent, inv.past, inv.queued⟩
  cases e with
  | notify data =>
    simp only [Downlink.observe]
    split_ifs
    · refine ⟨inv.sent, fun client mem => Nat.le_succ_of_le (inv.past client mem), fun client mem n among => ?_⟩
      rcases List.mem_append.mp among with old | new
      · exact inv.queued client mem n old
      · rw [List.mem_singleton.mp new]
        exact inv.past client mem
    · exact kept
  | clearQueue =>
    simp only [Downlink.observe]
    split_ifs
    · exact ⟨inv.sent, inv.past, fun _ _ _ among => absurd among List.not_mem_nil⟩
    · exact kept
  | accept incoming =>
    cases incoming with
    | none => exact kept
    | some stream =>
      have empty : s.queued = [] := queue.eq_nil accepts
      refine ⟨fun client mem => ?_, fun client mem => ?_, fun client _ n among => ?_⟩
      · rcases List.mem_cons.mp mem with rfl | earlier
        · exact fun _ sent => absurd sent List.not_mem_nil
        · exact inv.sent client earlier
      · rcases List.mem_cons.mp mem with rfl | earlier
        · exact le_rfl
        · exact inv.past client earlier
      · simp only [Downlink.observe, empty] at among
        exact absurd among List.not_mem_nil
  | drain =>
    simp only [Downlink.observe]
    split
    · next notification rest mutex front =>
      refine ⟨forall_latest inv.sent fun client mem fresh n sent => ?_, forall_latest inv.past fun _ _ => id,
        forall_latest (fun client mem n among => ?_) fun _ _ => id⟩
      · dsimp only at sent
        split_ifs at sent
        · rcases List.mem_append.mp sent with old | new
          · exact fresh n old
          · rw [List.mem_singleton.mp new]
            exact inv.queued client mem notification (by rw [front]; exact List.mem_cons_self)
        · exact fresh n sent
      · exact inv.queued client mem n (by rw [front]; exact List.mem_cons_of_mem _ among)
    · exact kept
  | clientWrite data accepted gaveUp =>
    exact ⟨forall_latest inv.sent fun _ _ => id, forall_latest inv.past fun _ _ => id,
      forall_latest inv.queued fun _ _ => id⟩
  | _ => exact kept

theorem orderInvariant_of_run {mutex : Bool} {es : List Event} (ran : run step (init mutex) es = some s) :
    OrderInvariant s := by
  refine run_invariant (I := fun _ => OrderInvariant) ?_ ?_ ran
  · exact ⟨.nil, fun _ mem => absurd mem List.not_mem_nil, fun _ mem => absurd mem List.not_mem_nil,
      fun _ mem => absurd mem List.not_mem_nil⟩
  · intro es s e t inv stepped
    obtain ⟨task, _, rfl⟩ := Option.map_eq_some_iff.mp stepped
    exact inv.observe e task

/-- **Sessions do not share notifications**: in every run in which clients are accepted with an empty queue,
each of them is only sent what was pushed since, in the order of arrival and once. -/
theorem sessions_apart (mutex : Bool) (es : List Event) (s : Downlink)
    (accepts : Meets step (fun _ => AcceptsEmpty) (init mutex) es) (ran : run step (init mutex) es = some s) :
    s.SessionsApart := by
  have inv : Queued s ∧ FreshInvariant s := by
    refine run_invariant_of_meets (I := fun _ s => Queued s ∧ FreshInvariant s)
      ⟨show Queued (init mutex) from rfl, ?_⟩ ?_ accepts ran
    · exact ⟨fun _ mem => absurd mem List.not_mem_nil, fun _ mem => absurd mem List.not_mem_nil,
        fun _ mem => absurd mem List.not_mem_nil⟩
    · rintro es s e t ⟨queue, inv⟩ accepts stepped
      refine ⟨queue.step stepped, ?_⟩
      obtain ⟨task, _, rfl⟩ := Option.map_eq_some_iff.mp stepped
      exact inv.observe queue accepts task
  exact ⟨inv.2.sent, (orderInvariant_of_run ran).sent⟩

/-- A client is served, gets the notification in the queue and closes. -/
def servedOnce : List Event :=
  [.connected, .accept (some []), .connectMower true, .notify [1], .connected, .idleCheck, .available 0, .drain,
    .clientWrite [0, 1] 2 false, .clientWrite [1] 1 false, .drain, .peerClose, .connected]

/-- The next client is accepted, and gets the notification in the queue. -/
def servedAgain (data : Bytes) : List Event :=
  [.accept (some []), .connectMower true, .connected, .idleCheck, .available 0, .drain,
    .clientWrite [0, 1] 2 false, .clientWrite data 1 false]

/-- A notification arrives between the two, before the queue is emptied. -/
def clearedLate : List Event :=
  servedOnce ++ [.notify [2], .disconnectMower, .clearQueue, .accept (some []), .connectMower true,
    .notify [3], .connected, .idleCheck, .available 0, .drain, .clientWrite [0, 1] 2 false,
    .clientWrite [3] 1 false]

theorem sessions_apart_clearedLate :
    ∃ s, run step (init true) clearedLate = some s ∧ s.SessionsApart ∧
      s.clients.map ClientRecord.sent = [[⟨2, [3]⟩], [⟨0, [1]⟩]] := by
  obtain ⟨s, ran, sent⟩ : ∃ s, run step (init true) clearedLate = some s ∧
      s.clients.map ClientRecord.sent = [[⟨2, [3]⟩], [⟨0, [1]⟩]] := ⟨_, rfl, rfl⟩
  refine ⟨s, ran, sessions_apart true clearedLate s (.of_getElem fun n e at_ t reached => ?_) ran, sent⟩
  have short : n < 25 := (List.getElem?_eq_some_iff.mp at_).1
  interval_cases n <;> cases at_ <;> first | trivial | (cases reached; rfl)

/-- A notification arrives between the two, after the queue was emptied: the termination of the BLE link
completes late. -/
def leakedNotification : List Event :=
  servedOnce ++ [.disconnectMower, .clearQueue, .accept none, .notify [2], .connected] ++ servedAgain [2]

theorem leakedNotification_not_apart :
    ∃ s, run step (init true) leakedNotification = some s ∧ ¬ s.SessionsApart := by
  obtain ⟨s, cur, older, ran, clients, pushed, sent⟩ : ∃ s cur older,
      run step (init true) leakedNotification = some s ∧ s.clients = cur :: older ∧ cur.pushed = 2 ∧
        cur.sent = [⟨1, [2]⟩] := ⟨_, _, _, rfl, rfl, rfl, rfl⟩
  refine ⟨s, ran, fun holds => ?_⟩
  have fresh := holds.fresh cur (by rw [clients]; exact List.mem_cons_self) ⟨1, [2]⟩
    (by rw [sent]; exact List.mem_singleton_self _)
  rw [pushed] at fresh
  exact absurd fresh (by decide)

end Downlink

end MammotionRc.Firmware
