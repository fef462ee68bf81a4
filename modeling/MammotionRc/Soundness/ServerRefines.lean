import MammotionRc.Firmware.HalowServer
import MammotionRc.Machine.Simulation

/-! # The server hands out its clients in order

`HalowServer` is a queue of clients. `hasClient` looks at its front, and `accept` takes the front off and hands it out,
or loses it if an option of its socket cannot be set. That the front may be kept by the library while the rest is kept
by lwIP is not seen from outside, but for one thing: a client that was seen is still reported after the server was
stopped, and never handed out.
-/

namespace MammotionRc.Firmware

open Machine

variable {Peer : Type*}

/-- What a call of the server shows. -/
inductive ServerObservation (Peer : Type*)
  /-- The server listens now. -/
  | begin (listening : Bool)
  | setNoDelay (nodelay : Bool)
  | hasClient (full answer : Bool)
  /-- The client that is handed out, or else the one that is lost. -/
  | accept (full : Bool) (client : Option (AcceptedClient Peer)) (lost : Option Peer)
  /-- `seen` if a client is kept. -/
  | stop (seen : Bool)
  | arrive (peer : Peer)
  /-- Client `k` of those that wait is gone. -/
  | abort (k : ℕ)

def ServerObservation.dropping : ServerObservation Peer → Bool
  | .stop _ | .abort _ => true
  | _ => false

namespace HalowServer

/-- The clients that were not handed out. -/
def waiting (s : HalowServer Peer) : List Peer := s.acceptedSockfd.toList ++ s.backlog

/-- The client that is gone though none was handed out. -/
def lostClient (s t : HalowServer Peer) (client : Option (AcceptedClient Peer)) : Option Peer :=
  if client.isNone ∧ t.waiting.length < s.waiting.length then s.waiting.head? else none

def respond (s : HalowServer Peer) : ServerCall Peer → ServerObservation Peer × HalowServer Peer
  | .begin socket bind listen =>
    let t := s.begin socket bind listen
    (.begin t.listening, t)
  | .setNoDelay nodelay => (.setNoDelay nodelay, s.setNoDelay nodelay)
  | .hasClient full =>
    let (answer, t) := s.hasClient full
    (.hasClient full answer, t)
  | .accept answers =>
    let (client, t) := s.accept answers
    (.accept answers.full client (s.lostClient t client), t)
  | .stop => (.stop s.acceptedSockfd.isSome, s.stop)
  | .arrive peer => (.arrive peer, s.arrive peer)
  | .abort k => (.abort (s.acceptedSockfd.toList.length + k), s.abort k)

end HalowServer

/-- A server as its callers see it. -/
structure NetServer (Peer : Type*) where
  listening : Bool
  noDelay : Bool
  /-- The clients that were not handed out, the oldest first. -/
  waiting : List Peer

/-- What an observation says about the state before and after it. -/
def NetServer.Observes (n : NetServer Peer) : ServerObservation Peer → NetServer Peer → Prop
  | .begin listening, n' =>
    if listening = true ∧ n.listening = false then n' = ⟨true, false, []⟩ else n.listening = listening ∧ n' = n
  | .setNoDelay nodelay, n' => n' = { n with noDelay := nodelay }
  | .hasClient full answer, n' =>
    n' = n ∧ if answer then n.waiting ≠ [] else n.waiting = [] ∨ n.listening = false ∨ full = true
  | .accept _ (some client) lost, n' =>
    n.listening = true ∧ client.noDelay = n.noDelay ∧ lost = none ∧ n.waiting = client.peer :: n'.waiting ∧
      n' = { n with waiting := n'.waiting }
  | .accept _ none (some peer), n' =>
    n.listening = true ∧ n.waiting = peer :: n'.waiting ∧ n' = { n with waiting := n'.waiting }
  | .accept full none none, n' => n' = n ∧ (n.waiting = [] ∨ n.listening = false ∨ full = true)
  | .stop seen, n' => n' = { n with listening := false, waiting := n.waiting.take seen.toNat }
  | .arrive peer, n' => n' = { n with waiting := if n.listening then n.waiting ++ [peer] else n.waiting }
  | .abort k, n' => n' = { n with waiting := n.waiting.eraseIdx k }

namespace HalowServer

/-- The server from outside. -/
def view (s : HalowServer Peer) : NetServer Peer := ⟨s.listening, s.noDelay, s.waiting⟩

theorem hasClient_observed (s : HalowServer Peer) (full : Bool) :
    s.view.Observes (.hasClient full (s.hasClient full).1) (s.hasClient full).2.view := by
  obtain ⟨held, listening, noDelay, backlog⟩ := s
  cases held with
  | some peer => simp [hasClient, view, waiting, NetServer.Observes]
  | none =>
    cases listening with
    | false => simp [hasClient, lwipAccept, view, waiting, NetServer.Observes]
    | true =>
      cases full with
      | true => simp [hasClient, lwipAccept, view, waiting, NetServer.Observes]
      | false => cases backlog <;> simp [hasClient, lwipAccept, view, waiting, NetServer.Observes]

theorem accept_observed (s : HalowServer Peer) (answers : AcceptAnswers) :
    s.view.Observes (.accept answers.full (s.accept answers).1 (s.lostClient (s.accept answers).2 (s.accept answers).1))
      (s.accept answers).2.view := by
  obtain ⟨held, listening, noDelay, backlog⟩ := s
  cases listening with
  | false => simp [accept, lostClient, view, waiting, NetServer.Observes]
  | true =>
    cases set : answers.keepAlive && answers.tcpNoDelay with
    | false =>
      cases held with
      | some peer => simp [accept, takeClient, lostClient, view, waiting, NetServer.Observes, set]
      | none =>
        cases full : answers.full with
        | true => simp [accept, takeClient, lwipAccept, lostClient, view, waiting, NetServer.Observes, full]
        | false =>
          cases backlog <;>
            simp [accept, takeClient, lwipAccept, lostClient, view, waiting, NetServer.Observes, full, set]
    | true =>
      cases held with
      | some peer => simp [accept, takeClient, lostClient, view, waiting, NetServer.Observes, set]
      | none =>
        cases full : answers.full with
        | true => simp [accept, takeClient, lwipAccept, lostClient, view, waiting, NetServer.Observes, full]
        | false =>
          cases backlog <;>
            simp [accept, takeClient, lwipAccept, lostClient, view, waiting, NetServer.Observes, full, set]

/-- Every call is observed as one of the view. -/
theorem respond_observed (s : HalowServer Peer) (call : ServerCall Peer) :
    s.view.Observes (s.respond call).1 (s.respond call).2.view := by
  cases call with
  | begin socket bind listen =>
    cases up : s.listening <;> cases made : (socket && bind && listen) <;>
      simp [respond, begin, view, waiting, NetServer.Observes, up, made]
  | setNoDelay nodelay => rfl
  | hasClient full => exact hasClient_observed s full
  | accept answers => exact accept_observed s answers
  | stop =>
    cases held : s.acceptedSockfd with
    | none => simp [respond, stop, view, waiting, NetServer.Observes, held]
    | some peer => simp [respond, stop, view, waiting, NetServer.Observes, held]
  | arrive peer =>
    cases up : s.listening <;> simp [respond, arrive, view, waiting, NetServer.Observes, up]
  | abort k => simp [respond, abort, view, waiting, NetServer.Observes, List.eraseIdx_append_of_length_le]

end HalowServer

namespace ServerObservation

/-- The clients that were taken off the queue, handed out or lost. -/
def taken : List (ServerObservation Peer) → List Peer
  | [] => []
  | .accept _ (some client) _ :: os => client.peer :: taken os
  | .accept _ none (some peer) :: os => peer :: taken os
  | _ :: os => taken os

/-- The peers that tried to connect. -/
def arrivals : List (ServerObservation Peer) → List Peer
  | [] => []
  | .arrive peer :: os => peer :: arrivals os
  | _ :: os => arrivals os

theorem taken_cons (o : ServerObservation Peer) (os : List (ServerObservation Peer)) :
    taken (o :: os) = taken [o] ++ taken os := by
  cases o with
  | accept full client lost => cases client <;> cases lost <;> rfl
  | begin | setNoDelay | hasClient | stop | arrive | abort => rfl

theorem arrivals_cons (o : ServerObservation Peer) (os : List (ServerObservation Peer)) :
    arrivals (o :: os) = arrivals [o] ++ arrivals os := by
  cases o <;> rfl

end ServerObservation

namespace NetServer

open ServerObservation

/-- A sequence of observations leads from one state to another. -/
def Follows (n : NetServer Peer) : List (ServerObservation Peer) → NetServer Peer → Prop
  | [], m => m = n
  | o :: os, m => ∃ k : NetServer Peer, n.Observes o k ∧ k.Follows os m

variable {n m k : NetServer Peer} {o : ServerObservation Peer} {os : List (ServerObservation Peer)}

attribute [local simp] taken arrivals

/-- One observation of a server that goes on listening. -/
theorem Observes.taken_eq (observed : n.Observes o k) (up : n.listening = true) (keeps : o.dropping = false) :
    k.listening = true ∧ taken [o] ++ k.waiting = n.waiting ++ arrivals [o] := by
  cases o with
  | begin listening =>
    rw [Observes, up, if_neg (by simp)] at observed
    obtain ⟨_, rfl⟩ := observed
    simp [up]
  | setNoDelay nodelay =>
    cases observed
    simp [up]
  | hasClient full answer =>
    obtain ⟨rfl, _⟩ := observed
    simp [up]
  | accept full client lost =>
    cases client with
    | some client =>
      obtain ⟨_, _, _, front, same⟩ := observed
      rw [same, front]
      simp [up]
    | none =>
      cases lost with
      | some peer =>
        obtain ⟨_, front, same⟩ := observed
        rw [same, front]
        simp [up]
      | none =>
        obtain ⟨rfl, _⟩ := observed
        simp [up]
  | stop | abort => cases keeps
  | arrive peer =>
    cases observed
    simp [up]

theorem Observes.sublist (observed : n.Observes o k) :
    (taken [o] ++ k.waiting).Sublist (n.waiting ++ arrivals [o]) := by
  cases o with
  | begin listening =>
    rw [Observes] at observed
    split at observed
    · cases observed
      exact List.nil_sublist _
    · obtain ⟨_, rfl⟩ := observed
      simp
  | setNoDelay nodelay =>
    cases observed
    simp
  | hasClient full answer =>
    obtain ⟨rfl, _⟩ := observed
    simp
  | accept full client lost =>
    cases client with
    | some client =>
      obtain ⟨_, _, _, front, _⟩ := observed
      simp [front]
    | none =>
      cases lost with
      | some peer =>
        obtain ⟨_, front, _⟩ := observed
        simp [front]
      | none =>
        obtain ⟨rfl, _⟩ := observed
        simp
  | stop seen =>
    cases observed
    simpa using List.take_sublist _ _
  | arrive peer =>
    cases observed
    cases n.listening <;> simp
  | abort k =>
    cases observed
    simpa using List.eraseIdx_sublist _ _

/-- No client is taken twice or out of order. -/
theorem Follows.sublist (follows : n.Follows os m) : (taken os ++ m.waiting).Sublist (n.waiting ++ arrivals os) := by
  induction os generalizing n with
  | nil =>
    cases follows
    rw [taken, arrivals, List.append_nil]
    exact List.Sublist.refl _
  | cons o os ih =>
    obtain ⟨k, observed, follows⟩ := follows
    rw [taken_cons o os, arrivals_cons o os, List.append_assoc, ← List.append_assoc n.waiting]
    exact ((ih follows).append_left _).trans (by
      rw [← List.append_assoc]
      exact observed.sublist.append_right _)

/-- While the server listens, no client gets lost without a trace. -/
theorem Follows.taken_eq (follows : n.Follows os m) (up : n.listening = true) (keeps : ∀ o ∈ os, o.dropping = false) :
    taken os ++ m.waiting = n.waiting ++ arrivals os := by
  induction os generalizing n with
  | nil =>
    cases follows
    rw [taken, arrivals, List.append_nil, List.nil_append]
  | cons o os ih =>
    obtain ⟨k, observed, follows⟩ := follows
    obtain ⟨up', first⟩ := observed.taken_eq up (keeps o List.mem_cons_self)
    have rest := ih follows up' fun o inside => keeps o (List.mem_cons_of_mem _ inside)
    calc
      taken (o :: os) ++ m.waiting = taken [o] ++ (k.waiting ++ arrivals os) := by
        rw [taken_cons o os, List.append_assoc, rest]
      _ = n.waiting ++ arrivals (o :: os) := by
        rw [← List.append_assoc, first, arrivals_cons o os, List.append_assoc]

end NetServer

open NetServer ServerObservation

theorem session_follows_view (s : HalowServer Peer) (calls : List (ServerCall Peer)) :
    s.view.Follows (session HalowServer.respond s calls).1 (session HalowServer.respond s calls).2.view := by
  induction calls generalizing s with
  | nil => rfl
  | cons call calls ih => exact ⟨_, s.respond_observed call, ih _⟩

theorem dropping_session {calls : List (ServerCall Peer)} (keeps : ∀ call ∈ calls, call.dropping = false)
    (s : HalowServer Peer) : ∀ o ∈ (session HalowServer.respond s calls).1, o.dropping = false := by
  induction calls generalizing s with
  | nil => nofun
  | cons call calls ih =>
    have here : (s.respond call).1.dropping = call.dropping := by cases call <;> rfl
    intro o inside
    obtain rfl | later := List.mem_cons.mp inside
    · exact here.trans (keeps call List.mem_cons_self)
    · exact ih (fun call inside => keeps call (List.mem_cons_of_mem _ inside)) _ o later

/-- **The server hands out its clients in order.** Whatever is called and whatever lwIP answers: every call is observed
as one of a queue of clients. The clients that were taken off it, and behind them those that wait, are peers that
connected, in their order and none of them twice. From any time on at which the server listens, until it is stopped or
lwIP drops one, they are all that waited then or connected since. -/
theorem server_hands_out (before after : List (ServerCall Peer)) :
    let first := session HalowServer.respond .init before
    let second := session HalowServer.respond first.2 after
    (NetServer.Follows (HalowServer.init : HalowServer Peer).view first.1 first.2.view ∧
      (taken first.1 ++ first.2.waiting).Sublist (arrivals first.1)) ∧
    (first.2.listening = true → (∀ call ∈ after, call.dropping = false) →
      taken second.1 ++ second.2.waiting = first.2.waiting ++ arrivals second.1) := by
  intro first second
  have follows := session_follows_view (HalowServer.init : HalowServer Peer) before
  refine ⟨⟨follows, follows.sublist⟩, fun up keeps => ?_⟩
  exact (session_follows_view first.2 after).taken_eq up (dropping_session keeps first.2)

/-- A client that was seen is handed out before one that came later. -/
theorem server_hands_out_oneClient :
    let first := session HalowServer.respond (.init : HalowServer ℕ) [.begin true true true, .setNoDelay true]
    let second := session HalowServer.respond first.2
      [.arrive 7, .hasClient false, .arrive 8, .accept ⟨false, true, true⟩]
    first.2.listening = true ∧ taken second.1 = [7] ∧
      taken second.1 ++ second.2.waiting = first.2.waiting ++ arrivals second.1 :=
  ⟨rfl, rfl, (server_hands_out _ _).2 rfl (by decide)⟩

end MammotionRc.Firmware
