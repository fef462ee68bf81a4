import Mathlib.Tactic.IntervalCases
import MammotionRc.Soundness.TransportInvariants

/-! # Codec and connection

The shim hands every frame to whatever writer the transport holds at that moment, and neither `connect()`
nor `disconnect()` takes the send lock. So a message that is under way goes on into the next connection
when one opens meanwhile, and a cancelled `send()` leaves half a message behind. In runs without these
steps each connection carries exactly the frames of its own codec, message after message.
-/

namespace MammotionRc.Server

open Framing Machine

/-- The frames that `BleMessage` number `k` emits for a sequence of fragments, numbered from 0. -/
def Codec.frames (codec : Codec) (k : ℕ) (fragments : List Bytes) : List BlufiFrame :=
  fragments.mapIdx fun sequence fragment => ⟨k, codec.encode sequence fragment⟩

/-- The fragments of whole messages. -/
def Codec.messages (codec : Codec) (payloads : List Bytes) : List Bytes :=
  payloads.flatMap codec.fragments

theorem Codec.frames_concat (codec : Codec) (k : ℕ) (fragments : List Bytes) (fragment : Bytes) :
    codec.frames k (fragments ++ [fragment]) =
      codec.frames k fragments ++ [⟨k, codec.encode fragments.length fragment⟩] := List.mapIdx_concat

theorem Codec.frames_length (codec : Codec) (k : ℕ) (fragments : List Bytes) :
    (codec.frames k fragments).length = fragments.length := List.length_mapIdx

theorem Codec.messages_concat (codec : Codec) (payloads : List Bytes) (payload : Bytes) :
    codec.messages (payloads ++ [payload]) = codec.messages payloads ++ codec.fragments payload := by
  simp only [messages, List.flatMap_append, List.flatMap_singleton]

/-- A sequence of frames that `BleMessage` number `k` emitted, numbered from 0. -/
def Codec.Numbered (codec : Codec) (k : ℕ) (frames : List BlufiFrame) : Prop :=
  ∃ fragments, frames = codec.frames k fragments

/-- The frames of whole messages. -/
def Codec.Whole (codec : Codec) (k : ℕ) (frames : List BlufiFrame) : Prop :=
  ∃ payloads, frames = codec.frames k (codec.messages payloads)

/-- The frames of whole messages and of the first `n` fragments of another. -/
def Codec.Partly (codec : Codec) (k : ℕ) (payload : Bytes) (n : ℕ) (frames : List BlufiFrame) : Prop :=
  ∃ payloads, frames = codec.frames k (codec.messages payloads ++ (codec.fragments payload).take n)

section Frames

variable {codec : Codec} {k n : ℕ} {payload fragment : Bytes} {frames : List BlufiFrame}

theorem Codec.Numbered.concat (numbered : codec.Numbered k frames) (fragment : Bytes) :
    codec.Numbered k (frames ++ [⟨k, codec.encode frames.length fragment⟩]) := by
  obtain ⟨fragments, rfl⟩ := numbered
  refine ⟨fragments ++ [fragment], ?_⟩
  rw [frames_concat, frames_length]

theorem Codec.Whole.partly (whole : codec.Whole k frames) (payload : Bytes) :
    codec.Partly k payload 0 frames := by
  obtain ⟨payloads, rfl⟩ := whole
  exact ⟨payloads, by rw [List.take_zero, List.append_nil]⟩

theorem Codec.Partly.concat (partly : codec.Partly k payload n frames)
    (next : (codec.fragments payload)[n]? = some fragment) :
    codec.Partly k payload (n + 1) (frames ++ [⟨k, codec.encode frames.length fragment⟩]) := by
  obtain ⟨payloads, rfl⟩ := partly
  refine ⟨payloads, ?_⟩
  rw [List.take_add_one, next, Option.toList_some, ← List.append_assoc, frames_concat, frames_length]

/-- A message ends where its fragments do, and one of which nothing was emitted leaves no trace. -/
theorem Codec.Partly.whole (partly : codec.Partly k payload n frames)
    (ends : n = 0 ∨ (codec.fragments payload)[n]? = none) : codec.Whole k frames := by
  obtain ⟨payloads, rfl⟩ := partly
  rcases ends with rfl | finished
  · exact ⟨payloads, by rw [List.take_zero, List.append_nil]⟩
  · refine ⟨payloads ++ [payload], ?_⟩
    rw [messages_concat, List.take_of_length_le (List.getElem?_eq_none_iff.mp finished)]

end Frames

namespace HC33ProxyTransport

/-- What connection `k` carries, compared with what its codec emitted. -/
structure CodecInOrder (codec : Codec) (s : HC33ProxyTransport) : Prop where
  numbered : ∀ k, codec.Numbered k (s.connections k).emitted
  inOrder : ∀ k, (s.connections k).written <+: (s.connections k).emitted
  complete : ∀ k, s.Up k → (s.connections k).written = (s.connections k).emitted
  whole : ∀ k, s.Up k → (∀ i payload draining n, s.calls i ≠ .posting payload k draining n) →
    codec.Whole k (s.connections k).emitted

/-- No socket opens while a `disconnect()` waits for the old one to close or a `send()` is inside its
codec, and no `send()` is cancelled between two frames of a message on an open connection. -/
structure KeepsCodec (codec : Codec) (s : HC33ProxyTransport) (e : TransportEvent) : Prop where
  closed : OpensAfterClose s e
  posted : OpensAfterPost s e
  notMid : ∀ i payload k draining n, e = .cancelled i → s.calls i = .posting payload k draining n →
    s.Up k → n = 0 ∨ (codec.fragments payload)[n]? = none

variable {codec : Codec} {s t : HC33ProxyTransport} {e : TransportEvent}

/-- An open connection carries whole messages and the beginning of the one that is being posted. -/
def Midway (codec : Codec) (s : HC33ProxyTransport) : Prop :=
  ∀ i payload k draining n, s.calls i = .posting payload k draining n → s.Up k →
    codec.Partly k payload n (s.connections k).emitted

/-- At most one call is inside its codec. -/
theorem Consistent.posting_unique (inv : Consistent s) {i j : ℕ} (first : (s.calls i).HoldsSendLock)
    (second : (s.calls j).HoldsSendLock) : i = j := by
  have lock := inv.sendLock i first
  rw [inv.sendLock j second] at lock
  exact (Option.some.inj lock).symm

theorem Consistent.not_posting (inv : Consistent s) (lock : s.sendLock = none) (i : ℕ) (payload : Bytes)
    (k : ℕ) (draining : Option ℕ) (n : ℕ) : s.calls i ≠ .posting payload k draining n := by
  intro at_
  have holds := inv.sendLock i (by rw [at_]; trivial)
  rw [lock] at holds
  cases holds

/-- A `send` that reaches a writer reaches the one of its own connection. -/
theorem PostsOwn.writer (posts : PostsOwn s) (inv : Consistent s) {i k n w : ℕ} {payload : Bytes}
    {draining : Option ℕ} (was : s.calls i = .posting payload k draining n) (held : s.writer = some w) :
    w = k := by
  have newest := (posts i payload k draining n was).1
  have held := inv.writer w held
  omega

theorem Midway.step (inv : Consistent s) (posts : PostsOwn s) (order : CodecInOrder codec s)
    (midway : Midway codec s) (keeps : KeepsCodec codec s e) (effect : Effect codec s e t) :
    Midway codec t := by
  intro i payload k draining n
  have before := midway i payload k draining n
  cases effect with
  | @posted j payload' k' n' w draining' fragment was next held up =>
    obtain rfl := posts.writer inv was held
    intro at_ _
    by_cases same : i = j
    · rw [suspend_calls, if_pos same] at at_
      cases at_
      have partly := (midway j payload k draining' n' was up).concat next
      grind [nextFrame]
    · rw [suspend_calls, if_neg same] at at_
      exact absurd (inv.posting_unique (by rw [show s.calls i = _ from at_]; trivial)
        (by rw [was]; trivial)) same
  | postFailed j was next down =>
    intro at_ _
    have other : i ≠ j := by
      rintro rfl
      rw [postFailed, suspend_calls, if_pos rfl] at at_
      cases at_
    rw [postFailed, suspend_calls, if_neg other] at at_
    exact absurd (inv.posting_unique (by rw [show s.calls i = _ from at_]; trivial)
      (by rw [was]; trivial)) other
  | opened j was =>
    have free := keeps.posted j rfl i payload k draining n
    grind
  | startPost j was lock message =>
    intro at_ up
    by_cases same : i = j
    · rw [suspend_calls, if_pos same] at at_
      cases at_
      exact (order.whole k up fun i p d n => inv.not_posting lock i p k d n).partly payload
    · rw [suspend_calls, if_neg same] at at_
      exact before at_ up
  | _ => grind

/-- A step that hands no frame on and closes no message. -/
private theorem CodecInOrder.of_kept (order : CodecInOrder codec s)
    (frames : ∀ k, (t.connections k).emitted = (s.connections k).emitted ∧
      (t.connections k).written = (s.connections k).written)
    (sockets : ∀ k, t.Up k → s.Up k)
    (posting : ∀ i payload k draining n, s.calls i = .posting payload k draining n →
      t.calls i = .posting payload k draining n) : CodecInOrder codec t := by
  refine ⟨fun k => ?_, fun k => ?_, fun k up => ?_, fun k up idle => ?_⟩
  · rw [(frames k).1]
    exact order.numbered k
  · rw [(frames k).1, (frames k).2]
    exact order.inOrder k
  · rw [(frames k).1, (frames k).2]
    exact order.complete k (sockets k up)
  · rw [(frames k).1]
    exact order.whole k (sockets k up) fun i p d n at_ => idle i p d n (posting i p k d n at_)

theorem CodecInOrder.step (inv : Consistent s) (sockets : SocketHeld s) (posts : PostsOwn s)
    (order : CodecInOrder codec s) (midway : Midway codec s) (keeps : KeepsCodec codec s e)
    (effect : Effect codec s e t) : CodecInOrder codec t := by
  have ⟨numbered, inOrder, complete, whole⟩ := order
  cases effect with
  | @posted i payload k n w draining fragment was next held up =>
    obtain rfl := posts.writer inv was held
    have number := (numbered w).concat fragment
    have same := complete w up
    refine ⟨by grind [nextFrame], by grind, by grind, fun k up idle => ?_⟩
    by_cases mine : k = w
    · exact absurd (by rw [suspend_calls, if_pos rfl, mine]) (idle i payload (some w) (n + 1))
    · have before := whole k (by grind) fun j p d m at_ => idle j p d m (by grind)
      grind
  | @postFailed i payload k n draining fragment was next down =>
    have number := (numbered k).concat fragment
    have closed : ¬ s.Up k := fun up => down k (sockets.held k up) up
    have longer := (inOrder k).trans (List.prefix_append _ [s.nextFrame codec k fragment])
    refine ⟨by grind [nextFrame], by grind, by grind, fun k' up idle => ?_⟩
    have before := whole k' (by grind) fun j p d m at_ => idle j p d m (by grind)
    grind
  | released i was finished running =>
    refine ⟨numbered, inOrder, complete, fun k up idle => ?_⟩
    by_cases mine : ∃ payload draining n, s.calls i = .posting payload k draining n
    · obtain ⟨payload, draining, n, posting⟩ := mine
      refine (midway i payload k draining n posting up).whole ?_
      rcases finished payload k draining n posting with ends | event
      · exact .inr ends
      · exact keeps.notMid i payload k draining n event posting up
    · refine whole k up fun j p d m at_ => idle j p d m ?_
      have other : j ≠ i := by
        rintro rfl
        exact mine ⟨p, d, m, at_⟩
      rw [releaseSend, suspend_calls, if_neg other]
      exact at_
  | @drainFailed i payload k n w was closing =>
    have same : w = k := (posts i payload k (some w) n was).2 w rfl
    refine ⟨numbered, inOrder, complete, fun k' up idle => ?_⟩
    refine whole k' up fun j p d m at_ => idle j p d m ?_
    have other : j ≠ i := by
      rintro rfl
      rw [was] at at_
      cases at_
      exact closing (same ▸ up)
    rw [postFailed, suspend_calls, if_neg other]
    exact at_
  | opened i was =>
    refine ⟨fun k => ?_, by grind, by grind, fun k up idle => ?_⟩
    · by_cases new : k = s.opened
      · exact ⟨[], by simp [connectOpened, new, Connection.fresh, Codec.frames]⟩
      · have before := numbered k
        grind
    · by_cases new : k = s.opened
      · exact ⟨[], by simp [connectOpened, new, Connection.fresh, Codec.frames, Codec.messages]⟩
      · have before := whole k (by grind) fun j p d m at_ => idle j p d m (by grind)
        grind
  | startPost i was lock message | postRefused i was lock message =>
    exact ⟨numbered, inOrder, complete, fun k up _ =>
      whole k up fun j p d m => inv.not_posting lock j p k d m⟩
  | _ =>
    clear numbered inOrder complete whole midway posts sockets
    refine order.of_kept (fun k => ?_) (fun k up => ?_) fun j payload k draining n at_ => ?_ <;> grind

/-- What the runs that keep the codec's turn keep. -/
structure CodecInvariant (codec : Codec) (s : HC33ProxyTransport) : Prop where
  consistent : Consistent s
  sockets : SocketHeld s
  posts : PostsOwn s
  midway : Midway codec s
  order : CodecInOrder codec s

theorem CodecInvariant.init (codec : Codec) : CodecInvariant codec init := by
  refine ⟨.init, ⟨?_, nofun⟩, nofun, nofun, ⟨fun _ => ⟨[], rfl⟩, fun _ => List.prefix_rfl, fun _ _ => rfl,
    fun _ _ _ => ⟨[], rfl⟩⟩⟩
  intro k up
  cases up

theorem CodecInvariant.step (inv : CodecInvariant codec s) (keeps : KeepsCodec codec s e)
    (stepped : s.step codec e = some t) : CodecInvariant codec t := by
  have effect := step_effect stepped
  obtain ⟨consistent, sockets, posts, midway, order⟩ := inv
  exact ⟨consistent.step effect, sockets.step consistent keeps.closed effect,
    posts.step consistent keeps.posted effect, midway.step consistent posts order keeps effect,
    order.step consistent sockets posts midway keeps effect⟩

/-- In every run that keeps the codec's turn, each connection carries the frames of its own codec in
order, without a gap while it is open, and no half message once nobody posts. -/
theorem codec_in_order (codec : Codec) (es : List TransportEvent)
    (kept : Meets (step codec) (fun _ => KeepsCodec codec) init es) :
    Throughout (step codec) (fun _ => CodecInOrder codec) init es := by
  intro pre before s reached
  have inv : CodecInvariant codec s := by
    refine run_invariant_of_meets (I := fun _ => CodecInvariant codec) (.init codec) ?_
      (kept.of_prefix before) reached
    exact fun _ _ _ _ inv keeps stepped => inv.step keeps stepped
  exact inv.order

/-- A payload of two fragments is posted on a fresh connection. -/
def postedOnce : List TransportEvent :=
  [.connect 0, .resume 0, .resume 0, .opened 0, .resume 0, .send 1 (List.replicate 20 7), .resume 1,
    .resume 1, .resume 1, .resume 1]

theorem codec_in_order_postedOnce :
    (run (step .sample) init postedOnce).isSome = true ∧
      Throughout (step .sample) (fun _ => CodecInOrder .sample) init postedOnce := by
  refine ⟨by decide, codec_in_order .sample postedOnce (.of_getElem fun n e at_ t reached => ?_)⟩
  obtain ⟨s, ran, zero, rest⟩ : ∃ s, run (step .sample) init (postedOnce.take 3) = some s ∧
      s.calls 0 = .connect .opening none ∧ ∀ j, s.calls (j + 1) = .idle :=
    ⟨_, rfl, rfl, fun _ => rfl⟩
  have calls : ∀ j, s.calls j = .idle ∨ s.calls j = .connect .opening none := by
    rintro (_ | j)
    · exact .inr zero
    · exact .inl (rest j)
  have short : n < 10 := (List.getElem?_eq_some_iff.mp at_).1
  interval_cases n <;> cases at_ <;> try (refine ⟨?_, ?_, ?_⟩ <;> intro _ <;> simp; done)
  obtain rfl := Option.some.inj (ran.symm.trans reached)
  refine ⟨?_, ?_, ?_⟩
  · exact fun _ _ j at_ => by rcases calls j with h | h <;> rw [h] at at_ <;> cases at_
  · exact fun _ _ j _ _ _ _ at_ => by rcases calls j with h | h <;> rw [h] at at_ <;> cases at_
  · exact fun _ _ _ _ _ event => by cases event

/-- The connection is replaced between the two frames of a message. -/
def replacedMidway : List TransportEvent :=
  [.connect 0, .resume 0, .resume 0, .opened 0, .resume 0, .send 1 (List.replicate 20 7), .resume 1,
    .resume 1, .disconnect 2, .reader 0 .cancelled, .resume 2, .resume 2, .disconnected 2,
    .connect 2, .resume 2, .resume 2, .opened 2, .resume 2, .resume 1]

/-- The second frame of the old codec, numbered 1, is the first frame on the new connection. -/
theorem replacedMidway_not_in_order :
    ¬ Throughout (step .sample) (fun _ => CodecInOrder .sample) init replacedMidway := by
  intro always
  obtain ⟨s, ran, written, emitted⟩ : ∃ s, run (step .sample) init replacedMidway = some s ∧
      (s.connections 1).written = [⟨0, Codec.sample.encode 1 (List.replicate 4 7)⟩] ∧
      (s.connections 1).emitted = [] := ⟨_, rfl, rfl, rfl⟩
  have order := (always.last ran).inOrder 1
  rw [written, emitted, List.prefix_nil] at order
  cases order

end HC33ProxyTransport

end MammotionRc.Server
