import MammotionRc.Machine.Simulation
import MammotionRc.Soundness.ClientStream

/-! # `HalowClient` behaves as the socket that `TcpProxy` is verified against

`NetClient` is what the model of `TcpProxy` knows of its socket: a stream read from the front. The
observations of a `HalowClient`, whatever the kernel, the allocator and the peer do between and during
the calls, are observations of a `NetClient` that was accepted with the same stream.
-/

namespace MammotionRc.Firmware

open Framing Machine HalowClientRxBuffer

inductive ClientCall
  | available
  | read (size : ℕ)
  | peek
  | flush
  | connected (gone : Bool)
  | write (data : Bytes) (attempts : ℕ → HalowClient.Attempt)
  | stop

/-- What a caller sees of a call; `lost` when the call stopped the client. -/
inductive Observation
  | available (n : ℕ) (lost : Bool)
  | read (size : ℕ) (result : ReadReturn) (lost : Bool)
  | peek (byte : Option UInt8) (lost : Bool)
  /-- The bytes that `flush()` threw away. -/
  | flush (dropped : Bytes)
  | connected (up : Bool)
  | write (data : Bytes) (handed : Bytes) (lost : Bool)
  | stop
deriving DecidableEq, Repr

/-- A client and its socket. -/
structure ClientState where
  client : HalowClient
  kernel : Kernel
deriving DecidableEq, Repr

namespace ClientState

/-- A client around a fresh descriptor whose peer will send `stream`. -/
def accepted (stream : Bytes) : ClientState := ⟨.init, ⟨[], stream, []⟩⟩

def lost (s : ClientState) : Bool := s.client.rxBuffer.isNone

/-- What the client can still hand out. -/
def stream (s : ClientState) : Bytes :=
  match s.client.rxBuffer with
  | none => []
  | some b => b.stream s.kernel

/-- One call; `tape` answers the calls that it makes in turn. -/
def call (s : ClientState) (made : ClientCall × List Moment) : Observation × ClientState :=
  match made with
  | (.available, tape) =>
    let (n, c, k) := s.client.available { s.kernel with tape := tape }
    (.available n c.rxBuffer.isNone, ⟨c, k⟩)
  | (.read size, tape) =>
    let (result, c, k) := s.client.read { s.kernel with tape := tape } size
    (.read size result c.rxBuffer.isNone, ⟨c, k⟩)
  | (.peek, tape) =>
    let (byte, c, k) := s.client.peek { s.kernel with tape := tape }
    (.peek byte c.rxBuffer.isNone, ⟨c, k⟩)
  | (.flush, tape) =>
    let (c, k) := s.client.flush { s.kernel with tape := tape }
    let t : ClientState := ⟨c, k⟩
    (.flush (s.stream.take (s.stream.length - t.stream.length)), t)
  | (.connected gone, _) =>
    let (up, c) := s.client.connected gone
    (.connected up, { s with client := c })
  | (.write data attempts, _) =>
    let sent := s.client.write attempts data
    (.write data sent.handed sent.stops, { s with client := if sent.stops then .stopped else s.client })
  | (.stop, _) => (.stop, { s with client := .stopped })

end ClientState

/-- The same observations made of the socket that `TcpProxy` is verified against. -/
def NetClient.observe (n : NetClient) : Observation → Option NetClient
  | .available count lost => if n.mayReport count then some (if lost then .stopped else n) else none
  | .read size result lost =>
    if result.dst.length ≤ size ∧ result.dst <+: n.unread ∧
        (result.res = result.dst.length ∨ result.res = -1 ∧ result.dst = [] ∧ lost) then
      some (if lost then .stopped else n.consume result.dst.length)
    else none
  | .peek byte lost =>
    if byte = none ∨ n.unread.head? = byte then some (if lost then .stopped else n) else none
  | .flush dropped => if dropped <+: n.unread then some (n.consume dropped.length) else none
  | .connected up =>
    if up then if n.connected then some n else none else some { n with peerGone := true }
  | .write data handed lost =>
    if handed <+: data ∧ n.mayAccept data handed.length then some (if lost then .stopped else n) else none
  | .stop => some .stopped

namespace NetClient

variable {n n' : NetClient}

attribute [local simp] observe

theorem observe_available {count : ℕ} {lost : Bool} : n.observe (.available count lost) = some n' ↔
    n.mayReport count ∧ (if lost then .stopped else n) = n' := by
  simp

theorem observe_read {size : ℕ} {result : ReadReturn} {lost : Bool} :
    n.observe (.read size result lost) = some n' ↔
      (result.dst.length ≤ size ∧ result.dst <+: n.unread ∧
        (result.res = result.dst.length ∨ result.res = -1 ∧ result.dst = [] ∧ lost)) ∧
      (if lost then .stopped else n.consume result.dst.length) = n' := by
  simp

theorem observe_peek {byte : Option UInt8} {lost : Bool} : n.observe (.peek byte lost) = some n' ↔
    (∀ x ∈ byte, n.unread.head? = some x) ∧ (if lost then .stopped else n) = n' := by
  cases byte <;> simp

theorem observe_flush {dropped : Bytes} : n.observe (.flush dropped) = some n' ↔
    dropped <+: n.unread ∧ n.consume dropped.length = n' := by
  simp

theorem observe_write {data handed : Bytes} {lost : Bool} : n.observe (.write data handed lost) = some n' ↔
    (handed <+: data ∧ n.mayAccept data handed.length) ∧ (if lost then .stopped else n) = n' := by
  simp

end NetClient

/-! ## Writing -/

namespace HalowClient

/-- A round in which the stack took nothing. -/
def Attempt.idle : Attempt → Bool
  | .notReady | .busy => true
  | .sends n => n = 0
  | .selectFails | .breaks => false

/-- The stack took nothing in the ten rounds before round `n`. -/
def Stuck (attempts : ℕ → Attempt) (n : ℕ) : Prop :=
  MAX_WRITE_RETRY ≤ n ∧ ∀ i, n - MAX_WRITE_RETRY ≤ i → i < n → (attempts i).idle = true

/-- A call of `write` that offered `buf` to the stack, which took `more`. -/
structure Written (attempts : ℕ → Attempt) (buf more : Bytes) (w : WriteReturn) : Prop where
  front : more <+: buf
  reported : w.totalBytesSent = w.handed.length ∨
    w.totalBytesSent = 0 ∧ ∃ i < w.selects, attempts i = .selectFails
  ended : buf ≠ [] → more = buf ∨ w.stops = true ∨ (∃ i < w.selects, attempts i = .selectFails) ∨
    Stuck attempts w.selects

/-- A round without progress joins the ones before it. -/
theorem idle_succ {attempts : ℕ → Attempt} {first selects : ℕ}
    (idle : ∀ i, first ≤ i → i < selects → (attempts i).idle = true) (now : (attempts selects).idle = true) :
    ∀ i, first ≤ i → i < selects + 1 → (attempts i).idle = true := by
  intro i from_ before
  obtain earlier | rfl := Nat.lt_succ_iff_lt_or_eq.mp before
  · exact idle i from_ earlier
  · exact now

/-- `write` from any round on: `retry` rounds may pass before it gives up. -/
theorem writeLoop_spec (attempts : ℕ → Attempt) (size retry : ℕ) (buf handed : Bytes) (selects : ℕ)
    (sized : handed.length + buf.length = size) (budget : MAX_WRITE_RETRY ≤ selects + retry)
    (idle : buf ≠ [] → ∀ i, selects + retry - MAX_WRITE_RETRY ≤ i → i < selects → (attempts i).idle = true) :
    ∃ more, (writeLoop attempts size retry buf handed selects).handed = handed ++ more ∧
      Written attempts buf more (writeLoop attempts size retry buf handed selects) ∧
      (writeLoop attempts size retry buf handed selects).selects ≤
        selects + retry + MAX_WRITE_RETRY * more.length := by
  induction retry, buf, handed, selects using writeLoop.induct attempts size with
  | case1 buf handed selects =>
    rw [writeLoop]
    exact ⟨[], by simp, ⟨List.nil_prefix, .inl rfl, fun some_ => .inr (.inr (.inr ⟨budget, idle some_⟩))⟩, by simp⟩
  | case2 buf handed selects retry failed =>
    rw [writeLoop, failed]
    have seen : ∃ i < selects + 1, attempts i = .selectFails := ⟨selects, Nat.lt_succ_self _, failed⟩
    exact ⟨[], by simp, ⟨List.nil_prefix, .inr ⟨rfl, seen⟩, fun _ => .inr (.inr (.inl seen))⟩, by simp⟩
  | case3 buf handed selects retry waits ih =>
    rw [writeLoop, waits]
    rw [show selects + retry.succ = selects + 1 + retry by omega] at budget idle ⊢
    exact ih sized budget fun some_ => idle_succ (idle some_) (by rw [waits]; rfl)
  | case4 buf handed selects retry waits ih =>
    rw [writeLoop, waits]
    rw [show selects + retry.succ = selects + 1 + retry by omega] at budget idle ⊢
    exact ih sized budget fun some_ => idle_succ (idle some_) (by rw [waits]; rfl)
  | case5 buf handed selects retry broken =>
    rw [writeLoop, broken]
    exact ⟨[], by simp, ⟨List.nil_prefix, .inl rfl, fun _ => .inr (.inl rfl)⟩, by simp⟩
  | case6 buf handed selects retry n sends res some_ handed' done =>
    rw [writeLoop, sends]
    dsimp only
    rw [if_pos some_, if_pos done]
    have whole : buf.take res = buf := by
      apply List.take_of_length_le
      simp only [handed', List.length_append, List.length_take] at done
      omega
    refine ⟨buf, ?_, ⟨List.prefix_refl _, .inl rfl, fun _ => .inl rfl⟩, ?_⟩
    · rw [whole]
    · dsimp only
      omega
  | case7 buf handed selects retry n sends res some_ handed' short ih =>
    have taken : (buf.take res).length = res := by
      rw [List.length_take]
      omega
    have sized' : handed'.length + (buf.drop res).length = size := by
      simp only [handed', List.length_append, List.length_drop, taken]
      omega
    obtain ⟨more, same, ⟨front, reported, ended⟩, bound⟩ := ih sized' (Nat.le_add_left _ _) fun _ i from_ before => by
      omega
    have left : buf.drop res ≠ [] := by
      intro none_
      rw [none_] at sized'
      exact short sized'.symm.le
    rw [writeLoop, sends]
    dsimp only
    rw [if_pos some_, if_neg short]
    refine ⟨buf.take res ++ more, ?_, ⟨?_, reported, ?_⟩, ?_⟩
    · rw [same, List.append_assoc]
    · obtain ⟨rest, split⟩ := front
      exact ⟨rest, by rw [List.append_assoc, split, List.take_append_drop]⟩
    · intro _
      obtain rfl | other := ended left
      · exact .inl (List.take_append_drop res buf)
      · exact .inr other
    · refine bound.trans ?_
      rw [List.length_append, taken, Nat.mul_add]
      have one : MAX_WRITE_RETRY * 1 ≤ MAX_WRITE_RETRY * res := Nat.mul_le_mul_left _ some_
      omega
  | case8 buf handed selects retry n sends res none_ ih =>
    rw [writeLoop, sends]
    dsimp only
    rw [if_neg none_]
    rw [show selects + retry.succ = selects + 1 + retry by omega] at budget idle ⊢
    refine ih sized budget fun some_ => idle_succ (idle some_) ?_
    have := List.length_pos_iff.mpr some_
    rw [sends]
    simp only [Attempt.idle, decide_eq_true_eq]
    omega

theorem write_closed {c : HalowClient} (detached : c.rxBuffer = none) (attempts : ℕ → Attempt) (buf : Bytes) :
    c.write attempts buf = ⟨0, [], 0, false⟩ := by
  rw [write, detached, Option.isNone_none, Bool.or_true, if_pos rfl]

/-- Every call of `write`, whatever the stack does: it hands over a front piece of the buffer, reports
its length unless a `select` failed, and comes back within ten rounds after each round that made progress. What
it leaves unsent with the socket still open it offered to the stack ten more times in vain. -/
theorem write_bounded (c : HalowClient) (attempts : ℕ → Attempt) (buf : Bytes) :
    (c.write attempts buf).handed <+: buf ∧
      (c.write attempts buf).selects ≤ MAX_WRITE_RETRY * ((c.write attempts buf).handed.length + 1) ∧
      ((c.write attempts buf).totalBytesSent = (c.write attempts buf).handed.length ∨
        (c.write attempts buf).totalBytesSent = 0 ∧
          ∃ i < (c.write attempts buf).selects, attempts i = .selectFails) ∧
      (c.isConnected = true → c.rxBuffer.isSome = true → buf ≠ [] → (c.write attempts buf).handed = buf ∨
        (c.write attempts buf).stops = true ∨ (∃ i < (c.write attempts buf).selects, attempts i = .selectFails) ∨
        Stuck attempts (c.write attempts buf).selects) := by
  by_cases closed : (!c.isConnected || c.rxBuffer.isNone) = true
  · rw [write, if_pos closed]
    refine ⟨List.nil_prefix, Nat.zero_le _, .inl rfl, fun up open_ => ?_⟩
    rw [up, Bool.not_true, Bool.false_or, Option.isNone_iff_eq_none] at closed
    rw [closed] at open_
    exact absurd open_ (by simp)
  · rw [write, if_neg closed]
    obtain ⟨more, same, ⟨front, reported, ended⟩, bound⟩ := writeLoop_spec attempts buf.length MAX_WRITE_RETRY buf [] 0
      (by simp) (by simp) (by simp)
    rw [List.nil_append] at same
    rw [same] at reported ⊢
    refine ⟨front, ?_, reported, fun _ _ => ended⟩
    rw [Nat.mul_add]
    omega

end HalowClient

/-! ## One call -/

/-- A client, its socket and what `TcpProxy` is verified against. -/
structure Refines (s : ClientState) (n : NetClient) : Prop where
  valid : ∀ b ∈ s.client.rxBuffer, b.Valid
  isOpen : n.isOpen = s.client.rxBuffer.isSome
  stream : n.unread = s.stream
  connected : s.client.isConnected = n.connected

theorem refines_accepted (stream : Bytes) : Refines (.accepted stream) (.accepted stream) := by
  refine ⟨?_, rfl, rfl, rfl⟩
  rintro b ⟨⟩
  exact init_valid (by decide)

theorem refines_stopped {k : Kernel} : Refines ⟨.stopped, k⟩ .stopped :=
  ⟨by simp [HalowClient.stopped], rfl, rfl, rfl⟩

/-- A call that leaves `b'` behind: the client stops if `b'` failed, and has handed out `data` if not. -/
theorem Refines.keep {s : ClientState} {n : NetClient} {b b' : HalowClientRxBuffer} {k' : Kernel} {data : Bytes}
    (refines : Refines s n) (attached : s.client.rxBuffer = some b) {tape : List Moment}
    (takes : b.Takes { s.kernel with tape := tape } data b' k') :
    data ++ b'.stream k' = n.unread ∧
      Refines ⟨s.client.keep b', k'⟩
        (if (s.client.keep b').rxBuffer.isNone then .stopped else n.consume data.length) := by
  have unread : data ++ b'.stream k' = n.unread := by
    rw [takes.stream, refines.stream, ClientState.stream, attached]
    rfl
  refine ⟨unread, ?_⟩
  cases failed : b'.failed with
  | true =>
    rw [HalowClient.keep, if_pos failed]
    exact refines_stopped
  | false =>
    rw [HalowClient.keep, if_neg (by rw [failed]; exact Bool.false_ne_true)]
    have isOpen := refines.isOpen
    rw [attached] at isOpen
    refine ⟨?_, isOpen, ?_, refines.connected⟩
    · rintro b₁ ⟨⟩
      exact takes.valid
    · change n.unread.drop data.length = b'.stream k'
      rw [← unread, List.drop_left]

/-- A client without a buffer is as good as stopped. -/
theorem Refines.closed {s : ClientState} {n : NetClient} (refines : Refines s n)
    (detached : s.client.rxBuffer = none) (k : Kernel) : Refines ⟨s.client, k⟩ .stopped := by
  have isOpen := refines.isOpen
  have connected := refines.connected
  rw [detached] at isOpen
  refine ⟨by simp [detached], by rw [detached]; rfl, ?_, ?_⟩
  · simp only [ClientState.stream, detached, NetClient.stopped_unread]
  · rw [connected, NetClient.connected, isOpen]
    rfl

variable {s : ClientState} {n : NetClient} {tape : List Moment}

attribute [local simp] ClientState.call

theorem available_refines (refines : Refines s n) :
    ∃ n', n.observe (s.call (.available, tape)).1 = some n' ∧ Refines (s.call (.available, tape)).2 n' := by
  rcases attached : s.client.rxBuffer with _ | b
  · have same : s.call (.available, tape) = (.available 0 true, ⟨s.client, { s.kernel with tape := tape }⟩) := by
      simp [HalowClient.available, attached]
    rw [same]
    exact ⟨.stopped, NetClient.observe_available.mpr ⟨Nat.zero_le _, rfl⟩, refines.closed attached _⟩
  · rcases counted : b.available { s.kernel with tape := tape } with ⟨count, b', k'⟩
    have same : s.call (.available, tape) =
        (.available count (s.client.keep b').rxBuffer.isNone, ⟨s.client.keep b', k'⟩) := by
      simp [HalowClient.available, attached, counted]
    obtain ⟨moves, atHand⟩ := available_spec (refines.valid b attached) counted
    obtain ⟨unread, kept⟩ := refines.keep attached moves.takes
    rw [same]
    refine ⟨_, NetClient.observe_available.mpr ⟨?_, rfl⟩, by simpa [NetClient.consume] using kept⟩
    rw [NetClient.mayReport, ← unread, List.nil_append, stream, Kernel.toCome]
    simp only [HalowClientRxBuffer.atHand, List.length_append] at atHand ⊢
    omega

theorem read_refines {size : ℕ} (refines : Refines s n) :
    ∃ n', n.observe (s.call (.read size, tape)).1 = some n' ∧ Refines (s.call (.read size, tape)).2 n' := by
  rcases attached : s.client.rxBuffer with _ | b
  · have same : s.call (.read size, tape) =
        (.read size ⟨-1, []⟩ true, ⟨s.client, { s.kernel with tape := tape }⟩) := by
      simp [HalowClient.read, attached]
    rw [same]
    exact ⟨.stopped, NetClient.observe_read.mpr ⟨⟨Nat.zero_le _, List.nil_prefix, .inr ⟨rfl, rfl, rfl⟩⟩, rfl⟩,
      refines.closed attached _⟩
  · rcases taken : b.read { s.kernel with tape := tape } size with ⟨result, b', k'⟩
    have same : s.call (.read size, tape) =
        (.read size result (s.client.keep b').rxBuffer.isNone, ⟨s.client.keep b', k'⟩) := by
      simp [HalowClient.read, attached, taken]
    obtain ⟨data, answer, takes, bound, -⟩ := read_spec (refines.valid b attached) taken
    obtain ⟨unread, kept⟩ := refines.keep attached takes
    have dst : result.dst = data := by
      obtain rfl | ⟨rfl, rfl, -⟩ := answer <;> rfl
    rw [same]
    refine ⟨_, NetClient.observe_read.mpr ⟨⟨by rwa [dst], ?_, ?_⟩, rfl⟩, by rw [dst]; exact kept⟩
    · rw [dst, ← unread]
      exact List.prefix_append _ _
    · obtain rfl | ⟨rfl, rfl, failed⟩ := answer
      · exact .inl rfl
      · refine .inr ⟨rfl, rfl, ?_⟩
        rw [HalowClient.keep, if_pos failed]
        rfl

theorem peek_refines (refines : Refines s n) :
    ∃ n', n.observe (s.call (.peek, tape)).1 = some n' ∧ Refines (s.call (.peek, tape)).2 n' := by
  rcases attached : s.client.rxBuffer with _ | b
  · have same : s.call (.peek, tape) = (.peek none true, ⟨s.client, { s.kernel with tape := tape }⟩) := by
      simp [HalowClient.peek, attached]
    rw [same]
    exact ⟨.stopped, NetClient.observe_peek.mpr ⟨by simp, rfl⟩, refines.closed attached _⟩
  · rcases shown : b.peek { s.kernel with tape := tape } with ⟨byte, b', k'⟩
    have same : s.call (.peek, tape) =
        (.peek byte (s.client.keep b').rxBuffer.isNone, ⟨s.client.keep b', k'⟩) := by
      simp [HalowClient.peek, attached, shown]
    obtain ⟨⟨_, moves⟩, head⟩ := peek_spec (refines.valid b attached) shown
    obtain ⟨unread, kept⟩ := refines.keep attached moves.takes
    rw [same]
    refine ⟨_, NetClient.observe_peek.mpr ⟨?_, rfl⟩, by simpa [NetClient.consume] using kept⟩
    rw [← unread, List.nil_append, moves.stream]
    exact head

theorem flush_refines (refines : Refines s n) :
    ∃ n', n.observe (s.call (.flush, tape)).1 = some n' ∧ Refines (s.call (.flush, tape)).2 n' := by
  rcases attached : s.client.rxBuffer with _ | b
  · have same : s.call (.flush, tape) = (.flush [], ⟨s.client, { s.kernel with tape := tape }⟩) := by
      simp [HalowClient.flush, attached, ClientState.stream]
    rw [same]
    refine ⟨n.consume 0, NetClient.observe_flush.mpr ⟨List.nil_prefix, rfl⟩,
      ⟨refines.valid, refines.isOpen, ?_, refines.connected⟩⟩
    simp only [NetClient.consume_unread, List.drop_zero, refines.stream, ClientState.stream, attached]
  · rcases emptied : b.flush { s.kernel with tape := tape } with ⟨b', k'⟩
    obtain ⟨dropped, takes⟩ := flush_spec (refines.valid b attached) emptied
    have unread : n.unread = dropped ++ b'.stream k' := by
      rw [takes.stream, refines.stream, ClientState.stream, attached]
      rfl
    have before : b.stream s.kernel = dropped ++ b'.stream k' := takes.stream.symm
    have same : s.call (.flush, tape) = (.flush dropped, ⟨{ s.client with rxBuffer := some b' }, k'⟩) := by
      simp [HalowClient.flush, attached, emptied, before, ClientState.stream]
    rw [same]
    have front : dropped <+: n.unread := ⟨_, unread.symm⟩
    refine ⟨n.consume dropped.length, NetClient.observe_flush.mpr ⟨front, rfl⟩, ⟨?_, ?_, ?_, ?_⟩⟩
    · rintro b₁ ⟨⟩
      exact takes.valid
    · have isOpen := refines.isOpen
      rwa [attached] at isOpen
    · rw [NetClient.consume_unread, unread, List.drop_left]
      rfl
    · exact refines.connected

theorem connected_refines {gone : Bool} (refines : Refines s n) :
    ∃ n', n.observe (s.call (.connected gone, tape)).1 = some n' ∧
      Refines (s.call (.connected gone, tape)).2 n' := by
  have connected := refines.connected
  cases up : s.client.isConnected && !gone with
  | true =>
    have same : s.call (.connected gone, tape) =
        (.connected true, ⟨{ s.client with isConnected := true }, s.kernel⟩) := by
      simp [HalowClient.connected, up]
    have was := (Bool.and_eq_true_iff.mp up).1
    rw [same]
    refine ⟨n, ?_, ⟨refines.valid, refines.isOpen, refines.stream, ?_⟩⟩
    · rw [NetClient.observe, if_pos rfl, if_pos (connected.symm.trans was)]
    · exact was.symm.trans connected
  | false =>
    have same : s.call (.connected gone, tape) =
        (.connected false, ⟨{ s.client with isConnected := false }, s.kernel⟩) := by
      simp [HalowClient.connected, up]
    rw [same]
    refine ⟨{ n with peerGone := true }, rfl, ⟨refines.valid, refines.isOpen, refines.stream, ?_⟩⟩
    simp only [NetClient.connected, Bool.not_true, Bool.and_false]

theorem write_refines {data : Bytes} {attempts : ℕ → HalowClient.Attempt} (refines : Refines s n) :
    ∃ n', n.observe (s.call (.write data attempts, tape)).1 = some n' ∧
      Refines (s.call (.write data attempts, tape)).2 n' := by
  obtain ⟨front, -⟩ := HalowClient.write_bounded s.client attempts data
  refine ⟨_, NetClient.observe_write.mpr ⟨⟨front, ?_⟩, rfl⟩, ?_⟩
  · rw [NetClient.mayAccept, refines.isOpen]
    split_ifs with open_
    · exact front.length_le
    · rw [HalowClient.write_closed (by simpa using open_)]
      exact Nat.zero_le _
  · change Refines ⟨if (s.client.write attempts data).stops then .stopped else s.client, s.kernel⟩
      (if (s.client.write attempts data).stops then .stopped else n)
    split_ifs
    · exact refines_stopped
    · exact refines

/-- Every call shows something that `NetClient` admits, and the two stay related. -/
theorem call_refines (s : ClientState) (n : NetClient) (made : ClientCall × List Moment) (refines : Refines s n) :
    ∃ n', n.observe (s.call made).1 = some n' ∧ Refines (s.call made).2 n' := by
  obtain ⟨call, tape⟩ := made
  cases call with
  | available => exact available_refines refines
  | read size => exact read_refines refines
  | peek => exact peek_refines refines
  | flush => exact flush_refines refines
  | connected gone => exact connected_refines refines
  | write data attempts => exact write_refines refines
  | stop => exact ⟨.stopped, rfl, refines_stopped⟩

/-! ## Sessions -/

/-- The bytes that a call took off the stream. -/
def Observation.taken : Observation → Bytes
  | .read _ result _ => result.dst
  | .flush dropped => dropped
  | _ => []

/-- What `data` and the bytes dropped with a stopped socket leave of a stream. -/
def NetClient.Gives (n : NetClient) (data : Bytes) (n' : NetClient) : Prop :=
  ∃ dropped, data ++ (n'.unread ++ dropped) = n.unread ∧ (n'.isOpen = true → dropped = [] ∧ n.isOpen = true)

namespace NetClient

variable {n n' : NetClient}

theorem Gives.refl (n : NetClient) : n.Gives [] n := ⟨[], by simp, fun open_ => ⟨rfl, open_⟩⟩

theorem Gives.trans {m : NetClient} {first second : Bytes} (before : n.Gives first m) (after : m.Gives second n') :
    n.Gives (first ++ second) n' := by
  obtain ⟨d, stream, kept⟩ := before
  obtain ⟨d', stream', kept'⟩ := after
  refine ⟨d' ++ d, ?_, fun open_ => ?_⟩
  · rw [← stream, ← stream']
    simp only [List.append_assoc]
  · obtain ⟨rfl, was⟩ := kept' open_
    obtain ⟨rfl, before⟩ := kept was
    exact ⟨rfl, before⟩

/-- A socket that may be lost after it gave `data`. -/
theorem gives_or_lost {data : Bytes} (front : data <+: n.unread) (lost : Bool) :
    n.Gives data (if lost then .stopped else n.consume data.length) := by
  obtain ⟨rest, split⟩ := front
  cases lost with
  | true => exact ⟨rest, split, fun open_ => Bool.noConfusion open_⟩
  | false =>
    refine ⟨[], ?_, fun open_ => ⟨rfl, open_⟩⟩
    rw [if_neg Bool.false_ne_true, consume_unread, ← split, List.drop_left, List.append_nil]

theorem observe_gives {seen : Observation} (observed : n.observe seen = some n') : n.Gives seen.taken n' := by
  cases seen with
  | available count lost =>
    obtain ⟨-, rfl⟩ := observe_available.mp observed
    exact gives_or_lost List.nil_prefix lost
  | read size result lost =>
    obtain ⟨⟨-, front, -⟩, rfl⟩ := observe_read.mp observed
    exact gives_or_lost front lost
  | peek byte lost =>
    obtain ⟨-, rfl⟩ := observe_peek.mp observed
    exact gives_or_lost List.nil_prefix lost
  | flush dropped =>
    obtain ⟨front, rfl⟩ := observe_flush.mp observed
    exact gives_or_lost front false
  | connected up =>
    simp only [observe] at observed
    split_ifs at observed
    · cases observed
      exact Gives.refl n
    · cases observed
      exact Gives.refl n
  | write data handed lost =>
    obtain ⟨-, rfl⟩ := observe_write.mp observed
    exact gives_or_lost List.nil_prefix lost
  | stop =>
    cases observed
    exact gives_or_lost List.nil_prefix true

theorem run_gives {seen : List Observation} (ran : run observe n seen = some n') :
    n.Gives (seen.flatMap Observation.taken) n' := by
  induction seen generalizing n with
  | nil =>
    cases ran
    exact Gives.refl n'
  | cons first rest ih =>
    obtain ⟨m, observed, after⟩ := Option.bind_eq_some_iff.mp ran
    rw [List.flatMap_cons]
    exact (observe_gives observed).trans (ih after)

end NetClient

/-- What `available()` reports can be read at once: the `read` that follows it gets all it asks for up to
that number, in any session and however the stack cuts the stream up, unless the socket fails. -/
theorem reported_bytes_are_read (stream : Bytes) (calls : List (ClientCall × List Moment))
    (first second : List Moment) (want : ℕ) :
    ∃ count lost result lost',
      ((session ClientState.call (.accepted stream) calls).2.call (.available, first)).1 = .available count lost ∧
      (((session ClientState.call (.accepted stream) calls).2.call (.available, first)).2.call
        (.read (min count want), second)).1 = .read (min count want) result lost' ∧
      (lost' = true ∨ result = ⟨(min count want : ℕ),
        (session ClientState.call (.accepted stream) calls).2.stream.take (min count want)⟩) := by
  obtain ⟨n, -, refines⟩ := session_simulated call_refines (refines_accepted stream) calls
  generalize (session ClientState.call (.accepted stream) calls).2 = s at refines ⊢
  rcases attached : s.client.rxBuffer with _ | b
  · exact ⟨0, true, ⟨-1, []⟩, true, by simp [HalowClient.available, attached],
      by simp [HalowClient.available, HalowClient.read, attached], .inl rfl⟩
  rcases counted : b.available { s.kernel with tape := first } with ⟨count, b', k'⟩
  obtain ⟨moves, atHand⟩ := available_spec (refines.valid b attached) counted
  have after : s.call (.available, first) =
      (.available count (s.client.keep b').rxBuffer.isNone, ⟨s.client.keep b', k'⟩) := by
    simp [HalowClient.available, attached, counted]
  rw [after]
  cases failed : b'.failed with
  | true =>
    have stopped : s.client.keep b' = .stopped := if_pos failed
    rw [stopped]
    exact ⟨count, true, ⟨-1, []⟩, true, rfl, by simp [HalowClient.read, HalowClient.stopped],
      .inl rfl⟩
  | false =>
    have kept : s.client.keep b' = { s.client with rxBuffer := some b' } := if_neg (by simp [failed])
    rw [kept]
    rcases taken : b'.read { k' with tape := second } (min count want) with ⟨result, b'', k''⟩
    obtain ⟨data, answer, takes, bound, exact_⟩ := read_spec moves.valid taken
    refine ⟨count, false, result, b''.failed, rfl, ?_, ?_⟩
    · cases failed' : b''.failed <;>
        simp [HalowClient.read, taken, HalowClient.keep, failed', HalowClient.stopped]
    · cases sound : b''.failed with
      | true => exact .inl rfl
      | false =>
        have whole := exact_ sound ((min_le_left count want).trans atHand)
        obtain rfl | ⟨-, -, broken⟩ := answer
        · refine .inr ?_
          have stream : data ++ b''.stream k'' = s.stream := by
            rw [takes.stream, ClientState.stream, attached]
            exact moves.stream
          rw [← stream, ← whole, List.take_left]
        · exact absurd (sound.symm.trans broken) Bool.false_ne_true

end MammotionRc.Firmware
