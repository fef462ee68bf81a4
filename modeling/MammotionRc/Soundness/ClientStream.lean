import MammotionRc.Firmware.HalowClient

/-! # The receive buffer of `HalowClient` keeps the stream

What is buffered, followed by what is pending in the stack and by what the peer sends later, is one
stream. Every internal call moves the two cuts in it and nothing else: `fillBuffer` moves bytes from
the stack to the buffer, `memcpy` and `_pos += n` move bytes from the buffer to the caller. `read` stops
short of what it was asked for only when the stack had no more or when the socket failed.
-/

namespace MammotionRc.Firmware

open Framing

namespace Kernel

/-- What the caller has not been handed out yet. -/
def toCome (k : Kernel) : Bytes := k.pending ++ k.coming

theorem next_spec {k k' : Kernel} {outcome : Outcome} (call : k.next = (outcome, k')) :
    k'.toCome = k.toCome ∧ k.pending <+: k'.pending := by
  unfold next at call
  split at call
  · cases call
    exact ⟨rfl, List.prefix_refl _⟩
  · cases call
    refine ⟨?_, List.prefix_append _ _⟩
    simp only [toCome, List.append_assoc, List.take_append_drop]

theorem malloc_spec {k k' : Kernel} {size : ℕ} {area : Option Bytes} (call : k.malloc size = (area, k')) :
    k'.toCome = k.toCome ∧ k.pending <+: k'.pending ∧ ∀ cells ∈ area, cells.length = size := by
  rcases answer : k.next with ⟨outcome, k₁⟩
  obtain ⟨stream, grows⟩ := next_spec answer
  cases outcome with
  | succeeds n =>
    simp only [malloc, answer, Prod.mk.injEq] at call
    obtain ⟨rfl, rfl⟩ := call
    exact ⟨stream, grows, by simp⟩
  | fails =>
    simp only [malloc, answer, Prod.mk.injEq] at call
    obtain ⟨rfl, rfl⟩ := call
    exact ⟨stream, grows, by simp⟩

theorem fionread_spec {k k' : Kernel} {count : Option ℕ} (call : k.fionread = (count, k')) :
    k'.toCome = k.toCome ∧ k.pending <+: k'.pending ∧ ∀ n ∈ count, n = k'.pending.length := by
  rcases answer : k.next with ⟨outcome, k₁⟩
  obtain ⟨stream, grows⟩ := next_spec answer
  cases outcome with
  | succeeds n =>
    simp only [fionread, answer, Prod.mk.injEq] at call
    obtain ⟨rfl, rfl⟩ := call
    exact ⟨stream, grows, by simp⟩
  | fails =>
    simp only [fionread, answer, Prod.mk.injEq] at call
    obtain ⟨rfl, rfl⟩ := call
    exact ⟨stream, grows, by simp⟩

/-- `recv` hands out the front of what is pending, and something if it can. -/
theorem recv_spec {k k' : Kernel} {room : ℕ} {data : Option Bytes} (call : k.recv room = (data, k')) :
    (data.getD []) ++ k'.toCome = k.toCome ∧
      k.pending.length ≤ (data.getD []).length + k'.pending.length ∧
      ∀ bytes ∈ data, bytes.length ≤ room ∧ (0 < room → k.pending ≠ [] → bytes ≠ []) := by
  rcases answer : k.next with ⟨outcome, k₁⟩
  obtain ⟨stream, grows⟩ := next_spec answer
  have longer := grows.length_le
  cases outcome with
  | succeeds n =>
    simp only [recv, answer, Prod.mk.injEq] at call
    obtain ⟨rfl, rfl⟩ := call
    refine ⟨?_, ?_, ?_⟩
    · rw [← stream]
      simp only [Option.getD_some, toCome, ← List.append_assoc, List.take_append_drop]
    · simp only [Option.getD_some, List.length_take, List.length_drop]
      omega
    · rintro bytes ⟨⟩
      simp only [List.length_take, ne_eq, ← List.length_eq_zero_iff]
      omega
  | fails =>
    simp only [recv, answer, Prod.mk.injEq] at call
    obtain ⟨rfl, rfl⟩ := call
    exact ⟨stream, by simpa using longer, by simp⟩

end Kernel

namespace HalowClientRxBuffer

variable {b b' : HalowClientRxBuffer} {k k' : Kernel}

/-- `[_pos, _fill)` lies in `_buffer`. -/
structure Valid (b : HalowClientRxBuffer) : Prop where
  sized : 0 < b.size
  pos_le : b.pos ≤ b.fill
  fill_le : b.fill ≤ b.size
  area : ∀ cells ∈ b.buffer, cells.length = b.size
  unallocated : b.buffer = none → b.fill = 0

theorem init_valid {size : ℕ} (sized : 0 < size) : (init size).Valid :=
  ⟨sized, le_rfl, Nat.zero_le _, by simp [init], fun _ => rfl⟩

/-- Received and not read. -/
def unread (b : HalowClientRxBuffer) : Bytes := ((b.buffer.getD []).take b.fill).drop b.pos

/-- Everything that is still to be handed to the caller. -/
def stream (b : HalowClientRxBuffer) (k : Kernel) : Bytes := b.unread ++ k.toCome

/-- What can be handed out without waiting for the peer. -/
def atHand (b : HalowClientRxBuffer) (k : Kernel) : ℕ := b.unread.length + k.pending.length

theorem Valid.length_unread (valid : b.Valid) : b.unread.length = b.fill - b.pos := by
  cases area : b.buffer with
  | none =>
    have := valid.unallocated area
    simp only [unread, area, Option.getD_none, List.take_nil, List.drop_nil, List.length_nil]
    omega
  | some cells =>
    have := valid.area cells area
    have := valid.fill_le
    simp only [unread, area, Option.getD_some, List.length_drop, List.length_take]
    omega

theorem Valid.unread_eq_nil (valid : b.Valid) (drained : b.pos = b.fill) : b.unread = [] := by
  rw [← List.length_eq_zero_iff, valid.length_unread]
  omega

/-- `memcpy` of what is there copies the front of the unread bytes. -/
theorem copy_eq {n : ℕ} (within : n ≤ b.fill - b.pos) : b.copy n = b.unread.take n := by
  rw [copy, unread, List.drop_take, List.take_take, min_eq_left within]

theorem advance_unread (n : ℕ) : (b.advance n).unread = b.unread.drop n := by
  rw [advance, unread, unread, List.drop_drop]

theorem Valid.advance {n : ℕ} (valid : b.Valid) (within : n ≤ b.fill - b.pos) : (b.advance n).Valid := by
  have := valid.pos_le
  refine ⟨valid.sized, ?_, valid.fill_le, valid.area, valid.unallocated⟩
  simp only [HalowClientRxBuffer.advance]
  omega

theorem Valid.fail (valid : b.Valid) : { b with failed := true }.Valid :=
  ⟨valid.sized, valid.pos_le, valid.fill_le, valid.area, valid.unallocated⟩

/-- A call that moved `n` bytes from the stack to the buffer. -/
structure Moves (b : HalowClientRxBuffer) (k : Kernel) (n : ℕ) (b' : HalowClientRxBuffer) (k' : Kernel) :
    Prop where
  valid : b'.Valid
  stream : b'.stream k' = b.stream k
  grown : b'.unread.length = b.unread.length + n
  atHand : b.atHand k ≤ b'.atHand k'
  size : b'.size = b.size
  failed : b.failed = true → b'.failed = true

/-- A call after which the buffer is as it was, apart from `_failed`. -/
theorem Moves.kernel (valid : b.Valid) (stream : k'.toCome = k.toCome) (grows : k.pending <+: k'.pending) :
    b.Moves k 0 b k' := by
  have := grows.length_le
  refine ⟨valid, ?_, rfl, ?_, rfl, id⟩
  · simp only [HalowClientRxBuffer.stream, stream]
  · simp only [HalowClientRxBuffer.atHand]
    omega

theorem Moves.fail {n : ℕ} (moves : b.Moves k n b' k') : b.Moves k n { b' with failed := true } k' :=
  ⟨moves.valid.fail, moves.stream, moves.grown, moves.atHand, moves.size, fun _ => rfl⟩

theorem Moves.trans {m n : ℕ} {b₁ : HalowClientRxBuffer} {k₁ : Kernel} (first : b.Moves k m b₁ k₁)
    (second : b₁.Moves k₁ n b' k') : b.Moves k (m + n) b' k' := by
  refine ⟨second.valid, second.stream.trans first.stream, ?_, first.atHand.trans second.atHand,
    second.size.trans first.size, fun was => second.failed (first.failed was)⟩
  rw [second.grown, first.grown, Nat.add_assoc]

theorem rAvailable_spec {count : ℕ} (valid : b.Valid) (call : b.rAvailable k = (count, b', k')) :
    b.Moves k 0 b' k' ∧ count ≤ k'.pending.length ∧
      (b'.failed = false → b' = b ∧ count = k'.pending.length) ∧ b'.fill = b.fill ∧ b'.pos = b.pos := by
  rcases answer : k.fionread with ⟨reply, k₁⟩
  obtain ⟨stream, grows, exact_⟩ := Kernel.fionread_spec answer
  have kept := Moves.kernel valid stream grows
  cases reply with
  | none =>
    simp only [rAvailable, answer, Prod.mk.injEq] at call
    obtain ⟨rfl, rfl, rfl⟩ := call
    exact ⟨kept.fail, Nat.zero_le _, by simp, rfl, rfl⟩
  | some n =>
    simp only [rAvailable, answer, Prod.mk.injEq] at call
    obtain ⟨rfl, rfl, rfl⟩ := call
    have same := exact_ n rfl
    exact ⟨kept, same.le, fun _ => ⟨rfl, same⟩, rfl, rfl⟩

theorem rAvailable_buffer {count : ℕ} (call : b.rAvailable k = (count, b', k')) : b'.buffer = b.buffer := by
  rcases answer : k.fionread with ⟨_ | n, k₁⟩ <;>
    (simp only [rAvailable, answer, Prod.mk.injEq] at call; obtain ⟨-, rfl, -⟩ := call; rfl)

theorem allocate_spec (valid : b.Valid) (call : b.allocate k = (b', k')) :
    b.Moves k 0 b' k' ∧ b'.fill = b.fill ∧ b'.pos = b.pos ∧
      (b'.failed = false → b'.buffer ≠ none) := by
  cases area : b.buffer with
  | some cells =>
    simp only [allocate, area, Prod.mk.injEq] at call
    obtain ⟨rfl, rfl⟩ := call
    exact ⟨Moves.kernel valid rfl (List.prefix_refl _), rfl, rfl, by simp [area]⟩
  | none =>
    have empty := valid.unallocated area
    rcases answer : k.malloc b.size with ⟨reply, k₁⟩
    obtain ⟨stream, grows, sized⟩ := Kernel.malloc_spec answer
    have kept := Moves.kernel valid stream grows
    cases reply with
    | none =>
      simp only [allocate, area, answer, Prod.mk.injEq] at call
      obtain ⟨rfl, rfl⟩ := call
      exact ⟨by simpa only [area] using kept.fail, rfl, rfl, by simp⟩
    | some cells =>
      simp only [allocate, area, answer, Prod.mk.injEq] at call
      obtain ⟨rfl, rfl⟩ := call
      have none_ : b.unread = [] := by simp [unread, area]
      have none' : { b with buffer := some cells }.unread = [] := by simp [unread, empty]
      refine ⟨⟨⟨valid.sized, valid.pos_le, valid.fill_le, ?_, by simp⟩, ?_, ?_, ?_, rfl, id⟩, rfl, rfl, by simp⟩
      · rintro fresh ⟨⟩
        exact sized cells rfl
      · simp only [HalowClientRxBuffer.stream, none_, none', stream]
      · simp only [none_, none', List.length_nil]
      · simpa only [HalowClientRxBuffer.atHand, none_, none'] using kept.atHand

theorem rewind_spec (valid : b.Valid) : b.Moves k 0 b.rewind k ∧ (b.pos = b.fill → b.rewind.fill = 0) ∧
    b.rewind.failed = b.failed ∧ b.rewind.buffer = b.buffer ∧
    (b.pos ≠ b.fill → b.rewind = b) := by
  by_cases drained : b.fill ≠ 0 ∧ b.pos = b.fill
  · have same : b.rewind = { b with fill := 0, pos := 0 } := if_pos drained
    have none_ := valid.unread_eq_nil drained.2
    have none' : { b with fill := 0, pos := 0 }.unread = [] := by simp [unread]
    rw [same]
    refine ⟨⟨⟨valid.sized, le_rfl, Nat.zero_le _, valid.area, fun _ => rfl⟩, ?_, ?_, ?_, rfl, id⟩,
      fun _ => rfl, rfl, rfl, fun other => absurd drained.2 other⟩
    · simp only [HalowClientRxBuffer.stream, none_, none']
    · simp only [none_, none', List.length_nil]
    · simp only [HalowClientRxBuffer.atHand, none_, none', le_refl]
  · have same : b.rewind = b := if_neg drained
    rw [same]
    refine ⟨Moves.kernel valid rfl (List.prefix_refl _), ?_, rfl, rfl, fun _ => rfl⟩
    intro level
    by_contra other
    exact drained ⟨other, level⟩

theorem append_unread {data cells : Bytes} (valid : b.Valid) (area : b.buffer = some cells) :
    (b.append data).unread = b.unread ++ data := by
  have sized := valid.area cells area
  have fill_le := valid.fill_le
  have pos_le := valid.pos_le
  have full : (cells.take b.fill).length = b.fill := by
    rw [List.length_take]
    omega
  have front : (cells.take b.fill ++ data ++ cells.drop (b.fill + data.length)).take (b.fill + data.length) =
      cells.take b.fill ++ data := by
    refine List.take_left' ?_
    rw [List.length_append, full]
  simp only [unread, append, area, Option.map_some, Option.getD_some, front]
  rw [List.drop_append_of_le_length (by omega)]

theorem receive_spec {n : ℕ} {cells : Bytes} (valid : b.Valid) (area : b.buffer = some cells)
    (call : b.receive k = (n, b', k')) :
    b.Moves k n b' k' ∧ b'.pos = b.pos ∧ b'.fill = b.fill + n ∧
      (b'.failed = false → b.fill < b.size → k.pending ≠ [] → 0 < n) := by
  rcases answer : k.recv (b.size - b.fill) with ⟨reply, k₁⟩
  obtain ⟨stream, atHand, productive⟩ := Kernel.recv_spec answer
  cases reply with
  | none =>
    simp only [receive, answer, Prod.mk.injEq] at call
    obtain ⟨rfl, rfl, rfl⟩ := call
    refine ⟨⟨valid.fail, ?_, rfl, ?_, rfl, fun _ => rfl⟩, rfl, rfl, by simp⟩
    · simp only [HalowClientRxBuffer.stream, ← stream, Option.getD_none, List.nil_append]
      rfl
    · simp only [Option.getD_none, List.length_nil, Nat.zero_add] at atHand
      exact Nat.add_le_add_left atHand _
  | some data =>
    simp only [receive, answer, Prod.mk.injEq] at call
    obtain ⟨rfl, rfl, rfl⟩ := call
    obtain ⟨fits, some_⟩ := productive data rfl
    simp only [Option.getD_some] at stream atHand
    have grown : (b.append data).unread = b.unread ++ data := append_unread valid area
    have sized := valid.area cells area
    have fill_le := valid.fill_le
    have pos_le := valid.pos_le
    refine ⟨⟨⟨valid.sized, ?_, ?_, ?_, ?_⟩, ?_, ?_, ?_, rfl, id⟩, rfl, rfl, ?_⟩
    · simp only [append]
      omega
    · simp only [append]
      omega
    · rintro written inside
      simp only [append, area, Option.map_some, Option.mem_def, Option.some.injEq] at inside
      subst inside
      simp only [append, List.length_append, List.length_take, List.length_drop]
      omega
    · simp [append, area]
    · rw [HalowClientRxBuffer.stream, HalowClientRxBuffer.stream, grown, List.append_assoc, stream]
    · rw [grown, List.length_append]
    · simp only [HalowClientRxBuffer.atHand, grown, List.length_append]
      omega
    · intro _ room some'
      exact List.length_pos_iff.mpr (some_ (by omega) some')

/-- `fillBuffer` moves bytes into the buffer; it comes back without any only when the socket failed, the
buffer is full or nothing is pending. -/
theorem fillBuffer_spec {n : ℕ} (valid : b.Valid) (call : b.fillBuffer k = (n, b', k')) :
    b.Moves k n b' k' ∧ (b.pos ≠ b.fill → b'.pos = b.pos ∧ b'.fill = b.fill + n) ∧
      (b'.failed = false → n = 0 → (b.pos ≠ b.fill ∧ b.size ≤ b.fill) ∨ k'.pending = []) := by
  rcases allocated : b.allocate k with ⟨b₁, k₁⟩
  obtain ⟨moves₁, fill₁, pos₁, area₁⟩ := allocate_spec valid allocated
  obtain ⟨moves₂, front, failed₂, area₂, still⟩ := rewind_spec (k := k₁) moves₁.valid
  have kept₂ (behind : b.pos ≠ b.fill) : b₁.rewind.pos = b.pos ∧ b₁.rewind.fill = b.fill := by
    rw [still (by rwa [pos₁, fill₁])]
    exact ⟨pos₁, fill₁⟩
  rw [fillBuffer, allocated] at call
  dsimp only at call
  by_cases missing : b₁.buffer = none
  · rw [if_pos missing] at call
    cases call
    exact ⟨moves₁, fun _ => ⟨pos₁, fill₁⟩, fun sound => absurd missing (area₁ sound)⟩
  rw [if_neg missing] at call
  by_cases full : b₁.rewind.size ≤ b₁.rewind.fill
  · rw [if_pos full] at call
    cases call
    refine ⟨moves₁.trans moves₂, kept₂, ?_⟩
    rintro - -
    rw [moves₂.size, moves₁.size] at full
    by_cases level : b.pos = b.fill
    · rw [front (by rw [pos₁, fill₁, level])] at full
      exact absurd full (Nat.not_le.mpr valid.sized)
    · rw [(kept₂ level).2] at full
      exact .inl ⟨level, full⟩
  rw [if_neg full] at call
  rcases counted : b₁.rewind.rAvailable k₁ with ⟨count, b₃, k₃⟩
  obtain ⟨moves₃, most, exact₃, fill₃, pos₃⟩ := rAvailable_spec moves₂.valid counted
  have moves := (moves₁.trans moves₂).trans moves₃
  have kept₃ (behind : b.pos ≠ b.fill) : b₃.pos = b.pos ∧ b₃.fill = b.fill := by
    rw [fill₃, pos₃]
    exact kept₂ behind
  rw [counted] at call
  dsimp only at call
  by_cases nothing : count = 0
  · rw [if_pos nothing] at call
    cases call
    refine ⟨moves, kept₃, fun sound _ => .inr ?_⟩
    rw [← List.length_eq_zero_iff, ← (exact₃ sound).2, nothing]
  rw [if_neg nothing] at call
  obtain ⟨cells, area⟩ : ∃ cells, b₃.buffer = some cells := by
    have present := rAvailable_buffer counted
    rw [present, area₂]
    exact Option.ne_none_iff_exists'.mp missing
  obtain ⟨moves₄, pos₄, fill₄, productive⟩ := receive_spec moves₃.valid area call
  refine ⟨by simpa using moves.trans moves₄, ?_, ?_⟩
  · intro behind
    rw [pos₄, fill₄, (kept₃ behind).1, (kept₃ behind).2]
    exact ⟨rfl, rfl⟩
  · rintro sound rfl
    have room : b₃.fill < b₃.size := by
      rw [fill₃, moves₃.size]
      exact Nat.not_le.mp full
    have some_ : k₃.pending ≠ [] := by
      rw [← List.length_pos_iff]
      omega
    exact absurd (productive sound room some_) (lt_irrefl 0)

/-- A call that handed `data` to its caller. -/
structure Takes (b : HalowClientRxBuffer) (k : Kernel) (data : Bytes) (b' : HalowClientRxBuffer) (k' : Kernel) :
    Prop where
  valid : b'.Valid
  stream : data ++ b'.stream k' = b.stream k
  size : b'.size = b.size
  failed : b.failed = true → b'.failed = true

theorem Moves.takes {n : ℕ} (moves : b.Moves k n b' k') : b.Takes k [] b' k' :=
  ⟨moves.valid, moves.stream, moves.size, moves.failed⟩

theorem Takes.trans {first second : Bytes} {b₁ : HalowClientRxBuffer} {k₁ : Kernel}
    (before : b.Takes k first b₁ k₁) (after : b₁.Takes k₁ second b' k') :
    b.Takes k (first ++ second) b' k' := by
  refine ⟨after.valid, ?_, after.size.trans before.size, fun was => after.failed (before.failed was)⟩
  rw [List.append_assoc, after.stream, before.stream]

/-- `memcpy` and `_pos += n`. -/
theorem Valid.takes {n : ℕ} (valid : b.Valid) (within : n ≤ b.fill - b.pos) :
    b.Takes k (b.copy n) (b.advance n) k := by
  refine ⟨valid.advance within, ?_, rfl, id⟩
  rw [copy_eq within, stream, advance_unread, ← List.append_assoc, List.take_append_drop, stream]

theorem Valid.length_copy {n : ℕ} (valid : b.Valid) (within : n ≤ b.fill - b.pos) : (b.copy n).length = n := by
  rw [copy_eq within, List.length_take, valid.length_unread, min_eq_left within]

/-- Bytes left in `_buffer` never keep the loop of `read` from filling it further. -/
def Refillable (b : HalowClientRxBuffer) (left : ℕ) : Prop :=
  b.fill - b.pos < left ∧ (b.pos = b.fill ∨ b.fill < b.size)

/-- The loop of `read` copies a piece of the stream, and all it was asked for when that much was at hand. -/
theorem readLoop_spec {rounds left : ℕ} {got : Bytes} {r : ReadReturn} (valid : b.Valid)
    (enough : left ≤ rounds) (call : readLoop rounds b k left got = (r, b', k')) :
    ∃ more, r = ⟨(got ++ more).length, got ++ more⟩ ∧ b.Takes k more b' k' ∧ more.length ≤ left ∧
      (b'.failed = false → left = 0 ∨ b.Refillable left → left ≤ b.atHand k → more.length = left) := by
  induction rounds generalizing b k left got with
  | zero =>
    cases call
    refine ⟨[], by simp, (Moves.kernel valid rfl (List.prefix_refl _)).takes, Nat.zero_le _, ?_⟩
    rintro - - -
    exact (Nat.le_zero.mp enough).symm
  | succ rounds ih =>
    rw [readLoop] at call
    by_cases done : left = 0
    · rw [if_pos done] at call
      cases call
      exact ⟨[], by simp, (Moves.kernel valid rfl (List.prefix_refl _)).takes, Nat.zero_le _, fun _ _ _ => done.symm⟩
    rw [if_neg done] at call
    rcases filling : b.fillBuffer k with ⟨filled, b₁, k₁⟩
    obtain ⟨moves, level, dry⟩ := fillBuffer_spec valid filling
    rw [filling] at call
    dsimp only at call
    by_cases nothing : filled = 0
    · rw [if_pos nothing] at call
      cases call
      refine ⟨[], by simp, moves.takes, Nat.zero_le _, ?_⟩
      intro sound refillable plenty
      obtain ⟨behind, room⟩ := refillable.resolve_left done
      have unread := valid.length_unread
      have grown := moves.grown
      have atHand := moves.atHand
      rcases dry sound nothing with ⟨off, full⟩ | empty
      · omega
      · simp only [HalowClientRxBuffer.atHand, empty, List.length_nil] at atHand plenty
        omega
    rw [if_neg nothing] at call
    -- the round copies what fits, and `left` is smaller for the next one
    have pos_le := moves.valid.pos_le
    have unread := moves.valid.length_unread
    have grown := moves.grown
    generalize amount : (if left < b₁.fill - b₁.pos then left else b₁.fill - b₁.pos) = toRead at call
    have within : toRead ≤ b₁.fill - b₁.pos := by split_ifs at amount <;> omega
    have progress : 0 < toRead := by split_ifs at amount <;> omega
    have most : toRead ≤ left := by split_ifs at amount <;> omega
    have drained : toRead < left → toRead = b₁.fill - b₁.pos := by split_ifs at amount <;> omega
    have copied := moves.valid.length_copy within
    obtain ⟨more, rfl, takes, bound, exact_⟩ := ih (moves.valid.advance within) (by omega) call
    refine ⟨b₁.copy toRead ++ more, by simp only [List.append_assoc],
      moves.takes.trans ((moves.valid.takes within).trans takes), ?_, ?_⟩
    · rw [List.length_append, copied]
      omega
    · intro sound _ plenty
      have atHand := moves.atHand
      have rest : (b₁.advance toRead).unread.length = b₁.unread.length - toRead := by
        rw [advance_unread, List.length_drop]
      rw [List.length_append, copied, exact_ sound ?_ ?_]
      · omega
      · by_cases last : left - toRead = 0
        · exact .inl last
        · refine .inr ⟨?_, .inl ?_⟩ <;> simp only [HalowClientRxBuffer.advance] <;> omega
      · simp only [HalowClientRxBuffer.atHand, rest] at atHand plenty ⊢
        omega

/-- `read` once something is buffered. Its second `fillBuffer` may fall short; the bytes it did bring are
then behind the ones copied first, and the loop starts with them in the buffer. -/
theorem readBuffered_spec {len : ℕ} {r : ReadReturn} (valid : b.Valid) (some_ : b.pos ≠ b.fill)
    (call : b.readBuffered k len = (r, b', k')) :
    ∃ data, r = ⟨data.length, data⟩ ∧ b.Takes k data b' k' ∧ data.length ≤ len ∧
      (b'.failed = false → len ≤ b.atHand k → data.length = len) := by
  have pos_le := valid.pos_le
  have fill_le := valid.fill_le
  have unread := valid.length_unread
  rw [readBuffered] at call
  dsimp only at call
  by_cases buffered : len ≤ b.fill - b.pos
  · rw [if_pos buffered] at call
    cases call
    have copied := valid.length_copy buffered
    exact ⟨b.copy len, by rw [copied], valid.takes buffered, copied.le, fun _ _ => copied⟩
  rw [if_neg buffered] at call
  generalize filling : (if len - (b.fill - b.pos) ≤ b.size - b.fill then b.fillBuffer k else (0, b, k)) = answer
    at call
  obtain ⟨filled, b₁, k₁⟩ := answer
  have filled_ : b.Moves k filled b₁ k₁ ∧ b₁.pos = b.pos ∧ b₁.fill = b.fill + filled ∧
      (filled = 0 ∨ len - (b.fill - b.pos) ≤ b.size - b.fill) := by
    split_ifs at filling with fits
    · obtain ⟨moves, level, -⟩ := fillBuffer_spec valid filling
      exact ⟨moves, (level some_).1, (level some_).2, .inr fits⟩
    · cases filling
      exact ⟨Moves.kernel valid rfl (List.prefix_refl _), rfl, rfl, .inl rfl⟩
  obtain ⟨moves, pos₁, fill₁, tried⟩ := filled_
  dsimp only at call
  by_cases whole : len - (b.fill - b.pos) ≤ filled
  · rw [if_pos whole] at call
    cases call
    have within : len ≤ b₁.fill - b₁.pos := by omega
    have copied := moves.valid.length_copy within
    exact ⟨b₁.copy len, by rw [copied], moves.takes.trans (moves.valid.takes within), copied.le, fun _ _ => copied⟩
  rw [if_neg whole] at call
  have within : b.fill - b.pos ≤ b₁.fill - b₁.pos := by omega
  have copied := moves.valid.length_copy within
  obtain ⟨more, rfl, takes, bound, exact_⟩ := readLoop_spec (moves.valid.advance within) le_rfl call
  refine ⟨b₁.copy (b.fill - b.pos) ++ more, rfl, moves.takes.trans ((moves.valid.takes within).trans takes), ?_, ?_⟩
  · rw [List.length_append, copied]
    omega
  · intro sound plenty
    have atHand := moves.atHand
    have rest : (b₁.advance (b.fill - b.pos)).unread.length = b₁.unread.length - (b.fill - b.pos) := by
      rw [advance_unread, List.length_drop]
    have grown := moves.grown
    have size := moves.size
    rw [List.length_append, copied, exact_ sound ?_ ?_]
    · omega
    · refine .inr ⟨?_, ?_⟩
      · simp only [HalowClientRxBuffer.advance]
        omega
      · simp only [HalowClientRxBuffer.advance]
        omega
    · simp only [HalowClientRxBuffer.atHand, rest] at atHand plenty ⊢
      omega

theorem exhausted_spec {nothing : Bool} (valid : b.Valid) (call : b.exhausted k = (nothing, b', k')) :
    (∃ n, b.Moves k n b' k') ∧ (nothing = false → b'.pos ≠ b'.fill) ∧
      (nothing = true → b'.failed = false → b.atHand k = 0) := by
  rw [exhausted] at call
  by_cases level : b.pos = b.fill
  · rw [if_pos level] at call
    rcases filling : b.fillBuffer k with ⟨filled, b₁, k₁⟩
    obtain ⟨moves, -, dry⟩ := fillBuffer_spec valid filling
    rw [filling] at call
    dsimp only at call
    simp only [Prod.mk.injEq] at call
    obtain ⟨rfl, rfl, rfl⟩ := call
    have grown := moves.grown
    have unread := moves.valid.length_unread
    have atHand := moves.atHand
    have empty := valid.unread_eq_nil level
    refine ⟨⟨filled, moves⟩, ?_, ?_⟩
    · intro some_
      have := of_decide_eq_false some_
      omega
    · intro none_ sound
      have none' := of_decide_eq_true none_
      rcases dry sound none' with ⟨off, -⟩ | dried
      · exact absurd level off
      · rw [HalowClientRxBuffer.atHand, HalowClientRxBuffer.atHand, dried, empty] at atHand
        rw [HalowClientRxBuffer.atHand, empty]
        rw [grown, empty] at atHand
        simp only [List.length_nil] at atHand ⊢
        omega
  · rw [if_neg level] at call
    cases call
    exact ⟨⟨0, Moves.kernel valid rfl (List.prefix_refl _)⟩, fun _ => level, by simp⟩

/-- What `read(dst, len)` does: `data` is the next piece of the stream, and the whole of `len` bytes when
they were at hand and the socket did not fail. -/
theorem read_spec {len : ℕ} {r : ReadReturn} (valid : b.Valid) (call : b.read k len = (r, b', k')) :
    ∃ data, (r = ⟨data.length, data⟩ ∨ r = ⟨-1, []⟩ ∧ data = [] ∧ b'.failed = true) ∧ b.Takes k data b' k' ∧
      data.length ≤ len ∧ (b'.failed = false → len ≤ b.atHand k → data.length = len) := by
  have idle : b.Takes k [] b k := (Moves.kernel valid rfl (List.prefix_refl _)).takes
  rw [read] at call
  by_cases empty : len = 0
  · rw [if_pos empty] at call
    cases call
    refine ⟨[], ?_, idle, Nat.zero_le _, fun _ _ => empty.symm⟩
    cases failed : b.failed <;> simp
  rw [if_neg empty] at call
  rcases trying : b.exhausted k with ⟨nothing, b₁, k₁⟩
  obtain ⟨⟨n, moves⟩, some_, none_⟩ := exhausted_spec valid trying
  rw [trying] at call
  dsimp only at call
  cases nothing with
  | true =>
    rw [if_pos rfl] at call
    cases call
    refine ⟨[], ?_, moves.takes, Nat.zero_le _, ?_⟩
    · cases failed : b'.failed <;> simp
    · intro sound plenty
      rw [none_ rfl sound] at plenty
      exact (Nat.le_zero.mp plenty).symm
  | false =>
    rw [if_neg Bool.false_ne_true] at call
    obtain ⟨data, rfl, takes, bound, exact_⟩ := readBuffered_spec moves.valid (some_ rfl) call
    exact ⟨data, .inl rfl, moves.takes.trans takes, bound,
      fun sound plenty => exact_ sound (plenty.trans moves.atHand)⟩

/-- `available()` counts bytes that are at hand, all of them unless the socket fails. -/
theorem available_spec {n : ℕ} (valid : b.Valid) (call : b.available k = (n, b', k')) :
    b.Moves k 0 b' k' ∧ n ≤ b'.atHand k' := by
  rcases counted : b.rAvailable k with ⟨count, b₁, k₁⟩
  obtain ⟨moves, most, -, fill, pos⟩ := rAvailable_spec valid counted
  rw [available, counted] at call
  dsimp only at call
  cases call
  have unread := moves.valid.length_unread
  refine ⟨moves, ?_⟩
  rw [atHand, unread]
  omega

/-- `peek()` shows the next byte of the stream and leaves it there. -/
theorem peek_spec {byte : Option UInt8} (valid : b.Valid) (call : b.peek k = (byte, b', k')) :
    (∃ n, b.Moves k n b' k') ∧ ∀ x ∈ byte, (b.stream k).head? = some x := by
  rcases trying : b.exhausted k with ⟨nothing, b₁, k₁⟩
  obtain ⟨⟨n, moves⟩, some_, -⟩ := exhausted_spec valid trying
  rw [peek, trying] at call
  dsimp only at call
  cases nothing with
  | true =>
    rw [if_pos rfl] at call
    cases call
    exact ⟨⟨n, moves⟩, by simp⟩
  | false =>
    rw [if_neg Bool.false_ne_true] at call
    cases call
    refine ⟨⟨n, moves⟩, fun x shown => ?_⟩
    have pos_le := moves.valid.pos_le
    have off := some_ rfl
    rw [copy_eq (by omega)] at shown
    rw [← moves.stream, stream]
    rcases cells : b'.unread with _ | ⟨y, rest⟩
    · simp [cells] at shown
    · simpa [cells] using shown

/-- `flush()` drops a piece of the stream. -/
theorem flush_spec (valid : b.Valid) (call : b.flush k = (b', k')) : ∃ dropped, b.Takes k dropped b' k' := by
  rcases counted : b.rAvailable k with ⟨count, b₁, k₁⟩
  obtain ⟨moves, -⟩ := rAvailable_spec valid counted
  rw [flush, counted] at call
  dsimp only at call
  generalize filling : (if count = 0 then (b₁, k₁) else (b₁.fillBuffer k₁).2) = answer at call
  obtain ⟨b₂, k₂⟩ := answer
  have moved : ∃ n, b₁.Moves k₁ n b₂ k₂ := by
    split_ifs at filling
    · cases filling
      exact ⟨0, Moves.kernel moves.valid rfl (List.prefix_refl _)⟩
    · rcases filled : b₁.fillBuffer k₁ with ⟨m, b₃, k₃⟩
      rw [filled] at filling
      cases filling
      exact ⟨m, (fillBuffer_spec moves.valid filled).1⟩
  obtain ⟨n, moved⟩ := moved
  dsimp only at call
  cases call
  have skipped : { b₂ with pos := b₂.fill } = b₂.advance (b₂.fill - b₂.pos) := by
    have := moved.valid.pos_le
    rw [HalowClientRxBuffer.advance, Nat.add_sub_cancel' this]
  rw [skipped]
  exact ⟨_, (moves.takes.trans moved.takes).trans (moved.valid.takes le_rfl)⟩

end HalowClientRxBuffer

end MammotionRc.Firmware
