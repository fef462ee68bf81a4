import MammotionRc.Firmware.Mmbuf
import MammotionRc.Machine.LinkedList
import MammotionRc.Machine.Simulation

/-! # The counted lists of `mmbuf.c` are lists

Any number of lists share the links of their buffers. As long as a caller adds to a list only buffers that
are on no list and were not released, every function does to its list what the list function of its name does, no
other list notices, and the counters, the tail pointers and the walks of the sanity check are right.
-/

namespace MammotionRc.Firmware

open Machine

/-- What the callers of `mmbuf.c` mean by their lists. -/
structure Queues where
  lists : ℕ → List Mmbuf
  released : List Mmbuf

namespace Queues

def init : Queues := ⟨fun _ => [], []⟩

def set (q : Queues) (i : ℕ) (xs : List Mmbuf) : Queues := { q with lists := Function.update q.lists i xs }

/-- A buffer that may be added to a list. -/
def Free (q : Queues) (m : Mmbuf) : Prop := m ∉ q.released ∧ ∀ j, m ∉ q.lists j

open Classical in
/-- The functions on lists, for callers that add only free buffers. -/
noncomputable def perform (q : Queues) : MmbufHeap.Op → Option (MmbufHeap.Result × Queues)
  | .prepend i m => if q.Free m then some (.done, q.set i (m :: q.lists i)) else none
  | .append i m => if q.Free m then some (.done, q.set i (q.lists i ++ [m])) else none
  | .remove i m => some (.removed (m ∈ q.lists i), q.set i ((q.lists i).erase m))
  | .dequeue i => some (.buffer (q.lists i).head?, q.set i (q.lists i).tail)
  | .dequeueTail i => some (.buffer (q.lists i).getLast?, q.set i (q.lists i).dropLast)
  | .clear i =>
    some (.done, { q.set i [] with released := (q.lists i).reverse ++ q.released })

end Queues

/-- A list structure that holds the buffers `xs`. -/
structure MmbufList.Holds (l : MmbufList) (next : Mmbuf → Option Mmbuf) (xs : List Mmbuf) : Prop where
  head : l.head = xs.head?
  tail : l.tail = xs.getLast?
  len : l.len = xs.length
  linked : Linked next xs
  nodup : xs.Nodup

namespace MmbufList.Holds

variable {l : MmbufList} {next : Mmbuf → Option Mmbuf} {xs ys : List Mmbuf} {m prev : Mmbuf}

theorem empty : MmbufList.empty.Holds next [] := ⟨rfl, rfl, rfl, .nil, .nil⟩

theorem congr {next' : Mmbuf → Option Mmbuf} (holds : l.Holds next xs) (same : ∀ p ∈ xs, next' p = next p) :
    l.Holds next' xs :=
  ⟨holds.head, holds.tail, holds.len, Segment.congr holds.linked same, holds.nodup⟩

theorem prepend (holds : l.Holds next xs) (fresh : m ∉ xs) :
    MmbufList.Holds ⟨some m, if l.tail = none then some m else l.tail, l.len + 1⟩
      (Function.update next m l.head) (m :: xs) := by
  refine ⟨rfl, ?_, by rw [holds.len, List.length_cons], ⟨?_, Segment.update holds.linked fresh⟩,
    List.nodup_cons.mpr ⟨fresh, holds.nodup⟩⟩
  · rw [holds.tail, List.getLast?_cons]
    cases xs.getLast? <;> rfl
  · rw [Function.update_self, holds.head, Option.or_none]

/-- The first buffer of an empty list. -/
theorem first (holds : l.Holds next []) :
    MmbufList.Holds ⟨some m, some m, l.len + 1⟩ (Function.update next m none) [m] := by
  refine ⟨rfl, rfl, by rw [holds.len]; rfl, ⟨?_, .nil⟩, List.nodup_singleton m⟩
  rw [Function.update_self]
  rfl

/-- A buffer behind the last one. -/
theorem append {last : Mmbuf} (holds : l.Holds next (xs ++ [last])) (fresh : m ∉ xs ++ [last]) :
    MmbufList.Holds ⟨l.head, some m, l.len + 1⟩
      (Function.update (Function.update next m none) last (some m)) (xs ++ [last] ++ [m]) := by
  obtain ⟨head, -, len, linked, nodup⟩ := holds
  have once : last ∉ xs := fun inside => (List.nodup_append.mp nodup).2.2 last inside last List.mem_cons_self rfl
  refine ⟨?_, by simp, by rw [len]; simp, ?_, ?_⟩
  · rw [head]
    cases xs <;> rfl
  · refine Segment.append.mpr ⟨(Segment.update (show Segment next none _ from linked) fresh).redirect once, ?_, .nil⟩
    rw [Function.update_of_ne, Function.update_self]
    · rfl
    · rintro rfl
      exact fresh (by simp)
  · refine List.nodup_append.mpr ⟨nodup, List.nodup_singleton m, ?_⟩
    rintro p inside q last rfl
    exact fresh (List.mem_singleton.mp last ▸ inside)

/-- The head is taken off. -/
theorem removeHead (holds : l.Holds next (m :: xs)) :
    MmbufList.Holds ⟨xs.head?, if l.tail = some m then none else l.tail, l.len - 1⟩
      (Function.update next m none) xs := by
  obtain ⟨-, tail, len, linked, nodup⟩ := holds
  obtain ⟨fresh, nodup'⟩ := List.nodup_cons.mp nodup
  refine ⟨rfl, ?_, by rw [len, List.length_cons, Nat.add_sub_cancel],
    Segment.update (Segment.cons.mp linked).2 fresh, nodup'⟩
  rw [tail, List.getLast?_cons]
  rcases rest : xs.getLast? with _ | last
  · simp
  · have other : last ≠ m := by
      rintro rfl
      exact fresh (List.mem_of_getLast? rest)
    simp [other]

/-- A buffer behind another one is taken off. -/
theorem removeInner (holds : l.Holds next (xs ++ prev :: m :: ys)) :
    MmbufList.Holds ⟨l.head, if l.tail = some m then some prev else l.tail, l.len - 1⟩
      (Function.update (Function.update next prev (next m)) m none) (xs ++ prev :: ys) := by
  obtain ⟨head, tail, len, linked, nodup⟩ := holds
  have split : xs ++ prev :: m :: ys = (xs ++ [prev]) ++ m :: ys := by simp
  have points : next m = ys.head? := Linked.next_eq (split ▸ linked)
  obtain ⟨nodup₁, nodup₂, apart⟩ := List.nodup_append.mp (split ▸ nodup)
  obtain ⟨freshY, nodupY⟩ := List.nodup_cons.mp nodup₂
  have freshX : m ∉ xs ++ [prev] := fun inside => apart m inside m List.mem_cons_self rfl
  have onceX : prev ∉ xs := fun inside => (List.nodup_append.mp nodup₁).2.2 prev inside prev List.mem_cons_self rfl
  have onceY : prev ∉ ys := fun inside => apart prev (by simp) prev (List.mem_cons_of_mem m inside) rfl
  have whole : xs ++ prev :: ys = (xs ++ [prev]) ++ ys := by simp
  refine ⟨?_, ?_, ?_, ?_, ?_⟩
  · rw [head]
    cases xs <;> rfl
  · rw [tail, List.getLast?_append, List.getLast?_append, List.getLast?_cons, List.getLast?_cons, List.getLast?_cons]
    rcases rest : ys.getLast? with _ | last
    · simp
    · have other : last ≠ m := by
        rintro rfl
        exact freshY (List.mem_of_getLast? rest)
      simp [other]
  · rw [len]
    simp
  · rw [whole]
    obtain ⟨front, back⟩ := Segment.append.mp (split ▸ linked)
    refine Segment.append.mpr
      ⟨Segment.update ?_ freshX, Segment.update (Segment.update (Segment.cons.mp back).2 onceY) freshY⟩
    rw [points, Option.or_none]
    exact Segment.redirect front onceX
  · rw [whole]
    refine List.nodup_append.mpr ⟨nodup₁, nodupY, fun p inside q behind => ?_⟩
    exact apart p inside q (List.mem_cons_of_mem m behind)

end MmbufList.Holds

namespace MmbufHeap

variable {h : MmbufHeap} {l : MmbufList} {xs ys : List Mmbuf} {m w head : Mmbuf}

/-- The buffer before `m` in the list that begins with `w`. -/
def before (m : Mmbuf) : Mmbuf → List Mmbuf → Option Mmbuf
  | _, [] => none
  | w, p :: rest => if p = m then some w else before m p rest

theorem before_eq_none (outside : m ∉ xs) : before m w xs = none := by
  induction xs generalizing w with
  | nil => rfl
  | cons p rest ih =>
    rw [before, if_neg (List.ne_of_not_mem_cons outside).symm]
    exact ih (List.not_mem_of_not_mem_cons outside)

theorem before_eq_some (inside : m ∈ xs) :
    ∃ pre prev post, before m w xs = some prev ∧ w :: xs = pre ++ prev :: m :: post := by
  induction xs generalizing w with
  | nil => exact absurd inside (List.not_mem_nil)
  | cons p rest ih =>
    by_cases here : p = m
    · subst here
      exact ⟨[], w, rest, if_pos rfl, rfl⟩
    · obtain ⟨pre, prev, post, found, split⟩ := ih (w := p) ((List.mem_cons.mp inside).resolve_left (Ne.symm here))
      exact ⟨w :: pre, prev, post, by rw [before, if_neg here, found], by rw [split, List.cons_append]⟩

theorem load_eq (live : m ∉ h.released) : h.load m = some (h.next m) := if_neg live

/-- The loop follows the links, and has rounds enough for the rest of the list. -/
theorem findPrevLoop_eq {rounds : ℕ} (linked : Linked h.next (w :: xs)) (live : ∀ p ∈ xs, p ∉ h.released)
    (enough : xs.length < rounds) : h.findPrevLoop m rounds w xs.head? = some (before m w xs) := by
  induction xs generalizing w rounds with
  | nil =>
    obtain ⟨rounds, rfl⟩ := Nat.exists_eq_succ_of_ne_zero (Nat.ne_of_gt enough)
    rfl
  | cons p rest ih =>
    obtain ⟨rounds, rfl⟩ := Nat.exists_eq_succ_of_ne_zero (Nat.ne_of_gt (Nat.zero_lt_of_lt enough))
    have rest_ := (Segment.cons.mp linked).2
    have points : h.next p = rest.head? := by
      rw [(Segment.cons.mp rest_).1, Option.or_none]
    rw [List.head?_cons, findPrevLoop, before]
    split_ifs with here
    · rfl
    · rw [load_eq (live p List.mem_cons_self), Option.bind_some, points]
      exact ih rest_ (fun q inside => live q (List.mem_cons_of_mem p inside)) (by simpa using enough)

theorem findPrev_eq (holds : l.Holds h.next (head :: xs)) (live : ∀ p ∈ head :: xs, p ∉ h.released) :
    h.findPrev l head m = some (before m head xs) := by
  have points : h.next head = xs.head? := by
    rw [(Segment.cons.mp holds.linked).1, Option.or_none]
  rw [findPrev, load_eq (live head List.mem_cons_self), Option.bind_some, points, holds.len]
  exact findPrevLoop_eq holds.linked (fun p inside => live p (List.mem_cons_of_mem head inside))
    (Nat.lt_succ_of_lt (Nat.lt_succ_self _))

/-- Every buffer of the list is released, each after its link was read. -/
theorem clearLoop_eq (rounds : ℕ) (linked : Linked h.next (w :: xs)) (nodup : (w :: xs).Nodup)
    (live : ∀ p ∈ w :: xs, p ∉ h.released) (enough : xs.length + 1 < rounds) :
    clearLoop rounds h (some w) xs.head? = some { h with released := (w :: xs).reverse ++ h.released } := by
  induction xs generalizing h w rounds with
  | nil =>
    obtain ⟨rounds, rfl⟩ : ∃ r, rounds = r + 2 := ⟨rounds - 2, by simp at enough; omega⟩
    have released : h.release w = some { h with released := w :: h.released } := if_neg (live w List.mem_cons_self)
    simp [clearLoop, released]
  | cons p rest ih =>
    obtain ⟨rounds, rfl⟩ := Nat.exists_eq_succ_of_ne_zero (Nat.ne_of_gt (Nat.zero_lt_of_lt enough))
    obtain ⟨fresh, nodup'⟩ := List.nodup_cons.mp nodup
    have released : h.release w = some { h with released := w :: h.released } := if_neg (live w List.mem_cons_self)
    have live' : ∀ q ∈ p :: rest, q ∉ w :: h.released := by
      intro q inside again
      obtain rfl | earlier := List.mem_cons.mp again
      · exact fresh inside
      · exact live q (List.mem_cons_of_mem w inside) earlier
    have points : h.next p = rest.head? := by
      rw [(Segment.cons.mp (Segment.cons.mp linked).2).1, Option.or_none]
    rw [List.head?_cons, clearLoop, released, Option.bind_some]
    dsimp only
    rw [load_eq (h := { h with released := w :: h.released }) (live' p List.mem_cons_self), Option.bind_some]
    dsimp only
    rw [points, ih (h := { h with released := w :: h.released }) _ (Segment.cons.mp linked).2 nodup' live'
      (by rw [List.length_cons] at enough; omega)]
    simp

/-- The heap holds the lists that the callers mean. -/
structure Represents (h : MmbufHeap) (q : Queues) : Prop where
  holds : ∀ i, (h.lists i).Holds h.next (q.lists i)
  apart : ∀ i j, i ≠ j → ∀ p ∈ q.lists i, p ∉ q.lists j
  live : ∀ i, ∀ p ∈ q.lists i, p ∉ h.released
  released : h.released = q.released

theorem represents_init : Represents init .init :=
  ⟨fun _ => .empty, fun _ _ _ _ inside => absurd inside List.not_mem_nil,
    fun _ _ inside => absurd inside List.not_mem_nil, rfl⟩

variable {q : Queues} {i : ℕ}

/-- A change of one list that the others do not notice. -/
theorem Represents.change {next' : Mmbuf → Option Mmbuf} (represents : Represents h q) (released' : List Mmbuf)
    (i : ℕ) (holds : l.Holds next' xs)
    (others : ∀ j, j ≠ i → ∀ p ∈ q.lists j, next' p = h.next p ∧ p ∉ xs ∧ p ∉ released')
    (live : ∀ p ∈ xs, p ∉ released') :
    Represents ({ h with next := next', released := released' }.setList i l)
      { q.set i xs with released := released' } := by
  have here : Function.update q.lists i xs i = xs := Function.update_self ..
  have there (j : ℕ) (other : j ≠ i) : Function.update q.lists i xs j = q.lists j := Function.update_of_ne other ..
  refine ⟨fun j => ?_, fun j k apart p inside => ?_, fun j p inside => ?_, rfl⟩
  · change (Function.update h.lists i l j).Holds next' (Function.update q.lists i xs j)
    obtain rfl | other := eq_or_ne j i
    · rw [Function.update_self, Function.update_self]
      exact holds
    · rw [Function.update_of_ne other, Function.update_of_ne other]
      exact (represents.holds j).congr fun p inside => (others j other p inside).1
  · change p ∈ Function.update q.lists i xs j at inside
    change p ∉ Function.update q.lists i xs k
    obtain rfl | other := eq_or_ne j i
    · rw [here] at inside
      rw [there k apart.symm]
      exact fun again => (others k apart.symm p again).2.1 inside
    · rw [there j other] at inside
      obtain rfl | other' := eq_or_ne k i
      · rw [here]
        exact (others j other p inside).2.1
      · rw [there k other']
        exact represents.apart j k apart p inside
  · change p ∈ Function.update q.lists i xs j at inside
    obtain rfl | other := eq_or_ne j i
    · rw [here] at inside
      exact live p inside
    · rw [there j other] at inside
      exact (others j other p inside).2.2

/-- A change of one list that releases nothing, writes links only of `written`, and gives the list only these and
buffers that it had. -/
theorem Represents.relink {next' : Mmbuf → Option Mmbuf} (represents : Represents h q) (written : List Mmbuf) (i : ℕ)
    (holds : l.Holds next' xs) (own : ∀ p ∈ written, p ∉ h.released ∧ ∀ j, j ≠ i → p ∉ q.lists j)
    (same : ∀ p, p ∉ written → next' p = h.next p) (inside : ∀ p ∈ xs, p ∈ written ∨ p ∈ q.lists i) :
    Represents ({ h with next := next' }.setList i l) (q.set i xs) := by
  have changed := represents.change h.released i holds ?_ ?_
  · have kept : { q.set i xs with released := h.released } = q.set i xs := by
      rw [represents.released]
      rfl
    exact kept ▸ changed
  · intro j other p there
    refine ⟨same p fun again => (own p again).2 j other there, fun again => ?_, represents.live j p there⟩
    obtain here | here := inside p again
    · exact (own p here).2 j other there
    · exact represents.apart i j other.symm p here there
  · intro p again
    obtain here | here := inside p again
    · exact (own p here).1
    · exact represents.live i p here

theorem store_eq {target : Option Mmbuf} (live : m ∉ h.released) :
    h.store m target = some { h with next := Function.update h.next m target } := if_neg live

theorem Represents.free (represents : Represents h q) (free : q.Free m) :
    m ∉ h.released ∧ ∀ j, m ∉ q.lists j := by
  rw [represents.released]
  exact free

theorem Represents.prepend (represents : Represents h q) (free : q.Free m) :
    ∃ h', h.prepend i m = some h' ∧ Represents h' (q.set i (m :: q.lists i)) := by
  obtain ⟨live, fresh⟩ := represents.free free
  refine ⟨_, by rw [MmbufHeap.prepend, store_eq live]; rfl, ?_⟩
  refine represents.relink [m] i ((represents.holds i).prepend (fresh i)) ?_ ?_ ?_
  · rintro p inside
    obtain rfl := List.mem_singleton.mp inside
    exact ⟨live, fun j _ => fresh j⟩
  · intro p outside
    exact Function.update_of_ne (List.ne_of_not_mem_cons outside) ..
  · intro p inside
    obtain rfl | inside := List.mem_cons.mp inside
    · exact .inl List.mem_cons_self
    · exact .inr inside

theorem Represents.append (represents : Represents h q) (free : q.Free m) :
    ∃ h', h.append i m = some h' ∧ Represents h' (q.set i (q.lists i ++ [m])) := by
  obtain ⟨live, fresh⟩ := represents.free free
  have holds := represents.holds i
  rcases List.eq_nil_or_concat (q.lists i) with empty | ⟨front, last, split⟩
  · rw [empty] at holds ⊢
    refine ⟨_, by rw [MmbufHeap.append, store_eq live, Option.bind_some, holds.head]; rfl, ?_⟩
    refine represents.relink [m] i holds.first ?_ ?_ ?_
    · rintro p inside
      obtain rfl := List.mem_singleton.mp inside
      exact ⟨live, fun j _ => fresh j⟩
    · intro p outside
      exact Function.update_of_ne (List.ne_of_not_mem_cons outside) ..
    · exact fun p inside => .inl inside
  · rw [List.concat_eq_append] at split
    have onList : last ∈ q.lists i := by simp [split]
    rw [split] at holds ⊢
    obtain ⟨head, some_⟩ : ∃ head, (h.lists i).head = some head := by
      rw [holds.head, ← Option.isSome_iff_exists]
      simp
    have tail : (h.lists i).tail = some last := by
      rw [holds.tail]
      simp
    refine ⟨_, ?_, represents.relink [m, last] i (holds.append (split ▸ fresh i)) ?_ ?_ ?_⟩
    · rw [MmbufHeap.append, store_eq live, Option.bind_some, tail, some_]
      dsimp only
      rw [store_eq (h := ⟨Function.update h.next m none, h.released, h.lists⟩) (represents.live i last onList)]
      rfl
    · rintro p inside
      obtain rfl | inside := List.mem_cons.mp inside
      · exact ⟨live, fun j _ => fresh j⟩
      · obtain rfl := List.mem_singleton.mp inside
        exact ⟨represents.live i p onList, fun j other => represents.apart i j other.symm p onList⟩
    · intro p outside
      rw [Function.update_of_ne, Function.update_of_ne (List.ne_of_not_mem_cons outside)]
      rintro rfl
      simp at outside
    · intro p inside
      rw [split]
      obtain inside | inside := List.mem_append.mp inside
      · exact .inr inside
      · exact .inl (by simpa using Or.inl (List.mem_singleton.mp inside))

/-- Buffers that a list holds are written to by its functions alone. -/
theorem Represents.own (represents : Represents h q) {written : List Mmbuf} (held : ∀ p ∈ written, p ∈ q.lists i) :
    ∀ p ∈ written, p ∉ h.released ∧ ∀ j, j ≠ i → p ∉ q.lists j :=
  fun p inside => ⟨represents.live i p (held p inside),
    fun j other => represents.apart i j other.symm p (held p inside)⟩

/-- The first buffer of a list is taken off; `dequeue` and `remove` write the same. -/
theorem Represents.removeHead (represents : Represents h q) (split : q.lists i = m :: xs) :
    Represents ({ h with next := Function.update h.next m none }.setList i
      ⟨xs.head?, if (h.lists i).tail = some m then none else (h.lists i).tail, (h.lists i).len - 1⟩)
      (q.set i xs) := by
  have holds := represents.holds i
  rw [split] at holds
  refine represents.relink [m] i holds.removeHead (represents.own ?_) ?_ ?_
  · intro p inside
    rw [split, List.mem_singleton.mp inside]
    exact List.mem_cons_self
  · intro p outside
    exact Function.update_of_ne (List.ne_of_not_mem_cons outside) ..
  · intro p inside
    rw [split]
    exact .inr (List.mem_cons_of_mem m inside)

theorem Represents.dequeue (represents : Represents h q) :
    ∃ h', h.dequeue i = some ((q.lists i).head?, h') ∧ Represents h' (q.set i (q.lists i).tail) := by
  have holds := represents.holds i
  rcases split : q.lists i with _ | ⟨m, xs⟩
  · rw [split] at holds
    refine ⟨h, by rw [MmbufHeap.dequeue, holds.head]; rfl, ?_⟩
    have kept : q.set i [] = q := by
      rw [Queues.set, ← split, Function.update_eq_self]
    rw [List.tail_nil, kept]
    exact represents
  · rw [split] at holds
    have live := represents.live i m (split ▸ List.mem_cons_self)
    refine ⟨_, ?_, represents.removeHead split⟩
    have points : h.next m = xs.head? := by
      rw [(Segment.cons.mp holds.linked).1, Option.or_none]
    rw [MmbufHeap.dequeue, holds.head, List.head?_cons]
    dsimp only
    rw [load_eq live, Option.bind_some, store_eq live, Option.map_some, points]
    rfl

/-- A buffer behind another one is taken off. -/
theorem Represents.removeInner {prev : Mmbuf} (represents : Represents h q)
    (split : q.lists i = xs ++ prev :: m :: ys) :
    Represents ({ h with next := Function.update (Function.update h.next prev (h.next m)) m none }.setList i
      ⟨(h.lists i).head, if (h.lists i).tail = some m then some prev else (h.lists i).tail, (h.lists i).len - 1⟩)
      (q.set i (xs ++ prev :: ys)) := by
  have holds := represents.holds i
  rw [split] at holds
  refine represents.relink [prev, m] i holds.removeInner (represents.own ?_) ?_ ?_
  · intro p written
    rw [split]
    obtain rfl | written := List.mem_cons.mp written
    · simp
    · rw [List.mem_singleton.mp written]
      simp
  · intro p outside
    rw [Function.update_of_ne, Function.update_of_ne (List.ne_of_not_mem_cons outside)]
    exact List.ne_of_not_mem_cons (List.not_mem_of_not_mem_cons outside)
  · intro p again
    rw [split]
    refine .inr ?_
    simp only [List.mem_append, List.mem_cons] at again ⊢
    tauto

theorem Represents.remove (represents : Represents h q) :
    ∃ h', h.remove i m = some (decide (m ∈ q.lists i), h') ∧ Represents h' (q.set i ((q.lists i).erase m)) := by
  have holds := represents.holds i
  have live := represents.live i
  have unchanged (outside : m ∉ q.lists i) : q.set i ((q.lists i).erase m) = q := by
    rw [List.erase_of_not_mem outside, Queues.set, Function.update_eq_self]
  rcases split : q.lists i with _ | ⟨head, xs⟩
  · rw [split] at holds
    refine ⟨h, by rw [MmbufHeap.remove, holds.head]; simp, ?_⟩
    have kept := unchanged (by simp [split])
    rw [split] at kept
    rw [kept]
    exact represents
  · rw [split] at holds live
    by_cases first : head = m
    · subst first
      have points : h.next head = xs.head? := by
        rw [(Segment.cons.mp holds.linked).1, Option.or_none]
      refine ⟨_, ?_, by rw [List.erase_cons_head]; exact represents.removeHead split⟩
      rw [MmbufHeap.remove, holds.head, List.head?_cons]
      dsimp only
      rw [if_pos rfl, load_eq (live head List.mem_cons_self), Option.bind_some, unlinked,
        store_eq (live head List.mem_cons_self), Option.map_some, points]
      simp
    · have found := findPrev_eq (m := m) holds live
      by_cases inside : m ∈ xs
      · obtain ⟨pre, prev, post, before_, cut⟩ := before_eq_some (w := head) inside
        rw [before_] at found
        have livePrev : prev ∉ h.released := live prev (cut ▸ by simp)
        have liveM : m ∉ h.released := live m (List.mem_cons_of_mem head inside)
        have apart : pre ++ prev :: m :: post = (pre ++ [prev]) ++ m :: post := by simp
        have nodup := holds.nodup
        rw [cut, apart] at nodup
        have once : m ∉ pre ++ [prev] :=
          fun again => (List.nodup_append.mp nodup).2.2 m again m List.mem_cons_self rfl
        have erased : (head :: xs).erase m = pre ++ prev :: post := by
          rw [cut, apart, List.erase_append_right _ once, List.erase_cons_head]
          simp
        have after := represents.removeInner (split.trans cut)
        rw [← erased] at after
        refine ⟨_, ?_, after⟩
        rw [MmbufHeap.remove, holds.head, List.head?_cons]
        dsimp only
        rw [if_neg first, found, Option.bind_some]
        dsimp only
        rw [load_eq liveM, Option.bind_some, store_eq livePrev, Option.bind_some, unlinked,
          store_eq (h := ⟨Function.update h.next prev (h.next m), h.released, h.lists⟩) liveM, Option.map_some]
        simp [inside, holds.head]
      · rw [before_eq_none inside] at found
        have outside : m ∉ head :: xs := by
          rw [List.mem_cons, not_or]
          exact ⟨Ne.symm first, inside⟩
        refine ⟨h, ?_, ?_⟩
        · rw [MmbufHeap.remove, holds.head, List.head?_cons]
          dsimp only
          rw [if_neg first, found, Option.bind_some, decide_eq_false outside]
        · have kept := unchanged (split ▸ outside)
          rw [split] at kept
          rw [kept]
          exact represents

theorem Represents.dequeueTail (represents : Represents h q) :
    ∃ h', h.dequeueTail i = some ((q.lists i).getLast?, h') ∧ Represents h' (q.set i (q.lists i).dropLast) := by
  have holds := represents.holds i
  rcases List.eq_nil_or_concat (q.lists i) with empty | ⟨front, last, split⟩
  · rw [empty] at holds ⊢
    refine ⟨h, by rw [MmbufHeap.dequeueTail, holds.tail]; rfl, ?_⟩
    have kept : q.set i [] = q := by
      rw [Queues.set, ← empty, Function.update_eq_self]
    rw [List.dropLast_nil, kept]
    exact represents
  · rw [List.concat_eq_append] at split
    obtain ⟨h', removed, after⟩ := represents.remove (i := i) (m := last)
    have tail : (h.lists i).tail = some last := by
      rw [holds.tail, split]
      simp
    refine ⟨h', ?_, ?_⟩
    · rw [MmbufHeap.dequeueTail, tail, split]
      dsimp only
      rw [removed]
      simp
    · have nodup := holds.nodup
      rw [split] at nodup after
      have once : last ∉ front := fun inside => (List.nodup_append.mp nodup).2.2 last inside last List.mem_cons_self rfl
      rw [List.erase_append_right _ once, List.erase_cons_head, List.append_nil] at after
      rwa [split, List.dropLast_concat]

theorem Represents.clear (represents : Represents h q) :
    ∃ h', h.clear i = some h' ∧
      Represents h' { q.set i [] with released := (q.lists i).reverse ++ q.released } := by
  have holds := represents.holds i
  have live := represents.live i
  rcases split : q.lists i with _ | ⟨head, xs⟩
  · rw [split] at holds
    refine ⟨h, by rw [MmbufHeap.clear, holds.head]; rfl, ?_⟩
    have kept : { q.set i [] with released := q.released } = q := by
      rw [Queues.set, ← split, Function.update_eq_self]
    rw [List.reverse_nil, List.nil_append, kept]
    exact represents
  · rw [split] at holds live
    have points : h.next head = xs.head? := by
      rw [(Segment.cons.mp holds.linked).1, Option.or_none]
    have cleared := clearLoop_eq ((h.lists i).len + 1) holds.linked holds.nodup live
      (by rw [holds.len, List.length_cons]; omega)
    refine ⟨{ h with released := (head :: xs).reverse ++ h.released }.setList i .empty, ?_, ?_⟩
    · rw [MmbufHeap.clear, holds.head, List.head?_cons]
      dsimp only
      rw [load_eq (live head List.mem_cons_self), Option.bind_some, points, cleared, Option.map_some]
    · rw [← represents.released]
      have holds' : MmbufList.Holds .empty h.next [] := .empty
      refine represents.change _ i holds' ?_ fun _ inside => absurd inside List.not_mem_nil
      intro j other p there
      refine ⟨rfl, List.not_mem_nil, fun again => ?_⟩
      obtain here | before := List.mem_append.mp again
      · exact represents.apart j i other p there (split ▸ List.mem_reverse.mp here)
      · exact represents.live j p there before

/-- Every call that the callers' lists accept comes back with their answer and leaves their lists. -/
theorem perform_follows (h : MmbufHeap) (q : Queues) (op : Op) (answer : Result) (q' : Queues)
    (represents : Represents h q) (accepted : q.perform op = some (answer, q')) :
    ∃ h', h.perform op = some (answer, h') ∧ Represents h' q' := by
  cases op with
  | prepend i m =>
    rw [Queues.perform] at accepted
    split_ifs at accepted with free
    cases accepted
    obtain ⟨h', called, after⟩ := represents.prepend (i := i) free
    exact ⟨h', by rw [perform, called]; rfl, after⟩
  | append i m =>
    rw [Queues.perform] at accepted
    split_ifs at accepted with free
    cases accepted
    obtain ⟨h', called, after⟩ := represents.append (i := i) free
    exact ⟨h', by rw [perform, called]; rfl, after⟩
  | remove i m =>
    cases accepted
    obtain ⟨h', called, after⟩ := represents.remove (i := i) (m := m)
    exact ⟨h', by rw [perform, called]; simp, after⟩
  | dequeue i =>
    cases accepted
    obtain ⟨h', called, after⟩ := represents.dequeue (i := i)
    exact ⟨h', by rw [perform, called]; rfl, after⟩
  | dequeueTail i =>
    cases accepted
    obtain ⟨h', called, after⟩ := represents.dequeueTail (i := i)
    exact ⟨h', by rw [perform, called]; rfl, after⟩
  | clear i =>
    cases accepted
    obtain ⟨h', called, after⟩ := represents.clear (i := i)
    exact ⟨h', by rw [perform, called]; rfl, after⟩

theorem sanityWalk_eq (rounds count : ℕ) (prev : Option Mmbuf) (linked : Linked h.next xs)
    (live : ∀ p ∈ xs, p ∉ h.released) (enough : xs.length < rounds) :
    h.sanityWalk rounds xs.head? count prev = some (count + xs.length, xs.getLast?.or prev) := by
  induction xs generalizing rounds count prev with
  | nil =>
    obtain ⟨rounds, rfl⟩ := Nat.exists_eq_succ_of_ne_zero (Nat.ne_of_gt enough)
    rfl
  | cons p rest ih =>
    obtain ⟨rounds, rfl⟩ := Nat.exists_eq_succ_of_ne_zero (Nat.ne_of_gt (Nat.zero_lt_of_lt enough))
    obtain ⟨points, linked'⟩ := Segment.cons.mp linked
    rw [List.head?_cons, sanityWalk, load_eq (live p List.mem_cons_self), Option.bind_some, points, Option.or_none,
      ih _ _ _ linked' (fun q inside => live q (List.mem_cons_of_mem p inside)) (Nat.lt_of_succ_lt_succ enough),
      List.getLast?_cons, List.length_cons]
    cases rest.getLast? <;> simp <;> omega

/-- Both assertions of the sanity check hold of a list that is represented. -/
theorem Represents.sane (represents : Represents h q) (i : ℕ) : h.sane i = true := by
  have holds := represents.holds i
  have walk := sanityWalk_eq ((h.lists i).len + 1) 0 none holds.linked
    (represents.live i) (by rw [holds.len]; exact Nat.lt_succ_self _)
  rw [MmbufHeap.sane, decide_eq_true_iff, holds.head, walk, holds.len, holds.tail, Nat.zero_add, Option.or_none]

/-- Any calls on any number of lists, by callers that add only buffers which are on no list and were not
released: every call returns, with the answer of the list function it stands for, no buffer is touched after
its release, and in the end each list passes the sanity check, holds in its links what the callers mean it to
hold and shares no buffer with another. -/
theorem mmbuf_lists_are_lists {ops : List Op} {answers : List Result} {q : Queues}
    (accepted : sessionOrAbort Queues.perform .init ops = some (answers, q)) :
    ∃ h, sessionOrAbort perform init ops = some (answers, h) ∧ (∀ i, h.sane i = true) ∧
      (∀ i, (h.lists i).len = (q.lists i).length ∧ (h.lists i).head = (q.lists i).head? ∧
        Linked h.next (q.lists i)) ∧
      (∀ i, (q.lists i).Nodup) ∧ ∀ i j, i ≠ j → ∀ m ∈ q.lists i, m ∉ q.lists j := by
  obtain ⟨h, ran, represents⟩ := sessionOrAbort_follows perform_follows represents_init accepted
  refine ⟨h, ran, represents.sane, fun i => ?_, fun i => (represents.holds i).nodup, represents.apart⟩
  have holds := represents.holds i
  exact ⟨holds.len, holds.head, holds.linked⟩

theorem mmbuf_lists_are_lists_twoBuffers : ∃ h, sessionOrAbort perform init
      [.append 0 5, .prepend 0 7, .dequeueTail 0] = some ([.done, .done, .buffer (some 5)], h) := by
  have accepted : ∃ q, sessionOrAbort Queues.perform .init [.append 0 5, .prepend 0 7, .dequeueTail 0] =
      some ([.done, .done, .buffer (some 5)], q) := by
    simp [sessionOrAbort, Queues.perform, Queues.Free, Queues.init, Queues.set, Function.update_apply]
  obtain ⟨q, accepted⟩ := accepted
  obtain ⟨h, ran, -⟩ := mmbuf_lists_are_lists accepted
  exact ⟨h, ran⟩

end MmbufHeap

end MammotionRc.Firmware
