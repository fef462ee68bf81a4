import Mathlib.Data.Nat.Notation
import Mathlib.Logic.Function.Basic

/-! # `mmbuf.c`: counted linked lists of buffers

A buffer holds the link of the one list it can be on. The heap maps the address of a buffer to its `next` and
remembers which buffers were released; reading or writing a released one has no result. The loops are
bounded by one more than the counter of their list, and running out of rounds has no result either.
-/

namespace MammotionRc.Firmware

/-- The address of a `struct mmbuf`. -/
abbrev Mmbuf := ℕ

/-- `struct mmbuf_list`. -/
structure MmbufList where
  head : Option Mmbuf
  tail : Option Mmbuf
  len : ℕ
deriving DecidableEq, Repr

/-- `mmbuf_list_init`. -/
def MmbufList.empty : MmbufList := ⟨none, none, 0⟩

/-- The buffers, and the lists by their addresses. -/
structure MmbufHeap where
  next : Mmbuf → Option Mmbuf
  released : List Mmbuf
  lists : ℕ → MmbufList

namespace MmbufHeap

/-- `m->next` read. -/
def load (h : MmbufHeap) (m : Mmbuf) : Option (Option Mmbuf) :=
  if m ∈ h.released then none else some (h.next m)

/-- `m->next` written. -/
def store (h : MmbufHeap) (m : Mmbuf) (target : Option Mmbuf) : Option MmbufHeap :=
  if m ∈ h.released then none else some { h with next := Function.update h.next m target }

def setList (h : MmbufHeap) (i : ℕ) (l : MmbufList) : MmbufHeap :=
  { h with lists := Function.update h.lists i l }

/-- `mmbuf_list_prepend`. -/
def prepend (h : MmbufHeap) (i : ℕ) (m : Mmbuf) : Option MmbufHeap :=
  let l := h.lists i
  (h.store m l.head).map fun h => h.setList i ⟨some m, if l.tail = none then some m else l.tail, l.len + 1⟩

/-- `mmbuf_list_append`. -/
def append (h : MmbufHeap) (i : ℕ) (m : Mmbuf) : Option MmbufHeap :=
  let l := h.lists i
  (h.store m none).bind fun h =>
    match l.head, l.tail with
    | none, _ => some (h.setList i ⟨some m, some m, l.len + 1⟩)
    | some _, none => none
    | some _, some tail => (h.store tail (some m)).map fun h => h.setList i ⟨l.head, some m, l.len + 1⟩

/-- The loop of `mmbuf_find_prev` with `walk` at the buffer before `next`. -/
def findPrevLoop (h : MmbufHeap) (m : Mmbuf) : ℕ → Mmbuf → Option Mmbuf → Option (Option Mmbuf)
  | 0, _, _ => none
  | _ + 1, _, none => some none
  | rounds + 1, walk, some next =>
    if next = m then some (some walk)
    else (h.load next).bind fun after => findPrevLoop h m rounds next after

/-- `mmbuf_find_prev` on a list that is not empty. -/
def findPrev (h : MmbufHeap) (l : MmbufList) (head m : Mmbuf) : Option (Option Mmbuf) :=
  (h.load head).bind fun next => h.findPrevLoop m (l.len + 1) head next

/-- `mmbuf_list_remove` once the buffer is unlinked; `prev` is `NULL` if it was the head. -/
def unlinked (h : MmbufHeap) (i : ℕ) (l : MmbufList) (m : Mmbuf) (prev : Option Mmbuf) :
    Option (Bool × MmbufHeap) :=
  let l := { l with tail := if l.tail = some m then prev else l.tail, len := l.len - 1 }
  (h.store m none).map fun h => (true, h.setList i l)

/-- `mmbuf_list_remove`. -/
def remove (h : MmbufHeap) (i : ℕ) (m : Mmbuf) : Option (Bool × MmbufHeap) :=
  let l := h.lists i
  match l.head with
  | none => some (false, h)
  | some head =>
    if head = m then (h.load m).bind fun next => h.unlinked i { l with head := next } m none
    else
      (h.findPrev l head m).bind fun
        | none => some (false, h)
        | some prev =>
          (h.load m).bind fun next => (h.store prev next).bind fun h => h.unlinked i l m (some prev)

/-- `mmbuf_list_dequeue`. -/
def dequeue (h : MmbufHeap) (i : ℕ) : Option (Option Mmbuf × MmbufHeap) :=
  let l := h.lists i
  match l.head with
  | none => some (none, h)
  | some m =>
    (h.load m).bind fun next =>
      (h.store m none).map fun h =>
        (some m, h.setList i ⟨next, if l.tail = some m then none else l.tail, l.len - 1⟩)

/-- `mmbuf_list_dequeue_tail`. -/
def dequeueTail (h : MmbufHeap) (i : ℕ) : Option (Option Mmbuf × MmbufHeap) :=
  match (h.lists i).tail with
  | none => some (none, h)
  | some m => (h.remove i m).map fun removed => (some m, removed.2)

/-- `mmbuf_release` of a buffer. -/
def release (h : MmbufHeap) (m : Mmbuf) : Option MmbufHeap :=
  if m ∈ h.released then none else some { h with released := m :: h.released }

/-- The loop of `mmbuf_list_clear`: `next` is read before `walk` is released. -/
def clearLoop : ℕ → MmbufHeap → Option Mmbuf → Option Mmbuf → Option MmbufHeap
  | 0, _, _, _ => none
  | _ + 1, h, none, _ => some h
  | rounds + 1, h, some walk, next =>
    (h.release walk).bind fun h =>
      match next with
      | none => clearLoop rounds h none none
      | some walk => (h.load walk).bind fun next => clearLoop rounds h (some walk) next

/-- `mmbuf_list_clear`. -/
def clear (h : MmbufHeap) (i : ℕ) : Option MmbufHeap :=
  let l := h.lists i
  match l.head with
  | none => some h
  | some head =>
    (h.load head).bind fun next => (clearLoop (l.len + 1) h (some head) next).map fun h => h.setList i .empty

inductive Op
  | prepend (i : ℕ) (m : Mmbuf)
  | append (i : ℕ) (m : Mmbuf)
  | remove (i : ℕ) (m : Mmbuf)
  | dequeue (i : ℕ)
  | dequeueTail (i : ℕ)
  | clear (i : ℕ)
deriving DecidableEq, Repr

/-- What a call returns. -/
inductive Result
  | done
  | removed (found : Bool)
  | buffer (m : Option Mmbuf)
deriving DecidableEq, Repr

def perform (h : MmbufHeap) : Op → Option (Result × MmbufHeap)
  | .prepend i m => (h.prepend i m).map (.done, ·)
  | .append i m => (h.append i m).map (.done, ·)
  | .remove i m => (h.remove i m).map fun r => (.removed r.1, r.2)
  | .dequeue i => (h.dequeue i).map fun r => (.buffer r.1, r.2)
  | .dequeueTail i => (h.dequeueTail i).map fun r => (.buffer r.1, r.2)
  | .clear i => (h.clear i).map (.done, ·)

/-- No list holds anything and nothing was released. -/
def init : MmbufHeap := ⟨fun _ => none, [], fun _ => .empty⟩

/-- `mmbuf_list_sanity_check`: the walk counts `len` buffers and ends at `tail`; `count` and `prev` are those
of the source. -/
def sanityWalk (h : MmbufHeap) : ℕ → Option Mmbuf → ℕ → Option Mmbuf → Option (ℕ × Option Mmbuf)
  | 0, _, _, _ => none
  | _ + 1, none, count, prev => some (count, prev)
  | rounds + 1, some walk, count, _ =>
    (h.load walk).bind fun next => sanityWalk h rounds next (count + 1) (some walk)

/-- The two assertions of `mmbuf_list_sanity_check`. -/
def sane (h : MmbufHeap) (i : ℕ) : Bool :=
  h.sanityWalk ((h.lists i).len + 1) (h.lists i).head 0 none = some ((h.lists i).len, (h.lists i).tail)

end MmbufHeap

end MammotionRc.Firmware
