/-
  Core/MsgQueue.lean --- lib/queue.h and src/queue.c.

  The circular queue of datagrams received while a CONFIRM was awaited.  A slot
  holds the heap copy of one datagram and its length.
-/
import IpkChat.Core.Common
import IpkChat.Foundation.Ring

set_option autoImplicit false

namespace IpkChat.Core

open IpkChat.Foundation

/-- MAX_QUEUE_SIZE. -/
def maxQueueSize : Nat := 16

/-- The structure msg_t. -/
structure Msg where
  msg : Bytes
  msgLen : Nat
  deriving DecidableEq, Repr, Inhabited

/-- The structure msg_queue_t. -/
structure MsgQueue where
  msgs : List Msg
  front : Nat
  end_ : Nat
  size : Nat
  deriving DecidableEq, Repr, Inhabited

/-- The zero-initialised global msg_queue. -/
def MsgQueue.empty : MsgQueue := ⟨List.replicate maxQueueSize ⟨[], 0⟩, 0, 0, 0⟩

/-- No message waits in the queue. -/
def queueIsEmpty (q : MsgQueue) : Bool := q.size == 0

/-- Every cell of the array is in use. -/
def queueIsFull (q : MsgQueue) : Bool := q.size == maxQueueSize

/-- `alloc` tells whether malloc succeeds. -/
def queueAdd (q : MsgQueue) (msg : Bytes) (msgLen : Nat) (alloc : Bool) : MsgQueue × Bool :=
  if queueIsFull q then (q, false)
  else if !alloc then (q, false)
  else
    let copy := msg.take msgLen
    ({ q with
        msgs := q.msgs.set q.end_ ⟨copy, msgLen⟩
        end_ := (q.end_ + 1) % maxQueueSize
        size := q.size + 1 }, true)

/-- The oldest message leaves the queue; its cell is not cleared. -/
def queueFront (q : MsgQueue) : MsgQueue × Option Msg :=
  if queueIsEmpty q then (q, none)
  else
    ({ q with
        front := (q.front + 1) % maxQueueSize
        size := q.size - 1 }, some (q.msgs.getD q.front default))

/-! ## The queue as a list -/

namespace MsgQueue

/-- The stored datagrams, oldest first. -/
def toList (q : MsgQueue) : List Msg := window q.msgs q.front q.size

/-- The indices are in range and the end lies `size` slots after the front. -/
structure WellFormed (q : MsgQueue) : Prop where
  length_eq : q.msgs.length = maxQueueSize
  front_lt : q.front < maxQueueSize
  size_le : q.size ≤ maxQueueSize
  end_eq : q.end_ = (q.front + q.size) % maxQueueSize

theorem wellFormed_empty : empty.WellFormed :=
  ⟨rfl, by decide, by decide, rfl⟩

@[simp] theorem toList_empty : empty.toList = [] := rfl

@[simp] theorem length_toList (q : MsgQueue) : q.toList.length = q.size := window_length _ _ _

theorem queueIsEmpty_iff (q : MsgQueue) : queueIsEmpty q = true ↔ q.toList = [] := by
  rw [← List.length_eq_zero_iff, length_toList, queueIsEmpty, beq_iff_eq]

end MsgQueue

/-- A refused addition leaves the queue as it was. -/
theorem queueAdd_false {q : MsgQueue} {msg : Bytes} {msgLen : Nat} {alloc : Bool}
    (h : (queueAdd q msg msgLen alloc).2 = false) : (queueAdd q msg msgLen alloc).1 = q := by
  simp only [queueAdd] at h ⊢
  split
  · rfl
  · rename_i hfull
    split
    · rfl
    · rename_i halloc
      simp [hfull, halloc] at h

theorem queueAdd_eq_true_iff {q : MsgQueue} {msg : Bytes} {msgLen : Nat} {alloc : Bool} :
    (queueAdd q msg msgLen alloc).2 = true ↔ queueIsFull q = false ∧ alloc = true := by
  cases hfull : queueIsFull q <;> cases alloc <;> simp [queueAdd, hfull]

/-- Only a full queue or a failed allocation makes an addition fail. -/
theorem queueIsFull_of_refused {q : MsgQueue} {msg : Bytes} {msgLen : Nat} {alloc : Bool}
    (halloc : alloc = true) (h : (queueAdd q msg msgLen alloc).2 = false) :
    queueIsFull q = true := by
  by_contra hroom
  rw [queueAdd_eq_true_iff.mpr ⟨Bool.eq_false_iff.mpr hroom, halloc⟩] at h
  cases h

/-- A successful addition appends the datagram. -/
theorem queueAdd_true {q : MsgQueue} (hq : q.WellFormed) {msg : Bytes} {msgLen : Nat}
    {alloc : Bool} (h : (queueAdd q msg msgLen alloc).2 = true) :
    (queueAdd q msg msgLen alloc).1.WellFormed ∧
      (queueAdd q msg msgLen alloc).1.toList = q.toList ++ [⟨msg.take msgLen, msgLen⟩] := by
  obtain ⟨hfull, rfl⟩ := queueAdd_eq_true_iff.mp h
  obtain ⟨hlen, hfront, hsize, hend⟩ := hq
  have hlt : q.size < maxQueueSize := by
    simp only [queueIsFull, beq_eq_false_iff_ne, ne_eq] at hfull
    omega
  have heq : (queueAdd q msg msgLen true).1 = { q with
      msgs := q.msgs.set q.end_ ⟨msg.take msgLen, msgLen⟩
      end_ := (q.end_ + 1) % maxQueueSize
      size := q.size + 1 } := by
    simp [queueAdd, hfull]
  rw [heq]
  refine ⟨⟨by simpa using hlen, hfront, hlt, ?_⟩, ?_⟩
  · simp only [hend, Nat.mod_add_mod, Nat.add_assoc]
  · have hroom : q.size < q.msgs.length := by omega
    have hpush : window (q.msgs.set ((q.front + q.size) % q.msgs.length) ⟨msg.take msgLen, msgLen⟩)
        q.front (q.size + 1) = _ := window_push hroom _
    rw [hlen, ← hend] at hpush
    exact hpush

/-- Taking the front of the queue removes its oldest datagram. -/
theorem queueFront_cons {q : MsgQueue} (hq : q.WellFormed) {m : Msg} {ms : List Msg}
    (h : q.toList = m :: ms) :
    (queueFront q).2 = some m ∧ (queueFront q).1.WellFormed ∧ (queueFront q).1.toList = ms := by
  obtain ⟨hlen, hfront, hsize, hend⟩ := hq
  obtain ⟨n, hn⟩ : ∃ n, q.size = n + 1 := by
    have := congrArg List.length h
    simp only [MsgQueue.length_toList, List.length_cons] at this
    exact ⟨ms.length, this⟩
  have hpop := window_pop q.msgs q.front n
  rw [← hn, hlen, Nat.mod_eq_of_lt hfront] at hpop
  rw [MsgQueue.toList, hpop, List.cons.injEq] at h
  have hne : queueIsEmpty q = false := by simp [queueIsEmpty, hn]
  have heq : queueFront q =
      ({ q with front := (q.front + 1) % maxQueueSize, size := n },
        some (q.msgs.getD q.front default)) := by
    simp [queueFront, hne, hn]
  rw [heq]
  refine ⟨by rw [h.1], ⟨hlen, Nat.mod_lt _ (by decide), by simp only; omega, ?_⟩, h.2⟩
  simp only [hend, hn, Nat.mod_add_mod]
  congr 1
  omega

/-- What queue_front returns was the oldest datagram. -/
theorem queueFront_some {q queue : MsgQueue} (hq : q.WellFormed) {m : Msg}
    (h : queueFront q = (queue, some m)) :
    queue.WellFormed ∧ q.toList = m :: queue.toList := by
  cases hl : q.toList with
  | nil =>
      rw [queueFront, (MsgQueue.queueIsEmpty_iff q).mpr hl] at h
      simp at h
  | cons x xs =>
      obtain ⟨hfront, hwf, hrest⟩ := queueFront_cons hq hl
      rw [h] at hfront hwf hrest
      obtain rfl : m = x := by simpa using hfront
      exact ⟨hwf, by rw [hrest]⟩

end IpkChat.Core
