/-
  Core/QueueFifo.lean --- the message queue is a bounded queue of byte strings.

  Whatever is added and taken, in any order and however often the indices wrap
  around, the circular array answers as a list of at most MAX_QUEUE_SIZE byte strings
  does.
-/
import IpkChat.Core.MsgQueue
import IpkChat.Foundation.Fifo

set_option autoImplicit false

namespace IpkChat.Core

open IpkChat.Foundation

/-- A call of queue_add or queue_front, where malloc succeeds.  The memory behind the
pointer passed to queue_add has as many bytes as the length says. -/
inductive QueueOp where
  | add (memory : Bytes) (msgLen : Nat) (fits : msgLen ≤ memory.length)
  | front

/-- What the call stores or asks for. -/
def QueueOp.toFifo : QueueOp → FifoOp Bytes
  | .add memory msgLen _ => .add (memory.take msgLen)
  | .front => .take

/-- The queue after the call, and what the call returns. -/
def queueStep (q : MsgQueue) : QueueOp → MsgQueue × FifoAnswer Msg
  | .add memory msgLen _ =>
      let (q, ok) := queueAdd q memory msgLen true
      (q, .added ok)
  | .front =>
      let (q, m) := queueFront q
      (q, .taken m)

/-- A byte string with its own length. -/
def Msg.whole (m : Bytes) : Msg := ⟨m, m.length⟩

/-- The queue holds these byte strings. -/
def Holds (q : MsgQueue) (l : List Bytes) : Prop := q.WellFormed ∧ q.toList = l.map Msg.whole

theorem MsgQueue.WellFormed.end_lt {q : MsgQueue} (h : q.WellFormed) : q.end_ < maxQueueSize := by
  rw [h.end_eq]
  exact Nat.mod_lt _ (by decide)

theorem Holds.size_eq {q : MsgQueue} {l : List Bytes} (h : Holds q l) : q.size = l.length := by
  rw [← MsgQueue.length_toList, h.2, List.length_map]

/-- Every call answers as the list does, and leaves what the list holds. -/
theorem queueStep_refines {q : MsgQueue} {l : List Bytes} (op : QueueOp) (h : Holds q l) :
    Holds (queueStep q op).1 (fifoStep maxQueueSize l op.toFifo).1 ∧
      (queueStep q op).2 = (fifoStep maxQueueSize l op.toFifo).2.map Msg.whole := by
  have hsize := h.size_eq
  obtain ⟨hwf, hlist⟩ := h
  cases op with
  | add memory msgLen fits =>
      simp only [queueStep, QueueOp.toFifo, fifoStep]
      by_cases hroom : l.length < maxQueueSize
      · have hok : (queueAdd q memory msgLen true).2 = true := by
          apply queueAdd_eq_true_iff.mpr
          simp only [queueIsFull, beq_eq_false_iff_ne, ne_eq, and_true]
          omega
        obtain ⟨hwf', hlist'⟩ := queueAdd_true hwf hok
        have hlength : (memory.take msgLen).length = msgLen := List.length_take_of_le fits
        rw [if_pos hroom, hok]
        refine ⟨⟨hwf', ?_⟩, rfl⟩
        rw [hlist', hlist, List.map_append, List.map_singleton, Msg.whole, hlength]
      · have hno : (queueAdd q memory msgLen true).2 = false := by
          rw [← Bool.not_eq_true, queueAdd_eq_true_iff, queueIsFull]
          have hfull := hwf.size_le
          simp only [beq_eq_false_iff_ne, ne_eq, and_true, not_not]
          omega
        rw [if_neg hroom, hno, queueAdd_false hno]
        exact ⟨⟨hwf, hlist⟩, rfl⟩
  | front =>
      simp only [queueStep, QueueOp.toFifo, fifoStep]
      cases l with
      | nil =>
          have hempty : queueFront q = (q, none) := by
            rw [queueFront, if_pos ((MsgQueue.queueIsEmpty_iff q).mpr hlist)]
          rw [hempty]
          exact ⟨⟨hwf, hlist⟩, rfl⟩
      | cons x xs =>
          obtain ⟨hfront, hwf', hlist'⟩ := queueFront_cons hwf hlist
          rw [hfront]
          exact ⟨⟨hwf', hlist'⟩, rfl⟩

/-- After any calls the indices are in range, every call has answered as the list of
at most MAX_QUEUE_SIZE byte strings does, and what was added is what was taken
followed by what the queue still holds. -/
theorem queue_refines_fifo (ops : List QueueOp) :
    let q := (answers queueStep .empty ops).1
    let l := (answers (fifoStep maxQueueSize) [] (ops.map QueueOp.toFifo)).1
    let returned := (answers (fifoStep maxQueueSize) [] (ops.map QueueOp.toFifo)).2
    (q.front < maxQueueSize ∧ q.end_ < maxQueueSize ∧ q.size ≤ maxQueueSize ∧
        q.end_ = (q.front + q.size) % maxQueueSize) ∧
      (answers queueStep .empty ops).2 = returned.map (·.map Msg.whole) ∧
      q.toList = l.map Msg.whole ∧ l.length ≤ maxQueueSize ∧
      entered (ops.map QueueOp.toFifo) returned = departed returned ++ l := by
  intro q l returned
  have hstart : Holds .empty [] := ⟨MsgQueue.wellFormed_empty, MsgQueue.toList_empty⟩
  obtain ⟨⟨hwf, hlist⟩, hanswers⟩ :=
    answers_refines QueueOp.toFifo (FifoAnswer.map Msg.whole)
      (fun q l op => queueStep_refines op) ops hstart
  refine ⟨⟨hwf.front_lt, hwf.end_lt, hwf.size_le, hwf.end_eq⟩, hanswers, hlist, ?_, ?_⟩
  · exact length_fifo_le (Nat.zero_le _)
  · exact fifo_conservation [] (ops.map QueueOp.toFifo)

end IpkChat.Core
