/-
  Foundation/Fifo.lean --- a bounded queue, as a list.

  The specification of a queue that holds at most `capacity` elements.  What has
  entered it is what has left it, in the same order, followed by what it holds
  (`fifo_conservation`).
-/
import IpkChat.Foundation.Refinement

set_option autoImplicit false

namespace IpkChat.Foundation

section Fifo

variable {α β : Type} {capacity : Nat}

/-- An operation of a queue. -/
inductive FifoOp (α : Type) where
  | add (x : α)
  | take

/-- What an operation returns. -/
inductive FifoAnswer (α : Type) where
  | added (ok : Bool)
  | taken (x : Option α)

/-- The same answer about renamed elements. -/
def FifoAnswer.map (f : α → β) : FifoAnswer α → FifoAnswer β
  | .added ok => .added ok
  | .taken x => .taken (x.map f)

/-- An element is added at the tail while there is room, and taken from the head. -/
def fifoStep (capacity : Nat) (l : List α) : FifoOp α → List α × FifoAnswer α
  | .add x => if l.length < capacity then (l ++ [x], .added true) else (l, .added false)
  | .take => (l.tail, .taken l.head?)

/-- The elements whose addition was accepted. -/
def entered : List (FifoOp α) → List (FifoAnswer α) → List α
  | .add x :: ops, .added true :: answers => x :: entered ops answers
  | _ :: ops, _ :: answers => entered ops answers
  | _, _ => []

/-- The elements taken. -/
def departed (answers : List (FifoAnswer α)) : List α :=
  answers.filterMap fun answer =>
    match answer with
    | .taken x => x
    | .added _ => none

/-- A bounded queue never holds more than its capacity. -/
theorem length_fifo_le {l : List α} (h : l.length ≤ capacity) {ops : List (FifoOp α)} :
    (answers (fifoStep capacity) l ops).1.length ≤ capacity := by
  have hstep : ∀ (l : List α) (op : FifoOp α), l.length ≤ capacity →
      (fifoStep capacity l op).1.length ≤ capacity := by
    intro l op hl
    cases op with
    | add x =>
        simp only [fifoStep]
        split
        · rename_i hroom
          rw [List.length_append]
          exact hroom
        · exact hl
    | take =>
        rw [fifoStep, List.length_tail]
        omega
  exact answers_invariant (I := fun l : List α => l.length ≤ capacity) hstep h

/-- Nothing is lost, nothing is taken twice, and the order is kept. -/
theorem fifo_conservation (l : List α) (ops : List (FifoOp α)) :
    l ++ entered ops (answers (fifoStep capacity) l ops).2 =
      departed (answers (fifoStep capacity) l ops).2 ++
        (answers (fifoStep capacity) l ops).1 := by
  induction ops generalizing l with
  | nil => simp [entered, departed]
  | cons op ops ih =>
      rw [answers_cons]
      have hrest := ih (fifoStep capacity l op).1
      cases op with
      | add x =>
          simp only [fifoStep] at hrest ⊢
          split
          · rename_i hroom
            rw [if_pos hroom, List.append_assoc] at hrest
            exact hrest
          · rename_i hfull
            rw [if_neg hfull] at hrest
            exact hrest
      | take =>
          cases l with
          | nil => exact hrest
          | cons x xs => exact congrArg (x :: ·) hrest

end Fifo

end IpkChat.Foundation
