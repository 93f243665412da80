/-
  Foundation/Refinement.lean --- machines that answer, and when one refines another.

  A machine takes an operation in each state and gives an answer.  One machine
  refines another if a relation between their states is kept by every operation and
  makes the answers agree (`answers_refines`).  Two states of one machine are
  indistinguishable if no operations ever tell them apart.  `Agree` is what one step of
  two machines leaves that run side by side; its rule takes the two outcomes apart.
-/
import Mathlib

set_option autoImplicit false

namespace IpkChat.Foundation

section Machines

variable {σ τ ι κ ο π : Type} {step : σ → ι → σ × ο} {s s' : σ} {ops : List ι}

/-- The state after the operations, and their answers in order. -/
def answers (step : σ → ι → σ × ο) : σ → List ι → σ × List ο
  | s, [] => (s, [])
  | s, op :: ops =>
      let (s', answer) := step s op
      let (s'', rest) := answers step s' ops
      (s'', answer :: rest)

@[simp] theorem answers_nil (s : σ) : answers step s [] = (s, []) := rfl

@[simp] theorem answers_cons (s : σ) (op : ι) (ops : List ι) :
    answers step s (op :: ops) = ((answers step (step s op).1 ops).1,
      (step s op).2 :: (answers step (step s op).1 ops).2) := rfl

/-- What holds at the start and is kept by every operation. -/
theorem answers_invariant {I : σ → Prop} (hstep : ∀ s op, I s → I (step s op).1) (h : I s) :
    I (answers step s ops).1 := by
  induction ops generalizing s with
  | nil => exact h
  | cons op ops ih => exact ih (hstep s op h)

/-- The concrete machine answers as the abstract one does, through a reading of the
operations and a rendering of the answers. -/
theorem answers_refines {step' : τ → κ → τ × π} {R : σ → τ → Prop} (read : ι → κ) (render : π → ο)
    (hstep : ∀ s t op, R s t → R (step s op).1 (step' t (read op)).1 ∧
      (step s op).2 = render (step' t (read op)).2)
    (ops : List ι) {t : τ} (h : R s t) :
    R (answers step s ops).1 (answers step' t (ops.map read)).1 ∧
      (answers step s ops).2 = (answers step' t (ops.map read)).2.map render := by
  induction ops generalizing s t with
  | nil => exact ⟨h, rfl⟩
  | cons op ops ih =>
      obtain ⟨hnext, hanswer⟩ := hstep s t op h
      obtain ⟨hend, hrest⟩ := ih hnext
      refine ⟨hend, ?_⟩
      rw [answers_cons, List.map_cons, answers_cons, List.map_cons, hanswer, hrest]

/-- No operations ever tell the two states apart. -/
def Indistinguishable (step : σ → ι → σ × ο) (s s' : σ) : Prop :=
  ∀ ops, (answers step s ops).2 = (answers step s' ops).2

theorem Indistinguishable.refl (s : σ) : Indistinguishable step s s := fun _ => rfl

/-- States related by a relation that every operation keeps, with equal answers. -/
theorem indistinguishable_of_bisimulation {R : σ → σ → Prop}
    (hstep : ∀ s s' op, R s s' → R (step s op).1 (step s' op).1 ∧ (step s op).2 = (step s' op).2)
    (h : R s s') : Indistinguishable step s s' := by
  intro ops
  have hanswers := (answers_refines id id hstep ops h).2
  simpa using hanswers

end Machines

/-! ## Outcomes -/

section Outcomes

variable {σ τ α : Type} {R : σ → τ → Prop} {res : σ × α} {res' : τ × α}

/-- Two outcomes with related states and one answer. -/
structure Agree (R : σ → τ → Prop) (res : σ × α) (res' : τ × α) : Prop where
  related : R res.1 res'.1
  answer_eq : res.2 = res'.2

/-- What follows outcomes that agree starts from related states, with one answer. -/
@[elab_as_elim] theorem Agree.elim {motive : σ × α → τ × α → Prop} (h : Agree R res res')
    (hboth : ∀ s t a, R s t → motive (s, a) (t, a)) : motive res res' := by
  obtain ⟨s, a⟩ := res
  obtain ⟨t, b⟩ := res'
  obtain ⟨hrelated, hanswer⟩ := h
  obtain rfl : a = b := hanswer
  exact hboth s t a hrelated

/-- The answers may be passed on in another form. -/
theorem Agree.map {β : Type} (h : Agree R res res') (f : α → β) :
    Agree R (res.1, f res.2) (res'.1, f res'.2) :=
  ⟨h.related, congrArg f h.answer_eq⟩

end Outcomes

end IpkChat.Foundation
