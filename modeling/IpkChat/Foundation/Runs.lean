/-
  Foundation/Runs.lean --- runs of a machine that reads labels.

  A machine is a partial function from a state and a label to the next state: what
  the world does to it, or lets it do, is in the label.  A run is a list of labels
  that it accepts one after the other.  An invariant may speak of the labels read so
  far; `runFrom_invariant` is the rule that proves it.
-/
import Mathlib

set_option autoImplicit false

namespace IpkChat.Foundation

section Runs

variable {σ ι : Type} {step : σ → ι → Option σ} {s s' s'' : σ} {l : ι} {ls ls' : List ι}

/-- The state after all labels, if each is accepted in its turn. -/
def runFrom (step : σ → ι → Option σ) (s : σ) (ls : List ι) : Option σ := ls.foldlM step s

@[simp] theorem runFrom_nil : runFrom step s [] = some s := rfl

theorem runFrom_append : runFrom step s (ls ++ ls') = (runFrom step s ls).bind
    fun s' => runFrom step s' ls' := by
  unfold runFrom
  rw [List.foldlM_append]
  rfl

theorem runFrom_cons : runFrom step s (l :: ls) = (step s l).bind fun s' => runFrom step s' ls := by
  unfold runFrom
  rw [List.foldlM_cons]
  rfl

theorem runFrom_trans (h : runFrom step s ls = some s') (h' : runFrom step s' ls' = some s'') :
    runFrom step s (ls ++ ls') = some s'' := by
  rw [runFrom_append, h]
  exact h'

theorem runFrom_single (h : step s l = some s') : runFrom step s [l] = some s' := by
  rw [runFrom_cons, h]
  rfl

/-- A run splits wherever its labels do. -/
theorem runFrom_split (h : runFrom step s (ls ++ ls') = some s'') :
    ∃ s', runFrom step s ls = some s' ∧ runFrom step s' ls' = some s'' := by
  rw [runFrom_append] at h
  exact Option.bind_eq_some_iff.mp h

/-- The last step of a run. -/
theorem runFrom_concat_iff : runFrom step s (ls ++ [l]) = some s'' ↔
    ∃ s', runFrom step s ls = some s' ∧ step s' l = some s'' := by
  constructor
  · intro h
    obtain ⟨s', hrun, hlast⟩ := runFrom_split h
    rw [runFrom_cons] at hlast
    obtain ⟨t, hstep, ht⟩ := Option.bind_eq_some_iff.mp hlast
    rw [runFrom_nil] at ht
    exact ⟨s', hrun, by rw [hstep, ht]⟩
  · rintro ⟨s', hrun, hstep⟩
    exact runFrom_trans hrun (runFrom_single hstep)

/-- A property of the points of a run, with the labels read before each. -/
def Throughout (step : σ → ι → Option σ) (s : σ) (P : List ι → σ → Prop) (ls : List ι) : Prop :=
  ∀ before after s', ls = before ++ after → runFrom step s before = some s' → P before s'

/-- A property of the labels of a run, with the state that each meets. -/
def EveryStep (step : σ → ι → Option σ) (s : σ) (P : List ι → σ → ι → Prop) (ls : List ι) : Prop :=
  ∀ before l after s', ls = before ++ l :: after → runFrom step s before = some s' → P before s' l

theorem EveryStep.left {P : List ι → σ → ι → Prop} (h : EveryStep step s P (ls ++ ls')) :
    EveryStep step s P ls := by
  intro before l after s' hsplit hrun
  apply h before l (after ++ ls') s' _ hrun
  rw [hsplit, List.append_assoc, List.cons_append]

/-- One more step with the property. -/
theorem EveryStep.concat {P : List ι → σ → ι → Prop} (h : EveryStep step s P ls)
    (hlast : ∀ s', runFrom step s ls = some s' → P ls s' l) : EveryStep step s P (ls ++ [l]) := by
  intro before l' after s' hsplit hrun
  rcases List.eq_nil_or_concat after with rfl | ⟨after, l'', rfl⟩
  · obtain ⟨rfl, hl⟩ := List.append_inj' hsplit rfl
    obtain rfl : l = l' := (List.cons.inj hl).1
    exact hlast s' hrun
  · rw [List.concat_eq_append, ← List.cons_append, ← List.append_assoc] at hsplit
    exact h before l' after s' (List.append_inj' hsplit rfl).1 hrun

/-- What holds at the start, and is kept by every step that has the property which all
steps of the run have. -/
theorem EveryStep.invariant {P : List ι → σ → ι → Prop} {I : List ι → σ → Prop}
    (hall : EveryStep step s P ls) (hstart : I [] s)
    (hstep : ∀ before s' l s'', I before s' → P before s' l → step s' l = some s'' →
      I (before ++ [l]) s'')
    (h : runFrom step s ls = some s') : I ls s' := by
  induction ls using List.reverseRecOn generalizing s' with
  | nil =>
      obtain rfl := Option.some.inj h
      exact hstart
  | append_singleton ls l ih =>
      obtain ⟨t, hrun, hlast⟩ := runFrom_concat_iff.mp h
      exact hstep ls t l s' (ih hall.left hrun) (hall ls l [] t rfl hrun) hlast

/-- What holds at the start and is kept by every step, of the state and of the labels
read so far. -/
theorem runFrom_invariant {I : List ι → σ → Prop} (hstart : I [] s)
    (hstep : ∀ before s' l s'', I before s' → step s' l = some s'' → I (before ++ [l]) s'')
    (h : runFrom step s ls = some s') : I ls s' := by
  have hall : EveryStep step s (fun _ _ _ => True) ls := fun _ _ _ _ _ _ => trivial
  exact hall.invariant hstart (fun before s' l s'' hI _ => hstep before s' l s'' hI) h

/-- Read by index: the labels before the `i`-th point are the first `i`. -/
theorem throughout_iff_take {P : List ι → σ → Prop} :
    Throughout step s P ls ↔
      ∀ i, i < ls.length + 1 → ∀ s' ∈ runFrom step s (ls.take i), P (ls.take i) s' := by
  constructor
  · intro h i _ s' hs'
    exact h (ls.take i) (ls.drop i) s' (List.take_append_drop i ls).symm hs'
  · rintro h before after s' rfl hs'
    have hi : before.length < (before ++ after).length + 1 := by
      rw [List.length_append]
      omega
    have hpoint := h before.length hi s'
    rw [List.take_left] at hpoint
    exact hpoint hs'

theorem everyStep_iff_take {P : List ι → σ → ι → Prop} :
    EveryStep step s P ls ↔
      ∀ i, ∀ hi : i < ls.length, ∀ s' ∈ runFrom step s (ls.take i), P (ls.take i) s' ls[i] := by
  constructor
  · intro h i hi s' hs'
    exact h (ls.take i) ls[i] (ls.drop (i + 1)) s' (by simp) hs'
  · rintro h before l after s' rfl hs'
    have hi : before.length < (before ++ l :: after).length := by simp
    have hpoint := h before.length hi s'
    rw [List.take_left] at hpoint
    simpa using hpoint hs'

instance {P : List ι → σ → Prop} [∀ before s', Decidable (P before s')] :
    Decidable (Throughout step s P ls) :=
  decidable_of_iff _ throughout_iff_take.symm

instance {P : List ι → σ → ι → Prop} [∀ before s' l, Decidable (P before s' l)] :
    Decidable (EveryStep step s P ls) :=
  decidable_of_iff _ everyStep_iff_take.symm

end Runs

end IpkChat.Foundation
