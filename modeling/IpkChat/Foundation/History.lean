/-
  Foundation/History.lean --- properties of append-only histories.

  A system that records what it does keeps a history, a list that only grows at
  its end.  A property such as "every response answers an earlier request" reads
  each entry against the entries before it: `EverySplit P` says that `P` holds of
  every entry and the history that precedes it.  `everySplit_concat` is the rule
  that proves such a property along a run, one appended entry at a time.

  A reading of a history is a `List.filterMap`: it takes from each entry what it is
  about, and ignores the entries that are about something else.
-/
import Mathlib

set_option autoImplicit false

namespace IpkChat.Foundation

section History

variable {ε : Type} {P Q : List ε → ε → Prop} {h : List ε}

/-- Every entry stands in relation `P` to the entries before it. -/
def EverySplit (P : List ε → ε → Prop) (h : List ε) : Prop :=
  ∀ (before : List ε) (e : ε) (after : List ε), h = before ++ e :: after → P before e

theorem everySplit_nil : EverySplit P [] := by
  intro before e after h
  simp at h

/-- A history split at an entry, one entry later. -/
theorem concat_eq_append_cons_iff {e x : ε} {before after : List ε} :
    h ++ [e] = before ++ x :: after ↔
      (after = [] ∧ h = before ∧ e = x) ∨
        ∃ rest, after = rest ++ [e] ∧ h = before ++ x :: rest := by
  constructor
  · intro hsplit
    rcases List.eq_nil_or_concat after with rfl | ⟨rest, y, rfl⟩
    · obtain ⟨hh, he⟩ := List.append_inj' hsplit rfl
      exact Or.inl ⟨rfl, hh, by simpa using he⟩
    · rw [List.concat_eq_append, ← List.cons_append, ← List.append_assoc] at hsplit
      obtain ⟨hh, he⟩ := List.append_inj' hsplit rfl
      have hey : e = y := by simpa using he
      subst hey
      exact Or.inr ⟨rest, List.concat_eq_append, hh⟩
  · rintro (⟨rfl, rfl, rfl⟩ | ⟨rest, rfl, rfl⟩)
    · rfl
    · simp

theorem everySplit_concat {e : ε} :
    EverySplit P (h ++ [e]) ↔ EverySplit P h ∧ P h e := by
  constructor
  · intro hall
    refine ⟨fun before x after hsplit => hall before x (after ++ [e]) ?_, hall h e [] rfl⟩
    rw [hsplit]
    simp
  · rintro ⟨hall, hlast⟩ before x after hsplit
    rcases concat_eq_append_cons_iff.mp hsplit with ⟨-, rfl, rfl⟩ | ⟨rest, -, hrest⟩
    · exact hlast
    · exact hall before x rest hrest

/-- Entries that satisfy `P` after any entries keep the property. -/
theorem EverySplit.append {l : List ε} (hall : EverySplit P h)
    (hl : ∀ e ∈ l, ∀ before, P before e) : EverySplit P (h ++ l) := by
  induction l using List.reverseRecOn with
  | nil => simpa using hall
  | append_singleton l e ih =>
      rw [← List.append_assoc, everySplit_concat]
      exact ⟨ih fun x hx => hl x (by simp [hx]), hl e (by simp) _⟩

theorem EverySplit.mono (hPQ : ∀ before e, P before e → Q before e) (hall : EverySplit P h) :
    EverySplit Q h :=
  fun before e after hsplit => hPQ before e (hall before e after hsplit)

/-- Read by index: the entries before the `i`-th are the first `i`. -/
theorem everySplit_iff_getElem :
    EverySplit P h ↔ ∀ (i : Nat) (hi : i < h.length), P (h.take i) h[i] := by
  constructor
  · intro hall i hi
    exact hall (h.take i) h[i] (h.drop (i + 1)) (by simp)
  · rintro hall before e after rfl
    have hi : before.length < (before ++ e :: after).length := by simp
    simpa using hall before.length hi

/-- A property of single entries. -/
theorem everySplit_iff_forall_mem {S : ε → Prop} :
    EverySplit (fun _ e => S e) h ↔ ∀ e ∈ h, S e := by
  constructor
  · intro hall e he
    obtain ⟨before, after, hsplit⟩ := List.append_of_mem he
    exact hall before e after hsplit
  · rintro hall before e after rfl
    exact hall e (by simp)

/-- A property of the entries that `f` selects, read off the whole history. -/
theorem everySplit_filterMap {ρ : Type} {f : ε → Option ρ} {R : List ρ → ρ → Prop} :
    EverySplit (fun before e => ∀ r, f e = some r → R (before.filterMap f) r) h ↔
      EverySplit R (h.filterMap f) := by
  induction h using List.reverseRecOn with
  | nil => exact ⟨fun _ => everySplit_nil, fun _ => everySplit_nil⟩
  | append_singleton h e ih =>
      rw [everySplit_concat, ih, List.filterMap_append]
      cases hf : f e with
      | none => simp [hf]
      | some r =>
          have hone : [e].filterMap f = [r] := by simp [hf]
          rw [hone, everySplit_concat]
          simp

/-- Two tests that have selected equally many entries at every point of the
history agree on every entry. -/
theorem forall_eq_of_everySplit_length {p q : ε → Bool}
    (hall : EverySplit (fun before e =>
      ((before ++ [e]).filter p).length = ((before ++ [e]).filter q).length) h) :
    ∀ e ∈ h, p e = q e := by
  induction h using List.reverseRecOn with
  | nil => simp
  | append_singleton h x ih =>
      obtain ⟨hh, hx⟩ := everySplit_concat.mp hall
      have hsame := List.filter_congr (ih hh)
      rw [List.filter_append, List.filter_append, List.length_append, List.length_append,
        hsame, Nat.add_left_cancel_iff] at hx
      intro e he
      rcases List.mem_append.mp he with he | he
      · exact ih hh e he
      · obtain rfl := List.mem_singleton.mp he
        cases hp : p e <;> cases hq : q e <;> simp [hp, hq] at hx ⊢

instance [∀ before e, Decidable (P before e)] : Decidable (EverySplit P h) :=
  decidable_of_iff _ everySplit_iff_getElem.symm

end History

/-! ## Readings -/

section Readings

variable {ε ρ : Type}

/-- A reading takes something from an entry or ignores it. -/
@[simp] theorem filterMap_cons_append (read : ε → Option ρ) (e : ε) (h : List ε) :
    (e :: h).filterMap read = (read e).toList ++ h.filterMap read := by
  rw [List.filterMap_cons]
  cases read e <;> rfl

/-- What a reading takes from an entry that may be missing. -/
@[simp] theorem filterMap_toList (read : ε → Option ρ) (e : Option ε) :
    e.toList.filterMap read = (e.bind read).toList := by
  cases e with
  | none => rfl
  | some e => exact (filterMap_cons_append read e []).trans (List.append_nil _)

end Readings

/-! ## First occurrences -/

section FirstCopies

variable {α : Type} [DecidableEq α]

/-- The entries of a list without those that occurred before. -/
def firstCopies (l : List α) : List α :=
  l.foldl (fun seen x => if x ∈ seen then seen else seen ++ [x]) []

theorem firstCopies_concat (l : List α) (x : α) :
    firstCopies (l ++ [x]) =
      if x ∈ firstCopies l then firstCopies l else firstCopies l ++ [x] := by
  rw [firstCopies, List.foldl_append]
  rfl

theorem mem_firstCopies {l : List α} {x : α} : x ∈ firstCopies l ↔ x ∈ l := by
  induction l using List.reverseRecOn with
  | nil => simp [firstCopies]
  | append_singleton l y ih =>
      rw [firstCopies_concat]
      split
      · rename_i hy
        rw [ih, List.mem_append, List.mem_singleton]
        constructor
        · exact Or.inl
        · rintro (hx | rfl)
          · exact hx
          · exact ih.mp hy
      · rw [List.mem_append, List.mem_append, ih]

theorem firstCopies_concat_of_not_mem {l : List α} {x : α} (h : x ∉ l) :
    firstCopies (l ++ [x]) = firstCopies l ++ [x] := by
  rw [firstCopies_concat, if_neg (fun hx => h (mem_firstCopies.mp hx))]

theorem firstCopies_sublist_concat (l : List α) (x : α) :
    (firstCopies l).Sublist (firstCopies (l ++ [x])) := by
  rw [firstCopies_concat]
  split
  · exact List.Sublist.refl _
  · exact List.sublist_append_left _ _

theorem firstCopies_sublist_append (l k : List α) :
    (firstCopies l).Sublist (firstCopies (l ++ k)) := by
  induction k using List.reverseRecOn with
  | nil => rw [List.append_nil]
  | append_singleton k x ih =>
      rw [← List.append_assoc]
      exact ih.trans (firstCopies_sublist_concat _ x)

end FirstCopies

end IpkChat.Foundation
