/-
  Core/IdList.lean --- lib/list.h and src/list.c.

  The list of message IDs already received.  `content` is the heap array behind
  the pointer, `none` for the null pointer; the slots from `count` on are
  allocated and not yet assigned, and no function reads them.
-/
import IpkChat.Core.Common

set_option autoImplicit false

namespace IpkChat.Core

/-- LIST_LEN. -/
def listLen : Nat := 20

/-- The structure list_t. -/
structure IdList where
  count : Nat
  capacity : Nat
  content : Option (List UInt16)
  deriving DecidableEq, Repr, Inhabited

/-- The zero-initialised global msg_id_list. -/
def IdList.empty : IdList := ⟨0, 0, none⟩

/-- The value read at `content[i]`. -/
def IdList.slot (l : IdList) (i : Nat) : Option UInt16 := l.content.bind fun cells => cells[i]?

/-- The number is in one of the `count` cells in use. -/
def listContains (l : IdList) (number : UInt16) : Bool :=
  (List.range l.count).any fun i => l.slot i == some number

/-- `alloc` tells whether realloc succeeds, where it is called. -/
def listAppend (l : IdList) (number : UInt16) (alloc : Bool) : IdList × ExitCode :=
  let store (l : IdList) : IdList × ExitCode :=
    ({ l with
        content := l.content.map fun cells => cells.set l.count number
        count := l.count + 1 }, .success)
  if l.capacity = l.count then
    if alloc then
      store { l with
        content := some (l.content.getD [] ++
          List.replicate (l.capacity + listLen - (l.content.getD []).length) 0)
        capacity := l.capacity + listLen }
    else
      -- the result of realloc is assigned before it is tested
      ({ l with content := none }, .failure)
  else store l

/-! ## The IDs of the list -/

namespace IdList

/-- The IDs recorded so far, oldest first. -/
def ids (l : IdList) : List UInt16 := (l.content.getD []).take l.count

/-- The array has `capacity` slots, `count` of them in use. -/
structure WellFormed (l : IdList) : Prop where
  count_le : l.count ≤ l.capacity
  length_eq : (l.content.getD []).length = l.capacity

theorem wellFormed_empty : empty.WellFormed := ⟨Nat.le_refl _, rfl⟩

@[simp] theorem ids_empty : empty.ids = [] := rfl

end IdList

theorem listContains_iff {l : IdList} (h : l.WellFormed) {number : UInt16} :
    listContains l number = true ↔ number ∈ l.ids := by
  obtain ⟨hcount, hlen⟩ := h
  cases hc : l.content with
  | none =>
      have hzero : l.count = 0 := by simp [hc] at hlen; omega
      simp [listContains, IdList.ids, hc, hzero]
  | some cells =>
      simp only [hc, Option.getD_some] at hlen
      simp only [listContains, IdList.slot, hc, Option.bind_some, List.any_eq_true,
        List.mem_range, beq_iff_eq, IdList.ids, Option.getD_some, List.mem_take_iff_getElem]
      constructor
      · rintro ⟨i, hi, hget⟩
        obtain ⟨hlt, hval⟩ := List.getElem?_eq_some_iff.mp hget
        exact ⟨i, by omega, hval⟩
      · rintro ⟨i, hi, hval⟩
        exact ⟨i, by omega, List.getElem?_eq_some_iff.mpr ⟨by omega, hval⟩⟩

theorem listContains_eq_false_iff {l : IdList} (h : l.WellFormed) {number : UInt16} :
    listContains l number = false ↔ number ∉ l.ids := by
  rw [← listContains_iff h, Bool.not_eq_true]

theorem listAppend_of_alloc (l : IdList) (number : UInt16) :
    (listAppend l number true).2 = .success := by
  simp only [listAppend]
  split <;> rfl

/-- Only a failed allocation makes an append fail. -/
theorem listAppend_ne_failure {l l' : IdList} {number : UInt16} {alloc : Bool}
    (halloc : alloc = true) : listAppend l number alloc ≠ (l', .failure) := by
  intro hfail
  have hok := listAppend_of_alloc l number
  rw [← halloc, hfail] at hok
  cases hok

/-- An append adds one slot in use if it succeeds and none if it fails. -/
theorem listAppend_count (l : IdList) (number : UInt16) (alloc : Bool) :
    (listAppend l number alloc).1.count =
      l.count + ((listAppend l number alloc).2 == .success).toNat := by
  simp only [listAppend]
  split
  · cases alloc <;> rfl
  · rfl

/-- A successful append records the ID after those recorded before. -/
theorem listAppend_success {l : IdList} (h : l.WellFormed) {number : UInt16} {alloc : Bool}
    (hok : (listAppend l number alloc).2 = .success) :
    (listAppend l number alloc).1.WellFormed ∧
      (listAppend l number alloc).1.ids = l.ids ++ [number] := by
  obtain ⟨hcount, hlen⟩ := h
  -- both branches store into an array with a free slot at `count`
  have hstore : ∀ (cells : List UInt16) (capacity : Nat), cells.length = capacity →
      l.count < capacity → cells.take l.count = l.ids →
      (IdList.mk (l.count + 1) capacity (some (cells.set l.count number))).WellFormed ∧
        (IdList.mk (l.count + 1) capacity (some (cells.set l.count number))).ids =
          l.ids ++ [number] := by
    intro cells capacity hcells hlt hids
    refine ⟨⟨hlt, by simpa using hcells⟩, ?_⟩
    simp only [IdList.ids, Option.getD_some] at hids ⊢
    rw [List.take_add_one, List.take_set_of_le (Nat.le_refl _), hids]
    simp [hcells, hlt]
  simp only [listAppend] at hok ⊢
  split
  · rename_i hfull
    cases alloc with
    | false => simp [hfull] at hok
    | true =>
        refine hstore _ _ (by simp [hlen]) (by simp only [listLen]; omega) ?_
        rw [List.take_append_of_le_length (by omega)]
        rfl
  · rename_i hfull
    cases hc : l.content with
    | none => simp [hc] at hlen; omega
    | some cells =>
        simp only [hc, Option.getD_some] at hlen
        exact hstore cells l.capacity hlen (by omega) (by simp [IdList.ids, hc])

end IpkChat.Core
