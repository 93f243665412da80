/-
  Core/Allocation.lean --- the containers when an allocation fails.

  The queue and the buffer test the result of malloc or realloc before they touch
  anything.  list_append stores the result of realloc in the list first: if the list
  holds IDs, they are lost with the array, while the count stays, and the next
  list_contains follows the null pointer.
-/
import IpkChat.Core.IdList
import IpkChat.Core.MsgQueue
import IpkChat.Core.MsgBuffer
import IpkChat.Foundation.Refinement

set_option autoImplicit false

namespace IpkChat.Core

open IpkChat.Foundation

/-! ## Reading the list -/

/-- list_contains, where every slot it reads belongs to the array; `none` where it
follows a null pointer or leaves the array. -/
def listContainsChecked (l : IdList) (number : UInt16) : Option Bool :=
  (List.range l.count).anyM fun i => (l.slot i).map (· == number)

/-- Every slot in use can be read. -/
theorem slot_isSome {l : IdList} (h : l.WellFormed) {i : Nat} (hi : i < l.count) :
    ∃ x, l.slot i = some x := by
  obtain ⟨hcount, hlen⟩ := h
  cases hc : l.content with
  | none =>
      simp only [hc, Option.getD_none, List.length_nil] at hlen
      omega
  | some cells =>
      simp only [hc, Option.getD_some] at hlen
      exact ⟨cells[i], by simp [IdList.slot, hc]⟩

theorem listContainsChecked_eq {l : IdList} (h : l.WellFormed) (number : UInt16) :
    listContainsChecked l number = some (listContains l number) := by
  have hall : ∀ is : List Nat, (∀ i ∈ is, i < l.count) →
      is.anyM (fun i => (l.slot i).map (· == number)) =
        some (is.any fun i => l.slot i == some number) := by
    intro is
    induction is with
    | nil => exact fun _ => rfl
    | cons i is ih =>
        intro his
        obtain ⟨x, hx⟩ := slot_isSome h (his i List.mem_cons_self)
        have hrest := ih fun j hj => his j (List.mem_cons_of_mem i hj)
        rw [List.anyM_cons, hrest, List.any_cons, hx]
        cases hfound : x == number with
        | true => simp_all
        | false => simp_all
  exact hall _ fun i hi => List.mem_range.mp hi

/-- A list that counts IDs without an array cannot be read. -/
theorem listContainsChecked_null {l : IdList} (hcontent : l.content = none) (hcount : 0 < l.count)
    (number : UInt16) : listContainsChecked l number = none := by
  obtain ⟨n, hn⟩ := Nat.exists_eq_add_one.mpr hcount
  have hslot : l.slot 0 = none := by rw [IdList.slot, hcontent, Option.bind_none]
  rw [listContainsChecked, hn, List.range_succ_eq_map, List.anyM_cons, hslot]
  rfl

/-- A failed append drops the array, whatever it held. -/
theorem listAppend_failed {l : IdList} (hfull : l.capacity = l.count) (number : UInt16) :
    listAppend l number false = ({ l with content := none }, .failure) := by
  rw [listAppend, if_pos hfull]
  rfl

/-! ## Operations on the containers -/

/-- msg_id_list, msg_queue and msg_buffer. -/
structure Containers where
  list : IdList
  queue : MsgQueue
  buffer : MsgBuffer

/-- The containers before the first call. -/
def Containers.empty : Containers := ⟨.empty, .empty, .empty⟩

/-- A call, and whether the allocation it makes, if it makes one, succeeds. -/
inductive ContainerOp where
  | listContains (number : UInt16)
  | listAppend (number : UInt16) (alloc : Bool)
  | queueAdd (msg : Bytes) (msgLen : Nat) (alloc : Bool)
  | queueFront
  | bufferAppend (msg : Bytes) (msgLen : Int) (alloc : Bool)
  | bufferGetMsg (alloc : Bool)

/-- What the call returns; `none` for a list_contains that reads outside the array. -/
inductive Answer where
  | contains (found : Option Bool)
  | exit (code : ExitCode)
  | added (ok : Bool)
  | front (m : Option Msg)
  | appended (ok : Bool)
  | line (msg : Option Bytes)
  deriving DecidableEq

/-- Run the call, and keep its answer. -/
def containerStep (s : Containers) : ContainerOp → Containers × Answer
  | .listContains number => (s, .contains (listContainsChecked s.list number))
  | .listAppend number alloc =>
      let (list, code) := listAppend s.list number alloc
      ({ s with list := list }, .exit code)
  | .queueAdd msg msgLen alloc =>
      let (queue, ok) := queueAdd s.queue msg msgLen alloc
      ({ s with queue := queue }, .added ok)
  | .queueFront =>
      let (queue, m) := queueFront s.queue
      ({ s with queue := queue }, .front m)
  | .bufferAppend msg msgLen alloc =>
      let (buffer, ok) := bufferAppend s.buffer msg msgLen alloc
      ({ s with buffer := buffer }, .appended ok)
  | .bufferGetMsg alloc =>
      let (buffer, msg) := bufferGetMsg s.buffer alloc
      ({ s with buffer := buffer }, .line msg)

/-- The call makes an allocation, and it fails. -/
def FailedAllocation (s : Containers) : ContainerOp → Prop
  | .listAppend _ alloc => s.list.capacity = s.list.count ∧ alloc = false
  | .queueAdd _ _ alloc => queueIsFull s.queue = false ∧ alloc = false
  | .bufferAppend _ msgLen alloc =>
      cInt (s.buffer.msgLen + msgLen) > s.buffer.size ∧ alloc = false
  | .bufferGetMsg alloc =>
      bufferIsEmpty s.buffer = false ∧ (crlf s.buffer).isSome ∧ alloc = false
  | .listContains _ => False
  | .queueFront => False

/-- The answer by which a call reports failure. -/
def Answer.isFailure : Answer → Bool
  | .exit code => code == .failure
  | .added ok => !ok
  | .appended ok => !ok
  | .line msg => msg.isNone
  | .contains _ => false
  | .front _ => false

/-- The call reports its failure, and nothing that can be observed has changed, now or
by any later calls. -/
structure Intact (s : Containers) (op : ContainerOp) : Prop where
  reported : (containerStep s op).2.isFailure = true
  contains : ∀ number, listContainsChecked (containerStep s op).1.list number =
    some (listContains s.list number)
  queued : (containerStep s op).1.queue.toList = s.queue.toList
  contents : (containerStep s op).1.buffer.contents = s.buffer.contents
  later : Indistinguishable containerStep s (containerStep s op).1

/-! ## Lists without an array -/

/-- No ID is recorded and no slot allocated, whatever the pointer is. -/
def Vacant (l : IdList) : Prop := l.count = 0 ∧ l.capacity = 0 ∧ l.content.getD [] = []

/-- Two containers that differ at most in the pointer of a vacant list. -/
def SameUpToVacant (s s' : Containers) : Prop :=
  s.queue = s'.queue ∧ s.buffer = s'.buffer ∧
    (s.list = s'.list ∨ Vacant s.list ∧ Vacant s'.list)

/-- An append to a vacant list allocates its array, or leaves it vacant. -/
theorem listAppend_vacant {l l' : IdList} (h : Vacant l) (h' : Vacant l') (number : UInt16)
    (alloc : Bool) :
    ((listAppend l number alloc).1 = (listAppend l' number alloc).1 ∨
        Vacant (listAppend l number alloc).1 ∧ Vacant (listAppend l' number alloc).1) ∧
      (listAppend l number alloc).2 = (listAppend l' number alloc).2 := by
  obtain ⟨hcount, hcapacity, hcontent⟩ := h
  obtain ⟨hcount', hcapacity', hcontent'⟩ := h'
  cases alloc with
  | true => simp [listAppend, hcount, hcapacity, hcontent, hcount', hcapacity', hcontent']
  | false => simp [listAppend, hcount, hcapacity, hcount', hcapacity', Vacant]

theorem listContainsChecked_vacant {l : IdList} (h : Vacant l) (number : UInt16) :
    listContainsChecked l number = some false := by
  rw [listContainsChecked, h.1]
  rfl

theorem sameUpToVacant_step {s s' : Containers} (op : ContainerOp) (h : SameUpToVacant s s') :
    SameUpToVacant (containerStep s op).1 (containerStep s' op).1 ∧
      (containerStep s op).2 = (containerStep s' op).2 := by
  obtain ⟨list, queue, buffer⟩ := s
  obtain ⟨list', queue', buffer'⟩ := s'
  obtain ⟨hqueue, hbuffer, hlist⟩ := h
  obtain rfl : queue = queue' := hqueue
  obtain rfl : buffer = buffer' := hbuffer
  cases op with
  | listContains number =>
      refine ⟨⟨rfl, rfl, hlist⟩, ?_⟩
      rcases hlist with heq | ⟨hvacant, hvacant'⟩
      · obtain rfl : list = list' := heq
        rfl
      · simp only [containerStep]
        rw [listContainsChecked_vacant hvacant, listContainsChecked_vacant hvacant']
  | listAppend number alloc =>
      rcases hlist with heq | ⟨hvacant, hvacant'⟩
      · obtain rfl : list = list' := heq
        exact ⟨⟨rfl, rfl, Or.inl rfl⟩, rfl⟩
      · obtain ⟨hsame, hcode⟩ := listAppend_vacant hvacant hvacant' number alloc
        exact ⟨⟨rfl, rfl, hsame⟩, congrArg Answer.exit hcode⟩
  | queueAdd msg msgLen alloc => exact ⟨⟨rfl, rfl, hlist⟩, rfl⟩
  | queueFront => exact ⟨⟨rfl, rfl, hlist⟩, rfl⟩
  | bufferAppend msg msgLen alloc => exact ⟨⟨rfl, rfl, hlist⟩, rfl⟩
  | bufferGetMsg alloc => exact ⟨⟨rfl, rfl, hlist⟩, rfl⟩

/-! ## Failed allocations -/

section Failed

variable {s : Containers} {op : ContainerOp}

/-- A call that fails and leaves the containers as they are is intact. -/
theorem intact_of_unchanged (hs : s.list.WellFormed) (hsame : (containerStep s op).1 = s)
    (hreported : (containerStep s op).2.isFailure = true) : Intact s op where
  reported := hreported
  contains number := by rw [hsame, listContainsChecked_eq hs]
  queued := by rw [hsame]
  contents := by rw [hsame]
  later := by
    rw [hsame]
    exact Indistinguishable.refl s

/-- A failed append to a list that holds an ID: list_contains follows the null pointer. -/
theorem not_intact_of_used {number : UInt16} (hfull : s.list.capacity = s.list.count)
    (hcount : s.list.count ≠ 0) : ¬ Intact s (.listAppend number false) := by
  intro hintact
  have hcontains := hintact.contains number
  simp only [containerStep, listAppend_failed hfull] at hcontains
  have hlost : listContainsChecked { s.list with content := none } number = none :=
    listContainsChecked_null (l := { s.list with content := none }) rfl
      (Nat.pos_of_ne_zero hcount) number
  rw [hlost] at hcontains
  cases hcontains

/-- A failed append to a list without an ID leaves another that is vacant. -/
theorem intact_of_unused {number : UInt16} (hs : s.list.WellFormed)
    (hfull : s.list.capacity = s.list.count) (hcount : s.list.count = 0) :
    Intact s (.listAppend number false) := by
  have hlen := hs.length_eq
  rw [hfull, hcount, List.length_eq_zero_iff] at hlen
  have hvacant : Vacant s.list := ⟨hcount, hfull.trans hcount, hlen⟩
  have hvacant' : Vacant { s.list with content := none } := ⟨hcount, hfull.trans hcount, rfl⟩
  have heq : containerStep s (.listAppend number false) =
      ({ s with list := { s.list with content := none } }, .exit .failure) := by
    rw [containerStep, listAppend_failed hfull]
  constructor
  · rw [heq]
    rfl
  · intro n
    rw [heq, listContainsChecked_vacant hvacant', ← listContainsChecked_eq hs,
      listContainsChecked_vacant hvacant]
  · rw [heq]
  · rw [heq]
  · rw [heq]
    exact indistinguishable_of_bisimulation (fun _ _ op h => sameUpToVacant_step op h)
      ⟨rfl, rfl, Or.inr ⟨hvacant, hvacant'⟩⟩

/-- Where the allocation is not that of list_append, it is tested before anything is
changed. -/
theorem containerStep_failed (hfail : FailedAllocation s op)
    (hother : ∀ number, op ≠ .listAppend number false) :
    (containerStep s op).1 = s ∧ (containerStep s op).2.isFailure = true := by
  cases op with
  | listContains number => cases hfail
  | queueFront => cases hfail
  | listAppend number alloc =>
      obtain ⟨-, rfl⟩ := hfail
      exact absurd rfl (hother number)
  | queueAdd msg msgLen alloc =>
      obtain ⟨hroom, rfl⟩ := hfail
      have heq : queueAdd s.queue msg msgLen false = (s.queue, false) := by
        rw [queueAdd, hroom]
        rfl
      rw [containerStep, heq]
      exact ⟨rfl, rfl⟩
  | bufferAppend msg msgLen alloc =>
      obtain ⟨hgrow, rfl⟩ := hfail
      have heq : bufferAppend s.buffer msg msgLen false = (s.buffer, false) := by
        rw [bufferAppend, if_pos hgrow]
        rfl
      rw [containerStep, heq]
      exact ⟨rfl, rfl⟩
  | bufferGetMsg alloc =>
      obtain ⟨-, -, rfl⟩ := hfail
      rw [containerStep, bufferGetMsg_false]
      exact ⟨rfl, rfl⟩

/-- In every state of the containers, a failed allocation leaves them intact exactly if
it is not that of list_append to a list that holds an ID. -/
theorem failed_allocation_intact_iff (hs : s.list.WellFormed) (hfail : FailedAllocation s op) :
    Intact s op ↔ ∀ number, op = .listAppend number false → s.list.count = 0 := by
  constructor
  · rintro hintact number rfl
    by_contra hcount
    exact not_intact_of_used hfail.1 hcount hintact
  · intro hempty
    by_cases hlist : ∃ number, op = .listAppend number false
    · obtain ⟨number, rfl⟩ := hlist
      exact intact_of_unused hs hfail.1 (hempty number rfl)
    · obtain ⟨hsame, hreported⟩ :=
        containerStep_failed hfail fun number heq => hlist ⟨number, heq⟩
      exact intact_of_unchanged hs hsame hreported

end Failed

/-- The containers after an ID, a datagram and some bytes. -/
def inUse : Containers :=
  (answers containerStep .empty [.listAppend 7 true, .queueAdd (ascii "hello") 5 true,
    .bufferAppend (ascii "MSG FROM") 8 true]).1

/-- A queue that is not full refuses a datagram without memory for it. -/
theorem failed_allocation_intact_iff_queue : Intact inUse (.queueAdd (ascii "x") 1 false) := by
  have happend : (listAppend .empty 7 true).2 = .success := rfl
  have hlist : inUse.list.WellFormed := (listAppend_success IdList.wellFormed_empty happend).1
  have hfail : FailedAllocation inUse (.queueAdd (ascii "x") 1 false) := ⟨rfl, rfl⟩
  apply (failed_allocation_intact_iff hlist hfail).mpr
  intro number h
  cases h

example : listContains inUse.list 7 = true ∧ inUse.queue.toList = [⟨ascii "hello", 5⟩] ∧
    inUse.buffer.msgLen = 8 := by
  decide +kernel

/-! ## A list whose array is lost -/

/-- The containers after as many IDs as the first array has slots. -/
def fullList : Containers :=
  (answers containerStep .empty
    ((List.range listLen).map fun i => .listAppend (UInt16.ofNat i) true)).1

/-- The next append fails, and then so does reading the list. -/
theorem failed_append_loses_list :
    FailedAllocation fullList (.listAppend 20 false) ∧
      listContainsChecked fullList.list 7 = some true ∧
      listContainsChecked (containerStep fullList (.listAppend 20 false)).1.list 7 = none ∧
      ¬ Intact fullList (.listAppend 20 false) := by
  have hlost : listContainsChecked (containerStep fullList (.listAppend 20 false)).1.list 7 =
      none := by
    decide +kernel
  refine ⟨?_, by decide +kernel, hlost, ?_⟩
  · unfold FailedAllocation
    decide +kernel
  · intro hintact
    have hcontains := hintact.contains 7
    rw [hlost] at hcontains
    cases hcontains

end IpkChat.Core
