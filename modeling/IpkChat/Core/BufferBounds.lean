/-
  Core/BufferBounds.lean --- which bytes of its block buffer_append writes.

  copy writes one byte more than the chunk has, the terminating zero.  The block grows
  when the chunk does not fit, but the zero is not counted: a chunk that fills the
  block to its last byte puts the zero behind the block.  No other append writes
  outside, over any sequence of appends and extractions.
-/
import IpkChat.Core.MsgBuffer
import IpkChat.Foundation.Runs

set_option autoImplicit false

namespace IpkChat.Core

open IpkChat.Foundation

/-! ## Bytes written -/

/-- The indices that copy(memory + off, src, size) writes: those of strncpy, and that
of the terminating zero. -/
def copyWrites (off size i : Int) : Prop :=
  (off ≤ i ∧ i < off + (size - 1) % 2 ^ 64) ∨ i = off + (size - 1)

/-- The size of the block when copy is called. -/
def sizeAtCopy (b : MsgBuffer) (msgLen : Int) : Int :=
  if cInt (b.msgLen + msgLen) > b.size then cInt (b.size + bufferSize) else b.size

/-- The indices that buffer_append writes; none if realloc is needed and fails. -/
def appendWrites (b : MsgBuffer) (msgLen : Int) (alloc : Bool) (i : Int) : Prop :=
  (cInt (b.msgLen + msgLen) > b.size → alloc = true) ∧
    copyWrites b.msgLen (cInt (msgLen + zeroByte)) i

/-- The other bytes stay as they are. -/
theorem copyAt_frame {memory src : Bytes} {off i : Nat} {size : Int}
    (hi : ¬ copyWrites off size i) : (copyAt memory off src size)[i]? = memory[i]? := by
  simp only [copyWrites, not_or, not_and] at hi
  obtain ⟨hstr, hzero⟩ := hi
  have hpos : 0 ≤ (size - 1) % 2 ^ 64 := Int.emod_nonneg _ (by decide)
  have hout : ¬ (off ≤ i ∧ i < off + ((size - 1) % 2 ^ 64).toNat) := by
    rintro ⟨hle, hlt⟩
    exact hstr (by omega) (by omega)
  have hsame : (strncpyAt memory off src ((size - 1) % 2 ^ 64).toNat)[i]? = memory[i]? := by
    rw [strncpyAt, List.getElem?_mapIdx]
    simp only [if_neg hout, Option.map_id']
  rw [copyAt, storeAt]
  split
  · rw [List.getElem?_set_ne (by omega), hsame]
  · exact hsame

/-! ## Runs -/

/-- The receive buffer after recv returned `len`. -/
structure Chunk where
  memory : Bytes
  len : Nat
  len_pos : 1 ≤ len
  len_le : len ≤ bufferSize - 1

/-- A call of buffer_append or buffer_get_msg, and whether its allocation succeeds. -/
inductive BufferOp where
  | append (chunk : Chunk) (alloc : Bool)
  | getMsg (alloc : Bool)

/-- The buffer after the call. -/
def bufferStep (b : MsgBuffer) : BufferOp → Option MsgBuffer
  | .append chunk alloc => some (bufferAppend b chunk.memory chunk.len alloc).1
  | .getMsg alloc => some (bufferGetMsg b alloc).1

/-- The bytes buffered stay below 2^30. -/
def Moderate (ops : List BufferOp) : Prop :=
  EveryStep bufferStep .empty (fun _ b op => ∀ chunk alloc, op = .append chunk alloc →
    b.msgLen + chunk.len < 2 ^ 30) ops

/-- The lengths are consistent after every call, and buffer_append writes inside the
block. -/
structure WritesInBounds (ops : List BufferOp) : Prop where
  lengths : Throughout bufferStep .empty (fun _ b => 0 ≤ b.msgLen ∧ b.msgLen ≤ b.size) ops
  writes : EveryStep bufferStep .empty (fun _ b op => ∀ chunk alloc, op = .append chunk alloc →
    ∀ i, appendWrites b chunk.len alloc i → 0 ≤ i ∧ i < sizeAtCopy b chunk.len) ops

/-- No chunk fills the block to its last byte. -/
def NoExactFit (ops : List BufferOp) : Prop :=
  EveryStep bufferStep .empty (fun _ b op => ∀ chunk alloc, op = .append chunk alloc →
    b.msgLen + chunk.len ≠ b.size) ops

/-- The buffer is well-formed, and far from the end of the range of an int. -/
structure Bounded (b : MsgBuffer) : Prop where
  wf : b.WellFormed
  size_lt : b.size < 2 ^ 30 + bufferSize

section Steps

variable {b : MsgBuffer} {chunk : Chunk} {alloc : Bool}

theorem Bounded.getMsg (h : Bounded b) : Bounded (bufferGetMsg b alloc).1 := by
  cases alloc with
  | false =>
      rw [bufferGetMsg_false]
      exact h
  | true =>
      obtain ⟨-, heq⟩ | ⟨m, b', heq, -, hwf, hsize⟩ := bufferGetMsg_cases h.wf
      · rw [heq]
        exact h
      · rw [heq]
        exact ⟨hwf, by rw [hsize]; exact h.size_lt⟩

theorem Bounded.append (h : Bounded b) (hsmall : b.msgLen + chunk.len < 2 ^ 30) :
    Bounded (bufferAppend b chunk.memory chunk.len alloc).1 := by
  have hbuf : (bufferSize : Int) = 65535 := rfl
  have hlt := h.size_lt
  have hle := chunk.len_le
  cases hok : (bufferAppend b chunk.memory chunk.len alloc).2 with
  | false =>
      rw [bufferAppend_false hok]
      exact h
  | true =>
      obtain ⟨hwf, -, -, hsize⟩ :=
        bufferAppend_true h.wf hok (by omega) (by omega) fun _ => by omega
      refine ⟨hwf, ?_⟩
      rcases hsize with hsize | ⟨hgrow, hsize⟩
      · rw [hsize]
        exact hlt
      · rw [hsize]
        omega

/-- The indices are all there are: the other bytes of the block stay as they are. -/
theorem bufferAppend_frame (h : Bounded b) {i : Nat}
    (hi : i < b.msg.length) (hno : ¬ appendWrites b chunk.len alloc i) :
    (bufferAppend b chunk.memory chunk.len alloc).1.msg[i]? = b.msg[i]? := by
  obtain ⟨⟨hlo, hle, hlen⟩, hlt⟩ := h
  have hbuf : (bufferSize : Int) = 65535 := rfl
  have hnew : cInt (b.size + bufferSize) = b.size + bufferSize :=
    cInt_eq_self (by omega) (by omega)
  have hcopy : (cInt (b.msgLen + chunk.len) > b.size → alloc = true) →
      ¬ copyWrites b.msgLen.toNat (cInt (chunk.len + zeroByte)) i := by
    rw [Int.toNat_of_nonneg hlo]
    exact not_and.mp hno
  simp only [bufferAppend]
  split
  · rename_i hgrow
    cases alloc with
    | false => rfl
    | true =>
        simp only [Bool.not_true, Bool.false_eq_true, if_false, hnew]
        have hgrown : (realloc b.msg (b.size + bufferSize).toNat)[i]? = b.msg[i]? := by
          rw [realloc, List.take_of_length_le (by omega), List.getElem?_append_left hi]
        rw [copyAt_frame (hcopy fun _ => rfl), hgrown]
  · rename_i hgrow
    rw [copyAt_frame (hcopy fun hgrow' => absurd hgrow' hgrow)]

/-- An append writes inside the block exactly if it does not fill it. -/
theorem append_in_bounds_iff (h : Bounded b) (hsmall : b.msgLen + chunk.len < 2 ^ 30) :
    (∀ i, appendWrites b chunk.len alloc i → 0 ≤ i ∧ i < sizeAtCopy b chunk.len) ↔
      b.msgLen + chunk.len ≠ b.size := by
  obtain ⟨⟨hlo, hle, -⟩, hlt⟩ := h
  have hbuf : (bufferSize : Int) = 65535 := rfl
  have hchunk : chunk.len ≤ 65534 := chunk.len_le
  have hsum : cInt (b.msgLen + chunk.len) = b.msgLen + chunk.len :=
    cInt_eq_self (by omega) (by omega)
  have hone : cInt ((chunk.len : Int) + (zeroByte : Nat)) = (chunk.len : Int) + 1 :=
    cInt_eq_self (by omega) (by simp only [zeroByte]; omega)
  have hnew : cInt (b.size + bufferSize) = b.size + bufferSize :=
    cInt_eq_self (by omega) (by omega)
  have hcount : ((chunk.len : Int) + 1 - 1) % 2 ^ 64 = chunk.len := by
    rw [Int.add_sub_cancel, Int.emod_eq_of_lt (by omega) (by omega)]
  simp only [appendWrites, copyWrites, sizeAtCopy, hsum, hone, hnew, hcount]
  constructor
  · intro hall heq
    have hzero := hall (b.msgLen + chunk.len) ⟨fun hgrow => by omega, Or.inr (by omega)⟩
    rw [if_neg (by omega)] at hzero
    omega
  · rintro hne i ⟨-, hi⟩
    split
    · omega
    · omega

end Steps

section Runs

variable {ops : List BufferOp}

theorem bounded_run (hsmall : Moderate ops) {b : MsgBuffer}
    (hrun : runFrom bufferStep .empty ops = some b) : Bounded b := by
  apply hsmall.invariant (I := fun _ b => Bounded b) ⟨MsgBuffer.wellFormed_empty, by decide⟩ _ hrun
  intro before b' op b'' hb hop hstep
  cases op with
  | append chunk alloc =>
      obtain rfl := Option.some.inj hstep
      exact hb.append (hop chunk alloc rfl)
  | getMsg alloc =>
      obtain rfl := Option.some.inj hstep
      exact hb.getMsg

/-- In every run whose contents stay below 2^30 bytes, the lengths are consistent and
buffer_append writes inside its block exactly if no chunk fills it to the last byte. -/
theorem buffer_writes_in_bounds_iff (hsmall : Moderate ops) :
    WritesInBounds ops ↔ NoExactFit ops := by
  have hbounded : ∀ before after b, ops = before ++ after →
      runFrom bufferStep .empty before = some b → Bounded b := by
    rintro before after b rfl hrun
    exact bounded_run hsmall.left hrun
  constructor
  · intro hbounds before op after b hsplit hrun chunk alloc hop
    have hwrites := hbounds.writes before op after b hsplit hrun chunk alloc hop
    exact (append_in_bounds_iff (hbounded before _ b hsplit hrun)
      (hsmall before op after b hsplit hrun chunk alloc hop)).mp hwrites
  · intro hfit
    constructor
    · intro before after b hsplit hrun
      have hwf := (hbounded before after b hsplit hrun).wf
      exact ⟨hwf.msgLen_nonneg, hwf.msgLen_le⟩
    · intro before op after b hsplit hrun chunk alloc hop
      exact (append_in_bounds_iff (hbounded before _ b hsplit hrun)
        (hsmall before op after b hsplit hrun chunk alloc hop)).mpr
          (hfit before op after b hsplit hrun chunk alloc hop)

end Runs

/-! ## One byte behind the block -/

/-- A chunk that leaves one byte of a fresh block free, and one byte more. -/
theorem overruns_of_length {first second : Chunk} (hfirst : first.len = 65534)
    (hsecond : second.len = 1) :
    ¬ WritesInBounds [.append first true, .append second true] := by
  intro hbounds
  have hbuf : (bufferSize : Int) = 65535 := rfl
  have hempty : MsgBuffer.empty.msgLen = 0 ∧ MsgBuffer.empty.size = 0 := ⟨rfl, rfl⟩
  have hstart : Bounded .empty := ⟨MsgBuffer.wellFormed_empty, by decide⟩
  -- the first chunk makes a block of 65535 bytes
  have hok := bufferAppend_of_alloc .empty first.memory first.len
  obtain ⟨hwf, hlen, -, hsize⟩ := bufferAppend_true MsgBuffer.wellFormed_empty hok
    (by rw [hfirst]; decide) (by omega) fun _ => by omega
  have hbounded : Bounded (bufferAppend .empty first.memory first.len true).1 :=
    hstart.append (by omega)
  have hwrites := hbounds.writes [.append first true] (.append second true) [] _ rfl
    (runFrom_single rfl) second true rfl
  have hle := hwf.msgLen_le
  exact (append_in_bounds_iff hbounded (by omega)).mp hwrites (by omega)

/-- A full receive buffer and one more byte: the terminating zero of the second chunk
lies behind the block. -/
theorem exact_fit_overruns :
    ¬ WritesInBounds
      [.append ⟨List.replicate 65534 0x61, 65534, by decide, by decide⟩ true,
       .append ⟨[0x61], 1, by decide, by decide⟩ true] :=
  overruns_of_length rfl rfl

/-- A short line, received and taken out. -/
theorem buffer_writes_in_bounds_iff_short :
    WritesInBounds [.append ⟨[0x68, 0x69], 2, by decide, by decide⟩ true, .getMsg true] := by
  have happends : ∀ before op after b, [.append ⟨[0x68, 0x69], 2, by decide, by decide⟩ true,
      .getMsg true] = before ++ op :: after → runFrom bufferStep .empty before = some b →
      ∀ chunk alloc, op = .append chunk alloc → b.msgLen = 0 ∧ b.size = 0 ∧ chunk.len = 2 := by
    rintro before op after b hsplit hrun chunk alloc rfl
    cases before with
    | nil =>
        cases hsplit
        cases hrun
        exact ⟨rfl, rfl, rfl⟩
    | cons first before =>
        cases before with
        | nil => cases hsplit
        | cons second before => simp at hsplit
  apply (buffer_writes_in_bounds_iff ?_).mpr
  · intro before op after b hsplit hrun chunk alloc hop
    obtain ⟨hlen, hsize, hchunk⟩ := happends before op after b hsplit hrun chunk alloc hop
    omega
  · intro before op after b hsplit hrun chunk alloc hop
    obtain ⟨hlen, hsize, hchunk⟩ := happends before op after b hsplit hrun chunk alloc hop
    omega

end IpkChat.Core
