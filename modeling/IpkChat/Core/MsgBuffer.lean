/-
  Core/MsgBuffer.lean --- lib/buffer.h and src/buffer.c.

  The buffer in which the TCP variant collects the stream until a line is
  complete.  `msg` is the heap block, all `size` bytes of it; the first `msgLen`
  are the contents.  Lengths are C ints: the sums the code forms are taken with
  `cInt`, which wraps where an int would overflow.

  A write that leaves the block changes no byte of it; whether one happens is a
  question about the indices written and not about the contents.
-/
import IpkChat.Core.Common
import IpkChat.Foundation.Framing

set_option autoImplicit false

namespace IpkChat.Core

open IpkChat.Foundation

/-! ## Raw memory -/

/-- The block after strncpy(memory + off, src, n): `n` bytes are written, zeros
after the end of `src`. -/
def strncpyAt (memory : Bytes) (off : Nat) (src : Bytes) (n : Nat) : Bytes :=
  memory.mapIdx fun i b => if off ≤ i ∧ i < off + n then (cstr src).getD (i - off) 0 else b

/-- The block after `memory[i] = b`. -/
def storeAt (memory : Bytes) (i : Int) (b : UInt8) : Bytes :=
  if 0 ≤ i then memory.set i.toNat b else memory

/-- The block after copy(memory + off, src, size) of common.c.  The length
passed to strncpy is `size - 1` converted to size_t. -/
def copyAt (memory : Bytes) (off : Nat) (src : Bytes) (size : Int) : Bytes :=
  storeAt (strncpyAt memory off src ((size - 1) % 2 ^ 64).toNat) (off + (size - 1)) 0

/-- The block after realloc to `n` bytes. -/
def realloc (memory : Bytes) (n : Nat) : Bytes :=
  memory.take n ++ List.replicate (n - memory.length) 0

/-! ## The buffer -/

/-- The structure msg_buffer_t. -/
structure MsgBuffer where
  msg : Bytes
  msgLen : Int
  size : Int
  deriving DecidableEq, Repr, Inhabited

/-- The zero-initialised global msg_buffer. -/
def MsgBuffer.empty : MsgBuffer := ⟨[], 0, 0⟩

/-- No bytes are buffered. -/
def bufferIsEmpty (b : MsgBuffer) : Bool := b.msgLen == 0

/-- The index of the first CRLF among the contents. -/
def crlf (b : MsgBuffer) : Option Nat :=
  (List.range (b.msgLen - 1).toNat).find? fun i =>
    b.msg.getD i 0 == 0x0D && b.msg.getD (i + 1) 0 == 0x0A

/-- `alloc` tells whether realloc succeeds, where it is called. -/
def bufferAppend (b : MsgBuffer) (msg : Bytes) (msgLen : Int) (alloc : Bool) :
    MsgBuffer × Bool :=
  let append (b : MsgBuffer) : MsgBuffer × Bool :=
    ({ b with
        msg := copyAt b.msg b.msgLen.toNat msg (cInt (msgLen + zeroByte))
        msgLen := cInt (b.msgLen + msgLen) }, true)
  if cInt (b.msgLen + msgLen) > b.size then
    let newSize := cInt (b.size + bufferSize)
    if !alloc then (b, false)
    else append { b with msg := realloc b.msg newSize.toNat, size := newSize }
  else append b

/-- `alloc` tells whether malloc succeeds.  The message is the heap block that
holds the line and its terminating zero. -/
def bufferGetMsg (b : MsgBuffer) (alloc : Bool) : MsgBuffer × Option Bytes :=
  if bufferIsEmpty b then (b, none)
  else
    match crlf b with
    | none => (b, none)
    | some found =>
        let msgLen := found + 2
        if !alloc then (b, none)
        else
          let msg := b.msg.take msgLen ++ [0]
          let rest := (b.msgLen - msgLen).toNat
          ({ b with
              msg := (b.msg.drop msgLen).take rest ++ b.msg.drop rest
              msgLen := b.msgLen - msgLen }, some msg)

/-! ## The contents of the buffer -/

namespace MsgBuffer

/-- The bytes received and not yet taken out. -/
def contents (b : MsgBuffer) : Bytes := b.msg.take b.msgLen.toNat

/-- The block has `size` bytes and the contents lie inside it. -/
structure WellFormed (b : MsgBuffer) : Prop where
  msgLen_nonneg : 0 ≤ b.msgLen
  msgLen_le : b.msgLen ≤ b.size
  length_eq : (b.msg.length : Int) = b.size

theorem wellFormed_empty : empty.WellFormed := ⟨Int.le_refl _, Int.le_refl _, rfl⟩

@[simp] theorem contents_empty : empty.contents = [] := rfl

theorem length_contents {b : MsgBuffer} (h : b.WellFormed) :
    (b.contents.length : Int) = b.msgLen := by
  obtain ⟨hlo, hle, hlen⟩ := h
  rw [contents, List.length_take, Nat.min_eq_left (by omega)]
  omega

end MsgBuffer

theorem length_copyAt (memory : Bytes) (off : Nat) (src : Bytes) (size : Int) :
    (copyAt memory off src size).length = memory.length := by
  simp only [copyAt, storeAt, strncpyAt]
  split <;> simp

theorem length_realloc {memory : Bytes} {n : Nat} (h : memory.length ≤ n) :
    (realloc memory n).length = n := by
  simp only [realloc, List.length_append, List.length_take, List.length_replicate]
  omega

/-- A growing block keeps its bytes. -/
theorem take_realloc {memory : Bytes} {n i : Nat} (h : memory.length ≤ n)
    (hi : i ≤ memory.length) : (realloc memory n).take i = memory.take i := by
  rw [realloc, List.take_of_length_le h, List.take_append_of_le_length hi]

/-- The `n` bytes that strncpy writes: the string, and zeros behind it. -/
def padded (src : Bytes) (n : Nat) : Bytes :=
  (cstr src).take n ++ List.replicate (n - (cstr src).length) 0

@[simp] theorem length_padded (src : Bytes) (n : Nat) : (padded src n).length = n := by
  rw [padded, List.length_append, List.length_take, List.length_replicate]
  omega

theorem padded_eq_take {src : Bytes} {n : Nat} (hn : n ≤ (cstr src).length) :
    padded src n = (cstr src).take n := by
  rw [padded, Nat.sub_eq_zero_of_le hn, List.replicate_zero, List.append_nil]

theorem getElem?_padded {src : Bytes} {n i : Nat} (hi : i < n) :
    (padded src n)[i]? = some ((cstr src).getD i 0) := by
  rw [padded, List.getElem?_append, List.length_take]
  by_cases hc : i < (cstr src).length
  · rw [if_pos (by omega), List.getElem?_take_of_lt hi, List.getD, List.getElem?_eq_getElem hc]
    rfl
  · rw [if_neg (by omega), List.getElem?_replicate, if_pos (by omega), List.getD,
      List.getElem?_eq_none (Nat.le_of_not_lt hc)]
    rfl

/-- Copying `n` bytes behind the first `off` bytes extends them. -/
theorem take_copyAt {memory : Bytes} (src : Bytes) {off n : Nat}
    (hsize : off + n ≤ memory.length) (hbound : n < 2 ^ 64) :
    (copyAt memory off src ((n : Int) + 1)).take (off + n) =
      memory.take off ++ padded src n := by
  have hcount : (((n : Int) + 1 - 1) % 2 ^ 64).toNat = n := by
    rw [Int.add_sub_cancel, Int.emod_eq_of_lt (by omega) (by exact_mod_cast hbound)]
    rfl
  have hindex : (off : Int) + ((n : Int) + 1 - 1) = ((off + n : Nat) : Int) := by
    push_cast; omega
  rw [copyAt, hcount, hindex, storeAt, if_pos (by omega), Int.toNat_natCast,
    List.take_set_of_le (Nat.le_refl _)]
  refine List.ext_getElem? fun i => ?_
  rw [List.getElem?_take, List.getElem?_append]
  simp only [strncpyAt, List.getElem?_mapIdx, List.length_take, Nat.min_eq_left
    (show off ≤ memory.length by omega)]
  by_cases hoff : i < off
  · have hi : i < memory.length := by omega
    simp [show i < off + n by omega, hoff, List.getElem?_eq_getElem hi, show ¬ off ≤ i by omega]
  · by_cases hend : i < off + n
    · have hi : i < memory.length := by omega
      rw [if_pos hend, if_neg hoff, getElem?_padded (show i - off < n by omega)]
      simp [hend, List.getElem?_eq_getElem hi, show off ≤ i by omega]
    · rw [if_neg hend, if_neg hoff, List.getElem?_eq_none]
      rw [length_padded]
      omega

/-- A refused append leaves the buffer as it was. -/
theorem bufferAppend_false {b : MsgBuffer} {src : Bytes} {n : Int} {alloc : Bool}
    (h : (bufferAppend b src n alloc).2 = false) : (bufferAppend b src n alloc).1 = b := by
  simp only [bufferAppend] at h ⊢
  split
  · rename_i hgrow
    cases alloc with
    | false => rfl
    | true => simp [hgrow] at h
  · rename_i hgrow
    simp [hgrow] at h

theorem bufferAppend_of_alloc (b : MsgBuffer) (src : Bytes) (n : Int) :
    (bufferAppend b src n true).2 = true := by
  simp only [bufferAppend]
  split <;> rfl

/-- A successful append whose lengths stay in the range of an int.  The block grows by
at most one step of BUFFER_SIZE, and only where the contents would not fit. -/
theorem bufferAppend_true {b : MsgBuffer} (h : b.WellFormed) {src : Bytes} {n : Nat}
    {alloc : Bool} (hok : (bufferAppend b src n alloc).2 = true) (hstep : n ≤ bufferSize)
    (hsum : b.msgLen + n < 2 ^ 31) (hgrown : b.size < b.msgLen + n → b.size + bufferSize < 2 ^ 31) :
    (bufferAppend b src n alloc).1.WellFormed ∧
      (bufferAppend b src n alloc).1.msgLen = b.msgLen + n ∧
      (bufferAppend b src n alloc).1.contents = b.contents ++ padded src n ∧
      ((bufferAppend b src n alloc).1.size = b.size ∨
        b.size < b.msgLen + n ∧ (bufferAppend b src n alloc).1.size = b.size + bufferSize) := by
  obtain ⟨hlo, hle, hlen⟩ := h
  have hbuf : (bufferSize : Int) = 65535 := rfl
  have hcast : cInt (b.msgLen + n) = b.msgLen + n := cInt_eq_self (by omega) (by omega)
  have hone : cInt ((n : Int) + (zeroByte : Nat)) = (n : Int) + 1 :=
    cInt_eq_self (by omega) (by simp only [zeroByte]; omega)
  -- the copy behind the contents of a block that has room for it
  have happend : ∀ c : MsgBuffer, c.msgLen = b.msgLen → (c.msg.length : Int) = c.size →
      b.msgLen + n ≤ c.size → c.msg.take b.msgLen.toNat = b.contents →
      (MsgBuffer.mk (copyAt c.msg c.msgLen.toNat src ((n : Int) + 1)) (b.msgLen + n)
          c.size).WellFormed ∧
        (MsgBuffer.mk (copyAt c.msg c.msgLen.toNat src ((n : Int) + 1)) (b.msgLen + n)
          c.size).contents = b.contents ++ padded src n := by
    intro c hcl hcs hroom hcont
    refine ⟨⟨by simp only; omega, hroom, by rw [length_copyAt]; exact hcs⟩, ?_⟩
    have htoNat : (b.msgLen + (n : Int)).toNat = b.msgLen.toNat + n := by omega
    rw [MsgBuffer.contents, hcl, htoNat, take_copyAt src (by omega) (by omega), hcont]
  simp only [bufferAppend, hcast, hone] at hok ⊢
  split
  · rename_i hgrow
    have hnew : cInt (b.size + bufferSize) = b.size + bufferSize :=
      cInt_eq_self (by omega) (hgrown hgrow)
    have hroom : b.msg.length ≤ (b.size + bufferSize).toNat := by omega
    obtain ⟨hwf, hcont⟩ := happend
      ⟨realloc b.msg (b.size + bufferSize).toNat, b.msgLen, b.size + bufferSize⟩ rfl
      (by rw [length_realloc hroom]; exact Int.toNat_of_nonneg (by omega)) (by simp only; omega)
      (take_realloc hroom (by omega))
    obtain rfl : alloc = true := by
      cases alloc with
      | false => simp [hgrow] at hok
      | true => rfl
    simp only [Bool.not_true, Bool.false_eq_true, if_false, hnew]
    exact ⟨hwf, trivial, hcont, Or.inr ⟨hgrow, trivial⟩⟩
  · rename_i hgrow
    obtain ⟨hwf, hcont⟩ := happend b rfl hlen (by omega) rfl
    exact ⟨hwf, rfl, hcont, Or.inl rfl⟩

/-- Appending `n` non-zero bytes. -/
theorem bufferAppend_spec {b : MsgBuffer} (h : b.WellFormed) {src : Bytes} {n : Nat}
    (hn : n ≤ (cstr src).length) (hstep : n ≤ bufferSize)
    (hsize : b.size + bufferSize < 2 ^ 31) :
    (bufferAppend b src n true).2 = true ∧
      (bufferAppend b src n true).1.WellFormed ∧
      (bufferAppend b src n true).1.contents = b.contents ++ (cstr src).take n ∧
      ((bufferAppend b src n true).1.size = b.size ∨
        b.size < b.msgLen + n ∧ (bufferAppend b src n true).1.size = b.size + bufferSize) := by
  have hok := bufferAppend_of_alloc b src n
  have hle := h.msgLen_le
  obtain ⟨hwf, -, hcontents, hgrowth⟩ :=
    bufferAppend_true h hok hstep (by omega) fun _ => hsize
  rw [padded_eq_take hn] at hcontents
  exact ⟨hok, hwf, hcontents, hgrowth⟩

/-- The scan of the block finds the first CRLF of the contents. -/
theorem crlf_eq {b : MsgBuffer} (h : b.WellFormed) :
    crlf b = indexOf crlfBytes b.contents := by
  have hlen := MsgBuffer.length_contents h
  obtain ⟨hlo, hle, hmem⟩ := h
  -- the test at `i` is an occurrence among the contents
  have htest : ∀ i < (b.msgLen - 1).toNat,
      ((b.msg.getD i 0 == 0x0D && b.msg.getD (i + 1) 0 == 0x0A) = true ↔
        crlfBytes <+: b.contents.drop i) := by
    intro i hi
    rw [crlfBytes, pair_prefix_drop_iff, MsgBuffer.contents,
      List.getElem?_take_of_lt (by omega), List.getElem?_take_of_lt (by omega),
      List.getElem?_eq_getElem (by omega), List.getElem?_eq_getElem (by omega)]
    simp [List.getD, List.getElem?_eq_getElem (show i < b.msg.length by omega),
      List.getElem?_eq_getElem (show i + 1 < b.msg.length by omega)]
  refine Option.ext fun i => ?_
  rw [crlf, List.find?_range_eq_some, indexOf_eq_some_iff]
  constructor
  · rintro ⟨hi, hrange, hleast⟩
    rw [List.mem_range] at hrange
    refine ⟨by omega, (htest i hrange).mp hi, fun j hj hpre => ?_⟩
    have hno := hleast j hj
    rw [(htest j (by omega)).mpr hpre] at hno
    cases hno
  · rintro ⟨-, hpre, hleast⟩
    have hfit := hpre.length_le
    rw [List.length_drop] at hfit
    simp only [crlfBytes, List.length_cons, List.length_nil] at hfit
    have hrange : i < (b.msgLen - 1).toNat := by omega
    refine ⟨(htest i hrange).mpr hpre, List.mem_range.mpr hrange, fun j hj => ?_⟩
    rw [Bool.not_eq_true', ← Bool.not_eq_true]
    exact fun hj' => hleast j hj ((htest j (by omega)).mp hj')

/-- Without a complete line the buffer stays as it is. -/
theorem bufferGetMsg_none {b : MsgBuffer} (h : b.WellFormed)
    (hcut : cut crlfBytes b.contents = none) : bufferGetMsg b true = (b, none) := by
  have hcrlf : crlf b = none := by rw [crlf_eq h]; exact cut_eq_none_iff.mp hcut
  simp [bufferGetMsg, hcrlf]

/-- A complete line is taken out with its CRLF, and the bytes behind it move to
the front. -/
theorem bufferGetMsg_some {b : MsgBuffer} (h : b.WellFormed) {m r : Bytes}
    (hcut : cut crlfBytes b.contents = some (m, r)) :
    (bufferGetMsg b true).2 = some (m ++ [0]) ∧ (bufferGetMsg b true).1.WellFormed ∧
      (bufferGetMsg b true).1.contents = r ∧ (bufferGetMsg b true).1.size = b.size := by
  have hlen := MsgBuffer.length_contents h
  obtain ⟨i, hi, hm, hr⟩ := cut_eq_some hcut
  have hbound := indexOf_bound hi
  have htwo : i + crlfBytes.length = i + 2 := rfl
  rw [htwo] at hm hr hbound
  have hne : bufferIsEmpty b = false := by
    simp only [bufferIsEmpty, beq_eq_false_iff_ne, ne_eq]
    omega
  rw [← crlf_eq h] at hi
  obtain ⟨hlo, hle, hmem⟩ := h
  simp only [bufferGetMsg, hne, hi, Bool.false_eq_true, if_false, Bool.not_true]
  refine ⟨?_, ⟨?_, ?_, ?_⟩, ?_, trivial⟩
  · rw [hm, MsgBuffer.contents, List.take_take, Nat.min_eq_left (by omega)]
  · simp only; omega
  · simp only; omega
  · simp only [List.length_append, List.length_take, List.length_drop]; omega
  · rw [hr]
    simp only [MsgBuffer.contents]
    rw [List.take_append_of_le_length (by rw [List.length_take, List.length_drop]; omega),
      List.take_take, Nat.min_self, List.drop_take]
    congr 1
    omega

/-- Without memory for the line nothing changes. -/
theorem bufferGetMsg_false (b : MsgBuffer) : bufferGetMsg b false = (b, none) := by
  unfold bufferGetMsg
  split
  · rfl
  · split <;> rfl

/-- Either no line is complete and nothing changes, or the first line leaves the
contents. -/
theorem bufferGetMsg_cases {b : MsgBuffer} (h : b.WellFormed) :
    (cut crlfBytes b.contents = none ∧ bufferGetMsg b true = (b, none)) ∨
      ∃ m b', bufferGetMsg b true = (b', some (m ++ [0])) ∧
        cut crlfBytes b.contents = some (m, b'.contents) ∧ b'.WellFormed ∧ b'.size = b.size := by
  cases hcut : cut crlfBytes b.contents with
  | none => exact Or.inl ⟨rfl, bufferGetMsg_none h hcut⟩
  | some mr =>
      obtain ⟨m, r⟩ := mr
      obtain ⟨hmsg, hwf, hcontents, hsize⟩ := bufferGetMsg_some h hcut
      refine Or.inr ⟨m, (bufferGetMsg b true).1, ?_, ?_, hwf, hsize⟩
      · rw [← hmsg]
      · rw [hcontents]

end IpkChat.Core
