/-
  Core/BufferBytes.lean --- which chunks buffer_append stores as they are.

  The contents of the buffer are counted by length, but a chunk is copied as a string:
  behind its first zero byte only zeros are stored.  What the server sent there is
  lost, a CRLF included.
-/
import IpkChat.Core.MsgBuffer

set_option autoImplicit false

namespace IpkChat.Core

open IpkChat.Foundation

/-- No other byte follows a zero byte. -/
def ZerosLast (m : Bytes) : Prop := ∀ front back, m = front ++ 0 :: back → ∀ c ∈ back, c = 0

theorem zerosLast_cons {c : UInt8} {m : Bytes} (hc : c ≠ 0) :
    ZerosLast (c :: m) ↔ ZerosLast m := by
  constructor
  · intro h front back heq
    exact h (c :: front) back (congrArg (c :: ·) heq)
  · intro h front back heq
    cases front with
    | nil => exact absurd (List.cons.inj heq).1 hc
    | cons d front => exact h front back (List.cons.inj heq).2

theorem zerosLast_zero {m : Bytes} : ZerosLast (0 :: m) ↔ ∀ c ∈ m, c = 0 := by
  constructor
  · exact fun h => h [] m rfl
  · intro h front back heq c hc
    cases front with
    | nil =>
        obtain ⟨-, rfl⟩ := List.cons.inj heq
        exact h c hc
    | cons d front =>
        obtain ⟨-, rfl⟩ := List.cons.inj heq
        exact h c (List.mem_append_right front (List.mem_cons_of_mem 0 hc))

/-- strncpy copies a chunk as it is exactly if no other byte follows a zero byte. -/
theorem padded_eq_self_iff (m beyond : Bytes) :
    padded (m ++ beyond) m.length = m ↔ ZerosLast m := by
  induction m with
  | nil =>
      refine iff_of_true ?_ ?_
      · simp [padded]
      · intro front back heq
        simp at heq
  | cons c m ih =>
      by_cases hc : c = 0
      · subst hc
        have hzeros :
            padded (0 :: m ++ beyond) (0 :: m).length = 0 :: List.replicate m.length 0 := by
          simp [padded, cstr, List.replicate_succ]
        rw [zerosLast_zero, hzeros, List.cons.injEq, eq_comm (a := List.replicate _ _),
          List.eq_replicate_iff]
        simp
      · have hcons :
            padded (c :: m ++ beyond) (c :: m).length = c :: padded (m ++ beyond) m.length := by
          simp [padded, cstr, hc]
        rw [zerosLast_cons hc, ← ih, hcons, List.cons.injEq]
        simp

/-- After the append the contents are extended by the chunk, and buffer_get_msg takes
out the first line of what was received. -/
def Faithful (b : MsgBuffer) (m beyond : Bytes) (alloc : Bool) : Prop :=
  let b' := (bufferAppend b (m ++ beyond) m.length alloc).1
  b'.contents = b.contents ++ m ∧
    (bufferGetMsg b' true).2 = (cut crlfBytes (b.contents ++ m)).map fun line => line.1 ++ [0]

/-- If the lengths overflow, the contents are lost. -/
theorem not_faithful_of_overflow {b : MsgBuffer} (h : b.WellFormed) (hint : b.size < 2 ^ 31)
    {m : Bytes} (hpos : 1 ≤ m.length) (hle : m.length ≤ bufferSize - 1) (beyond : Bytes)
    (alloc : Bool) (hover : 2 ^ 31 ≤ b.msgLen + m.length) : ¬ Faithful b m beyond alloc := by
  obtain ⟨hlo, hmsg, -⟩ := h
  have hbuf : bufferSize = 65535 := rfl
  have hwrap : cInt (b.msgLen + m.length) = b.msgLen + m.length - 2 ^ 32 :=
    cInt_of_overflow hover (by omega)
  rintro ⟨hcontents, -⟩
  have hlen := congrArg List.length hcontents
  simp only [bufferAppend, hwrap] at hlen
  rw [if_neg (by omega)] at hlen
  simp only [MsgBuffer.contents, List.length_take, List.length_append] at hlen
  omega

/-- A block that realloc has enlarged has a size that is an int. -/
theorem grown_lt {b : MsgBuffer} (hint : b.size < 2 ^ 31) {src : Bytes} {n : Int} {alloc : Bool}
    (hok : (bufferAppend b src n alloc).2 = true)
    (hrealloc : b.size < cInt (b.msgLen + n) → alloc = true → 0 ≤ cInt (b.size + bufferSize))
    (hgrow : b.size < cInt (b.msgLen + n)) (hlo : 0 ≤ b.size) : b.size + bufferSize < 2 ^ 31 := by
  have hbuf : (bufferSize : Int) = 65535 := rfl
  cases alloc with
  | false =>
      simp only [bufferAppend] at hok
      rw [if_pos hgrow] at hok
      simp at hok
  | true =>
      have hnonneg := hrealloc hgrow rfl
      by_contra hbig
      rw [cInt_of_overflow (by omega) (by omega)] at hnonneg
      omega

/-- For every buffer whose lengths are ints and every chunk that recv can deliver: a
successful append is faithful exactly if no other byte follows a zero byte in the
chunk, and the length of the contents is still an int.  (realloc refuses a size that
is negative as an int.) -/
theorem buffer_append_faithful_iff {b : MsgBuffer} (h : b.WellFormed) (hint : b.size < 2 ^ 31)
    {m : Bytes} (hpos : 1 ≤ m.length) (hle : m.length ≤ bufferSize - 1) (beyond : Bytes)
    {alloc : Bool} (hok : (bufferAppend b (m ++ beyond) m.length alloc).2 = true)
    (hrealloc : b.size < cInt (b.msgLen + m.length) → alloc = true →
      0 ≤ cInt (b.size + bufferSize)) :
    Faithful b m beyond alloc ↔ ZerosLast m ∧ b.msgLen + m.length < 2 ^ 31 := by
  by_cases hover : 2 ^ 31 ≤ b.msgLen + m.length
  · refine iff_of_false (not_faithful_of_overflow h hint hpos hle beyond alloc hover) ?_
    rintro ⟨-, hlt⟩
    omega
  · have hbuf : (bufferSize : Int) = 65535 := rfl
    have hmsg := h.msgLen_le
    have hlo := h.msgLen_nonneg
    have hlt : b.msgLen + m.length < 2 ^ 31 := by omega
    have hsum : cInt (b.msgLen + m.length) = b.msgLen + m.length := cInt_eq_self (by omega) hlt
    have hgrown : b.size < b.msgLen + m.length → b.size + bufferSize < 2 ^ 31 := by
      intro hgrow
      rw [← hsum] at hgrow
      exact grown_lt hint hok hrealloc hgrow (by omega)
    obtain ⟨hwf, -, hcontents, -⟩ := bufferAppend_true h hok (by omega) hlt hgrown
    unfold Faithful
    simp only [hcontents, List.append_cancel_left_eq, padded_eq_self_iff]
    constructor
    · rintro ⟨hzeros, -⟩
      exact ⟨hzeros, hlt⟩
    · rintro ⟨hzeros, -⟩
      refine ⟨hzeros, ?_⟩
      rw [(padded_eq_self_iff m beyond).mpr hzeros] at hcontents
      rw [← hcontents]
      obtain ⟨hcut, heq⟩ | ⟨line, b', heq, hcut, -⟩ := bufferGetMsg_cases hwf
      · rw [heq, hcut]
        rfl
      · rw [heq, hcut]
        rfl

/-- A chunk without zero bytes, received into the initial buffer. -/
theorem buffer_append_faithful_iff_line : Faithful .empty (ascii "BYE FROM s\r\n") [] true := by
  have hzeros : ZerosLast (ascii "BYE FROM s\r\n") := by
    apply (padded_eq_self_iff _ []).mp
    decide
  have hok : (bufferAppend .empty (ascii "BYE FROM s\r\n" ++ [])
      (ascii "BYE FROM s\r\n").length true).2 = true := bufferAppend_of_alloc _ _ _
  exact (buffer_append_faithful_iff MsgBuffer.wellFormed_empty (by decide) (by decide) (by decide)
    [] hok fun _ _ => by decide).mpr ⟨hzeros, by decide⟩

/-- A zero byte hides the line behind it in the same chunk: the append succeeds, and no
line is found. -/
theorem zero_byte_hides_line :
    let m := 0 :: ascii "BYE FROM s\r\n"
    (bufferAppend .empty m m.length true).2 = true ∧ ¬ Faithful .empty m [] true ∧
      (bufferGetMsg (bufferAppend .empty m m.length true).1 true).2 = none := by
  intro m
  have hok : (bufferAppend .empty m m.length true).2 = true := bufferAppend_of_alloc _ _ _
  obtain ⟨hwf, -, hcontents, -⟩ := bufferAppend_true MsgBuffer.wellFormed_empty hok (by decide)
    (by decide) fun _ => by decide
  refine ⟨hok, ?_, ?_⟩
  · rintro ⟨hfaithful, -⟩
    rw [List.append_nil, hcontents] at hfaithful
    exact absurd hfaithful (by decide)
  · rw [bufferGetMsg_none hwf (by rw [hcontents]; decide)]

end IpkChat.Core
