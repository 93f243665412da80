/-
  Foundation/Stream.lean --- reading lines through a buffer.

  A line is read from a buffer that is filled from a source piece by piece.  Reading
  stops at the first separator; what the last piece brought behind it stays in the
  buffer.
-/
import IpkChat.Foundation.Bytes

set_option autoImplicit false

namespace IpkChat.Foundation

/-- The first line of `buffered` and what follows it. -/
def cutLine (sep : UInt8) (buffered : Bytes) : Bytes × Bytes :=
  (buffered.takeWhile (· != sep) ++ [sep], (buffered.dropWhile (· != sep)).drop 1)

/-- Read a line from `buffered`, with the pieces that arrive in the meantime, and return
it with what stays in the buffer.  `none` if the line does not end with the last piece:
the reader still waits, or has returned before. -/
def readLine (sep : UInt8) (buffered : Bytes) : List Bytes → Option (Bytes × Bytes)
  | [] => if sep ∈ buffered then some (cutLine sep buffered) else none
  | piece :: pieces => if sep ∈ buffered then none else readLine sep (buffered ++ piece) pieces

section Lines

variable {sep : UInt8} {buffered line rest : Bytes} {pieces : List Bytes}

theorem cutLine_append (front : Bytes) (hfront : sep ∉ front) (rest : Bytes) :
    cutLine sep (front ++ sep :: rest) = (front ++ [sep], rest) := by
  have hall : ∀ b ∈ front, (b != sep) = true := by
    intro b hb
    exact bne_iff_ne.mpr fun heq => hfront (heq ▸ hb)
  unfold cutLine
  rw [List.takeWhile_append_of_pos hall, List.dropWhile_append_of_pos hall]
  simp

/-- Nothing is lost: the line and the rest are what was buffered and what arrived. -/
theorem readLine_append (h : readLine sep buffered pieces = some (line, rest)) :
    ∃ front, sep ∉ front ∧ line = front ++ [sep] ∧
      front ++ sep :: rest = buffered ++ pieces.flatten := by
  induction pieces generalizing buffered with
  | nil =>
      unfold readLine at h
      split at h
      case isTrue hmem =>
        obtain ⟨front, rest', rfl, hfront⟩ := List.eq_append_cons_of_mem hmem
        rw [cutLine_append front hfront, Option.some.injEq, Prod.mk.injEq] at h
        obtain ⟨rfl, rfl⟩ := h
        exact ⟨front, hfront, rfl, by rw [List.flatten_nil, List.append_nil]⟩
      case isFalse => cases h
  | cons piece pieces ih =>
      unfold readLine at h
      split at h
      case isTrue => cases h
      case isFalse =>
        obtain ⟨front, hfront, hline, heq⟩ := ih h
        exact ⟨front, hfront, hline, by rw [heq, List.flatten_cons, List.append_assoc]⟩

/-- The line takes one separator with it. -/
theorem count_rest (h : readLine sep buffered pieces = some (line, rest)) :
    rest.count sep + 1 = (buffered ++ pieces.flatten).count sep := by
  obtain ⟨front, hfront, -, heq⟩ := readLine_append h
  rw [← heq, List.count_append, List.count_cons_self, List.count_eq_zero.mpr hfront, Nat.zero_add]

end Lines

end IpkChat.Foundation
