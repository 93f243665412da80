/-
  Tcp/Reception.lean --- what tcp_recv_msg does with a failed recv.

  The result of recv is stored in a size_t and tested for being positive.  A closed
  connection, 0, fails the test and nothing is touched.  An error, -1, passes it as
  the largest size_t and reaches buffer_append as the length -1: the buffer loses its
  last byte, and the error is not reported.
-/
import IpkChat.Tcp.Comm
import IpkChat.Core.BufferBounds

set_option autoImplicit false

namespace IpkChat.Tcp

open IpkChat.Foundation IpkChat.Core

/-- recv returns 0 or -1. -/
def Failed : RecvResult → Prop
  | .data _ chunk _ => chunk = []
  | .failed _ => True

/-- recv returns 0: the connection is closed. -/
def Closed : RecvResult → Prop
  | .data _ chunk _ => chunk = []
  | .failed _ => False

/-- The length that tcp_recv_msg passes to buffer_append, where it calls it. -/
def appendLength (result : RecvResult) : Option Int :=
  if bRcv result > 0 then some (cInt (bRcv result)) else none

/-- The memory that tcp_recv_msg passes to buffer_append. -/
def appendSource : RecvResult → Bytes
  | .data _ chunk _ => rcvBuffer chunk
  | .failed _ => rcvBuffer []

/-- tcp_recv_msg calls buffer_append with that length or not at all. -/
theorem tcpRecvMsg_eq (w : World) (a : Arrival) :
    tcpRecvMsg w a =
      match appendLength a.result with
      | none => (w.print (.error "recv fault"), .error)
      | some n =>
          match bufferAppend w.msgBuffer (appendSource a.result) n a.bufferAlloc with
          | (b, false) =>
              (({ w with msgBuffer := b } : World).print (.error "realloc failed in buffer"),
                .error)
          | (b, true) =>
              match bufferGetMsg b a.lineAlloc with
              | (b, some msg) => (({ w with msgBuffer := b } : World).printParsed
                  (tcpProcessMsg msg), (tcpProcessMsg msg).type)
              | (b, none) => ({ w with msgBuffer := b }, .local_) := by
  obtain ⟨result⟩ := a
  unfold tcpRecvMsg appendLength
  cases result with
  | data src chunk errno =>
      simp only [appendSource]
      split <;> rfl
  | failed errno => rfl

/-- What a failed receive leaves alone. -/
structure FailsAtomically (w : World) (a : Arrival) : Prop where
  error : (tcpRecvMsg w a).2 = .error
  buffer : (tcpRecvMsg w a).1.msgBuffer = w.msgBuffer
  length : ∀ n, appendLength a.result = some n → 1 ≤ n ∧ n ≤ bufferSize - 1

/-- The largest size_t is -1 as an int. -/
theorem appendLength_failed (errno : Errno) : appendLength (.failed errno) = some (-1) := by
  have hcast : cInt ((2 ^ 64 - 1 : Nat) : Int) = -1 := by decide
  rw [appendLength, bRcv, if_pos (by omega), hcast]

theorem appendLength_closed {result : RecvResult} (h : Closed result) :
    appendLength result = none := by
  cases result with
  | data src chunk errno =>
      obtain rfl : chunk = [] := h
      rfl
  | failed errno => cases h

/-- An append of length -1 to a buffer that is in use takes its last byte away, and
writes all of memory behind it. -/
theorem bufferAppend_minus_one {b : MsgBuffer} (h : Bounded b) (src : Bytes) (alloc : Bool) :
    (bufferAppend b src (-1) alloc).2 = true ∧
      (bufferAppend b src (-1) alloc).1.msgLen = b.msgLen - 1 ∧
      ∀ i, b.msgLen ≤ i → i < b.msgLen + (2 ^ 64 - 1) → appendWrites b (-1) alloc i := by
  obtain ⟨⟨hlo, hle, -⟩, hlt⟩ := h
  have hbuf : (bufferSize : Int) = 65535 := rfl
  have hsum : cInt (b.msgLen + -1) = b.msgLen - 1 := by
    unfold cInt
    exact Int.bmod_eq_of_le (by omega) (by omega)
  have hnogrow : ¬ cInt (b.msgLen + -1) > b.size := by omega
  refine ⟨?_, ?_, ?_⟩
  · rw [bufferAppend, if_neg hnogrow]
  · rw [bufferAppend, if_neg hnogrow]
    exact hsum
  · intro i hi hend
    refine ⟨fun hgrow => absurd hgrow hnogrow, Or.inl ⟨hi, ?_⟩⟩
    have hcount : (cInt (-1 + (zeroByte : Nat)) - 1) % 2 ^ 64 = 2 ^ 64 - 1 := by decide
    rw [hcount]
    exact hend

/-- A failed receive is atomic exactly if recv returned 0. -/
theorem recv_failure_atomic_iff (w : World) {a : Arrival} (hfail : Failed a.result) :
    FailsAtomically w a ↔ Closed a.result := by
  constructor
  · intro hatomic
    obtain ⟨result⟩ := a
    cases result with
    | data src chunk errno => exact hfail
    | failed errno =>
        -- the length passed to buffer_append is -1
        have hlength := hatomic.length (-1) (appendLength_failed errno)
        omega
  · intro hclosed
    have hnone := appendLength_closed hclosed
    have heq := tcpRecvMsg_eq w a
    rw [hnone] at heq
    constructor
    · rw [heq]
    · rw [heq, World.print_toGlobals]
    · intro n hn
      rw [hnone] at hn
      cases hn

/-- A world whose buffer holds the beginning of a message. -/
def halfReceived : World :=
  { World.init sampleClient 3 with
    msgBuffer := (bufferAppend .empty (ascii "MSG FROM s IS he") 16 true).1 }

/-- A closed connection is reported. -/
theorem recv_failure_atomic_iff_closed :
    FailsAtomically halfReceived { result := .data default [] .eagain } := by
  have hfail : Failed (RecvResult.data default [] .eagain) := rfl
  exact (recv_failure_atomic_iff _ hfail).mpr rfl

example : halfReceived.msgBuffer.msgLen = 16 := by decide +kernel

/-- An error of the first recv is not reported, and leaves the length -1. -/
theorem recv_error_corrupts_buffer :
    let a : Arrival := { result := .failed .other }
    Failed a.result ∧ ¬ FailsAtomically (World.init sampleClient 3) a ∧
      (tcpRecvMsg (World.init sampleClient 3) a).2 = .local_ ∧
      (tcpRecvMsg (World.init sampleClient 3) a).1.msgBuffer.msgLen = -1 := by
  intro a
  have hlocal : (tcpRecvMsg (World.init sampleClient 3) a).2 = .local_ := by decide +kernel
  refine ⟨trivial, ?_, hlocal, ?_⟩
  · intro hatomic
    have herror := hatomic.error
    rw [hlocal] at herror
    cases herror
  · decide +kernel

end IpkChat.Tcp
