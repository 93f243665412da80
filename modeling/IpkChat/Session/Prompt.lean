/-
  Session/Prompt.lean --- lib/prompt.h and src/prompt.c.

  await waits for a message of the server or a line of the user.  The functions
  behind the pointers of comm_t are a parameter; `udpComm` and `tcpComm` are the
  two values that get_comm installs.

  An `AwaitScript` is what one call of await meets: the results of its calls of
  select, in order, and the clock.  Where the results end, select has not returned.
-/
import IpkChat.Session.Input
import IpkChat.Tcp.Comm
import IpkChat.Udp.Comm

set_option autoImplicit false

namespace IpkChat.Session

open IpkChat.Foundation IpkChat.Core IpkChat.Tcp IpkChat.Udp

/-! ## The communication interface -/

/-- What check_previous_msg meets: the bytes behind a heap copy in memory, and
whether the malloc of buffer_get_msg succeeds. -/
structure Check where
  beyond : Bytes := []
  lineAlloc : Bool := true

/-- The pointers of comm_t that await calls. -/
structure Comm where
  recvMsg : World → Arrival → World × MsgType
  checkPreviousMsg : World → Check → World × Option MsgType

/-- The pointers that comm_setup sets for UDP. -/
def udpComm : Comm := ⟨udpRecvMsg, fun w c => udpCheckPrevious w c.beyond⟩

/-- The pointers that comm_setup sets for TCP. -/
def tcpComm : Comm := ⟨tcpRecvMsg, fun w c => tcpCheckPrevious w c.lineAlloc⟩

/-! ## Time -/

/-- The time left of the window of about four seconds that began at `start`. -/
def calculateRemainingTime (start now : Timeval) : Timeval :=
  let elapsedSec := now.tvSec - start.tvSec
  let elapsedUsec := now.tvUsec - start.tvUsec
  let (elapsedSec, elapsedUsec) :=
    if elapsedUsec < 0 then (elapsedSec - 1, elapsedUsec + 1000000) else (elapsedSec, elapsedUsec)
  if 1000000 - elapsedUsec = 1000000 then ⟨4 - elapsedSec + 1, 0⟩
  else ⟨4 - elapsedSec, 1000000 - elapsedUsec⟩

/-! ## Waiting -/

/-- How a call of select ends. -/
inductive SelectResult where
  /-- -1 with EINTR -/
  | interrupted
  /-- -1 with another error -/
  | failed
  /-- 0 -/
  | timedOut
  /-- the descriptors found ready, with what reading them will meet -/
  | ready (socket : Option Arrival) (stdin : Option Getline)

/-- What one call of await meets; `clock k` is read before the `k`-th select. -/
structure AwaitScript where
  check : Check := {}
  start : Timeval := ⟨0, 0⟩
  clock : Nat → Timeval := fun _ => ⟨0, 0⟩
  results : List SelectResult

/-- The loop body up to the call of select. -/
def enterSelect (s : AwaitScript) (w : World) (k : Nat) : World :=
  let w :=
    if w.processing then w.emit (.timer (calculateRemainingTime s.start (s.clock k))) else w
  w.emit (.select w.toGlobals)

/-- The loop of await, with prompt.type in `type`. -/
def awaitLoop (comm : Comm) (s : AwaitScript) (incompleteTcpMessage : Bool) :
    World → MsgType → Nat → List SelectResult → World × Option Prompt
  | w, _, k, [] => (enterSelect s w k, none)
  | w, type, k, result :: rest =>
      let w := enterSelect s w k
      match result with
      | .interrupted =>
          if !w.processing then (w, some ⟨.server, .local_⟩)
          else awaitLoop comm s incompleteTcpMessage w type (k + 1) rest
      | .failed => (w, some ⟨.server, type⟩)
      | .timedOut =>
          if w.processing then
            ((w.print (.error "Server is not responding")).emit (.notResponding w.toGlobals),
              some ⟨.server, .error⟩)
          else awaitLoop comm s incompleteTcpMessage w type (k + 1) rest
      | .ready (some a) _ =>
          match comm.recvMsg w a with
          | (w, .ping) => awaitLoop comm s incompleteTcpMessage w .ping (k + 1) rest
          | (w, type) => (w, some ⟨.server, type⟩)
      | .ready none none => awaitLoop comm s incompleteTcpMessage w type (k + 1) rest
      | .ready none (some line) =>
          -- standard input is watched only when nothing else is pending
          if !w.processing && !incompleteTcpMessage then
            let (w, type) := parseUserInput w line
            (w, some ⟨.user, type⟩)
          else awaitLoop comm s incompleteTcpMessage w type (k + 1) rest

/-- A message that is left over comes first; a PING among them is passed over. -/
def await (comm : Comm) (s : AwaitScript) (w : World) : World × Option Prompt :=
  let w := w.emit (.await w.toGlobals)
  match comm.checkPreviousMsg w s.check with
  | (w, some .ping) => awaitLoop comm s (!bufferIsEmpty w.msgBuffer) w .ping 0 s.results
  | (w, some type) => (w, some ⟨.server, type⟩)
  -- prompt starts zeroed, and 0 is CONFIRM
  | (w, none) => awaitLoop comm s (!bufferIsEmpty w.msgBuffer) w .confirm 0 s.results

/-! ## Invariants of the loop -/

section Rule

variable {comm : Comm} {s : AwaitScript} {incomplete : Bool}

/-- The rule of the loop.  `I` holds at its head and `E` when select returns; what
await returns satisfies `Q`. -/
theorem awaitLoop_rule {I E : World → Prop} {Q : World → Option Prompt → Prop}
    (henter : ∀ w k, I w → E (enterSelect s w k)) (hcontinue : ∀ w, E w → I w)
    (hwaiting : ∀ w, E w → Q w none)
    (hserver : ∀ w type, E w → Q w (some ⟨.server, type⟩))
    (htimeout : ∀ w, E w → w.processing = true →
      Q ((w.print (.error "Server is not responding")).emit (.notResponding w.toGlobals))
        (some ⟨.server, .error⟩))
    (hping : ∀ w a, E w → (comm.recvMsg w a).2 = .ping → I (comm.recvMsg w a).1)
    (hrecv : ∀ w a, E w → (comm.recvMsg w a).2 ≠ .ping →
      Q (comm.recvMsg w a).1 (some ⟨.server, (comm.recvMsg w a).2⟩))
    (huser : ∀ w line, E w → w.processing = false → incomplete = false →
      Q (parseUserInput w line).1 (some ⟨.user, (parseUserInput w line).2⟩)) :
    ∀ (results : List SelectResult) (w : World) (type : MsgType) (k : Nat), I w →
      Q (awaitLoop comm s incomplete w type k results).1
        (awaitLoop comm s incomplete w type k results).2 := by
  intro results
  induction results with
  | nil => exact fun w type k hw => hwaiting _ (henter w k hw)
  | cons result rest ih =>
      intro w type k hw
      have hentered := henter w k hw
      unfold awaitLoop
      generalize enterSelect s w k = w₁ at hentered
      have hagain : ∀ type, Q (awaitLoop comm s incomplete w₁ type (k + 1) rest).1
          (awaitLoop comm s incomplete w₁ type (k + 1) rest).2 :=
        fun type => ih w₁ type (k + 1) (hcontinue w₁ hentered)
      cases result with
      | interrupted =>
          simp only
          split
          · exact hserver w₁ .local_ hentered
          · exact hagain type
      | failed => exact hserver w₁ type hentered
      | timedOut =>
          simp only
          split
          · rename_i hprocessing
            exact htimeout w₁ hentered hprocessing
          · exact hagain type
      | ready socket stdin =>
          cases socket with
          | some a =>
              have hp := hping w₁ a hentered
              have hr := hrecv w₁ a hentered
              simp only
              generalize comm.recvMsg w₁ a = res at hp hr
              obtain ⟨w₂, t⟩ := res
              cases t with
              | ping => exact ih w₂ .ping (k + 1) (hp rfl)
              | _ => exact hr (by simp)
          | none =>
              cases stdin with
              | none => exact hagain type
              | some line =>
                  simp only
                  split
                  · rename_i hwatch
                    simp only [Bool.and_eq_true, Bool.not_eq_true'] at hwatch
                    exact huser w₁ line hentered hwatch.1 hwatch.2
                  · exact hagain type

/-- The rule of await.  Before the loop, a message left over from before is looked
for; the loop runs if there is none, or a PING. -/
theorem await_rule {Q : World → Option Prompt → Prop} (w : World)
    (hprevious : ∀ type,
      (comm.checkPreviousMsg (w.emit (.await w.toGlobals)) s.check).2 = some type → type ≠ .ping →
        Q (comm.checkPreviousMsg (w.emit (.await w.toGlobals)) s.check).1 (some ⟨.server, type⟩))
    (hloop : (comm.checkPreviousMsg (w.emit (.await w.toGlobals)) s.check).2 = none ∨
        (comm.checkPreviousMsg (w.emit (.await w.toGlobals)) s.check).2 = some .ping →
      ∀ incomplete type,
        Q (awaitLoop comm s incomplete
            (comm.checkPreviousMsg (w.emit (.await w.toGlobals)) s.check).1 type 0 s.results).1
          (awaitLoop comm s incomplete
            (comm.checkPreviousMsg (w.emit (.await w.toGlobals)) s.check).1 type 0 s.results).2) :
    Q (await comm s w).1 (await comm s w).2 := by
  unfold await
  simp only
  generalize comm.checkPreviousMsg (w.emit (.await w.toGlobals)) s.check = res at hprevious hloop
  obtain ⟨w₁, t⟩ := res
  cases t with
  | none => exact hloop (Or.inl rfl) _ _
  | some t =>
      cases t with
      | ping => exact hloop (Or.inr rfl) _ _
      | _ => exact hprevious _ rfl (by simp)

end Rule

end IpkChat.Session
