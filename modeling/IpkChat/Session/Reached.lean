/-
  Session/Reached.lean --- the rounds of the program, and the worlds between them.

  A `ClientRound` is a round of the loop of fsm with the functions that get_comm
  installs.  `AtTest` collects the worlds in which the loop comes to its test; they
  are worlds that fsm passes through, and their conversations are reachable.
-/
import IpkChat.Session.Discipline

set_option autoImplicit false

namespace IpkChat.Session

open IpkChat.Foundation IpkChat.Core IpkChat.Udp Conversation

/-! ## Rounds of the program -/

/-- The variant of the protocol, with what the send_msg of a round meets. -/
inductive Wire where
  | udp (alloc : Bool) (attempts : List Attempt)
  | tcp (alloc sent : Bool)

/-- The pointers of the variant. -/
def Wire.comm : Wire → Comm
  | .udp _ _ => udpComm
  | .tcp _ _ => tcpComm

/-- The surroundings of a round. -/
def Wire.env (script : AwaitScript) : Wire → Env
  | .udp alloc attempts => udpEnv script alloc attempts
  | .tcp alloc sent => tcpEnv script alloc sent

/-- One round of the loop. -/
structure ClientRound where
  sigint : Bool := false
  script : AwaitScript
  wire : Wire

/-- The round, with the variant as its surroundings. -/
def ClientRound.toRound (r : ClientRound) : Round := ⟨r.sigint, r.wire.env r.script⟩

/-- The world in which the round calls its state function. -/
def ClientRound.enter (r : ClientRound) (w : World) (state : FsmState) : World :=
  (enterRound r.toRound w state).1

/-- What the round leaves, and the result of its state function. -/
def ClientRound.run (r : ClientRound) (w : World) (state : FsmState) : World × Option ExitCode :=
  runState r.toRound.env (enterRound r.toRound w state).2 (enterRound r.toRound w state).1

theorem wire_await (wire : Wire) (script : AwaitScript) (w : World) :
    (wire.env script).await w = await wire.comm script w := by
  cases wire <;> rfl

theorem wire_admissible (wire : Wire) (script : AwaitScript) : Admissible (wire.env script) := by
  cases wire with
  | udp alloc attempts => exact udpEnv_admissible script alloc attempts
  | tcp alloc sent => exact tcpEnv_admissible script alloc sent

theorem neutralComm_wire (wire : Wire) : NeutralComm wire.comm := by
  cases wire with
  | udp alloc attempts => exact neutralComm_udp
  | tcp alloc sent => exact neutralComm_tcp

theorem ClientRound.admissible (r : ClientRound) : Admissible r.toRound.env :=
  wire_admissible r.wire r.script

/-! ## The test of the loop -/

/-- The loop of fsm is at its test in `w`. -/
inductive AtTest (client : Client) (retransmissions : UInt8) : World → Prop where
  | start : AtTest client retransmissions (fsmInit (World.init client retransmissions))
  | round {w : World} {state : FsmState} (r : ClientRound)
      (hw : AtTest client retransmissions w) (hstate : w.state = some state)
      (hcode : (r.run w state).2 = some .success) :
      AtTest client retransmissions (r.run w state).1

section Test

variable {client : Client} {retransmissions : UInt8} {w : World}

/-- The loop of fsm goes on after a round that succeeds, and only then. -/
theorem fsmLoop_cons (r : ClientRound) {state : FsmState} (hstate : w.state = some state)
    (rest : List Round) :
    fsmLoop w (r.toRound :: rest) =
      if (r.run w state).2 = some .success then fsmLoop (r.run w state).1 rest
      else r.run w state := by
  rw [fsmLoop, hstate]
  unfold ClientRound.run
  simp only
  generalize runState r.toRound.env (enterRound r.toRound w state).2
    (enterRound r.toRound w state).1 = res
  obtain ⟨w', code⟩ := res
  cases code with
  | none => rfl
  | some code =>
      cases code with
      | success => rfl
      | failure => rfl

theorem fsmLoop_run (r : ClientRound) {state : FsmState} (hstate : w.state = some state)
    (hcode : (r.run w state).2 = some .success) (rest : List Round) :
    fsmLoop w (r.toRound :: rest) = fsmLoop (r.run w state).1 rest := by
  rw [fsmLoop_cons r hstate, if_pos hcode]

/-- A round that does not succeed is the last one. -/
theorem fsmLoop_stop (r : ClientRound) {state : FsmState} (hstate : w.state = some state)
    (hcode : (r.run w state).2 ≠ some .success) (rest : List Round) :
    fsmLoop w (r.toRound :: rest) = r.run w state := by
  rw [fsmLoop_cons r hstate, if_neg hcode]

/-- Some rounds of fsm lead there. -/
theorem AtTest.exists_rounds (h : AtTest client retransmissions w) :
    ∃ rounds : List ClientRound, ∀ rest : List Round,
      fsm (World.init client retransmissions) (rounds.map ClientRound.toRound ++ rest) =
        fsmLoop w rest := by
  induction h with
  | start => exact ⟨[], fun rest => rfl⟩
  | round r hw hstate hcode ih =>
      obtain ⟨rounds, hrounds⟩ := ih
      refine ⟨rounds ++ [r], fun rest => ?_⟩
      rw [List.map_append, List.append_assoc, hrounds]
      exact fsmLoop_run r hstate hcode rest

/-- The session up to the test is a conversation that can go on. -/
theorem AtTest.reachable (h : AtTest client retransmissions w) : Reachable (conversation w) := by
  induction h with
  | start => exact Relation.ReflTransGen.refl
  | round r hw hstate hcode ih =>
      have hfits := (ih.invariant start_inOrder fun _ _ => step_inOrder).fits _ hstate
      exact (round_carriesOn r.admissible ih hstate hfits.not_interupt).2 hcode

theorem AtTest.fits (h : AtTest client retransmissions w) {state : FsmState}
    (hstate : w.state = some state) : Fits state w.processing w.trace :=
  (h.reachable.invariant start_inOrder fun _ _ => step_inOrder).fits state hstate

end Test

end IpkChat.Session
