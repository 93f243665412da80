/-
  Session/Client.lean --- the state machine over UDP and over TCP.

  The state machine relies on little of what it calls: await and send_msg do not
  touch the state pointer or comm->processing, and a prompt of the user comes only
  while comm->processing is false.  `Admissible` states this, and the two clients
  of the program are shown to satisfy it.
-/
import IpkChat.Session.Fsm
import IpkChat.Session.Prompt
import IpkChat.Udp.Steps

set_option autoImplicit false

namespace IpkChat.Session

open IpkChat.Foundation IpkChat.Core IpkChat.Tcp IpkChat.Udp

/-! ## What the state functions call -/

/-- The events that the state functions emit themselves. -/
def isSessionEvent : Event → Bool
  | .prompt _ _ => true
  | .sendMsg _ => true
  | .settled _ _ => true
  | _ => false

/-- A call that leaves the state machine alone. -/
structure Neutral (w w' : World) : Prop where
  state_eq : w'.state = w.state
  processing_eq : w'.processing = w.processing
  trace_eq : ∃ es, w'.trace = w.trace ++ es ∧ ∀ e ∈ es, isSessionEvent e = false

/-- await and send_msg as the state machine sees them: any prompt of the server at
any time, one of the user only while no reply is awaited, any result of a send. -/
structure Admissible (env : Env) : Prop where
  await_neutral : ∀ w, Neutral w (env.await w).1
  await_user : ∀ w prompt, (env.await w).2 = some prompt → prompt.inputType = .user →
    w.processing = false
  send_neutral : ∀ w type, Neutral w (env.sendMsg w type).1

/-! ## The two clients -/

/-- The calls of one round over UDP. -/
def udpEnv (script : AwaitScript) (alloc : Bool) (attempts : List Attempt) : Env where
  await := await udpComm script
  sendMsg w type := udpSendMsg w type alloc attempts

/-- The calls of one round over TCP. -/
def tcpEnv (script : AwaitScript) (alloc sent : Bool) : Env where
  await := await tcpComm script
  sendMsg w type := ((tcpSendMsg w type alloc sent).1, some (tcpSendMsg w type alloc sent).2)

/-! ## Neutral calls -/

section Neutral

variable {w w' w'' : World}

theorem Neutral.refl (w : World) : Neutral w w := ⟨rfl, rfl, [], by simp, by simp⟩

theorem Neutral.trans (h : Neutral w w') (h' : Neutral w' w'') : Neutral w w'' := by
  obtain ⟨es, htrace, hes⟩ := h.trace_eq
  obtain ⟨es', htrace', hes'⟩ := h'.trace_eq
  refine ⟨h'.state_eq.trans h.state_eq, h'.processing_eq.trans h.processing_eq, es ++ es',
    by rw [htrace', htrace, List.append_assoc], fun e he => ?_⟩
  rcases List.mem_append.mp he with he | he
  · exact hes e he
  · exact hes' e he

/-- A step that changes other globals and writes other events. -/
theorem Neutral.of_trace (hstate : w'.state = w.state) (hprocessing : w'.processing = w.processing)
    (es : List Event) (htrace : w'.trace = w.trace ++ es)
    (hes : ∀ e ∈ es, isSessionEvent e = false) : Neutral w w' :=
  ⟨hstate, hprocessing, es, htrace, hes⟩

theorem neutral_emit (w : World) {e : Event} (he : isSessionEvent e = false) :
    Neutral w (w.emit e) :=
  ⟨rfl, rfl, [e], rfl, by simpa using he⟩

theorem neutral_print (w : World) (o : Output) : Neutral w (w.print o) := neutral_emit w rfl

theorem neutral_printParsed (w : World) (p : Parsed) : Neutral w (w.printParsed p) := by
  unfold World.printParsed
  split
  · exact Neutral.refl w
  · exact neutral_print w _

end Neutral

theorem neutral_parseUserInput (w : World) (input : Getline) :
    Neutral w (parseUserInput w input).1 := by
  obtain ⟨client, interrupt, printed, heq⟩ := inputStep_parseUserInput w input
  rw [heq]
  refine ⟨rfl, rfl, _, rfl, fun e he => ?_⟩
  obtain ⟨o, -, rfl⟩ := List.mem_map.mp he
  rfl

/-! ## TCP -/

theorem neutral_buffer (w : World) (b : MsgBuffer) : Neutral w { w with msgBuffer := b } :=
  ⟨rfl, rfl, [], by simp, by simp⟩

theorem neutral_tcpCheckPrevious (w : World) (alloc : Bool) :
    Neutral w (tcpCheckPrevious w alloc).1 := by
  simp only [tcpCheckPrevious]
  split
  · exact (neutral_buffer w _).trans (neutral_printParsed _ _)
  · exact neutral_buffer w _

theorem neutral_tcpRecvMsg (w : World) (a : Arrival) : Neutral w (tcpRecvMsg w a).1 := by
  simp only [tcpRecvMsg]
  split
  · split
    · exact (neutral_buffer w _).trans (neutral_print _ _)
    · split
      · exact (neutral_buffer w _).trans (neutral_printParsed _ _)
      · exact neutral_buffer w _
  · exact neutral_print w _

theorem neutral_tcpSendMsg (w : World) (type : MsgType) (alloc sent : Bool) :
    Neutral w (tcpSendMsg w type alloc sent).1 := by
  simp only [tcpSendMsg]
  split
  · exact Neutral.refl w
  · exact neutral_emit w rfl

/-! ## UDP -/

theorem confirmEvents_neutral (src : SockAddr) (d : Bytes) :
    ∀ e ∈ confirmEvents src d, isSessionEvent e = false := by
  intro e he
  unfold confirmEvents at he
  split at he <;> simp_all [isSessionEvent]

theorem neutral_received {w w' : World} {site : Site} {before : Globals} {a : Arrival}
    {d : Bytes} {fate : Fate} (h : Neutral w w') : Neutral w (w'.received site before a d fate) :=
  h.trans (neutral_emit w' rfl)

/-- Confirming, and what is done to the list and the queue after it. -/
theorem neutral_confirmed {w w' : World} {src : SockAddr} {d : Bytes}
    (hstate : w'.state = w.state) (hprocessing : w'.processing = w.processing)
    (htrace : w'.trace = (confirmed w src d).trace) : Neutral w w' :=
  Neutral.of_trace hstate hprocessing _ htrace (confirmEvents_neutral src d)

theorem neutral_client (w : World) (client : Client) : Neutral w { w with client := client } :=
  ⟨rfl, rfl, [], by simp, by simp⟩

theorem neutral_udpSendReceive (w : World) (a : Arrival) : Neutral w (udpSendReceive w a).1 := by
  have hout := udpSendReceive_outcome w a
  generalize udpSendReceive w a = res at hout
  cases hout with
  | noData client next hclient hnext => exact neutral_client w client
  | awaited src d hlen haw => exact neutral_received (neutral_client w _)
  | unconfirmed src d hlen haw hcan => exact neutral_received (neutral_client w _)
  | duplicate src d hlen haw hcan hmem => exact neutral_received (neutral_confirmed rfl rfl rfl)
  | queueFull src d hlen haw hcan hmem hadd =>
      exact neutral_received (neutral_confirmed rfl rfl rfl)
  | unrecorded src d queue list hlen haw hcan hmem hqueue hlist =>
      exact neutral_received (neutral_confirmed rfl rfl rfl)
  | queued src d queue list hlen haw hcan hmem hqueue hlist =>
      exact neutral_received (neutral_confirmed rfl rfl rfl)

theorem neutral_udpRecvMsg (w : World) (a : Arrival) : Neutral w (udpRecvMsg w a).1 := by
  have hout := udpRecvMsg_outcome w a
  generalize udpRecvMsg w a = res at hout
  cases hout with
  | failed => exact neutral_print w _
  | truncated src d hlen =>
      exact neutral_received ((neutral_client w _).trans (neutral_print _ _))
  | unconfirmed src d hlen hcan => exact neutral_received (neutral_client w _)
  | unknownType src d hlen hcan hfind =>
      have h : Neutral w (confirmed w src d) := neutral_confirmed rfl rfl rfl
      exact neutral_received (h.trans (neutral_print _ _))
  | duplicate src d hlen hcan hknown hmem =>
      exact neutral_received (neutral_confirmed rfl rfl rfl)
  | unrecorded src d list hlen hcan hknown hmem hlist =>
      exact neutral_received (neutral_confirmed rfl rfl rfl)
  | dispatched src d list p hlen hcan hknown hmem hlist =>
      have h : Neutral w { confirmed w src d with msgIdList := list } :=
        neutral_confirmed rfl rfl rfl
      exact neutral_received ((h.trans (neutral_emit _ rfl)).trans (neutral_printParsed _ p))

theorem neutral_udpCheckPrevious (w : World) (beyond : Bytes) :
    Neutral w (udpCheckPrevious w beyond).1 := by
  have hout := udpCheckPrevious_outcome w beyond
  generalize udpCheckPrevious w beyond = res at hout
  have hqueue : ∀ queue : MsgQueue, Neutral w { w with msgQueue := queue } :=
    fun queue => ⟨rfl, rfl, [], by simp, by simp⟩
  cases hout with
  | empty => exact Neutral.refl w
  | unknownType m queue hfront hfind => exact (hqueue queue).trans (neutral_print _ _)
  | dispatched m queue entry hfront hfind =>
      exact ((hqueue queue).trans (neutral_emit _ rfl)).trans (neutral_printParsed _ _)

theorem neutral_udpSendMsg (w : World) (type : MsgType) (alloc : Bool) (attempts : List Attempt) :
    Neutral w (udpSendMsg w type alloc attempts).1 := by
  simp only [udpSendMsg]
  split
  · exact Neutral.refl w
  · exact udpSendLoop_preserves (fun w' h => h.trans (neutral_emit w' rfl))
      (fun w' a (_ : True) h => h.trans (neutral_udpSendReceive w' a)) attempts w 0 true
      (fun _ _ => trivial) (Neutral.refl w)

/-! ## await -/

/-- The functions behind the pointers of comm_t leave the state machine alone. -/
structure NeutralComm (comm : Comm) : Prop where
  recv : ∀ w a, Neutral w (comm.recvMsg w a).1
  check : ∀ w c, Neutral w (comm.checkPreviousMsg w c).1

theorem neutralComm_udp : NeutralComm udpComm :=
  ⟨neutral_udpRecvMsg, fun w c => neutral_udpCheckPrevious w c.beyond⟩

theorem neutralComm_tcp : NeutralComm tcpComm :=
  ⟨neutral_tcpRecvMsg, fun w c => neutral_tcpCheckPrevious w c.lineAlloc⟩

theorem neutral_enterSelect (s : AwaitScript) (w : World) (k : Nat) :
    Neutral w (enterSelect s w k) := by
  simp only [enterSelect]
  split
  · exact (neutral_emit w rfl).trans (neutral_emit _ rfl)
  · exact neutral_emit w rfl

/-- What await does to the state machine: nothing, and it reads standard input only
while comm->processing is false. -/
def Waits (w w' : World) (prompt : Option Prompt) : Prop :=
  Neutral w w' ∧ ∀ p, prompt = some p → p.inputType = .user → w.processing = false

theorem waits_server {w w' : World} (h : Neutral w w') (type : MsgType) :
    Waits w w' (some ⟨.server, type⟩) :=
  ⟨h, fun p hp hu => by cases hp; cases hu⟩

theorem awaitLoop_waits {comm : Comm} (hcomm : NeutralComm comm) (s : AwaitScript)
    (incomplete : Bool) {w w₁ : World} (h : Neutral w w₁) (type : MsgType) (k : Nat)
    (results : List SelectResult) :
    Waits w (awaitLoop comm s incomplete w₁ type k results).1
      (awaitLoop comm s incomplete w₁ type k results).2 := by
  refine awaitLoop_rule (I := Neutral w) (E := Neutral w)
    (fun w' k h' => h'.trans (neutral_enterSelect s w' k)) (fun _ h' => h')
    (fun w' h' => ⟨h', fun p hp => by cases hp⟩) (fun w' type h' => waits_server h' type)
    (fun w' h' _ => waits_server ((h'.trans (neutral_print w' _)).trans (neutral_emit _ rfl)) _)
    (fun w' a h' _ => h'.trans (hcomm.recv w' a))
    (fun w' a h' _ => waits_server (h'.trans (hcomm.recv w' a)) _)
    (fun w' line h' hidle _ => ⟨h'.trans (neutral_parseUserInput w' line), fun _ _ _ => ?_⟩)
    results w₁ type k h
  exact h'.processing_eq ▸ hidle

theorem await_waits {comm : Comm} (hcomm : NeutralComm comm) (s : AwaitScript) (w : World) :
    Waits w (await comm s w).1 (await comm s w).2 := by
  have hemit : Neutral w (w.emit (.await w.toGlobals)) := neutral_emit w rfl
  have hcheck := hemit.trans (hcomm.check (w.emit (.await w.toGlobals)) s.check)
  exact await_rule w (fun type _ _ => waits_server hcheck type)
    fun _ incomplete type => awaitLoop_waits hcomm s incomplete hcheck type 0 s.results

/-! ## The clients are admissible -/

theorem udpEnv_admissible (script : AwaitScript) (alloc : Bool) (attempts : List Attempt) :
    Admissible (udpEnv script alloc attempts) where
  await_neutral w := (await_waits neutralComm_udp script w).1
  await_user w := (await_waits neutralComm_udp script w).2
  send_neutral w type := neutral_udpSendMsg w type alloc attempts

theorem tcpEnv_admissible (script : AwaitScript) (alloc sent : Bool) :
    Admissible (tcpEnv script alloc sent) where
  await_neutral w := (await_waits neutralComm_tcp script w).1
  await_user w := (await_waits neutralComm_tcp script w).2
  send_neutral w type := neutral_tcpSendMsg w type alloc sent

end IpkChat.Session
