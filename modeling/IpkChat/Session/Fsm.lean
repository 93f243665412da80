/-
  Session/Fsm.lean --- lib/fsm.h, src/fsm.c and the macro SEND of lib/comm.h.

  The finite state machine of the client.  Its state functions call await and
  comm->send_msg; what these do in one round of the loop is an `Env`.  A result
  `none` means that one of them has not returned.
-/
import IpkChat.Core.World

set_option autoImplicit false

namespace IpkChat.Session

open IpkChat.Foundation IpkChat.Core

/-- The two functions that a state function calls. -/
structure Env where
  await : World → World × Option Prompt
  sendMsg : World → MsgType → World × Option ExitCode

/-- The macro SEND, with the statements that follow it. -/
def send (env : Env) (w : World) (type : MsgType)
    (next : World → World × Option ExitCode) : World × Option ExitCode :=
  match env.sendMsg (w.emit (.sendMsg type)) type with
  | (w, none) => (w, none)
  | (w, some .success) => next w
  | (w, some .failure) => (w.print (.error "Failed to send message"), some .failure)

/-- The prompt for the statements that follow the call of await. -/
def onPrompt (env : Env) (w : World) (next : World → Prompt → World × Option ExitCode) :
    World × Option ExitCode :=
  match env.await w with
  | (w, none) => (w, none)
  | (w, some prompt) => next (w.emit (.prompt w.toGlobals prompt)) prompt

/-- The answer to a message that the state does not allow: ERR with `content`. -/
def refuse (env : Env) (w : World) (prompt : Prompt) (content : String) :
    World × Option ExitCode :=
  let w : World := { w with client := { w.client with
    msgContent := copy (ascii content) (maxMsgSize + zeroByte) } }
  send env w .err fun w =>
    (if prompt.type ≠ .error then w.print (.error "Received an unexpected message") else w,
      some .failure)

/-- Clear comm->processing on a reply. -/
def settle (w : World) (type : MsgType) : World :=
  { w.emit (.settled w.toGlobals type) with processing := false }

/-! ## State functions -/

/-- The first state: only AUTH leads out of it. -/
def stateStart (env : Env) (w : World) : World × Option ExitCode :=
  onPrompt env w fun w prompt =>
    if prompt.inputType = .user then
      if prompt.type = .auth then
        send env { w with processing := true } .auth fun w =>
          ({ w with state := some .auth }, some .success)
      else if prompt.type = .error then (w, some .failure)
      else if prompt.type ≠ .local_ then
        (w.print (.error "Authentication required"), some .success)
      else (w, some .success)
    else
      if prompt.type = .err then (w, some .failure)
      else if prompt.type = .bye then ({ w with state := none }, some .success)
      else if prompt.type ≠ .local_ then refuse env w prompt "Invalid message received"
      else (w, some .success)

/-- AUTH was sent, and a REPLY has not accepted it yet. -/
def stateAuth (env : Env) (w : World) : World × Option ExitCode :=
  onPrompt env w fun w prompt =>
    if prompt.inputType = .user then
      if prompt.type = .auth then
        send env { w with processing := true } .auth fun w => (w, some .success)
      else if prompt.type = .error then (w, some .failure)
      else if prompt.type ≠ .local_ then
        (w.print (.error "Authentication required"), some .success)
      else (w, some .success)
    else
      if prompt.type = .reply then
        ({ settle w prompt.type with state := some .open_ }, some .success)
      else if prompt.type = .nreply then (settle w prompt.type, some .success)
      else if prompt.type = .err then (w, some .failure)
      else if prompt.type = .bye then ({ w with state := none }, some .success)
      else if prompt.type ≠ .local_ then refuse env w prompt "Server is not responding"
      else (w, some .success)

/-- The user is authenticated. -/
def stateOpen (env : Env) (w : World) : World × Option ExitCode :=
  onPrompt env w fun w prompt =>
    if prompt.inputType = .user then
      if prompt.type = .msg then send env w .msg fun w => (w, some .success)
      else if prompt.type = .join then
        send env { w with processing := true } .join fun w =>
          ({ w with state := some .join }, some .success)
      else if prompt.type = .error then (w, some .failure)
      else if prompt.type ≠ .local_ then (w.print (.error "Invalid command"), some .success)
      else (w, some .success)
    else
      if prompt.type = .err then (w, some .failure)
      else if prompt.type = .bye then ({ w with state := none }, some .success)
      else if prompt.type ≠ .msg ∧ prompt.type ≠ .local_ then
        refuse env w prompt "Invalid message received"
      else (w, some .success)

/-- The only state function that does not look at the input type. -/
def stateJoin (env : Env) (w : World) : World × Option ExitCode :=
  onPrompt env w fun w prompt =>
    if prompt.type = .reply ∨ prompt.type = .nreply then
      ({ settle w prompt.type with state := some .open_ }, some .success)
    else if prompt.type = .err then (w, some .failure)
    else if prompt.type = .bye then ({ w with state := none }, some .success)
    else if prompt.type ≠ .msg ∧ prompt.type ≠ .local_ then
      refuse env w prompt "Server is not responding"
    else (w, some .success)

/-- After SIGINT: say BYE and leave the loop. -/
def stateInterupt (env : Env) (w : World) : World × Option ExitCode :=
  send env w .bye fun w => ({ w with state := none }, some .success)

/-- The call through the pointer `state`. -/
def runState (env : Env) : FsmState → World → World × Option ExitCode
  | .start => stateStart env
  | .auth => stateAuth env
  | .open_ => stateOpen env
  | .join => stateJoin env
  | .interupt => stateInterupt env

/-! ## The loop -/

/-- One round of the loop of fsm: whether SIGINT arrived before it, and what its
state function meets. -/
structure Round where
  sigint : Bool := false
  env : Env

/-- The loop body up to the call of the state function: the state to run. -/
def enterRound (r : Round) (w : World) (state : FsmState) : World × FsmState :=
  let w : World := if r.sigint then { w with interrupt := true } else w
  if !w.processing && w.interrupt then ({ w with state := some .interupt }, .interupt)
  else (w, state)

/-- The loop of fsm at its test, with `res` equal to 0. -/
def fsmLoop : World → List Round → World × Option ExitCode
  | w, [] => (w, if w.state = none then some .success else none)
  | w, r :: rest =>
      match w.state with
      | none => (w, some .success)
      | some state =>
          let (w, state) := enterRound r w state
          match runState r.env state w with
          | (w, none) => (w, none)
          | (w, some .failure) => (w, some .failure)
          | (w, some .success) => fsmLoop w rest

/-- The globals when the loop of fsm is reached. -/
def fsmInit (w : World) : World :=
  { w with
    state := some .start
    client := { w.client with
      displayName := copy (ascii "unknown") (maxNameSize + zeroByte) } }

/-- The function fsm, given what each of its rounds meets. -/
def fsm (w : World) (rounds : List Round) : World × Option ExitCode := fsmLoop (fsmInit w) rounds

end IpkChat.Session
