/-
  Session/Table.lean --- the transition table of the state machine.

  Apart from the calls of await and SEND, a state function only decides.  `react`
  is that decision as a table, from a state and a prompt to a `Reaction`, and
  `perform` carries a reaction out.  `runState_eq` says that the state functions
  are this table; properties of runs are proved by cases on the reactions.
-/
import IpkChat.Session.Fsm

set_option autoImplicit false

namespace IpkChat.Session

open IpkChat.Foundation IpkChat.Core

/-! ## Reactions -/

/-- What a state function does about a prompt. -/
inductive Reaction where
  /-- return EXIT_FAILURE -/
  | stop
  /-- go on, after printing a line or not -/
  | stay (printed : Option Output)
  /-- end the session without a failure -/
  | leave
  /-- a reply: clear comm->processing and go to the state, if there is one -/
  | settle (next : Option FsmState)
  /-- set comm->processing, send AUTH or JOIN and go to the state, if there is one -/
  | request (type : MsgType) (next : Option FsmState)
  /-- send MSG -/
  | chat
  /-- send ERR with this content and return EXIT_FAILURE -/
  | refuse (content : String)
  deriving DecidableEq, Repr

/-- The lines of the user that two states share. -/
def reactUser (type : MsgType) (refusal : String) : Reaction :=
  match type with
  | .error => .stop
  | .local_ => .stay none
  | _ => .stay (some (.error refusal))

/-- The messages of the server that all states treat alike. -/
def reactServer (type : MsgType) (content : String) : Reaction :=
  match type with
  | .err => .stop
  | .bye => .leave
  | .local_ => .stay none
  | _ => .refuse content

/-- The table. -/
def react : FsmState → Prompt → Reaction
  | .start, ⟨.user, .auth⟩ => .request .auth (some .auth)
  | .start, ⟨.user, type⟩ => reactUser type "Authentication required"
  | .start, ⟨.server, type⟩ => reactServer type "Invalid message received"
  | .auth, ⟨.user, .auth⟩ => .request .auth none
  | .auth, ⟨.user, type⟩ => reactUser type "Authentication required"
  | .auth, ⟨.server, .reply⟩ => .settle (some .open_)
  | .auth, ⟨.server, .nreply⟩ => .settle none
  | .auth, ⟨.server, type⟩ => reactServer type "Server is not responding"
  | .open_, ⟨.user, .msg⟩ => .chat
  | .open_, ⟨.user, .join⟩ => .request .join (some .join)
  | .open_, ⟨.user, type⟩ => reactUser type "Invalid command"
  | .open_, ⟨.server, .msg⟩ => .stay none
  | .open_, ⟨.server, type⟩ => reactServer type "Invalid message received"
  | .join, ⟨_, .reply⟩ => .settle (some .open_)
  | .join, ⟨_, .nreply⟩ => .settle (some .open_)
  | .join, ⟨_, .msg⟩ => .stay none
  | .join, ⟨_, type⟩ => reactServer type "Server is not responding"
  | .interupt, _ => .leave

section Inversion

variable {state : FsmState} {prompt : Prompt}

/-- AUTH and JOIN are sent for the user, from the states that allow them. -/
theorem react_request {type : MsgType} {next : Option FsmState}
    (h : react state prompt = .request type next) :
    prompt = ⟨.user, type⟩ ∧
      (state = .start ∧ type = .auth ∧ next = some .auth ∨
        state = .auth ∧ type = .auth ∧ next = none ∨
        state = .open_ ∧ type = .join ∧ next = some .join) := by
  obtain ⟨inputType, t⟩ := prompt
  cases state <;> cases inputType <;> cases t <;> simp_all [react, reactUser, reactServer]

/-- MSG is sent for the user in the open state. -/
theorem react_chat (h : react state prompt = .chat) : state = .open_ ∧ prompt = ⟨.user, .msg⟩ := by
  obtain ⟨inputType, t⟩ := prompt
  cases state <;> cases inputType <;> cases t <;> simp_all [react, reactUser, reactServer]

/-- A reply is taken in two states only. -/
theorem react_settle {next : Option FsmState} (h : react state prompt = .settle next) :
    state = .auth ∧ prompt = ⟨.server, .reply⟩ ∧ next = some .open_ ∨
      state = .auth ∧ prompt = ⟨.server, .nreply⟩ ∧ next = none ∨
      state = .join ∧ (prompt.type = .reply ∨ prompt.type = .nreply) ∧ next = some .open_ := by
  obtain ⟨inputType, t⟩ := prompt
  cases state <;> cases inputType <;> cases t <;> simp_all [react, reactUser, reactServer]

/-- The session goes on without a message or a reply only where the server sent
nothing that would end it. -/
theorem react_stay {printed : Option Output} (h : react state prompt = .stay printed) :
    prompt.inputType = .server → prompt.type = .local_ ∨ prompt.type = .msg := by
  obtain ⟨inputType, t⟩ := prompt
  cases state <;> cases inputType <;> cases t <;> simp_all [react, reactUser, reactServer]

/-- ERR and BYE of the server are never answered. -/
theorem react_refuse {content : String} (h : react state prompt = .refuse content) :
    prompt.type ≠ .err ∧ prompt.type ≠ .bye := by
  obtain ⟨inputType, t⟩ := prompt
  cases state <;> cases inputType <;> cases t <;> simp_all [react, reactUser, reactServer]

theorem react_refuse_content {content : String} (h : react state prompt = .refuse content) :
    content = "Invalid message received" ∨ content = "Server is not responding" := by
  obtain ⟨inputType, t⟩ := prompt
  cases state <;> cases inputType <;> cases t <;> simp_all [react, reactUser, reactServer]

/-- After ERROR the session ends. -/
theorem react_error (h : prompt.type = .error) (hne : state ≠ .interupt) :
    react state prompt = .stop ∨ ∃ content, react state prompt = .refuse content := by
  obtain ⟨inputType, t⟩ := prompt
  cases state <;> cases inputType <;> cases t <;> simp_all [react, reactUser, reactServer]

end Inversion

/-- Go to a state, if there is one to go to. -/
def goto (next : Option FsmState) (w : World) : World :=
  match next with
  | none => w
  | some state => { w with state := some state }

section Goto

variable {state : FsmState} (next : Option FsmState) {w : World}

theorem goto_state (h : w.state = some state) : (goto next w).state = some (next.getD state) := by
  cases next with
  | none => exact h
  | some state => rfl

@[simp] theorem goto_trace (w : World) : (goto next w).trace = w.trace := by cases next <;> rfl

@[simp] theorem goto_client (w : World) : (goto next w).client = w.client := by cases next <;> rfl

@[simp] theorem goto_processing (w : World) : (goto next w).processing = w.processing := by
  cases next <;> rfl

end Goto

/-- Carry out a reaction to `prompt`. -/
def perform (env : Env) (w : World) (prompt : Prompt) : Reaction → World × Option ExitCode
  | .stop => (w, some .failure)
  | .stay none => (w, some .success)
  | .stay (some o) => (w.print o, some .success)
  | .leave => ({ w with state := none }, some .success)
  | .settle next => (goto next (settle w prompt.type), some .success)
  | .request type next =>
      send env { w with processing := true } type fun w => (goto next w, some .success)
  | .chat => send env w .msg fun w => (w, some .success)
  | .refuse content => refuse env w prompt content

theorem onPrompt_congr {env : Env} {w : World} {f g : World → Prompt → World × Option ExitCode}
    (h : ∀ w p, f w p = g w p) : onPrompt env w f = onPrompt env w g := by
  rw [show f = g from funext fun w => funext fun p => h w p]

/-- The state functions implement the table. -/
theorem runState_eq (env : Env) (state : FsmState) (w : World) (h : state ≠ .interupt) :
    runState env state w =
      onPrompt env w fun w prompt => perform env w prompt (react state prompt) := by
  cases state with
  | interupt => exact absurd rfl h
  | start =>
      unfold runState stateStart
      refine onPrompt_congr fun w p => ?_
      obtain ⟨inputType, type⟩ := p
      cases inputType <;> cases type <;> rfl
  | auth =>
      unfold runState stateAuth
      refine onPrompt_congr fun w p => ?_
      obtain ⟨inputType, type⟩ := p
      cases inputType <;> cases type <;> rfl
  | open_ =>
      unfold runState stateOpen
      refine onPrompt_congr fun w p => ?_
      obtain ⟨inputType, type⟩ := p
      cases inputType <;> cases type <;> rfl
  | join =>
      unfold runState stateJoin
      refine onPrompt_congr fun w p => ?_
      obtain ⟨inputType, type⟩ := p
      cases inputType <;> cases type <;> rfl

/-! ## Runs -/

/-- A property that the rounds keep as long as they succeed holds when the loop
ends; it may hand over to a weaker one in the last round. -/
theorem fsmLoop_preserves {I J : World → Prop} {ok : Round → Prop} (hIJ : ∀ w, I w → J w)
    (hround : ∀ r state w, ok r → I w → w.state = some state →
      J (runState r.env (enterRound r w state).2 (enterRound r w state).1).1 ∧
        ((runState r.env (enterRound r w state).2 (enterRound r w state).1).2 = some .success →
          I (runState r.env (enterRound r w state).2 (enterRound r w state).1).1)) :
    ∀ (rounds : List Round) (w : World), (∀ r ∈ rounds, ok r) → I w → J (fsmLoop w rounds).1 := by
  intro rounds
  induction rounds with
  | nil => exact fun w _ hw => hIJ w hw
  | cons r rest ih =>
      intro w hok hw
      unfold fsmLoop
      cases hstate : w.state with
      | none => exact hIJ w hw
      | some state =>
          obtain ⟨hJ, hI⟩ := hround r state w (hok r List.mem_cons_self) hw hstate
          simp only
          generalize runState r.env (enterRound r w state).2 (enterRound r w state).1 = res at hJ hI
          obtain ⟨w', code⟩ := res
          cases code with
          | none => exact hJ
          | some code =>
              cases code with
              | failure => exact hJ
              | success => exact ih w' (fun r' hr' => hok r' (List.mem_cons_of_mem r hr')) (hI rfl)

end IpkChat.Session
