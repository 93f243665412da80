/-
  Session/Rounds.lean --- what one round of the loop can do.

  A round sends BYE because of SIGINT, waits, or carries out the reaction of the
  table to one prompt.  `round_turn` is this case distinction, and `send_turn` the
  one of the macro SEND.  An invariant of a session is proved by cases on the two;
  over an admissible environment the calls in between leave the state machine
  alone.
-/
import IpkChat.Session.Client
import IpkChat.Session.Table

set_option autoImplicit false

namespace IpkChat.Session

open IpkChat.Foundation IpkChat.Core

/-! ## SEND -/

/-- Every way SEND can end. -/
inductive SendTurn (env : Env) (w : World) (type : MsgType)
    (next : World → World × Option ExitCode) : World × Option ExitCode → Prop where
  | waiting (w' : World) (hsend : env.sendMsg (w.emit (.sendMsg type)) type = (w', none)) :
      SendTurn env w type next (w', none)
  | failed (w' : World)
      (hsend : env.sendMsg (w.emit (.sendMsg type)) type = (w', some .failure)) :
      SendTurn env w type next (w'.print (.error "Failed to send message"), some .failure)
  | sent (w' : World)
      (hsend : env.sendMsg (w.emit (.sendMsg type)) type = (w', some .success)) :
      SendTurn env w type next (next w')

theorem send_turn (env : Env) (w : World) (type : MsgType)
    (next : World → World × Option ExitCode) : SendTurn env w type next (send env w type next) := by
  rw [send]
  rcases hsend : env.sendMsg (w.emit (.sendMsg type)) type with ⟨w', code⟩
  cases code with
  | none => exact .waiting w' hsend
  | some code =>
      cases code with
      | success => exact .sent w' hsend
      | failure => exact .failed w' hsend

/-- SEND goes on with the statements that follow it, or the call ends there. -/
theorem send_cases {env : Env} (henv : Admissible env) (w : World) (type : MsgType)
    (next : World → World × Option ExitCode) :
    ∃ w', Neutral (w.emit (.sendMsg type)) w' ∧
      (send env w type next = next w' ∨
        ∃ code, code ≠ some .success ∧ send env w type next = (w', code)) := by
  have hneutral := henv.send_neutral (w.emit (.sendMsg type)) type
  have hturn := send_turn env w type next
  generalize send env w type next = res at hturn
  cases hturn with
  | waiting w' hsend =>
      rw [hsend] at hneutral
      exact ⟨w', hneutral, Or.inr ⟨none, by simp, rfl⟩⟩
  | failed w' hsend =>
      rw [hsend] at hneutral
      exact ⟨_, hneutral.trans (neutral_print w' _), Or.inr ⟨some .failure, by simp, rfl⟩⟩
  | sent w' hsend =>
      rw [hsend] at hneutral
      exact ⟨w', hneutral, Or.inl rfl⟩

/-- A refusal fails, whether ERR is sent or not. -/
theorem refuse_code (env : Env) (w : World) (prompt : Prompt) (content : String) :
    (refuse env w prompt content).2 ≠ some .success := by
  have hturn := send_turn env { w with client := { w.client with
    msgContent := copy (ascii content) (maxMsgSize + zeroByte) } } .err fun w =>
      (if prompt.type ≠ .error then w.print (.error "Received an unexpected message") else w,
        some ExitCode.failure)
  change SendTurn env _ .err _ (refuse env w prompt content) at hturn
  generalize refuse env w prompt content = res at hturn
  cases hturn <;> simp

/-! ## Rounds -/

/-- The world in which a round calls its state function: SIGINT may have arrived. -/
def Entered (w w₀ : World) : Prop := w₀ = w ∨ w₀ = { w with interrupt := true }

theorem Entered.neutral {w w₀ : World} (h : Entered w w₀) : Neutral w w₀ := by
  rcases h with rfl | rfl
  · exact Neutral.refl _
  · exact ⟨rfl, rfl, [], by simp, by simp⟩

/-- Every way a round can end that begins in `w`, with the state pointer at `state`. -/
inductive Turn (env : Env) (w : World) (state : FsmState) : World × Option ExitCode → Prop where
  | interrupted (w₀ : World) (hentry : Entered w w₀) (hidle : w₀.processing = false)
      (hinterrupt : w₀.interrupt = true) :
      Turn env w state (stateInterupt env { w₀ with state := some .interupt })
  | waiting (w₀ w' : World) (hentry : Entered w w₀) (hawait : env.await w₀ = (w', none)) :
      Turn env w state (w', none)
  | prompted (w₀ w' : World) (prompt : Prompt) (hentry : Entered w w₀)
      (hawait : env.await w₀ = (w', some prompt)) :
      Turn env w state
        (perform env (w'.emit (.prompt w'.toGlobals prompt)) prompt (react state prompt))

/-- A round calls state_interupt, or its state function. -/
theorem enterRound_cases (r : Round) (w : World) (state : FsmState) :
    ∃ w₀, Entered w w₀ ∧
      (w₀.processing = false ∧ w₀.interrupt = true ∧
          enterRound r w state = ({ w₀ with state := some .interupt }, .interupt) ∨
        enterRound r w state = (w₀, state)) := by
  have hentered : Entered w (if r.sigint then { w with interrupt := true } else w) := by
    split
    · exact Or.inr rfl
    · exact Or.inl rfl
  simp only [enterRound]
  generalize (if r.sigint then { w with interrupt := true } else w) = w₀ at hentered
  refine ⟨w₀, hentered, ?_⟩
  split
  · rename_i hover
    simp only [Bool.and_eq_true, Bool.not_eq_true'] at hover
    exact Or.inl ⟨hover.1, hover.2, rfl⟩
  · exact Or.inr rfl

theorem round_turn (r : Round) {state : FsmState} (w : World) (hne : state ≠ .interupt) :
    Turn r.env w state (runState r.env (enterRound r w state).2 (enterRound r w state).1) := by
  obtain ⟨w₀, hentered, ⟨hidle, hinterrupt, heq⟩ | heq⟩ := enterRound_cases r w state
  · rw [heq]
    exact .interrupted w₀ hentered hidle hinterrupt
  · rw [heq, runState_eq r.env state w₀ hne, onPrompt]
    rcases hawait : r.env.await w₀ with ⟨w', prompt⟩
    cases prompt with
    | none => exact .waiting w₀ w' hentered hawait
    | some prompt => exact .prompted w₀ w' prompt hentered hawait

section Admissible

variable {env : Env} {w w₀ w' : World}

/-- Up to the prompt, a round leaves the state machine alone. -/
theorem Admissible.entered (henv : Admissible env) (hentry : Entered w w₀)
    {prompt : Option Prompt} (hawait : env.await w₀ = (w', prompt)) : Neutral w w' := by
  have h := henv.await_neutral w₀
  rw [hawait] at h
  exact hentry.neutral.trans h

/-- A prompt of the user finds no reply awaited. -/
theorem Admissible.idle_of_user (henv : Admissible env) (hentry : Entered w w₀) {prompt : Prompt}
    (hawait : env.await w₀ = (w', some prompt)) (huser : prompt.inputType = .user) :
    w.processing = false := by
  have h := henv.await_user w₀ prompt (by rw [hawait]) huser
  exact hentry.neutral.processing_eq ▸ h

/-- state_interupt is called in the round that saw SIGINT, and in no other. -/
theorem round_state {r : Round} {state : FsmState} (henv : Admissible r.env)
    (hstate : w.state = some state) (hne : state ≠ .interupt)
    (hcode : (runState r.env (enterRound r w state).2 (enterRound r w state).1).2 =
      some .success) :
    (runState r.env (enterRound r w state).2 (enterRound r w state).1).1.state ≠
      some .interupt := by
  have hturn := round_turn r w hne
  generalize runState r.env (enterRound r w state).2 (enterRound r w state).1 = res at hturn hcode
  cases hturn with
  | waiting w₀ w' hentry hawait => cases hcode
  | interrupted w₀ hentry hidle =>
      rw [stateInterupt] at hcode ⊢
      obtain ⟨w', -, hgo | ⟨code, hne', hend⟩⟩ := send_cases henv
        { w₀ with state := some .interupt } .bye fun w => ({ w with state := none }, some .success)
      · simp [hgo]
      · rw [hend] at hcode
        exact absurd hcode hne'
  | prompted w₀ w' prompt hentry hawait =>
      have hw' : w'.state = some state := (henv.entered hentry hawait).state_eq.trans hstate
      have hkeep : ∀ w : World, w.state = some state → w.state ≠ some .interupt :=
        fun w hw => by rw [hw]; exact fun he => hne (Option.some.inj he)
      have hgoto : ∀ (next : Option FsmState) (w : World), next ≠ some .interupt →
          w.state = some state → (goto next w).state ≠ some .interupt := by
        intro next w hnext hw
        cases next with
        | none => exact hkeep w hw
        | some state' => exact hnext
      cases hreact : react state prompt with
      | stop => rw [hreact] at hcode; cases hcode
      | stay printed => cases printed <;> exact hkeep _ hw'
      | leave => exact fun he => by cases he
      | settle next =>
          refine hgoto next _ ?_ hw'
          rcases react_settle hreact with ⟨-, -, rfl⟩ | ⟨-, -, rfl⟩ | ⟨-, -, rfl⟩ <;> simp
      | request type next =>
          rw [hreact, perform] at hcode
          rw [perform]
          obtain ⟨w'', hneutral, hgo | ⟨code, hne', hend⟩⟩ := send_cases henv
            { w'.emit (.prompt w'.toGlobals prompt) with processing := true } type
            fun w => (goto next w, some .success)
          · rw [hgo]
            refine hgoto next w'' ?_ (hneutral.state_eq.trans hw')
            obtain ⟨-, hcases⟩ := react_request hreact
            rcases hcases with ⟨-, -, rfl⟩ | ⟨-, -, rfl⟩ | ⟨-, -, rfl⟩ <;> simp
          · rw [hend] at hcode
            exact absurd hcode hne'
      | chat =>
          rw [hreact, perform] at hcode
          rw [perform]
          obtain ⟨w'', hneutral, hgo | ⟨code, hne', hend⟩⟩ := send_cases henv
            (w'.emit (.prompt w'.toGlobals prompt)) .msg fun w => (w, some .success)
          · rw [hgo]
            exact hkeep w'' (hneutral.state_eq.trans hw')
          · rw [hend] at hcode
            exact absurd hcode hne'
      | refuse content =>
          rw [hreact] at hcode
          exact absurd hcode (refuse_code _ _ _ _)

/-- SEND adds the message to the history, and whatever comes of it. -/
theorem send_trace (henv : Admissible env) (w : World) (type : MsgType)
    (next : World → World × Option ExitCode)
    (hnext : ∀ w', ∃ es, (next w').1.trace = w'.trace ++ es) :
    ∃ es, (send env w type next).1.trace = w.trace ++ .sendMsg type :: es := by
  obtain ⟨w', ⟨-, -, es, htrace, -⟩, hgo | ⟨code, -, hend⟩⟩ := send_cases henv w type next
  · obtain ⟨es', htrace'⟩ := hnext w'
    refine ⟨es ++ es', ?_⟩
    rw [hgo, htrace', htrace, World.emit_trace, ← List.append_cons, List.append_assoc,
      List.cons_append]
  · refine ⟨es, ?_⟩
    rw [hend, htrace, World.emit_trace, ← List.append_cons]

/-- SEND only adds to the history. -/
theorem send_extends (henv : Admissible env) (w : World) (type : MsgType)
    (next : World → World × Option ExitCode)
    (hnext : ∀ w', ∃ es, (next w').1.trace = w'.trace ++ es) :
    ∃ es, (send env w type next).1.trace = w.trace ++ es := by
  obtain ⟨es, htrace⟩ := send_trace henv w type next hnext
  exact ⟨_, htrace⟩

theorem perform_extends (henv : Admissible env) (w : World) (prompt : Prompt)
    (reaction : Reaction) : ∃ es, (perform env w prompt reaction).1.trace = w.trace ++ es := by
  cases reaction with
  | stop => exact ⟨[], by simp [perform]⟩
  | stay printed =>
      cases printed with
      | none => exact ⟨[], by simp [perform]⟩
      | some o => exact ⟨_, rfl⟩
  | leave => exact ⟨[], by simp [perform]⟩
  | settle next => exact ⟨_, by rw [perform, goto_trace]; rfl⟩
  | request type next =>
      exact send_extends henv { w with processing := true } type _ fun w' => ⟨[], by simp⟩
  | chat => exact send_extends henv w .msg _ fun w' => ⟨[], by simp⟩
  | refuse content =>
      refine send_extends henv { w with client := { w.client with
        msgContent := copy (ascii content) (maxMsgSize + zeroByte) } } .err _ fun w' => ?_
      simp only
      split
      · exact ⟨_, rfl⟩
      · exact ⟨[], by simp⟩

/-- A round only adds to the history. -/
theorem Turn.trace_eq {state : FsmState} {res : World × Option ExitCode} (henv : Admissible env)
    (h : Turn env w state res) : ∃ es, res.1.trace = w.trace ++ es := by
  cases h with
  | interrupted w₀ hentry hidle =>
      obtain ⟨es, htrace, -⟩ := hentry.neutral.trace_eq
      obtain ⟨es', htrace'⟩ := send_extends henv { w₀ with state := some .interupt } .bye
        (fun w => ({ w with state := none }, some .success)) fun w' => ⟨[], by simp⟩
      exact ⟨es ++ es', by rw [stateInterupt, htrace', htrace, List.append_assoc]⟩
  | waiting w₀ w' hentry hawait =>
      obtain ⟨es, htrace, -⟩ := (henv.entered hentry hawait).trace_eq
      exact ⟨es, htrace⟩
  | prompted w₀ w' prompt hentry hawait =>
      obtain ⟨es, htrace, -⟩ := (henv.entered hentry hawait).trace_eq
      obtain ⟨es', htrace'⟩ := perform_extends henv (w'.emit (.prompt w'.toGlobals prompt)) prompt
        (react state prompt)
      exact ⟨_, by rw [htrace', World.emit_trace, htrace, List.append_assoc, List.append_assoc]⟩

/-- What the rounds keep while they succeed holds when fsm returns or waits. -/
theorem fsm_preserves {I J : World → Prop} {ok : Round → Prop}
    (hadmissible : ∀ r, ok r → Admissible r.env) (hIJ : ∀ w, I w → J w)
    (hround : ∀ r state w, ok r → I w → w.state = some state → state ≠ .interupt →
      J (runState r.env (enterRound r w state).2 (enterRound r w state).1).1 ∧
        ((runState r.env (enterRound r w state).2 (enterRound r w state).1).2 = some .success →
          I (runState r.env (enterRound r w state).2 (enterRound r w state).1).1))
    {rounds : List Round} (hok : ∀ r ∈ rounds, ok r) {w : World} (hinit : I (fsmInit w)) :
    J (fsm w rounds).1 := by
  refine fsmLoop_preserves (I := fun w => I w ∧ w.state ≠ some .interupt)
    (fun w hw => hIJ w hw.1) (fun r state w hr hw hstate => ?_) rounds (fsmInit w) hok
    ⟨hinit, fun he => by cases he⟩
  have hne : state ≠ .interupt := fun he => hw.2 (he ▸ hstate)
  obtain ⟨hJ, hI⟩ := hround r state w hr hw.1 hstate hne
  exact ⟨hJ, fun hcode => ⟨hI hcode, round_state (hadmissible r hr) hstate hne hcode⟩⟩

end Admissible

end IpkChat.Session
