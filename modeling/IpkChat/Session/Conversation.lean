/-
  Session/Conversation.lean --- the session as the protocol sees it.

  Of a session the protocol sees the state, whether a reply is awaited, and what
  was sent and received.  A `Conversation` keeps these, and `Step` lists all that
  can happen in one.  `fsm_refines` says that every run of fsm over admissible
  environments is a conversation, so what the steps keep holds of every run.
-/
import IpkChat.Session.Rounds
import Mathlib.Logic.Relation

set_option autoImplicit false

namespace IpkChat.Session

open IpkChat.Foundation IpkChat.Core

/-! ## Conversations -/

/-- A session; one that is over has no state. -/
structure Conversation where
  state : Option FsmState
  processing : Bool
  history : List Event

namespace Conversation

/-- Before the first prompt. -/
def start : Conversation := ⟨some .start, false, []⟩

/-- A prompt that await may return in `state`, with the globals at that moment. -/
structure Offered (state : FsmState) (processing : Bool) (g : Globals) (prompt : Prompt) :
    Prop where
  state_eq : g.state = some state
  processing_eq : g.processing = processing
  user : prompt.inputType = .user → processing = false

/-- The answer to `prompt`, given in `state` after the history `h`. -/
def answer (state : FsmState) (processing : Bool) (h : List Event) (g : Globals)
    (prompt : Prompt) : Reaction → Conversation
  | .stop | .leave => ⟨none, processing, h⟩
  | .stay _ => ⟨some state, processing, h⟩
  | .settle next => ⟨some (next.getD state), false, h ++ [.settled g prompt.type]⟩
  | .request type next => ⟨some (next.getD state), true, h ++ [.sendMsg type]⟩
  | .chat => ⟨some state, processing, h ++ [.sendMsg .msg]⟩
  | .refuse _ => ⟨none, processing, h ++ [.sendMsg .err]⟩

/-- All that can happen in a conversation. -/
inductive Step : Conversation → Conversation → Prop where
  /-- an effect that is no concern of the state machine -/
  | quiet (c : Conversation) (e : Event) (he : isSessionEvent e = false) :
      Step c { c with history := c.history ++ [e] }
  /-- SIGINT while no reply is awaited -/
  | interrupted (state : FsmState) (h : List Event) :
      Step ⟨some state, false, h⟩ ⟨none, false, h ++ [.sendMsg .bye]⟩
  | prompted {state : FsmState} {processing : Bool} {g : Globals} {prompt : Prompt}
      (h : List Event) (hoffered : Offered state processing g prompt) :
      Step ⟨some state, processing, h⟩
        (answer state processing (h ++ [.prompt g prompt]) g prompt (react state prompt))

/-- The conversation can come about. -/
def Reachable (c : Conversation) : Prop := Relation.ReflTransGen Step start c

/-- What holds at the start and is kept by every step. -/
theorem Reachable.invariant {I : Conversation → Prop} (hstart : I start)
    (hstep : ∀ c c', I c → Step c c' → I c') {c : Conversation} (hc : Reachable c) : I c := by
  unfold Reachable at hc
  induction hc with
  | refl => exact hstart
  | tail _ hlast ih => exact hstep _ _ ih hlast

theorem Reachable.step {c c' : Conversation} (hc : Reachable c) (hstep : Step c c') :
    Reachable c' :=
  hc.tail hstep

theorem Reachable.quiet {c : Conversation} (hc : Reachable c) {es : List Event}
    (hes : ∀ e ∈ es, isSessionEvent e = false) :
    Reachable { c with history := c.history ++ es } := by
  induction es using List.reverseRecOn with
  | nil => rwa [List.append_nil]
  | append_singleton es e ih =>
      rw [← List.append_assoc]
      exact (ih fun x hx => hes x (by simp [hx])).step (.quiet _ e (hes e (by simp)))

end Conversation

open Conversation

/-! ## Refinement -/

/-- The conversation that has taken place in a world. -/
def conversation (w : World) : Conversation := ⟨w.state, w.processing, w.trace⟩

/-- A call that leaves the state machine alone. -/
theorem Conversation.Reachable.neutral {w w' : World} (hw : Reachable (conversation w))
    (h : Neutral w w') : Reachable (conversation w') := by
  obtain ⟨hstate, hprocessing, es, htrace, hes⟩ := h
  have hc := hw.quiet hes
  simp only [conversation] at hc ⊢
  rwa [hstate, hprocessing, htrace]

/-- A state function has carried the conversation on; if it returns EXIT_SUCCESS,
the session goes on from there. -/
def CarriesOn (res : World × Option ExitCode) : Prop :=
  (∃ c, Reachable c ∧ c.history = res.1.trace) ∧
    (res.2 = some .success → Reachable (conversation res.1))

theorem carriesOn_of_reachable {c : Conversation} (hc : Reachable c) {w : World}
    (hw : conversation w = c) {code : Option ExitCode} : CarriesOn (w, code) := by
  subst hw
  exact ⟨⟨_, hc, rfl⟩, fun _ => hc⟩

theorem carriesOn_of_ne_success {c : Conversation} (hc : Reachable c) {w : World}
    (hhistory : c.history = w.trace) {code : Option ExitCode} (hcode : code ≠ some .success) :
    CarriesOn (w, code) :=
  ⟨⟨c, hc, hhistory⟩, fun h => absurd h hcode⟩

section Perform

variable {env : Env} {w : World} {state : FsmState} {prompt : Prompt}

/-- SEND, after a step of the conversation that sends the message. -/
theorem send_carriesOn (henv : Admissible env) {c : Conversation} (hc : Reachable c)
    {type : MsgType} (hhistory : c.history = w.trace ++ [.sendMsg type])
    {next : World → World × Option ExitCode}
    (hnext : ∀ w', w'.state = w.state → w'.processing = w.processing →
      Reachable { c with history := w'.trace } → CarriesOn (next w')) :
    CarriesOn (send env w type next) := by
  obtain ⟨w', ⟨hstate, hprocessing, es, htrace, hes⟩, hgo | ⟨code, hcode, hend⟩⟩ :=
    send_cases henv w type next
  · rw [hgo]
    apply hnext w' hstate hprocessing
    rw [htrace, World.emit_trace, ← hhistory]
    exact hc.quiet hes
  · rw [hend]
    refine carriesOn_of_ne_success (hc.quiet hes) ?_ hcode
    rw [htrace, World.emit_trace, ← hhistory]

/-- The reaction to a prompt is a step of the conversation. -/
theorem perform_carriesOn (henv : Admissible env) (hw : Reachable (conversation w))
    (hoffered : Offered state w.processing w.toGlobals prompt) :
    CarriesOn (perform env (w.emit (.prompt w.toGlobals prompt)) prompt (react state prompt)) := by
  have hstate : w.state = some state := hoffered.state_eq
  have hc : Reachable ⟨some state, w.processing, w.trace⟩ := hstate ▸ hw
  have hanswer := hc.step (.prompted w.trace hoffered)
  cases hreact : react state prompt with
  | stop =>
      rw [hreact] at hanswer
      exact carriesOn_of_ne_success hanswer rfl (by simp)
  | stay printed =>
      rw [hreact, answer, ← hstate] at hanswer
      cases printed with
      | none => exact carriesOn_of_reachable hanswer rfl
      | some o =>
          have hprint : ∀ e ∈ [Event.print o], isSessionEvent e = false := by simp [isSessionEvent]
          exact carriesOn_of_reachable (hanswer.quiet hprint) rfl
  | leave =>
      rw [hreact] at hanswer
      exact carriesOn_of_reachable hanswer rfl
  | settle next =>
      rw [hreact, answer, ← goto_state next hstate] at hanswer
      refine carriesOn_of_reachable hanswer ?_
      cases next <;> rfl
  | request type next =>
      rw [hreact] at hanswer
      refine send_carriesOn henv hanswer rfl fun w' hst hpr hc' => carriesOn_of_reachable hc' ?_
      simp [conversation, answer, goto_state next (hst.trans hstate), hpr]
  | chat =>
      rw [hreact] at hanswer
      refine send_carriesOn henv hanswer rfl fun w' hst hpr hc' => carriesOn_of_reachable hc' ?_
      simp [conversation, answer, hst, hpr, hstate]
  | refuse content =>
      rw [hreact] at hanswer
      refine send_carriesOn henv hanswer rfl fun w' _ _ hc' => ?_
      split
      · have hprint : ∀ e ∈ [Event.print (.error "Received an unexpected message")],
            isSessionEvent e = false := by simp [isSessionEvent]
        exact carriesOn_of_ne_success (hc'.quiet hprint) rfl (by simp)
      · exact carriesOn_of_ne_success hc' rfl (by simp)

end Perform

/-- A round carries the conversation on. -/
theorem round_carriesOn {r : Round} {state : FsmState} {w : World} (henv : Admissible r.env)
    (hw : Reachable (conversation w)) (hstate : w.state = some state)
    (hne : state ≠ .interupt) :
    CarriesOn (runState r.env (enterRound r w state).2 (enterRound r w state).1) := by
  have hturn := round_turn r w hne
  generalize runState r.env (enterRound r w state).2 (enterRound r w state).1 = res at hturn
  cases hturn with
  | interrupted w₀ hentry hidle =>
      have hw₀ := hw.neutral hentry.neutral
      rw [conversation, hentry.neutral.state_eq, hstate, hidle] at hw₀
      refine send_carriesOn henv (w := { w₀ with state := some .interupt })
        (hw₀.step (.interrupted state w₀.trace)) rfl fun w' _ hpr hc' => ?_
      refine carriesOn_of_reachable hc' ?_
      simp [conversation, hpr, hidle]
  | waiting w₀ w' hentry hawait =>
      exact carriesOn_of_reachable (hw.neutral (henv.entered hentry hawait)) rfl
  | prompted w₀ w' prompt hentry hawait =>
      have hneutral := henv.entered hentry hawait
      refine perform_carriesOn henv (hw.neutral hneutral) ⟨hneutral.state_eq.trans hstate, rfl, ?_⟩
      intro huser
      rw [hneutral.processing_eq]
      exact henv.idle_of_user hentry hawait huser

/-- Every run of fsm is a conversation. -/
theorem fsm_refines {w : World} {rounds : List Round} (hidle : w.processing = false)
    (hnew : w.trace = []) (hrounds : ∀ r ∈ rounds, Admissible r.env) :
    ∃ c, Reachable c ∧ c.history = (fsm w rounds).1.trace := by
  refine fsm_preserves (I := fun w => Reachable (conversation w))
    (J := fun w => ∃ c, Reachable c ∧ c.history = w.trace) (fun r henv => henv)
    (fun w hw => ⟨_, hw, rfl⟩)
    (fun r state w henv hw hstate hne => round_carriesOn henv hw hstate hne) hrounds ?_
  have hstart : conversation (fsmInit w) = start := by
    simp [conversation, fsmInit, start, hidle, hnew]
  rw [hstart]
  exact Relation.ReflTransGen.refl

/-- What every step of a conversation keeps holds of the history of every run. -/
theorem fsm_invariant {I : Conversation → Prop} (hstart : I start)
    (hstep : ∀ c c', I c → Step c c' → I c') {w : World} {rounds : List Round}
    (hidle : w.processing = false) (hnew : w.trace = [])
    (hrounds : ∀ r ∈ rounds, Admissible r.env) :
    ∃ c, I c ∧ c.history = (fsm w rounds).1.trace := by
  obtain ⟨c, hc, hhistory⟩ := fsm_refines hidle hnew hrounds
  exact ⟨c, hc.invariant hstart hstep, hhistory⟩

end IpkChat.Session
