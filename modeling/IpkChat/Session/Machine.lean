/-
  Session/Machine.lean --- fsm and await, one step at a time.

  In Session/Fsm.lean a state function is one step and SIGINT arrives between two of
  them.  Here the main thread has a point of control wherever something else may
  happen in between: SIGINT is delivered, or time passes.  A `Label` says what the
  next step meets and when it is made.

  No step but the test of the loop reads the flag that SIGINT sets, so a signal that
  is delivered within a step has the effect of one delivered just before or after it.
  `fsm_run` says that the sessions of Session/Fsm.lean are runs of this machine.
-/
import IpkChat.Foundation.Runs
import IpkChat.Session.Reached

set_option autoImplicit false

namespace IpkChat.Session

open IpkChat.Foundation IpkChat.Core IpkChat.Udp

/-! ## Points of control -/

/-- The local variables of await, and the state function that called it. -/
structure AwaitVars where
  state : FsmState
  startTime : Timeval
  incompleteTcpMessage : Bool
  /-- prompt.type -/
  type : MsgType

/-- Where the main thread is. -/
inductive Point where
  /-- at the test of the loop of fsm -/
  | test
  /-- in the state function, before it has called anything -/
  | call (state : FsmState)
  /-- in await, at the head of its loop -/
  | loop (a : AwaitVars)
  /-- in select, since the given time -/
  | blocked (a : AwaitVars) (entered : Timeval)
  /-- in the state function, with the prompt that await has returned -/
  | prompted (state : FsmState) (prompt : Prompt)
  /-- fsm has returned, or SEND waits for ever -/
  | stopped (code : Option ExitCode)

/-- The globals and the point of the main thread. -/
structure Config where
  world : World
  point : Point

/-! ## Labels -/

/-- What a step meets. -/
inductive Input where
  /-- the test of the loop -/
  | test
  /-- await is entered; what check_previous_msg meets -/
  | check (c : Check)
  /-- select is called -/
  | select
  /-- select returns -/
  | wake (result : SelectResult)
  /-- the state function goes on; what SEND meets -/
  | act (wire : Wire)
  /-- SIGINT is delivered -/
  | sigint

/-- A step, and the time that gettimeofday shows then. -/
structure Label where
  time : Timeval
  input : Input

/-! ## Steps -/

/-- What the return of select leads to. -/
inductive Woken where
  /-- await returns -/
  | returned (prompt : Prompt)
  /-- the loop of await goes on, with this prompt.type -/
  | again (type : MsgType)

/-- The loop body of await behind the call of select. -/
def wake (comm : Comm) (incompleteTcpMessage : Bool) (w : World) (type : MsgType) :
    SelectResult → World × Woken
  | .interrupted => if !w.processing then (w, .returned ⟨.server, .local_⟩) else (w, .again type)
  | .failed => (w, .returned ⟨.server, type⟩)
  | .timedOut =>
      if w.processing then
        ((w.print (.error "Server is not responding")).emit (.notResponding w.toGlobals),
          .returned ⟨.server, .error⟩)
      else (w, .again type)
  | .ready (some a) _ =>
      match comm.recvMsg w a with
      | (w, .ping) => (w, .again .ping)
      | (w, type) => (w, .returned ⟨.server, type⟩)
  | .ready none none => (w, .again type)
  | .ready none (some line) =>
      if !w.processing && !incompleteTcpMessage then
        let (w, type) := parseUserInput w line
        (w, .returned ⟨.user, type⟩)
      else (w, .again type)

/-- The loop body up to the call of select. -/
def callSelect (start now : Timeval) (w : World) : World :=
  let w := if w.processing then w.emit (.timer (calculateRemainingTime start now)) else w
  w.emit (.select w.toGlobals)

@[simp] theorem callSelect_toGlobals (start now : Timeval) (w : World) :
    (callSelect start now w).toGlobals = w.toGlobals := by
  unfold callSelect
  split <;> rfl

/-- The configuration after select has returned. -/
def afterWake (a : AwaitVars) : World × Woken → Config
  | (w, .returned prompt) => ⟨w, .prompted a.state prompt⟩
  | (w, .again type) => ⟨w, .loop { a with type := type }⟩

/-- The configuration after a state function. -/
def afterState : World × Option ExitCode → Config
  | (w, some .success) => ⟨w, .test⟩
  | (w, code) => ⟨w, .stopped code⟩

/-- The configuration after check_previous_msg. -/
def afterCheck (state : FsmState) (now : Timeval) : World × Option MsgType → Config
  | (w, none) => ⟨w, .loop ⟨state, now, !bufferIsEmpty w.msgBuffer, .confirm⟩⟩
  | (w, some .ping) => ⟨w, .loop ⟨state, now, !bufferIsEmpty w.msgBuffer, .ping⟩⟩
  | (w, some type) => ⟨w, .prompted state ⟨.server, type⟩⟩

/-- The configuration after the test of the loop. -/
def afterTest (w : World) : Config :=
  match w.state with
  | none => ⟨w, .stopped (some .success)⟩
  | some state =>
      if !w.processing && w.interrupt then ⟨{ w with state := some .interupt }, .call .interupt⟩
      else ⟨w, .call state⟩

/-- The environment of a state function that does not call await any more. -/
def Wire.sends (wire : Wire) : Env := wire.env { results := [] }

/-- The handler sets the flag, and select returns -1 with EINTR. -/
def interruptHandle (comm : Comm) (c : Config) : Option Config :=
  let w : World := { c.world with interrupt := true }
  match c.point with
  | .blocked a _ => some (afterWake a (wake comm a.incompleteTcpMessage w a.type .interrupted))
  | .stopped _ => none
  | point => some ⟨w, point⟩

/-- What a label makes of a configuration; a label that does not fit its point has no step. -/
def step (comm : Comm) (c : Config) (l : Label) : Option Config :=
  match l.input, c.point with
  | .test, .test => some (afterTest c.world)
  | .act wire, .call .interupt => some (afterState (stateInterupt wire.sends c.world))
  | .check _, .call .interupt => none
  | .check check, .call state =>
      some (afterCheck state l.time
        (comm.checkPreviousMsg (c.world.emit (.await c.world.toGlobals)) check))
  | .select, .loop a => some ⟨callSelect a.startTime l.time c.world, .blocked a l.time⟩
  | .wake result, .blocked a _ =>
      some (afterWake a (wake comm a.incompleteTcpMessage c.world a.type result))
  | .act wire, .prompted state prompt =>
      some (afterState (perform wire.sends (c.world.emit (.prompt c.world.toGlobals prompt)) prompt
        (react state prompt)))
  | .sigint, _ => interruptHandle comm c
  | _, _ => none

/-- The main thread before the first test of the loop. -/
def started (client : Client) (retransmissions : UInt8) : Config :=
  ⟨fsmInit (World.init client retransmissions), .test⟩

section Points

variable (a : AwaitVars) (entered : Timeval)

theorem afterTest_not_blocked (w : World) : (afterTest w).point ≠ .blocked a entered := by
  unfold afterTest
  split
  · simp
  · split <;> simp

theorem afterState_not_blocked (res : World × Option ExitCode) :
    (afterState res).point ≠ .blocked a entered := by
  unfold afterState
  split <;> simp

theorem afterCheck_not_blocked (state : FsmState) (now : Timeval) (res : World × Option MsgType) :
    (afterCheck state now res).point ≠ .blocked a entered := by
  unfold afterCheck
  split <;> simp

theorem afterWake_not_blocked (a' : AwaitVars) (res : World × Woken) :
    (afterWake a' res).point ≠ .blocked a entered := by
  unfold afterWake
  split <;> simp

end Points

/-- Every step there is. -/
inductive Move (comm : Comm) (c : Config) (l : Label) : Config → Prop where
  | test (hinput : l.input = .test) (hpoint : c.point = .test) :
      Move comm c l (afterTest c.world)
  | bye (wire : Wire) (hinput : l.input = .act wire) (hpoint : c.point = .call .interupt) :
      Move comm c l (afterState (stateInterupt wire.sends c.world))
  | check (check : Check) (state : FsmState) (hinput : l.input = .check check)
      (hpoint : c.point = .call state) (hne : state ≠ .interupt) :
      Move comm c l (afterCheck state l.time
        (comm.checkPreviousMsg (c.world.emit (.await c.world.toGlobals)) check))
  | select (a : AwaitVars) (hinput : l.input = .select) (hpoint : c.point = .loop a) :
      Move comm c l ⟨callSelect a.startTime l.time c.world, .blocked a l.time⟩
  | wake (a : AwaitVars) (entered : Timeval) (result : SelectResult)
      (hinput : l.input = .wake result) (hpoint : c.point = .blocked a entered) :
      Move comm c l (afterWake a (wake comm a.incompleteTcpMessage c.world a.type result))
  | act (wire : Wire) (state : FsmState) (prompt : Prompt) (hinput : l.input = .act wire)
      (hpoint : c.point = .prompted state prompt) :
      Move comm c l (afterState (perform wire.sends
        (c.world.emit (.prompt c.world.toGlobals prompt)) prompt (react state prompt)))
  | interrupted (a : AwaitVars) (entered : Timeval) (hinput : l.input = .sigint)
      (hpoint : c.point = .blocked a entered) :
      Move comm c l (afterWake a (Session.wake comm a.incompleteTcpMessage
        { c.world with interrupt := true } a.type .interrupted))
  | noted (hinput : l.input = .sigint) (hblocked : ∀ a entered, c.point ≠ .blocked a entered) :
      Move comm c l ⟨{ c.world with interrupt := true }, c.point⟩

theorem step_move {comm : Comm} {c c' : Config} {l : Label} (h : step comm c l = some c') :
    Move comm c l c' := by
  unfold step at h
  split at h
  case h_1 hinput hpoint => cases h; exact .test hinput hpoint
  case h_2 wire hinput hpoint => cases h; exact .bye wire hinput hpoint
  case h_3 => cases h
  case h_4 check state hne hinput hpoint =>
      cases h
      exact .check check state hinput hpoint hne
  case h_5 a hinput hpoint => cases h; exact .select a hinput hpoint
  case h_6 result a entered hinput hpoint => cases h; exact .wake a entered result hinput hpoint
  case h_7 wire state prompt hinput hpoint =>
      cases h
      exact .act wire state prompt hinput hpoint
  case h_8 hinput =>
      unfold interruptHandle at h
      split at h
      case h_1 a entered hpoint => cases h; exact .interrupted a entered hinput hpoint
      case h_2 => cases h
      case h_3 hblocked _ =>
          cases h
          exact .noted hinput hblocked
  case h_9 => cases h

section Steps

variable {comm : Comm} {c c' : Config} {l : Label}

/-- await is called by a state function. -/
theorem call_of_check (hstep : step comm c l = some c') {check : Check}
    (hinput : l.input = .check check) : ∃ state, c.point = .call state := by
  cases hpoint : c.point with
  | call state => exact ⟨state, rfl⟩
  | _ => simp [step, hinput, hpoint] at hstep

/-- select is called in the loop of await, and blocks. -/
theorem blocked_of_select (hstep : step comm c l = some c') (hinput : l.input = .select) :
    ∃ a, c.point = .loop a ∧ c'.point = .blocked a l.time ∧
      c'.world.toGlobals = c.world.toGlobals := by
  cases hpoint : c.point with
  | loop a =>
      simp only [step, hinput, hpoint, Option.some.injEq] at hstep
      subst hstep
      exact ⟨a, rfl, rfl, callSelect_toGlobals _ _ _⟩
  | _ => simp [step, hinput, hpoint] at hstep

/-- The main thread blocks only by calling select. -/
theorem blocked_of_step (hstep : step comm c l = some c') {a : AwaitVars} {entered : Timeval}
    (hblocked : c'.point = .blocked a entered) :
    l.input = .select ∧ c.point = .loop a ∧ c'.world.toGlobals = c.world.toGlobals := by
  cases step_move hstep with
  | test => exact absurd hblocked (afterTest_not_blocked a entered _)
  | bye => exact absurd hblocked (afterState_not_blocked a entered _)
  | check check state => exact absurd hblocked (afterCheck_not_blocked a entered _ _ _)
  | select a' hinput hpoint =>
      cases hblocked
      exact ⟨hinput, hpoint, callSelect_toGlobals _ _ _⟩
  | wake a' => exact absurd hblocked (afterWake_not_blocked a entered _ _)
  | act => exact absurd hblocked (afterState_not_blocked a entered _)
  | interrupted a' => exact absurd hblocked (afterWake_not_blocked a entered _ _)
  | noted hinput hno => exact absurd hblocked (hno a entered)

/-- The loop of await goes on with what it had, or with a PING received. -/
theorem wake_again {incomplete : Bool} {w w' : World} {type type' : MsgType}
    {result : SelectResult} (h : wake comm incomplete w type result = (w', .again type')) :
    (w' = w ∧ type' = type) ∨ ∃ arrival, comm.recvMsg w arrival = (w', .ping) ∧ type' = .ping := by
  have hsame : (w, Woken.again type) = (w', .again type') → w' = w ∧ type' = type := by
    intro heq
    cases heq
    exact ⟨rfl, rfl⟩
  cases result with
  | interrupted =>
      simp only [wake] at h
      split at h
      · cases h
      · exact Or.inl (hsame h)
  | failed => cases h
  | timedOut =>
      simp only [wake] at h
      split at h
      · cases h
      · exact Or.inl (hsame h)
  | ready socket stdin =>
      cases socket with
      | some arrival =>
          simp only [wake] at h
          split at h
          · rename_i w₁ hrecv
            cases h
            exact Or.inr ⟨arrival, hrecv, rfl⟩
          · cases h
      | none =>
          cases stdin with
          | none => exact Or.inl (hsame h)
          | some line =>
              simp only [wake] at h
              split at h
              · cases h
              · exact Or.inl (hsame h)

end Steps

/-! ## Sessions are runs -/

section Sessions

variable {comm : Comm}

/-- The loop of await is made of the steps. -/
theorem awaitLoop_cons (s : AwaitScript) (incomplete : Bool) (w : World) (type : MsgType) (k : Nat)
    (result : SelectResult) (rest : List SelectResult) :
    awaitLoop comm s incomplete w type k (result :: rest) =
      match wake comm incomplete (enterSelect s w k) type result with
      | (w, .returned prompt) => (w, some prompt)
      | (w, .again type) => awaitLoop comm s incomplete w type (k + 1) rest := by
  rw [awaitLoop.eq_def]
  cases result with
  | interrupted =>
      simp only [wake]
      split <;> rfl
  | failed => rfl
  | timedOut =>
      simp only [wake]
      split <;> rfl
  | ready socket stdin =>
      cases socket with
      | some a =>
          simp only [wake]
          generalize comm.recvMsg (enterSelect s w k) a = res
          obtain ⟨w', type'⟩ := res
          cases type' <;> rfl
      | none =>
          cases stdin with
          | none => rfl
          | some line =>
              simp only [wake]
              split <;> rfl

/-- The configuration in which await has returned, or still waits in select. -/
def AwaitEnds (state : FsmState) (res : World × Option Prompt) (c : Config) : Prop :=
  c.world = res.1 ∧
    match res.2 with
    | some prompt => c.point = .prompted state prompt
    | none => ∃ a entered, c.point = .blocked a entered

theorem awaitLoop_run (s : AwaitScript) (state : FsmState) (incomplete : Bool) :
    ∀ (results : List SelectResult) (w : World) (type : MsgType) (k : Nat),
      ∃ ls c, runFrom (step comm) ⟨w, .loop ⟨state, s.start, incomplete, type⟩⟩ ls = some c ∧
        AwaitEnds state (awaitLoop comm s incomplete w type k results) c := by
  intro results
  induction results with
  | nil =>
      intro w type k
      exact ⟨[⟨s.clock k, .select⟩], _, runFrom_single rfl, rfl, _, _, rfl⟩
  | cons result rest ih =>
      intro w type k
      -- select is called, and returns
      have hselect : runFrom (step comm) ⟨w, .loop ⟨state, s.start, incomplete, type⟩⟩
          [⟨s.clock k, .select⟩, ⟨s.clock k, .wake result⟩] =
            some (afterWake ⟨state, s.start, incomplete, type⟩
              (wake comm incomplete (enterSelect s w k) type result)) := rfl
      rw [awaitLoop_cons]
      generalize wake comm incomplete (enterSelect s w k) type result = res at hselect
      obtain ⟨w', woken⟩ := res
      cases woken with
      | returned prompt => exact ⟨_, _, hselect, rfl, rfl⟩
      | again type' =>
          obtain ⟨ls, c, hrun, hends⟩ := ih w' type' (k + 1)
          exact ⟨_, c, runFrom_trans hselect hrun, hends⟩

/-- A call of await is a run from the call of its state function. -/
theorem await_run (s : AwaitScript) {state : FsmState} (hne : state ≠ .interupt) (w : World) :
    ∃ ls c, runFrom (step comm) ⟨w, .call state⟩ ls = some c ∧
      AwaitEnds state (await comm s w) c := by
  have hcheck : runFrom (step comm) ⟨w, .call state⟩ [⟨s.start, .check s.check⟩] =
      some (afterCheck state s.start
        (comm.checkPreviousMsg (w.emit (.await w.toGlobals)) s.check)) := by
    cases state with
    | interupt => exact absurd rfl hne
    | _ => rfl
  unfold await
  simp only
  generalize comm.checkPreviousMsg (w.emit (.await w.toGlobals)) s.check = res at hcheck
  obtain ⟨w', previous⟩ := res
  have hloop : ∀ type, runFrom (step comm) ⟨w, .call state⟩ [⟨s.start, .check s.check⟩] =
      some ⟨w', .loop ⟨state, s.start, !bufferIsEmpty w'.msgBuffer, type⟩⟩ →
      ∃ ls c, runFrom (step comm) ⟨w, .call state⟩ ls = some c ∧
        AwaitEnds state
          (awaitLoop comm s (!bufferIsEmpty w'.msgBuffer) w' type 0 s.results) c := by
    intro type hfirst
    obtain ⟨ls, c, hrun, hends⟩ :=
      awaitLoop_run s state (!bufferIsEmpty w'.msgBuffer) s.results w' type 0
    exact ⟨_, c, runFrom_trans hfirst hrun, hends⟩
  cases previous with
  | none => exact hloop .confirm hcheck
  | some type =>
      cases type
      case ping => exact hloop .ping hcheck
      all_goals exact ⟨_, _, hcheck, rfl, rfl⟩

/-- What SEND meets does not depend on await. -/
theorem perform_sends (wire : Wire) (script : AwaitScript) (w : World) (prompt : Prompt)
    (reaction : Reaction) :
    perform wire.sends w prompt reaction = perform (wire.env script) w prompt reaction := by
  cases wire <;> rfl

theorem stateInterupt_sends (wire : Wire) (script : AwaitScript) (w : World) :
    stateInterupt wire.sends w = stateInterupt (wire.env script) w := by
  cases wire <;> rfl

/-- The configuration in which a round has ended, or still waits. -/
def RoundEnds (res : World × Option ExitCode) (c : Config) : Prop :=
  c.world = res.1 ∧ (res.2 = some .success → c.point = .test)

theorem roundEnds_afterState (res : World × Option ExitCode) : RoundEnds res (afterState res) := by
  obtain ⟨w, code⟩ := res
  cases code with
  | none => exact ⟨rfl, fun h => by cases h⟩
  | some code =>
      cases code with
      | success => exact ⟨rfl, fun _ => rfl⟩
      | failure => exact ⟨rfl, fun h => by cases h⟩

/-- SIGINT before a round, if any, and the test of the loop. -/
theorem enter_run (r : Round) {w : World} {state : FsmState} (hstate : w.state = some state) :
    ∃ ls, runFrom (step comm) ⟨w, .test⟩ ls =
      some ⟨(enterRound r w state).1, .call (enterRound r w state).2⟩ := by
  have htest : ∀ w₀ : World, w₀.state = some state →
      afterTest w₀ = ⟨(enterRound { r with sigint := false } w₀ state).1,
        .call (enterRound { r with sigint := false } w₀ state).2⟩ := by
    intro w₀ hw₀
    unfold afterTest
    rw [hw₀]
    simp only [enterRound, Bool.false_eq_true, if_false]
    split <;> rfl
  cases hsigint : r.sigint with
  | false =>
      refine ⟨[⟨default, .test⟩], runFrom_single ?_⟩
      rw [show r = { r with sigint := false } by rw [← hsigint]]
      exact congrArg some (htest w hstate)
  | true =>
      refine ⟨[⟨default, .sigint⟩, ⟨default, .test⟩], ?_⟩
      have hnoted : runFrom (step comm) ⟨w, .test⟩ [⟨default, .sigint⟩, ⟨default, .test⟩] =
          some (afterTest { w with interrupt := true }) := rfl
      rw [hnoted, htest { w with interrupt := true } hstate]
      simp only [enterRound, hsigint, Bool.false_eq_true, if_false, if_true]

/-- A round is a run from the test of the loop. -/
theorem round_run {r : ClientRound} (hcomm : r.wire.comm = comm) {w : World} {state : FsmState}
    (hstate : w.state = some state) (hne : state ≠ .interupt) :
    ∃ ls c, runFrom (step comm) ⟨w, .test⟩ ls = some c ∧ RoundEnds (r.run w state) c := by
  obtain ⟨ls, henter⟩ : ∃ ls, runFrom (step comm) ⟨w, .test⟩ ls =
      some ⟨(enterRound r.toRound w state).1, .call (enterRound r.toRound w state).2⟩ :=
    enter_run r.toRound hstate
  unfold ClientRound.run
  obtain ⟨w₀, -, ⟨-, -, heq⟩ | heq⟩ := enterRound_cases r.toRound w state
  · rw [heq] at henter ⊢
    have hbye : runFrom (step comm) ⟨{ w₀ with state := some .interupt }, .call .interupt⟩
        [⟨default, .act r.wire⟩] =
          some (afterState (stateInterupt r.wire.sends { w₀ with state := some .interupt })) := rfl
    rw [stateInterupt_sends r.wire r.script] at hbye
    exact ⟨_, _, runFrom_trans henter hbye, roundEnds_afterState _⟩
  · rw [heq] at henter ⊢
    rw [runState_eq r.toRound.env state w₀ hne, onPrompt,
      show r.toRound.env.await w₀ = await comm r.script w₀ from
        hcomm ▸ wire_await r.wire r.script w₀]
    obtain ⟨ls', ⟨w', point⟩, hawait, hworld, hpoint⟩ : ∃ ls c,
        runFrom (step comm) ⟨w₀, .call state⟩ ls = some c ∧
          AwaitEnds state (await comm r.script w₀) c := await_run r.script hne w₀
    obtain rfl : w' = (await comm r.script w₀).1 := hworld
    generalize await comm r.script w₀ = res at hawait hpoint
    obtain ⟨w', prompt⟩ := res
    cases prompt with
    | none => exact ⟨_, _, runFrom_trans henter hawait, rfl, fun h => by cases h⟩
    | some prompt =>
        obtain rfl : point = .prompted state prompt := hpoint
        have hact : runFrom (step comm) ⟨w', .prompted state prompt⟩ [⟨default, .act r.wire⟩] =
            some (afterState (perform r.wire.sends (w'.emit (.prompt w'.toGlobals prompt)) prompt
              (react state prompt))) := rfl
        rw [perform_sends r.wire r.script] at hact
        exact ⟨_, _, runFrom_trans (runFrom_trans henter hawait) hact, roundEnds_afterState _⟩

/-- Every session over one variant of the protocol is a run of the machine. -/
theorem fsm_run {client : Client} {retransmissions : UInt8} {rounds : List ClientRound}
    (hcomm : ∀ r ∈ rounds, r.wire.comm = comm) :
    ∃ ls c, runFrom (step comm) (started client retransmissions) ls = some c ∧
      c.world = (fsm (World.init client retransmissions) (rounds.map ClientRound.toRound)).1 := by
  have hloop : ∀ (rounds : List ClientRound) (w : World), AtTest client retransmissions w →
      (∀ r ∈ rounds, r.wire.comm = comm) →
        ∃ ls c, runFrom (step comm) ⟨w, .test⟩ ls = some c ∧
          c.world = (fsmLoop w (rounds.map ClientRound.toRound)).1 := by
    intro rounds
    induction rounds with
    | nil => exact fun w _ _ => ⟨[], _, rfl, rfl⟩
    | cons r rest ih =>
        intro w hw hcomm
        rw [List.map_cons]
        cases hstate : w.state with
        | none =>
            refine ⟨[], _, rfl, ?_⟩
            rw [fsmLoop, hstate]
        | some state =>
            have hne : state ≠ .interupt := (hw.fits hstate).not_interupt
            obtain ⟨ls, ⟨w', point⟩, hround, hworld, hpoint⟩ :=
              round_run (hcomm r List.mem_cons_self) hstate hne
            obtain rfl : w' = (r.run w state).1 := hworld
            by_cases hcode : (r.run w state).2 = some .success
            · obtain rfl : point = .test := hpoint hcode
              obtain ⟨ls', c, hrest, hc⟩ := ih _ (.round r hw hstate hcode)
                fun r' hr' => hcomm r' (List.mem_cons_of_mem r hr')
              rw [fsmLoop_run r hstate hcode]
              exact ⟨_, c, runFrom_trans hround hrest, hc⟩
            · refine ⟨ls, _, hround, ?_⟩
              rw [fsmLoop_stop r hstate hcode]
  exact hloop rounds _ .start hcomm

end Sessions

end IpkChat.Session
