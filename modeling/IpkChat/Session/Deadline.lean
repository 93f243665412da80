/-
  Session/Deadline.lean --- how long the client waits for a reply.

  One call of await gives the server five seconds, whatever PINGs it handles meanwhile.
  But a message that is no reply makes await return, the state function calls it again,
  and the five seconds start anew.  So the deadline holds in a wait that is a single
  await: when it is over, the next thing await does is to report that the server is not
  responding.
-/
import IpkChat.Session.Clock

set_option autoImplicit false

namespace IpkChat.Session

open IpkChat.Foundation IpkChat.Core IpkChat.Udp

/-! ## Waiting for a reply -/

/-- The session goes on without the reply that it waits for. -/
def stillWaits (c : Config) : Bool :=
  c.world.processing &&
    match c.point with
    | .stopped _ => false
    | .prompted state prompt =>
        match react state prompt with
        | .stay _ => true
        | _ => false
    | _ => true

/-- The step handles something that the server has sent. -/
def serverEvent (comm : Comm) (c : Config) (l : Label) : Bool :=
  match c.point, l.input with
  | .call _, .check check =>
      (comm.checkPreviousMsg (c.world.emit (.await c.world.toGlobals)) check).2.isSome
  | .blocked _ _, .wake (.ready (some _) _) => true
  | _, _ => false

/-- The step is one of await: it is called, or its select returns. -/
def isAwaitStep (c : Config) (l : Label) : Bool :=
  match c.point, l.input with
  | .call _, .check _ => true
  | .blocked _ _, .wake _ => true
  | .blocked _ _, .sigint => true
  | _, _ => false

/-- AUTH or JOIN was sent; at `t₀` await is called for the first time since, and the
run goes on with the labels `ls` while the session waits.  The last of them may end the
wait. -/
structure Wait (comm : Comm) (client : Client) (retransmissions : UInt8) (c₀ : Config)
    (t₀ : Timeval) (ls : List Label) : Prop where
  requested : ∃ before between c,
    runFrom (step comm) (started client retransmissions) before = some c ∧
      c.world.processing = false ∧ runFrom (step comm) c between = some c₀ ∧
        between.any isCheck = false
  first : ∃ check rest, ls = ⟨t₀, .check check⟩ :: rest
  runs : (runFrom (step comm) c₀ ls).isSome
  waits : EveryStep (step comm) c₀ (fun _ c _ => stillWaits c = true) ls

/-! ## The property and the condition -/

/-- How a step of await ends a wait. -/
inductive EndsWait (comm : Comm) (c : Config) (l : Label) (c' : Config) : Prop where
  /-- the server has sent the reply -/
  | reply (state : FsmState) (prompt : Prompt) (next : Option FsmState)
      (hevent : serverEvent comm c l = true) (hpoint : c'.point = .prompted state prompt)
      (hreact : react state prompt = .settle next)
  /-- the server has sent something that ends the session -/
  | terminated (state : FsmState) (prompt : Prompt)
      (hevent : serverEvent comm c l = true) (hpoint : c'.point = .prompted state prompt)
      (hreact : react state prompt = .stop ∨ react state prompt = .leave ∨
        ∃ content, react state prompt = .refuse content)
  /-- select has timed out, and this is reported -/
  | notResponding (a : AwaitVars) (entered : Timeval) (hpoint : c.point = .blocked a entered)
      (heq : c' = ⟨(c.world.print (.error "Server is not responding")).emit
        (.notResponding c.world.toGlobals), .prompted a.state ⟨.server, .error⟩⟩)

/-- The step comes no later than five seconds after `t₀`. -/
def inTime (t₀ : Timeval) (l : Label) : Bool := decide (micros l.time ≤ micros t₀ + fiveSeconds)

/-- The wait does not outlast its five seconds: nothing that the server sends is handled
later and leaves the session waiting, and the first later step of await ends the wait. -/
structure DeadlineKept (comm : Comm) (c₀ : Config) (t₀ : Timeval) (ls : List Label) : Prop where
  handled : EveryStep (step comm) c₀ (fun _ c l => serverEvent comm c l = true →
    inTime t₀ l = false → ∀ c' ∈ step comm c l, stillWaits c' = false) ls
  ended : EveryStep (step comm) c₀ (fun _ c l => isAwaitStep c l = true →
    inTime t₀ l = false → ∃ c', step comm c l = some c' ∧ EndsWait comm c l c') ls

/-- The step does not disturb the timer of the first await.  await is not called again,
and select is called in time.  Later no signal interrupts it, and it does not fail but
for a timeout that is not legal. -/
def keepsTimer (t₀ : Timeval) (before : List Label) (c : Config) (l : Label) : Bool :=
  match l.input with
  | .check _ => before.isEmpty
  | .select => inTime t₀ l
  | .sigint => inTime t₀ l
  | .wake .interrupted => inTime t₀ l
  | .wake .failed => inTime t₀ l || (timeout c).any fun t => !decide (Legal t)
  | _ => true

/-- No step of the wait disturbs the timer. -/
def SingleAwait (comm : Comm) (c₀ : Config) (t₀ : Timeval) (ls : List Label) : Prop :=
  EveryStep (step comm) c₀ (fun before c l => keepsTimer t₀ before c l = true) ls

/-! ## Steps that end a wait -/

section Ends

variable {comm : Comm} {c c' : Config} {l : Label}

/-- What the server sends is handled by await. -/
theorem isAwaitStep_of_serverEvent (h : serverEvent comm c l = true) : isAwaitStep c l = true := by
  unfold serverEvent at h
  split at h
  · rename_i hpoint hinput
    rw [isAwaitStep, hpoint, hinput]
  · rename_i hpoint hinput
    rw [isAwaitStep, hpoint, hinput]
  · cases h

/-- ERROR of await ends the wait in every state. -/
theorem react_error_ne_stay (state : FsmState) (printed : Option Output) :
    react state ⟨.server, .error⟩ ≠ .stay printed := by
  intro hstay
  rcases react_stay hstay rfl with hlocal | hmsg
  · cases hlocal
  · cases hmsg

theorem stillWaits_prompted {state : FsmState} {prompt : Prompt}
    (hpoint : c.point = .prompted state prompt)
    (hreact : ∀ printed, react state prompt ≠ .stay printed) : stillWaits c = false := by
  unfold stillWaits
  rw [hpoint, Bool.and_eq_false_iff]
  right
  -- by `hreact` the match takes its last branch
  simp only

/-- The session does not go on waiting. -/
theorem EndsWait.not_waiting (h : EndsWait comm c l c') : stillWaits c' = false := by
  cases h with
  | reply state prompt next hevent hpoint hreact =>
      apply stillWaits_prompted hpoint
      intro printed hstay
      rw [hreact] at hstay
      cases hstay
  | terminated state prompt hevent hpoint hreact =>
      apply stillWaits_prompted hpoint
      intro printed hstay
      rw [hstay] at hreact
      rcases hreact with hstop | hleave | ⟨content, hrefuse⟩
      · cases hstop
      · cases hleave
      · cases hrefuse
  | notResponding a entered hpoint heq =>
      subst heq
      exact stillWaits_prompted rfl (react_error_ne_stay a.state)

theorem processing_of_stillWaits (h : stillWaits c = true) : c.world.processing = true := by
  rw [stillWaits, Bool.and_eq_true] at h
  exact h.1

end Ends

/-! ## The timer of the first await -/

/-- start_time is the time of the first call of await, and select has been called in
time. -/
def TimerKept (t₀ : Timeval) (c : Config) : Prop :=
  match c.point with
  | .loop a => a.startTime = t₀
  | .blocked a entered => a.startTime = t₀ ∧ Normal entered ∧
      micros entered ≤ micros t₀ + fiveSeconds
  | _ => True

section Timer

variable {comm : Comm} {t₀ : Timeval} {c c' : Config} {l : Label}

theorem timerKept_afterWake {a : AwaitVars} (h : a.startTime = t₀) (res : World × Woken) :
    TimerKept t₀ (afterWake a res) := by
  obtain ⟨w, woken⟩ := res
  cases woken with
  | returned prompt => trivial
  | again type => exact h

/-- Only a call of await sets start_time, and only a call of select starts a timeout. -/
theorem timerKept_step (hc : TimerKept t₀ c) (hnormal : Normal l.time)
    (hcheck : isCheck l = true → l.time = t₀)
    (hselect : l.input = .select → micros l.time ≤ micros t₀ + fiveSeconds)
    (hstep : step comm c l = some c') : TimerKept t₀ c' := by
  cases step_move hstep with
  | test hinput hpoint =>
      unfold afterTest
      split
      · trivial
      · split <;> trivial
  | bye wire hinput hpoint => unfold afterState; split <;> trivial
  | check check state hinput hpoint hne =>
      have htime : l.time = t₀ := hcheck (by rw [isCheck, hinput])
      unfold afterCheck
      split
      · exact htime
      · exact htime
      · trivial
  | select a hinput hpoint =>
      rw [TimerKept, hpoint] at hc
      exact ⟨hc, hnormal, hselect hinput⟩
  | wake a entered result hinput hpoint =>
      rw [TimerKept, hpoint] at hc
      exact timerKept_afterWake hc.1 _
  | act wire state prompt hinput hpoint => unfold afterState; split <;> trivial
  | interrupted a entered hinput hpoint =>
      rw [TimerKept, hpoint] at hc
      exact timerKept_afterWake hc.1 _
  | noted hinput hblocked => exact hc

/-- While a select that was called in time blocks, its timeout is legal, and over five
seconds after the first call of await. -/
theorem legal_timeout_of_blocked (ht₀ : Normal t₀) (hc : TimerKept t₀ c) {a : AwaitVars}
    {entered : Timeval} (hpoint : c.point = .blocked a entered)
    (hprocessing : c.world.processing = true) :
    ∃ t, timeout c = some t ∧ Legal t ∧ micros entered + micros t = micros t₀ + fiveSeconds := by
  rw [TimerKept, hpoint] at hc
  obtain ⟨hstart, hentered, hle⟩ := hc
  refine ⟨_, timeout_of_blocked hpoint hprocessing, ?_, ?_⟩
  · rw [hstart]
    apply (legal_calculateRemainingTime_iff ht₀ hentered).mpr
    omega
  · rw [hstart, micros_calculateRemainingTime]
    omega

/-- A step of await later than that is the timeout. -/
theorem late_step_cases (ht₀ : Normal t₀) (hc : TimerKept t₀ c) (hwaits : stillWaits c = true)
    {before : List Label} (hfirst : before = [] → l.time = t₀)
    (hkeeps : keepsTimer t₀ before c l = true) (hobeys : selectObeys c l = true)
    (hawait : isAwaitStep c l = true) (hlate : inTime t₀ l = false) :
    ∃ a entered, c.point = .blocked a entered ∧ l.input = .wake .timedOut := by
  unfold isAwaitStep at hawait
  split at hawait
  · -- await is not called so late
    rename_i check hpoint hinput
    rw [keepsTimer, hinput] at hkeeps
    have htime := hfirst (List.isEmpty_iff.mp hkeeps)
    rw [inTime, htime, decide_eq_false_iff_not, fiveSeconds] at hlate
    omega
  · rename_i a entered result hpoint hinput
    obtain ⟨t, htimeout, hlegal, hover⟩ :=
      legal_timeout_of_blocked ht₀ hc hpoint (processing_of_stillWaits hwaits)
    rw [selectObeys, hpoint, hinput, htimeout] at hobeys
    rw [keepsTimer, hinput] at hkeeps
    cases result with
    | timedOut => exact ⟨a, entered, hpoint, hinput⟩
    | interrupted =>
        rw [hlate] at hkeeps
        cases hkeeps
    | failed =>
        simp only [hlate, htimeout, hlegal, decide_true, Option.any_some, Bool.not_true,
          Bool.or_false, Bool.false_eq_true] at hkeeps
    | ready socket stdin =>
        -- a descriptor is found ready before the timeout is over
        simp only [Bool.and_eq_true, decide_eq_true_eq] at hobeys
        rw [inTime, decide_eq_false_iff_not, ← hover] at hlate
        exact absurd hobeys.2 hlate
  · rename_i a entered hpoint hinput
    rw [keepsTimer, hinput, hlate] at hkeeps
    cases hkeeps
  · cases hawait

/-- The timeout is reported. -/
theorem endsWait_of_timedOut (hprocessing : c.world.processing = true) {a : AwaitVars}
    {entered : Timeval} (hpoint : c.point = .blocked a entered)
    (hinput : l.input = .wake .timedOut) :
    ∃ c', step comm c l = some c' ∧ EndsWait comm c l c' := by
  refine ⟨_, ?_, .notResponding a entered hpoint rfl⟩
  rw [step, hinput, hpoint]
  simp only [wake, hprocessing, if_true]
  rfl

end Timer

/-! ## The deadline -/

section Deadline

variable {comm : Comm} {client : Client} {retransmissions : UInt8} {c₀ : Config} {t₀ : Timeval}
  {ls : List Label}

/-- The wait begins with the call of await. -/
theorem Wait.first_label (hwait : Wait comm client retransmissions c₀ t₀ ls) {l : Label}
    {after : List Label} (hsplit : ls = l :: after) : l.time = t₀ := by
  obtain ⟨check, rest, hfirst⟩ := hwait.first
  rw [hsplit] at hfirst
  rw [(List.cons.inj hfirst).1]

/-- The wait begins in a state function. -/
theorem Wait.called (hwait : Wait comm client retransmissions c₀ t₀ ls) :
    ∃ state, c₀.point = .call state := by
  obtain ⟨check, rest, hfirst⟩ := hwait.first
  have hruns := hwait.runs
  rw [hfirst, runFrom_cons] at hruns
  obtain ⟨c, hbind⟩ := Option.isSome_iff_exists.mp hruns
  obtain ⟨c₁, hstep, -⟩ := Option.bind_eq_some_iff.mp hbind
  exact call_of_check hstep rfl

/-- The timer is that of the first await throughout a wait whose steps do not disturb it. -/
theorem timerKept_run (htimed : Timed comm c₀ ls)
    (hwait : Wait comm client retransmissions c₀ t₀ ls) (hsingle : SingleAwait comm c₀ t₀ ls)
    {before after : List Label} {c : Config} (hsplit : ls = before ++ after)
    (hrun : runFrom (step comm) c₀ before = some c) : TimerKept t₀ c := by
  have hstart : TimerKept t₀ c₀ := by
    obtain ⟨state, hpoint⟩ := hwait.called
    rw [TimerKept, hpoint]
    trivial
  have hsteps : EveryStep (step comm) c₀ (fun _ _ l => Normal l.time ∧
      (isCheck l = true → l.time = t₀) ∧
        (l.input = .select → micros l.time ≤ micros t₀ + fiveSeconds)) before := by
    intro earlier l later c' hearlier hrun'
    have hls : ls = earlier ++ l :: (later ++ after) := by
      rw [hsplit, hearlier, List.append_assoc, List.cons_append]
    have hkeeps : keepsTimer t₀ earlier c' l = true := hsingle _ _ _ _ hls hrun'
    refine ⟨htimed.normal l (by simp [hls]), ?_, ?_⟩
    · intro hcheck
      unfold isCheck at hcheck
      split at hcheck
      · rename_i check hinput
        rw [keepsTimer, hinput] at hkeeps
        obtain rfl := List.isEmpty_iff.mp hkeeps
        exact hwait.first_label hls
      · cases hcheck
    · intro hinput
      rw [keepsTimer, hinput] at hkeeps
      exact of_decide_eq_true hkeeps
  exact hsteps.invariant (I := fun _ c => TimerKept t₀ c) hstart
    (fun _ _ _ _ hc ⟨hnormal, hcheck, hselect⟩ hstep =>
      timerKept_step hc hnormal hcheck hselect hstep) hrun

/-- In every timed run the deadline is kept by a wait in which await is called once,
select is called in time, and later nothing but its timeout makes select return without
a message. -/
theorem reply_deadline (htimed : Timed comm c₀ ls)
    (hwait : Wait comm client retransmissions c₀ t₀ ls) (hsingle : SingleAwait comm c₀ t₀ ls) :
    DeadlineKept comm c₀ t₀ ls := by
  have ht₀ : Normal t₀ := by
    obtain ⟨check, rest, hfirst⟩ := hwait.first
    exact htimed.normal ⟨t₀, .check check⟩ (by simp [hfirst])
  have hended : EveryStep (step comm) c₀ (fun _ c l => isAwaitStep c l = true →
      inTime t₀ l = false → ∃ c', step comm c l = some c' ∧ EndsWait comm c l c') ls := by
    intro before l after c hsplit hrun hawait hlate
    have hwaits : stillWaits c = true := hwait.waits _ _ _ _ hsplit hrun
    have hfirst : before = [] → l.time = t₀ := by
      rintro rfl
      exact hwait.first_label hsplit
    obtain ⟨a, entered, hpoint, hinput⟩ :=
      late_step_cases ht₀ (timerKept_run htimed hwait hsingle hsplit hrun) hwaits hfirst
        (hsingle _ _ _ _ hsplit hrun) (htimed.select _ _ _ _ hsplit hrun) hawait hlate
    exact endsWait_of_timedOut (processing_of_stillWaits hwaits) hpoint hinput
  refine ⟨?_, hended⟩
  intro before l after c hsplit hrun hevent hlate c' hc'
  obtain ⟨c'', hstep, hends⟩ :=
    hended before l after c hsplit hrun (isAwaitStep_of_serverEvent hevent) hlate
  obtain rfl : c'' = c' := Option.some.inj (hstep.symm.trans hc')
  exact hends.not_waiting

/-! ### After a restart -/

/-- A timed run goes on with one more label. -/
theorem Timed.concat (htimed : Timed comm c₀ ls) {c : Config} {l : Label}
    (hrun : runFrom (step comm) c₀ ls = some c) (hclock : ∀ l' ∈ ls, micros l'.time ≤ micros l.time)
    (hnormal : Normal l.time) (hobeys : selectObeys c l = true) : Timed comm c₀ (ls ++ [l]) where
  clock := List.pairwise_append.mpr ⟨htimed.clock, List.pairwise_singleton _ l,
    fun l' hl' l'' hl'' => by rw [List.mem_singleton.mp hl'']; exact hclock l' hl'⟩
  normal := by
    intro l' hl'
    rcases List.mem_append.mp hl' with hl' | hl'
    · exact htimed.normal l' hl'
    · rw [List.mem_singleton.mp hl']
      exact hnormal
  select := by
    apply htimed.select.concat
    intro c' hc'
    rw [← Option.some.inj (hrun.symm.trans hc')]
    exact hobeys

/-- A wait goes on with one more step while the session waits. -/
theorem Wait.concat (hwait : Wait comm client retransmissions c₀ t₀ ls) {c c' : Config} {l : Label}
    (hrun : runFrom (step comm) c₀ ls = some c) (hwaits : stillWaits c = true)
    (hstep : step comm c l = some c') : Wait comm client retransmissions c₀ t₀ (ls ++ [l]) where
  requested := hwait.requested
  first := by
    obtain ⟨check, rest, hfirst⟩ := hwait.first
    exact ⟨check, rest ++ [l], by rw [hfirst, List.cons_append]⟩
  runs := by rw [runFrom_trans hrun (runFrom_single hstep)]; rfl
  waits := by
    apply hwait.waits.concat
    intro c₁ hc₁
    rw [← Option.some.inj (hrun.symm.trans hc₁)]
    exact hwaits

/-- start_time in a wait is the time of the last call of await. -/
theorem Wait.startKnown (hwait : Wait comm client retransmissions c₀ t₀ ls) {c : Config}
    (hrun : runFrom (step comm) c₀ ls = some c) : StartKnown ls c := by
  have hstart : StartKnown [] c₀ := by
    obtain ⟨state, hpoint⟩ := hwait.called
    rw [StartKnown, hpoint]
    trivial
  exact runFrom_invariant hstart (fun _ _ _ _ h hstep => startKnown_step h hstep) hrun

theorem Wait.normal_startTime (hwait : Wait comm client retransmissions c₀ t₀ ls)
    (htimed : Timed comm c₀ ls) {c : Config} {a : AwaitVars}
    (hrun : runFrom (step comm) c₀ ls = some c) (hpoint : c.point = .loop a) :
    Normal a.startTime := by
  have hknown := hwait.startKnown hrun
  rw [StartKnown, hpoint] at hknown
  obtain ⟨l, hl, htime⟩ := lastCheck_mem hknown
  rw [← htime]
  exact htimed.normal l hl

/-- The time at which five seconds are over. -/
def fiveSecondsAfter (t : Timeval) : Timeval := { t with tvSec := t.tvSec + 5 }

theorem micros_fiveSecondsAfter (t : Timeval) :
    micros (fiveSecondsAfter t) = micros t + fiveSeconds := by
  simp only [micros, fiveSecondsAfter, fiveSeconds]
  omega

/-- A message that is no reply makes await return, and the session still waits. -/
theorem step_no_reply (hneutral : NeutralComm comm) {w : World} {a : AwaitVars}
    (hstate : a.state = .auth ∨ a.state = .join) (hprocessing : w.processing = true)
    {arrival : Arrival} (harrival : (comm.recvMsg w arrival).2 = .local_)
    (entered time : Timeval) :
    ∃ c, step comm ⟨w, .blocked a entered⟩ ⟨time, .wake (.ready (some arrival) none)⟩ = some c ∧
      stillWaits c = true := by
  have hkeeps := (hneutral.recv w arrival).processing_eq
  rcases hrecv : comm.recvMsg w arrival with ⟨w', type⟩
  rw [hrecv] at harrival hkeeps
  obtain rfl : type = .local_ := harrival
  refine ⟨⟨w', .prompted a.state ⟨.server, .local_⟩⟩, ?_, ?_⟩
  · simp only [step, wake, hrecv]
    rfl
  · rw [stillWaits, hkeeps, hprocessing]
    rcases hstate with hstate | hstate
    · rw [hstate]
      rfl
    · rw [hstate]
      rfl

/-- select may hand over a message until five seconds after the call of await. -/
theorem selectObeys_ready {w : World} {a : AwaitVars} {entered : Timeval}
    (hprocessing : w.processing = true) (hstart : Normal a.startTime) (hentered : Normal entered)
    (hcalled : micros entered - micros a.startTime ≤ fiveSeconds) (arrival : Arrival) :
    selectObeys ⟨w, .blocked a entered⟩
      ⟨fiveSecondsAfter a.startTime, .wake (.ready (some arrival) none)⟩ = true := by
  have htimeout : timeout ⟨w, .blocked a entered⟩ =
      some (calculateRemainingTime a.startTime entered) := timeout_of_blocked rfl hprocessing
  have hlegal := (legal_calculateRemainingTime_iff hstart hentered).mpr hcalled
  rw [selectObeys, htimeout]
  simp only [hlegal, Option.isSome_some, Bool.and_true, decide_true, Bool.true_and,
    decide_eq_true_eq]
  rw [micros_fiveSecondsAfter, micros_calculateRemainingTime]
  omega

/-- Once await has been called again, later than at `t₀`, the deadline may be missed: the
server only has to send something that is no reply when the new five seconds end. -/
theorem restart_misses_deadline (hneutral : NeutralComm comm) (htimed : Timed comm c₀ ls)
    (hwait : Wait comm client retransmissions c₀ t₀ ls) {c : Config} {a : AwaitVars}
    (hrun : runFrom (step comm) c₀ ls = some c) (hpoint : c.point = .loop a)
    (hstate : a.state = .auth ∨ a.state = .join) (hprocessing : c.world.processing = true)
    (hlater : micros t₀ < micros a.startTime) {now : Timeval} (hnow : Normal now)
    (hclock : ∀ l ∈ ls, micros l.time ≤ micros now)
    (hcalled : micros now - micros a.startTime ≤ fiveSeconds) {arrival : Arrival}
    (harrival : (comm.recvMsg (callSelect a.startTime now c.world) arrival).2 = .local_) :
    ∃ ls', Timed comm c₀ (ls ++ ls') ∧ Wait comm client retransmissions c₀ t₀ (ls ++ ls') ∧
      ¬ DeadlineKept comm c₀ t₀ (ls ++ ls') := by
  have hstart : Normal a.startTime := hwait.normal_startTime htimed hrun hpoint
  have hprocessing' : (callSelect a.startTime now c.world).processing = true := by
    rw [callSelect_toGlobals]
    exact hprocessing
  have hend := micros_fiveSecondsAfter a.startTime
  -- select is called now
  have hselect : step comm c ⟨now, .select⟩ =
      some ⟨callSelect a.startTime now c.world, .blocked a now⟩ := by
    rw [step, hpoint]
  have hwaits : stillWaits c = true := by
    rw [stillWaits, hpoint, hprocessing]
    rfl
  have hrun' := runFrom_trans hrun (runFrom_single hselect)
  have htimed' : Timed comm c₀ (ls ++ [⟨now, .select⟩]) := by
    apply htimed.concat hrun hclock hnow
    rw [selectObeys, hpoint]
  -- and hands over the message when its timeout ends
  have hwaits' : stillWaits ⟨callSelect a.startTime now c.world, .blocked a now⟩ = true := by
    rw [stillWaits, hprocessing']
    rfl
  obtain ⟨c', hwake, hstill⟩ :=
    step_no_reply hneutral hstate hprocessing' harrival now (fiveSecondsAfter a.startTime)
  have hclock' : ∀ l ∈ ls ++ [⟨now, .select⟩],
      micros l.time ≤ micros (fiveSecondsAfter a.startTime) := by
    intro l hl
    have hle : micros l.time ≤ micros now := by
      rcases List.mem_append.mp hl with hl | hl
      · exact hclock l hl
      · rw [List.mem_singleton.mp hl]
    omega
  refine ⟨[⟨now, .select⟩, ⟨fiveSecondsAfter a.startTime, .wake (.ready (some arrival) none)⟩],
    ?_, ?_, ?_⟩
  · rw [List.append_cons]
    exact htimed'.concat hrun' hclock' hstart
      (selectObeys_ready hprocessing' hstart hnow hcalled arrival)
  · rw [List.append_cons]
    exact (hwait.concat hrun hwaits hselect).concat hrun' hwaits' hwake
  · intro hkept
    have hlate : inTime t₀ ⟨fiveSecondsAfter a.startTime, .wake (.ready (some arrival) none)⟩ =
        false := by
      rw [inTime, decide_eq_false_iff_not]
      simp only
      omega
    have hover := hkept.handled (ls ++ [⟨now, .select⟩]) _ [] _ (List.append_cons _ _ _) hrun' rfl
      hlate c' hwake
    rw [hstill] at hover
    cases hover

end Deadline

/-! ## A wait that starts anew -/

/-- The label at a whole second. -/
def atSecond (n : Int) (input : Input) : Label := ⟨⟨n, 0⟩, input⟩

/-- The user enters /auth; AUTH is sent and confirmed. -/
def authSent : List Label :=
  [atSecond 0 .test, atSecond 0 (.check {}), atSecond 0 .select,
   atSecond 0 (.wake (.ready none (some (.line (ascii "/auth u s n"))))),
   atSecond 0 (.act (.udp true [⟨true, delivery [0, 0, 0]⟩])), atSecond 0 .test]

/-- The session after these steps. -/
def afterAuth : Config :=
  (runFrom (step udpComm) (started sampleClient 3) authSent).getD (started sampleClient 3)

/-- The CONFIRM comes again at `n` seconds, in an await that was called at `m`. -/
def confirmedAgain (m n : Int) : List Label :=
  [atSecond m (.check {}), atSecond m .select,
   atSecond n (.wake (.ready (some (delivery [0, 0, 0])) none)),
   atSecond n (.act (.udp true [])), atSecond n .test]

/-- A wait for the reply to this AUTH. -/
theorem wait_of_authSent {t : Timeval} {check : Check} {rest : List Label}
    (hruns : (runFrom (step udpComm) afterAuth (⟨t, .check check⟩ :: rest)).isSome)
    (hwaits : EveryStep (step udpComm) afterAuth (fun _ c _ => stillWaits c = true)
      (⟨t, .check check⟩ :: rest)) :
    Wait udpComm sampleClient 3 afterAuth t (⟨t, .check check⟩ :: rest) where
  requested := ⟨authSent.take 4, authSent.drop 4, _, rfl, rfl, rfl, rfl⟩
  first := ⟨check, rest, rfl⟩
  runs := hruns
  waits := hwaits

/-- The CONFIRM comes again at four seconds and at eight, and the client still waits. -/
theorem wait_starts_anew :
    Timed udpComm afterAuth (confirmedAgain 0 4 ++ confirmedAgain 4 8) ∧
      Wait udpComm sampleClient 3 afterAuth ⟨0, 0⟩ (confirmedAgain 0 4 ++ confirmedAgain 4 8) ∧
        ¬ DeadlineKept udpComm afterAuth ⟨0, 0⟩ (confirmedAgain 0 4 ++ confirmedAgain 4 8) := by
  refine ⟨⟨by decide, by decide, by decide +kernel⟩, ?_, ?_⟩
  · apply wait_of_authSent
    · decide +kernel
    · decide +kernel
  · intro hkept
    exact absurd hkept.handled (by decide +kernel)

/-- The server sends a PING after two seconds, and nothing more. -/
def unanswered : List Label :=
  [atSecond 0 (.check {}), atSecond 0 .select,
   atSecond 2 (.wake (.ready (some (delivery [0xFD, 0, 0])) none)), atSecond 2 .select,
   atSecond 6 (.wake .timedOut)]

/-- The wait for this AUTH ends with the timeout of the first await. -/
theorem reply_deadline_unanswered : DeadlineKept udpComm afterAuth ⟨0, 0⟩ unanswered := by
  have htimed : Timed udpComm afterAuth unanswered :=
    ⟨by decide, by decide, by decide +kernel⟩
  have hwait : Wait udpComm sampleClient 3 afterAuth ⟨0, 0⟩ unanswered := by
    apply wait_of_authSent
    · decide +kernel
    · decide +kernel
  apply reply_deadline htimed hwait
  unfold SingleAwait
  decide +kernel

end IpkChat.Session
