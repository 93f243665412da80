/-
  Session/Timeouts.lean --- the timeouts that select is given.

  What calculate_remaining_time computes is five seconds less the elapsed time, borrow
  and carry included.  Nothing stops it at zero: when the loop of await comes back to
  select later than that, the timeout is negative and select refuses it.  await then
  returns without having reported that the server does not answer.
-/
import IpkChat.Session.Deadline

set_option autoImplicit false

namespace IpkChat.Session

open IpkChat.Foundation IpkChat.Core IpkChat.Udp

/-! ## The property -/

/-- The timeout is legal, and what is left of five seconds, or nothing. -/
structure ExactTimeout (start now : Timeval) : Prop where
  legal : Legal (calculateRemainingTime start now)
  micros_eq : micros (calculateRemainingTime start now) =
    max 0 (fiveSeconds - (micros now - micros start))

/-! ## The computation -/

section Computation

variable {start now t : Timeval}

/-- A timeout that is legal is also exact. -/
theorem exactTimeout_of_legal (h : Legal (calculateRemainingTime start now)) :
    ExactTimeout start now := by
  obtain ⟨hsec, hlow, hhigh⟩ := h
  refine ⟨⟨hsec, hlow, hhigh⟩, ?_⟩
  have hmicros := micros_calculateRemainingTime start now
  have hnonneg : 0 ≤ micros (calculateRemainingTime start now) := by
    unfold micros
    omega
  rw [hmicros] at hnonneg ⊢
  exact (max_eq_right hnonneg).symm

/-- For any two times, the timeout is legal and exact exactly if no more than five seconds
have elapsed. -/
theorem remaining_time_iff (hstart : Normal start) (hnow : Normal now) :
    ExactTimeout start now ↔ micros now - micros start ≤ fiveSeconds := by
  rw [← legal_calculateRemainingTime_iff hstart hnow]
  constructor
  · exact fun hexact => hexact.legal
  · exact exactTimeout_of_legal

end Computation

/-- From 10.9 seconds to 12.15 seconds; the elapsed time borrows. -/
theorem remaining_time_iff_borrow : ExactTimeout ⟨10, 900000⟩ ⟨12, 150000⟩ :=
  (remaining_time_iff (by decide) (by decide)).mpr (by decide)

/-! ## Runs -/

/-- Every timeout that select is given while a reply is awaited is legal and exact. -/
def TimeoutsExact (comm : Comm) (c₀ : Config) (ls : List Label) : Prop :=
  Throughout (step comm) c₀ (fun _ c => ∀ a entered, c.point = .blocked a entered →
    c.world.processing = true → ExactTimeout a.startTime entered) ls

/-- While a reply is awaited, select is called no later than five seconds after await. -/
def SelectsInTime (comm : Comm) (c₀ : Config) (ls : List Label) : Prop :=
  EveryStep (step comm) c₀ (fun before c l => l.input = .select → c.world.processing = true →
    ∀ a t, c.point = .loop a → lastCheck before = some t →
      micros l.time - micros t ≤ fiveSeconds) ls

section Runs

variable {comm : Comm} {client : Client} {retransmissions : UInt8} {ls : List Label} {c : Config}

/-- A run from the start knows when its last await began. -/
theorem startKnown_started (h : runFrom (step comm) (started client retransmissions) ls = some c) :
    StartKnown ls c := by
  have hstart : StartKnown [] (started client retransmissions) := trivial
  exact runFrom_invariant hstart (fun _ _ _ _ h hstep => startKnown_step h hstep) h

/-- In the loop of await, the timeout of a select is about the time since await was
called last. -/
theorem loop_timeout_iff (hnormal : ∀ l ∈ ls, Normal l.time) {before after : List Label}
    {l : Label} {a : AwaitVars} (hsplit : ls = before ++ l :: after)
    (hrun : runFrom (step comm) (started client retransmissions) before = some c)
    (hpoint : c.point = .loop a) :
    lastCheck before = some a.startTime ∧
      (ExactTimeout a.startTime l.time ↔ micros l.time - micros a.startTime ≤ fiveSeconds) := by
  have hknown := startKnown_started hrun
  rw [StartKnown, hpoint] at hknown
  obtain ⟨l', hl', htime⟩ := lastCheck_mem hknown
  have hbefore : l' ∈ ls := by
    rw [hsplit]
    exact List.mem_append_left _ hl'
  have hstart : Normal a.startTime := htime ▸ hnormal l' hbefore
  have hnow : Normal l.time := hnormal l (by simp [hsplit])
  refine ⟨hknown, ?_⟩
  rw [← legal_calculateRemainingTime_iff hstart hnow]
  exact ⟨fun hexact => hexact.legal, exactTimeout_of_legal⟩

/-- In every run, each timeout is legal and exact exactly if each select is called in
time. -/
theorem timeouts_exact_iff (hnormal : ∀ l ∈ ls, Normal l.time) :
    TimeoutsExact comm (started client retransmissions) ls ↔
      SelectsInTime comm (started client retransmissions) ls := by
  constructor
  · intro hexact before l after c hsplit hrun hinput hprocessing a t hpoint hlast
    obtain ⟨hknown, hiff⟩ := loop_timeout_iff hnormal hsplit hrun hpoint
    obtain rfl : a.startTime = t := Option.some.inj (hknown.symm.trans hlast)
    have hstep : step comm c l =
        some ⟨callSelect a.startTime l.time c.world, .blocked a l.time⟩ := by
      rw [step, hinput, hpoint]
    apply hiff.mp
    apply hexact (before ++ [l]) after _ (by simp [hsplit])
      (runFrom_trans hrun (runFrom_single hstep)) a l.time rfl
    rw [callSelect_toGlobals]
    exact hprocessing
  · intro htime before after c' hsplit hrun' a entered hblocked hprocessing
    induction before using List.reverseRecOn with
    | nil =>
        obtain rfl := Option.some.inj hrun'
        cases hblocked
    | append_singleton before l _ =>
        rw [List.append_assoc, List.singleton_append] at hsplit
        obtain ⟨c, hrun, hstep⟩ := runFrom_concat_iff.mp hrun'
        obtain ⟨hinput, hpoint, hworld⟩ := blocked_of_step hstep hblocked
        obtain ⟨hknown, hiff⟩ := loop_timeout_iff hnormal hsplit hrun hpoint
        obtain ⟨a', -, hentered, -⟩ := blocked_of_select hstep hinput
        rw [hblocked] at hentered
        obtain ⟨rfl, rfl⟩ : a = a' ∧ entered = l.time := by simpa using hentered
        apply hiff.mpr
        apply htime before l after c hsplit hrun hinput _ a a.startTime hpoint hknown
        rw [← hworld]
        exact hprocessing

end Runs

/-! ## Past the deadline -/

/-- prompt.type is zero, which is CONFIRM, or that of a PING. -/
def TypeKnown (c : Config) : Prop :=
  match c.point with
  | .loop a => a.type = .confirm ∨ a.type = .ping
  | .blocked a _ => a.type = .confirm ∨ a.type = .ping
  | _ => True

section Late

variable {comm : Comm} {client : Client} {retransmissions : UInt8} {ls : List Label}
  {c c' : Config} {l : Label} {a : AwaitVars} {entered : Timeval}

theorem typeKnown_afterWake {incomplete : Bool} {w : World} {result : SelectResult}
    (h : a.type = .confirm ∨ a.type = .ping) :
    TypeKnown (afterWake a (wake comm incomplete w a.type result)) := by
  rcases hwake : wake comm incomplete w a.type result with ⟨w', woken⟩
  cases woken with
  | returned prompt => trivial
  | again type =>
      rcases wake_again hwake with ⟨-, hsame⟩ | ⟨arrival, -, hping⟩
      · exact hsame ▸ h
      · exact Or.inr hping

theorem typeKnown_step (hc : TypeKnown c) (hstep : step comm c l = some c') : TypeKnown c' := by
  cases step_move hstep with
  | test =>
      unfold afterTest
      split
      · trivial
      · split <;> trivial
  | bye => unfold afterState; split <;> trivial
  | check check state =>
      unfold afterCheck
      split
      · exact Or.inl rfl
      · exact Or.inr rfl
      · trivial
  | select a hinput hpoint =>
      unfold TypeKnown at hc
      rw [hpoint] at hc
      exact hc
  | wake a entered result hinput hpoint =>
      unfold TypeKnown at hc
      rw [hpoint] at hc
      exact typeKnown_afterWake hc
  | act => unfold afterState; split <;> trivial
  | interrupted a entered hinput hpoint =>
      unfold TypeKnown at hc
      rw [hpoint] at hc
      exact typeKnown_afterWake hc
  | noted => exact hc

theorem typeKnown_started (h : runFrom (step comm) (started client retransmissions) ls = some c) :
    TypeKnown c := by
  have hstart : TypeKnown (started client retransmissions) := trivial
  exact runFrom_invariant (I := fun _ c => TypeKnown c) hstart
    (fun _ _ _ _ h hstep => typeKnown_step h hstep) h

/-- A select that is called too late fails. -/
theorem late_select_fails (hstart : Normal a.startTime) (hentered : Normal entered)
    (hlate : fiveSeconds < micros entered - micros a.startTime)
    (hpoint : c.point = .blocked a entered) (hprocessing : c.world.processing = true)
    {result : SelectResult} (hinput : l.input = .wake result) (hobeys : selectObeys c l = true) :
    result = .failed := by
  have htimeout := timeout_of_blocked hpoint hprocessing
  have hillegal : ¬ Legal (calculateRemainingTime a.startTime entered) := by
    rw [legal_calculateRemainingTime_iff hstart hentered]
    omega
  by_contra hne
  exact hillegal (legal_of_selectObeys hpoint hinput htimeout hobeys hne)

/-- await then returns without a report, and its prompt is not that of a timeout. -/
theorem late_select_unreported
    (hrun : runFrom (step comm) (started client retransmissions) ls = some c)
    (hstart : Normal a.startTime) (hentered : Normal entered)
    (hlate : fiveSeconds < micros entered - micros a.startTime)
    (hpoint : c.point = .blocked a entered) (hprocessing : c.world.processing = true)
    {result : SelectResult} (hinput : l.input = .wake result) (hobeys : selectObeys c l = true) :
    step comm c l = some ⟨c.world, .prompted a.state ⟨.server, a.type⟩⟩ ∧ a.type ≠ .error := by
  obtain rfl := late_select_fails hstart hentered hlate hpoint hprocessing hinput hobeys
  have hknown := typeKnown_started hrun
  rw [TypeKnown, hpoint] at hknown
  have htype : a.type = .confirm ∨ a.type = .ping := hknown
  constructor
  · rw [step, hinput, hpoint]
    rfl
  · intro herror
    rw [herror] at htype
    rcases htype with hconfirm | hping
    · cases hconfirm
    · cases hping

end Late

/-! ## A PING just before the deadline -/

/-- The client waits for the reply to its AUTH; the server's PING comes a microsecond
before the five seconds are over, and select is called again a microsecond after. -/
def latePing : List Label :=
  authSent ++ [⟨⟨0, 0⟩, .check {}⟩, ⟨⟨0, 0⟩, .select⟩,
    ⟨⟨4, 999999⟩, .wake (.ready (some (delivery [0xFD, 0, 0])) none)⟩, ⟨⟨5, 1⟩, .select⟩]

/-- Then the timeout is negative, and neither legal nor zero. -/
theorem late_ping_negative_timeout :
    Normal ⟨0, 0⟩ ∧ Normal ⟨5, 1⟩ ∧ micros ⟨0, 0⟩ ≤ micros ⟨5, 1⟩ ∧
      calculateRemainingTime ⟨0, 0⟩ ⟨5, 1⟩ = ⟨-1, 999999⟩ ∧ ¬ ExactTimeout ⟨0, 0⟩ ⟨5, 1⟩ ∧
      Timed udpComm (started sampleClient 3) latePing ∧
      (runFrom (step udpComm) (started sampleClient 3) latePing).bind timeout =
        some (calculateRemainingTime ⟨0, 0⟩ ⟨5, 1⟩) := by
  have htimed : Timed udpComm (started sampleClient 3) latePing := by
    constructor
    · decide
    · decide
    · decide +kernel
  refine ⟨by decide, by decide, by decide, by decide, ?_, htimed, by decide +kernel⟩
  intro hexact
  exact absurd hexact.legal (by decide)

end IpkChat.Session
