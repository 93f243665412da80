/-
  Session/Clock.lean --- the clock, and the timeouts of select.

  While a reply is awaited, calculate_remaining_time gives select what is left of five
  seconds since await was called.  A timed run is one whose labels come in the order of
  time, and whose select does what its timeout says.
-/
import IpkChat.Foundation.Radix
import IpkChat.Session.Machine

set_option autoImplicit false

namespace IpkChat.Session

open IpkChat.Foundation IpkChat.Core

/-! ## Times -/

/-- A time in microseconds. -/
def micros (t : Timeval) : Int := t.tvSec * 1000000 + t.tvUsec

/-- The time a reply may take. -/
def fiveSeconds : Int := 5000000

/-- The elapsed time by a borrow, and what is left of five seconds by a carry. -/
theorem calculateRemainingTime_eq (start now : Timeval) :
    let elapsed := borrow 1000000 (now.tvSec - start.tvSec, now.tvUsec - start.tvUsec)
    let remaining := carry 1000000 (4 - elapsed.1, 1000000 - elapsed.2)
    calculateRemainingTime start now = ⟨remaining.1, remaining.2⟩ := by
  intro elapsed remaining
  have hremaining : remaining =
      if 1000000 - elapsed.2 = 1000000 then (4 - elapsed.1 + 1, 0)
      else (4 - elapsed.1, 1000000 - elapsed.2) := rfl
  rw [hremaining]
  unfold calculateRemainingTime
  simp only [elapsed, borrow]
  split <;> split <;> rfl

/-- The time left is what has not elapsed of five seconds. -/
theorem micros_calculateRemainingTime (start now : Timeval) :
    micros (calculateRemainingTime start now) = fiveSeconds - (micros now - micros start) := by
  rw [calculateRemainingTime_eq]
  have helapsed := @number_borrow 1000000 (now.tvSec - start.tvSec, now.tvUsec - start.tvUsec)
  generalize borrow 1000000 _ = elapsed at helapsed ⊢
  have hremaining := @number_carry 1000000 (4 - elapsed.1, 1000000 - elapsed.2)
  generalize carry 1000000 _ = remaining at hremaining ⊢
  simp only [number] at helapsed hremaining
  simp only [micros, fiveSeconds]
  omega

/-- A time as gettimeofday gives it. -/
def Normal (t : Timeval) : Prop := IsDigit 1000000 t.tvUsec

instance (t : Timeval) : Decidable (Normal t) := inferInstanceAs (Decidable (IsDigit _ _))

/-- The timeouts that select accepts. -/
def Legal (t : Timeval) : Prop := 0 ≤ t.tvSec ∧ 0 ≤ t.tvUsec ∧ t.tvUsec < 1000000

instance (t : Timeval) : Decidable (Legal t) := inferInstanceAs (Decidable (_ ∧ _ ∧ _))

section Times

variable {start now t : Timeval}

/-- The microseconds stay in their range. -/
theorem normal_calculateRemainingTime (hstart : Normal start) (hnow : Normal now) :
    Normal (calculateRemainingTime start now) := by
  obtain ⟨hstart, hstart'⟩ := hstart
  obtain ⟨hnow, hnow'⟩ := hnow
  rw [calculateRemainingTime_eq]
  have helapsed : IsDigit 1000000
      (borrow 1000000 (now.tvSec - start.tvSec, now.tvUsec - start.tvUsec)).2 := by
    apply isDigit_borrow
    · simp only
      omega
    · simp only
      omega
  obtain ⟨hlow, hhigh⟩ := helapsed
  apply isDigit_carry (by decide)
  · simp only
    omega
  · simp only
    omega

/-- A time in its normal form is legal exactly if it is not negative. -/
theorem legal_iff (h : Normal t) : Legal t ↔ 0 ≤ micros t := by
  have hsign : 0 ≤ micros t ↔ 0 ≤ t.tvSec := number_nonneg_iff (n := (t.tvSec, t.tvUsec)) h
  rw [hsign]
  exact ⟨fun hlegal => hlegal.1, fun hsec => ⟨hsec, h⟩⟩

/-- No more than five seconds have elapsed exactly if the timeout is legal. -/
theorem legal_calculateRemainingTime_iff (hstart : Normal start) (hnow : Normal now) :
    Legal (calculateRemainingTime start now) ↔ micros now - micros start ≤ fiveSeconds := by
  rw [legal_iff (normal_calculateRemainingTime hstart hnow), micros_calculateRemainingTime]
  exact Int.sub_nonneg

end Times

/-! ## Timed runs -/

/-- The timeout that select has been given. -/
def timeout (c : Config) : Option Timeval :=
  match c.point with
  | .blocked a entered =>
      if c.world.processing then some (calculateRemainingTime a.startTime entered) else none
  | _ => none

/-- While a reply is awaited, select has a timeout. -/
theorem timeout_of_blocked {c : Config} {a : AwaitVars} {entered : Timeval}
    (hpoint : c.point = .blocked a entered) (hprocessing : c.world.processing = true) :
    timeout c = some (calculateRemainingTime a.startTime entered) := by
  rw [timeout, hpoint]
  exact if_pos hprocessing

/-- What select does with a timeout.  It refuses one that is not legal.  A legal one is
over, at the earliest, when its time has elapsed, and a descriptor is found ready before;
only the socket is watched then. -/
def selectObeys (c : Config) (l : Label) : Bool :=
  match c.point, l.input, timeout c with
  | .blocked _ _, .wake .failed, _ => true
  | .blocked _ _, .wake .interrupted, some t => decide (Legal t)
  | .blocked _ entered, .wake .timedOut, some t =>
      decide (Legal t) && decide (micros entered + micros t ≤ micros l.time)
  | .blocked _ entered, .wake (.ready socket _), some t =>
      decide (Legal t) && socket.isSome && decide (micros l.time ≤ micros entered + micros t)
  | _, _, _ => true

/-- A select that does not fail has a legal timeout. -/
theorem legal_of_selectObeys {c : Config} {l : Label} {a : AwaitVars} {entered t : Timeval}
    {result : SelectResult} (hpoint : c.point = .blocked a entered)
    (hinput : l.input = .wake result) (htimeout : timeout c = some t)
    (hobeys : selectObeys c l = true) (hne : result ≠ .failed) : Legal t := by
  rw [selectObeys, hpoint, hinput, htimeout] at hobeys
  cases result with
  | failed => exact absurd rfl hne
  | interrupted => exact of_decide_eq_true hobeys
  | timedOut | ready =>
      simp only [Bool.and_eq_true, decide_eq_true_eq] at hobeys
      tauto

/-- A run whose labels come in the order of time, with a select that obeys its timeout. -/
structure Timed (comm : Comm) (c₀ : Config) (ls : List Label) : Prop where
  clock : ls.Pairwise fun l l' => micros l.time ≤ micros l'.time
  normal : ∀ l ∈ ls, Normal l.time
  select : EveryStep (step comm) c₀ (fun _ c l => selectObeys c l = true) ls

/-! ## When the await in progress began -/

/-- await is entered. -/
def isCheck (l : Label) : Bool :=
  match l.input with
  | .check _ => true
  | _ => false

/-- The time of the last call of await. -/
def lastCheck (ls : List Label) : Option Timeval :=
  ls.foldl (fun last l => if isCheck l then some l.time else last) none

theorem lastCheck_concat (ls : List Label) (l : Label) :
    lastCheck (ls ++ [l]) = if isCheck l then some l.time else lastCheck ls := by
  unfold lastCheck
  rw [List.foldl_append]
  rfl

/-- The last call of await is one of the labels. -/
theorem lastCheck_mem {ls : List Label} {t : Timeval} (h : lastCheck ls = some t) :
    ∃ l ∈ ls, l.time = t := by
  induction ls using List.reverseRecOn with
  | nil => cases h
  | append_singleton ls l ih =>
      rw [lastCheck_concat] at h
      split at h
      · exact ⟨l, by simp, Option.some.inj h⟩
      · obtain ⟨l', hl', htime⟩ := ih h
        exact ⟨l', List.mem_append_left [l] hl', htime⟩

/-- start_time of await is the time at which it was called. -/
def StartKnown (ls : List Label) (c : Config) : Prop :=
  match c.point with
  | .loop a => lastCheck ls = some a.startTime
  | .blocked a _ => lastCheck ls = some a.startTime
  | _ => True

section Steps

variable {comm : Comm} {ls : List Label} {c c' : Config} {l : Label}

theorem startKnown_afterTest (w : World) : StartKnown ls (afterTest w) := by
  unfold afterTest
  split
  · trivial
  · split <;> trivial

theorem startKnown_afterState (res : World × Option ExitCode) : StartKnown ls (afterState res) := by
  obtain ⟨w, code⟩ := res
  cases code with
  | none => trivial
  | some code => cases code <;> trivial

theorem startKnown_afterCheck {state : FsmState} {now : Timeval} {res : World × Option MsgType}
    (h : lastCheck ls = some now) : StartKnown ls (afterCheck state now res) := by
  obtain ⟨w, type⟩ := res
  cases type with
  | none => exact h
  | some type =>
      cases type
      case ping => exact h
      all_goals trivial

theorem startKnown_afterWake {a : AwaitVars} {res : World × Woken}
    (h : lastCheck ls = some a.startTime) : StartKnown ls (afterWake a res) := by
  obtain ⟨w, woken⟩ := res
  cases woken with
  | returned prompt => trivial
  | again type => exact h

theorem startKnown_step (hc : StartKnown ls c) (hstep : step comm c l = some c') :
    StartKnown (ls ++ [l]) c' := by
  have hsame : isCheck l = false → lastCheck (ls ++ [l]) = lastCheck ls := by
    intro hno
    rw [lastCheck_concat, hno, if_neg Bool.false_ne_true]
  cases step_move hstep with
  | test hinput hpoint => exact startKnown_afterTest c.world
  | bye wire hinput hpoint => exact startKnown_afterState _
  | check check state hinput hpoint hne =>
      apply startKnown_afterCheck
      rw [lastCheck_concat, isCheck, hinput, if_pos rfl]
  | select a hinput hpoint =>
      unfold StartKnown at hc ⊢
      rw [hpoint] at hc
      exact (hsame (by rw [isCheck, hinput])).trans hc
  | wake a entered result hinput hpoint =>
      unfold StartKnown at hc
      rw [hpoint] at hc
      exact startKnown_afterWake ((hsame (by rw [isCheck, hinput])).trans hc)
  | act wire state prompt hinput hpoint => exact startKnown_afterState _
  | interrupted a entered hinput hpoint =>
      unfold StartKnown at hc
      rw [hpoint] at hc
      exact startKnown_afterWake ((hsame (by rw [isCheck, hinput])).trans hc)
  | noted hinput hblocked =>
      unfold StartKnown at hc ⊢
      rw [hsame (by rw [isCheck, hinput])]
      exact hc

end Steps

end IpkChat.Session
