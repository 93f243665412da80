/-
  Session/Interrupt.lean --- when a SIGINT is lost.

  The loop of fsm tests the flag that SIGINT sets, and await blocks in select later.
  A signal that is delivered while select blocks makes it return; one delivered
  between the test and the call of select sets the flag behind the test, and select
  blocks until something else happens.  No other signal is lost.
-/
import IpkChat.Session.Machine

set_option autoImplicit false

namespace IpkChat.Session

open IpkChat.Foundation IpkChat.Core IpkChat.Tcp IpkChat.Udp

/-! ## The property and the condition -/

/-- A signal was delivered after the last test of the loop. -/
def signalled (ls : List Label) : Bool :=
  ls.foldl (fun seen l =>
    match l.input with
    | .test => false
    | .sigint => true
    | _ => seen) false

/-- The main thread blocks in select while no reply is awaited. -/
def Idles (c : Config) : Prop :=
  (∃ a entered, c.point = .blocked a entered) ∧ c.world.processing = false

/-- Whenever the main thread blocks so, no SIGINT is pending. -/
def NoLostInterrupt (comm : Comm) (c₀ : Config) (ls : List Label) : Prop :=
  Throughout (step comm) c₀ (fun _ c => Idles c → c.world.interrupt = false) ls

/-- No signal is delivered between a test of the loop and a call of select that is
made while no reply is awaited. -/
def SignalsInTime (comm : Comm) (c₀ : Config) (ls : List Label) : Prop :=
  EveryStep (step comm) c₀ (fun before c l =>
    l.input = .select → c.world.processing = false → signalled before = false) ls

instance (input : Input) : Decidable (input = .select) := by
  cases input with
  | select => exact isTrue rfl
  | _ => exact isFalse (by simp)

theorem signalled_concat (ls : List Label) (l : Label) :
    signalled (ls ++ [l]) =
      match l.input with
      | .test => false
      | .sigint => true
      | _ => signalled ls := by
  unfold signalled
  rw [List.foldl_append]
  rfl

/-! ## What leaves the flag alone -/

/-- Receiving does not touch the flag. -/
structure KeepsInterrupt (comm : Comm) : Prop where
  recv : ∀ w a, (comm.recvMsg w a).1.interrupt = w.interrupt
  check : ∀ w c, (comm.checkPreviousMsg w c).1.interrupt = w.interrupt

theorem keepsInterrupt_udp : KeepsInterrupt udpComm where
  recv w a := by
    have hout : RecvOutcome w a (udpComm.recvMsg w a) := udpRecvMsg_outcome w a
    generalize udpComm.recvMsg w a = res at hout
    cases hout with
    | dispatched => simp [confirmed, World.received]
    | _ => rfl
  check w c := by
    have hout : CheckOutcome w c.beyond (udpComm.checkPreviousMsg w c) :=
      udpCheckPrevious_outcome w c.beyond
    generalize udpComm.checkPreviousMsg w c = res at hout
    cases hout with
    | dispatched => simp
    | _ => rfl

theorem keepsInterrupt_tcp : KeepsInterrupt tcpComm where
  recv w a := by
    simp only [tcpComm, tcpRecvMsg]
    split
    · split
      · rfl
      · split
        · rw [World.printParsed_toGlobals]
        · rfl
    · rfl
  check w c := by
    simp only [tcpComm, tcpCheckPrevious]
    split
    · rw [World.printParsed_toGlobals]
    · rfl

/-! ## The invariant -/

/-- Between the test of the loop and the return of select, the flag is that of the test
with the signals delivered since.  While no reply is awaited the test has found it
clear. -/
def FlagKnown (ls : List Label) (c : Config) : Prop :=
  c.world.processing = false →
    match c.point with
    | .call state => state ≠ .interupt → c.world.interrupt = signalled ls
    | .loop _ => c.world.interrupt = signalled ls
    | .blocked _ _ => c.world.interrupt = signalled ls
    | _ => True

section Steps

variable {comm : Comm} {ls : List Label} {c c' : Config} {l : Label}

theorem flagKnown_afterTest (hinput : l.input = .test) (w : World) :
    FlagKnown (ls ++ [l]) (afterTest w) := by
  unfold afterTest
  split
  · exact fun _ => trivial
  · split
    · exact fun _ hne => absurd rfl hne
    · rename_i hcontinue
      intro hidle _
      rw [signalled_concat, hinput]
      rw [Bool.and_eq_true, not_and, Bool.not_eq_true'] at hcontinue
      exact Bool.eq_false_iff.mpr (hcontinue hidle)

theorem flagKnown_afterState (res : World × Option ExitCode) :
    FlagKnown ls (afterState res) := by
  obtain ⟨w, code⟩ := res
  cases code with
  | none => exact fun _ => trivial
  | some code => cases code <;> exact fun _ => trivial

theorem flagKnown_afterCheck {state : FsmState} {now : Timeval} {res : World × Option MsgType}
    (h : res.1.processing = false → res.1.interrupt = signalled ls) :
    FlagKnown ls (afterCheck state now res) := by
  obtain ⟨w, type⟩ := res
  cases type with
  | none => exact h
  | some type =>
      cases type
      case ping => exact h
      all_goals exact fun _ => trivial

/-- select returns to the loop of await with the flag as it was. -/
theorem flagKnown_afterWake (hneutral : NeutralComm comm) (hkeeps : KeepsInterrupt comm)
    (a : AwaitVars) (incomplete : Bool) {w : World} (type : MsgType) (result : SelectResult)
    (h : w.processing = false → w.interrupt = signalled ls) :
    FlagKnown ls (afterWake a (wake comm incomplete w type result)) := by
  rcases hwake : wake comm incomplete w type result with ⟨w', woken⟩
  cases woken with
  | returned prompt => exact fun _ => trivial
  | again type' =>
      rcases wake_again hwake with ⟨rfl, -⟩ | ⟨arrival, hrecv, -⟩
      · exact h
      · -- a PING touches neither flag
        have hprocessing := (hneutral.recv w arrival).processing_eq
        have hinterrupt := hkeeps.recv w arrival
        rw [hrecv] at hprocessing hinterrupt
        intro hidle
        exact hinterrupt.trans (h (hprocessing ▸ hidle))

theorem flagKnown_step (hneutral : NeutralComm comm) (hkeeps : KeepsInterrupt comm)
    (hc : FlagKnown ls c) (hstep : step comm c l = some c') : FlagKnown (ls ++ [l]) c' := by
  cases step_move hstep with
  | test hinput hpoint => exact flagKnown_afterTest hinput c.world
  | bye wire hinput hpoint => exact flagKnown_afterState _
  | check check state hinput hpoint hne =>
      apply flagKnown_afterCheck
      intro hidle
      rw [(hneutral.check _ check).processing_eq] at hidle
      have hflag := hc hidle
      rw [hpoint] at hflag
      rw [hkeeps.check, signalled_concat, hinput]
      exact hflag hne
  | select a hinput hpoint =>
      intro hidle
      rw [callSelect_toGlobals] at hidle
      have hflag := hc hidle
      rw [hpoint] at hflag
      simp only
      rw [callSelect_toGlobals, signalled_concat, hinput]
      exact hflag
  | wake a entered result hinput hpoint =>
      apply flagKnown_afterWake hneutral hkeeps
      intro hidle
      have hflag := hc hidle
      rw [hpoint] at hflag
      rw [signalled_concat, hinput]
      exact hflag
  | act wire state prompt hinput hpoint => exact flagKnown_afterState _
  | interrupted a entered hinput hpoint =>
      apply flagKnown_afterWake hneutral hkeeps
      intro _
      rw [signalled_concat, hinput]
  | noted hinput hblocked =>
      intro hidle
      simp only
      rw [signalled_concat, hinput]
      cases c.point with
      | call state => exact fun _ => rfl
      | loop a => rfl
      | blocked a entered => rfl
      | _ => trivial

end Steps

/-! ## Runs -/

/-- The functions that get_comm installs. -/
def Installed (comm : Comm) : Prop := comm = udpComm ∨ comm = tcpComm

theorem Installed.neutral {comm : Comm} (h : Installed comm) : NeutralComm comm := by
  rcases h with rfl | rfl
  · exact neutralComm_udp
  · exact neutralComm_tcp

theorem Installed.keepsInterrupt {comm : Comm} (h : Installed comm) : KeepsInterrupt comm := by
  rcases h with rfl | rfl
  · exact keepsInterrupt_udp
  · exact keepsInterrupt_tcp

section Runs

variable {comm : Comm} {client : Client} {retransmissions : UInt8} {ls : List Label} {c : Config}

theorem flagKnown_run (hcomm : Installed comm)
    (hrun : runFrom (step comm) (started client retransmissions) ls = some c) :
    FlagKnown ls c :=
  runFrom_invariant (fun _ => trivial)
    (fun _ _ _ _ h hstep => flagKnown_step hcomm.neutral hcomm.keepsInterrupt h hstep) hrun

/-- In every run, no SIGINT is lost exactly if none is delivered between a test of the
loop and a call of select that is made while no reply is awaited. -/
theorem no_lost_interrupt_iff (hcomm : Installed comm)
    (hrun : runFrom (step comm) (started client retransmissions) ls = some c) :
    NoLostInterrupt comm (started client retransmissions) ls ↔
      SignalsInTime comm (started client retransmissions) ls := by
  constructor
  · intro hnone before l after c₁ hsplit hbefore hinput hidle
    subst hsplit
    -- after the call of select the main thread blocks
    rw [List.append_cons] at hrun
    obtain ⟨c₂, hblocks, -⟩ := runFrom_split hrun
    obtain ⟨c₁', hbefore', hstep⟩ := runFrom_concat_iff.mp hblocks
    obtain rfl : c₁' = c₁ := Option.some.inj (hbefore'.symm.trans hbefore)
    obtain ⟨a, hloop, hpoint, hglobals⟩ := blocked_of_select hstep hinput
    have hclear := hnone (before ++ [l]) after c₂ (List.append_cons _ _ _) hblocks
      ⟨⟨a, l.time, hpoint⟩, by rw [hglobals]; exact hidle⟩
    have hflag := flagKnown_run hcomm hbefore hidle
    rw [hloop] at hflag
    rw [← hflag, ← hglobals]
    exact hclear
  · intro hsignals before after c₂ hsplit hbefore hidles
    obtain ⟨⟨a, entered, hblocked⟩, hidle⟩ := hidles
    -- select was called last
    rcases List.eq_nil_or_concat before with rfl | ⟨before, l, rfl⟩
    · cases hbefore
      cases hblocked
    · rw [List.concat_eq_append] at hsplit hbefore
      obtain ⟨c₁, hbefore₁, hstep⟩ := runFrom_concat_iff.mp hbefore
      obtain ⟨hinput, hloop, hglobals⟩ := blocked_of_step hstep hblocked
      rw [hglobals] at hidle ⊢
      have hflag := flagKnown_run hcomm hbefore₁ hidle
      rw [hloop] at hflag
      rw [hflag]
      rw [List.append_assoc] at hsplit
      exact hsignals before l after c₁ hsplit hbefore₁ hinput hidle

end Runs

/-! ## A lost signal -/

/-- The label at time zero. -/
def now (input : Input) : Label := ⟨⟨0, 0⟩, input⟩

/-- SIGINT is delivered after the first test of the loop, and select blocks. -/
def lostSignal : List Label := [now .test, now .sigint, now (.check {}), now .select]

theorem lost_interrupt : ¬ NoLostInterrupt udpComm (started sampleClient 3) lostSignal := by
  intro hnone
  have hflag := hnone lostSignal [] _ (List.append_nil _).symm rfl ⟨⟨_, _, rfl⟩, rfl⟩
  exact absurd hflag (by decide)

/-- SIGINT is delivered while select blocks. -/
def noticedSignal : List Label :=
  [now .test, now (.check {}), now .select, now .sigint, now (.act (.udp true [])),
    now .test, now (.act (.udp true [⟨true, delivery [0, 0, 0]⟩])), now .test]

/-- It is not lost: BYE is sent. -/
theorem no_lost_interrupt_iff_blocked :
    NoLostInterrupt udpComm (started sampleClient 3) noticedSignal := by
  have hrun : runFrom (step udpComm) (started sampleClient 3) noticedSignal = some _ := rfl
  apply (no_lost_interrupt_iff (Or.inl rfl) hrun).mpr
  unfold SignalsInTime
  decide +kernel

end IpkChat.Session
