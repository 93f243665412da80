/-
  Session/Stdin.lean --- lines of the user that wait in the stream of stdin.

  select looks at the descriptor, and getline at the buffer of the stream, which it
  fills with all that the descriptor holds.  What getline reads beyond the line it
  returns is no longer on the descriptor, so select does not report it.  So it is for a
  pipe or a file, of which a read gives all the bytes there are; a terminal in canonical
  mode gives one line at a time, and is not meant here.

  The machine here is that of Session/Machine.lean between a descriptor and a stream.
  The user's lines come from nowhere else.
-/
import IpkChat.Foundation.Stream
import IpkChat.Session.Interrupt

set_option autoImplicit false

namespace IpkChat.Session

open IpkChat.Foundation IpkChat.Core IpkChat.Udp

/-- The byte that ends a line. -/
def newline : UInt8 := 0x0A

/-! ## Descriptor and stream -/

/-- The configuration, and the bytes that the user has typed and await has not taken. -/
structure Terminal where
  config : Config
  /-- what can be read from the descriptor -/
  available : Bytes
  /-- what getline has read and not returned -/
  stream : Bytes

/-- A step of the main thread or of the user. -/
inductive TerminalLabel where
  /-- bytes become readable on the descriptor -/
  | piece (bytes : Bytes)
  /-- select finds the descriptor readable, and the line is read; the pieces that arrive
  while getline waits for its end -/
  | line (time : Timeval) (during : List Bytes)
  /-- any other step of the main thread -/
  | other (l : Label)

/-- select returns with a line of the user. -/
def readsStdin : Input → Bool
  | .wake (.ready _ (some _)) => true
  | _ => false

/-- The main thread is in select, and standard input is among the descriptors watched. -/
def watchesStdin (c : Config) : Bool :=
  match c.point with
  | .blocked a _ => !c.world.processing && !a.incompleteTcpMessage
  | _ => false

/-- getline takes all that can be read, and what follows its line stays in the stream. -/
def terminalStep (comm : Comm) (s : Terminal) : TerminalLabel → Option Terminal
  | .piece bytes => some { s with available := s.available ++ bytes }
  | .line time during =>
      if watchesStdin s.config && s.available != [] then do
        let (line, rest) ← readLine newline (s.stream ++ s.available) during
        let config ← step comm s.config ⟨time, .wake (.ready none (some (.line line)))⟩
        some ⟨config, [], rest⟩
      else none
  | .other l =>
      if readsStdin l.input then none
      else do
        let config ← step comm s.config l
        some { s with config := config }

/-- The main thread before the first test of the loop, and nothing typed. -/
def terminal (client : Client) (retransmissions : UInt8) : Terminal :=
  ⟨started client retransmissions, [], []⟩

/-! ## The property and the condition -/

/-- select blocks while standard input is watched: nothing is on the descriptor. -/
def waitsForUser (s : Terminal) : Bool := watchesStdin s.config && s.available == []

/-- Whenever it does, no complete line is left in the stream. -/
def NoStrandedLine (comm : Comm) (s₀ : Terminal) (ls : List TerminalLabel) : Prop :=
  Throughout (terminalStep comm) s₀
    (fun _ s => waitsForUser s = true → newline ∉ s.stream) ls

/-- A call of getline meets no second line: in the stream, on the descriptor, or in the
pieces that arrive until it returns. -/
def MeetsOneLine (s : Terminal) : TerminalLabel → Prop
  | .line _ during => (s.stream ++ s.available ++ during.flatten).count newline ≤ 1
  | _ => True

instance (s : Terminal) (l : TerminalLabel) : Decidable (MeetsOneLine s l) :=
  match l with
  | .piece _ => isTrue trivial
  | .line _ during =>
      inferInstanceAs (Decidable ((s.stream ++ s.available ++ during.flatten).count newline ≤ 1))
  | .other _ => isTrue trivial

/-- No call of getline does. -/
def OneLineAtATime (comm : Comm) (s₀ : Terminal) (ls : List TerminalLabel) : Prop :=
  EveryStep (terminalStep comm) s₀ (fun _ s l => MeetsOneLine s l) ls

/-! ## Steps -/

section Steps

variable {comm : Comm} {s s' : Terminal} {l : TerminalLabel}

/-- Every step there is. -/
inductive TerminalMove (comm : Comm) (s : Terminal) : TerminalLabel → Terminal → Prop where
  | piece (bytes : Bytes) :
      TerminalMove comm s (.piece bytes) { s with available := s.available ++ bytes }
  | line (time : Timeval) (during : List Bytes) (line rest : Bytes) (config : Config)
      (havailable : s.available ≠ [])
      (hread : readLine newline (s.stream ++ s.available) during = some (line, rest))
      (hstep : step comm s.config ⟨time, .wake (.ready none (some (.line line)))⟩ = some config) :
      TerminalMove comm s (.line time during) ⟨config, [], rest⟩
  | other (l : Label) (config : Config) (hstep : step comm s.config l = some config) :
      TerminalMove comm s (.other l) { s with config := config }

theorem terminalStep_move (h : terminalStep comm s l = some s') : TerminalMove comm s l s' := by
  cases l with
  | piece bytes =>
      obtain rfl := Option.some.inj h
      exact .piece bytes
  | line time during =>
      simp only [terminalStep] at h
      split at h
      case isTrue hwatched =>
        rw [Bool.and_eq_true, bne_iff_ne] at hwatched
        obtain ⟨⟨line, rest⟩, hread, h⟩ := Option.bind_eq_some_iff.mp h
        obtain ⟨config, hstep, h⟩ := Option.bind_eq_some_iff.mp h
        obtain rfl := Option.some.inj h
        exact .line time during line rest config hwatched.2 hread hstep
      case isFalse => cases h
  | other l =>
      simp only [terminalStep] at h
      split at h
      case isTrue => cases h
      case isFalse =>
        obtain ⟨config, hstep, h⟩ := Option.bind_eq_some_iff.mp h
        obtain rfl := Option.some.inj h
        exact .other l config hstep

/-- getline leaves no complete line behind if it meets one line only. -/
theorem stream_step (hstream : newline ∉ s.stream) (hone : MeetsOneLine s l)
    (h : terminalStep comm s l = some s') : newline ∉ s'.stream := by
  cases terminalStep_move h with
  | piece bytes => exact hstream
  | line time during line rest config havailable hread hstep =>
      have hcount := count_rest hread
      have hle : (s.stream ++ s.available ++ during.flatten).count newline ≤ 1 := hone
      have hzero : rest.count newline = 0 := by omega
      exact List.count_eq_zero.mp hzero
  | other l config hstep => exact hstream

end Steps

/-! ## Runs -/

section Runs

variable {comm : Comm} {s s' : Terminal} {ls : List TerminalLabel}

/-- A run between descriptor and stream is a run of the main thread. -/
theorem machine_run (h : runFrom (terminalStep comm) s ls = some s') :
    ∃ ls', runFrom (step comm) s.config ls' = some s'.config := by
  have hrun : ∃ ls', runFrom (step comm) s.config ls' = some s'.config :=
    runFrom_invariant (I := fun _ t => ∃ ls', runFrom (step comm) s.config ls' = some t.config)
      ⟨[], rfl⟩ (by
        rintro before t l t' ⟨ls', hbefore⟩ hstep
        cases terminalStep_move hstep with
        | piece bytes => exact ⟨ls', hbefore⟩
        | line time during line rest config _ _ hmachine =>
            exact ⟨_, runFrom_trans hbefore (runFrom_single hmachine)⟩
        | other l config hmachine =>
            exact ⟨_, runFrom_trans hbefore (runFrom_single hmachine)⟩) h
  exact hrun

/-- A line that waits in the stream is not read until more is typed. -/
theorem stranded_until_piece (havailable : s.available = [])
    (hpiece : ∀ l ∈ ls, ∀ bytes, l ≠ .piece bytes)
    (h : runFrom (terminalStep comm) s ls = some s') : s'.stream = s.stream := by
  have hquiet : EveryStep (terminalStep comm) s (fun _ _ l => ∀ bytes, l ≠ .piece bytes) ls := by
    intro before l after t hsplit _
    apply hpiece l
    rw [hsplit]
    exact List.mem_append_right before List.mem_cons_self
  have hkept : s'.stream = s.stream ∧ s'.available = [] :=
    hquiet.invariant (I := fun _ t => t.stream = s.stream ∧ t.available = [])
      ⟨rfl, havailable⟩ (by
        intro before t l t' hkept hl hstep
        cases terminalStep_move hstep with
        | piece bytes => exact absurd rfl (hl bytes)
        | line time during line rest config hne => exact absurd hkept.2 hne
        | other l config _ => exact hkept) h
  exact hkept.1

/-- In every run in which no call of getline meets a second line, no complete line is
left in the stream when select waits for the user. -/
theorem no_stranded_line {client : Client} {retransmissions : UInt8}
    (hone : OneLineAtATime comm (terminal client retransmissions) ls) :
    NoStrandedLine comm (terminal client retransmissions) ls := by
  intro before after s hsplit hrun _
  rw [hsplit] at hone
  exact EveryStep.invariant (I := fun _ t => newline ∉ t.stream) hone.left (List.not_mem_nil)
    (fun _ _ _ _ hstream hl hstep => stream_step hstream hl hstep) hrun

end Runs

/-! ## Two lines at once -/

/-- A round in which the client reads what was typed and refuses it or shows the help. -/
def helpRound : List TerminalLabel :=
  [.other (now .test), .other (now (.check {})), .other (now .select), .line ⟨0, 0⟩ [],
    .other (now (.act (.udp true [])))]

/-- One line at a time, as in a conversation. -/
theorem no_stranded_line_help :
    NoStrandedLine udpComm (terminal sampleClient 3)
      (.piece (ascii "/help\n") :: helpRound ++ .piece (ascii "/help\n") :: helpRound) := by
  apply no_stranded_line
  unfold OneLineAtATime
  decide +kernel

/-- Two lines at once: the second waits in the stream while select blocks. -/
def pastedLines : List TerminalLabel :=
  .piece (ascii "/help\n/help\n") :: helpRound ++
    [.other (now .test), .other (now (.check {})), .other (now .select)]

theorem second_line_stranded :
    ¬ NoStrandedLine udpComm (terminal sampleClient 3) pastedLines := by
  intro hnone
  obtain ⟨s, hrun, hwaits, hstream⟩ : ∃ s, runFrom (terminalStep udpComm) (terminal sampleClient 3)
      pastedLines = some s ∧ waitsForUser s = true ∧ s.stream = ascii "/help\n" := by
    refine ⟨_, rfl, ?_, ?_⟩
    · decide +kernel
    · decide +kernel
  have habsent := hnone pastedLines [] s (List.append_nil _).symm hrun hwaits
  rw [hstream] at habsent
  exact habsent (by decide)

end IpkChat.Session
