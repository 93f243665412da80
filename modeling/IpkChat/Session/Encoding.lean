/-
  Session/Encoding.lean --- what a session sends over TCP.

  The fields that messages are built from come from the lines of the user, which
  parse_user_input checks.  Along a session the display name stays valid, and
  whenever a message is sent the other fields it carries have just been checked;
  so every line sent is one that Tcp/Encoding.lean speaks of.
-/
import IpkChat.Session.Rounds
import IpkChat.Tcp.Encoding

set_option autoImplicit false

namespace IpkChat.Session

open IpkChat.Foundation IpkChat.Core IpkChat.Tcp IpkChat.Udp

/-! ## Reading the history -/

/-- A message that was handed to send, and the client it was built from. -/
structure Transmission where
  type : MsgType
  client : Client
  msg : Bytes
  deriving DecidableEq, Repr

/-- The transmission that an event is. -/
def transmissionOf : Event → Option Transmission
  | .transmit type client m => some ⟨type, client, m⟩
  | _ => none

/-- The messages sent, in order. -/
abbrev transmissions (h : List Event) : List Transmission := h.filterMap transmissionOf

/-- The message was built from fields that are valid for its type. -/
def Transmission.Built (t : Transmission) : Prop :=
  Sendable t.client t.type ∧ tcpBuildMsg t.client t.type = some t.msg

/-! ## Reading a line of the user -/

/-- Nothing is sent, and the client can still send. -/
structure Keeps (w w' : World) : Prop where
  transmissions_eq : transmissions w'.trace = transmissions w.trace
  name : NameValid w.client → NameValid w'.client

section Keeps

variable {w w' w'' : World}

theorem Keeps.refl (w : World) : Keeps w w := ⟨rfl, id⟩

theorem Keeps.trans (h : Keeps w w') (h' : Keeps w' w'') : Keeps w w'' :=
  ⟨h'.transmissions_eq.trans h.transmissions_eq, fun hn => h'.name (h.name hn)⟩

theorem keeps_emit (w : World) {e : Event} (he : transmissionOf e = none) : Keeps w (w.emit e) :=
  ⟨by simp [transmissions, he], id⟩

theorem keeps_print (w : World) (o : Output) : Keeps w (w.print o) := keeps_emit w rfl

theorem keeps_printParsed (w : World) (p : Parsed) : Keeps w (w.printParsed p) := by
  unfold World.printParsed
  split
  · exact Keeps.refl w
  · exact keeps_print w _

end Keeps

/-- The message the user asks for can be sent. -/
structure Asks (w : World) (res : World × MsgType) : Prop where
  keeps : Keeps w res.1
  sendable : NameValid w.client → res.2 = .auth ∨ res.2 = .join ∨ res.2 = .msg →
    Sendable res.1.client res.2

theorem asks_nothing {w w' : World} {type : MsgType} (h : Keeps w w')
    (htype : type = .local_ ∨ type = .error) : Asks w (w', type) :=
  ⟨h, fun _ ht => by rcases htype with rfl | rfl <;> simp at ht⟩

theorem asks_print (w : World) (o : Output) : Asks w (w.print o, .local_) :=
  asks_nothing (keeps_print w o) (Or.inl rfl)

/-- A string that passes a validator is copied whole. -/
theorem copy_valid {accepts : UInt8 → Bool} {s : Bytes} {n : Nat}
    (h : isValidString accepts s n = true) : copy s (n + zeroByte) = s :=
  copy_eq_self (Nat.lt_succ_of_le (isValidString_iff.mp h).1.2)

theorem asks_parseAuth (w : World) (args : List Bytes) : Asks w (parseAuth w args) := by
  rw [parseAuth_eq]
  split
  · rename_i username secret displayName
    split
    · rename_i hvalid
      simp only [Bool.and_eq_true] at hvalid
      obtain ⟨⟨husername, hsecret⟩, hname⟩ := hvalid
      have hname' : NameValid { w.client with
          displayName := copy displayName (maxNameSize + zeroByte) } := by
        rw [NameValid, copy_valid (n := maxNameSize) hname]
        exact hname
      refine ⟨⟨rfl, fun _ => hname'⟩, fun _ _ => ⟨?_, ?_, hname'⟩⟩
      · rw [copy_valid husername]
        exact husername
      · rw [copy_valid hsecret]
        exact hsecret
    · exact asks_print w _
  · exact asks_print w _

theorem asks_parseJoin (w : World) (args : List Bytes) : Asks w (parseJoin w args) := by
  rw [parseJoin_eq]
  split
  · rename_i channelID
    split
    · rename_i hvalid
      refine ⟨⟨rfl, id⟩, fun hname _ => ⟨?_, hname⟩⟩
      rw [copy_valid hvalid]
      exact hvalid
    · exact asks_print w _
  · exact asks_print w _

theorem asks_parseRename (w : World) (args : List Bytes) : Asks w (parseRename w args) := by
  rw [parseRename_eq]
  split
  · rename_i displayName
    split
    · rename_i hvalid
      refine asks_nothing ⟨rfl, fun _ => ?_⟩ (Or.inl rfl)
      rw [NameValid, copy_valid hvalid]
      exact hvalid
    · exact asks_print w _
  · exact asks_print w _

theorem asks_parseHelp (w : World) (args : List Bytes) : Asks w (parseHelp w args) := by
  rw [parseHelp_eq]
  split <;> exact asks_print w _

/-- Content that is cut at MAX_MSG_SIZE stays valid. -/
theorem isValidMsgContent_take {line : Bytes} (h : isValidMsgContent line bufferSize = true) :
    isValidMsgContent (line.take maxMsgSize) maxMsgSize = true := by
  obtain ⟨⟨hpos, -⟩, hall⟩ := isValidMsgContent_iff.mp h
  refine isValidMsgContent_iff.mpr ⟨⟨?_, ?_⟩, fun c hc => hall c (List.mem_of_mem_take hc)⟩
  · rw [List.length_take]
    exact Nat.le_min.mpr ⟨by decide, hpos⟩
  · rw [List.length_take]
    exact Nat.min_le_left _ _

theorem asks_parseContent (w : World) (line : Bytes) : Asks w (parseContent w line) := by
  unfold parseContent
  split
  · exact asks_print w _
  · rename_i hvalid
    simp only [Bool.not_eq_true, Bool.not_eq_false'] at hvalid
    have htake := isValidMsgContent_take hvalid
    split
    rename_i w' line' heq
    split at heq
    · obtain ⟨rfl, rfl⟩ := Prod.mk.inj heq
      refine ⟨⟨(keeps_print w _).transmissions_eq, id⟩, fun hname _ => ⟨?_, hname⟩⟩
      rw [copy_valid htake]
      exact htake
    · rename_i hshort
      obtain ⟨rfl, rfl⟩ := Prod.mk.inj heq
      rw [List.take_of_length_le (Nat.le_of_not_lt hshort)] at htake
      refine ⟨⟨rfl, id⟩, fun hname _ => ⟨?_, hname⟩⟩
      rw [copy_valid htake]
      exact htake

theorem asks_parseUserInput (w : World) (input : Getline) : Asks w (parseUserInput w input) := by
  cases input with
  | eof => exact asks_nothing ⟨rfl, id⟩ (Or.inl rfl)
  | failed => exact asks_nothing (Keeps.refl w) (Or.inr rfl)
  | line bytes =>
      have hdispatched := parseUserInput_dispatched w bytes
      generalize parseUserInput w (.line bytes) = result at hdispatched ⊢
      cases hdispatched with
      | auth args => exact asks_parseAuth w args
      | join args => exact asks_parseJoin w args
      | rename args => exact asks_parseRename w args
      | help args => exact asks_parseHelp w args
      | unknown => exact asks_print w _
      | content => exact asks_parseContent w _

/-! ## await -/

/-- Receiving sends nothing and leaves the display name valid. -/
structure KeepsComm (comm : Comm) : Prop where
  recv : ∀ w a, Keeps w (comm.recvMsg w a).1
  check : ∀ w c, Keeps w (comm.checkPreviousMsg w c).1

theorem keeps_buffer (w : World) (b : MsgBuffer) : Keeps w { w with msgBuffer := b } := ⟨rfl, id⟩

theorem keepsComm_tcp : KeepsComm tcpComm where
  recv w a := by
    simp only [tcpComm, tcpRecvMsg]
    split
    · split
      · exact (keeps_buffer w _).trans (keeps_print _ _)
      · split
        · exact (keeps_buffer w _).trans (keeps_printParsed _ _)
        · exact keeps_buffer w _
    · exact keeps_print w _
  check w c := by
    simp only [tcpComm, tcpCheckPrevious]
    split
    · exact (keeps_buffer w _).trans (keeps_printParsed _ _)
    · exact keeps_buffer w _

theorem keeps_enterSelect (s : AwaitScript) (w : World) (k : Nat) :
    Keeps w (enterSelect s w k) := by
  simp only [enterSelect]
  split
  · exact (keeps_emit w rfl).trans (keeps_emit _ rfl)
  · exact keeps_emit w rfl

/-- A prompt of the user is one that can be sent. -/
structure Prompts (w w' : World) (prompt : Option Prompt) : Prop where
  keeps : Keeps w w'
  sendable : NameValid w.client → ∀ type, prompt = some ⟨.user, type⟩ →
    type = .auth ∨ type = .join ∨ type = .msg → Sendable w'.client type

theorem prompts_server {w w' : World} (h : Keeps w w') (type : MsgType) :
    Prompts w w' (some ⟨.server, type⟩) :=
  ⟨h, fun _ _ hp => by cases hp⟩

theorem awaitLoop_prompts {comm : Comm} (hcomm : KeepsComm comm) (s : AwaitScript)
    (incomplete : Bool) {w w₁ : World} (h : Keeps w w₁) (type : MsgType) (k : Nat)
    (results : List SelectResult) :
    Prompts w (awaitLoop comm s incomplete w₁ type k results).1
      (awaitLoop comm s incomplete w₁ type k results).2 := by
  refine awaitLoop_rule (I := Keeps w) (E := Keeps w)
    (fun w' k h' => h'.trans (keeps_enterSelect s w' k)) (fun _ h' => h')
    (fun w' h' => ⟨h', fun _ _ hp => by cases hp⟩) (fun w' type h' => prompts_server h' type)
    (fun w' h' _ => prompts_server ((h'.trans (keeps_print w' _)).trans (keeps_emit _ rfl)) _)
    (fun w' a h' _ => h'.trans (hcomm.recv w' a))
    (fun w' a h' _ => prompts_server (h'.trans (hcomm.recv w' a)) _)
    (fun w' line h' _ _ => ?_) results w₁ type k h
  have hasks := asks_parseUserInput w' line
  refine ⟨h'.trans hasks.keeps, fun hname t hp ht => ?_⟩
  obtain rfl : (parseUserInput w' line).2 = t := by cases hp; rfl
  exact hasks.sendable (h'.name hname) ht

theorem await_prompts {comm : Comm} (hcomm : KeepsComm comm) (s : AwaitScript) (w : World) :
    Prompts w (await comm s w).1 (await comm s w).2 := by
  have hemit : Keeps w (w.emit (.await w.toGlobals)) := keeps_emit w rfl
  have hcheck := hemit.trans (hcomm.check (w.emit (.await w.toGlobals)) s.check)
  exact await_rule w (fun type _ _ => prompts_server hcheck type)
    fun _ incomplete type => awaitLoop_prompts hcomm s incomplete hcheck type 0 s.results

/-! ## Rounds -/

/-- Every message sent so far was built from valid fields. -/
def AllBuilt (w : World) : Prop := ∀ t ∈ transmissions w.trace, t.Built

/-- The state of a session in which the next message can be sent as well. -/
structure Speaks (w : World) : Prop where
  built : AllBuilt w
  name : NameValid w.client

theorem Speaks.keeps {w w' : World} (hw : Speaks w) (h : Keeps w w') : Speaks w' :=
  ⟨by rw [AllBuilt, h.transmissions_eq]; exact hw.built, h.name hw.name⟩

/-- SEND hands over a message whose fields are valid. -/
theorem send_speaks {script : AwaitScript} {alloc sent : Bool} {w : World} {type : MsgType}
    {next : World → World × Option ExitCode} (hw : Speaks w) (hs : Sendable w.client type)
    (hnext : ∀ w', Speaks w' → Speaks (next w').1) :
    Speaks (send (tcpEnv script alloc sent) w type next).1 := by
  have hsent : Speaks ((tcpEnv script alloc sent).sendMsg (w.emit (.sendMsg type)) type).1 := by
    have hw' : Speaks (w.emit (.sendMsg type)) := hw.keeps (keeps_emit (e := .sendMsg type) w rfl)
    simp only [tcpEnv, tcpSendMsg]
    split
    · exact hw'
    · rename_i m hm
      have hbuilt : tcpBuildMsg w.client type = some m := by
        split at hm
        · exact hm
        · cases hm
      refine ⟨fun t ht => ?_, hw'.name⟩
      rw [World.emit_trace, transmissions, List.filterMap_append, List.mem_append] at ht
      rcases ht with ht | ht
      · exact hw'.built t ht
      · obtain rfl := List.mem_singleton.mp ht
        exact ⟨hs, hbuilt⟩
  have hturn := send_turn (tcpEnv script alloc sent) w type next
  generalize send (tcpEnv script alloc sent) w type next = res at hturn
  cases hturn with
  | waiting w' hsend =>
      rw [hsend] at hsent
      exact hsent
  | failed w' hsend =>
      rw [hsend] at hsent
      exact hsent.keeps (keeps_print w' _)
  | sent w' hsend =>
      rw [hsend] at hsent
      exact hnext w' hsent

theorem Speaks.goto {w : World} (hw : Speaks w) (next : Option FsmState) :
    Speaks (goto next w) := by
  cases next with
  | none => exact hw
  | some state => exact ⟨hw.built, hw.name⟩

/-- The content of an ERR is fixed, and valid. -/
theorem sendable_err {w : World} (hw : Speaks w) {state : FsmState} {prompt : Prompt}
    {content : String} (hreact : react state prompt = .refuse content) :
    Sendable { w.client with msgContent := copy (ascii content) (maxMsgSize + zeroByte) } .err := by
  have hcontent : isValidMsgContent (copy (ascii content) (maxMsgSize + zeroByte)) maxMsgSize =
      true := by
    rcases react_refuse_content hreact with rfl | rfl <;> decide
  exact ⟨hcontent, hw.name⟩

theorem perform_speaks {script : AwaitScript} {alloc sent : Bool} {state : FsmState} {w : World}
    {prompt : Prompt} (hw : Speaks w)
    (hask : ∀ type, prompt = ⟨.user, type⟩ → type = .auth ∨ type = .join ∨ type = .msg →
      Sendable w.client type) :
    Speaks (perform (tcpEnv script alloc sent) w prompt (react state prompt)).1 := by
  cases hreact : react state prompt with
  | stop => exact hw
  | stay printed =>
      cases printed with
      | none => exact hw
      | some o => exact hw.keeps (keeps_print w o)
  | leave => exact ⟨hw.built, hw.name⟩
  | settle next =>
      have hsettled : Speaks (settle w prompt.type) :=
        hw.keeps ⟨(keeps_emit w rfl).transmissions_eq, id⟩
      exact hsettled.goto next
  | request type next =>
      obtain ⟨rfl, hcases⟩ := react_request hreact
      have htype : type = .auth ∨ type = .join ∨ type = .msg := by
        rcases hcases with ⟨-, rfl, -⟩ | ⟨-, rfl, -⟩ | ⟨-, rfl, -⟩ <;> simp
      have hs := hask type rfl htype
      exact send_speaks (w := { w with processing := true }) ⟨hw.built, hw.name⟩ hs
        fun w' hw' => hw'.goto next
  | chat =>
      obtain ⟨-, rfl⟩ := react_chat hreact
      exact send_speaks hw (hask .msg rfl (by simp)) fun w' hw' => hw'
  | refuse content =>
      have hs := sendable_err hw hreact
      refine send_speaks (w := { w with client := { w.client with
        msgContent := copy (ascii content) (maxMsgSize + zeroByte) } }) ⟨hw.built, hw.name⟩ hs
          fun w' hw' => ?_
      simp only
      split
      · exact hw'.keeps (keeps_print w' _)
      · exact hw'

theorem round_speaks {r : Round} {script : AwaitScript} {alloc sent : Bool}
    (henv : r.env = tcpEnv script alloc sent) {state : FsmState} {w : World}
    (hne : state ≠ .interupt) (hw : Speaks w) :
    Speaks (runState r.env (enterRound r w state).2 (enterRound r w state).1).1 := by
  have hentered : ∀ w₀, Entered w w₀ → Speaks w₀ := by
    rintro w₀ (rfl | rfl)
    · exact hw
    · exact ⟨hw.built, hw.name⟩
  have hturn := round_turn r w hne
  generalize runState r.env (enterRound r w state).2 (enterRound r w state).1 = res at hturn
  rw [henv] at hturn
  cases hturn with
  | interrupted w₀ hentry hidle =>
      have hw₀ := hentered w₀ hentry
      exact send_speaks (w := { w₀ with state := some .interupt }) ⟨hw₀.built, hw₀.name⟩ hw₀.name
        fun w' hw' => ⟨hw'.built, hw'.name⟩
  | waiting w₀ w' hentry hawait =>
      have hp := await_prompts keepsComm_tcp script w₀
      rw [show await tcpComm script w₀ = (w', none) from hawait] at hp
      exact (hentered w₀ hentry).keeps hp.keeps
  | prompted w₀ w' prompt hentry hawait =>
      have hw₀ := hentered w₀ hentry
      have hp := await_prompts keepsComm_tcp script w₀
      rw [show await tcpComm script w₀ = (w', some prompt) from hawait] at hp
      have hw' : Speaks w' := hw₀.keeps hp.keeps
      refine perform_speaks (hw'.keeps (keeps_emit w' rfl)) fun type htype ht => ?_
      subst htype
      exact hp.sendable hw₀.name type rfl ht

/-! ## Sessions -/

/-- One round of the loop over TCP. -/
structure TcpRound where
  sigint : Bool := false
  script : AwaitScript
  alloc : Bool := true
  sent : Bool := true

/-- The round, with the TCP variant as its surroundings. -/
def TcpRound.toRound (r : TcpRound) : Round := ⟨r.sigint, tcpEnv r.script r.alloc r.sent⟩

/-- The messages of a session over TCP. -/
def tcpSent (client : Client) (retransmissions : UInt8) (rounds : List TcpRound) :
    List Transmission :=
  transmissions (fsm (World.init client retransmissions) (rounds.map TcpRound.toRound)).1.trace

/-- The name that fsm gives the client is valid. -/
theorem nameValid_fsmInit (w : World) : NameValid (fsmInit w).client := by
  have h : isValidPrintable (copy (ascii "unknown") (maxNameSize + zeroByte)) maxNameSize =
      true := by
    decide
  exact h

/-- Every message of a session was built from fields that are valid for it. -/
theorem tcpSent_built (client : Client) (retransmissions : UInt8) (rounds : List TcpRound) :
    ∀ t ∈ tcpSent client retransmissions rounds, t.Built := by
  have hok : ∀ r ∈ rounds.map TcpRound.toRound,
      ∃ script alloc sent, r.env = tcpEnv script alloc sent := by
    intro r hr
    obtain ⟨r', -, rfl⟩ := List.mem_map.mp hr
    exact ⟨r'.script, r'.alloc, r'.sent, rfl⟩
  refine fsm_preserves (I := Speaks) (J := AllBuilt) ?_ (fun w hw => hw.built) ?_ hok ?_
  · rintro r ⟨script, alloc, sent, henv⟩
    exact henv ▸ tcpEnv_admissible script alloc sent
  · rintro r state w ⟨script, alloc, sent, henv⟩ hw - hne
    have hround := round_speaks henv hne hw
    exact ⟨hround.built, fun _ => hround⟩
  · exact ⟨fun t ht => (List.not_mem_nil ht).elim, nameValid_fsmInit _⟩

/-- The messages sent over TCP are lines that the stream keeps apart, that decode to
what they were built from, and that differ where their fields do. -/
theorem tcp_encoding (client : Client) (retransmissions : UInt8) (rounds : List TcpRound) :
    (∀ t ∈ tcpSent client retransmissions rounds,
      tcpBuildMsg t.client t.type = some t.msg ∧ OneCrlf t.msg ∧ Decodes t.client t.type t.msg) ∧
    frames crlfBytes ((tcpSent client retransmissions rounds).map (·.msg)).flatten =
      ((tcpSent client retransmissions rounds).map (·.msg), []) ∧
    ∀ t ∈ tcpSent client retransmissions rounds, ∀ u ∈ tcpSent client retransmissions rounds,
      t.msg = u.msg → t.type = u.type ∧ fields t.client t.type = fields u.client u.type := by
  have hbuilt := tcpSent_built client retransmissions rounds
  generalize tcpSent client retransmissions rounds = ts at hbuilt
  refine ⟨fun t ht => ?_, frames_flatten (by decide) fun m hm => ?_, fun t ht u hu heq => ?_⟩
  · obtain ⟨hs, hm⟩ := hbuilt t ht
    exact ⟨hm, oneCrlf_of_sendable hs hm, decodes_of_sendable hs hm⟩
  · obtain ⟨t, ht, rfl⟩ := List.mem_map.mp hm
    obtain ⟨hs, hm⟩ := hbuilt t ht
    exact (oneCrlf_of_sendable hs hm).isFrame
  · obtain ⟨hs, hm⟩ := hbuilt t ht
    obtain ⟨hs', hm'⟩ := hbuilt u hu
    exact fields_eq_of_line_eq hs hs' hm (heq ▸ hm')

/-- The user authenticates, and the server closes the connection. -/
def closedSession : List TcpRound :=
  [{ script := { results := [.ready none (some (.line (ascii "/auth u s n")))] } },
   { script := { results := [.ready (some { result := .data default [] .eagain }) none] } }]

example : (tcpSent sampleClient 3 closedSession).map (·.msg) =
    [ascii "AUTH u AS n USING s\r\n", ascii "ERR FROM n IS Server is not responding\r\n"] := by
  decide +kernel

end IpkChat.Session
