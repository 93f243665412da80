/-
  Session/Identity.lean --- what a refused line of the user leaves behind.

  The parser of a command stores its arguments before the state function decides
  whether the command is allowed.  So a well-formed /auth or /join that the state
  does not allow is refused with an error, and its arguments stay.  Every other
  line that is refused leaves the identity of the client as it was.
-/
import IpkChat.Session.Reached
import IpkChat.Session.Encoding
import IpkChat.Udp.Order

set_option autoImplicit false

namespace IpkChat.Session

open IpkChat.Foundation IpkChat.Core IpkChat.Tcp IpkChat.Udp

/-! ## Identity and refusal -/

/-- Who the user is, in the messages sent later. -/
structure Identity where
  username : Bytes
  secret : Bytes
  displayName : Bytes
  channelID : Bytes
  deriving DecidableEq, Repr

/-- The fields of the client that an AUTH or a JOIN sets. -/
def identity (c : Client) : Identity := ⟨c.username, c.secret, c.displayName, c.channelID⟩

/-- A line that begins with "ERROR: " and does not come from the server. -/
def isErrorLine : Event → Bool
  | .print (.error _) => true
  | _ => false

/-- A message is handed to send_msg. -/
def isSend : Event → Bool
  | .sendMsg _ => true
  | _ => false

/-- What happened between two worlds. -/
def eventsBetween (w w' : World) : List Event := w'.trace.drop w.trace.length

/-- An error line was printed and nothing was sent. -/
def Rejected (w w' : World) : Prop :=
  (eventsBetween w w').any isErrorLine = true ∧ (eventsBetween w w').any isSend = false

instance (w w' : World) : Decidable (Rejected w w') := inferInstanceAs (Decidable (_ ∧ _))

/-! ## Lines that set the identity -/

/-- A complete and valid /auth. -/
structure AuthLine (line username secret displayName : Bytes) : Prop where
  tokens : strtok (stripNewline line) = [ascii "/auth", username, secret, displayName]
  username_valid : isValidAlphanumUnderscore username maxNameSize = true
  secret_valid : isValidAlphanumUnderscore secret maxSecretSize = true
  displayName_valid : isValidPrintable displayName 20 = true

/-- A complete and valid /join. -/
structure JoinLine (line channelID : Bytes) : Prop where
  tokens : strtok (stripNewline line) = [ascii "/join", channelID]
  channelID_valid : isValidAlphanumUnderscore channelID maxNameSize = true

/-- The line is a command that `state` does not allow, and its arguments are not what
the client holds already. -/
def Leaks (state : FsmState) (c : Client) (line : Bytes) : Prop :=
  (state = .open_ ∧ ∃ username secret displayName, AuthLine line username secret displayName ∧
    (username, secret, displayName) ≠ (c.username, c.secret, c.displayName)) ∨
  ((state = .start ∨ state = .auth) ∧ ∃ channelID, JoinLine line channelID ∧
    channelID ≠ c.channelID)

/-- The line is neither of the two. -/
structure Plain (line : Bytes) : Prop where
  not_auth : ∀ username secret displayName, ¬ AuthLine line username secret displayName
  not_join : ∀ channelID, ¬ JoinLine line channelID

/-- Everything that reading a line can do. -/
inductive LineOutcome (w : World) (line : Bytes) : World × MsgType → Prop where
  | auth (username secret displayName : Bytes)
      (hline : AuthLine line username secret displayName) :
      LineOutcome w line ({ w with client := { w.client with
        username := username, secret := secret, displayName := displayName } }, .auth)
  | join (channelID : Bytes) (hline : JoinLine line channelID) :
      LineOutcome w line ({ w with client := { w.client with channelID := channelID } }, .join)
  | rename (displayName : Bytes) (hline : Plain line) :
      LineOutcome w line ({ w with client := { w.client with displayName := displayName } },
        .local_)
  | kept (client : Client) (printed : List Output) (type : MsgType)
      (hclient : identity client = identity w.client) (htype : type = .local_ ∨ type = .msg)
      (hline : Plain line) :
      LineOutcome w line
        ({ w with client := client, trace := w.trace ++ printed.map Event.print }, type)

section Lines

variable {w : World} {line : Bytes}

/-- They are all there are, if these are few. -/
theorem strtok_eq_of_tokensOf {tokens : List Bytes} (h : tokensOf line = tokens)
    (hlt : tokens.length < 5) : strtok (stripNewline line) = tokens := by
  unfold tokensOf at h
  have hlength : (strtok (stripNewline line)).length ≤ 5 := by
    have hmin := congrArg List.length h
    rw [List.length_take] at hmin
    omega
  rw [← h, List.take_of_length_le hlength]

theorem AuthLine.tokensOf_eq {u s n : Bytes} (h : AuthLine line u s n) :
    tokensOf line = [ascii "/auth", u, s, n] := by
  rw [tokensOf, h.tokens]
  rfl

theorem JoinLine.tokensOf_eq {ch : Bytes} (h : JoinLine line ch) :
    tokensOf line = [ascii "/join", ch] := by
  rw [tokensOf, h.tokens]
  rfl

/-- The first token tells the commands apart. -/
theorem plain_of_cons {token : Bytes} {args : List Bytes} (h : tokensOf line = token :: args)
    (hauth : token ≠ ascii "/auth") (hjoin : token ≠ ascii "/join") : Plain line := by
  constructor
  · intro u s n h'
    rw [h'.tokensOf_eq] at h
    exact hauth (List.cons.inj h).1.symm
  · intro ch h'
    rw [h'.tokensOf_eq] at h
    exact hjoin (List.cons.inj h).1.symm

theorem plain_of_content (h : ∀ token ∈ (tokensOf line).head?, token.head? ≠ some 0x2F) :
    Plain line := by
  constructor
  · intro u s n h'
    rw [h'.tokensOf_eq] at h
    exact h _ rfl rfl
  · intro ch h'
    rw [h'.tokensOf_eq] at h
    exact h _ rfl rfl

theorem lineOutcome_print (text : String) (hline : Plain line) :
    LineOutcome w line (w.print (.error text), .local_) :=
  .kept w.client [.error text] .local_ rfl (Or.inl rfl) hline

section Command

variable {args : List Bytes}

/-- With /auth as its first token, a line is a /auth exactly if its other tokens are
three valid arguments. -/
theorem authLine_iff (h : tokensOf line = ascii "/auth" :: args) {u s n : Bytes} :
    AuthLine line u s n ↔ args = [u, s, n] ∧
      (isValidAlphanumUnderscore u maxNameSize && isValidAlphanumUnderscore s maxSecretSize &&
        isValidPrintable n 20) = true := by
  simp only [Bool.and_eq_true]
  constructor
  · intro hline
    rw [hline.tokensOf_eq] at h
    exact ⟨(List.cons.inj h).2.symm,
      ⟨hline.username_valid, hline.secret_valid⟩, hline.displayName_valid⟩
  · intro ⟨hargs, ⟨hu, hs⟩, hn⟩
    rw [hargs] at h
    exact ⟨strtok_eq_of_tokensOf h (Nat.lt_succ_self 4), hu, hs, hn⟩

theorem joinLine_iff (h : tokensOf line = ascii "/join" :: args) {ch : Bytes} :
    JoinLine line ch ↔ args = [ch] ∧ isValidAlphanumUnderscore ch maxNameSize = true := by
  constructor
  · intro hline
    rw [hline.tokensOf_eq] at h
    exact ⟨(List.cons.inj h).2.symm, hline.channelID_valid⟩
  · intro ⟨hargs, hch⟩
    rw [hargs] at h
    exact ⟨strtok_eq_of_tokensOf h (by simp), hch⟩

/-- The first token tells a /auth from a /join. -/
theorem not_joinLine_of_auth (h : tokensOf line = ascii "/auth" :: args) (ch : Bytes) :
    ¬ JoinLine line ch := by
  intro hline
  rw [hline.tokensOf_eq] at h
  exact absurd (List.cons.inj h).1 (by decide)

theorem not_authLine_of_join (h : tokensOf line = ascii "/join" :: args) (u s n : Bytes) :
    ¬ AuthLine line u s n := by
  intro hline
  rw [hline.tokensOf_eq] at h
  exact absurd (List.cons.inj h).1 (by decide)

/-- parse_auth takes a complete and valid /auth, and refuses any other. -/
theorem parseAuth_cases (h : tokensOf line = ascii "/auth" :: args) :
    (∃ u s n, AuthLine line u s n ∧ parseAuth w args = ({ w with client := { w.client with
        username := u, secret := s, displayName := n } }, .auth)) ∨
      Plain line ∧ parseAuth w args = (w.print (.error "Invalid /auth"), .local_) := by
  have hjoin := not_joinLine_of_auth h
  rw [parseAuth_eq]
  split
  · rename_i username secret displayName
    split
    · rename_i hvalid
      have hline := (authLine_iff h).mpr ⟨rfl, hvalid⟩
      left
      rw [copy_valid hline.username_valid, copy_valid hline.secret_valid,
        copy_valid (n := maxNameSize) hline.displayName_valid]
      exact ⟨username, secret, displayName, hline, rfl⟩
    · rename_i hinvalid
      refine Or.inr ⟨⟨?_, hjoin⟩, rfl⟩
      intro u s n hline
      obtain ⟨hargs, hvalid⟩ := (authLine_iff h).mp hline
      simp only [List.cons.injEq, and_true] at hargs
      obtain ⟨rfl, rfl, rfl⟩ := hargs
      exact hinvalid hvalid
  · rename_i hcount
    refine Or.inr ⟨⟨?_, hjoin⟩, rfl⟩
    intro u s n hline
    exact hcount u s n ((authLine_iff h).mp hline).1

theorem parseJoin_cases (h : tokensOf line = ascii "/join" :: args) :
    (∃ ch, JoinLine line ch ∧
        parseJoin w args = ({ w with client := { w.client with channelID := ch } }, .join)) ∨
      Plain line ∧ parseJoin w args = (w.print (.error "Invalid /join"), .local_) := by
  have hauth := not_authLine_of_join h
  rw [parseJoin_eq]
  split
  · rename_i channelID
    split
    · rename_i hvalid
      left
      rw [copy_valid hvalid]
      exact ⟨channelID, (joinLine_iff h).mpr ⟨rfl, hvalid⟩, rfl⟩
    · rename_i hinvalid
      refine Or.inr ⟨⟨hauth, ?_⟩, rfl⟩
      intro ch hline
      obtain ⟨hargs, hvalid⟩ := (joinLine_iff h).mp hline
      obtain rfl : channelID = ch := (List.cons.inj hargs).1
      exact hinvalid hvalid
  · rename_i hcount
    refine Or.inr ⟨⟨hauth, ?_⟩, rfl⟩
    intro ch hline
    exact hcount ch ((joinLine_iff h).mp hline).1

theorem lineOutcome_rename (args : List Bytes) (hline : Plain line) :
    LineOutcome w line (parseRename w args) := by
  rw [parseRename_eq]
  split
  · split
    · exact .rename _ hline
    · exact lineOutcome_print "Invalid /rename" hline
  · exact lineOutcome_print "Invalid /rename" hline

theorem lineOutcome_help (args : List Bytes) (hline : Plain line) :
    LineOutcome w line (parseHelp w args) := by
  rw [parseHelp_eq]
  split
  · exact .kept w.client [.clientHelp] .local_ rfl (Or.inl rfl) hline
  · exact lineOutcome_print "Invalid /help" hline

end Command

theorem lineOutcome_content (hline : Plain line) :
    LineOutcome w line (parseContent w (stripNewline line)) := by
  unfold parseContent
  split
  · exact lineOutcome_print "Invalid message" hline
  · split
    rename_i w' text heq
    split at heq
    · obtain ⟨rfl, rfl⟩ := Prod.mk.inj heq
      exact .kept _ [.error "Truncated message sent"] .msg rfl (Or.inr rfl) hline
    · obtain ⟨rfl, -⟩ := Prod.mk.inj heq
      have hkept : LineOutcome w line _ := .kept { w.client with
        msgContent := copy text (maxMsgSize + zeroByte) } [] .msg rfl (Or.inr rfl) hline
      rwa [List.map_nil, List.append_nil] at hkept

end Lines

theorem parseUserInput_outcome (w : World) (line : Bytes) :
    LineOutcome w line (parseUserInput w (.line line)) := by
  have hdispatched := parseUserInput_dispatched w line
  generalize parseUserInput w (.line line) = result at hdispatched ⊢
  cases hdispatched with
  | auth args h =>
      obtain ⟨u, s, n, hline, heq⟩ | ⟨hplain, heq⟩ := parseAuth_cases (w := w) h
      · rw [heq]
        exact .auth u s n hline
      · rw [heq]
        exact lineOutcome_print "Invalid /auth" hplain
  | join args h =>
      obtain ⟨ch, hline, heq⟩ | ⟨hplain, heq⟩ := parseJoin_cases (w := w) h
      · rw [heq]
        exact .join ch hline
      · rw [heq]
        exact lineOutcome_print "Invalid /join" hplain
  | rename args h => exact lineOutcome_rename args (plain_of_cons h (by decide) (by decide))
  | help args h => exact lineOutcome_help args (plain_of_cons h (by decide) (by decide))
  | unknown token args h _ hne =>
      apply lineOutcome_print
      exact plain_of_cons h (hne ⟨ascii "/auth", parseAuthWith⟩ (by simp [command]))
        (hne ⟨ascii "/join", parseJoinWith⟩ (by simp [command]))
  | content h => exact lineOutcome_content (plain_of_content h)

/-! ## Up to the line -/

/-- No identity is set, no error line printed and nothing sent. -/
structure Undisturbed (w w' : World) : Prop where
  identity_eq : identity w'.client = identity w.client
  trace_eq : ∃ es, w'.trace = w.trace ++ es ∧ ∀ e ∈ es, isErrorLine e = false ∧ isSend e = false

section Undisturbed

variable {w w' w'' : World}

theorem Undisturbed.refl (w : World) : Undisturbed w w := ⟨rfl, [], by simp, by simp⟩

theorem Undisturbed.trans (h : Undisturbed w w') (h' : Undisturbed w' w'') : Undisturbed w w'' := by
  obtain ⟨es, htrace, hes⟩ := h.trace_eq
  obtain ⟨es', htrace', hes'⟩ := h'.trace_eq
  refine ⟨h'.identity_eq.trans h.identity_eq, es ++ es', ?_, ?_⟩
  · rw [htrace', htrace, List.append_assoc]
  · intro e he
    rcases List.mem_append.mp he with he | he
    · exact hes e he
    · exact hes' e he

theorem undisturbed_emit (w : World) {e : Event} (herror : isErrorLine e = false)
    (hsend : isSend e = false) : Undisturbed w (w.emit e) :=
  ⟨rfl, [e], rfl, by simp [herror, hsend]⟩

theorem undisturbed_enterSelect (s : AwaitScript) (w : World) (k : Nat) :
    Undisturbed w (enterSelect s w k) := by
  unfold enterSelect
  split
  · exact (undisturbed_emit w rfl rfl).trans (undisturbed_emit _ rfl rfl)
  · exact undisturbed_emit w rfl rfl

end Undisturbed

/-- What await receives before it goes on to wait for the user. -/
structure PingQuiet (comm : Comm) : Prop where
  recv : ∀ w a, (comm.recvMsg w a).2 = .ping → Undisturbed w (comm.recvMsg w a).1
  check : ∀ w c, (comm.checkPreviousMsg w c).2 = none ∨ (comm.checkPreviousMsg w c).2 = some .ping →
    Undisturbed w (comm.checkPreviousMsg w c).1

/-- A PING prints nothing. -/
theorem printEvents_of_ping {entry : UdpMsg} (hentry : entry ∈ msgTable) {c : Client}
    {buffer : Bytes} {msgLen : Nat} (hping : (entry.parseFunc c buffer msgLen).type = .ping) :
    World.printEvents (entry.parseFunc c buffer msgLen) = [] := by
  obtain ⟨htype, rfl⟩ := (parse_ping_iff hentry c buffer msgLen).mp hping
  simp only [msgTable_eq, List.mem_cons, List.not_mem_nil, or_false] at hentry
  rcases hentry with rfl | rfl | rfl | rfl | rfl | rfl | rfl | rfl
  case inr.inr.inr.inr.inr.inr.inr => rfl
  all_goals cases htype

theorem undisturbed_confirmEvents (src : SockAddr) (d : Bytes) :
    ∀ e ∈ confirmEvents src d, isErrorLine e = false ∧ isSend e = false := by
  intro e he
  unfold confirmEvents at he
  split at he
  · cases he
  · rw [List.mem_singleton.mp he]
    exact ⟨rfl, rfl⟩

theorem pingQuiet_udp : PingQuiet udpComm where
  recv w a := by
    intro hping
    have hout : RecvOutcome w a (udpComm.recvMsg w a) := udpRecvMsg_outcome w a
    generalize udpComm.recvMsg w a = res at hout hping
    cases hout with
    | dispatched src d list p hlen hcan hknown hmem hlist errno hresult entry hfind hp =>
        subst hp
        have hsilent := printEvents_of_ping (List.mem_of_find?_eq_some hfind) hping
        refine ⟨by simp [confirmed, identity], confirmEvents src d ++
          [.parsed (d.take bufferSize)] ++ [Event.received _], by simp [hsilent]; rfl, ?_⟩
        intro e he
        simp only [List.mem_append, List.mem_singleton] at he
        rcases he with (he | rfl) | rfl
        · exact undisturbed_confirmEvents src d e he
        · exact ⟨rfl, rfl⟩
        · exact ⟨rfl, rfl⟩
    | failed => cases hping
    | truncated => cases hping
    | unconfirmed => cases hping
    | unknownType => cases hping
    | duplicate => cases hping
    | unrecorded => cases hping
  check w c := by
    intro hres
    have hout : CheckOutcome w c.beyond (udpComm.checkPreviousMsg w c) :=
      udpCheckPrevious_outcome w c.beyond
    generalize udpComm.checkPreviousMsg w c = res at hout hres
    cases hout with
    | empty => exact Undisturbed.refl w
    | unknownType => simp at hres
    | dispatched m queue entry hfront hfind =>
        have hping : (entry.parseFunc w.client (m.msg ++ c.beyond) m.msgLen).type = .ping := by
          simpa using hres
        have hsilent := printEvents_of_ping (List.mem_of_find?_eq_some hfind) hping
        refine ⟨by simp, [.parsed ((m.msg ++ c.beyond).take m.msgLen)], by simp [hsilent], ?_⟩
        intro e he
        rw [List.mem_singleton.mp he]
        exact ⟨rfl, rfl⟩

/-- TCP has no PING. -/
theorem tcpProcessMsg_ne_ping (buffer : Bytes) : (tcpProcessMsg buffer).type ≠ .ping := by
  intro hping
  have htype := tcpProcessMsg_type buffer
  rw [hping] at htype
  exact absurd htype (by decide)

theorem pingQuiet_tcp : PingQuiet tcpComm where
  recv w a := by
    simp only [tcpComm, tcpRecvMsg]
    split
    · split
      · exact fun h => by cases h
      · split
        · exact fun h => absurd h (tcpProcessMsg_ne_ping _)
        · exact fun h => by cases h
    · exact fun h => by cases h
  check w c := by
    simp only [tcpComm, tcpCheckPrevious]
    split
    · rintro (h | h)
      · cases h
      · exact absurd (Option.some.inj h) (tcpProcessMsg_ne_ping _)
    · exact fun _ => ⟨rfl, [], by simp, by simp⟩

theorem pingQuiet_wire (wire : Wire) : PingQuiet wire.comm := by
  cases wire with
  | udp alloc attempts => exact pingQuiet_udp
  | tcp alloc sent => exact pingQuiet_tcp

/-- What a select that finds standard input alone ready lets await read. -/
def stdinOf : SelectResult → Option Getline
  | .ready none line => line
  | _ => none

/-- The first line to be read, if select reports one. -/
def typedLine (results : List SelectResult) : Option Getline := results.findSome? stdinOf

/-- `res` comes of the first line of standard input, and nothing of note happened
before it was read. -/
def FromLine (results : List SelectResult) (w : World) (res : World × MsgType) : Prop :=
  ∃ w₁ line, typedLine results = some line ∧ Undisturbed w w₁ ∧ parseUserInput w₁ line = res

section Await

variable {comm : Comm} {s : AwaitScript} {incomplete : Bool}

/-- Standard input is read only if nothing else is pending. -/
theorem awaitLoop_idle (hcomm : NeutralComm comm) {w : World} {type : MsgType} {k : Nat}
    {results : List SelectResult} {prompt : Prompt}
    (h : (awaitLoop comm s incomplete w type k results).2 = some prompt)
    (huser : prompt.inputType = .user) : w.processing = false ∧ incomplete = false := by
  refine ⟨(awaitLoop_waits hcomm s incomplete (Neutral.refl w) type k results).2 prompt h huser, ?_⟩
  have hrule : ∀ p, (awaitLoop comm s incomplete w type k results).2 = some p →
      p.inputType = .user → incomplete = false := by
    refine awaitLoop_rule (I := fun _ => True) (E := fun _ => True)
      (Q := fun _ res => ∀ p, res = some p → p.inputType = .user → incomplete = false)
      (fun _ _ _ => trivial) (fun _ _ => trivial) ?_ ?_ ?_ (fun _ _ _ _ => trivial) ?_ ?_ results w
      type k trivial
    · intro w' _ p hp
      cases hp
    · intro w' t _ p hp hu
      cases hp
      cases hu
    · intro w' _ _ p hp hu
      cases hp
      cases hu
    · intro w' a _ _ p hp hu
      cases hp
      cases hu
    · exact fun w' line _ _ hincomplete _ _ _ => hincomplete
  exact hrule prompt h huser

theorem awaitLoop_fromLine (hneutral : NeutralComm comm) (hcomm : PingQuiet comm) :
    ∀ (results : List SelectResult) (w w' : World) (type t : MsgType) (k : Nat),
      awaitLoop comm s incomplete w type k results = (w', some ⟨.user, t⟩) →
        FromLine results w (w', t) := by
  intro results
  induction results with
  | nil =>
      intro w w' type t k h
      cases h
  | cons result rest ih =>
      intro w w' type t k h
      obtain ⟨hidle, hcomplete⟩ := awaitLoop_idle hneutral (by rw [h]) rfl
      have hentered := undisturbed_enterSelect s w k
      have hprocessing : (enterSelect s w k).processing = false :=
        (neutral_enterSelect s w k).processing_eq.trans hidle
      unfold awaitLoop at h
      generalize enterSelect s w k = w₀ at h hentered hprocessing
      have hagain : ∀ w₂ type', Undisturbed w w₂ → stdinOf result = none →
          awaitLoop comm s incomplete w₂ type' (k + 1) rest = (w', some ⟨.user, t⟩) →
            FromLine (result :: rest) w (w', t) := by
        intro w₂ type' hw₂ hnone h'
        obtain ⟨w₁, line, hline, hquiet, hparse⟩ := ih w₂ w' type' t (k + 1) h'
        refine ⟨w₁, line, ?_, hw₂.trans hquiet, hparse⟩
        rw [typedLine, List.findSome?_cons, hnone]
        exact hline
      cases result with
      | interrupted =>
          simp only [hprocessing, Bool.not_false, if_true] at h
          cases h
      | failed => cases h
      | timedOut =>
          simp only [hprocessing, Bool.false_eq_true, if_false] at h
          exact hagain w₀ type hentered rfl h
      | ready socket stdin =>
          cases socket with
          | some a =>
              simp only at h
              have hping := hcomm.recv w₀ a
              generalize comm.recvMsg w₀ a = res at h hping
              obtain ⟨w₂, type'⟩ := res
              cases type'
              case ping => exact hagain w₂ .ping (hentered.trans (hping rfl)) rfl h
              all_goals cases h
          | none =>
              cases stdin with
              | none => exact hagain w₀ type hentered rfl h
              | some line =>
                  simp only [hprocessing, hcomplete, Bool.not_false, Bool.and_self, if_true] at h
                  obtain ⟨rfl, hprompt⟩ := Prod.mk.inj h
                  obtain rfl : (parseUserInput w₀ line).2 = t :=
                    congrArg Prompt.type (Option.some.inj hprompt)
                  exact ⟨w₀, line, rfl, hentered, rfl⟩

theorem await_fromLine (hneutral : NeutralComm comm) (hcomm : PingQuiet comm) {w w' : World}
    {t : MsgType} (h : await comm s w = (w', some ⟨.user, t⟩)) :
    FromLine s.results w (w', t) := by
  have hawait : Undisturbed w (w.emit (.await w.toGlobals)) := undisturbed_emit w rfl rfl
  have hcheck := hcomm.check (w.emit (.await w.toGlobals)) s.check
  unfold await at h
  simp only at h
  generalize comm.checkPreviousMsg (w.emit (.await w.toGlobals)) s.check = res at h hcheck
  obtain ⟨w₀, previous⟩ := res
  have hloop : ∀ type, (previous = none ∨ previous = some .ping) →
      awaitLoop comm s (!bufferIsEmpty w₀.msgBuffer) w₀ type 0 s.results =
        (w', some ⟨.user, t⟩) → FromLine s.results w (w', t) := by
    intro type hprevious h'
    obtain ⟨w₁, line, hline, hquiet, hparse⟩ :=
      awaitLoop_fromLine hneutral hcomm s.results w₀ w' type t 0 h'
    exact ⟨w₁, line, hline, (hawait.trans (hcheck hprevious)).trans hquiet, hparse⟩
  cases previous with
  | none => exact hloop .confirm (Or.inl rfl) h
  | some type =>
      cases type
      case ping => exact hloop .ping (Or.inr rfl) h
      all_goals cases h

end Await

/-! ## After the line -/

section Perform

variable {env : Env} {w : World} {prompt : Prompt} {reaction : Reaction}

/-- A reaction that sends nothing leaves the client alone, and prints an error only if
the session goes on with it. -/
theorem perform_unsent (henv : Admissible env) {es : List Event}
    (htrace : (perform env w prompt reaction).1.trace = w.trace ++ es)
    (hsend : es.any isSend = false) :
    (perform env w prompt reaction).1.client = w.client ∧
      (es.any isErrorLine = true → ∃ o, reaction = .stay (some o)) := by
  have hsent : ∀ (w₀ : World) (type : MsgType) (next : World → World × Option ExitCode),
      w₀.trace = w.trace → (∀ w', ∃ es, (next w').1.trace = w'.trace ++ es) →
      (send env w₀ type next).1.trace ≠ w.trace ++ es := by
    intro w₀ type next hw₀ hnext h
    obtain ⟨es', htrace'⟩ := send_trace henv w₀ type next hnext
    rw [htrace', hw₀] at h
    rw [← List.append_cancel_left h] at hsend
    simp [isSend] at hsend
  have hnone : ∀ {w' : World}, w'.trace = w.trace → w'.trace = w.trace ++ es → es = [] := by
    intro w' h h'
    rw [h] at h'
    simpa using h'
  cases reaction with
  | stop =>
      refine ⟨rfl, ?_⟩
      rw [hnone rfl htrace]
      exact fun h => by cases h
  | stay printed =>
      cases printed with
      | none =>
          refine ⟨rfl, ?_⟩
          rw [hnone rfl htrace]
          exact fun h => by cases h
      | some o => exact ⟨rfl, fun _ => ⟨o, rfl⟩⟩
  | leave =>
      refine ⟨rfl, ?_⟩
      rw [hnone rfl htrace]
      exact fun h => by cases h
  | settle next =>
      have hes : [Event.settled w.toGlobals prompt.type] = es := by
        rw [perform, goto_trace, settle] at htrace
        exact List.append_cancel_left htrace
      refine ⟨by simp [perform, settle], ?_⟩
      rw [← hes]
      exact fun h => by cases h
  | request type next =>
      refine absurd htrace (hsent { w with processing := true } type _ rfl fun w' => ⟨[], ?_⟩)
      simp
  | chat => exact absurd htrace (hsent w .msg _ rfl fun w' => ⟨[], by simp⟩)
  | refuse content =>
      refine absurd htrace (hsent { w with client := { w.client with
        msgContent := copy (ascii content) (maxMsgSize + zeroByte) } } .err _ rfl fun w' => ?_)
      simp only
      split
      · exact ⟨_, rfl⟩
      · exact ⟨[], by simp⟩

end Perform

/-- A line that is refused after it was read is a command that the state does not
allow. -/
theorem react_stay_user {state : FsmState} {type : MsgType} {o : Output}
    (h : react state ⟨.user, type⟩ = .stay (some o)) :
    (type = .auth → state = .open_) ∧ (type = .join → state = .start ∨ state = .auth) ∧
      type ≠ .local_ := by
  cases state <;> cases type <;> simp_all [react, reactUser, reactServer]

/-! ## Which lines leak -/

section Leaks

variable {state : FsmState} {c : Client} {line : Bytes}

theorem Plain.not_leaks (h : Plain line) : ¬ Leaks state c line := by
  rintro (⟨-, u, s, n, hline, -⟩ | ⟨-, ch, hline, -⟩)
  · exact h.not_auth u s n hline
  · exact h.not_join ch hline

theorem leaks_auth_iff {u s n : Bytes} (h : AuthLine line u s n) :
    Leaks .open_ c line ↔ (u, s, n) ≠ (c.username, c.secret, c.displayName) := by
  constructor
  · rintro (⟨-, u', s', n', h', hne⟩ | ⟨hstate, -⟩)
    · have htokens := h'.tokens
      rw [h.tokens] at htokens
      obtain ⟨rfl, rfl, rfl⟩ : u = u' ∧ s = s' ∧ n = n' := by simpa using htokens
      exact hne
    · simp at hstate
  · exact fun hne => Or.inl ⟨rfl, u, s, n, h, hne⟩

theorem leaks_join_iff {ch : Bytes} (hstate : state = .start ∨ state = .auth)
    (h : JoinLine line ch) : Leaks state c line ↔ ch ≠ c.channelID := by
  constructor
  · rintro (⟨hopen, -⟩ | ⟨-, ch', h', hne⟩)
    · subst hopen
      simp at hstate
    · have htokens := h'.tokens
      rw [h.tokens] at htokens
      obtain rfl : ch = ch' := by simpa using htokens
      exact hne
  · exact fun hne => Or.inr ⟨hstate, ch, h, hne⟩

end Leaks

/-! ## Refused lines -/

/-- The await of the round reads `line`. -/
def Reads (r : ClientRound) (w : World) (state : FsmState) (line : Bytes) : Prop :=
  typedLine r.script.results = some (.line line) ∧
    ∃ type, (await r.wire.comm r.script (r.enter w state)).2 = some ⟨.user, type⟩

theorem eventsBetween_eq {w w' : World} {es : List Event} (h : w'.trace = w.trace ++ es) :
    eventsBetween w w' = es := by
  rw [eventsBetween, h, List.drop_left]

theorem Undisturbed.any_eq_false {w w' : World} {es : List Event} (h : Undisturbed w w')
    (htrace : w'.trace = w.trace ++ es) :
    es.any isErrorLine = false ∧ es.any isSend = false := by
  obtain ⟨es', htrace', hes⟩ := h.trace_eq
  rw [htrace'] at htrace
  obtain rfl := List.append_cancel_left htrace
  simp only [List.any_eq_false, Bool.not_eq_true]
  exact ⟨fun e he => (hes e he).1, fun e he => (hes e he).2⟩

/-- If the line is refused, the client is as the parser left it, and the error line came
from the parser or from the state function. -/
theorem perform_of_rejected {env : Env} (henv : Admissible env) {w w₁ w₂ : World} {g : Globals}
    {prompt : Prompt} {reaction : Reaction} {printed : List Event}
    (hrejected : Rejected w (perform env (w₂.emit (.prompt g prompt)) prompt reaction).1)
    (hquiet : Undisturbed w w₁) (hprinted : w₂.trace = w₁.trace ++ printed) :
    (perform env (w₂.emit (.prompt g prompt)) prompt reaction).1.client = w₂.client ∧
      (printed.any isErrorLine = true ∨ ∃ o, reaction = .stay (some o)) := by
  obtain ⟨before, hbefore, -⟩ := hquiet.trace_eq
  obtain ⟨after, hafter⟩ := perform_extends henv (w₂.emit (.prompt g prompt)) prompt reaction
  obtain ⟨hno, -⟩ := hquiet.any_eq_false hbefore
  have hevents : eventsBetween w (perform env (w₂.emit (.prompt g prompt)) prompt reaction).1 =
      before ++ printed ++ [Event.prompt g prompt] ++ after := by
    apply eventsBetween_eq
    rw [hafter, World.emit_trace, hprinted, hbefore]
    simp only [List.append_assoc]
  obtain ⟨herror, hunsent⟩ := hrejected
  rw [hevents] at herror hunsent
  simp only [List.any_append, Bool.or_eq_false_iff] at hunsent
  obtain ⟨hclient, hstay⟩ := perform_unsent henv hafter hunsent.2
  refine ⟨hclient, ?_⟩
  simp only [List.any_append, Bool.or_eq_true, hno, Bool.false_eq_true, false_or] at herror
  rcases herror with (hparser | hprompt) | hstate
  · exact Or.inl hparser
  · cases hprompt
  · exact Or.inr (hstay hstate)

/-- A line that is refused sets the identity exactly if it is a command that the state
does not allow. -/
theorem line_rejected_iff {env : Env} (henv : Admissible env) {state : FsmState} {line : Bytes}
    {w w₁ : World} {res : World × MsgType} {g : Globals} (hquiet : Undisturbed w w₁)
    (hparse : LineOutcome w₁ line res) :
    let w' := (perform env (res.1.emit (.prompt g ⟨.user, res.2⟩)) ⟨.user, res.2⟩
      (react state ⟨.user, res.2⟩)).1
    Rejected w w' → (identity w'.client = identity w.client ↔ ¬ Leaks state w.client line) := by
  intro w' hrejected
  obtain ⟨husername, hsecret, hname, hchannel⟩ : w₁.client.username = w.client.username ∧
      w₁.client.secret = w.client.secret ∧ w₁.client.displayName = w.client.displayName ∧
      w₁.client.channelID = w.client.channelID := by
    simpa [identity] using hquiet.identity_eq
  cases hparse with
  | auth u s n hline =>
      obtain ⟨hclient, hparser | ⟨o, hstay⟩⟩ :=
        perform_of_rejected henv hrejected hquiet (List.append_nil _).symm
      · cases hparser
      · obtain rfl : state = .open_ := (react_stay_user hstay).1 rfl
        rw [show w'.client = _ from hclient, leaks_auth_iff hline]
        simp [identity, hchannel]
  | join ch hline =>
      obtain ⟨hclient, hparser | ⟨o, hstay⟩⟩ :=
        perform_of_rejected henv hrejected hquiet (List.append_nil _).symm
      · cases hparser
      · have hstate := (react_stay_user hstay).2.1 rfl
        rw [show w'.client = _ from hclient, leaks_join_iff hstate hline]
        simp [identity, husername, hsecret, hname]
  | rename n hline =>
      obtain ⟨-, hparser | ⟨o, hstay⟩⟩ :=
        perform_of_rejected henv hrejected hquiet (List.append_nil _).symm
      · cases hparser
      · exact absurd rfl (react_stay_user hstay).2.2
  | kept c printed type hc htype hline =>
      obtain ⟨hclient, -⟩ := perform_of_rejected henv hrejected hquiet rfl
      rw [show w'.client = c from hclient, hc, hquiet.identity_eq]
      exact iff_of_true rfl hline.not_leaks

/-- Entering a round changes no more than the interrupt flag. -/
theorem Entered.undisturbed {w w₀ : World} (h : Entered w w₀) : Undisturbed w w₀ := by
  rcases h with rfl | rfl
  · exact Undisturbed.refl _
  · exact ⟨rfl, [], by simp, by simp⟩

/-- A round that sends BYE refuses nothing. -/
theorem not_rejected_interupt {env : Env} (henv : Admissible env) {w w₀ : World}
    (hquiet : Undisturbed w w₀) :
    ¬ Rejected w (stateInterupt env { w₀ with state := some .interupt }).1 := by
  rintro ⟨-, hunsent⟩
  obtain ⟨before, hbefore, -⟩ := hquiet.trace_eq
  obtain ⟨after, hafter⟩ := send_trace henv { w₀ with state := some .interupt } .bye
    (fun w => ({ w with state := none }, some .success)) fun w' => ⟨[], by simp⟩
  rw [stateInterupt, eventsBetween_eq (by rw [hafter, hbefore, List.append_assoc])] at hunsent
  simp [isSend] at hunsent

/-- In every state that the loop of fsm reaches, a refused line leaves the identity of
the client as it was exactly if it is not a well-formed /auth in the open state, or a
well-formed /join before that, with arguments that differ from it. -/
theorem rejected_line_keeps_identity_iff {client : Client} {retransmissions : UInt8} {w : World}
    (hw : AtTest client retransmissions w) {state : FsmState} (hstate : w.state = some state)
    (r : ClientRound) (line : Bytes) (hreads : Reads r w state line)
    (hrejected : Rejected w (r.run w state).1) :
    identity (r.run w state).1.client = identity w.client ↔ ¬ Leaks state w.client line := by
  have hne : state ≠ .interupt := (hw.fits hstate).not_interupt
  obtain ⟨htyped, type, hawait⟩ := hreads
  unfold ClientRound.enter at hawait
  unfold ClientRound.run at hrejected ⊢
  obtain ⟨w₀, hentered, ⟨-, -, heq⟩ | heq⟩ := enterRound_cases r.toRound w state
  · -- SIGINT: BYE is sent instead
    rw [heq] at hrejected
    exact absurd hrejected (not_rejected_interupt r.admissible hentered.undisturbed)
  · rw [heq] at hawait hrejected ⊢
    rw [runState_eq r.toRound.env state w₀ hne, onPrompt] at hrejected ⊢
    rw [show r.toRound.env.await w₀ = await r.wire.comm r.script w₀ from
      wire_await r.wire r.script w₀] at hrejected ⊢
    rcases hres : await r.wire.comm r.script w₀ with ⟨w₂, prompt⟩
    obtain rfl : prompt = some ⟨.user, type⟩ := by rw [← hawait, hres]
    rw [hres] at hrejected
    obtain ⟨w₁, line', htyped', hquiet, hparse⟩ :=
      await_fromLine (neutralComm_wire r.wire) (pingQuiet_wire r.wire) hres
    obtain rfl : line' = .line line := Option.some.inj (htyped'.symm.trans htyped)
    have hout : LineOutcome w₁ line (w₂, type) := hparse ▸ parseUserInput_outcome w₁ line
    exact line_rejected_iff r.admissible (hentered.undisturbed.trans hquiet) hout hrejected

/-- A round over UDP in which the user types a line; the message that may be sent is
confirmed. -/
def typedRound (line : String) (msgId : UInt16) : ClientRound where
  script := { results := [.ready none (some (.line (ascii line)))] }
  wire := .udp true [⟨true, delivery (headerBytes .confirm msgId)⟩]

/-- A /join before the authentication is refused, and sets the channel. -/
theorem rejected_line_keeps_identity_iff_join :
    let w := fsmInit (World.init sampleClient 3)
    identity ((typedRound "/join channel" 0).run w .start).1.client ≠ identity w.client := by
  intro w heq
  have hkept := (rejected_line_keeps_identity_iff (AtTest.start : AtTest sampleClient 3 w) rfl
    (typedRound "/join channel" 0) (ascii "/join channel")
    ⟨rfl, .join, by decide +kernel⟩ (by decide +kernel)).mp heq
  have hline : JoinLine (ascii "/join channel") (ascii "channel") := ⟨by decide, by decide⟩
  exact hkept ((leaks_join_iff (Or.inl rfl) hline).mpr (by decide))

/-! ## A second /auth -/

/-- A round over UDP in which the server accepts the first message. -/
def acceptedRound : ClientRound where
  script := { results := [.ready
    (some (delivery (headerBytes .reply 0 ++ [1, 0, 0] ++ ascii "x" ++ [0]))) none] }
  wire := .udp true []

/-- The world after some rounds. -/
def afterRounds (rounds : List ClientRound) : World :=
  (fsm (World.init sampleClient 3) (rounds.map ClientRound.toRound)).1

/-- In the open state a second /auth is refused, and yet the next message bears the
name it gave. -/
theorem refused_auth_renames :
    let w := afterRounds [typedRound "/auth u s n" 0, acceptedRound]
    let w' := afterRounds [typedRound "/auth u s n" 0, acceptedRound, typedRound "/auth v t m" 1]
    let w'' := afterRounds [typedRound "/auth u s n" 0, acceptedRound,
      typedRound "/auth v t m" 1, typedRound "hi" 1]
    w.state = some .open_ ∧ Rejected w w' ∧ identity w'.client ≠ identity w.client ∧
      ((transmissions w''.trace).map (·.msg)).getLast? =
        some (headerBytes .msg 1 ++ ascii "m" ++ [0] ++ ascii "hi" ++ [0]) := by
  decide +kernel

end IpkChat.Session
