/-
  Session/Content.lean --- what a line leaves behind in client.msg_content.

  The field is written before every message that bears it: by parse_user_input when it
  returns MSG, and before an ERR is sent.  Nothing else reads it.  So two runs that start
  with other contents send the same messages.  In particular the content of a line that
  the state refuses is in no message sent later, and after a refused line that kept the
  identity the client sends what it would have sent without the line.
-/
import IpkChat.Session.Identity
import IpkChat.Udp.Blindness

set_option autoImplicit false

namespace IpkChat.Session

open IpkChat.Foundation IpkChat.Core IpkChat.Tcp IpkChat.Udp

/-! ## Clients that differ in the content -/

/-- Any content of a message, and the same arrivals. -/
def contents : Disregard where
  client c c' := ({ c with msgContent := [] } : Client) = { c' with msgContent := [] }
  arrival a a' := a = a'
  msgId_eq h := (congrArg Client.msgId h).symm
  setMsgId h id := congrArg (fun c : Client => { c with msgId := id }) h
  failed h _ := h.symm
  data {_ _ src _ _} h hresult :=
    ⟨src, by rw [← h, ← hresult], fun hclient =>
      congrArg (fun c : Client => { c with res := src }) hclient⟩

section Clients

variable {c c' : Client}

/-- The same content, where a message of this type bears it. -/
def SameContent (type : MsgType) (c c' : Client) : Prop :=
  type = .msg ∨ type = .err → c'.msgContent = c.msgContent

theorem eq_of_sameContent (h : contents.client c c') (hcontent : c'.msgContent = c.msgContent) :
    c' = c := by
  calc c' = { ({ c' with msgContent := [] } : Client) with msgContent := c'.msgContent } := rfl
    _ = { ({ c with msgContent := [] } : Client) with msgContent := c.msgContent } := by
      rw [hcontent, ← show ({ c with msgContent := [] } : Client) = _ from h]
    _ = c := rfl

/-- Only MSG and ERR bear the content. -/
theorem build_eq {build : Client → MsgType → Option Bytes}
    (hblind : ∀ c type, type ≠ .msg → type ≠ .err →
      build { c with msgContent := [] } type = build c type)
    (h : contents.client c c') {type : MsgType} (hcontent : SameContent type c c') :
    build c' type = build c type := by
  by_cases hbears : type = .msg ∨ type = .err
  · rw [eq_of_sameContent h (hcontent hbears)]
  · obtain ⟨hmsg, herr⟩ := not_or.mp hbears
    rw [← hblind c' type hmsg herr, ← hblind c type hmsg herr,
      show ({ c with msgContent := [] } : Client) = _ from h]

theorem udpBuildMsg_blind (c : Client) (type : MsgType) (hmsg : type ≠ .msg)
    (herr : type ≠ .err) : udpBuildMsg { c with msgContent := [] } type = udpBuildMsg c type := by
  cases type with
  | msg => exact absurd rfl hmsg
  | err => exact absurd rfl herr
  | _ => rfl

theorem tcpBuildMsg_blind (c : Client) (type : MsgType) (hmsg : type ≠ .msg)
    (herr : type ≠ .err) : tcpBuildMsg { c with msgContent := [] } type = tcpBuildMsg c type := by
  cases type with
  | msg => exact absurd rfl hmsg
  | err => exact absurd rfl herr
  | _ => rfl

end Clients

section Worlds

variable {w w' : World}

/-- An assignment to fields of the client. -/
theorem alike_update (h : Alike contents w w') (f : Client → Client)
    (hf : ∀ c content, ({ f { c with msgContent := content } with msgContent := [] } : Client) =
      { f c with msgContent := [] }) :
    Alike contents { w with client := f w.client } { w' with client := f w'.client } := by
  obtain ⟨client, trace, hclient, hsent⟩ := h
  refine .intro (f client) trace ?_ hsent
  have hsame : ({ w.client with msgContent := [] } : Client) = { client with msgContent := [] } :=
    hclient
  change ({ f w.client with msgContent := [] } : Client) = { f client with msgContent := [] }
  rw [← hf w.client [], ← hf client [], hsame]

theorem alike_processing (h : Alike contents w w') (processing : Bool) :
    Alike contents { w with processing := processing } { w' with processing := processing } :=
  h.assign (fun w => { w with processing := processing }) (fun _ _ _ => rfl) rfl rfl

theorem alike_state (h : Alike contents w w') (state : Option FsmState) :
    Alike contents { w with state := state } { w' with state := state } :=
  h.assign (fun w => { w with state := state }) (fun _ _ _ => rfl) rfl rfl

theorem alike_interrupt (h : Alike contents w w') :
    Alike contents { w with interrupt := true } { w' with interrupt := true } :=
  h.assign (fun w => { w with interrupt := true }) (fun _ _ _ => rfl) rfl rfl

theorem alike_buffer (h : Alike contents w w') (b : MsgBuffer) :
    Alike contents { w with msgBuffer := b } { w' with msgBuffer := b } :=
  h.assign (fun w => { w with msgBuffer := b }) (fun _ _ _ => rfl) rfl rfl

theorem msgBuffer_eq (h : Alike contents w w') : w'.msgBuffer = w.msgBuffer := by
  rw [h.globals_eq]

theorem processing_eq (h : Alike contents w w') : w'.processing = w.processing := by
  rw [h.globals_eq]

end Worlds

/-! ## Lines of the user -/

/-- A line is read alike, and a line that is sent leaves the same content. -/
structure ReadAlike (res res' : World × MsgType) : Prop where
  agree : Agree (Alike contents) res res'
  content : res.2 = .msg → res'.1.client.msgContent = res.1.client.msgContent

section Lines

variable {w w' : World}

theorem readAlike_refused (h : Alike contents w w') (o : Output) :
    ReadAlike (w.print o, .local_) (w'.print o, .local_) :=
  ⟨⟨h.print o, rfl⟩, fun htype => by cases htype⟩

theorem readAlike_parseAuth (h : Alike contents w w') (args : List Bytes) :
    ReadAlike (parseAuth w args) (parseAuth w' args) := by
  rw [parseAuth_eq, parseAuth_eq]
  split
  · split
    · exact ⟨⟨alike_update h (fun c => { c with
        username := copy _ (maxNameSize + zeroByte)
        secret := copy _ (maxSecretSize + zeroByte)
        displayName := copy _ (maxNameSize + zeroByte) }) fun _ _ => rfl, rfl⟩,
        fun htype => by cases htype⟩
    · exact readAlike_refused h _
  · exact readAlike_refused h _

theorem readAlike_parseJoin (h : Alike contents w w') (args : List Bytes) :
    ReadAlike (parseJoin w args) (parseJoin w' args) := by
  rw [parseJoin_eq, parseJoin_eq]
  split
  · split
    · exact ⟨⟨alike_update h (fun c => { c with
        channelID := copy _ (maxNameSize + zeroByte) }) fun _ _ => rfl, rfl⟩,
        fun htype => by cases htype⟩
    · exact readAlike_refused h _
  · exact readAlike_refused h _

theorem readAlike_parseRename (h : Alike contents w w') (args : List Bytes) :
    ReadAlike (parseRename w args) (parseRename w' args) := by
  rw [parseRename_eq, parseRename_eq]
  split
  · split
    · exact ⟨⟨alike_update h (fun c => { c with
        displayName := copy _ (maxNameSize + zeroByte) }) fun _ _ => rfl, rfl⟩,
        fun htype => by cases htype⟩
    · exact readAlike_refused h _
  · exact readAlike_refused h _

theorem readAlike_parseHelp (h : Alike contents w w') (args : List Bytes) :
    ReadAlike (parseHelp w args) (parseHelp w' args) := by
  rw [parseHelp_eq, parseHelp_eq]
  split
  · exact readAlike_refused h _
  · exact readAlike_refused h _

/-- The content of a line that is sent replaces what was there. -/
theorem readAlike_parseContent (h : Alike contents w w') (line : Bytes) :
    ReadAlike (parseContent w line) (parseContent w' line) := by
  simp only [parseContent]
  split
  · exact readAlike_refused h _
  · split
    · exact ⟨⟨alike_update (h.print _) (fun c => { c with msgContent := _ }) fun _ _ => rfl, rfl⟩,
        fun _ => rfl⟩
    · exact ⟨⟨alike_update h (fun c => { c with msgContent := _ }) fun _ _ => rfl, rfl⟩,
        fun _ => rfl⟩

theorem readAlike_parseUserInput (h : Alike contents w w') (input : Getline) :
    ReadAlike (parseUserInput w input) (parseUserInput w' input) := by
  cases input with
  | eof => exact ⟨⟨alike_interrupt h, rfl⟩, fun htype => by cases htype⟩
  | failed => exact ⟨⟨h, rfl⟩, fun htype => by cases htype⟩
  | line bytes =>
      rw [parseUserInput_line, parseUserInput_line]
      split
      · exact readAlike_parseContent h _
      · split
        · split
          · rename_i entry hfind
            have hentry := List.mem_of_find?_eq_some hfind
            simp only [command, List.mem_cons, List.not_mem_nil, or_false] at hentry
            rcases hentry with rfl | rfl | rfl | rfl
            · exact readAlike_parseAuth h _
            · exact readAlike_parseJoin h _
            · exact readAlike_parseRename h _
            · exact readAlike_parseHelp h _
          · exact readAlike_refused h _
        · exact readAlike_parseContent h _

end Lines

/-! ## The two variants -/

section Variants

variable {w w' : World}

theorem agree_tcpRecvMsg (h : Alike contents w w') (a : Arrival) :
    Agree (Alike contents) (tcpRecvMsg w a) (tcpRecvMsg w' a) := by
  simp only [tcpRecvMsg, msgBuffer_eq h]
  split
  · generalize bufferAppend w.msgBuffer _ _ _ = res
    obtain ⟨b, added⟩ := res
    cases added with
    | false => exact ⟨(alike_buffer h b).print _, rfl⟩
    | true =>
        simp only
        rcases bufferGetMsg b a.lineAlloc with ⟨b', _ | msg⟩
        · exact ⟨alike_buffer h b', rfl⟩
        · exact ⟨(alike_buffer h b').printParsed _, rfl⟩
  · exact ⟨h.print _, rfl⟩

theorem agree_tcpCheckPrevious (h : Alike contents w w') (alloc : Bool) :
    Agree (Alike contents) (tcpCheckPrevious w alloc) (tcpCheckPrevious w' alloc) := by
  simp only [tcpCheckPrevious, msgBuffer_eq h]
  rcases bufferGetMsg w.msgBuffer alloc with ⟨b, _ | msg⟩
  · exact ⟨alike_buffer h b, rfl⟩
  · exact ⟨(alike_buffer h b).printParsed _, rfl⟩

theorem agree_tcpSendMsg (h : Alike contents w w') {type : MsgType}
    (hcontent : SameContent type w.client w'.client) (alloc sent : Bool) :
    Agree (Alike contents) (tcpSendMsg w type alloc sent) (tcpSendMsg w' type alloc sent) := by
  unfold tcpSendMsg
  rw [build_eq tcpBuildMsg_blind h.client hcontent]
  split
  · exact ⟨h, rfl⟩
  · exact ⟨h.emit rfl, rfl⟩

/-- Receiving does not depend on the content. -/
structure AgreeComm (comm : Comm) : Prop where
  recv : ∀ {w w' : World}, Alike contents w w' → ∀ a,
    Agree (Alike contents) (comm.recvMsg w a) (comm.recvMsg w' a)
  check : ∀ {w w' : World}, Alike contents w w' → ∀ c,
    Agree (Alike contents) (comm.checkPreviousMsg w c) (comm.checkPreviousMsg w' c)

theorem agreeComm_wire (wire : Wire) : AgreeComm wire.comm := by
  cases wire with
  | udp alloc attempts =>
      exact ⟨fun h a => agree_udpRecvMsg h rfl, fun h c => agree_udpCheckPrevious h c.beyond⟩
  | tcp alloc sent =>
      exact ⟨fun h a => agree_tcpRecvMsg h a, fun h c => agree_tcpCheckPrevious h c.lineAlloc⟩

end Variants

/-! ## await -/

/-- The same prompt, and the same content to send if it asks for that. -/
structure PromptAlike (res res' : World × Option Prompt) : Prop where
  agree : Agree (Alike contents) res res'
  content : res.2 = some ⟨.user, .msg⟩ → res'.1.client.msgContent = res.1.client.msgContent

section Await

variable {comm : Comm} {s : AwaitScript} {w w' : World}

theorem promptAlike_server (h : Alike contents w w') (type : MsgType) :
    PromptAlike (w, some ⟨.server, type⟩) (w', some ⟨.server, type⟩) :=
  ⟨⟨h, rfl⟩, fun hprompt => by cases hprompt⟩

theorem alike_enterSelect (h : Alike contents w w') (k : Nat) :
    Alike contents (enterSelect s w k) (enterSelect s w' k) := by
  simp only [enterSelect, processing_eq h]
  split
  · exact Alike.emit (h.emit rfl) rfl
  · exact h.emit rfl

theorem promptAlike_awaitLoop (hcomm : AgreeComm comm) (incomplete : Bool)
    (results : List SelectResult) (h : Alike contents w w') (type : MsgType) (k : Nat) :
    PromptAlike (awaitLoop comm s incomplete w type k results)
      (awaitLoop comm s incomplete w' type k results) := by
  induction results generalizing w w' type k with
  | nil => exact ⟨⟨alike_enterSelect h k, rfl⟩, fun hprompt => by cases hprompt⟩
  | cons result rest ih =>
      have hentered := alike_enterSelect (s := s) h k
      unfold awaitLoop
      generalize enterSelect s w k = w₁ at hentered ⊢
      generalize enterSelect s w' k = w₁' at hentered ⊢
      cases result with
      | interrupted =>
          simp only [processing_eq hentered]
          split
          · exact promptAlike_server hentered _
          · exact ih hentered type (k + 1)
      | failed => exact promptAlike_server hentered _
      | timedOut =>
          simp only [processing_eq hentered]
          split
          · have hreported : Alike contents
                ((w₁.print (.error "Server is not responding")).emit (.notResponding w₁.toGlobals))
                ((w₁'.print (.error "Server is not responding")).emit
                  (.notResponding w₁'.toGlobals)) := (hentered.print _).emit rfl
            exact promptAlike_server hreported _
          · exact ih hentered type (k + 1)
      | ready socket stdin =>
          cases socket with
          | some a =>
              simp only
              refine Agree.elim (hcomm.recv hentered a) fun w₂ w₂' type halike => ?_
              cases type with
              | ping => exact ih halike .ping (k + 1)
              | _ => exact promptAlike_server halike _
          | none =>
              cases stdin with
              | none => exact ih hentered type (k + 1)
              | some line =>
                  simp only [processing_eq hentered]
                  split
                  · obtain ⟨hagree, hcontent⟩ := readAlike_parseUserInput hentered line
                    refine ⟨hagree.map fun type => some (Prompt.mk .user type), ?_⟩
                    intro hprompt
                    exact hcontent (by simpa using hprompt)
                  · exact ih hentered type (k + 1)

theorem promptAlike_await (hcomm : AgreeComm comm) (h : Alike contents w w') :
    PromptAlike (await comm s w) (await comm s w') := by
  have hawait : Alike contents (w.emit (.await w.toGlobals)) (w'.emit (.await w'.toGlobals)) :=
    h.emit rfl
  unfold await
  simp only
  refine Agree.elim (hcomm.check hawait s.check) fun w₁ w₁' type halike => ?_
  have hloop : ∀ type, PromptAlike
      (awaitLoop comm s (!bufferIsEmpty w₁.msgBuffer) w₁ type 0 s.results)
      (awaitLoop comm s (!bufferIsEmpty w₁'.msgBuffer) w₁' type 0 s.results) := by
    intro type
    rw [msgBuffer_eq halike]
    exact promptAlike_awaitLoop hcomm _ s.results halike type 0
  cases type with
  | none => exact hloop .confirm
  | some type =>
      cases type with
      | ping => exact hloop .ping
      | _ => exact promptAlike_server halike _

end Await

/-! ## Rounds -/

/-- Waiting does not depend on the content, and sending not on one that is not sent. -/
structure AgreeEnv (env : Env) : Prop where
  await : ∀ {w w' : World}, Alike contents w w' → PromptAlike (env.await w) (env.await w')
  send : ∀ {w w' : World} {type : MsgType}, Alike contents w w' →
    SameContent type w.client w'.client →
      Agree (Alike contents) (env.sendMsg w type) (env.sendMsg w' type)

theorem forall₂_sameAttempt (attempts : List Attempt) :
    List.Forall₂ (SameAttempt contents) attempts attempts :=
  List.forall₂_same.mpr fun _ _ => ⟨rfl, rfl⟩

theorem agreeEnv_toRound (r : ClientRound) : AgreeEnv r.toRound.env := by
  obtain ⟨sigint, script, wire⟩ := r
  refine ⟨fun {w w'} h => ?_, fun {w w' type} h hcontent => ?_⟩
  · change PromptAlike ((wire.env script).await w) ((wire.env script).await w')
    rw [wire_await, wire_await]
    exact promptAlike_await (agreeComm_wire wire) h
  · cases wire with
    | udp alloc attempts =>
        exact agree_udpSendMsg (forall₂_sameAttempt attempts) h
          (build_eq udpBuildMsg_blind h.client hcontent) alloc
    | tcp alloc sent => exact (agree_tcpSendMsg h hcontent alloc sent).map some

section Rounds

variable {env : Env} {w w' : World}

theorem agree_send (henv : AgreeEnv env) (h : Alike contents w w') {type : MsgType}
    (hcontent : SameContent type w.client w'.client)
    {next : World → World × Option ExitCode}
    (hnext : ∀ {v v' : World}, Alike contents v v' → Agree (Alike contents) (next v) (next v')) :
    Agree (Alike contents) (send env w type next) (send env w' type next) := by
  have hemit : Alike contents (w.emit (.sendMsg type)) (w'.emit (.sendMsg type)) := h.emit rfl
  unfold send
  refine Agree.elim (henv.send hemit hcontent) fun w₁ w₁' code halike => ?_
  cases code with
  | none => exact ⟨halike, rfl⟩
  | some code =>
      cases code with
      | success => exact hnext halike
      | failure => exact ⟨halike.print _, rfl⟩

/-- AUTH, JOIN and BYE bear no content. -/
theorem sameContent_of_ne {type : MsgType} (hmsg : type ≠ .msg) (herr : type ≠ .err)
    (c c' : Client) : SameContent type c c' :=
  fun htype => (htype.elim hmsg herr).elim

theorem agree_goto (next : Option FsmState) (h : Alike contents w w') :
    Agree (Alike contents) (goto next w, some ExitCode.success)
      (goto next w', some ExitCode.success) := by
  cases next with
  | none => exact ⟨h, rfl⟩
  | some state => exact ⟨alike_state h (some state), rfl⟩

theorem agree_perform (henv : AgreeEnv env) (h : Alike contents w w') {prompt : Prompt}
    (hcontent : prompt = ⟨.user, .msg⟩ → w'.client.msgContent = w.client.msgContent)
    (state : FsmState) :
    Agree (Alike contents) (perform env w prompt (react state prompt))
      (perform env w' prompt (react state prompt)) := by
  cases hreact : react state prompt with
  | stop => exact ⟨h, rfl⟩
  | stay printed =>
      cases printed with
      | none => exact ⟨h, rfl⟩
      | some o => exact ⟨h.print o, rfl⟩
  | leave => exact ⟨alike_state h none, rfl⟩
  | settle next =>
      have hsettled : Alike contents (w.emit (.settled w.toGlobals prompt.type))
          (w'.emit (.settled w'.toGlobals prompt.type)) := h.emit rfl
      exact agree_goto next (alike_processing hsettled false)
  | request type next =>
      have htype : type = .auth ∨ type = .join := by
        obtain ⟨-, ⟨-, htype, -⟩ | ⟨-, htype, -⟩ | ⟨-, htype, -⟩⟩ := react_request hreact
        · exact Or.inl htype
        · exact Or.inl htype
        · exact Or.inr htype
      refine agree_send henv (alike_processing h true) ?_ (agree_goto next)
      rcases htype with rfl | rfl
      · exact sameContent_of_ne (by decide) (by decide) _ _
      · exact sameContent_of_ne (by decide) (by decide) _ _
  | chat =>
      -- parse_user_input has just stored the line
      exact agree_send henv h (fun _ => hcontent (react_chat hreact).2) fun hv => ⟨hv, rfl⟩
  | refuse content =>
      have hstored := alike_update h
        (fun c => { c with msgContent := copy (ascii content) (maxMsgSize + zeroByte) })
        fun _ _ => rfl
      refine agree_send henv hstored (fun _ => rfl) fun hv => ?_
      split
      · exact ⟨hv.print _, rfl⟩
      · exact ⟨hv, rfl⟩

theorem agree_runState (henv : AgreeEnv env) (h : Alike contents w w') (state : FsmState) :
    Agree (Alike contents) (runState env state w) (runState env state w') := by
  by_cases hne : state = .interupt
  · subst hne
    exact agree_send henv h (sameContent_of_ne (by decide) (by decide) _ _)
      fun hv => ⟨alike_state hv none, rfl⟩
  · rw [runState_eq env state w hne, runState_eq env state w' hne]
    unfold onPrompt
    obtain ⟨hagree, hcontent⟩ := henv.await h
    revert hcontent
    refine Agree.elim hagree fun w₁ w₁' prompt halike hcontent => ?_
    cases prompt with
    | none => exact ⟨halike, rfl⟩
    | some prompt =>
        have hprompted : Alike contents (w₁.emit (.prompt w₁.toGlobals prompt))
            (w₁'.emit (.prompt w₁'.toGlobals prompt)) := halike.emit rfl
        refine agree_perform henv hprompted (fun hprompt => ?_) state
        exact hcontent (by rw [hprompt])

theorem agree_enterRound (r : Round) (h : Alike contents w w') (state : FsmState) :
    Agree (Alike contents) (enterRound r w state) (enterRound r w' state) := by
  have hentered : Alike contents (if r.sigint then { w with interrupt := true } else w)
      (if r.sigint then { w' with interrupt := true } else w') := by
    split
    · exact alike_interrupt h
    · exact h
  simp only [enterRound]
  generalize (if r.sigint then { w with interrupt := true } else w) = w₁ at hentered ⊢
  generalize (if r.sigint then { w' with interrupt := true } else w') = w₁' at hentered ⊢
  have htest : (!w₁'.processing && w₁'.interrupt) = (!w₁.processing && w₁.interrupt) := by
    rw [hentered.globals_eq]
  rw [htest]
  split
  · exact ⟨alike_state hentered (some .interupt), rfl⟩
  · exact ⟨hentered, rfl⟩

theorem agree_fsmLoop {rounds : List Round} (hrounds : ∀ r ∈ rounds, AgreeEnv r.env)
    (h : Alike contents w w') : Agree (Alike contents) (fsmLoop w rounds) (fsmLoop w' rounds) := by
  have hstate : ∀ {w w' : World}, Alike contents w w' → w'.state = w.state := by
    intro w w' h
    rw [h.globals_eq]
  induction rounds generalizing w w' with
  | nil =>
      simp only [fsmLoop, hstate h]
      exact ⟨h, rfl⟩
  | cons r rest ih =>
      unfold fsmLoop
      rw [hstate h]
      cases w.state with
      | none => exact ⟨h, rfl⟩
      | some state =>
          simp only
          refine Agree.elim (agree_enterRound r h state) fun w₁ w₁' state₁ halike => ?_
          have hrun := agree_runState (hrounds r List.mem_cons_self) halike state₁
          simp only
          refine Agree.elim hrun fun w₂ w₂' code hleft => ?_
          cases code with
          | none => exact ⟨hleft, rfl⟩
          | some code =>
              cases code with
              | failure => exact ⟨hleft, rfl⟩
              | success => exact ih (fun r' hr' => hrounds r' (List.mem_cons_of_mem r hr')) hleft

end Rounds

/-! ## Messages sent later -/

/-- Whatever content is in client.msg_content at the test of the loop, the rounds that
follow end alike and send the same messages. -/
theorem content_not_sent_later (w : World) (content : Bytes) (later : List ClientRound) :
    let res := fsmLoop w (later.map ClientRound.toRound)
    let res' := fsmLoop { w with client := { w.client with msgContent := content } }
      (later.map ClientRound.toRound)
    sent res'.1.trace = sent res.1.trace ∧ res'.2 = res.2 := by
  intro res res'
  have hstart : Alike contents w { w with client := { w.client with msgContent := content } } :=
    .intro { w.client with msgContent := content } w.trace rfl rfl
  have hagree : Agree (Alike contents) res res' := by
    refine agree_fsmLoop ?_ hstart
    intro r hr
    obtain ⟨r', -, rfl⟩ := List.mem_map.mp hr
    exact agreeEnv_toRound r'
  exact ⟨hagree.related.sent_eq, hagree.answer_eq.symm⟩

/-- The world after a round, if the line read in it had left the client as it was but for
the message ID and the address of the peer. -/
def withoutLine (w w' : World) : World :=
  { w' with client := { w.client with msgId := w'.client.msgId, res := w'.client.res } }

/-- After a round that kept the identity, such as that of a refused line, the messages sent
later are those that would be sent without the line. -/
theorem later_messages_same {w w' : World} (hkept : identity w'.client = identity w.client)
    (later : List ClientRound) :
    sent (fsmLoop w' (later.map ClientRound.toRound)).1.trace =
      sent (fsmLoop (withoutLine w w') (later.map ClientRound.toRound)).1.trace := by
  have hsame : withoutLine w w' =
      { w' with client := { w'.client with msgContent := w.client.msgContent } } := by
    obtain ⟨husername, hsecret, hname, hchannel⟩ := Identity.mk.inj hkept
    simp only [withoutLine, husername, hsecret, hname, hchannel]
  rw [hsame]
  exact (content_not_sent_later w' w.client.msgContent later).1.symm

end IpkChat.Session
