/-
  Session/Order.lean --- the order of arrival over a session.

  await looks at the queue once, when it is called.  A message found there is
  returned to the state machine, which calls await again, so the queue drains
  before anything else is read.  A PING is not returned: await goes on to select,
  whatever else is in the queue.  `udp_order_iff` says that this is the only way in
  which the order of arrival is lost.
-/
import IpkChat.Session.Rounds
import IpkChat.Udp.Order

set_option autoImplicit false

namespace IpkChat.Session

open IpkChat.Foundation IpkChat.Core IpkChat.Udp

/-! ## The order is lost -/

/-- A call of await found a PING in front of another datagram. -/
def PingFirst (h : List Event) : Prop :=
  ∃ g m ms, .await g ∈ h ∧ g.msgQueue.toList = m :: ms ∧ isPing m = true ∧ ms ≠ []

/-- Besides, select was entered with a datagram in the queue. -/
def Lost (h : List Event) : Prop := PingFirst h ∧ ∃ g, .select g ∈ h ∧ g.msgQueue.toList ≠ []

section Lost

variable {h : List Event}

theorem PingFirst.append (hp : PingFirst h) (es : List Event) : PingFirst (h ++ es) := by
  obtain ⟨g, m, ms, hg, hrest⟩ := hp
  exact ⟨g, m, ms, List.mem_append_left es hg, hrest⟩

theorem Lost.append (hl : Lost h) (es : List Event) : Lost (h ++ es) := by
  obtain ⟨hp, g, hg, hne⟩ := hl
  exact ⟨hp.append es, g, List.mem_append_left es hg, hne⟩

theorem Lost.neutral {w w' : World} (hl : Lost w.trace) (hn : Neutral w w') : Lost w'.trace := by
  obtain ⟨es, htrace, -⟩ := hn.trace_eq
  exact htrace ▸ hl.append es

theorem Lost.not_alone (hl : Lost h) : ¬ PingAlone h := by
  obtain ⟨⟨g, m, ms, hg, hqueue, hping, hne⟩, -⟩ := hl
  exact fun ha => hne (ha g hg m ms hqueue hping)

theorem Lost.not_ordered (hl : Lost h) : ¬ Ordered h := by
  obtain ⟨-, g, hg, hne⟩ := hl
  exact fun ho => hne (ho.select g hg)

end Lost

/-! ## await -/

/-- What await leaves: the order is lost, or kept, and sound unless it returns ERROR. -/
def AwaitLeaves (w : World) (prompt : Option Prompt) : Prop :=
  Lost w.trace ∨ Kept w.trace ∧ ∀ p, prompt = some p → p.type ≠ .error → Sound w

/-- The queue is empty, or it is clear that the order is lost. -/
def Drained (w : World) : Prop := Lost w.trace ∨ Sound w ∧ w.msgQueue.toList = []

theorem AwaitLeaves.of_sound {w : World} (hs : Sound w) (prompt : Option Prompt) :
    AwaitLeaves w prompt :=
  Or.inr ⟨hs.kept, fun _ _ _ => hs⟩

theorem Drained.leaves {w : World} (hd : Drained w) (prompt : Option Prompt) :
    AwaitLeaves w prompt :=
  hd.elim Or.inl fun hs => .of_sound hs.1 prompt

/-- select is entered in order if the queue is empty. -/
theorem sound_select {w : World} (hs : Sound w) (hempty : w.msgQueue.toList = []) :
    Sound (w.emit (.select w.toGlobals)) := by
  refine hs.extend rfl rfl rfl ?_ rfl rfl
  refine hs.kept.append (by simp) (fun g hg => ?_) (by simp) (by simp) (hs.kept.dispatch_append rfl)
  cases List.mem_singleton.mp hg
  exact hempty

theorem Drained.enterSelect {w : World} (hd : Drained w) (s : AwaitScript) (k : Nat) :
    Drained (enterSelect s w k) := by
  rcases hd with hl | ⟨hs, hempty⟩
  · exact Or.inl (hl.neutral (neutral_enterSelect s w k))
  · unfold Session.enterSelect
    cases w.processing
    · exact Or.inr ⟨sound_select hs hempty, hempty⟩
    · have hs' : Sound (w.emit (.timer (calculateRemainingTime s.start (s.clock k)))) :=
        hs.quiet rfl rfl rfl (by simp [isOrderEvent])
      exact Or.inr ⟨sound_select hs' hempty, hempty⟩

/-- select is entered with a datagram behind the PING that was taken out. -/
theorem lost_enterSelect (s : AwaitScript) {w : World} (k : Nat) (hp : PingFirst w.trace)
    (hne : w.msgQueue.toList ≠ []) : Lost (enterSelect s w k).trace := by
  unfold Session.enterSelect
  cases w.processing
  · exact ⟨hp.append _, w.toGlobals, by simp, hne⟩
  · exact ⟨(hp.append _).append _, w.toGlobals, by simp, hne⟩

theorem Drained.recv {w : World} (hd : Drained w) (a : Arrival) :
    ((udpRecvMsg w a).2 = .ping → Drained (udpRecvMsg w a).1) ∧
      AwaitLeaves (udpRecvMsg w a).1 (some ⟨.server, (udpRecvMsg w a).2⟩) := by
  rcases hd with hl | ⟨hs, hempty⟩
  · have hl' := hl.neutral (neutral_udpRecvMsg w a)
    exact ⟨fun _ => Or.inl hl', Or.inl hl'⟩
  · obtain ⟨hk, hs', hqueue⟩ := sound_udpRecvMsg w a hs hempty
    refine ⟨fun hping => Or.inr ⟨hs' (by rw [hping]; simp), hqueue ▸ hempty⟩,
      Or.inr ⟨hk, fun p hp hne => hs' ?_⟩⟩
    cases hp
    exact hne

theorem Drained.stalled {w : World} (hd : Drained w) :
    AwaitLeaves ((w.print (.error "Server is not responding")).emit (.notResponding w.toGlobals))
      (some ⟨.server, .error⟩) := by
  rcases hd with hl | ⟨hs, hempty⟩
  · exact Or.inl ((hl.append _).append _)
  · have hk : Kept (w.trace ++ [.print (.error "Server is not responding")]) :=
      hs.kept.quiet (by simp [isOrderEvent])
    refine Or.inr ⟨hk.append (by simp) (by simp) (by simp) (fun g hg => ?_)
      (hk.dispatch_append rfl), fun p hp hne => ?_⟩
    · cases List.mem_singleton.mp hg
      exact hempty
    · cases hp
      exact absurd rfl hne

theorem sound_inputStep {w w' : World} (hs : Sound w) (h : InputStep w w') : Sound w' := by
  obtain ⟨client, interrupt, printed, rfl⟩ := h
  refine hs.quiet rfl rfl rfl fun e he => ?_
  obtain ⟨o, -, rfl⟩ := List.mem_map.mp he
  rfl

/-- The loop of await.  If it is entered with a datagram in the queue, the order is
lost; else the queue stays empty. -/
theorem awaitLoop_leaves (s : AwaitScript) (incomplete : Bool) {w : World}
    (hw : Drained w ∨ PingFirst w.trace ∧ w.msgQueue.toList ≠ []) (type : MsgType) (k : Nat)
    (results : List SelectResult) :
    AwaitLeaves (awaitLoop udpComm s incomplete w type k results).1
      (awaitLoop udpComm s incomplete w type k results).2 := by
  refine awaitLoop_rule (E := Drained)
    (I := fun w => Drained w ∨ PingFirst w.trace ∧ w.msgQueue.toList ≠ []) ?_ (fun _ => Or.inl)
    (fun w hd => hd.leaves none) (fun w type hd => hd.leaves _) (fun w hd _ => hd.stalled)
    (fun w a hd hping => Or.inl ((hd.recv a).1 hping)) (fun w a hd _ => (hd.recv a).2)
    (fun w line hd _ _ => ?_) results w type k hw
  · rintro w k (hd | ⟨hp, hne⟩)
    · exact hd.enterSelect s k
    · exact Or.inl (lost_enterSelect s k hp hne)
  · rcases hd with hl | ⟨hs, -⟩
    · exact Or.inl (hl.neutral (neutral_parseUserInput w line))
    · exact .of_sound (sound_inputStep hs (inputStep_parseUserInput w line)) _

/-- A call of await from a state in order. -/
theorem await_leaves (s : AwaitScript) {w : World} (hs : Sound w) :
    AwaitLeaves (await udpComm s w).1 (await udpComm s w).2 := by
  have hpop := popped_udpCheckPrevious (w.emit (.await w.toGlobals)) s.check.beyond hs.queue_wf
    hs.copies
  by_cases halone : ∀ m ms, w.msgQueue.toList = m :: ms → isPing m = true → ms = []
  · -- the queue holds no PING at its front, or nothing else
    have hs' : Sound (w.emit (.await w.toGlobals)) := by
      refine hs.extend rfl rfl rfl ?_ rfl rfl
      refine hs.kept.append (fun g hg => ?_) (by simp) (by simp) (by simp)
        (hs.kept.dispatch_append rfl)
      cases List.mem_singleton.mp hg
      exact halone
    have hs₁ : Sound (udpCheckPrevious (w.emit (.await w.toGlobals)) s.check.beyond).1 :=
      sound_udpCheckPrevious _ _ hs'
    refine await_rule w (fun type _ _ => .of_sound hs₁ _) fun hres incomplete type =>
      awaitLoop_leaves s incomplete (Or.inl (Or.inr ⟨hs₁, ?_⟩)) type 0 s.results
    rw [hpop.toList_eq]
    rcases hres with hnone | hping
    · rw [hpop.none_iff.mp hnone]
      rfl
    · obtain ⟨m, ms, hqueue, hm⟩ := hpop.ping_iff.mp hping
      rw [hqueue]
      exact halone m ms hqueue hm
  · simp only [not_forall] at halone
    obtain ⟨m, ms, hqueue, hm, hne⟩ := halone
    have hping := hpop.ping_iff.mpr ⟨m, ms, hqueue, hm⟩
    have hfirst : PingFirst (w.emit (.await w.toGlobals)).trace :=
      ⟨w.toGlobals, m, ms, by simp, hqueue, hm, hne⟩
    obtain ⟨es, htrace, -⟩ :=
      (neutral_udpCheckPrevious (w.emit (.await w.toGlobals)) s.check.beyond).trace_eq
    refine await_rule w (fun type htype hnot => ?_) fun _ incomplete type =>
      awaitLoop_leaves s incomplete (Or.inr ⟨?_, ?_⟩) type 0 s.results
    · exact absurd (Option.some.inj (htype.symm.trans hping)) hnot
    · exact htrace ▸ hfirst.append es
    · change (udpCheckPrevious _ _).1.msgQueue.toList ≠ []
      rw [hpop.toList_eq]
      simpa [hqueue] using hne

/-! ## Rounds -/

/-- What a round leaves: a session that goes on is in order, or the order is lost. -/
def OrderLeaves (res : World × Option ExitCode) : Prop :=
  (Lost res.1.trace ∨ Kept res.1.trace) ∧
    (res.2 = some .success → Lost res.1.trace ∨ Sound res.1)

theorem orderLeaves_sound {w : World} {code : Option ExitCode} (hs : Sound w) :
    OrderLeaves (w, code) :=
  ⟨Or.inr hs.kept, fun _ => Or.inr hs⟩

theorem orderLeaves_lost {res : World × Option ExitCode} (hl : Lost res.1.trace) :
    OrderLeaves res :=
  ⟨Or.inl hl, fun _ => Or.inl hl⟩

section Perform

variable {script : AwaitScript} {alloc : Bool} {attempts : List Attempt} {w : World}

theorem kept_emit {e : Event} (hk : Kept w.trace) (he : isOrderEvent e = false) :
    Kept (w.emit e).trace :=
  hk.quiet (by simpa using he)

theorem sound_emit {e : Event} (hs : Sound w) (he : isOrderEvent e = false) : Sound (w.emit e) :=
  hs.quiet rfl rfl rfl (by simpa using he)

theorem sound_goto {next : Option FsmState} (hs : Sound w) : Sound (goto next w) := by
  cases next with
  | none => exact hs
  | some state => exact hs.quiet rfl rfl (List.append_nil _).symm (by simp)

/-- SEND from a state in order. -/
theorem send_order {type : MsgType} {next : World → World × Option ExitCode} (hs : Sound w)
    (hnext : ∀ w', Sound w' → OrderLeaves (next w')) :
    OrderLeaves (send (udpEnv script alloc attempts) w type next) := by
  have hs' : Sound (w.emit (.sendMsg type)) := sound_emit hs rfl
  have hkept := kept_udpSendMsg (w.emit (.sendMsg type)) type alloc attempts hs'.kept
  have hsound := sound_udpSendMsg (w.emit (.sendMsg type)) type alloc attempts hs'
  have hturn := send_turn (udpEnv script alloc attempts) w type next
  generalize send (udpEnv script alloc attempts) w type next = res at hturn
  cases hturn with
  | waiting w' hsend =>
      rw [show udpSendMsg _ _ _ _ = (w', none) from hsend] at hkept
      exact ⟨Or.inr hkept, fun hc => by cases hc⟩
  | failed w' hsend =>
      rw [show udpSendMsg _ _ _ _ = (w', some .failure) from hsend] at hkept
      exact ⟨Or.inr (kept_emit hkept rfl), fun hc => by cases hc⟩
  | sent w' hsend =>
      rw [show udpSendMsg _ _ _ _ = (w', some .success) from hsend] at hsound
      exact hnext w' (hsound rfl)

/-- A refusal, also after an error that left a datagram unrecorded. -/
theorem refuse_order {prompt : Prompt} (hk : Kept w.trace) (content : String) :
    OrderLeaves (refuse (udpEnv script alloc attempts) w prompt content) := by
  refine ⟨Or.inr ?_, fun hc => absurd hc (refuse_code _ _ _ _)⟩
  have hkept := kept_udpSendMsg (World.emit { w with client := { w.client with
    msgContent := copy (ascii content) (maxMsgSize + zeroByte) } } (.sendMsg .err)) .err alloc
      attempts (kept_emit hk rfl)
  have hturn := send_turn (udpEnv script alloc attempts) { w with client := { w.client with
    msgContent := copy (ascii content) (maxMsgSize + zeroByte) } } .err fun w =>
      (if prompt.type ≠ .error then w.print (.error "Received an unexpected message") else w,
        some ExitCode.failure)
  change SendTurn _ _ _ _ (refuse (udpEnv script alloc attempts) w prompt content) at hturn
  generalize refuse (udpEnv script alloc attempts) w prompt content = res at hturn
  cases hturn with
  | waiting w' hsend =>
      rw [show udpSendMsg _ _ _ _ = (w', none) from hsend] at hkept
      exact hkept
  | failed w' hsend =>
      rw [show udpSendMsg _ _ _ _ = (w', some .failure) from hsend] at hkept
      exact kept_emit hkept rfl
  | sent w' hsend =>
      rw [show udpSendMsg _ _ _ _ = (w', some .success) from hsend] at hkept
      simp only
      split
      · exact kept_emit hkept rfl
      · exact hkept

theorem perform_order {state : FsmState} {prompt : Prompt} (hne : state ≠ .interupt)
    (hk : Kept w.trace) (hs : prompt.type ≠ .error → Sound w) :
    OrderLeaves (perform (udpEnv script alloc attempts) w prompt (react state prompt)) := by
  by_cases herror : prompt.type = .error
  · rcases react_error herror hne with hreact | ⟨content, hreact⟩
    · rw [hreact]
      exact ⟨Or.inr hk, fun hc => by cases hc⟩
    · rw [hreact]
      exact refuse_order hk content
  · have hs' := hs herror
    cases react state prompt with
    | stop => exact orderLeaves_sound hs'
    | stay printed =>
        cases printed with
        | none => exact orderLeaves_sound hs'
        | some o => exact orderLeaves_sound (hs'.quiet rfl rfl rfl (by simp [isOrderEvent]))
    | leave => exact orderLeaves_sound (hs'.quiet rfl rfl (List.append_nil _).symm (by simp))
    | settle next =>
        have hsettled : Sound (settle w prompt.type) :=
          hs'.quiet rfl rfl rfl (by simp [isOrderEvent])
        exact orderLeaves_sound (sound_goto hsettled)
    | request type next =>
        have hbusy : Sound { w with processing := true } :=
          hs'.quiet rfl rfl (List.append_nil _).symm (by simp)
        exact send_order hbusy fun w' hw' => orderLeaves_sound (sound_goto hw')
    | chat => exact send_order hs' fun w' hw' => orderLeaves_sound hw'
    | refuse content => exact refuse_order hk content

theorem round_order {r : Round} {state : FsmState} (henv : r.env = udpEnv script alloc attempts)
    (hne : state ≠ .interupt) (hw : Lost w.trace ∨ Sound w) :
    OrderLeaves (runState r.env (enterRound r w state).2 (enterRound r w state).1) := by
  have hadm : Admissible r.env := henv ▸ udpEnv_admissible script alloc attempts
  have hturn := round_turn r w hne
  generalize runState r.env (enterRound r w state).2 (enterRound r w state).1 = res at hturn
  rcases hw with hl | hs
  · obtain ⟨es, htrace⟩ := hturn.trace_eq hadm
    exact orderLeaves_lost (htrace ▸ hl.append es)
  · have hentered : ∀ w₀, Entered w w₀ → Sound w₀ := by
      rintro w₀ (rfl | rfl)
      · exact hs
      · exact hs.quiet rfl rfl (List.append_nil _).symm (by simp)
    rw [henv] at hturn
    cases hturn with
    | interrupted w₀ hentry hidle =>
        have hs₀ : Sound { w₀ with state := some .interupt } :=
          (hentered w₀ hentry).quiet rfl rfl (List.append_nil _).symm (by simp)
        exact send_order hs₀ fun w' hw' =>
          orderLeaves_sound (hw'.quiet rfl rfl (List.append_nil _).symm (by simp))
    | waiting w₀ w' hentry hawait =>
        have hleaves := await_leaves script (hentered w₀ hentry)
        rw [show await udpComm script w₀ = (w', none) from hawait] at hleaves
        exact ⟨hleaves.imp_right fun h => h.1, fun hc => by cases hc⟩
    | prompted w₀ w' prompt hentry hawait =>
        have hleaves := await_leaves script (hentered w₀ hentry)
        rw [show await udpComm script w₀ = (w', some prompt) from hawait] at hleaves
        rcases hleaves with hl | ⟨hk, hs'⟩
        · refine orderLeaves_lost ?_
          obtain ⟨es, htrace⟩ := perform_extends (udpEnv_admissible script alloc attempts)
            (w'.emit (.prompt w'.toGlobals prompt)) prompt (react state prompt)
          rw [htrace]
          exact (hl.append _).append es
        · exact perform_order hne (kept_emit hk rfl)
            fun hnot => sound_emit (hs' prompt rfl hnot) rfl

end Perform

/-! ## Sessions -/

/-- One round of the loop over UDP. -/
structure UdpRound where
  sigint : Bool := false
  script : AwaitScript
  alloc : Bool := true
  attempts : List Attempt := []

/-- The round, with the UDP variant as its surroundings. -/
def UdpRound.toRound (r : UdpRound) : Round := ⟨r.sigint, udpEnv r.script r.alloc r.attempts⟩

/-- The history of a session over UDP. -/
def udpSession (client : Client) (retransmissions : UInt8) (rounds : List UdpRound) : List Event :=
  (fsm (World.init client retransmissions) (rounds.map UdpRound.toRound)).1.trace

/-- Over every session, messages are dispatched in the order of arrival, and the queue
is drained before anything else is waited for, exactly if no call of await finds a
PING in front of another datagram in the queue. -/
theorem udp_order_iff (client : Client) (retransmissions : UInt8) (rounds : List UdpRound) :
    Ordered (udpSession client retransmissions rounds) ↔
      PingAlone (udpSession client retransmissions rounds) := by
  have hok : ∀ r ∈ rounds.map UdpRound.toRound,
      ∃ script alloc attempts, r.env = udpEnv script alloc attempts := by
    intro r hr
    obtain ⟨r', -, rfl⟩ := List.mem_map.mp hr
    exact ⟨r'.script, r'.alloc, r'.attempts, rfl⟩
  have hend : Lost (udpSession client retransmissions rounds) ∨
      Kept (udpSession client retransmissions rounds) := by
    refine fsm_preserves (I := fun w => Lost w.trace ∨ Sound w)
      (J := fun w => Lost w.trace ∨ Kept w.trace) ?_ (fun w hw => hw.imp_right (·.kept)) ?_ hok ?_
    · rintro r ⟨script, alloc, attempts, henv⟩
      exact henv ▸ udpEnv_admissible script alloc attempts
    · rintro r state w ⟨script, alloc, attempts, henv⟩ hw - hne
      exact round_order henv hne hw
    · exact Or.inr ((sound_init client retransmissions).quiet rfl rfl (List.append_nil _).symm
        (by simp))
  rcases hend with hl | hk
  · exact ⟨fun ho => absurd ho hl.not_ordered, fun ha => absurd ha hl.not_alone⟩
  · exact ⟨fun _ => hk.alone, fun _ => hk.ordered⟩

/-- The type bytes of the datagrams in the queue when the server was reported not to
respond. -/
def stalledTypes : Event → Option (List (Option UInt8))
  | .notResponding g => some (g.msgQueue.toList.map (·.msg.head?))
  | _ => none

/-- A PING and the REPLY arrive before the CONFIRM of the AUTH.  The PING is taken out
of the queue, the REPLY stays there, and the wait for it runs into the timeout. -/
theorem reply_waits_behind_ping :
    ¬ Ordered (udpSession sampleClient 3
      [{ script := { results := [.ready none (some (.line (ascii "/auth u s n")))] }
         attempts := [{ arrival := delivery [0xFD, 0, 0] },
           { arrival := delivery ([1, 0, 1, 1, 0, 0] ++ ascii "x" ++ [0]) },
           { arrival := delivery [0, 0, 0] }] },
       { script := { results := [.timedOut] } }]) := by
  intro ho
  have hstalled : [some 1] ∈ (udpSession sampleClient 3
      [{ script := { results := [.ready none (some (.line (ascii "/auth u s n")))] }
         attempts := [{ arrival := delivery [0xFD, 0, 0] },
           { arrival := delivery ([1, 0, 1, 1, 0, 0] ++ ascii "x" ++ [0]) },
           { arrival := delivery [0, 0, 0] }] },
       { script := { results := [.timedOut] } }]).filterMap stalledTypes := by
    decide
  obtain ⟨e, hmem, he⟩ := List.mem_filterMap.mp hstalled
  cases e with
  | notResponding g =>
      have htypes : g.msgQueue.toList.map (·.msg.head?) = [some 1] := Option.some.inj he
      obtain ⟨m, hm, htype⟩ := List.mem_map.mp (htypes ▸ List.mem_singleton_self (some 1))
      exact ho.reply g hmem m hm htype
  | _ => cases he

end IpkChat.Session
