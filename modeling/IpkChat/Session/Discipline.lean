/-
  Session/Discipline.lean --- the order of messages in a session.

  Whatever prompts await returns and whatever comes of the sends, the messages the
  state machine sends follow the protocol: nothing but ERR while a reply is
  awaited, JOIN and MSG only after a positive reply, and nothing after the end.

  The rules read the history of the session; the invariant `Fits` compares it with
  comm->processing and the state pointer.
-/
import IpkChat.Session.Conversation
import IpkChat.Foundation.History

set_option autoImplicit false

namespace IpkChat.Session

open IpkChat.Foundation IpkChat.Core Conversation

/-! ## What the rules ask of the history -/

/-- An AUTH was sent, and a REPLY was received after it. -/
def Authenticated (h : List Event) : Prop :=
  ∃ h₁ g h₂, h = h₁ ++ .prompt g ⟨.server, .reply⟩ :: h₂ ∧ .sendMsg .auth ∈ h₁

/-- An AUTH or JOIN was sent, and neither REPLY nor NREPLY was received after it. -/
def Unanswered (h : List Event) : Prop :=
  ∃ h₁ type h₂, h = h₁ ++ .sendMsg type :: h₂ ∧ (type = .auth ∨ type = .join) ∧
    ∀ g, .prompt g ⟨.server, .reply⟩ ∉ h₂ ∧ .prompt g ⟨.server, .nreply⟩ ∉ h₂

/-- ERR or BYE was sent, or received from the server. -/
def Over (h : List Event) : Prop :=
  .sendMsg .err ∈ h ∨ .sendMsg .bye ∈ h ∨
    ∃ g, .prompt g ⟨.server, .err⟩ ∈ h ∨ .prompt g ⟨.server, .bye⟩ ∈ h

/-- The rules for sending a message of this type after the history `h`. -/
structure Allowed (h : List Event) (type : MsgType) : Prop where
  authenticated : type = .join ∨ type = .msg → Authenticated h
  silent : Unanswered h → type = .err
  not_over : ¬ Over h

/-- Every message sent obeys the rules.  As nothing follows ERR, at most one ERR
is sent while a reply is awaited; BYE is not sent then. -/
def Discipline (h : List Event) : Prop :=
  EverySplit (fun before e => ∀ type, e = .sendMsg type → Allowed before type) h

section Concat

variable {h : List Event} {e : Event}

theorem authenticated_concat :
    Authenticated (h ++ [e]) ↔ Authenticated h ∨
      (∃ g, e = .prompt g ⟨.server, .reply⟩) ∧ .sendMsg .auth ∈ h := by
  simp only [Authenticated, concat_eq_append_cons_iff]
  constructor
  · rintro ⟨h₁, g, h₂, ⟨-, rfl, rfl⟩ | ⟨rest, -, rfl⟩, hmem⟩
    · exact Or.inr ⟨⟨g, rfl⟩, hmem⟩
    · exact Or.inl ⟨h₁, g, rest, rfl, hmem⟩
  · rintro (⟨h₁, g, h₂, rfl, hmem⟩ | ⟨⟨g, rfl⟩, hmem⟩)
    · exact ⟨h₁, g, _, Or.inr ⟨h₂, rfl, rfl⟩, hmem⟩
    · exact ⟨h, g, [], Or.inl ⟨rfl, rfl, rfl⟩, hmem⟩

theorem unanswered_concat :
    Unanswered (h ++ [e]) ↔ (e = .sendMsg .auth ∨ e = .sendMsg .join) ∨
      Unanswered h ∧ ∀ g, e ≠ .prompt g ⟨.server, .reply⟩ ∧ e ≠ .prompt g ⟨.server, .nreply⟩ := by
  simp only [Unanswered, concat_eq_append_cons_iff]
  constructor
  · rintro ⟨h₁, type, h₂, ⟨-, rfl, rfl⟩ | ⟨rest, rfl, rfl⟩, htype, hnone⟩
    · exact Or.inl (by rcases htype with rfl | rfl <;> simp)
    · refine Or.inr ⟨⟨h₁, type, rest, rfl, htype, fun g => ?_⟩, fun g => ?_⟩
      · exact ⟨fun hm => (hnone g).1 (by simp [hm]), fun hm => (hnone g).2 (by simp [hm])⟩
      · exact ⟨fun hm => (hnone g).1 (by simp [hm]), fun hm => (hnone g).2 (by simp [hm])⟩
  · rintro (hsend | ⟨⟨h₁, type, h₂, rfl, htype, hnone⟩, he⟩)
    · rcases hsend with rfl | rfl
      · exact ⟨h, .auth, [], Or.inl ⟨rfl, rfl, rfl⟩, Or.inl rfl, by simp⟩
      · exact ⟨h, .join, [], Or.inl ⟨rfl, rfl, rfl⟩, Or.inr rfl, by simp⟩
    · refine ⟨h₁, type, _, Or.inr ⟨h₂, rfl, rfl⟩, htype, fun g => ?_⟩
      simp only [List.mem_append, List.mem_singleton, not_or]
      exact ⟨⟨(hnone g).1, fun heq => (he g).1 heq.symm⟩,
        ⟨(hnone g).2, fun heq => (he g).2 heq.symm⟩⟩

theorem over_concat :
    Over (h ++ [e]) ↔ Over h ∨ e = .sendMsg .err ∨ e = .sendMsg .bye ∨
      ∃ g, e = .prompt g ⟨.server, .err⟩ ∨ e = .prompt g ⟨.server, .bye⟩ := by
  simp only [Over, List.mem_append, List.mem_singleton, eq_comm (b := e)]
  constructor
  · rintro ((hm | he) | (hm | he) | ⟨g, (hm | he) | (hm | he)⟩)
    · exact Or.inl (Or.inl hm)
    · exact Or.inr (Or.inl he)
    · exact Or.inl (Or.inr (Or.inl hm))
    · exact Or.inr (Or.inr (Or.inl he))
    · exact Or.inl (Or.inr (Or.inr ⟨g, Or.inl hm⟩))
    · exact Or.inr (Or.inr (Or.inr ⟨g, Or.inl he⟩))
    · exact Or.inl (Or.inr (Or.inr ⟨g, Or.inr hm⟩))
    · exact Or.inr (Or.inr (Or.inr ⟨g, Or.inr he⟩))
  · rintro ((hm | hm | ⟨g, hm | hm⟩) | he | he | ⟨g, he | he⟩)
    · exact Or.inl (Or.inl hm)
    · exact Or.inr (Or.inl (Or.inl hm))
    · exact Or.inr (Or.inr ⟨g, Or.inl (Or.inl hm)⟩)
    · exact Or.inr (Or.inr ⟨g, Or.inr (Or.inl hm)⟩)
    · exact Or.inl (Or.inr he)
    · exact Or.inr (Or.inl (Or.inr he))
    · exact Or.inr (Or.inr ⟨g, Or.inl (Or.inr he)⟩)
    · exact Or.inr (Or.inr ⟨g, Or.inr (Or.inr he)⟩)

end Concat

/-- The rules cannot tell the two histories apart. -/
structure SameSummary (h h' : List Event) : Prop where
  auth_sent : .sendMsg .auth ∈ h' ↔ .sendMsg .auth ∈ h
  authenticated : Authenticated h' ↔ Authenticated h
  unanswered : Unanswered h' ↔ Unanswered h
  over_iff : Over h' ↔ Over h

theorem sameSummary_concat {h : List Event} {e : Event} (he : isSessionEvent e = false) :
    SameSummary h (h ++ [e]) := by
  cases e <;> simp [isSessionEvent] at he <;>
    exact ⟨by simp, by simp [authenticated_concat], by simp [unanswered_concat],
      by simp [over_concat]⟩

/-- Other events do not count. -/
theorem sameSummary_append {h es : List Event} (hes : ∀ e ∈ es, isSessionEvent e = false) :
    SameSummary h (h ++ es) := by
  induction es using List.reverseRecOn with
  | nil => rw [List.append_nil]; exact ⟨Iff.rfl, Iff.rfl, Iff.rfl, Iff.rfl⟩
  | append_singleton es e ih =>
      obtain ⟨h₁, h₂, h₃, h₄⟩ := ih fun x hx => hes x (by simp [hx])
      rw [← List.append_assoc]
      obtain ⟨k₁, k₂, k₃, k₄⟩ := sameSummary_concat (hes e (by simp))
      exact ⟨k₁.trans h₁, k₂.trans h₂, k₃.trans h₃, k₄.trans h₄⟩

theorem Discipline.append {h es : List Event} (hd : Discipline h)
    (hes : ∀ e ∈ es, isSessionEvent e = false) : Discipline (h ++ es) := by
  refine EverySplit.append hd fun e he before type heq => ?_
  have := hes e he
  rw [heq] at this
  simp [isSessionEvent] at this

theorem Discipline.concat {h : List Event} (hd : Discipline h) {e : Event}
    (he : ∀ type, e = .sendMsg type → Allowed h type) : Discipline (h ++ [e]) :=
  everySplit_concat.mpr ⟨hd, he⟩

/-! ## The invariant -/

/-- The state pointer and comm->processing agree with the history. -/
structure Fits (state : FsmState) (processing : Bool) (h : List Event) : Prop where
  not_interupt : state ≠ .interupt
  not_over : ¬ Over h
  unanswered : Unanswered h → processing = true
  idle : state = .start ∨ state = .open_ → processing = false
  busy : state = .join → processing = true
  auth_sent : state = .auth → .sendMsg .auth ∈ h
  authenticated : state = .open_ ∨ state = .join → Authenticated h

theorem Fits.congr {state : FsmState} {processing : Bool} {h h' : List Event}
    (hf : Fits state processing h) (hs : SameSummary h h') : Fits state processing h' :=
  ⟨hf.not_interupt, fun ho => hf.not_over (hs.over_iff.mp ho),
    fun hu => hf.unanswered (hs.unanswered.mp hu), hf.idle, hf.busy,
    fun hst => hs.auth_sent.mpr (hf.auth_sent hst),
    fun hst => hs.authenticated.mpr (hf.authenticated hst)⟩

/-- The history obeys the rules, and a session that is not over can go on. -/
structure InOrder (c : Conversation) : Prop where
  discipline : Discipline c.history
  fits : ∀ state, c.state = some state → Fits state c.processing c.history

section Steps

variable {state : FsmState} {processing : Bool} {h : List Event} {g : Globals} {prompt : Prompt}

theorem inOrder_over (hd : Discipline h) : InOrder ⟨none, processing, h⟩ :=
  ⟨hd, fun _ hs => by cases hs⟩

theorem Fits.inOrder (hf : Fits state processing h) (hd : Discipline h) :
    InOrder ⟨some state, processing, h⟩ :=
  ⟨hd, fun _ hs => Option.some.inj hs ▸ hf⟩

theorem Discipline.prompted (hd : Discipline h) : Discipline (h ++ [Event.prompt g prompt]) :=
  hd.concat fun t ht => by cases ht

/-- A prompt by itself asks for nothing, and ends nothing unless it is ERR or BYE. -/
theorem Fits.prompted (hf : Fits state processing h)
    (hend : prompt.inputType = .server → prompt.type ≠ .err ∧ prompt.type ≠ .bye) :
    Fits state processing (h ++ [Event.prompt g prompt]) := by
  refine ⟨hf.not_interupt, ?_, ?_, hf.idle, hf.busy, fun hs => by simp [hf.auth_sent hs],
    fun hs => authenticated_concat.mpr (Or.inl (hf.authenticated hs))⟩
  · rw [over_concat]
    rintro (ho | he | he | ⟨g', he | he⟩)
    · exact hf.not_over ho
    · cases he
    · cases he
    · cases he; exact (hend rfl).1 rfl
    · cases he; exact (hend rfl).2 rfl
  · rw [unanswered_concat]
    rintro ((he | he) | ⟨hu, -⟩)
    · cases he
    · cases he
    · exact hf.unanswered hu

/-- Sending is allowed where it is in order with the processing flag. -/
theorem Fits.allowed (hf : Fits state processing h) {type : MsgType}
    (hauth : type = .join ∨ type = .msg → state = .open_)
    (hidle : type ≠ .err → processing = false) : Allowed h type := by
  refine ⟨fun ht => hf.authenticated (Or.inl (hauth ht)), fun hu => ?_, hf.not_over⟩
  by_contra hne
  have hbusy := hf.unanswered hu
  rw [hidle hne] at hbusy
  cases hbusy

theorem Discipline.sent (hd : Discipline h) {type : MsgType} (ha : Allowed h type) :
    Discipline (h ++ [Event.sendMsg type]) :=
  hd.concat fun t ht => by cases ht; exact ha

/-- Only a reply of the server settles: in the join state a prompt of the user is
excluded by the processing flag. -/
theorem Fits.reply_of_settle (hf : Fits state processing h)
    (hoffered : Offered state processing g prompt) {next : Option FsmState}
    (hreact : react state prompt = .settle next) :
    prompt = ⟨.server, .reply⟩ ∨ prompt = ⟨.server, .nreply⟩ := by
  rcases react_settle hreact with ⟨-, hp, -⟩ | ⟨-, hp, -⟩ | ⟨hjoin, ht, -⟩
  · exact Or.inl hp
  · exact Or.inr hp
  · obtain ⟨inputType, type⟩ := prompt
    cases inputType with
    | user =>
        have hbusy := hf.busy hjoin
        rw [hoffered.user rfl] at hbusy
        cases hbusy
    | server => rcases ht with rfl | rfl <;> simp

/-- After a reply to a request that was sent no request is open. -/
theorem Fits.settle (hf : Fits state processing h)
    (hoffered : Offered state processing g prompt) {next : Option FsmState}
    (hreact : react state prompt = .settle next) :
    Fits (next.getD state) false
      (h ++ [Event.prompt g prompt] ++ [Event.settled g prompt.type]) := by
  have hreply := hf.reply_of_settle hoffered hreact
  have hover : ¬ Over (h ++ [Event.prompt g prompt] ++ [Event.settled g prompt.type]) := by
    rw [over_concat, over_concat]
    rcases hreply with rfl | rfl <;> simp [hf.not_over]
  have hanswered :
      ¬ Unanswered (h ++ [Event.prompt g prompt] ++ [Event.settled g prompt.type]) := by
    rw [unanswered_concat, unanswered_concat]
    rcases hreply with rfl | rfl <;> simp
  have hopen : Authenticated (h ++ [Event.prompt g prompt]) →
      Fits .open_ false (h ++ [Event.prompt g prompt] ++ [Event.settled g prompt.type]) := by
    intro hauth
    exact ⟨by simp, hover, fun hu => absurd hu hanswered, fun _ => rfl, by simp, by simp,
      fun _ => authenticated_concat.mpr (Or.inl hauth)⟩
  rcases react_settle hreact with ⟨rfl, rfl, rfl⟩ | ⟨rfl, rfl, rfl⟩ | ⟨rfl, -, rfl⟩
  · exact hopen (authenticated_concat.mpr (Or.inr ⟨⟨g, rfl⟩, hf.auth_sent rfl⟩))
  · exact ⟨by simp, hover, fun hu => absurd hu hanswered, fun _ => rfl, by simp,
      fun _ => by simp [hf.auth_sent rfl], by simp⟩
  · exact hopen (authenticated_concat.mpr (Or.inl (hf.authenticated (Or.inr rfl))))

/-- A request opens one. -/
theorem Fits.request (hf : Fits state processing h) {type : MsgType} {next : Option FsmState}
    (hreact : react state prompt = .request type next) :
    Fits (next.getD state) true (h ++ [Event.sendMsg type]) := by
  obtain ⟨-, hcases⟩ := react_request hreact
  have hover : ¬ Over (h ++ [Event.sendMsg type]) := by
    rw [over_concat]
    rcases hcases with ⟨-, rfl, -⟩ | ⟨-, rfl, -⟩ | ⟨-, rfl, -⟩ <;> simp [hf.not_over]
  rcases hcases with ⟨-, rfl, rfl⟩ | ⟨rfl, rfl, rfl⟩ | ⟨rfl, rfl, rfl⟩
  · exact ⟨by simp, hover, fun _ => rfl, by simp, by simp, by simp, by simp⟩
  · exact ⟨by simp, hover, fun _ => rfl, by simp, by simp, by simp, by simp⟩
  · exact ⟨by simp, hover, fun _ => rfl, by simp, by simp, by simp,
      fun _ => authenticated_concat.mpr (Or.inl (hf.authenticated (Or.inl rfl)))⟩

theorem Fits.chat (hf : Fits state processing h) :
    Fits state processing (h ++ [Event.sendMsg .msg]) := by
  refine ⟨hf.not_interupt, ?_, ?_, hf.idle, hf.busy, fun hs => by simp [hf.auth_sent hs],
    fun hs => authenticated_concat.mpr (Or.inl (hf.authenticated hs))⟩
  · rw [over_concat]
    simp [hf.not_over]
  · rw [unanswered_concat]
    rintro ((he | he) | ⟨hu, -⟩)
    · cases he
    · cases he
    · exact hf.unanswered hu

/-- The answer to a prompt leaves things in order. -/
theorem answer_inOrder (hf : Fits state processing h) (hd : Discipline h)
    (hoffered : Offered state processing g prompt) :
    InOrder
      (answer state processing (h ++ [Event.prompt g prompt]) g prompt (react state prompt)) := by
  have hprompt : Discipline (h ++ [Event.prompt g prompt]) := hd.prompted
  cases hreact : react state prompt with
  | stop => exact inOrder_over hprompt
  | stay printed =>
      have hfits := hf.prompted (g := g) fun hs => by
        rcases react_stay hreact hs with ht | ht <;> simp [ht]
      exact hfits.inOrder hprompt
  | leave => exact inOrder_over hprompt
  | settle next =>
      exact (hf.settle hoffered hreact).inOrder (hprompt.concat fun t ht => by cases ht)
  | request type next =>
      -- a request is sent while none is open
      obtain ⟨rfl, hcases⟩ := react_request hreact
      have hfits : Fits state processing (h ++ [Event.prompt g ⟨.user, type⟩]) :=
        hf.prompted fun hs => by cases hs
      refine (hfits.request hreact).inOrder (hprompt.sent (hfits.allowed ?_ ?_))
      · rcases hcases with ⟨-, rfl, -⟩ | ⟨-, rfl, -⟩ | ⟨rfl, -, -⟩ <;> simp
      · exact fun _ => hoffered.user rfl
  | chat =>
      obtain ⟨rfl, rfl⟩ := react_chat hreact
      have hfits : Fits .open_ processing (h ++ [Event.prompt g ⟨.user, .msg⟩]) :=
        hf.prompted fun hs => by cases hs
      exact hfits.chat.inOrder (hprompt.sent
        (hfits.allowed (fun _ => rfl) fun _ => hoffered.user rfl))
  | refuse content =>
      have hfits := hf.prompted (g := g) fun _ => react_refuse hreact
      exact inOrder_over (hprompt.sent (hfits.allowed (by simp) fun hne => absurd rfl hne))

end Steps

/-- Every step leaves things in order. -/
theorem step_inOrder {c c' : Conversation} (hc : InOrder c) (hstep : Step c c') : InOrder c' := by
  cases hstep with
  | quiet _ e he =>
      have hes : ∀ x ∈ [e], isSessionEvent x = false := by simpa using he
      exact ⟨hc.discipline.append hes, fun state hs => (hc.fits state hs).congr
        (sameSummary_append hes)⟩
  | interrupted state h =>
      -- SIGINT is honoured only while no reply is awaited
      have hf := hc.fits state rfl
      refine inOrder_over (hc.discipline.sent ⟨by simp, fun hu => ?_, hf.not_over⟩)
      cases hf.unanswered hu
  | prompted h hoffered => exact answer_inOrder (hc.fits _ rfl) hc.discipline hoffered

theorem start_inOrder : InOrder start := by
  refine Fits.inOrder ?_ everySplit_nil
  exact ⟨by simp, by simp [Over], by simp [Unanswered], by simp, by simp, by simp, by simp⟩

/-- Every session follows the rules of the protocol. -/
theorem session_discipline (w : World) (rounds : List Round) (hidle : w.processing = false)
    (hnew : w.trace = []) (hrounds : ∀ r ∈ rounds, Admissible r.env) :
    Discipline (fsm w rounds).1.trace := by
  obtain ⟨c, hc, hhistory⟩ := fsm_invariant start_inOrder (fun _ _ => step_inOrder) hidle hnew
    hrounds
  exact hhistory ▸ hc.discipline

/-- A session over TCP: /auth, then SIGINT while the reply is awaited. -/
theorem session_discipline_interrupted :
    Discipline (fsm (World.init sampleClient 3)
      [{ env := tcpEnv { results := [.ready none (some (.line (ascii "/auth u s n")))] } true
          true },
       { sigint := true
         env := tcpEnv { results := [.interrupted, .ready (some
           { result := .data default (ascii "REPLY OK IS x\r\n") .eagain }) none] } true true },
       { env := tcpEnv { results := [] } true true }]).1.trace := by
  refine session_discipline _ _ rfl rfl fun r hr => ?_
  simp only [List.mem_cons, List.not_mem_nil, or_false] at hr
  rcases hr with rfl | rfl | rfl <;> exact tcpEnv_admissible _ _ _

end IpkChat.Session
