/-
  Session/Settlement.lean --- replies and the requests they settle.

  A state function that accepts a reply clears comm->processing.  The state
  machine would settle requests one to one if it accepted a reply only while
  comm->processing is set.  It does so in the start, open and join states.  In
  the auth state it does not look: after a negative reply, and before the user
  sends AUTH again, it accepts any further reply, and a positive one opens the
  session.  `replies_settle_requests_iff` says that nothing else goes wrong.
-/
import IpkChat.Session.Conversation
import IpkChat.Foundation.History

set_option autoImplicit false

namespace IpkChat.Session

open IpkChat.Foundation IpkChat.Core IpkChat.Udp Conversation

/-! ## Reading the history -/

/-- A reply was accepted. -/
def isSettled : Event → Bool
  | .settled _ _ => true
  | _ => false

/-- An AUTH or a JOIN is handed to send_msg. -/
def isRequest : Event → Bool
  | .sendMsg type => type == .auth || type == .join
  | _ => false

/-- The number of replies accepted. -/
def accepted (h : List Event) : Nat := h.countP isSettled

/-- The number of AUTH and JOIN messages sent. -/
def requests (h : List Event) : Nat := h.countP isRequest

/-- An AUTH was sent, and no reply was accepted after it. -/
def Outstanding (h : List Event) : Prop :=
  ∃ h₁ h₂, h = h₁ ++ .sendMsg .auth :: h₂ ∧ ∀ g type, .settled g type ∉ h₂

/-- Replies are accepted one to one with the requests. -/
structure OneToOne (h : List Event) : Prop where
  /-- a reply is accepted only while one is awaited -/
  processing : ∀ g type, .settled g type ∈ h → g.processing = true
  /-- at no point more replies are accepted than requests were sent -/
  at_most : EverySplit (fun before e => accepted (before ++ [e]) ≤ requests (before ++ [e])) h
  /-- the auth state is left for the open state by the reply to an open AUTH -/
  opened : EverySplit (fun before e => ∀ g, e = .settled g .reply → g.state = some .auth →
    Outstanding before) h

/-- The server sent no positive reply. -/
def NoReply (h : List Event) : Prop := ∀ g, .prompt g ⟨.server, .reply⟩ ∉ h

/-- The server refused to authenticate the user, who has not sent AUTH since. -/
def Refused (h : List Event) : Prop :=
  NoReply h ∧
    ∃ h₁ g h₂, h = h₁ ++ .prompt g ⟨.server, .nreply⟩ :: h₂ ∧ .sendMsg .auth ∉ h₂

/-- The prompt is a reply of the server. -/
def IsReply (e : Event) : Prop :=
  ∃ g, e = .prompt g ⟨.server, .reply⟩ ∨ e = .prompt g ⟨.server, .nreply⟩

/-- No reply arrives between a refusal and the next AUTH. -/
def Solicited (h : List Event) : Prop :=
  EverySplit (fun before e => IsReply e → ¬ Refused before) h

/-! ## One more event -/

section Concat

variable {h es : List Event} {e : Event}

theorem noReply_concat :
    NoReply (h ++ [e]) ↔ NoReply h ∧ ∀ g, e ≠ .prompt g ⟨.server, .reply⟩ := by
  simp only [NoReply, List.mem_append, List.mem_singleton, not_or, forall_and]
  exact and_congr_right fun _ => forall_congr' fun g => not_congr eq_comm

theorem refused_concat :
    Refused (h ++ [e]) ↔ NoReply (h ++ [e]) ∧
      ((∃ g, e = .prompt g ⟨.server, .nreply⟩) ∨ Refused h ∧ e ≠ .sendMsg .auth) := by
  refine and_congr_right fun hno => ?_
  simp only [concat_eq_append_cons_iff]
  constructor
  · rintro ⟨h₁, g, h₂, ⟨rfl, rfl, he⟩ | ⟨rest, rfl, rfl⟩, hnone⟩
    · exact Or.inl ⟨g, he⟩
    · simp only [List.mem_append, List.mem_singleton, not_or] at hnone
      exact Or.inr ⟨⟨(noReply_concat.mp hno).1, h₁, g, rest, rfl, hnone.1⟩,
        fun he => hnone.2 he.symm⟩
  · rintro (⟨g, rfl⟩ | ⟨⟨-, h₁, g, h₂, rfl, hnone⟩, he⟩)
    · exact ⟨h, g, [], Or.inl ⟨rfl, rfl, rfl⟩, by simp⟩
    · refine ⟨h₁, g, _, Or.inr ⟨h₂, rfl, rfl⟩, ?_⟩
      simp only [List.mem_append, List.mem_singleton, not_or]
      exact ⟨hnone, fun heq => he heq.symm⟩

theorem outstanding_concat :
    Outstanding (h ++ [e]) ↔ e = .sendMsg .auth ∨
      Outstanding h ∧ ∀ g type, e ≠ .settled g type := by
  simp only [Outstanding, concat_eq_append_cons_iff]
  constructor
  · rintro ⟨h₁, h₂, ⟨-, rfl, rfl⟩ | ⟨rest, rfl, rfl⟩, hnone⟩
    · exact Or.inl rfl
    · simp only [List.mem_append, List.mem_singleton, not_or] at hnone
      exact Or.inr ⟨⟨h₁, rest, rfl, fun g t => (hnone g t).1⟩,
        fun g t heq => (hnone g t).2 heq.symm⟩
  · rintro (rfl | ⟨⟨h₁, h₂, rfl, hnone⟩, he⟩)
    · exact ⟨h, [], Or.inl ⟨rfl, rfl, rfl⟩, by simp⟩
    · refine ⟨h₁, _, Or.inr ⟨h₂, rfl, rfl⟩, fun g t => ?_⟩
      simp only [List.mem_append, List.mem_singleton, not_or]
      exact ⟨hnone g t, fun heq => he g t heq.symm⟩

@[simp] theorem accepted_append (h k : List Event) :
    accepted (h ++ k) = accepted h + accepted k := List.countP_append

@[simp] theorem requests_append (h k : List Event) :
    requests (h ++ k) = requests h + requests k := List.countP_append

end Concat

/-! ## The invariant -/

/-- Every reply accepted so far found a request to settle. -/
def Orderly (h : List Event) : Prop := ∀ g type, .settled g type ∈ h → g.processing = true

theorem orderly_concat {h : List Event} {e : Event} :
    Orderly (h ++ [e]) ↔ Orderly h ∧ ∀ g type, e = .settled g type → g.processing = true := by
  constructor
  · exact fun ho => ⟨fun g t hm => ho g t (by simp [hm]), fun g t he => ho g t (by simp [he])⟩
  · rintro ⟨ho, he⟩ g t hm
    rcases List.mem_append.mp hm with hm | hm
    · exact ho g t hm
    · exact he g t (List.mem_singleton.mp hm).symm

/-- What holds of the history at the end of every round: the replies that found no
request are those that arrived between a refusal and the next AUTH. -/
structure Books (h : List Event) : Prop where
  orderly_iff : Orderly h ↔ Solicited h
  at_most : EverySplit (fun before e =>
    Orderly (before ++ [e]) → accepted (before ++ [e]) ≤ requests (before ++ [e])) h
  opened : EverySplit (fun before e => ∀ g, e = .settled g .reply → g.state = some .auth →
    g.processing = true → Outstanding before) h

/-- The state pointer and comm->processing agree with the history. -/
structure Balanced (state : FsmState) (processing : Bool) (h : List Event) : Prop where
  not_interupt : state ≠ .interupt
  fresh : state = .start → ¬ Refused h
  noReply : state = .start ∨ state = .auth → NoReply h
  refused : state = .auth → (Refused h ↔ processing = false)
  outstanding : state = .auth → processing = true → Outstanding h
  replied : state = .open_ ∨ state = .join → ¬ NoReply h
  idle : state = .start ∨ state = .open_ → processing = false
  busy : state = .join → processing = true
  count : Orderly h → accepted h + processing.toNat ≤ requests h

/-- The books are kept, and balance in every state of the loop. -/
structure Settles (c : Conversation) : Prop where
  books : Books c.history
  balanced : ∀ state, c.state = some state → Balanced state c.processing c.history

/-- An event that is neither a request nor a reply, nor the acceptance of one. -/
def Quiet (e : Event) : Prop := isSettled e = false ∧ isRequest e = false ∧ ¬ IsReply e

theorem quiet_of_not_session {e : Event} (he : isSessionEvent e = false) : Quiet e := by
  cases e <;> simp_all [isSessionEvent, Quiet, isSettled, isRequest, IsReply]

theorem quiet_sendMsg {type : MsgType} (h : type ≠ .auth ∧ type ≠ .join) :
    Quiet (.sendMsg type) := by
  simp [Quiet, isSettled, isRequest, IsReply, h]

theorem quiet_prompt {g : Globals} {prompt : Prompt}
    (h : prompt.inputType = .server → prompt.type ≠ .reply ∧ prompt.type ≠ .nreply) :
    Quiet (.prompt g prompt) := by
  refine ⟨rfl, rfl, ?_⟩
  rintro ⟨g', he | he⟩
  · cases he
    exact (h rfl).1 rfl
  · cases he
    exact (h rfl).2 rfl

section Append

variable {h es : List Event} {e : Event} {state : FsmState} {processing : Bool}

theorem not_settled_of_isSettled (he : isSettled e = false) (g : Globals) (type : MsgType) :
    e ≠ .settled g type := by
  rintro rfl
  cases he

theorem Books.count (hb : Books h) : Orderly h → accepted h ≤ requests h := by
  induction h using List.reverseRecOn with
  | nil => exact fun _ => Nat.le_refl _
  | append_singleton h e => exact (everySplit_concat.mp hb.at_most).2

/-- An event other than the acceptance of a reply; a reply that arrives must not
follow a refusal. -/
theorem Books.concat (hb : Books h) (he : isSettled e = false)
    (hreply : IsReply e → ¬ Refused h) : Books (h ++ [e]) := by
  have hnot := not_settled_of_isSettled he
  have horderly : Orderly (h ++ [e]) ↔ Orderly h := by
    rw [orderly_concat]
    exact and_iff_left fun g t heq => absurd heq (hnot g t)
  refine ⟨?_, everySplit_concat.mpr ⟨hb.at_most, fun ho => ?_⟩,
    everySplit_concat.mpr ⟨hb.opened, fun g heq => absurd heq (hnot g _)⟩⟩
  · rw [horderly, hb.orderly_iff, Solicited, Solicited, everySplit_concat]
    exact (and_iff_left hreply).symm
  · have hle := hb.count (horderly.mp ho)
    have hzero : accepted [e] = 0 := by simp [accepted, he]
    rw [accepted_append, requests_append, hzero]
    omega

/-- Events that are no concern of the state machine. -/
theorem Books.append (hb : Books h) (hes : ∀ e ∈ es, isSessionEvent e = false) :
    Books (h ++ es) := by
  induction es using List.reverseRecOn with
  | nil => rw [List.append_nil]; exact hb
  | append_singleton es e ih =>
      obtain ⟨hset, -, hrep⟩ := quiet_of_not_session (hes e (by simp))
      rw [← List.append_assoc]
      exact (ih fun x hx => hes x (by simp [hx])).concat hset fun hr => absurd hr hrep

theorem Balanced.concat (hb : Balanced state processing h) (hq : Quiet e) :
    Balanced state processing (h ++ [e]) := by
  obtain ⟨hset, hreq, hrep⟩ := hq
  have hnot := not_settled_of_isSettled hset
  have hno : NoReply (h ++ [e]) ↔ NoReply h := by
    rw [noReply_concat]
    exact and_iff_left fun g heq => hrep ⟨g, Or.inl heq⟩
  have hauth : e ≠ .sendMsg .auth := by
    rintro rfl
    cases hreq
  have href : Refused (h ++ [e]) ↔ Refused h := by
    rw [refused_concat, hno]
    constructor
    · rintro ⟨-, ⟨g, heq⟩ | ⟨hr, -⟩⟩
      · exact absurd ⟨g, Or.inr heq⟩ hrep
      · exact hr
    · exact fun hr => ⟨hr.1, Or.inr ⟨hr, hauth⟩⟩
  have hzero : accepted [e] = 0 ∧ requests [e] = 0 := by simp [accepted, requests, hset, hreq]
  refine ⟨hb.not_interupt, fun hs => href.not.mpr (hb.fresh hs), fun hs => hno.mpr (hb.noReply hs),
    fun hs => href.trans (hb.refused hs),
    fun hs hp => outstanding_concat.mpr (Or.inr ⟨hb.outstanding hs hp, hnot⟩),
    fun hs => hno.not.mpr (hb.replied hs), hb.idle, hb.busy, fun ho => ?_⟩
  rw [accepted_append, requests_append, hzero.1, hzero.2]
  exact hb.count (orderly_concat.mp ho).1

theorem Balanced.append (hb : Balanced state processing h)
    (hes : ∀ e ∈ es, isSessionEvent e = false) : Balanced state processing (h ++ es) := by
  induction es using List.reverseRecOn with
  | nil => rw [List.append_nil]; exact hb
  | append_singleton es e ih =>
      rw [← List.append_assoc]
      exact (ih fun x hx => hes x (by simp [hx])).concat (quiet_of_not_session (hes e (by simp)))

end Append

/-! ## Steps -/

section Steps

variable {state : FsmState} {processing : Bool} {prompt : Prompt} {h : List Event} {g : Globals}

theorem settles_over (hb : Books h) : Settles ⟨none, processing, h⟩ :=
  ⟨hb, fun _ hs => by cases hs⟩

theorem Balanced.settles (hbal : Balanced state processing h) (hb : Books h) :
    Settles ⟨some state, processing, h⟩ :=
  ⟨hb, fun _ hs => Option.some.inj hs ▸ hbal⟩

theorem Books.sent (hb : Books h) (type : MsgType) : Books (h ++ [Event.sendMsg type]) :=
  hb.concat rfl fun ⟨g, he⟩ => by rcases he with he | he <;> cases he

/-- A reply that is not accepted does not follow a refusal. -/
theorem Balanced.books_prompted (hbal : Balanced state processing h) (hb : Books h)
    (hreact : ∀ next, react state prompt ≠ .settle next) :
    Books (h ++ [Event.prompt g prompt]) := by
  refine hb.concat rfl fun hreply hrefused => ?_
  cases state with
  | start => exact hbal.fresh rfl hrefused
  | auth =>
      obtain ⟨g, he | he⟩ := hreply
      · cases he
        exact hreact _ rfl
      · cases he
        exact hreact _ rfl
  | open_ => exact hbal.replied (Or.inl rfl) hrefused.1
  | join => exact hbal.replied (Or.inr rfl) hrefused.1
  | interupt => exact hbal.not_interupt rfl

/-- The prompt does not settle anything by itself. -/
theorem Balanced.prompted (hbal : Balanced state processing h)
    (hquiet : prompt.inputType = .server → prompt.type ≠ .reply ∧ prompt.type ≠ .nreply) :
    Balanced state processing (h ++ [Event.prompt g prompt]) :=
  hbal.concat (quiet_prompt hquiet)

/-! ### Accepting a reply -/

/-- A state function accepts a reply by settling a request; a reply it does not
accept is answered by ERR, and the session fails. -/
theorem reply_accepted_or_refused (hne : state ≠ .interupt) {type : MsgType}
    (htype : type = .reply ∨ type = .nreply) (env : Env) (w : World) :
    (∃ next, perform env w ⟨.server, type⟩ (react state ⟨.server, type⟩) =
        (goto next (settle w type), some .success)) ∨
      ∃ content, perform env w ⟨.server, type⟩ (react state ⟨.server, type⟩) =
          refuse env w ⟨.server, type⟩ content ∧
        (refuse env w ⟨.server, type⟩ content).2 ≠ some .success := by
  cases state with
  | start => rcases htype with rfl | rfl <;> exact Or.inr ⟨_, rfl, refuse_code _ _ _ _⟩
  | auth => rcases htype with rfl | rfl <;> exact Or.inl ⟨_, rfl⟩
  | open_ => rcases htype with rfl | rfl <;> exact Or.inr ⟨_, rfl, refuse_code _ _ _ _⟩
  | join => rcases htype with rfl | rfl <;> exact Or.inl ⟨_, rfl⟩
  | interupt => exact absurd rfl hne

/-- The history after a reply was accepted. -/
def settledTrace (h : List Event) (g : Globals) (prompt : Prompt) : List Event :=
  h ++ [.prompt g prompt] ++ [.settled g prompt.type]

theorem settled_orderly_iff :
    Orderly (settledTrace h g prompt) ↔ Orderly h ∧ g.processing = true := by
  rw [settledTrace, orderly_concat, orderly_concat]
  constructor
  · exact fun ho => ⟨ho.1.1, ho.2 _ _ rfl⟩
  · exact fun ho => ⟨⟨ho.1, fun g t he => by cases he⟩, fun g t he => by cases he; exact ho.2⟩

section Settle

variable {next : Option FsmState} (hbal : Balanced state processing h)
  (hreact : react state prompt = .settle next) (hoffered : Offered state processing g prompt)

include hbal

include hreact in
/-- A reply that is accepted finds no request exactly where it follows a refusal. -/
theorem Balanced.solicited_iff :
    (IsReply (.prompt g prompt) → ¬ Refused h) ↔ processing = true := by
  rcases react_settle hreact with ⟨rfl, rfl, -⟩ | ⟨rfl, rfl, -⟩ | ⟨rfl, -, -⟩
  · rw [hbal.refused rfl, Bool.not_eq_false]
    exact ⟨fun himp => himp ⟨_, Or.inl rfl⟩, fun hp _ => hp⟩
  · rw [hbal.refused rfl, Bool.not_eq_false]
    exact ⟨fun himp => himp ⟨_, Or.inr rfl⟩, fun hp _ => hp⟩
  · exact ⟨fun _ => hbal.busy rfl, fun _ _ hrefused => hbal.replied (Or.inr rfl) hrefused.1⟩

include hoffered

theorem Balanced.settled_count (ho : Orderly (settledTrace h g prompt)) :
    accepted (settledTrace h g prompt) ≤ requests (settledTrace h g prompt) := by
  obtain ⟨ho, hp⟩ := settled_orderly_iff.mp ho
  have hle := hbal.count ho
  rw [← hoffered.processing_eq, hp] at hle
  simpa [settledTrace, accepted, requests, isSettled, isRequest] using hle

include hreact

theorem Balanced.settled_books (hb : Books h) : Books (settledTrace h g prompt) := by
  refine ⟨?_, ?_, ?_⟩
  · rw [settled_orderly_iff, hb.orderly_iff, hoffered.processing_eq,
      ← hbal.solicited_iff (g := g) hreact, settledTrace, Solicited, Solicited, everySplit_concat,
      everySplit_concat]
    exact (and_iff_left fun ⟨g, he⟩ => by rcases he with he | he <;> cases he).symm
  · refine everySplit_concat.mpr ⟨everySplit_concat.mpr ⟨hb.at_most, fun ho => ?_⟩,
      hbal.settled_count hoffered⟩
    have hle := hb.count (orderly_concat.mp ho).1
    simpa [accepted, requests, isSettled, isRequest] using hle
  · refine everySplit_concat.mpr ⟨everySplit_concat.mpr ⟨hb.opened, fun g he => by cases he⟩,
      fun g he hauth hp => ?_⟩
    obtain ⟨rfl, -⟩ := Event.settled.inj he
    have hs : state = .auth := Option.some.inj (hoffered.state_eq.symm.trans hauth)
    have hout := hbal.outstanding hs (hoffered.processing_eq.symm.trans hp)
    exact outstanding_concat.mpr (Or.inr ⟨hout, fun g t he => by cases he⟩)

theorem Balanced.settled_balanced : Balanced (next.getD state) false (settledTrace h g prompt) := by
  have hno : NoReply (settledTrace h g prompt) ↔
      NoReply h ∧ ∀ g', Event.prompt g prompt ≠ .prompt g' ⟨.server, .reply⟩ := by
    rw [settledTrace, noReply_concat, noReply_concat]
    exact and_iff_left fun g he => by cases he
  have hopen : ¬ NoReply (settledTrace h g prompt) →
      Balanced .open_ false (settledTrace h g prompt) := fun hreplied =>
    ⟨by simp, by simp, by simp, by simp, by simp, fun _ => hreplied, fun _ => rfl, by simp,
      hbal.settled_count hoffered⟩
  rcases react_settle hreact with ⟨rfl, rfl, rfl⟩ | ⟨rfl, rfl, rfl⟩ | ⟨rfl, -, rfl⟩
  · exact hopen fun h => (hno.mp h).2 _ rfl
  · -- after a refusal the session stays in the auth state, with nothing awaited
    have hno' : NoReply (settledTrace h g ⟨.server, .nreply⟩) :=
      hno.mpr ⟨hbal.noReply (Or.inr rfl), fun g he => by cases he⟩
    have hrefused : Refused (settledTrace h g ⟨.server, .nreply⟩) :=
      refused_concat.mpr ⟨hno', Or.inr ⟨refused_concat.mpr
        ⟨(noReply_concat.mp hno').1, Or.inl ⟨_, rfl⟩⟩, by simp⟩⟩
    exact ⟨by simp, by simp, fun _ => hno', fun _ => ⟨fun _ => rfl, fun _ => hrefused⟩, by simp,
      by simp, by simp, by simp, hbal.settled_count hoffered⟩
  · exact hopen fun h => hbal.replied (Or.inr rfl) (hno.mp h).1

end Settle

/-! ### The other reactions -/

/-- A request opens what a reply may settle. -/
theorem Balanced.request (hb : Balanced state processing h) {type : MsgType}
    {next : Option FsmState} (hreact : react state prompt = .request type next) :
    Balanced (next.getD state) true (h ++ [Event.sendMsg type]) := by
  obtain ⟨-, hcases⟩ := react_request hreact
  have hcount : Orderly (h ++ [Event.sendMsg type]) →
      accepted (h ++ [Event.sendMsg type]) + true.toNat ≤ requests (h ++ [Event.sendMsg type]) := by
    intro ho
    have hle := (Nat.le_add_right _ _).trans (hb.count (orderly_concat.mp ho).1)
    rcases hcases with ⟨-, rfl, -⟩ | ⟨-, rfl, -⟩ | ⟨-, rfl, -⟩ <;>
      simpa [accepted, requests, isSettled, isRequest] using hle
  have hauth : state = .start ∨ state = .auth → type = .auth →
      Balanced .auth true (h ++ [Event.sendMsg type]) := by
    rintro hs rfl
    refine ⟨by simp, by simp, fun _ => noReply_concat.mpr ⟨hb.noReply hs, by simp⟩, fun _ => ?_,
      fun _ _ => outstanding_concat.mpr (Or.inl rfl), by simp, by simp, by simp, hcount⟩
    simp [refused_concat]
  rcases hcases with ⟨rfl, rfl, rfl⟩ | ⟨rfl, rfl, rfl⟩ | ⟨rfl, rfl, rfl⟩
  · exact hauth (Or.inl rfl) rfl
  · exact hauth (Or.inr rfl) rfl
  · exact ⟨by simp, by simp, by simp, by simp, by simp,
      fun _ hno => hb.replied (Or.inl rfl) (noReply_concat.mp hno).1, by simp, fun _ => rfl, hcount⟩

/-- The answer to a prompt keeps the books. -/
theorem answer_settles (hbal : Balanced state processing h) (hb : Books h)
    (hoffered : Offered state processing g prompt) :
    Settles
      (answer state processing (h ++ [Event.prompt g prompt]) g prompt (react state prompt)) := by
  have hprompt : (∀ next, react state prompt ≠ .settle next) →
      Books (h ++ [Event.prompt g prompt]) :=
    hbal.books_prompted hb
  cases hreact : react state prompt with
  | stop => exact settles_over (hprompt (by simp [hreact]))
  | stay printed =>
      have hprompted := hbal.prompted (g := g) fun hs => by
        rcases react_stay hreact hs with ht | ht <;> simp [ht]
      exact hprompted.settles (hprompt (by simp [hreact]))
  | leave => exact settles_over (hprompt (by simp [hreact]))
  | settle next =>
      exact (hbal.settled_balanced hreact hoffered).settles (hbal.settled_books hreact hoffered hb)
  | request type next =>
      have hb' := hprompt (by simp [hreact])
      obtain ⟨rfl, -⟩ := react_request hreact
      have hprompted : Balanced state processing (h ++ [Event.prompt g ⟨.user, type⟩]) :=
        hbal.prompted fun hs => by cases hs
      exact (hprompted.request hreact).settles (hb'.sent type)
  | chat =>
      have hb' := hprompt (by simp [hreact])
      obtain ⟨rfl, rfl⟩ := react_chat hreact
      have hprompted : Balanced .open_ processing (h ++ [Event.prompt g ⟨.user, .msg⟩]) :=
        hbal.prompted fun hs => by cases hs
      exact (hprompted.concat (quiet_sendMsg (by simp))).settles (hb'.sent .msg)
  | refuse content => exact settles_over ((hprompt (by simp [hreact])).sent .err)

end Steps

/-- Every step keeps the books. -/
theorem step_settles {c c' : Conversation} (hc : Settles c) (hstep : Step c c') : Settles c' := by
  cases hstep with
  | quiet _ e he =>
      have hes : ∀ x ∈ [e], isSessionEvent x = false := by simpa using he
      exact ⟨hc.books.append hes, fun state hs => (hc.balanced state hs).append hes⟩
  | interrupted state h => exact settles_over (hc.books.sent .bye)
  | prompted h hoffered => exact answer_settles (hc.balanced _ rfl) hc.books hoffered

theorem start_settles : Settles start := by
  refine Balanced.settles ?_ ⟨by simp [Orderly, Solicited, everySplit_nil], everySplit_nil,
    everySplit_nil⟩
  exact ⟨by simp, by simp [Refused], by simp [NoReply], by simp, by simp, by simp, fun _ => rfl,
    by simp, fun _ => Nat.le_refl _⟩

/-- A round over UDP in which the user types a line; the message that may be sent
is confirmed. -/
def userRound (line : String) (msgId : UInt16) : Round where
  env := udpEnv { results := [.ready none (some (.line (ascii line)))] } true
    [⟨true, delivery (headerBytes .confirm msgId)⟩]

/-- A round over UDP in which a datagram arrives. -/
def serverRound (d : Bytes) : Round where
  env := udpEnv { results := [.ready (some (delivery d)) none] } true []

/-- The reply of the server to the message with ID 0. -/
def sampleReply (msgId : UInt16) (result : UInt8) : Bytes :=
  headerBytes .reply msgId ++ [result, 0, 0] ++ ascii "x" ++ [0]

/-- comm->processing when a reply was accepted. -/
def processingAt : Event → Option Bool
  | .settled g _ => some g.processing
  | _ => none

/-- Every session keeps the books. -/
theorem fsm_books {w : World} {rounds : List Round} (hidle : w.processing = false)
    (hnew : w.trace = []) (hrounds : ∀ r ∈ rounds, Admissible r.env) :
    Books (fsm w rounds).1.trace := by
  obtain ⟨c, hc, hhistory⟩ := fsm_invariant start_settles (fun _ _ => step_settles) hidle hnew
    hrounds
  exact hhistory ▸ hc.books

/-- Over every session, replies settle requests one to one exactly if no reply
arrives between a refusal and the next AUTH. -/
theorem replies_settle_requests_iff (w : World) (rounds : List Round)
    (hidle : w.processing = false) (hnew : w.trace = [])
    (hrounds : ∀ r ∈ rounds, Admissible r.env) :
    OneToOne (fsm w rounds).1.trace ↔ Solicited (fsm w rounds).1.trace := by
  have hb := fsm_books hidle hnew hrounds
  refine ⟨fun hone => hb.orderly_iff.mp hone.processing, fun hsol => ?_⟩
  have ho := hb.orderly_iff.mpr hsol
  refine ⟨ho, ?_, ?_⟩
  · rintro before e after hsplit
    refine hb.at_most before e after hsplit fun g t hm => ho g t ?_
    rw [hsplit, List.append_cons]
    exact List.mem_append_left _ hm
  · rintro before e after hsplit g rfl hauth
    exact hb.opened before _ after hsplit g rfl hauth (ho g .reply (by simp [hsplit]))

/-- AUTH is refused; the user repeats it, and the server accepts. -/
def repeatedAuth : List Round :=
  [userRound "/auth u s n" 0, serverRound (sampleReply 0 0), userRound "/auth u s n" 1,
   serverRound (headerBytes .reply 1 ++ [1, 0, 1] ++ ascii "x" ++ [0])]

/-- Each of the two replies settles one request. -/
theorem replies_settle_requests_iff_repeated :
    OneToOne (fsm (World.init sampleClient 3) repeatedAuth).1.trace := by
  have hrounds : ∀ r ∈ repeatedAuth, Admissible r.env := by
    intro r hr
    simp only [repeatedAuth, List.mem_cons, List.not_mem_nil, or_false] at hr
    rcases hr with rfl | rfl | rfl | rfl <;> exact udpEnv_admissible _ _ _
  have hflags : (fsm (World.init sampleClient 3) repeatedAuth).1.trace.filterMap processingAt =
      [true, true] := by
    decide
  apply (replies_settle_requests_iff (World.init sampleClient 3) repeatedAuth rfl rfl hrounds).mpr
  apply (fsm_books rfl rfl hrounds).orderly_iff.mp
  intro g type hmem
  have hflag : g.processing ∈ [true, true] :=
    hflags ▸ List.mem_filterMap.mpr ⟨.settled g type, hmem, rfl⟩
  simpa using hflag

/-- AUTH is refused; a second, positive reply to it opens the session. -/
theorem reply_after_refusal_is_accepted :
    ¬ OneToOne (fsm (World.init sampleClient 3) [userRound "/auth u s n" 0,
      serverRound (sampleReply 0 0), serverRound (sampleReply 1 1)]).1.trace := by
  intro hone
  have hflags : (fsm (World.init sampleClient 3) [userRound "/auth u s n" 0,
      serverRound (sampleReply 0 0), serverRound (sampleReply 1 1)]).1.trace.filterMap
        processingAt = [true, false] := by
    decide
  obtain ⟨e, hmem, he⟩ := List.mem_filterMap.mp (hflags ▸ (by simp : false ∈ [true, false]))
  cases e with
  | settled g type =>
      have hp := hone.processing g type hmem
      rw [Option.some.inj he] at hp
      cases hp
  | _ => cases he

end IpkChat.Session
