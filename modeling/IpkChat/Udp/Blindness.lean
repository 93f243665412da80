/-
  Udp/Blindness.lean --- what the UDP variant does not look at.

  A `Disregard` is a relation between clients that differ in fields that no function of
  the variant reads: its steps take such clients to such clients, whoever the datagrams
  come from.  Worlds that are otherwise the same, and in which the same messages were
  sent, are `Alike`; from alike worlds every step returns the same and leaves alike
  worlds.
-/
import IpkChat.Foundation.Refinement
import IpkChat.Udp.Receptions

set_option autoImplicit false

namespace IpkChat.Udp

open IpkChat.Foundation IpkChat.Core

/-! ## Alike worlds -/

/-- The message that an event sends. -/
@[simp] def sentOf : Event → Option (MsgType × Bytes)
  | .transmit type _ m => some (type, m)
  | _ => none

/-- The messages sent, with their types, in order. -/
abbrev sent (h : List Event) : List (MsgType × Bytes) := h.filterMap sentOf

/-- Clients that are alike, and the arrivals that keep them so. -/
structure Disregard where
  client : Client → Client → Prop
  arrival : Arrival → Arrival → Prop
  msgId_eq : ∀ {c c'}, client c c' → c'.msgId = c.msgId
  setMsgId : ∀ {c c'}, client c c' → ∀ id, client { c with msgId := id } { c' with msgId := id }
  failed : ∀ {a a' errno}, arrival a a' → a.result = .failed errno → a' = a
  data : ∀ {a a' src d errno}, arrival a a' → a.result = .data src d errno →
    ∃ src', a' = { a with result := .data src' d errno } ∧
      ∀ {c c'}, client c c' → client { c with res := src } { c' with res := src' }

/-- The client and the history may differ, but not in what was sent. -/
inductive Alike (R : Disregard) (w : World) : World → Prop where
  | intro (client : Client) (trace : List Event) (hclient : R.client w.client client)
      (hsent : sent trace = sent w.trace) :
      Alike R w { w with client := client, trace := trace }

section Alike

variable {R : Disregard} {w w' : World}

theorem Alike.client (h : Alike R w w') : R.client w.client w'.client := by
  cases h with
  | intro client trace hclient hsent => exact hclient

theorem Alike.sent_eq (h : Alike R w w') : sent w'.trace = sent w.trace := by
  cases h with
  | intro client trace hclient hsent => exact hsent

/-- All globals but the client are the same. -/
theorem Alike.globals_eq (h : Alike R w w') :
    w'.toGlobals = { w.toGlobals with client := w'.client } := by
  cases h with
  | intro client trace hclient hsent => rfl

theorem Alike.retransmissions_eq (h : Alike R w w') : w'.retransmissions = w.retransmissions := by
  rw [h.globals_eq]

theorem Alike.msgIdList_eq (h : Alike R w w') : w'.msgIdList = w.msgIdList := by
  rw [h.globals_eq]

theorem Alike.msgQueue_eq (h : Alike R w w') : w'.msgQueue = w.msgQueue := by
  rw [h.globals_eq]

/-- Nothing is sent by events that may differ. -/
theorem Alike.emit (h : Alike R w w') {e e' : Event} (he : sentOf e' = sentOf e) :
    Alike R (w.emit e) (w'.emit e') := by
  obtain ⟨client, trace, hclient, hsent⟩ := h
  refine .intro client (trace ++ [e']) hclient ?_
  simp only [World.emit_trace, List.filterMap_append, filterMap_cons_append, hsent, he]

theorem Alike.print (h : Alike R w w') (o : Output) : Alike R (w.print o) (w'.print o) :=
  h.emit rfl

theorem Alike.printParsed (h : Alike R w w') (p : Parsed) :
    Alike R (w.printParsed p) (w'.printParsed p) := by
  unfold World.printParsed
  split
  · exact h
  · exact h.print _

theorem Alike.received (h : Alike R w w') (site : Site) (before before' : Globals)
    (a a' : Arrival) (d : Bytes) (fate : Fate) :
    Alike R (w.received site before a d fate) (w'.received site before' a' d fate) :=
  h.emit rfl

/-- An assignment to a global other than the client. -/
theorem Alike.assign (h : Alike R w w') (f : World → World)
    (hf : ∀ w client trace, f { w with client := client, trace := trace } =
      { f w with client := client, trace := trace })
    (hclient : (f w).client = w.client) (htrace : (f w).trace = w.trace) :
    Alike R (f w) (f w') := by
  obtain ⟨client, trace, hrel, hsent⟩ := h
  rw [hf w client trace]
  exact .intro client trace (hclient ▸ hrel) (htrace ▸ hsent)

end Alike

/-! ## Steps from alike worlds -/

/-- No parser reads more of the client than its message ID. -/
theorem parseFunc_congr {buffer : Bytes} {entry : UdpMsg} (h : findMsg buffer = some entry)
    {c c' : Client} (hid : c'.msgId = c.msgId) (b : Bytes) (n : Nat) :
    entry.parseFunc c' b n = entry.parseFunc c b n := by
  have hmem : entry ∈ msgTable := List.mem_of_find?_eq_some h
  simp only [msgTable_eq, List.mem_cons, List.not_mem_nil, or_false] at hmem
  rcases hmem with rfl | rfl | rfl | rfl | rfl | rfl | rfl | rfl
  · simp only [udpParseConfirm_eq, hid]
  · simp only [udpParseReply_eq, hid]
  all_goals rfl

section Steps

variable {R : Disregard} {w w' : World} {a a' : Arrival}

theorem isAwaited_congr {c c' : Client} (hid : c'.msgId = c.msgId) (d : Bytes) :
    isAwaited c' d = isAwaited c d := by
  rw [isAwaited, isAwaited, hid]

/-- recvfrom stores the address of the sender. -/
theorem alike_stored (h : Alike R w w') {src src' : SockAddr}
    (hres : ∀ {c c'}, R.client c c' → R.client { c with res := src } { c' with res := src' }) :
    Alike R { w with client := { w.client with res := src } }
      { w' with client := { w'.client with res := src' } } := by
  obtain ⟨client, trace, hclient, hsent⟩ := h
  exact .intro { client with res := src' } trace (hres hclient) hsent

/-- A datagram is stored, answered and taken by alike worlds alike. -/
theorem alike_confirmed (h : Alike R w w') {src src' : SockAddr}
    (hres : ∀ {c c'}, R.client c c' → R.client { c with res := src } { c' with res := src' })
    (d : Bytes) : Alike R (confirmed w src d) (confirmed w' src' d) := by
  obtain ⟨client, trace, hclient, hsent⟩ := h
  refine .intro { client with res := src' } (trace ++ confirmEvents src' d) (hres hclient) ?_
  simp [hsent]

theorem SendOutcome.alike {res : World × Next} (hout : SendOutcome w a res) (h : Alike R w w')
    (ha : R.arrival a a') :
    ∃ w₁', SendOutcome w' a' (w₁', res.2) ∧ Alike R res.1 w₁' := by
  have hid : w'.client.msgId = w.client.msgId := R.msgId_eq h.client
  have haw' := isAwaited_congr hid
  cases hout with
  | noData client next hclient hnext errno hcode hresult =>
      rcases hresult with ⟨hresult, rfl⟩ | ⟨src, d, hresult, hlen, rfl⟩
      · obtain rfl := R.failed ha hresult
        exact ⟨_, .noData w'.client next rfl hnext errno hcode (Or.inl ⟨hresult, rfl⟩), h⟩
      · obtain ⟨src', rfl, hres⟩ := R.data ha hresult
        exact ⟨_, .noData { w'.client with res := src' } next rfl hnext errno hcode
          (Or.inr ⟨src', d, rfl, hlen, rfl⟩), alike_stored h hres⟩
  | awaited src d hlen haw errno hresult =>
      obtain ⟨src', rfl, hres⟩ := R.data ha hresult
      refine ⟨_, .awaited src' d hlen ((haw' d).trans haw) errno rfl, Alike.received ?_ ..⟩
      obtain ⟨client, trace, hclient, hsent⟩ := h
      rw [hid]
      exact .intro _ _ (R.setMsgId (hres hclient) _) hsent
  | unconfirmed src d hlen haw hcan errno hresult =>
      obtain ⟨src', rfl, hres⟩ := R.data ha hresult
      exact ⟨_, .unconfirmed src' d hlen ((haw' d).trans haw) hcan errno rfl,
        (alike_stored h hres).received ..⟩
  | duplicate src d hlen haw hcan hmem errno hresult =>
      obtain ⟨src', rfl, hres⟩ := R.data ha hresult
      have hconfirmed := alike_confirmed h hres d
      obtain ⟨client, trace, hclient, hsent⟩ := h
      exact ⟨_, .duplicate src' d hlen ((haw' d).trans haw) hcan hmem errno rfl,
        hconfirmed.received ..⟩
  | queueFull src d hlen haw hcan hmem hadd errno hresult =>
      obtain ⟨src', rfl, hres⟩ := R.data ha hresult
      have hconfirmed := alike_confirmed h hres d
      obtain ⟨client, trace, hclient, hsent⟩ := h
      exact ⟨_, .queueFull src' d hlen ((haw' d).trans haw) hcan hmem hadd errno rfl,
        hconfirmed.received ..⟩
  | unrecorded src d queue list hlen haw hcan hmem hqueue hlist errno hresult =>
      obtain ⟨src', rfl, hres⟩ := R.data ha hresult
      have hconfirmed := (alike_confirmed h hres d).assign
        (fun w => { w with msgQueue := queue, msgIdList := list }) (fun _ _ _ => rfl) rfl rfl
      obtain ⟨client, trace, hclient, hsent⟩ := h
      exact ⟨_, .unrecorded src' d queue list hlen ((haw' d).trans haw) hcan hmem hqueue hlist
        errno rfl, hconfirmed.received ..⟩
  | queued src d queue list hlen haw hcan hmem hqueue hlist errno hresult =>
      obtain ⟨src', rfl, hres⟩ := R.data ha hresult
      have hconfirmed := (alike_confirmed h hres d).assign
        (fun w => { w with msgQueue := queue, msgIdList := list }) (fun _ _ _ => rfl) rfl rfl
      obtain ⟨client, trace, hclient, hsent⟩ := h
      exact ⟨_, .queued src' d queue list hlen ((haw' d).trans haw) hcan hmem hqueue hlist
        errno rfl, hconfirmed.received ..⟩

theorem agree_udpSendReceive (h : Alike R w w') (ha : R.arrival a a') :
    Agree (Alike R) (udpSendReceive w a) (udpSendReceive w' a') := by
  obtain ⟨w₁', hout, halike⟩ := (udpSendReceive_outcome w a).alike h ha
  rw [hout.eq]
  exact ⟨halike, rfl⟩

theorem RecvOutcome.alike {res : World × MsgType} (hout : RecvOutcome w a res)
    (h : Alike R w w') (ha : R.arrival a a') :
    ∃ w₁', RecvOutcome w' a' (w₁', res.2) ∧ Alike R res.1 w₁' := by
  cases hout with
  | failed errno hresult =>
      obtain rfl := R.failed ha hresult
      exact ⟨_, .failed errno hresult, h.print _⟩
  | truncated src d hlen errno hresult =>
      obtain ⟨src', rfl, hres⟩ := R.data ha hresult
      exact ⟨_, .truncated src' d hlen errno rfl, ((alike_stored h hres).print _).received ..⟩
  | unconfirmed src d hlen hcan errno hresult =>
      obtain ⟨src', rfl, hres⟩ := R.data ha hresult
      exact ⟨_, .unconfirmed src' d hlen hcan errno rfl, (alike_stored h hres).received ..⟩
  | unknownType src d hlen hcan hfind errno hresult =>
      obtain ⟨src', rfl, hres⟩ := R.data ha hresult
      exact ⟨_, .unknownType src' d hlen hcan hfind errno rfl,
        ((alike_confirmed h hres d).print _).received ..⟩
  | duplicate src d hlen hcan hknown hmem errno hresult =>
      obtain ⟨src', rfl, hres⟩ := R.data ha hresult
      have hconfirmed := alike_confirmed h hres d
      obtain ⟨client, trace, hclient, hsent⟩ := h
      exact ⟨_, .duplicate src' d hlen hcan hknown hmem errno rfl, hconfirmed.received ..⟩
  | unrecorded src d list hlen hcan hknown hmem hlist errno hresult =>
      obtain ⟨src', rfl, hres⟩ := R.data ha hresult
      have hconfirmed := (alike_confirmed h hres d).assign
        (fun w => { w with msgIdList := list }) (fun _ _ _ => rfl) rfl rfl
      obtain ⟨client, trace, hclient, hsent⟩ := h
      exact ⟨_, .unrecorded src' d list hlen hcan hknown hmem hlist errno rfl,
        hconfirmed.received ..⟩
  | dispatched src d list p hlen hcan hknown hmem hlist errno hresult entry hfind hp =>
      obtain ⟨src', rfl, hres⟩ := R.data ha hresult
      have hconfirmed := (alike_confirmed h hres d).assign
        (fun w => { w with msgIdList := list }) (fun _ _ _ => rfl) rfl rfl
      have hparse := parseFunc_congr hfind (R.msgId_eq (hres h.client)) (rcvBuffer d) (rcvLen d)
      obtain ⟨client, trace, hclient, hsent⟩ := h
      exact ⟨_, .dispatched src' d list p hlen hcan hknown hmem hlist errno rfl entry hfind
        (hp.trans hparse.symm), ((hconfirmed.emit rfl).printParsed p).received ..⟩

theorem agree_udpRecvMsg (h : Alike R w w') (ha : R.arrival a a') :
    Agree (Alike R) (udpRecvMsg w a) (udpRecvMsg w' a') := by
  obtain ⟨w₁', hout, halike⟩ := (udpRecvMsg_outcome w a).alike h ha
  rw [hout.eq]
  exact ⟨halike, rfl⟩

theorem CheckOutcome.alike {beyond : Bytes} {res : World × Option MsgType}
    (hout : CheckOutcome w beyond res) (h : Alike R w w') :
    ∃ w₁', CheckOutcome w' beyond (w₁', res.2) ∧ Alike R res.1 w₁' := by
  have hid : w'.client.msgId = w.client.msgId := R.msgId_eq h.client
  cases hout with
  | empty hempty =>
      have hw' := h
      obtain ⟨client, trace, hclient, hsent⟩ := h
      exact ⟨_, .empty hempty, hw'⟩
  | unknownType m queue hfront hfind =>
      have hqueue := h.assign (fun w => { w with msgQueue := queue }) (fun _ _ _ => rfl) rfl rfl
      obtain ⟨client, trace, hclient, hsent⟩ := h
      exact ⟨_, .unknownType m queue hfront hfind, hqueue.print _⟩
  | dispatched m queue entry hfront hfind =>
      have hqueue := h.assign (fun w => { w with msgQueue := queue }) (fun _ _ _ => rfl) rfl rfl
      have hparse := parseFunc_congr hfind hid (m.msg ++ beyond) m.msgLen
      have hfront' : queueFront w'.msgQueue = (queue, some m) := by
        obtain ⟨client, trace, hclient, hsent⟩ := h
        exact hfront
      have hout' : CheckOutcome w' beyond _ := .dispatched m queue entry hfront' hfind
      rw [hparse] at hout'
      exact ⟨_, hout', (hqueue.emit rfl).printParsed _⟩

theorem agree_udpCheckPrevious (h : Alike R w w') (beyond : Bytes) :
    Agree (Alike R) (udpCheckPrevious w beyond) (udpCheckPrevious w' beyond) := by
  obtain ⟨w₁', hout, halike⟩ := (udpCheckPrevious_outcome w beyond).alike h
  rw [hout.eq]
  exact ⟨halike, rfl⟩

/-- The receives of two passes are alike, and the sendtos end alike. -/
def SameAttempt (R : Disregard) (attempt attempt' : Attempt) : Prop :=
  attempt'.sendto = attempt.sendto ∧ R.arrival attempt.arrival attempt'.arrival

theorem agree_udpSendLoop {type : MsgType} {msg : Bytes} {attempts attempts' : List Attempt}
    (hattempts : List.Forall₂ (SameAttempt R) attempts attempts') (h : Alike R w w') (i : Int)
    (resend : Bool) :
    Agree (Alike R) (udpSendLoop type msg w i resend attempts)
      (udpSendLoop type msg w' i resend attempts') := by
  induction hattempts generalizing w w' i resend with
  | nil =>
      unfold udpSendLoop
      rw [h.retransmissions_eq]
      split
      · exact ⟨h, rfl⟩
      · exact ⟨h, rfl⟩
  | @cons attempt attempt' rest rest' hattempt hrest ih =>
      obtain ⟨hsendto, harrival⟩ := hattempt
      have htransmitted : Alike R (transmitted type msg w resend)
          (transmitted type msg w' resend) := by
        cases resend with
        | false => exact h
        | true => exact h.emit rfl
      rw [udpSendLoop_step, udpSendLoop_step, h.retransmissions_eq, hsendto]
      split
      · split
        · exact ⟨htransmitted, rfl⟩
        · have hpass := agree_udpSendReceive htransmitted harrival
          refine Agree.elim hpass fun w₁ w₁' next halike => ?_
          cases next with
          | done code => exact ⟨halike, rfl⟩
          | timedOut => exact ih halike (i + 1) true
          | unrelated => exact ih halike i false
      · exact ⟨h, rfl⟩

/-- A message built alike is sent alike. -/
theorem agree_udpSendMsg {type : MsgType} {attempts attempts' : List Attempt}
    (hattempts : List.Forall₂ (SameAttempt R) attempts attempts') (h : Alike R w w')
    (hbuild : udpBuildMsg w'.client type = udpBuildMsg w.client type) (alloc : Bool) :
    Agree (Alike R) (udpSendMsg w type alloc attempts) (udpSendMsg w' type alloc attempts') := by
  unfold udpSendMsg
  rw [hbuild]
  split
  · exact ⟨h, rfl⟩
  · exact agree_udpSendLoop hattempts h 0 true

end Steps

end IpkChat.Udp
