/-
  Udp/Receptions.lean --- the log of received datagrams.

  The history of a run holds one `Reception` for each datagram received.  This
  file reads three things off it: which IDs are in msg_id_list, which datagrams
  were confirmed, and what became of the messages of the server.

  `Handled` says what one reception does to msg_id_list and to the history, faults
  included, and `udpRun_logged` that a run is a sequence of receptions and of
  steps that none of the three readings sees.
-/
import IpkChat.Udp.Steps

set_option autoImplicit false

namespace IpkChat.Udp

open IpkChat.Foundation IpkChat.Core

/-! ## Reading the history -/

/-- The entry of the log that an event is. -/
@[simp] def receptionOf : Event → Option Reception
  | .received r => some r
  | _ => none

/-- The datagrams received, in order. -/
abbrev receptions (h : List Event) : List Reception := h.filterMap receptionOf

/-- The CONFIRM message that an event sends. -/
@[simp] def confirmOf : Event → Option Bytes
  | .confirm m _ => some m
  | _ => none

/-- The CONFIRM messages sent, in order. -/
abbrev confirms (h : List Event) : List Bytes := h.filterMap confirmOf

/-- The datagram that an event hands to a parser. -/
@[simp] def parsedOf : Event → Option Bytes
  | .parsed m => some m
  | _ => none

/-- The datagrams handed to a parser by udp_process_msg, in order. -/
abbrev parsedMsgs (h : List Event) : List Bytes := h.filterMap parsedOf

/-- What a reading takes from the answer to a datagram. -/
@[simp] theorem filterMap_confirmEvents {ρ : Type} (read : Event → Option ρ) (src : SockAddr)
    (d : Bytes) : (confirmEvents src d).filterMap read =
      if isConfirm d then []
      else (read (.confirm (headerBytes .confirm (rcvId d)) src)).toList := by
  unfold confirmEvents
  split
  · rfl
  · simp

/-- What a reading takes from the output of a parser. -/
@[simp] theorem filterMap_printEvents {ρ : Type} (read : Event → Option ρ) (p : Parsed) :
    (World.printEvents p).filterMap read =
      (p.printed.bind fun o => read (.print o)).toList := by
  rw [World.printEvents, filterMap_toList, Option.bind_map]
  rfl

@[simp] theorem received_toGlobals (w : World) (site : Site) (before : Globals) (a : Arrival)
    (d : Bytes) (fate : Fate) : (w.received site before a d fate).toGlobals = w.toGlobals := rfl

@[simp] theorem received_trace (w : World) (site : Site) (before : Globals) (a : Arrival)
    (d : Bytes) (fate : Fate) :
    (w.received site before a d fate).trace =
      w.trace ++ [.received ⟨site, before, a, d, w.toGlobals, fate⟩] := rfl

/-! ## What a reception does -/

/-- A datagram with a full header that is not a CONFIRM: it carries the ID of a
message of the server. -/
def carriesServerId (d : Bytes) : Bool := decide (headerSize ≤ d.length) && !isConfirm d

/-- A message of the server: a type byte that udp_process_msg knows. -/
def isServerMsg (d : Bytes) : Bool := carriesServerId d && isKnownType d

/-- Handling the datagram puts its ID in msg_id_list.  Of those that can be
confirmed and whose ID is not there yet, udp_send_msg takes every datagram but
the awaited CONFIRM that goes into the queue, whatever its type and length;
udp_recv_msg takes every datagram with a header and a known type. -/
def recordsId (r : Reception) : Bool :=
  canConfirm r.arrival r.datagram && !listContains r.before.msgIdList (rcvId r.datagram) &&
    (match r.site with
      | .sendMsg => !isAwaited r.before.client r.datagram &&
          (queueAdd r.before.msgQueue (rcvBuffer r.datagram) (rcvLen r.datagram)
            r.arrival.queueAlloc).2
      | .recvMsg => decide (headerSize ≤ r.datagram.length) && isKnownType r.datagram) &&
    (listAppend r.before.msgIdList (rcvId r.datagram) r.arrival.listAlloc).2 == .success

/-- The datagram is answered by a CONFIRM. -/
def isAnswered (r : Reception) : Bool :=
  !isConfirm r.datagram && canConfirm r.arrival r.datagram &&
    match r.site with
    | .sendMsg => true
    | .recvMsg => decide (headerSize ≤ r.datagram.length)

/-- The CONFIRM that answers a reception. -/
def answerTo (r : Reception) : Bytes := headerBytes .confirm (rcvId r.datagram)

/-- The datagram was dispatched or queued, or the call failed on a full queue. -/
def Delivered (r : Reception) : Prop :=
  r.fate = .dispatched ∨ r.fate = .queued ∨
    r.fate = .queueFull ∧ queueIsFull r.before.msgQueue = true

instance (r : Reception) : Decidable (Delivered r) :=
  inferInstanceAs (Decidable (_ ∨ _ ∨ _ ∧ _))

/-- No allocation fails and the CONFIRM is sent. -/
def noFault (a : Arrival) : Prop :=
  a.confirmAlloc = true ∧ a.confirmSendto = true ∧ a.queueAlloc = true ∧ a.listAlloc = true

instance (a : Arrival) : Decidable (noFault a) := inferInstanceAs (Decidable (_ ∧ _))

theorem awaited_isConfirm {c : Client} {d : Bytes} (h : isAwaited c d = true) :
    isConfirm d = true ∧ rcvLen d = 3 := by
  simp only [isAwaited, Bool.and_eq_true, beq_iff_eq] at h
  exact ⟨h.1.2, h.1.1⟩

theorem not_isServerMsg_of_isConfirm {d : Bytes} (h : isConfirm d = true) :
    isServerMsg d = false := by
  simp [isServerMsg, carriesServerId, h]

theorem canConfirm_of_noFault {a : Arrival} (h : noFault a) (d : Bytes) :
    canConfirm a d = true := by
  simp [canConfirm, h.1, h.2.1]

/-! ## Steps of the log -/

/-- The handling of the reception `r`, from `w` to `w'`. -/
structure Handled (w : World) (a : Arrival) (w' : World) (r : Reception) : Prop where
  before_eq : r.before = w.toGlobals
  arrival_eq : r.arrival = a
  after_eq : r.after = w'.toGlobals
  trace_eq : ∃ extra, w'.trace = w.trace ++ extra ++ [.received r] ∧ receptions extra = [] ∧
    confirms extra = if isAnswered r then [answerTo r] else []
  list_eq : if recordsId r then
      listAppend w.msgIdList (rcvId r.datagram) a.listAlloc = (w'.msgIdList, .success)
    else w'.msgIdList = w.msgIdList ∨
      listAppend w.msgIdList (rcvId r.datagram) a.listAlloc = (w'.msgIdList, .failure)
  delivered_iff : noFault a → isServerMsg r.datagram = true →
    (Delivered r ↔ listContains w.msgIdList (rcvId r.datagram) = false)

/-- A step that receives no datagram, sends no CONFIRM and leaves the list alone. -/
structure Silent (w w' : World) : Prop where
  list_eq : w'.msgIdList = w.msgIdList
  trace_eq : ∃ extra, w'.trace = w.trace ++ extra ∧ receptions extra = [] ∧ confirms extra = []

theorem Handled.receptions_eq {w w' : World} {a : Arrival} {r : Reception}
    (h : Handled w a w' r) : receptions w'.trace = receptions w.trace ++ [r] := by
  obtain ⟨extra, htrace, hrec, -⟩ := h.trace_eq
  simp [htrace, hrec]

theorem Silent.receptions_eq {w w' : World} (h : Silent w w') :
    receptions w'.trace = receptions w.trace := by
  obtain ⟨extra, htrace, hrec, -⟩ := h.trace_eq
  simp [htrace, hrec]

/-- A step that meets `a` is silent or handles one reception. -/
def LogStep (w : World) (a : Arrival) (w' : World) : Prop :=
  Silent w w' ∨ ∃ r, Handled w a w' r

/-- A reception written to the log of `w₁`, the world after its handling. -/
theorem logStep_received {w w₁ : World} {site : Site} {a : Arrival} {d : Bytes} {fate : Fate}
    {r : Reception} (extra : List Event) (htrace : w₁.trace = w.trace ++ extra)
    (hr : ⟨site, w.toGlobals, a, d, w₁.toGlobals, fate⟩ = r)
    (receptions_eq : receptions extra = [])
    (confirms_eq : confirms extra = if isAnswered r then [answerTo r] else [])
    (list_eq : if recordsId r then
        listAppend w.msgIdList (rcvId d) a.listAlloc = (w₁.msgIdList, .success)
      else w₁.msgIdList = w.msgIdList ∨
        listAppend w.msgIdList (rcvId d) a.listAlloc = (w₁.msgIdList, .failure))
    (delivered_iff : noFault a → isServerMsg d = true →
      (Delivered r ↔ listContains w.msgIdList (rcvId d) = false)) :
    LogStep w a (w₁.received site w.toGlobals a d fate) := by
  subst hr
  exact Or.inr ⟨_, rfl, rfl, rfl, ⟨extra, by simp [htrace], receptions_eq, confirms_eq⟩,
    list_eq, delivered_iff⟩

/-- A datagram that cannot be confirmed changes nothing but the address of the peer. -/
theorem logStep_unconfirmed (site : Site) (w : World) (a : Arrival) (src : SockAddr) {d : Bytes}
    (hcan : canConfirm a d = false) :
    LogStep w a (({ w with client := { w.client with res := src } } : World).received site
      w.toGlobals a d .unconfirmed) := by
  refine logStep_received [] (by simp) rfl rfl ?_ ?_ ?_
  · simp [isAnswered, hcan]
  · simp [recordsId, hcan]
  · intro ha
    rw [canConfirm_of_noFault ha] at hcan
    cases hcan

theorem logStep_udpSendReceive (w : World) (a : Arrival) :
    LogStep w a (udpSendReceive w a).1 := by
  have hout := udpSendReceive_outcome w a
  generalize udpSendReceive w a = res at hout
  cases hout with
  | noData client next hclient hnext => exact Or.inl ⟨rfl, [], by simp, rfl, rfl⟩
  | awaited src d hlen haw =>
      obtain ⟨hconfirm, -⟩ := awaited_isConfirm haw
      refine logStep_received [] (by simp) rfl rfl ?_ ?_ ?_
      · simp [isAnswered, hconfirm]
      · simp [recordsId, haw]
      · simp [not_isServerMsg_of_isConfirm hconfirm]
  | unconfirmed src d hlen haw hcan =>
      exact logStep_unconfirmed .sendMsg w a src hcan
  | duplicate src d hlen haw hcan hmem =>
      refine logStep_received (confirmEvents src d) rfl rfl (by simp) ?_ ?_ ?_
      · cases hc : isConfirm d <;> simp [isAnswered, answerTo, hc, hcan]
      · simp [recordsId, hmem, confirmed]
      · simp [Delivered, hmem]
  | queueFull src d hlen haw hcan hmem hadd =>
      refine logStep_received (confirmEvents src d) rfl rfl (by simp) ?_ ?_ ?_
      · cases hc : isConfirm d <;> simp [isAnswered, answerTo, hc, hcan]
      · simp [recordsId, hadd, confirmed]
      · intro ha _
        have hfull : queueIsFull w.msgQueue = true := queueIsFull_of_refused ha.2.2.1 hadd
        simp [Delivered, hfull, hmem]
  | unrecorded src d queue list hlen haw hcan hmem hqueue hlist =>
      refine logStep_received (confirmEvents src d) rfl rfl (by simp) ?_ ?_ ?_
      · cases hc : isConfirm d <;> simp [isAnswered, answerTo, hc, hcan]
      · simp [recordsId, hlist]
      · intro ha
        exact absurd hlist (listAppend_ne_failure ha.2.2.2)
  | queued src d queue list hlen haw hcan hmem hqueue hlist =>
      refine logStep_received (confirmEvents src d) rfl rfl (by simp) ?_ ?_ ?_
      · cases hc : isConfirm d <;> simp [isAnswered, answerTo, hc, hcan]
      · simp [recordsId, hcan, hmem, haw, hqueue, hlist]
      · simp [Delivered, hmem]

theorem logStep_udpRecvMsg (w : World) (a : Arrival) : LogStep w a (udpRecvMsg w a).1 := by
  have hout := udpRecvMsg_outcome w a
  generalize udpRecvMsg w a = res at hout
  cases hout with
  | failed => exact Or.inl ⟨rfl, _, rfl, rfl, rfl⟩
  | truncated src d hlen =>
      have hshort : ¬ headerSize ≤ d.length := by
        rw [← headerSize_le_rcvLen_iff]; omega
      refine logStep_received [.print (.error "recvfrom fault")]
        (by simp) rfl (by simp) ?_ ?_ ?_
      · simp [isAnswered, hshort]
      · simp [recordsId, hshort]
      · simp [isServerMsg, carriesServerId, hshort]
  | unconfirmed src d hlen hcan =>
      exact logStep_unconfirmed .recvMsg w a src hcan
  | unknownType src d hlen hcan hfind =>
      have hlen' := headerSize_le_rcvLen_iff.mp hlen
      have hunknown : isKnownType d = false := by simp [isKnownType, hfind]
      refine logStep_received (confirmEvents src d ++ [.print (.error "Unknown message")])
        (by simp) rfl (by simp) ?_ ?_ ?_
      · cases hc : isConfirm d <;> simp [isAnswered, answerTo, hc, hcan, hlen']
      · simp [recordsId, hunknown, confirmed]
      · simp [isServerMsg, hunknown]
  | duplicate src d hlen hcan hknown hmem =>
      have hlen' := headerSize_le_rcvLen_iff.mp hlen
      refine logStep_received (confirmEvents src d) rfl rfl (by simp) ?_ ?_ ?_
      · cases hc : isConfirm d <;> simp [isAnswered, answerTo, hc, hcan, hlen']
      · simp [recordsId, hmem, confirmed]
      · simp [Delivered, hmem]
  | unrecorded src d list hlen hcan hknown hmem hlist =>
      have hlen' := headerSize_le_rcvLen_iff.mp hlen
      refine logStep_received (confirmEvents src d) rfl rfl (by simp) ?_ ?_ ?_
      · cases hc : isConfirm d <;> simp [isAnswered, answerTo, hc, hcan, hlen']
      · simp [recordsId, hlist]
      · intro ha
        exact absurd hlist (listAppend_ne_failure ha.2.2.2)
  | dispatched src d list p hlen hcan hknown hmem hlist =>
      have hlen' := headerSize_le_rcvLen_iff.mp hlen
      refine logStep_received
        (confirmEvents src d ++ [.parsed (d.take bufferSize)] ++ World.printEvents p)
        (by simp) rfl (by simp) ?_ ?_ ?_
      · cases hc : isConfirm d <;> simp [isAnswered, answerTo, hc, hcan, hlen']
      · simp [recordsId, hcan, hmem, hlen', hknown, hlist]
      · simp [Delivered, hmem]

theorem silent_udpCheckPrevious (w : World) (beyond : Bytes) :
    Silent w (udpCheckPrevious w beyond).1 := by
  have hout := udpCheckPrevious_outcome w beyond
  generalize udpCheckPrevious w beyond = res at hout
  cases hout with
  | empty => exact ⟨rfl, [], by simp, rfl, rfl⟩
  | unknownType m queue hfront hfind => exact ⟨rfl, _, rfl, rfl, rfl⟩
  | dispatched m queue entry hfront hfind =>
      refine ⟨by simp, [.parsed ((m.msg ++ beyond).take m.msgLen)] ++ World.printEvents
        (entry.parseFunc w.client (m.msg ++ beyond) m.msgLen), by simp, by simp, by simp⟩

/-- What silent steps and receptions keep holds after every run. -/
theorem udpRun_logged {I : World → Prop} {ok : Arrival → Prop} {client : Client}
    {retransmissions : UInt8} (hinit : I (World.init client retransmissions))
    (hsilent : ∀ w w', I w → Silent w w' → I w')
    (hhandled : ∀ w a w' r, ok a → I w → Handled w a w' r → I w')
    {calls : List UdpCall} (hok : ∀ c ∈ calls, ∀ a ∈ c.arrivals, ok a) :
    I (udpRun client retransmissions calls) := by
  have hstep : ∀ w a w', ok a → I w → LogStep w a w' → I w' := by
    rintro w a w' ha hw (hs | ⟨r, hr⟩)
    · exact hsilent w w' hw hs
    · exact hhandled w a w' r ha hw hr
  exact udpRun_preserves hinit (fun w _ _ hw => hsilent w _ hw ⟨rfl, _, rfl, rfl, rfl⟩)
    (fun w a ha hw => hstep w a _ ha hw (logStep_udpSendReceive w a))
    (fun w a ha hw => hstep w a _ ha hw (logStep_udpRecvMsg w a))
    (fun w beyond hw => hsilent w _ hw (silent_udpCheckPrevious w beyond)) hok

end IpkChat.Udp
