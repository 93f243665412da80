/-
  Udp/AtMostOnce.lean --- no message is handed to a parser twice.

  A datagram put in the queue by udp_send_msg skips the duplicate check when
  udp_check_previous takes it out.  What makes this safe is that the IDs already
  parsed and the IDs waiting in the queue are together free of repetitions and all
  in msg_id_list: a datagram is queued or parsed at once only with an ID that is
  not there.
-/
import IpkChat.Udp.Receptions

set_option autoImplicit false

namespace IpkChat.Udp

open IpkChat.Foundation IpkChat.Core

/-! ## The IDs taken up -/

/-- The IDs of the datagrams waiting in the queue. -/
def queuedIds (q : MsgQueue) : List UInt16 := q.toList.map fun m => rcvId m.msg

/-- The IDs of the datagrams handed to a parser so far. -/
def parsedIds (h : List Event) : List UInt16 := (parsedMsgs h).map rcvId

/-- Parsed and queued IDs do not repeat and are recorded; so are the IDs of the list. -/
structure TakenOnce (w : World) : Prop where
  list_wf : w.msgIdList.WellFormed
  queue_wf : w.msgQueue.WellFormed
  copies : ∀ m ∈ w.msgQueue.toList, m.msg.length = m.msgLen
  ids_nodup : w.msgIdList.ids.Nodup
  taken_nodup : (parsedIds w.trace ++ queuedIds w.msgQueue).Nodup
  recorded : ∀ id ∈ parsedIds w.trace ++ queuedIds w.msgQueue, id ∈ w.msgIdList.ids

theorem takenOnce_init (client : Client) (retransmissions : UInt8) :
    TakenOnce (World.init client retransmissions) where
  list_wf := IdList.wellFormed_empty
  queue_wf := MsgQueue.wellFormed_empty
  copies m hm := by simp [World.init] at hm
  ids_nodup := List.nodup_nil
  taken_nodup := List.nodup_nil
  recorded id hid := by simp [parsedIds, queuedIds, World.init, parsedMsgs] at hid

/-- Only the list, the queue and the parsed datagrams matter. -/
theorem TakenOnce.congr {w w' : World} (h : TakenOnce w) (hlist : w'.msgIdList = w.msgIdList)
    (hqueue : w'.msgQueue = w.msgQueue) (hparsed : parsedMsgs w'.trace = parsedMsgs w.trace) :
    TakenOnce w' := by
  obtain ⟨h₁, h₂, h₃, h₄, h₅, h₆⟩ := h
  refine ⟨?_, ?_, ?_, ?_, ?_, ?_⟩ <;> simpa only [parsedIds, hlist, hqueue, hparsed]

/-- A new ID may be recorded and taken up, before or after the queue. -/
theorem TakenOnce.record {w w' : World} (h : TakenOnce w) {id : UInt16}
    (hnew : listContains w.msgIdList id = false)
    (hlist : listAppend w.msgIdList id true = (w'.msgIdList, .success))
    (hqueue : w'.msgQueue.WellFormed) (hcopies : ∀ m ∈ w'.msgQueue.toList, m.msg.length = m.msgLen)
    (htaken : (parsedIds w'.trace ++ queuedIds w'.msgQueue).Perm
      (id :: (parsedIds w.trace ++ queuedIds w.msgQueue))) : TakenOnce w' := by
  rw [listContains_eq_false_iff h.list_wf] at hnew
  have happend := listAppend_success h.list_wf (listAppend_of_alloc w.msgIdList id)
  rw [hlist] at happend
  obtain ⟨hwf, hids⟩ := happend
  refine ⟨hwf, hqueue, hcopies, ?_, ?_, ?_⟩
  · rw [hids, List.nodup_append_comm, List.singleton_append]
    exact List.nodup_cons.mpr ⟨hnew, h.ids_nodup⟩
  · rw [htaken.nodup_iff]
    exact List.nodup_cons.mpr ⟨fun hid => hnew (h.recorded id hid), h.taken_nodup⟩
  · intro x hx
    rw [hids, List.mem_append, List.mem_singleton]
    rcases List.mem_cons.mp (htaken.mem_iff.mp hx) with rfl | hx
    · exact Or.inr rfl
    · exact Or.inl (h.recorded x hx)

/-! ## Steps -/

theorem takenOnce_udpSendReceive (w : World) (a : Arrival) (ha : a.listAlloc = true)
    (h : TakenOnce w) : TakenOnce (udpSendReceive w a).1 := by
  have hout := udpSendReceive_outcome w a
  generalize udpSendReceive w a = res at hout
  cases hout with
  | noData client next hclient hnext => exact h.congr rfl rfl rfl
  | awaited src d hlen haw => exact h.congr rfl rfl (by simp)
  | unconfirmed src d hlen haw hcan => exact h.congr rfl rfl (by simp)
  | duplicate src d hlen haw hcan hmem => exact h.congr rfl rfl (by simp)
  | queueFull src d hlen haw hcan hmem hadd => exact h.congr rfl rfl (by simp)
  | unrecorded src d queue list hlen haw hcan hmem hqueue hlist =>
      exact absurd hlist (listAppend_ne_failure ha)
  | queued src d queue list hlen haw hcan hmem hqueue hlist =>
      rw [ha] at hlist
      have hadd := queueAdd_true h.queue_wf (congrArg Prod.snd hqueue)
      rw [hqueue, rcvBuffer_take] at hadd
      obtain ⟨hwf, hlistq⟩ := hadd
      refine h.record hmem hlist hwf (fun m hm => ?_) ?_
      · simp only [received_toGlobals, hlistq, List.mem_append, List.mem_singleton] at hm
        rcases hm with hm | rfl
        · exact h.copies m hm
        · simp [rcvLen, Nat.min_comm]
      · have hids : queuedIds queue = queuedIds w.msgQueue ++ [rcvId d] := by
          simp [queuedIds, hlistq, rcvId_take]
        simp only [received_trace, received_toGlobals, parsedIds, List.filterMap_append,
          confirmed_trace, hids]
        simpa using (List.perm_append_singleton (rcvId d)
          ((parsedMsgs w.trace).map rcvId ++ queuedIds w.msgQueue))

theorem takenOnce_udpRecvMsg (w : World) (a : Arrival) (ha : a.listAlloc = true)
    (h : TakenOnce w) : TakenOnce (udpRecvMsg w a).1 := by
  have hout := udpRecvMsg_outcome w a
  generalize udpRecvMsg w a = res at hout
  cases hout with
  | failed => exact h.congr rfl rfl (by simp)
  | truncated src d hlen => exact h.congr rfl rfl (by simp)
  | unconfirmed src d hlen hcan => exact h.congr rfl rfl (by simp)
  | unknownType src d hlen hcan hfind => exact h.congr rfl rfl (by simp)
  | duplicate src d hlen hcan hknown hmem => exact h.congr rfl rfl (by simp)
  | unrecorded src d list hlen hcan hknown hmem hlist =>
      exact absurd hlist (listAppend_ne_failure ha)
  | dispatched src d list p hlen hcan hknown hmem hlist =>
      rw [ha] at hlist
      refine h.record hmem (by simpa using hlist) (by simpa [confirmed] using h.queue_wf)
        (by simpa [confirmed] using h.copies) ?_
      have hparsed : ∀ w' : World, parsedMsgs w'.trace = parsedMsgs w.trace ++ [d.take bufferSize] →
          parsedIds w'.trace = parsedIds w.trace ++ [rcvId d] := by
        intro w' hw'
        simp [parsedIds, hw', rcvId_take]
      rw [hparsed _ (by simp)]
      simp [confirmed]

theorem takenOnce_udpCheckPrevious (w : World) (beyond : Bytes) (h : TakenOnce w) :
    TakenOnce (udpCheckPrevious w beyond).1 := by
  have hout := udpCheckPrevious_outcome w beyond
  generalize udpCheckPrevious w beyond = res at hout
  -- the front leaves the queue, parsed or not, and the rest of the IDs stays as it is
  have hpop : ∀ (w' : World) (m : Msg) (queue : MsgQueue) (ids : List UInt16),
      queueFront w.msgQueue = (queue, some m) → w'.msgIdList = w.msgIdList →
      w'.msgQueue = queue → parsedIds w'.trace = parsedIds w.trace ++ ids →
      ids.Sublist [rcvId m.msg] → TakenOnce w' := by
    intro w' m queue ids hfront hlist hqueue hparsed hids
    obtain ⟨hwf, htoList⟩ := queueFront_some h.queue_wf hfront
    have hsub : (parsedIds w'.trace ++ queuedIds w'.msgQueue).Sublist
        (parsedIds w.trace ++ queuedIds w.msgQueue) := by
      have hqueued : queuedIds w.msgQueue = [rcvId m.msg] ++ queuedIds queue := by
        simp [queuedIds, htoList]
      rw [hparsed, hqueue, hqueued, List.append_assoc]
      exact (List.Sublist.refl _).append (hids.append (List.Sublist.refl _))
    refine ⟨hlist ▸ h.list_wf, hqueue ▸ hwf, fun x hx => h.copies x ?_, hlist ▸ h.ids_nodup,
      h.taken_nodup.sublist hsub, fun id hid => hlist ▸ h.recorded id (hsub.subset hid)⟩
    rw [htoList]
    exact List.mem_cons_of_mem m (hqueue ▸ hx)
  cases hout with
  | empty => exact h
  | unknownType m queue hfront hfind =>
      exact hpop _ m queue [] hfront rfl rfl (by simp [parsedIds]) (List.nil_sublist _)
  | dispatched m queue entry hfront hfind =>
      have hcopy : (m.msg ++ beyond).take m.msgLen = m.msg := by
        have hmem : m ∈ w.msgQueue.toList := by
          rw [(queueFront_some h.queue_wf hfront).2]
          exact List.mem_cons_self
        rw [← h.copies m hmem, List.take_left]
      exact hpop _ m queue [rcvId m.msg] hfront (by simp) (by simp)
        (by simp [parsedIds, hcopy]) (List.Sublist.refl _)

/-! ## Runs -/

theorem takenOnce_udpRun {client : Client} {retransmissions : UInt8} {calls : List UdpCall}
    (hcalls : ∀ c ∈ calls, ∀ a ∈ c.arrivals, a.listAlloc = true) :
    TakenOnce (udpRun client retransmissions calls) :=
  udpRun_preserves (takenOnce_init client retransmissions)
    (fun _ _ _ h => h.congr rfl rfl (by simp)) takenOnce_udpSendReceive takenOnce_udpRecvMsg
    takenOnce_udpCheckPrevious hcalls

/-- Over a whole run at most one datagram with each ID is handed to a parser, and
msg_id_list holds no ID twice. -/
theorem at_most_once (client : Client) (retransmissions : UInt8) (calls : List UdpCall)
    (hcalls : ∀ c ∈ calls, ∀ a ∈ c.arrivals, a.listAlloc = true) :
    ((parsedMsgs (udpRun client retransmissions calls).trace).map rcvId).Nodup ∧
      (udpRun client retransmissions calls).msgIdList.ids.Nodup := by
  have h : TakenOnce (udpRun client retransmissions calls) := takenOnce_udpRun hcalls
  exact ⟨h.taken_nodup.sublist (List.sublist_append_left _ _), h.ids_nodup⟩

/-- A message that arrives while a CONFIRM is awaited and again afterwards. -/
theorem at_most_once_retransmitted :
    let d : Bytes := [4, 0, 7] ++ ascii "n" ++ [0] ++ ascii "hi" ++ [0]
    let calls : List UdpCall := [.sendMsg .auth true
        [{ arrival := delivery d }, { arrival := delivery [0, 0, 0] }],
      .checkPrevious [], .recvMsg (delivery d)]
    ((parsedMsgs (udpRun sampleClient 3 calls).trace).map rcvId).Nodup ∧
      (udpRun sampleClient 3 calls).msgIdList.ids.Nodup :=
  at_most_once sampleClient 3 _ (by decide)

end IpkChat.Udp
