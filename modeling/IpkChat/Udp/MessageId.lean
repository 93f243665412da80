/-
  Udp/MessageId.lean --- counting messages in sixteen bits.

  client.msg_id counts the messages sent and confirmed, modulo 2^16, and the ID of
  the last of them is one less.  The parsers of REPLY and CONFIRM compute this ID
  as an int: after every 2^16-th message client.msg_id is 0 and they compare with
  -1, so that nothing matches.
-/
import IpkChat.Udp.Receptions

set_option autoImplicit false

namespace IpkChat.Udp

open IpkChat.Foundation IpkChat.Core

/-! ## Counting confirmed messages -/

/-- The number of messages sent whose CONFIRM arrived. -/
def confirmedCount (h : List Event) : Nat := (receptions h).countP fun r => r.fate == .awaited

/-- client.msg_id is the number of confirmed messages. -/
def CountsConfirmed (w : World) : Prop :=
  w.client.msgId = UInt16.ofNat (confirmedCount w.trace)

/-- A step that confirms no message keeps client.msg_id. -/
theorem CountsConfirmed.congr {w w' : World} (h : CountsConfirmed w)
    (hid : w'.client.msgId = w.client.msgId)
    (hcount : confirmedCount w'.trace = confirmedCount w.trace) : CountsConfirmed w' := by
  rw [CountsConfirmed, hid, hcount]
  exact h

theorem countsConfirmed_udpSendReceive (w : World) (a : Arrival) (h : CountsConfirmed w) :
    CountsConfirmed (udpSendReceive w a).1 := by
  have hout := udpSendReceive_outcome w a
  generalize udpSendReceive w a = res at hout
  cases hout with
  | noData client next hclient hnext => exact h.congr hclient rfl
  | awaited src d hlen haw =>
      simp only [CountsConfirmed] at h ⊢
      simp [h, confirmedCount, UInt16.ofNat_add]
  | unconfirmed src d hlen haw hcan => exact h.congr rfl (by simp [confirmedCount])
  | duplicate src d hlen haw hcan hmem => exact h.congr rfl (by simp [confirmedCount])
  | queueFull src d hlen haw hcan hmem hadd => exact h.congr rfl (by simp [confirmedCount])
  | unrecorded src d queue list hlen haw hcan hmem hqueue hlist =>
      exact h.congr rfl (by simp [confirmedCount])
  | queued src d queue list hlen haw hcan hmem hqueue hlist =>
      exact h.congr rfl (by simp [confirmedCount])

theorem countsConfirmed_udpRecvMsg (w : World) (a : Arrival) (h : CountsConfirmed w) :
    CountsConfirmed (udpRecvMsg w a).1 := by
  have hout := udpRecvMsg_outcome w a
  generalize udpRecvMsg w a = res at hout
  cases hout with
  | failed => exact h.congr rfl (by simp [confirmedCount])
  | truncated src d hlen => exact h.congr rfl (by simp [confirmedCount])
  | unconfirmed src d hlen hcan => exact h.congr rfl (by simp [confirmedCount])
  | unknownType src d hlen hcan hfind => exact h.congr rfl (by simp [confirmedCount])
  | duplicate src d hlen hcan hknown hmem => exact h.congr rfl (by simp [confirmedCount])
  | unrecorded src d list hlen hcan hknown hmem hlist =>
      exact h.congr rfl (by simp [confirmedCount])
  | dispatched src d list p hlen hcan hknown hmem hlist =>
      exact h.congr (by simp [confirmed]) (by simp [confirmedCount])

theorem countsConfirmed_udpCheckPrevious (w : World) (beyond : Bytes) (h : CountsConfirmed w) :
    CountsConfirmed (udpCheckPrevious w beyond).1 := by
  have hout := udpCheckPrevious_outcome w beyond
  generalize udpCheckPrevious w beyond = res at hout
  cases hout with
  | empty => exact h
  | unknownType m queue hfront hfind => exact h.congr rfl (by simp [confirmedCount])
  | dispatched m queue entry hfront hfind => exact h.congr (by simp) (by simp [confirmedCount])

/-- Starting from 0, client.msg_id counts the confirmed messages in every run. -/
theorem countsConfirmed_udpRun {client : Client} (hzero : client.msgId = 0)
    (retransmissions : UInt8) (calls : List UdpCall) :
    CountsConfirmed (udpRun client retransmissions calls) :=
  udpRun_preserves (show CountsConfirmed (World.init client retransmissions) from hzero)
    (fun _ _ _ h => h.congr rfl (by simp [confirmedCount]))
    (fun w a (_ : True) h => countsConfirmed_udpSendReceive w a h)
    (fun w a _ h => countsConfirmed_udpRecvMsg w a h) countsConfirmed_udpCheckPrevious
    fun _ _ _ _ => trivial

/-! ## References to the last message -/

/-- The bytes of a REPLY. -/
def replyBytes (msgId refId : UInt16) (result : UInt8) (content : Bytes) : Bytes :=
  headerBytes .reply msgId ++ [result] ++ [(refId >>> 8).toUInt8, refId.toUInt8] ++ content ++ [0]

/-- The ID of the `n`-th message, counting from 0. -/
def lastId (n : Nat) : UInt16 := UInt16.ofNat (n - 1)

/-- What the parsers make of references to the last of `n` confirmed messages:
a REPLY is taken exactly if it refers to that message, and a late CONFIRM of it
is ignored. -/
structure KeepsIds (c : Client) (n : Nat) : Prop where
  reply : ∀ (msgId refId : UInt16) (result : UInt8) (content rest : Bytes),
    isValidMsgContent content maxMsgSize = true → result = 0 ∨ result = 1 →
      (udpParseReply c (replyBytes msgId refId result content ++ rest)
          (replyBytes msgId refId result content).length).type =
        if refId = lastId n then (if result = 1 then .reply else .nreply) else .error
  confirm : ∀ rest : Bytes,
    (udpParseConfirm c (headerBytes .confirm (lastId n) ++ rest) headerSize).type = .local_

/-- On a well-formed REPLY the comparison of the reference decides. -/
theorem udpParseReply_replyBytes (c : Client) (msgId refId : UInt16) (result : UInt8)
    {content : Bytes} (hcontent : isValidMsgContent content maxMsgSize = true) (rest : Bytes) :
    (udpParseReply c (replyBytes msgId refId result content ++ rest)
        (replyBytes msgId refId result content).length).type =
      if (refId.toNat : Int) = (c.msgId.toNat : Int) - 1 then
        (if result = 1 then .reply else .nreply)
      else .error := by
  have hzero : (0 : UInt8) ∉ content :=
    not_mem_of_isValidMsgContent hcontent (by decide) (by decide)
  obtain ⟨⟨hpos, -⟩, -⟩ := isValidMsgContent_iff.mp hcontent
  have hbuffer : replyBytes msgId refId result content ++ rest =
      [MsgType.reply.code, (msgId >>> 8).toUInt8, msgId.toUInt8, result] ++
        ((refId >>> 8).toUInt8 :: refId.toUInt8 :: (content ++ 0 :: rest)) := by
    simp [replyBytes, headerBytes]
  have hlen : (replyBytes msgId refId result content).length = 6 + content.length + zeroByte := by
    simp [replyBytes, headerBytes, zeroByte]; omega
  have hcstr : cstr ((replyBytes msgId refId result content ++ rest).drop 6) = content := by
    rw [hbuffer]
    exact cstr_append_zero hzero rest
  have href : toUint16 ((replyBytes msgId refId result content ++ rest).drop 4) = refId := by
    rw [hbuffer]
    exact toUint16_header refId _
  have hresult : (replyBytes msgId refId result content ++ rest).getD headerSize 0 = result := by
    rw [hbuffer]; rfl
  have height : 6 + content.length + zeroByte ≥ 8 := by simp only [zeroByte]; omega
  simp only [udpParseReply_eq, hcstr, href, hresult, hlen, height, hcontent, true_and]
  split
  · split <;> rfl
  · rfl

theorem udpParseConfirm_headerBytes (c : Client) (msgId : UInt16) (rest : Bytes) :
    (udpParseConfirm c (headerBytes .confirm msgId ++ rest) headerSize).type =
      if msgId.toNat < c.msgId.toNat then .local_ else .error := by
  have hid : toUint16 ((headerBytes .confirm msgId ++ rest).drop 1) = msgId :=
    toUint16_header msgId rest
  simp only [udpParseConfirm_eq, hid, true_and]
  split <;> rfl

/-- The parsers keep track exactly if client.msg_id is not 0. -/
theorem keepsIds_iff {c : Client} {n : Nat} (hn : 1 ≤ n) (hid : c.msgId = UInt16.ofNat n) :
    KeepsIds c n ↔ n % 65536 ≠ 0 := by
  have hnat : c.msgId.toNat = n % 65536 := by rw [hid, UInt16.toNat_ofNat']
  have hlast : (lastId n).toNat = (n - 1) % 65536 := UInt16.toNat_ofNat'
  constructor
  · intro h hzero
    have hconfirm := h.confirm []
    rw [udpParseConfirm_headerBytes, hnat, hzero] at hconfirm
    simp at hconfirm
  · intro hne
    have hpred : (lastId n).toNat = n % 65536 - 1 := by omega
    refine ⟨fun msgId refId result content rest hcontent _ => ?_, fun rest => ?_⟩
    · have hiff : (refId.toNat : Int) = (c.msgId.toNat : Int) - 1 ↔ refId = lastId n := by
        rw [← UInt16.toNat_inj]
        omega
      rw [udpParseReply_replyBytes c msgId refId result hcontent rest]
      simp only [hiff]
    · rw [udpParseConfirm_headerBytes, if_pos (by omega)]

/-- After `n` confirmed messages the references are right exactly if `n` is not a
multiple of 2^16. -/
theorem message_ids_iff (client : Client) (hzero : client.msgId = 0) (retransmissions : UInt8)
    (calls : List UdpCall)
    (hpos : 1 ≤ confirmedCount (udpRun client retransmissions calls).trace) :
    KeepsIds (udpRun client retransmissions calls).client
        (confirmedCount (udpRun client retransmissions calls).trace) ↔
      confirmedCount (udpRun client retransmissions calls).trace % 65536 ≠ 0 :=
  keepsIds_iff hpos (countsConfirmed_udpRun hzero retransmissions calls)

/-- After the first message the references are right. -/
theorem message_ids_iff_first :
    KeepsIds (udpRun sampleClient 3 [.sendMsg .auth true
        [{ arrival := delivery [0, 0, 0] }]]).client 1 :=
  (message_ids_iff sampleClient rfl 3 _ (by decide)).mpr (by decide)

/-! ## A session of any length -/

/-- The call that sends the message with the ID `k` and receives its CONFIRM. -/
def sendConfirmed (k : Nat) : UdpCall :=
  .sendMsg .bye true [{ arrival := delivery (headerBytes .confirm (UInt16.ofNat k)) }]

/-- One such call confirms one message, if `k` is the ID in use. -/
theorem confirmedCount_sendConfirmed {w : World} {k : Nat}
    (hid : w.client.msgId = UInt16.ofNat k) :
    confirmedCount ((sendConfirmed k).step w).trace = confirmedCount w.trace + 1 := by
  have hrcv : rcvId (headerBytes .confirm (UInt16.ofNat k)) = UInt16.ofNat k := by
    simpa using rcvId_headerBytes .confirm (UInt16.ofNat k) []
  have hlen : rcvLen (headerBytes .confirm (UInt16.ofNat k)) = 3 := rfl
  have hconfirm : isConfirm (headerBytes .confirm (UInt16.ofNat k)) = true := rfl
  have hretr : (0 : Int) ≤ w.retransmissions.toNat := Int.natCast_nonneg _
  simp [sendConfirmed, UdpCall.step, udpSendMsg, udpBuildMsg, buildBye_eq, udpSendLoop, hretr,
    udpSendReceive, delivery, isAwaited, hlen, hconfirm, hrcv, hid, confirmedCount]

theorem confirmedCount_session {client : Client} (hzero : client.msgId = 0)
    (retransmissions : UInt8) (n : Nat) :
    confirmedCount
      (udpRun client retransmissions ((List.range n).map sendConfirmed)).trace = n := by
  induction n with
  | zero => rfl
  | succ n ih =>
      have hid := countsConfirmed_udpRun hzero retransmissions ((List.range n).map sendConfirmed)
      rw [CountsConfirmed, ih] at hid
      rw [List.range_succ, List.map_append, udpRun, List.foldl_append]
      rw [udpRun] at ih hid
      simp only [List.map_cons, List.map_nil, List.foldl_cons, List.foldl_nil]
      rw [confirmedCount_sendConfirmed hid, ih]

/-- After 65536 confirmed messages the REPLY to the last one is refused. -/
theorem last_id_lost_at_wraparound :
    ∃ (calls : List UdpCall) (n : Nat), 1 ≤ n ∧
      confirmedCount (udpRun sampleClient 3 calls).trace = n ∧
      ¬ KeepsIds (udpRun sampleClient 3 calls).client n := by
  have hcount := confirmedCount_session (show sampleClient.msgId = 0 from rfl) 3 65536
  have hid := countsConfirmed_udpRun (show sampleClient.msgId = 0 from rfl) 3
    ((List.range 65536).map sendConfirmed)
  rw [CountsConfirmed, hcount] at hid
  refine ⟨(List.range 65536).map sendConfirmed, 65536, by omega, hcount, fun h => ?_⟩
  exact (keepsIds_iff (by omega) hid).mp h rfl

end IpkChat.Udp
