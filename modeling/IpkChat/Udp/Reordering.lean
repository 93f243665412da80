/-
  Udp/Reordering.lean --- a message that overtakes the CONFIRM.

  While udp_send_msg waits for a CONFIRM, a message of the server may come first.
  It is then confirmed and recorded at once, copied to the heap, and parsed by
  udp_check_previous after client.msg_id was counted up; had it come after the
  CONFIRM, udp_recv_msg would have done all this in one go.  The two orders end
  alike, because a parser reads nothing behind the terminators of a well-formed
  datagram and nothing of the client but its message ID.
-/
import IpkChat.Udp.RoundTrip
import IpkChat.Udp.Receptions

set_option autoImplicit false

namespace IpkChat.Udp

open IpkChat.Foundation IpkChat.Core

/-! ## The messages of the server -/

/-- A datagram in the format of its type.  IDs, results and strings are arbitrary. -/
inductive ServerDatagram : Bytes → Prop where
  | reply (id : UInt16) (result refHigh refLow : UInt8) (content : Bytes)
      (hcontent : (0 : UInt8) ∉ content) :
      ServerDatagram (headerBytes .reply id ++ [result, refHigh, refLow] ++ content ++ [0])
  | msg (id : UInt16) (name content : Bytes) (hname : (0 : UInt8) ∉ name)
      (hcontent : (0 : UInt8) ∉ content) :
      ServerDatagram (headerBytes .msg id ++ name ++ [0] ++ content ++ [0])
  | err (id : UInt16) (name content : Bytes) (hname : (0 : UInt8) ∉ name)
      (hcontent : (0 : UInt8) ∉ content) :
      ServerDatagram (headerBytes .err id ++ name ++ [0] ++ content ++ [0])
  | bye (id : UInt16) (name : Bytes) (hname : (0 : UInt8) ∉ name) :
      ServerDatagram (headerBytes .bye id ++ name ++ [0])
  | ping (id : UInt16) : ServerDatagram (headerBytes .ping id)

/-- What is_valid_msg_err answers does not depend on the memory behind the datagram. -/
theorem isValidMsgErr_behind {header name content : Bytes} (hheader : header.length = headerSize)
    (hname : (0 : UInt8) ∉ name) (hcontent : (0 : UInt8) ∉ content) (rest rest' : Bytes)
    (len : Nat) :
    isValidMsgErr (header ++ name ++ [0] ++ (content ++ [0] ++ rest)) len =
      isValidMsgErr (header ++ name ++ [0] ++ (content ++ [0] ++ rest')) len := by
  simp only [isValidMsgErr_eq, cstr_drop_name hheader hname, cstr_drop_content hheader hcontent]

theorem parseMsgErr_behind {header name content : Bytes} (hheader : header.length = headerSize)
    (hname : (0 : UInt8) ∉ name) (hcontent : (0 : UInt8) ∉ content) (type : MsgType)
    (line : Bytes → Bytes → Output) (refusal : String) (rest rest' : Bytes) (len : Nat) :
    parseMsgErr type line refusal (header ++ name ++ [0] ++ content ++ [0] ++ rest) len =
      parseMsgErr type line refusal (header ++ name ++ [0] ++ content ++ [0] ++ rest') len := by
  have hassoc : ∀ rest, header ++ name ++ [0] ++ content ++ [0] ++ rest =
      header ++ name ++ [0] ++ (content ++ [0] ++ rest) := by
    intro rest
    simp only [List.append_assoc]
  have hoff : headerSize + zeroByte + name.length = headerSize + name.length + zeroByte := by
    omega
  simp only [hassoc, parseMsgErr_eq, isValidMsgErr_behind hheader hname hcontent rest rest',
    cstr_drop_name hheader hname, hoff, cstr_drop_content hheader hcontent]

/-- A parser sees of the client the message ID only, and of the memory the datagram
only. -/
theorem parseFunc_behind {d : Bytes} (h : ServerDatagram d) :
    ∃ entry, (∀ rest, findMsg (d ++ rest) = some entry) ∧
      ∀ (c c' : Client) (rest rest' : Bytes), c.msgId = c'.msgId →
        entry.parseFunc c (d ++ rest) d.length = entry.parseFunc c' (d ++ rest') d.length := by
  cases h with
  | reply id result refHigh refLow content hcontent =>
      refine ⟨⟨.reply, udpParseReply⟩, fun rest => rfl, fun c c' rest rest' hid => ?_⟩
      have hcstr : ∀ rest, cstr ((headerBytes .reply id ++ [result, refHigh, refLow] ++ content ++
          [0] ++ rest).drop 6) = content := by
        intro rest
        have hdrop : (headerBytes .reply id ++ [result, refHigh, refLow] ++ content ++ [0] ++
            rest).drop 6 = content ++ 0 :: rest := by
          simp [headerBytes]
        rw [hdrop]
        exact cstr_append_zero hcontent rest
      have href : ∀ rest, toUint16 ((headerBytes .reply id ++ [result, refHigh, refLow] ++
          content ++ [0] ++ rest).drop 4) = toUint16 [refHigh, refLow] := fun rest => rfl
      have hresult : ∀ rest, (headerBytes .reply id ++ [result, refHigh, refLow] ++ content ++
          [0] ++ rest).getD headerSize 0 = result := fun rest => rfl
      simp only [udpParseReply_eq, hcstr, href, hresult, hid]
  | msg id name content hname hcontent =>
      refine ⟨⟨.msg, udpParseMsg⟩, fun rest => rfl, fun c c' rest rest' _ => ?_⟩
      exact parseMsgErr_behind rfl hname hcontent .msg _ _ rest rest' _
  | err id name content hname hcontent =>
      refine ⟨⟨.err, udpParseErr⟩, fun rest => rfl, fun c c' rest rest' _ => ?_⟩
      exact parseMsgErr_behind rfl hname hcontent .err _ _ rest rest' _
  | bye id name hname =>
      refine ⟨⟨.bye, udpParseBye⟩, fun rest => rfl, fun c c' rest rest' _ => ?_⟩
      have hheader : (headerBytes .bye id).length = headerSize := rfl
      simp only [udpParseBye_eq, cstr_drop_name hheader hname]
  | ping id => exact ⟨⟨.ping, udpParsePing⟩, fun rest => rfl, fun c c' rest rest' _ => rfl⟩

/-- No message of the server is a CONFIRM, and each has a header. -/
theorem ServerDatagram.header {d : Bytes} (h : ServerDatagram d) :
    isConfirm d = false ∧ headerSize ≤ d.length := by
  cases h <;> exact ⟨rfl, by simp [headerBytes, headerSize]⟩

/-! ## Draining the queue -/

/-- The indices of msg_queue are in order after every run. -/
theorem queueWellFormed_udpRun (client : Client) (retransmissions : UInt8)
    (calls : List UdpCall) : (udpRun client retransmissions calls).msgQueue.WellFormed := by
  refine udpRun_preserves (I := fun w => w.msgQueue.WellFormed)
    MsgQueue.wellFormed_empty (fun _ _ _ h => h) (fun w a (_ : True) h => ?_) (fun w a _ h => ?_)
    (fun w beyond h => ?_) (fun _ _ _ _ => trivial)
  · have hout := udpSendReceive_outcome w a
    generalize udpSendReceive w a = res at hout
    cases hout with
    | unrecorded src d queue list hlen haw hcan hmem hqueue hlist =>
        have hadd := (queueAdd_true h (congrArg Prod.snd hqueue)).1
        rwa [hqueue] at hadd
    | queued src d queue list hlen haw hcan hmem hqueue hlist =>
        have hadd := (queueAdd_true h (congrArg Prod.snd hqueue)).1
        rwa [hqueue] at hadd
    | _ => exact h
  · have hout := udpRecvMsg_outcome w a
    generalize udpRecvMsg w a = res at hout
    cases hout with
    | dispatched src d list p =>
        rw [received_toGlobals, World.printParsed_toGlobals]
        exact h
    | _ => exact h
  · have hout := udpCheckPrevious_outcome w beyond
    generalize udpCheckPrevious w beyond = res at hout
    cases hout with
    | empty => exact h
    | unknownType m queue hfront => exact (queueFront_some h hfront).1
    | dispatched m queue entry hfront =>
        rw [World.printParsed_toGlobals]
        exact (queueFront_some h hfront).1

/-- The world after one call of udp_check_previous for each element of `behind`, the
memory behind the heap copies. -/
def drain (w : World) (behind : List Bytes) : World :=
  behind.foldl (fun w beyond => (udpCheckPrevious w beyond).1) w

/-- The queue was drained down to `ms`, and nothing was received. -/
structure Drained (w w' : World) (ms : List Msg) : Prop where
  queue_wf : w'.msgQueue.WellFormed
  queue_eq : w'.msgQueue.toList = ms
  client_eq : w'.client = w.client
  list_eq : w'.msgIdList = w.msgIdList
  confirms_eq : confirms w'.trace = confirms w.trace

theorem udpCheckPrevious_drained {w : World} {m : Msg} {ms : List Msg}
    (hwf : w.msgQueue.WellFormed) (hq : w.msgQueue.toList = m :: ms) (beyond : Bytes) :
    Drained w (udpCheckPrevious w beyond).1 ms := by
  have hlog := silent_udpCheckPrevious w beyond
  have hconfirms : confirms (udpCheckPrevious w beyond).1.trace = confirms w.trace := by
    obtain ⟨extra, htrace, -, hconf⟩ := hlog.trace_eq
    simp [htrace, hconf]
  obtain ⟨hfront, hwf', hrest⟩ := queueFront_cons hwf hq
  have hout := udpCheckPrevious_outcome w beyond
  have hlist := hlog.list_eq
  generalize udpCheckPrevious w beyond = res at hout hconfirms hlist
  cases hout with
  | empty hempty => rw [hq] at hempty; cases hempty
  | unknownType m' queue hfront' hfind =>
      rw [hfront'] at hwf' hrest
      exact ⟨hwf', hrest, rfl, hlist, hconfirms⟩
  | dispatched m' queue entry hfront' hfind =>
      rw [hfront'] at hwf' hrest
      exact ⟨by simpa using hwf', by simpa using hrest, by simp, hlist, hconfirms⟩

/-- As many calls as there are messages in front drain these. -/
theorem drain_drained {w : World} {front ms : List Msg} {behind : List Bytes}
    (hwf : w.msgQueue.WellFormed) (hq : w.msgQueue.toList = front ++ ms)
    (hlen : behind.length = front.length) : Drained w (drain w behind) ms := by
  induction front generalizing w behind with
  | nil =>
      obtain rfl := List.length_eq_zero_iff.mp hlen
      exact ⟨hwf, hq, rfl, rfl, rfl⟩
  | cons m front ih =>
      obtain ⟨beyond, behind, rfl⟩ := List.exists_cons_of_length_eq_add_one hlen
      have hstep := udpCheckPrevious_drained hwf hq beyond
      have hrest := ih hstep.queue_wf hstep.queue_eq (by simpa using hlen)
      exact ⟨hrest.queue_wf, hrest.queue_eq, hrest.client_eq.trans hstep.client_eq,
        hrest.list_eq.trans hstep.list_eq, hrest.confirms_eq.trans hstep.confirms_eq⟩

/-- udp_check_previous hands the oldest message to the parser of its type. -/
theorem udpCheckPrevious_type {w : World} {m : Msg} {ms : List Msg} {beyond : Bytes}
    {entry : UdpMsg} (hwf : w.msgQueue.WellFormed) (hq : w.msgQueue.toList = m :: ms)
    (hfind : findMsg (m.msg ++ beyond) = some entry) :
    (udpCheckPrevious w beyond).2 =
      some (entry.parseFunc w.client (m.msg ++ beyond) m.msgLen).type := by
  obtain ⟨hfront, -, -⟩ := queueFront_cons hwf hq
  have hout := udpCheckPrevious_outcome w beyond
  generalize udpCheckPrevious w beyond = res at hout
  cases hout with
  | empty hempty => rw [hq] at hempty; cases hempty
  | unknownType m' queue hfront' hfind' =>
      rw [hfront'] at hfront
      obtain rfl : m' = m := by simpa using hfront
      rw [hfind] at hfind'
      cases hfind'
  | dispatched m' queue entry' hfront' hfind' =>
      rw [hfront'] at hfront
      obtain rfl : m' = m := by simpa using hfront
      rw [hfind] at hfind'
      obtain rfl : entry = entry' := by simpa using hfind'
      rfl

/-! ## The two orders -/

/-- The arrival delivers the datagram. -/
def Delivers (a : Arrival) (d : Bytes) : Prop := ∃ src errno, a.result = .data src d errno

theorem isAwaited_headerBytes (c : Client) : isAwaited c (headerBytes .confirm c.msgId) = true := by
  have hid : rcvId (headerBytes .confirm c.msgId) = c.msgId := by
    simpa using rcvId_headerBytes .confirm c.msgId []
  have hlen : rcvLen (headerBytes .confirm c.msgId) = 3 := rfl
  have hconfirm : isConfirm (headerBytes .confirm c.msgId) = true := rfl
  simp [isAwaited, hlen, hconfirm, hid]

/-- The world in which the CONFIRM was received. -/
structure Acknowledged (w w' : World) (q : List Msg) (list : IdList) (sent : List Bytes) :
    Prop where
  msgId_eq : w'.client.msgId = w.client.msgId + 1
  queue_wf : w'.msgQueue.WellFormed
  queue_eq : w'.msgQueue.toList = q
  list_eq : w'.msgIdList = list
  confirms_eq : confirms w'.trace = sent

@[simp] theorem confirms_transmitted (type : MsgType) (msg : Bytes) (w : World) (resend : Bool) :
    confirms (transmitted type msg w resend).trace = confirms w.trace := by
  cases resend <;> simp [transmitted]

section Orders

variable {type : MsgType} {msg : Bytes} {w : World} {i : Int} {resend : Bool} {a c : Arrival}
  {d : Bytes}

/-- The CONFIRM comes at once. -/
theorem acknowledged_late (hi : i ≤ w.retransmissions.toNat) (hwf : w.msgQueue.WellFormed)
    (hc : Delivers c (headerBytes .confirm w.client.msgId)) :
    (udpSendLoop type msg w i resend [⟨true, c⟩]).2 = some .success ∧
      Acknowledged w (udpSendLoop type msg w i resend [⟨true, c⟩]).1 w.msgQueue.toList
        w.msgIdList (confirms w.trace) := by
  obtain ⟨src, errno, hresult⟩ := hc
  have hstep := udpSendReceive_awaited (w := transmitted type msg w resend) hresult
    (by simpa using isAwaited_headerBytes w.client)
  rw [udpSendLoop_cons hi (fun _ => rfl) hstep, afterPass]
  exact ⟨rfl, by simp, by simpa using hwf, by simp, by simp, by simp⟩

/-- The message comes first, is confirmed, queued and recorded. -/
theorem acknowledged_early (hd : ServerDatagram d) (hmax : d.length ≤ bufferSize)
    (hi : i ≤ w.retransmissions.toNat) (hwf : w.msgQueue.WellFormed)
    (hroom : queueIsFull w.msgQueue = false) (hnew : listContains w.msgIdList (rcvId d) = false)
    (hfault : noFault a) (ha : Delivers a d) (hc : Delivers c (headerBytes .confirm w.client.msgId))
    (sendto : Bool) :
    (udpSendLoop type msg w i resend [⟨true, a⟩, ⟨sendto, c⟩]).2 = some .success ∧
      Acknowledged w (udpSendLoop type msg w i resend [⟨true, a⟩, ⟨sendto, c⟩]).1
        (w.msgQueue.toList ++ [⟨d, d.length⟩]) (listAppend w.msgIdList (rcvId d) true).1
        (confirms w.trace ++ [headerBytes .confirm (rcvId d)]) := by
  obtain ⟨src, errno, hresult⟩ := ha
  obtain ⟨src', errno', hresult'⟩ := hc
  obtain ⟨hconfirm, hmin⟩ := hd.header
  have hlen : 0 < rcvLen d := by
    rw [rcvLen_of_le hmax]
    exact Nat.lt_of_lt_of_le (by decide) hmin
  have haw : ∀ client : Client, isAwaited client d = false := by
    intro client
    simp [isAwaited, hconfirm]
  have hadd : (queueAdd w.msgQueue (rcvBuffer d) (rcvLen d) a.queueAlloc).2 = true :=
    queueAdd_eq_true_iff.mpr ⟨hroom, hfault.2.2.1⟩
  obtain ⟨hwf', hq⟩ := queueAdd_true hwf hadd
  rw [rcvBuffer_take, List.take_of_length_le hmax, rcvLen_of_le hmax] at hq
  have happend : (listAppend w.msgIdList (rcvId d) a.listAlloc).2 = .success := by
    rw [hfault.2.2.2]
    exact listAppend_of_alloc _ _
  have hcan := canConfirm_of_noFault hfault d
  have hawaited := isAwaited_headerBytes w.client
  -- the first pass receives the message
  obtain ⟨w₁, hw₁, hstep⟩ : ∃ w₁, w₁ = _ ∧
      udpSendReceive (transmitted type msg w resend) a = (w₁, .unrelated) :=
    ⟨_, rfl, udpSendReceive_queued hresult hlen (haw _) hcan (by simpa using hnew)
      (by simpa using hadd) (by simpa using happend)⟩
  have hid : w₁.client.msgId = w.client.msgId := by simp [hw₁, confirmed]
  have hretr : w₁.retransmissions = w.retransmissions := by simp [hw₁, confirmed]
  -- the second pass receives the CONFIRM
  have hstep' : udpSendReceive (transmitted type msg w₁ false) c = _ :=
    udpSendReceive_awaited hresult' (by
      simpa [← hid] using isAwaited_headerBytes w₁.client)
  rw [udpSendLoop_cons hi (fun _ => rfl) hstep, afterPass,
    udpSendLoop_cons (by rw [hretr]; exact hi) (fun h => by cases h) hstep', afterPass]
  refine ⟨rfl, by simp [hid], ?_, ?_, ?_, ?_⟩
  · simpa [hw₁] using hwf'
  · simpa [hw₁, rcvLen_of_le hmax] using hq
  · simp [hw₁, hfault.2.2.2]
  · simp [hw₁, hconfirm]

end Orders

/-- A message of the server that comes before the awaited CONFIRM and one that comes
after it leave the same message ID, the same list of IDs and the same CONFIRMs
sent, and yield the same type when the messages queued before it are out. -/
theorem confirm_reordering_invisible (w : World) (type : MsgType) (msg : Bytes) (i : Int)
    (resend : Bool) (d : Bytes) (a a' c c' : Arrival) (sendto : Bool)
    (behind behind' : List Bytes) (beyond : Bytes) (hi : i ≤ w.retransmissions.toNat)
    (hwf : w.msgQueue.WellFormed) (hroom : queueIsFull w.msgQueue = false)
    (hd : ServerDatagram d) (hmax : d.length ≤ 65507)
    (hnew : listContains w.msgIdList (rcvId d) = false)
    (hfault : noFault a) (hfault' : noFault a') (ha : Delivers a d) (ha' : Delivers a' d)
    (hc : Delivers c (headerBytes .confirm w.client.msgId))
    (hc' : Delivers c' (headerBytes .confirm w.client.msgId))
    (hbehind : behind.length = w.msgQueue.size) (hbehind' : behind'.length = w.msgQueue.size) :
    let early := udpSendLoop type msg w i resend [⟨true, a⟩, ⟨sendto, c⟩]
    let late := udpSendLoop type msg w i resend [⟨true, c'⟩]
    let checked := udpCheckPrevious (drain early.1 behind) beyond
    let received := udpRecvMsg (drain late.1 behind') a'
    early.2 = some .success ∧ late.2 = some .success ∧
      checked.1.client.msgId = received.1.client.msgId ∧
      checked.1.msgIdList = received.1.msgIdList ∧
      confirms checked.1.trace = confirms received.1.trace ∧
      checked.2 = some received.2 := by
  intro early late checked received
  have hle : d.length ≤ bufferSize := Nat.le_trans hmax (by decide)
  obtain ⟨hconfirm, hmin⟩ := hd.header
  have hsent : early.2 = some .success ∧ Acknowledged w early.1
      (w.msgQueue.toList ++ [⟨d, d.length⟩]) (listAppend w.msgIdList (rcvId d) true).1
      (confirms w.trace ++ [headerBytes .confirm (rcvId d)]) :=
    acknowledged_early hd hle hi hwf hroom hnew hfault ha hc sendto
  have hsent' : late.2 = some .success ∧ Acknowledged w late.1 w.msgQueue.toList w.msgIdList
      (confirms w.trace) := acknowledged_late hi hwf hc'
  obtain ⟨hsuccess, hearly⟩ := hsent
  obtain ⟨hsuccess', hlate⟩ := hsent'
  obtain ⟨entry, hentry, hparse⟩ := parseFunc_behind hd
  -- the first order: drain what was queued before, then take out the message
  have hdrain : Drained early.1 (drain early.1 behind) [⟨d, d.length⟩] :=
    drain_drained hearly.queue_wf hearly.queue_eq (by simpa using hbehind)
  have hchecked : Drained (drain early.1 behind) checked.1 [] :=
    udpCheckPrevious_drained hdrain.queue_wf hdrain.queue_eq beyond
  have htype : checked.2 =
      some (entry.parseFunc (drain early.1 behind).client (d ++ beyond) d.length).type :=
    udpCheckPrevious_type hdrain.queue_wf hdrain.queue_eq (hentry beyond)
  -- the second order: drain the queue, then receive the message
  have hdrain' : Drained late.1 (drain late.1 behind') [] :=
    drain_drained hlate.queue_wf (by rw [hlate.queue_eq, List.append_nil]) (by simpa using hbehind')
  obtain ⟨src, errno, hresult⟩ := ha'
  have hlist' : (drain late.1 behind').msgIdList = w.msgIdList := by
    rw [hdrain'.list_eq, hlate.list_eq]
  have hbuffer := rcvBuffer_of_le hle
  have happend : (listAppend w.msgIdList (rcvId d) a'.listAlloc).2 = .success := by
    rw [hfault'.2.2.2]
    exact listAppend_of_alloc _ _
  have hreceived := udpRecvMsg_dispatched (w := drain late.1 behind') hresult
    (by rw [rcvLen_of_le hle]; exact hmin) (canConfirm_of_noFault hfault' d)
    (by rw [hbuffer]; exact hentry _) (by rw [hlist']; exact hnew) (by rw [hlist']; exact happend)
  have hid : (drain early.1 behind).client.msgId = (drain late.1 behind').client.msgId := by
    rw [hdrain.client_eq, hdrain'.client_eq, hearly.msgId_eq, hlate.msgId_eq]
  have hreceived_eq : received = _ := hreceived
  refine ⟨hsuccess, hsuccess', ?_, ?_, ?_, ?_⟩
  · rw [hchecked.client_eq, hid, hreceived_eq]
    simp [confirmed]
  · rw [hchecked.list_eq, hdrain.list_eq, hearly.list_eq, hreceived_eq]
    simp [hlist', hfault'.2.2.2]
  · rw [hchecked.confirms_eq, hdrain.confirms_eq, hearly.confirms_eq, hreceived_eq]
    simp [hdrain'.confirms_eq, hlate.confirms_eq, hconfirm]
  · rw [htype, hreceived_eq]
    simp only [hbuffer, rcvLen_of_le hle]
    rw [hparse _ { (drain late.1 behind').client with res := src } beyond
      (List.replicate (bufferSize - d.length) 0) hid]

/-- A REPLY that overtakes the CONFIRM of the AUTH it answers. -/
theorem confirm_reordering_invisible_reply :
    let reply := delivery ([1, 0, 9, 1, 0, 0] ++ ascii "ok" ++ [0])
    let confirm := delivery [0, 0, 0]
    let w := World.init sampleClient 3
    let early := udpSendLoop .auth [2, 0, 0] w 0 true [⟨true, reply⟩, ⟨true, confirm⟩]
    let late := udpSendLoop .auth [2, 0, 0] w 0 true [⟨true, confirm⟩]
    (udpCheckPrevious early.1 []).2 = some (udpRecvMsg late.1 reply).2 ∧
      (udpRecvMsg late.1 reply).2 = .reply :=
  ⟨(confirm_reordering_invisible (World.init sampleClient 3) .auth [2, 0, 0] 0 true
      ([1, 0, 9, 1, 0, 0] ++ ascii "ok" ++ [0])
      (delivery ([1, 0, 9, 1, 0, 0] ++ ascii "ok" ++ [0]))
      (delivery ([1, 0, 9, 1, 0, 0] ++ ascii "ok" ++ [0])) (delivery [0, 0, 0])
      (delivery [0, 0, 0]) true [] [] [] (by decide)
      (queueWellFormed_udpRun sampleClient 3 []) (by decide)
      (.reply 9 1 0 0 (ascii "ok") (by decide)) (by decide) (by decide) (by decide) (by decide)
      ⟨_, _, rfl⟩ ⟨_, _, rfl⟩ ⟨_, _, rfl⟩ ⟨_, _, rfl⟩ rfl rfl).2.2.2.2.2, by decide +kernel⟩

end IpkChat.Udp
