/-
  Udp/Retransmission.lean --- how often udp_send_msg sends, and when it succeeds.

  The loop counts its passes in `i`, takes the count back for a pass that received
  an unrelated datagram, and then skips the sendto of the next pass.  What remains
  is one transmission at the start and one after each timeout, up to the limit.

  Success is a matter of the receives alone: `send_succeeds_iff_acked_iff` says which
  sequences of them the function answers as its contract has it.  It does not go
  on after a receive that a signal interrupted, and it gives up when the queue is
  full.
-/
import IpkChat.Udp.Decoding
import IpkChat.Udp.Reordering

set_option autoImplicit false

namespace IpkChat.Udp

open IpkChat.Foundation IpkChat.Core

/-! ## Receives that bring nothing -/

/-- The errno of a recvfrom that brought no data: it failed, or the datagram was
empty and errno is a leftover. -/
def noData (a : Arrival) : Option Errno :=
  match a.result with
  | .failed errno => some errno
  | .data _ d errno => if d = [] then some errno else none

/-- The receive counts as a timeout. -/
def isIdle (attempt : Attempt) : Bool := noData attempt.arrival == some .eagain

/-- The receive timed out. -/
def isTimeout (attempt : Attempt) : Bool := attempt.arrival.result == .failed .eagain

theorem rcvLen_pos_iff {d : Bytes} : 0 < rcvLen d ↔ d ≠ [] := by
  rw [← List.length_pos_iff, rcvLen, bufferSize]
  omega

theorem noData_of_data {a : Arrival} {src : SockAddr} {d : Bytes} {errno : Errno}
    (hresult : a.result = .data src d errno) (hlen : 0 < rcvLen d) : noData a = none := by
  simp only [noData, hresult, if_neg (rcvLen_pos_iff.mp hlen)]

/-- Without empty datagrams only a timeout counts as one. -/
theorem isIdle_eq_isTimeout {attempt : Attempt}
    (hdata : ∀ src errno, attempt.arrival.result ≠ .data src [] errno) :
    isIdle attempt = isTimeout attempt := by
  unfold isIdle isTimeout noData
  cases hresult : attempt.arrival.result with
  | failed errno => cases errno <;> rfl
  | data src d errno =>
      have hne : d ≠ [] := by
        intro hd
        exact hdata src errno (by rw [hresult, hd])
      simp [hne]

/-! ## One pass -/

/-- The message that an event hands to sendto. -/
@[simp] def messageOf : Event → Option Bytes
  | .transmit _ _ m => some m
  | _ => none

/-- The messages transmitted, in order. -/
abbrev messages (h : List Event) : List Bytes := h.filterMap messageOf

/-- What the receive part of a pass does to the limit, the transmissions and the
message ID, and when it counts as a timeout. -/
structure Pass (w : World) (a : Arrival) (res : World × Next) : Prop where
  retransmissions_eq : res.1.retransmissions = w.retransmissions
  messages_eq : messages res.1.trace = messages w.trace
  msgId_eq : res.1.client.msgId =
    if res.2 = .done .success then w.client.msgId + 1 else w.client.msgId
  timedOut_iff : res.2 = .timedOut ↔ noData a = some .eagain

theorem pass_udpSendReceive (w : World) (a : Arrival) : Pass w a (udpSendReceive w a) := by
  have hout := udpSendReceive_outcome w a
  generalize udpSendReceive w a = res at hout
  cases hout with
  | noData client next hclient hnext errno hcode hresult =>
      have hno : noData a = some errno := by
        rcases hresult with ⟨hresult, -⟩ | ⟨src, d, hresult, hlen, -⟩
        · simp only [noData, hresult]
        · have hd : d = [] := by
            by_contra hne
            exact absurd hlen (Nat.pos_iff_ne_zero.mp (rcvLen_pos_iff.mpr hne))
          simp only [noData, hresult, if_pos hd]
      refine ⟨rfl, rfl, ?_, ?_⟩
      · rcases hnext with rfl | rfl <;> exact hclient
      · rw [hno, hcode]
        cases errno <;> simp
  | awaited src d hlen haw errno hresult =>
      exact ⟨rfl, by simp, rfl, by simp [noData_of_data hresult hlen]⟩
  | unconfirmed src d hlen haw hcan errno hresult =>
      exact ⟨rfl, by simp, rfl, by simp [noData_of_data hresult hlen]⟩
  | duplicate src d hlen haw hcan hmem errno hresult =>
      exact ⟨rfl, by simp, rfl, by simp [noData_of_data hresult hlen]⟩
  | queueFull src d hlen haw hcan hmem hadd errno hresult =>
      exact ⟨rfl, by simp, rfl, by simp [noData_of_data hresult hlen]⟩
  | unrecorded src d queue list hlen haw hcan hmem hqueue hlist errno hresult =>
      exact ⟨rfl, by simp, rfl, by simp [noData_of_data hresult hlen]⟩
  | queued src d queue list hlen haw hcan hmem hqueue hlist errno hresult =>
      exact ⟨rfl, by simp, rfl, by simp [noData_of_data hresult hlen]⟩

/-! ## The passes of a call -/

/-- The loop returns after the passes `used`, and not before; on the way it sends
`count` times. -/
structure Returns (type : MsgType) (msg : Bytes) (w : World) (i : Int) (resend : Bool)
    (attempts used : List Attempt) (code : ExitCode) (count : Nat) : Prop where
  prefix_ : used <+: attempts
  result_eq : udpSendLoop type msg w i resend used = udpSendLoop type msg w i resend attempts
  waiting : ∀ shorter, shorter <+: used → shorter ≠ used →
    (udpSendLoop type msg w i resend shorter).2 = none
  messages_eq : messages (udpSendLoop type msg w i resend attempts).1.trace =
    messages w.trace ++ List.replicate count msg
  msgId_eq : (udpSendLoop type msg w i resend attempts).1.client.msgId =
    if code = .success then w.client.msgId + 1 else w.client.msgId

section Loop

variable {type : MsgType} {msg : Bytes} {w : World} {i : Nat} {resend : Bool} {code : ExitCode}

theorem messages_transmitted :
    messages (transmitted type msg w resend).trace =
      messages w.trace ++ List.replicate resend.toNat msg := by
  cases resend <;> simp [transmitted, messages, messageOf]

/-- Past the limit the loop returns at once. -/
theorem udpSendLoop_beyond (hi : ¬ (i : Int) ≤ w.retransmissions.toNat)
    (attempts : List Attempt) :
    udpSendLoop type msg w i resend attempts = (w, some .failure) := by
  cases attempts with
  | nil => simp only [udpSendLoop, if_neg hi]
  | cons attempt rest => simp only [udpSendLoop, if_neg hi]

theorem returns_beyond (hlimit : i < w.retransmissions.toNat + 1 + resend.toNat)
    (hi : ¬ (i : Int) ≤ w.retransmissions.toNat) (attempts : List Attempt) :
    Returns type msg w i resend attempts [] .failure
      (min (w.retransmissions.toNat + resend.toNat - i)
        (resend.toNat + ([] : List Attempt).countP isIdle)) := by
  have hbit : resend.toNat ≤ 1 := Bool.toNat_le resend
  have hcount : min (w.retransmissions.toNat + resend.toNat - i)
      (resend.toNat + ([] : List Attempt).countP isIdle) = 0 := by
    omega
  rw [hcount]
  refine ⟨List.nil_prefix, ?_, ?_, ?_, ?_⟩
  · rw [udpSendLoop_beyond hi, udpSendLoop_beyond hi]
  · intro shorter hstart hne
    exact absurd (List.prefix_nil.mp hstart) hne
  · simp [udpSendLoop_beyond hi]
  · rw [udpSendLoop_beyond hi]
    rfl

/-- A pass that does not end the call, followed by the rest of the loop. -/
theorem Returns.cons {attempt : Attempt} {rest used : List Attempt} {w' : World} {j count : Nat}
    {resend' : Bool} (hi : (i : Int) ≤ w.retransmissions.toNat)
    (hmessages : messages w'.trace = messages (transmitted type msg w resend).trace)
    (hid : w'.client.msgId = w.client.msgId)
    (hcont : ∀ attempts, udpSendLoop type msg w i resend (attempt :: attempts) =
      udpSendLoop type msg w' j resend' attempts)
    (h : Returns type msg w' j resend' rest used code count) :
    Returns type msg w i resend (attempt :: rest) (attempt :: used) code
      (resend.toNat + count) := by
  refine ⟨?_, ?_, ?_, ?_, ?_⟩
  · exact (List.prefix_cons_inj attempt).mpr h.prefix_
  · rw [hcont, hcont, h.result_eq]
  · intro shorter hstart hne
    cases shorter with
    | nil => simp only [udpSendLoop, if_pos hi]
    | cons first shorter =>
        obtain ⟨hfirst, hrest⟩ := List.cons_prefix_cons.mp hstart
        subst hfirst
        rw [hcont]
        exact h.waiting shorter hrest fun heq => hne (by rw [heq])
  · rw [hcont, h.messages_eq, hmessages, messages_transmitted, List.append_assoc,
      ← List.replicate_add]
  · rw [hcont, h.msgId_eq, hid]

/-- The pass that ends the call. -/
theorem returns_done {attempt : Attempt} {rest : List Attempt} {w' : World}
    (hi : (i : Int) ≤ w.retransmissions.toNat)
    (hmessages : messages w'.trace = messages (transmitted type msg w resend).trace)
    (hid : w'.client.msgId = if code = .success then w.client.msgId + 1 else w.client.msgId)
    (hcont : ∀ attempts, udpSendLoop type msg w i resend (attempt :: attempts) =
      (w', some code)) :
    Returns type msg w i resend (attempt :: rest) [attempt] code resend.toNat := by
  refine ⟨?_, ?_, ?_, ?_, ?_⟩
  · exact List.cons_prefix_cons.mpr ⟨rfl, List.nil_prefix⟩
  · rw [hcont, hcont]
  · intro shorter hstart hne
    cases shorter with
    | nil => simp only [udpSendLoop, if_pos hi]
    | cons first shorter =>
        obtain ⟨rfl, hrest⟩ := List.cons_prefix_cons.mp hstart
        exact absurd (by rw [List.prefix_nil.mp hrest]) hne
  · rw [hcont, hmessages, messages_transmitted]
  · rw [hcont, hid]

/-- The loop sends once if it starts with a sendto, and once after each timeout, up
to the limit. -/
theorem returns_udpSendLoop (attempts : List Attempt)
    (hsendto : ∀ attempt ∈ attempts, attempt.sendto = true)
    (hlimit : i < w.retransmissions.toNat + 1 + resend.toNat)
    (hret : (udpSendLoop type msg w i resend attempts).2 = some code) :
    ∃ used, Returns type msg w i resend attempts used code
      (min (w.retransmissions.toNat + resend.toNat - i)
        (resend.toNat + used.countP isIdle)) := by
  induction attempts generalizing w i resend with
  | nil =>
      by_cases hi : (i : Int) ≤ w.retransmissions.toNat
      · simp [udpSendLoop, hi] at hret
      · rw [udpSendLoop_beyond hi] at hret
        obtain rfl : ExitCode.failure = code := by simpa using hret
        exact ⟨[], returns_beyond hlimit hi []⟩
  | cons attempt rest ih =>
      by_cases hi : (i : Int) ≤ w.retransmissions.toNat
      case neg =>
        rw [udpSendLoop_beyond hi] at hret
        obtain rfl : ExitCode.failure = code := by simpa using hret
        exact ⟨[], returns_beyond hlimit hi (attempt :: rest)⟩
      case pos =>
        have hsend : attempt.sendto = true := hsendto attempt List.mem_cons_self
        have hrest : ∀ a ∈ rest, a.sendto = true := fun a ha =>
          hsendto a (List.mem_cons_of_mem attempt ha)
        have hbit : resend.toNat ≤ 1 := Bool.toNat_le resend
        have hpass := pass_udpSendReceive (transmitted type msg w resend) attempt.arrival
        rcases hstep : udpSendReceive (transmitted type msg w resend) attempt.arrival with
          ⟨w', next⟩
        rw [hstep] at hpass
        obtain ⟨hretr, hmessages, hid, hidle⟩ := hpass
        simp only [transmitted_toGlobals] at hretr hid
        have hcont : ∀ attempts, udpSendLoop type msg w i resend (attempt :: attempts) =
            afterPass type msg w' i attempts next := udpSendLoop_cons hi (fun _ => hsend) hstep
        cases next with
        | done done =>
            have hno : isIdle attempt = false := by simpa [isIdle] using hidle
            rw [hcont] at hret
            obtain rfl : done = code := by simpa [afterPass] using hret
            have hcount : min (w.retransmissions.toNat + resend.toNat - i)
                (resend.toNat + [attempt].countP isIdle) = resend.toNat := by
              simp only [List.countP_singleton, hno]
              have : i ≤ w.retransmissions.toNat := by omega
              simp
              omega
            refine ⟨[attempt], ?_⟩
            rw [hcount]
            exact returns_done hi hmessages (by simpa using hid) hcont
        | timedOut =>
            have hyes : isIdle attempt = true := by simpa [isIdle] using hidle
            -- the loop variable goes up by one
            have hcont' : ∀ attempts, udpSendLoop type msg w i resend (attempt :: attempts) =
                udpSendLoop type msg w' (i + 1 : Nat) true attempts := by
              intro attempts
              rw [hcont attempts]
              push_cast
              rfl
            rw [hcont'] at hret
            obtain ⟨used, hused⟩ := ih hrest (by rw [hretr, Bool.toNat_true]; omega) hret
            refine ⟨attempt :: used, ?_⟩
            have hcount : min (w.retransmissions.toNat + resend.toNat - i)
                (resend.toNat + (attempt :: used).countP isIdle) =
                resend.toNat + min (w'.retransmissions.toNat + true.toNat - (i + 1))
                  (true.toNat + used.countP isIdle) := by
              rw [hretr, List.countP_cons_of_pos hyes, Bool.toNat_true]
              omega
            rw [hcount]
            exact Returns.cons hi hmessages (by simpa using hid) hcont' hused
        | unrelated =>
            have hno : isIdle attempt = false := by simpa [isIdle] using hidle
            rw [hcont] at hret
            obtain ⟨used, hused⟩ := ih hrest (by rw [hretr, Bool.toNat_false]; omega) hret
            refine ⟨attempt :: used, ?_⟩
            have hcount : min (w.retransmissions.toNat + resend.toNat - i)
                (resend.toNat + (attempt :: used).countP isIdle) =
                resend.toNat + min (w'.retransmissions.toNat + false.toNat - i)
                  (false.toNat + used.countP isIdle) := by
              rw [hretr, List.countP_cons_of_neg (by simp [hno]), Bool.toNat_false]
              omega
            rw [hcount]
            exact Returns.cons hi hmessages (by simpa using hid) hcont hused

end Loop

/-! ## The number of transmissions -/

theorem udpSendMsg_of_build {w : World} {type : MsgType} {msg : Bytes}
    (hbuild : udpBuildMsg w.client type = some msg) (attempts : List Attempt) :
    udpSendMsg w type true attempts = udpSendLoop type msg w 0 true attempts := by
  simp only [udpSendMsg, if_true, hbuild]

/-- Every message starts with the header of its type and of client.msg_id. -/
theorem header_of_build {c : Client} {type : MsgType} {msg : Bytes}
    (hbuild : udpBuildMsg c type = some msg) :
    msg.take headerSize = headerBytes type c.msgId := by
  cases type <;>
    simp only [udpBuildMsg, buildAuth_eq, buildJoin_eq, buildMsgErr_eq, buildBye_eq,
      Option.some.injEq, reduceCtorEq] at hbuild <;>
    rw [← hbuild] <;> simp [headerBytes, headerSize]

/-- In a call that returns after the passes `used`, the message is sent once and once
more after each timeout, but not more often than the limit allows; client.msg_id
is counted up if the call succeeds. -/
theorem retransmission_count (w : World) (type : MsgType) (msg : Bytes)
    (attempts : List Attempt) (code : ExitCode)
    (hbuild : udpBuildMsg w.client type = some msg)
    (hsendto : ∀ attempt ∈ attempts, attempt.sendto = true)
    (hdata : ∀ attempt ∈ attempts, ∀ src errno, attempt.arrival.result ≠ .data src [] errno)
    (hret : (udpSendMsg w type true attempts).2 = some code) :
    ∃ used, used <+: attempts ∧
      udpSendMsg w type true used = udpSendMsg w type true attempts ∧
      (∀ shorter, shorter <+: used → shorter ≠ used →
        (udpSendMsg w type true shorter).2 = none) ∧
      messages (udpSendMsg w type true attempts).1.trace = messages w.trace ++
        List.replicate (min (w.retransmissions.toNat + 1) (1 + used.countP isTimeout)) msg ∧
      msg.take headerSize = headerBytes type w.client.msgId ∧
      (udpSendMsg w type true attempts).1.client.msgId =
        if code = .success then w.client.msgId + 1 else w.client.msgId := by
  simp only [udpSendMsg_of_build hbuild] at hret ⊢
  obtain ⟨used, hused⟩ := returns_udpSendLoop (i := 0) attempts hsendto
    (by rw [Bool.toNat_true]; omega) hret
  have hcount : used.countP isTimeout = used.countP isIdle := by
    apply List.countP_congr
    intro attempt hmem
    rw [isIdle_eq_isTimeout (hdata attempt (hused.prefix_.subset hmem))]
  refine ⟨used, hused.prefix_, hused.result_eq, hused.waiting, ?_, header_of_build hbuild,
    hused.msgId_eq⟩
  rw [hcount]
  exact hused.messages_eq

/-- Two transmissions: a PING in between does not count, a timeout does. -/
theorem retransmission_count_ping_and_timeout :
    ∃ used, used <+: [⟨true, delivery [0xFD, 0, 5]⟩, ⟨true, { result := .failed .eagain }⟩,
        ⟨true, delivery [0, 0, 0]⟩] ∧
      messages (udpSendMsg (World.init sampleClient 3) .bye true
        [⟨true, delivery [0xFD, 0, 5]⟩, ⟨true, { result := .failed .eagain }⟩,
          ⟨true, delivery [0, 0, 0]⟩]).1.trace =
        List.replicate (min 4 (1 + used.countP isTimeout)) ([255, 0, 0] ++ ascii "n" ++ [0]) := by
  obtain ⟨used, hstart, -, -, hmessages, -⟩ := retransmission_count (World.init sampleClient 3)
    .bye ([255, 0, 0] ++ ascii "n" ++ [0])
    [⟨true, delivery [0xFD, 0, 5]⟩, ⟨true, { result := .failed .eagain }⟩,
      ⟨true, delivery [0, 0, 0]⟩] .success (by decide) (by decide)
    (by simp [delivery]) (by decide +kernel)
  exact ⟨used, hstart, hmessages⟩

/-! ## The CONFIRM among the receives -/

/-- The pass receives the CONFIRM of the message being sent. -/
def isAck (c : Client) (attempt : Attempt) : Bool :=
  match attempt.arrival.result with
  | .data _ d _ => d == headerBytes .confirm c.msgId
  | .failed _ => false

/-- The passes before the one that receives the CONFIRM. -/
def beforeAck (c : Client) (attempts : List Attempt) : List Attempt :=
  attempts.takeWhile fun attempt => !isAck c attempt

/-- The CONFIRM is received before the timeout that exceeds the limit. -/
def AckedInTime (w : World) (attempts : List Attempt) : Prop :=
  attempts.any (isAck w.client) = true ∧
    (beforeAck w.client attempts).countP isTimeout < w.retransmissions.toNat + 1

/-- The ID that udp_send_msg reads from what a pass received. -/
def idReceived (attempt : Attempt) : Option UInt16 :=
  match attempt.arrival.result with
  | .data _ d _ => if d = [] then none else some (rcvId d)
  | .failed _ => none

/-- The IDs received that are not in the list. -/
def newIds (l : IdList) (attempts : List Attempt) : Finset UInt16 :=
  (attempts.filterMap idReceived).toFinset \ l.ids.toFinset

/-- Nothing ends the call before the CONFIRM: a receive without data looks like a
timeout, those that do leave the limit unspent, of which `i` is spent already, and
the messages with new IDs fit in the queue. -/
structure Undisturbed (w : World) (i : Nat) (attempts : List Attempt) : Prop where
  quiet : ∀ attempt ∈ beforeAck w.client attempts, ∀ errno,
    noData attempt.arrival = some errno → errno = .eagain
  idle : i + (beforeAck w.client attempts).countP isIdle ≤ w.retransmissions.toNat
  room : w.msgQueue.size + (newIds w.msgIdList (beforeAck w.client attempts)).card ≤
    maxQueueSize

/-- The test of udp_send_msg picks out exactly the CONFIRM of client.msg_id. -/
theorem isAwaited_iff {c : Client} {d : Bytes} :
    isAwaited c d = true ↔ d = headerBytes .confirm c.msgId := by
  constructor
  · intro h
    obtain ⟨hconfirm, hlen⟩ := awaited_isConfirm h
    have hthree : d.length = headerSize := by
      simp only [rcvLen, bufferSize] at hlen
      simp only [headerSize]
      omega
    have hcode : (rcvBuffer d).getD 0 0 = MsgType.confirm.code := by
      simpa [isConfirm] using hconfirm
    have hid : c.msgId = rcvId d := by
      simp only [isAwaited, Bool.and_eq_true, beq_iff_eq] at h
      exact h.2
    have hd := eq_header_append (Nat.le_of_eq hthree.symm) hcode
    rw [List.drop_of_length_le (Nat.le_of_eq hthree), List.append_nil] at hd
    rw [hid]
    exact hd
  · intro h
    rw [h]
    exact isAwaited_headerBytes c

theorem isAck_of_data {c : Client} {attempt : Attempt} {src : SockAddr} {d : Bytes}
    {errno : Errno} (hresult : attempt.arrival.result = .data src d errno) :
    isAck c attempt = isAwaited c d := by
  rw [Bool.eq_iff_iff, isAwaited_iff]
  simp [isAck, hresult]

theorem beforeAck_cons {c : Client} {attempt : Attempt} (h : isAck c attempt = false)
    (rest : List Attempt) : beforeAck c (attempt :: rest) = attempt :: beforeAck c rest := by
  simp [beforeAck, h]

theorem isAck_congr {c c' : Client} (h : c'.msgId = c.msgId) : isAck c' = isAck c := by
  funext attempt
  simp only [isAck, h]

theorem beforeAck_congr {c c' : Client} (h : c'.msgId = c.msgId) (attempts : List Attempt) :
    beforeAck c' attempts = beforeAck c attempts := by
  simp only [beforeAck, isAck_congr h]

/-! ## New IDs -/

theorem newIds_cons_none {l : IdList} {attempt : Attempt} (h : idReceived attempt = none)
    (attempts : List Attempt) : newIds l (attempt :: attempts) = newIds l attempts := by
  simp only [newIds, List.filterMap_cons, h]

theorem newIds_cons_old {l : IdList} {attempt : Attempt} {id : UInt16}
    (h : idReceived attempt = some id) (hmem : id ∈ l.ids) (attempts : List Attempt) :
    newIds l (attempt :: attempts) = newIds l attempts := by
  simp only [newIds, List.filterMap_cons, h, List.toFinset_cons]
  exact Finset.insert_sdiff_of_mem _ (List.mem_toFinset.mpr hmem)

/-- A new ID counts once, and no more when it is recorded. -/
theorem card_newIds_cons_new {l l' : IdList} {attempt : Attempt} {id : UInt16}
    (h : idReceived attempt = some id) (hmem : id ∉ l.ids) (hids : l'.ids = l.ids ++ [id])
    (attempts : List Attempt) :
    (newIds l (attempt :: attempts)).card = (newIds l' attempts).card + 1 := by
  have hnot : id ∉ l.ids.toFinset := fun hid => hmem (List.mem_toFinset.mp hid)
  have hids' : l'.ids.toFinset = insert id l.ids.toFinset := by
    rw [hids, List.toFinset_append]
    ext x
    simp
  simp only [newIds, List.filterMap_cons, h, List.toFinset_cons, hids']
  rw [Finset.insert_sdiff_of_notMem _ hnot, Finset.sdiff_insert]
  generalize (attempts.filterMap idReceived).toFinset \ l.ids.toFinset = new
  rw [← Finset.card_erase_add_one (Finset.mem_insert_self id new), Finset.erase_insert_eq_erase]

/-! ## When the call succeeds -/

/-- The pass goes on to the next one, from `w` to `w'`. -/
structure GoesOn (w : World) (attempt : Attempt) (w' : World) : Prop where
  notAck : isAck w.client attempt = false
  msgId_eq : w'.client.msgId = w.client.msgId
  retransmissions_eq : w'.retransmissions = w.retransmissions
  list_wf : w'.msgIdList.WellFormed
  queue_wf : w'.msgQueue.WellFormed
  quiet : ∀ errno, noData attempt.arrival = some errno → errno = .eagain
  room_eq : ∀ attempts, w.msgQueue.size + (newIds w.msgIdList (attempt :: attempts)).card =
    w'.msgQueue.size + (newIds w'.msgIdList attempts).card

/-- What is left undisturbed after such a pass. -/
theorem GoesOn.undisturbed_iff {w w' : World} {attempt : Attempt} (h : GoesOn w attempt w')
    (i : Nat) (rest : List Attempt) :
    Undisturbed w i (attempt :: rest) ↔ Undisturbed w' (i + (isIdle attempt).toNat) rest := by
  have hbefore := beforeAck_cons h.notAck rest
  have hsame := beforeAck_congr h.msgId_eq rest
  have hcount : (attempt :: beforeAck w.client rest).countP isIdle =
      (isIdle attempt).toNat + (beforeAck w.client rest).countP isIdle := by
    cases hidle : isIdle attempt <;> simp [hidle, Nat.add_comm]
  constructor
  · rintro ⟨hquiet, hidle, hroom⟩
    rw [hbefore] at hquiet hidle hroom
    refine ⟨?_, ?_, ?_⟩
    · rw [hsame]
      exact fun a ha => hquiet a (List.mem_cons_of_mem attempt ha)
    · rw [hsame, h.retransmissions_eq]
      omega
    · rw [hsame, ← h.room_eq]
      exact hroom
  · rintro ⟨hquiet, hidle, hroom⟩
    rw [hsame] at hquiet hidle hroom
    rw [h.retransmissions_eq] at hidle
    rw [← h.room_eq] at hroom
    refine ⟨?_, ?_, ?_⟩
    · rw [hbefore]
      intro a ha
      rcases List.mem_cons.mp ha with rfl | ha
      · exact h.quiet
      · exact hquiet a ha
    · rw [hbefore]
      omega
    · rw [hbefore]
      exact hroom

/-- The condition reads the globals only. -/
theorem Undisturbed.congr {w w' : World} {i : Nat} {attempts : List Attempt}
    (hglobals : w'.toGlobals = w.toGlobals) (h : Undisturbed w i attempts) :
    Undisturbed w' i attempts := by
  obtain ⟨hquiet, hidle, hroom⟩ := h
  exact ⟨by rw [hglobals]; exact hquiet, by rw [hglobals]; exact hidle,
    by rw [hglobals]; exact hroom⟩

section Passes

variable {w : World} {attempt : Attempt}

/-- A datagram that is not awaited and not empty: no CONFIRM, no timeout, an ID. -/
theorem isAck_of_unawaited {src : SockAddr} {d : Bytes} {errno : Errno}
    (hresult : attempt.arrival.result = .data src d errno) (hlen : 0 < rcvLen d)
    (haw : isAwaited w.client d = false) :
    isAck w.client attempt = false ∧ noData attempt.arrival = none ∧ isIdle attempt = false ∧
      idReceived attempt = some (rcvId d) := by
  have hno := noData_of_data hresult hlen
  exact ⟨by rw [isAck_of_data hresult, haw], hno, by simp [isIdle, hno],
    by simp [idReceived, hresult, rcvLen_pos_iff.mp hlen]⟩

/-- A receive without data has no ID and is no CONFIRM. -/
theorem isAck_of_noData {errno : Errno}
    (hresult : (attempt.arrival.result = .failed errno) ∨
      ∃ src d, attempt.arrival.result = .data src d errno ∧ ¬ 0 < rcvLen d) :
    noData attempt.arrival = some errno ∧ idReceived attempt = none ∧
      isAck w.client attempt = false := by
  rcases hresult with hresult | ⟨src, d, hresult, hlen⟩
  · simp [noData, idReceived, isAck, hresult]
  · have hd : d = [] := by
      by_contra hne
      exact hlen (rcvLen_pos_iff.mpr hne)
    simp [noData, idReceived, isAck, hresult, hd, headerBytes]

/-- A receive that fails otherwise than by a timeout disturbs the call. -/
theorem not_undisturbed_of_failed {errno : Errno} (hack : isAck w.client attempt = false)
    (hno : noData attempt.arrival = some errno) (herrno : errno ≠ .eagain) (i : Nat)
    (rest : List Attempt) : ¬ Undisturbed w i (attempt :: rest) := by
  intro h
  refine herrno (h.quiet attempt ?_ errno hno)
  rw [beforeAck_cons hack]
  exact List.mem_cons_self

/-- A new ID for which a full queue has no room disturbs the call. -/
theorem not_undisturbed_of_full {id : UInt16} (hack : isAck w.client attempt = false)
    (hid : idReceived attempt = some id) (hnew : id ∉ w.msgIdList.ids)
    (hfull : w.msgQueue.size = maxQueueSize) (i : Nat) (rest : List Attempt) :
    ¬ Undisturbed w i (attempt :: rest) := by
  intro h
  have hroom := h.room
  have hmem : id ∈ newIds w.msgIdList (beforeAck w.client (attempt :: rest)) := by
    rw [beforeAck_cons hack, newIds, List.filterMap_cons, hid]
    simp [hnew]
  have hpos := Finset.card_pos.mpr ⟨_, hmem⟩
  omega

/-- Nothing comes before a CONFIRM that the first pass receives. -/
theorem undisturbed_of_isAck {i : Nat} (hack : isAck w.client attempt = true)
    (hi : i ≤ w.retransmissions.toNat) (hqueue : w.msgQueue.WellFormed) (rest : List Attempt) :
    Undisturbed w i (attempt :: rest) := by
  have hbefore : beforeAck w.client (attempt :: rest) = [] := by simp [beforeAck, hack]
  refine ⟨?_, ?_, ?_⟩
  · simp [hbefore]
  · rw [hbefore]
    simpa using hi
  · rw [hbefore]
    simpa [newIds] using hqueue.size_le

/-- Every way a pass can end, with what it means for the condition. -/
theorem pass_cases (hfault : noFault attempt.arrival)
    (hlist : w.msgIdList.WellFormed) (hqueue : w.msgQueue.WellFormed) :
    (isAck w.client attempt = true ∧
        (udpSendReceive w attempt.arrival).2 = .done .success) ∨
      (isAck w.client attempt = false ∧
        (udpSendReceive w attempt.arrival).2 = .done .failure ∧
        ∀ i rest, ¬ Undisturbed w i (attempt :: rest)) ∨
      GoesOn w attempt (udpSendReceive w attempt.arrival).1 ∧
        (udpSendReceive w attempt.arrival).2 =
          if isIdle attempt then .timedOut else .unrelated := by
  have hout := udpSendReceive_outcome w attempt.arrival
  generalize udpSendReceive w attempt.arrival = res at hout
  cases hout with
  | noData client next hclient hnext errno hcode hresult =>
      have hnothing : (attempt.arrival.result = .failed errno) ∨
          ∃ src d, attempt.arrival.result = .data src d errno ∧ ¬ 0 < rcvLen d :=
        hresult.imp And.left fun ⟨src, d, hd, hlen, _⟩ => ⟨src, d, hd, by omega⟩
      obtain ⟨hno, hid, hack⟩ := isAck_of_noData (w := w) hnothing
      by_cases herrno : errno = .eagain
      · refine Or.inr (Or.inr ⟨⟨hack, hclient, rfl, hlist, hqueue, ?_, ?_⟩, ?_⟩)
        · intro e he
          rw [hno] at he
          rw [← Option.some.inj he, herrno]
        · intro attempts
          rw [newIds_cons_none hid]
        · simp [isIdle, hno, hcode, herrno]
      · exact Or.inr (Or.inl ⟨hack, by simp [hcode, herrno],
          not_undisturbed_of_failed hack hno herrno⟩)
  | awaited src d hlen haw errno hresult =>
      exact Or.inl ⟨by rw [isAck_of_data hresult, haw], rfl⟩
  | unconfirmed src d hlen haw hcan errno hresult =>
      rw [canConfirm_of_noFault hfault] at hcan
      cases hcan
  | duplicate src d hlen haw hcan hmem errno hresult =>
      obtain ⟨hack, hno, hidle, hid⟩ := isAck_of_unawaited hresult hlen haw
      rw [listContains_iff hlist] at hmem
      refine Or.inr (Or.inr ⟨⟨hack, rfl, rfl, hlist, hqueue, by simp [hno], ?_⟩, ?_⟩)
      · intro attempts
        rw [newIds_cons_old hid hmem]
        rfl
      · simp [hidle]
  | queueFull src d hlen haw hcan hmem hadd errno hresult =>
      obtain ⟨hack, hno, hidle, hid⟩ := isAck_of_unawaited hresult hlen haw
      rw [listContains_eq_false_iff hlist] at hmem
      have hfull : w.msgQueue.size = maxQueueSize := by
        simpa [queueIsFull] using queueIsFull_of_refused hfault.2.2.1 hadd
      exact Or.inr (Or.inl ⟨hack, rfl, not_undisturbed_of_full hack hid hmem hfull⟩)
  | unrecorded src d queue list hlen haw hcan hmem hqueueAdd hlistAppend errno hresult =>
      exact absurd hlistAppend (listAppend_ne_failure hfault.2.2.2)
  | queued src d queue list hlen haw hcan hmem hqueueAdd hlistAppend errno hresult =>
      obtain ⟨hack, hno, hidle, hid⟩ := isAck_of_unawaited hresult hlen haw
      rw [listContains_eq_false_iff hlist] at hmem
      have hadd := queueAdd_true hqueue (congrArg Prod.snd hqueueAdd)
      have happend := listAppend_success hlist (congrArg Prod.snd hlistAppend)
      rw [hqueueAdd] at hadd
      rw [hlistAppend] at happend
      have hsize : queue.size = w.msgQueue.size + 1 := by
        have := congrArg List.length hadd.2
        simpa using this
      refine Or.inr (Or.inr ⟨⟨hack, rfl, rfl, happend.1, hadd.1, by simp [hno], ?_⟩, ?_⟩)
      · intro attempts
        rw [card_newIds_cons_new hid hmem happend.2]
        simp only [received_toGlobals, hsize]
        omega
      · simp [hidle]

end Passes

/-- The loop succeeds exactly if the CONFIRM comes and nothing ends the call before. -/
theorem success_udpSendLoop_iff {type : MsgType} {msg : Bytes} {w : World} {i : Nat}
    {resend : Bool} (attempts : List Attempt)
    (hsendto : ∀ attempt ∈ attempts, attempt.sendto = true)
    (hfault : ∀ attempt ∈ attempts, noFault attempt.arrival)
    (hlist : w.msgIdList.WellFormed) (hqueue : w.msgQueue.WellFormed) :
    (udpSendLoop type msg w i resend attempts).2 = some .success ↔
      attempts.any (isAck w.client) = true ∧ Undisturbed w i attempts := by
  induction attempts generalizing w i resend with
  | nil =>
      simp only [udpSendLoop, List.any_nil, Bool.false_eq_true, false_and, iff_false]
      split <;> simp
  | cons attempt rest ih =>
      by_cases hi : (i : Int) ≤ w.retransmissions.toNat
      case neg =>
        rw [udpSendLoop_beyond hi]
        simp only [Option.some.injEq, reduceCtorEq, false_iff, not_and]
        intro _ h
        have := h.idle
        omega
      case pos =>
        have hsend : attempt.sendto = true := hsendto attempt List.mem_cons_self
        have hpass := pass_cases (w := transmitted type msg w resend)
          (hfault attempt List.mem_cons_self) (by simpa using hlist) (by simpa using hqueue)
        have hglobals : ∀ attempts, Undisturbed (transmitted type msg w resend) i attempts ↔
            Undisturbed w i attempts := by
          intro attempts
          exact ⟨Undisturbed.congr (by simp), Undisturbed.congr (by simp)⟩
        rcases hstep : udpSendReceive (transmitted type msg w resend) attempt.arrival with
          ⟨w', next⟩
        rw [hstep, transmitted_toGlobals] at hpass
        rw [udpSendLoop_cons hi (fun _ => hsend) hstep rest]
        simp only at hpass
        rcases hpass with ⟨hack, rfl⟩ | ⟨hack, rfl, hdisturbed⟩ | ⟨hgoes, hnext⟩
        · -- the CONFIRM
          simp only [afterPass, List.any_cons, hack, Bool.true_or, true_and, true_iff]
          exact undisturbed_of_isAck hack (by omega) hqueue rest
        · -- a failure
          simp only [afterPass, Option.some.injEq, reduceCtorEq, false_iff, not_and]
          intro _ h
          exact hdisturbed i rest ((hglobals _).mpr h)
        · -- the loop goes on
          have hack : isAck w.client attempt = false := by simpa using hgoes.notAck
          have hid : w'.client.msgId = w.client.msgId := by simpa using hgoes.msgId_eq
          have hrest : (udpSendLoop type msg w' (i + (isIdle attempt).toNat : Nat)
              (isIdle attempt) rest).2 = some .success ↔ _ :=
            ih (fun a ha => hsendto a (List.mem_cons_of_mem attempt ha))
              (fun a ha => hfault a (List.mem_cons_of_mem attempt ha)) hgoes.list_wf hgoes.queue_wf
          rw [← hglobals, hgoes.undisturbed_iff, List.any_cons, hack, Bool.false_or,
            ← isAck_congr hid, ← hrest]
          cases hidle : isIdle attempt with
          | false =>
              obtain rfl : next = .unrelated := by simpa [hidle] using hnext
              simp [afterPass]
          | true =>
              obtain rfl : next = .timedOut := by simpa [hidle] using hnext
              simp [afterPass]

/-- The call answers as its contract has it exactly if nothing ends it before a CONFIRM
that comes in time: no receive is interrupted or fails otherwise, no empty datagram
uses up the limit, and the queue holds what else comes. -/
theorem send_succeeds_iff_acked_iff (w : World) (type : MsgType) (msg : Bytes)
    (attempts : List Attempt) (hbuild : udpBuildMsg w.client type = some msg)
    (hsendto : ∀ attempt ∈ attempts, attempt.sendto = true)
    (hfault : ∀ attempt ∈ attempts, noFault attempt.arrival)
    (hlist : w.msgIdList.WellFormed) (hqueue : w.msgQueue.WellFormed) :
    ((udpSendMsg w type true attempts).2 = some .success ↔ AckedInTime w attempts) ↔
      (AckedInTime w attempts → Undisturbed w 0 attempts) := by
  have hsuccess : (udpSendMsg w type true attempts).2 = some .success ↔
      attempts.any (isAck w.client) = true ∧ Undisturbed w 0 attempts := by
    rw [udpSendMsg_of_build hbuild]
    exact success_udpSendLoop_iff (i := 0) attempts hsendto hfault hlist hqueue
  rw [hsuccess]
  constructor
  · intro h hacked
    exact (h.mpr hacked).2
  · intro h
    constructor
    · rintro ⟨hany, hundisturbed⟩
      -- a timeout is a receive without data
      have hle : (beforeAck w.client attempts).countP isTimeout ≤
          (beforeAck w.client attempts).countP isIdle := by
        apply List.countP_mono_left
        intro attempt _ htimeout
        have hresult : attempt.arrival.result = .failed .eagain := by
          simpa [isTimeout] using htimeout
        simp [isIdle, noData, hresult]
      have hidle := hundisturbed.idle
      exact ⟨hany, by omega⟩
    · intro hacked
      exact ⟨hacked.1, h hacked⟩

/-- A CONFIRM after one timeout and one PING. -/
theorem send_succeeds_iff_acked_iff_ping :
    (udpSendMsg (World.init sampleClient 3) .bye true
        [⟨true, { result := .failed .eagain }⟩, ⟨true, delivery [0xFD, 0, 5]⟩,
          ⟨true, delivery [0, 0, 0]⟩]).2 = some .success ↔
      AckedInTime (World.init sampleClient 3)
        [⟨true, { result := .failed .eagain }⟩, ⟨true, delivery [0xFD, 0, 5]⟩,
          ⟨true, delivery [0, 0, 0]⟩] :=
  (send_succeeds_iff_acked_iff (World.init sampleClient 3) .bye ([255, 0, 0] ++ ascii "n" ++ [0])
    _ (by decide) (by decide) (by decide) IdList.wellFormed_empty MsgQueue.wellFormed_empty).mpr
    fun _ => ⟨by decide +kernel, by decide +kernel, by decide +kernel⟩

/-- A signal interrupts the receive; the CONFIRM that comes next is not waited for. -/
theorem interrupted_receive_fails :
    ∃ attempts : List Attempt, (∀ attempt ∈ attempts, attempt.sendto = true) ∧
      (∀ attempt ∈ attempts, noFault attempt.arrival) ∧
      AckedInTime (World.init sampleClient 3) attempts ∧
      (udpSendMsg (World.init sampleClient 3) .auth true attempts).2 = some .failure :=
  ⟨[⟨true, { result := .failed .eintr }⟩, ⟨true, delivery [0, 0, 0]⟩], by decide, by decide,
    ⟨by decide, by decide⟩, by decide +kernel⟩

end IpkChat.Udp
