/-
  Udp/Steps.lean --- what one step of the UDP variant can do.

  Three steps change the state of the UDP variant: one pass of the receive loop
  of udp_send_msg, udp_recv_msg, and udp_check_previous.  For each, an outcome
  predicate lists every way it can end, with the conditions that lead there and
  the world it leaves.  Invariants are proved by cases on these outcomes; the
  bodies of the functions are unfolded here and nowhere else, and the outcomes are
  exactly what the functions compute.

  A run is any sequence of calls of the three functions.
-/
import IpkChat.Udp.Comm
import IpkChat.Foundation.History

set_option autoImplicit false

namespace IpkChat.Udp

open IpkChat.Foundation IpkChat.Core

/-! ## The receive buffer -/

theorem rcvBuffer_take (d : Bytes) : (rcvBuffer d).take (rcvLen d) = d.take bufferSize := by
  have hlen : (d.take bufferSize).length = rcvLen d := by
    simp only [List.length_take, rcvLen, Nat.min_comm]
  rw [rcvBuffer, ← hlen, List.take_left]

/-- The receive buffer depends only on the bytes that fit in it. -/
theorem rcvBuffer_take_self (d : Bytes) : rcvBuffer (d.take bufferSize) = rcvBuffer d := by
  simp only [rcvBuffer, List.take_take, Nat.min_self, List.length_take]
  congr 2
  omega

theorem rcvId_headerBytes (type : MsgType) (msgId : UInt16) (rest : Bytes) :
    rcvId (headerBytes type msgId ++ rest) = msgId :=
  toUint16_header msgId _

theorem rcvId_take (d : Bytes) : rcvId (d.take bufferSize) = rcvId d := by
  simp only [rcvId, rcvBuffer_take_self]

theorem headerSize_le_rcvLen_iff {d : Bytes} : headerSize ≤ rcvLen d ↔ headerSize ≤ d.length := by
  simp only [rcvLen, headerSize, bufferSize]
  omega

/-! ## Confirming -/

theorem contents_confirm (msgId : UInt16) :
    (buildHeader .confirm msgId 0).bind Block.contents = some (headerBytes .confirm msgId) := by
  rw [buildHeader_eq, Option.bind_some, Block.contents_partial_zero]

/-- The CONFIRM that answers a datagram, unless it is a CONFIRM itself. -/
def confirmEvents (src : SockAddr) (d : Bytes) : List Event :=
  if isConfirm d then [] else [.confirm (headerBytes .confirm (rcvId d)) src]

/-- The world after recvfrom stored the sender's address and the datagram was
confirmed. -/
def confirmed (w : World) (src : SockAddr) (d : Bytes) : World :=
  { w with client := { w.client with res := src }, trace := w.trace ++ confirmEvents src d }

@[simp] theorem confirmed_trace (w : World) (src : SockAddr) (d : Bytes) :
    (confirmed w src d).trace = w.trace ++ confirmEvents src d := rfl

/-- No CONFIRM is needed, or it can be allocated and sent. -/
def canConfirm (a : Arrival) (d : Bytes) : Bool :=
  isConfirm d || (a.confirmAlloc && a.confirmSendto)

/-- Confirming succeeds with the CONFIRM sent, or fails with nothing sent. -/
theorem sendConfirm_cases (w : World) (src : SockAddr) (d : Bytes) (a : Arrival) :
    let w' : World := { w with client := { w.client with res := src } }
    (if isConfirm d then (w', ExitCode.success) else sendConfirm w' (rcvId d) a) =
      if canConfirm a d then (confirmed w src d, .success) else (w', .failure) := by
  intro w'
  have hcontents := contents_confirm (rcvId d)
  rw [buildHeader_eq] at hcontents
  simp only [Option.bind_some] at hcontents
  cases hc : isConfirm d with
  | true => simp [canConfirm, confirmed, confirmEvents, hc, w']
  | false =>
      simp only [canConfirm, hc, Bool.false_or, sendConfirm, buildHeader_eq]
      cases halloc : a.confirmAlloc with
      | false => rfl
      | true =>
          cases hsendto : a.confirmSendto with
          | false => rfl
          | true => simp [confirmed, confirmEvents, hc, hcontents, World.emit, w']

theorem confirm_succeeds {a : Arrival} {d : Bytes} (hcan : canConfirm a d = true) (w : World)
    (src : SockAddr) :
    let w' : World := { w with client := { w.client with res := src } }
    (if isConfirm d then (w', ExitCode.success) else sendConfirm w' (rcvId d) a) =
      (confirmed w src d, .success) :=
  (sendConfirm_cases w src d a).trans (if_pos hcan)

theorem confirm_fails {a : Arrival} {d : Bytes} (hcan : canConfirm a d = false) (w : World)
    (src : SockAddr) :
    let w' : World := { w with client := { w.client with res := src } }
    (if isConfirm d then (w', ExitCode.success) else sendConfirm w' (rcvId d) a) =
      (w', .failure) :=
  (sendConfirm_cases w src d a).trans (if_neg (Bool.eq_false_iff.mp hcan))

/-! ## One pass of the loop of udp_send_msg -/

theorem isAwaited_res (c : Client) (src : SockAddr) (d : Bytes) :
    isAwaited { c with res := src } d = isAwaited c d := rfl

/-- Every way the receive part of a pass can end. -/
inductive SendOutcome (w : World) (a : Arrival) : World × Next → Prop where
  | noData (client : Client) (next : Next) (hclient : client.msgId = w.client.msgId)
      (hnext : next = .timedOut ∨ next = .done .failure) (errno : Errno)
      (hcode : next = if errno = .eagain then .timedOut else .done .failure)
      (hresult : a.result = .failed errno ∧ client = w.client ∨
        ∃ src d, a.result = .data src d errno ∧ rcvLen d = 0 ∧
          client = { w.client with res := src }) :
      SendOutcome w a ({ w with client := client }, next)
  | awaited (src : SockAddr) (d : Bytes) (hlen : 0 < rcvLen d)
      (haw : isAwaited w.client d = true)
      (errno : Errno) (hresult : a.result = .data src d errno) :
      SendOutcome w a
        (({ w with client := { w.client with res := src, msgId := w.client.msgId + 1 } } :
          World).received .sendMsg w.toGlobals a d .awaited, .done .success)
  | unconfirmed (src : SockAddr) (d : Bytes) (hlen : 0 < rcvLen d)
      (haw : isAwaited w.client d = false) (hcan : canConfirm a d = false)
      (errno : Errno) (hresult : a.result = .data src d errno) :
      SendOutcome w a
        (({ w with client := { w.client with res := src } } : World).received .sendMsg
          w.toGlobals a d .unconfirmed, .done .failure)
  | duplicate (src : SockAddr) (d : Bytes) (hlen : 0 < rcvLen d)
      (haw : isAwaited w.client d = false) (hcan : canConfirm a d = true)
      (hmem : listContains w.msgIdList (rcvId d) = true)
      (errno : Errno) (hresult : a.result = .data src d errno) :
      SendOutcome w a
        ((confirmed w src d).received .sendMsg w.toGlobals a d .duplicate, .unrelated)
  | queueFull (src : SockAddr) (d : Bytes) (hlen : 0 < rcvLen d)
      (haw : isAwaited w.client d = false) (hcan : canConfirm a d = true)
      (hmem : listContains w.msgIdList (rcvId d) = false)
      (hadd : (queueAdd w.msgQueue (rcvBuffer d) (rcvLen d) a.queueAlloc).2 = false)
      (errno : Errno) (hresult : a.result = .data src d errno) :
      SendOutcome w a
        ((confirmed w src d).received .sendMsg w.toGlobals a d .queueFull, .done .failure)
  | unrecorded (src : SockAddr) (d : Bytes) (queue : MsgQueue) (list : IdList)
      (hlen : 0 < rcvLen d) (haw : isAwaited w.client d = false)
      (hcan : canConfirm a d = true) (hmem : listContains w.msgIdList (rcvId d) = false)
      (hqueue : queueAdd w.msgQueue (rcvBuffer d) (rcvLen d) a.queueAlloc = (queue, true))
      (hlist : listAppend w.msgIdList (rcvId d) a.listAlloc = (list, .failure))
      (errno : Errno) (hresult : a.result = .data src d errno) :
      SendOutcome w a
        (({ confirmed w src d with msgQueue := queue, msgIdList := list } : World).received
          .sendMsg w.toGlobals a d .unrecorded, .done .failure)
  | queued (src : SockAddr) (d : Bytes) (queue : MsgQueue) (list : IdList)
      (hlen : 0 < rcvLen d) (haw : isAwaited w.client d = false)
      (hcan : canConfirm a d = true) (hmem : listContains w.msgIdList (rcvId d) = false)
      (hqueue : queueAdd w.msgQueue (rcvBuffer d) (rcvLen d) a.queueAlloc = (queue, true))
      (hlist : listAppend w.msgIdList (rcvId d) a.listAlloc = (list, .success))
      (errno : Errno) (hresult : a.result = .data src d errno) :
      SendOutcome w a
        (({ confirmed w src d with msgQueue := queue, msgIdList := list } : World).received
          .sendMsg w.toGlobals a d .queued, .unrelated)

theorem udpSendReceive_outcome (w : World) (a : Arrival) :
    SendOutcome w a (udpSendReceive w a) := by
  unfold udpSendReceive
  cases hresult : a.result with
  | failed errno =>
      simp only
      split
      · rename_i hcode
        exact .noData w.client .timedOut rfl (Or.inl rfl) errno (if_pos hcode).symm
          (Or.inl ⟨hresult, rfl⟩)
      · rename_i hcode
        exact .noData w.client (.done .failure) rfl (Or.inr rfl) errno (if_neg hcode).symm
          (Or.inl ⟨hresult, rfl⟩)
  | data src d errno =>
      simp only
      split
      case isFalse hlen =>
        have hzero : rcvLen d = 0 := by omega
        split
        · rename_i hcode
          exact .noData { w.client with res := src } .timedOut rfl (Or.inl rfl) errno
            (if_pos hcode).symm (Or.inr ⟨src, d, hresult, hzero, rfl⟩)
        · rename_i hcode
          exact .noData { w.client with res := src } (.done .failure) rfl (Or.inr rfl) errno
            (if_neg hcode).symm (Or.inr ⟨src, d, hresult, hzero, rfl⟩)
      case isTrue hlen =>
        rw [isAwaited_res]
        split
        case isTrue haw => exact .awaited src d hlen haw errno hresult
        case isFalse haw =>
          rw [Bool.not_eq_true] at haw
          rw [sendConfirm_cases w src d a]
          cases hcan : canConfirm a d with
          | false => exact .unconfirmed src d hlen haw hcan errno hresult
          | true =>
              simp only [if_true, show (confirmed w src d).msgIdList = w.msgIdList from rfl,
                show (confirmed w src d).msgQueue = w.msgQueue from rfl]
              cases hmem : listContains w.msgIdList (rcvId d) with
              | true => exact .duplicate src d hlen haw hcan hmem errno hresult
              | false =>
                  simp only [Bool.false_eq_true, if_false]
                  rcases hadd : queueAdd w.msgQueue (rcvBuffer d) (rcvLen d) a.queueAlloc with
                    ⟨queue, added⟩
                  cases added with
                  | false =>
                      have hrefused := congrArg Prod.snd hadd
                      have hsame := queueAdd_false hrefused
                      rw [hadd] at hsame
                      subst hsame
                      exact .queueFull src d hlen haw hcan hmem hrefused errno hresult
                  | true =>
                      rcases happend : listAppend w.msgIdList (rcvId d) a.listAlloc with
                        ⟨list, code⟩
                      cases code with
                      | failure =>
                          exact .unrecorded src d queue list hlen haw hcan hmem hadd happend
                            errno hresult
                      | success =>
                          exact .queued src d queue list hlen haw hcan hmem hadd happend
                            errno hresult

section Pass

variable {w : World} {a : Arrival} {src : SockAddr} {d : Bytes} {errno : Errno}

/-- An unawaited datagram that can be confirmed, up to the list and the queue. -/
theorem udpSendReceive_confirmed (hresult : a.result = .data src d errno) (hlen : 0 < rcvLen d)
    (haw : isAwaited w.client d = false) (hcan : canConfirm a d = true) :
    udpSendReceive w a =
      if listContains w.msgIdList (rcvId d) then
        ((confirmed w src d).received .sendMsg w.toGlobals a d .duplicate, .unrelated)
      else
        match queueAdd w.msgQueue (rcvBuffer d) (rcvLen d) a.queueAlloc with
        | (queue, false) =>
            (({ confirmed w src d with msgQueue := queue } : World).received .sendMsg w.toGlobals
              a d .queueFull, .done .failure)
        | (queue, true) =>
            match listAppend w.msgIdList (rcvId d) a.listAlloc with
            | (list, .failure) =>
                (({ confirmed w src d with msgQueue := queue, msgIdList := list } : World).received
                  .sendMsg w.toGlobals a d .unrecorded, .done .failure)
            | (list, .success) =>
                (({ confirmed w src d with msgQueue := queue, msgIdList := list } : World).received
                  .sendMsg w.toGlobals a d .queued, .unrelated) := by
  have hconfirm := confirm_succeeds hcan w src
  simp only [udpSendReceive, hresult, if_pos hlen, isAwaited_res, haw, Bool.false_eq_true,
    if_false, hconfirm]
  rfl

/-- The outcomes are what the function computes, and nothing else. -/
theorem SendOutcome.eq {res : World × Next} (h : SendOutcome w a res) :
    udpSendReceive w a = res := by
  cases h with
  | noData client next hclient hnext errno hcode hresult =>
      rcases hresult with ⟨hresult, rfl⟩ | ⟨src, d, hresult, hlen, rfl⟩
      · simp only [udpSendReceive, hresult, hcode]
        split <;> rfl
      · simp only [udpSendReceive, hresult, hlen, hcode, gt_iff_lt, Nat.lt_irrefl, if_false]
        split <;> rfl
  | awaited src d hlen haw errno hresult =>
      simp only [udpSendReceive, hresult, if_pos hlen, isAwaited_res, haw, if_true]
  | unconfirmed src d hlen haw hcan errno hresult =>
      have hconfirm := confirm_fails hcan w src
      simp only [udpSendReceive, hresult, if_pos hlen, isAwaited_res, haw, Bool.false_eq_true,
        if_false, hconfirm]
  | duplicate src d hlen haw hcan hmem errno hresult =>
      rw [udpSendReceive_confirmed hresult hlen haw hcan, if_pos hmem]
  | queueFull src d hlen haw hcan hmem hadd errno hresult =>
      rw [udpSendReceive_confirmed hresult hlen haw hcan, hmem, if_neg Bool.false_ne_true,
        ← Prod.eta (queueAdd _ _ _ _), hadd, queueAdd_false hadd]
      rfl
  | unrecorded src d queue list hlen haw hcan hmem hqueue hlist errno hresult =>
      rw [udpSendReceive_confirmed hresult hlen haw hcan, hmem, if_neg Bool.false_ne_true, hqueue,
        hlist]
  | queued src d queue list hlen haw hcan hmem hqueue hlist errno hresult =>
      rw [udpSendReceive_confirmed hresult hlen haw hcan, hmem, if_neg Bool.false_ne_true, hqueue,
        hlist]

/-- The awaited CONFIRM ends the call. -/
theorem udpSendReceive_awaited (hresult : a.result = .data src d errno)
    (haw : isAwaited w.client d = true) :
    udpSendReceive w a =
      (({ w with client := { w.client with res := src, msgId := w.client.msgId + 1 } } :
        World).received .sendMsg w.toGlobals a d .awaited, .done .success) := by
  have hlen : 0 < rcvLen d := by
    simp only [isAwaited, Bool.and_eq_true, beq_iff_eq] at haw
    omega
  exact (SendOutcome.awaited src d hlen haw errno hresult).eq

/-- A new datagram is confirmed, queued and recorded if nothing fails. -/
theorem udpSendReceive_queued (hresult : a.result = .data src d errno) (hlen : 0 < rcvLen d)
    (haw : isAwaited w.client d = false) (hcan : canConfirm a d = true)
    (hmem : listContains w.msgIdList (rcvId d) = false)
    (hqueue : (queueAdd w.msgQueue (rcvBuffer d) (rcvLen d) a.queueAlloc).2 = true)
    (hlist : (listAppend w.msgIdList (rcvId d) a.listAlloc).2 = .success) :
    udpSendReceive w a =
      (({ confirmed w src d with
          msgQueue := (queueAdd w.msgQueue (rcvBuffer d) (rcvLen d) a.queueAlloc).1
          msgIdList := (listAppend w.msgIdList (rcvId d) a.listAlloc).1 } : World).received
        .sendMsg w.toGlobals a d .queued, .unrelated) :=
  (SendOutcome.queued src d _ _ hlen haw hcan hmem (Prod.ext rfl hqueue) (Prod.ext rfl hlist)
    errno hresult).eq

end Pass

/-- The world in which the receive of a pass starts. -/
def transmitted (type : MsgType) (msg : Bytes) (w : World) (resend : Bool) : World :=
  if resend then w.emit (.transmit type w.client msg) else w

@[simp] theorem transmitted_toGlobals (type : MsgType) (msg : Bytes) (w : World) (resend : Bool) :
    (transmitted type msg w resend).toGlobals = w.toGlobals := by
  cases resend <;> rfl

/-- How the loop goes on after a pass that left the world `w`. -/
def afterPass (type : MsgType) (msg : Bytes) (w : World) (i : Int) (rest : List Attempt) :
    Next → World × Option ExitCode
  | .done code => (w, some code)
  | .timedOut => udpSendLoop type msg w (i + 1) true rest
  | .unrelated => udpSendLoop type msg w i false rest

theorem udpSendLoop_step (type : MsgType) (msg : Bytes) (w : World) (i : Int) (resend : Bool)
    (attempt : Attempt) (rest : List Attempt) :
    udpSendLoop type msg w i resend (attempt :: rest) =
      if i ≤ w.retransmissions.toNat then
        if resend && !attempt.sendto then (transmitted type msg w resend, some .failure)
        else
          let res := udpSendReceive (transmitted type msg w resend) attempt.arrival
          afterPass type msg res.1 i rest res.2
      else (w, some .failure) := by
  have hback : i - 1 + 1 = i := by omega
  rw [udpSendLoop, hback, ← transmitted]
  dsimp only
  rcases udpSendReceive (transmitted type msg w resend) attempt.arrival with ⟨w', _ | _ | _⟩
  · rfl
  · rfl
  · rfl

/-- One pass of the loop, if the sendto that it makes succeeds. -/
theorem udpSendLoop_cons {type : MsgType} {msg : Bytes} {w w' : World} {i : Int} {resend : Bool}
    {attempt : Attempt} {next : Next} (hi : i ≤ w.retransmissions.toNat)
    (hsendto : resend = true → attempt.sendto = true)
    (hstep : udpSendReceive (transmitted type msg w resend) attempt.arrival = (w', next))
    (rest : List Attempt) :
    udpSendLoop type msg w i resend (attempt :: rest) = afterPass type msg w' i rest next := by
  have hnot : (resend && !attempt.sendto) = false := by
    cases resend with
    | false => rfl
    | true => simp [hsendto rfl]
  rw [udpSendLoop_step, if_pos hi, hnot, hstep, if_neg Bool.false_ne_true]

/-! ## udp_recv_msg -/

/-- Every way udp_recv_msg can end. -/
inductive RecvOutcome (w : World) (a : Arrival) : World × MsgType → Prop where
  | failed (errno : Errno) (hresult : a.result = .failed errno) :
      RecvOutcome w a (w.print (.error "recvfrom fault"), .error)
  | truncated (src : SockAddr) (d : Bytes) (hlen : rcvLen d < headerSize)
      (errno : Errno) (hresult : a.result = .data src d errno) :
      RecvOutcome w a
        ((({ w with client := { w.client with res := src } } : World).print
          (.error "recvfrom fault")).received .recvMsg w.toGlobals a d .truncated, .error)
  | unconfirmed (src : SockAddr) (d : Bytes) (hlen : headerSize ≤ rcvLen d)
      (hcan : canConfirm a d = false)
      (errno : Errno) (hresult : a.result = .data src d errno) :
      RecvOutcome w a
        (({ w with client := { w.client with res := src } } : World).received .recvMsg
          w.toGlobals a d .unconfirmed, .error)
  | unknownType (src : SockAddr) (d : Bytes) (hlen : headerSize ≤ rcvLen d)
      (hcan : canConfirm a d = true) (hfind : findMsg (rcvBuffer d) = none)
      (errno : Errno) (hresult : a.result = .data src d errno) :
      RecvOutcome w a
        (((confirmed w src d).print (.error "Unknown message")).received .recvMsg
          w.toGlobals a d .unknownType, .error)
  | duplicate (src : SockAddr) (d : Bytes) (hlen : headerSize ≤ rcvLen d)
      (hcan : canConfirm a d = true) (hknown : isKnownType d = true)
      (hmem : listContains w.msgIdList (rcvId d) = true)
      (errno : Errno) (hresult : a.result = .data src d errno) :
      RecvOutcome w a
        ((confirmed w src d).received .recvMsg w.toGlobals a d .duplicate, .local_)
  | unrecorded (src : SockAddr) (d : Bytes) (list : IdList) (hlen : headerSize ≤ rcvLen d)
      (hcan : canConfirm a d = true) (hknown : isKnownType d = true)
      (hmem : listContains w.msgIdList (rcvId d) = false)
      (hlist : listAppend w.msgIdList (rcvId d) a.listAlloc = (list, .failure))
      (errno : Errno) (hresult : a.result = .data src d errno) :
      RecvOutcome w a
        (({ confirmed w src d with msgIdList := list } : World).received .recvMsg
          w.toGlobals a d .unrecorded, .error)
  | dispatched (src : SockAddr) (d : Bytes) (list : IdList) (p : Parsed)
      (hlen : headerSize ≤ rcvLen d) (hcan : canConfirm a d = true)
      (hknown : isKnownType d = true) (hmem : listContains w.msgIdList (rcvId d) = false)
      (hlist : listAppend w.msgIdList (rcvId d) a.listAlloc = (list, .success))
      (errno : Errno) (hresult : a.result = .data src d errno)
      (entry : UdpMsg) (hfind : findMsg (rcvBuffer d) = some entry)
      (hp : p = entry.parseFunc { w.client with res := src } (rcvBuffer d) (rcvLen d)) :
      RecvOutcome w a
        (((({ confirmed w src d with msgIdList := list } : World).emit
          (.parsed (d.take bufferSize))).printParsed p).received .recvMsg w.toGlobals a d
          .dispatched, p.type)

theorem udpRecvMsg_outcome (w : World) (a : Arrival) : RecvOutcome w a (udpRecvMsg w a) := by
  unfold udpRecvMsg
  cases hresult : a.result with
  | failed errno => exact .failed errno hresult
  | data src d errno =>
      simp only [ge_iff_le]
      split
      case isFalse hlen => exact .truncated src d (Nat.lt_of_not_le hlen) errno hresult
      case isTrue hlen =>
        rw [sendConfirm_cases w src d a]
        cases hcan : canConfirm a d with
        | false => exact .unconfirmed src d hlen hcan errno hresult
        | true =>
            simp only [if_true, udpProcessMsg_eq]
            cases hfind : findMsg (rcvBuffer d) with
            | none => exact .unknownType src d hlen hcan hfind errno hresult
            | some entry =>
                have hknown : isKnownType d = true := by simp [isKnownType, hfind]
                simp only [show (confirmed w src d).msgIdList = w.msgIdList from rfl]
                cases hmem : listContains w.msgIdList (toUint16 ((rcvBuffer d).drop 1)) with
                | true => exact .duplicate src d hlen hcan hknown hmem errno hresult
                | false =>
                    simp only [Bool.false_eq_true, if_false]
                    rcases happend : listAppend w.msgIdList (toUint16 ((rcvBuffer d).drop 1))
                      a.listAlloc with ⟨list, code⟩
                    cases code with
                    | failure =>
                        exact .unrecorded src d list hlen hcan hknown hmem happend errno hresult
                    | success =>
                        simp only [rcvBuffer_take]
                        exact .dispatched src d list _ hlen hcan hknown hmem happend errno hresult
                          entry hfind rfl

/-- The outcomes are what the function computes, and nothing else. -/
theorem RecvOutcome.eq {w : World} {a : Arrival} {res : World × MsgType}
    (h : RecvOutcome w a res) : udpRecvMsg w a = res := by
  cases h with
  | failed errno hresult => simp only [udpRecvMsg, hresult]
  | truncated src d hlen errno hresult =>
      simp only [udpRecvMsg, hresult, ge_iff_le, if_neg (Nat.not_le_of_lt hlen)]
  | unconfirmed src d hlen hcan errno hresult =>
      have hconfirm := confirm_fails hcan w src
      simp only [udpRecvMsg, hresult, ge_iff_le, if_pos hlen, hconfirm]
  | unknownType src d hlen hcan hfind errno hresult =>
      have hconfirm := confirm_succeeds hcan w src
      simp only [udpRecvMsg, hresult, ge_iff_le, if_pos hlen, hconfirm, udpProcessMsg_eq, hfind]
      rfl
  | duplicate src d hlen hcan hknown hmem errno hresult =>
      have hconfirm := confirm_succeeds hcan w src
      obtain ⟨entry, hfind⟩ := Option.isSome_iff_exists.mp hknown
      rw [rcvId] at hmem
      simp only [udpRecvMsg, hresult, ge_iff_le, if_pos hlen, hconfirm, udpProcessMsg_eq, hfind,
        if_true, show (confirmed w src d).msgIdList = w.msgIdList from rfl, hmem]
      rfl
  | unrecorded src d list hlen hcan hknown hmem hlist errno hresult =>
      have hconfirm := confirm_succeeds hcan w src
      obtain ⟨entry, hfind⟩ := Option.isSome_iff_exists.mp hknown
      rw [rcvId] at hmem hlist
      simp only [udpRecvMsg, hresult, ge_iff_le, if_pos hlen, hconfirm, udpProcessMsg_eq, hfind,
        if_true, show (confirmed w src d).msgIdList = w.msgIdList from rfl, hmem,
        Bool.false_eq_true, if_false, hlist]
      rfl
  | dispatched src d list p hlen hcan hknown hmem hlist errno hresult entry hfind hp =>
      have hconfirm := confirm_succeeds hcan w src
      rw [rcvId] at hmem hlist
      simp only [udpRecvMsg, hresult, ge_iff_le, if_pos hlen, hconfirm, udpProcessMsg_eq, hfind,
        if_true, show (confirmed w src d).msgIdList = w.msgIdList from rfl, hmem,
        Bool.false_eq_true, if_false, hlist, rcvBuffer_take, hp]
      rfl

/-- A new datagram of a known type reaches its parser if nothing fails. -/
theorem udpRecvMsg_dispatched {w : World} {a : Arrival} {src : SockAddr} {d : Bytes}
    {errno : Errno} {entry : UdpMsg} (hresult : a.result = .data src d errno)
    (hlen : headerSize ≤ rcvLen d) (hcan : canConfirm a d = true)
    (hfind : findMsg (rcvBuffer d) = some entry)
    (hmem : listContains w.msgIdList (rcvId d) = false)
    (hlist : (listAppend w.msgIdList (rcvId d) a.listAlloc).2 = .success) :
    let p := entry.parseFunc { w.client with res := src } (rcvBuffer d) (rcvLen d)
    udpRecvMsg w a =
      (((({ confirmed w src d with
          msgIdList := (listAppend w.msgIdList (rcvId d) a.listAlloc).1 } : World).emit
        (.parsed (d.take bufferSize))).printParsed p).received .recvMsg w.toGlobals a d
        .dispatched, p.type) := by
  have hknown : isKnownType d = true := by rw [isKnownType, hfind]; rfl
  exact (RecvOutcome.dispatched src d _ _ hlen hcan hknown hmem (Prod.ext rfl hlist) errno hresult
    entry hfind rfl).eq

/-! ## udp_check_previous -/

/-- Every way udp_check_previous can end. -/
inductive CheckOutcome (w : World) (beyond : Bytes) : World × Option MsgType → Prop where
  | empty (hempty : w.msgQueue.toList = []) : CheckOutcome w beyond (w, none)
  | unknownType (m : Msg) (queue : MsgQueue) (hfront : queueFront w.msgQueue = (queue, some m))
      (hfind : findMsg (m.msg ++ beyond) = none) :
      CheckOutcome w beyond
        (({ w with msgQueue := queue } : World).print (.error "Unknown message"), some .error)
  | dispatched (m : Msg) (queue : MsgQueue) (entry : UdpMsg)
      (hfront : queueFront w.msgQueue = (queue, some m))
      (hfind : findMsg (m.msg ++ beyond) = some entry) :
      CheckOutcome w beyond
        ((({ w with msgQueue := queue } : World).emit
          (.parsed ((m.msg ++ beyond).take m.msgLen))).printParsed
            (entry.parseFunc w.client (m.msg ++ beyond) m.msgLen),
          some (entry.parseFunc w.client (m.msg ++ beyond) m.msgLen).type)

theorem udpCheckPrevious_outcome (w : World) (beyond : Bytes) :
    CheckOutcome w beyond (udpCheckPrevious w beyond) := by
  rw [udpCheckPrevious_eq]
  cases hempty : queueIsEmpty w.msgQueue with
  | true => exact .empty ((MsgQueue.queueIsEmpty_iff _).mp hempty)
  | false =>
      simp only [Bool.not_false, if_true]
      have hfront : ∃ queue m, queueFront w.msgQueue = (queue, some m) := by
        simp [queueFront, hempty]
      obtain ⟨queue, m, hfront⟩ := hfront
      simp only [hfront, udpProcessMsg_eq]
      cases hfind : findMsg (m.msg ++ beyond) with
      | none => exact .unknownType m queue hfront hfind
      | some entry => exact .dispatched m queue entry hfront hfind

/-- The outcomes are what the function computes, and nothing else. -/
theorem CheckOutcome.eq {w : World} {beyond : Bytes} {res : World × Option MsgType}
    (h : CheckOutcome w beyond res) : udpCheckPrevious w beyond = res := by
  have hnonempty : ∀ {queue m}, queueFront w.msgQueue = (queue, some m) →
      queueIsEmpty w.msgQueue = false := by
    intro queue m hfront
    by_contra hempty
    rw [Bool.not_eq_false] at hempty
    simp [queueFront, hempty] at hfront
  rw [udpCheckPrevious_eq]
  cases h with
  | empty hempty => rw [(MsgQueue.queueIsEmpty_iff _).mpr hempty]; rfl
  | unknownType m queue hfront hfind =>
      simp only [hnonempty hfront, Bool.not_false, if_true, hfront, udpProcessMsg_eq, hfind]
      rfl
  | dispatched m queue entry hfront hfind =>
      simp only [hnonempty hfront, Bool.not_false, if_true, hfront, udpProcessMsg_eq, hfind]
      rfl

/-! ## Runs -/

/-- One call of a function of the UDP variant, with what it meets. -/
inductive UdpCall where
  | sendMsg (type : MsgType) (alloc : Bool) (attempts : List Attempt)
  | recvMsg (a : Arrival)
  | checkPrevious (beyond : Bytes)

/-- The world after a call. -/
def UdpCall.step (w : World) : UdpCall → World
  | .sendMsg type alloc attempts => (udpSendMsg w type alloc attempts).1
  | .recvMsg a => (udpRecvMsg w a).1
  | .checkPrevious beyond => (udpCheckPrevious w beyond).1

/-- A run of the UDP variant from the empty list and queue. -/
def udpRun (client : Client) (retransmissions : UInt8) (calls : List UdpCall) : World :=
  calls.foldl UdpCall.step (World.init client retransmissions)

/-- The datagram arrives from the server of `sampleClient`, and nothing fails. -/
def delivery (d : Bytes) : Arrival where
  result := .data sampleClient.res d .eagain

/-- The arrivals a call meets. -/
def UdpCall.arrivals : UdpCall → List Arrival
  | .sendMsg _ _ attempts => attempts.map (·.arrival)
  | .recvMsg a => [a]
  | .checkPrevious _ => []

section Preservation

variable {I : World → Prop} {ok : Arrival → Prop}

/-- What the passes of the loop keep while they go on; a pass that fails may leave
less. -/
theorem udpSendLoop_hands_over {J : World → Prop} (hIJ : ∀ w, I w → J w) {type : MsgType}
    {msg : Bytes} (htransmit : ∀ w, I w → I (w.emit (.transmit type w.client msg)))
    (hreceive : ∀ w a, ok a → I w → J (udpSendReceive w a).1 ∧
      ((udpSendReceive w a).2 ≠ .done .failure → I (udpSendReceive w a).1)) :
    ∀ (attempts : List Attempt) (w : World) (i : Int) (resend : Bool),
      (∀ a ∈ attempts, ok a.arrival) → I w →
        J (udpSendLoop type msg w i resend attempts).1 ∧
          ((udpSendLoop type msg w i resend attempts).2 = some .success →
            I (udpSendLoop type msg w i resend attempts).1) := by
  intro attempts
  induction attempts with
  | nil =>
      intro w i resend _ hw
      unfold udpSendLoop
      split <;> exact ⟨hIJ w hw, fun _ => hw⟩
  | cons a rest ih =>
      intro w i resend hok hw
      have hrest : ∀ b ∈ rest, ok b.arrival := fun b hb => hok b (List.mem_cons_of_mem a hb)
      have hw' : I (transmitted type msg w resend) := by
        cases resend with
        | false => exact hw
        | true => exact htransmit w hw
      have hstep := hreceive _ a.arrival (hok a List.mem_cons_self) hw'
      rw [udpSendLoop_step]
      split
      case isFalse => exact ⟨hIJ w hw, fun _ => hw⟩
      case isTrue =>
        split
        · exact ⟨hIJ _ hw', fun _ => hw'⟩
        · generalize udpSendReceive (transmitted type msg w resend) a.arrival = res at hstep
          obtain ⟨w₁, next⟩ := res
          cases next with
          | done code =>
              cases code with
              | success => exact ⟨hstep.1, fun _ => hstep.2 (by simp)⟩
              | failure => exact ⟨hstep.1, fun hs => by cases hs⟩
          | timedOut => exact ih w₁ _ _ hrest (hstep.2 (by simp))
          | unrelated => exact ih w₁ _ _ hrest (hstep.2 (by simp))

theorem udpSendLoop_preserves {type : MsgType} {msg : Bytes}
    (htransmit : ∀ w, I w → I (w.emit (.transmit type w.client msg)))
    (hreceive : ∀ w a, ok a → I w → I (udpSendReceive w a).1) (attempts : List Attempt)
    (w : World) (i : Int) (resend : Bool) (hok : ∀ a ∈ attempts, ok a.arrival) (hw : I w) :
    I (udpSendLoop type msg w i resend attempts).1 :=
  (udpSendLoop_hands_over (fun _ h => h) htransmit
    (fun w a ha h => ⟨hreceive w a ha h, fun _ => hreceive w a ha h⟩) attempts w i resend hok hw).1

/-- What holds at the start and is kept by every step holds after every run. -/
theorem udpRun_preserves {client : Client} {retransmissions : UInt8}
    (hinit : I (World.init client retransmissions))
    (htransmit : ∀ w type msg, I w → I (w.emit (.transmit type w.client msg)))
    (hsend : ∀ w a, ok a → I w → I (udpSendReceive w a).1)
    (hrecv : ∀ w a, ok a → I w → I (udpRecvMsg w a).1)
    (hcheck : ∀ w beyond, I w → I (udpCheckPrevious w beyond).1)
    {calls : List UdpCall} (hok : ∀ c ∈ calls, ∀ a ∈ c.arrivals, ok a) :
    I (udpRun client retransmissions calls) := by
  unfold udpRun
  generalize World.init client retransmissions = w at hinit
  induction calls generalizing w with
  | nil => exact hinit
  | cons c rest ih =>
      refine ih (fun c' hc' => hok c' (List.mem_cons_of_mem c hc')) _ ?_
      have hc := hok c List.mem_cons_self
      cases c with
      | sendMsg type alloc attempts =>
          simp only [UdpCall.step, udpSendMsg]
          split
          · exact hinit
          · refine udpSendLoop_preserves (fun w hw => htransmit w type _ hw) hsend attempts w 0
              true (fun a ha => hc a.arrival ?_) hinit
            exact List.mem_map.mpr ⟨a, ha, rfl⟩
      | recvMsg a => exact hrecv w a (hc a List.mem_cons_self) hinit
      | checkPrevious beyond => exact hcheck w beyond hinit

end Preservation

end IpkChat.Udp
