/-
  Udp/Comm.lean --- lib/comm_udp.h and src/comm_udp.c.

  Sending with retransmission until the CONFIRM arrives, receiving, and the
  dispatch of datagrams to their parsers.

  `udpSendMsg` consumes one `Attempt` for each pass of its loop.  A list that ends
  before the function returns describes a call that is still waiting; the result
  is then `none`.
-/
import IpkChat.Core.World
import IpkChat.Udp.Message

set_option autoImplicit false

namespace IpkChat.Udp

open IpkChat.Foundation IpkChat.Core

/-! ## The receive buffer -/

/-- The zero-filled buffer of BUFFER_SIZE bytes after recvfrom stored `d` in it.
(udp_send_msg starts with '0' in the first byte, which any datagram overwrites.) -/
def rcvBuffer (d : Bytes) : Bytes :=
  d.take bufferSize ++ List.replicate (bufferSize - d.length) 0

/-- The length returned by recvfrom. -/
def rcvLen (d : Bytes) : Nat := min d.length bufferSize

/-- The message ID that to_uint16 reads from the receive buffer. -/
def rcvId (d : Bytes) : UInt16 := toUint16 ((rcvBuffer d).drop 1)

/-- The type byte is that of a CONFIRM. -/
def isConfirm (d : Bytes) : Bool := (rcvBuffer d).getD 0 0 == MsgType.confirm.code

/-! ## The dispatch table -/

section Table

variable {m : Type → Type} [Monad m] (reads : Reads m)

/-- The table msg, with parsers that read in `m`. -/
def msgTableWith : List (MsgType × (Client → Bytes → Nat → m Parsed)) :=
  [(.confirm, udpParseConfirmWith reads),
   (.reply, udpParseReplyWith reads),
   (.auth, fun c buffer msgLen => pure (udpParseUnexpected c buffer msgLen)),
   (.join, fun c buffer msgLen => pure (udpParseUnexpected c buffer msgLen)),
   (.msg, udpParseMsgWith reads),
   (.err, udpParseErrWith reads),
   (.bye, udpParseByeWith reads),
   (.ping, fun c buffer msgLen => pure (udpParsePing c buffer msgLen))]

end Table

/-- The structure udp_msg_t. -/
structure UdpMsg where
  type : MsgType
  parseFunc : Client → Bytes → Nat → Parsed

/-- An entry of the program. -/
def UdpMsg.ofReads (entry : MsgType × (Client → Bytes → Nat → Id Parsed)) : UdpMsg :=
  ⟨entry.1, fun c buffer msgLen => Id.run (entry.2 c buffer msgLen)⟩

/-- The table msg. -/
def msgTable : List UdpMsg := (msgTableWith memory).map UdpMsg.ofReads

theorem msgTable_eq : msgTable =
    [⟨.confirm, udpParseConfirm⟩,
     ⟨.reply, udpParseReply⟩,
     ⟨.auth, udpParseUnexpected⟩,
     ⟨.join, udpParseUnexpected⟩,
     ⟨.msg, udpParseMsg⟩,
     ⟨.err, udpParseErr⟩,
     ⟨.bye, udpParseBye⟩,
     ⟨.ping, udpParsePing⟩] := rfl

/-- The entry whose type is the first byte of the buffer. -/
def findMsg (buffer : Bytes) : Option UdpMsg :=
  msgTable.find? fun entry => buffer.getD 0 0 == entry.type.code

/-- The type byte is one that udp_process_msg knows. -/
def isKnownType (d : Bytes) : Bool := (findMsg (rcvBuffer d)).isSome

/-! ## Confirming and dispatching -/

/-- The CONFIRM goes to the address that recvfrom stored. -/
def sendConfirm (w : World) (msgId : UInt16) (a : Arrival) : World × ExitCode :=
  match (if a.confirmAlloc then buildHeader .confirm msgId 0 else none) with
  | none => (w, .failure)
  | some confirm =>
      if !a.confirmSendto then (w, .failure)
      else (w.emit (.confirm (confirm.contents.getD []) w.client.res), .success)

/-- The ways out of udp_process_msg. -/
inductive Dispatch where
  | unknown
  | duplicate
  | unrecorded
  | parsed (p : Parsed)
  deriving DecidableEq, Repr

/-- The value returned by udp_process_msg. -/
def Dispatch.type : Dispatch → MsgType
  | .unknown => .error
  | .duplicate => .local_
  | .unrecorded => .error
  | .parsed p => p.type

section Processing

variable {m : Type → Type} [Monad m] (reads : Reads m)

/-- udp_process_msg: the entry of the table for the type byte, and a look at the list of
IDs if the datagram is to be stored there. -/
def udpProcessMsgWith (w : World) (buffer : Bytes) (msgLen : Nat) (store listAlloc : Bool) :
    m (World × Dispatch) := do
  let parse (w : World) (parseFunc : Client → Bytes → Nat → m Parsed) : m (World × Dispatch) := do
    let p ← parseFunc w.client buffer msgLen
    pure ((w.emit (.parsed (buffer.take msgLen))).printParsed p, .parsed p)
  let type ← reads.byte buffer 0
  match (msgTableWith reads).find? fun entry => type == entry.1.code with
  | some (_, parseFunc) =>
      if store then do
        let msgId ← toUint16With reads (buffer.drop 1)
        if listContains w.msgIdList msgId then pure (w, .duplicate)
        else
          match listAppend w.msgIdList msgId listAlloc with
          | (list, .failure) => pure ({ w with msgIdList := list }, .unrecorded)
          | (list, .success) => parse { w with msgIdList := list } parseFunc
      else parse w parseFunc
  | none => pure (w.print (.error "Unknown message"), .unknown)

end Processing

/-- udp_process_msg. -/
def udpProcessMsg (w : World) (buffer : Bytes) (msgLen : Nat) (store listAlloc : Bool) :
    World × Dispatch :=
  Id.run (udpProcessMsgWith memory w buffer msgLen store listAlloc)

/-- By the entry that is found. -/
theorem udpProcessMsg_eq (w : World) (buffer : Bytes) (msgLen : Nat) (store listAlloc : Bool) :
    udpProcessMsg w buffer msgLen store listAlloc =
      let parse (w : World) (entry : UdpMsg) : World × Dispatch :=
        let p := entry.parseFunc w.client buffer msgLen
        ((w.emit (.parsed (buffer.take msgLen))).printParsed p, .parsed p)
      match findMsg buffer with
      | some entry =>
          if store then
            if listContains w.msgIdList (toUint16 (buffer.drop 1)) then (w, .duplicate)
            else
              match listAppend w.msgIdList (toUint16 (buffer.drop 1)) listAlloc with
              | (list, .failure) => ({ w with msgIdList := list }, .unrecorded)
              | (list, .success) => parse { w with msgIdList := list } entry
          else parse w entry
      | none => (w.print (.error "Unknown message"), .unknown) := by
  have hfind : findMsg buffer = ((msgTableWith memory).find?
      fun entry => buffer.getD 0 0 == entry.1.code).map UdpMsg.ofReads := by
    rw [findMsg, msgTable, List.find?_map]
    rfl
  have hbyte : (memory.byte buffer 0).run = buffer.getD 0 0 := rfl
  unfold udpProcessMsg udpProcessMsgWith
  rw [hfind, Id.run_bind, hbyte]
  generalize (msgTableWith memory).find? (fun entry => buffer.getD 0 0 == entry.1.code) = found
  rcases found with _ | ⟨type, parseFunc⟩
  · rfl
  · cases store with
    | false => rfl
    | true =>
        have hid : (toUint16With memory (buffer.drop 1)).run = toUint16 (buffer.drop 1) := rfl
        simp only [if_true, Id.run_bind, hid, Option.map_some]
        split
        · rfl
        · rcases listAppend w.msgIdList (toUint16 (buffer.drop 1)) listAlloc with ⟨list, _ | _⟩
          · rfl
          · rfl

/-! ## Sending -/

/-- How one pass of the loop of udp_send_msg ends. -/
inductive Next where
  /-- the function returns -/
  | done (code : ExitCode)
  /-- nothing arrived in time -/
  | timedOut
  /-- another datagram arrived -/
  | unrelated
  deriving DecidableEq, Repr

/-- The condition under which udp_send_msg takes a datagram for the CONFIRM of
the message it sends. -/
def isAwaited (c : Client) (d : Bytes) : Bool :=
  rcvLen d == 3 && isConfirm d && c.msgId == rcvId d

/-- The part of the loop body of udp_send_msg that follows the sendto. -/
def udpSendReceive (w : World) (a : Arrival) : World × Next :=
  let before := w.toGlobals
  -- errno decides what a recvfrom that returned no data counts as
  let noData (w : World) (errno : Errno) : World × Next :=
    if errno = .eagain then (w, .timedOut) else (w, .done .failure)
  match a.result with
  | .failed errno => noData w errno
  | .data src d errno =>
      let w := { w with client := { w.client with res := src } }
      if rcvLen d > 0 then
        if isAwaited w.client d then
          (({ w with client := { w.client with msgId := w.client.msgId + 1 } } : World).received
            .sendMsg before a d .awaited, .done .success)
        else
          match (if isConfirm d then (w, ExitCode.success) else sendConfirm w (rcvId d) a) with
          | (w, .failure) => (w.received .sendMsg before a d .unconfirmed, .done .failure)
          | (w, .success) =>
              if listContains w.msgIdList (rcvId d) then
                (w.received .sendMsg before a d .duplicate, .unrelated)
              else
                match queueAdd w.msgQueue (rcvBuffer d) (rcvLen d) a.queueAlloc with
                | (queue, false) =>
                    (({ w with msgQueue := queue } : World).received .sendMsg before a d .queueFull,
                      .done .failure)
                | (queue, true) =>
                    match listAppend w.msgIdList (rcvId d) a.listAlloc with
                    | (list, .failure) =>
                        (({ w with msgQueue := queue, msgIdList := list } : World).received
                          .sendMsg before a d .unrecorded, .done .failure)
                    | (list, .success) =>
                        (({ w with msgQueue := queue, msgIdList := list } : World).received
                          .sendMsg before a d .queued, .unrelated)
      else noData w errno

/-- What one pass of the loop meets: the sendto, where it is made, and the
receive. -/
structure Attempt where
  sendto : Bool := true
  arrival : Arrival

/-- The loop of udp_send_msg at its test, with the loop variables `i` and
`resend`. -/
def udpSendLoop (type : MsgType) (msg : Bytes) :
    World → Int → Bool → List Attempt → World × Option ExitCode
  | w, i, _, [] => if i ≤ w.retransmissions.toNat then (w, none) else (w, some .failure)
  | w, i, resend, a :: rest =>
      if i ≤ w.retransmissions.toNat then
        let w := if resend then w.emit (.transmit type w.client msg) else w
        if resend && !a.sendto then (w, some .failure)
        else
          match udpSendReceive w a.arrival with
          | (w, .done code) => (w, some code)
          | (w, .timedOut) => udpSendLoop type msg w (i + 1) true rest
          | (w, .unrelated) => udpSendLoop type msg w (i - 1 + 1) false rest
      else (w, some .failure)

/-- `alloc` tells whether the malloc of udp_build_msg succeeds. -/
def udpSendMsg (w : World) (type : MsgType) (alloc : Bool) (attempts : List Attempt) :
    World × Option ExitCode :=
  match (if alloc then udpBuildMsg w.client type else none) with
  | none => (w, some .failure)
  | some msg => udpSendLoop type msg w 0 true attempts

/-! ## Receiving -/

/-- The fate of a datagram that udp_recv_msg hands to udp_process_msg. -/
def Dispatch.fate : Dispatch → Fate
  | .unknown => .unknownType
  | .duplicate => .duplicate
  | .unrecorded => .unrecorded
  | .parsed _ => .dispatched

/-- A datagram is confirmed before it is looked at. -/
def udpRecvMsg (w : World) (a : Arrival) : World × MsgType :=
  let before := w.toGlobals
  match a.result with
  | .failed _ => (w.print (.error "recvfrom fault"), .error)
  | .data src d _ =>
      let w := { w with client := { w.client with res := src } }
      if rcvLen d ≥ headerSize then
        match (if isConfirm d then (w, ExitCode.success) else sendConfirm w (rcvId d) a) with
        | (w, .failure) => (w.received .recvMsg before a d .unconfirmed, .error)
        | (w, .success) =>
            let (w, dispatch) := udpProcessMsg w (rcvBuffer d) (rcvLen d) true a.listAlloc
            (w.received .recvMsg before a d dispatch.fate, dispatch.type)
      else ((w.print (.error "recvfrom fault")).received .recvMsg before a d .truncated, .error)

/-- udp_check_previous; `beyond` is what is known of memory behind the heap copy. -/
def udpCheckPreviousWith {m : Type → Type} [Monad m] (reads : Reads m) (w : World)
    (beyond : Bytes) : m (World × Option MsgType) :=
  if !queueIsEmpty w.msgQueue then
    match queueFront w.msgQueue with
    | (queue, none) => pure ({ w with msgQueue := queue }, none)
    | (queue, some msg) => do
        let (w, dispatch) ← udpProcessMsgWith reads { w with msgQueue := queue }
          (msg.msg ++ beyond) msg.msgLen false true
        pure (w, some dispatch.type)
  else pure (w, none)

/-- udp_check_previous. -/
def udpCheckPrevious (w : World) (beyond : Bytes) : World × Option MsgType :=
  Id.run (udpCheckPreviousWith memory w beyond)

theorem udpCheckPrevious_eq (w : World) (beyond : Bytes) :
    udpCheckPrevious w beyond =
      if !queueIsEmpty w.msgQueue then
        match queueFront w.msgQueue with
        | (queue, none) => ({ w with msgQueue := queue }, none)
        | (queue, some m) =>
            let (w, dispatch) :=
              udpProcessMsg { w with msgQueue := queue } (m.msg ++ beyond) m.msgLen false true
            (w, some dispatch.type)
      else (w, none) := by
  unfold udpCheckPrevious udpCheckPreviousWith
  split
  · rcases queueFront w.msgQueue with ⟨queue, _ | m⟩
    · rfl
    · rfl
  · rfl

end IpkChat.Udp
