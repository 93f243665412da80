/-
  Core/World.lean --- the global variables of the client, and what it does.

  The C program keeps its state in global variables.  `Globals` is their record,
  one field for each; `World` adds the history of the effects performed so far.
  Every modelled function takes a `World` and returns the `World` it leaves.

  What the program does not decide is an argument: the outcome of a system call,
  whether an allocation succeeds, what the user types.  `Arrival` collects what
  one receive call and the calls that handle its result meet.
-/
import IpkChat.Core.IdList
import IpkChat.Core.MsgQueue
import IpkChat.Core.MsgBuffer

set_option autoImplicit false

namespace IpkChat.Core

open IpkChat.Foundation

/-! ## Prompts and states -/

/-- The enumeration input_type_t. -/
inductive InputType where
  | user
  | server
  deriving DecidableEq, Repr, Inhabited

/-- The structure prompt_t. -/
structure Prompt where
  inputType : InputType
  type : MsgType
  deriving DecidableEq, Repr, Inhabited

/-- The functions that the global pointer `state` may point to. -/
inductive FsmState where
  | start
  | auth
  | open_
  | join
  | interupt
  deriving DecidableEq, Repr, Inhabited

/-- The structure timeval. -/
structure Timeval where
  tvSec : Int
  tvUsec : Int
  deriving DecidableEq, Repr, Inhabited

/-- The global variables of the program.  `state` is `none` for the null
pointer; `retransmissions` is the field of `parameters` of that name. -/
structure Globals where
  client : Client
  retransmissions : UInt8
  msgIdList : IdList
  msgQueue : MsgQueue
  msgBuffer : MsgBuffer
  processing : Bool
  interrupt : Bool
  state : Option FsmState

/-! ## Outcomes the program does not decide -/

/-- The values of errno that the program tells apart; EWOULDBLOCK is EAGAIN. -/
inductive Errno where
  | eagain
  | eintr
  | other
  deriving DecidableEq, Repr, Inhabited

/-- The result of recvfrom or recv.  A call that returns data leaves errno
alone, so the value it then has is a leftover. -/
inductive RecvResult where
  | data (src : SockAddr) (bytes : Bytes) (errno : Errno)
  | failed (errno : Errno)
  deriving DecidableEq, Repr, Inhabited

/-- What one receive call returns, and whether the allocations and the sendto
made while its result is handled succeed. -/
structure Arrival where
  result : RecvResult
  /-- malloc in build_header, called by send_confirm -/
  confirmAlloc : Bool := true
  /-- sendto in send_confirm -/
  confirmSendto : Bool := true
  /-- malloc in queue_add -/
  queueAlloc : Bool := true
  /-- realloc in list_append -/
  listAlloc : Bool := true
  /-- realloc in buffer_append -/
  bufferAlloc : Bool := true
  /-- malloc in buffer_get_msg -/
  lineAlloc : Bool := true

/-- The result of getline on standard input. -/
inductive Getline where
  | line (bytes : Bytes)
  | eof
  | failed
  deriving DecidableEq, Repr, Inhabited

/-! ## Events -/

/-- The function whose recvfrom returned a datagram. -/
inductive Site where
  | sendMsg
  | recvMsg
  deriving DecidableEq, Repr, Inhabited

/-- What became of a received datagram. -/
inductive Fate where
  /-- the CONFIRM that udp_send_msg was waiting for -/
  | awaited
  /-- put in msg_queue, its ID recorded -/
  | queued
  /-- handed to its parser by udp_process_msg, its ID recorded -/
  | dispatched
  /-- its ID was found in msg_id_list -/
  | duplicate
  /-- queue_add refused it -/
  | queueFull
  /-- list_append failed -/
  | unrecorded
  /-- send_confirm failed -/
  | unconfirmed
  /-- udp_process_msg knows no such type -/
  | unknownType
  /-- too short for udp_recv_msg -/
  | truncated
  deriving DecidableEq, Repr, Inhabited

/-- One received datagram: where, the globals when recvfrom was called and after
the datagram was handled, what the calls met, and what became of it. -/
structure Reception where
  site : Site
  before : Globals
  arrival : Arrival
  datagram : Bytes
  after : Globals
  fate : Fate

/-- The effects of the program. -/
inductive Event where
  /-- await returned a prompt to a state function -/
  | prompt (at_ : Globals) (p : Prompt)
  /-- comm->send_msg was called by SEND -/
  | sendMsg (type : MsgType)
  /-- a state function cleared comm->processing on a reply of type `type` -/
  | settled (at_ : Globals) (type : MsgType)
  /-- await was entered -/
  | await (at_ : Globals)
  /-- calculate_remaining_time set the timeout of the next select -/
  | timer (remaining : Timeval)
  /-- select was entered -/
  | select (at_ : Globals)
  /-- await reported that the server is not responding -/
  | notResponding (at_ : Globals)
  /-- a message built from `client` was handed to send, or to sendto for `client.res` -/
  | transmit (type : MsgType) (client : Client) (m : Bytes)
  /-- send_confirm sent a CONFIRM -/
  | confirm (m : Bytes) (dest : SockAddr)
  /-- a datagram was received and handled -/
  | received (r : Reception)
  /-- udp_process_msg handed a datagram to a parser -/
  | parsed (m : Bytes)
  /-- text was written to standard output -/
  | print (o : Output)

/-- The globals and the history of effects, oldest first. -/
structure World extends Globals where
  trace : List Event

namespace World

/-- The globals before the first call: nothing received, nothing sent. -/
def init (client : Client) (retransmissions : UInt8) : World where
  client := client
  retransmissions := retransmissions
  msgIdList := .empty
  msgQueue := .empty
  msgBuffer := .empty
  processing := false
  interrupt := false
  state := none
  trace := []

/-- Append an effect to the history. -/
def emit (w : World) (e : Event) : World := { w with trace := w.trace ++ [e] }

@[simp] theorem emit_toGlobals (w : World) (e : Event) : (w.emit e).toGlobals = w.toGlobals := rfl
@[simp] theorem emit_trace (w : World) (e : Event) : (w.emit e).trace = w.trace ++ [e] := rfl

/-- Write to standard output. -/
def print (w : World) (o : Output) : World := w.emit (.print o)

/-- What a parser prints. -/
def printEvents (p : Parsed) : List Event := (p.printed.map Event.print).toList

/-- Write what a parser prints, if anything. -/
def printParsed (w : World) (p : Parsed) : World :=
  match p.printed with
  | none => w
  | some o => w.print o

@[simp] theorem print_toGlobals (w : World) (o : Output) :
    (w.print o).toGlobals = w.toGlobals := rfl
@[simp] theorem print_trace (w : World) (o : Output) :
    (w.print o).trace = w.trace ++ [.print o] := rfl

@[simp] theorem printParsed_toGlobals (w : World) (p : Parsed) :
    (w.printParsed p).toGlobals = w.toGlobals := by
  unfold printParsed; split <;> rfl

@[simp] theorem printParsed_trace (w : World) (p : Parsed) :
    (w.printParsed p).trace = w.trace ++ printEvents p := by
  unfold printParsed printEvents; split <;> simp_all

/-- Record the handling of a received datagram. -/
def received (w : World) (site : Site) (before : Globals) (a : Arrival) (d : Bytes)
    (fate : Fate) : World :=
  w.emit (.received ⟨site, before, a, d, w.toGlobals, fate⟩)

end World

/-- A client that has read the line "/auth u s n". -/
def sampleClient : Client where
  msgId := 0
  username := ascii "u"
  channelID := []
  secret := ascii "s"
  displayName := ascii "n"
  msgContent := []
  res := ⟨0x7F000001, 4567⟩

end IpkChat.Core
