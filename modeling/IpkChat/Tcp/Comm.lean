/-
  Tcp/Comm.lean --- lib/comm_tcp.h and src/comm_tcp.c.

  Sending a line, receiving a chunk of the stream into the message buffer, and
  taking complete lines out of it.
-/
import IpkChat.Core.World
import IpkChat.Tcp.Message

set_option autoImplicit false

namespace IpkChat.Tcp

open IpkChat.Foundation IpkChat.Core

/-- `alloc` tells whether the malloc of tcp_build_msg succeeds, `sent` whether send
takes the whole message. -/
def tcpSendMsg (w : World) (type : MsgType) (alloc sent : Bool) : World × ExitCode :=
  match (if alloc then tcpBuildMsg w.client type else none) with
  | none => (w, .failure)
  | some msg => (w.emit (.transmit type w.client msg), if sent then .success else .failure)

/-- The argument is the heap block that holds the line. -/
def tcpProcessMsg (buffer : Bytes) : Parsed :=
  match msgTemp.find? fun entry => strncasecmp (cstr buffer) entry.temp entry.len with
  | some entry => entry.parseFunc (cstr buffer)
  | none => .refuse "Unknown massage received"

/-- A line has the type of a template, or is an error. -/
theorem tcpProcessMsg_type (buffer : Bytes) :
    (tcpProcessMsg buffer).type ∈ msgTemp.map (·.type) ∨ (tcpProcessMsg buffer).type = .error := by
  unfold tcpProcessMsg
  split
  · rename_i entry hfind
    have hentry := List.mem_of_find?_eq_some hfind
    rcases parseFunc_type hentry (cstr buffer) with htype | htype
    · rw [htype]
      exact Or.inl (List.mem_map_of_mem hentry)
    · exact Or.inr htype
  · exact Or.inr rfl

/-- The zero-filled buffer of BUFFER_SIZE bytes after recv stored a chunk in it. -/
def rcvBuffer (chunk : Bytes) : Bytes :=
  chunk.take (bufferSize - 1) ++
    List.replicate (bufferSize - min chunk.length (bufferSize - 1)) 0

/-- The result of recv converted to size_t; -1 becomes the largest value. -/
def bRcv : RecvResult → Nat
  | .data _ chunk _ => min chunk.length (bufferSize - 1)
  | .failed _ => 2 ^ 64 - 1

/-- What recv brought is appended, and one message is taken out if it is complete. -/
def tcpRecvMsg (w : World) (a : Arrival) : World × MsgType :=
  let buffer :=
    match a.result with
    | .data _ chunk _ => rcvBuffer chunk
    | .failed _ => rcvBuffer []
  if bRcv a.result > 0 then
    -- the parameter msg_len of buffer_append is an int
    match bufferAppend w.msgBuffer buffer (cInt (bRcv a.result)) a.bufferAlloc with
    | (b, false) => (({ w with msgBuffer := b } : World).print
        (.error "realloc failed in buffer"), .error)
    | (b, true) =>
        match bufferGetMsg b a.lineAlloc with
        | (b, some msg) =>
            (({ w with msgBuffer := b } : World).printParsed (tcpProcessMsg msg),
              (tcpProcessMsg msg).type)
        | (b, none) => ({ w with msgBuffer := b }, .local_)
  else (w.print (.error "recv fault"), .error)

/-- `alloc` tells whether the malloc of buffer_get_msg succeeds. -/
def tcpCheckPrevious (w : World) (alloc : Bool) : World × Option MsgType :=
  match bufferGetMsg w.msgBuffer alloc with
  | (b, some msg) =>
      (({ w with msgBuffer := b } : World).printParsed (tcpProcessMsg msg),
        some (tcpProcessMsg msg).type)
  | (b, none) => ({ w with msgBuffer := b }, none)

end IpkChat.Tcp
