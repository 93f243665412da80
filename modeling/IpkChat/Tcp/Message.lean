/-
  Tcp/Message.lean --- lib/tcp_msg.h, src/tcp_msg.c and the table of src/comm_tcp.c.

  Building and parsing the lines of the TCP variant.  A parser takes the C string
  at its argument pointer; a pointer moved forward is a suffix of that string.
-/
import IpkChat.Core.Common
import IpkChat.Foundation.Framing

set_option autoImplicit false

namespace IpkChat.Tcp

open IpkChat.Foundation IpkChat.Core

/-! ## Reading a line -/

/-- The pointer behind `pattern`, if `pattern` is found at `offset` and does not
end the string. -/
def match_ (buffer pattern : Bytes) (offset : Nat) : Option Bytes :=
  let len := pattern.length
  if strncasecmp (buffer.drop offset) pattern len = true ∧
      (buffer.drop (offset + len)).length > 0 then
    some (buffer.drop (offset + len))
  else none

/-- The string left in `dest`: what precedes the first CRLF, at most `size` bytes. -/
def readTillDelimiter (buffer : Bytes) (size : Nat) : Option Bytes :=
  match indexOf crlfBytes buffer with
  | none => none
  | some len => some (buffer.take (if len ≥ size then size else len))

/-- The message content that ends a line, if it is valid. -/
def readContent (buffer : Bytes) : Option Bytes :=
  (readTillDelimiter buffer bufferSize).filter fun content => isValidMsgContent content maxMsgSize

/-! ## Parsing -/

/-- A parser returns ERROR where one of its conditions fails. -/
def orRefuse (text : String) : Option Parsed → Parsed
  | some p => p
  | none => .refuse text

/-- The two replies are parsed alike, up to the words and the line printed. -/
def parseReplyAs (type : MsgType) (words : String) (line : Bytes → Output) (buffer : Bytes) :
    Parsed :=
  orRefuse "Received invalid REPLY" do
    let buffer ← match_ buffer (ascii words) 0
    let content ← readContent buffer
    return ⟨type, some (line content)⟩

/-- A reply that accepts. -/
def parseReply : Bytes → Parsed := parseReplyAs .reply "REPLY OK IS " .actionSuccess

/-- A reply that refuses. -/
def parseNreply : Bytes → Parsed := parseReplyAs .nreply "REPLY NOK IS " .actionFailure

/-- A message that a server does not send. -/
def parseUnexpected (buffer : Bytes) : Parsed := ⟨.error, some (.invalidMessage buffer)⟩

/-- MSG and ERR are parsed alike, up to the words and the lines printed. -/
def parseFrom (type : MsgType) (words : String) (line : Bytes → Bytes → Output)
    (refusal : String) (buffer : Bytes) : Parsed :=
  orRefuse refusal do
    let buffer ← match_ buffer (ascii words) 0
    let displayName ← (scanWord 20 buffer).filter fun name => isValidPrintable name maxNameSize
    let buffer ← match_ buffer (ascii " IS ") displayName.length
    let content ← readContent buffer
    return ⟨type, some (line displayName content)⟩

/-- A message of another user. -/
def parseMsg : Bytes → Parsed := parseFrom .msg "MSG FROM " .chat "Received invalid MSG"

/-- An error that the server reports. -/
def parseErr : Bytes → Parsed := parseFrom .err "ERR FROM " .errorFrom "Received invalid ERR"

/-- The name is checked, and not printed. -/
def parseBye (buffer : Bytes) : Parsed :=
  orRefuse "Received invalid BYE" do
    let buffer ← match_ buffer (ascii "BYE FROM ") 0
    let _displayName ← (readTillDelimiter buffer (maxNameSize + zeroByte)).filter fun name =>
      isValidPrintable name maxNameSize
    return ⟨.bye, none⟩

/-! ## The templates -/

/-- The structure tcp_msg_temp_t. -/
structure TcpMsgTemp where
  type : MsgType
  temp : Bytes
  len : Nat
  parseFunc : Bytes → Parsed

/-- The table msg_temp. -/
def msgTemp : List TcpMsgTemp :=
  [⟨.reply, ascii "REPLY OK IS %s\r\n", 7, parseReply⟩,
   ⟨.nreply, ascii "REPLY NOK IS %s\r\n", 7, parseNreply⟩,
   ⟨.auth, ascii "AUTH %s AS %s USING %s\r\n", 4, parseUnexpected⟩,
   ⟨.join, ascii "JOIN %s AS %s\r\n", 4, parseUnexpected⟩,
   ⟨.msg, ascii "MSG FROM %s IS %s\r\n", 3, parseMsg⟩,
   ⟨.err, ascii "ERR FROM %s IS %s\r\n", 3, parseErr⟩,
   ⟨.bye, ascii "BYE FROM %s\r\n", 3, parseBye⟩]

theorem orRefuse_type {text : String} {o : Option Parsed} {type : MsgType}
    (h : ∀ p, o = some p → p.type = type) :
    (orRefuse text o).type = type ∨ (orRefuse text o).type = .error := by
  cases o with
  | none => exact Or.inr rfl
  | some p => exact Or.inl (h p rfl)

/-- A parser returns its own type or ERROR. -/
theorem parseFunc_type {entry : TcpMsgTemp} (h : entry ∈ msgTemp) (s : Bytes) :
    (entry.parseFunc s).type = entry.type ∨ (entry.parseFunc s).type = .error := by
  have hreply : ∀ type words line, (parseReplyAs type words line s).type = type ∨
      (parseReplyAs type words line s).type = .error := by
    intro type words line
    refine orRefuse_type fun p hp => ?_
    simp only [Option.bind_eq_bind, Option.bind_eq_some_iff] at hp
    obtain ⟨_, -, _, -, hp⟩ := hp
    exact (Option.some.inj hp) ▸ rfl
  have hfrom : ∀ type words line refusal, (parseFrom type words line refusal s).type = type ∨
      (parseFrom type words line refusal s).type = .error := by
    intro type words line refusal
    refine orRefuse_type fun p hp => ?_
    simp only [Option.bind_eq_bind, Option.bind_eq_some_iff] at hp
    obtain ⟨_, -, _, -, _, -, _, -, hp⟩ := hp
    exact (Option.some.inj hp) ▸ rfl
  simp only [msgTemp, List.mem_cons, List.not_mem_nil, or_false] at h
  rcases h with rfl | rfl | rfl | rfl | rfl | rfl | rfl
  · exact hreply .reply _ _
  · exact hreply .nreply _ _
  · exact Or.inr rfl
  · exact Or.inr rfl
  · exact hfrom .msg _ _ _
  · exact hfrom .err _ _ _
  · refine orRefuse_type fun p hp => ?_
    simp only [Option.bind_eq_bind, Option.bind_eq_some_iff] at hp
    obtain ⟨_, -, _, -, hp⟩ := hp
    exact (Option.some.inj hp) ▸ rfl

/-- What sprintf makes of a template whose only conversions are `%s`. -/
def sprintf : Bytes → List Bytes → Bytes
  | 0x25 :: 0x73 :: rest, arg :: args => arg ++ sprintf rest args
  | c :: rest, args => c :: sprintf rest args
  | [], _ => []

/-! ## Building -/

/-- The message without the allocation of its block; `none` for a type that has no
template or is not built. -/
def tcpBuildMsg (c : Client) (type : MsgType) : Option Bytes :=
  match msgTemp.find? fun entry => entry.type == type with
  | none => none
  | some entry =>
      match type with
      | .err | .msg => some (sprintf entry.temp [c.displayName, c.msgContent])
      | .auth => some (sprintf entry.temp [c.username, c.displayName, c.secret])
      | .join => some (sprintf entry.temp [c.channelID, c.displayName])
      | .bye => some (sprintf entry.temp [c.displayName])
      | _ => none

section Built

variable (c : Client)

theorem tcpBuildMsg_auth : tcpBuildMsg c .auth =
    some (ascii "AUTH " ++ (c.username ++ (ascii " AS " ++ (c.displayName ++
      (ascii " USING " ++ (c.secret ++ crlfBytes)))))) := rfl

theorem tcpBuildMsg_join : tcpBuildMsg c .join =
    some (ascii "JOIN " ++ (c.channelID ++ (ascii " AS " ++ (c.displayName ++ crlfBytes)))) := rfl

theorem tcpBuildMsg_msg : tcpBuildMsg c .msg =
    some (ascii "MSG FROM " ++ (c.displayName ++ (ascii " IS " ++ (c.msgContent ++ crlfBytes)))) :=
  rfl

theorem tcpBuildMsg_err : tcpBuildMsg c .err =
    some (ascii "ERR FROM " ++ (c.displayName ++ (ascii " IS " ++ (c.msgContent ++ crlfBytes)))) :=
  rfl

theorem tcpBuildMsg_bye : tcpBuildMsg c .bye =
    some (ascii "BYE FROM " ++ (c.displayName ++ crlfBytes)) := rfl

end Built

end IpkChat.Tcp
