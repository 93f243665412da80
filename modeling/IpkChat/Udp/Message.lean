/-
  Udp/Message.lean --- lib/udp_msg.h and src/udp_msg.c.

  Building and parsing the datagrams of the UDP variant.  The builders allocate a
  block and fill it by strcpy at computed offsets; the `_eq` lemmas say which
  bytes result, for every client.

  A parser reads through a pointer to the start of a datagram.  Its argument is
  the memory from that pointer on: the zero-filled receive buffer, or a heap copy
  and whatever lies behind it.  The `_eq` lemmas of the parsers say what they accept.
-/
import IpkChat.Core.Common
import IpkChat.Foundation.Block
import IpkChat.Foundation.Guarded

set_option autoImplicit false

namespace IpkChat.Udp

open IpkChat.Foundation IpkChat.Core

/-- HEADER_SIZE. -/
def headerSize : Nat := 3

/-! ## Building -/

/-- The three bytes of a header. -/
def headerBytes (type : MsgType) (msgId : UInt16) : Bytes :=
  [type.code, (msgId >>> 8).toUInt8, msgId.toUInt8]

/-- A block with the header in front and room for the payload. -/
def buildHeader (type : MsgType) (msgId : UInt16) (payloadLen : Nat) : Option Block :=
  (malloc (headerSize + payloadLen)).write 0 (headerBytes type msgId)

/-- The user name, the display name and the secret, in this order. -/
def buildAuth (c : Client) : Option Bytes := do
  let payloadLen := c.username.length + zeroByte + c.displayName.length + zeroByte +
    c.secret.length + zeroByte
  let msg ← buildHeader .auth c.msgId payloadLen
  let msg ← msg.strcpy headerSize c.username
  let msg ← msg.strcpy (headerSize + c.username.length + zeroByte) c.displayName
  let msg ← msg.strcpy
    (headerSize + c.username.length + zeroByte + c.displayName.length + zeroByte) c.secret
  msg.contents

/-- The channel and the display name. -/
def buildJoin (c : Client) : Option Bytes := do
  let payloadLen := c.channelID.length + zeroByte + c.displayName.length + zeroByte
  let msg ← buildHeader .join c.msgId payloadLen
  let msg ← msg.strcpy headerSize c.channelID
  let msg ← msg.strcpy (headerSize + c.channelID.length + zeroByte) c.displayName
  msg.contents

/-- The display name and the content. -/
def buildMsgErr (c : Client) (type : MsgType) : Option Bytes := do
  let payloadLen := c.displayName.length + zeroByte + c.msgContent.length + zeroByte
  let msg ← buildHeader type c.msgId payloadLen
  let msg ← msg.strcpy headerSize c.displayName
  let msg ← msg.strcpy (headerSize + c.displayName.length + zeroByte) c.msgContent
  msg.contents

/-- The display name alone. -/
def buildBye (c : Client) : Option Bytes := do
  let payloadLen := c.displayName.length + zeroByte
  let msg ← buildHeader .bye c.msgId payloadLen
  let msg ← msg.strcpy headerSize c.displayName
  msg.contents

/-- The message of a type that a client sends. -/
def udpBuildMsg (c : Client) : MsgType → Option Bytes
  | .auth => buildAuth c
  | .join => buildJoin c
  | .msg => buildMsgErr c .msg
  | .err => buildMsgErr c .err
  | .bye => buildBye c
  | _ => none

theorem buildHeader_eq (type : MsgType) (msgId : UInt16) (payloadLen : Nat) :
    buildHeader type msgId payloadLen =
      some (Block.partial_ (headerBytes type msgId) payloadLen) := by
  have h : (Block.partial_ [] (headerSize + payloadLen)).write 0 (headerBytes type msgId) = _ :=
    Block.write_partial rfl (by simp [headerBytes, headerSize])
  simpa [Block.partial_, buildHeader, headerBytes, headerSize] using h

theorem buildAuth_eq (c : Client) :
    buildAuth c = some (headerBytes .auth c.msgId ++ c.username ++ [0] ++ c.displayName ++ [0] ++
      c.secret ++ [0]) := by
  simp only [buildAuth, buildHeader_eq, Option.bind_eq_bind, Option.bind_some, zeroByte]
  rw [Block.strcpy_partial (by simp [headerBytes, headerSize]) (by omega), Option.bind_some,
    Block.strcpy_partial (by simp [headerBytes, headerSize]; omega) (by omega), Option.bind_some,
    Block.strcpy_partial (by simp [headerBytes, headerSize]; omega) (by omega), Option.bind_some]
  convert Block.contents_partial_zero _ using 3
  omega

theorem buildJoin_eq (c : Client) :
    buildJoin c =
      some (headerBytes .join c.msgId ++ c.channelID ++ [0] ++ c.displayName ++ [0]) := by
  simp only [buildJoin, buildHeader_eq, Option.bind_eq_bind, Option.bind_some, zeroByte]
  rw [Block.strcpy_partial (by simp [headerBytes, headerSize]) (by omega), Option.bind_some,
    Block.strcpy_partial (by simp [headerBytes, headerSize]; omega) (by omega), Option.bind_some]
  convert Block.contents_partial_zero _ using 3
  omega

theorem buildMsgErr_eq (c : Client) (type : MsgType) :
    buildMsgErr c type =
      some (headerBytes type c.msgId ++ c.displayName ++ [0] ++ c.msgContent ++ [0]) := by
  simp only [buildMsgErr, buildHeader_eq, Option.bind_eq_bind, Option.bind_some, zeroByte]
  rw [Block.strcpy_partial (by simp [headerBytes, headerSize]) (by omega), Option.bind_some,
    Block.strcpy_partial (by simp [headerBytes, headerSize]; omega) (by omega), Option.bind_some]
  convert Block.contents_partial_zero _ using 3
  omega

theorem buildBye_eq (c : Client) :
    buildBye c = some (headerBytes .bye c.msgId ++ c.displayName ++ [0]) := by
  simp only [buildBye, buildHeader_eq, Option.bind_eq_bind, Option.bind_some, zeroByte]
  rw [Block.strcpy_partial (by simp [headerBytes, headerSize]) (by omega), Option.bind_some]
  convert Block.contents_partial_zero _ using 3
  omega

/-! ## Parsing

The parsers are written over the way in which they read: `reads` is one of the two of
Foundation/Guarded.lean.  The parsers of the program read `memory`, where nothing says
which of the bytes belong to the datagram. -/

section Parsers

variable {m : Type → Type} [Monad m] (reads : Reads m)

/-- strlen of the string, then the walk over its characters. -/
def isValidStringWith (accepts : UInt8 → Bool) (str : Bytes) (maxLen : Nat) : m Bool := do
  let len := (← reads.string str).length
  if len > maxLen || len < 1 then pure false else reads.walk accepts str

/-- is_valid_alphanum_underscore of a string in a datagram. -/
def isValidAlphanumUnderscoreWith : Bytes → Nat → m Bool :=
  isValidStringWith reads fun c => isalnum c || c == 0x2D || c == 0x5F

/-- is_valid_msg_content of a string in a datagram. -/
def isValidMsgContentWith : Bytes → Nat → m Bool :=
  isValidStringWith reads fun c => c == 0x0A || (c >= 0x20 && c <= 0x7E)

/-- Two bytes, the high one first. -/
def toUint16With (buffer : Bytes) : m UInt16 := do
  let high ← reads.byte buffer 0
  let low ← reads.byte buffer 1
  pure ((high.toUInt16 <<< 8) ||| low.toUInt16)

/-- The test that MSG and ERR share: a name, and content up to the end. -/
def isValidMsgErrWith (buffer : Bytes) (len : Nat) : m Bool :=
  if len < headerSize + zeroByte then pure false
  else do
    let nameValid ← isValidAlphanumUnderscoreWith reads (buffer.drop headerSize) maxNameSize
    if !nameValid then pure false
    else do
      let displayName ← reads.string (buffer.drop headerSize)
      let contentOffset := headerSize + displayName.length + zeroByte
      if len < contentOffset + 1 + zeroByte then pure false
      else do
        let contentValid ← isValidMsgContentWith reads (buffer.drop contentOffset) maxMsgSize
        if !contentValid then pure false
        else do
          let content ← reads.string (buffer.drop contentOffset)
          if len ≠ contentOffset + content.length + zeroByte then pure false else pure true

/-- A CONFIRM names a message that was sent. -/
def udpParseConfirmWith (c : Client) (buffer : Bytes) (msgLen : Nat) : m Parsed :=
  let refuse := pure (.refuse "Received an unexpected CONFIRM")
  if msgLen = headerSize then do
    let refId ← toUint16With reads (buffer.drop 1)
    if refId.toNat < c.msgId.toNat then pure ⟨.local_, none⟩ else refuse
  else refuse

/-- A REPLY answers the message that was sent last.  Both sides of the comparison with
`client.msg_id - 1` are promoted to int. -/
def udpParseReplyWith (c : Client) (buffer : Bytes) (msgLen : Nat) : m Parsed :=
  let refuse := pure (.refuse "Received invalid REPLY")
  if msgLen ≥ 8 then do
    let contentValid ← isValidMsgContentWith reads (buffer.drop 6) maxMsgSize
    if contentValid then do
      let content ← reads.string (buffer.drop 6)
      if msgLen = 6 + content.length + zeroByte then do
        let refId ← toUint16With reads (buffer.drop 4)
        if (refId.toNat : Int) = (c.msgId.toNat : Int) - 1 then do
          let result ← reads.byte buffer headerSize
          if result = 1 then pure ⟨.reply, some (.actionSuccess content)⟩
          else pure ⟨.nreply, some (.actionFailure content)⟩
        else refuse
      else refuse
    else refuse
  else refuse

/-- MSG and ERR are parsed alike, up to the type returned and the lines printed. -/
def parseMsgErrWith (type : MsgType) (line : Bytes → Bytes → Output) (refusal : String)
    (buffer : Bytes) (msgLen : Nat) : m Parsed := do
  if ← isValidMsgErrWith reads buffer msgLen then do
    let displayName ← reads.string (buffer.drop headerSize)
    let content ← reads.string (buffer.drop (headerSize + zeroByte + displayName.length))
    pure ⟨type, some (line displayName content)⟩
  else pure (.refuse refusal)

/-- A MSG is printed with the name of who sent it. -/
def udpParseMsgWith (_c : Client) : Bytes → Nat → m Parsed :=
  parseMsgErrWith reads .msg .chat "Received invalid MSG"

/-- An ERR is printed as an error of the server. -/
def udpParseErrWith (_c : Client) : Bytes → Nat → m Parsed :=
  parseMsgErrWith reads .err .errorFrom "Received invalid ERR"

/-- A BYE holds a name and nothing more. -/
def udpParseByeWith (_c : Client) (buffer : Bytes) (msgLen : Nat) : m Parsed :=
  let refuse := pure (.refuse "Received invalid BYE")
  if msgLen ≥ headerSize + 1 + zeroByte then do
    let nameValid ← isValidAlphanumUnderscoreWith reads (buffer.drop headerSize) 20
    if nameValid then do
      let displayName ← reads.string (buffer.drop headerSize)
      if msgLen = headerSize + displayName.length + zeroByte then pure ⟨.bye, none⟩ else refuse
    else refuse
  else refuse

end Parsers

/-! ### The parsers of the program -/

/-- to_uint16. -/
def toUint16 (buffer : Bytes) : UInt16 := Id.run (toUint16With memory buffer)

/-- is_valid_msg_err. -/
def isValidMsgErr (buffer : Bytes) (len : Nat) : Bool :=
  Id.run (isValidMsgErrWith memory buffer len)

/-- udp_parse_confirm. -/
def udpParseConfirm (c : Client) (buffer : Bytes) (msgLen : Nat) : Parsed :=
  Id.run (udpParseConfirmWith memory c buffer msgLen)

/-- udp_parse_reply. -/
def udpParseReply (c : Client) (buffer : Bytes) (msgLen : Nat) : Parsed :=
  Id.run (udpParseReplyWith memory c buffer msgLen)

/-- udp_parse_unexpected, which reads nothing. -/
def udpParseUnexpected (_c : Client) (_buffer : Bytes) (_msgLen : Nat) : Parsed :=
  .refuse "Received unexpected message"

/-- What udp_parse_msg and udp_parse_err have in common. -/
def parseMsgErr (type : MsgType) (line : Bytes → Bytes → Output) (refusal : String)
    (buffer : Bytes) (msgLen : Nat) : Parsed :=
  Id.run (parseMsgErrWith memory type line refusal buffer msgLen)

/-- udp_parse_msg. -/
def udpParseMsg (c : Client) (buffer : Bytes) (msgLen : Nat) : Parsed :=
  Id.run (udpParseMsgWith memory c buffer msgLen)

/-- udp_parse_err. -/
def udpParseErr (c : Client) (buffer : Bytes) (msgLen : Nat) : Parsed :=
  Id.run (udpParseErrWith memory c buffer msgLen)

/-- udp_parse_bye. -/
def udpParseBye (c : Client) (buffer : Bytes) (msgLen : Nat) : Parsed :=
  Id.run (udpParseByeWith memory c buffer msgLen)

/-- udp_parse_ping, which reads nothing. -/
def udpParsePing (_c : Client) (_buffer : Bytes) (msgLen : Nat) : Parsed :=
  if msgLen = headerSize then ⟨.ping, none⟩ else .refuse "Received invalid PING"

/-! ### What they accept

Where a read always has a value, the tests of a parser are one condition. -/

theorem toUint16_eq (buffer : Bytes) :
    toUint16 buffer = ((buffer.getD 0 0).toUInt16 <<< 8) ||| (buffer.getD 1 0).toUInt16 := rfl

theorem isValidMsgErr_eq (buffer : Bytes) (len : Nat) :
    isValidMsgErr buffer len =
      let displayName := cstr (buffer.drop headerSize)
      let contentOffset := headerSize + displayName.length + zeroByte
      let content := cstr (buffer.drop contentOffset)
      if len < headerSize + zeroByte then false
      else if !isValidAlphanumUnderscore displayName maxNameSize then false
      else if len < contentOffset + 1 + zeroByte then false
      else if !isValidMsgContent content maxMsgSize then false
      else if len ≠ contentOffset + content.length + zeroByte then false
      else true := rfl

theorem udpParseConfirm_eq (c : Client) (buffer : Bytes) (msgLen : Nat) :
    udpParseConfirm c buffer msgLen =
      if msgLen = headerSize ∧ (toUint16 (buffer.drop 1)).toNat < c.msgId.toNat then
        ⟨.local_, none⟩
      else .refuse "Received an unexpected CONFIRM" := by
  rw [ite_and]
  rfl

theorem udpParseReply_eq (c : Client) (buffer : Bytes) (msgLen : Nat) :
    udpParseReply c buffer msgLen =
      let content := cstr (buffer.drop 6)
      if msgLen ≥ 8 ∧ isValidMsgContent content maxMsgSize = true ∧
          msgLen = 6 + content.length + zeroByte ∧
          ((toUint16 (buffer.drop 4)).toNat : Int) = (c.msgId.toNat : Int) - 1 then
        if buffer.getD headerSize 0 = 1 then ⟨.reply, some (.actionSuccess content)⟩
        else ⟨.nreply, some (.actionFailure content)⟩
      else .refuse "Received invalid REPLY" := by
  simp only
  rw [ite_and, ite_and, ite_and]
  rfl

theorem parseMsgErr_eq (type : MsgType) (line : Bytes → Bytes → Output) (refusal : String)
    (buffer : Bytes) (msgLen : Nat) :
    parseMsgErr type line refusal buffer msgLen =
      if isValidMsgErr buffer msgLen = true then
        let displayName := cstr (buffer.drop headerSize)
        ⟨type, some (line displayName
          (cstr (buffer.drop (headerSize + zeroByte + displayName.length))))⟩
      else .refuse refusal := rfl

theorem udpParseMsg_eq (c : Client) (buffer : Bytes) (msgLen : Nat) :
    udpParseMsg c buffer msgLen = parseMsgErr .msg .chat "Received invalid MSG" buffer msgLen :=
  rfl

theorem udpParseErr_eq (c : Client) (buffer : Bytes) (msgLen : Nat) :
    udpParseErr c buffer msgLen =
      parseMsgErr .err .errorFrom "Received invalid ERR" buffer msgLen := rfl

theorem udpParseBye_eq (c : Client) (buffer : Bytes) (msgLen : Nat) :
    udpParseBye c buffer msgLen =
      let displayName := cstr (buffer.drop headerSize)
      if msgLen ≥ headerSize + 1 + zeroByte ∧ isValidAlphanumUnderscore displayName 20 = true ∧
          msgLen = headerSize + displayName.length + zeroByte then ⟨.bye, none⟩
      else .refuse "Received invalid BYE" := by
  simp only
  rw [ite_and, ite_and]
  rfl

/-! ### Message IDs -/

/-- The two bytes, high byte first. -/
theorem toUint16_toNat (buffer : Bytes) :
    (toUint16 buffer).toNat = (buffer.getD 0 0).toNat * 256 + (buffer.getD 1 0).toNat := by
  have h0 := (buffer.getD 0 0).toNat_lt
  have h1 := (buffer.getD 1 0).toNat_lt
  simp only [toUint16_eq, UInt16.toNat_or, UInt16.toNat_shiftLeft, UInt8.toNat_toUInt16]
  generalize (buffer.getD 0 0).toNat = x at *
  generalize (buffer.getD 1 0).toNat = y at *
  have hs : x <<< (UInt16.toNat 8 % 16) % 2 ^ 16 = x <<< 8 := by
    have : (UInt16.toNat 8 % 16) = 8 := rfl
    rw [this, Nat.shiftLeft_eq]
    omega
  rw [hs, ← Nat.shiftLeft_add_eq_or_of_lt (by omega), Nat.shiftLeft_eq]

/-- The ID written by build_header is the one read back. -/
theorem toUint16_header (msgId : UInt16) (rest : Bytes) :
    toUint16 ((msgId >>> 8).toUInt8 :: msgId.toUInt8 :: rest) = msgId := by
  apply UInt16.toNat_inj.mp
  have hlt := msgId.toNat_lt
  rw [toUint16_toNat]
  simp only [List.getD_cons_zero, List.getD_cons_succ, UInt16.toNat_toUInt8,
    UInt16.toNat_shiftRight]
  have : (UInt16.toNat 8 % 16) = 8 := rfl
  rw [this, Nat.shiftRight_eq_div_pow]
  omega

end IpkChat.Udp
