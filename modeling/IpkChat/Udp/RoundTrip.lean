/-
  Udp/RoundTrip.lean --- what is sent is what is read.

  The builders copy the display name and the content as they are, and the parsers
  of MSG, ERR and BYE read them back.  The two sides differ in the names they
  allow: input.c accepts every printable name, the parsers only letters, digits,
  hyphens and underscores.  A message therefore comes through exactly if its name
  is of the second kind.
-/
import IpkChat.Udp.Steps

set_option autoImplicit false

namespace IpkChat.Udp

open IpkChat.Foundation IpkChat.Core

/-! ## The built datagram in the receive buffer -/

theorem rcvBuffer_of_le {d : Bytes} (h : d.length ≤ bufferSize) :
    rcvBuffer d = d ++ List.replicate (bufferSize - d.length) 0 := by
  rw [rcvBuffer, List.take_of_length_le h]

theorem rcvLen_of_le {d : Bytes} (h : d.length ≤ bufferSize) : rcvLen d = d.length :=
  Nat.min_eq_left h

/-- The table entry of a datagram that starts with a header. -/
theorem findMsg_headerBytes (type : MsgType) (msgId : UInt16) (rest : Bytes) :
    findMsg (rcvBuffer (headerBytes type msgId ++ rest)) =
      msgTable.find? fun entry => type.code == entry.type.code := rfl

/-- A datagram with a new ID that can be recorded reaches the parser of its type. -/
theorem udpProcessMsg_new {w : World} {buffer : Bytes} {msgLen : Nat} {entry : UdpMsg}
    {alloc : Bool} (hfind : findMsg buffer = some entry)
    (hnew : listContains w.msgIdList (toUint16 (buffer.drop 1)) = false)
    (hlist : (listAppend w.msgIdList (toUint16 (buffer.drop 1)) alloc).2 = .success) :
    (udpProcessMsg w buffer msgLen true alloc).2 =
      .parsed (entry.parseFunc w.client buffer msgLen) := by
  simp only [udpProcessMsg_eq, hfind, hnew, Bool.false_eq_true, if_true, if_false]
  rcases happend : listAppend w.msgIdList (toUint16 (buffer.drop 1)) alloc with ⟨list, code⟩
  rw [happend] at hlist
  obtain rfl : code = .success := hlist
  rfl

/-! ## Reading the fields back -/

section Fields

variable {header name content rest : Bytes}

theorem cstr_drop_name (hheader : header.length = headerSize) (hname : (0 : UInt8) ∉ name) :
    cstr ((header ++ name ++ [0] ++ rest).drop headerSize) = name := by
  rw [List.append_assoc, List.append_assoc, ← hheader, List.drop_left, List.singleton_append]
  exact cstr_append_zero hname rest

theorem cstr_drop_content (hheader : header.length = headerSize)
    (hcontent : (0 : UInt8) ∉ content) :
    cstr ((header ++ name ++ [0] ++ (content ++ [0] ++ rest)).drop
      (headerSize + name.length + zeroByte)) = content := by
  have hlen : headerSize + name.length + zeroByte = (header ++ name ++ [0]).length := by
    simp [hheader, zeroByte, Nat.add_assoc]
  rw [hlen, List.drop_left, List.append_assoc, List.singleton_append]
  exact cstr_append_zero hcontent rest

/-- On a built MSG or ERR the test of the name decides. -/
theorem isValidMsgErr_built (hheader : header.length = headerSize) (hname : (0 : UInt8) ∉ name)
    (hcontent : isValidMsgContent content maxMsgSize = true) :
    isValidMsgErr (header ++ name ++ [0] ++ (content ++ [0] ++ rest))
        (headerSize + name.length + zeroByte + content.length + zeroByte) =
      isValidAlphanumUnderscore name maxNameSize := by
  have hzero : (0 : UInt8) ∉ content :=
    not_mem_of_isValidMsgContent hcontent (by decide) (by decide)
  obtain ⟨⟨hpos, -⟩, -⟩ := isValidMsgContent_iff.mp hcontent
  simp only [isValidMsgErr_eq, cstr_drop_name hheader hname, cstr_drop_content hheader hzero,
    hcontent]
  rw [if_neg (by omega)]
  cases isValidAlphanumUnderscore name maxNameSize with
  | false => rfl
  | true => rw [if_neg (by simp), if_neg (by omega), if_neg (by simp), if_neg (by simp)]

theorem parseMsgErr_built (hheader : header.length = headerSize) (hname : (0 : UInt8) ∉ name)
    (hcontent : isValidMsgContent content maxMsgSize = true) (type : MsgType)
    (line : Bytes → Bytes → Output) (refusal : String) :
    parseMsgErr type line refusal (header ++ name ++ [0] ++ (content ++ [0] ++ rest))
        (headerSize + name.length + zeroByte + content.length + zeroByte) =
      if isValidAlphanumUnderscore name maxNameSize = true then ⟨type, some (line name content)⟩
      else .refuse refusal := by
  have hzero : (0 : UInt8) ∉ content :=
    not_mem_of_isValidMsgContent hcontent (by decide) (by decide)
  have hoff : headerSize + zeroByte + name.length = headerSize + name.length + zeroByte := by
    omega
  simp only [parseMsgErr_eq, isValidMsgErr_built hheader hname hcontent,
    cstr_drop_name hheader hname, hoff, cstr_drop_content hheader hzero]

theorem udpParseBye_built (c : Client) (hheader : header.length = headerSize)
    (hname : isValidPrintable name maxNameSize = true) :
    udpParseBye c (header ++ name ++ [0] ++ rest) (headerSize + name.length + zeroByte) =
      if isValidAlphanumUnderscore name maxNameSize = true then ⟨.bye, none⟩
      else .refuse "Received invalid BYE" := by
  have hzero : (0 : UInt8) ∉ name := not_mem_of_isValidPrintable hname (by decide)
  obtain ⟨⟨hpos, -⟩, -⟩ := isValidPrintable_iff.mp hname
  have hlen : headerSize + name.length + zeroByte ≥ headerSize + 1 + zeroByte := by omega
  simp only [udpParseBye_eq, cstr_drop_name hheader hzero, hlen, true_and, and_true]
  rfl

end Fields

/-! ## The round trip -/

/-- What a receiver reports of a message that `c` sends. -/
def reported (c : Client) : MsgType → Option Output
  | .msg => some (.chat c.displayName c.msgContent)
  | .err => some (.errorFrom c.displayName c.msgContent)
  | _ => none

/-- The datagram comes through: a receiver `w` that has not seen its ID accepts it
with its type and reports the fields that were sent. -/
def ComesThrough (w : World) (c : Client) (type : MsgType) (d : Bytes) : Prop :=
  (udpProcessMsg w (rcvBuffer d) (rcvLen d) true true).2 = .parsed ⟨type, reported c type⟩

theorem refuse_ne {type : MsgType} {printed : Option Output} {text : String}
    (htype : type ≠ .error) : Dispatch.parsed (.refuse text) ≠ .parsed ⟨type, printed⟩ := by
  intro h
  simp only [Dispatch.parsed.injEq, Parsed.refuse, Parsed.mk.injEq] at h
  exact htype h.1.symm

/-- A parser that decides by the name lets exactly the admissible names through. -/
theorem accepted_iff {type : MsgType} {printed : Option Output} {text : String} {valid : Bool}
    (htype : type ≠ .error) :
    Dispatch.parsed (if valid = true then ⟨type, printed⟩ else .refuse text) =
      .parsed ⟨type, printed⟩ ↔ valid = true := by
  cases valid with
  | true => simp
  | false => simpa using refuse_ne htype

/-- A datagram with a new ID comes through if the parser of its type says so. -/
theorem comesThrough_iff {w : World} {c : Client} {type : MsgType} {d : Bytes}
    {parse : Client → Bytes → Nat → Parsed}
    (hentry : msgTable.find? (fun entry => type.code == entry.type.code) = some ⟨type, parse⟩)
    (hnew : listContains w.msgIdList c.msgId = false)
    (hd : d.take headerSize = headerBytes type c.msgId) (hle : d.length ≤ bufferSize) :
    ComesThrough w c type d ↔
      Dispatch.parsed
          (parse w.client (d ++ List.replicate (bufferSize - d.length) 0) d.length) =
        .parsed ⟨type, reported c type⟩ := by
  have hsplit : d = headerBytes type c.msgId ++ d.drop headerSize := by
    rw [← hd, List.take_append_drop]
  have hfind : findMsg (rcvBuffer d) = some ⟨type, parse⟩ := by
    rw [hsplit, findMsg_headerBytes, hentry]
  have hid : toUint16 ((rcvBuffer d).drop 1) = c.msgId := by
    rw [hsplit]; exact rcvId_headerBytes type c.msgId _
  rw [ComesThrough, udpProcessMsg_new hfind (by rw [hid]; exact hnew)
    (listAppend_of_alloc _ _), rcvBuffer_of_le hle, rcvLen_of_le hle]

theorem comesThrough_msgErr {w : World} {c : Client} {type : MsgType} {refusal : String}
    {line : Bytes → Bytes → Output} {parse : Client → Bytes → Nat → Parsed}
    (hname : isValidPrintable c.displayName maxNameSize = true)
    (hcontent : isValidMsgContent c.msgContent maxMsgSize = true)
    (hnew : listContains w.msgIdList c.msgId = false)
    (hentry : msgTable.find? (fun entry => type.code == entry.type.code) = some ⟨type, parse⟩)
    (hparse : parse w.client = parseMsgErr type line refusal)
    (hreport : reported c type = some (line c.displayName c.msgContent))
    (htype : type ≠ .error) :
    ∃ d, buildMsgErr c type = some d ∧
      (ComesThrough w c type d ↔
        isValidAlphanumUnderscore c.displayName maxNameSize = true) := by
  have hzero : (0 : UInt8) ∉ c.displayName := not_mem_of_isValidPrintable hname (by decide)
  refine ⟨_, buildMsgErr_eq c type, ?_⟩
  have hlen : (headerBytes type c.msgId ++ c.displayName ++ [0] ++ c.msgContent ++ [0]).length =
      headerSize + c.displayName.length + zeroByte + c.msgContent.length + zeroByte := by
    simp [headerBytes, headerSize, zeroByte]; omega
  have hle : headerSize + c.displayName.length + zeroByte + c.msgContent.length + zeroByte ≤
      bufferSize := by
    have hname' := (isValidPrintable_iff.mp hname).1.2
    have hcontent' := (isValidMsgContent_iff.mp hcontent).1.2
    simp only [maxNameSize, maxMsgSize] at hname' hcontent'
    simp only [headerSize, zeroByte, bufferSize]
    omega
  rw [comesThrough_iff hentry hnew rfl (by rw [hlen]; exact hle),
    hlen, hparse, hreport]
  have hassoc : ∀ zeros : Bytes,
      headerBytes type c.msgId ++ c.displayName ++ [0] ++ c.msgContent ++ [0] ++ zeros =
        headerBytes type c.msgId ++ c.displayName ++ [0] ++ (c.msgContent ++ [0] ++ zeros) := by
    intro zeros
    simp only [List.append_assoc]
  rw [hassoc, parseMsgErr_built rfl hzero hcontent]
  exact accepted_iff htype

theorem comesThrough_bye {w : World} {c : Client}
    (hname : isValidPrintable c.displayName maxNameSize = true)
    (hnew : listContains w.msgIdList c.msgId = false) :
    ∃ d, buildBye c = some d ∧
      (ComesThrough w c .bye d ↔
        isValidAlphanumUnderscore c.displayName maxNameSize = true) := by
  refine ⟨_, buildBye_eq c, ?_⟩
  have hlen : (headerBytes .bye c.msgId ++ c.displayName ++ [0]).length =
      headerSize + c.displayName.length + zeroByte := by
    simp [headerBytes, headerSize, zeroByte]; omega
  have hle : headerSize + c.displayName.length + zeroByte ≤ bufferSize := by
    have hname' := (isValidPrintable_iff.mp hname).1.2
    simp only [maxNameSize] at hname'
    simp only [headerSize, zeroByte, bufferSize]
    omega
  have hentry : msgTable.find? (fun entry => MsgType.bye.code == entry.type.code) =
      some ⟨.bye, udpParseBye⟩ := rfl
  rw [comesThrough_iff hentry hnew rfl (by rw [hlen]; exact hle), hlen,
    udpParseBye_built w.client rfl hname]
  exact accepted_iff (by decide)

/-- A built MSG, ERR or BYE comes through exactly if its display name consists of
letters, digits, hyphens and underscores. -/
theorem udp_round_trip_iff (w : World) (c : Client) (type : MsgType)
    (hname : isValidPrintable c.displayName maxNameSize = true)
    (hcontent : isValidMsgContent c.msgContent maxMsgSize = true)
    (hnew : listContains w.msgIdList c.msgId = false)
    (htype : type = .msg ∨ type = .err ∨ type = .bye) :
    ∃ d, udpBuildMsg c type = some d ∧
      (ComesThrough w c type d ↔
        isValidAlphanumUnderscore c.displayName maxNameSize = true) := by
  rcases htype with rfl | rfl | rfl
  · exact comesThrough_msgErr hname hcontent hnew rfl rfl rfl (by decide)
  · exact comesThrough_msgErr hname hcontent hnew rfl rfl rfl (by decide)
  · exact comesThrough_bye hname hnew

/-- The name "n" comes through. -/
theorem udp_round_trip_iff_plain_name :
    ∃ d, udpBuildMsg { sampleClient with msgContent := ascii "hi" } .msg = some d ∧
      ComesThrough (World.init sampleClient 3) { sampleClient with msgContent := ascii "hi" }
        .msg d := by
  obtain ⟨d, hd, hiff⟩ := udp_round_trip_iff (World.init sampleClient 3)
    { sampleClient with msgContent := ascii "hi" } .msg (by decide) (by decide) (by decide)
    (by decide)
  exact ⟨d, hd, hiff.mpr (by decide)⟩

/-- The name "a.b", which /auth and /rename accept, does not come through. -/
theorem printable_name_is_refused :
    let c : Client := { sampleClient with displayName := ascii "a.b", msgContent := ascii "hi" }
    isValidPrintable c.displayName maxNameSize = true ∧
      isValidMsgContent c.msgContent maxMsgSize = true ∧
      listContains (World.init sampleClient 3).msgIdList c.msgId = false ∧
      ∃ d, udpBuildMsg c .msg = some d ∧ ¬ ComesThrough (World.init sampleClient 3) c .msg d := by
  refine ⟨by decide, by decide, by decide, [4, 0, 0] ++ ascii "a.b" ++ [0] ++ ascii "hi" ++ [0],
    rfl, ?_⟩
  rw [ComesThrough]
  decide

end IpkChat.Udp
