/-
  Udp/Layout.lean --- the bytes of the datagrams that are built.

  A datagram is a header and the fields of its type, each with its terminating zero.
  The builders compute the size of their block and every offset in it by hand; what they
  write covers the block exactly, and it determines what it was built from.
-/
import IpkChat.Core.World
import IpkChat.Udp.Message

set_option autoImplicit false

namespace IpkChat.Udp

open IpkChat.Foundation IpkChat.Core

/-- The payload_len that the builder of each type computes. -/
def payloadLen (c : Client) : MsgType → Nat
  | .auth => c.username.length + zeroByte + c.displayName.length + zeroByte +
      c.secret.length + zeroByte
  | .join => c.channelID.length + zeroByte + c.displayName.length + zeroByte
  | .msg | .err => c.displayName.length + zeroByte + c.msgContent.length + zeroByte
  | .bye => c.displayName.length + zeroByte
  | _ => 0

/-- The length that udp_build_msg stores behind `msg_len`. -/
def udpMsgLen (c : Client) : MsgType → Nat
  | .auth => headerSize + payloadLen c .auth
  | .join => headerSize + payloadLen c .join
  | .msg => headerSize + payloadLen c .msg
  | .err => headerSize + payloadLen c .err
  | .bye => headerSize + payloadLen c .bye
  | _ => 0

/-- The largest payload of a UDP datagram over IPv4. -/
def maxDatagram : Nat := 65507

section Layout

variable {c c' : Client} {type type' : MsgType} {m : Bytes}

/-- The fields, each with its terminating zero. -/
def payload (c : Client) (type : MsgType) : Bytes := (fields c type).flatMap (· ++ [0])

theorem length_payload (c : Client) (type : MsgType) :
    (payload c type).length = payloadLen c type := by
  cases type with
  | auth | join | msg | err =>
      simp only [payload, fields, payloadLen, zeroByte, List.flatMap_cons, List.flatMap_nil,
        List.length_append, List.length_cons, List.length_nil]
      omega
  | bye => simp [payload, fields, payloadLen, zeroByte]
  | confirm | reply | nreply | error | local_ | ping => rfl

/-- The builders leave no byte of their block unwritten and write none outside it. -/
theorem udpBuildMsg_eq (h : Sendable c type) :
    udpBuildMsg c type = some (headerBytes type c.msgId ++ payload c type) := by
  cases type with
  | auth => simp [udpBuildMsg, buildAuth_eq, payload, fields]
  | join => simp [udpBuildMsg, buildJoin_eq, payload, fields]
  | msg => simp [udpBuildMsg, buildMsgErr_eq, payload, fields]
  | err => simp [udpBuildMsg, buildMsgErr_eq, payload, fields]
  | bye => simp [udpBuildMsg, buildBye_eq, payload, fields]
  | confirm | reply | nreply | error | local_ | ping => cases h

theorem udpMsgLen_eq (h : Sendable c type) : udpMsgLen c type = headerSize + payloadLen c type := by
  cases type with
  | auth | join | msg | err | bye => rfl
  | confirm | reply | nreply | error | local_ | ping => cases h

/-- Valid fields fit a datagram. -/
theorem udpMsgLen_le (h : Sendable c type) : headerSize + payloadLen c type ≤ maxDatagram := by
  have hname : ∀ {s : Bytes} {n : Nat}, isValidAlphanumUnderscore s n = true → s.length ≤ n :=
    fun hs => (isValidAlphanumUnderscore_iff.mp hs).1.2
  have hdisplay : NameValid c → c.displayName.length ≤ maxNameSize :=
    fun hs => (isValidPrintable_iff.mp hs).1.2
  have hcontent : isValidMsgContent c.msgContent maxMsgSize = true →
      c.msgContent.length ≤ maxMsgSize :=
    fun hs => (isValidMsgContent_iff.mp hs).1.2
  cases type with
  | auth =>
      obtain ⟨husername, hsecret, hvalid⟩ := h
      have := hname husername
      have := hname hsecret
      have := hdisplay hvalid
      simp only [payloadLen, headerSize, zeroByte, maxDatagram, maxNameSize, maxSecretSize] at *
      omega
  | join =>
      have := hname h.1
      have := hdisplay h.2
      simp only [payloadLen, headerSize, zeroByte, maxDatagram, maxNameSize] at *
      omega
  | msg | err =>
      have := hcontent h.1
      have := hdisplay h.2
      simp only [payloadLen, headerSize, zeroByte, maxDatagram, maxNameSize, maxMsgSize] at *
      omega
  | bye =>
      have := hdisplay h
      simp only [payloadLen, headerSize, zeroByte, maxDatagram, maxNameSize] at *
      omega
  | confirm | reply | nreply | error | local_ | ping => cases h

/-- Two datagrams with the same bytes were built from the same parts. -/
theorem layout_inj (h : Sendable c type) (h' : Sendable c' type')
    (heq : headerBytes type c.msgId ++ payload c type =
      headerBytes type' c'.msgId ++ payload c' type') :
    type = type' ∧ c.msgId = c'.msgId ∧ fields c type = fields c' type' := by
  have hid := congrArg (fun m => toUint16 (m.drop 1)) heq
  obtain ⟨hheader, hpayload⟩ := List.append_inj heq rfl
  refine ⟨?_, ?_, ?_⟩
  · exact MsgType.code_injective (List.cons.inj hheader).1
  · calc c.msgId = toUint16 ((headerBytes type c.msgId ++ payload c type).drop 1) :=
          (toUint16_header _ _).symm
      _ = toUint16 ((headerBytes type' c'.msgId ++ payload c' type').drop 1) := hid
      _ = c'.msgId := toUint16_header _ _
  · exact flatMap_separator_inj (not_mem_fields h (by decide) (by decide))
      (not_mem_fields h' (by decide) (by decide)) hpayload

/-- With valid fields, the block that is allocated is filled exactly and fits a datagram;
its length is the one returned, its ID is read back by to_uint16, and its bytes
determine the type, the ID and the fields. -/
theorem udp_build_layout (h : Sendable c type) :
    ∃ m, udpBuildMsg c type = some m ∧ m.length = headerSize + payloadLen c type ∧
      udpMsgLen c type = m.length ∧ m.length ≤ maxDatagram ∧ toUint16 (m.drop 1) = c.msgId ∧
      ∀ c' type', Sendable c' type' → udpBuildMsg c' type' = some m →
        type' = type ∧ c'.msgId = c.msgId ∧ fields c' type' = fields c type := by
  have hlen : (headerBytes type c.msgId ++ payload c type).length =
      headerSize + payloadLen c type := by
    rw [List.length_append, length_payload]
    rfl
  refine ⟨_, udpBuildMsg_eq h, hlen, ?_, ?_, ?_, ?_⟩
  · rw [hlen, udpMsgLen_eq h]
  · rw [hlen]
    exact udpMsgLen_le h
  · exact toUint16_header _ _
  · intro c' type' h' hbuild
    rw [udpBuildMsg_eq h', Option.some.injEq] at hbuild
    exact layout_inj h' h hbuild

end Layout

/-- The AUTH of a client that has read "/auth u s n". -/
theorem udp_build_layout_auth :
    ∃ m, udpBuildMsg sampleClient .auth = some m ∧ m.length = 9 := by
  obtain ⟨m, hbuild, hlen, -⟩ := @udp_build_layout sampleClient .auth
    ⟨by decide, by decide, by unfold NameValid; decide⟩
  exact ⟨m, hbuild, hlen⟩

end IpkChat.Udp
