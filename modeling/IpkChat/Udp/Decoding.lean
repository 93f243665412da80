/-
  Udp/Decoding.lean --- what an accepted datagram looks like.

  The parsers find the parts of a datagram with strlen, in a buffer that goes on
  with zeros behind the last byte received, and compare the lengths they found
  with the length received.  `Format` is the format they accept, part by part; it
  leaves no room for a missing terminator or a trailing byte.
-/
import IpkChat.Udp.RoundTrip

set_option autoImplicit false

namespace IpkChat.Udp

open IpkChat.Foundation IpkChat.Core

/-! ## The format -/

/-- The datagrams with the ID `id` that a parser accepts, with what it makes of each. -/
inductive Format (id : UInt16) : Bytes → Parsed → Prop where
  | msg {name content : Bytes} (hname : NamePart name) (hcontent : ContentPart content) :
      Format id (headerBytes .msg id ++ name ++ [0] ++ content ++ [0])
        ⟨.msg, some (.chat name content)⟩
  | err {name content : Bytes} (hname : NamePart name) (hcontent : ContentPart content) :
      Format id (headerBytes .err id ++ name ++ [0] ++ content ++ [0])
        ⟨.err, some (.errorFrom name content)⟩
  | bye {name : Bytes} (hname : NamePart name) :
      Format id (headerBytes .bye id ++ name ++ [0]) ⟨.bye, none⟩
  | reply {refHigh refLow : UInt8} {content : Bytes} (hcontent : ContentPart content) :
      Format id (headerBytes .reply id ++ [1, refHigh, refLow] ++ content ++ [0])
        ⟨.reply, some (.actionSuccess content)⟩
  | nreply {result refHigh refLow : UInt8} {content : Bytes} (hresult : result ≠ 1)
      (hcontent : ContentPart content) :
      Format id (headerBytes .reply id ++ [result, refHigh, refLow] ++ content ++ [0])
        ⟨.nreply, some (.actionFailure content)⟩
  | ping : Format id (headerBytes .ping id) ⟨.ping, none⟩

/-! ## Reading parts back to the datagram -/

/-- A string found before the end of the datagram lies in it, with its terminator. -/
theorem drop_eq_cstr (d zeros : Bytes) (offset : Nat)
    (h : offset + (cstr ((d ++ zeros).drop offset)).length < d.length) :
    d.drop offset = cstr ((d ++ zeros).drop offset) ++ 0 ::
      d.drop (offset + (cstr ((d ++ zeros).drop offset)).length + 1) := by
  have hdrop : (d ++ zeros).drop offset = d.drop offset ++ zeros :=
    List.drop_append_of_le_length (by omega)
  rw [hdrop] at h ⊢
  have hlt : (cstr (d.drop offset ++ zeros)).length < (d.drop offset).length := by
    rw [List.length_drop]
    omega
  have hsplit := cstr_terminated hlt
  rw [List.drop_drop, ← Nat.add_assoc] at hsplit
  exact hsplit

/-- A string whose terminator is the last byte of the datagram. -/
theorem drop_eq_cstr_last {d zeros : Bytes} {offset : Nat}
    (h : d.length = offset + (cstr ((d ++ zeros).drop offset)).length + zeroByte) :
    d.drop offset = cstr ((d ++ zeros).drop offset) ++ [0] := by
  simp only [zeroByte] at h
  have hsplit := drop_eq_cstr d zeros offset (by omega)
  rw [← h, List.drop_length] at hsplit
  exact hsplit

/-- The header holds the ID that to_uint16 reads from it. -/
theorem headerBytes_toUint16 (type : MsgType) (high low : UInt8) (rest : Bytes) :
    headerBytes type (toUint16 (high :: low :: rest)) = [type.code, high, low] := by
  have hhigh := high.toNat_lt
  have hlow := low.toNat_lt
  have hid := toUint16_toNat (high :: low :: rest)
  simp only [List.getD_cons_zero, List.getD_cons_succ] at hid
  have hshift : (UInt16.toNat 8 % 16) = 8 := rfl
  have h1 : (toUint16 (high :: low :: rest) >>> 8).toUInt8 = high := by
    apply UInt8.toNat_inj.mp
    rw [UInt16.toNat_toUInt8, UInt16.toNat_shiftRight, hid, hshift, Nat.shiftRight_eq_div_pow]
    omega
  have h2 : (toUint16 (high :: low :: rest)).toUInt8 = low := by
    apply UInt8.toNat_inj.mp
    rw [UInt16.toNat_toUInt8, hid]
    omega
  rw [headerBytes, h1, h2]

/-- The first three bytes of a datagram are the header of its type and its ID. -/
theorem eq_header_append {d : Bytes} {type : MsgType} (hmin : headerSize ≤ d.length)
    (htype : (rcvBuffer d).getD 0 0 = type.code) :
    d = headerBytes type (rcvId d) ++ d.drop headerSize := by
  match d, hmin with
  | first :: high :: low :: rest, _ =>
      obtain rfl : first = type.code := htype
      have hid : rcvId (type.code :: high :: low :: rest) = toUint16 [high, low] := rfl
      rw [hid, headerBytes_toUint16]
      rfl

/-! ## What the parsers accept -/

section Sound

variable {d zeros : Bytes}

/-- is_valid_msg_err in terms of the two strings it finds. -/
theorem isValidMsgErr_iff {buffer name content : Bytes} {len : Nat}
    (hname : cstr (buffer.drop headerSize) = name)
    (hcontent : cstr (buffer.drop (headerSize + name.length + zeroByte)) = content) :
    isValidMsgErr buffer len = true ↔
      NamePart name ∧ ContentPart content ∧
        len = headerSize + name.length + zeroByte + content.length + zeroByte := by
  simp only [isValidMsgErr_eq, hname, hcontent]
  constructor
  · intro h
    by_cases hmin : len < headerSize + zeroByte
    · rw [if_pos hmin] at h
      exact absurd h (by decide)
    rw [if_neg hmin] at h
    cases hvalid : isValidAlphanumUnderscore name maxNameSize with
    | false => simp [hvalid] at h
    | true =>
        by_cases hroom : len < headerSize + name.length + zeroByte + 1 + zeroByte
        · simp [hvalid, hroom] at h
        cases hvalid' : isValidMsgContent content maxMsgSize with
        | false => simp [hvalid, hvalid'] at h
        | true =>
            refine ⟨namePart_iff.mp hvalid, contentPart_iff.mp hvalid', ?_⟩
            simpa [hvalid, hvalid', hroom] using h
  · rintro ⟨hvalid, hvalid', hlen⟩
    have hpos := hvalid'.length_pos
    rw [if_neg (by omega), namePart_iff.mpr hvalid, contentPart_iff.mpr hvalid', if_neg (by simp),
      if_neg (by omega), if_neg (by simp), if_neg (by simpa using hlen)]

/-- The two strings that is_valid_msg_err accepts fill the datagram. -/
theorem parseMsgErr_sound {type : MsgType} {line : Bytes → Bytes → Output} {refusal : String}
    (hok : (parseMsgErr type line refusal (d ++ zeros) d.length).type ≠ .error) :
    ∃ name content, NamePart name ∧ ContentPart content ∧ headerSize ≤ d.length ∧
      d.drop headerSize = name ++ [0] ++ content ++ [0] ∧
      parseMsgErr type line refusal (d ++ zeros) d.length = ⟨type, some (line name content)⟩ := by
  simp only [parseMsgErr_eq] at hok ⊢
  split at hok
  case isFalse => exact absurd rfl hok
  case isTrue hvalid =>
    rw [if_pos hvalid]
    obtain ⟨hname, hcontent, hlen⟩ := (isValidMsgErr_iff rfl rfl).mp hvalid
    have hfirst := drop_eq_cstr d zeros headerSize (by simp only [zeroByte] at hlen; omega)
    have hlast := drop_eq_cstr_last hlen
    have hoff : headerSize + zeroByte + (cstr ((d ++ zeros).drop headerSize)).length =
        headerSize + (cstr ((d ++ zeros).drop headerSize)).length + zeroByte := by omega
    refine ⟨_, _, hname, hcontent, by omega, ?_, by rw [hoff]⟩
    rw [hfirst]
    simp only [zeroByte] at hlast ⊢
    rw [hlast]
    simp

theorem udpParseBye_sound {c : Client}
    (hok : (udpParseBye c (d ++ zeros) d.length).type ≠ .error) :
    ∃ name, NamePart name ∧ headerSize ≤ d.length ∧ d.drop headerSize = name ++ [0] ∧
      udpParseBye c (d ++ zeros) d.length = ⟨.bye, none⟩ := by
  simp only [udpParseBye_eq] at hok ⊢
  split at hok
  case isFalse => exact absurd rfl hok
  case isTrue hvalid =>
    obtain ⟨hmin, hname, hlen⟩ := hvalid
    exact ⟨_, namePart_iff.mp hname, by omega, drop_eq_cstr_last hlen,
      if_pos ⟨hmin, hname, hlen⟩⟩

/-- The result byte, the reference and the content fill the datagram. -/
theorem udpParseReply_sound {c : Client}
    (hok : (udpParseReply c (d ++ zeros) d.length).type ≠ .error) :
    ∃ result refHigh refLow content, ContentPart content ∧ headerSize ≤ d.length ∧
      d.drop headerSize = [result, refHigh, refLow] ++ content ++ [0] ∧
      udpParseReply c (d ++ zeros) d.length =
        if result = 1 then ⟨.reply, some (.actionSuccess content)⟩
        else ⟨.nreply, some (.actionFailure content)⟩ := by
  simp only [udpParseReply_eq] at hok ⊢
  split at hok
  case isFalse => exact absurd rfl hok
  case isTrue hvalid =>
    rw [if_pos hvalid]
    obtain ⟨hmin, hcontent, hlen, -⟩ := hvalid
    have hlast := drop_eq_cstr_last hlen
    generalize cstr ((d ++ zeros).drop 6) = content at *
    match d, hmin with
    | _ :: _ :: _ :: result :: refHigh :: refLow :: rest, _ =>
        refine ⟨result, refHigh, refLow, content, contentPart_iff.mp hcontent, ?_, ?_, rfl⟩
        · simp [headerSize]
        · simp only [headerSize, List.drop_succ_cons, List.drop_zero] at hlast ⊢
          rw [hlast]
          simp

/-- Each parser of the table accepts its format only. -/
theorem format_of_parsed {c : Client} {entry : UdpMsg} (hentry : entry ∈ msgTable)
    (hcode : (rcvBuffer d).getD 0 0 = entry.type.code)
    (herror : (entry.parseFunc c (d ++ zeros) d.length).type ≠ .error)
    (hlocal : (entry.parseFunc c (d ++ zeros) d.length).type ≠ .local_) :
    Format (rcvId d) d (entry.parseFunc c (d ++ zeros) d.length) := by
  simp only [msgTable_eq, List.mem_cons, List.not_mem_nil, or_false] at hentry
  rcases hentry with rfl | rfl | rfl | rfl | rfl | rfl | rfl | rfl
  case inl =>
    simp only [udpParseConfirm_eq] at herror hlocal
    split at hlocal
    · exact absurd rfl hlocal
    · rename_i hbad
      rw [if_neg hbad] at herror
      exact absurd rfl herror
  case inr.inl =>
    obtain ⟨result, refHigh, refLow, content, hcontent, hmin, hrest, heq⟩ :=
      udpParseReply_sound herror
    have hd := eq_header_append hmin hcode
    rw [hrest, ← List.append_assoc, ← List.append_assoc] at hd
    simp only [heq]
    generalize rcvId d = id at hd
    subst hd
    split
    case isTrue hone => subst hone; exact .reply hcontent
    case isFalse hne => exact .nreply hne hcontent
  case inr.inr.inl => exact absurd rfl herror
  case inr.inr.inr.inl => exact absurd rfl herror
  case inr.inr.inr.inr.inl =>
    obtain ⟨name, content, hname, hcontent, hmin, hrest, heq⟩ := parseMsgErr_sound herror
    have hd := eq_header_append hmin hcode
    rw [hrest, ← List.append_assoc, ← List.append_assoc, ← List.append_assoc] at hd
    simp only [udpParseMsg_eq, heq]
    generalize rcvId d = id at hd
    subst hd
    exact .msg hname hcontent
  case inr.inr.inr.inr.inr.inl =>
    obtain ⟨name, content, hname, hcontent, hmin, hrest, heq⟩ := parseMsgErr_sound herror
    have hd := eq_header_append hmin hcode
    rw [hrest, ← List.append_assoc, ← List.append_assoc, ← List.append_assoc] at hd
    simp only [udpParseErr_eq, heq]
    generalize rcvId d = id at hd
    subst hd
    exact .err hname hcontent
  case inr.inr.inr.inr.inr.inr.inl =>
    obtain ⟨name, hname, hmin, hrest, heq⟩ := udpParseBye_sound (c := c) herror
    have hd := eq_header_append hmin hcode
    rw [hrest, ← List.append_assoc] at hd
    simp only [heq]
    generalize rcvId d = id at hd
    subst hd
    exact .bye hname
  case inr.inr.inr.inr.inr.inr.inr =>
    simp only [udpParsePing] at herror ⊢
    split at herror
    · rename_i hlen
      have hd := eq_header_append (Nat.le_of_eq hlen.symm) hcode
      rw [List.drop_of_length_le (Nat.le_of_eq hlen), List.append_nil] at hd
      rw [if_pos hlen]
      generalize rcvId d = id at hd
      subst hd
      exact .ping
    · exact absurd rfl herror

end Sound

/-! ## What udp_process_msg does with the format -/

/-- A type other than ERROR and LOCAL comes from a parser of the table. -/
theorem udpProcessMsg_parsed {w : World} {buffer : Bytes} {msgLen : Nat} {store alloc : Bool}
    (herror : (udpProcessMsg w buffer msgLen store alloc).2.type ≠ .error)
    (hlocal : (udpProcessMsg w buffer msgLen store alloc).2.type ≠ .local_) :
    ∃ entry ∈ msgTable, buffer.getD 0 0 = entry.type.code ∧
      (udpProcessMsg w buffer msgLen store alloc).2 =
        .parsed (entry.parseFunc w.client buffer msgLen) := by
  rw [udpProcessMsg_eq] at herror hlocal ⊢
  cases hfind : findMsg buffer with
  | none =>
      simp only [hfind] at herror
      exact absurd rfl herror
  | some entry =>
      refine ⟨entry, List.mem_of_find?_eq_some hfind, by simpa using List.find?_some hfind, ?_⟩
      simp only [hfind] at herror hlocal ⊢
      cases store with
      | false => rfl
      | true =>
          cases hmem : listContains w.msgIdList (toUint16 (buffer.drop 1)) with
          | true =>
              simp only [hmem, if_true] at hlocal
              exact absurd rfl hlocal
          | false =>
              simp only [hmem, Bool.false_eq_true, if_true, if_false] at herror ⊢
              rcases happend : listAppend w.msgIdList (toUint16 (buffer.drop 1)) alloc with
                ⟨list, code⟩
              cases code with
              | success => rfl
              | failure =>
                  simp only [happend] at herror
                  exact absurd rfl herror

/-- The parser of a MSG, ERR, BYE or PING takes every datagram in its format. -/
theorem parseFunc_of_format {id : UInt16} {d : Bytes} {p : Parsed} (h : Format id d p)
    (hreply : p.type ≠ .reply) (hnreply : p.type ≠ .nreply) (zeros : Bytes) (c : Client) :
    ∃ entry rest, d = headerBytes p.type id ++ rest ∧
      msgTable.find? (fun e => p.type.code == e.type.code) = some entry ∧
      entry.parseFunc c (d ++ zeros) d.length = p := by
  have hmsgErr : ∀ (type : MsgType) (line : Bytes → Bytes → Output) (refusal : String)
      (name content : Bytes), NamePart name → ContentPart content →
      parseMsgErr type line refusal
          (headerBytes type id ++ name ++ [0] ++ content ++ [0] ++ zeros)
          (headerBytes type id ++ name ++ [0] ++ content ++ [0]).length =
        ⟨type, some (line name content)⟩ := by
    intro type line refusal name content hname hcontent
    have hzero : (0 : UInt8) ∉ name :=
      not_mem_of_isValidPrintable (isValidPrintable_of_alphanum (namePart_iff.mpr hname))
        (by decide)
    have hbuilt : parseMsgErr type line refusal
        (headerBytes type id ++ name ++ [0] ++ (content ++ [0] ++ zeros))
        (headerSize + name.length + zeroByte + content.length + zeroByte) = _ :=
      parseMsgErr_built rfl hzero (contentPart_iff.mpr hcontent) type line refusal
    rw [if_pos (namePart_iff.mpr hname)] at hbuilt
    rw [← hbuilt]
    congr 1
    · simp
    · simp [headerBytes, headerSize, zeroByte]
      omega
  cases h with
  | @msg name content hname hcontent =>
      refine ⟨⟨.msg, udpParseMsg⟩, name ++ [0] ++ content ++ [0], by simp, rfl, ?_⟩
      exact hmsgErr .msg _ _ _ _ hname hcontent
  | @err name content hname hcontent =>
      refine ⟨⟨.err, udpParseErr⟩, name ++ [0] ++ content ++ [0], by simp, rfl, ?_⟩
      exact hmsgErr .err _ _ _ _ hname hcontent
  | @bye name hname =>
      refine ⟨⟨.bye, udpParseBye⟩, name ++ [0], by simp, rfl, ?_⟩
      have hprintable := isValidPrintable_of_alphanum (namePart_iff.mpr hname)
      have hbuilt : udpParseBye c (headerBytes .bye id ++ name ++ [0] ++ zeros)
          (headerSize + name.length + zeroByte) = _ := udpParseBye_built c rfl hprintable
      rw [if_pos (namePart_iff.mpr hname)] at hbuilt
      rw [← hbuilt]
      have hlen : (headerBytes .bye id ++ name ++ [0]).length =
          headerSize + name.length + zeroByte := by
        simp [headerBytes, headerSize, zeroByte]
        omega
      simp only [hlen]
  | reply => exact absurd rfl hreply
  | nreply => exact absurd rfl hnreply
  | ping => exact ⟨⟨.ping, udpParsePing⟩, [], by simp, rfl, rfl⟩

/-- Whatever udp_process_msg accepts and reports is what the received datagram
consists of, and every MSG, ERR, BYE and PING in its format is accepted if its ID
is unseen and can be recorded. -/
theorem udp_decoding_exact (w : World) (d : Bytes) (alloc : Bool) (hmax : d.length ≤ 65507) :
    ((udpProcessMsg w (rcvBuffer d) (rcvLen d) true alloc).2.type ≠ .error →
      (udpProcessMsg w (rcvBuffer d) (rcvLen d) true alloc).2.type ≠ .local_ →
      ∃ p, (udpProcessMsg w (rcvBuffer d) (rcvLen d) true alloc).2 = .parsed p ∧
        Format (rcvId d) d p) ∧
    (listContains w.msgIdList (rcvId d) = false →
      (listAppend w.msgIdList (rcvId d) alloc).2 = .success →
      ∀ p, Format (rcvId d) d p → p.type ≠ .reply → p.type ≠ .nreply →
        (udpProcessMsg w (rcvBuffer d) (rcvLen d) true alloc).2 = .parsed p) := by
  have hle : d.length ≤ bufferSize := Nat.le_trans hmax (by decide)
  constructor
  · intro herror hlocal
    obtain ⟨entry, hentry, hcode, heq⟩ := udpProcessMsg_parsed herror hlocal
    rw [heq] at herror hlocal ⊢
    simp only [Dispatch.type, rcvLen_of_le hle, rcvBuffer_of_le hle] at herror hlocal ⊢
    exact ⟨_, rfl, format_of_parsed hentry hcode herror hlocal⟩
  · intro hnew hlist p hformat hreply hnreply
    obtain ⟨entry, rest, hd, hfind, hparse⟩ :=
      parseFunc_of_format hformat hreply hnreply (List.replicate (bufferSize - d.length) 0)
        w.client
    have hentry : findMsg (rcvBuffer d) = some entry := by
      rw [hd, findMsg_headerBytes, hfind]
    rw [udpProcessMsg_new hentry hnew hlist, rcvBuffer_of_le hle, rcvLen_of_le hle, hparse]

/-- Both ways on the MSG "hi" from "n". -/
theorem udp_decoding_exact_msg :
    ∃ p, (udpProcessMsg (World.init sampleClient 3)
        (rcvBuffer ([4, 0, 7] ++ ascii "n" ++ [0] ++ ascii "hi" ++ [0]))
        (rcvLen ([4, 0, 7] ++ ascii "n" ++ [0] ++ ascii "hi" ++ [0])) true true).2 = .parsed p ∧
      Format 7 ([4, 0, 7] ++ ascii "n" ++ [0] ++ ascii "hi" ++ [0]) p := by
  have hformat : Format 7 ([4, 0, 7] ++ ascii "n" ++ [0] ++ ascii "hi" ++ [0])
      ⟨.msg, some (.chat (ascii "n") (ascii "hi"))⟩ :=
    .msg (namePart_iff.mp (by decide)) (contentPart_iff.mp (by decide))
  exact ⟨_, (udp_decoding_exact (World.init sampleClient 3) _ true (by decide)).2 rfl rfl _ hformat
    (by decide) (by decide), hformat⟩

end IpkChat.Udp
