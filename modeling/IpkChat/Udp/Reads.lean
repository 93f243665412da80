/-
  Udp/Reads.lean --- what the parsers read of a queued datagram.

  udp_recv_msg parses a datagram in the zero-filled receive buffer, where every string
  ends.  udp_check_previous parses the copy made by queue_add, which is exactly as long
  as the datagram.  With `tested` reads the parsers have no value when one of them leaves
  the copy, and otherwise the value that they have in memory.
-/
import IpkChat.Udp.Decoding

set_option autoImplicit false

namespace IpkChat.Udp

open IpkChat.Foundation IpkChat.Core

/-- udp_check_previous with every read tested: it gives `none` when one leaves the copy. -/
def udpCheckPreviousChecked (w : World) : Option (World × Option MsgType) :=
  udpCheckPreviousWith tested w []

/-! ## Terminated datagrams -/

/-- The strings that the parser for a type looks for end inside the datagram.  A parser
that refuses the datagram by its length looks for none, and the content of a MSG or ERR
is looked for behind a valid name. -/
def TerminatedAs (d : Bytes) : MsgType → Prop
  | .reply => 8 ≤ d.length → 0 ∈ d.drop 6
  | .msg | .err =>
      let displayName := cstr (d.drop headerSize)
      let contentOffset := headerSize + displayName.length + zeroByte
      headerSize + zeroByte ≤ d.length → 0 ∈ d.drop headerSize ∧
        (isValidAlphanumUnderscore displayName maxNameSize = true →
          contentOffset + 1 + zeroByte ≤ d.length → 0 ∈ d.drop contentOffset)
  | .bye => headerSize + 1 + zeroByte ≤ d.length → 0 ∈ d.drop headerSize
  | _ => True

/-- The datagram is terminated for the type in its first byte. -/
def Terminated (d : Bytes) : Prop := ∀ type, d.head? = some type.code → TerminatedAs d type

/-! ## One read -/

section Reads

variable {accepts : UInt8 → Bool} {str d : Bytes} {offset : Nat}

theorem isValidStringWith_eq (h : (0 : UInt8) ∈ str) (maxLen : Nat) :
    isValidStringWith tested accepts str maxLen =
      some (isValidString accepts (cstr str) maxLen) := by
  simp only [isValidStringWith, isValidString, tested, readString_eq h, walkString_eq h,
    Option.bind_eq_bind, Option.bind_some, Option.pure_def]
  split
  · rfl
  · rfl

theorem isValidStringWith_none (h : (0 : UInt8) ∉ str) (maxLen : Nat) :
    isValidStringWith tested accepts str maxLen = none := by
  have hread : tested.string str = none := readString_eq_none h
  rw [isValidStringWith, hread]
  rfl

theorem isValidAlphanumUnderscoreWith_eq (h : (0 : UInt8) ∈ str) (maxLen : Nat) :
    isValidAlphanumUnderscoreWith tested str maxLen =
      some (isValidAlphanumUnderscore (cstr str) maxLen) :=
  isValidStringWith_eq h maxLen

theorem isValidMsgContentWith_eq (h : (0 : UInt8) ∈ str) (maxLen : Nat) :
    isValidMsgContentWith tested str maxLen = some (isValidMsgContent (cstr str) maxLen) :=
  isValidStringWith_eq h maxLen

theorem string_eq (h : (0 : UInt8) ∈ str) : tested.string str = some (cstr str) := readString_eq h

/-- What lies behind the copy does not matter to a string that ends in it. -/
theorem cstr_drop_append (h : (0 : UInt8) ∈ d.drop offset) (beyond : Bytes) :
    cstr ((d ++ beyond).drop offset) = cstr (d.drop offset) := by
  have hle : offset ≤ d.length := by
    by_contra hgt
    rw [List.drop_of_length_le (by omega)] at h
    cases h
  rw [List.drop_append_of_le_length hle, cstr_append_of_mem h]

theorem byte_eq {i : Nat} (h : i < d.length) (beyond : Bytes) :
    tested.byte d i = some ((d ++ beyond).getD i 0) := by
  have hread : tested.byte d i = d[i]? := rfl
  rw [hread, List.getD_eq_getElem?_getD, List.getElem?_append_left h, List.getElem?_eq_getElem h]
  rfl

theorem toUint16With_eq (h : offset + 2 ≤ d.length) (beyond : Bytes) :
    toUint16With tested (d.drop offset) = some (toUint16 ((d ++ beyond).drop offset)) := by
  have hdrop : (d ++ beyond).drop offset = d.drop offset ++ beyond :=
    List.drop_append_of_le_length (by omega)
  have hhigh := @byte_eq (d.drop offset) 0 (by rw [List.length_drop]; omega) beyond
  have hlow := @byte_eq (d.drop offset) 1 (by rw [List.length_drop]; omega) beyond
  rw [toUint16With, hhigh, hlow, hdrop]
  rfl

end Reads

/-! ## The parsers -/

section Parsers

variable {d : Bytes}

theorem isValidMsgErrWith_eq (h : TerminatedAs d .msg) (beyond : Bytes) :
    isValidMsgErrWith tested d d.length = some (isValidMsgErr (d ++ beyond) d.length) := by
  rw [isValidMsgErr_eq, isValidMsgErrWith]
  by_cases hmin : d.length < headerSize + zeroByte
  · rw [if_pos hmin, if_pos hmin]
    rfl
  · obtain ⟨hname, hcontent⟩ := h (Nat.le_of_not_lt hmin)
    rw [if_neg hmin, if_neg hmin, cstr_drop_append hname, isValidAlphanumUnderscoreWith_eq hname,
      string_eq hname]
    simp only [Option.bind_eq_bind, Option.bind_some, Option.pure_def]
    split
    · rfl
    · rename_i hvalid
      rw [Bool.not_eq_true, Bool.not_eq_false'] at hvalid
      split
      · rfl
      · rename_i hroom
        have hzero := hcontent hvalid (Nat.le_of_not_lt hroom)
        rw [cstr_drop_append hzero, isValidMsgContentWith_eq hzero, string_eq hzero]
        simp only [Option.bind_some]
        split
        · rfl
        · split
          · rfl
          · rfl

theorem parseMsgErrWith_eq (h : TerminatedAs d .msg) (beyond : Bytes) (type : MsgType)
    (line : Bytes → Bytes → Output) (refusal : String) :
    parseMsgErrWith tested type line refusal d d.length =
      some (parseMsgErr type line refusal (d ++ beyond) d.length) := by
  rw [parseMsgErr_eq, parseMsgErrWith, isValidMsgErrWith_eq h beyond]
  simp only [Option.bind_eq_bind, Option.bind_some]
  split
  · rename_i hvalid
    -- an accepted datagram has both strings
    obtain ⟨hvalidName, hvalidContent, hlen⟩ := (isValidMsgErr_iff rfl rfl).mp hvalid
    have hpos := hvalidContent.length_pos
    obtain ⟨hname, hcontent⟩ := h (by omega)
    rw [cstr_drop_append hname] at hvalidName hpos hlen ⊢
    have hzero := hcontent (namePart_iff.mpr hvalidName) (by omega)
    have hoff : headerSize + zeroByte + (cstr (d.drop headerSize)).length =
        headerSize + (cstr (d.drop headerSize)).length + zeroByte := by omega
    rw [string_eq hname, Option.bind_some, hoff, string_eq hzero, cstr_drop_append hzero]
    rfl
  · rfl

theorem udpParseConfirmWith_eq (c : Client) (beyond : Bytes) :
    udpParseConfirmWith tested c d d.length = some (udpParseConfirm c (d ++ beyond) d.length) := by
  rw [udpParseConfirm_eq, udpParseConfirmWith]
  by_cases hlen : d.length = headerSize
  · have hroom : 1 + 2 ≤ d.length := by rw [hlen, headerSize]
    rw [if_pos hlen, toUint16With_eq hroom beyond]
    simp only [Option.bind_eq_bind, Option.bind_some, hlen, true_and]
    split
    · rfl
    · rfl
  · rw [if_neg hlen, if_neg (fun h => hlen h.1)]
    rfl

theorem udpParseReplyWith_eq (h : TerminatedAs d .reply) (c : Client) (beyond : Bytes) :
    udpParseReplyWith tested c d d.length = some (udpParseReply c (d ++ beyond) d.length) := by
  rw [udpParseReply_eq, udpParseReplyWith]
  by_cases hmin : d.length ≥ 8
  · have hcontent := h hmin
    have hresult : headerSize < d.length := by
      simp only [headerSize]
      omega
    rw [if_pos hmin, cstr_drop_append hcontent, isValidMsgContentWith_eq hcontent,
      string_eq hcontent, toUint16With_eq (by omega) beyond, byte_eq hresult beyond]
    simp only [Option.bind_eq_bind, Option.bind_some, Option.pure_def, hmin, true_and]
    rw [ite_and, ite_and, apply_ite some, apply_ite some, apply_ite some, apply_ite some]
  · rw [if_neg hmin, if_neg (fun h => hmin h.1)]
    rfl

theorem udpParseByeWith_eq (h : TerminatedAs d .bye) (c : Client) (beyond : Bytes) :
    udpParseByeWith tested c d d.length = some (udpParseBye c (d ++ beyond) d.length) := by
  rw [udpParseBye_eq, udpParseByeWith]
  by_cases hmin : d.length ≥ headerSize + 1 + zeroByte
  · have hname := h hmin
    rw [if_pos hmin, cstr_drop_append hname, isValidAlphanumUnderscoreWith_eq hname,
      string_eq hname]
    simp only [Option.bind_eq_bind, Option.bind_some, Option.pure_def, hmin, true_and]
    rw [ite_and, apply_ite some, apply_ite some]
  · rw [if_neg hmin, if_neg (fun h => hmin h.1)]
    rfl

theorem isValidMsgErrWith_none (h : ¬ TerminatedAs d .msg) :
    isValidMsgErrWith tested d d.length = none := by
  obtain ⟨hmin, hstrings⟩ := Classical.not_imp.mp h
  rw [isValidMsgErrWith, if_neg (Nat.not_lt_of_le hmin)]
  by_cases hname : (0 : UInt8) ∈ d.drop headerSize
  · obtain ⟨hvalid, hrest⟩ := Classical.not_imp.mp fun hcontent => hstrings ⟨hname, hcontent⟩
    obtain ⟨hroom, hzero⟩ := Classical.not_imp.mp hrest
    rw [isValidAlphanumUnderscoreWith_eq hname, string_eq hname, hvalid]
    simp only [Option.bind_eq_bind, Option.bind_some, Bool.not_true, Bool.false_eq_true, if_false]
    rw [if_neg (Nat.not_lt_of_le hroom), isValidMsgContentWith, isValidStringWith_none hzero,
      Option.bind_none]
  · rw [isValidAlphanumUnderscoreWith, isValidStringWith_none hname]
    rfl

theorem parseMsgErrWith_none (h : ¬ TerminatedAs d .msg) (type : MsgType)
    (line : Bytes → Bytes → Output) (refusal : String) :
    parseMsgErrWith tested type line refusal d d.length = none := by
  rw [parseMsgErrWith, isValidMsgErrWith_none h]
  rfl

theorem udpParseReplyWith_none (h : ¬ TerminatedAs d .reply) (c : Client) :
    udpParseReplyWith tested c d d.length = none := by
  obtain ⟨hmin, hcontent⟩ := Classical.not_imp.mp h
  rw [udpParseReplyWith, if_pos hmin, isValidMsgContentWith, isValidStringWith_none hcontent]
  rfl

theorem udpParseByeWith_none (h : ¬ TerminatedAs d .bye) (c : Client) :
    udpParseByeWith tested c d d.length = none := by
  obtain ⟨hmin, hname⟩ := Classical.not_imp.mp h
  rw [udpParseByeWith, if_pos hmin, isValidAlphanumUnderscoreWith, isValidStringWith_none hname]
  rfl

end Parsers

/-! ## The table -/

/-- A parser with tested reads. -/
abbrev TestedMsg : Type := MsgType × (Client → Bytes → Nat → Option Parsed)

/-- With tested reads a parser has its value exactly on the datagrams that are terminated
for its type, whatever lies behind them. -/
structure Guards (checked : TestedMsg) (entry : UdpMsg) : Prop where
  type_eq : checked.1 = entry.type
  value : ∀ c d beyond, TerminatedAs d entry.type →
    checked.2 c d d.length = some (entry.parseFunc c (d ++ beyond) d.length)
  outside : ∀ c d, ¬ TerminatedAs d entry.type → checked.2 c d d.length = none

/-- A parser that looks for no string. -/
theorem Guards.of_total {type : MsgType} {checked : Client → Bytes → Nat → Option Parsed}
    {plain : Client → Bytes → Nat → Parsed} (htype : ∀ d, TerminatedAs d type)
    (heq : ∀ c d beyond, checked c d d.length = some (plain c (d ++ beyond) d.length)) :
    Guards (type, checked) ⟨type, plain⟩ where
  type_eq := rfl
  value c d beyond _ := heq c d beyond
  outside _ d h := absurd (htype d) h

theorem guards_confirm :
    Guards (.confirm, udpParseConfirmWith tested) ⟨.confirm, udpParseConfirm⟩ :=
  .of_total (fun _ => trivial) fun c _ beyond => udpParseConfirmWith_eq c beyond

theorem guards_reply : Guards (.reply, udpParseReplyWith tested) ⟨.reply, udpParseReply⟩ where
  type_eq := rfl
  value c _ beyond h := udpParseReplyWith_eq h c beyond
  outside c _ h := udpParseReplyWith_none h c

theorem guards_msg : Guards (.msg, udpParseMsgWith tested) ⟨.msg, udpParseMsg⟩ where
  type_eq := rfl
  value _ _ beyond h := parseMsgErrWith_eq h beyond _ _ _
  outside _ _ h := parseMsgErrWith_none h _ _ _

theorem guards_err : Guards (.err, udpParseErrWith tested) ⟨.err, udpParseErr⟩ where
  type_eq := rfl
  value _ _ beyond h := parseMsgErrWith_eq h beyond _ _ _
  outside _ _ h := parseMsgErrWith_none h _ _ _

theorem guards_bye : Guards (.bye, udpParseByeWith tested) ⟨.bye, udpParseBye⟩ where
  type_eq := rfl
  value c _ beyond h := udpParseByeWith_eq h c beyond
  outside c _ h := udpParseByeWith_none h c

theorem guards_table : List.Forall₂ Guards (msgTableWith tested) msgTable :=
  .cons guards_confirm <| .cons guards_reply <|
    .cons (.of_total (fun _ => trivial) fun _ _ _ => rfl) <|
    .cons (.of_total (fun _ => trivial) fun _ _ _ => rfl) <|
    .cons guards_msg <| .cons guards_err <| .cons guards_bye <|
    .cons (.of_total (fun _ => trivial) fun _ _ _ => rfl) .nil

/-! ## Processing a queued datagram -/

section Queued

variable {d : Bytes}

/-- Different types have different codes, so the type of the first byte is the only one
that matters. -/
theorem terminated_iff {type : MsgType} (h : d.head? = some type.code) :
    Terminated d ↔ TerminatedAs d type := by
  constructor
  · intro hd
    exact hd type h
  · intro hd type' h'
    obtain rfl : type = type' := MsgType.code_injective (Option.some.inj (h.symm.trans h'))
    exact hd

/-- A type that no entry of the table has looks for no string. -/
theorem terminatedAs_of_not_mem {type : MsgType} (h : ∀ entry ∈ msgTable, entry.type ≠ type) :
    TerminatedAs d type := by
  cases type with
  | reply => exact absurd rfl (h ⟨.reply, udpParseReply⟩ (by simp [msgTable_eq]))
  | msg => exact absurd rfl (h ⟨.msg, udpParseMsg⟩ (by simp [msgTable_eq]))
  | err => exact absurd rfl (h ⟨.err, udpParseErr⟩ (by simp [msgTable_eq]))
  | bye => exact absurd rfl (h ⟨.bye, udpParseBye⟩ (by simp [msgTable_eq]))
  | confirm | auth | join | nreply | error | local_ | ping => trivial

/-- udp_process_msg on a datagram of the queue, by the entry that is found. -/
theorem udpProcessMsgWith_queued {first : UInt8} (hread : tested.byte d 0 = some first)
    (w : World) :
    udpProcessMsgWith tested w d d.length false true =
      match (msgTableWith tested).find? fun entry => first == entry.1.code with
      | some entry => (entry.2 w.client d d.length).bind fun p =>
          some ((w.emit (.parsed d)).printParsed p, .parsed p)
      | none => some (w.print (.error "Unknown message"), .unknown) := by
  simp only [udpProcessMsgWith, hread, Option.bind_eq_bind, Option.bind_some, List.take_length]
  split
  · rename_i hfound
    rw [hfound]
    rfl
  · rename_i hnone
    rw [hnone]
    rfl

/-- udp_process_msg on an exact copy: the same result as on the copy and what lies
behind it if the datagram is terminated, and a read outside the copy if it is not. -/
theorem udpProcessMsgWith_cases (hne : d ≠ []) (w : World) :
    (Terminated d ∧ ∀ beyond alloc, udpProcessMsgWith tested w d d.length false true =
        some (udpProcessMsg w (d ++ beyond) d.length false alloc)) ∨
      (¬ Terminated d ∧ udpProcessMsgWith tested w d d.length false true = none) := by
  obtain ⟨first, rest, rfl⟩ := List.exists_cons_of_ne_nil hne
  have hread : tested.byte (first :: rest) 0 = some first := rfl
  have hsearch := find?_forall₂ (p := fun entry => first == entry.1.code)
    (q := fun entry => first == entry.type.code) guards_table
    fun checked entry h => by rw [h.type_eq]
  rw [udpProcessMsgWith_queued hread]
  rcases hsearch with ⟨hnone, hnone'⟩ | ⟨checked, entry, hchecked, hentry, hguards⟩
  · left
    constructor
    · intro type htype
      apply terminatedAs_of_not_mem
      rintro entry hmem rfl
      have hfirst : first = entry.type.code := Option.some.inj htype
      exact List.find?_eq_none.mp hnone' entry hmem (beq_iff_eq.mpr hfirst)
    · intro beyond alloc
      have hfind : findMsg (first :: rest ++ beyond) = none := hnone'
      rw [hnone, udpProcessMsg_eq, hfind]
  · have hcode : first = entry.type.code := by simpa using List.find?_some hentry
    have htype : (first :: rest).head? = some entry.type.code := by rw [hcode]; rfl
    rw [hchecked]
    by_cases hterm : TerminatedAs (first :: rest) entry.type
    · left
      refine ⟨(terminated_iff htype).mpr hterm, ?_⟩
      intro beyond alloc
      have hfind : findMsg (first :: rest ++ beyond) = some entry := hentry
      simp only
      rw [hguards.value w.client _ beyond hterm, udpProcessMsg_eq, hfind, List.take_left]
      rfl
    · right
      refine ⟨fun h => hterm ((terminated_iff htype).mp h), ?_⟩
      simp only
      rw [hguards.outside w.client _ hterm]
      rfl

/-- udp_check_previous when an exact copy of the datagram is at the front of the queue. -/
theorem udpCheckPreviousChecked_cases (hne : d ≠ []) {w : World} (hw : w.msgQueue.WellFormed)
    {rest : List Msg} (hqueue : w.msgQueue.toList = ⟨d, d.length⟩ :: rest) :
    (Terminated d ∧ ∀ beyond, udpCheckPreviousChecked w = some (udpCheckPrevious w beyond)) ∨
      (¬ Terminated d ∧ udpCheckPreviousChecked w = none) := by
  obtain ⟨hfront, -, -⟩ := queueFront_cons hw hqueue
  have hempty : queueIsEmpty w.msgQueue = false := by
    rw [Bool.eq_false_iff]
    intro h
    rw [(MsgQueue.queueIsEmpty_iff _).mp h] at hqueue
    cases hqueue
  rcases hpop : queueFront w.msgQueue with ⟨queue, m⟩
  rw [hpop] at hfront
  obtain rfl : m = some ⟨d, d.length⟩ := hfront
  simp only [udpCheckPreviousChecked, udpCheckPreviousWith, udpCheckPrevious_eq, hempty, hpop,
    Bool.not_false, if_true, List.append_nil]
  rcases udpProcessMsgWith_cases hne { w with msgQueue := queue } with
    ⟨hterm, heq⟩ | ⟨hterm, hnone⟩
  · left
    refine ⟨hterm, ?_⟩
    intro beyond
    rw [heq beyond true]
    rfl
  · right
    rw [hnone]
    exact ⟨hterm, rfl⟩

/-- The record that queue_add makes of a received datagram is an exact copy. -/
theorem queued_copy {q : MsgQueue} (hq : q.WellFormed) (hmax : d.length ≤ 65507) {alloc : Bool}
    (hadd : (queueAdd q (rcvBuffer d) (rcvLen d) alloc).2 = true) :
    (queueAdd q (rcvBuffer d) (rcvLen d) alloc).1.toList.getLast? = some ⟨d, d.length⟩ := by
  have hbuffer : d.length ≤ bufferSize := by
    simp only [bufferSize]
    omega
  obtain ⟨-, hlist⟩ := queueAdd_true hq hadd
  rw [hlist, List.getLast?_concat, rcvBuffer_take, List.take_of_length_le hbuffer,
    rcvLen_of_le hbuffer]

/-- A datagram stored by queue_add, later at the front of the queue: udp_check_previous
reads nothing outside the copy exactly if the datagram is terminated. -/
theorem queued_reads_in_bounds_iff {q : MsgQueue} (hq : q.WellFormed) (hmin : 1 ≤ d.length)
    (hmax : d.length ≤ 65507) {alloc : Bool}
    (hadd : (queueAdd q (rcvBuffer d) (rcvLen d) alloc).2 = true) {w : World}
    (hw : w.msgQueue.WellFormed)
    (hfront : w.msgQueue.toList.head? =
      (queueAdd q (rcvBuffer d) (rcvLen d) alloc).1.toList.getLast?) :
    (udpCheckPreviousChecked w).isSome = true ↔ Terminated d := by
  rw [queued_copy hq hmax hadd] at hfront
  obtain ⟨rest, hqueue⟩ := List.head?_eq_some_iff.mp hfront
  have hne : d ≠ [] := List.ne_nil_of_length_pos hmin
  rcases udpCheckPreviousChecked_cases hne hw hqueue with ⟨hterm, heq⟩ | ⟨hterm, hnone⟩
  · rw [heq []]
    exact ⟨fun _ => hterm, fun _ => rfl⟩
  · rw [hnone]
    exact ⟨fun h => absurd h (by decide), fun h => absurd h hterm⟩

end Queued

/-- A world with one datagram in its queue. -/
def holding (d : Bytes) : World :=
  { World.init sampleClient 3 with msgQueue := (queueAdd .empty (rcvBuffer d) (rcvLen d) true).1 }

/-- A BYE that ends with its zero byte. -/
theorem queued_reads_in_bounds_iff_bye :
    (udpCheckPreviousChecked (holding (headerBytes .bye 7 ++ ascii "s" ++ [0]))).isSome = true := by
  have hadd : (queueAdd .empty (rcvBuffer (headerBytes .bye 7 ++ ascii "s" ++ [0]))
      (rcvLen (headerBytes .bye 7 ++ ascii "s" ++ [0])) true).2 = true :=
    queueAdd_eq_true_iff.mpr ⟨rfl, rfl⟩
  have htype : (headerBytes .bye 7 ++ ascii "s" ++ [0]).head? = some MsgType.bye.code := rfl
  have hterm : Terminated (headerBytes .bye 7 ++ ascii "s" ++ [0]) := by
    apply (terminated_iff htype).mpr
    intro _
    decide
  apply (queued_reads_in_bounds_iff MsgQueue.wellFormed_empty (by decide) (by decide) hadd
    (queueAdd_true MsgQueue.wellFormed_empty hadd).1 ?_).mpr hterm
  rfl

/-- A MSG that ends in the middle of its display name. -/
theorem unterminated_msg_overreads :
    udpCheckPreviousChecked (holding (headerBytes .msg 5 ++ ascii "a")) = none := by
  decide +kernel

end IpkChat.Udp
