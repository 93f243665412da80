/-
  Tcp/Encoding.lean --- the lines of the TCP variant carry their fields.

  A line is built by putting fields into a template and parsed by looking for the
  words of the template.  With fields that the validators accept, no field can be
  taken for a part of the template: none contains a carriage return, and all but
  the last are free of spaces.  So a line has one CRLF, the parsers return what
  was put in, and different fields make different lines.
-/
import IpkChat.Tcp.Comm

set_option autoImplicit false

namespace IpkChat.Tcp

open IpkChat.Foundation IpkChat.Core

/-! ## One CRLF -/

/-- There is exactly one CRLF, and the line ends with it. -/
def OneCrlf (m : Bytes) : Prop :=
  crlfBytes.length ≤ m.length ∧ ∀ j, crlfBytes <+: m.drop j ↔ j + crlfBytes.length = m.length

theorem OneCrlf.isFrame {m : Bytes} (h : OneCrlf m) : IsFrame crlfBytes m :=
  isFrame_of_unique h.1 h.2

theorem oneCrlf_append {body : Bytes} (h : (13 : UInt8) ∉ body) : OneCrlf (body ++ crlfBytes) := by
  refine ⟨by simp, fun j => ?_⟩
  rw [crlfBytes, pair_prefix_drop_iff]
  simp only [List.length_append, List.length_cons, List.length_nil, Nat.add_right_cancel_iff]
  constructor
  · rintro ⟨hcr, -⟩
    rcases Nat.lt_or_ge j body.length with hj | hj
    · rw [List.getElem?_append_left hj] at hcr
      exact absurd (List.mem_of_getElem? hcr) h
    · rw [List.getElem?_append_right hj] at hcr
      cases hk : j - body.length with
      | zero => omega
      | succ k => cases k <;> simp [hk] at hcr
  · rintro rfl
    simp

section Fields

variable {c : Client}

/-- The words of the template of a message that is built. -/
def words : MsgType → List Bytes
  | .auth => [ascii "AUTH ", ascii " AS ", ascii " USING "]
  | .join => [ascii "JOIN ", ascii " AS "]
  | .msg => [ascii "MSG FROM ", ascii " IS "]
  | .err => [ascii "ERR FROM ", ascii " IS "]
  | .bye => [ascii "BYE FROM "]
  | _ => []

variable {type : MsgType}

theorem tcpBuildMsg_eq (h : Sendable c type) :
    tcpBuildMsg c type = some (interleave (words type) (fields c type) ++ crlfBytes) := by
  cases type <;> simp only [Sendable] at h <;>
    simp [tcpBuildMsg_auth, tcpBuildMsg_join, tcpBuildMsg_msg, tcpBuildMsg_err, tcpBuildMsg_bye,
      interleave, words, fields]

/-- Only the last field may contain a space. -/
theorem space_not_mem_fields (h : Sendable c type) :
    ∀ field ∈ (fields c type).dropLast, (0x20 : UInt8) ∉ field := by
  cases type <;> simp only [Sendable] at h <;>
    simp only [fields, List.dropLast_cons_cons, List.dropLast_singleton, List.mem_cons,
      List.not_mem_nil, or_false, forall_eq_or_imp, forall_eq, false_imp_iff, implies_true]
  · exact ⟨not_mem_of_alphanum h.1 (by decide), NameValid.not_mem h.2.2 (by decide)⟩
  · exact not_mem_of_alphanum h.1 (by decide)
  · exact NameValid.not_mem h.2 (by decide)
  · exact NameValid.not_mem h.2 (by decide)

theorem length_fields (h : Sendable c type) : (fields c type).length = (words type).length := by
  cases type <;> simp only [Sendable] at h <;> rfl

/-- Every word but the first starts with a space. -/
theorem words_tail : ∀ word ∈ (words type).tail, ∃ rest, word = 0x20 :: rest := by
  intro word hword
  cases type <;> simp only [words, List.tail_cons, List.tail_nil, List.mem_cons,
    List.not_mem_nil, or_false] at hword
  · rcases hword with rfl | rfl <;> exact ⟨_, rfl⟩
  · exact ⟨_, hword⟩
  · exact ⟨_, hword⟩
  · exact ⟨_, hword⟩

/-- A line without its CRLF contains no control character but the line feed. -/
theorem not_mem_interleave (h : Sendable c type) {b : UInt8} (hb : b < 0x20) (hlf : b ≠ 0x0A) :
    b ∉ interleave (words type) (fields c type) := by
  intro hmem
  rcases mem_interleave hmem with ⟨word, hword, hin⟩ | ⟨field, hfield, hin⟩
  · have hall : (words type).flatten.all (fun x => 0x20 ≤ x) = true := by cases type <;> rfl
    have hle := List.all_eq_true.mp hall b (List.mem_flatten_of_mem hword hin)
    exact absurd hb (UInt8.not_lt.mpr (of_decide_eq_true hle))
  · exact not_mem_fields h hb hlf field hfield hin

/-- A message that is sent has exactly one CRLF, at its end. -/
theorem oneCrlf_of_sendable (h : Sendable c type) {m : Bytes} (hm : tcpBuildMsg c type = some m) :
    OneCrlf m := by
  rw [tcpBuildMsg_eq h, Option.some.injEq] at hm
  exact hm ▸ oneCrlf_append (not_mem_interleave h (by decide) (by decide))

/-! ## Different fields make different lines -/

/-- The first byte of a line tells its type. -/
def lead (type : MsgType) : Option UInt8 := (words type).head?.bind List.head?

theorem lead_injective {t u : MsgType} (h : lead t = lead u) (hne : lead t ≠ none) : t = u := by
  revert h hne
  cases t <;> cases u <;> first | exact fun _ _ => rfl | decide

theorem head_of_sendable (h : Sendable c type) :
    (interleave (words type) (fields c type) ++ crlfBytes).head? = lead type ∧
      lead type ≠ none := by
  cases type <;> simp only [Sendable] at h <;> exact ⟨rfl, by decide⟩

/-- Equal lines are of one type and have equal fields. -/
theorem fields_eq_of_line_eq {c' : Client} {type' : MsgType} (h : Sendable c type)
    (h' : Sendable c' type') {m : Bytes} (hm : tcpBuildMsg c type = some m)
    (hm' : tcpBuildMsg c' type' = some m) : type = type' ∧ fields c type = fields c' type' := by
  rw [tcpBuildMsg_eq h, Option.some.injEq] at hm
  rw [tcpBuildMsg_eq h', Option.some.injEq] at hm'
  obtain ⟨hlead, hne⟩ := head_of_sendable h
  obtain ⟨hlead', -⟩ := head_of_sendable h'
  obtain rfl : type = type' :=
    lead_injective (by rw [← hlead, ← hlead', hm, hm']) hne
  exact ⟨rfl, interleave_inj words_tail (length_fields h) (length_fields h')
    (space_not_mem_fields h) (space_not_mem_fields h') (hm.trans hm'.symm)⟩

/-! ## Reading a line back -/

theorem match_append (pre : Bytes) {pattern rest : Bytes} (hrest : rest ≠ []) :
    match_ (pre ++ (pattern ++ rest)) pattern pre.length = some rest := by
  have hdrop : (pre ++ (pattern ++ rest)).drop (pre.length + pattern.length) = rest := by
    rw [← List.append_assoc, ← List.length_append, List.drop_left]
  simp only [match_, List.drop_left, strncasecmp_append, hdrop, true_and]
  exact if_pos (List.length_pos_of_ne_nil hrest)

theorem match_prefix {pattern rest : Bytes} (hrest : rest ≠ []) :
    match_ (pattern ++ rest) pattern 0 = some rest :=
  match_append [] hrest

theorem readTillDelimiter_line {s : Bytes} {size : Nat} (hcr : (13 : UInt8) ∉ s)
    (hlen : s.length < size) : readTillDelimiter (s ++ crlfBytes) size = some s := by
  have hone := oneCrlf_append hcr
  have hindex : indexOf crlfBytes (s ++ crlfBytes) = some s.length := by
    rw [indexOf_of_unique hone.1 hone.2, List.length_append, Nat.add_sub_cancel]
  simp only [readTillDelimiter, hindex, ge_iff_le, if_neg (Nat.not_le.mpr hlen), List.take_left']

theorem readContent_line {content : Bytes} (h : isValidMsgContent content maxMsgSize = true) :
    readContent (content ++ crlfBytes) = some content := by
  have hlen := (isValidMsgContent_iff.mp h).1.2
  have hcr : (13 : UInt8) ∉ content := not_mem_of_isValidMsgContent h (by decide) (by decide)
  rw [readContent, readTillDelimiter_line hcr (Nat.lt_of_le_of_lt hlen (by decide))]
  simp [Option.filter, h]

theorem append_crlf_ne_nil (s : Bytes) : s ++ crlfBytes ≠ [] :=
  List.append_ne_nil_of_right_ne_nil s (by decide)

/-- A line of MSG or ERR is read as it was built. -/
theorem parseFrom_line (type : MsgType) (words : String) (line : Bytes → Bytes → Output)
    (refusal : String) {name content : Bytes} (hname : isValidPrintable name maxNameSize = true)
    (hcontent : isValidMsgContent content maxMsgSize = true) :
    parseFrom type words line refusal
        (ascii words ++ (name ++ (ascii " IS " ++ (content ++ crlfBytes)))) =
      ⟨type, some (line name content)⟩ := by
  obtain ⟨hlen, hall⟩ := isValidPrintable_iff.mp hname
  have hwords : match_ (ascii words ++ (name ++ (ascii " IS " ++ (content ++ crlfBytes))))
      (ascii words) 0 = some (name ++ (ascii " IS " ++ (content ++ crlfBytes))) :=
    match_prefix (by simp [crlfBytes])
  have hscan : scanWord 20 (name ++ (ascii " IS " ++ (content ++ crlfBytes))) = some name := by
    have hspace : isspace 0x20 = true := rfl
    exact scanWord_append (List.ne_nil_of_length_pos hlen.1)
      (fun c hc => isspace_eq_false (hall c hc).1) hlen.2 hspace _
  have his : match_ (name ++ (ascii " IS " ++ (content ++ crlfBytes))) (ascii " IS ")
      name.length = some (content ++ crlfBytes) := match_append name (append_crlf_ne_nil content)
  simp [parseFrom, orRefuse, hwords, hscan, Option.filter, hname, his, readContent_line hcontent]

/-- The display name that parse_bye reads. -/
def byeName (buffer : Bytes) : Option Bytes :=
  (match_ buffer (ascii "BYE FROM ") 0).bind fun buffer =>
    readTillDelimiter buffer (maxNameSize + zeroByte)

/-- parse_bye accepts a line by its display name. -/
theorem parseBye_eq (buffer : Bytes) :
    parseBye buffer = orRefuse "Received invalid BYE"
      (((byeName buffer).filter fun name => isValidPrintable name maxNameSize).map
        fun _ => ⟨.bye, none⟩) := by
  unfold parseBye byeName
  cases match_ buffer (ascii "BYE FROM ") 0 with
  | none => rfl
  | some buffer =>
      simp only [Option.bind_eq_bind, Option.bind_some]
      cases (readTillDelimiter buffer (maxNameSize + zeroByte)).filter _ <;> rfl

theorem byeName_line {name : Bytes} (hname : isValidPrintable name maxNameSize = true) :
    byeName (ascii "BYE FROM " ++ (name ++ crlfBytes)) = some name := by
  have hlen := (isValidPrintable_iff.mp hname).1.2
  have hwords : match_ (ascii "BYE FROM " ++ (name ++ crlfBytes)) (ascii "BYE FROM ") 0 =
      some (name ++ crlfBytes) := match_prefix (append_crlf_ne_nil name)
  rw [byeName, hwords, Option.bind_some]
  exact readTillDelimiter_line (not_mem_of_isValidPrintable hname (by decide))
    (Nat.lt_succ_of_le hlen)

/-- tcp_process_msg accepts the line of a MSG, ERR or BYE, and finds its fields. -/
def Decodes (c : Client) (type : MsgType) (m : Bytes) : Prop :=
  match type with
  | .msg => tcpProcessMsg (m ++ [0]) = ⟨.msg, some (.chat c.displayName c.msgContent)⟩
  | .err => tcpProcessMsg (m ++ [0]) = ⟨.err, some (.errorFrom c.displayName c.msgContent)⟩
  | .bye => tcpProcessMsg (m ++ [0]) = ⟨.bye, none⟩ ∧ byeName m = some c.displayName
  | _ => True

theorem decodes_of_sendable (h : Sendable c type) {m : Bytes} (hm : tcpBuildMsg c type = some m) :
    Decodes c type m := by
  have hzero : (0 : UInt8) ∉ m := by
    have hm' := hm
    rw [tcpBuildMsg_eq h, Option.some.injEq] at hm'
    rw [← hm', List.mem_append, not_or]
    exact ⟨not_mem_interleave h (by decide) (by decide), by decide⟩
  have hcstr : cstr (m ++ [0]) = m := cstr_append_zero hzero []
  cases type <;> simp only [Sendable] at h <;> simp only [Decodes, tcpProcessMsg, hcstr]
  · rw [tcpBuildMsg_msg, Option.some.injEq] at hm
    rw [← hm]
    exact parseFrom_line .msg "MSG FROM " .chat "Received invalid MSG" h.2 h.1
  · rw [tcpBuildMsg_err, Option.some.injEq] at hm
    rw [← hm]
    exact parseFrom_line .err "ERR FROM " .errorFrom "Received invalid ERR" h.2 h.1
  · rw [tcpBuildMsg_bye, Option.some.injEq] at hm
    rw [← hm]
    refine ⟨?_, byeName_line h⟩
    change parseBye _ = _
    rw [parseBye_eq, byeName_line h]
    simp [Option.filter, orRefuse, show isValidPrintable c.displayName maxNameSize = true from h]

end Fields

end IpkChat.Tcp
