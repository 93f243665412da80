/-
  Tcp/Grammar.lean --- which lines the TCP variant accepts.

  A parser looks for words at offsets that it computes from what it read before.
  In MSG and ERR the name is read by sscanf, which skips white space first, while
  the offset of the next word is counted from where the name should have started.
  The two drift apart on a line that has exactly two white-space characters in
  place of the name: the word " IS " is found where it belongs, and its letters
  are taken for the name.
-/
import IpkChat.Tcp.Encoding

set_option autoImplicit false

namespace IpkChat.Tcp

open IpkChat.Foundation IpkChat.Core

/-! ## The grammar -/

/-- A line of MSG or ERR.  The case of the letters of its words does not matter. -/
def IsFromLine (words : String) (s name content : Bytes) : Prop :=
  ∃ keyword is, SameLetters keyword (ascii words) ∧ SameLetters is (ascii " IS ") ∧
    PrintablePart name ∧ ContentPart content ∧
    s = keyword ++ (name ++ (is ++ (content ++ crlfBytes)))

/-- A line of REPLY or NREPLY. -/
def IsReplyLine (words : String) (s content : Bytes) : Prop :=
  ∃ keyword, SameLetters keyword (ascii words) ∧ ContentPart content ∧
    s = keyword ++ (content ++ crlfBytes)

/-- A line of BYE. -/
def IsByeLine (words : String) (s name : Bytes) : Prop :=
  ∃ keyword, SameLetters keyword (ascii words) ∧ PrintablePart name ∧
    s = keyword ++ (name ++ crlfBytes)

/-- Two white-space characters where the name of MSG or ERR should be. -/
def Drifts (words : String) (s : Bytes) : Prop :=
  ∃ keyword w₁ w₂ is content, SameLetters keyword (ascii words) ∧ isspace w₁ = true ∧
    isspace w₂ = true ∧ SameLetters is (ascii " IS ") ∧ ContentPart content ∧
    s = keyword ++ ([w₁, w₂] ++ (is ++ (content ++ crlfBytes)))

theorem Drifts.space {words : String} {s : Bytes} (h : Drifts words s) :
    ∃ w, s[(ascii words).length]? = some w ∧ isspace w = true := by
  obtain ⟨word, w₁, w₂, is, content, hletters, hw₁, -, -, -, rfl⟩ := h
  refine ⟨w₁, ?_, hw₁⟩
  rw [← hletters.length_eq, List.getElem?_append_right (Nat.le_refl _), Nat.sub_self]
  rfl

/-- Printable characters are no white space. -/
theorem not_isspace_of_printable {name : Bytes} (h : PrintablePart name) :
    ∀ c ∈ name, isspace c = false :=
  fun c hc => isspace_eq_false (h.printable c hc).1

/-- Such a line is not in the grammar. -/
theorem Drifts.not_isFromLine {words : String} {s : Bytes} (h : Drifts words s)
    (name content : Bytes) : ¬ IsFromLine words s name content := by
  rintro ⟨word, is, hletters, -, hname, -, rfl⟩
  obtain ⟨w, hw, hspace⟩ := h.space
  -- the name starts where the white space is
  rw [← hletters.length_eq, List.getElem?_append_right (Nat.le_refl _), Nat.sub_self,
    List.getElem?_append_left hname.length_pos] at hw
  rw [not_isspace_of_printable hname w (List.mem_of_getElem? hw)] at hspace
  cases hspace

/-! ## The readers -/

theorem match_eq_some_iff {buffer pattern rest : Bytes} {offset : Nat} :
    match_ buffer pattern offset = some rest ↔
      ∃ pre word, buffer = pre ++ (word ++ rest) ∧ pre.length = offset ∧
        SameLetters word pattern ∧ rest ≠ [] := by
  simp only [match_, strncasecmp_iff (Nat.le_refl _), List.take_length, gt_iff_lt,
    List.length_pos_iff]
  constructor
  · intro h
    split at h
    case isFalse => cases h
    case isTrue hmatch =>
      obtain ⟨hletters, hne⟩ := hmatch
      obtain rfl := Option.some.inj h
      have hroom : offset + pattern.length < buffer.length := by
        by_contra hno
        exact hne (List.drop_eq_nil_of_le (by omega))
      refine ⟨buffer.take offset, (buffer.drop offset).take pattern.length, ?_,
        List.length_take_of_le (by omega), hletters, hne⟩
      rw [← List.drop_drop, List.take_append_drop, List.take_append_drop]
  · rintro ⟨pre, word, rfl, rfl, hletters, hne⟩
    have hlen := hletters.length_eq
    have hrest : (pre ++ (word ++ rest)).drop (pre.length + pattern.length) = rest := by
      rw [← hlen, ← List.append_assoc, ← List.length_append, List.drop_left]
    have htake : ((pre ++ (word ++ rest)).drop pre.length).take pattern.length = word := by
      rw [List.drop_left, ← hlen, List.take_left]
    rw [htake, hrest, if_pos ⟨hletters, hne⟩]

section Line

variable {pre b : Bytes}

/-- Reading up to the CRLF of a line succeeds on the part before it, if that fits. -/
theorem readTillDelimiter_iff (hframe : IsFrame crlfBytes (pre ++ b)) {c : Bytes} {size : Nat}
    (hlt : c.length < size) : readTillDelimiter b size = some c ↔ b = c ++ crlfBytes := by
  unfold readTillDelimiter
  cases hindex : indexOf crlfBytes b with
  | none =>
      simp only [reduceCtorEq, false_iff]
      rintro rfl
      have := (indexOf_suffix_of_isFrame hframe).mpr ⟨c, rfl, rfl⟩
      rw [hindex] at this
      cases this
  | some i =>
      obtain ⟨body, rfl, rfl⟩ := (indexOf_suffix_of_isFrame hframe).mp hindex
      simp only [Option.some.injEq, List.append_left_inj]
      split
      · rename_i hlong
        constructor
        · intro h
          have hlen := congrArg List.length h
          rw [List.length_take, List.length_append] at hlen
          omega
        · rintro rfl
          omega
      · rw [List.take_left]

theorem readContent_iff (hframe : IsFrame crlfBytes (pre ++ b)) {content : Bytes} :
    readContent b = some content ↔ ContentPart content ∧ b = content ++ crlfBytes := by
  rw [readContent, Option.filter_eq_some_iff, contentPart_iff]
  constructor
  · rintro ⟨hread, hpart⟩
    have hlt : content.length < bufferSize := Nat.lt_of_le_of_lt hpart.length_le (by decide)
    exact ⟨hpart, (readTillDelimiter_iff hframe hlt).mp hread⟩
  · rintro ⟨hpart, hb⟩
    have hlt : content.length < bufferSize := Nat.lt_of_le_of_lt hpart.length_le (by decide)
    exact ⟨(readTillDelimiter_iff hframe hlt).mpr hb, hpart⟩

end Line

/-! ## REPLY and BYE -/

/-- A type other than ERROR is that of what was parsed. -/
theorem orRefuse_type_iff {text : String} {o : Option Parsed} {type : MsgType}
    (htype : type ≠ .error) : (orRefuse text o).type = type ↔ ∃ p, o = some p ∧ p.type = type := by
  cases o with
  | none => simpa [orRefuse, Parsed.refuse] using htype.symm
  | some p => simp [orRefuse]

section Parsers

variable {s : Bytes} {type : MsgType} {words : String}

theorem parseReplyAs_sound (hframe : IsFrame crlfBytes s) (htype : type ≠ .error)
    {line : Bytes → Output} (h : (parseReplyAs type words line s).type = type) :
    ∃ content, IsReplyLine words s content := by
  obtain ⟨p, hp, -⟩ := (orRefuse_type_iff htype).mp h
  simp only [Option.bind_eq_bind, Option.bind_eq_some_iff] at hp
  obtain ⟨b, hwords, content, hread, -⟩ := hp
  obtain ⟨pre, keyword, rfl, hpre, hletters, -⟩ := match_eq_some_iff.mp hwords
  obtain rfl := List.length_eq_zero_iff.mp hpre
  obtain ⟨hcontent, rfl⟩ := (readContent_iff (by simpa using hframe)).mp hread
  exact ⟨content, keyword, hletters, hcontent, rfl⟩

theorem parseReplyAs_of_line (hframe : IsFrame crlfBytes s) {line : Bytes → Output}
    {content : Bytes} (h : IsReplyLine words s content) :
    parseReplyAs type words line s = ⟨type, some (line content)⟩ := by
  obtain ⟨keyword, hletters, hcontent, rfl⟩ := h
  have hwords : match_ (keyword ++ (content ++ crlfBytes)) (ascii words) 0 =
      some (content ++ crlfBytes) :=
    match_eq_some_iff.mpr ⟨[], keyword, rfl, rfl, hletters, append_crlf_ne_nil content⟩
  have hread := (readContent_iff hframe).mpr ⟨hcontent, rfl⟩
  simp [parseReplyAs, orRefuse, hwords, hread]

/-- What parse_bye reads as the name and accepts makes a line of BYE. -/
theorem byeName_iff (hframe : IsFrame crlfBytes s) {name : Bytes} :
    (byeName s = some name ∧ isValidPrintable name maxNameSize = true) ↔
      IsByeLine "BYE FROM " s name := by
  rw [printablePart_iff, byeName]
  constructor
  · rintro ⟨hbye, hname⟩
    obtain ⟨b, hwords, hread⟩ := Option.bind_eq_some_iff.mp hbye
    obtain ⟨pre, keyword, rfl, hpre, hletters, -⟩ := match_eq_some_iff.mp hwords
    obtain rfl := List.length_eq_zero_iff.mp hpre
    have hlt : name.length < maxNameSize + zeroByte := Nat.lt_succ_of_le hname.length_le
    obtain rfl := (readTillDelimiter_iff (by simpa using hframe) hlt).mp hread
    exact ⟨keyword, hletters, hname, rfl⟩
  · rintro ⟨keyword, hletters, hname, rfl⟩
    have hwords : match_ (keyword ++ (name ++ crlfBytes)) (ascii "BYE FROM ") 0 =
        some (name ++ crlfBytes) :=
      match_eq_some_iff.mpr ⟨[], keyword, rfl, rfl, hletters, append_crlf_ne_nil name⟩
    have hlt : name.length < maxNameSize + zeroByte := Nat.lt_succ_of_le hname.length_le
    exact ⟨by rw [hwords, Option.bind_some]; exact (readTillDelimiter_iff hframe hlt).mpr rfl,
      hname⟩

theorem parseBye_iff (hframe : IsFrame crlfBytes s) :
    (parseBye s).type = .bye ↔ ∃ name, IsByeLine "BYE FROM " s name := by
  rw [parseBye_eq, orRefuse_type_iff (by decide)]
  simp only [Option.map_eq_some_iff, Option.filter_eq_some_iff, ← byeName_iff hframe]
  constructor
  · rintro ⟨p, ⟨name, hname, -⟩, -⟩
    exact ⟨name, hname⟩
  · rintro ⟨name, hname⟩
    exact ⟨⟨.bye, none⟩, ⟨name, hname, rfl⟩, rfl⟩

/-! ## MSG and ERR -/

/-- The letters of " IS " would do as a name. -/
theorem letters_of_is {is : Bytes} (h : SameLetters is (ascii " IS ")) :
    ∃ i s, is = [0x20, i, s, 0x20] ∧ PrintablePart [i, s] := by
  have hlen : is.length = 4 := h.length_eq
  match is, hlen with
  | [a, i, s, b], _ =>
      have hletters : tolower a = 0x20 ∧ tolower i = 0x69 ∧ tolower s = 0x73 ∧
          tolower b = 0x20 := by
        simpa [SameLetters, ascii, tolower] using h
      have hspace : ∀ c : UInt8, tolower c = 0x20 → c = 0x20 := by
        intro c hc
        rcases eq_of_tolower_eq hc with h | ⟨⟨hle, -⟩, rfl⟩
        · exact h
        · exact absurd hle (by decide)
      have hprintable : ∀ c l : UInt8, tolower c = l → 0x61 ≤ l → l ≤ 0x7A →
          0x21 ≤ c ∧ c ≤ 0x7E := by
        intro c l hc hlow hhigh
        rcases eq_of_tolower_eq hc with rfl | ⟨⟨hle, hge⟩, -⟩
        · exact ⟨UInt8.le_trans (by decide) hlow, UInt8.le_trans hhigh (by decide)⟩
        · exact ⟨UInt8.le_trans (by decide) hle, UInt8.le_trans hge (by decide)⟩
      obtain ⟨h0, h1, h2, h3⟩ := hletters
      rw [hspace a h0, hspace b h3]
      refine ⟨i, s, rfl, by simp, by simp, ?_⟩
      intro c hc
      rcases List.mem_pair.mp hc with rfl | rfl
      · exact hprintable c 0x69 h1 (by decide) (by decide)
      · exact hprintable c 0x73 h2 (by decide) (by decide)

variable {line : Bytes → Bytes → Output} {refusal : String}

/-- The name that was scanned stands where the offset was counted from, or its place
is taken by two white-space characters. -/
theorem name_or_spaces {pre is rest name : Bytes} (his : SameLetters is (ascii " IS "))
    (hscan : scanWord 20 (pre ++ (is ++ rest)) = some name)
    (hlen : pre.length = name.length) :
    pre = name ∨ ∃ w₁ w₂, pre = [w₁, w₂] ∧ isspace w₁ = true ∧ isspace w₂ = true := by
  obtain ⟨i, s, rfl, hletters⟩ := letters_of_is his
  have hspace : isspace 0x20 = true := rfl
  by_cases hall : ∀ b ∈ pre, isspace b = true
  · -- sscanf skips what precedes the letters of " IS "
    have hsplit : pre ++ ([0x20, i, s, 0x20] ++ rest) =
        (pre ++ [0x20]) ++ ([i, s] ++ 0x20 :: rest) := by simp
    rw [hsplit, scanWord_spaces (by simpa [or_imp, forall_and, hspace] using hall),
      scanWord_append (by simp) (not_isspace_of_printable hletters) hletters.length_le hspace,
      Option.some.injEq] at hscan
    rw [← hscan] at hlen
    match pre, hlen with
    | [w₁, w₂], _ => exact Or.inr ⟨w₁, w₂, rfl, hall w₁ (by simp), hall w₂ (by simp)⟩
  · -- the word starts in `pre` and ends there
    left
    have hne : pre.dropWhile isspace ≠ [] := by
      intro hnil
      exact hall fun b hb => List.dropWhile_eq_nil_iff.mp hnil b hb
    obtain ⟨b, front, hfront⟩ := List.exists_cons_of_ne_nil hne
    have hb : isspace b = false := by
      have := List.head_dropWhile_not isspace hne
      simpa [hfront] using this
    have hpre : pre = pre.takeWhile isspace ++ (b :: front) := by
      rw [← hfront, List.takeWhile_append_dropWhile]
    have hspaces : ∀ c ∈ pre.takeWhile isspace, isspace c = true := fun c hc =>
      List.mem_takeWhile_imp hc
    rw [hpre, List.append_assoc, scanWord_spaces hspaces] at hscan
    obtain ⟨hstart, hle⟩ := scanWord_prefix hb hspace hscan
    have hnone : pre.takeWhile isspace = [] := by
      have htotal := congrArg List.length hpre
      rw [List.length_append] at htotal
      exact List.length_eq_zero_iff.mp (by omega)
    rw [hnone, List.nil_append] at hpre
    rw [← hpre] at hstart
    exact ((List.prefix_of_prefix_length_le hstart (List.prefix_append _ _)
      (Nat.le_of_eq hlen.symm)).eq_of_length hlen.symm).symm

theorem parseFrom_sound (hframe : IsFrame crlfBytes s) (htype : type ≠ .error)
    (h : (parseFrom type words line refusal s).type = type) :
    (∃ name content, IsFromLine words s name content) ∨ Drifts words s := by
  obtain ⟨p, hp, -⟩ := (orRefuse_type_iff htype).mp h
  simp only [Option.bind_eq_bind, Option.bind_eq_some_iff, Option.filter_eq_some_iff,
    printablePart_iff] at hp
  obtain ⟨b, hwords, name, ⟨hscan, hname⟩, b', his, content, hread, -⟩ := hp
  obtain ⟨front, keyword, rfl, hfront, hletters, -⟩ := match_eq_some_iff.mp hwords
  obtain rfl := List.length_eq_zero_iff.mp hfront
  obtain ⟨pre, is, rfl, hlen, hisLetters, -⟩ := match_eq_some_iff.mp his
  have hframe' : IsFrame crlfBytes ((keyword ++ (pre ++ is)) ++ b') := by simpa using hframe
  obtain ⟨hcontent, rfl⟩ := (readContent_iff hframe').mp hread
  rcases name_or_spaces hisLetters hscan hlen with rfl | ⟨w₁, w₂, rfl, hw₁, hw₂⟩
  · exact Or.inl ⟨pre, content, keyword, is, hletters, hisLetters, hname, hcontent, rfl⟩
  · exact Or.inr ⟨keyword, w₁, w₂, is, content, hletters, hw₁, hw₂, hisLetters, hcontent, rfl⟩

/-- The parser once the name was scanned. -/
theorem parseFrom_of_scan {keyword pre is name content : Bytes}
    (hframe : IsFrame crlfBytes (keyword ++ (pre ++ (is ++ (content ++ crlfBytes)))))
    (hletters : SameLetters keyword (ascii words)) (his : SameLetters is (ascii " IS "))
    (hscan : scanWord 20 (pre ++ (is ++ (content ++ crlfBytes))) = some name)
    (hname : PrintablePart name) (hlen : pre.length = name.length)
    (hcontent : ContentPart content) :
    parseFrom type words line refusal (keyword ++ (pre ++ (is ++ (content ++ crlfBytes)))) =
      ⟨type, some (line name content)⟩ := by
  have hwords : match_ (keyword ++ (pre ++ (is ++ (content ++ crlfBytes)))) (ascii words) 0 =
      some (pre ++ (is ++ (content ++ crlfBytes))) :=
    match_eq_some_iff.mpr ⟨[], keyword, rfl, rfl, hletters, by simp [crlfBytes]⟩
  have hmatch : match_ (pre ++ (is ++ (content ++ crlfBytes))) (ascii " IS ") name.length =
      some (content ++ crlfBytes) :=
    match_eq_some_iff.mpr ⟨pre, is, rfl, hlen, his, append_crlf_ne_nil content⟩
  have hframe' : IsFrame crlfBytes ((keyword ++ (pre ++ is)) ++ (content ++ crlfBytes)) := by
    simpa using hframe
  have hread := (readContent_iff hframe').mpr ⟨hcontent, rfl⟩
  simp [parseFrom, orRefuse, hwords, hscan, Option.filter, printablePart_iff.mpr hname, hmatch,
    hread]

theorem parseFrom_of_line (hframe : IsFrame crlfBytes s) {name content : Bytes}
    (h : IsFromLine words s name content) :
    parseFrom type words line refusal s = ⟨type, some (line name content)⟩ := by
  obtain ⟨keyword, is, hletters, his, hname, hcontent, rfl⟩ := h
  obtain ⟨i, s, rfl, -⟩ := letters_of_is his
  have hscan : scanWord 20 (name ++ ([0x20, i, s, 0x20] ++ (content ++ crlfBytes))) =
      some name :=
    scanWord_append (List.ne_nil_of_length_pos hname.length_pos) (not_isspace_of_printable hname)
      hname.length_le rfl _
  exact parseFrom_of_scan hframe hletters his hscan hname rfl hcontent

/-- The letters of " IS " are reported as the name. -/
theorem parseFrom_of_drifts (hframe : IsFrame crlfBytes s) (h : Drifts words s) :
    (parseFrom type words line refusal s).type = type := by
  obtain ⟨keyword, w₁, w₂, is, content, hletters, hw₁, hw₂, his, hcontent, rfl⟩ := h
  obtain ⟨i, s, rfl, hname⟩ := letters_of_is his
  have hsplit : [w₁, w₂] ++ ([0x20, i, s, 0x20] ++ (content ++ crlfBytes)) =
      [w₁, w₂, 0x20] ++ ([i, s] ++ 0x20 :: (content ++ crlfBytes)) := rfl
  have hscan : scanWord 20 ([w₁, w₂] ++ ([0x20, i, s, 0x20] ++ (content ++ crlfBytes))) =
      some [i, s] := by
    rw [hsplit, scanWord_spaces (by simp [hw₁, hw₂]; decide)]
    exact scanWord_append (by simp) (not_isspace_of_printable hname) hname.length_le rfl _
  rw [parseFrom_of_scan hframe hletters his hscan hname rfl hcontent]

end Parsers

/-! ## The dispatch table -/

/-- The words of a template up to its first conversion. -/
def keyword (entry : TcpMsgTemp) : Bytes := entry.temp.takeWhile (· != 0x25)

/-- What the dispatch compares is part of the keyword. -/
theorem take_keyword {entry : TcpMsgTemp} (h : entry ∈ msgTemp) :
    entry.len ≤ (keyword entry).length ∧
      entry.temp.take entry.len = (keyword entry).take entry.len := by
  revert entry
  decide

theorem len_le_temp {entry : TcpMsgTemp} (h : entry ∈ msgTemp) :
    entry.len ≤ entry.temp.length :=
  (take_keyword h).1.trans (List.takeWhile_prefix _).length_le

/-- The prefixes that the dispatch compares do not overlap. -/
theorem prefix_unambiguous {e e' : TcpMsgTemp} (h : e ∈ msgTemp) (h' : e' ∈ msgTemp)
    {s : Bytes} (hs : strncasecmp s e.temp e.len = true)
    (hs' : strncasecmp s e'.temp e'.len = true) : e = e' := by
  rw [strncasecmp_iff (len_le_temp h)] at hs
  rw [strncasecmp_iff (len_le_temp h')] at hs'
  have htypes : ∀ e ∈ msgTemp, ∀ e' ∈ msgTemp,
      SameLetters (e.temp.take (min e.len e'.len)) (e'.temp.take (min e.len e'.len)) →
        e.type = e'.type := by decide
  have hnodup : (msgTemp.map (·.type)).Nodup := by decide
  refine List.inj_on_of_nodup_map hnodup h h' (htypes e h e' h' ?_)
  -- both prefixes have the letters of `s`, as far as both reach
  have hcommon := congrArg (List.take (min e.len e'.len)) hs
  have hcommon' := congrArg (List.take (min e.len e'.len)) hs'
  simp only [← List.map_take, List.take_take] at hcommon hcommon'
  rw [Nat.min_eq_left (Nat.min_le_left _ _)] at hcommon
  rw [Nat.min_eq_left (Nat.min_le_right _ _)] at hcommon'
  exact hcommon.symm.trans hcommon'

variable {s : Bytes}

/-- A line goes to the parser of the template whose keyword it starts with. -/
theorem tcpProcessMsg_of_keyword (hnul : (0 : UInt8) ∉ s) {entry : TcpMsgTemp}
    (h : entry ∈ msgTemp) (word rest : Bytes) (hs : s = word ++ rest)
    (hword : SameLetters word (keyword entry)) :
    tcpProcessMsg (s ++ [0]) = entry.parseFunc s := by
  obtain ⟨hlen, htake⟩ := take_keyword h
  have hstart : strncasecmp s entry.temp entry.len = true := by
    rw [strncasecmp_iff (len_le_temp h), hs, htake,
      List.take_append_of_le_length (by rw [hword.length_eq]; exact hlen)]
    exact hword.take entry.len
  have hfind : msgTemp.find? (fun e => strncasecmp s e.temp e.len) = some entry := by
    cases hfind : msgTemp.find? fun e => strncasecmp s e.temp e.len with
    | none => exact absurd hstart (by simpa using List.find?_eq_none.mp hfind entry h)
    | some e =>
        rw [prefix_unambiguous (List.mem_of_find?_eq_some hfind) h
          (by simpa using List.find?_some hfind) hstart]
  have hcstr : cstr (s ++ [0]) = s := cstr_append_zero hnul []
  simp only [tcpProcessMsg, hcstr, hfind]

/-- A type other than ERROR is returned exactly if the parser of that type returns it. -/
theorem tcpProcessMsg_type_iff (hnul : (0 : UInt8) ∉ s) {entry : TcpMsgTemp}
    (h : entry ∈ msgTemp) (htype : entry.type ≠ .error)
    (hkeyword : (entry.parseFunc s).type = entry.type →
      ∃ word rest, s = word ++ rest ∧ SameLetters word (keyword entry)) :
    (tcpProcessMsg (s ++ [0])).type = entry.type ↔ (entry.parseFunc s).type = entry.type := by
  constructor
  · intro hp
    have hcstr : cstr (s ++ [0]) = s := cstr_append_zero hnul []
    rw [tcpProcessMsg, hcstr] at hp
    split at hp
    case h_1 e hfind =>
      have hmem := List.mem_of_find?_eq_some hfind
      have hnodup : (msgTemp.map (·.type)).Nodup := by decide
      rcases parseFunc_type hmem s with he | he
      · rw [he] at hp
        rw [← List.inj_on_of_nodup_map hnodup hmem h hp]
        exact he
      · rw [he] at hp
        exact absurd hp.symm htype
    case h_2 => exact absurd hp.symm htype
  · intro hp
    obtain ⟨word, rest, hs, hword⟩ := hkeyword hp
    rw [tcpProcessMsg_of_keyword hnul h word rest hs hword]
    exact hp

/-! ## Exactness -/

/-- Exactly the lines of the grammar are accepted as `type`, and their parts are
reported. -/
structure ExactFor (type : MsgType) (words : String) (line : Bytes → Bytes → Output)
    (s : Bytes) : Prop where
  type_iff : (tcpProcessMsg (s ++ [0])).type = type ↔
    ∃ name content, IsFromLine words s name content
  reported : ∀ name content, IsFromLine words s name content →
    tcpProcessMsg (s ++ [0]) = ⟨type, some (line name content)⟩

theorem exactFor_iff {type : MsgType} {words refusal : String} {line : Bytes → Bytes → Output}
    {temp : Bytes} {len : Nat} (hnul : (0 : UInt8) ∉ s) (hframe : IsFrame crlfBytes s)
    (h : ⟨type, temp, len, parseFrom type words line refusal⟩ ∈ msgTemp)
    (hwords : keyword ⟨type, temp, len, parseFrom type words line refusal⟩ = ascii words)
    (htype : type ≠ .error) : ExactFor type words line s ↔ ¬ Drifts words s := by
  have hdispatch := tcpProcessMsg_of_keyword hnul h
  rw [hwords] at hdispatch
  have hline : ∀ name content, IsFromLine words s name content →
      tcpProcessMsg (s ++ [0]) = ⟨type, some (line name content)⟩ := by
    rintro name content hs
    have hparse : parseFrom type words line refusal s = _ := parseFrom_of_line hframe hs
    obtain ⟨word, is, hletters, -, -, -, rfl⟩ := hs
    rw [hdispatch word _ rfl hletters]
    exact hparse
  have hiff : (tcpProcessMsg (s ++ [0])).type = type ↔
      (parseFrom type words line refusal s).type = type := by
    refine tcpProcessMsg_type_iff hnul h htype fun hp => ?_
    rw [hwords]
    rcases parseFrom_sound hframe htype hp with ⟨name, content, word, is, hletters, -, -, -, rfl⟩ |
      ⟨word, w₁, w₂, is, content, hletters, -, -, -, -, rfl⟩
    · exact ⟨word, _, rfl, hletters⟩
    · exact ⟨word, _, rfl, hletters⟩
  constructor
  · intro hexact hdrift
    obtain ⟨name, content, hs⟩ :=
      hexact.type_iff.mp (hiff.mpr (parseFrom_of_drifts hframe hdrift))
    exact hdrift.not_isFromLine name content hs
  · intro hdrift
    refine ⟨⟨fun hp => ?_, fun ⟨name, content, hs⟩ => by rw [hline name content hs]⟩, hline⟩
    exact (parseFrom_sound hframe htype (hiff.mp hp)).resolve_right hdrift

/-- MSG and ERR are accepted exactly by their grammar unless the line has two
white-space characters and " IS " where the name should be. -/
theorem tcp_msg_err_exact_iff (s : Bytes) (hnul : (0 : UInt8) ∉ s)
    (hframe : IsFrame crlfBytes s) :
    (ExactFor .msg "MSG FROM " .chat s ∧ ExactFor .err "ERR FROM " .errorFrom s) ↔
      ¬ Drifts "MSG FROM " s ∧ ¬ Drifts "ERR FROM " s := by
  have hmsg : ⟨.msg, ascii "MSG FROM %s IS %s\r\n", 3, parseMsg⟩ ∈ msgTemp := by simp [msgTemp]
  have herr : ⟨.err, ascii "ERR FROM %s IS %s\r\n", 3, parseErr⟩ ∈ msgTemp := by simp [msgTemp]
  rw [exactFor_iff hnul hframe hmsg rfl (by decide), exactFor_iff hnul hframe herr rfl (by decide)]

/-- A line without white space where its name starts. -/
theorem tcp_msg_err_exact_iff_plain :
    ExactFor .msg "MSG FROM " .chat (ascii "MSG FROM n IS hi\r\n") := by
  have hplain : ∀ words : String, (ascii words).length = 9 →
      ¬ Drifts words (ascii "MSG FROM n IS hi\r\n") := by
    intro words hlen h
    obtain ⟨w, hw, hspace⟩ := h.space
    rw [hlen] at hw
    obtain rfl : 0x6E = w := by simpa [ascii] using hw
    exact absurd hspace (by decide)
  exact ((tcp_msg_err_exact_iff (ascii "MSG FROM n IS hi\r\n") (by decide)
    (by unfold IsFrame; decide)).mpr ⟨hplain _ rfl, hplain _ rfl⟩).1

/-- The line "MSG FROM    IS hi" is taken for a message of "IS". -/
theorem spaces_for_a_name_are_accepted :
    ∃ s, (0 : UInt8) ∉ s ∧ IsFrame crlfBytes s ∧ (tcpProcessMsg (s ++ [0])).type = .msg ∧
      ¬ ∃ name content, IsFromLine "MSG FROM " s name content := by
  have hframe : IsFrame crlfBytes (ascii "MSG FROM    IS hi\r\n") := by
    unfold IsFrame
    decide
  have hdrifts : Drifts "MSG FROM " (ascii "MSG FROM    IS hi\r\n") :=
    ⟨ascii "MSG FROM ", 0x20, 0x20, ascii " IS ", ascii "hi", rfl, rfl, rfl, rfl,
      contentPart_iff.mp (by decide), rfl⟩
  refine ⟨ascii "MSG FROM    IS hi\r\n", by decide, hframe, by decide +kernel, ?_⟩
  rintro ⟨name, content, hs⟩
  exact hdrifts.not_isFromLine name content hs

/-! ## REPLY, NREPLY and BYE -/

/-- Lines of REPLY, NREPLY and BYE are accepted exactly by their grammar, what is
too long is refused, and the dispatch leads to the parser of the keyword. -/
structure ReplyByeExact (s : Bytes) : Prop where
  reply_iff : (tcpProcessMsg (s ++ [0])).type = .reply ↔
    ∃ content, IsReplyLine "REPLY OK IS " s content
  nreply_iff : (tcpProcessMsg (s ++ [0])).type = .nreply ↔
    ∃ content, IsReplyLine "REPLY NOK IS " s content
  bye_iff : (tcpProcessMsg (s ++ [0])).type = .bye ↔ ∃ name, IsByeLine "BYE FROM " s name
  reply_reported : ∀ content, IsReplyLine "REPLY OK IS " s content →
    tcpProcessMsg (s ++ [0]) = ⟨.reply, some (.actionSuccess content)⟩
  nreply_reported : ∀ content, IsReplyLine "REPLY NOK IS " s content →
    tcpProcessMsg (s ++ [0]) = ⟨.nreply, some (.actionFailure content)⟩
  long_content : ∀ word content, s = word ++ (content ++ crlfBytes) →
    SameLetters word (ascii "REPLY OK IS ") ∨ SameLetters word (ascii "REPLY NOK IS ") →
    60000 < content.length → (tcpProcessMsg (s ++ [0])).type = .error
  long_name : ∀ word name, s = word ++ (name ++ crlfBytes) →
    SameLetters word (ascii "BYE FROM ") → 20 < name.length →
    (tcpProcessMsg (s ++ [0])).type = .error
  dispatch : ∀ entry ∈ msgTemp, ∀ word rest, s = word ++ rest →
    SameLetters word (keyword entry) → tcpProcessMsg (s ++ [0]) = entry.parseFunc s

/-- A parser that accepts lines of one shape only refuses a line whose part is too long. -/
theorem refused_of_long {entry : TcpMsgTemp} {limit : Nat} (hnul : (0 : UInt8) ∉ s)
    (h : entry ∈ msgTemp)
    (hshape : (entry.parseFunc s).type = entry.type → ∃ word part,
      SameLetters word (keyword entry) ∧ part.length ≤ limit ∧ s = word ++ (part ++ crlfBytes))
    {word part : Bytes} (hs : s = word ++ (part ++ crlfBytes))
    (hword : SameLetters word (keyword entry)) (hlong : limit < part.length) :
    (tcpProcessMsg (s ++ [0])).type = .error := by
  rw [tcpProcessMsg_of_keyword hnul h word _ hs hword]
  refine (parseFunc_type h s).resolve_left fun htype => ?_
  obtain ⟨word', part', hword', hle, hs'⟩ := hshape htype
  have hlen : word.length = word'.length := hword.length_eq.trans hword'.length_eq.symm
  obtain ⟨-, hrest⟩ := List.append_inj (hs.symm.trans hs') hlen
  have hpart : part = part' := List.append_cancel_right hrest
  rw [hpart] at hlong
  omega

/-- What is the same for the two replies. -/
theorem reply_exact {type : MsgType} {words : String} {line : Bytes → Output} {temp : Bytes}
    {len : Nat} (hnul : (0 : UInt8) ∉ s) (hframe : IsFrame crlfBytes s)
    (h : ⟨type, temp, len, parseReplyAs type words line⟩ ∈ msgTemp)
    (hwords : keyword ⟨type, temp, len, parseReplyAs type words line⟩ = ascii words)
    (htype : type ≠ .error) :
    ((tcpProcessMsg (s ++ [0])).type = type ↔ ∃ content, IsReplyLine words s content) ∧
      (∀ content, IsReplyLine words s content →
        tcpProcessMsg (s ++ [0]) = ⟨type, some (line content)⟩) ∧
      ∀ word content, s = word ++ (content ++ crlfBytes) → SameLetters word (ascii words) →
        60000 < content.length → (tcpProcessMsg (s ++ [0])).type = .error := by
  have hdispatch := tcpProcessMsg_of_keyword hnul h
  rw [hwords] at hdispatch
  have hline : ∀ content, IsReplyLine words s content →
      tcpProcessMsg (s ++ [0]) = ⟨type, some (line content)⟩ := by
    intro content hs
    have hparse : parseReplyAs type words line s = _ := parseReplyAs_of_line hframe hs
    obtain ⟨word, hletters, -, rfl⟩ := hs
    rw [hdispatch word _ rfl hletters]
    exact hparse
  refine ⟨⟨fun hp => ?_, fun ⟨content, hs⟩ => by rw [hline content hs]⟩, hline, ?_⟩
  · have hiff := tcpProcessMsg_type_iff hnul h htype fun hp => by
      obtain ⟨content, word, hletters, -, rfl⟩ := parseReplyAs_sound hframe htype hp
      exact ⟨word, _, rfl, hwords ▸ hletters⟩
    exact parseReplyAs_sound hframe htype (hiff.mp hp)
  · intro word content hs hword hlong
    refine refused_of_long hnul h (fun hp => ?_) hs (hwords ▸ hword) hlong
    obtain ⟨part, word', hletters, hpart, rfl⟩ := parseReplyAs_sound hframe htype hp
    exact ⟨word', part, hwords ▸ hletters, hpart.length_le, rfl⟩

/-- REPLY, NREPLY and BYE are accepted exactly by their grammar. -/
theorem tcp_reply_bye_exact (s : Bytes) (hnul : (0 : UInt8) ∉ s)
    (hframe : IsFrame crlfBytes s) : ReplyByeExact s := by
  have hreply : ⟨.reply, ascii "REPLY OK IS %s\r\n", 7, parseReply⟩ ∈ msgTemp := by
    simp [msgTemp]
  have hnreply : ⟨.nreply, ascii "REPLY NOK IS %s\r\n", 7, parseNreply⟩ ∈ msgTemp := by
    simp [msgTemp]
  have hbye : ⟨.bye, ascii "BYE FROM %s\r\n", 3, parseBye⟩ ∈ msgTemp := by simp [msgTemp]
  have hbyeLine : (parseBye s).type = .bye → ∃ word name, SameLetters word (ascii "BYE FROM ") ∧
      name.length ≤ 20 ∧ s = word ++ (name ++ crlfBytes) := by
    intro hp
    obtain ⟨name, word, hletters, hname, hs⟩ := (parseBye_iff hframe).mp hp
    exact ⟨word, name, hletters, hname.length_le, hs⟩
  obtain ⟨hreplyIff, hreplyReported, hreplyLong⟩ :=
    reply_exact hnul hframe hreply rfl (by decide)
  obtain ⟨hnreplyIff, hnreplyReported, hnreplyLong⟩ :=
    reply_exact hnul hframe hnreply rfl (by decide)
  refine ⟨hreplyIff, hnreplyIff, ?_, hreplyReported, hnreplyReported, ?_, ?_, ?_⟩
  · rw [← parseBye_iff hframe]
    refine tcpProcessMsg_type_iff hnul hbye (by decide) fun hp => ?_
    obtain ⟨word, name, hletters, -, hs⟩ := hbyeLine hp
    exact ⟨word, _, hs, hletters⟩
  · rintro word content hs (hword | hword) hlong
    · exact hreplyLong word content hs hword hlong
    · exact hnreplyLong word content hs hword hlong
  · intro word name hs hword hlong
    exact refused_of_long hnul hbye hbyeLine hs hword hlong
  · intro entry hentry word rest hs hword
    exact tcpProcessMsg_of_keyword hnul hentry word rest hs hword

/-- The line "Reply OK is ok", in mixed case. -/
theorem tcp_reply_bye_exact_reply :
    tcpProcessMsg (ascii "Reply OK is ok\r\n" ++ [0]) =
      ⟨.reply, some (.actionSuccess (ascii "ok"))⟩ :=
  (tcp_reply_bye_exact (ascii "Reply OK is ok\r\n") (by decide)
    (by unfold IsFrame; decide)).reply_reported _
    ⟨ascii "Reply OK is ", by decide, contentPart_iff.mp (by decide), rfl⟩

end IpkChat.Tcp
