/-
  Session/Classification.lean --- what parse_user_input makes of a line.

  The tokens of a line go into an array of five slots, and the commands read their
  arguments from it.  `parseLineChecked` runs the parser with every slot that is read or
  written tested: it gives `none` outside the array.  It always has a value, so the list
  of tokens that parse_user_input works on stands for the array.

  Every line is one of four: a complete and valid /auth, /join or /rename, or the
  content of a message; anything else is refused or is the help, and changes nothing.
-/
import IpkChat.Foundation.Guarded
import IpkChat.Session.Identity

set_option autoImplicit false

namespace IpkChat.Session

open IpkChat.Foundation IpkChat.Core

/-! ## The token array -/

/-- The array tokens; a slot is null until a token is stored in it. -/
abbrev Slots : Type := List (Option Bytes)

/-- The array `char *tokens[5] = {0}`. -/
def emptySlots : Slots := List.replicate 5 none

/-- The loop that stores the tokens strtok returns one after the other. -/
def storeTokens : Slots → Nat → List Bytes → Option Slots
  | slots, _, [] => some slots
  | slots, count, token :: rest =>
      if count < 5 then
        if count < slots.length then storeTokens (slots.set count token) (count + 1) rest
        else none
      else some slots

/-- parse_user_input on the array. -/
def parseLineChecked (w : World) (bytes : Bytes) : Option (World × MsgType) := do
  let line := stripNewline bytes
  let tokens ← storeTokens emptySlots 0 (strtok line)
  parseLineWith (fun i => tokens[i]?) w line

/-- An array that starts with these tokens and is null after them. -/
def slotsOf (tokens : List Bytes) (size : Nat) : Slots :=
  tokens.map some ++ List.replicate (size - tokens.length) none

theorem storeTokens_eq {stored : List Bytes} (hstored : stored.length ≤ 5) (tokens : List Bytes) :
    storeTokens (slotsOf stored 5) stored.length tokens =
      some (slotsOf ((stored ++ tokens).take 5) 5) := by
  induction tokens generalizing stored with
  | nil =>
      rw [List.append_nil, List.take_of_length_le hstored]
      rfl
  | cons token rest ih =>
      have hsize : (slotsOf stored 5).length = 5 := by
        simp only [slotsOf, List.length_append, List.length_map, List.length_replicate]
        omega
      unfold storeTokens
      split
      · rename_i hlt
        have hset : (slotsOf stored 5).set stored.length (some token) =
            slotsOf (stored ++ [token]) 5 := by
          have hroom : 5 - stored.length = (5 - (stored.length + 1)) + 1 := by omega
          rw [slotsOf, hroom, List.replicate_succ, List.set_append_right _ _ (by simp)]
          simp [slotsOf]
        have hnext := @ih (stored ++ [token]) (by simpa using hlt)
        rw [List.length_append, List.length_singleton, List.append_assoc] at hnext
        rw [hsize, if_pos hlt, hset, hnext]
        rfl
      · rename_i hfull
        have hlen : stored.length = 5 := by omega
        rw [List.take_append_of_le_length (by omega), ← hlen, List.take_length]

/-- The slots of the array hold what the list of tokens has. -/
theorem getElem?_slotsOf {tokens : List Bytes} {size i : Nat} (hi : i < size) :
    (slotsOf tokens size)[i]? = some tokens[i]? := by
  unfold slotsOf
  by_cases hlt : i < tokens.length
  · rw [List.getElem?_append_left (by simpa using hlt), List.getElem?_map,
      List.getElem?_eq_getElem hlt]
    rfl
  · have hle : tokens.length ≤ i := Nat.le_of_not_lt hlt
    rw [List.getElem?_append_right (by simpa using hle), List.length_map,
      List.getElem?_eq_none hle, List.getElem?_replicate_of_lt (by omega)]

/-- A command reads its arguments from the four slots that follow its name, and no
others. -/
structure ReadsArgs (checked : Command Option) (entry : Command Id) : Prop where
  cmd_eq : checked.cmd = entry.cmd
  parse_eq : ∀ (w : World) (slot : Nat → Option (Option Bytes)) (arg : Nat → Option Bytes),
    (∀ i < 4, slot i = some (arg i)) → checked.parse w slot = some (entry.parse w arg)

theorem readsArgs_auth :
    ReadsArgs ⟨ascii "/auth", parseAuthWith⟩ ⟨ascii "/auth", parseAuthWith⟩ where
  cmd_eq := rfl
  parse_eq w slot arg h := by
    simp only [parseAuthWith, h 0 (by decide), h 1 (by decide), h 2 (by decide),
      h 3 (by decide), Option.bind_eq_bind, Option.bind_some]
    cases arg 0 with
    | none => rfl
    | some username =>
        cases arg 1 with
        | none => rfl
        | some secret =>
            cases arg 2 with
            | none => rfl
            | some displayName =>
                cases arg 3 with
                | none => exact (apply_ite some _ _ _).symm
                | some _ => rfl

theorem readsArgs_join :
    ReadsArgs ⟨ascii "/join", parseJoinWith⟩ ⟨ascii "/join", parseJoinWith⟩ where
  cmd_eq := rfl
  parse_eq w slot arg h := by
    simp only [parseJoinWith, h 0 (by decide), h 1 (by decide), Option.bind_eq_bind,
      Option.bind_some]
    cases arg 0 with
    | none => rfl
    | some channelID =>
        cases arg 1 with
        | none => exact (apply_ite some _ _ _).symm
        | some _ => rfl

theorem readsArgs_rename :
    ReadsArgs ⟨ascii "/rename", parseRenameWith⟩ ⟨ascii "/rename", parseRenameWith⟩ where
  cmd_eq := rfl
  parse_eq w slot arg h := by
    simp only [parseRenameWith, h 0 (by decide), h 1 (by decide), Option.bind_eq_bind,
      Option.bind_some]
    cases arg 0 with
    | none => rfl
    | some displayName =>
        cases arg 1 with
        | none => exact (apply_ite some _ _ _).symm
        | some _ => rfl

theorem readsArgs_help :
    ReadsArgs ⟨ascii "/help", parseHelpWith⟩ ⟨ascii "/help", parseHelpWith⟩ where
  cmd_eq := rfl
  parse_eq w slot arg h := by
    simp only [parseHelpWith, h 0 (by decide), Option.bind_eq_bind, Option.bind_some]
    cases arg 0 with
    | none => rfl
    | some _ => rfl

theorem readsArgs_command : List.Forall₂ ReadsArgs (command Option) (command Id) :=
  .cons readsArgs_auth <| .cons readsArgs_join <| .cons readsArgs_rename <|
    .cons readsArgs_help .nil

/-- A line reads only the five slots of the array. -/
theorem parseLineWith_eq {slot : Nat → Option (Option Bytes)} {token : Nat → Option Bytes}
    (h : ∀ i < 5, slot i = some (token i)) (w : World) (line : Bytes) :
    parseLineWith slot w line = some (Id.run (parseLineWith token w line)) := by
  unfold parseLineWith
  rw [h 0 (by decide), Option.bind_eq_bind, Option.bind_some, Id.run_bind]
  cases token 0 with
  | none => rfl
  | some first =>
      simp only [Id.run]
      split
      · rcases find?_forall₂ (p := fun entry => first == entry.cmd)
          (q := fun entry => first == entry.cmd) readsArgs_command
          (fun _ _ h => by rw [h.cmd_eq]) with ⟨hnone, hnone'⟩ | ⟨checked, entry, hc, he, hread⟩
        · rw [hnone, hnone']
          rfl
        · rw [hc, he]
          exact hread.parse_eq w _ _ fun i hi => h (i + 1) (by omega)
      · rfl

/-- No slot outside the array is read or written, whatever the line. -/
theorem parseLineChecked_eq (w : World) (bytes : Bytes) :
    parseLineChecked w bytes = some (parseUserInput w (.line bytes)) := by
  have hstore : storeTokens emptySlots 0 (strtok (stripNewline bytes)) =
      some (slotsOf (tokensOf bytes) 5) := @storeTokens_eq [] (Nat.zero_le 5) _
  simp only [parseLineChecked, hstore, Option.bind_eq_bind, Option.bind_some]
  exact parseLineWith_eq (fun i hi => getElem?_slotsOf hi) w _

/-! ## Kinds of lines -/

/-- A complete and valid /rename. -/
structure RenameLine (line displayName : Bytes) : Prop where
  tokens : strtok (stripNewline line) = [ascii "/rename", displayName]
  displayName_valid : isValidPrintable displayName maxNameSize = true

/-- The content of a message: no command, and printable characters only. -/
structure ContentLine (line : Bytes) : Prop where
  not_command : ∀ token ∈ (strtok (stripNewline line)).head?, token.head? ≠ some 0x2F
  length_pos : 1 ≤ (stripNewline line).length
  length_le : (stripNewline line).length ≤ bufferSize
  printable : ∀ c ∈ stripNewline line, 0x20 ≤ c ∧ c ≤ 0x7E

/-- The line is neither a /auth, nor a /join, nor the content of a message. -/
structure Idle (line : Bytes) : Prop extends Plain line where
  not_content : ¬ ContentLine line

/-- What is returned for a line, and the client that is left. -/
inductive Kind (c : Client) (line : Bytes) : MsgType → Client → Prop where
  | auth (username secret displayName : Bytes)
      (hline : AuthLine line username secret displayName) :
      Kind c line .auth { c with
        username := username, secret := secret, displayName := displayName }
  | join (channelID : Bytes) (hline : JoinLine line channelID) :
      Kind c line .join { c with channelID := channelID }
  | msg (hline : ContentLine line) :
      Kind c line .msg { c with msgContent := (stripNewline line).take maxMsgSize }
  | rename (displayName : Bytes) (hline : RenameLine line displayName) :
      Kind c line .local_ { c with displayName := displayName }
  | other (hline : Idle line) (hrename : ∀ displayName, ¬ RenameLine line displayName) :
      Kind c line .local_ c

/-- The line is read as what it is, and only what it sets is set. -/
def Classified (w : World) (line : Bytes) (result : World × MsgType) : Prop :=
  Kind w.client line result.2 result.1.client

section Kinds

variable {w : World} {line : Bytes}

theorem RenameLine.tokensOf_eq {n : Bytes} (h : RenameLine line n) :
    tokensOf line = [ascii "/rename", n] := by
  rw [tokensOf, h.tokens]
  rfl

/-- No character of a line is a newline. -/
theorem newline_not_mem (line : Bytes) : (0x0A : UInt8) ∉ stripNewline line := by
  intro hmem
  have hall : (stripNewline line).all (· != 0x0A) = true := List.all_takeWhile
  exact absurd (List.all_eq_true.mp hall 0x0A hmem) (by decide)

/-- The first token decides whether a line is a command. -/
theorem head_strtok (line : Bytes) :
    (strtok (stripNewline line)).head? = (tokensOf line).head? := by
  unfold tokensOf
  cases strtok (stripNewline line) with
  | nil => rfl
  | cons token rest => rfl

theorem content_valid_iff (line : Bytes) :
    isValidMsgContent (stripNewline line) bufferSize = true ↔
      (1 ≤ (stripNewline line).length ∧ (stripNewline line).length ≤ bufferSize) ∧
        ∀ c ∈ stripNewline line, 0x20 ≤ c ∧ c ≤ 0x7E := by
  rw [isValidMsgContent_iff]
  constructor
  · intro h
    refine ⟨h.1, ?_⟩
    intro c hc
    apply (h.2 c hc).resolve_left
    intro hlf
    exact newline_not_mem line (hlf ▸ hc)
  · intro h
    exact ⟨h.1, fun c hc => Or.inr (h.2 c hc)⟩

/-- A line that is no command is the content of a message or is refused. -/
theorem classified_content (hcommand : ∀ token ∈ (tokensOf line).head?, token.head? ≠ some 0x2F) :
    Classified w line (parseContent w (stripNewline line)) := by
  have hplain := plain_of_content hcommand
  have hrename : ∀ n, ¬ RenameLine line n := by
    intro n hline
    rw [hline.tokensOf_eq] at hcommand
    exact hcommand _ rfl rfl
  rw [← head_strtok] at hcommand
  unfold parseContent
  split
  · rename_i hinvalid
    apply Kind.other
    · refine ⟨hplain, ?_⟩
      intro hline
      have hvalid := (content_valid_iff line).mpr ⟨⟨hline.length_pos, hline.length_le⟩,
        hline.printable⟩
      rw [hvalid] at hinvalid
      cases hinvalid
    · exact hrename
  · rename_i hvalid
    rw [Bool.not_eq_true, Bool.not_eq_false'] at hvalid
    obtain ⟨⟨hpos, hle⟩, hprintable⟩ := (content_valid_iff line).mp hvalid
    have hline : ContentLine line := ⟨hcommand, hpos, hle, hprintable⟩
    split
    rename_i w' text heq
    split at heq
    · obtain ⟨rfl, rfl⟩ := Prod.mk.inj heq
      have hcopy : copy ((stripNewline line).take maxMsgSize) (maxMsgSize + zeroByte) =
          (stripNewline line).take maxMsgSize := by
        rw [copy, List.take_take]
        rfl
      rw [hcopy]
      exact Kind.msg hline
    · obtain ⟨rfl, rfl⟩ := Prod.mk.inj heq
      exact Kind.msg hline

section Commands

variable {token : Bytes} {args : List Bytes}

theorem not_contentLine_of_command (h : tokensOf line = token :: args)
    (hslash : token.head? = some 0x2F) : ¬ ContentLine line := by
  intro hline
  have hhead := hline.not_command token
  rw [head_strtok, h] at hhead
  exact hhead rfl hslash

theorem not_renameLine_of_cons (h : tokensOf line = token :: args) (hne : token ≠ ascii "/rename")
    (n : Bytes) : ¬ RenameLine line n := by
  intro hline
  rw [hline.tokensOf_eq] at h
  exact hne (List.cons.inj h).1.symm

theorem renameLine_iff (h : tokensOf line = ascii "/rename" :: args) {n : Bytes} :
    RenameLine line n ↔ args = [n] ∧ isValidPrintable n maxNameSize = true := by
  constructor
  · intro hline
    rw [hline.tokensOf_eq] at h
    exact ⟨(List.cons.inj h).2.symm, hline.displayName_valid⟩
  · intro ⟨hargs, hn⟩
    rw [hargs] at h
    exact ⟨strtok_eq_of_tokensOf h (by simp), hn⟩

theorem classified_auth (h : tokensOf line = ascii "/auth" :: args) :
    Classified w line (parseAuth w args) := by
  obtain ⟨u, s, n, hline, heq⟩ | ⟨hplain, heq⟩ := parseAuth_cases (w := w) h
  · rw [heq]
    exact Kind.auth u s n hline
  · rw [heq]
    exact Kind.other ⟨hplain, not_contentLine_of_command h rfl⟩
      (not_renameLine_of_cons h (by decide))

theorem classified_join (h : tokensOf line = ascii "/join" :: args) :
    Classified w line (parseJoin w args) := by
  obtain ⟨ch, hline, heq⟩ | ⟨hplain, heq⟩ := parseJoin_cases (w := w) h
  · rw [heq]
    exact Kind.join ch hline
  · rw [heq]
    exact Kind.other ⟨hplain, not_contentLine_of_command h rfl⟩
      (not_renameLine_of_cons h (by decide))

theorem classified_rename (h : tokensOf line = ascii "/rename" :: args) :
    Classified w line (parseRename w args) := by
  have hidle : Idle line :=
    ⟨plain_of_cons h (by decide) (by decide), not_contentLine_of_command h rfl⟩
  rw [parseRename_eq]
  split
  · rename_i displayName
    split
    · rename_i hvalid
      simp only [copy_valid hvalid]
      exact Kind.rename displayName ((renameLine_iff h).mpr ⟨rfl, hvalid⟩)
    · rename_i hinvalid
      apply Kind.other hidle
      intro n hline
      obtain ⟨hargs, hvalid⟩ := (renameLine_iff h).mp hline
      obtain rfl : displayName = n := (List.cons.inj hargs).1
      exact hinvalid hvalid
  · rename_i hcount
    apply Kind.other hidle
    intro n hline
    exact hcount n ((renameLine_iff h).mp hline).1

theorem classified_help (h : tokensOf line = ascii "/help" :: args) :
    Classified w line (parseHelp w args) := by
  have hother : Kind w.client line .local_ w.client := by
    apply Kind.other
    · exact ⟨plain_of_cons h (by decide) (by decide), not_contentLine_of_command h rfl⟩
    · exact not_renameLine_of_cons h (by decide)
  rw [parseHelp_eq]
  split
  · exact hother
  · exact hother

end Commands

theorem parseUserInput_classified (w : World) (line : Bytes) :
    Classified w line (parseUserInput w (.line line)) := by
  have hdispatched := parseUserInput_dispatched w line
  generalize parseUserInput w (.line line) = result at hdispatched ⊢
  cases hdispatched with
  | auth args h => exact classified_auth h
  | join args h => exact classified_join h
  | rename args h => exact classified_rename h
  | help args h => exact classified_help h
  | content h => exact classified_content h
  | unknown token args h hslash hne =>
      apply Kind.other
      · exact ⟨plain_of_cons h (hne ⟨ascii "/auth", parseAuthWith⟩ (by simp [command]))
          (hne ⟨ascii "/join", parseJoinWith⟩ (by simp [command])),
          not_contentLine_of_command h hslash⟩
      · exact not_renameLine_of_cons h (hne ⟨ascii "/rename", parseRenameWith⟩ (by simp [command]))

/-! ## The classification -/

section Exclusive

variable {c c' : Client} {type : MsgType}

theorem Kind.of_authLine (hkind : Kind c line type c') {u s n : Bytes}
    (hline : AuthLine line u s n) :
    type = .auth ∧ c' = { c with username := u, secret := s, displayName := n } := by
  have htokens := hline.tokensOf_eq
  cases hkind with
  | auth u' s' n' hline' =>
      have heq := hline'.tokensOf_eq.symm.trans htokens
      simp only [List.cons.injEq, true_and, and_true] at heq
      obtain ⟨rfl, rfl, rfl⟩ := heq
      exact ⟨rfl, rfl⟩
  | join ch hline' => exact absurd hline' (not_joinLine_of_auth htokens ch)
  | msg hline' => exact absurd hline' (not_contentLine_of_command htokens rfl)
  | rename n' hline' => exact absurd hline' (not_renameLine_of_cons htokens (by decide) n')
  | other hidle => exact absurd hline (hidle.not_auth u s n)

theorem Kind.of_joinLine (hkind : Kind c line type c') {ch : Bytes} (hline : JoinLine line ch) :
    type = .join ∧ c' = { c with channelID := ch } := by
  have htokens := hline.tokensOf_eq
  cases hkind with
  | auth u s n hline' => exact absurd hline' (not_authLine_of_join htokens u s n)
  | join ch' hline' =>
      have heq := hline'.tokensOf_eq.symm.trans htokens
      simp only [List.cons.injEq, true_and, and_true] at heq
      obtain rfl := heq
      exact ⟨rfl, rfl⟩
  | msg hline' => exact absurd hline' (not_contentLine_of_command htokens rfl)
  | rename n hline' => exact absurd hline' (not_renameLine_of_cons htokens (by decide) n)
  | other hidle => exact absurd hline (hidle.not_join ch)

theorem Kind.of_contentLine (hkind : Kind c line type c') (hline : ContentLine line) :
    type = .msg ∧ c' = { c with msgContent := (stripNewline line).take maxMsgSize } := by
  cases hkind with
  | auth u s n hline' =>
      exact absurd hline (not_contentLine_of_command hline'.tokensOf_eq rfl)
  | join ch hline' => exact absurd hline (not_contentLine_of_command hline'.tokensOf_eq rfl)
  | msg _ => exact ⟨rfl, rfl⟩
  | rename n hline' => exact absurd hline (not_contentLine_of_command hline'.tokensOf_eq rfl)
  | other hidle => exact absurd hline hidle.not_content

theorem Kind.of_renameLine (hkind : Kind c line type c') {n : Bytes}
    (hline : RenameLine line n) : c' = { c with displayName := n } := by
  have htokens := hline.tokensOf_eq
  cases hkind with
  | auth u s n' hline' =>
      exact absurd hline (not_renameLine_of_cons hline'.tokensOf_eq (by decide) n)
  | join ch hline' =>
      exact absurd hline (not_renameLine_of_cons hline'.tokensOf_eq (by decide) n)
  | msg hline' => exact absurd hline' (not_contentLine_of_command htokens rfl)
  | rename n' hline' =>
      have heq := hline'.tokensOf_eq.symm.trans htokens
      simp only [List.cons.injEq, true_and, and_true] at heq
      rw [heq]
  | other _ hrename => exact absurd hline (hrename n)

theorem Kind.of_idle (hkind : Kind c line type c') (hline : Idle line) :
    type = .local_ ∧ ((∀ n, ¬ RenameLine line n) → c' = c) := by
  cases hkind with
  | auth u s n hline' => exact absurd hline' (hline.not_auth u s n)
  | join ch hline' => exact absurd hline' (hline.not_join ch)
  | msg hline' => exact absurd hline' hline.not_content
  | rename n hline' => exact ⟨rfl, fun hrename => absurd hline' (hrename n)⟩
  | other => exact ⟨rfl, fun _ => rfl⟩

end Exclusive

/-- The type returned for a line, exactly, and the client fields that it sets. -/
structure ReadExactly (c : Client) (line : Bytes) (type : MsgType) (c' : Client) : Prop where
  auth_iff : type = .auth ↔
    ∃ username secret displayName, AuthLine line username secret displayName
  auth_sets : ∀ username secret displayName, AuthLine line username secret displayName →
    c' = { c with username := username, secret := secret, displayName := displayName }
  join_iff : type = .join ↔ ∃ channelID, JoinLine line channelID
  join_sets : ∀ channelID, JoinLine line channelID → c' = { c with channelID := channelID }
  msg_iff : type = .msg ↔ ContentLine line
  msg_sets : ContentLine line → c' = { c with msgContent := (stripNewline line).take maxMsgSize }
  local_iff : type = .local_ ↔ Idle line
  rename_sets : ∀ displayName, RenameLine line displayName →
    c' = { c with displayName := displayName }
  kept : type = .local_ → (∀ displayName, ¬ RenameLine line displayName) → c' = c

/-- A valid /rename is none of the other kinds. -/
theorem RenameLine.idle {n : Bytes} (h : RenameLine line n) : Idle line :=
  ⟨plain_of_cons h.tokensOf_eq (by decide) (by decide),
    not_contentLine_of_command h.tokensOf_eq rfl⟩

/-- For every line, with any number of tokens and any spacing: the type, the fields that
are set, and the token array. -/
theorem user_input_classified (w : World) (line : Bytes) :
    ReadExactly w.client line (parseUserInput w (.line line)).2
        (parseUserInput w (.line line)).1.client ∧
      parseLineChecked w line = some (parseUserInput w (.line line)) := by
  have hkind : Kind w.client line _ _ := parseUserInput_classified w line
  refine ⟨?_, parseLineChecked_eq w line⟩
  generalize (parseUserInput w (.line line)).2 = type at hkind ⊢
  generalize (parseUserInput w (.line line)).1.client = c' at hkind ⊢
  constructor
  case auth_iff =>
    constructor
    · rintro rfl
      cases hkind with
      | auth u s n hline => exact ⟨u, s, n, hline⟩
    · rintro ⟨u, s, n, hline⟩
      exact (hkind.of_authLine hline).1
  case auth_sets => exact fun u s n hline => (hkind.of_authLine hline).2
  case join_iff =>
    constructor
    · rintro rfl
      cases hkind with
      | join ch hline => exact ⟨ch, hline⟩
    · rintro ⟨ch, hline⟩
      exact (hkind.of_joinLine hline).1
  case join_sets => exact fun ch hline => (hkind.of_joinLine hline).2
  case msg_iff =>
    constructor
    · rintro rfl
      cases hkind with
      | msg hline => exact hline
    · intro hline
      exact (hkind.of_contentLine hline).1
  case msg_sets => exact fun hline => (hkind.of_contentLine hline).2
  case local_iff =>
    constructor
    · rintro rfl
      cases hkind with
      | rename n hline => exact hline.idle
      | other hline => exact hline
    · intro hline
      exact (hkind.of_idle hline).1
  case rename_sets => exact fun n hline => hkind.of_renameLine hline
  case kept =>
    rintro rfl hrename
    cases hkind with
    | rename n hline => exact absurd hline (hrename n)
    | other => rfl

end Kinds

end IpkChat.Session
