/-
  Session/Input.lean --- lib/input.h and src/input.c.

  Reading a line from standard input: a command, or the content of a message.
-/
import IpkChat.Core.World

set_option autoImplicit false

namespace IpkChat.Session

open IpkChat.Foundation IpkChat.Core

/-! ## Commands

The parsers are written over the way a slot of the array is read.  A slot without an
argument is a null pointer. -/

section Commands

variable {m : Type → Type} [Monad m]

/-- parse_auth with its reads. -/
def parseAuthWith (w : World) (arg : Nat → m (Option Bytes)) : m (World × MsgType) := do
  let refused := (w.print (.error "Invalid /auth"), .local_)
  let some username ← arg 0 | pure refused
  let some secret ← arg 1 | pure refused
  let some displayName ← arg 2 | pure refused
  let .none ← arg 3 | pure refused
  if isValidAlphanumUnderscore username maxNameSize &&
      isValidAlphanumUnderscore secret maxSecretSize && isValidPrintable displayName 20 then
    pure ({ w with client := { w.client with
      username := copy username (maxNameSize + zeroByte)
      secret := copy secret (maxSecretSize + zeroByte)
      displayName := copy displayName (maxNameSize + zeroByte) } }, .auth)
  else pure refused

/-- parse_join with its reads. -/
def parseJoinWith (w : World) (arg : Nat → m (Option Bytes)) : m (World × MsgType) := do
  let refused := (w.print (.error "Invalid /join"), .local_)
  let some channelID ← arg 0 | pure refused
  let .none ← arg 1 | pure refused
  if isValidAlphanumUnderscore channelID maxNameSize then
    pure ({ w with client := { w.client with
      channelID := copy channelID (maxNameSize + zeroByte) } }, .join)
  else pure refused

/-- parse_rename with its reads. -/
def parseRenameWith (w : World) (arg : Nat → m (Option Bytes)) : m (World × MsgType) := do
  let refused := (w.print (.error "Invalid /rename"), .local_)
  let some displayName ← arg 0 | pure refused
  let .none ← arg 1 | pure refused
  if isValidPrintable displayName maxNameSize then
    pure ({ w with client := { w.client with
      displayName := copy displayName (maxNameSize + zeroByte) } }, .local_)
  else pure refused

/-- parse_help with its reads. -/
def parseHelpWith (w : World) (arg : Nat → m (Option Bytes)) : m (World × MsgType) := do
  let .none ← arg 0 | pure (w.print (.error "Invalid /help"), .local_)
  pure (w.print .clientHelp, .local_)

/-- The structure command_t. -/
structure Command (m : Type → Type) where
  cmd : Bytes
  parse : World → (Nat → m (Option Bytes)) → m (World × MsgType)

/-- The table command. -/
def command (m : Type → Type) [Monad m] : List (Command m) :=
  [⟨ascii "/auth", parseAuthWith⟩, ⟨ascii "/join", parseJoinWith⟩,
   ⟨ascii "/rename", parseRenameWith⟩, ⟨ascii "/help", parseHelpWith⟩]

end Commands

/-! ## Arguments in a list

The list holds the tokens after the command. -/

/-- parse_auth. -/
def parseAuth (w : World) (args : List Bytes) : World × MsgType :=
  Id.run (parseAuthWith w fun i => args[i]?)

/-- parse_join. -/
def parseJoin (w : World) (args : List Bytes) : World × MsgType :=
  Id.run (parseJoinWith w fun i => args[i]?)

/-- parse_rename. -/
def parseRename (w : World) (args : List Bytes) : World × MsgType :=
  Id.run (parseRenameWith w fun i => args[i]?)

/-- parse_help. -/
def parseHelp (w : World) (args : List Bytes) : World × MsgType :=
  Id.run (parseHelpWith w fun i => args[i]?)

theorem parseAuth_eq (w : World) (args : List Bytes) :
    parseAuth w args =
      match args with
      | [username, secret, displayName] =>
          if isValidAlphanumUnderscore username maxNameSize &&
              isValidAlphanumUnderscore secret maxSecretSize &&
              isValidPrintable displayName 20 then
            ({ w with client := { w.client with
                username := copy username (maxNameSize + zeroByte)
                secret := copy secret (maxSecretSize + zeroByte)
                displayName := copy displayName (maxNameSize + zeroByte) } }, .auth)
          else (w.print (.error "Invalid /auth"), .local_)
      | _ => (w.print (.error "Invalid /auth"), .local_) := by
  match args with
  | [] | [_] | [_, _] | [_, _, _] | _ :: _ :: _ :: _ :: _ => rfl

theorem parseJoin_eq (w : World) (args : List Bytes) :
    parseJoin w args =
      match args with
      | [channelID] =>
          if isValidAlphanumUnderscore channelID maxNameSize then
            ({ w with client := { w.client with
                channelID := copy channelID (maxNameSize + zeroByte) } }, .join)
          else (w.print (.error "Invalid /join"), .local_)
      | _ => (w.print (.error "Invalid /join"), .local_) := by
  match args with
  | [] | [_] | _ :: _ :: _ => rfl

theorem parseRename_eq (w : World) (args : List Bytes) :
    parseRename w args =
      match args with
      | [displayName] =>
          if isValidPrintable displayName maxNameSize then
            ({ w with client := { w.client with
                displayName := copy displayName (maxNameSize + zeroByte) } }, .local_)
          else (w.print (.error "Invalid /rename"), .local_)
      | _ => (w.print (.error "Invalid /rename"), .local_) := by
  match args with
  | [] | [_] | _ :: _ :: _ => rfl

theorem parseHelp_eq (w : World) (args : List Bytes) :
    parseHelp w args =
      match args with
      | [] => (w.print .clientHelp, .local_)
      | _ => (w.print (.error "Invalid /help"), .local_) := by
  match args with
  | [] | _ :: _ => rfl

/-! ## Lines -/

/-- The tokens that strtok finds between spaces. -/
def strtok (line : Bytes) : List Bytes := (line.splitOn 0x20).filter fun token => token ≠ []

/-- The line that was read, as a string without its newline. -/
def stripNewline (line : Bytes) : Bytes := (cstr line).takeWhile (· != 0x0A)

/-- Message content is cut at MAX_MSG_SIZE characters. -/
def parseContent (w : World) (line : Bytes) : World × MsgType :=
  if !isValidMsgContent line bufferSize then (w.print (.error "Invalid message"), .local_)
  else
    let (w, line) :=
      if line.length > maxMsgSize then
        (w.print (.error "Truncated message sent"), line.take maxMsgSize)
      else (w, line)
    ({ w with client := { w.client with
        msgContent := copy line (maxMsgSize + zeroByte) } }, .msg)

/-- The end of parse_user_input, over the way a token is read; `&tokens[1]` is the array
that a command reads its arguments from. -/
def parseLineWith {m : Type → Type} [Monad m] (token : Nat → m (Option Bytes)) (w : World)
    (line : Bytes) : m (World × MsgType) := do
  let some first ← token 0 | pure (parseContent w line)
  if first.head? = some 0x2F then
    match (command m).find? fun entry => first == entry.cmd with
    | some entry => entry.parse w fun i => token (i + 1)
    | none => pure (w.print (.error "Invalid command"), .local_)
  else pure (parseContent w line)

/-- parse_user_input. -/
def parseUserInput (w : World) (input : Getline) : World × MsgType :=
  match input with
  | .eof => ({ w with interrupt := true }, .local_)
  | .failed => (w, .error)
  | .line bytes =>
      let line := stripNewline bytes
      let tokens := (strtok line).take 5
      Id.run (parseLineWith (fun i => tokens[i]?) w line)

/-- By the first token. -/
theorem parseUserInput_line (w : World) (bytes : Bytes) :
    parseUserInput w (.line bytes) =
      match (strtok (stripNewline bytes)).take 5 with
      | [] => parseContent w (stripNewline bytes)
      | token :: args =>
          if token.head? = some 0x2F then
            match (command Id).find? fun entry => token == entry.cmd with
            | some entry => entry.parse w fun i => args[i]?
            | none => (w.print (.error "Invalid command"), .local_)
          else parseContent w (stripNewline bytes) := by
  simp only [parseUserInput]
  rcases (strtok (stripNewline bytes)).take 5 with _ | ⟨token, args⟩
  · rfl
  · have hfirst : Id.run ((token :: args)[0]? : Id (Option Bytes)) = some token := rfl
    rw [parseLineWith, Id.run_bind, hfirst]
    simp only [List.getElem?_cons_succ]
    split
    · split
      · rename_i hfound
        rw [hfound]
        rfl
      · rename_i hnone
        rw [hnone]
        rfl
    · rfl

/-! ## By the first token -/

/-- The tokens that parse_user_input keeps. -/
def tokensOf (line : Bytes) : List Bytes := (strtok (stripNewline line)).take 5

/-- What parse_user_input does with a line, by its first token. -/
inductive Dispatched (w : World) (line : Bytes) : World × MsgType → Prop where
  | auth (args : List Bytes) (h : tokensOf line = ascii "/auth" :: args) :
      Dispatched w line (parseAuth w args)
  | join (args : List Bytes) (h : tokensOf line = ascii "/join" :: args) :
      Dispatched w line (parseJoin w args)
  | rename (args : List Bytes) (h : tokensOf line = ascii "/rename" :: args) :
      Dispatched w line (parseRename w args)
  | help (args : List Bytes) (h : tokensOf line = ascii "/help" :: args) :
      Dispatched w line (parseHelp w args)
  | unknown (token : Bytes) (args : List Bytes) (h : tokensOf line = token :: args)
      (hslash : token.head? = some 0x2F) (hne : ∀ entry ∈ command Id, token ≠ entry.cmd) :
      Dispatched w line (w.print (.error "Invalid command"), .local_)
  | content (h : ∀ token ∈ (tokensOf line).head?, token.head? ≠ some 0x2F) :
      Dispatched w line (parseContent w (stripNewline line))

theorem parseUserInput_dispatched (w : World) (line : Bytes) :
    Dispatched w line (parseUserInput w (.line line)) := by
  rw [parseUserInput_line, ← tokensOf]
  cases htokens : tokensOf line with
  | nil =>
      apply Dispatched.content
      rw [htokens]
      intro token htoken
      cases htoken
  | cons token args =>
      simp only
      split
      · rename_i hslash
        split
        · rename_i entry hfind
          have hentry := List.mem_of_find?_eq_some hfind
          have hcmd : token = entry.cmd := by simpa using List.find?_some hfind
          subst hcmd
          simp only [command, List.mem_cons, List.not_mem_nil, or_false] at hentry
          rcases hentry with rfl | rfl | rfl | rfl
          · exact .auth args htokens
          · exact .join args htokens
          · exact .rename args htokens
          · exact .help args htokens
        · rename_i hfind
          have hne : ∀ entry ∈ command Id, token ≠ entry.cmd := by
            simpa using List.find?_eq_none.mp hfind
          exact .unknown token args htokens hslash hne
      · rename_i hslash
        apply Dispatched.content
        rw [htokens]
        intro first hfirst
        obtain rfl : token = first := Option.some.inj hfirst
        exact hslash

/-! ## What reading a line may change -/

/-- The client, the interrupt flag, and what was printed. -/
def InputStep (w w' : World) : Prop :=
  ∃ (client : Client) (interrupt : Bool) (printed : List Output), w' = { w with
    client := client, interrupt := interrupt, trace := w.trace ++ printed.map Event.print }

theorem inputStep_client (w : World) (client : Client) : InputStep w { w with client := client } :=
  ⟨client, w.interrupt, [], by simp⟩

theorem inputStep_print (w : World) (o : Output) : InputStep w (w.print o) :=
  ⟨w.client, w.interrupt, [o], rfl⟩

theorem inputStep_parseContent (w : World) (line : Bytes) :
    InputStep w (parseContent w line).1 := by
  simp only [parseContent]
  split
  · exact inputStep_print w _
  · split
    · exact ⟨_, w.interrupt, [.error "Truncated message sent"], rfl⟩
    · exact inputStep_client w _

theorem inputStep_parseAuth (w : World) (args : List Bytes) :
    InputStep w (parseAuth w args).1 := by
  rw [parseAuth_eq]
  split
  · split
    · exact inputStep_client w _
    · exact inputStep_print w _
  · exact inputStep_print w _

theorem inputStep_parseJoin (w : World) (args : List Bytes) :
    InputStep w (parseJoin w args).1 := by
  rw [parseJoin_eq]
  split
  · split
    · exact inputStep_client w _
    · exact inputStep_print w _
  · exact inputStep_print w _

theorem inputStep_parseRename (w : World) (args : List Bytes) :
    InputStep w (parseRename w args).1 := by
  rw [parseRename_eq]
  split
  · split
    · exact inputStep_client w _
    · exact inputStep_print w _
  · exact inputStep_print w _

theorem inputStep_parseHelp (w : World) (args : List Bytes) :
    InputStep w (parseHelp w args).1 := by
  rw [parseHelp_eq]
  split <;> exact inputStep_print w _

theorem inputStep_parseUserInput (w : World) (input : Getline) :
    InputStep w (parseUserInput w input).1 := by
  cases input with
  | eof => exact ⟨w.client, true, [], by simp [parseUserInput]⟩
  | failed => exact inputStep_client w w.client
  | line bytes =>
      have hdispatched := parseUserInput_dispatched w bytes
      generalize parseUserInput w (.line bytes) = result at hdispatched ⊢
      cases hdispatched with
      | auth args => exact inputStep_parseAuth w args
      | join args => exact inputStep_parseJoin w args
      | rename args => exact inputStep_parseRename w args
      | help args => exact inputStep_parseHelp w args
      | unknown => exact inputStep_print w _
      | content => exact inputStep_parseContent w _

end IpkChat.Session
