/-
  Core/Common.lean --- lib/common.h and src/common.c.

  The message types, the client record, the validators of message parts and the
  bounded string copy.  A character array that the program uses as a string is
  modelled by its C string, the bytes before the terminating zero; the validators
  take such a string.

  Text written to standard output is kept as an `Output`, one constructor for
  each format the program prints; `Output.text` gives the exact bytes.  Text
  written to standard error is not modelled.
-/
import IpkChat.Foundation.Bytes

set_option autoImplicit false

namespace IpkChat.Core

open IpkChat.Foundation

/-! ## Sizes -/

/-- MAX_NAME_SIZE. -/
def maxNameSize : Nat := 20
/-- MAX_SECRET_SIZE. -/
def maxSecretSize : Nat := 128
/-- MAX_MSG_SIZE. -/
def maxMsgSize : Nat := 60000
/-- ZERO_BYTE, the room for the end of a string. -/
def zeroByte : Nat := 1
/-- The value of UINT16_MAX. -/
def bufferSize : Nat := 65535

/-! ## Message types -/

/-- The enumeration msg_type_t. -/
inductive MsgType where
  | confirm
  | reply
  | auth
  | join
  | msg
  | nreply
  | error
  | local_
  | ping
  | err
  | bye
  deriving DecidableEq, Repr, Inhabited

/-- The value of the enumeration constant, which is also the type byte of a
UDP datagram. -/
def MsgType.code : MsgType → UInt8
  | .confirm => 0x00
  | .reply => 0x01
  | .auth => 0x02
  | .join => 0x03
  | .msg => 0x04
  | .nreply => 0x05
  | .error => 0x06
  | .local_ => 0x07
  | .ping => 0xFD
  | .err => 0xFE
  | .bye => 0xFF

theorem MsgType.code_injective : Function.Injective MsgType.code := by
  intro a b h
  cases a <;> cases b <;> first | rfl | exact absurd h (by decide)

/-- EXIT_SUCCESS and EXIT_FAILURE. -/
inductive ExitCode where
  | success
  | failure
  deriving DecidableEq, Repr, Inhabited

/-! ## Client -/

/-- An IPv4 socket address, as stored behind `ai_addr`. -/
structure SockAddr where
  ip : UInt32
  port : UInt16
  deriving DecidableEq, Repr, Inhabited

/-- The structure client_t.  `res` is the address that every sendto of the UDP
variant reads and every recvfrom overwrites. -/
structure Client where
  msgId : UInt16
  username : Bytes
  channelID : Bytes
  secret : Bytes
  displayName : Bytes
  msgContent : Bytes
  res : SockAddr
  deriving DecidableEq, Repr, Inhabited

/-! ## Standard output -/

/-- What the program prints, by format. -/
inductive Output where
  /-- the format "%s: %s\n" -/
  | chat (displayName content : Bytes)
  /-- the format "ERROR FROM %s: %s\n" -/
  | errorFrom (displayName content : Bytes)
  /-- the format "Action Success: %s\n" -/
  | actionSuccess (content : Bytes)
  /-- the format "Action Failure: %s\n" -/
  | actionFailure (content : Bytes)
  /-- the format "ERROR: Received an invalid message: %s" -/
  | invalidMessage (buffer : Bytes)
  /-- a fixed line "ERROR: ..." -/
  | error (text : String)
  /-- the list of client commands -/
  | clientHelp
  deriving DecidableEq, Repr

/-- The help text of print_client_help. -/
def clientHelpText : String :=
  "Client Commands:\n" ++
  "  /auth \x7bUsername\x7d \x7bSecret\x7d \x7bDisplayName\x7d\n" ++
  "      Authenticate with the server using the provided credentials.\n\n" ++
  "  /join \x7bChannelID\x7d\n" ++
  "      Join the specified chat channel.\n\n" ++
  "  /rename \x7bDisplayName\x7d\n" ++
  "      Change your local display name (used when sending messages).\n\n" ++
  "  /help\n" ++
  "      Show this help message.\n"

/-- The bytes written to standard output. -/
def Output.text : Output → Bytes
  | .chat name content => name ++ ascii ": " ++ content ++ ascii "\n"
  | .errorFrom name content => ascii "ERROR FROM " ++ name ++ ascii ": " ++ content ++ ascii "\n"
  | .actionSuccess content => ascii "Action Success: " ++ content ++ ascii "\n"
  | .actionFailure content => ascii "Action Failure: " ++ content ++ ascii "\n"
  | .invalidMessage buffer => ascii "ERROR: Received an invalid message: " ++ buffer
  | .error text => ascii "ERROR: " ++ ascii text ++ ascii "\n"
  | .clientHelp => ascii clientHelpText

/-- What a message parser yields: the type it returns, and what it prints. -/
structure Parsed where
  type : MsgType
  printed : Option Output
  deriving DecidableEq, Repr

/-- The result ERROR with its line. -/
def Parsed.refuse (text : String) : Parsed := ⟨.error, some (.error text)⟩

/-! ## Machine integers -/

/-- Reduction to the range of a 32-bit int. -/
def cInt (x : Int) : Int := x.bmod (2 ^ 32)

theorem cInt_eq_self {x : Int} (hlo : 0 ≤ x) (hhi : x < 2 ^ 31) : cInt x = x :=
  Int.bmod_eq_of_le (by omega) (by omega)

/-- A sum just beyond the range of an int becomes negative. -/
theorem cInt_of_overflow {x : Int} (hlo : 2 ^ 31 ≤ x) (hhi : x < 2 ^ 32) :
    cInt x = x - 2 ^ 32 := by
  have hwrap : x.bmod (2 ^ 32) = (x - 1 * (2 ^ 32 : Nat)).bmod (2 ^ 32) :=
    (Int.sub_mul_bmod_self_right x 1 (2 ^ 32)).symm
  rw [cInt, hwrap, Int.bmod_eq_of_le (by omega) (by omega)]
  omega

/-! ## Validators

The three validators differ in the characters they accept; each tests the length
first and then walks the string. -/

/-- Between 1 and `maxLen` characters, all of them accepted. -/
def isValidString (accepts : UInt8 → Bool) (str : Bytes) (maxLen : Nat) : Bool :=
  if str.length > maxLen || str.length < 1 then false else str.all accepts

/-- The walk from the index `i` on; `none` where the index leaves the range of an int. -/
def walkInt (accepts : UInt8 → Bool) : Nat → Bytes → Option Bool
  | _, [] => some true
  | i, c :: rest =>
      if !accepts c then some false
      else if i + 1 < 2 ^ 31 then walkInt accepts (i + 1) rest
      else none

/-- A validator with the length converted to an int, and an int as its index.
`isValidString_of_int` says that `isValidString` gives whatever it gives. -/
def isValidStringInt (accepts : UInt8 → Bool) (str : Bytes) (maxLen : Nat) : Option Bool :=
  if cInt str.length > maxLen || str.length < 1 then some false else walkInt accepts 0 str

/-- Letters, digits, hyphens and underscores. -/
def isValidAlphanumUnderscore : Bytes → Nat → Bool :=
  isValidString fun c => isalnum c || c == 0x2D || c == 0x5F

/-- Printable characters other than the space. -/
def isValidPrintable : Bytes → Nat → Bool :=
  isValidString fun c => !(c < 0x21 || c > 0x7E)

/-- Line feeds and printable characters. -/
def isValidMsgContent : Bytes → Nat → Bool :=
  isValidString fun c => c == 0x0A || (c >= 0x20 && c <= 0x7E)

theorem isValidString_iff {accepts : UInt8 → Bool} {str : Bytes} {maxLen : Nat} :
    isValidString accepts str maxLen = true ↔
      (1 ≤ str.length ∧ str.length ≤ maxLen) ∧ ∀ c ∈ str, accepts c = true := by
  simp only [isValidString]
  split
  · rename_i h
    simp only [Bool.or_eq_true, decide_eq_true_eq] at h
    simp only [Bool.false_eq_true, false_iff]
    rintro ⟨hlen, -⟩
    omega
  · rename_i h
    simp only [Bool.or_eq_true, decide_eq_true_eq] at h
    rw [List.all_eq_true]
    exact ⟨fun hall => ⟨by omega, hall⟩, fun hall => hall.2⟩

section Int

variable {accepts : UInt8 → Bool} {str : Bytes} {maxLen i : Nat}

/-- As long as the index stays in its range, the walk tests every character. -/
theorem walkInt_eq (h : i + str.length < 2 ^ 31) :
    walkInt accepts i str = some (str.all accepts) := by
  induction str generalizing i with
  | nil => rfl
  | cons c rest ih =>
      rw [List.length_cons] at h
      have hnext : i + 1 < 2 ^ 31 := by omega
      rw [walkInt, List.all_cons, ih (by omega), if_pos hnext]
      cases accepts c with
      | false => rfl
      | true => rfl

/-- A longer string is not accepted: a character is refused, or the index overflows. -/
theorem walkInt_ne_true (hi : i < 2 ^ 31) (h : 2 ^ 31 ≤ i + str.length) :
    walkInt accepts i str ≠ some true := by
  induction str generalizing i with
  | nil =>
      rw [List.length_nil] at h
      omega
  | cons c rest ih =>
      rw [List.length_cons] at h
      unfold walkInt
      split
      · simp
      · split
        · rename_i hnext
          exact ih hnext (by omega)
        · simp

theorem isValidStringInt_eq (h : str.length < 2 ^ 31) :
    isValidStringInt accepts str maxLen = some (isValidString accepts str maxLen) := by
  have hcast : cInt str.length = str.length := cInt_eq_self (by omega) (by omega)
  rw [isValidStringInt, isValidString, hcast, walkInt_eq (by omega)]
  simp only [gt_iff_lt, Nat.cast_lt]
  split
  · rfl
  · rfl

/-- Whatever the length of the string: where the ints give a result, it is this one. -/
theorem isValidString_of_int (hmax : maxLen < 2 ^ 31) {valid : Bool}
    (h : isValidStringInt accepts str maxLen = some valid) :
    isValidString accepts str maxLen = valid := by
  by_cases hlen : str.length < 2 ^ 31
  · rw [isValidStringInt_eq hlen] at h
    exact Option.some.inj h
  · -- too long for every bound
    have hinvalid : isValidString accepts str maxLen = false := by
      rw [isValidString, if_pos]
      rw [Bool.or_eq_true, decide_eq_true_eq]
      left
      omega
    rw [hinvalid]
    unfold isValidStringInt at h
    split at h
    · exact Option.some.inj h
    · cases valid with
      | false => rfl
      | true => exact absurd h (walkInt_ne_true (by omega) (by omega))

end Int

theorem isValidAlphanumUnderscore_iff {str : Bytes} {maxLen : Nat} :
    isValidAlphanumUnderscore str maxLen = true ↔
      (1 ≤ str.length ∧ str.length ≤ maxLen) ∧
        ∀ c ∈ str, (isalnum c || c == 0x2D || c == 0x5F) = true :=
  isValidString_iff

theorem isValidPrintable_iff {str : Bytes} {maxLen : Nat} :
    isValidPrintable str maxLen = true ↔
      (1 ≤ str.length ∧ str.length ≤ maxLen) ∧ ∀ c ∈ str, 0x21 ≤ c ∧ c ≤ 0x7E := by
  simp [isValidPrintable, isValidString_iff]

theorem isValidMsgContent_iff {str : Bytes} {maxLen : Nat} :
    isValidMsgContent str maxLen = true ↔
      (1 ≤ str.length ∧ str.length ≤ maxLen) ∧
        ∀ c ∈ str, c = 0x0A ∨ (0x20 ≤ c ∧ c ≤ 0x7E) := by
  simp [isValidMsgContent, isValidString_iff]

/-! ## Parts of a message -/

/-- A name of 1 to 20 letters, digits, hyphens and underscores. -/
structure NamePart (name : Bytes) : Prop where
  length_pos : 1 ≤ name.length
  length_le : name.length ≤ 20
  alphanum : ∀ c ∈ name, (isalnum c || c == 0x2D || c == 0x5F) = true

/-- A name of 1 to 20 printable characters other than the space. -/
structure PrintablePart (name : Bytes) : Prop where
  length_pos : 1 ≤ name.length
  length_le : name.length ≤ 20
  printable : ∀ c ∈ name, 0x21 ≤ c ∧ c ≤ 0x7E

/-- Content of 1 to 60000 line feeds and printable characters. -/
structure ContentPart (content : Bytes) : Prop where
  length_pos : 1 ≤ content.length
  length_le : content.length ≤ 60000
  printable : ∀ c ∈ content, c = 0x0A ∨ (0x20 ≤ c ∧ c ≤ 0x7E)

theorem namePart_iff {name : Bytes} :
    isValidAlphanumUnderscore name maxNameSize = true ↔ NamePart name := by
  rw [isValidAlphanumUnderscore_iff]
  exact ⟨fun ⟨⟨hpos, hle⟩, hall⟩ => ⟨hpos, hle, hall⟩,
    fun ⟨hpos, hle, hall⟩ => ⟨⟨hpos, hle⟩, hall⟩⟩

theorem printablePart_iff {name : Bytes} :
    isValidPrintable name maxNameSize = true ↔ PrintablePart name := by
  rw [isValidPrintable_iff]
  exact ⟨fun ⟨⟨hpos, hle⟩, hall⟩ => ⟨hpos, hle, hall⟩,
    fun ⟨hpos, hle, hall⟩ => ⟨⟨hpos, hle⟩, hall⟩⟩

theorem contentPart_iff {content : Bytes} :
    isValidMsgContent content maxMsgSize = true ↔ ContentPart content := by
  rw [isValidMsgContent_iff]
  exact ⟨fun ⟨⟨hpos, hle⟩, hall⟩ => ⟨hpos, hle, hall⟩,
    fun ⟨hpos, hle, hall⟩ => ⟨⟨hpos, hle⟩, hall⟩⟩

/-- Every identifier is a printable name. -/
theorem isValidPrintable_of_alphanum {str : Bytes} {maxLen : Nat}
    (h : isValidAlphanumUnderscore str maxLen = true) : isValidPrintable str maxLen = true := by
  obtain ⟨hlen, hall⟩ := isValidAlphanumUnderscore_iff.mp h
  refine isValidPrintable_iff.mpr ⟨hlen, fun c hc => ?_⟩
  have := hall c hc
  simp only [isalnum, Bool.or_eq_true, Bool.and_eq_true, decide_eq_true_eq, beq_iff_eq] at this
  rcases this with (((h | h) | h) | rfl) | rfl
  · exact ⟨UInt8.le_trans (by decide) h.1, UInt8.le_trans h.2 (by decide)⟩
  · exact ⟨UInt8.le_trans (by decide) h.1, UInt8.le_trans h.2 (by decide)⟩
  · exact ⟨UInt8.le_trans (by decide) h.1, UInt8.le_trans h.2 (by decide)⟩
  · decide
  · decide

/-- A printable name has no character below the exclamation mark. -/
theorem not_mem_of_isValidPrintable {str : Bytes} {maxLen : Nat}
    (h : isValidPrintable str maxLen = true) {c : UInt8} (hc : c < 0x21) : c ∉ str := by
  intro hmem
  have hle := ((isValidPrintable_iff.mp h).2 c hmem).1
  exact absurd (UInt8.lt_of_lt_of_le hc hle) (UInt8.lt_irrefl c)

/-- Message content has no control character but the line feed. -/
theorem not_mem_of_isValidMsgContent {str : Bytes} {maxLen : Nat}
    (h : isValidMsgContent str maxLen = true) {c : UInt8} (hc : c < 0x20) (hlf : c ≠ 0x0A) :
    c ∉ str := by
  intro hmem
  rcases (isValidMsgContent_iff.mp h).2 c hmem with hlf' | hrange
  · exact hlf hlf'
  · exact absurd (UInt8.lt_of_lt_of_le hc hrange.1) (UInt8.lt_irrefl c)

/-! ## Bounded copy -/

/-- The string left in a character array of `size` bytes by `copy`. -/
def copy (src : Bytes) (size : Nat) : Bytes := src.take (size - 1)

/-- A string that fits is copied whole. -/
theorem copy_eq_self {src : Bytes} {size : Nat} (h : src.length < size) : copy src size = src :=
  List.take_of_length_le (by omega)

/-! ## Admissible fields -/

/-- The display name is one that /auth and /rename accept. -/
def NameValid (c : Client) : Prop := isValidPrintable c.displayName maxNameSize = true

/-- The fields that a message of this type is built from are valid. -/
def Sendable (c : Client) : MsgType → Prop
  | .auth => isValidAlphanumUnderscore c.username maxNameSize = true ∧
      isValidAlphanumUnderscore c.secret maxSecretSize = true ∧ NameValid c
  | .join => isValidAlphanumUnderscore c.channelID maxNameSize = true ∧ NameValid c
  | .msg | .err => isValidMsgContent c.msgContent maxMsgSize = true ∧ NameValid c
  | .bye => NameValid c
  | _ => False

/-- The fields that a message of this type carries, in their order. -/
def fields (c : Client) : MsgType → List Bytes
  | .auth => [c.username, c.displayName, c.secret]
  | .join => [c.channelID, c.displayName]
  | .msg | .err => [c.displayName, c.msgContent]
  | .bye => [c.displayName]
  | _ => []

section Fields

variable {c : Client} {type : MsgType}

theorem NameValid.not_mem (h : NameValid c) {b : UInt8} (hb : b < 0x21) : b ∉ c.displayName :=
  not_mem_of_isValidPrintable h hb

theorem not_mem_of_alphanum {s : Bytes} {n : Nat} (h : isValidAlphanumUnderscore s n = true)
    {b : UInt8} (hb : b < 0x21) : b ∉ s :=
  not_mem_of_isValidPrintable (isValidPrintable_of_alphanum h) hb

/-- No field of a message contains a control character other than the line feed. -/
theorem not_mem_fields (h : Sendable c type) {b : UInt8} (hb : b < 0x20) (hlf : b ≠ 0x0A) :
    ∀ field ∈ fields c type, b ∉ field := by
  have hb' : b < 0x21 := UInt8.lt_trans hb (by decide)
  cases type <;> simp only [Sendable] at h <;>
    simp only [fields, List.mem_cons, List.not_mem_nil, or_false, forall_eq_or_imp, forall_eq]
  · exact ⟨not_mem_of_alphanum h.1 hb', NameValid.not_mem h.2.2 hb', not_mem_of_alphanum h.2.1 hb'⟩
  · exact ⟨not_mem_of_alphanum h.1 hb', NameValid.not_mem h.2 hb'⟩
  · exact ⟨NameValid.not_mem h.2 hb', not_mem_of_isValidMsgContent h.1 hb hlf⟩
  · exact ⟨NameValid.not_mem h.2 hb', not_mem_of_isValidMsgContent h.1 hb hlf⟩
  · exact NameValid.not_mem h hb'

end Fields

end IpkChat.Core
