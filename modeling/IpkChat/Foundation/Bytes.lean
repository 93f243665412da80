/-
  Foundation/Bytes.lean --- byte strings and the C library functions on them.

  A region of memory is the list of its bytes, and a pointer into it is the
  suffix of that list which starts at the byte pointed to.  `cstr` is the C
  string found at a pointer.  The character classes are those of the C locale.
  Every comparison with a byte constant below gives the same answer whether the
  platform's `char` is signed or not: a byte with its top bit set lies outside
  every range tested here.
-/
import Mathlib

set_option autoImplicit false

namespace IpkChat.Foundation

/-- A byte string: a datagram, a stream chunk, a region of memory. -/
abbrev Bytes : Type := List UInt8

/-- The bytes of an ASCII literal. -/
def ascii (text : String) : Bytes := text.toList.map fun c => UInt8.ofNat c.toNat

/-- The two bytes `\r\n`. -/
def crlfBytes : Bytes := [13, 10]

/-! ## C strings -/

/-- The C string at a pointer: everything before the first zero byte. -/
def cstr (memory : Bytes) : Bytes := memory.takeWhile (· != 0)

theorem cstr_cons {b : UInt8} (hb : b ≠ 0) (bs : Bytes) : cstr (b :: bs) = b :: cstr bs :=
  List.takeWhile_cons_of_pos (by simpa using hb)

theorem cstr_append_zero {s : Bytes} (hs : (0 : UInt8) ∉ s) (rest : Bytes) :
    cstr (s ++ 0 :: rest) = s := by
  have hall : ∀ b ∈ s, (b != 0) = true := by
    intro b hb
    have : b ≠ 0 := fun h => hs (h ▸ hb)
    simpa using this
  rw [cstr, List.takeWhile_append_of_pos hall]
  simp

/-- A C string that ends inside the first part of the memory is terminated there. -/
theorem cstr_terminated {s rest : Bytes} (h : (cstr (s ++ rest)).length < s.length) :
    s = cstr (s ++ rest) ++ 0 :: s.drop ((cstr (s ++ rest)).length + 1) := by
  induction s with
  | nil => exact absurd h (Nat.not_lt_zero _)
  | cons b bs ih =>
      by_cases hb : b = 0
      · simp [cstr, hb]
      · have hcons : cstr (b :: bs ++ rest) = b :: cstr (bs ++ rest) := cstr_cons hb _
        rw [hcons] at h ⊢
        simp only [List.length_cons, Nat.add_lt_add_iff_right] at h
        simp only [List.length_cons, List.drop_succ_cons, List.cons_append]
        exact congrArg (b :: ·) (ih h)

/-! ## Character classes of the C locale -/

/-- Letters and digits, as isalnum has them. -/
def isalnum (c : UInt8) : Bool :=
  (0x30 ≤ c && c ≤ 0x39) || (0x41 ≤ c && c ≤ 0x5A) || (0x61 ≤ c && c ≤ 0x7A)

/-- White space, as isspace has it: space, and horizontal tab to carriage return. -/
def isspace (c : UInt8) : Bool := c == 0x20 || (0x09 ≤ c && c ≤ 0x0D)

/-- Printable characters above the space are no white space. -/
theorem isspace_eq_false {c : UInt8} (h : 0x21 ≤ c) : isspace c = false := by
  have hspace : c ≠ 0x20 := fun he => absurd h (he ▸ by decide)
  have hcontrol : ¬ c ≤ 0x0D := fun hle => absurd (UInt8.le_trans h hle) (by decide)
  simp [isspace, hspace, hcontrol]

/-- Lower case, as tolower has it. -/
def tolower (c : UInt8) : UInt8 := if 0x41 ≤ c && c ≤ 0x5A then c + 0x20 else c

/-- A character is its own lower case, or 0x20 below it. -/
theorem eq_of_tolower_eq {c l : UInt8} (h : tolower c = l) :
    c = l ∨ (0x41 ≤ c ∧ c ≤ 0x5A) ∧ c = l - 0x20 := by
  unfold tolower at h
  split at h
  · rename_i hrange
    simp only [Bool.and_eq_true, decide_eq_true_eq] at hrange
    exact Or.inr ⟨hrange, by rw [← h, UInt8.add_sub_cancel]⟩
  · exact Or.inl h

/-! ## Comparisons and scanning -/

/-- The test `strncasecmp(a, b, n) == 0`: the first `n` characters agree up to case, an
end of string counting as a character of its own. -/
def strncasecmp : Bytes → Bytes → Nat → Bool
  | _, _, 0 => true
  | [], [], _ + 1 => true
  | [], _ :: _, _ + 1 => false
  | _ :: _, [], _ + 1 => false
  | a :: as, b :: bs, n + 1 => tolower a == tolower b && strncasecmp as bs n

/-- A string compares equal, over the length of a pattern, to any string that
starts with the pattern. -/
theorem strncasecmp_append (pattern rest : Bytes) :
    strncasecmp (pattern ++ rest) pattern pattern.length = true := by
  induction pattern with
  | nil => simp [strncasecmp]
  | cons p ps ih => simpa [strncasecmp] using ih

/-- Two strings that differ at most in the case of their letters. -/
def SameLetters (a b : Bytes) : Prop := a.map tolower = b.map tolower

instance (a b : Bytes) : Decidable (SameLetters a b) := inferInstanceAs (Decidable (_ = _))

theorem SameLetters.length_eq {a b : Bytes} (h : SameLetters a b) : a.length = b.length := by
  simpa using congrArg List.length h

theorem SameLetters.take {a b : Bytes} (h : SameLetters a b) (n : Nat) :
    SameLetters (a.take n) (b.take n) := by
  unfold SameLetters at h ⊢
  rw [List.map_take, List.map_take, h]

/-- strncasecmp compares the letters of the first `n` characters, if the second
string has that many. -/
theorem strncasecmp_iff {a b : Bytes} {n : Nat} (hn : n ≤ b.length) :
    strncasecmp a b n = true ↔ SameLetters (a.take n) (b.take n) := by
  induction n generalizing a b with
  | zero => simp [strncasecmp, SameLetters]
  | succ n ih =>
      match b, hn with
      | y :: ys, hn =>
          simp only [List.length_cons, Nat.add_le_add_iff_right] at hn
          cases a with
          | nil => simp [strncasecmp, SameLetters]
          | cons x xs =>
              have hrest := @ih xs ys hn
              simp only [SameLetters] at hrest
              simp [strncasecmp, SameLetters, hrest]

/-- The read `sscanf(s, "%20s", dest) == 1`: white space is skipped, then up to `width`
other characters are read.  `none` when the string ends before the first. -/
def scanWord (width : Nat) (s : Bytes) : Option Bytes :=
  let word := ((s.dropWhile isspace).takeWhile fun c => !isspace c).take width
  if word = [] then none else some word

/-- A non-empty word that fits the width is read as it stands, when white space
follows it. -/
theorem scanWord_append {word : Bytes} {width : Nat} (hne : word ≠ [])
    (hword : ∀ c ∈ word, isspace c = false) (hwidth : word.length ≤ width)
    {c : UInt8} (hc : isspace c = true) (rest : Bytes) :
    scanWord width (word ++ c :: rest) = some word := by
  have hdrop : (word ++ c :: rest).dropWhile isspace = word ++ c :: rest := by
    cases word with
    | nil => exact absurd rfl hne
    | cons w ws => simp [hword w List.mem_cons_self]
  have htake : (word ++ c :: rest).takeWhile (fun c => !isspace c) = word := by
    rw [List.takeWhile_append_of_pos (by simpa using hword)]
    simp [hc]
  simp only [scanWord, hdrop, htake, List.take_of_length_le hwidth, if_neg hne]

/-- White space in front is skipped. -/
theorem scanWord_spaces {width : Nat} {spaces : Bytes} (h : ∀ b ∈ spaces, isspace b = true)
    (rest : Bytes) : scanWord width (spaces ++ rest) = scanWord width rest := by
  simp only [scanWord, List.dropWhile_append_of_pos h]

/-- A word that starts at the pointer is what the string starts with, up to the next
white space. -/
theorem scanWord_prefix {width : Nat} {b c : UInt8} {front rest word : Bytes}
    (hb : isspace b = false) (hc : isspace c = true)
    (h : scanWord width (b :: front ++ c :: rest) = some word) :
    word <+: b :: front ++ c :: rest ∧ word.length ≤ (b :: front).length := by
  have hdrop : (b :: front ++ c :: rest).dropWhile isspace = b :: front ++ c :: rest := by
    rw [List.cons_append, List.dropWhile_cons_of_neg (by simp [hb])]
  simp only [scanWord, hdrop] at h
  split at h
  case isTrue => cases h
  case isFalse =>
    obtain rfl := Option.some.inj h
    refine ⟨(List.take_prefix _ _).trans (List.takeWhile_prefix _), ?_⟩
    have hle : ((b :: front ++ c :: rest).takeWhile fun c => !isspace c).length ≤
        (b :: front).length := by
      generalize b :: front = l
      induction l with
      | nil => simp [hc]
      | cons x xs ih =>
          rw [List.cons_append, List.takeWhile_cons]
          split
          · simpa using ih
          · simp
    rw [List.length_take]
    omega

/-! ## Separated fields -/

/-- Two strings cut at the first occurrence of a separator agree part by part. -/
theorem append_separator_inj {sep : UInt8} {a b : Bytes} (ha : sep ∉ a) (hb : sep ∉ b)
    {x y : Bytes} (h : a ++ sep :: x = b ++ sep :: y) : a = b ∧ x = y := by
  induction a generalizing b with
  | nil =>
      cases b with
      | nil => simpa using h
      | cons c cs =>
          simp only [List.nil_append, List.cons_append, List.cons.injEq] at h
          exact absurd List.mem_cons_self (h.1 ▸ hb)
  | cons d ds ih =>
      cases b with
      | nil =>
          simp only [List.nil_append, List.cons_append, List.cons.injEq] at h
          exact absurd List.mem_cons_self (h.1 ▸ ha)
      | cons c cs =>
          simp only [List.cons_append, List.cons.injEq] at h
          have := ih (fun hm => ha (List.mem_cons_of_mem d hm))
            (fun hm => hb (List.mem_cons_of_mem c hm)) h.2
          exact ⟨by rw [h.1, this.1], this.2⟩

/-- Fields that each end with a separator can be read back, if it occurs in none. -/
theorem flatMap_separator_inj {sep : UInt8} {fs gs : List Bytes} (hf : ∀ f ∈ fs, sep ∉ f)
    (hg : ∀ g ∈ gs, sep ∉ g) (h : fs.flatMap (· ++ [sep]) = gs.flatMap (· ++ [sep])) :
    fs = gs := by
  induction fs generalizing gs with
  | nil =>
      cases gs with
      | nil => rfl
      | cons g gs => simp at h
  | cons f fs ih =>
      cases gs with
      | nil => simp at h
      | cons g gs =>
          simp only [List.flatMap_cons, List.append_assoc, List.singleton_append] at h
          obtain ⟨rfl, hrest⟩ :=
            append_separator_inj (hf f List.mem_cons_self) (hg g List.mem_cons_self) h
          rw [ih (fun x hx => hf x (List.mem_cons_of_mem f hx))
            (fun x hx => hg x (List.mem_cons_of_mem f hx)) hrest]

/-- A text made of fixed words, each followed by a field. -/
def interleave (words fields : List Bytes) : Bytes := (List.zipWith (· ++ ·) words fields).flatten

/-- A byte of an interleaved text is one of a word or one of a field. -/
theorem mem_interleave {words fields : List Bytes} {b : UInt8} (h : b ∈ interleave words fields) :
    (∃ word ∈ words, b ∈ word) ∨ ∃ field ∈ fields, b ∈ field := by
  induction words generalizing fields with
  | nil => simp [interleave] at h
  | cons w ws ih =>
      cases fields with
      | nil => simp [interleave] at h
      | cons f fs =>
          simp only [interleave, List.zipWith_cons_cons, List.flatten_cons, List.mem_append] at h
          rcases h with (hw | hf) | hrest
          · exact Or.inl ⟨w, List.mem_cons_self, hw⟩
          · exact Or.inr ⟨f, List.mem_cons_self, hf⟩
          · rcases ih hrest with ⟨word, hmem, hb⟩ | ⟨field, hmem, hb⟩
            · exact Or.inl ⟨word, List.mem_cons_of_mem w hmem, hb⟩
            · exact Or.inr ⟨field, List.mem_cons_of_mem f hmem, hb⟩

/-- The fields can be read back if a separator starts every word but the first and
occurs in no field but the last. -/
theorem interleave_inj {sep : UInt8} {tail : Bytes} {words fs gs : List Bytes}
    (hwords : ∀ word ∈ words.tail, ∃ rest, word = sep :: rest)
    (hfs : fs.length = words.length) (hgs : gs.length = words.length)
    (hf : ∀ f ∈ fs.dropLast, sep ∉ f) (hg : ∀ g ∈ gs.dropLast, sep ∉ g)
    (h : interleave words fs ++ tail = interleave words gs ++ tail) : fs = gs := by
  induction words generalizing fs gs with
  | nil =>
      rw [List.length_eq_zero_iff.mp hfs, List.length_eq_zero_iff.mp hgs]
  | cons w ws ih =>
      obtain ⟨f, fs, rfl⟩ := List.exists_cons_of_length_eq_add_one hfs
      obtain ⟨g, gs, rfl⟩ := List.exists_cons_of_length_eq_add_one hgs
      simp only [List.length_cons, Nat.add_right_cancel_iff] at hfs hgs
      simp only [interleave, List.zipWith_cons_cons, List.flatten_cons, List.append_assoc,
        List.append_cancel_left_eq] at h
      cases ws with
      | nil =>
          obtain rfl := List.length_eq_zero_iff.mp hfs
          obtain rfl := List.length_eq_zero_iff.mp hgs
          simpa using h
      | cons w' ws =>
          obtain ⟨f', fs, rfl⟩ := List.exists_cons_of_length_eq_add_one hfs
          obtain ⟨g', gs, rfl⟩ := List.exists_cons_of_length_eq_add_one hgs
          obtain ⟨rest, rfl⟩ := hwords w' List.mem_cons_self
          simp only [List.zipWith_cons_cons, List.flatten_cons, List.append_assoc,
            List.cons_append] at h
          obtain ⟨rfl, hrest⟩ := append_separator_inj (hf f (by simp)) (hg g (by simp)) h
          rw [ih (fun word hw => hwords word (List.mem_of_mem_tail hw)) hfs hgs
            (fun x hx => hf x (by simp [hx])) (fun x hx => hg x (by simp [hx]))
            (by simpa [interleave] using hrest)]

end IpkChat.Foundation
