/-
  Foundation/Decimal.lean --- decimal numbers as strtol reads them.

  strtol takes more than digits: it skips white space and reads a sign first, and of a
  string without digits it makes zero.  `Readable` says which strings it takes whole for
  a number from zero to a bound; `Numeral` is the narrower notion, digits and nothing
  else.
-/
import IpkChat.Foundation.Bytes

set_option autoImplicit false

namespace IpkChat.Foundation

/-- An ASCII digit. -/
def isdigit (c : UInt8) : Bool := 0x30 ≤ c && c ≤ 0x39

/-- The value of a string of digits. -/
def decimal (digits : Bytes) : Nat := digits.foldl (fun n c => 10 * n + (c.toNat - 0x30)) 0

/-- LONG_MAX. -/
def longMax : Int := 9223372036854775807
/-- LONG_MIN. -/
def longMin : Int := -9223372036854775808

/-- The value returned, the string at `endptr`, and whether errno was set. -/
structure Strtol where
  val : Int
  endptr : Bytes
  errno : Bool
  deriving DecidableEq, Repr

/-- The sign, and what follows it. -/
def splitSign (s : Bytes) : Bool × Bytes :=
  if s.head? = some 0x2D then (true, s.tail)
  else if s.head? = some 0x2B then (false, s.tail)
  else (false, s)

/-- The call strtol(s, &endptr, 10).  Where there are no digits the library may set errno
or not; `einval` tells whether it does. -/
def strtol (einval : Bool) (s : Bytes) : Strtol :=
  let (negative, unsigned) := splitSign (s.dropWhile isspace)
  let digits := unsigned.takeWhile isdigit
  let rest := unsigned.dropWhile isdigit
  if digits = [] then ⟨0, s, einval⟩
  else
    let val : Int := if negative then -(decimal digits : Int) else decimal digits
    if val > longMax then ⟨longMax, rest, true⟩
    else if val < longMin then ⟨longMin, rest, true⟩
    else ⟨val, rest, false⟩

/-- A string of digits with a value up to `max`. -/
structure Numeral (max : Nat) (s : Bytes) : Prop where
  ne_nil : s ≠ []
  digits : ∀ c ∈ s, isdigit c = true
  le : decimal s ≤ max

/-- What strtol takes whole for a number up to `max`, and which number. -/
inductive Readable (einval : Bool) (max : Nat) : Bytes → Nat → Prop where
  | empty (h : einval = false) : Readable einval max [] 0
  | numeral {spaces sign digits : Bytes} (hspaces : ∀ c ∈ spaces, isspace c = true)
      (hsign : sign = [] ∨ sign = [0x2B] ∨ sign = [0x2D] ∧ decimal digits = 0)
      (hdigits : Numeral max digits) :
      Readable einval max (spaces ++ sign ++ digits) (decimal digits)

section Strtol

variable {einval : Bool} {max : Nat} {s : Bytes} {v : Nat}

theorem Numeral.readable (h : Numeral max s) : Readable einval max s (decimal s) := by
  have hempty : ∀ c ∈ ([] : Bytes), isspace c = true := fun c hc => by cases hc
  exact Readable.numeral hempty (Or.inl rfl) h

/-- A digit is no white space and no sign. -/
theorem isdigit_not_special {c : UInt8} (h : isdigit c = true) :
    isspace c = false ∧ c ≠ 0x2D ∧ c ≠ 0x2B := by
  simp only [isdigit, Bool.and_eq_true, decide_eq_true_eq] at h
  refine ⟨isspace_eq_false (UInt8.le_trans (by decide) h.1), ?_, ?_⟩
  · rintro rfl
    exact absurd h.1 (by decide)
  · rintro rfl
    exact absurd h.1 (by decide)

/-- The sign is what splitSign takes off. -/
theorem splitSign_cases (s : Bytes) :
    (splitSign s = (true, s.tail) ∧ s = [0x2D] ++ s.tail) ∨
      (splitSign s = (false, s.tail) ∧ s = [0x2B] ++ s.tail) ∨ splitSign s = (false, s) := by
  unfold splitSign
  cases s with
  | nil => exact Or.inr (Or.inr rfl)
  | cons c cs =>
      split
      · rename_i hminus
        exact Or.inl ⟨rfl, congrArg (· :: cs) (Option.some.inj hminus)⟩
      · split
        · rename_i hplus
          exact Or.inr (Or.inl ⟨rfl, congrArg (· :: cs) (Option.some.inj hplus)⟩)
        · exact Or.inr (Or.inr rfl)

/-- White space and a sign in front of digits are taken off. -/
theorem strtol_parts {spaces sign digits : Bytes} (hspaces : ∀ c ∈ spaces, isspace c = true)
    (hsign : sign = [] ∨ sign = [0x2B] ∨ sign = [0x2D]) (hne : digits ≠ [])
    (hdigits : ∀ c ∈ digits, isdigit c = true) :
    splitSign ((spaces ++ sign ++ digits).dropWhile isspace) =
      (decide (sign = [0x2D]), digits) := by
  obtain ⟨c, cs, rfl⟩ := List.exists_cons_of_ne_nil hne
  obtain ⟨hspace, hminus, hplus⟩ := isdigit_not_special (hdigits c List.mem_cons_self)
  rw [List.append_assoc, List.dropWhile_append_of_pos hspaces]
  rcases hsign with rfl | rfl | rfl
  · have hdrop : ([] ++ c :: cs).dropWhile isspace = c :: cs :=
      List.dropWhile_cons_of_neg (by rw [hspace]; decide)
    rw [hdrop]
    simp [splitSign, hminus, hplus]
  · rfl
  · rfl

theorem strtol_readable (hmax : (max : Int) ≤ longMax) (h : Readable einval max s v) :
    strtol einval s = ⟨v, [], false⟩ := by
  cases h with
  | empty h =>
      rw [h]
      rfl
  | @numeral spaces sign digits hspaces hsign hdigits =>
      have hsign' : sign = [] ∨ sign = [0x2B] ∨ sign = [0x2D] :=
        hsign.imp_right fun h => h.imp_right fun h => h.1
      have htake : digits.takeWhile isdigit = digits :=
        List.takeWhile_eq_self_iff.mpr hdigits.digits
      have hdrop : digits.dropWhile isdigit = [] :=
        List.dropWhile_eq_nil_iff.mpr hdigits.digits
      have hval : (if decide (sign = [0x2D]) = true then -(decimal digits : Int)
          else decimal digits) = decimal digits := by
        split
        · rename_i hminus
          rcases hsign with rfl | rfl | ⟨-, hzero⟩
          · cases hminus
          · cases hminus
          · rw [hzero]
            rfl
        · rfl
      have hle : (decimal digits : Int) ≤ max := Int.ofNat_le.mpr hdigits.le
      unfold strtol
      simp only [strtol_parts hspaces hsign' hdigits.ne_nil hdigits.digits, htake, hdrop, hval]
      rw [if_neg hdigits.ne_nil, if_neg (by omega), if_neg (by simp only [longMin]; omega)]

/-- Without an error, strtol has found no digits or returns their value as it is. -/
theorem strtol_of_not_errno (herrno : (strtol einval s).errno = false) {negative : Bool}
    {unsigned : Bytes} (hsplit : splitSign (s.dropWhile isspace) = (negative, unsigned)) :
    unsigned.takeWhile isdigit = [] ∧ strtol einval s = ⟨0, s, einval⟩ ∨
      unsigned.takeWhile isdigit ≠ [] ∧ strtol einval s =
        ⟨if negative then -(decimal (unsigned.takeWhile isdigit) : Int)
          else decimal (unsigned.takeWhile isdigit), unsigned.dropWhile isdigit, false⟩ := by
  unfold strtol at herrno ⊢
  simp only [hsplit] at herrno ⊢
  split
  · rename_i hnone
    exact Or.inl ⟨hnone, rfl⟩
  · rename_i hsome
    rw [if_neg hsome] at herrno
    refine Or.inr ⟨hsome, ?_⟩
    generalize (if negative = true then -(decimal (unsigned.takeWhile isdigit) : Int)
      else decimal (unsigned.takeWhile isdigit)) = val at herrno ⊢
    split
    · rename_i hover
      rw [if_pos hover] at herrno
      cases herrno
    · rename_i hover
      rw [if_neg hover] at herrno
      split
      · rename_i hunder
        rw [if_pos hunder] at herrno
        cases herrno
      · rfl

/-- Digits behind white space and a sign. -/
theorem readable_of_digits {unsigned : Bytes} {negative : Bool}
    (hsplit : splitSign (s.dropWhile isspace) = (negative, unsigned))
    (hdigits : Numeral max unsigned) (hsign : negative = true → decimal unsigned = 0) :
    Readable einval max s (decimal unsigned) := by
  have hspaces : ∀ c ∈ s.takeWhile isspace, isspace c = true :=
    List.all_eq_true.mp List.all_takeWhile
  have hparts : s = s.takeWhile isspace ++ s.dropWhile isspace :=
    List.takeWhile_append_dropWhile.symm
  have hread : ∀ sign, s.dropWhile isspace = sign ++ unsigned →
      (sign = [] ∨ sign = [0x2B] ∨ sign = [0x2D] ∧ decimal unsigned = 0) →
        Readable einval max s (decimal unsigned) := by
    intro sign hdrop hsign
    rw [hparts, hdrop, ← List.append_assoc]
    exact Readable.numeral hspaces hsign hdigits
  rcases splitSign_cases (s.dropWhile isspace) with ⟨heq, hdrop⟩ | ⟨heq, hdrop⟩ | heq
  · obtain ⟨rfl, rfl⟩ := Prod.mk.inj (heq.symm.trans hsplit)
    exact hread [0x2D] hdrop (Or.inr (Or.inr ⟨rfl, hsign rfl⟩))
  · obtain ⟨rfl, rfl⟩ := Prod.mk.inj (heq.symm.trans hsplit)
    exact hread [0x2B] hdrop (Or.inr (Or.inl rfl))
  · obtain ⟨rfl, rfl⟩ := Prod.mk.inj (heq.symm.trans hsplit)
    exact hread [] rfl (Or.inl rfl)

/-- Whatever strtol takes whole is readable. -/
theorem readable_of_strtol (herrno : (strtol einval s).errno = false)
    (hend : (strtol einval s).endptr = []) (hpos : 0 ≤ (strtol einval s).val)
    (hle : (strtol einval s).val ≤ max) :
    ∃ v : Nat, Readable einval max s v ∧ (strtol einval s).val = v := by
  obtain ⟨negative, unsigned, hsplit⟩ :
      ∃ negative unsigned, splitSign (s.dropWhile isspace) = (negative, unsigned) := ⟨_, _, rfl⟩
  rcases strtol_of_not_errno herrno hsplit with ⟨-, heq⟩ | ⟨hsome, heq⟩
  · rw [heq] at herrno hend ⊢
    obtain rfl : s = [] := hend
    exact ⟨0, Readable.empty herrno, rfl⟩
  · rw [heq] at hend hpos hle ⊢
    have hall : unsigned.takeWhile isdigit = unsigned := by
      have happend := List.takeWhile_append_dropWhile (p := isdigit) (l := unsigned)
      rwa [show unsigned.dropWhile isdigit = [] from hend, List.append_nil] at happend
    rw [hall] at hsome hpos hle
    simp only [hall]
    have hdigits : ∀ c ∈ unsigned, isdigit c = true := List.takeWhile_eq_self_iff.mp hall
    refine ⟨decimal unsigned, ?_, ?_⟩
    · cases negative with
      | false =>
          exact readable_of_digits hsplit ⟨hsome, hdigits, Int.ofNat_le.mp hle⟩
            (fun h => by cases h)
      | true =>
          have hzero : decimal unsigned = 0 := by
            simp only [if_true] at hpos
            omega
          exact readable_of_digits hsplit ⟨hsome, hdigits, by omega⟩ (fun _ => hzero)
    · cases negative with
      | false => rfl
      | true =>
          simp only [if_true] at hpos ⊢
          omega

/-- Of the readable strings, those of digits only are numerals. -/
theorem Readable.toNumeral (h : Readable einval max s v) (hne : s ≠ [])
    (hall : ∀ c ∈ s, isdigit c = true) : Numeral max s := by
  cases h with
  | empty => exact absurd rfl hne
  | @numeral spaces sign digits hspaces hsign hdigits =>
      have hnospace : spaces = [] := by
        by_contra hspace
        obtain ⟨c, cs, rfl⟩ := List.exists_cons_of_ne_nil hspace
        have hdigit := isdigit_not_special (hall c (by simp))
        rw [hspaces c List.mem_cons_self] at hdigit
        cases hdigit.1
      have hnosign : sign = [] := by
        rcases hsign with hsign | rfl | ⟨rfl, -⟩
        · exact hsign
        · exact absurd rfl (isdigit_not_special (hall 0x2B (by simp))).2.2
        · exact absurd rfl (isdigit_not_special (hall 0x2D (by simp))).2.1
      rw [hnospace, hnosign]
      exact hdigits

end Strtol

end IpkChat.Foundation
