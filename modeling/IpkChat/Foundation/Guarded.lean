/-
  Foundation/Guarded.lean --- reads that stay inside a region.

  The C library finds the end of a string by its zero byte, wherever that lies.  The
  functions here do the same reads and give `none` when one of them leaves the region.
  They have a value exactly if the region holds the zero byte, and then the bytes
  behind the region do not matter.

  A parser that is written over `Reads` can be run with either kind of reads.
-/
import IpkChat.Foundation.Bytes

set_option autoImplicit false

namespace IpkChat.Foundation

/-- Read a string up to its terminating zero. -/
def readString : Bytes → Option Bytes
  | [] => none
  | b :: bs => if b = 0 then some [] else (readString bs).map (b :: ·)

/-- Walk a string, and stop at its terminating zero or at the first character that is
not accepted. -/
def walkString (accepts : UInt8 → Bool) : Bytes → Option Bool
  | [] => none
  | b :: bs =>
      if b = 0 then some true
      else if !accepts b then some false
      else walkString accepts bs

/-! ## Kinds of reads -/

/-- How a program reads through a pointer.  The argument is what is known of memory from
the pointer on. -/
structure Reads (m : Type → Type) where
  /-- the byte at an offset -/
  byte : Bytes → Nat → m UInt8
  /-- the string -/
  string : Bytes → m Bytes
  /-- the characters of the string, while they are accepted -/
  walk : (UInt8 → Bool) → Bytes → m Bool

/-- Memory has a value everywhere; it is zero where nothing is known. -/
def memory : Reads Id where
  byte region i := region.getD i 0
  string := cstr
  walk accepts region := (cstr region).all accepts

/-- Each read is tested, and none leaves the region. -/
def tested : Reads Option where
  byte region i := region[i]?
  string := readString
  walk := walkString

/-! ## Strings that end in a region -/

/-- A zero byte in the region ends the string, whatever follows the region. -/
theorem cstr_append_of_mem {region : Bytes} (h : (0 : UInt8) ∈ region) (beyond : Bytes) :
    cstr (region ++ beyond) = cstr region := by
  obtain ⟨s, rest, rfl, hs⟩ := List.eq_append_cons_of_mem h
  rw [List.append_assoc, List.cons_append, cstr_append_zero hs, cstr_append_zero hs]

theorem readString_eq {region : Bytes} (h : (0 : UInt8) ∈ region) :
    readString region = some (cstr region) := by
  induction region with
  | nil => cases h
  | cons b bs ih =>
      unfold readString
      split
      · rename_i hb
        rw [hb]
        rfl
      · rename_i hb
        have hrest : (0 : UInt8) ∈ bs := (List.mem_cons.mp h).resolve_left (Ne.symm hb)
        rw [ih hrest, cstr_cons hb]
        rfl

theorem readString_eq_none {region : Bytes} (h : (0 : UInt8) ∉ region) :
    readString region = none := by
  induction region with
  | nil => rfl
  | cons b bs ih =>
      obtain ⟨hb, hrest⟩ := not_or.mp (fun hor => h (List.mem_cons.mpr hor))
      rw [readString, if_neg (Ne.symm hb), ih hrest]
      rfl

/-- Where the string ends in the region, so does the walk. -/
theorem walkString_eq {accepts : UInt8 → Bool} {region : Bytes} (h : (0 : UInt8) ∈ region) :
    walkString accepts region = some ((cstr region).all accepts) := by
  induction region with
  | nil => cases h
  | cons b bs ih =>
      unfold walkString
      split
      · rename_i hb
        rw [hb]
        rfl
      · rename_i hb
        have hrest : (0 : UInt8) ∈ bs := (List.mem_cons.mp h).resolve_left (Ne.symm hb)
        rw [cstr_cons hb, List.all_cons, ih hrest]
        cases accepts b with
        | false => rfl
        | true => rfl

/-! ## Tables -/

/-- Two tables whose entries are related in order are searched alike. -/
theorem find?_forall₂ {α β : Type} {R : α → β → Prop} {p : α → Bool} {q : β → Bool}
    {as : List α} {bs : List β} (h : List.Forall₂ R as bs) (hpq : ∀ a b, R a b → p a = q b) :
    (as.find? p = none ∧ bs.find? q = none) ∨
      ∃ a b, as.find? p = some a ∧ bs.find? q = some b ∧ R a b := by
  induction h with
  | nil => exact Or.inl ⟨rfl, rfl⟩
  | @cons a b as bs hab hrest ih =>
      have heq := hpq a b hab
      cases hb : q b with
      | true => exact Or.inr ⟨a, b, by simp [heq, hb], by simp [hb], hab⟩
      | false =>
          rcases ih with ⟨ha, hn⟩ | ⟨a', b', ha, hn, hr⟩
          · exact Or.inl ⟨by simp [heq, hb, ha], by simp [hb, hn]⟩
          · exact Or.inr ⟨a', b', by simp [heq, hb, ha], by simp [hb, hn], hr⟩

end IpkChat.Foundation
