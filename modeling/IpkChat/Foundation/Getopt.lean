/-
  Foundation/Getopt.lean --- the options of an argument vector.

  getopt goes through the vector and returns one option a call.  An element that starts
  with a hyphen holds one-letter options; one that takes an argument takes the rest of
  its element, or else the next element.  Other elements are passed over, and so is
  everything behind "--".  An option string is a function from letters: `ι` are the
  options without an argument, `κ` those with one.
-/
import IpkChat.Foundation.Bytes

set_option autoImplicit false

namespace IpkChat.Foundation

/-- What a call of getopt finds. -/
inductive Found (ι κ : Type) where
  | flag (i : ι)
  | valued (k : κ) (optarg : Bytes)
  /-- ':', the vector ends before the argument -/
  | missing (k : κ)
  /-- '?' -/
  | unknown (c : UInt8)
  deriving DecidableEq

section Getopt

variable {ι κ : Type} (optstring : UInt8 → Option (ι ⊕ κ))

/-- The options in one element.  The last one may still lack its argument. -/
def cluster : Bytes → List (Found ι κ) × Option κ
  | [] => ([], none)
  | c :: cs =>
      match optstring c with
      | none =>
          let (found, last) := cluster cs
          (.unknown c :: found, last)
      | some (.inl i) =>
          let (found, last) := cluster cs
          (.flag i :: found, last)
      | some (.inr k) => if cs = [] then ([], some k) else ([.valued k cs], none)

/-- What the calls find until -1 is returned, and the elements passed over: the argument
count less their number is the value left in optind. -/
def getopt : List Bytes → List (Found ι κ) × List Bytes
  | [] => ([], [])
  | e :: rest =>
      if e = [0x2D, 0x2D] then ([], rest)
      else if e.head? = some 0x2D ∧ e ≠ [0x2D] then
        match cluster optstring e.tail, rest with
        | (found, none), rest =>
            let (more, passed) := getopt rest
            (found ++ more, passed)
        | (found, some k), [] => (found ++ [.missing k], [])
        | (found, some k), optarg :: rest =>
            let (more, passed) := getopt rest
            (found ++ .valued k optarg :: more, passed)
      else
        let (more, passed) := getopt rest
        (more, e :: passed)

end Getopt

/-- The arguments given to an option, in their order. -/
def arguments {ι κ : Type} [DecidableEq κ] (k : κ) (found : List (Found ι κ)) : List Bytes :=
  found.filterMap fun
    | .valued k' optarg => if k' = k then some optarg else none
    | _ => none

section Arguments

variable {ι κ : Type} [DecidableEq κ] {found found' : List (Found ι κ)}

theorem mem_arguments {k : κ} {a : Bytes} : a ∈ arguments k found ↔ .valued k a ∈ found := by
  unfold arguments
  rw [List.mem_filterMap]
  constructor
  · rintro ⟨f, hf, heq⟩
    cases f with
    | valued k' a' =>
        simp only [Option.ite_none_right_eq_some, Option.some.injEq] at heq
        obtain ⟨rfl, rfl⟩ := heq
        exact hf
    | _ => cases heq
  · intro h
    exact ⟨_, h, if_pos rfl⟩

theorem arguments_append (k : κ) :
    arguments k (found ++ found') = arguments k found ++ arguments k found' :=
  List.filterMap_append

theorem arguments_valued (k k' : κ) (a : Bytes) :
    arguments k ([.valued k' a] : List (Found ι κ)) = if k' = k then [a] else [] := by
  unfold arguments
  split
  · rename_i h
    simp [h]
  · rename_i h
    simp [h]

/-- The order matters only among the arguments of one option. -/
theorem arguments_perm {k : κ} (hperm : found.Perm found')
    (honce : (arguments k found).length ≤ 1) : arguments k found' = arguments k found := by
  have hp : (arguments k found).Perm (arguments k found') := hperm.filterMap _
  cases hl : arguments k found with
  | nil =>
      rw [hl] at hp
      exact List.nil_perm.mp hp
  | cons a as =>
      rw [hl, List.length_cons] at honce
      obtain rfl : as = [] := List.length_eq_zero_iff.mp (by omega)
      rw [hl] at hp
      exact (List.singleton_perm.mp hp).symm

end Arguments

end IpkChat.Foundation
