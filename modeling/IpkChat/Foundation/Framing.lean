/-
  Foundation/Framing.lean --- cutting a stream into delimited frames.

  A stream is a list over any alphabet, a delimiter is a non-empty list over the
  same alphabet, and a frame is a piece of the stream that ends with the first
  delimiter found in it.  `frames` is the reference decomposition of a whole
  stream: the frames in order, and the unterminated tail.

  What makes an incremental reader agree with it is that a cut found in a prefix
  of the stream stays the cut of the whole stream (`cut_append`).
-/
import Mathlib

set_option autoImplicit false

namespace IpkChat.Foundation

section Framing

variable {α : Type} [DecidableEq α] {delim : List α}

/-! ## The first occurrence of a delimiter -/

/-- The index of the first occurrence of `delim`. -/
def indexOf (delim : List α) : List α → Option Nat
  | [] => if delim = [] then some 0 else none
  | x :: xs => if delim <+: x :: xs then some 0 else (indexOf delim xs).map (· + 1)

/-- The index found is the least at which the delimiter occurs. -/
theorem indexOf_eq_some_iff {l : List α} {i : Nat} :
    indexOf delim l = some i ↔
      i ≤ l.length ∧ delim <+: l.drop i ∧ ∀ j < i, ¬ delim <+: l.drop j := by
  induction l generalizing i with
  | nil =>
      simp only [indexOf, List.drop_nil, List.prefix_nil, List.length_nil, Nat.le_zero]
      split
      · rename_i hd
        simp only [Option.some.injEq, hd]
        constructor
        · rintro rfl
          exact ⟨rfl, trivial, fun j hj => absurd hj (Nat.not_lt_zero j)⟩
        · exact fun h => h.1.symm
      · rename_i hd
        simp [hd]
  | cons x xs ih =>
      simp only [indexOf]
      split
      · rename_i hd
        simp only [Option.some.injEq]
        constructor
        · rintro rfl
          exact ⟨Nat.zero_le _, hd, fun j hj => absurd hj (Nat.not_lt_zero j)⟩
        · rintro ⟨-, -, hleast⟩
          cases i with
          | zero => rfl
          | succ i => exact absurd hd (by simpa using hleast 0 (Nat.succ_pos i))
      · rename_i hd
        cases i with
        | zero => simp [hd]
        | succ i =>
            simp only [Option.map_eq_some_iff, Nat.add_right_cancel_iff, exists_eq_right, ih,
              List.length_cons, Nat.add_le_add_iff_right, List.drop_succ_cons]
            constructor
            · rintro ⟨hle, hpre, hleast⟩
              refine ⟨hle, hpre, fun j hj => ?_⟩
              cases j with
              | zero => simpa using hd
              | succ j => simpa using hleast j (Nat.lt_of_succ_lt_succ hj)
            · rintro ⟨hle, hpre, hleast⟩
              exact ⟨hle, hpre, fun j hj => by simpa using hleast (j + 1) (Nat.succ_lt_succ hj)⟩

theorem indexOf_eq_none_iff {l : List α} :
    indexOf delim l = none ↔ ∀ j ≤ l.length, ¬ delim <+: l.drop j := by
  constructor
  · intro h j hj hpre
    obtain ⟨i, hi⟩ : ∃ i, indexOf delim l = some i := by
      have hex : ∃ k, delim <+: l.drop k := ⟨j, hpre⟩
      refine ⟨Nat.find hex, indexOf_eq_some_iff.mpr
        ⟨(Nat.find_min' hex hpre).trans hj, Nat.find_spec hex, fun k hk => Nat.find_min hex hk⟩⟩
    rw [h] at hi
    cases hi
  · intro h
    cases hi : indexOf delim l with
    | none => rfl
    | some i =>
        obtain ⟨hle, hpre, -⟩ := indexOf_eq_some_iff.mp hi
        exact absurd hpre (h i hle)

theorem indexOf_bound {l : List α} {i : Nat} (h : indexOf delim l = some i) :
    i + delim.length ≤ l.length := by
  obtain ⟨hle, hpre, -⟩ := indexOf_eq_some_iff.mp h
  have := hpre.length_le
  rw [List.length_drop] at this
  omega

/-- An occurrence found in a prefix of a stream is the first of the stream. -/
theorem indexOf_append {l : List α} {i : Nat} (h : indexOf delim l = some i) (t : List α) :
    indexOf delim (l ++ t) = some i := by
  have hbound := indexOf_bound h
  obtain ⟨hle, hpre, hleast⟩ := indexOf_eq_some_iff.mp h
  refine indexOf_eq_some_iff.mpr ⟨?_, ?_, ?_⟩
  · rw [List.length_append]; omega
  · rw [List.drop_append_of_le_length hle]
    exact hpre.trans (List.prefix_append _ _)
  · intro j hj hprej
    -- an occurrence before `i` would already be complete inside `l`
    rw [List.drop_append_of_le_length (by omega)] at hprej
    refine hleast j hj (List.prefix_of_prefix_length_le hprej (List.prefix_append _ _) ?_)
    rw [List.length_drop]
    omega

/-! ## Frames -/

/-- The first frame of a stream, its delimiter included, and what follows it. -/
def cut (delim : List α) (l : List α) : Option (List α × List α) :=
  (indexOf delim l).map fun i => (l.take (i + delim.length), l.drop (i + delim.length))

theorem cut_eq_none_iff {l : List α} : cut delim l = none ↔ indexOf delim l = none := by
  simp [cut]

theorem cut_eq_some {l m r : List α} (h : cut delim l = some (m, r)) :
    ∃ i, indexOf delim l = some i ∧ m = l.take (i + delim.length) ∧
      r = l.drop (i + delim.length) := by
  simp only [cut, Option.map_eq_some_iff, Prod.mk.injEq] at h
  obtain ⟨i, hi, hm, hr⟩ := h
  exact ⟨i, hi, hm.symm, hr.symm⟩

theorem cut_length {l m r : List α} (hd : delim ≠ []) (h : cut delim l = some (m, r)) :
    r.length < l.length := by
  obtain ⟨i, hi, -, rfl⟩ := cut_eq_some h
  have hbound := indexOf_bound hi
  have hpos : 0 < delim.length := List.length_pos_of_ne_nil hd
  rw [List.length_drop]
  omega

/-- A cut found in a prefix of a stream is the cut of the stream. -/
theorem cut_append {l m r : List α} (h : cut delim l = some (m, r)) (t : List α) :
    cut delim (l ++ t) = some (m, r ++ t) := by
  obtain ⟨i, hi, rfl, rfl⟩ := cut_eq_some h
  have hbound := indexOf_bound hi
  simp only [cut, indexOf_append hi t, Option.map_some, Option.some.injEq, Prod.mk.injEq]
  exact ⟨List.take_append_of_le_length hbound, List.drop_append_of_le_length hbound⟩

/-- A piece of the stream without a delimiter is a proper part of the frame that
the stream starts with. -/
theorem length_lt_of_cut_append {l t m r : List α} (h : cut delim l = none)
    (hcut : cut delim (l ++ t) = some (m, r)) : l.length < m.length := by
  obtain ⟨i, hi, rfl, -⟩ := cut_eq_some hcut
  have hbound := indexOf_bound hi
  obtain ⟨-, hpre, -⟩ := indexOf_eq_some_iff.mp hi
  by_contra hlt
  rw [List.length_take, Nat.min_eq_left hbound, Nat.not_lt] at hlt
  rw [List.drop_append_of_le_length (by omega)] at hpre
  refine indexOf_eq_none_iff.mp (cut_eq_none_iff.mp h) i (by omega)
    (List.prefix_of_prefix_length_le hpre (List.prefix_append _ _) ?_)
  rw [List.length_drop]
  omega

/-- Frames of a stream, looking for at most `fuel` of them. -/
def framesUpTo (delim : List α) : Nat → List α → List (List α) × List α
  | 0, l => ([], l)
  | fuel + 1, l =>
      match cut delim l with
      | none => ([], l)
      | some (m, r) =>
          let rest := framesUpTo delim fuel r
          (m :: rest.1, rest.2)

/-- The frames of a stream in order, and its unterminated tail. -/
def frames (delim : List α) (l : List α) : List (List α) × List α :=
  framesUpTo delim l.length l

/-- Once the fuel covers the length of the stream, more of it changes nothing. -/
theorem framesUpTo_of_le (hd : delim ≠ []) :
    ∀ {fuel : Nat} {l : List α}, l.length ≤ fuel → framesUpTo delim fuel l = frames delim l := by
  intro fuel
  induction fuel using Nat.strong_induction_on with
  | _ fuel ih =>
      intro l hle
      cases fuel with
      | zero =>
          have : l = [] := List.length_eq_zero_iff.mp (Nat.le_zero.mp hle)
          subst this
          rfl
      | succ fuel =>
          cases hc : cut delim l with
          | none =>
              unfold frames
              cases hl : l.length <;> simp [framesUpTo, hc]
          | some mr =>
              obtain ⟨m, r⟩ := mr
              have hlt := cut_length hd hc
              unfold frames
              cases hl : l.length with
              | zero => omega
              | succ n =>
                  simp only [framesUpTo, hc]
                  rw [ih fuel (Nat.lt_succ_self _) (by omega), ih n (by omega) (by omega)]

theorem frames_of_cut_none {l : List α} (h : cut delim l = none) : frames delim l = ([], l) := by
  unfold frames
  cases hl : l.length <;> simp [framesUpTo, h]

theorem frames_of_cut {l m r : List α} (hd : delim ≠ []) (h : cut delim l = some (m, r)) :
    frames delim l = (m :: (frames delim r).1, (frames delim r).2) := by
  have hlt := cut_length hd h
  have hunfold : frames delim l = framesUpTo delim (l.length - 1 + 1) l := by
    rw [Nat.sub_add_cancel (by omega)]; rfl
  rw [hunfold, framesUpTo, h]
  simp only [framesUpTo_of_le hd (show r.length ≤ l.length - 1 by omega)]

/-- A frame on its own: it ends with its first delimiter. -/
def IsFrame (delim : List α) (m : List α) : Prop := cut delim m = some (m, [])

/-- The only delimiter of a list is the first one. -/
theorem indexOf_of_unique {m : List α} (hle : delim.length ≤ m.length)
    (h : ∀ j, delim <+: m.drop j ↔ j + delim.length = m.length) :
    indexOf delim m = some (m.length - delim.length) := by
  refine indexOf_eq_some_iff.mpr ⟨Nat.sub_le _ _, (h _).mpr (by omega), fun j hj hpre => ?_⟩
  have := (h j).mp hpre
  omega

/-- A list whose only delimiter ends it is a frame. -/
theorem isFrame_of_unique {m : List α} (hle : delim.length ≤ m.length)
    (h : ∀ j, delim <+: m.drop j ↔ j + delim.length = m.length) : IsFrame delim m := by
  simp only [IsFrame, cut, indexOf_of_unique hle h, Option.map_some, Option.some.injEq,
    Prod.mk.injEq]
  exact ⟨List.take_of_length_le (by omega), List.drop_eq_nil_of_le (by omega)⟩

/-- A frame consists of a body and a delimiter, which occurs nowhere else. -/
theorem IsFrame.eq_append {m : List α} (h : IsFrame delim m) :
    ∃ body, m = body ++ delim ∧ ∀ j, delim <+: m.drop j → j ≤ m.length → j = body.length := by
  obtain ⟨i, hi, hm, hnil⟩ := cut_eq_some h
  have hbound := indexOf_bound hi
  obtain ⟨-, hpre, hleast⟩ := indexOf_eq_some_iff.mp hi
  have hlen : m.length = i + delim.length := by
    have := congrArg List.length hnil
    simp only [List.length_nil, List.length_drop] at this
    omega
  have hdelim : delim = m.drop i := by
    refine hpre.eq_of_length ?_
    rw [List.length_drop]
    omega
  refine ⟨m.take i, ?_, fun j hj hle => ?_⟩
  · rw [hdelim, List.take_append_drop]
  · have hroom := hj.length_le
    rw [List.length_drop] at hroom
    rw [List.length_take, Nat.min_eq_left (by omega)]
    rcases Nat.lt_trichotomy j i with hlt | heq | hgt
    · exact absurd hj (hleast j hlt)
    · exact heq
    · omega

/-- The end of a frame holds a delimiter exactly if it ends with one. -/
theorem indexOf_suffix_of_isFrame {pre b : List α}
    (h : IsFrame delim (pre ++ b)) {i : Nat} :
    indexOf delim b = some i ↔ ∃ body, b = body ++ delim ∧ body.length = i := by
  obtain ⟨body, hbody, honly⟩ := h.eq_append
  have hlen := congrArg List.length hbody
  simp only [List.length_append] at hlen
  -- an occurrence in the end is one in the frame
  have hat : ∀ k ≤ b.length, delim <+: b.drop k → pre.length + k = body.length := by
    intro k hk hpre
    refine honly _ ?_ (by rw [List.length_append]; omega)
    rwa [List.drop_append, List.drop_eq_nil_of_le (by omega), List.nil_append,
      Nat.add_sub_cancel_left]
  constructor
  · intro hi
    obtain ⟨hle, hpre, -⟩ := indexOf_eq_some_iff.mp hi
    have hat' := hat i hle hpre
    have hdelim : delim = b.drop i := by
      refine hpre.eq_of_length ?_
      rw [List.length_drop]
      omega
    exact ⟨b.take i, by rw [hdelim, List.take_append_drop], List.length_take_of_le hle⟩
  · rintro ⟨front, rfl, rfl⟩
    refine indexOf_eq_some_iff.mpr ⟨by simp, by simp, fun j hj hpre => ?_⟩
    have hhere := hat front.length (by simp) (by simp)
    have hthere := hat j (by rw [List.length_append]; omega) hpre
    omega

/-- A sequence of frames is read back as exactly these frames. -/
theorem frames_flatten (hd : delim ≠ []) {ms : List (List α)} (h : ∀ m ∈ ms, IsFrame delim m) :
    frames delim ms.flatten = (ms, []) := by
  induction ms with
  | nil => rfl
  | cons m ms ih =>
      have hm : cut delim (m ++ ms.flatten) = some (m, ms.flatten) := by
        simpa using cut_append (h m List.mem_cons_self) ms.flatten
      rw [List.flatten_cons, frames_of_cut hd hm,
        ih fun m' hm' => h m' (List.mem_cons_of_mem m hm')]

omit [DecidableEq α] in
/-- The occurrences of a delimiter of two characters, read off the list. -/
theorem pair_prefix_drop_iff {a b : α} {l : List α} {j : Nat} :
    [a, b] <+: l.drop j ↔ l[j]? = some a ∧ l[j + 1]? = some b := by
  have h0 : l[j]? = (l.drop j)[0]? := by simp
  have h1 : l[j + 1]? = (l.drop j)[1]? := by simp
  rw [h0, h1]
  generalize l.drop j = t
  match t with
  | [] => simp
  | [x] => simp
  | x :: y :: t => simp [eq_comm]

end Framing

end IpkChat.Foundation
