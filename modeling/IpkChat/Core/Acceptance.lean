/-
  Core/Acceptance.lean --- which argument vectors are accepted.

  process_args keeps a flag for each option it has seen.  After any number of options its
  state is a function of the options, whatever their order (`stateOf`), so a vector is
  accepted for what it holds.  It accepts numbers as strtol reads them, which are more
  than strings of digits.
-/
import IpkChat.Core.Args

set_option autoImplicit false

namespace IpkChat.Core

open IpkChat.Foundation

/-! ## The property and the condition -/

/-- The options of a vector, and the elements that are none. -/
abbrev optionsOf (argv : List Bytes) : List (Found Flag Valued) × List Bytes :=
  getopt optstring (argv.drop 1)

/-- The largest number that an option takes. -/
def bound : Valued → Option Nat
  | .p => some 65535
  | .d => some 65535
  | .r => some 255
  | _ => none

/-- The vectors that are to be accepted, with what counts as a number up to a bound. -/
structure Acceptable (number : Nat → Bytes → Prop) (found : List (Found Flag Valued))
    (passed : List Bytes) : Prop where
  known : ∀ c, .unknown c ∉ found
  complete : ∀ k, .missing k ∉ found
  no_leftover : passed = []
  no_help : ∀ i, .flag i ∉ found
  once : ∀ k, (arguments k found).length ≤ 1
  no_hyphen : ∀ k, ∀ a ∈ arguments k found, a.head? ≠ some 0x2D
  protocol_given : arguments .t found ≠ []
  server_given : arguments .s found ≠ []
  protocol : ∀ a ∈ arguments .t found, a = ascii "tcp" ∨ a = ascii "udp"
  number_valid : ∀ k, ∀ a ∈ arguments k found, ∀ max, bound k = some max → number max a

/-- The parameters that a vector gives, with the defaults for those it does not. -/
def given (found : List (Found Flag Valued)) : Parameters where
  tcp := (arguments .t found).head? == some (ascii "tcp")
  ipOrDomain := (arguments .s found).head?
  port := (arguments .p found).headD (ascii "4567")
  timeout := ((arguments .d found).head?.map fun a => UInt16.ofNat (decimal a)).getD 250
  retransmissions := ((arguments .r found).head?.map fun a => UInt8.ofNat (decimal a)).getD 3

/-- The acceptable vectors are accepted, and the parameters are those given, in any
order. -/
structure AcceptsExactly (einval : Bool) (argv : List Bytes) : Prop where
  success_iff : (processArgs einval argv).2 = .returned .success ↔
    Acceptable Numeral (optionsOf argv).1 (optionsOf argv).2
  parameters_eq : (processArgs einval argv).2 = .returned .success →
    (processArgs einval argv).1 = given (optionsOf argv).1
  any_order : (processArgs einval argv).2 = .returned .success →
    ∀ argv', (optionsOf argv).1.Perm (optionsOf argv').1 → (optionsOf argv').2 = [] →
      processArgs einval argv' = processArgs einval argv

/-- strtol takes the string whole for a number up to `max`. -/
def ReadsNumber (einval : Bool) (max : Nat) (s : Bytes) : Prop := ∃ v, Readable einval max s v

/-- A number that strtol reads is empty or holds more than digits, in a vector with
nothing else wrong. -/
structure LooseNumber (einval : Bool) (found : List (Found Flag Valued)) (passed : List Bytes) :
    Prop where
  otherwise : Acceptable (ReadsNumber einval) found passed
  loose : ∃ k a, a ∈ arguments k found ∧ bound k ≠ none ∧ (a = [] ∨ ∃ c ∈ a, isdigit c = false)

/-! ## The state after some options -/

section State

variable {einval : Bool} {found : List (Found Flag Valued)}

/-- -h is among them. -/
def helpGiven (found : List (Found Flag Valued)) : Bool := found.any (· == .flag .h)

/-- An option with an argument is among them. -/
def valuedGiven (found : List (Found Flag Valued)) : Bool :=
  found.any fun
    | .valued _ _ => true
    | _ => false

/-- The state that process_args has reached when it has accepted these options. -/
def stateOf (einval : Bool) (found : List (Found Flag Valued)) : ArgsState where
  parameters := {
    tcp := (arguments .t found).head? == some (ascii "tcp")
    ipOrDomain := (arguments .s found).head?
    port := (arguments .p found).headD (ascii "4567")
    timeout := ((arguments .d found).head?.map fun a =>
      UInt16.ofNat (strtol einval a).val.toNat).getD 250
    retransmissions := ((arguments .r found).head?.map fun a =>
      UInt8.ofNat (strtol einval a).val.toNat).getD 3 }
  protocolSet := (arguments .t found).head?.isSome
  timeoutSet := (arguments .d found).head?.isSome
  retransmissionsSet := (arguments .r found).head?.isSome
  helpSet := helpGiven found
  onlyOpt := !valuedGiven found
  portSet := (arguments .p found).head?.isSome
  errno := false

/-- The switch takes the option, if it has not come before. -/
def Fits (einval : Bool) : Found Flag Valued → Prop
  | .valued k a => a.head? ≠ some 0x2D ∧ (k = .t → a = ascii "tcp" ∨ a = ascii "udp") ∧
      ∀ max, bound k = some max → ReadsNumber einval max a
  | .flag _ => True
  | .missing _ => False
  | .unknown _ => False

/-- It has not come before. -/
def Fresh (found : List (Found Flag Valued)) : Found Flag Valued → Prop
  | .valued k _ => arguments k found = []
  | .flag _ => helpGiven found = false
  | .missing _ => True
  | .unknown _ => True

theorem parseInt_reads {max : Nat} (hmax : (max : Int) ≤ longMax) {a : Bytes}
    (h : ReadsNumber einval max a) :
    parseInt einval false a max = (some (strtol einval a).val, false) := by
  obtain ⟨v, hv⟩ := h
  have hle : v ≤ max := by
    cases hv with
    | empty => exact Nat.zero_le max
    | numeral _ _ hdigits => exact hdigits.le
  have hread := strtol_readable hmax hv
  unfold parseInt
  simp only [hread, Bool.or_false]
  rw [if_neg]
  simp only [Bool.false_eq_true, ne_eq, not_true_eq_false, false_or, not_or, not_lt]
  omega

theorem parseInt_not_reads {max : Nat} {a : Bytes} (h : ¬ ReadsNumber einval max a) :
    (parseInt einval false a max).1 = none := by
  unfold parseInt
  simp only [Bool.false_or]
  split
  · rfl
  · rename_i hread
    simp only [not_or, ne_eq, not_not, not_lt, Bool.not_eq_true] at hread
    obtain ⟨herrno, hend, hpos, hle⟩ := hread
    obtain ⟨v, hv, -⟩ := readable_of_strtol herrno hend hpos hle
    exact absurd ⟨v, hv⟩ h

theorem checkOptarg_iff {k : Valued} {a : Bytes} :
    checkOptarg a (arguments k found).head?.isSome = true ↔
      a.head? ≠ some 0x2D ∧ arguments k found = [] := by
  unfold checkOptarg
  cases arguments k found with
  | nil => simp
  | cons b bs => simp

theorem arguments_flag (k : Valued) :
    arguments k (found ++ [.flag .h]) = arguments k found := by
  rw [arguments_append]
  exact List.append_nil _

theorem arguments_other {k k' : Valued} (hne : k' ≠ k) (a : Bytes) :
    arguments k (found ++ [.valued k' a]) = arguments k found := by
  rw [arguments_append, arguments_valued, if_neg hne, List.append_nil]

theorem arguments_fresh {k : Valued} (h : arguments k found = []) (a : Bytes) :
    arguments k (found ++ [.valued k a]) = [a] := by
  rw [arguments_append, arguments_valued, if_pos rfl, h, List.nil_append]

theorem helpGiven_valued (k : Valued) (a : Bytes) :
    helpGiven (found ++ [.valued k a]) = helpGiven found := by
  unfold helpGiven
  rw [List.any_append]
  exact Bool.or_false _

theorem valuedGiven_valued (k : Valued) (a : Bytes) :
    valuedGiven (found ++ [.valued k a]) = true := by
  unfold valuedGiven
  rw [List.any_append]
  exact Bool.or_true _

theorem stateOf_flag :
    stateOf einval (found ++ [.flag .h]) = { stateOf einval found with helpSet := true } := by
  have hhelp : helpGiven (found ++ [.flag .h]) = true := by
    unfold helpGiven
    rw [List.any_append]
    exact Bool.or_true _
  have hvalued : valuedGiven (found ++ [.flag .h]) = valuedGiven found := by
    unfold valuedGiven
    rw [List.any_append]
    exact Bool.or_false _
  simp only [stateOf, arguments_flag, hhelp, hvalued]

/-- The switch on a valid option that is fresh leads from one state to the next. -/
theorem argsCase_valued {k : Valued} {a : Bytes} (hfits : Fits einval (.valued k a))
    (hfresh : arguments k found = []) :
    argsCase einval (stateOf einval found) (.valued k a) =
      .ok (stateOf einval (found ++ [.valued k a])) := by
  obtain ⟨hhyphen, hprotocol, hnumber⟩ := hfits
  have hcheck : checkOptarg a (arguments k found).head?.isSome = true :=
    checkOptarg_iff.mpr ⟨hhyphen, hfresh⟩
  -- the other options keep their arguments
  have hother : ∀ k', k ≠ k' → arguments k' (found ++ [.valued k a]) = arguments k' found :=
    fun k' hne => arguments_other hne a
  cases k with
  | t =>
      have hcheck' : checkOptarg a (stateOf einval found).protocolSet = true := hcheck
      have hset : setProtocol (stateOf einval found).parameters a =
          some { (stateOf einval found).parameters with tcp := a == ascii "tcp" } := by
        rcases hprotocol rfl with rfl | rfl
        · rfl
        · rfl
      rw [argsCase, hcheck', hset]
      simp only [stateOf, arguments_fresh hfresh, hother .s (by decide), hother .p (by decide),
        hother .d (by decide), hother .r (by decide), helpGiven_valued, valuedGiven_valued]
      rfl
  | s =>
      have hcheck' : checkOptarg a (stateOf einval found).parameters.ipOrDomain.isSome = true :=
        hcheck
      rw [argsCase, hcheck']
      simp only [stateOf, arguments_fresh hfresh, hother .t (by decide), hother .p (by decide),
        hother .d (by decide), hother .r (by decide), helpGiven_valued, valuedGiven_valued]
      rfl
  | p =>
      have hcheck' : checkOptarg a (stateOf einval found).portSet = true := hcheck
      have hparse : parseInt einval (stateOf einval found).errno a 65535 =
          (some (strtol einval a).val, false) := parseInt_reads (by decide) (hnumber 65535 rfl)
      rw [argsCase, hcheck', hparse]
      simp only [stateOf, arguments_fresh hfresh, hother .t (by decide), hother .s (by decide),
        hother .d (by decide), hother .r (by decide), helpGiven_valued, valuedGiven_valued]
      rfl
  | d =>
      have hcheck' : checkOptarg a (stateOf einval found).timeoutSet = true := hcheck
      have hparse : parseInt einval (stateOf einval found).errno a 65535 =
          (some (strtol einval a).val, false) := parseInt_reads (by decide) (hnumber 65535 rfl)
      rw [argsCase, hcheck', hparse]
      simp only [stateOf, arguments_fresh hfresh, hother .t (by decide), hother .s (by decide),
        hother .p (by decide), hother .r (by decide), helpGiven_valued, valuedGiven_valued]
      rfl
  | r =>
      have hcheck' : checkOptarg a (stateOf einval found).retransmissionsSet = true := hcheck
      have hparse : parseInt einval (stateOf einval found).errno a 255 =
          (some (strtol einval a).val, false) := parseInt_reads (by decide) (hnumber 255 rfl)
      rw [argsCase, hcheck', hparse]
      simp only [stateOf, arguments_fresh hfresh, hother .t (by decide), hother .s (by decide),
        hother .p (by decide), hother .d (by decide), helpGiven_valued, valuedGiven_valued]
      rfl

/-- So does the switch on any option that it takes and that has not come before. -/
theorem argsCase_fresh {f : Found Flag Valued} (hfits : Fits einval f) (hfresh : Fresh found f) :
    argsCase einval (stateOf einval found) f = .ok (stateOf einval (found ++ [f])) := by
  cases f with
  | flag i =>
      have hhelp : (stateOf einval found).helpSet = false := hfresh
      rw [stateOf_flag, argsCase, hhelp]
      rfl
  | valued k a => exact argsCase_valued hfits hfresh
  | missing k => cases hfits
  | unknown c => cases hfits

/-- An option that has not come before comes once. -/
theorem once_concat {f : Found Flag Valued} (honce : ∀ k, (arguments k found).length ≤ 1)
    (hfits : Fits einval f) (hfresh : Fresh found f) (k : Valued) :
    (arguments k (found ++ [f])).length ≤ 1 := by
  cases f with
  | flag i =>
      rw [arguments_flag]
      exact honce k
  | valued k' a =>
      by_cases hk : k' = k
      · subst hk
        rw [arguments_fresh hfresh]
        exact Nat.le_refl 1
      · rw [arguments_other hk]
        exact honce k
  | missing k => cases hfits
  | unknown c => cases hfits

theorem setProtocol_some {parameters parameters' : Parameters} {a : Bytes}
    (h : setProtocol parameters a = some parameters') : a = ascii "tcp" ∨ a = ascii "udp" := by
  unfold setProtocol at h
  split at h
  case isTrue htcp => exact Or.inl htcp
  case isFalse =>
    split at h
    case isTrue hudp => exact Or.inr hudp
    case isFalse => cases h

/-- A number that is not read ends process_args. -/
theorem readsNumber_of_parseInt {max : Nat} {a : Bytes} {v : Int} {errno : Bool}
    (h : parseInt einval false a max = (some v, errno)) : ReadsNumber einval max a := by
  by_contra hnot
  have hnone := parseInt_not_reads hnot
  rw [h] at hnone
  cases hnone

/-- What the case of an option tests for its redefinition. -/
def seen (s : ArgsState) : Valued → Bool
  | .t => s.protocolSet
  | .s => s.parameters.ipOrDomain.isSome
  | .p => s.portSet
  | .d => s.timeoutSet
  | .r => s.retransmissionsSet

theorem seen_stateOf (k : Valued) :
    seen (stateOf einval found) k = (arguments k found).head?.isSome := by
  cases k with
  | t | s | p | d | r => rfl

theorem checkOptarg_of_argsCase {s s' : ArgsState} {k : Valued} {a : Bytes}
    (h : argsCase einval s (.valued k a) = .ok s') : checkOptarg a (seen s k) = true := by
  by_contra hnot
  have hrefused : (!checkOptarg a (seen s k)) = true := by
    rw [Bool.eq_false_iff.mpr hnot]
    rfl
  cases k with
  | t | s | p | d | r => cases (if_pos hrefused).symm.trans h

theorem protocol_of_argsCase {s s' : ArgsState} {a : Bytes}
    (h : argsCase einval s (.valued .t a) = .ok s') : a = ascii "tcp" ∨ a = ascii "udp" := by
  rw [argsCase] at h
  split at h
  · cases h
  · split at h
    · cases h
    · rename_i parameters hset
      exact setProtocol_some hset

/-- A number that is taken has been read. -/
theorem number_of_argsCase {s s' : ArgsState} (herrno : s.errno = false) {k : Valued} {a : Bytes}
    {max : Nat} (hbound : bound k = some max) (h : argsCase einval s (.valued k a) = .ok s') :
    ReadsNumber einval max a := by
  cases k with
  | t | s => cases hbound
  | p | d | r =>
      obtain rfl := Option.some.inj hbound
      rw [argsCase, herrno] at h
      split at h
      · cases h
      · split at h
        · cases h
        · rename_i v errno hparse
          exact readsNumber_of_parseInt hparse

/-- The switch goes on only with a valid option that is fresh. -/
theorem fits_of_argsCase {f : Found Flag Valued} {s : ArgsState}
    (h : argsCase einval (stateOf einval found) f = .ok s) :
    Fits einval f ∧ Fresh found f := by
  cases f with
  | flag i =>
      refine ⟨trivial, ?_⟩
      by_contra hhelp
      rw [Fresh, Bool.not_eq_false] at hhelp
      have hrefused : (stateOf einval found).helpSet = true := hhelp
      cases (if_pos hrefused).symm.trans h
  | missing k => cases h
  | unknown c => cases h
  | valued k a =>
      have hcheck := checkOptarg_of_argsCase h
      rw [seen_stateOf, checkOptarg_iff] at hcheck
      refine ⟨⟨hcheck.1, ?_, ?_⟩, hcheck.2⟩
      · rintro rfl
        exact protocol_of_argsCase h
      · intro max hbound
        exact number_of_argsCase rfl hbound h

/-! ## The loop -/

theorem foldlM_concat (f : Found Flag Valued) (s : ArgsState) :
    (found ++ [f]).foldlM (argsCase einval) s =
      (found.foldlM (argsCase einval) s).bind fun t => argsCase einval t f := by
  rw [List.foldlM_append]
  congr 1
  funext t
  rw [List.foldlM_cons]
  exact bind_pure _

/-- The state of the loop is that of the options it has taken. -/
theorem loop_ok {s : ArgsState} (h : found.foldlM (argsCase einval) argsStart = .ok s) :
    s = stateOf einval found ∧ (∀ f ∈ found, Fits einval f) ∧
      ∀ k, (arguments k found).length ≤ 1 := by
  induction found using List.reverseRecOn generalizing s with
  | nil =>
      obtain rfl : argsStart = s := Except.ok.inj h
      exact ⟨rfl, fun f hf => absurd hf List.not_mem_nil, fun k => Nat.zero_le 1⟩
  | append_singleton found f ih =>
      rw [foldlM_concat] at h
      cases hbefore : found.foldlM (argsCase einval) argsStart with
      | error t =>
          rw [hbefore] at h
          cases h
      | ok t =>
          obtain ⟨rfl, hfits, honce⟩ := ih hbefore
          rw [hbefore] at h
          obtain ⟨hfit, hfresh⟩ := fits_of_argsCase h
          refine ⟨?_, ?_, once_concat honce hfit hfresh⟩
          · exact Except.ok.inj (h.symm.trans (argsCase_fresh hfit hfresh))
          · intro g hg
            rcases List.mem_append.mp hg with hg | hg
            · exact hfits g hg
            · rw [List.mem_singleton.mp hg]
              exact hfit

/-- Valid options, none of which comes twice, are all taken. -/
theorem loop_of_fits (hfits : ∀ f ∈ found, Fits einval f) (hhelp : ∀ i, .flag i ∉ found)
    (honce : ∀ k, (arguments k found).length ≤ 1) :
    found.foldlM (argsCase einval) argsStart = .ok (stateOf einval found) := by
  induction found using List.reverseRecOn with
  | nil => rfl
  | append_singleton found f ih =>
      have hbefore := ih (fun g hg => hfits g (List.mem_append_left _ hg))
        (fun i hi => hhelp i (List.mem_append_left _ hi)) (by
          intro k
          have hlen := honce k
          rw [arguments_append, List.length_append] at hlen
          omega)
      have hlast : f ∈ found ++ [f] := List.mem_append_right found List.mem_cons_self
      have hfit := hfits f hlast
      rw [foldlM_concat, hbefore]
      cases f with
      | flag i => exact absurd hlast (hhelp i)
      | valued k a =>
          have hlen := honce k
          rw [arguments_append, arguments_valued, if_pos rfl, List.length_append,
            List.length_singleton] at hlen
          exact argsCase_valued hfit (List.length_eq_zero_iff.mp (by omega))
      | missing k => cases hfit
      | unknown c => cases hfit

/-! ## The end of the loop -/

theorem helpGiven_eq_false_iff : helpGiven found = false ↔ ∀ i, .flag i ∉ found := by
  unfold helpGiven
  rw [List.any_eq_false]
  constructor
  · intro h i hi
    cases i with
    | h => exact h _ hi rfl
  · intro h f hf hflag
    rw [beq_iff_eq.mp hflag] at hf
    exact h .h hf

theorem head?_isSome_iff {l : List Bytes} : l.head?.isSome = true ↔ l ≠ [] := by
  cases l with
  | nil => simp
  | cons a as => simp

theorem argsEnd_success_iff {passed : List Bytes} :
    argsEnd (stateOf einval found) passed = .returned .success ↔
      (∀ i, .flag i ∉ found) ∧ arguments .t found ≠ [] ∧ arguments .s found ≠ [] ∧
        passed = [] := by
  rw [← helpGiven_eq_false_iff, ← head?_isSome_iff, ← head?_isSome_iff]
  unfold argsEnd
  have hhelp : (stateOf einval found).helpSet = helpGiven found := rfl
  have hprotocol : (stateOf einval found).protocolSet = (arguments .t found).head?.isSome := rfl
  have hserver : (stateOf einval found).parameters.ipOrDomain = (arguments .s found).head? := rfl
  rw [hhelp, hprotocol, hserver]
  cases helpGiven found with
  | true =>
      rw [Bool.and_true]
      split
      · simp
      · simp
  | false =>
      rw [Bool.and_false]
      cases (arguments .t found).head?.isSome with
      | false => simp
      | true =>
          cases (arguments .s found).head? with
          | none => simp
          | some a =>
              by_cases hpassed : passed = []
              · simp [hpassed]
              · simp [hpassed]

end State

/-! ## Vectors -/

section Vectors

variable {einval : Bool} {argv : List Bytes}

theorem processArgs_ok {s : ArgsState}
    (h : (optionsOf argv).1.foldlM (argsCase einval) argsStart = .ok s) :
    processArgs einval argv = (s.parameters, argsEnd s (optionsOf argv).2) := by
  unfold processArgs
  simp only [h]

theorem processArgs_of_acceptable
    (h : Acceptable (ReadsNumber einval) (optionsOf argv).1 (optionsOf argv).2) :
    processArgs einval argv =
      ((stateOf einval (optionsOf argv).1).parameters, .returned .success) := by
  have hfits : ∀ f ∈ (optionsOf argv).1, Fits einval f := by
    intro f hf
    cases f with
    | flag i => trivial
    | missing k => exact h.complete k hf
    | unknown c => exact h.known c hf
    | valued k a =>
        have ha := mem_arguments.mpr hf
        refine ⟨h.no_hyphen k a ha, ?_, h.number_valid k a ha⟩
        rintro rfl
        exact h.protocol a ha
  rw [processArgs_ok (loop_of_fits hfits h.no_help h.once),
    argsEnd_success_iff.mpr ⟨h.no_help, h.protocol_given, h.server_given, h.no_leftover⟩]

/-- process_args accepts the vectors that are acceptable with the numbers of strtol. -/
theorem success_iff : (processArgs einval argv).2 = .returned .success ↔
    Acceptable (ReadsNumber einval) (optionsOf argv).1 (optionsOf argv).2 := by
  constructor
  · intro hsuccess
    cases hloop : (optionsOf argv).1.foldlM (argsCase einval) argsStart with
    | error s =>
        unfold processArgs at hsuccess
        simp only [hloop] at hsuccess
        cases hsuccess
    | ok s =>
        obtain ⟨rfl, hfits, honce⟩ := loop_ok hloop
        rw [processArgs_ok hloop] at hsuccess
        obtain ⟨hhelp, hprotocol, hserver, hpassed⟩ := argsEnd_success_iff.mp hsuccess
        have hvalued : ∀ k, ∀ a ∈ arguments k (optionsOf argv).1, Fits einval (.valued k a) :=
          fun k a ha => hfits _ (mem_arguments.mp ha)
        exact {
          known := fun c hc => hfits _ hc
          complete := fun k hk => hfits _ hk
          no_leftover := hpassed
          no_help := hhelp
          once := honce
          no_hyphen := fun k a ha => (hvalued k a ha).1
          protocol_given := hprotocol
          server_given := hserver
          protocol := fun a ha => (hvalued .t a ha).2.1 rfl
          number_valid := fun k a ha max hbound => (hvalued k a ha).2.2 max hbound }
  · intro hacc
    rw [processArgs_of_acceptable hacc]

section Numbers

variable {number number' : Nat → Bytes → Prop} {found found' : List (Found Flag Valued)}
  {passed : List Bytes}

/-- Only the numbers depend on what counts as one. -/
theorem Acceptable.imp (h : Acceptable number found passed)
    (himp : ∀ k, ∀ a ∈ arguments k found, ∀ max, bound k = some max → number max a →
      number' max a) : Acceptable number' found passed :=
  { h with
    number_valid := fun k a ha max hbound =>
      himp k a ha max hbound (h.number_valid k a ha max hbound) }

/-- Nothing depends on the order of the options. -/
theorem Acceptable.perm (h : Acceptable number found []) (hperm : found.Perm found') :
    Acceptable number found' [] := by
  have harguments : ∀ k, arguments k found' = arguments k found :=
    fun k => arguments_perm hperm (h.once k)
  exact {
    known := fun c hc => h.known c (hperm.mem_iff.mpr hc)
    complete := fun k hk => h.complete k (hperm.mem_iff.mpr hk)
    no_leftover := rfl
    no_help := fun i hi => h.no_help i (hperm.mem_iff.mpr hi)
    once := fun k => harguments k ▸ h.once k
    no_hyphen := fun k => harguments k ▸ h.no_hyphen k
    protocol_given := harguments .t ▸ h.protocol_given
    server_given := harguments .s ▸ h.server_given
    protocol := harguments .t ▸ h.protocol
    number_valid := fun k => harguments k ▸ h.number_valid k }

theorem parameters_perm (hperm : found.Perm found')
    (honce : ∀ k, (arguments k found).length ≤ 1) :
    (stateOf einval found').parameters = (stateOf einval found).parameters := by
  simp only [stateOf, fun k => arguments_perm hperm (honce k)]

/-- strtol reads the value of a numeral. -/
theorem strtol_numeral {max : Nat} (hmax : (max : Int) ≤ longMax) {a : Bytes}
    (h : Numeral max a) : (strtol einval a).val.toNat = decimal a := by
  rw [strtol_readable hmax h.readable]
  exact Int.toNat_natCast _

theorem parameters_eq_given (h : Acceptable Numeral found passed) :
    (stateOf einval found).parameters = given found := by
  have hread : ∀ k max, bound k = some max → (max : Int) ≤ longMax →
      ∀ a ∈ (arguments k found).head?, (strtol einval a).val.toNat = decimal a := by
    intro k max hbound hmax a ha
    exact strtol_numeral hmax (h.number_valid k a (List.mem_of_head? ha) max hbound)
  have htimeout : ((arguments .d found).head?.map fun a =>
      UInt16.ofNat (strtol einval a).val.toNat) =
        (arguments .d found).head?.map fun a => UInt16.ofNat (decimal a) :=
    Option.map_congr fun a ha => by rw [hread .d 65535 rfl (by decide) a ha]
  have hretransmissions : ((arguments .r found).head?.map fun a =>
      UInt8.ofNat (strtol einval a).val.toNat) =
        (arguments .r found).head?.map fun a => UInt8.ofNat (decimal a) :=
    Option.map_congr fun a ha => by rw [hread .r 255 rfl (by decide) a ha]
  simp only [stateOf, given, htimeout, hretransmissions]

/-- A loose number is no string of digits. -/
theorem LooseNumber.not_acceptable (h : LooseNumber einval found passed) :
    ¬ Acceptable Numeral found passed := by
  intro hacc
  obtain ⟨k, a, ha, hbound, hform⟩ := h.loose
  obtain ⟨max, hmax⟩ := Option.ne_none_iff_exists'.mp hbound
  have hnumeral := hacc.number_valid k a ha max hmax
  rcases hform with hempty | ⟨c, hc, hdigit⟩
  · exact hnumeral.ne_nil hempty
  · rw [hnumeral.digits c hc] at hdigit
    cases hdigit

/-- The numbers that strtol reads are strings of digits, if none is loose. -/
theorem Acceptable.numerals (h : Acceptable (ReadsNumber einval) found passed)
    (hstrict : ¬ LooseNumber einval found passed) : Acceptable Numeral found passed := by
  apply h.imp
  intro k a ha max hbound ⟨v, hv⟩
  have hform : ¬ (a = [] ∨ ∃ c ∈ a, isdigit c = false) :=
    fun hform => hstrict ⟨h, k, a, ha, by rw [hbound]; exact Option.some_ne_none _, hform⟩
  obtain ⟨hne, hall⟩ := not_or.mp hform
  apply hv.toNumeral hne
  intro c hc
  by_contra hdigit
  exact hall ⟨c, hc, Bool.eq_false_iff.mpr hdigit⟩

end Numbers

/-- process_args accepts exactly the acceptable vectors, unless nothing is wrong with one
but a number that strtol reads and that is not a string of digits. -/
theorem accepts_exactly_iff (einval : Bool) (argv : List Bytes) :
    AcceptsExactly einval argv ↔ ¬ LooseNumber einval (optionsOf argv).1 (optionsOf argv).2 := by
  constructor
  · intro hlaw hloose
    exact hloose.not_acceptable (hlaw.success_iff.mp (success_iff.mpr hloose.otherwise))
  · intro hstrict
    have hnumerals : (processArgs einval argv).2 = .returned .success →
        Acceptable Numeral (optionsOf argv).1 (optionsOf argv).2 :=
      fun hsuccess => (success_iff.mp hsuccess).numerals hstrict
    constructor
    · constructor
      · exact hnumerals
      · intro hacc
        apply success_iff.mpr
        exact hacc.imp fun _ _ _ _ _ hnumeral => ⟨_, hnumeral.readable⟩
    · intro hsuccess
      rw [processArgs_of_acceptable (success_iff.mp hsuccess)]
      exact parameters_eq_given (hnumerals hsuccess)
    · intro hsuccess argv' hperm hpassed
      have hacc := success_iff.mp hsuccess
      have hacc' : Acceptable (ReadsNumber einval) (optionsOf argv').1 (optionsOf argv').2 := by
        rw [hacc.no_leftover] at hacc
        rw [hpassed]
        exact hacc.perm hperm
      rw [processArgs_of_acceptable hacc, processArgs_of_acceptable hacc',
        parameters_perm hperm hacc.once]

end Vectors

/-! ## A port with a sign -/

/-- The vector of `ipk25chat-client -t tcp -s x -p +80`. -/
def signedPort : List Bytes :=
  ["ipk25chat-client", "-t", "tcp", "-s", "x", "-p", "+80"].map ascii

/-- It is accepted, and its port is not a string of digits. -/
theorem signed_port_accepted : ¬ AcceptsExactly false signedPort := by
  intro hlaw
  have hsuccess : (processArgs false signedPort).2 = .returned .success := by decide +kernel
  have hport : ascii "+80" ∈ arguments .p (optionsOf signedPort).1 := by decide +kernel
  have hnumeral := (hlaw.success_iff.mp hsuccess).number_valid .p _ hport 65535 rfl
  exact absurd (hnumeral.digits 0x2B (by decide)) (by decide)

end IpkChat.Core
