/-
  Udp/Confirmation.lean --- which datagrams are confirmed.

  By the protocol a CONFIRM answers every datagram that has a header and is not a
  CONFIRM itself, and nothing else.  udp_recv_msg tests the length before it
  confirms; udp_send_msg confirms and records whatever arrives, also a datagram of
  one or two bytes, whose ID is then read from the zeros of the buffer.
-/
import IpkChat.Udp.Receptions

set_option autoImplicit false

namespace IpkChat.Udp

open IpkChat.Foundation IpkChat.Core

/-! ## The CONFIRMs of a run -/

/-- The state of the log when the reception `r` is written to it: the CONFIRMs sent
so far answer the receptions that `isAnswered` selects, and `r` added an ID to the
list exactly if it `recordsId`. -/
def AnsweredAt (before : List Event) (r : Reception) : Prop :=
  confirms before = ((receptions before ++ [r]).filter isAnswered).map answerTo ∧
    r.after.msgIdList.count = r.before.msgIdList.count + (recordsId r).toNat

/-- A relation between a reception and the history before it, at every reception. -/
def AtReceptions (P : List Event → Reception → Prop) (h : List Event) : Prop :=
  EverySplit (fun before e => ∀ r, e = .received r → P before r) h

/-- What is confirmed and recorded along the log. -/
structure Answered (w : World) : Prop where
  confirms_eq : confirms w.trace = ((receptions w.trace).filter isAnswered).map answerTo
  answeredAt : AtReceptions AnsweredAt w.trace

/-- Entries that are no receptions do not matter. -/
theorem AtReceptions.append {P : List Event → Reception → Prop} {h extra : List Event}
    (hall : AtReceptions P h) (hextra : receptions extra = []) : AtReceptions P (h ++ extra) := by
  refine EverySplit.append hall fun e he before r hr => ?_
  have hmem : r ∈ receptions extra := List.mem_filterMap.mpr ⟨e, he, by rw [hr]; rfl⟩
  rw [hextra] at hmem
  cases hmem

theorem answered_init (client : Client) (retransmissions : UInt8) :
    Answered (World.init client retransmissions) :=
  ⟨rfl, everySplit_nil⟩

theorem Answered.silent {w w' : World} (h : Answered w) (hs : Silent w w') : Answered w' := by
  obtain ⟨extra, htrace, hrec, hconf⟩ := hs.trace_eq
  refine ⟨?_, ?_⟩
  · simp [htrace, hrec, hconf, h.confirms_eq]
  · rw [htrace]
    exact h.answeredAt.append hrec

theorem Answered.handled {w w' : World} {a : Arrival} {r : Reception} (h : Answered w)
    (hr : Handled w a w' r) : Answered w' := by
  obtain ⟨extra, htrace, hrec, hconf⟩ := hr.trace_eq
  have hconf' : confirms (w.trace ++ extra) =
      ((receptions (w.trace ++ extra) ++ [r]).filter isAnswered).map answerTo := by
    simp only [List.filterMap_append, hrec, hconf, h.confirms_eq, List.append_nil,
      List.filter_append, List.map_append]
    cases hans : isAnswered r <;> simp [hans]
  have hcount : w'.msgIdList.count = w.msgIdList.count + (recordsId r).toNat := by
    have happend := listAppend_count w.msgIdList (rcvId r.datagram) a.listAlloc
    have hlist := hr.list_eq
    split at hlist
    · rename_i hyes
      rw [hlist] at happend
      rw [happend, hyes]
      rfl
    · rename_i hno
      rw [Bool.not_eq_true] at hno
      rcases hlist with heq | hfail
      · rw [heq, hno]; rfl
      · rw [hfail] at happend
        rw [happend, hno]
        rfl
  refine ⟨?_, ?_⟩
  · rw [htrace]
    simpa using hconf'
  · rw [htrace, AtReceptions, everySplit_concat]
    refine ⟨h.answeredAt.append hrec, ?_⟩
    rintro r' hr'
    cases hr'
    refine ⟨hconf', ?_⟩
    rw [hr.after_eq, hr.before_eq]
    exact hcount

theorem answered_udpRun (client : Client) (retransmissions : UInt8) (calls : List UdpCall) :
    Answered (udpRun client retransmissions calls) :=
  udpRun_logged (answered_init client retransmissions) (fun _ _ h hs => h.silent hs)
    (fun _ _ _ _ (_ : True) h hr => h.handled hr) fun _ _ _ _ => trivial

/-! ## The law -/

/-- The CONFIRMs sent are, in order, one for each datagram that carries the ID of a
message of the server; this holds after each reception, and a datagram shorter
than a header adds no ID to msg_id_list. -/
structure ConfirmLaw (h : List Event) : Prop where
  confirms_eq : confirms h =
    ((receptions h).filter fun r => carriesServerId r.datagram).map answerTo
  atReceptions : AtReceptions (fun before r =>
    confirms before =
        ((receptions before ++ [r]).filter fun s => carriesServerId s.datagram).map answerTo ∧
      (r.datagram.length < headerSize →
        r.after.msgIdList.count = r.before.msgIdList.count)) h

/-- A datagram shorter than a header that does no harm in udp_send_msg: either its
CONFIRM cannot be allocated or sent, or it starts with the type byte of a CONFIRM
and its ID is in the list or cannot be queued or appended. -/
def isHarmless (r : Reception) : Bool :=
  !canConfirm r.arrival r.datagram || isConfirm r.datagram &&
    (listContains r.before.msgIdList (rcvId r.datagram) ||
      !(queueAdd r.before.msgQueue (rcvBuffer r.datagram) (rcvLen r.datagram)
        r.arrival.queueAlloc).2 ||
      (listAppend r.before.msgIdList (rcvId r.datagram) r.arrival.listAlloc).2 == .failure)

/-- The reception is confirmed as the law wants it and adds no ID it must not add. -/
def IsLawful (r : Reception) : Prop :=
  isAnswered r = carriesServerId r.datagram ∧
    (r.datagram.length < headerSize → recordsId r = false)

theorem isLawful_iff {r : Reception} :
    IsLawful r ↔
      (carriesServerId r.datagram = true → canConfirm r.arrival r.datagram = true) ∧
        (r.site = .sendMsg → r.datagram.length < headerSize → isHarmless r = true) := by
  have hexit : ∀ code : ExitCode, (code == .success) = !(code == .failure) := by
    intro code; cases code <;> rfl
  have hawaited : r.datagram.length < headerSize →
      isAwaited r.before.client r.datagram = false := by
    intro hshort
    by_contra haw
    have := (awaited_isConfirm (by simpa using haw)).2
    simp only [rcvLen, headerSize] at this hshort
    omega
  by_cases hshort : r.datagram.length < headerSize
  · have hno : ¬ headerSize ≤ r.datagram.length := by omega
    cases hsite : r.site with
    | recvMsg => simp [IsLawful, isAnswered, recordsId, carriesServerId, hsite, hno]
    | sendMsg =>
        simp only [IsLawful, isAnswered, recordsId, carriesServerId, isHarmless, hsite, hno,
          hshort, hawaited hshort, hexit]
        generalize listContains r.before.msgIdList (rcvId r.datagram) = held
        generalize (queueAdd r.before.msgQueue (rcvBuffer r.datagram) (rcvLen r.datagram)
          r.arrival.queueAlloc).2 = queued
        generalize ((listAppend r.before.msgIdList (rcvId r.datagram)
          r.arrival.listAlloc).2 == ExitCode.failure) = refused
        cases isConfirm r.datagram <;> cases canConfirm r.arrival r.datagram <;> cases held <;>
          cases queued <;> simp
  · have hyes : headerSize ≤ r.datagram.length := by omega
    cases hsite : r.site <;>
      simp only [IsLawful, isAnswered, carriesServerId, hsite, hyes, hshort] <;>
      cases isConfirm r.datagram <;> cases canConfirm r.arrival r.datagram <;> simp

/-- The law holds of a run exactly if every reception is lawful. -/
theorem confirmLaw_iff_isLawful {w : World} (h : Answered w) :
    ConfirmLaw w.trace ↔ ∀ r ∈ receptions w.trace, IsLawful r := by
  constructor
  · intro hlaw
    -- at each reception as many are answered as carry an ID, counting from the start
    have hcount : EverySplit (fun rs r =>
        ((rs ++ [r]).filter isAnswered).length =
            ((rs ++ [r]).filter fun s => carriesServerId s.datagram).length ∧
          (r.datagram.length < headerSize → recordsId r = false)) (receptions w.trace) := by
      refine everySplit_filterMap.mp fun before e after hsplit r hr => ?_
      have he : e = .received r := by cases e <;> simp_all [receptionOf]
      obtain ⟨hconf, hlist⟩ := h.answeredAt before e after hsplit r he
      obtain ⟨hlawConf, hlawList⟩ := hlaw.atReceptions before e after hsplit r he
      refine ⟨?_, fun hshort => ?_⟩
      · have := congrArg List.length (hconf.symm.trans hlawConf)
        simpa [receptions] using this
      · have := hlawList hshort
        rw [hlist] at this
        cases hrec : recordsId r <;> simp [hrec] at this ⊢
    have hsame := forall_eq_of_everySplit_length (hcount.mono fun _ _ hr => hr.1)
    have hshort := everySplit_iff_forall_mem.mp (hcount.mono fun _ _ hr => hr.2)
    exact fun r hr => ⟨hsame r hr, hshort r hr⟩
  · intro hlawful
    have hfilter : ∀ rs : List Reception, (∀ r ∈ rs, r ∈ receptions w.trace) →
        rs.filter isAnswered = rs.filter fun r => carriesServerId r.datagram :=
      fun rs hrs => List.filter_congr fun r hr => (hlawful r (hrs r hr)).1
    refine ⟨by rw [h.confirms_eq, hfilter _ fun r hr => hr], fun before e after hsplit r he => ?_⟩
    obtain ⟨hconf, hlist⟩ := h.answeredAt before e after hsplit r he
    have hmem : ∀ s ∈ receptions before ++ [r], s ∈ receptions w.trace := by
      intro s hs
      have hlog : receptions w.trace = receptions before ++ [r] ++ receptions after := by
        simp [hsplit, he]
      rw [hlog]
      exact List.mem_append_left _ hs
    refine ⟨by rw [hconf, hfilter _ hmem], fun hshort => ?_⟩
    rw [hlist, (hlawful r (hmem r (by simp))).2 hshort]
    rfl

/-- A run obeys the law exactly if every CONFIRM that is owed can be sent and no
datagram shorter than a header does harm in udp_send_msg. -/
theorem confirm_law_iff (client : Client) (retransmissions : UInt8) (calls : List UdpCall) :
    ConfirmLaw (udpRun client retransmissions calls).trace ↔
      ∀ r ∈ receptions (udpRun client retransmissions calls).trace,
        (carriesServerId r.datagram = true → canConfirm r.arrival r.datagram = true) ∧
          (r.site = .sendMsg → r.datagram.length < headerSize → isHarmless r = true) := by
  have h := answered_udpRun client retransmissions calls
  rw [confirmLaw_iff_isLawful h]
  exact forall_congr' fun r => forall_congr' fun _ => isLawful_iff

/-- A datagram of one byte that arrives while udp_send_msg waits is confirmed. -/
theorem short_datagram_is_confirmed :
    ∃ calls : List UdpCall, (∀ c ∈ calls, ∀ a ∈ c.arrivals, noFault a) ∧
      ¬ ConfirmLaw (udpRun sampleClient 3 calls).trace := by
  refine ⟨[.sendMsg .auth true [{ arrival := delivery [4] }, { arrival := delivery [0, 0, 0] }]],
    by decide, fun h => ?_⟩
  exact absurd (congrArg List.length h.confirms_eq) (by decide)

end IpkChat.Udp
