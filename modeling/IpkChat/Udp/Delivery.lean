/-
  Udp/Delivery.lean --- no message of the server is lost.

  msg_id_list is meant to hold the IDs of the messages the server sent.  It also
  takes in IDs that no server message carried: those of CONFIRMs, which are IDs
  of the client's own messages, and in udp_send_msg those of datagrams too short
  to have an ID at all, read from the zeros of the buffer.  `isStray` marks the
  receptions that do this; `no_server_msg_lost_iff` says that a message is lost
  to them and to nothing else.
-/
import IpkChat.Udp.Receptions

set_option autoImplicit false

namespace IpkChat.Udp

open IpkChat.Foundation IpkChat.Core

/-! ## The list and the log -/

/-- An earlier reception put the ID in msg_id_list. -/
def recordedBefore (before : List Reception) (id : UInt16) : Prop :=
  ∃ r ∈ before, recordsId r = true ∧ rcvId r.datagram = id

theorem recordedBefore_concat {before : List Reception} {r : Reception} {id : UInt16} :
    recordedBefore (before ++ [r]) id ↔
      recordedBefore before id ∨ recordsId r = true ∧ rcvId r.datagram = id := by
  simp only [recordedBefore, List.mem_append, List.mem_singleton]
  constructor
  · rintro ⟨r', hr' | rfl, hid⟩
    · exact Or.inl ⟨r', hr', hid⟩
    · exact Or.inr hid
  · rintro (⟨r', hr', hid⟩ | hid)
    · exact ⟨r', Or.inl hr', hid⟩
    · exact ⟨r, Or.inr rfl, hid⟩

/-- The list holds what the log says, and a message of the server is delivered
exactly if its ID was not recorded before. -/
structure Logged (w : World) : Prop where
  list_wf : w.msgIdList.WellFormed
  ids_iff : ∀ id, id ∈ w.msgIdList.ids ↔ recordedBefore (receptions w.trace) id
  delivered_iff : EverySplit (fun before r => isServerMsg r.datagram = true →
    (Delivered r ↔ ¬ recordedBefore before (rcvId r.datagram))) (receptions w.trace)

theorem logged_init (client : Client) (retransmissions : UInt8) :
    Logged (World.init client retransmissions) where
  list_wf := IdList.wellFormed_empty
  ids_iff id := by simp [World.init, recordedBefore, receptions]
  delivered_iff := everySplit_nil

theorem Logged.silent {w w' : World} (h : Logged w) (hs : Silent w w') : Logged w' where
  list_wf := hs.list_eq ▸ h.list_wf
  ids_iff := by rw [hs.list_eq, hs.receptions_eq]; exact h.ids_iff
  delivered_iff := by rw [hs.receptions_eq]; exact h.delivered_iff

theorem Logged.handled {w w' : World} {a : Arrival} {r : Reception} (ha : noFault a)
    (h : Logged w) (hr : Handled w a w' r) : Logged w' := by
  have hlist := hr.list_eq
  rw [ha.2.2.2] at hlist
  have halloc := listAppend_of_alloc w.msgIdList (rcvId r.datagram)
  refine ⟨?_, fun id => ?_, ?_⟩
  · split at hlist
    · have := (listAppend_success h.list_wf halloc).1
      rwa [hlist] at this
    · rcases hlist with heq | hfail
      · exact heq ▸ h.list_wf
      · rw [hfail] at halloc; cases halloc
  · rw [hr.receptions_eq, recordedBefore_concat, ← h.ids_iff]
    split at hlist
    · rename_i hrec
      have := (listAppend_success h.list_wf halloc).2
      rw [hlist] at this
      rw [this, List.mem_append, List.mem_singleton, eq_comm (a := id), hrec]
      simp
    · rename_i hrec
      rcases hlist with heq | hfail
      · simp [heq, hrec]
      · rw [hfail] at halloc; cases halloc
  · rw [hr.receptions_eq, everySplit_concat]
    refine ⟨h.delivered_iff, fun hserver => ?_⟩
    rw [hr.delivered_iff ha hserver, listContains_eq_false_iff h.list_wf, h.ids_iff]

theorem logged_udpRun {client : Client} {retransmissions : UInt8} {calls : List UdpCall}
    (hcalls : ∀ c ∈ calls, ∀ a ∈ c.arrivals, noFault a) :
    Logged (udpRun client retransmissions calls) :=
  udpRun_logged (logged_init client retransmissions) (fun _ _ h hs => h.silent hs)
    (fun _ _ _ _ ha h hr => h.handled ha hr) hcalls

/-! ## Lost messages -/

/-- A message of the server whose ID no earlier message of the server carried. -/
def IsFresh (before : List Reception) (d : Bytes) : Prop :=
  isServerMsg d = true ∧
    ∀ r ∈ before, carriesServerId r.datagram = true → rcvId r.datagram ≠ rcvId d

instance (before : List Reception) (d : Bytes) : Decidable (IsFresh before d) :=
  inferInstanceAs (Decidable (_ ∧ _))

/-- Every message of the server is delivered on its first arrival. -/
def NoServerMsgLost (rs : List Reception) : Prop :=
  EverySplit (fun before r => IsFresh before r.datagram → Delivered r) rs

instance (rs : List Reception) : Decidable (NoServerMsgLost rs) :=
  inferInstanceAs (Decidable (EverySplit _ rs))

/-- The reception records an ID that is not the ID of a message of the server:
the datagram is a CONFIRM that was not awaited, or too short for a header. -/
def isStray (r : Reception) : Bool := recordsId r && !carriesServerId r.datagram

/-- The ID of a fresh message of the server was recorded before by a stray
reception or not at all. -/
theorem recordedBefore_iff_of_isFresh {before : List Reception} {d : Bytes}
    (h : IsFresh before d) :
    recordedBefore before (rcvId d) ↔
      ∃ s ∈ before, isStray s = true ∧ rcvId s.datagram = rcvId d := by
  constructor
  · rintro ⟨s, hs, hrec, hid⟩
    have hcarries : carriesServerId s.datagram = false := by
      by_contra hc
      exact h.2 s hs (by simpa using hc) hid
    exact ⟨s, hs, by simp [isStray, hrec, hcarries], hid⟩
  · rintro ⟨s, hs, hstray, hid⟩
    simp only [isStray, Bool.and_eq_true] at hstray
    exact ⟨s, hs, hstray.1, hid⟩

/-- Without faults no message of the server is lost exactly if no stray reception
recorded the ID of a fresh one before it arrived. -/
theorem no_server_msg_lost_iff (client : Client) (retransmissions : UInt8)
    (calls : List UdpCall) (hcalls : ∀ c ∈ calls, ∀ a ∈ c.arrivals, noFault a) :
    NoServerMsgLost (receptions (udpRun client retransmissions calls).trace) ↔
      EverySplit (fun before r => IsFresh before r.datagram →
          ∀ s ∈ before, isStray s = true → rcvId s.datagram ≠ rcvId r.datagram)
        (receptions (udpRun client retransmissions calls).trace) := by
  have hrun : Logged (udpRun client retransmissions calls) := logged_udpRun hcalls
  have hlog := hrun.delivered_iff
  constructor
  · intro h before r after hsplit hfresh s hs hstray hid
    have hdel := (hlog before r after hsplit hfresh.1).mp (h before r after hsplit hfresh)
    exact hdel ((recordedBefore_iff_of_isFresh hfresh).mpr ⟨s, hs, hstray, hid⟩)
  · intro h before r after hsplit hfresh
    refine (hlog before r after hsplit hfresh.1).mpr fun hrec => ?_
    obtain ⟨s, hs, hstray, hid⟩ := (recordedBefore_iff_of_isFresh hfresh).mp hrec
    exact h before r after hsplit hfresh s hs hstray hid

/-- The first message of the server is delivered when nothing strays before it. -/
theorem no_server_msg_lost_iff_first_msg :
    NoServerMsgLost (receptions (udpRun sampleClient 3
      [.sendMsg .auth true [{ arrival := delivery [0, 0, 0] }],
       .recvMsg (delivery ([1, 0, 0, 1, 0, 0] ++ ascii "ok" ++ [0]))]).trace) :=
  (no_server_msg_lost_iff _ _ _ (by decide)).mpr (by decide)

/-- A repeated CONFIRM of the AUTH with ID 0 reaches udp_recv_msg; the REPLY of
the server, which has ID 0 too, is then taken for a duplicate. -/
theorem late_confirm_loses_reply :
    ∃ calls : List UdpCall, (∀ c ∈ calls, ∀ a ∈ c.arrivals, noFault a) ∧
      ¬ NoServerMsgLost (receptions (udpRun sampleClient 3 calls).trace) :=
  ⟨[.sendMsg .auth true [{ arrival := delivery [0, 0, 0] }],
    .recvMsg (delivery [0, 0, 0]),
    .recvMsg (delivery ([1, 0, 0, 1, 0, 0] ++ ascii "ok" ++ [0]))], by decide, by decide⟩

end IpkChat.Udp
