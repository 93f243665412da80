/-
  Udp/Order.lean --- the order in which datagrams are dispatched.

  Datagrams that arrive while a CONFIRM is awaited wait in the queue; others are
  dispatched at once.  The order of arrival is kept if nothing is taken from the
  socket while the queue holds a datagram.  `Sound` is the invariant: the datagrams
  dispatched, followed by those in the queue, occur in this order among the first
  copies received.
-/
import IpkChat.Udp.Receptions

set_option autoImplicit false

namespace IpkChat.Udp

open IpkChat.Foundation IpkChat.Core

/-! ## What a run in order looks like -/

/-- The datagrams received, other than the awaited CONFIRMs. -/
def arrived (h : List Event) : List Bytes :=
  ((receptions h).filter fun r => r.fate ≠ .awaited).map fun r => r.datagram.take bufferSize

/-- The datagram is a well-formed PING. -/
def isPing (m : Msg) : Bool := m.msg.head? == some MsgType.ping.code && m.msgLen == headerSize

/-- Neither select nor a receive of await meets a datagram in the queue, datagrams are
dispatched in the order of their first copies, and no REPLY waits in the queue when
the server is reported not to respond. -/
structure Ordered (h : List Event) : Prop where
  select : ∀ g, .select g ∈ h → g.msgQueue.toList = []
  recv : ∀ r, .received r ∈ h → r.site = .recvMsg → r.before.msgQueue.toList = []
  dispatch : (parsedMsgs h).Sublist (firstCopies (arrived h))
  reply : ∀ g, .notResponding g ∈ h → ∀ m ∈ g.msgQueue.toList,
    m.msg.head? ≠ some MsgType.reply.code

/-- No call of await finds a PING at the front of the queue with a datagram behind it. -/
def PingAlone (h : List Event) : Prop :=
  ∀ g, .await g ∈ h → ∀ m ms, g.msgQueue.toList = m :: ms → isPing m = true → ms = []

/-- Both so far. -/
structure Kept (h : List Event) : Prop where
  alone : PingAlone h
  ordered : Ordered h

/-! ## More events -/

/-- The events that `Kept` looks at. -/
def isOrderEvent : Event → Bool
  | .await _ => true
  | .select _ => true
  | .received _ => true
  | .notResponding _ => true
  | .parsed _ => true
  | _ => false

section Append

variable {h es : List Event}

@[simp] theorem arrived_append (h k : List Event) : arrived (h ++ k) = arrived h ++ arrived k := by
  simp [arrived]

theorem arrived_received {r : Reception} (hr : r.fate ≠ .awaited) :
    arrived [.received r] = [r.datagram.take bufferSize] := by
  simp [arrived, hr]

/-- Appending events that keep the parts of `Kept`. -/
theorem Kept.append (hk : Kept h)
    (hawait : ∀ g, .await g ∈ es → ∀ m ms, g.msgQueue.toList = m :: ms → isPing m = true → ms = [])
    (hselect : ∀ g, .select g ∈ es → g.msgQueue.toList = [])
    (hrecv : ∀ r, .received r ∈ es → r.site = .recvMsg → r.before.msgQueue.toList = [])
    (hstall : ∀ g, .notResponding g ∈ es → g.msgQueue.toList = [])
    (hdispatch : (parsedMsgs (h ++ es)).Sublist (firstCopies (arrived (h ++ es)))) :
    Kept (h ++ es) := by
  refine ⟨fun g hg => ?_, fun g hg => ?_, fun r hr => ?_, hdispatch, fun g hg => ?_⟩
  · exact (List.mem_append.mp hg).elim (hk.alone g) (hawait g)
  · exact (List.mem_append.mp hg).elim (hk.ordered.select g) (hselect g)
  · exact (List.mem_append.mp hr).elim (hk.ordered.recv r) (hrecv r)
  · refine (List.mem_append.mp hg).elim (hk.ordered.reply g) fun hg m hm => ?_
    rw [hstall g hg] at hm
    cases hm

/-- Where nothing is dispatched, the order of what was dispatched stays. -/
theorem Kept.dispatch_append (hk : Kept h) (hes : parsedMsgs es = []) :
    (parsedMsgs (h ++ es)).Sublist (firstCopies (arrived (h ++ es))) := by
  have hparsed : parsedMsgs (h ++ es) = parsedMsgs h := by simp [hes]
  rw [hparsed, arrived_append]
  exact hk.ordered.dispatch.trans (firstCopies_sublist_append _ _)

theorem not_mem_of_quiet (hes : ∀ e ∈ es, isOrderEvent e = false) {e : Event}
    (he : isOrderEvent e = true) : e ∉ es := by
  intro hmem
  rw [hes e hmem] at he
  cases he

/-- A reading of such events only finds nothing where there are none. -/
theorem filterMap_quiet {ρ : Type} {read : Event → Option ρ}
    (hread : ∀ e, isOrderEvent e = false → read e = none)
    (hes : ∀ e ∈ es, isOrderEvent e = false) : es.filterMap read = [] :=
  List.filterMap_eq_nil_iff.mpr fun e he => hread e (hes e he)

theorem receptions_quiet (hes : ∀ e ∈ es, isOrderEvent e = false) : receptions es = [] :=
  filterMap_quiet (fun e he => by cases e <;> simp_all [isOrderEvent]) hes

theorem parsedMsgs_quiet (hes : ∀ e ∈ es, isOrderEvent e = false) : parsedMsgs es = [] :=
  filterMap_quiet (fun e he => by cases e <;> simp_all [isOrderEvent]) hes

theorem arrived_quiet (hes : ∀ e ∈ es, isOrderEvent e = false) : arrived es = [] := by
  simp [arrived, receptions_quiet hes]

theorem Kept.quiet (hk : Kept h) (hes : ∀ e ∈ es, isOrderEvent e = false) : Kept (h ++ es) :=
  hk.append (fun _ hg => absurd hg (not_mem_of_quiet hes rfl))
    (fun _ hg => absurd hg (not_mem_of_quiet hes rfl))
    (fun _ hr => absurd hr (not_mem_of_quiet hes rfl))
    (fun _ hg => absurd hg (not_mem_of_quiet hes rfl)) (hk.dispatch_append (parsedMsgs_quiet hes))

/-- A datagram received, with the queue empty if it was in await. -/
theorem Kept.received {w : World} (hk : Kept w.trace) {site : Site} {before : Globals}
    {a : Arrival} {d : Bytes} {fate : Fate} (hr : site = .recvMsg → before.msgQueue.toList = []) :
    Kept (w.received site before a d fate).trace := by
  refine hk.append (by simp) (by simp) (fun r hmem => ?_) (by simp) (hk.dispatch_append (by simp))
  cases List.mem_singleton.mp hmem
  exact hr

theorem confirmEvents_quiet (src : SockAddr) (d : Bytes) :
    ∀ e ∈ confirmEvents src d, isOrderEvent e = false := by
  intro e he
  unfold confirmEvents at he
  split at he <;> simp_all [isOrderEvent]

theorem printEvents_quiet (p : Parsed) : ∀ e ∈ World.printEvents p, isOrderEvent e = false := by
  intro e he
  simp only [World.printEvents, Option.mem_toList, Option.map_eq_some_iff] at he
  obtain ⟨o, -, rfl⟩ := he
  rfl

/-- Dispatching a datagram from the socket adds two events that count. -/
theorem mem_dispatch {src : SockAddr} {d m : Bytes} {p : Parsed} {r : Reception} {e : Event}
    (he : isOrderEvent e = true)
    (hmem : e ∈ confirmEvents src d ++ [Event.parsed m] ++ World.printEvents p ++
      [Event.received r]) :
    e = .parsed m ∨ e = .received r := by
  simp only [List.mem_append, List.mem_singleton] at hmem
  rcases hmem with ((hmem | hmem) | hmem) | hmem
  · exact absurd hmem (not_mem_of_quiet (confirmEvents_quiet src d) he)
  · exact Or.inl hmem
  · exact absurd hmem (not_mem_of_quiet (printEvents_quiet p) he)
  · exact Or.inr hmem

theorem Kept.dispatched {w w₁ : World} (hk : Kept w.trace) (src : SockAddr) (d m : Bytes)
    (p : Parsed) {site : Site} {before : Globals} {a : Arrival} {fate : Fate}
    (htrace : w₁.trace =
      w.trace ++ (confirmEvents src d ++ [Event.parsed m] ++ World.printEvents p))
    (hempty : before.msgQueue.toList = [])
    (hline : (parsedMsgs (w₁.received site before a d fate).trace).Sublist
      (firstCopies (arrived (w₁.received site before a d fate).trace))) :
    Kept (w₁.received site before a d fate).trace := by
  rw [received_trace, htrace, List.append_assoc] at hline ⊢
  refine hk.append (fun g hg => ?_) (fun g hg => ?_) (fun r hr => ?_) (fun g hg => ?_) hline
  · rcases mem_dispatch rfl hg with he | he <;> cases he
  · rcases mem_dispatch rfl hg with he | he <;> cases he
  · rcases mem_dispatch rfl hr with he | he
    · cases he
    · cases he
      exact fun _ => hempty
  · rcases mem_dispatch rfl hg with he | he <;> cases he

end Append

/-! ## The invariant -/

/-- The datagrams dispatched and waiting are in order, and every datagram received is
recorded in the list, so that a new one is a first copy. -/
structure Sound (w : World) : Prop where
  kept : Kept w.trace
  list_wf : w.msgIdList.WellFormed
  recorded : ∀ d ∈ arrived w.trace, rcvId d ∈ w.msgIdList.ids
  queue_wf : w.msgQueue.WellFormed
  copies : ∀ m ∈ w.msgQueue.toList, m.msg.length = m.msgLen ∧ m.msg ≠ []
  line : (parsedMsgs w.trace ++ w.msgQueue.toList.map (·.msg)).Sublist
    (firstCopies (arrived w.trace))

theorem sound_init (client : Client) (retransmissions : UInt8) :
    Sound (World.init client retransmissions) where
  kept := ⟨fun _ hg => absurd hg List.not_mem_nil, fun _ hg => absurd hg List.not_mem_nil,
    fun _ hr => absurd hr List.not_mem_nil, List.Sublist.refl _,
    fun _ hg => absurd hg List.not_mem_nil⟩
  list_wf := IdList.wellFormed_empty
  recorded d hd := by simp [arrived, World.init] at hd
  queue_wf := MsgQueue.wellFormed_empty
  copies m hm := by simp [World.init] at hm
  line := List.Sublist.refl _

/-- Only the list, the queue and the history matter. -/
theorem Sound.extend {w w' : World} {es : List Event} (hs : Sound w)
    (hlist : w'.msgIdList = w.msgIdList) (hqueue : w'.msgQueue = w.msgQueue)
    (htrace : w'.trace = w.trace ++ es) (hkept : Kept (w.trace ++ es))
    (hreceived : receptions es = []) (hparsed : parsedMsgs es = []) : Sound w' := by
  have harrived : arrived w'.trace = arrived w.trace := by simp [htrace, arrived, hreceived]
  refine ⟨htrace ▸ hkept, hlist ▸ hs.list_wf, fun d hd => ?_, hqueue ▸ hs.queue_wf,
    fun m hm => hs.copies m (hqueue ▸ hm), ?_⟩
  · rw [harrived] at hd
    exact hlist ▸ hs.recorded d hd
  · have hsame : parsedMsgs w'.trace = parsedMsgs w.trace := by simp [htrace, hparsed]
    rw [harrived, hqueue, hsame]
    exact hs.line

theorem Sound.quiet {w w' : World} {es : List Event} (hs : Sound w)
    (hlist : w'.msgIdList = w.msgIdList) (hqueue : w'.msgQueue = w.msgQueue)
    (htrace : w'.trace = w.trace ++ es) (hes : ∀ e ∈ es, isOrderEvent e = false) : Sound w' :=
  hs.extend hlist hqueue htrace (hs.kept.quiet hes) (receptions_quiet hes) (parsedMsgs_quiet hes)

/-- A datagram is received that is not the first copy, or that was awaited. -/
theorem Sound.received {w w₁ : World} {es : List Event} {site : Site} {before : Globals}
    {a : Arrival} {d : Bytes} {fate : Fate} (hs : Sound w) (hlist : w₁.msgIdList = w.msgIdList)
    (hqueue : w₁.msgQueue = w.msgQueue) (htrace : w₁.trace = w.trace ++ es)
    (hes : ∀ e ∈ es, isOrderEvent e = false)
    (hr : site = .recvMsg → before.msgQueue.toList = [])
    (hknown : fate ≠ .awaited → listContains w.msgIdList (rcvId d) = true) :
    Sound (w₁.received site before a d fate) := by
  have h₁ : Sound w₁ := hs.quiet hlist hqueue htrace hes
  refine ⟨h₁.kept.received hr, h₁.list_wf, fun x hx => ?_, h₁.queue_wf, h₁.copies, ?_⟩
  · rw [received_trace, arrived_append, List.mem_append] at hx
    rcases hx with hx | hx
    · exact h₁.recorded x hx
    · obtain ⟨r, hr, rfl⟩ := List.mem_map.mp hx
      obtain ⟨hone, hfate⟩ := List.mem_filter.mp hr
      obtain rfl := List.mem_singleton.mp hone
      rw [decide_eq_true_eq] at hfate
      rw [rcvId_take]
      exact hlist ▸ (listContains_iff hs.list_wf).mp (hknown hfate)
  · have hparsed : parsedMsgs (w₁.received site before a d fate).trace =
        parsedMsgs w₁.trace := by simp
    rw [hparsed, received_trace, arrived_append]
    exact h₁.line.trans (firstCopies_sublist_append _ _)

/-- A first copy is received, and dispatched or queued. -/
theorem Sound.record {w w' : World} (hs : Sound w) {d : Bytes} {alloc : Bool}
    (hnew : listContains w.msgIdList (rcvId d) = false)
    (hlist : listAppend w.msgIdList (rcvId d) alloc = (w'.msgIdList, .success))
    (hqueue : w'.msgQueue.WellFormed)
    (hcopies : ∀ m ∈ w'.msgQueue.toList, m.msg.length = m.msgLen ∧ m.msg ≠ [])
    (harrived : arrived w'.trace = arrived w.trace ++ [d.take bufferSize])
    (hline : parsedMsgs w'.trace ++ w'.msgQueue.toList.map (·.msg) =
      parsedMsgs w.trace ++ w.msgQueue.toList.map (·.msg) ++ [d.take bufferSize])
    (hkept : (parsedMsgs w'.trace).Sublist (firstCopies (arrived w'.trace)) → Kept w'.trace) :
    Sound w' := by
  rw [listContains_eq_false_iff hs.list_wf] at hnew
  have happend := listAppend_success hs.list_wf (congrArg Prod.snd hlist)
  rw [hlist] at happend
  obtain ⟨hwf, hids⟩ := happend
  have hfirst : firstCopies (arrived w'.trace) =
      firstCopies (arrived w.trace) ++ [d.take bufferSize] := by
    rw [harrived]
    refine firstCopies_concat_of_not_mem fun hmem => hnew ?_
    exact rcvId_take d ▸ hs.recorded _ hmem
  have hline' : (parsedMsgs w'.trace ++ w'.msgQueue.toList.map (·.msg)).Sublist
      (firstCopies (arrived w'.trace)) := by
    rw [hline, hfirst]
    exact hs.line.append (List.Sublist.refl _)
  refine ⟨hkept ((List.sublist_append_left _ _).trans hline'), hwf, fun x hx => ?_, hqueue, hcopies,
    hline'⟩
  rw [harrived, List.mem_append, List.mem_singleton] at hx
  rw [hids, List.mem_append, List.mem_singleton]
  rcases hx with hx | rfl
  · exact Or.inl (hs.recorded x hx)
  · exact Or.inr (rcvId_take d)

/-! ## Steps -/

/-- udp_send_msg dispatches nothing. -/
theorem kept_udpSendReceive (w : World) (a : Arrival) (hk : Kept w.trace) :
    Kept (udpSendReceive w a).1.trace := by
  have hout := udpSendReceive_outcome w a
  generalize udpSendReceive w a = res at hout
  have hreceived : ∀ (w₁ : World) es d fate, w₁.trace = w.trace ++ es →
      (∀ e ∈ es, isOrderEvent e = false) →
      Kept (w₁.received .sendMsg w.toGlobals a d fate).trace := by
    intro w₁ es d fate htrace hes
    exact Kept.received (htrace ▸ hk.quiet hes) (by simp)
  have hsame : w.trace = w.trace ++ [] := (List.append_nil _).symm
  cases hout with
  | noData client next hclient hnext => exact hk
  | awaited src d hlen haw => exact hreceived _ [] d _ hsame (by simp)
  | unconfirmed src d hlen haw hcan => exact hreceived _ [] d _ hsame (by simp)
  | duplicate src d hlen haw hcan hmem => exact hreceived _ _ d _ rfl (confirmEvents_quiet src d)
  | queueFull src d hlen haw hcan hmem hadd =>
      exact hreceived _ _ d _ rfl (confirmEvents_quiet src d)
  | unrecorded src d queue list hlen haw hcan hmem hqueue hlist =>
      exact hreceived _ _ d _ rfl (confirmEvents_quiet src d)
  | queued src d queue list hlen haw hcan hmem hqueue hlist =>
      exact hreceived _ _ d _ rfl (confirmEvents_quiet src d)

/-- A pass of the loop of udp_send_msg.  If the call goes on or succeeds, every
datagram received is recorded. -/
theorem sound_udpSendReceive (w : World) (a : Arrival) (hs : Sound w)
    (hgo : (udpSendReceive w a).2 ≠ .done .failure) : Sound (udpSendReceive w a).1 := by
  have hkept := kept_udpSendReceive w a hs.kept
  have hout := udpSendReceive_outcome w a
  generalize udpSendReceive w a = res at hout hgo hkept
  cases hout with
  | noData client next hclient hnext => exact hs.quiet rfl rfl (List.append_nil _).symm (by simp)
  | awaited src d hlen haw =>
      exact hs.received rfl rfl (List.append_nil _).symm (by simp) (by simp) (by simp)
  | unconfirmed src d hlen haw hcan => exact absurd rfl hgo
  | duplicate src d hlen haw hcan hmem =>
      exact hs.received rfl rfl rfl (confirmEvents_quiet src d) (by simp) (fun _ => hmem)
  | queueFull src d hlen haw hcan hmem hadd => exact absurd rfl hgo
  | unrecorded src d queue list hlen haw hcan hmem hqueue hlist => exact absurd rfl hgo
  | queued src d queue list hlen haw hcan hmem hqueue hlist =>
      have hadd := queueAdd_true hs.queue_wf (congrArg Prod.snd hqueue)
      rw [hqueue, rcvBuffer_take] at hadd
      obtain ⟨hwf, htoList⟩ := hadd
      refine hs.record hmem hlist hwf (fun m hm => ?_) ?_ ?_ (fun _ => hkept)
      · simp only [received_toGlobals, htoList, List.mem_append, List.mem_singleton] at hm
        rcases hm with hm | rfl
        · exact hs.copies m hm
        · refine ⟨by simp [rcvLen, Nat.min_comm], List.ne_nil_of_length_pos ?_⟩
          rw [List.length_take, Nat.min_comm]
          exact hlen
      · simp [arrived_quiet (confirmEvents_quiet src d), arrived_received]
      · simp [htoList]

theorem kept_transmit {w : World} (type : MsgType) (msg : Bytes) (hk : Kept w.trace) :
    Kept (w.emit (.transmit type w.client msg)).trace :=
  hk.quiet (by simp [isOrderEvent])

theorem kept_udpSendMsg (w : World) (type : MsgType) (alloc : Bool) (attempts : List Attempt)
    (hk : Kept w.trace) : Kept (udpSendMsg w type alloc attempts).1.trace := by
  unfold udpSendMsg
  split
  · exact hk
  · exact udpSendLoop_preserves (I := fun w => Kept w.trace) (fun w h => kept_transmit type _ h)
      (fun w a (_ : True) h => kept_udpSendReceive w a h) attempts w 0 true (fun _ _ => trivial) hk

theorem sound_udpSendMsg (w : World) (type : MsgType) (alloc : Bool) (attempts : List Attempt)
    (hs : Sound w) (hok : (udpSendMsg w type alloc attempts).2 = some .success) :
    Sound (udpSendMsg w type alloc attempts).1 := by
  unfold udpSendMsg at hok ⊢
  split
  · exact hs
  · rename_i msg hmsg
    rw [hmsg] at hok
    exact (udpSendLoop_hands_over (I := Sound) (J := fun w => Kept w.trace)
      (fun w h => h.kept) (fun w h => h.quiet rfl rfl rfl (by simp [isOrderEvent]))
      (fun w a (_ : True) h => ⟨kept_udpSendReceive w a h.kept, sound_udpSendReceive w a h⟩)
      attempts w 0 true (fun _ _ => trivial) hs).2 hok

/-- A datagram received by await, with the queue empty. -/
theorem sound_udpRecvMsg (w : World) (a : Arrival) (hs : Sound w)
    (hempty : w.msgQueue.toList = []) :
    Kept (udpRecvMsg w a).1.trace ∧ ((udpRecvMsg w a).2 ≠ .error → Sound (udpRecvMsg w a).1) ∧
      (udpRecvMsg w a).1.msgQueue = w.msgQueue := by
  have hout := udpRecvMsg_outcome w a
  generalize udpRecvMsg w a = res at hout
  have hfailed : ∀ (w₁ : World) es d fate, w₁.trace = w.trace ++ es →
      (∀ e ∈ es, isOrderEvent e = false) →
      Kept (w₁.received .recvMsg w.toGlobals a d fate).trace := by
    intro w₁ es d fate htrace hes
    exact Kept.received (htrace ▸ hs.kept.quiet hes) fun _ => hempty
  have hprint : ∀ text, ∀ e ∈ [Event.print (.error text)], isOrderEvent e = false := by
    simp [isOrderEvent]
  cases hout with
  | failed =>
      exact ⟨hs.kept.quiet (hprint "recvfrom fault"), fun hne => absurd rfl hne, rfl⟩
  | truncated src d hlen =>
      exact ⟨hfailed _ _ d _ rfl (hprint "recvfrom fault"), fun hne => absurd rfl hne, rfl⟩
  | unconfirmed src d hlen hcan =>
      exact ⟨hfailed _ [] d _ (List.append_nil _).symm (by simp), fun hne => absurd rfl hne, rfl⟩
  | unknownType src d hlen hcan hfind =>
      have hes : ∀ e ∈ confirmEvents src d ++ [.print (.error "Unknown message")],
          isOrderEvent e = false := by
        intro e he
        exact (List.mem_append.mp he).elim (confirmEvents_quiet src d e) (hprint _ e)
      exact ⟨hfailed _ _ d _ (List.append_assoc _ _ _) hes, fun hne => absurd rfl hne, rfl⟩
  | duplicate src d hlen hcan hknown hmem =>
      have h : Sound ((confirmed w src d).received .recvMsg w.toGlobals a d .duplicate) :=
        hs.received rfl rfl rfl (confirmEvents_quiet src d) (fun _ => hempty) (fun _ => hmem)
      exact ⟨h.kept, fun _ => h, rfl⟩
  | unrecorded src d list hlen hcan hknown hmem hlist =>
      exact ⟨hfailed _ _ d _ rfl (confirmEvents_quiet src d), fun hne => absurd rfl hne, rfl⟩
  | dispatched src d list p hlen hcan hknown hmem hlist =>
      have h : Sound (((({ confirmed w src d with msgIdList := list } : World).emit
          (.parsed (d.take bufferSize))).printParsed p).received .recvMsg w.toGlobals a d
            .dispatched) := by
        refine hs.record hmem (by simpa using hlist) (by simpa [confirmed] using hs.queue_wf)
          (by simpa [confirmed] using hs.copies) ?_ ?_ fun hline => ?_
        · simp [arrived]
        · simp [confirmed, hempty]
        · exact hs.kept.dispatched src d (d.take bufferSize) p (by simp) hempty hline
      exact ⟨h.kept, fun _ => h, by simp [confirmed]⟩

/-! ## The queue -/

/-- Only udp_parse_ping returns PING, on a datagram of three bytes. -/
theorem parse_ping_iff {entry : UdpMsg} (hentry : entry ∈ msgTable) (c : Client) (buffer : Bytes)
    (msgLen : Nat) :
    (entry.parseFunc c buffer msgLen).type = .ping ↔ entry.type = .ping ∧ msgLen = headerSize := by
  simp only [msgTable_eq, List.mem_cons, List.not_mem_nil, or_false] at hentry
  rcases hentry with rfl | rfl | rfl | rfl | rfl | rfl | rfl | rfl
  · simp only [udpParseConfirm_eq]
    split <;> simp [Parsed.refuse]
  · simp only [udpParseReply_eq]
    split
    · split <;> simp
    · simp [Parsed.refuse]
  · simp [udpParseUnexpected, Parsed.refuse]
  · simp [udpParseUnexpected, Parsed.refuse]
  · simp only [udpParseMsg_eq, parseMsgErr_eq]
    split <;> simp [Parsed.refuse]
  · simp only [udpParseErr_eq, parseMsgErr_eq]
    split <;> simp [Parsed.refuse]
  · simp only [udpParseBye_eq]
    split <;> simp [Parsed.refuse]
  · simp only [udpParsePing]
    split <;> simp_all [Parsed.refuse]

/-- What udp_check_previous does to the queue, and when it returns PING. -/
structure Popped (w : World) (res : World × Option MsgType) : Prop where
  toList_eq : res.1.msgQueue.toList = w.msgQueue.toList.tail
  none_iff : res.2 = none ↔ w.msgQueue.toList = []
  ping_iff : res.2 = some .ping ↔ ∃ m ms, w.msgQueue.toList = m :: ms ∧ isPing m = true

/-- The table entry of a stored datagram, whatever lies behind it in memory. -/
theorem findMsg_stored {m : Msg} (hne : m.msg ≠ []) (beyond : Bytes) :
    findMsg (m.msg ++ beyond) =
      msgTable.find? fun entry => m.msg.head? == some entry.type.code := by
  cases hm : m.msg with
  | nil => exact absurd hm hne
  | cons b bs => simp [findMsg]

/-- A stored PING is dispatched as one, and no other datagram is. -/
theorem isPing_iff {m : Msg} (hne : m.msg ≠ []) {beyond : Bytes} {entry : UdpMsg}
    (hfind : findMsg (m.msg ++ beyond) = some entry) (c : Client) (buffer : Bytes) :
    isPing m = true ↔ (entry.parseFunc c buffer m.msgLen).type = .ping := by
  rw [findMsg_stored hne] at hfind
  have htype : m.msg.head? = some entry.type.code := by simpa using List.find?_some hfind
  rw [parse_ping_iff (List.mem_of_find?_eq_some hfind), isPing, Bool.and_eq_true, beq_iff_eq,
    beq_iff_eq, htype, Option.some.injEq]
  exact and_congr_left fun _ => ⟨fun h => MsgType.code_injective h, fun h => h ▸ rfl⟩

theorem popped_udpCheckPrevious (w : World) (beyond : Bytes) (hqueue : w.msgQueue.WellFormed)
    (hcopies : ∀ m ∈ w.msgQueue.toList, m.msg.length = m.msgLen ∧ m.msg ≠ []) :
    Popped w (udpCheckPrevious w beyond) := by
  have hout := udpCheckPrevious_outcome w beyond
  generalize udpCheckPrevious w beyond = res at hout
  cases hout with
  | empty hempty => exact ⟨by simp [hempty], by simp [hempty], by simp [hempty]⟩
  | unknownType m queue hfront hfind =>
      obtain ⟨-, htoList⟩ := queueFront_some hqueue hfront
      obtain ⟨-, hne⟩ := hcopies m (by simp [htoList])
      -- PING is in the table
      have hnot : isPing m = false := by
        rw [findMsg_stored hne] at hfind
        have := List.find?_eq_none.mp hfind ⟨.ping, udpParsePing⟩ (by simp [msgTable_eq])
        simp_all [isPing]
      refine ⟨by simp [htoList], by simp [htoList], ?_⟩
      simp [htoList, hnot]
  | dispatched m queue entry hfront hfind =>
      obtain ⟨-, htoList⟩ := queueFront_some hqueue hfront
      obtain ⟨-, hne⟩ := hcopies m (by simp [htoList])
      have hping := isPing_iff hne hfind w.client (m.msg ++ beyond)
      refine ⟨by simp [htoList], by simp [htoList], ?_⟩
      simp [htoList, hping]

/-- A datagram taken out of the queue is the next in order. -/
theorem sound_udpCheckPrevious (w : World) (beyond : Bytes) (hs : Sound w) :
    Sound (udpCheckPrevious w beyond).1 := by
  have hout := udpCheckPrevious_outcome w beyond
  generalize udpCheckPrevious w beyond = res at hout
  cases hout with
  | empty hempty => exact hs
  | unknownType m queue hfront hfind =>
      obtain ⟨hwf, htoList⟩ := queueFront_some hs.queue_wf hfront
      have hprint : ∀ e ∈ [Event.print (.error "Unknown message")], isOrderEvent e = false := by
        simp [isOrderEvent]
      refine ⟨hs.kept.quiet hprint, hs.list_wf, fun d hd => hs.recorded d ?_, hwf,
        fun x hx => hs.copies x ?_, ?_⟩
      · simpa [arrived_quiet hprint] using hd
      · rw [htoList]
        exact List.mem_cons_of_mem m hx
      · have hline := hs.line
        rw [htoList] at hline
        refine List.Sublist.trans ?_ (by simpa [arrived_quiet hprint] using hline)
        simp
  | dispatched m queue entry hfront hfind =>
      obtain ⟨hwf, htoList⟩ := queueFront_some hs.queue_wf hfront
      have hcopy : (m.msg ++ beyond).take m.msgLen = m.msg := by
        obtain ⟨hlen, -⟩ := hs.copies m (by simp [htoList])
        rw [← hlen, List.take_left]
      generalize hp : entry.parseFunc w.client (m.msg ++ beyond) m.msgLen = p
      have hline : (parsedMsgs (w.trace ++ ([Event.parsed m.msg] ++ World.printEvents p)) ++
          queue.toList.map (·.msg)).Sublist
            (firstCopies (arrived (w.trace ++ ([Event.parsed m.msg] ++ World.printEvents p)))) := by
        have hline := hs.line
        rw [htoList] at hline
        simpa [arrived] using hline
      have hkept : Kept (w.trace ++ ([Event.parsed m.msg] ++ World.printEvents p)) := by
        have hmem : ∀ e, isOrderEvent e = true → e ∈ [Event.parsed m.msg] ++ World.printEvents p →
            e = .parsed m.msg := by
          intro e he hmem
          rcases List.mem_append.mp hmem with hmem | hmem
          · exact List.mem_singleton.mp hmem
          · exact absurd hmem (not_mem_of_quiet (printEvents_quiet p) he)
        refine hs.kept.append (fun g hg => ?_) (fun g hg => ?_) (fun r hr => ?_) (fun g hg => ?_)
          ((List.sublist_append_left _ _).trans hline)
        · cases hmem _ rfl hg
        · cases hmem _ rfl hg
        · cases hmem _ rfl hr
        · cases hmem _ rfl hg
      refine ⟨by simpa [hcopy] using hkept, by simpa using hs.list_wf, fun d hd => ?_,
        by simpa using hwf, fun x hx => hs.copies x ?_, by simpa [hcopy] using hline⟩
      · simpa using hs.recorded d (by simpa [arrived] using hd)
      · rw [htoList]
        exact List.mem_cons_of_mem m (by simpa using hx)

end IpkChat.Udp
