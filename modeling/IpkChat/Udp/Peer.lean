/-
  Udp/Peer.lean --- whom the client talks to.

  Every recvfrom stores the address of the sender where every sendto reads its
  destination, and no function compares it with the address of the server.  The
  port must be taken over this way, since the server answers from a new one; the
  IP address is taken over with it.  So the client talks to whoever wrote last, and
  nothing else in it depends on who that was: two runs that differ only in the senders
  of their datagrams end alike.
-/
import IpkChat.Udp.Blindness

set_option autoImplicit false

namespace IpkChat.Udp

open IpkChat.Foundation IpkChat.Core

/-! ## Destinations -/

/-- The address that an event hands to sendto. -/
@[simp] def destOf : Event → Option SockAddr
  | .transmit _ c _ => some c.res
  | .confirm _ dest => some dest
  | _ => none

/-- The destinations of the datagrams sent, in order. -/
abbrev destinations (h : List Event) : List SockAddr := h.filterMap destOf

/-- The address that recvfrom stores. -/
def sourceOf (a : Arrival) : Option SockAddr :=
  match a.result with
  | .data src _ _ => some src
  | .failed _ => none

/-! ## The sender becomes the destination -/

/-- All destinations so far and the next one are in `P`, and after each reception the
next destination was its sender. -/
structure Follows (P : SockAddr → Prop) (w : World) : Prop where
  next : P w.client.res
  sent : ∀ dest ∈ destinations w.trace, P dest
  received : ∀ r ∈ receptions w.trace, sourceOf r.arrival = some r.after.client.res

variable {P : SockAddr → Prop}

theorem follows_init {client : Client} (hres : P client.res) (retransmissions : UInt8) :
    Follows P (World.init client retransmissions) :=
  ⟨hres, by simp [World.init], by simp [World.init]⟩

/-- A step that receives no datagram of its own sends nowhere new. -/
theorem Follows.step {w w' : World} (h : Follows P w) (extra : List Event)
    (hres : P w'.client.res) (htrace : w'.trace = w.trace ++ extra)
    (hsent : ∀ dest ∈ destinations extra, P dest) (hreceived : receptions extra = []) :
    Follows P w' := by
  refine ⟨hres, ?_, ?_⟩
  · rw [htrace, destinations, List.filterMap_append]
    intro dest hdest
    rcases List.mem_append.mp hdest with hold | hnew
    · exact h.sent dest hold
    · exact hsent dest hnew
  · have hsame : receptions w'.trace = receptions w.trace := by simp [htrace, hreceived]
    rw [hsame]
    exact h.received

/-- A reception sends to its sender only, and leaves it as the destination. -/
theorem Follows.reception {w w₁ : World} {site : Site} {before : Globals} {a : Arrival}
    {d : Bytes} {fate : Fate} {src : SockAddr} (h : Follows P w) (hsrc : P src)
    (harrival : sourceOf a = some src) (extra : List Event) (hres : w₁.client.res = src)
    (htrace : w₁.trace = w.trace ++ extra) (hsent : ∀ dest ∈ destinations extra, dest = src)
    (hreceived : receptions extra = []) : Follows P (w₁.received site before a d fate) := by
  have hbody : Follows P w₁ :=
    h.step extra (hres ▸ hsrc) htrace (fun dest hdest => hsent dest hdest ▸ hsrc) hreceived
  refine ⟨hbody.next, ?_, ?_⟩
  · have hsame : destinations (w₁.received site before a d fate).trace =
        destinations w₁.trace := by simp
    rw [hsame]
    exact hbody.sent
  · rw [received_trace, receptions, List.filterMap_append]
    intro r hr
    rcases List.mem_append.mp hr with hold | hnew
    · exact hbody.received r hold
    · obtain rfl := List.mem_singleton.mp hnew
      rw [harrival]
      exact congrArg some hres.symm

theorem eq_of_mem_destinations_confirmEvents {src dest : SockAddr} {d : Bytes}
    (h : dest ∈ destinations (confirmEvents src d)) : dest = src := by
  rw [destinations, filterMap_confirmEvents] at h
  split at h
  · exact absurd h List.not_mem_nil
  · exact List.mem_singleton.mp h

/-- A reception that answers the datagram and sends nothing else. -/
theorem Follows.answered {w w₁ : World} {site : Site} {before : Globals} {a : Arrival}
    {d : Bytes} {fate : Fate} {src : SockAddr} (h : Follows P w) (hsrc : P src)
    (harrival : sourceOf a = some src) (hres : w₁.client.res = src) (more : List Event)
    (htrace : w₁.trace = w.trace ++ confirmEvents src d ++ more)
    (hsent : destinations more = []) (hreceived : receptions more = []) :
    Follows P (w₁.received site before a d fate) := by
  refine h.reception hsrc harrival (confirmEvents src d ++ more) hres ?_ ?_ ?_
  · rw [htrace, List.append_assoc]
  · intro dest hdest
    simp only [List.filterMap_append, hsent, List.append_nil] at hdest
    exact eq_of_mem_destinations_confirmEvents hdest
  · simp [hreceived]

theorem sourceOf_data {a : Arrival} {src : SockAddr} {d : Bytes} {errno : Errno}
    (h : a.result = .data src d errno) : sourceOf a = some src := by
  unfold sourceOf
  rw [h]

theorem follows_transmit {w : World} (h : Follows P w) (type : MsgType) (msg : Bytes) :
    Follows P (w.emit (.transmit type w.client msg)) := by
  refine h.step [.transmit type w.client msg] h.next rfl ?_ rfl
  intro dest hdest
  obtain rfl := List.mem_singleton.mp hdest
  exact h.next

theorem follows_udpSendReceive {w : World} {a : Arrival}
    (ha : ∀ src, sourceOf a = some src → P src) (h : Follows P w) :
    Follows P (udpSendReceive w a).1 := by
  have hout := udpSendReceive_outcome w a
  generalize udpSendReceive w a = res at hout
  cases hout with
  | noData client next hclient hnext errno hcode hresult =>
      refine h.step [] ?_ (List.append_nil _).symm (by simp) rfl
      rcases hresult with ⟨-, rfl⟩ | ⟨src, d, hresult, -, rfl⟩
      · exact h.next
      · exact ha src (sourceOf_data hresult)
  | awaited src d hlen haw errno hresult =>
      have hsrc := sourceOf_data hresult
      exact h.reception (ha src hsrc) hsrc [] rfl (by simp) (by simp) rfl
  | unconfirmed src d hlen haw hcan errno hresult =>
      have hsrc := sourceOf_data hresult
      exact h.reception (ha src hsrc) hsrc [] rfl (by simp) (by simp) rfl
  | duplicate src d hlen haw hcan hmem errno hresult =>
      have hsrc := sourceOf_data hresult
      exact h.answered (ha src hsrc) hsrc rfl [] (List.append_nil _).symm rfl rfl
  | queueFull src d hlen haw hcan hmem hadd errno hresult =>
      have hsrc := sourceOf_data hresult
      exact h.answered (ha src hsrc) hsrc rfl [] (List.append_nil _).symm rfl rfl
  | unrecorded src d queue list hlen haw hcan hmem hqueue hlist errno hresult =>
      have hsrc := sourceOf_data hresult
      exact h.answered (ha src hsrc) hsrc rfl [] (List.append_nil _).symm rfl rfl
  | queued src d queue list hlen haw hcan hmem hqueue hlist errno hresult =>
      have hsrc := sourceOf_data hresult
      exact h.answered (ha src hsrc) hsrc rfl [] (List.append_nil _).symm rfl rfl

theorem follows_udpRecvMsg {w : World} {a : Arrival}
    (ha : ∀ src, sourceOf a = some src → P src) (h : Follows P w) :
    Follows P (udpRecvMsg w a).1 := by
  have hout := udpRecvMsg_outcome w a
  generalize udpRecvMsg w a = res at hout
  cases hout with
  | failed errno hresult =>
      exact h.step [.print (.error "recvfrom fault")] h.next rfl (by simp) rfl
  | truncated src d hlen errno hresult =>
      have hsrc := sourceOf_data hresult
      exact h.reception (ha src hsrc) hsrc [.print (.error "recvfrom fault")] rfl rfl (by simp) rfl
  | unconfirmed src d hlen hcan errno hresult =>
      have hsrc := sourceOf_data hresult
      exact h.reception (ha src hsrc) hsrc [] rfl (by simp) (by simp) rfl
  | unknownType src d hlen hcan hfind errno hresult =>
      have hsrc := sourceOf_data hresult
      exact h.answered (ha src hsrc) hsrc rfl [.print (.error "Unknown message")] rfl rfl rfl
  | duplicate src d hlen hcan hknown hmem errno hresult =>
      have hsrc := sourceOf_data hresult
      exact h.answered (ha src hsrc) hsrc rfl [] (List.append_nil _).symm rfl rfl
  | unrecorded src d list hlen hcan hknown hmem hlist errno hresult =>
      have hsrc := sourceOf_data hresult
      exact h.answered (ha src hsrc) hsrc rfl [] (List.append_nil _).symm rfl rfl
  | dispatched src d list p hlen hcan hknown hmem hlist errno hresult =>
      have hsrc := sourceOf_data hresult
      exact h.answered (ha src hsrc) hsrc (by simp [confirmed])
        ([.parsed (d.take bufferSize)] ++ World.printEvents p) (by simp) (by simp) (by simp)

theorem follows_udpCheckPrevious {w : World} (beyond : Bytes) (h : Follows P w) :
    Follows P (udpCheckPrevious w beyond).1 := by
  have hout := udpCheckPrevious_outcome w beyond
  generalize udpCheckPrevious w beyond = res at hout
  cases hout with
  | empty => exact h
  | unknownType m queue hfront hfind =>
      exact h.step [.print (.error "Unknown message")] h.next rfl (by simp) rfl
  | dispatched m queue entry hfront hfind =>
      refine h.step ([.parsed ((m.msg ++ beyond).take m.msgLen)] ++ World.printEvents
        (entry.parseFunc w.client (m.msg ++ beyond) m.msgLen)) ?_ (by simp) (by simp) (by simp)
      rw [World.printParsed_toGlobals]
      exact h.next

theorem follows_udpRun {client : Client} {retransmissions : UInt8} {calls : List UdpCall}
    (hres : P client.res)
    (hcalls : ∀ c ∈ calls, ∀ a ∈ c.arrivals, ∀ src, sourceOf a = some src → P src) :
    Follows P (udpRun client retransmissions calls) :=
  udpRun_preserves (follows_init hres retransmissions)
    (fun _ type msg h => follows_transmit h type msg)
    (fun _ _ ha h => follows_udpSendReceive ha h) (fun _ _ ha h => follows_udpRecvMsg ha h)
    (fun _ beyond h => follows_udpCheckPrevious beyond h) hcalls

/-! ## Who the sender is makes no other difference -/

/-- The same arrival from an unnamed sender. -/
def withoutSource (a : Arrival) : Arrival :=
  match a.result with
  | .data _ d errno => { a with result := .data default d errno }
  | .failed _ => a

/-- The same pass, with an unnamed sender. -/
def Attempt.withoutSource (attempt : Attempt) : Attempt :=
  { attempt with arrival := Udp.withoutSource attempt.arrival }

/-- The same call, with unnamed senders. -/
def UdpCall.withoutSource : UdpCall → UdpCall
  | .sendMsg type alloc attempts => .sendMsg type alloc (attempts.map Attempt.withoutSource)
  | .recvMsg a => .recvMsg (Udp.withoutSource a)
  | .checkPrevious beyond => .checkPrevious beyond

theorem withoutSource_data {a : Arrival} {src : SockAddr} {d : Bytes} {errno : Errno}
    (h : a.result = .data src d errno) :
    withoutSource a = { a with result := .data default d errno } := by
  unfold withoutSource
  rw [h]

theorem withoutSource_failed {a : Arrival} {errno : Errno} (h : a.result = .failed errno) :
    withoutSource a = a := by
  unfold withoutSource
  rw [h]

/-- The address of the peer, and whoever writes to the client. -/
def peers : Disregard where
  client c c' := ({ c with res := default } : Client) = { c' with res := default }
  arrival a a' := withoutSource a = withoutSource a'
  msgId_eq h := (congrArg Client.msgId h).symm
  setMsgId h id := congrArg (fun c : Client => { c with msgId := id }) h
  failed {a a' errno} h hresult := by
    rw [withoutSource_failed hresult] at h
    cases hresult' : a'.result with
    | failed errno' => exact (h.trans (withoutSource_failed hresult')).symm
    | data src d errno' =>
        rw [withoutSource_data hresult'] at h
        rw [h] at hresult
        cases hresult
  data {a a' src d errno} h hresult := by
    rw [withoutSource_data hresult] at h
    cases hresult' : a'.result with
    | failed errno' =>
        rw [withoutSource_failed hresult'] at h
        rw [← h] at hresult'
        cases hresult'
    | data src' d' errno' =>
        rw [withoutSource_data hresult'] at h
        have hresults : RecvResult.data default d errno = .data default d' errno' :=
          congrArg Arrival.result h
        obtain ⟨-, rfl, rfl⟩ := RecvResult.data.inj hresults
        refine ⟨src', ?_, fun hclient => hclient⟩
        calc a' = { a' with result := .data src' d errno } := by rw [← hresult']
          _ = { a with result := .data src' d errno } :=
            congrArg (fun b : Arrival => { b with result := .data src' d errno }) h.symm

theorem forall₂_of_map_eq {α β : Type} {f : α → β} {as as' : List α}
    (h : as.map f = as'.map f) : List.Forall₂ (fun a a' => f a = f a') as as' := by
  rw [← List.forall₂_eq_eq_eq, List.forall₂_map_left_iff, List.forall₂_map_right_iff] at h
  exact h

theorem udpBuildMsg_peers {c c' : Client} (h : peers.client c c') (type : MsgType) :
    udpBuildMsg c' type = udpBuildMsg c type := by
  have hblind : ∀ c : Client, udpBuildMsg { c with res := default } type = udpBuildMsg c type := by
    intro c
    cases type <;> rfl
  rw [← hblind c', ← show ({ c with res := default } : Client) = _ from h, hblind c]

/-- A call leaves alike worlds if it differs in the senders only. -/
theorem alike_step {c c' : UdpCall} (hc : c.withoutSource = c'.withoutSource) {w w' : World}
    (h : Alike peers w w') : Alike peers (UdpCall.step w c) (UdpCall.step w' c') := by
  cases c with
  | sendMsg type alloc attempts =>
      cases c' <;> simp only [UdpCall.withoutSource, UdpCall.sendMsg.injEq, reduceCtorEq] at hc
      obtain ⟨rfl, rfl, hattempts⟩ := hc
      have hsame : List.Forall₂ (SameAttempt peers) attempts _ :=
        (forall₂_of_map_eq hattempts).imp fun attempt attempt' heq =>
          ⟨(congrArg Attempt.sendto heq).symm, congrArg Attempt.arrival heq⟩
      exact (agree_udpSendMsg hsame h (udpBuildMsg_peers h.client type) alloc).related
  | recvMsg a =>
      cases c' <;> simp only [UdpCall.withoutSource, UdpCall.recvMsg.injEq, reduceCtorEq] at hc
      exact (agree_udpRecvMsg h hc).related
  | checkPrevious beyond =>
      cases c' <;>
        simp only [UdpCall.withoutSource, UdpCall.checkPrevious.injEq, reduceCtorEq] at hc
      subst hc
      exact (agree_udpCheckPrevious h beyond).related

theorem alike_steps {calls calls' : List UdpCall}
    (hcalls : List.Forall₂ (fun c c' => c.withoutSource = c'.withoutSource) calls calls')
    {w w' : World} (h : Alike peers w w') :
    Alike peers (calls.foldl UdpCall.step w) (calls'.foldl UdpCall.step w') := by
  induction hcalls generalizing w w' with
  | nil => exact h
  | cons hc _ ih => exact ih (alike_step hc h)

/-- Runs that differ in the senders of their datagrams end alike. -/
theorem alike_udpRun (client : Client) (retransmissions : UInt8) {calls calls' : List UdpCall}
    (hcalls : calls.map UdpCall.withoutSource = calls'.map UdpCall.withoutSource) :
    Alike peers (udpRun client retransmissions calls) (udpRun client retransmissions calls') :=
  alike_steps (forall₂_of_map_eq hcalls) (.intro client [] rfl rfl)

/-! ## The peer -/

/-- The AUTH goes to the server once, then a PING and a CONFIRM come from `src`. -/
def interceptedAuth (src : SockAddr) : List UdpCall :=
  [.sendMsg .auth true
    [{ arrival := { result := .data src [0xFD, 0, 7] .eagain } },
     { arrival := { result := .failed .eagain } },
     { arrival := { result := .data src [0, 0, 0] .eagain } }]]

/-- A stranger gets the CONFIRM and the retransmitted AUTH, with the secret in it, and
its datagrams end the wait. -/
theorem stranger_takes_over :
    let stranger : SockAddr := ⟨0x08080808, 9⟩
    let w := udpRun sampleClient 3 (interceptedAuth stranger)
    (¬ ∀ dest ∈ destinations w.trace, dest.ip = sampleClient.res.ip) ∧
      destinations w.trace = [sampleClient.res, stranger, stranger] ∧
      w.client.res = stranger ∧ w.client.msgId = 1 ∧ w.msgIdList.ids = [7] ∧
      w.msgQueue.toList = [⟨[0xFD, 0, 7], 3⟩] := by
  decide +kernel

/-- Whom a run sends to: the address of udp_setup, and the senders of the datagrams
received; it stays with one IP address if all of these have it.  Each reception
leaves its sender as the next destination, and makes the same difference to the
message ID, the list of IDs and the queue whoever the sender is. -/
theorem peer_is_the_last_sender (client : Client) (retransmissions : UInt8)
    (calls calls' : List UdpCall)
    (hcalls : calls.map UdpCall.withoutSource = calls'.map UdpCall.withoutSource) :
    let w := udpRun client retransmissions calls
    let w' := udpRun client retransmissions calls'
    (∀ dest ∈ w.client.res :: destinations w.trace,
      dest = client.res ∨ ∃ c ∈ calls, ∃ a ∈ c.arrivals, sourceOf a = some dest) ∧
    ((∀ c ∈ calls, ∀ a ∈ c.arrivals, ∀ src, sourceOf a = some src → src.ip = client.res.ip) →
      ∀ dest ∈ w.client.res :: destinations w.trace, dest.ip = client.res.ip) ∧
    (∀ r ∈ receptions w.trace, sourceOf r.arrival = some r.after.client.res) ∧
    w.client.msgId = w'.client.msgId ∧ w.msgIdList = w'.msgIdList ∧ w.msgQueue = w'.msgQueue := by
  intro w w'
  have hsame : Alike peers w w' := alike_udpRun client retransmissions hcalls
  have hfollows : Follows (fun dest => dest = client.res ∨
      ∃ c ∈ calls, ∃ a ∈ c.arrivals, sourceOf a = some dest) w :=
    follows_udpRun (Or.inl rfl) (fun c hc a ha src hsrc => Or.inr ⟨c, hc, a, ha, hsrc⟩)
  refine ⟨?_, ?_, hfollows.received, (peers.msgId_eq hsame.client).symm, hsame.msgIdList_eq.symm,
    hsame.msgQueue_eq.symm⟩
  · intro dest hdest
    rcases List.mem_cons.mp hdest with rfl | hsent
    · exact hfollows.next
    · exact hfollows.sent dest hsent
  · intro hsources dest hdest
    have hip : Follows (fun dest => dest.ip = client.res.ip) w := follows_udpRun rfl hsources
    rcases List.mem_cons.mp hdest with rfl | hsent
    · exact hip.next
    · exact hip.sent dest hsent

/-- The server and a stranger end the wait alike, but with the server alone the peer
stays the same. -/
theorem peer_is_the_last_sender_intercepted :
    let stranger : SockAddr := ⟨0x08080808, 9⟩
    let w := udpRun sampleClient 3 (interceptedAuth sampleClient.res)
    let w' := udpRun sampleClient 3 (interceptedAuth stranger)
    (∀ dest ∈ w.client.res :: destinations w.trace, dest.ip = sampleClient.res.ip) ∧
      w.client.msgId = w'.client.msgId ∧ w.msgIdList = w'.msgIdList ∧
      w.msgQueue = w'.msgQueue := by
  intro stranger w w'
  have h := peer_is_the_last_sender sampleClient 3 (interceptedAuth sampleClient.res)
    (interceptedAuth stranger) rfl
  exact ⟨h.2.1 (by decide), h.2.2.2⟩

end IpkChat.Udp
