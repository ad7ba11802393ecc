/-
A message along a chain of mesh nodes, and the way back if it fails.

Each node of the chain has the next one in its routing table as the next hop to
the destination, and the one before it as the next hop to the source, as they
have after a discovery.  If all links are up the message is delivered.  If the
last node cannot pass it on, its report travels back to the source, and on its
way each of the nodes deletes the route that has failed: none of them sends a
message into the gap again.

* `Passed` — what becomes of a node that sends a message, or passes one on;
* `recvfromAck_passes`, `recvfromAck_stuck` — the message is passed on, or is
  reported;
* `Carried`, `Moved`, `delivered` — the message on its way, and what it leaves
  of the nodes;
* `Returned`, `failure_unwinds` — the message and its report on their way, and
  what is left of the routes.
-/
import RadioHead.Provenance

namespace RHRouter

variable {β : Type}

/-- What is sent to `hop` is not acknowledged. -/
def Refuses (link : List Frame → LinkAnswer) (hop : UInt8) : Prop :=
  hop ≠ broadcastAddress ∧ ∀ sent f, f.headerTo = hop → (link (sent ++ [f])).acked = false

section Link

variable {link : List Frame → LinkAnswer} {hop : UInt8} {s : RHRouter β}

theorem linkSendtoWait_refused {data : List UInt8} (h : Refuses link hop)
    (hlen : data.length ≤ maxMessageLen) (s : RHRouter β) :
    (s.linkSendtoWait link data hop).1 = false := by
  rw [linkSendtoWait, if_neg h.1]
  show (link (s.sent ++ Option.toList (ite _ _ _))).acked = false
  rw [if_pos hlen]
  exact h.2 _ _ rfl

/-- A message that is routed is no acknowledgement. -/
theorem route_notAck (link : List Frame → LinkAnswer) (s : RHRouter β) (n : UInt8) :
    ∀ g ∈ s.sentSince (s.route link n).2, ¬ g.IsAck := by
  intro g hg
  rcases hnext : s.nextHop with _ | hop
  · rw [route_noRoute hnext, sentSince, show (s.note _).sent = s.sent from rfl,
      List.drop_length] at hg
    cases hg
  · rw [route_hop hnext, sentSince, linkSendtoWait_sent, show (s.note _).sent = s.sent from rfl,
      List.drop_left, Option.mem_toList] at hg
    exact (RHReliableDatagram.attempt_frame hg).2.2.2.2

/-- It takes one sequence number at most. -/
theorem route_lastSequenceNumber (link : List Frame → LinkAnswer) (s : RHRouter β) (n : UInt8) :
    (s.route link n).2.lastSequenceNumber = s.lastSequenceNumber ∨
      (s.route link n).2.lastSequenceNumber = s.lastSequenceNumber + 1 := by
  rcases hnext : s.nextHop with _ | hop
  · rw [route_noRoute hnext]
    exact .inl rfl
  · rw [route_hop hnext]
    refine .inr ?_
    dsimp only
    rw [linkSendtoWait]
    split <;> rfl

end Link

end RHRouter

namespace RHMesh

open RHRouter

variable {s t : RHMesh} {f : Frame} {link : List Frame → LinkAnswer}
  {dest source hops id flags hop : UInt8} {buf : List UInt8}

/-! ### One node -/

/-- From `s` to `t` the node has sent `data` to `hop`; it has the routes `r` then,
and has seen `seen`. -/
structure Passed (s : RHMesh) (seen : UInt8 → UInt8) (r : RoutingTable) (hop : UInt8)
    (data : List UInt8) (t : RHMesh) : Prop where
  thisAddress : t.thisAddress = s.thisAddress
  txHeaderFrom : t.txHeaderFrom = s.txHeaderFrom
  maxHops : t.maxHops = s.maxHops
  seenIds : t.seenIds = seen
  lastSequenceNumber : t.lastSequenceNumber = s.lastSequenceNumber + 1
  routes : t.routes = r
  sent : ∃ flags, t.sent = s.sent ++
    [⟨hop, s.txHeaderFrom, s.lastSequenceNumber + 1, flags, data⟩] ∧ flags &&& flagsAck = 0

/-- The message is for another node, and has hops left. -/
theorem recvfromAck_hopped (link : List Frame → LinkAnswer) (htakes : s.Takes f)
    (hdata : f.data = message dest source hops id flags buf)
    (hmax : f.data.length ≤ maxMessageLen) (haway : dest ≠ s.thisAddress)
    (hbc : dest ≠ broadcastAddress) (hhops : hops < s.maxHops) (len : UInt8) :
    recvfromAck link s f len = (none, (route link (peeked s f).hopped f.storedLen).2) ∧
      (peeked s f).hopped.tmpMessage 0 = dest ∧ (peeked s f).hopped.tmpMessage 1 = source ∧
      (peeked s f).hopped.rxHeaderFrom = f.headerFrom ∧ f.storedLen.toNat ≤ maxMessageLen ∧
      (peeked s f).hopped.tmpMessage.load 0 f.storedLen.toNat =
        message dest source (hops + 1) id flags buf := by
  have hlong : routedHeaderLen ≤ f.data.length := by
    rw [hdata, message, List.length_append]
    exact Nat.le_add_right 5 _
  have hget : ∀ i < routedHeaderLen, (peeked s f).tmpMessage i = f.data.getD i 0 := by
    intro i hi
    rw [peeked_tmpMessage]
    exact getD_stored (by omega) hmax s.tmpMessage
  obtain ⟨r, a, hp⟩ := peeked_eq s f
  have hthis : (peeked s f).thisAddress = s.thisAddress := by
    rw [hp]
    exact taken_thisAddress s f
  have hmaxHops : (peeked s f).maxHops = s.maxHops := by
    rw [hp]
    rfl
  have h0 : (peeked s f).tmpMessage 0 = dest := by
    rw [hget 0 (by decide), hdata]
    rfl
  have h2 : (peeked s f).tmpMessage 2 = hops := by
    rw [hget 2 (by decide), hdata]
    rfl
  have hnot : ¬ (peeked s f).Here := by
    rw [Here, h0, hthis, not_or]
    exact ⟨haway, hbc⟩
  have hhops' : (peeked s f).tmpMessage 2 < (peeked s f).maxHops := by
    rw [h2, hmaxHops]
    exact hhops
  obtain ⟨heq, hfrom⟩ : recvfromAck link s f len =
      (none, (route link (peeked s f).hopped f.storedLen).2) ∧
        (peeked s f).hopped.rxHeaderFrom = f.headerFrom :=
    recvfromAck_forwards htakes hnot hhops' len
  refine ⟨heq, ?_, ?_, hfrom, ?_, ?_⟩
  · show ((peeked s f).tmpMessage.write 2 [(peeked s f).tmpMessage 2 + 1]) 0 = dest
    rw [Mem.write_lt (by decide), h0]
  · show ((peeked s f).tmpMessage.write 2 [(peeked s f).tmpMessage 2 + 1]) 1 = source
    rw [Mem.write_lt (by decide), hget 1 (by decide), hdata]
    rfl
  · rw [storedLen_toNat]
    exact (min_le_right _ _).trans hmax
  · show ((peeked s f).tmpMessage.write 2 [(peeked s f).tmpMessage 2 + 1]).load 0 _ = _
    rw [peeked_tmpMessage, load_hopped hlong hmax]
    exact forwarded_message hdata

/-- The next hop acknowledges the message. -/
theorem recvfromAck_passes (htakes : s.Takes f)
    (hdata : f.data = message dest source hops id flags buf)
    (hmax : f.data.length ≤ maxMessageLen) (haway : dest ≠ s.thisAddress)
    (hbc : dest ≠ broadcastAddress) (hhops : hops < s.maxHops)
    (hnext : (peeked s f).routes.nextHop dest = some hop) (hack : Acks link hop) (len : UInt8) :
    (recvfromAck link s f len).1 = none ∧
      Passed s (Function.update s.seenIds f.headerFrom f.headerId) (peeked s f).routes hop
        (message dest source (hops + 1) id flags buf) (recvfromAck link s f len).2 := by
  obtain ⟨heq, h0, -, -, hn, hload⟩ :=
    recvfromAck_hopped link htakes hdata hmax haway hbc hhops len
  have hunext : (peeked s f).hopped.nextHop = some hop := by
    rw [RHRouter.nextHop, h0, if_pos hbc]
    exact hnext
  obtain ⟨-, ht⟩ := route_transmits hunext hack hn
  rw [hload] at ht
  rw [heq]
  obtain ⟨r, a, hp⟩ := peeked_eq s f
  have hdatagram : (peeked s f).hopped.toRHReliableDatagram = (s.taken f).toRHReliableDatagram := by
    show (peeked s f).toRHReliableDatagram = _
    rw [hp]
  refine ⟨rfl, ?_, ?_, ?_, ?_, ?_, ht.routes, ?_⟩
  · rw [ht.thisAddress, hdatagram, taken_thisAddress]
  · rw [ht.txHeaderFrom, hdatagram, taken_txHeaderFrom]
  · rw [ht.maxHops]
    show (peeked s f).maxHops = _
    rw [hp]
    rfl
  · rw [ht.seenIds, hdatagram, taken_seenIds]
  · rw [ht.lastSequenceNumber, hdatagram, taken_lastSequenceNumber]
  · obtain ⟨flags', hsent, hflags⟩ := ht.sent
    refine ⟨flags', ?_, hflags⟩
    rw [hsent, hdatagram, taken_txHeaderFrom, taken_lastSequenceNumber]
    show (peeked s f).sent ++ _ = _
    rw [hp]
    rfl

/-- A message of the node's own leaves as the router sends it. -/
theorem route_own_sent (link : List Frame → LinkAnswer) {n : UInt8}
    (hown : s.tmpMessage 1 = s.thisAddress) :
    (route link s n).2.sent = (RHRouter.route link s n).2.sent := by
  by_cases hfail : Fails (RHRouter.route link s n).1
  · rw [route, routeFuel_dropped link 1 hfail hown]
    rfl
  · rw [route, routeFuel_passed link 1 hfail]

/-- The frame of a message of the node's own, acknowledged or not. -/
theorem sendtoWait_own_frame (link : List Frame → LinkAnswer)
    (hlen : buf.length + routedHeaderLen ≤ maxMessageLen) (hbc : dest ≠ broadcastAddress)
    (hnext : s.routes.nextHop dest = some hop) :
    ∃ g, (RHRouter.sendtoWait (route link) s buf dest).2.sent = s.sent ++ [g] ∧
      g.headerTo = hop ∧ g.headerFrom = s.txHeaderFrom ∧
      g.headerId = s.lastSequenceNumber + 1 ∧ ¬ g.IsAck ∧
      g.data = message dest s.thisAddress 0 s.lastE2ESequenceNumber 0 buf := by
  obtain ⟨-, flags, hsent⟩ := sendtoWait_own link hlen hbc hnext
  refine ⟨_, hsent, rfl, rfl, rfl, ?_, rfl⟩
  set u := s.composed buf dest s.thisAddress 0 with hu
  have hown : u.tmpMessage 1 = u.thisAddress := composed_source s dest s.thisAddress 0
  have hroute : RHRouter.sendtoWait (route link) s buf dest =
      route link u (UInt8.ofNat (routedHeaderLen + buf.length)) :=
    sendtoFromSourceWait_eq s dest s.thisAddress 0 (route link) hlen
  refine route_notAck link u (UInt8.ofNat (routedHeaderLen + buf.length)) _ ?_
  rw [hroute, route_own_sent link hown] at hsent
  rw [sentSince, hsent, show u.sent = s.sent from rfl, List.drop_left]
  exact List.mem_singleton_self _

/-- There is no next hop, or it does not acknowledge the message: the node before
is told, and the route is gone. -/
theorem recvfromAck_stuck (htakes : s.Takes f)
    (hdata : f.data = message dest source hops id flags buf)
    (hmax : f.data.length ≤ maxMessageLen) (haway : dest ≠ s.thisAddress)
    (hbc : dest ≠ broadcastAddress) (hhops : hops < s.maxHops) (hother : source ≠ s.thisAddress)
    (hsource : source ≠ broadcastAddress) (hne : source ≠ dest)
    (hrefuse : ∀ hop ∈ (peeked s f).routes.nextHop dest, Refuses link hop) (len : UInt8) :
    let t := recvfromAck link s f len
    t.1 = none ∧ t.2.routes.getRouteTo dest = none ∧
      ∃ passed g, t.2.sent = s.sent ++ passed ++ [g] ∧ passed.length ≤ 1 ∧
        g.headerTo = f.headerFrom ∧ g.headerFrom = s.txHeaderFrom ∧
        (g.headerId = s.lastSequenceNumber + 1 ∨ g.headerId = s.lastSequenceNumber + 2) ∧
        ¬ g.IsAck ∧ ∃ id', g.data = message source s.thisAddress 0 id' 0 [typeFailure, dest] := by
  obtain ⟨heq, h0, h1, hfrom, hn, hload⟩ :=
    recvfromAck_hopped link htakes hdata hmax haway hbc hhops len
  obtain ⟨r, a, hp⟩ := peeked_eq s f
  set u := (peeked s f).hopped with hu
  have hdatagram : u.toRHReliableDatagram = (s.taken f).toRHReliableDatagram := by
    show (peeked s f).toRHReliableDatagram = _
    rw [hp]
  have hthis : u.thisAddress = s.thisAddress := by rw [hdatagram, taken_thisAddress]
  have hdead : Undelivered link u f.storedLen := by
    intro hop hhop
    rw [h0] at hhop
    refine linkSendtoWait_refused (hrefuse hop hhop) ?_ u
    rwa [Mem.length_load]
  have hother' : u.tmpMessage 1 ≠ u.thisAddress := by rwa [h1, hthis]
  obtain ⟨hreported, -⟩ := route_failure hother' (by rwa [h0, h1]) (by rwa [h0]) (by rwa [h1]) hdead
  -- the report
  obtain ⟨hfail, -, -, -, passed, hpassed, hone, -⟩ := route_undelivered (by rwa [h0]) hdead
  obtain ⟨hsent', hfrom', hthis', -, hroutes⟩ := reporting_keeps link u f.storedLen
  have hnext : (reporting link u f.storedLen).routes.nextHop (u.tmpMessage 1) =
      some f.headerFrom := by
    rw [hroutes, RoutingTable.nextHop, RoutingTable.getRouteTo_addRouteTo _ _ _ (by decide), hfrom]
    rfl
  have hfits : (failureReport u).length + routedHeaderLen ≤ maxMessageLen :=
    show 2 + 5 ≤ 251 by decide
  obtain ⟨g, hg, hgto, hgfrom, hgid, hgack, hgdata⟩ :=
    sendtoWait_own_frame link hfits (by rwa [h1]) hnext
  have hroute := route_reports hother' hfail
  rw [← hroute, hsent', hpassed] at hg
  rw [heq]
  refine ⟨rfl, h0 ▸ hreported.route_deleted, passed, g, ?_, hone, hgto, ?_, ?_, hgack, ?_⟩
  · rw [hg]
    show (peeked s f).sent ++ _ ++ _ = _
    rw [hp]
    rfl
  · rw [hgfrom, hfrom']
    have hkeep : (RHRouter.route link u f.storedLen).2.txHeaderFrom = u.txHeaderFrom :=
      (RHRouter.route_sends (P := fun _ => True) link u trivial).txHeaderFrom
    rw [hkeep, hdatagram, taken_txHeaderFrom]
  · have hlast : (reporting link u f.storedLen).lastSequenceNumber =
        (RHRouter.route link u f.storedLen).2.lastSequenceNumber := rfl
    have hstart : u.lastSequenceNumber = s.lastSequenceNumber := by
      rw [hdatagram, taken_lastSequenceNumber]
    rw [hgid, hlast]
    rcases route_lastSequenceNumber link u f.storedLen with h | h
    · exact .inl (by rw [h, hstart])
    · refine .inr ?_
      rw [h, hstart, UInt8.add_assoc]
      rfl
  · rw [hgdata, hthis', hthis, h1, failureReport, h0]
    exact ⟨_, rfl⟩

/-! ### What a node learns on the way -/

theorem storedLen_message {msgType : UInt8}
    (hdata : f.data = message dest source hops id flags (msgType :: buf))
    (hmax : f.data.length ≤ maxMessageLen) : f.storedLen > 1 := by
  have hcount : f.data.length = 6 + buf.length := by
    rw [hdata]
    exact Nat.add_comm _ 6
  rw [maxMessageLen] at hmax
  refine UInt8.lt_iff_toNat_lt.mpr ?_
  rw [storedLen_toNat, routedMessageSize, hcount]
  show 1 < _
  omega

theorem taken_octet {msgType : UInt8} {i : ℕ}
    (hdata : f.data = message dest source hops id flags (msgType :: buf))
    (hmax : f.data.length ≤ maxMessageLen) (hi : i < 6 + buf.length) (s : RHMesh) :
    (s.taken f).tmpMessage i = (message dest source hops id flags (msgType :: buf)).getD i 0 := by
  have hcount : f.data.length = 6 + buf.length := by
    rw [hdata]
    exact Nat.add_comm _ 6
  have := getD_stored (hcount ▸ hi) hmax s.tmpMessage
  rw [hdata] at this
  exact this

/-- Nothing from a message of the application. -/
theorem peeked_application
    (hdata : f.data = message dest source hops id flags (typeApplication :: buf))
    (hmax : f.data.length ≤ maxMessageLen) (s : RHMesh) : (peeked s f).routes = s.routes := by
  have h5 : (s.taken f).tmpMessage 5 = typeApplication := taken_octet hdata hmax (by omega) s
  rw [peeked, peekAtMessage, if_pos (storedLen_message hdata hmax)]
  dsimp only
  rw [h5, if_neg (by decide), if_neg (by decide)]
  rfl

/-- From a report, that the route has failed. -/
theorem peeked_failure {dead : UInt8}
    (hdata : f.data = message dest source hops id flags [typeFailure, dead])
    (hmax : f.data.length ≤ maxMessageLen) (s : RHMesh) :
    (peeked s f).routes = (s.routes.deleteRouteTo dead).2 := by
  have h5 : (s.taken f).tmpMessage 5 = typeFailure := taken_octet hdata hmax (by simp) s
  have h6 : (s.taken f).tmpMessage 6 = dead := taken_octet hdata hmax (by simp) s
  rw [peeked, peekAtMessage, if_pos (storedLen_message hdata hmax)]
  dsimp only
  rw [h5, if_neg (by decide), if_pos rfl, ← h6]
  rfl

/-! ### At the end -/

/-- From `s` to `t` the node has taken the frame, and is otherwise as it was. -/
structure Keeps (s : RHMesh) (f : Frame) (t : RHMesh) : Prop where
  thisAddress : t.thisAddress = s.thisAddress
  txHeaderFrom : t.txHeaderFrom = s.txHeaderFrom
  maxHops : t.maxHops = s.maxHops
  seenIds : t.seenIds = Function.update s.seenIds f.headerFrom f.headerId
  lastSequenceNumber : t.lastSequenceNumber = s.lastSequenceNumber
  routes : t.routes = s.routes

theorem handleReceived_keeps (link : List Frame → LinkAnswer) (s : RHMesh) {r : Received}
    (hbuf : r.buf = typeApplication :: buf) (hlt : r.buf.length < 256) (len : UInt8) :
    let t := (handleReceived link s r len).2
    t.toRHReliableDatagram = s.toRHReliableDatagram ∧ t.maxHops = s.maxHops ∧
      t.routes = s.routes := by
  have hone : UInt8.ofNat r.buf.length ≥ 1 := by
    refine UInt8.le_iff_toNat_le.mpr ?_
    rw [UInt8.toNat_ofNat_of_lt' hlt, hbuf]
    exact Nat.succ_pos _
  have htype : ((store s 0 r.buf).note [.octet 5]).derived 0 = typeApplication := by
    rw [hbuf]
    rfl
  rw [handleReceived]
  dsimp only
  rw [if_pos hone, if_pos htype]
  exact ⟨rfl, rfl, rfl⟩

/-- A message of the application is returned at its destination. -/
theorem recvfromAck_arrives (link : List Frame → LinkAnswer) (htakes : s.Takes f)
    (hdata : f.data = message s.thisAddress source hops id flags (typeApplication :: buf))
    (hmax : f.data.length ≤ maxMessageLen) (len : UInt8) :
    (recvfromAck link s f len).1 =
        some ⟨source, s.thisAddress, id, flags, buf.take len.toNat⟩ ∧
      Keeps s f (recvfromAck link s f len).2 := by
  obtain ⟨hlt, heq⟩ := recvfromAck_home link htakes hdata hmax (.inl rfl) len
  obtain ⟨hdatagram, hmaxHops, hroutes⟩ := handleReceived_keeps link
    ((peeked s f).deliver f.storedLen meshMessageSize).2
    (r := ⟨source, s.thisAddress, id, flags, typeApplication :: buf⟩) rfl hlt len
  have hpeek := peeked_application hdata hmax s
  obtain ⟨r, a, hp⟩ := peeked_eq s f
  rw [heq]
  refine ⟨?_, ?_, ?_, ?_, ?_, ?_, hroutes.trans hpeek⟩
  · rw [handleReceived_fst link _
      (r := ⟨source, s.thisAddress, id, flags, typeApplication :: buf⟩) (Nat.zero_lt_succ _) hlt]
    rfl
  · rw [hdatagram]
    show (peeked s f).thisAddress = _
    rw [hp]
    exact taken_thisAddress s f
  · rw [hdatagram]
    show (peeked s f).txHeaderFrom = _
    rw [hp]
    exact taken_txHeaderFrom s f
  · refine hmaxHops.trans ?_
    show (peeked s f).maxHops = _
    rw [hp]
    rfl
  · rw [hdatagram]
    show (peeked s f).seenIds = _
    rw [hp]
    exact taken_seenIds s f
  · rw [hdatagram]
    show (peeked s f).lastSequenceNumber = _
    rw [hp]
    exact taken_lastSequenceNumber s f

theorem handleReceived_failure (link : List Frame → LinkAnswer) (s : RHMesh) {r : Received}
    {dead : UInt8} (hbuf : r.buf = [typeFailure, dead]) (len : UInt8) :
    handleReceived link s r len = (none, (store s 0 r.buf).note [.octet 5]) := by
  have htype : (store s 0 r.buf).derived 0 = typeFailure := by
    rw [hbuf]
    rfl
  rw [handleReceived, hbuf]
  refine (if_pos (show UInt8.ofNat 2 ≥ 1 by decide)).trans ((if_neg ?_).trans (if_neg ?_))
  · rw [← hbuf, note, htype]
    decide
  · rintro ⟨-, -, h⟩
    rw [← hbuf, note, htype] at h
    exact absurd h (by decide)

/-- A report is not: it only costs the route. -/
theorem recvfromAck_told (link : List Frame → LinkAnswer) {dead : UInt8} (htakes : s.Takes f)
    (hdata : f.data = message s.thisAddress source hops id flags [typeFailure, dead])
    (hmax : f.data.length ≤ maxMessageLen) (len : UInt8) :
    (recvfromAck link s f len).1 = none ∧
      (recvfromAck link s f len).2.routes = (s.routes.deleteRouteTo dead).2 := by
  obtain ⟨-, heq⟩ := recvfromAck_home link htakes hdata hmax (.inl rfl) len
  rw [heq, handleReceived_failure link _ rfl, ← peeked_failure hdata hmax s]
  exact ⟨rfl, rfl⟩

/-- `RHMesh::sendtoWait` with a route at hand. -/
theorem sendtoWait_transmits (hlen : ¬ TooLong buf) (hbc : dest ≠ broadcastAddress)
    (hnext : s.routes.nextHop dest = some hop) (hack : Acks link hop) (flags : UInt8)
    (frames : List Frame) :
    let t := sendtoWait link s buf dest flags frames
    t.1 = .none ∧ Passed s s.seenIds s.routes hop
      (message dest s.thisAddress 0 s.lastE2ESequenceNumber flags (typeApplication :: buf))
      t.2 := by
  rw [TooLong, not_lt, routedHeaderLen, meshHeaderLen] at hlen
  have hfits : (typeApplication :: buf).length + routedHeaderLen ≤ maxMessageLen := by
    rw [List.length_cons, routedHeaderLen]
    omega
  have hmesh : ¬ meshMaxMessageLen < buf.length := by
    rw [maxMessageLen] at hlen
    rw [meshMaxMessageLen]
    omega
  have hroute : s.routes.getRouteTo dest ≠ none := by
    intro h
    rw [RoutingTable.nextHop, h] at hnext
    cases hnext
  set v := store s 0 (typeApplication :: buf) with hv
  have hload : v.derived.load 0 (meshHeaderLen + buf.length) = typeApplication :: buf := by
    have := Mem.load_write_self s.derived 0 (typeApplication :: buf)
    rwa [List.length_cons, Nat.add_comm] at this
  set u := v.composed (typeApplication :: buf) dest v.thisAddress flags with hu
  have hsend : sendtoWait link s buf dest flags frames =
      route link u (UInt8.ofNat (routedHeaderLen + (typeApplication :: buf).length)) := by
    rw [sendtoWait, if_neg hmesh, if_neg fun h => hroute h.2, sendApplication, if_neg hmesh]
    show RHRouter.sendtoWait (route link) v (v.derived.load 0 (meshHeaderLen + buf.length)) dest
      flags = _
    rw [hload]
    exact sendtoFromSourceWait_eq v dest v.thisAddress flags (route link) hfits
  have hunext : u.nextHop = some hop := by
    rw [hu, composed_nextHop, if_pos hbc]
    exact hnext
  have hn := composed_length v dest v.thisAddress flags hfits
  rw [length_outgoing] at hn
  obtain ⟨hok, ht⟩ := route_transmits hunext hack (hn.trans_le (by omega))
  rw [hu, composed_load v dest v.thisAddress flags hfits, ← hu] at ht
  rw [hsend]
  exact ⟨hok, ht.thisAddress, ht.txHeaderFrom, ht.maxHops, ht.seenIds, ht.lastSequenceNumber,
    ht.routes, ht.sent⟩

/-! ### The chain -/

/-- A node, and its links. -/
structure Stop where
  node : RHMesh
  link : List Frame → LinkAnswer

namespace Stop

def address (n : Stop) : UInt8 := n.node.thisAddress

/-- `RHMesh::recvfromAck`, in the state `s` of the node. -/
def recvfromAck (n : Stop) (s : RHMesh) (f : Frame) (len : UInt8) : Option Received × RHMesh :=
  RHMesh.recvfromAck n.link s f len

/-- A node after `init`, with an address of its own. -/
structure Up (n : Stop) : Prop where
  address : n.address ≠ broadcastAddress
  headerFrom : n.node.txHeaderFrom = n.address

/-- Node `b` is the next hop of `a` to `dest`, and acknowledges what it is sent;
it has not seen the link number that `a` uses next. -/
structure Forth (dest : UInt8) (a b : Stop) : Prop where
  nextHop : a.node.routes.nextHop dest = some b.address
  acks : Acks a.link b.address
  fresh : a.node.lastSequenceNumber + 1 ≠ b.node.seenIds a.address

/-- Node `a` is the next hop of `b` to `source`, and acknowledges what it is sent. -/
structure Back (source : UInt8) (a b : Stop) : Prop where
  nextHop : b.node.routes.nextHop source = some a.address
  acks : Acks b.link a.address

/-- Node `a` has not seen the next two link numbers of `b`. -/
def Unheard (a b : Stop) : Prop :=
  b.node.lastSequenceNumber + 1 ≠ a.node.seenIds b.address ∧
    b.node.lastSequenceNumber + 2 ≠ a.node.seenIds b.address

/-- The next message of `a`, sent to `b`. -/
structure Crosses (a b : Stop) (data : List UInt8) (f : Frame) : Prop where
  headerTo : f.headerTo = b.address
  headerFrom : f.headerFrom = a.address
  headerId : f.headerId = a.node.lastSequenceNumber + 1
  notAck : ¬ f.IsAck
  data : f.data = data

/-- The node with other members. -/
def become (n : Stop) (t : RHMesh) : Stop := ⟨t, n.link⟩

/-- A message on its way over a chain: each node returns nothing and sends one
message to the next, and the last one returns `r`.  The other chain is what they
are then. -/
inductive Carried (len : UInt8) : List Stop → Frame → Received → List Stop → Prop
  | arrives {b : Stop} {f : Frame} {r : Received} {t : RHMesh}
      (hr : b.recvfromAck b.node f len = (some r, t)) : Carried len [b] f r [b.become t]
  | passes {b c : Stop} {bs cs : List Stop} {f g : Frame} {r : Received} {t : RHMesh}
      (ht : b.recvfromAck b.node f len = (none, t)) (hsent : t.sent = b.node.sent ++ [g])
      (hto : g.headerTo = c.address) (hrest : Carried len (c :: bs) g r cs) :
      Carried len (b :: c :: bs) f r (b.become t :: cs)

/-- A `ROUTE_FAILURE` message for `source`: node `gap` has no way to `dest`. -/
def Tells (source gap dest : UInt8) (g : Frame) : Prop :=
  ∃ hops id, g.data = message source gap hops id 0 [typeFailure, dest]

/-- A message and its report on their way: each of the nodes passes the message
on, up to the last one, `gap`, which sends a report to the node before it; and so
does each of them on getting the report.  Their members are `ts` then. -/
inductive Returned (source gap dest len : UInt8) :
    List Stop → Frame → List RHMesh → Frame → Prop
  | stuck {b : Stop} {f g : Frame} {passed : List Frame}
      (hnone : (b.recvfromAck b.node f len).1 = none)
      (hsent : (b.recvfromAck b.node f len).2.sent = b.node.sent ++ passed ++ [g])
      (hone : passed.length ≤ 1) (htells : Tells source gap dest g) :
      Returned source gap dest len [b] f [(b.recvfromAck b.node f len).2] g
  | passes {b c : Stop} {bs : List Stop} {f f' g g' : Frame} {t : RHMesh} {ts : List RHMesh}
      (ht : b.recvfromAck b.node f len = (none, t)) (hsent : t.sent = b.node.sent ++ [f'])
      (hto : f'.headerTo = c.address) (hforward : f'.data = f.forwarded)
      (hrest : Returned source gap dest len (c :: bs) f' ts g)
      (hback : g.headerTo = b.address) (hnone : (b.recvfromAck t g len).1 = none)
      (hreport : (b.recvfromAck t g len).2.sent = t.sent ++ [g'])
      (htells : Tells source gap dest g') :
      Returned source gap dest len (b :: c :: bs) f ((b.recvfromAck t g len).2 :: ts) g'

section Chain

variable {a b c : Stop} {ns : List Stop} {hops : ℕ}

/-- The next node takes the message. -/
theorem Crosses.takes {data : List UInt8} (h : Crosses a b data f) (hlink : Forth dest a b) :
    b.node.Takes f := by
  refine ⟨h.notAck, ?_⟩
  rw [RHReliableDatagram.isNew, h.headerId, h.headerFrom]
  exact hlink.fresh

/-- It fits a message of the link. -/
theorem Crosses.length_le (h : Crosses a b (message dest source (UInt8.ofNat hops) id flags
      (typeApplication :: buf)) f) (hlen : ¬ TooLong buf) : f.data.length ≤ maxMessageLen := by
  rw [TooLong, not_lt, routedHeaderLen, meshHeaderLen] at hlen
  rw [h.data, message, List.length_append, List.length_cons]
  show 5 + (buf.length + 1) ≤ _
  omega

theorem ofNat_lt {hops : ℕ} {max : UInt8} (h : hops < max.toNat) : UInt8.ofNat hops < max := by
  have := max.toNat_lt
  rwa [UInt8.lt_iff_toNat_lt, UInt8.toNat_ofNat_of_lt' (show hops < 256 by omega)]

/-- Node `a` has sent a message, and is otherwise as it was. -/
structure Began (a : Stop) (t : RHMesh) : Prop where
  thisAddress : t.thisAddress = a.address
  txHeaderFrom : t.txHeaderFrom = a.node.txHeaderFrom
  maxHops : t.maxHops = a.node.maxHops
  seenIds : t.seenIds = a.node.seenIds
  lastSequenceNumber : t.lastSequenceNumber = a.node.lastSequenceNumber + 1
  routes : t.routes = a.node.routes

/-- Node `b` has heard the next message of `a`, and has used `k` numbers itself. -/
structure After (a b : Stop) (k : UInt8) (t : RHMesh) : Prop where
  thisAddress : t.thisAddress = b.address
  txHeaderFrom : t.txHeaderFrom = b.node.txHeaderFrom
  maxHops : t.maxHops = b.node.maxHops
  seenIds : t.seenIds =
    Function.update b.node.seenIds a.address (a.node.lastSequenceNumber + 1)
  lastSequenceNumber : t.lastSequenceNumber = b.node.lastSequenceNumber + k
  routes : t.routes = b.node.routes

/-- So have all nodes of a chain, the last one without sending it on. -/
inductive Moved : Stop → List Stop → List Stop → Prop
  | last {a b : Stop} {t : RHMesh} (ht : After a b 0 t) : Moved a [b] [b.become t]
  | cons {a b c : Stop} {bs cs : List Stop} {t : RHMesh} (ht : After a b 1 t)
      (hrest : Moved b (c :: bs) cs) : Moved a (b :: c :: bs) (b.become t :: cs)

/-- One node passes the message on. -/
theorem Crosses.next (h : Crosses a b (message dest source (UInt8.ofNat hops) id flags
      (typeApplication :: buf)) f) (hlen : ¬ TooLong buf) (hup : b.Up)
    (hlink : Forth dest a b) (hnext : Forth dest b c) (haway : dest ≠ b.address)
    (hbc : dest ≠ broadcastAddress) (hhops : hops < b.node.maxHops.toNat) (len : UInt8) :
    ∃ t g, b.recvfromAck b.node f len = (none, t) ∧ t.sent = b.node.sent ++ [g] ∧
      After a b 1 t ∧ Crosses b c (message dest source (UInt8.ofNat (hops + 1)) id flags
        (typeApplication :: buf)) g := by
  have hmax : f.data.length ≤ maxMessageLen := h.length_le hlen
  have hpeek := peeked_application h.data hmax b.node
  obtain ⟨hnone, hpassed⟩ := recvfromAck_passes (h.takes hlink) h.data hmax haway hbc
    (ofNat_lt hhops) (by rw [hpeek]; exact hnext.nextHop) hnext.acks len
  obtain ⟨flags', hsent, hflags⟩ := hpassed.sent
  refine ⟨_, _, Prod.ext hnone rfl, hsent, ⟨hpassed.thisAddress, hpassed.txHeaderFrom,
    hpassed.maxHops, h.headerFrom ▸ h.headerId ▸ hpassed.seenIds, hpassed.lastSequenceNumber,
    hpassed.routes.trans hpeek⟩, rfl, hup.headerFrom, rfl, not_not.mpr hflags, ?_⟩
  rw [UInt8.ofNat_add]
  rfl

/-- The last node returns it. -/
theorem Crosses.arrives (h : Crosses a b (message b.address source (UInt8.ofNat hops) id flags
      (typeApplication :: buf)) f) (hlen : ¬ TooLong buf) (hlink : Forth b.address a b)
    (len : UInt8) : ∃ t, b.recvfromAck b.node f len =
      (some ⟨source, b.address, id, flags, buf.take len.toNat⟩, t) ∧ After a b 0 t := by
  obtain ⟨hr, hkeeps⟩ :=
    recvfromAck_arrives b.link (h.takes hlink) h.data (h.length_le hlen) len
  refine ⟨_, Prod.ext hr rfl, hkeeps.thisAddress, hkeeps.txHeaderFrom, hkeeps.maxHops,
    h.headerFrom ▸ h.headerId ▸ hkeeps.seenIds, ?_, hkeeps.routes⟩
  exact hkeeps.lastSequenceNumber.trans (UInt8.add_zero _).symm

/-- From one node to the end, by induction on the nodes in between. -/
theorem carried_to_end {d : Stop} (hbc : d.address ≠ broadcastAddress) (hlen : ¬ TooLong buf)
    (len : UInt8) : ∀ {a b : Stop} {hops : ℕ} {f : Frame},
      (a :: (ns ++ [d])).IsChain (Forth d.address) →
      (∀ n ∈ ns, n.Up ∧ d.address ≠ n.address ∧ hops + ns.length ≤ n.node.maxHops.toNat) →
      (ns ++ [d]).head? = some b →
      Crosses a b (message d.address source (UInt8.ofNat hops) id flags
        (typeApplication :: buf)) f →
      ∃ cs, Carried len (ns ++ [d]) f ⟨source, d.address, id, flags, buf.take len.toNat⟩ cs ∧
        Moved a (ns ++ [d]) cs := by
  induction ns with
  | nil =>
    intro a b hops f hchain _ hb hf
    obtain rfl : d = b := Option.some.inj hb
    obtain ⟨t, hr, hafter⟩ := hf.arrives hlen (List.isChain_cons_cons.mp hchain).1 len
    exact ⟨[d.become t], .arrives hr, .last hafter⟩
  | cons n ns ih =>
    intro a b hops f hchain hns hb hf
    obtain rfl : n = b := Option.some.inj hb
    rw [List.length_cons] at hns
    rw [List.cons_append] at hchain
    obtain ⟨hlink, hrest⟩ := List.isChain_cons_cons.mp hchain
    obtain ⟨hup, haway, hmax⟩ := hns n List.mem_cons_self
    -- the node after this one
    obtain ⟨c, cs, hcs⟩ := List.exists_cons_of_ne_nil (show ns ++ [d] ≠ [] by simp)
    have hnext : Forth d.address n c := by
      rw [hcs] at hrest
      exact (List.isChain_cons_cons.mp hrest).1
    obtain ⟨t, g, ht, hsent, hafter, hg⟩ :=
      hf.next hlen hup hlink hnext haway hbc (by omega) len
    have hns' : ∀ m ∈ ns, m.Up ∧ d.address ≠ m.address ∧
        hops + 1 + ns.length ≤ m.node.maxHops.toNat := by
      intro m hm
      obtain ⟨hmup, hmaway, hmmax⟩ := hns m (List.mem_cons_of_mem n hm)
      exact ⟨hmup, hmaway, by omega⟩
    obtain ⟨ns', hend, hmoved⟩ := ih hrest hns' (hcs ▸ rfl) hg
    rw [hcs] at hend hmoved
    refine ⟨n.become t :: ns', ?_, ?_⟩
    · rw [List.cons_append, hcs]
      exact .passes ht hsent hg.headerTo hend
    · rw [List.cons_append, hcs]
      exact .cons hafter hmoved

/-- `sendtoWait` sends the message to the next node, and returns without an error. -/
theorem Forth.sendtoWait (h : Forth dest a b) (hup : a.Up) (hbc : dest ≠ broadcastAddress)
    (hlen : ¬ TooLong buf) (flags : UInt8) (frames : List Frame) :
    let t := RHMesh.sendtoWait a.link a.node buf dest flags frames
    t.1 = .none ∧ Began a t.2 ∧ ∃ f, t.2.sent = a.node.sent ++ [f] ∧
        Crosses a b (message dest a.address (UInt8.ofNat 0) a.node.lastE2ESequenceNumber flags
          (typeApplication :: buf)) f := by
  obtain ⟨hok, hpassed⟩ := sendtoWait_transmits hlen hbc h.nextHop h.acks flags frames
  obtain ⟨flags', hsent, hflags⟩ := hpassed.sent
  refine ⟨hok, ⟨hpassed.thisAddress, hpassed.txHeaderFrom, hpassed.maxHops, hpassed.seenIds,
    hpassed.lastSequenceNumber, hpassed.routes⟩, _, hsent, ?_⟩
  exact ⟨rfl, hup.headerFrom, rfl, not_not.mpr hflags, rfl⟩

/-- A message from one end of a chain to the other. -/
theorem delivered {s d : Stop} (hup : ∀ n ∈ s :: (ns ++ [d]), n.Up)
    (hdistinct : ((s :: (ns ++ [d])).map address).Nodup)
    (hhops : ∀ n ∈ ns, ns.length ≤ n.node.maxHops.toNat)
    (hchain : (s :: (ns ++ [d])).IsChain (Forth d.address)) (hlen : ¬ TooLong buf)
    (flags len : UInt8) (frames : List Frame) :
    let t := RHMesh.sendtoWait s.link s.node buf d.address flags frames
    t.1 = .none ∧ Began s t.2 ∧ ∃ f cs, t.2.sent = s.node.sent ++ [f] ∧
      Carried len (ns ++ [d]) f
        ⟨s.address, d.address, s.node.lastE2ESequenceNumber, flags, buf.take len.toNat⟩ cs ∧
      Moved s (ns ++ [d]) cs := by
  have hd : d.Up := hup d (by simp)
  obtain ⟨b, bs, hbs⟩ := List.exists_cons_of_ne_nil (show ns ++ [d] ≠ [] by simp)
  have hlink : Forth d.address s b := by
    rw [hbs] at hchain
    exact (List.isChain_cons_cons.mp hchain).1
  obtain ⟨hok, hbegan, f, hsent, hf⟩ :=
    hlink.sendtoWait (hup s List.mem_cons_self) hd.address hlen flags frames
  have hns : ∀ n ∈ ns, n.Up ∧ d.address ≠ n.address ∧ 0 + ns.length ≤ n.node.maxHops.toNat := by
    intro n hn
    refine ⟨hup n (by simp [hn]), ?_, by rw [Nat.zero_add]; exact hhops n hn⟩
    rw [List.map_cons, List.nodup_cons, List.map_append, List.nodup_append] at hdistinct
    intro heq
    exact hdistinct.2.2.2 _ (List.mem_map_of_mem hn) _ (by simp) heq.symm
  obtain ⟨cs, hcarried, hmoved⟩ := carried_to_end hd.address hlen len hchain hns (hbs ▸ rfl) hf
  exact ⟨hok, hbegan, f, cs, hsent, hcarried, hmoved⟩

end Chain

/-- Node `v` between nodes 1 and 4, with a route over its neighbours to each of them. -/
def onTheWay (v : UInt8) (link : List Frame → LinkAnswer) : Stop :=
  ⟨((constructed v fun _ => 0).addRouteTo 4 (v + 1)).addRouteTo 1 (v - 1), link⟩

theorem onTheWay_up {v : UInt8} (h : v ≠ broadcastAddress) (link : List Frame → LinkAnswer) :
    (onTheWay v link).Up :=
  ⟨h, rfl⟩

/-! ### The way back -/

/-- A report of `gap` for `source`, sent by `b` to `a`: there is no way to `dest`
any more. -/
structure Reports (source gap dest : UInt8) (a b : Stop) (hops : ℕ) (g : Frame) : Prop where
  headerTo : g.headerTo = a.address
  headerFrom : g.headerFrom = b.address
  headerId : g.headerId = b.node.lastSequenceNumber + 1 ∨
    g.headerId = b.node.lastSequenceNumber + 2
  notAck : ¬ g.IsAck
  data : ∃ id, g.data = message source gap (UInt8.ofNat hops) id 0 [typeFailure, dest]

section Report

variable {a b c : Stop} {g : Frame} {ns : List Stop} {hops : ℕ} {gap : UInt8}

theorem Reports.tells (h : Reports source gap dest a b hops g) : Tells source gap dest g :=
  ⟨UInt8.ofNat hops, h.data⟩

/-- A node that has heard nothing more of `b` takes it. -/
theorem Reports.takes (h : Reports source gap dest a b hops g) (hunheard : Unheard a b)
    (ht : t.seenIds b.address = a.node.seenIds b.address) : t.Takes g := by
  refine ⟨h.notAck, ?_⟩
  rw [RHReliableDatagram.isNew, h.headerFrom, ht]
  rcases h.headerId with hid | hid
  · exact hid ▸ hunheard.1
  · exact hid ▸ hunheard.2

theorem Reports.length_le (h : Reports source gap dest a b hops g) :
    g.data.length ≤ maxMessageLen := by
  obtain ⟨id, hdata⟩ := h.data
  rw [hdata]
  exact show 7 ≤ 251 by decide

/-- The last node reports the message. -/
theorem Crosses.stuck (h : Crosses a b (message dest source (UInt8.ofNat hops) id flags
      (typeApplication :: buf)) f) (hlen : ¬ TooLong buf) (hup : b.Up)
    (hlink : Forth dest a b) (haway : dest ≠ b.address) (hbc : dest ≠ broadcastAddress)
    (hhops : hops < b.node.maxHops.toNat) (hother : source ≠ b.address)
    (hsource : source ≠ broadcastAddress) (hne : source ≠ dest)
    (hgap : ∀ hop ∈ b.node.routes.nextHop dest, Refuses b.link hop) (len : UInt8) :
    ∃ u g, Returned source b.address dest len [b] f [u] g ∧ u.routes.getRouteTo dest = none ∧
      Reports source b.address dest a b 0 g := by
  have hmax : f.data.length ≤ maxMessageLen := h.length_le hlen
  obtain ⟨hnone, hroute, passed, g, hsent, hone, hto, hfrom, hid, hack, hdata⟩ :=
    recvfromAck_stuck (h.takes hlink) h.data hmax haway hbc (ofNat_lt hhops) hother hsource hne
      (by rw [peeked_application h.data hmax]; exact hgap) len
  exact ⟨_, g, .stuck hnone hsent hone ⟨0, hdata⟩, hroute, hto.trans h.headerFrom,
    hfrom.trans hup.headerFrom, hid, hack, hdata⟩

/-- A node that has passed the message on passes the report on as well, without the route. -/
theorem Reports.next (h : Reports source gap dest b c hops g) (hunheard : Unheard b c)
    (hlink : Back source a b) (haway : source ≠ b.address) (hsource : source ≠ broadcastAddress)
    (hne : source ≠ dest) (hhops : hops < b.node.maxHops.toNat)
    (hseen : t.seenIds c.address = b.node.seenIds c.address) (hup : b.Up)
    (hafter : After a b 1 t) (len : UInt8) :
    ∃ u g', b.recvfromAck t g len = (none, u) ∧ u.sent = t.sent ++ [g'] ∧
      u.routes.getRouteTo dest = none ∧ Reports source gap dest a b (hops + 1) g' := by
  obtain ⟨id, hdata⟩ := h.data
  have hpeek : (peeked t g).routes = (b.node.routes.deleteRouteTo dest).2 :=
    hafter.routes ▸ peeked_failure hdata h.length_le t
  have hnext : (peeked t g).routes.nextHop source = some a.address := by
    rw [hpeek, RoutingTable.nextHop, RoutingTable.getRouteTo_deleteRouteTo, if_neg hne]
    exact hlink.nextHop
  have hlt : UInt8.ofNat hops < t.maxHops := hafter.maxHops ▸ ofNat_lt hhops
  obtain ⟨hnone, hpassed⟩ := recvfromAck_passes (h.takes hunheard hseen) hdata h.length_le
    (hafter.thisAddress ▸ haway) hsource hlt hnext hlink.acks len
  obtain ⟨flags, hsent, hflags⟩ := hpassed.sent
  refine ⟨_, _, Prod.ext hnone rfl, hsent, ?_, rfl, hafter.txHeaderFrom.trans hup.headerFrom,
    .inr ?_, not_not.mpr hflags, id, ?_⟩
  · refine (congrArg (RoutingTable.getRouteTo · dest) (hpassed.routes.trans hpeek)).trans ?_
    rw [RoutingTable.getRouteTo_deleteRouteTo, if_pos rfl]
  · show t.lastSequenceNumber + 1 = _
    rw [hafter.lastSequenceNumber, UInt8.add_assoc]
    rfl
  · rw [UInt8.ofNat_add]
    rfl

/-- To the last node and back, by induction on the nodes in between. -/
theorem returned_to_start {d : Stop} (hlen : ¬ TooLong buf) (hbc : dest ≠ broadcastAddress)
    (hsource : source ≠ broadcastAddress) (hne : source ≠ dest)
    (hgap : ∀ hop ∈ d.node.routes.nextHop dest, Refuses d.link hop) (len : UInt8) :
    ∀ {a b : Stop} {hops : ℕ} {f : Frame},
      (a :: (ns ++ [d])).IsChain (Forth dest) → (a :: ns).IsChain (Back source) →
      (a :: (ns ++ [d])).IsChain Unheard → ((a :: (ns ++ [d])).map address).Nodup →
      (∀ n ∈ ns ++ [d], n.Up ∧ dest ≠ n.address ∧ source ≠ n.address ∧
        hops + ns.length < n.node.maxHops.toNat) →
      (ns ++ [d]).head? = some b →
      Crosses a b (message dest source (UInt8.ofNat hops) id flags
        (typeApplication :: buf)) f →
      ∃ ts g, Returned source d.address dest len (ns ++ [d]) f ts g ∧
        (∀ u ∈ ts, u.routes.getRouteTo dest = none) ∧
        Reports source d.address dest a b ns.length g := by
  induction ns with
  | nil =>
    intro a b hops f hforth _ _ _ hns hb hf
    obtain rfl : d = b := Option.some.inj hb
    obtain ⟨hup, haway, hother, hmax⟩ := hns d List.mem_cons_self
    obtain ⟨u, g, hstuck, hroute, hg⟩ := hf.stuck hlen hup (List.isChain_cons_cons.mp hforth).1
      haway hbc hmax hother hsource hne hgap len
    exact ⟨[u], g, hstuck, fun v hv => List.mem_singleton.mp hv ▸ hroute, hg⟩
  | cons n ns ih =>
    intro a b hops f hforth hback hunheard hdistinct hns hb hf
    obtain rfl : n = b := Option.some.inj hb
    rw [List.length_cons] at hns
    rw [List.cons_append] at hforth hunheard hdistinct
    obtain ⟨hlink, hforth'⟩ := List.isChain_cons_cons.mp hforth
    obtain ⟨hlink', hback'⟩ := List.isChain_cons_cons.mp hback
    have hunheard' := (List.isChain_cons_cons.mp hunheard).2
    obtain ⟨hup, haway, hother, hmax⟩ := hns n List.mem_cons_self
    -- the node after this one
    obtain ⟨c, cs, hcs⟩ := List.exists_cons_of_ne_nil (show ns ++ [d] ≠ [] by simp)
    have hnext : Forth dest n c := by
      rw [hcs] at hforth'
      exact (List.isChain_cons_cons.mp hforth').1
    have hquiet : Unheard n c := by
      rw [hcs] at hunheard'
      exact (List.isChain_cons_cons.mp hunheard').1
    have hca : c.address ≠ a.address := by
      rw [hcs, List.map_cons, List.nodup_cons] at hdistinct
      exact fun h => hdistinct.1 (by simp [h])
    -- the message
    obtain ⟨t, f', ht, hsent, hafter, hf'⟩ :=
      hf.next hlen hup hlink hnext haway hbc (by omega) len
    have hns' : ∀ m ∈ ns ++ [d], m.Up ∧ dest ≠ m.address ∧ source ≠ m.address ∧
        hops + 1 + ns.length < m.node.maxHops.toNat := by
      intro m hm
      obtain ⟨hmup, hmaway, hmother, hmmax⟩ := hns m (List.mem_cons_of_mem n hm)
      exact ⟨hmup, hmaway, hmother, by omega⟩
    obtain ⟨ts, g, hrest, hts, hg⟩ := ih hforth' hback' hunheard'
      (List.nodup_cons.mp (List.map_cons ▸ hdistinct)).2 hns' (hcs ▸ rfl) hf'
    -- the report
    obtain ⟨u, g', hu, hsent', hroute, hg'⟩ := hg.next hquiet hlink' hother hsource hne
      (by omega) (by rw [hafter.seenIds, Function.update_of_ne hca]) hup hafter len
    refine ⟨u :: ts, g', ?_, ?_, hg'⟩
    · rw [List.cons_append, hcs]
      rw [hcs] at hrest
      have hu' : (n.recvfromAck t g len).2 = u := by rw [hu]
      rw [← hu']
      have hforward : f'.data = f.forwarded := by
        rw [hf'.data, forwarded_message hf.data, UInt8.ofNat_add]
        rfl
      refine .passes ht hsent hf'.headerTo hforward hrest hg.headerTo ?_ (hu' ▸ hsent') hg'.tells
      rw [hu]
    · intro v hv
      rcases List.mem_cons.mp hv with rfl | hv
      · exact hroute
      · exact hts v hv

end Report

/-- **The way back of a failure.**  When the last node of a chain cannot pass the
message on, it sends a `ROUTE_FAILURE`, and this goes back along the chain.  On its
way every one of the nodes loses the route, and so does the source at the end; the
application gets nothing. -/
theorem failure_unwinds (s d : Stop) (ns : List Stop) {dest : UInt8}
    (hup : ∀ n ∈ s :: (ns ++ [d]), n.Up) (hbc : dest ≠ broadcastAddress)
    (hdistinct : (dest :: (s :: (ns ++ [d])).map address).Nodup)
    (hhops : ∀ n ∈ ns ++ [d], ns.length < n.node.maxHops.toNat)
    (hforth : (s :: (ns ++ [d])).IsChain (Forth dest))
    (hback : (s :: ns).IsChain (Back s.address))
    (hunheard : (s :: (ns ++ [d])).IsChain Unheard)
    (hgap : ∀ hop ∈ d.node.routes.nextHop dest, Refuses d.link hop) (buf : List UInt8)
    (hlen : ¬ TooLong buf) (flags len : UInt8) (frames : List Frame) :
    let t := sendtoWait s.link s.node buf dest flags frames
    t.1 = .none ∧ ∃ f ts g, t.2.sent = s.node.sent ++ [f] ∧
      Returned s.address d.address dest len (ns ++ [d]) f ts g ∧
      (∀ u ∈ ts, u.routes.getRouteTo dest = none) ∧
      g.headerTo = s.address ∧ Tells s.address d.address dest g ∧
      (s.recvfromAck t.2 g len).1 = none ∧
      (s.recvfromAck t.2 g len).2.routes.getRouteTo dest = none := by
  have hs : s.Up := hup s List.mem_cons_self
  obtain ⟨hdest, hnodup⟩ := List.nodup_cons.mp hdistinct
  have hne : s.address ≠ dest := fun h => hdest (by simp [h])
  obtain ⟨b, bs, hbs⟩ := List.exists_cons_of_ne_nil (show ns ++ [d] ≠ [] by simp)
  have hlink : Forth dest s b ∧ Unheard s b := by
    rw [hbs] at hforth hunheard
    exact ⟨(List.isChain_cons_cons.mp hforth).1, (List.isChain_cons_cons.mp hunheard).1⟩
  obtain ⟨hok, hbegan, f, hsent, hf⟩ := hlink.1.sendtoWait hs hbc hlen flags frames
  have hns : ∀ n ∈ ns ++ [d], n.Up ∧ dest ≠ n.address ∧ s.address ≠ n.address ∧
      0 + ns.length < n.node.maxHops.toNat := by
    intro n hn
    refine ⟨hup n (List.mem_cons_of_mem s hn), fun h => ?_, fun h => ?_, ?_⟩
    · exact hdest (h ▸ List.mem_map_of_mem (List.mem_cons_of_mem s hn))
    · rw [List.map_cons, List.nodup_cons] at hnodup
      exact hnodup.1 (h ▸ List.mem_map_of_mem hn)
    · rw [Nat.zero_add]
      exact hhops n hn
  obtain ⟨ts, g, hreturned, hts, hg⟩ := returned_to_start hlen hbc hs.address hne hgap len
    hforth hback hunheard hnodup hns (hbs ▸ rfl) hf
  obtain ⟨id, hdata⟩ := hg.data
  obtain ⟨hnone, hlost⟩ := recvfromAck_told s.link (hg.takes hlink.2 (by rw [hbegan.seenIds]))
    (hbegan.thisAddress.symm ▸ hdata) hg.length_le len
  refine ⟨hok, f, ts, g, hsent, hreturned, hts, hg.headerTo, hg.tells, hnone, ?_⟩
  refine (congrArg (RoutingTable.getRouteTo · dest) hlost).trans ?_
  rw [RoutingTable.getRouteTo_deleteRouteTo, if_pos rfl]

/-- Node 4 is gone: node 3 cannot pass on a message to it. -/
theorem onTheWay_failure :
    let t := sendtoWait readyLink (onTheWay 1 readyLink).node [42] 4 5 []
    t.1 = .none ∧ ∃ f ts g, t.2.sent = [] ++ [f] ∧
      Returned 1 3 4 10 [onTheWay 2 readyLink, onTheWay 3 silentLink] f ts g ∧
      (∀ u ∈ ts, u.routes.getRouteTo 4 = none) ∧ g.headerTo = 1 ∧ Tells 1 3 4 g ∧
      ((onTheWay 1 readyLink).recvfromAck t.2 g 10).1 = none ∧
      ((onTheWay 1 readyLink).recvfromAck t.2 g 10).2.routes.getRouteTo 4 = none := by
  have hup : ∀ n ∈ [onTheWay 1 readyLink, onTheWay 2 readyLink, onTheWay 3 silentLink], n.Up := by
    simp only [List.forall_mem_cons]
    exact ⟨onTheWay_up (by decide) _, onTheWay_up (by decide) _, onTheWay_up (by decide) _,
      fun _ h => absurd h List.not_mem_nil⟩
  have hacks : ∀ v, Acks readyLink v := fun _ => .inr fun _ _ _ => rfl
  have hgap : ∀ hop ∈ (onTheWay 3 silentLink).node.routes.nextHop 4, Refuses silentLink hop := by
    intro hop hhop
    obtain rfl : 4 = hop := Option.some_inj.mp (hhop ▸ by decide)
    exact ⟨by decide, fun _ _ _ => rfl⟩
  exact failure_unwinds (onTheWay 1 readyLink) (onTheWay 3 silentLink) [onTheWay 2 readyLink] hup
    (by decide) (by decide) (by decide)
    (.cons_cons ⟨by decide, hacks _, by decide⟩
      (.cons_cons ⟨by decide, hacks _, by decide⟩ (.singleton _)))
    (.cons_cons ⟨by decide, hacks _⟩ (.singleton _))
    (.cons_cons ⟨by decide, by decide⟩ (.cons_cons ⟨by decide, by decide⟩ (.singleton _))) hgap
    [42] (by decide) 5 10 []

end Stop

end RHMesh
