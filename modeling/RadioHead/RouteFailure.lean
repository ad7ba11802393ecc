/-
What a mesh node does with a message that it cannot pass on.

There is no route for it, or the next hop does not acknowledge it.  The node
deletes the route, takes the neighbour the message came from for the next hop
back to its originator, and sends a message of its own that way.  That message
is written over the one that failed, and it may fail in turn: then the route
back is deleted too, and nobody is told.

* `Undelivered` — the message cannot be passed on;
* `FailureReported` — what the node has done and is left with then;
* `route_failure` — it does just that.
-/
import RadioHead.RouteLearning

namespace RHRouter

variable {β : Type} (link : List Frame → LinkAnswer)

/-- A message is acknowledged in the wait loop, unless it is a broadcast. -/
theorem linkSendtoWait_acked (s : RHRouter β) (buf : List UInt8) (address : UInt8) :
    (s.linkSendtoWait link buf address).1 = true ↔ address = broadcastAddress ∨
      (link (s.linkSendtoWait link buf address).2.sent).acked = true := by
  rw [linkSendtoWait]
  split
  · exact iff_of_true rfl (.inl ‹_›)
  · exact (or_iff_right ‹_›).symm

/-- It leaves the routes, and what is written in the message. -/
theorem linkSendtoWait_keeps (s : RHRouter β) (buf : List UInt8) (address : UInt8) :
    (s.linkSendtoWait link buf address).2.routes = s.routes ∧
      (s.linkSendtoWait link buf address).2.txHeaderFrom = s.txHeaderFrom ∧
      (s.linkSendtoWait link buf address).2.lastE2ESequenceNumber = s.lastE2ESequenceNumber := by
  rw [linkSendtoWait]
  split
  · exact ⟨rfl, rfl, rfl⟩
  · exact ⟨rfl, rfl, rfl⟩

end RHRouter

namespace RHMesh

open RHRouter

variable {link : List Frame → LinkAnswer} {s : RHMesh} {n : UInt8}

/-- There is no route for the message, or its next hop does not acknowledge it. -/
def Undelivered (link : List Frame → LinkAnswer) (s : RHMesh) (n : UInt8) : Prop :=
  ∀ hop ∈ s.routes.nextHop (s.tmpMessage 0),
    (s.linkSendtoWait link (s.tmpMessage.load 0 n.toNat) hop).1 = false

/-- From `s` to `r` the node has given up a message of `n` octets: the route is
gone, the originator has been told over the neighbour the message came from,
which is the next hop back to it now, if it has acknowledged that; and the
other routes are as they were, but for the oldest one if there was no room. -/
structure FailureReported (link : List Frame → LinkAnswer) (s r : RHMesh) (n : UInt8) : Prop where
  route_deleted : r.routes.getRouteTo (s.tmpMessage 0) = none
  originator_told : ∃ passed flags id, r.sent = s.sent ++ passed ++
      [⟨s.rxHeaderFrom, s.txHeaderFrom, id, flags,
        [s.tmpMessage 1, s.thisAddress, 0, s.lastE2ESequenceNumber, 0, typeFailure,
          s.tmpMessage 0]⟩] ∧
    passed.length ≤ 1 ∧ ∀ f ∈ passed, f.data = s.tmpMessage.load 0 n.toNat
  way_back : r.routes.getRouteTo (s.tmpMessage 1) =
    if s.rxHeaderFrom = broadcastAddress ∨ (link r.sent).acked = true then
      some ⟨s.tmpMessage 1, s.rxHeaderFrom, stateValid⟩
    else none
  others : ∀ d, d ≠ s.tmpMessage 0 → d ≠ s.tmpMessage 1 → r.routes.getRouteTo d =
    if (∀ e ∈ s.routes.routes, e.dest ≠ s.tmpMessage 0) ∧ s.routes.Evicts (s.tmpMessage 1) d then
      none
    else s.routes.getRouteTo d

/-- The router reports a message that is not delivered; it has been sent once
at most. -/
theorem route_undelivered (hbc : s.tmpMessage 0 ≠ broadcastAddress) (h : Undelivered link s n) :
    let r := RHRouter.route link s n
    Fails r.1 ∧ r.2.routes = s.routes ∧
      r.2.txHeaderFrom = s.txHeaderFrom ∧
      r.2.lastE2ESequenceNumber = s.lastE2ESequenceNumber ∧
      ∃ passed, r.2.sent = s.sent ++ passed ∧ passed.length ≤ 1 ∧
        ∀ f ∈ passed, f.data = s.tmpMessage.load 0 n.toNat := by
  have hnext : s.nextHop = s.routes.nextHop (s.tmpMessage 0) := if_pos hbc
  rcases hhop : s.routes.nextHop (s.tmpMessage 0) with _ | hop
  · -- no route: nothing is sent
    rw [route_noRoute (hnext.trans hhop)]
    exact ⟨.inl rfl, rfl, rfl, rfl, [], (List.append_nil _).symm, Nat.zero_le 1, by simp⟩
  · -- the next hop does not acknowledge what it is sent
    set u := s.note [.octet 0, .upTo n.toNat] with hu
    obtain ⟨hroutes, hfrom, he2e⟩ :=
      linkSendtoWait_keeps link u (s.tmpMessage.load 0 n.toNat) hop
    have hfail : (u.linkSendtoWait link (s.tmpMessage.load 0 n.toNat) hop).1 = false := by
      rw [← h hop hhop, linkSendtoWait, linkSendtoWait]
      split <;> rfl
    have hsent : (u.linkSendtoWait link (s.tmpMessage.load 0 n.toNat) hop).2.sent = s.sent ++ _ :=
      linkSendtoWait_sent u (s.tmpMessage.load 0 n.toNat) hop
    rw [route_hop (hnext.trans hhop), ← hu]
    refine ⟨.inr (if_neg (by rw [hfail]; decide)), hroutes, hfrom, he2e, _, hsent, ?_, ?_⟩
    · exact Option.length_toList_le
    · intro f hf
      obtain ⟨-, -, -, hdata, -⟩ := RHReliableDatagram.attempt_frame (Option.mem_toList.mp hf)
      exact hdata

/-- A message of the node's own takes its route with it if it is not
acknowledged. -/
theorem route_own_routes {hop : UInt8} (hnext : s.nextHop = some hop)
    (hown : s.tmpMessage 1 = s.thisAddress) :
    (route link s n).2.routes =
      if hop = broadcastAddress ∨ (link (route link s n).2.sent).acked = true then s.routes
      else (s.routes.deleteRouteTo (s.tmpMessage 0)).2 := by
  have hroute : RHRouter.route link s n = _ := route_hop hnext n
  set u := s.note [.octet 0, .upTo n.toNat] with hu
  obtain ⟨hroutes, -, -⟩ := linkSendtoWait_keeps link u (s.tmpMessage.load 0 n.toNat) hop
  have hacked := linkSendtoWait_acked link u (s.tmpMessage.load 0 n.toNat) hop
  rcases hsent : u.linkSendtoWait link (s.tmpMessage.load 0 n.toNat) hop with ⟨b, v⟩
  rw [hsent] at hroute hroutes hacked
  cases b with
  | true =>
    have hfine : ¬ Fails (RHRouter.route link s n).1 := by
      rw [hroute]
      exact (show ¬ Fails .none by decide)
    rw [route, routeFuel_passed link 1 hfine, hroute, if_pos (hacked.mp rfl)]
    exact hroutes
  | false =>
    have hfail : Fails (RHRouter.route link s n).1 := by
      rw [hroute]
      exact .inr rfl
    rw [route, routeFuel_dropped link 1 hfail hown, dropped, hroute]
    show (v.routes.deleteRouteTo (s.tmpMessage 0)).2 =
      if hop = broadcastAddress ∨ (link v.sent).acked = true then _ else _
    rw [if_neg fun h => Bool.false_ne_true (hacked.mpr h)]
    exact congrArg (fun t => (RoutingTable.deleteRouteTo t (s.tmpMessage 0)).2) hroutes

theorem sendtoWait_own_routes (link : List Frame → LinkAnswer) {buf : List UInt8}
    {dest hop : UInt8} (hlen : buf.length + routedHeaderLen ≤ maxMessageLen)
    (hbc : dest ≠ broadcastAddress)
    (hnext : s.routes.nextHop dest = some hop) :
    (s.sendtoWait (route link) buf dest).2.routes =
      if hop = broadcastAddress ∨ (link (s.sendtoWait (route link) buf dest).2.sent).acked = true
      then s.routes else (s.routes.deleteRouteTo dest).2 := by
  set u := s.composed buf dest s.thisAddress 0 with hu
  have hunext : u.nextHop = some hop := by
    rw [hu, composed_nextHop, if_pos hbc]
    exact hnext
  have hown : u.tmpMessage 1 = u.thisAddress := composed_source s dest s.thisAddress 0
  rw [RHRouter.sendtoWait, sendtoFromSourceWait_eq s dest s.thisAddress 0 (route link) hlen, ← hu,
    route_own_routes hunext hown, hu, composed_dest]
  rfl

/-- A message of another node that fails is reported, by a message that is not
reported itself. -/
theorem route_reports (hother : s.tmpMessage 1 ≠ s.thisAddress)
    (hfail : Fails (RHRouter.route link s n).1) :
    route link s n =
      (reporting link s n).sendtoWait (route link) s.failureReport (s.tmpMessage 1) := by
  rw [route, routeFuel_reported link 1 hfail hother]
  exact sendtoWait_congr (fun s n h => (routeFuel_own link 1 n h).symm) _ _ _

/-- What `sendtoWait` finds then. -/
theorem reporting_keeps (link : List Frame → LinkAnswer) (s : RHMesh) (n : UInt8) :
    (reporting link s n).sent = (RHRouter.route link s n).2.sent ∧
      (reporting link s n).txHeaderFrom = (RHRouter.route link s n).2.txHeaderFrom ∧
      (reporting link s n).thisAddress = s.thisAddress ∧
      (reporting link s n).lastE2ESequenceNumber =
        (RHRouter.route link s n).2.lastE2ESequenceNumber ∧
      (reporting link s n).routes =
        ((RHRouter.route link s n).2.routes.deleteRouteTo (s.tmpMessage 0)).2.addRouteTo
          (s.tmpMessage 1) s.rxHeaderFrom := by
  have hthis := (route_keeps link s n).2
  rw [reporting, dropped]
  generalize RHRouter.route link s n = r at hthis ⊢
  exact ⟨rfl, rfl, hthis, rfl, rfl⟩

/-- **A message of another node that cannot be passed on is reported to its
originator, and leaves no route behind**; and `route` calls itself once at
most. -/
theorem route_failure (hother : s.tmpMessage 1 ≠ s.thisAddress)
    (hne : s.tmpMessage 1 ≠ s.tmpMessage 0) (hdest : s.tmpMessage 0 ≠ broadcastAddress)
    (hsource : s.tmpMessage 1 ≠ broadcastAddress) (h : Undelivered link s n) :
    FailureReported link s (route link s n).2 n ∧
      ∀ fuel, routeFuel link (fuel + 2) s n = route link s n := by
  obtain ⟨hfail, hroutes, hfrom, he2e, passed, hpassed, hone, hdata⟩ :=
    route_undelivered hdest h
  refine ⟨?_, fun fuel => routeFuel_eq link fuel s n⟩
  obtain ⟨hsent', hfrom', hthis, he2e', hut⟩ := reporting_keeps link s n
  rw [hpassed] at hsent'
  rw [hfrom] at hfrom'
  rw [he2e] at he2e'
  rw [hroutes] at hut
  set u := reporting link s n with hu
  set t := (s.routes.deleteRouteTo (s.tmpMessage 0)).2 with ht
  have hback : u.routes.getRouteTo (s.tmpMessage 1) =
      some ⟨s.tmpMessage 1, s.rxHeaderFrom, stateValid⟩ :=
    hut ▸ RoutingTable.getRouteTo_addRouteTo t _ _ (by decide)
  have hnext : u.routes.nextHop (s.tmpMessage 1) = some s.rxHeaderFrom := by
    rw [RoutingTable.nextHop, hback, Option.map_some]
  -- the report fits, so it is sent over the route just added
  have hlen : s.failureReport.length + routedHeaderLen ≤ maxMessageLen :=
    show 2 + 5 ≤ 251 by decide
  have hr : route link s n = u.sendtoWait (route link) s.failureReport (s.tmpMessage 1) :=
    route_reports hother hfail
  obtain ⟨-, flags, hsent⟩ := sendtoWait_own link hlen hsource hnext
  have hafter := sendtoWait_own_routes link hlen hsource hnext
  rw [← hr] at hsent hafter
  constructor
  · rw [hafter]
    split
    · rw [hut, RoutingTable.getRouteTo_addRouteTo_other t hne.symm,
        RoutingTable.getRouteTo_deleteRouteTo, if_pos rfl, ite_self]
    · rw [RoutingTable.getRouteTo_deleteRouteTo, if_neg hne.symm, hut,
        RoutingTable.getRouteTo_addRouteTo_other t hne.symm,
        RoutingTable.getRouteTo_deleteRouteTo, if_pos rfl, ite_self]
  · refine ⟨passed, flags, u.lastSequenceNumber + 1, ?_, hone, hdata⟩
    rw [hsent, hsent', hfrom', hthis, he2e']
    rfl
  · rw [hafter]
    split
    · exact hback
    · rw [RoutingTable.getRouteTo_deleteRouteTo, if_pos rfl]
  · -- deleting one more route touches none of the others
    intro d hd hd'
    have hother : u.routes.getRouteTo d = if (∀ e ∈ s.routes.routes, e.dest ≠ s.tmpMessage 0) ∧
        s.routes.Evicts (s.tmpMessage 1) d then none else s.routes.getRouteTo d := by
      rw [hut, RoutingTable.getRouteTo_addRouteTo_other t hd',
        RoutingTable.getRouteTo_deleteRouteTo, if_neg hd]
      exact if_congr RoutingTable.evicts_deleteRouteTo rfl rfl
    rw [hafter]
    split
    · exact hother
    · rw [RoutingTable.getRouteTo_deleteRouteTo, if_neg hd']
      exact hother

/-- A message that is forwarded comes from the sender of its frame. -/
theorem recvfromAck_forwards {f : Frame} (htakes : s.Takes f) (haway : ¬ (peeked s f).Here)
    (hhops : (peeked s f).tmpMessage 2 < (peeked s f).maxHops) (len : UInt8) :
    recvfromAck link s f len = (none, (route link (peeked s f).hopped f.storedLen).2) ∧
      (peeked s f).hopped.rxHeaderFrom = f.headerFrom := by
  constructor
  · rw [recvfromAck_away htakes haway, forward_eq, if_pos hhops]
    rfl
  · obtain ⟨t, a, h⟩ := peeked_eq s f
    show (peeked s f).rxHeaderFrom = f.headerFrom
    rw [h]
    rfl

/-- Node 2 has a message from node 1, come over node 4, for node 3. -/
def relaying : RHMesh :=
  { (constructed 2 fun _ => 0).addRouteTo 3 5 with
    rxHeaderFrom := 4
    tmpMessage := Mem.write (fun _ => 0) 0 [3, 1, 1, 0, 0, 0, 42] }

/-- The next hop is silent, and so is node 4 then. -/
theorem relaying_failure :
    FailureReported silentLink relaying (route silentLink relaying 7).2 7 := by
  have h : Undelivered silentLink relaying 7 := by
    intro hop hhop
    obtain rfl : 5 = hop := Option.some_inj.mp (hhop ▸ by decide)
    rfl
  exact (route_failure (by decide) (by decide) (by decide) (by decide) h).1

end RHMesh
