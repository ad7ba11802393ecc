/-
What a node learns from a discovery message, and what it misses.

A response names the nodes on the way to the one that was looked for, and
`peekAtMessage` is to take routes to those that lie behind this node; a request
names the nodes on the way to its originator, and `recvfromAck` records routes
to all of them before it answers.  Both go wrong: the first for the entry right
behind this node, the second when the table is full.

* `Scraped`, `scraped_iff` — the routes that lie behind this node, and when
  `peekAtMessage` gets just these;
* `ReachesBack`, `reachesBack_iff` — the originator can be reached, and when
  its route is still there after those to the other nodes have been added.
-/
import RadioHead.Discovery

namespace RHMesh

open RHRouter

variable {s : RHMesh} {f : Frame} {dest source hops id flags target : UInt8} {l : List UInt8}

/-! ### Scraping a response -/

/-- The nodes of the list between this one and the responding node: the whole
list at the originator, which is not in it. -/
def between (thisAddress : UInt8) (l : List UInt8) : List UInt8 :=
  if thisAddress ∈ l then l.drop (l.idxOf thisAddress + 1) else l

/-- From `s` to `t` the node has got routes to the target and to the nodes
between, over the sender of the response, and nothing else has changed. -/
def Scraped (s t : RHMesh) (target : UInt8) (l : List UInt8) : Prop :=
  (∀ d ∈ target :: between s.thisAddress l, t.routes.nextHop d = some s.rxHeaderFrom) ∧
    ∀ d, d ∉ target :: between s.thisAddress l → t.routes.getRouteTo d = s.routes.getRouteTo d

/-- The entry behind this node's own is passed over, and the octet behind the
list taken for an entry: neither matters if the node has these routes already.
At the originator the whole list is passed over. -/
def PassedOver (s : RHMesh) (target : UInt8) (l : List UInt8) : Prop :=
  if s.thisAddress ∈ l then
    match between s.thisAddress l with
    | [] => True
    | next :: rest =>
      let behind := s.tmpMessage (routeOctet + l.length)
      (next = target ∨ next = behind ∨ s.routes.nextHop next = some s.rxHeaderFrom) ∧
        (behind ∈ target :: next :: rest ∨
          s.routes.getRouteTo behind = some ⟨behind, s.rxHeaderFrom, stateValid⟩)
  else ∀ d ∈ l, d = target ∨ s.routes.nextHop d = some s.rxHeaderFrom

theorem between_split {thisAddress : UInt8} {pre post : List UInt8} (h : thisAddress ∉ pre) :
    between thisAddress (pre ++ thisAddress :: post) = post := by
  have hidx : (pre ++ thisAddress :: post).idxOf thisAddress = pre.length := by
    rw [List.idxOf_append_of_notMem h, List.idxOf_cons_self, Nat.add_zero]
  rw [between, if_pos (by simp), hidx, ← List.drop_drop, List.drop_left, List.drop_one,
    List.tail_cons]

theorem scraped_split {thisAddress : UInt8} {pre post : List UInt8} (h : thisAddress ∉ pre)
    (stale : UInt8) :
    scraped thisAddress (pre ++ thisAddress :: post) stale = (post ++ [stale]).drop 1 := by
  have hidx : (pre ++ thisAddress :: post).findIdx (· = thisAddress) = pre.length := by
    have hpre : pre.findIdx (· = thisAddress) = pre.length :=
      List.findIdx_eq_length.mpr fun a ha => decide_eq_false (ne_of_mem_of_not_mem ha h)
    rw [List.findIdx_append, hpre, if_neg (lt_irrefl _), List.findIdx_cons, decide_eq_true rfl,
      cond_true, Nat.zero_add]
  rw [scraped, hidx, List.append_assoc, ← List.drop_drop, List.drop_left]
  rfl

theorem scraped_of_notMem {thisAddress : UInt8} (h : thisAddress ∉ l) (stale : UInt8) :
    scraped thisAddress l stale = [] := by
  have hidx : l.findIdx (· = thisAddress) = l.length :=
    List.findIdx_eq_length.mpr fun a ha => decide_eq_false (ne_of_mem_of_not_mem ha h)
  rw [scraped, hidx]
  exact List.drop_of_length_le (by simp)

/-- `peekAtMessage` looks at no more addresses than there are to learn. -/
theorem length_learnedFrom_le (s : RHMesh) (target : UInt8) (l : List UInt8) :
    (learnedFrom s target l).length ≤ (target :: between s.thisAddress l).length := by
  rw [learnedFrom, List.length_cons, List.length_cons]
  refine Nat.succ_le_succ ?_
  by_cases h : s.thisAddress ∈ l
  · obtain ⟨pre, post, hl, hpre⟩ := List.eq_append_cons_of_mem h
    rw [hl, scraped_split hpre, between_split hpre, List.length_drop, List.length_append]
    exact Nat.le_refl _
  · rw [scraped_of_notMem h]
    exact Nat.zero_le _

/-- The routes after a response has been peeked at, with a free slot for each
route to learn. -/
theorem getRouteTo_peeked {messageLen : UInt8}
    (hmsg : s.tmpMessage.load 0 messageLen.toNat =
      discovery dest source hops id flags typeResponse target l)
    (hroom : (target :: between s.thisAddress l).length ≤ s.routes.free) (d : UInt8) :
    (peekAtMessage s messageLen).routes.getRouteTo d =
      if d ∈ learnedFrom s target l then some ⟨d, s.rxHeaderFrom, stateValid⟩
      else s.routes.getRouteTo d := by
  have hlen : messageLen.toNat = 8 + l.length := by
    have := congrArg List.length hmsg
    rwa [Mem.length_load, length_discovery] at this
  have hget : ∀ i o, (discovery dest source hops id flags typeResponse target l)[i]? = some o →
      s.tmpMessage i = o := by
    intro i o ho
    rw [← hmsg, List.getElem?_eq_some_iff] at ho
    obtain ⟨hi, rfl⟩ := ho
    rw [Mem.getElem_load, Nat.zero_add]
  have hlist : ∀ i (h : i < l.length), s.tmpMessage (routeOctet + i) = l[i] := by
    intro i hi
    refine hget _ _ ?_
    rw [discovery, routeOctet, List.getElem?_append_right (by simp)]
    simp [hi]
  obtain ⟨a, h⟩ := peekAtMessage_response (s := s) hlen (hget 5 _ rfl) (hget 7 _ rfl) hlist
  rw [h]
  exact RoutingTable.getRouteTo_foldl_of_free ((length_learnedFrom_le s target l).trans hroom) _ d

/-- The routes learned are the right ones where the node lacks them, and those
it should not learn do no harm where it has them. -/
theorem scraped_iff_learned {messageLen : UInt8}
    (hmsg : s.tmpMessage.load 0 messageLen.toNat =
      discovery dest source hops id flags typeResponse target l)
    (hroom : (target :: between s.thisAddress l).length ≤ s.routes.free) :
    Scraped s (peekAtMessage s messageLen) target l ↔
      (∀ d ∈ target :: between s.thisAddress l,
        d ∈ learnedFrom s target l ∨ s.routes.nextHop d = some s.rxHeaderFrom) ∧
      ∀ d, d ∉ target :: between s.thisAddress l → d ∈ learnedFrom s target l →
        s.routes.getRouteTo d = some ⟨d, s.rxHeaderFrom, stateValid⟩ := by
  have hroute := getRouteTo_peeked hmsg hroom
  have hnext : ∀ d, (peekAtMessage s messageLen).routes.nextHop d = some s.rxHeaderFrom ↔
      d ∈ learnedFrom s target l ∨ s.routes.nextHop d = some s.rxHeaderFrom := by
    intro d
    rw [RoutingTable.nextHop, hroute]
    by_cases hd : d ∈ learnedFrom s target l
    · rw [if_pos hd]
      exact iff_of_true rfl (.inl hd)
    · rw [if_neg hd]
      exact (or_iff_right hd).symm
  have hsame : ∀ d, (peekAtMessage s messageLen).routes.getRouteTo d = s.routes.getRouteTo d ↔
      (d ∈ learnedFrom s target l →
        s.routes.getRouteTo d = some ⟨d, s.rxHeaderFrom, stateValid⟩) := by
    intro d
    rw [hroute]
    by_cases hd : d ∈ learnedFrom s target l
    · rw [if_pos hd]
      exact ⟨fun h _ => h.symm, fun h => (h hd).symm⟩
    · rw [if_neg hd]
      exact iff_of_true rfl (absurd · hd)
  simp only [Scraped, hnext, hsame]

/-- To learn about the node behind the list in place of the one next to it: all
that matters is what is known of these two. -/
theorem shifted_iff {next behind : UInt8} {rest : List UInt8} (hnot : next ∉ rest)
    (hop kept : UInt8 → Prop) :
    ((∀ d ∈ target :: next :: rest, d ∈ target :: (rest ++ [behind]) ∨ hop d) ∧
      ∀ d, d ∉ target :: next :: rest → d ∈ target :: (rest ++ [behind]) → kept d) ↔
    (next = target ∨ next = behind ∨ hop next) ∧
      (behind ∈ target :: next :: rest ∨ kept behind) := by
  constructor
  · rintro ⟨hhop, hkept⟩
    constructor
    · have := hhop next (by simp)
      simpa [hnot, or_assoc] using this
    · by_contra hno
      rw [not_or] at hno
      exact hno.2 (hkept behind hno.1 (by simp))
  · rintro ⟨hhop, hkept⟩
    constructor
    · intro d hd
      rcases List.mem_cons.mp hd with rfl | hd
      · exact .inl List.mem_cons_self
      · rcases List.mem_cons.mp hd with rfl | hd
        · simpa [hnot, or_assoc] using hhop
        · exact .inl (by simp [hd])
    · intro d hd hin
      have hdb : d = behind := by
        simp only [List.mem_cons, not_or] at hd
        simpa [hd.1, hd.2.2] using hin
      subst hdb
      exact hkept.resolve_left hd

/-- **A response is scraped as it should be exactly if what is passed over and
what is taken for an entry do not matter.** -/
theorem scraped_iff {messageLen : UInt8}
    (hmsg : s.tmpMessage.load 0 messageLen.toNat =
      discovery dest source hops id flags typeResponse target l)
    (hnodup : l.Nodup) (hroom : (target :: between s.thisAddress l).length ≤ s.routes.free) :
    Scraped s (peekAtMessage s messageLen) target l ↔ PassedOver s target l := by
  rw [scraped_iff_learned hmsg hroom]
  by_cases hmem : s.thisAddress ∈ l
  · obtain ⟨pre, post, hl, hpre⟩ := List.eq_append_cons_of_mem hmem
    have hbetween : between s.thisAddress l = post := by rw [hl, between_split hpre]
    have hlearned : learnedFrom s target l =
        target :: (post ++ [s.tmpMessage (routeOctet + l.length)]).drop 1 := by
      rw [learnedFrom, ← scraped_split hpre, ← hl]
    rw [PassedOver, if_pos hmem, hlearned, hbetween]
    rcases post with _ | ⟨next, rest⟩
    · -- the node is the last one of the list
      refine iff_of_true ⟨fun d hd => .inl hd, ?_⟩ trivial
      exact fun d hd hin => absurd hin hd
    · -- the scan starts one entry too far, and ends one octet too far
      have hnot : next ∉ rest := by
        rw [hl] at hnodup
        have := (List.nodup_append.mp hnodup).2.1
        exact (List.nodup_cons.mp (List.nodup_cons.mp this).2).1
      exact shifted_iff hnot _ _
  · -- the originator is not in the list: its scan finds nothing
    have hlearned : learnedFrom s target l = [target] := by
      rw [learnedFrom, scraped_of_notMem hmem]
    rw [PassedOver, if_neg hmem, hlearned, between, if_neg hmem]
    constructor
    · rintro ⟨hhop, -⟩ d hd
      simpa using hhop d (List.mem_cons_of_mem _ hd)
    · intro h
      constructor
      · intro d hd
        rcases List.mem_cons.mp hd with rfl | hd
        · exact .inl List.mem_cons_self
        · simpa using h d hd
      · intro d hd hin
        rw [List.mem_singleton] at hin
        exact absurd (hin ▸ List.mem_cons_self) hd

/-- A node that has got the response of node 5 with the list `[2, 4]` from
`from_`. -/
def holdingResponse (thisAddress from_ : UInt8) : RHMesh :=
  { constructed thisAddress (fun _ => 0) with
    rxHeaderFrom := from_
    tmpMessage := Mem.write (fun _ => 0) 0 (discovery 1 5 0 0 0 typeResponse 5 [2, 4]) }

/-- Node 2 misses the node next to it. -/
theorem next_missed :
    (holdingResponse 2 4).tmpMessage.load 0 10 = discovery 1 5 0 0 0 typeResponse 5 [2, 4] ∧
      (5 :: between 2 [2, 4]).length ≤ (holdingResponse 2 4).routes.free ∧
      ¬ Scraped (holdingResponse 2 4) (peekAtMessage (holdingResponse 2 4) 10) 5 [2, 4] := by
  refine ⟨by decide, by decide, ?_⟩
  rintro ⟨h, -⟩
  exact absurd (h 4 (by decide)) (by decide)

/-- Node 4, the last one of the list, does not. -/
theorem last_scraped :
    Scraped (holdingResponse 4 5) (peekAtMessage (holdingResponse 4 5) 10) 5 [2, 4] :=
  have hmsg : (holdingResponse 4 5).tmpMessage.load 0 (10 : UInt8).toNat =
      discovery 1 5 0 0 0 typeResponse 5 [2, 4] := by decide
  (scraped_iff hmsg (by decide) (by decide)).mpr trivial

/-! ### The route back to the originator -/

/-- `RHRouter::sendtoWait` of the response to a request for this node, with
what it returns. -/
def answer (link : List Frame → LinkAnswer) (s : RHMesh) (source tmpMessageLen : UInt8) :
    RouterError × RHMesh :=
  let s := store (s.note (physicalAccesses s)) 0 [typeResponse]
  s.sendtoWait (route link) (s.derived.load 0 tmpMessageLen.toNat) source

/-- Once the routes are recorded the originator has the sender of the request
for its next hop, and the response to a request for this node is handed to it. -/
structure ReachesBack (link : List Frame → LinkAnswer) (s : RHMesh) (f : Frame)
    (source target : UInt8) (l : List UInt8) (len : UInt8) : Prop where
  hop : (recorded link s f).routes.nextHop source = some f.headerFrom
  response : target = s.thisAddress →
    (answer link (recorded link s f) source (UInt8.ofNat (3 + l.length))).1 ≠ .noRoute ∧
      ∃ flags, (recvfromAck link s f len).2.sent = s.sent ++
        [⟨f.headerFrom, s.txHeaderFrom, s.lastSequenceNumber + 1, flags,
          discovery source s.thisAddress 0 s.lastE2ESequenceNumber 0 typeResponse target l⟩]

/-- A message of the node's own is handed to its next hop, acknowledged or not. -/
theorem route_own (link : List Frame → LinkAnswer) {hop n : UInt8} (hnext : s.nextHop = some hop)
    (hown : s.tmpMessage 1 = s.thisAddress) (hlen : n.toNat ≤ maxMessageLen) :
    (route link s n).1 ≠ .noRoute ∧ ∃ flags, (route link s n).2.sent = s.sent ++
      [⟨hop, s.txHeaderFrom, s.lastSequenceNumber + 1, flags, s.tmpMessage.load 0 n.toNat⟩] := by
  have hsent : ∃ flags, (RHRouter.route link s n).2.sent = s.sent ++
      [⟨hop, s.txHeaderFrom, s.lastSequenceNumber + 1, flags, s.tmpMessage.load 0 n.toNat⟩] := by
    rw [route_hop hnext]
    show ∃ flags, (linkSendtoWait ..).2.sent = _
    rw [linkSendtoWait_sent, RHReliableDatagram.attempt, RHReliableDatagram.sendto,
      Mem.length_load, if_pos hlen]
    exact ⟨_, rfl⟩
  have herr : (RHRouter.route link s n).1 ≠ .noRoute := by
    rw [route_hop hnext]
    dsimp only
    split <;> decide
  by_cases hfail : Fails (RHRouter.route link s n).1
  · rw [route, routeFuel_dropped link 1 hfail hown]
    exact ⟨herr, hsent⟩
  · rw [route, routeFuel_passed link 1 hfail]
    exact ⟨herr, hsent⟩

/-- A message of the node's own that is not broadcast goes to its next hop. -/
theorem sendtoWait_own (link : List Frame → LinkAnswer) {buf : List UInt8} {hop : UInt8}
    (hlen : buf.length + routedHeaderLen ≤ maxMessageLen) (hbc : dest ≠ broadcastAddress)
    (hnext : s.routes.nextHop dest = some hop) :
    (s.sendtoWait (route link) buf dest).1 ≠ .noRoute ∧
      ∃ flags, (s.sendtoWait (route link) buf dest).2.sent = s.sent ++
        [⟨hop, s.txHeaderFrom, s.lastSequenceNumber + 1, flags,
          [dest, s.thisAddress, 0, s.lastE2ESequenceNumber, 0] ++ buf⟩] := by
  set u := s.composed buf dest s.thisAddress 0 with hu
  have hunext : u.nextHop = some hop := by
    rw [hu, composed_nextHop, if_pos hbc]
    exact hnext
  have hown : u.tmpMessage 1 = u.thisAddress := composed_source s dest s.thisAddress 0
  have hn := composed_length s dest s.thisAddress 0 hlen
  rw [length_outgoing] at hn
  obtain ⟨herr, hsent⟩ := route_own link hunext hown (hn.trans_le (by omega))
  rw [hu, composed_load s dest s.thisAddress 0 hlen] at hsent
  rw [RHRouter.sendtoWait, sendtoFromSourceWait_eq s dest s.thisAddress 0 (route link) hlen]
  exact ⟨herr, hsent⟩

/-- The response goes to the next hop of the originator. -/
theorem answer_sent (link : List Frame → LinkAnswer) {m : Mem} {hop : UInt8}
    (hder : s.derived = m.write 0 ([typeRequest, 1, target] ++ l)) (hfits : 8 + l.length ≤ 251)
    (hbc : source ≠ broadcastAddress) (hnext : s.routes.nextHop source = some hop) :
    (answer link s source (UInt8.ofNat (3 + l.length))).1 ≠ .noRoute ∧
      ∃ flags, (answer link s source (UInt8.ofNat (3 + l.length))).2.sent = s.sent ++
        [⟨hop, s.txHeaderFrom, s.lastSequenceNumber + 1, flags,
          discovery source s.thisAddress 0 s.lastE2ESequenceNumber 0 typeResponse target l⟩] := by
  have hblen : ([typeResponse, 1, target] ++ l).length + routedHeaderLen ≤ maxMessageLen := by
    rw [List.length_append]
    show 3 + l.length + 5 ≤ 251
    omega
  rw [answer, load_answer hder hfits]
  exact sendtoWait_own link hblen hbc hnext

/-- **The originator can be reached exactly if, while the routes to the nodes of
the list are added, no more routes are retired than lie in the slots before that
of its own.** -/
theorem reachesBack_iff (link : List Frame → LinkAnswer) (htakes : s.Takes f)
    (hdata : f.data = discovery broadcastAddress source hops id flags typeRequest target l)
    (hlen : f.data.length ≤ maxMessageLen) (hother : source ≠ s.thisAddress)
    (hbc : source ≠ broadcastAddress) (hnew : s.thisAddress ∉ l) (hlist : source ∉ l)
    (len : UInt8) :
    ReachesBack link s f source target l len ↔
      (s.routes.addRouteTo source f.headerFrom).retirements f.headerFrom l ≤
        (s.routes.addRouteTo source f.headerFrom).slotOf source := by
  obtain ⟨hrec, hder, he2e, heq⟩ := request_new link htakes hdata hlen hother hnew len
  have hfits := (stored_discovery hdata hlen s.tmpMessage).fits
  have hroute := RoutingTable.getRouteTo_foldl_iff hlist f.headerFrom
    (RoutingTable.getRouteTo_addRouteTo s.routes source f.headerFrom
      (show stateValid ≠ stateInvalid by decide))
  have hhop : (recorded link s f).routes.nextHop source = some f.headerFrom ↔
      (s.routes.addRouteTo source f.headerFrom).retirements f.headerFrom l ≤
        (s.routes.addRouteTo source f.headerFrom).slotOf source := by
    have hadded : (recorded link s f).routes.getRouteTo source = _ :=
      (congrArg (RoutingTable.getRouteTo · source) hrec.routes).trans hroute
    rw [RoutingTable.nextHop, hadded]
    split
    · exact iff_of_true rfl ‹_›
    · exact iff_of_false (Option.some_ne_none _).symm ‹_›
  refine ⟨fun h => hhop.mp h.hop, fun h => ⟨hhop.mpr h, ?_⟩⟩
  rintro rfl
  have hthis : (recorded link s f).thisAddress = s.thisAddress := hrec.handled.thisAddress
  have hphys : isPhysicalAddress (recorded link s f) := by
    constructor
    · rw [hder]
      simp [Mem.write]
    · rw [hder, hthis]
      simp [Mem.write]
  have hanswer : (recvfromAck link s f len).2 =
      (answer link (recorded link s f) source (UInt8.ofNat (3 + l.length))).2 := by
    rw [heq, answerRequest, if_pos hphys]
    rfl
  have hfrom : (recorded link s f).txHeaderFrom = s.txHeaderFrom := hrec.handled.txHeaderFrom
  have hseq : (recorded link s f).lastSequenceNumber = s.lastSequenceNumber := by
    rw [hrec.datagram, taken_lastSequenceNumber]
  have hsent := answer_sent link hder hfits hbc (hhop.mpr h)
  rwa [← hanswer, hrec.sent, hfrom, hseq, hthis, he2e] at hsent

/-- Node 1 with a table full of routes over node 9, the first of them to node 5. -/
def crowdedNode : RHMesh :=
  { constructed 1 (fun _ => 0) with
    routes := ((List.range routingTableSize).map fun i => UInt8.ofNat (5 + i)).foldl
      (fun t d => t.addRouteTo d 9) noRoutes }

/-- The request of node 5 for node 1, with the list `[l]`, from that node. -/
def requestOver (l : UInt8) : Frame :=
  ⟨broadcastAddress, l, 1, flagsNone, discovery broadcastAddress 5 0 0 0 typeRequest 1 [l]⟩

theorem crowdedNode_takes (l : UInt8) : crowdedNode.Takes (requestOver l) := by
  constructor
  · show ¬ (flagsNone &&& flagsAck ≠ 0)
    decide
  · show (1 : UInt8) ≠ 0
    decide

/-- Node 2 is new in the table: the route to node 5 goes before it is used, and
the response with it. -/
theorem originator_lost :
    ¬ ReachesBack silentLink crowdedNode (requestOver 2) 5 1 [2] 0 ∧
      (recvfromAck silentLink crowdedNode (requestOver 2) 0).2.sent = [] := by
  constructor
  · intro h
    have hdata : (requestOver 2).data =
        discovery broadcastAddress 5 0 0 0 typeRequest 1 [2] := rfl
    obtain ⟨hrec, -⟩ := request_new silentLink (crowdedNode_takes 2) hdata (by decide)
      (by decide) (by decide) 0
    have hhop := h.hop
    rw [hrec.routes] at hhop
    exact absurd hhop (by decide)
  · decide

/-- Node 9 is not. -/
theorem originator_reached :
    ReachesBack silentLink crowdedNode (requestOver 9) 5 1 [9] 0 :=
  (reachesBack_iff silentLink (crowdedNode_takes 9) rfl (by decide) (by decide) (by decide)
    (by decide) (by decide) 0).mpr (by decide)

end RHMesh
