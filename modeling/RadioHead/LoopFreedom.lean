/-
Route discovery and loops.

A node takes a route to the originator from every copy of the request that
does not list it, over the sender of that copy, whatever route it had.

* `routesIn` — the routes a node takes from a frame, by its octets;
* `Reacts` — what a node keeps and sends when it handles a frame;
* `Inv` — what holds of the network while the discovery goes on;
* `loopFree_iff` — when the next hops towards the originator stay free of loops;
* `crossed_loop` — two copies that cross.
-/
import RadioHead.Lib.NextHop
import RadioHead.MeshNetwork

open Run NextHop

namespace RHMesh

open RHRouter

variable {link : List Frame → LinkAnswer} {s : RHMesh} {f : Frame} {source target : UInt8}
  {l : List UInt8}

/-- The destinations a node takes routes to from a frame, over its sender. -/
def routesIn (s : RHMesh) (f : Frame) : List UInt8 :=
  let list := f.data.drop routeOctet
  if ¬ s.Takes f then []
  else if f.data[5]? = some typeResponse then learnedFrom s (f.data.getD 7 0) list
  else if f.data.getD 1 0 ≠ s.thisAddress ∧ s.thisAddress ∉ list then f.data.getD 1 0 :: list
  else []

/-- The octets of a request of `source` for `target` with the list `l`. -/
def Request (source target : UInt8) (l data : List UInt8) : Prop :=
  ∃ hops id flags, data = discovery broadcastAddress source hops id flags typeRequest target l

/-- The octets of the response. -/
def Response (source target : UInt8) (l data : List UInt8) : Prop :=
  ∃ hops id flags, data = discovery source target hops id flags typeResponse target l

theorem routesIn_request (h : Request source target l f.data) :
    routesIn s f = if s.Takes f ∧ source ≠ s.thisAddress ∧ s.thisAddress ∉ l then source :: l
      else [] := by
  obtain ⟨hops, id, flags, hdata⟩ := h
  rw [routesIn, hdata]
  by_cases htakes : s.Takes f
  · have htype : ¬ some typeRequest = some typeResponse := by decide
    rw [if_neg (not_not.mpr htakes)]
    refine (if_neg htype).trans ?_
    exact if_congr (by simp only [htakes, true_and]; exact Iff.rfl) rfl rfl
  · rw [if_pos htakes, if_neg fun h => htakes h.1]

theorem routesIn_response (h : Response source target l f.data) :
    routesIn s f = if s.Takes f then learnedFrom s target l else [] := by
  obtain ⟨hops, id, flags, hdata⟩ := h
  rw [routesIn, hdata]
  by_cases htakes : s.Takes f
  · rw [if_neg (not_not.mpr htakes), if_pos htakes]
    exact if_pos rfl
  · rw [if_pos htakes, if_neg htakes]

/-- What is kept of a node, and sent, when it handles a frame. -/
structure Reacts (s : RHMesh) (f : Frame) (learned : List UInt8)
    (out : Option (UInt8 × List UInt8)) (t : RHMesh) : Prop where
  thisAddress : t.thisAddress = s.thisAddress
  txHeaderFrom : t.txHeaderFrom = s.txHeaderFrom
  tmpMessage : ∀ i, routeOctet ≤ i → t.tmpMessage i =
    (stored f s.tmpMessage).write 0 ((out.map (·.2)).getD []) i
  routes : t.routes = routesAfter s f learned
  sent : ∃ id flags, flags &&& flagsAck = 0 ∧ t.sent = s.sent ++
    (out.map fun o => ⟨o.1, s.txHeaderFrom, id, flags, o.2⟩).toList

theorem Handled.reacts {learned : List UInt8} {out : Option (UInt8 × List UInt8)} {t : RHMesh}
    (h : Handled s f learned out t) : Reacts s f learned out t where
  thisAddress := h.thisAddress
  txHeaderFrom := h.txHeaderFrom
  tmpMessage := h.tmpMessage
  routes := h.routes
  sent := ⟨_, h.sent⟩

theorem reacts_skipped (s : RHMesh) (f : Frame) : Reacts s f [] none (s.skipped f) where
  thisAddress := skipped_thisAddress s f
  txHeaderFrom := skipped_txHeaderFrom s f
  tmpMessage i _ := (congrFun (Mem.write_nil _ _) i).symm
  routes := rfl
  sent := ⟨0, 0, by decide, (List.append_nil _).symm⟩

/-- What a node `s` may send on account of a request or response with the list
`l`, having the routes `r`: the request with itself added, or the response over
its route to `source`. -/
def Passes (source target : UInt8) (l : List UInt8) (s : RHMesh) (r : RoutingTable)
    (o : UInt8 × List UInt8) : Prop :=
  (o.1 = broadcastAddress ∧ source ≠ s.thisAddress ∧ s.thisAddress ∉ l ∧
      (r.nextHop source).isSome ∧ Request source target (l ++ [s.thisAddress]) o.2) ∨
    (r.nextHop source = some o.1 ∧ Response source target l o.2)

/-- The list of what is sent. -/
theorem Passes.drop {r : RoutingTable} {o : UInt8 × List UInt8}
    (ho : Passes source target l s r o) :
    o.2.drop routeOctet = l ++ [s.thisAddress] ∨ o.2.drop routeOctet = l := by
  rcases ho with ⟨-, -, -, -, hops, id, flags, hdata⟩ | ⟨-, hops, id, flags, hdata⟩
  · exact .inl (congrArg _ hdata)
  · exact .inr (congrArg _ hdata)

/-- A frame has been handled as far as the routes to `source` go. -/
def Served (source target : UInt8) (l : List UInt8) (s : RHMesh) (f : Frame) (t : RHMesh) : Prop :=
  ∃ learned out, Reacts s f learned out t ∧ (∀ d ∈ learned, d ∈ routesIn s f ∨ d = target) ∧
    (∀ d ∈ routesIn s f, d ∈ learned) ∧ ∀ o ∈ out, Passes source target l s t.routes o

theorem Reacts.served {t : RHMesh} (h : Reacts s f (routesIn s f) none t) :
    Served source target l s f t :=
  ⟨_, _, h, fun _ hd => .inl hd, fun _ hd => hd, fun _ ho => absurd ho (Option.not_mem_none _)⟩

theorem Reacts.served_sent {t : RHMesh} {o : UInt8 × List UInt8}
    (h : Reacts s f (routesIn s f) (some o) t) (ho : Passes source target l s t.routes o) :
    Served source target l s f t := by
  refine ⟨_, _, h, fun _ hd => .inl hd, fun _ hd => hd, ?_⟩
  intro o' ho'
  rw [Option.mem_some.mp ho'] at ho
  exact ho

/-- A request, at any node that is not waiting for the response. -/
theorem served_request (hreq : Request source target l f.data) (hlen : 8 + l.length < maxMessageLen)
    (hbc : source ≠ broadcastAddress) (hack : Acks link f.headerFrom)
    (hnext : ∀ d ∈ source :: l,
      (routesAfter s f (source :: l)).nextHop d = some f.headerFrom) :
    Served source target l s f (recvfromAck link s f meshMessageSize).2 := by
  have hroutes := routesIn_request (s := s) hreq
  obtain ⟨hops, id, flags, hdata⟩ := hreq
  have hflen : f.data.length < maxMessageLen := by rwa [hdata, length_discovery]
  have hsource := hnext source List.mem_cons_self
  by_cases htakes : s.Takes f
  · -- a request of its own, or one it is listed in, teaches the node nothing
    by_cases hold : source = s.thisAddress ∨ s.thisAddress ∈ l
    · rw [if_neg fun h => hold.elim h.2.1 h.2.2] at hroutes
      refine Reacts.served ?_
      rw [hroutes]
      exact (request_listed link htakes hdata hflen.le hold _).reacts
    · rw [not_or] at hold
      rw [if_pos ⟨htakes, hold⟩] at hroutes
      by_cases htarget : target = s.thisAddress
      · subst htarget
        have h := request_answered htakes hdata hflen.le hold.1 hold.2 hbc hsource hack
          meshMessageSize
        refine Reacts.served_sent (hroutes ▸ h.reacts) (.inr ⟨?_, 0, _, 0, rfl⟩)
        rw [h.routes]
        exact hsource
      · by_cases hhops : UInt8.ofNat l.length < s.maxHops
        · have h := request_relayed link htakes hdata hflen hold.1 hold.2 htarget hhops
            meshMessageSize
          refine Reacts.served_sent (hroutes ▸ h.reacts)
            (.inl ⟨rfl, hold.1, hold.2, ?_, 0, _, 0, rfl⟩)
          rw [h.routes, hsource]
          rfl
        · have h := request_exhausted link htakes hdata hflen.le hold.1 hold.2 htarget
            (.inl hhops) meshMessageSize
          exact Reacts.served (hroutes ▸ h.reacts)
  · rw [if_neg fun h => htakes h.1] at hroutes
    rw [recvfromAck_of_not_takes htakes]
    refine Reacts.served ?_
    rw [hroutes]
    exact reacts_skipped s f

/-- A response, at its destination or at a node with a route there. -/
theorem served_response (hresp : Response source target l f.data)
    (hlen : 8 + l.length < maxMessageLen) (hbc : source ≠ broadcastAddress)
    (hnext : source = s.thisAddress ∨ ∃ hop, Acks link hop ∧
      (routesAfter s f (learnedFrom s target l)).nextHop source = some hop) :
    Served source target l s f (recvfromAck link s f meshMessageSize).2 := by
  have hroutes := routesIn_response (s := s) hresp
  obtain ⟨hops, id, flags, hdata⟩ := hresp
  have hflen : f.data.length ≤ maxMessageLen := by
    rw [hdata, length_discovery]
    exact hlen.le
  by_cases htakes : s.Takes f
  · rw [if_pos htakes] at hroutes
    by_cases hhome : source = s.thisAddress
    · subst hhome
      exact Reacts.served (hroutes ▸ (response_home htakes hdata hflen _).reacts)
    · obtain ⟨hop, hack, hhop⟩ := hnext.resolve_left hhome
      by_cases hhops : hops < s.maxHops
      · have h := response_forwarded htakes hdata hflen hhome hbc hhops hhop hack meshMessageSize
        refine Reacts.served_sent (hroutes ▸ h.reacts) (.inr ⟨?_, _, _, _, rfl⟩)
        rw [h.routes, hhop]
      · exact Reacts.served (hroutes ▸
          (response_exhausted link htakes hdata hflen hhome hbc hhops _).reacts)
  · rw [if_neg htakes] at hroutes
    rw [recvfromAck_of_not_takes htakes]
    refine Reacts.served ?_
    rw [hroutes]
    exact reacts_skipped s f

/-- Either of them, at the originator while it waits. -/
theorem served_arp (link : List Frame → LinkAnswer)
    (hmsg : Request s.thisAddress target l f.data ∨ Response s.thisAddress target l f.data)
    (hlen : 8 + l.length < maxMessageLen) {messageLen : UInt8} (hml : 1 < messageLen) :
    ∃ done n t, arpReceive link s target messageLen f = (done, n, t) ∧ 1 < n ∧
      Served s.thisAddress target l s f t := by
  by_cases htakes : s.Takes f
  · rcases hmsg with hreq | hresp
    · have hroutes := routesIn_request (s := s) hreq
      obtain ⟨hops, id, flags, hdata⟩ := hreq
      have hflen : f.data.length ≤ maxMessageLen := by
        rw [hdata, length_discovery]
        exact hlen.le
      obtain ⟨n, t, hn, heq, h⟩ := arp_request link htakes hdata hflen target hml
      rw [if_neg fun h => h.2.1 rfl] at hroutes
      exact ⟨false, n, t, heq, hn, Reacts.served (hroutes ▸ h.reacts)⟩
    · have hroutes := routesIn_response (s := s) hresp
      obtain ⟨hops, id, flags, hdata⟩ := hresp
      have hflen : f.data.length ≤ maxMessageLen := by
        rw [hdata, length_discovery]
        exact hlen.le
      obtain ⟨n, t, hn, heq, h⟩ := arp_response link htakes hdata hflen target hml
      rw [if_pos htakes] at hroutes
      refine ⟨true, n, t, heq, hn, _, _, h.reacts, ?_, ?_, ?_⟩
      · intro d hd
        rw [hroutes]
        exact (List.mem_append.mp hd).imp_right List.mem_singleton.mp
      · intro d hd
        rw [hroutes] at hd
        exact List.mem_append_left _ hd
      · exact fun _ ho => absurd ho (Option.not_mem_none _)
  · refine ⟨false, messageLen, _, arpReceive_of_not_takes link htakes target messageLen, hml, ?_⟩
    refine Reacts.served ?_
    have hnone : routesIn s f = [] := if_pos htakes
    rw [hnone]
    exact reacts_skipped s f

end RHMesh

namespace MeshNet

open RHMesh RHRouter

/-- Fewer nodes than a routing table has slots, `source` and `target` among
them, and which of them hear each other. -/
structure Layout (nodes : Finset UInt8) (hears : UInt8 → List UInt8) (source target : UInt8) :
    Prop where
  card : nodes.card < routingTableSize
  broadcast : broadcastAddress ∉ nodes
  source_mem : source ∈ nodes
  target_mem : target ∈ nodes
  ne : source ≠ target
  mem : ∀ v w, w ∈ hears v → w ∈ nodes
  symm : ∀ v w, w ∈ hears v → v ∈ hears w

/-- Node `v` is `source`, or holds a route to it. -/
def Routed (source : UInt8) (net : MeshNet) (v : UInt8) : Prop :=
  v = source ∨ (net.hop source v).isSome

/-- The request or the response, with the nodes on its way. -/
structure Message (nodes : Finset UInt8) (source target : UInt8) (net : MeshNet) (l : List UInt8)
    (p : UInt8 × Frame) : Prop where
  subset : ∀ d ∈ l, d ∈ nodes
  nodup : l.Nodup
  source_notMem : source ∉ l
  octets : Request source target l p.2.data ∨
    Response source target l p.2.data ∧ net.Routed source p.1

/-- What holds of a frame on the air and the node that hears it. -/
structure OnAir (nodes : Finset UInt8) (hears : UInt8 → List UInt8) (source target : UInt8)
    (net : MeshNet) (p : UInt8 × Frame) : Prop where
  adjacent : p.1 ∈ hears p.2.headerFrom
  routed : net.Routed source p.2.headerFrom
  message : ∃ l, Message nodes source target net l p

/-- What holds of the network while the discovery goes on, with loops or
without. -/
structure Inv (nodes : Finset UInt8) (hears : UInt8 → List UInt8) (source target : UInt8)
    (net : MeshNet) : Prop where
  thisAddress : ∀ v, (net.node v).thisAddress = v
  txHeaderFrom : ∀ v, (net.node v).txHeaderFrom = v
  known : ∀ v d, ((net.node v).routes.nextHop d).isSome → d ∈ insert 0 nodes
  buffer : ∀ v i, routeOctet ≤ i → (net.node v).tmpMessage i ∈ insert 0 nodes
  hop : ∀ v u, net.hop source v = some u → u ∈ hears v ∧ net.Routed source u
  air : ∀ p ∈ net.air, OnAir nodes hears source target net p
  arp : ∀ messageLen, net.arp = some messageLen → 1 < messageLen

variable {nodes : Finset UInt8} {hears : UInt8 → List UInt8} {source target : UInt8}
  {net net' : MeshNet} {v : UInt8} {f : Frame} {l : List UInt8}

theorem Layout.card_insert (h : Layout nodes hears source target) :
    (insert 0 nodes).card ≤ routingTableSize :=
  (Finset.card_insert_le 0 nodes).trans h.card

theorem Layout.source_ne (h : Layout nodes hears source target) : source ≠ broadcastAddress :=
  ne_of_mem_of_not_mem h.source_mem h.broadcast

/-- The list of a message is short. -/
theorem Message.length_lt (h : Layout nodes hears source target) {p : UInt8 × Frame}
    (hm : Message nodes source target net l p) : 8 + l.length < maxMessageLen := by
  have hsub : l.toFinset ⊆ nodes := fun d hd => hm.subset d (List.mem_toFinset.mp hd)
  have hle := Finset.card_le_card hsub
  have hcard := h.card
  rw [List.toFinset_card_of_nodup hm.nodup] at hle
  rw [routingTableSize] at hcard
  rw [maxMessageLen]
  omega

/-- A request names nodes of the network. -/
theorem request_subset (h : Layout nodes hears source target) {p : UInt8 × Frame}
    (hm : Message nodes source target net l p) : ∀ d ∈ source :: l, d ∈ insert 0 nodes := by
  intro d hd
  rcases List.mem_cons.mp hd with rfl | hd
  · exact Finset.mem_insert_of_mem h.source_mem
  · exact Finset.mem_insert_of_mem (hm.subset d hd)

/-- What a node takes from a response are nodes of the network, or address 0. -/
theorem learnedFrom_subset (h : Layout nodes hears source target)
    (hi : Inv nodes hears source target net) {p : UInt8 × Frame}
    (hm : Message nodes source target net l p) (v : UInt8) :
    ∀ d ∈ learnedFrom (net.node v) target l, d ∈ insert 0 nodes := by
  intro d hd
  rcases List.mem_cons.mp hd with rfl | hd
  · exact Finset.mem_insert_of_mem h.target_mem
  · rcases List.mem_append.mp (List.mem_of_mem_drop hd) with hd | hd
    · exact Finset.mem_insert_of_mem (hm.subset d hd)
    · rw [List.mem_singleton.mp hd]
      exact hi.buffer v _ (Nat.le_add_right _ _)

theorem routesIn_subset (h : Layout nodes hears source target)
    (hi : Inv nodes hears source target net) (hm : Message nodes source target net l (v, f)) :
    ∀ d ∈ routesIn (net.node v) f, d ∈ insert 0 nodes := by
  intro d hd
  rcases hm.octets with hreq | ⟨hresp, -⟩
  · rw [routesIn_request hreq] at hd
    split at hd
    · exact request_subset h hm d hd
    · exact absurd hd List.not_mem_nil
  · rw [routesIn_response hresp] at hd
    split at hd
    · exact learnedFrom_subset h hi hm v d hd
    · exact absurd hd List.not_mem_nil

/-- The originator takes no route to itself. -/
theorem source_notMem_routesIn (h : Layout nodes hears source target)
    (hi : Inv nodes hears source target net)
    (hm : Message nodes source target net l (source, f)) :
    source ∉ routesIn (net.node source) f := by
  have hthis := hi.thisAddress source
  intro hd
  rcases hm.octets with hreq | ⟨hresp, -⟩
  · rw [routesIn_request hreq, hthis, if_neg fun h => h.2.1 rfl] at hd
    exact absurd hd List.not_mem_nil
  · rw [routesIn_response hresp] at hd
    split at hd
    · rw [learnedFrom, scraped, hthis] at hd
      -- the list is passed over to its end, and the octet behind it with it
      have hend : l.findIdx (· = source) = l.length :=
        List.findIdx_eq_length_of_false fun d hd =>
          decide_eq_false (ne_of_mem_of_not_mem hd hm.source_notMem)
      rw [hend, List.drop_eq_nil_of_le (by simp)] at hd
      exact h.ne (List.mem_singleton.mp hd)
    · exact absurd hd List.not_mem_nil

/-- What becomes of the network when `v` handles a frame with the list `l`. -/
structure Handles (source target : UInt8) (hears : UInt8 → List UInt8) (net : MeshNet) (v : UInt8)
    (f : Frame) (l : List UInt8) (t : RHMesh) (net' : MeshNet) : Prop where
  node : net'.node = Function.update net.node v t
  air : net'.air = (net.become hears v t).air
  arp : ∀ messageLen, net'.arp = some messageLen → 1 < messageLen
  served : Served source target l (net.node v) f t

theorem nextHop_learned (h : Layout nodes hears source target)
    (hi : Inv nodes hears source target net) (hm : Message nodes source target net l (v, f))
    {learned : List UInt8} (hl : ∀ d ∈ learned, d ∈ routesIn (net.node v) f ∨ d = target)
    (d : UInt8) :
    (routesAfter (net.node v) f learned).nextHop d =
      if d ∈ learned then some f.headerFrom else (net.node v).routes.nextHop d := by
  refine nextHop_routesAfter h.card_insert (hi.known v) ?_ d
  intro d hd
  rcases hl d hd with hd | rfl
  · exact routesIn_subset h hi hm d hd
  · exact Finset.mem_insert_of_mem h.target_mem

theorem handles (h : Layout nodes hears source target) (hi : Inv nodes hears source target net)
    (hp : OnAir nodes hears source target net (v, f))
    (hm : Message nodes source target net l (v, f)) :
    ∃ t, Handles source target hears net v f l t (handle hears source target net v f) := by
  have hlen := hm.length_lt h
  have hack : RHRouter.Acks (link hears v) f.headerFrom := acks_link (h.symm _ _ hp.adjacent)
  rcases hw : net.waiting source v with _ | messageLen
  · -- the node is not waiting: the frame comes through `recvfromAck`
    rw [handle_recvfromAck hw]
    refine ⟨_, rfl, rfl, hi.arp, ?_⟩
    rcases hm.octets with hreq | ⟨hresp, hroute⟩
    · refine served_request hreq hlen h.source_ne hack ?_
      intro d hd
      exact (nextHop_routesAfter h.card_insert (hi.known v) (request_subset h hm) d).trans
        (if_pos hd)
    · refine served_response hresp hlen h.source_ne ?_
      rcases hroute with rfl | hroute
      · exact .inl (hi.thisAddress v).symm
      · obtain ⟨hop, hhop⟩ := Option.isSome_iff_exists.mp hroute
        have hafter := nextHop_routesAfter (f := f) h.card_insert (hi.known v)
          (learnedFrom_subset h hi hm v) source
        by_cases hmem : source ∈ learnedFrom (net.node v) target l
        · exact .inr ⟨f.headerFrom, hack, hafter.trans (if_pos hmem)⟩
        · exact .inr ⟨hop, acks_link (hi.hop v hop hhop).1,
            (hafter.trans (if_neg hmem)).trans hhop⟩
  · -- the originator is waiting in `doArp`
    obtain ⟨rfl, harp⟩ := Option.ite_none_right_eq_some.mp hw
    have hthis := hi.thisAddress v
    have hmsg : Request (net.node v).thisAddress target l f.data ∨
        Response (net.node v).thisAddress target l f.data := by
      rw [hthis]
      exact hm.octets.imp_right And.left
    obtain ⟨done, n, t, heq, hn, hserved⟩ :=
      served_arp (link hears v) hmsg hlen (hi.arp messageLen harp)
    rw [hthis] at hserved
    rw [handle_waiting hw, heq]
    refine ⟨t, rfl, rfl, ?_, hserved⟩
    intro ml hml
    cases done with
    | true => exact absurd hml (Option.some_ne_none _).symm
    | false =>
      obtain rfl : n = ml := Option.some_inj.mp hml
      exact hn

/-- The next hops to `source` afterwards. -/
theorem Handles.hop (h : Layout nodes hears source target)
    (hi : Inv nodes hears source target net) (hm : Message nodes source target net l (v, f))
    {t : RHMesh} (hh : Handles source target hears net v f l t net') :
    net'.hop source = if source ∈ routesIn (net.node v) f
      then Function.update (net.hop source) v (some f.headerFrom) else net.hop source := by
  obtain ⟨learned, out, hr, hl, hall, -⟩ := hh.served
  have hiff : source ∈ learned ↔ source ∈ routesIn (net.node v) f := by
    constructor
    · intro hmem
      exact (hl source hmem).resolve_right h.ne
    · exact hall source
  have hv : t.routes.nextHop source = if source ∈ routesIn (net.node v) f
      then some f.headerFrom else net.hop source v := by
    rw [hr.routes, nextHop_learned h hi hm hl]
    exact if_congr hiff rfl rfl
  funext w
  by_cases hw : w = v
  · subst hw
    rw [MeshNet.hop, hh.node, Function.update_self, hv]
    split
    · rw [Function.update_self]
    · rfl
  · rw [MeshNet.hop, hh.node, Function.update_of_ne hw]
    split
    · rw [Function.update_of_ne hw]
      rfl
    · rfl

/-- Routes are not lost. -/
theorem Handles.routed (h : Layout nodes hears source target)
    (hi : Inv nodes hears source target net) (hm : Message nodes source target net l (v, f))
    {t : RHMesh} (hh : Handles source target hears net v f l t net') {w : UInt8}
    (hw : net.Routed source w) : net'.Routed source w := by
  refine hw.imp_right ?_
  intro hsome
  rw [hh.hop h hi hm]
  split
  · by_cases hwv : w = v
    · rw [hwv, Function.update_self]
      rfl
    · rwa [Function.update_of_ne hwv]
  · exact hsome

theorem Message.mono {p : UInt8 × Frame} (hm : Message nodes source target net l p)
    (hmono : ∀ w, net.Routed source w → net'.Routed source w) :
    Message nodes source target net' l p :=
  ⟨hm.subset, hm.nodup, hm.source_notMem, hm.octets.imp_right fun ho => ⟨ho.1, hmono _ ho.2⟩⟩

theorem OnAir.mono {p : UInt8 × Frame} (hp : OnAir nodes hears source target net p)
    (hmono : ∀ w, net.Routed source w → net'.Routed source w) :
    OnAir nodes hears source target net' p := by
  obtain ⟨l, hm⟩ := hp.message
  exact ⟨hp.adjacent, hmono _ hp.routed, l, hm.mono hmono⟩

/-- The octets of a discovery message past its header are its list. -/
theorem Message.drop {p : UInt8 × Frame} (hm : Message nodes source target net l p) :
    p.2.data.drop routeOctet = l := by
  rcases hm.octets with ⟨hops, id, flags, hdata⟩ | ⟨⟨hops, id, flags, hdata⟩, -⟩
  · rw [hdata]
    rfl
  · rw [hdata]
    rfl

/-- The next hops are neighbours, which hold routes themselves. -/
theorem Handles.next (h : Layout nodes hears source target)
    (hi : Inv nodes hears source target net) (hp : OnAir nodes hears source target net (v, f))
    (hm : Message nodes source target net l (v, f)) {t : RHMesh}
    (hh : Handles source target hears net v f l t net') {w u : UInt8}
    (hu : net'.hop source w = some u) : u ∈ hears w ∧ net'.Routed source u := by
  have hold : net.hop source w = some u → u ∈ hears w ∧ net'.Routed source u := by
    intro hu
    obtain ⟨hadj, hrouted⟩ := hi.hop w u hu
    exact ⟨hadj, hh.routed h hi hm hrouted⟩
  rw [hh.hop h hi hm] at hu
  split at hu
  · by_cases hw : w = v
    · subst hw
      rw [Function.update_self, Option.some_inj] at hu
      subst hu
      exact ⟨h.symm _ _ hp.adjacent, hh.routed h hi hm hp.routed⟩
    · rw [Function.update_of_ne hw] at hu
      exact hold hu
  · exact hold hu

theorem Handles.known (h : Layout nodes hears source target)
    (hi : Inv nodes hears source target net) (hm : Message nodes source target net l (v, f))
    {t : RHMesh} (hh : Handles source target hears net v f l t net') {d : UInt8}
    (hd : (t.routes.nextHop d).isSome) : d ∈ insert 0 nodes := by
  obtain ⟨learned, out, hr, hl, -, -⟩ := hh.served
  rw [hr.routes, nextHop_learned h hi hm hl] at hd
  split at hd
  · rename_i hmem
    rcases hl d hmem with hmem | rfl
    · exact routesIn_subset h hi hm d hmem
    · exact Finset.mem_insert_of_mem h.target_mem
  · exact hi.known v d hd

/-- Octets of the frame's list, or of the list sent, or older ones. -/
theorem Handles.buffer (h : Layout nodes hears source target)
    (hi : Inv nodes hears source target net) (hp : OnAir nodes hears source target net (v, f))
    (hm : Message nodes source target net l (v, f)) {t : RHMesh}
    (hh : Handles source target hears net v f l t net') {i : ℕ} (hle : routeOctet ≤ i) :
    t.tmpMessage i ∈ insert 0 nodes := by
  obtain ⟨learned, out, hr, -, -, hout⟩ := hh.served
  have hstored : stored f (net.node v).tmpMessage i ∈ insert 0 nodes := by
    rcases Mem.write_mem_drop hle (net.node v).tmpMessage (f.data.take routedMessageSize)
      with hmem | heq
    · rw [List.drop_take] at hmem
      have hmem := List.mem_of_mem_take hmem
      rw [hm.drop] at hmem
      exact Finset.mem_insert_of_mem (hm.subset _ hmem)
    · rw [stored, heq]
      exact hi.buffer v i hle
  rw [hr.tmpMessage i hle]
  cases out with
  | none => exact (congrFun (Mem.write_nil _ _) i).symm ▸ hstored
  | some o =>
    rcases Mem.write_mem_drop hle (stored f (net.node v).tmpMessage) o.2 with hmem | heq
    · refine Finset.mem_insert_of_mem ?_
      rcases (hout o rfl).drop with hdrop | hdrop
      · rw [hdrop, hi.thisAddress] at hmem
        rcases List.mem_append.mp hmem with hmem | hmem
        · exact hm.subset _ hmem
        · have hv : v ∈ nodes := h.mem _ _ hp.adjacent
          rwa [← List.mem_singleton.mp hmem] at hv
      · rw [hdrop] at hmem
        exact hm.subset _ hmem
    · exact heq ▸ hstored

/-- What is sent is on the air as it should be. -/
theorem Handles.onAir (h : Layout nodes hears source target)
    (hi : Inv nodes hears source target net) (hp : OnAir nodes hears source target net (v, f))
    (hm : Message nodes source target net l (v, f)) {t : RHMesh}
    (hh : Handles source target hears net v f l t net') :
    ∀ p ∈ net'.air, OnAir nodes hears source target net' p := by
  obtain ⟨learned, out, hr, -, -, hout⟩ := hh.served
  obtain ⟨id, flags, -, hsent⟩ := hr.sent
  have hair := hh.air
  rw [air_become hsent] at hair
  intro p hpair
  rw [hair] at hpair
  rcases List.mem_append.mp hpair with hpair | hpair
  · exact (hi.air p hpair).mono fun w => hh.routed h hi hm
  · obtain ⟨hmem, hadj, hfor⟩ := mem_carried.mp hpair
    obtain ⟨o, ho, hframe⟩ : ∃ o ∈ out, p.2 = ⟨o.1, v, id, flags, o.2⟩ := by
      cases out with
      | none => exact absurd hmem List.not_mem_nil
      | some o =>
        refine ⟨o, rfl, (List.mem_singleton.mp hmem).trans ?_⟩
        rw [hi.txHeaderFrom]
    have hroutes : t.routes.nextHop source = net'.hop source v := by
      rw [MeshNet.hop, hh.node, Function.update_self]
    have hfrom : p.2.headerFrom = v := by rw [hframe]
    have hdata : p.2.data = o.2 := by rw [hframe]
    have hthis := hi.thisAddress v
    -- what it sends is the request with its own name added, or the response
    rcases hout o ho with ⟨-, hsource, hlist, hsome, hreq⟩ | ⟨hhop, hresp⟩
    · rw [hthis] at hsource hlist hreq
      rw [hroutes] at hsome
      refine ⟨hfrom ▸ hadj, hfrom ▸ .inr hsome, l ++ [v], ?_, ?_, ?_, .inl (hdata ▸ hreq)⟩
      · intro d hd
        rcases List.mem_append.mp hd with hd | hd
        · exact hm.subset d hd
        · exact List.mem_singleton.mp hd ▸ h.mem _ _ hp.adjacent
      · exact List.concat_eq_append ▸ hm.nodup.concat hlist
      · simp [hm.source_notMem, hsource]
    · rw [hroutes] at hhop
      obtain ⟨hoadj, horouted⟩ := hh.next h hi hp hm hhop
      have hto : o.1 = p.1 := by
        rw [hframe] at hfor
        refine hfor.resolve_right ?_
        exact ne_of_mem_of_not_mem (h.mem _ _ hoadj) h.broadcast
      refine ⟨hfrom ▸ hadj, hfrom ▸ .inr (by rw [hhop]; rfl), l, hm.subset, hm.nodup,
        hm.source_notMem, .inr ⟨hdata ▸ hresp, hto ▸ horouted⟩⟩

theorem handles_inv (h : Layout nodes hears source target)
    (hi : Inv nodes hears source target net) (hp : OnAir nodes hears source target net (v, f))
    (hm : Message nodes source target net l (v, f)) {t : RHMesh}
    (hh : Handles source target hears net v f l t net') : Inv nodes hears source target net' := by
  obtain ⟨learned, out, hr, -, -, -⟩ := hh.served
  have hvt : net'.node v = t := by rw [hh.node, Function.update_self]
  -- one node is another one than before
  have hall : ∀ P : UInt8 → RHMesh → Prop, (∀ w, P w (net.node w)) → P v t →
      ∀ w, P w (net'.node w) := by
    intro P hold hnew w
    by_cases hw : w = v
    · rw [hw, hvt]
      exact hnew
    · rw [hh.node, Function.update_of_ne hw]
      exact hold w
  refine ⟨?_, ?_, ?_, ?_, fun w u => hh.next h hi hp hm, hh.onAir h hi hp hm, hh.arp⟩
  · exact hall (fun w s => s.thisAddress = w) hi.thisAddress
      (hr.thisAddress.trans (hi.thisAddress v))
  · exact hall (fun w s => s.txHeaderFrom = w) hi.txHeaderFrom
      (hr.txHeaderFrom.trans (hi.txHeaderFrom v))
  · exact hall (fun _ s => ∀ d, (s.routes.nextHop d).isSome → d ∈ insert 0 nodes) hi.known
      fun d => hh.known h hi hm
  · exact hall (fun _ s => ∀ i, routeOctet ≤ i → s.tmpMessage i ∈ insert 0 nodes) hi.buffer
      fun i => hh.buffer h hi hp hm

theorem start_inv {node : UInt8 → RHMesh} (hfresh : ∀ v, Fresh v (node v)) :
    Inv nodes hears source target (start hears source target node) := by
  obtain ⟨t, id, flags, ht, -, -, heq⟩ := start_eq hears source target node
  have hthis := (hfresh source).thisAddress
  -- only the originator is another node than before
  have hall : ∀ P : UInt8 → RHMesh → Prop, (∀ w, P w (node w)) → P source t →
      ∀ w, P w (Function.update node source t w) := by
    intro P hold hnew w
    by_cases hw : w = source
    · rw [hw, Function.update_self]
      exact hnew
    · rw [Function.update_of_ne hw]
      exact hold w
  have hnone : ∀ w d, (Function.update node source t w).routes.nextHop d = none := by
    refine hall (fun _ s => ∀ d, s.routes.nextHop d = none) (fun w => (hfresh w).routes) ?_
    intro d
    rw [ht.routes]
    exact (hfresh source).routes d
  rw [heq]
  refine ⟨?_, ?_, ?_, ?_, ?_, ?_, ?_⟩
  · exact hall (fun w s => s.thisAddress = w) (fun w => (hfresh w).thisAddress)
      (ht.thisAddress.trans hthis)
  · exact hall (fun w s => s.txHeaderFrom = w) (fun w => (hfresh w).txHeaderFrom)
      (ht.txHeaderFrom.trans (hfresh source).txHeaderFrom)
  · intro w d hd
    rw [hnone w d] at hd
    exact absurd hd Bool.false_ne_true
  · refine hall (fun _ s => ∀ i, routeOctet ≤ i → s.tmpMessage i ∈ insert 0 nodes) ?_ ?_
    · intro w i _
      rw [(hfresh w).tmpMessage]
      exact Finset.mem_insert_self 0 nodes
    · -- the request of `doArp` has no list
      intro i hle
      rw [ht.tmpMessage]
      show (node source).tmpMessage.write 0 _ i ∈ insert 0 nodes
      rw [Mem.write_ge (by rw [length_discovery]; exact hle), (hfresh source).tmpMessage]
      exact Finset.mem_insert_self 0 nodes
  · intro w u hu
    exact absurd ((hnone w source).symm.trans hu).symm (Option.some_ne_none u)
  · intro p hp
    obtain ⟨hmem, hadj, -⟩ := mem_carried.mp hp
    have hframe := List.mem_singleton.mp hmem
    have hfrom : p.2.headerFrom = source := by
      rw [hframe]
      exact (hfresh source).txHeaderFrom
    refine ⟨hfrom ▸ hadj, .inl hfrom, [], ?_, List.nodup_nil, List.not_mem_nil, .inl ?_⟩
    · exact fun d hd => absurd hd List.not_mem_nil
    · rw [hframe, hthis]
      exact ⟨0, _, 0, rfl⟩
  · intro messageLen hml
    obtain rfl : meshMessageSize = messageLen := Option.some_inj.mp hml
    decide

theorem Inv.with_air (hi : Inv nodes hears source target net) (air : List (UInt8 × Frame))
    (hair : ∀ p ∈ air, p ∈ net.air) {arp : Option UInt8}
    (harp : ∀ messageLen, arp = some messageLen → 1 < messageLen) :
    Inv nodes hears source target { net with air := air, arp := arp } := by
  refine ⟨hi.thisAddress, hi.txHeaderFrom, hi.known, hi.buffer, hi.hop, ?_, harp⟩
  intro p hp
  exact (hi.air p (hair p hp)).mono fun _ hw => hw

theorem step_inv (h : Layout nodes hears source target) {e : MeshEvent}
    (hi : Inv nodes hears source target net)
    (hstep : step hears source target net e = some net') :
    Inv nodes hears source target net' := by
  cases e with
  | handle i =>
    obtain ⟨⟨v, f⟩, hget, rfl⟩ := Option.map_eq_some_iff.mp hstep
    have hi' := hi.with_air (net.air.eraseIdx i) (fun p => List.mem_of_mem_eraseIdx) hi.arp
    have hp := hi.air _ (List.mem_of_getElem? hget)
    obtain ⟨l, hm⟩ := hp.message
    obtain ⟨t, hh⟩ := handles h hi' (hp.mono fun _ hw => hw) (hm.mono fun _ hw => hw)
    exact handles_inv h hi' (hp.mono fun _ hw => hw) (hm.mono fun _ hw => hw) hh
  | lose i =>
    rw [step, Option.ite_none_right_eq_some, Option.some_inj] at hstep
    obtain ⟨-, rfl⟩ := hstep
    exact hi.with_air _ (fun p => List.mem_of_mem_eraseIdx) hi.arp
  | timeout =>
    rw [step, Option.ite_none_right_eq_some, Option.some_inj] at hstep
    obtain ⟨-, rfl⟩ := hstep
    exact hi.with_air net.air (fun p hp => hp) fun _ h' => absurd h' (Option.some_ne_none _).symm

/-- The step does not close a loop: if the node takes a route to `source` from
the frame, the way from the frame's sender does not lead through the node. -/
def Sound (source : UInt8) (net : MeshNet) : MeshEvent → Prop
  | .handle i => ∀ p ∈ net.air[i]?, source ∈ routesIn (net.node p.1) p.2 →
      ∃ l, Follows (net.hop source) source p.2.headerFrom l ∧ p.1 ∉ l
  | _ => True

theorem sound_iff (h : Layout nodes hears source target) {e : MeshEvent}
    (hi : Inv nodes hears source target net) (hfree : LoopFree (net.hop source) source)
    (hstep : step hears source target net e = some net') :
    Sound source net e ↔ LoopFree (net'.hop source) source := by
  cases e with
  | handle i =>
    obtain ⟨⟨v, f⟩, hget, rfl⟩ := Option.map_eq_some_iff.mp hstep
    have hi' := hi.with_air (net.air.eraseIdx i) (fun p => List.mem_of_mem_eraseIdx) hi.arp
    have hp := hi.air _ (List.mem_of_getElem? hget)
    obtain ⟨l, hm⟩ := hp.message
    obtain ⟨t, hh⟩ := handles h hi' (hp.mono fun _ hw => hw) (hm.mono fun _ hw => hw)
    rw [hh.hop h hi' (hm.mono fun _ hw => hw)]
    have hsound : Sound source net (.handle i) ↔ (source ∈ routesIn (net.node v) f →
        ∃ l, Follows (net.hop source) source f.headerFrom l ∧ v ∉ l) := by
      rw [Sound, hget]
      simp
    rw [hsound]
    by_cases hmem : source ∈ routesIn (net.node v) f
    · have hv : v ≠ source := by
        rintro rfl
        exact source_notMem_routesIn h hi hm hmem
      rw [if_pos hmem]
      refine Iff.trans ?_ (loopFree_update_iff hfree hv).symm
      exact ⟨fun hs => hs hmem, fun hs _ => hs⟩
    · rw [if_neg hmem]
      exact iff_of_true (fun hs => absurd hs hmem) hfree
  | lose i =>
    rw [step, Option.ite_none_right_eq_some, Option.some_inj] at hstep
    obtain ⟨-, rfl⟩ := hstep
    exact iff_of_true trivial hfree
  | timeout =>
    rw [step, Option.ite_none_right_eq_some, Option.some_inj] at hstep
    obtain ⟨-, rfl⟩ := hstep
    exact iff_of_true trivial hfree

/-- **A discovery leaves the next hops towards its originator free of loops, in
every state it comes through, exactly if no node takes a route there from a
node whose own way leads through it.** -/
theorem loopFree_iff (h : Layout nodes hears source target) {node : UInt8 → RHMesh}
    (hfresh : ∀ v, Fresh v (node v)) (es : List MeshEvent) :
    AllSteps (step hears source target) (Sound source) (start hears source target node) es ↔
      ∀ fs net, fs <+: es →
        run (step hears source target) (start hears source target node) fs = some net →
          LoopFree (net.hop source) source := by
  refine allSteps_iff_prefixes (fun _ _ _ => step_inv h) ?_ (fun _ _ _ => sound_iff h)
    (start_inv hfresh) ?_
  · intro net e hnone
    cases e with
    | handle i =>
      intro p hp
      rw [step, Option.mem_def.mp hp] at hnone
      exact absurd hnone (Option.some_ne_none _)
    | lose i => trivial
    | timeout => trivial
  · -- no routes yet
    obtain ⟨t, id, flags, ht, -, -, heq⟩ := start_eq hears source target node
    intro v hv
    rw [heq, MeshNet.hop] at hv
    by_cases hvs : v = source
    · rw [hvs]
      exact ⟨_, .here, List.nodup_singleton source⟩
    · dsimp only at hv
      rw [Function.update_of_ne hvs, (hfresh v).routes] at hv
      exact absurd hv Bool.false_ne_true

/-! ### Three nodes that hear each other -/

/-- Nodes 1, 2 and 3 hear each other; node 4 hears node 3 only. -/
def triangle (v : UInt8) : List UInt8 :=
  if v = 1 then [2, 3] else if v = 2 then [1, 3] else if v = 3 then [1, 2, 4]
  else if v = 4 then [3] else []

theorem triangle_layout : Layout {1, 2, 3, 4} triangle 1 4 := by
  refine ⟨by decide, by decide, by decide, by decide, by decide, ?_, ?_⟩
  · intro v w hw
    rw [triangle] at hw
    grind
  · intro v w hw
    rw [triangle] at hw ⊢
    grind

/-- **The request of node 1 reaches nodes 2 and 3, and then each other's copy of it
does: node 2 has the route to node 1 over node 3, and node 3 over node 2.** -/
theorem crossed_loop : Layout {1, 2, 3, 4} triangle 1 4 ∧ (∀ v, Fresh v (bootNode v)) ∧ ∃ net,
    run (step triangle 1 4) (start triangle 1 4 bootNode)
      [.handle 0, .handle 0, .handle 1, .handle 2] = some net ∧
    net.hop 1 2 = some 3 ∧ net.hop 1 3 = some 2 ∧ ¬ LoopFree (net.hop 1) 1 := by
  have hrun : (run (step triangle 1 4) (start triangle 1 4 bootNode)
      [.handle 0, .handle 0, .handle 1, .handle 2]).map
        (fun net => (net.hop 1 2, net.hop 1 3)) = some (some 3, some 2) := by
    decide +kernel
  obtain ⟨net, hnet, hhops⟩ := Option.map_eq_some_iff.mp hrun
  obtain ⟨h2, h3⟩ := Prod.mk.inj hhops
  refine ⟨triangle_layout, bootNode_fresh, net, hnet, h2, h3, ?_⟩
  intro hfree
  obtain ⟨l, hl, hnodup⟩ := hfree 2 (by rw [h2]; rfl)
  -- from node 2 to node 3 and back, and so on
  cases hl with
  | next _ hu hl =>
    obtain rfl := Option.some_inj.mp (hu.symm.trans h2)
    cases hl with
    | next _ hu hl =>
      obtain rfl := Option.some_inj.mp (hu.symm.trans h3)
      cases hl with
      | next => simp at hnodup

theorem Sound.of_follows {i : ℕ} {u : UInt8}
    (hair : net.air[i]?.map (fun p => (p.1, p.2.headerFrom)) = some (v, u))
    (hl : Follows (net.hop source) source u l) (hv : v ∉ l) : Sound source net (.handle i) := by
  intro p hp _
  rw [Option.mem_def.mp hp, Option.map_some, Option.some_inj] at hair
  obtain ⟨rfl, rfl⟩ := Prod.mk.inj hair
  exact ⟨l, hl, hv⟩

/-- Nodes 2 and 3 take the route of node 1's own request, and node 4 that of the
copy of node 3: it answers, and no loop is closed. -/
theorem first_copies_loopFree :
    AllSteps (step triangle 1 4) (Sound 1) (start triangle 1 4 bootNode)
        [.handle 0, .handle 0, .handle 4] ∧
      ∃ net, run (step triangle 1 4) (start triangle 1 4 bootNode)
          [.handle 0, .handle 0, .handle 4] = some net ∧
        (net.hop 1 2 = some 1 ∧ net.hop 1 3 = some 1 ∧ net.hop 1 4 = some 3) ∧
        LoopFree (net.hop 1) 1 := by
  have hsound : AllSteps (step triangle 1 4) (Sound 1) (start triangle 1 4 bootNode)
      [.handle 0, .handle 0, .handle 4] := by
    refine ⟨?_, fun net hnet => ⟨?_, fun net' hnet' => ⟨?_, fun _ _ => trivial⟩⟩⟩
    · exact .of_follows (v := 2) (by decide +kernel) .here (by decide)
    · have hair : (step triangle 1 4 (start triangle 1 4 bootNode) (.handle 0)).map
          (fun net => net.air[0]?.map fun p => (p.1, p.2.headerFrom)) = some (some (3, 1)) := by
        decide +kernel
      rw [hnet, Option.map_some, Option.some_inj] at hair
      exact .of_follows hair .here (by decide)
    · -- node 3 has its route by now
      have hview : (run (step triangle 1 4) (start triangle 1 4 bootNode)
          [.handle 0, .handle 0]).map
            (fun net => (net.air[4]?.map fun p => (p.1, p.2.headerFrom), net.hop 1 3)) =
              some (some (4, 3), some 1) := by
        decide +kernel
      rw [run_cons.mpr ⟨net, hnet, run_cons.mpr ⟨net', hnet', rfl⟩⟩, Option.map_some,
        Option.some_inj] at hview
      obtain ⟨hair, h3⟩ := Prod.mk.inj hview
      exact .of_follows hair (.next (by decide) h3 .here) (by decide)
  have hrun : (run (step triangle 1 4) (start triangle 1 4 bootNode)
      [.handle 0, .handle 0, .handle 4]).map (fun net => (net.hop 1 2, net.hop 1 3, net.hop 1 4)) =
        some (some 1, some 1, some 3) := by
    decide +kernel
  obtain ⟨net, hnet, hhops⟩ := Option.map_eq_some_iff.mp hrun
  obtain ⟨h2, h34⟩ := Prod.mk.inj hhops
  obtain ⟨h3, h4⟩ := Prod.mk.inj h34
  exact ⟨hsound, net, hnet, ⟨h2, h3, h4⟩,
    (loopFree_iff triangle_layout bootNode_fresh _).mp hsound _ net List.prefix_rfl hnet⟩

end MeshNet
