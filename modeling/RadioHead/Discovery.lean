/-
What a mesh node does with the messages of a route discovery.

One lemma for each thing that can become of a request or a response at a node:
what it learns, what it sends, and what is left in its buffer, which the next
response will be read over.  Links are taken to acknowledge what is sent to a
neighbour (`Acks`).

* `discovery` — the octets of a request or a response;
* `Transmits`, `Handled` — the members after a transmission, and after a frame;
* `request_answered`, `request_relayed`, `response_forwarded`, ... — the cases.
-/
import RadioHead.Mesh

/-- A request or a response on the air, with the list of nodes on its way. -/
def discovery (dest source hops id flags msgType target : UInt8) (list : List UInt8) :
    List UInt8 :=
  [dest, source, hops, id, flags, msgType, 1, target] ++ list

namespace RHRouter

variable {β : Type} {link : List Frame → LinkAnswer} {s t : RHRouter β}

/-- The link acknowledges what is sent to `hop`; a broadcast it does not wait for. -/
def Acks (link : List Frame → LinkAnswer) (hop : UInt8) : Prop :=
  hop = broadcastAddress ∨ ∀ sent f, f.headerTo = hop → (link (sent ++ [f])).acked = true

/-- From `s` to `t` the message `data` has been sent to `hop`. -/
structure Transmits (s t : RHRouter β) (hop : UInt8) (data : List UInt8) : Prop where
  thisAddress : t.thisAddress = s.thisAddress
  txHeaderFrom : t.txHeaderFrom = s.txHeaderFrom
  seenIds : t.seenIds = s.seenIds
  lastSequenceNumber : t.lastSequenceNumber = s.lastSequenceNumber + 1
  maxHops : t.maxHops = s.maxHops
  tmpMessage : t.tmpMessage = s.tmpMessage
  routes : t.routes = s.routes
  sent : ∃ flags, t.sent = s.sent ++
    [⟨hop, s.txHeaderFrom, s.lastSequenceNumber + 1, flags, data⟩] ∧ flags &&& flagsAck = 0

/-- `RHReliableDatagram::sendtoWait` of a message that is acknowledged. -/
theorem linkSendtoWait_transmits {hop : UInt8} {data : List UInt8} (hack : Acks link hop)
    (hlen : data.length ≤ maxMessageLen) (s : RHRouter β) :
    (s.linkSendtoWait link data hop).1 = true ∧
      Transmits s (s.linkSendtoWait link data hop).2 hop data := by
  have hsent : ∃ flags, (s.linkSendtoWait link data hop).2.sent = s.sent ++
      [⟨hop, s.txHeaderFrom, s.lastSequenceNumber + 1, flags, data⟩] ∧
        flags &&& flagsAck = 0 := by
    rw [linkSendtoWait_sent]
    refine ⟨_, ?_, RHReliableDatagram.and_not_self s.txHeaderFlags flagsAck⟩
    show s.sent ++ Option.toList (ite _ _ _) = _
    rw [if_pos hlen]
    rfl
  by_cases hbc : hop = broadcastAddress
  · have heq : s.linkSendtoWait link data hop = (true, _) := if_pos hbc
    rw [heq] at hsent ⊢
    exact ⟨rfl, rfl, rfl, rfl, rfl, rfl, rfl, rfl, hsent⟩
  · have heq : s.linkSendtoWait link data hop = (LinkAnswer.acked _, _) := if_neg hbc
    have hacked : (s.linkSendtoWait link data hop).1 = true := by
      rw [heq]
      show (link (s.sent ++ Option.toList (ite _ _ _))).acked = true
      rw [if_pos hlen]
      exact (hack.resolve_left hbc) _ _ rfl
    rw [heq] at hsent hacked ⊢
    exact ⟨hacked, rfl, rfl, rfl, rfl, rfl, rfl, rfl, hsent⟩

/-- `RHRouter::route` to a next hop that acknowledges. -/
theorem route_transmits {hop : UInt8} {n : UInt8} (hnext : s.nextHop = some hop)
    (hack : Acks link hop) (hlen : n.toNat ≤ maxMessageLen) :
    (s.route link n).1 = .none ∧
      Transmits s (s.route link n).2 hop (s.tmpMessage.load 0 n.toNat) := by
  have hdata : (s.tmpMessage.load 0 n.toNat).length ≤ maxMessageLen := by
    rwa [Mem.length_load]
  obtain ⟨hok, h⟩ := linkSendtoWait_transmits hack hdata (s.note [.octet 0, .upTo n.toNat])
  rw [route_hop hnext]
  refine ⟨if_pos hok, ?_⟩
  exact ⟨h.1, h.2, h.3, h.4, h.5, h.6, h.7, h.8⟩

end RHRouter

namespace RHMesh

open RHRouter

variable {link : List Frame → LinkAnswer} {s t : RHMesh} {f : Frame}

/-- The mesh's `route` does no more than the router's when that succeeds. -/
theorem route_transmits {hop n : UInt8} (hnext : s.nextHop = some hop)
    (hack : Acks link hop) (hlen : n.toNat ≤ maxMessageLen) :
    (route link s n).1 = .none ∧
      Transmits s (route link s n).2 hop (s.tmpMessage.load 0 n.toNat) := by
  obtain ⟨hok, h⟩ := RHRouter.route_transmits hnext hack hlen
  have hroute : route link s n = RHRouter.route link s n :=
    routeFuel_passed link 1 (by rw [hok]; decide)
  rw [hroute]
  exact ⟨hok, h⟩

/-- A message of the node's own, or one sent in another's name. -/
theorem sendtoFromSourceWait_transmits (s : RHMesh) {buf : List UInt8} (dest source : UInt8)
    {hop : UInt8} (hlen : buf.length + routedHeaderLen ≤ maxMessageLen)
    (hnext : (if dest ≠ broadcastAddress then s.routes.nextHop dest
      else some broadcastAddress) = some hop) (hack : Acks link hop) :
    (s.sendtoFromSourceWait (route link) buf dest source).1 = .none ∧
      Transmits (s.setMessage (s.tmpMessage.write 0
          ([dest, source, 0, s.lastE2ESequenceNumber, 0] ++ buf)))
        (s.sendtoFromSourceWait (route link) buf dest source).2 hop
        ([dest, source, 0, s.lastE2ESequenceNumber, 0] ++ buf) := by
  set u := s.composed buf dest source 0 with hu
  have hunext : u.nextHop = some hop := (composed_nextHop s dest source 0).trans hnext
  have hn := composed_length s dest source 0 hlen
  rw [length_outgoing] at hn
  obtain ⟨hok, h⟩ := route_transmits hunext hack (hn.trans_le (by omega))
  rw [hu, composed_load s dest source 0 hlen] at h
  rw [sendtoFromSourceWait_eq s dest source 0 (route link) hlen]
  refine ⟨hok, ?_⟩
  exact ⟨h.1, h.2, h.3, h.4, h.5, h.6, h.7, h.8⟩

/-- The request of `doArp`. -/
theorem beginArp_transmits (link : List Frame → LinkAnswer) (s : RHMesh) (address : UInt8) :
    (beginArp link s address).1 = .none ∧
      Transmits (s.setMessage (s.tmpMessage.write 0 (discovery broadcastAddress s.thisAddress 0
          s.lastE2ESequenceNumber 0 typeRequest address [])))
        (beginArp link s address).2 broadcastAddress
        (discovery broadcastAddress s.thisAddress 0 s.lastE2ESequenceNumber 0 typeRequest
          address []) := by
  set u := store s 0 [typeRequest, 1, address] with hu
  have hload : u.derived.load 0 (meshHeaderLen + 2) = [typeRequest, 1, address] :=
    Mem.load_write_self s.derived 0 [typeRequest, 1, address]
  have hack : Acks link broadcastAddress := .inl rfl
  have hlen : [typeRequest, 1, address].length + routedHeaderLen ≤ maxMessageLen := by
    show 3 + 5 ≤ 251
    omega
  obtain ⟨hok, h⟩ := sendtoFromSourceWait_transmits u broadcastAddress u.thisAddress hlen
    (if_neg (not_not.mpr rfl)) hack
  have hbegin : beginArp link s address = u.sendtoFromSourceWait (route link)
      [typeRequest, 1, address] broadcastAddress u.thisAddress := by
    rw [beginArp, ← hu, hload, RHRouter.sendtoWait]
  rw [hbegin]
  refine ⟨hok, ?_⟩
  exact ⟨h.1, h.2, h.3, h.4, h.5, h.6, h.7, h.8⟩

/-- What the routes of a node are once it has learned those to `learned`. -/
def routesAfter (s : RHMesh) (f : Frame) (learned : List UInt8) : RoutingTable :=
  learned.foldl (fun t d => t.addRouteTo d f.headerFrom) s.routes

theorem nextHop_routesAfter {A : Finset UInt8} (hcard : A.card ≤ routingTableSize)
    (hA : ∀ d, (s.routes.nextHop d).isSome → d ∈ A) {learned : List UInt8}
    (hl : ∀ d ∈ learned, d ∈ A) (d : UInt8) :
    (routesAfter s f learned).nextHop d =
      if d ∈ learned then some f.headerFrom else s.routes.nextHop d :=
  RoutingTable.nextHop_foldl_addRouteTo hcard hl f.headerFrom d hA

/-- The members after a frame that the link has returned: routes learned over
the sender, and a message sent, if any. -/
structure Handled (s : RHMesh) (f : Frame) (learned : List UInt8)
    (out : Option (UInt8 × List UInt8)) (t : RHMesh) : Prop where
  thisAddress : t.thisAddress = s.thisAddress
  txHeaderFrom : t.txHeaderFrom = s.txHeaderFrom
  seenIds : t.seenIds = Function.update s.seenIds f.headerFrom f.headerId
  lastSequenceNumber :
    t.lastSequenceNumber = s.lastSequenceNumber + if out.isSome then 1 else 0
  maxHops : t.maxHops = s.maxHops
  tmpMessage : ∀ i, routeOctet ≤ i → t.tmpMessage i =
    (stored f s.tmpMessage).write 0 ((out.map (·.2)).getD []) i
  routes : t.routes = routesAfter s f learned
  sent : ∃ flags, flags &&& flagsAck = 0 ∧ t.sent = s.sent ++
    (out.map fun o => ⟨o.1, s.txHeaderFrom, s.lastSequenceNumber + 1, flags, o.2⟩).toList

/-- The members after a frame has been taken and learned from, before anything
is sent. -/
structure Learned (s : RHMesh) (f : Frame) (learned : List UInt8) (u : RHMesh) : Prop where
  datagram : u.toRHReliableDatagram = (s.taken f).toRHReliableDatagram
  maxHops : u.maxHops = s.maxHops
  tmpMessage : ∀ i, routeOctet ≤ i → u.tmpMessage i = stored f s.tmpMessage i
  routes : u.routes = routesAfter s f learned
  sent : u.sent = s.sent

/-- The frame is not sent on. -/
theorem Learned.handled {learned : List UInt8} {u : RHMesh} (h : Learned s f learned u) :
    Handled s f learned none u where
  thisAddress := by rw [h.datagram, taken_thisAddress]
  txHeaderFrom := by rw [h.datagram, taken_txHeaderFrom]
  seenIds := by rw [h.datagram, taken_seenIds]
  lastSequenceNumber := by
    rw [h.datagram, taken_lastSequenceNumber]
    exact (UInt8.add_zero _).symm
  maxHops := h.maxHops
  tmpMessage i hi := by
    rw [h.tmpMessage i hi]
    exact (congrFun (Mem.write_nil _ _) i).symm
  routes := h.routes
  sent := ⟨0, by decide, h.sent.trans (List.append_nil _).symm⟩

/-- What else the node has stored does not matter. -/
theorem Learned.aside {learned : List UInt8} {u : RHMesh} (h : Learned s f learned u) (d : Mem)
    (a : List Access) : Learned s f learned { u with derived := d, accesses := a } :=
  ⟨h.datagram, h.maxHops, h.tmpMessage, h.routes, h.sent⟩

/-- A message is sent on account of the frame. -/
theorem Learned.handled_sent {learned data : List UInt8} {hop : UInt8} {u : RHMesh}
    (h : Learned s f learned u)
    (ht : Transmits (u.setMessage (u.tmpMessage.write 0 data)) t hop data) :
    Handled s f learned (some (hop, data)) t where
  thisAddress := ht.thisAddress.trans h.handled.thisAddress
  txHeaderFrom := ht.txHeaderFrom.trans h.handled.txHeaderFrom
  seenIds := ht.seenIds.trans h.handled.seenIds
  lastSequenceNumber := by
    have hseq : u.lastSequenceNumber = s.lastSequenceNumber := by
      rw [h.datagram, taken_lastSequenceNumber]
    rw [ht.lastSequenceNumber, ← hseq]
    rfl
  maxHops := ht.maxHops.trans h.maxHops
  tmpMessage i hi := by
    rw [ht.tmpMessage]
    show u.tmpMessage.write 0 data i = (stored f s.tmpMessage).write 0 data i
    rw [Mem.write, Mem.write, h.tmpMessage i hi]
  routes := ht.routes.trans h.routes
  sent := by
    obtain ⟨flags, hsent, hack⟩ := ht.sent
    have hfrom : u.txHeaderFrom = s.txHeaderFrom := h.handled.txHeaderFrom
    have hseq : u.lastSequenceNumber = s.lastSequenceNumber := by
      rw [h.datagram, taken_lastSequenceNumber]
    refine ⟨flags, hack, hsent.trans ?_⟩
    show u.sent ++ [⟨hop, u.txHeaderFrom, u.lastSequenceNumber + 1, flags, data⟩] = _
    rw [h.sent, hfrom, hseq]
    rfl

/-- The routes learned one after another. -/
theorem learn_routes (s : RHMesh) (route : ℕ → UInt8) (idx : List ℕ) :
    (learn s route idx).routes =
      (idx.map route).foldl (fun t d => t.addRouteTo d s.rxHeaderFrom) s.routes := by
  induction idx generalizing s with
  | nil => rfl
  | cons i idx ih =>
    show (learn ((s.note [.octet (routeOctet + i)]).addRouteTo (route i) s.rxHeaderFrom)
      route idx).routes = _
    rw [ih]
    rfl

theorem length_discovery (dest source hops id flags msgType target : UInt8) (l : List UInt8) :
    (discovery dest source hops id flags msgType target l).length = 8 + l.length := by
  rw [discovery, List.length_append]
  rfl

/-- The octets of a discovery message in `_tmpMessage`. -/
structure Stored (f : Frame) (m : Mem) (dest source hops msgType target : UInt8)
    (l : List UInt8) : Prop where
  fits : 8 + l.length ≤ 251
  len : f.storedLen.toNat = 8 + l.length
  dest_eq : stored f m 0 = dest
  source_eq : stored f m 1 = source
  hops_eq : stored f m 2 = hops
  msgType_eq : stored f m 5 = msgType
  target_eq : stored f m 7 = target
  list : ∀ i (h : i < l.length), stored f m (routeOctet + i) = l[i]
  past : ∀ i, l.length ≤ i → stored f m (routeOctet + i) = m (routeOctet + i)
  message : stored f m = m.write 0 f.data
  data : (stored f m).load routedHeaderLen (3 + l.length) = [msgType, 1, target] ++ l

theorem stored_discovery {dest source hops id flags msgType target : UInt8} {l : List UInt8}
    (hdata : f.data = discovery dest source hops id flags msgType target l)
    (hlen : f.data.length ≤ maxMessageLen) (m : Mem) :
    Stored f m dest source hops msgType target l := by
  have hflen : f.data.length = 8 + l.length := by rw [hdata, length_discovery]
  have hfits : 8 + l.length ≤ 251 := hflen ▸ hlen
  have htake : f.data.take routedMessageSize = f.data :=
    List.take_of_length_le (show f.data.length ≤ 255 by omega)
  have hget : ∀ i o, i < 8 + l.length → f.data[i]? = some o → stored f m i = o := by
    intro i o hi ho
    exact stored_get ho (show i < 255 by omega) m
  refine ⟨hfits, ?_, hget 0 _ (by omega) (by rw [hdata]; rfl), hget 1 _ (by omega)
    (by rw [hdata]; rfl), hget 2 _ (by omega) (by rw [hdata]; rfl), hget 5 _ (by omega)
    (by rw [hdata]; rfl), hget 7 _ (by omega) (by rw [hdata]; rfl), ?_, ?_, ?_, ?_⟩
  · rw [storedLen_toNat, hflen, routedMessageSize]
    omega
  · intro i hi
    refine hget (8 + i) _ (by omega) ?_
    rw [hdata, discovery, List.getElem?_append_right (by simp)]
    simp [hi]
  · intro i hi
    refine stored_past (List.getElem?_eq_none_iff.mpr ?_) m
    rw [hflen, routeOctet]
    omega
  · rw [stored, htake]
  · have hload := Mem.load_write (l := f.data) (i := 5) (n := 3 + l.length) (by omega) m 0
    rw [Nat.zero_add] at hload
    rw [stored, htake, routedHeaderLen, hload, hdata]
    show ([msgType, 1, target] ++ l).take (3 + l.length) = _
    refine List.take_of_length_le ?_
    simp only [List.length_append, List.length_cons, List.length_nil]
    omega

/-! ### Requests -/

variable {source hops id flags target : UInt8} {l : List UInt8}

theorem handleReceived_request {r : Received} (hbuf : r.buf = [typeRequest, 1, target] ++ l)
    (hdest : r.dest = broadcastAddress) (hfits : 8 + l.length ≤ 251) (len : UInt8) :
    handleReceived link s r len = (none, handleRequest link
      ((store s 0 ([typeRequest, 1, target] ++ l)).note [.octet 5]) r.source
      (UInt8.ofNat (3 + l.length))) := by
  have hblen : r.buf.length = 3 + l.length := by
    rw [hbuf, List.length_append]
    rfl
  have hn : (UInt8.ofNat (3 + l.length)).toNat = 3 + l.length :=
    UInt8.toNat_ofNat_of_lt' (show 3 + l.length < 256 by omega)
  have hone : UInt8.ofNat (3 + l.length) > 1 := by
    refine UInt8.lt_iff_toNat_lt.mpr ?_
    rw [hn]
    exact (show 1 < 3 + l.length by omega)
  have htype : (store s 0 ([typeRequest, 1, target] ++ l)).derived 0 = typeRequest := by
    show s.derived.write 0 ([typeRequest, 1, target] ++ l) 0 = typeRequest
    simp [Mem.write]
  rw [handleReceived, hblen, hbuf]
  refine (if_pos (UInt8.le_of_lt hone)).trans ?_
  refine (if_neg (by rw [note, htype]; decide)).trans ?_
  exact if_pos ⟨hdest, hone, htype⟩

/-- Peeking at a request finds neither a response nor a failure. -/
theorem peeked_request
    (hdata : f.data = discovery broadcastAddress source hops id flags typeRequest target l)
    (hlen : f.data.length ≤ maxMessageLen) :
    peeked s f = ((s.taken f).note [.octet 5]).note [.octet 0] ∧ (peeked s f).Here := by
  have hst := stored_discovery hdata hlen s.tmpMessage
  have hlong : f.storedLen > 1 := by
    refine UInt8.lt_iff_toNat_lt.mpr ?_
    rw [hst.len]
    exact (show 1 < 8 + l.length by omega)
  have h5 : (s.taken f).tmpMessage 5 = typeRequest := hst.msgType_eq
  have hpeek : peekAtMessage (s.taken f) f.storedLen = (s.taken f).note [.octet 5] := by
    rw [peekAtMessage, if_pos hlong, h5]
    exact (if_neg (by decide)).trans (if_neg (by decide))
  have hpeeked : peeked s f = ((s.taken f).note [.octet 5]).note [.octet 0] := by
    rw [peeked, hpeek]
  refine ⟨hpeeked, ?_⟩
  rw [hpeeked]
  exact .inr hst.dest_eq

/-- What `recvfromAck` does to record the routes to the originator and to the
earlier nodes of a request. -/
def recordRoutes (s : RHMesh) (source tmpMessageLen : UInt8) : RHMesh :=
  let numRoutes := tmpMessageLen - UInt8.ofNat meshHeaderLen - 2
  let route := fun i => s.derived (3 + i)
  let j := listed s route numRoutes.toNat
  let s := s.note (.entries numRoutes :: seekAccesses j numRoutes.toNat)
  learn (s.addRouteTo source s.rxHeaderFrom) route (List.range numRoutes.toNat)

/-- The members once `recvfromAck` has recorded the routes, before it answers
the request or sends it on. -/
def recorded (link : List Frame → LinkAnswer) (s : RHMesh) (f : Frame) : RHMesh :=
  match RHRouter.recvfromAck (virtuals link) s f meshMessageSize with
  | (none, s) => s
  | (some r, s) =>
    recordRoutes ((store s 0 r.buf).note [.octet 5]) r.source (UInt8.ofNat r.buf.length)

/-- A request comes through to `handleRequest`, with nothing learned yet. -/
theorem recvfromAck_request (link : List Frame → LinkAnswer) (htakes : s.Takes f)
    (hdata : f.data = discovery broadcastAddress source hops id flags typeRequest target l)
    (hlen : f.data.length ≤ maxMessageLen) (len : UInt8) :
    ∃ a,
      let t := { s.taken f with
        derived := s.derived.write 0 ([typeRequest, 1, target] ++ l), accesses := a }
      recvfromAck link s f len =
        (none, handleRequest link t source (UInt8.ofNat (3 + l.length))) ∧
      recorded link s f = recordRoutes t source (UInt8.ofNat (3 + l.length)) := by
  have hst := stored_discovery hdata hlen s.tmpMessage
  have hfits := hst.fits
  obtain ⟨hpeeked, hhere⟩ := peeked_request (s := s) hdata hlen
  have hlen5 : routedHeaderLen ≤ f.storedLen.toNat := by
    rw [hst.len, routedHeaderLen]
    omega
  have hdeliver := deliver_meshMessageSize (peeked s f) hlen5
  have hbuf : (peeked s f).tmpMessage.load routedHeaderLen (f.storedLen.toNat - routedHeaderLen) =
      [typeRequest, 1, target] ++ l := by
    rw [hst.len, hpeeked, ← hst.data]
    congr 1
    rw [routedHeaderLen]
    omega
  have hdest : (peeked s f).tmpMessage 0 = broadcastAddress := by
    rw [hpeeked]
    exact hst.dest_eq
  have hsource : (peeked s f).tmpMessage 1 = source := by
    rw [hpeeked]
    exact hst.source_eq
  have hblen : ([typeRequest, 1, target] ++ l).length = 3 + l.length := by
    rw [List.length_append]
    rfl
  have hrecv : RHRouter.recvfromAck (virtuals link) s f meshMessageSize =
      (some ((peeked s f).deliver f.storedLen meshMessageSize).1,
        ((peeked s f).deliver f.storedLen meshMessageSize).2) := by
    rw [recvfromAck_of_takes htakes]
    exact if_pos hhere
  rw [recvfromAck_here htakes hhere, hdeliver, handleReceived_request hbuf hdest hfits, recorded,
    hrecv, hdeliver, hbuf, hsource]
  dsimp only
  rw [hblen, hpeeked]
  exact ⟨_, rfl, rfl⟩

/-- The list of a request, where `handleRequest` reads it. -/
theorem derived_list {m : Mem} (hder : t.derived = m.write 0 ([typeRequest, 1, target] ++ l)) :
    (List.range l.length).map (fun i => t.derived (3 + i)) = l := by
  refine List.ext_getElem (by simp) ?_
  intro i hi hil
  rw [List.getElem_map, List.getElem_range, hder, Mem.write_append]
  exact Mem.write_get hil _ 3

theorem listed_lt_iff {route : ℕ → UInt8} (h : (List.range l.length).map route = l) :
    listed t route l.length < l.length ↔ t.thisAddress ∈ l := by
  rw [listed, h, List.findIdx_lt_length]
  simp

/-- The number of entries, in eight bits. -/
theorem numRoutes_request (n : ℕ) :
    UInt8.ofNat (3 + n) - UInt8.ofNat meshHeaderLen - 2 = UInt8.ofNat n := by
  refine UInt8.toNat_inj.mp ?_
  show (UInt8.ofNat (3 + n) - 1 - 2).toNat = _
  simp only [UInt8.toNat_sub, UInt8.toNat_ofNat', UInt8.reduceToNat]
  omega

/-- A request that has been here already is dropped. -/
theorem handleRequest_listed (link : List Frame → LinkAnswer) {m : Mem}
    (hder : t.derived = m.write 0 ([typeRequest, 1, target] ++ l)) (hfits : 8 + l.length ≤ 251)
    (h : source = t.thisAddress ∨ t.thisAddress ∈ l) :
    ∃ a, handleRequest link t source (UInt8.ofNat (3 + l.length)) = { t with accesses := a } := by
  rw [handleRequest]
  split
  · exact ⟨t.accesses, rfl⟩
  · rename_i hne
    have hn : (UInt8.ofNat l.length).toNat = l.length :=
      UInt8.toNat_ofNat_of_lt' (show l.length < 256 by omega)
    have hmem := (listed_lt_iff (derived_list hder)).mpr (h.resolve_left hne)
    dsimp only
    rw [numRoutes_request, hn, if_pos hmem]
    exact ⟨_, rfl⟩

/-- The routes to the originator and to the earlier nodes. -/
theorem recordRoutes_eq (source : UInt8) {m : Mem}
    (hder : t.derived = m.write 0 ([typeRequest, 1, target] ++ l)) (hfits : 8 + l.length ≤ 251) :
    ∃ a, recordRoutes t source (UInt8.ofNat (3 + l.length)) =
      { t with
        routes := (source :: l).foldl (fun r d => r.addRouteTo d t.rxHeaderFrom) t.routes
        accesses := a } := by
  have hn : (UInt8.ofNat l.length).toNat = l.length :=
    UInt8.toNat_ofNat_of_lt' (show l.length < 256 by omega)
  rw [recordRoutes, numRoutes_request, hn]
  set u := (t.note (.entries (UInt8.ofNat l.length) ::
    seekAccesses (listed t (fun i => t.derived (3 + i)) l.length) l.length)).addRouteTo source
      t.rxHeaderFrom with hu
  obtain ⟨r, a, h⟩ := learn_eq u (fun i => t.derived (3 + i)) (List.range l.length)
  have hr := learn_routes u (fun i => t.derived (3 + i)) (List.range l.length)
  rw [h, derived_list hder] at hr
  refine ⟨a, h.trans ?_⟩
  rw [show r = _ from hr]
  rfl

/-- Any other is learned from, and answered or sent on. -/
theorem handleRequest_new (link : List Frame → LinkAnswer) {m : Mem}
    (hder : t.derived = m.write 0 ([typeRequest, 1, target] ++ l)) (hfits : 8 + l.length ≤ 251)
    (hsource : source ≠ t.thisAddress) (hlist : t.thisAddress ∉ l) :
    handleRequest link t source (UInt8.ofNat (3 + l.length)) =
      answerRequest link (recordRoutes t source (UInt8.ofNat (3 + l.length))) source
        (UInt8.ofNat (3 + l.length)) (UInt8.ofNat l.length) := by
  have hn : (UInt8.ofNat l.length).toNat = l.length :=
    UInt8.toNat_ofNat_of_lt' (show l.length < 256 by omega)
  have hmem := mt (listed_lt_iff (derived_list hder)).mp hlist
  rw [handleRequest, if_neg hsource, recordRoutes]
  dsimp only
  rw [numRoutes_request, hn, if_neg hmem]

/-- A request that has been here already is dropped. -/
theorem request_listed (link : List Frame → LinkAnswer) (htakes : s.Takes f)
    (hdata : f.data = discovery broadcastAddress source hops id flags typeRequest target l)
    (hlen : f.data.length ≤ maxMessageLen) (h : source = s.thisAddress ∨ s.thisAddress ∈ l)
    (len : UInt8) : Handled s f [] none (recvfromAck link s f len).2 := by
  obtain ⟨a, hreq, -⟩ := recvfromAck_request link htakes hdata hlen len
  have hfits := (stored_discovery hdata hlen s.tmpMessage).fits
  have h' : source = (s.taken f).thisAddress ∨ (s.taken f).thisAddress ∈ l := by
    rwa [taken_thisAddress]
  obtain ⟨a', heq⟩ := handleRequest_listed link (t := { s.taken f with
    derived := s.derived.write 0 ([typeRequest, 1, target] ++ l), accesses := a }) rfl hfits h'
  rw [hreq, heq]
  exact Learned.handled ⟨rfl, rfl, fun _ _ => rfl, rfl, rfl⟩

/-- Any other is learned from. -/
theorem request_new (link : List Frame → LinkAnswer) (htakes : s.Takes f)
    (hdata : f.data = discovery broadcastAddress source hops id flags typeRequest target l)
    (hlen : f.data.length ≤ maxMessageLen) (hsource : source ≠ s.thisAddress)
    (hlist : s.thisAddress ∉ l) (len : UInt8) :
    Learned s f (source :: l) (recorded link s f) ∧
      (recorded link s f).derived = s.derived.write 0 ([typeRequest, 1, target] ++ l) ∧
      (recorded link s f).lastE2ESequenceNumber = s.lastE2ESequenceNumber ∧
      recvfromAck link s f len = (none, answerRequest link (recorded link s f) source
        (UInt8.ofNat (3 + l.length)) (UInt8.ofNat l.length)) := by
  obtain ⟨a, hreq, hrec⟩ := recvfromAck_request link htakes hdata hlen len
  have hfits := (stored_discovery hdata hlen s.tmpMessage).fits
  have hthis := taken_thisAddress s f
  set t : RHMesh := { s.taken f with
    derived := s.derived.write 0 ([typeRequest, 1, target] ++ l), accesses := a } with ht
  have hder : t.derived = s.derived.write 0 ([typeRequest, 1, target] ++ l) := rfl
  have hnew := handleRequest_new link hder hfits (hthis ▸ hsource) (hthis ▸ hlist)
  obtain ⟨a', heq⟩ := recordRoutes_eq source hder hfits
  rw [hreq, hnew, ← hrec]
  rw [← hrec] at heq
  rw [heq]
  exact ⟨⟨rfl, rfl, fun _ _ => rfl, rfl, rfl⟩, rfl, rfl, rfl⟩

/-- The response to a request, as it is handed to `sendtoWait`. -/
theorem load_answer {u : RHMesh} {m : Mem}
    (hder : u.derived = m.write 0 ([typeRequest, 1, target] ++ l)) (hfits : 8 + l.length ≤ 251) :
    (store (u.note (physicalAccesses u)) 0 [typeResponse]).derived.load 0
      (UInt8.ofNat (3 + l.length)).toNat = [typeResponse, 1, target] ++ l := by
  have hn : (UInt8.ofNat (3 + l.length)).toNat = ([typeResponse, 1, target] ++ l).length := by
    rw [UInt8.toNat_ofNat_of_lt' (show 3 + l.length < 256 by omega), List.length_append]
    rfl
  show (u.derived.write 0 [typeResponse]).load 0 _ = _
  rw [hder, hn, Mem.write_set (i := 0) (by simp)]
  exact Mem.load_write_self _ _ _

/-- The request with this node at the end of its list. -/
theorem load_relay {u : RHMesh} {m : Mem}
    (hder : u.derived = m.write 0 ([typeRequest, 1, target] ++ l)) (hfits : 8 + l.length ≤ 251)
    (accesses : List Access) :
    (store (u.note accesses) (3 + (UInt8.ofNat l.length).toNat) [u.thisAddress]).derived.load 0
      (UInt8.ofNat (3 + l.length) + 1).toNat =
        [typeRequest, 1, target] ++ (l ++ [u.thisAddress]) := by
  have hn : (UInt8.ofNat l.length).toNat = l.length :=
    UInt8.toNat_ofNat_of_lt' (show l.length < 256 by omega)
  have hn' : (UInt8.ofNat (3 + l.length) + 1).toNat =
      ([typeRequest, 1, target] ++ (l ++ [u.thisAddress])).length := by
    simp only [UInt8.toNat_add, UInt8.toNat_ofNat', UInt8.reduceToNat, List.length_append,
      List.length_cons, List.length_nil]
    omega
  have hder' : u.derived.write (3 + l.length) [u.thisAddress] =
      m.write 0 ([typeRequest, 1, target] ++ (l ++ [u.thisAddress])) := by
    rw [hder, ← List.append_assoc, Mem.write_append _ 0 ([typeRequest, 1, target] ++ l)]
    congr 1
    rw [List.length_append, Nat.zero_add]
    rfl
  show (u.derived.write (3 + (UInt8.ofNat l.length).toNat) [u.thisAddress]).load 0 _ = _
  rw [hn, hder', hn']
  exact Mem.load_write_self _ _ _

/-- The request is for this node: the whole list goes back to its source. -/
theorem request_answered (htakes : s.Takes f)
    (hdata : f.data = discovery broadcastAddress source hops id flags typeRequest s.thisAddress l)
    (hlen : f.data.length ≤ maxMessageLen) (hsource : source ≠ s.thisAddress)
    (hlist : s.thisAddress ∉ l) {hop : UInt8} (hbc : source ≠ broadcastAddress)
    (hnext : (routesAfter s f (source :: l)).nextHop source = some hop) (hack : Acks link hop)
    (len : UInt8) :
    Handled s f (source :: l) (some (hop, discovery source s.thisAddress 0 s.lastE2ESequenceNumber
      0 typeResponse s.thisAddress l)) (recvfromAck link s f len).2 := by
  obtain ⟨hu, hder, he2e, heq⟩ := request_new link htakes hdata hlen hsource hlist len
  set u := recorded link s f
  clear_value u
  have hfits := (stored_discovery hdata hlen s.tmpMessage).fits
  have hthis : u.thisAddress = s.thisAddress := hu.handled.thisAddress
  have hphys : isPhysicalAddress u := by
    constructor
    · rw [hder]
      simp [Mem.write]
    · rw [hder, hthis]
      simp [Mem.write]
  rw [heq]
  show Handled s f _ _ (answerRequest link u source _ _)
  rw [answerRequest, if_pos hphys]
  dsimp only
  rw [sendtoWait, load_answer hder hfits]
  have hblen : ([typeResponse, 1, s.thisAddress] ++ l).length + routedHeaderLen ≤
      maxMessageLen := by
    rw [List.length_append]
    show 3 + l.length + 5 ≤ 251
    omega
  -- the response goes over the route just recorded
  obtain ⟨-, ht⟩ := sendtoFromSourceWait_transmits
    (store (u.note (physicalAccesses u)) 0 [typeResponse]) source u.thisAddress hblen
    (show (if source ≠ broadcastAddress then u.routes.nextHop source else _) = some hop by
      rw [if_pos hbc, hu.routes, hnext]) hack
  have hmsg : [source, u.thisAddress, 0, u.lastE2ESequenceNumber, 0] ++
      ([typeResponse, 1, s.thisAddress] ++ l) = discovery source s.thisAddress 0
        s.lastE2ESequenceNumber 0 typeResponse s.thisAddress l := by
    rw [hthis, he2e]
    rfl
  rw [← hmsg]
  exact hu.handled_sent ⟨ht.1, ht.2, ht.3, ht.4, ht.5, ht.6, ht.7, ht.8⟩

/-- The request is for another node: it is broadcast again, with this node at
the end of the list. -/
theorem request_relayed (link : List Frame → LinkAnswer) (htakes : s.Takes f)
    (hdata : f.data = discovery broadcastAddress source hops id flags typeRequest target l)
    (hlen : f.data.length < maxMessageLen) (hsource : source ≠ s.thisAddress)
    (hlist : s.thisAddress ∉ l) (htarget : target ≠ s.thisAddress)
    (hhops : UInt8.ofNat l.length < s.maxHops) (len : UInt8) :
    Handled s f (source :: l) (some (broadcastAddress, discovery broadcastAddress source 0
      s.lastE2ESequenceNumber 0 typeRequest target (l ++ [s.thisAddress])))
      (recvfromAck link s f len).2 := by
  obtain ⟨hu, hder, he2e, heq⟩ :=
    request_new link htakes hdata hlen.le hsource hlist len
  set u := recorded link s f
  clear_value u
  have hfits : 8 + l.length < 251 := by
    rw [hdata, length_discovery] at hlen
    exact hlen
  have hthis : u.thisAddress = s.thisAddress := hu.handled.thisAddress
  have hphys : ¬ isPhysicalAddress u := by
    rintro ⟨-, h2⟩
    refine htarget ?_
    rw [hder, hthis] at h2
    simpa [Mem.write] using h2
  set accesses : List Access := physicalAccesses u ++
    [Access.upTo (routeOctet + (UInt8.ofNat l.length).toNat + 1)] with hacc
  set v := store (u.note accesses) (3 + (UInt8.ofNat l.length).toNat) [u.thisAddress] with hv
  have hload : v.derived.load 0 (UInt8.ofNat (3 + l.length) + 1).toNat =
      [typeRequest, 1, target] ++ (l ++ [s.thisAddress]) := by
    rw [← hthis]
    exact load_relay hder hfits.le accesses
  rw [heq]
  show Handled s f _ _ (answerRequest link u source _ _)
  rw [answerRequest, if_neg hphys, if_pos (by rwa [hu.maxHops])]
  dsimp only
  rw [← hacc, ← hv, hload]
  have hblen : ([typeRequest, 1, target] ++ (l ++ [s.thisAddress])).length + routedHeaderLen ≤
      maxMessageLen := by
    rw [List.length_append, List.length_append]
    show 3 + (l.length + 1) + 5 ≤ 251
    omega
  have hack : Acks link broadcastAddress := .inl rfl
  -- the request goes out again under the name of its originator
  obtain ⟨-, ht⟩ := sendtoFromSourceWait_transmits v broadcastAddress source hblen
    (if_neg (not_not.mpr rfl)) hack
  have hmsg : [broadcastAddress, source, 0, u.lastE2ESequenceNumber, 0] ++
      ([typeRequest, 1, target] ++ (l ++ [s.thisAddress])) = discovery broadcastAddress source 0
        s.lastE2ESequenceNumber 0 typeRequest target (l ++ [s.thisAddress]) := by
    rw [he2e]
    rfl
  rw [← hmsg]
  exact hu.handled_sent ⟨ht.1, ht.2, ht.3, ht.4, ht.5, ht.6, ht.7, ht.8⟩

/-- The request has made all its hops, or is as long as a message can be: it
goes no further. -/
theorem request_exhausted (link : List Frame → LinkAnswer) (htakes : s.Takes f)
    (hdata : f.data = discovery broadcastAddress source hops id flags typeRequest target l)
    (hlen : f.data.length ≤ maxMessageLen) (hsource : source ≠ s.thisAddress)
    (hlist : s.thisAddress ∉ l) (htarget : target ≠ s.thisAddress)
    (hend : ¬ UInt8.ofNat l.length < s.maxHops ∨ f.data.length = maxMessageLen) (len : UInt8) :
    Handled s f (source :: l) none (recvfromAck link s f len).2 := by
  obtain ⟨hu, hder, he2e, heq⟩ := request_new link htakes hdata hlen hsource hlist len
  set u := recorded link s f
  clear_value u
  have hphys : ¬ isPhysicalAddress u := by
    rintro ⟨-, h2⟩
    refine htarget ?_
    rw [hder, hu.handled.thisAddress] at h2
    simpa [Mem.write] using h2
  rw [heq]
  show Handled s f _ _ (answerRequest link u source _ _)
  rw [answerRequest, if_neg hphys]
  split
  · -- one more entry makes it too long for the driver
    rename_i hlt
    rw [hu.maxHops] at hlt
    have hfull := hend.resolve_left (not_not.mpr hlt)
    rw [hdata, length_discovery] at hfull
    have hlong : maxMessageLen <
        ((store (u.note (physicalAccesses u ++
          [Access.upTo (routeOctet + (UInt8.ofNat l.length).toNat + 1)]))
          (3 + (UInt8.ofNat l.length).toNat) [u.thisAddress]).derived.load 0
            (UInt8.ofNat (3 + l.length) + 1).toNat).length + routedHeaderLen := by
      rw [Mem.length_load]
      rw [maxMessageLen] at hfull ⊢
      rw [routedHeaderLen]
      simp only [UInt8.toNat_add, UInt8.toNat_ofNat', UInt8.reduceToNat]
      omega
    dsimp only
    rw [sendtoFromSourceWait, if_pos hlong]
    exact (hu.aside _ _).handled
  · exact (hu.aside _ _).handled

/-! ### Responses -/

/-- The entries of a response that `peekAtMessage` adds routes to: from the
second one after this node on, and with them the octet `stale` that lies behind
the list. -/
def scraped (thisAddress : UInt8) (l : List UInt8) (stale : UInt8) : List UInt8 :=
  (l ++ [stale]).drop (l.findIdx (· = thisAddress) + 2)

/-- What a node learns from a response, with the octets of `m` behind it. -/
def learnedFrom (s : RHMesh) (target : UInt8) (l : List UInt8) : List UInt8 :=
  target :: scraped s.thisAddress l (s.tmpMessage (routeOctet + l.length))

theorem target_mem_learnedFrom (s : RHMesh) (target : UInt8) (l : List UInt8) :
    target ∈ learnedFrom s target l := List.mem_cons_self

theorem map_range' {route : ℕ → UInt8} (h : (List.range l.length).map route = l) (i : ℕ) :
    (List.range' (i + 1) (l.length - i)).map route = (l ++ [route l.length]).drop (i + 1) := by
  have hall : (List.range (l.length + 1)).map route = l ++ [route l.length] := by
    rw [List.range_succ, List.map_append, h]
    rfl
  rw [← hall, ← List.map_drop, List.range_eq_range', List.drop_range', Nat.add_sub_add_right,
    Nat.zero_add, Nat.mul_one]

/-- `peekAtMessage` at a response in `_tmpMessage`. -/
theorem peekAtMessage_response {n : UInt8} (hn : n.toNat = routeOctet + l.length)
    (h5 : s.tmpMessage 5 = typeResponse) (h7 : s.tmpMessage 7 = target)
    (hlist : ∀ i (h : i < l.length), s.tmpMessage (routeOctet + i) = l[i]) :
    ∃ a, peekAtMessage s n =
      { s with
        routes := (learnedFrom s target l).foldl (fun t d => t.addRouteTo d s.rxHeaderFrom)
          s.routes
        accesses := a } := by
  rw [routeOctet] at hn
  have hlong : n > 1 := UInt8.lt_iff_toNat_lt.mpr (by
    rw [hn]
    exact (show 1 < 8 + l.length by omega))
  have hfits : 8 + l.length < 256 := hn ▸ n.toNat_lt
  have hpeek : peekAtMessage s n = peekAtResponse (s.note [.octet 5]) n := by
    rw [peekAtMessage, if_pos hlong]
    exact if_pos h5
  have hnum : (n - UInt8.ofNat routedHeaderLen - UInt8.ofNat meshHeaderLen - 2).toNat =
      l.length := by
    rw [numRoutes_toNat (by rw [hn, routeOctet]; omega), hn, routeOctet]
    omega
  rw [hpeek, peekAtResponse]
  set t := ((s.note [.octet 5]).note [.octet 7]).addRouteTo
    ((s.note [.octet 5]).tmpMessage 7) (s.note [.octet 5]).rxHeaderFrom with ht
  set route : ℕ → UInt8 := fun i => t.tmpMessage (routeOctet + i) with hroute
  rw [hnum]
  have hmap : (List.range l.length).map route = l := by
    refine List.ext_getElem (by simp) ?_
    intro i hi hil
    rw [List.getElem_map, List.getElem_range]
    exact hlist i hil
  -- the scan stops at this node, or behind the list
  have hj : listed t route l.length = l.findIdx (· = s.thisAddress) := by
    rw [listed, hmap]
    rfl
  have hjle : l.findIdx (· = s.thisAddress) ≤ l.length := List.findIdx_le_length
  have hi : (UInt8.ofNat (l.findIdx (· = s.thisAddress)) + 1).toNat =
      l.findIdx (· = s.thisAddress) + 1 := by
    simp only [UInt8.toNat_add, UInt8.toNat_ofNat', UInt8.reduceToNat]
    omega
  rw [hj, hi]
  set u := t.note (.entries (n - UInt8.ofNat routedHeaderLen - UInt8.ofNat meshHeaderLen
    - 2) :: seekAccesses (l.findIdx (· = s.thisAddress)) l.length) with hu
  obtain ⟨r, a, h⟩ := learn_eq u route (List.range' (l.findIdx (· = s.thisAddress) + 1 + 1)
    (l.length - (l.findIdx (· = s.thisAddress) + 1)))
  have hr := learn_routes u route (List.range' (l.findIdx (· = s.thisAddress) + 1 + 1)
    (l.length - (l.findIdx (· = s.thisAddress) + 1)))
  rw [h, map_range' hmap] at hr
  have hroutes : r = (learnedFrom s target l).foldl (fun t d => t.addRouteTo d s.rxHeaderFrom)
      s.routes := by
    refine Eq.trans (show r = _ from hr) ?_
    show List.foldl _ (s.routes.addRouteTo (s.tmpMessage 7) _) _ = _
    rw [h7]
    rfl
  rw [h, ← hroutes]
  exact ⟨_, rfl⟩

/-- Peeking at a response. -/
theorem peeked_response {dest : UInt8}
    (hdata : f.data = discovery dest source hops id flags typeResponse target l)
    (hlen : f.data.length ≤ maxMessageLen) :
    ∃ a, peeked s f =
      { s.taken f with routes := routesAfter s f (learnedFrom s target l), accesses := a } := by
  have hst := stored_discovery hdata hlen s.tmpMessage
  obtain ⟨a, h⟩ := peekAtMessage_response (s := s.taken f) (n := f.storedLen)
    (by rw [hst.len, routeOctet]) hst.msgType_eq hst.target_eq hst.list
  have hlearned : learnedFrom (s.taken f) target l = learnedFrom s target l := by
    have hpast : (s.taken f).tmpMessage (routeOctet + l.length) =
        s.tmpMessage (routeOctet + l.length) := hst.past _ le_rfl
    rw [learnedFrom, learnedFrom, hpast, taken_thisAddress]
  rw [peeked, h, hlearned]
  exact ⟨_, rfl⟩

theorem learned_peeked {dest : UInt8}
    (hdata : f.data = discovery dest source hops id flags typeResponse target l)
    (hlen : f.data.length ≤ maxMessageLen) :
    Learned s f (learnedFrom s target l) (peeked s f) := by
  obtain ⟨a, hp⟩ := peeked_response (s := s) hdata hlen
  rw [hp]
  exact ⟨rfl, rfl, fun _ _ => rfl, rfl, rfl⟩

/-- A response for another node is passed on as long as it has hops left. -/
theorem response_away (link : List Frame → LinkAnswer) {dest : UInt8} (htakes : s.Takes f)
    (hdata : f.data = discovery dest source hops id flags typeResponse target l)
    (hlen : f.data.length ≤ maxMessageLen) (hdest : dest ≠ s.thisAddress)
    (hbc : dest ≠ broadcastAddress) (len : UInt8) :
    (recvfromAck link s f len).2 = if hops < s.maxHops
      then (route link (peeked s f).hopped f.storedLen).2 else (peeked s f).hopped := by
  have hst := stored_discovery hdata hlen s.tmpMessage
  obtain ⟨a, hp⟩ := peeked_response (s := s) hdata hlen
  have hthis : (peeked s f).thisAddress = s.thisAddress := (learned_peeked hdata hlen).handled.1
  have h0 : (peeked s f).tmpMessage 0 = dest := by
    rw [hp]
    exact hst.dest_eq
  have h2 : (peeked s f).tmpMessage 2 = hops := by
    rw [hp]
    exact hst.hops_eq
  have haway : ¬ (peeked s f).Here := by
    rintro (h | h)
    · exact hdest (h0.symm.trans (h.trans hthis))
    · exact hbc (h0.symm.trans h)
  rw [recvfromAck_away htakes haway, forward_eq, h2, (learned_peeked hdata hlen).maxHops]
  rfl

theorem response_forwarded {dest hop : UInt8} (htakes : s.Takes f)
    (hdata : f.data = discovery dest source hops id flags typeResponse target l)
    (hlen : f.data.length ≤ maxMessageLen) (hdest : dest ≠ s.thisAddress)
    (hbc : dest ≠ broadcastAddress) (hhops : hops < s.maxHops)
    (hnext : (routesAfter s f (learnedFrom s target l)).nextHop dest = some hop)
    (hack : Acks link hop) (len : UInt8) :
    Handled s f (learnedFrom s target l)
      (some (hop, discovery dest source (hops + 1) id flags typeResponse target l))
      (recvfromAck link s f len).2 := by
  have hst := stored_discovery hdata hlen s.tmpMessage
  have hfits := hst.fits
  obtain ⟨a, hp⟩ := peeked_response (s := s) hdata hlen
  set u := (peeked s f).hopped with hu
  -- the message with one more hop
  have hmsg : u.tmpMessage = (peeked s f).tmpMessage.write 0
      (discovery dest source (hops + 1) id flags typeResponse target l) := by
    have htmp : (peeked s f).tmpMessage = s.tmpMessage.write 0 f.data := by
      rw [hp]
      exact hst.message
    have h2 : (peeked s f).tmpMessage 2 = hops := by
      rw [hp]
      exact hst.hops_eq
    show (peeked s f).tmpMessage.write (0 + 2) [(peeked s f).tmpMessage 2 + 1] = _
    rw [h2, htmp, hdata, Mem.write_set (by rw [length_discovery]; omega),
      Mem.write_write (by rw [length_discovery, length_discovery])]
    rfl
  have hload : u.tmpMessage.load 0 f.storedLen.toNat =
      discovery dest source (hops + 1) id flags typeResponse target l := by
    rw [hmsg, hst.len, ← length_discovery dest source (hops + 1) id flags typeResponse target l]
    exact Mem.load_write_self _ _ _
  have hunext : u.nextHop = some hop := by
    have hroutes : u.routes = routesAfter s f (learnedFrom s target l) := by
      show (peeked s f).routes = _
      rw [hp]
    have hdest' : u.tmpMessage 0 = dest := by
      rw [hmsg]
      rfl
    rw [RHRouter.nextHop, hdest', hroutes]
    exact (if_pos hbc).trans hnext
  obtain ⟨-, ht⟩ := route_transmits hunext hack (by rw [hst.len]; exact hfits)
  rw [hload] at ht
  rw [response_away link htakes hdata hlen hdest hbc, if_pos hhops]
  refine (learned_peeked hdata hlen).handled_sent
    ⟨ht.1, ht.2, ht.3, ht.4, ht.5, ?_, ht.7, ht.8⟩
  exact ht.tmpMessage.trans hmsg

/-- A response that has made all its hops is dropped. -/
theorem response_exhausted (link : List Frame → LinkAnswer) {dest : UInt8} (htakes : s.Takes f)
    (hdata : f.data = discovery dest source hops id flags typeResponse target l)
    (hlen : f.data.length ≤ maxMessageLen) (hdest : dest ≠ s.thisAddress)
    (hbc : dest ≠ broadcastAddress) (hhops : ¬ hops < s.maxHops) (len : UInt8) :
    Handled s f (learnedFrom s target l) none (recvfromAck link s f len).2 := by
  have h := learned_peeked (s := s) hdata hlen
  rw [response_away link htakes hdata hlen hdest hbc, if_neg hhops]
  generalize peeked s f = u at h ⊢
  refine Learned.handled ⟨h.datagram, h.maxHops, ?_, h.routes, h.sent⟩
  intro i hi
  refine Eq.trans ?_ (h.tmpMessage i hi)
  rw [routeOctet] at hi
  exact Mem.write_ge (show 2 + 1 ≤ i by omega)

theorem handleReceived_response {r : Received} (hbuf : r.buf = [typeResponse, 1, target] ++ l)
    (hfits : 8 + l.length ≤ 251) (len : UInt8) :
    handleReceived link s r len = (none, (store s 0 r.buf).note [.octet 5]) := by
  have hblen : r.buf.length = 3 + l.length := by
    rw [hbuf, List.length_append]
    rfl
  have hone : UInt8.ofNat r.buf.length ≥ 1 := by
    refine UInt8.le_iff_toNat_le.mpr ?_
    rw [hblen, UInt8.toNat_ofNat_of_lt' (show 3 + l.length < 256 by omega)]
    exact (show 1 ≤ 3 + l.length by omega)
  have htype : (store s 0 r.buf).derived 0 = typeResponse := by
    show s.derived.write 0 r.buf 0 = typeResponse
    simp [Mem.write, hbuf]
  have happ : (store s 0 r.buf).derived 0 ≠ typeApplication := by
    rw [htype]
    decide
  have hreq : (store s 0 r.buf).derived 0 ≠ typeRequest := by
    rw [htype]
    decide
  rw [handleReceived]
  exact (if_pos hone).trans ((if_neg happ).trans (if_neg fun h => hreq h.2.2))

/-- A response at its destination is learned from. -/
theorem response_home (htakes : s.Takes f)
    (hdata : f.data = discovery s.thisAddress source hops id flags typeResponse target l)
    (hlen : f.data.length ≤ maxMessageLen) (len : UInt8) :
    Handled s f (learnedFrom s target l) none (recvfromAck link s f len).2 := by
  have hst := stored_discovery hdata hlen s.tmpMessage
  have hfits := hst.fits
  have h := learned_peeked (s := s) hdata hlen
  obtain ⟨a, hp⟩ := peeked_response (s := s) hdata hlen
  have hhere : (peeked s f).Here := by
    refine .inl (Eq.trans ?_ h.handled.thisAddress.symm)
    rw [hp]
    exact hst.dest_eq
  have hdeliver := deliver_meshMessageSize (peeked s f) (n := f.storedLen)
    (by rw [hst.len, routedHeaderLen]; omega)
  have hbuf : ((peeked s f).deliver f.storedLen meshMessageSize).1.buf =
      [typeResponse, 1, target] ++ l := by
    rw [hdeliver, hst.len, ← hst.data, hp]
    show (stored f s.tmpMessage).load 5 (8 + l.length - 5) = _
    rw [show 8 + l.length - 5 = 3 + l.length by omega]
    rfl
  rw [recvfromAck_here htakes hhere, handleReceived_response hbuf hfits]
  generalize peeked s f = u at h ⊢
  exact (h.aside _ _).handled

/-! ### In the wait loop of `doArp` -/

/-- A message for this node in the wait loop: a response of two octets at least
ends it, as far as `messageLen` lets them in. -/
theorem arpReceive_got (link : List Frame → LinkAnswer) (htakes : s.Takes f)
    (hhere : (peeked s f).Here) (hlong : 6 ≤ f.storedLen.toNat) (address messageLen : UInt8) :
    ∃ n d a, (1 < n ↔ 1 < messageLen ∧ 6 < f.storedLen.toNat) ∧
      (RHRouter.recvfromAck (virtuals link) s f messageLen).1.isSome ∧
      arpReceive link s address messageLen f =
        (let u := { peeked s f with derived := d, accesses := a }
        if 1 < n ∧ u.tmpMessage 5 = typeResponse then (true, n, u.addRouteTo address u.rxHeaderFrom)
        else (false, n, u)) := by
  set r := (peeked s f).deliver f.storedLen messageLen with hr
  set k := if messageLen > f.storedLen - UInt8.ofNat routedHeaderLen
    then f.storedLen - UInt8.ofNat routedHeaderLen else messageLen with hk
  have hsub : (f.storedLen - UInt8.ofNat routedHeaderLen).toNat = f.storedLen.toNat - 5 :=
    UInt8.toNat_sub_of_le _ _
      (UInt8.le_iff_toNat_le.mpr (show 5 ≤ f.storedLen.toNat by omega))
  have hk1 : 1 < k ↔ 1 < messageLen ∧ 6 < f.storedLen.toNat := by
    rw [hk, UInt8.lt_iff_toNat_lt, UInt8.lt_iff_toNat_lt]
    split
    · rename_i hlt
      have := UInt8.lt_iff_toNat_lt.mp hlt
      rw [hsub] at this ⊢
      simp only [UInt8.reduceToNat]
      omega
    · rename_i hle
      have := UInt8.le_iff_toNat_le.mp (UInt8.not_lt.mp hle)
      rw [hsub] at this
      simp only [UInt8.reduceToNat]
      omega
  have hbuf : r.1.buf = (peeked s f).tmpMessage.load routedHeaderLen k.toNat := rfl
  have hlen : UInt8.ofNat r.1.buf.length = k := by
    rw [hbuf, Mem.length_load]
    exact UInt8.ofNat_toNat
  have htype : 1 < k → (store r.2 0 r.1.buf).derived 0 = (peeked s f).tmpMessage 5 := by
    intro hpos
    have h0 : 0 < r.1.buf.length := by
      rw [hbuf, Mem.length_load]
      exact lt_trans Nat.zero_lt_one (UInt8.lt_iff_toNat_lt.mp hpos)
    have := Mem.write_get h0 (peeked s f).derived 0
    rw [Nat.add_zero] at this
    refine this.trans ?_
    simp only [hbuf, Mem.getElem_load]
    rfl
  have hrecv : RHRouter.recvfromAck (virtuals link) s f messageLen = (some r.1, r.2) := by
    rw [recvfromAck_of_takes htakes]
    exact if_pos hhere
  refine ⟨k, (store r.2 0 r.1.buf).derived, r.2.accesses, hk1, by rw [hrecv]; rfl, ?_⟩
  rw [arpReceive, hrecv]
  show (if UInt8.ofNat r.1.buf.length > 1 ∧ (store r.2 0 r.1.buf).derived 0 = typeResponse
    then _ else _) = _
  rw [hlen]
  by_cases hpos : 1 < k
  · rw [htype hpos]
    rfl
  · rw [if_neg fun h => hpos h.1]
    exact (if_neg fun h => hpos h.1).symm

/-- While `messageLen` is long enough, only a response ends the wait. -/
theorem arpReceive_here (link : List Frame → LinkAnswer) (htakes : s.Takes f)
    (hhere : (peeked s f).Here) (hlong : 7 ≤ f.storedLen.toNat) (address : UInt8)
    {messageLen : UInt8} (hml : 1 < messageLen) :
    ∃ n d a, 1 < n ∧ arpReceive link s address messageLen f =
      (let u := { peeked s f with derived := d, accesses := a }
      if u.tmpMessage 5 = typeResponse then (true, n, u.addRouteTo address u.rxHeaderFrom)
      else (false, n, u)) := by
  obtain ⟨n, d, a, hn, -, heq⟩ :=
    arpReceive_got link htakes hhere (show 6 ≤ _ by omega) address messageLen
  have hn := hn.mpr ⟨hml, hlong⟩
  refine ⟨n, d, a, hn, heq.trans ?_⟩
  simp only [hn, true_and]

/-- A request comes back to its originator while it waits. -/
theorem arp_request (link : List Frame → LinkAnswer) (htakes : s.Takes f)
    (hdata : f.data = discovery broadcastAddress source hops id flags typeRequest target l)
    (hlen : f.data.length ≤ maxMessageLen) (address : UInt8) {messageLen : UInt8}
    (hml : 1 < messageLen) :
    ∃ n t, 1 < n ∧ arpReceive link s address messageLen f = (false, n, t) ∧
      Handled s f [] none t := by
  have hst := stored_discovery hdata hlen s.tmpMessage
  obtain ⟨hpeeked, hhere⟩ := peeked_request (s := s) hdata hlen
  obtain ⟨n, d, a, hn, heq⟩ := arpReceive_here link htakes hhere
    (by rw [hst.len]; omega) address hml
  refine ⟨n, _, hn, heq.trans (if_neg ?_), ?_⟩
  · show (peeked s f).tmpMessage 5 ≠ typeResponse
    have h5 : (peeked s f).tmpMessage 5 = typeRequest := by
      rw [hpeeked]
      exact hst.msgType_eq
    rw [h5]
    decide
  · rw [hpeeked]
    exact Learned.handled ⟨rfl, rfl, fun _ _ => rfl, rfl, rfl⟩

/-- The response reaches the originator while it waits: the discovery is over. -/
theorem arp_response (link : List Frame → LinkAnswer) (htakes : s.Takes f)
    (hdata : f.data = discovery s.thisAddress source hops id flags typeResponse target l)
    (hlen : f.data.length ≤ maxMessageLen) (address : UInt8) {messageLen : UInt8}
    (hml : 1 < messageLen) :
    ∃ n t, 1 < n ∧ arpReceive link s address messageLen f = (true, n, t) ∧
      Handled s f (learnedFrom s target l ++ [address]) none t := by
  have hst := stored_discovery hdata hlen s.tmpMessage
  have h := learned_peeked (s := s) hdata hlen
  obtain ⟨a₀, hp⟩ := peeked_response (s := s) hdata hlen
  have hhere : (peeked s f).Here := by
    refine .inl (Eq.trans ?_ h.handled.thisAddress.symm)
    rw [hp]
    exact hst.dest_eq
  obtain ⟨n, d, a, hn, heq⟩ := arpReceive_here link htakes hhere
    (by rw [hst.len]; omega) address hml
  refine ⟨n, _, hn, heq.trans (if_pos ?_), ?_⟩
  · show (peeked s f).tmpMessage 5 = typeResponse
    rw [hp]
    exact hst.msgType_eq
  · refine Learned.handled ⟨h.datagram, h.maxHops, h.tmpMessage, ?_, h.sent⟩
    show (peeked s f).routes.addRouteTo address (peeked s f).rxHeaderFrom = _
    rw [h.routes, hp, routesAfter, routesAfter, List.foldl_append]
    rfl

theorem arpReceive_of_not_takes (link : List Frame → LinkAnswer) (h : ¬ s.Takes f)
    (address messageLen : UInt8) :
    arpReceive link s address messageLen f = (false, messageLen, s.skipped f) := by
  rw [arpReceive, RHRouter.recvfromAck_of_not_takes h]

end RHMesh
