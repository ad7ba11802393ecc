/-
Route discovery: `RHMesh` over `RHRouter`.

A node without a route to a destination broadcasts a request; every node that
hears it for the first time on its way appends its own address and broadcasts
it again, and the destination sends the whole list back as a response, which
is routed to the originator hop by hop.  On the way there the nodes note the
neighbour a request came from as the next hop back, on the way back that a
response came from as the next hop forth.

The messages live in two static buffers: octet `i` of `RHMesh::_tmpMessage` is
octet `i + 5` of the routed message it is taken from.

* `peekAtMessage`, `route`, `recvfromAck`, `doArp` — the functions of the class;
* `routeFuel_eq` — `route` calls itself once at most.
-/
import RadioHead.Router

/-- `RH_MESH_MESSAGE_TYPE_APPLICATION`. -/
def typeApplication : UInt8 := 0

/-- `RH_MESH_MESSAGE_TYPE_ROUTE_DISCOVERY_REQUEST`. -/
def typeRequest : UInt8 := 1

/-- `RH_MESH_MESSAGE_TYPE_ROUTE_DISCOVERY_RESPONSE`. -/
def typeResponse : UInt8 := 2

/-- `RH_MESH_MESSAGE_TYPE_ROUTE_FAILURE`. -/
def typeFailure : UInt8 := 3

/-- `sizeof(MeshMessageHeader)`. -/
def meshHeaderLen : ℕ := 1

/-- `sizeof(RHMesh::_tmpMessage)`. -/
def meshMessageSize : UInt8 := 250

/-- Where the list of a discovery message starts, among the octets of a routed
message. -/
def routeOctet : ℕ := 8

/-- A mesh node; what it adds to a router is `RHMesh::_tmpMessage`. -/
abbrev RHMesh := RHRouter Mem

namespace RHMesh

open RHRouter

/-- `RHMesh::_tmpMessage` is written at offset `off`. -/
def store (s : RHMesh) (off : ℕ) (l : List UInt8) : RHMesh :=
  { s with derived := s.derived.write off l }

/-- The loop that looks for this node in the list `route` of `n` entries: where
it stops. -/
def listed (s : RHMesh) (route : ℕ → UInt8) (n : ℕ) : ℕ :=
  ((List.range n).map route).findIdx (· = s.thisAddress)

/-- The octets that loop looks at. -/
def seekAccesses (j n : ℕ) : List Access :=
  (List.range (min (j + 1) n)).map fun i => .octet (routeOctet + i)

/-- `addRouteTo(d->route[i], headerFrom())` for each of the entries `idx`. -/
def learn (s : RHMesh) (route : ℕ → UInt8) (idx : List ℕ) : RHMesh :=
  idx.foldl (fun s i => (s.note [.octet (routeOctet + i)]).addRouteTo (route i) s.rxHeaderFrom) s

/-- `peekAtMessage` on a response: routes to all nodes behind this one. -/
def peekAtResponse (s : RHMesh) (messageLen : UInt8) : RHMesh :=
  let s := (s.note [.octet 7]).addRouteTo (s.tmpMessage 7) s.rxHeaderFrom
  let numRoutes := messageLen - UInt8.ofNat routedHeaderLen - UInt8.ofNat meshHeaderLen - 2
  let route := fun i => s.tmpMessage (routeOctet + i)
  let j := listed s route numRoutes.toNat
  let s := s.note (.entries numRoutes :: seekAccesses j numRoutes.toNat)
  -- `i++`, in eight bits, then `while (i++ < numRoutes)`: the entries after `i`
  let i := (UInt8.ofNat j + 1).toNat
  learn s route (List.range' (i + 1) (numRoutes.toNat - i))

/-- `RHMesh::peekAtMessage`. -/
def peekAtMessage (s : RHMesh) (messageLen : UInt8) : RHMesh :=
  if messageLen > 1 then
    let msgType := s.tmpMessage 5
    let s := s.note [.octet 5]
    if msgType = typeResponse then peekAtResponse s messageLen
    else if msgType = typeFailure then (s.note [.octet 6]).deleteRouteTo (s.tmpMessage 6)
    else s
  else s

/-- `RHMesh::route`, with fuel for the calls of itself it makes through
`sendtoWait`. -/
def routeFuel (link : List Frame → LinkAnswer) :
    ℕ → RHMesh → UInt8 → RouterError × RHMesh
  | 0, s, messageLen => RHRouter.route link s messageLen
  | fuel + 1, s, messageLen =>
    let sender := s.rxHeaderFrom
    let r := RHRouter.route link s messageLen
    if r.1 = .noRoute ∨ r.1 = .unableToDeliver then
      let dest := r.2.tmpMessage 0
      let source := r.2.tmpMessage 1
      let s := (r.2.note [.octet 0, .octet 1]).deleteRouteTo dest
      if source ≠ s.thisAddress then
        -- a message of another node: its originator is told
        let s := (store s 0 [typeFailure, dest]).addRouteTo source sender
        s.sendtoWait (routeFuel link fuel) (s.derived.load 0 (meshHeaderLen + 1)) source
      else (r.1, s)
    else r

/-- `RHMesh::route`. -/
def route (link : List Frame → LinkAnswer) : RHMesh → UInt8 → RouterError × RHMesh :=
  routeFuel link 2

/-- The `peekAtMessage` and `route` of a mesh node. -/
def virtuals (link : List Frame → LinkAnswer) : Virtuals Mem where
  peekAtMessage := peekAtMessage
  route := route link

/-- `isPhysicalAddress(&d->dest, d->destlen)`, for the message in
`RHMesh::_tmpMessage`. -/
def isPhysicalAddress (s : RHMesh) : Prop := s.derived 1 = 1 ∧ s.derived 2 = s.thisAddress

instance (s : RHMesh) : Decidable s.isPhysicalAddress := inferInstanceAs (Decidable (_ ∧ _))

/-- The octets it looks at. -/
def physicalAccesses (s : RHMesh) : List Access :=
  if s.derived 1 = 1 then [.octet 6, .octet 7] else [.octet 6]

/-- A request that lists this node neither as its source nor on its way: it is
answered, or sent on. -/
def answerRequest (link : List Frame → LinkAnswer) (s : RHMesh) (source : UInt8)
    (tmpMessageLen numRoutes : UInt8) : RHMesh :=
  if isPhysicalAddress s then
    let s := store (s.note (physicalAccesses s)) 0 [typeResponse]
    (s.sendtoWait (route link) (s.derived.load 0 tmpMessageLen.toNat) source).2
  else if numRoutes < s.maxHops then
    let accesses := physicalAccesses s ++ [.upTo (routeOctet + numRoutes.toNat + 1)]
    let s := store (s.note accesses) (3 + numRoutes.toNat) [s.thisAddress]
    (s.sendtoFromSourceWait (route link) (s.derived.load 0 (tmpMessageLen + 1).toNat)
      broadcastAddress source).2
  else s.note (physicalAccesses s)

/-- `recvfromAck` with a request in `RHMesh::_tmpMessage`. -/
def handleRequest (link : List Frame → LinkAnswer) (s : RHMesh) (source tmpMessageLen : UInt8) :
    RHMesh :=
  if source = s.thisAddress then s
  else
    let numRoutes := tmpMessageLen - UInt8.ofNat meshHeaderLen - 2
    let route := fun i => s.derived (3 + i)
    let j := listed s route numRoutes.toNat
    let s := s.note (.entries numRoutes :: seekAccesses j numRoutes.toNat)
    if j < numRoutes.toNat then s
    else
      -- routes to the originator and to the earlier nodes
      let s := learn (s.addRouteTo source s.rxHeaderFrom) route (List.range numRoutes.toNat)
      answerRequest link s source tmpMessageLen numRoutes

/-- `recvfromAck` from where the router has returned a message. -/
def handleReceived (link : List Frame → LinkAnswer) (s : RHMesh) (r : Received) (len : UInt8) :
    Option Received × RHMesh :=
  let s := store s 0 r.buf
  let tmpMessageLen := UInt8.ofNat r.buf.length
  if tmpMessageLen ≥ 1 then
    let s := s.note [.octet 5]
    if s.derived 0 = typeApplication then
      let msgLen := tmpMessageLen - UInt8.ofNat meshHeaderLen
      let n := if len > msgLen then msgLen else len
      (some { r with buf := s.derived.load meshHeaderLen n.toNat },
        s.note [.upTo (routedHeaderLen + meshHeaderLen + n.toNat)])
    else if r.dest = broadcastAddress ∧ tmpMessageLen > 1 ∧ s.derived 0 = typeRequest then
      (none, handleRequest link s r.source tmpMessageLen)
    else (none, s)
  else (none, s)

/-- `RHMesh::recvfromAck`, with the frame that is available and the space in
the caller's buffer. -/
def recvfromAck (link : List Frame → LinkAnswer) (s : RHMesh) (f : Frame) (len : UInt8) :
    Option Received × RHMesh :=
  match RHRouter.recvfromAck (virtuals link) s f meshMessageSize with
  | (none, s) => (none, s)
  | (some r, s) => handleReceived link s r len

/-! ### The list of a discovery message -/

/-- The length of the list, in eight bits. -/
theorem numRoutes_toNat {messageLen : UInt8} (h : routeOctet ≤ messageLen.toNat) :
    (messageLen - UInt8.ofNat routedHeaderLen - UInt8.ofNat meshHeaderLen - 2).toNat =
      messageLen.toNat - routeOctet := by
  show (messageLen - 5 - 1 - 2).toNat = messageLen.toNat - 8
  have := messageLen.toNat_lt
  rw [routeOctet] at h
  simp only [UInt8.toNat_sub, UInt8.reduceToNat]
  omega

theorem listed_le (s : RHMesh) (route : ℕ → UInt8) (n : ℕ) : listed s route n ≤ n := by
  refine List.findIdx_le_length.trans_eq ?_
  rw [List.length_map, List.length_range]

/-- The entries passed over are other nodes. -/
theorem ne_of_lt_listed {s : RHMesh} {route : ℕ → UInt8} {n i : ℕ} (h : i < listed s route n) :
    route i ≠ s.thisAddress := by
  rw [listed] at h
  have := List.not_of_lt_findIdx h
  rw [List.getElem_map, List.getElem_range] at this
  exact of_decide_eq_false this

/-- The entry stopped at is this node. -/
theorem listed_spec {s : RHMesh} {route : ℕ → UInt8} {n : ℕ} (h : listed s route n < n) :
    route (listed s route n) = s.thisAddress := by
  rw [listed] at h ⊢
  have hlt : ((List.range n).map route).findIdx (· = s.thisAddress) <
      ((List.range n).map route).length := by
    rwa [List.length_map, List.length_range]
  have := List.findIdx_getElem (w := hlt)
  rwa [List.getElem_map, List.getElem_range, decide_eq_true_eq] at this

/-! ### Discovery -/

/-- `doArp` up to its wait loop. -/
def beginArp (link : List Frame → LinkAnswer) (s : RHMesh) (address : UInt8) :
    RouterError × RHMesh :=
  let s := store s 0 [typeRequest, 1, address]
  s.sendtoWait (route link) (s.derived.load 0 (meshHeaderLen + 2)) broadcastAddress

/-- One message in the wait loop of `doArp`, `messageLen` being what the last
one left in it: if the address is resolved, and the new `messageLen`. -/
def arpReceive (link : List Frame → LinkAnswer) (s : RHMesh) (address messageLen : UInt8)
    (f : Frame) : Bool × UInt8 × RHMesh :=
  match RHRouter.recvfromAck (virtuals link) s f messageLen with
  | (none, s) => (false, messageLen, s)
  | (some r, s) =>
    let s := store s 0 r.buf
    let n := UInt8.ofNat r.buf.length
    if n > 1 ∧ s.derived 0 = typeResponse then (true, n, s.addRouteTo address s.rxHeaderFrom)
    else (false, n, s)

/-- The wait loop of `doArp`, with the frames that become available before it
times out. -/
def arpWait (link : List Frame → LinkAnswer) (address : UInt8) :
    RHMesh → UInt8 → List Frame → Bool × RHMesh
  | s, _, [] => (false, s)
  | s, messageLen, f :: fs =>
    match arpReceive link s address messageLen f with
    | (true, _, s) => (true, s)
    | (false, messageLen, s) => arpWait link address s messageLen fs

/-- `doArp`. -/
def doArp (link : List Frame → LinkAnswer) (s : RHMesh) (address : UInt8) (frames : List Frame) :
    Bool × RHMesh :=
  match beginArp link s address with
  | (.none, s) => arpWait link address s meshMessageSize frames
  | (_, s) => (false, s)

/-! ### `route` and itself -/

/-- `RHRouter::route` leaves the message as it is. -/
theorem route_keeps (link : List Frame → LinkAnswer) (s : RHMesh) (n : UInt8) :
    (RHRouter.route link s n).2.tmpMessage = s.tmpMessage ∧
      (RHRouter.route link s n).2.thisAddress = s.thisAddress := by
  rcases h : s.nextHop with _ | hop
  · rw [route_noRoute h]
    exact ⟨rfl, rfl⟩
  · rw [route_hop h]
    dsimp only
    rw [linkSendtoWait]
    split
    · exact ⟨rfl, rfl⟩
    · exact ⟨rfl, rfl⟩

/-- The router could not pass the message on. -/
def Fails (e : RouterError) : Prop := e = .noRoute ∨ e = .unableToDeliver

instance (e : RouterError) : Decidable (Fails e) := inferInstanceAs (Decidable (_ ∨ _))

/-- The octets of the report about the message in `_tmpMessage`. -/
def failureReport (s : RHMesh) : List UInt8 := [typeFailure, s.tmpMessage 0]

/-- The members when the route of a message that failed has been deleted. -/
def dropped (link : List Frame → LinkAnswer) (s : RHMesh) (n : UInt8) : RHMesh :=
  ((RHRouter.route link s n).2.note [.octet 0, .octet 1]).deleteRouteTo (s.tmpMessage 0)

/-- The members when the report is handed to `sendtoWait`. -/
def reporting (link : List Frame → LinkAnswer) (s : RHMesh) (n : UInt8) : RHMesh :=
  (store (dropped link s n) 0 s.failureReport).addRouteTo (s.tmpMessage 1) s.rxHeaderFrom

section RouteFuel

variable (link : List Frame → LinkAnswer) (fuel : ℕ) {s : RHMesh} {n : UInt8}

/-- A message that is passed on is left to the router. -/
theorem routeFuel_passed (h : ¬ Fails (RHRouter.route link s n).1) :
    routeFuel link (fuel + 1) s n = RHRouter.route link s n := by
  rw [routeFuel]
  exact if_neg h

/-- A message of the node's own that fails is not reported to anyone. -/
theorem routeFuel_dropped (h : Fails (RHRouter.route link s n).1)
    (hown : s.tmpMessage 1 = s.thisAddress) :
    routeFuel link (fuel + 1) s n = ((RHRouter.route link s n).1, dropped link s n) := by
  obtain ⟨hmsg, hthis⟩ := route_keeps link s n
  rw [routeFuel, dropped, ← hmsg]
  rcases hr : RHRouter.route link s n with ⟨e, t⟩
  rw [hr] at h hmsg hthis
  have hskip : ¬ t.tmpMessage 1 ≠ t.thisAddress := not_not.mpr (hmsg ▸ hthis ▸ hown)
  exact (if_pos h).trans (if_neg hskip)

/-- One of another node is, by a message of the node's own. -/
theorem routeFuel_reported (h : Fails (RHRouter.route link s n).1)
    (hother : s.tmpMessage 1 ≠ s.thisAddress) :
    routeFuel link (fuel + 1) s n =
      (reporting link s n).sendtoWait (routeFuel link fuel) s.failureReport (s.tmpMessage 1) := by
  obtain ⟨hmsg, hthis⟩ := route_keeps link s n
  rw [routeFuel, reporting, dropped, failureReport, ← hmsg]
  rcases hr : RHRouter.route link s n with ⟨e, t⟩
  rw [hr] at h hmsg hthis
  have htell : t.tmpMessage 1 ≠ t.thisAddress := by rwa [hmsg, hthis]
  refine ((if_pos h).trans (if_pos htell)).trans ?_
  refine congrArg (fun buf => RHRouter.sendtoWait (routeFuel link fuel) _ buf (t.tmpMessage 1) 0) ?_
  exact Mem.load_write_self _ 0 [typeFailure, t.tmpMessage 0]

end RouteFuel

/-- A message of the node's own never needs the fuel. -/
theorem routeFuel_own (link : List Frame → LinkAnswer) (fuel : ℕ) {s : RHMesh} (n : UInt8)
    (h : s.tmpMessage 1 = s.thisAddress) :
    routeFuel link (fuel + 1) s n = routeFuel link 1 s n := by
  by_cases hfail : Fails (RHRouter.route link s n).1
  · rw [routeFuel_dropped link fuel hfail h, routeFuel_dropped link 0 hfail h]
  · rw [routeFuel_passed link fuel hfail, routeFuel_passed link 0 hfail]

/-- `sendtoWait` hands a message of the node's own to `route`. -/
theorem sendtoWait_congr {r r' : RHMesh → UInt8 → RouterError × RHMesh}
    (h : ∀ (s : RHMesh) n, s.tmpMessage 1 = s.thisAddress → r s n = r' s n) (s : RHMesh)
    (buf : List UInt8) (dest : UInt8) : s.sendtoWait r buf dest = s.sendtoWait r' buf dest := by
  rw [RHRouter.sendtoWait, RHRouter.sendtoWait, sendtoFromSourceWait, sendtoFromSourceWait]
  split
  · rfl
  · refine h _ _ ?_
    show s.tmpMessage.write 0 ([dest, s.thisAddress, 0, s.lastE2ESequenceNumber, 0] ++ buf) 1 =
      s.thisAddress
    simp [Mem.write]

/-- `route` calls itself once at most: a failure is reported in a message of the
node's own. -/
theorem routeFuel_eq (link : List Frame → LinkAnswer) (fuel : ℕ) (s : RHMesh) (n : UInt8) :
    routeFuel link (fuel + 2) s n = route link s n := by
  rw [route]
  by_cases hfail : Fails (RHRouter.route link s n).1
  · by_cases hown : s.tmpMessage 1 = s.thisAddress
    · rw [routeFuel_dropped link (fuel + 1) hfail hown, routeFuel_dropped link 1 hfail hown]
    · rw [routeFuel_reported link (fuel + 1) hfail hown, routeFuel_reported link 1 hfail hown]
      exact sendtoWait_congr (fun s n h => routeFuel_own link fuel n h) _ _ _
  · rw [routeFuel_passed link (fuel + 1) hfail, routeFuel_passed link 1 hfail]

/-! ### What a received message runs through -/

/-- Learning routes changes the routes only. -/
theorem learn_eq (s : RHMesh) (route : ℕ → UInt8) (idx : List ℕ) :
    ∃ t a, learn s route idx = { s with routes := t, accesses := a } := by
  induction idx generalizing s with
  | nil => exact ⟨s.routes, s.accesses, rfl⟩
  | cons i idx ih =>
    obtain ⟨t, a, h⟩ := ih ((s.note [.octet (routeOctet + i)]).addRouteTo (route i) s.rxHeaderFrom)
    exact ⟨t, a, h⟩

/-- So does peeking at a message. -/
theorem peekAtMessage_eq (s : RHMesh) (n : UInt8) :
    ∃ t a, peekAtMessage s n = { s with routes := t, accesses := a } := by
  rw [peekAtMessage]
  split
  · dsimp only
    split
    · obtain ⟨t, a, h⟩ := learn_eq _ _ _
      exact ⟨t, a, h⟩
    · split
      · exact ⟨_, _, rfl⟩
      · exact ⟨_, _, rfl⟩
  · exact ⟨_, _, rfl⟩

instance (s : RHMesh) (f : Frame) : Decidable (s.Takes f) :=
  inferInstanceAs (Decidable (_ ∧ s.isNew f))

/-- The members when `RHRouter::recvfromAck` looks where the frame is to go. -/
def peeked (s : RHMesh) (f : Frame) : RHMesh :=
  (peekAtMessage (s.taken f) f.storedLen).note [.octet 0]

theorem peeked_eq (s : RHMesh) (f : Frame) :
    ∃ t a, peeked s f = { s.taken f with routes := t, accesses := a } := by
  obtain ⟨t, a, h⟩ := peekAtMessage_eq (s.taken f) f.storedLen
  exact ⟨t, a ++ [.octet 0], by rw [peeked, h]; rfl⟩

/-- The message it looks at is the frame's. -/
theorem peeked_tmpMessage (s : RHMesh) (f : Frame) :
    (peeked s f).tmpMessage = stored f s.tmpMessage := by
  obtain ⟨t, a, h⟩ := peeked_eq s f
  rw [h]
  rfl

theorem recvfromAck_of_not_takes {link : List Frame → LinkAnswer} {s : RHMesh} {f : Frame}
    (h : ¬ s.Takes f) (len : UInt8) : recvfromAck link s f len = (none, s.skipped f) := by
  rw [recvfromAck, RHRouter.recvfromAck_of_not_takes h]

/-- A message for this node goes on to `handleReceived`. -/
theorem recvfromAck_here {link : List Frame → LinkAnswer} {s : RHMesh} {f : Frame}
    (h : s.Takes f) (hh : (peeked s f).Here) (len : UInt8) :
    recvfromAck link s f len =
      handleReceived link ((peeked s f).deliver f.storedLen meshMessageSize).2
        ((peeked s f).deliver f.storedLen meshMessageSize).1 len := by
  have hd : (s.taken f).dispatch (virtuals link) f.storedLen meshMessageSize =
      (some _, _) := if_pos hh
  rw [recvfromAck, recvfromAck_of_takes h, hd]
  rfl

/-- A message for another one is forwarded. -/
theorem recvfromAck_away {link : List Frame → LinkAnswer} {s : RHMesh} {f : Frame}
    (h : s.Takes f) (hh : ¬ (peeked s f).Here) (len : UInt8) :
    recvfromAck link s f len = (none, (peeked s f).forward (virtuals link) f.storedLen) := by
  have hd : (s.taken f).dispatch (virtuals link) f.storedLen meshMessageSize =
      (none, _) := if_neg hh
  rw [recvfromAck, recvfromAck_of_takes h, hd]
  rfl

/-- `RHMesh::_tmpMessage` has room for all the data of a routed message. -/
theorem deliver_meshMessageSize (s : RHMesh) {n : UInt8} (h : routedHeaderLen ≤ n.toNat) :
    (s.deliver n meshMessageSize).1 =
      ⟨s.tmpMessage 1, s.tmpMessage 0, s.tmpMessage 3, s.tmpMessage 4,
        s.tmpMessage.load routedHeaderLen (n.toNat - routedHeaderLen)⟩ := by
  have hsub : (n - UInt8.ofNat routedHeaderLen).toNat = n.toNat - routedHeaderLen :=
    UInt8.toNat_sub_of_le _ _ (UInt8.le_iff_toNat_le.mpr h)
  have hall : (if meshMessageSize > n - UInt8.ofNat routedHeaderLen then
      n - UInt8.ofNat routedHeaderLen else meshMessageSize).toNat = n.toNat - routedHeaderLen := by
    split
    · exact hsub
    · rename_i hnot
      have hle := UInt8.le_iff_toNat_le.mp (UInt8.not_lt.mp hnot)
      rw [hsub] at hle
      have hn := n.toNat_lt
      show 250 = n.toNat - 5
      have : (250 : ℕ) ≤ n.toNat - 5 := hle
      omega
  show (⟨_, _, _, _, s.tmpMessage.load routedHeaderLen _⟩ : Received) = _
  rw [hall]

end RHMesh
