/-
Where the messages come from.

Nothing is on the air for no reason.  In a network of routers or of mesh nodes,
over any links and with any routing tables, a message is one that the
application of some node has sent, or it goes back to one through the messages
that nodes have handled: forwarded with one more hop, a request sent on with one
more node in its list, the answer to a request, or the report of a failure.  So
nothing is delivered that has not been sent, in these words and under this name,
and what the nodes tell each other about routes is true.

* `RHRouter.Handed`, `RHRouter.delivered_was_sent` — the messages of a network
  of routers;
* `Evokes` — what a mesh node sends on account of a message;
* `Traced`, `run_traced` — why a message of a mesh is on the air;
* `delivered_was_sent` — a message returned by `recvfromAck` has been sent;
* `response_true` — a response names a way that the request has gone;
* `failure_true` — a failure is reported by a node that had a message for the
  destination.
-/
import RadioHead.Flooding
import RadioHead.RouteFailure
import RadioHead.Swallowed

open Run Medium

namespace RHRouter

variable {β : Type} {s : RHRouter β} {f : Frame} {dest source hops id flags : UInt8}
  {buf : List UInt8}

/-! ### Routers -/

/-- The octets of a routed message, with its header. -/
def message (dest source hops id flags : UInt8) (buf : List UInt8) : List UInt8 :=
  [dest, source, hops, id, flags] ++ buf

/-- A message as it is sent on. -/
theorem forwarded_message (h : f.data = message dest source hops id flags buf) :
    f.forwarded = message dest source (hops + 1) id flags buf := by
  rw [Frame.forwarded, Frame.hops, h]
  rfl

/-- What is delivered of a message: its header, and as much of the rest as the
caller has room for. -/
theorem deliver_message {t : RHRouter β} {m : Mem} (hm : t.tmpMessage = stored f m)
    (hdata : f.data = message dest source hops id flags buf) (hmax : f.data.length ≤ maxMessageLen)
    (len : UInt8) :
    (t.deliver f.storedLen len).1 = ⟨source, dest, id, flags, buf.take len.toNat⟩ := by
  have hcount : f.data.length = routedHeaderLen + buf.length := by
    rw [hdata, message, List.length_append]
    rfl
  have hn : f.storedLen.toNat = routedHeaderLen + buf.length := by
    rw [storedLen_toNat, hcount, routedMessageSize]
    rw [hcount, maxMessageLen] at hmax
    omega
  have hget : ∀ i < routedHeaderLen, t.tmpMessage i = f.data.getD i 0 := by
    intro i hi
    rw [hm]
    exact getD_stored (by omega) hmax m
  -- the rest
  set msgLen := f.storedLen - UInt8.ofNat routedHeaderLen with hmsgLen
  have hmsg : msgLen.toNat = buf.length := by
    have hle : UInt8.ofNat routedHeaderLen ≤ f.storedLen := by
      rw [UInt8.le_iff_toNat_le, hn]
      exact Nat.le_add_right 5 _
    rw [hmsgLen, UInt8.toNat_sub_of_le _ _ hle, hn]
    exact Nat.add_sub_cancel_left _ _
  have hcopied : (if len > msgLen then msgLen else len).toNat = min len.toNat buf.length := by
    split_ifs with hlen
    · have := UInt8.lt_iff_toNat_lt.mp hlen
      omega
    · have := UInt8.le_iff_toNat_le.mp (UInt8.not_lt.mp hlen)
      omega
  have htake : f.data.take routedMessageSize = f.data := by
    refine List.take_of_length_le ?_
    rw [routedMessageSize]
    rw [maxMessageLen] at hmax
    omega
  have hload : t.tmpMessage.load routedHeaderLen
      (if len > msgLen then msgLen else len).toNat = buf.take len.toNat := by
    have hfits : routedHeaderLen + (if len > msgLen then msgLen else len).toNat ≤
        f.data.length := by omega
    have := Mem.load_write hfits m 0
    rw [Nat.zero_add] at this
    have hdrop : f.data.drop routedHeaderLen = buf := by
      rw [hdata]
      rfl
    rw [hm, stored, htake, this, hcopied, hdrop]
    exact List.take_eq_take_min.symm
  show (⟨t.tmpMessage 1, t.tmpMessage 0, t.tmpMessage 3, t.tmpMessage 4,
    t.tmpMessage.load routedHeaderLen (if len > msgLen then msgLen else len).toNat⟩ : Received) = _
  rw [hload, hget 0 (by decide), hget 1 (by decide), hget 3 (by decide), hget 4 (by decide), hdata]
  rfl

/-- A message that is returned is for this node, or for all, and is the frame's. -/
theorem recvfromAck_returns {link : List Frame → LinkAnswer} {r : Received} {len : UInt8}
    (hdata : f.data = message dest source hops id flags buf) (hmax : f.data.length ≤ maxMessageLen)
    (h : (s.recvfromAck (virtuals link) f len).1 = some r) :
    (dest = s.thisAddress ∨ dest = broadcastAddress) ∧
      r = ⟨source, dest, id, flags, buf.take len.toNat⟩ := by
  by_cases htakes : s.Takes f
  swap
  · rw [recvfromAck_of_not_takes htakes] at h
    cases h
  rw [recvfromAck_of_takes htakes, dispatch] at h
  set u : RHRouter β := (s.taken f).note [.octet 0] with hu
  have h0 : u.tmpMessage 0 = dest := by
    have hlong : 0 < f.data.length := by
      rw [hdata]
      exact Nat.zero_lt_succ _
    exact (getD_stored hlong hmax s.tmpMessage).trans (by rw [hdata]; rfl)
  have hdispatch : (if u.Here then some (u.deliver f.storedLen len).1 else none) = some r := by
    rw [← h]
    show _ = (if u.Here then _ else _ : Option Received × RHRouter β).1
    split <;> rfl
  obtain ⟨hhere, hr⟩ := Option.ite_none_right_eq_some.mp hdispatch
  rw [Here, h0, show u.thisAddress = s.thisAddress from taken_thisAddress s f] at hhere
  refine ⟨hhere, ?_⟩
  rw [← Option.some_inj.mp hr]
  exact deliver_message rfl hdata hmax len

/-- The message of the frame was handed to `sendtoFromSourceWait` at some node. -/
def Handed (nodes : Finset UInt8) (es : List (Event UInt8 RouterCall Handling))
    (data : List UInt8) : Prop :=
  ∃ v ∈ nodes, ∃ link buf dest source flags hops id,
    .call v (.sendtoFromSourceWait link buf dest source flags) ∈ es ∧
      data = message dest source hops id flags buf

theorem run_handed {nodes : Finset UInt8} {node : UInt8 → RHRouter β}
    {es : List (Event UInt8 RouterCall Handling)} {net : Net UInt8 (RHRouter β) Frame}
    (hrun : run (routerStep nodes) (start node) es = some net) :
    Holds nodes (fun _ _ => True)
      (fun p => p.frame.data.length ≤ maxMessageLen ∧ Handed nodes es p.frame.data) net := by
  refine run_holds_of_mem ?_ ?_ (fun _ _ => trivial) hrun
  · intro v hv e s hmem _
    refine ⟨trivial, ?_⟩
    cases e with
    | sendtoFromSourceWait link buf dest source flags =>
      have h : SendsOnly (fun data => ∃ id, data = message dest source 0 id flags buf) s
          (s.call (.sendtoFromSourceWait link buf dest source flags)) :=
        sendtoFromSourceWait_sends (fun s n h => route_sends link s h) s
          ⟨s.lastE2ESequenceNumber, rfl⟩
      intro g hg
      obtain ⟨-, hfits, id, hdata⟩ := h.toSends.sentSince hg
      exact ⟨hfits, v, hv, link, buf, dest, source, flags, 0, id, hmem, hdata⟩
    | setRoutes routes =>
      intro g hg
      have h : Sends (fun _ => False) s (s.call (.setRoutes routes)) := Sends.quiet rfl rfl rfl
      exact (h.sentSince hg).2.2.elim
  · rintro v hv d p s - ⟨hmax, w, hw, link, buf, dest, source, flags, hops, id, hmem, hdata⟩
    refine ⟨trivial, ?_⟩
    have hlen : routedHeaderLen ≤ p.frame.data.length := by
      rw [hdata, message, List.length_append]
      exact Nat.le_add_right 5 _
    intro g hg
    obtain ⟨-, hfits, hg, -⟩ := (recvfromAck_forwards d.link s hlen hmax d.len).sentSince hg
    exact ⟨hfits, w, hw, link, buf, dest, source, flags, hops + 1, id, hmem,
      hg.trans (forwarded_message hdata)⟩

/-- **Nothing is delivered that has not been sent.**  Whatever has been lost,
repeated or overtaken, and whatever the routing tables say, a message that a
router returns is for this router or for all, and was handed to
`sendtoFromSourceWait` somewhere, with the source, the destination and the flags
that are returned with it. -/
theorem routed_was_sent {nodes : Finset UInt8} {node : UInt8 → RHRouter β}
    {es : List (Event UInt8 RouterCall Handling)} {net : Net UInt8 (RHRouter β) Frame}
    (hrun : run (routerStep nodes) (start node) es = some net) {p : Flight UInt8 Frame}
    (hp : p ∈ net.air) (v : UInt8) {link : List Frame → LinkAnswer} {len : UInt8} {r : Received}
    (hr : ((net.node v).recvfromAck (virtuals link) p.frame len).1 = some r) :
    (r.dest = (net.node v).thisAddress ∨ r.dest = broadcastAddress) ∧
      ∃ w ∈ nodes, ∃ link' buf,
        .call w (.sendtoFromSourceWait link' buf r.dest r.source r.flags) ∈ es ∧
          r.buf = buf.take len.toNat := by
  obtain ⟨hmax, w, hw, link', buf, dest, source, flags, hops, id, hmem, hdata⟩ :=
    (run_handed hrun).air p hp
  obtain ⟨hhere, rfl⟩ := recvfromAck_returns hdata hmax hr
  exact ⟨hhere, w, hw, link', buf, hmem, rfl⟩

/-- Node 1 sends a message to node 2, its neighbour. -/
def toNeighbour : List (Event UInt8 RouterCall Handling) :=
  [.call 1 (.sendtoFromSourceWait silentLink [7, 8] 2 1 3)]

/-- Nodes 1 and 2 have routes to each other. -/
def neighbours (v : UInt8) : RHRouter Unit :=
  { constructed v () with routes := noRoutes.addRouteTo (3 - v) (3 - v) }

theorem toNeighbour_was_sent :
    ∃ net, run (routerStep {1, 2}) (start neighbours) toNeighbour = some net ∧ ∃ p ∈ net.air,
      ((net.node 2).recvfromAck (virtuals silentLink) p.frame 9).1 = some ⟨1, 2, 0, 3, [7, 8]⟩ ∧
      ∃ w ∈ ({1, 2} : Finset UInt8), ∃ link' buf,
        .call w (.sendtoFromSourceWait link' buf 2 1 3) ∈ toNeighbour ∧
          [7, 8] = buf.take (9 : UInt8).toNat := by
  have hrun : run (routerStep {1, 2}) (start neighbours) toNeighbour = some _ := rfl
  refine ⟨_, hrun, _, List.mem_cons_self, by decide, ?_⟩
  exact (@routed_was_sent Unit {1, 2} neighbours toNeighbour _ hrun _ List.mem_cons_self 2
    silentLink 9 ⟨1, 2, 0, 3, [7, 8]⟩ (by decide)).2

end RHRouter

namespace RHMesh

open RHRouter

variable {s : RHMesh} {f g : Frame} {source target : UInt8} {l : List UInt8}
  {link : List Frame → LinkAnswer} {P : List UInt8 → Prop}

/-- The type of a message is its first octet after the header. -/
theorem msgType_message {dest hops id flags msgType : UInt8} {buf : List UInt8}
    (h : f.data = message dest source hops id flags (msgType :: buf)) :
    f.data[5]? = some msgType := by
  rw [h]
  rfl

/-! ### What a mesh node sends -/

/-- A message of the node's own is sent, or not. -/
theorem route_own_emits (link : List Frame → LinkAnswer) {n : UInt8}
    (hown : s.tmpMessage 1 = s.thisAddress) (h : P (s.tmpMessage.load 0 n.toNat)) :
    SendsOnly P s (route link s n).2 := by
  have hroute := RHRouter.route_sends link s h
  by_cases hfail : Fails (RHRouter.route link s n).1
  · have hdropped : SendsOnly P s (dropped link s n) := hroute.trans (.quiet rfl rfl rfl)
    rw [route, routeFuel_dropped link 1 hfail hown]
    exact hdropped
  · rw [route, routeFuel_passed link 1 hfail]
    exact hroute

/-- `sendtoFromSourceWait`, if `route` sends what it composes. -/
theorem sendtoFromSourceWait_emits {buf : List UInt8} {dest flags : UInt8}
    (h : SendsOnly P (s.composed buf dest source flags)
      (route link (s.composed buf dest source flags)
        (UInt8.ofNat (routedHeaderLen + buf.length))).2) :
    SendsOnly P s (s.sendtoFromSourceWait (route link) buf dest source flags).2 := by
  by_cases hlen : buf.length + routedHeaderLen ≤ maxMessageLen
  · have hquiet : SendsOnly P s (s.composed buf dest source flags) := .quiet rfl rfl rfl
    rw [sendtoFromSourceWait_eq s dest source flags _ hlen]
    exact hquiet.trans h
  · rw [sendtoFromSourceWait, if_pos (not_le.mp hlen)]
    exact .quiet rfl rfl rfl

theorem sendtoWait_emits (link : List Frame → LinkAnswer) (s : RHMesh) {buf : List UInt8}
    {dest flags : UInt8} (h : ∀ id, P (message dest s.thisAddress 0 id flags buf)) :
    SendsOnly P s (RHRouter.sendtoWait (route link) s buf dest flags).2 := by
  by_cases hlen : buf.length + routedHeaderLen ≤ maxMessageLen
  · refine sendtoFromSourceWait_emits ?_
    refine route_own_emits link (composed_source s dest s.thisAddress flags) ?_
    rw [composed_load s dest s.thisAddress flags hlen]
    exact h _
  · rw [RHRouter.sendtoWait, sendtoFromSourceWait, if_pos (not_le.mp hlen)]
    exact .quiet rfl rfl rfl

/-- A broadcast does not fail. -/
theorem not_fails_of_broadcast {n : UInt8} (h : s.tmpMessage 0 = broadcastAddress) :
    ¬ Fails (RHRouter.route link s n).1 := by
  have hnext : s.nextHop = some broadcastAddress := if_neg (not_not.mpr h)
  have hsent : ((s.note [.octet 0, .upTo n.toNat]).linkSendtoWait link
      (s.tmpMessage.load 0 n.toNat) broadcastAddress).1 = true :=
    (linkSendtoWait_acked link _ _ _).mpr (.inl rfl)
  rw [route_hop hnext]
  dsimp only
  rw [if_pos hsent]
  decide

/-- The octets of the report that a message from `source` to `dest` cannot be
passed on. -/
def reportOf (s : RHMesh) (dest source id : UInt8) : List UInt8 :=
  message source s.thisAddress 0 id 0 [typeFailure, dest]

/-- A message of another node is sent, or reported to its source. -/
theorem route_emits (link : List Frame → LinkAnswer) {n : UInt8}
    (h : P (s.tmpMessage.load 0 n.toNat))
    (hreport : s.tmpMessage 0 ≠ broadcastAddress → s.tmpMessage 1 ≠ s.thisAddress →
      ∀ id, P (s.reportOf (s.tmpMessage 0) (s.tmpMessage 1) id)) :
    SendsOnly P s (route link s n).2 := by
  by_cases hown : s.tmpMessage 1 = s.thisAddress
  · exact route_own_emits link hown h
  have hroute := RHRouter.route_sends link s h
  by_cases hfail : Fails (RHRouter.route link s n).1
  · have hdropped : SendsOnly P s (dropped link s n) := hroute.trans (.quiet rfl rfl rfl)
    have hreporting : SendsOnly P (dropped link s n) (reporting link s n) := .quiet rfl rfl rfl
    have hthis : (reporting link s n).thisAddress = s.thisAddress := (route_keeps link s n).2
    have hunicast : s.tmpMessage 0 ≠ broadcastAddress := fun hbc => not_fails_of_broadcast hbc hfail
    rw [route_reports hown hfail]
    refine hdropped.trans (hreporting.trans (sendtoWait_emits link _ ?_))
    intro id
    rw [hthis]
    exact hreport hunicast hown id
  · rw [route, routeFuel_passed link 1 hfail]
    exact hroute

/-- The request has been answered, with the list it had. -/
def Answers (s : RHMesh) (f : Frame) (data : List UInt8) : Prop :=
  ∃ source l id, IsRequest f.data source s.thisAddress l ∧ source ≠ s.thisAddress ∧
    s.thisAddress ∉ l ∧ data = discovery source s.thisAddress 0 id 0 typeResponse s.thisAddress l

/-- The message is not for this node, nor for all. -/
def Away (s : RHMesh) (f : Frame) : Prop :=
  f.data.getD 0 0 ≠ s.thisAddress ∧ f.data.getD 0 0 ≠ broadcastAddress

/-- What may be sent on account of a message: the message itself with one more
hop, if it is for another node; a report that it could not be passed on; if it
is a request, the answer to it, or the request with this node in its list. -/
def Evokes (s : RHMesh) (f : Frame) (data : List UInt8) : Prop :=
  (s.Away f ∧ (data = f.forwarded ∨ f.data.getD 1 0 ≠ s.thisAddress ∧
    ∃ id, data = s.reportOf (f.data.getD 0 0) (f.data.getD 1 0) id)) ∨
  s.Answers f data ∨ s.Relays f data

/-- The message is sent on. -/
theorem forward_emits (link : List Frame → LinkAnswer) (hlong : 6 ≤ f.data.length)
    (hmax : f.data.length ≤ maxMessageLen) (haway : ¬ (peeked s f).Here) :
    SendsOnly (s.Evokes f) (s.taken f) ((peeked s f).forward (virtuals link) f.storedLen) := by
  obtain ⟨r, a, hp⟩ := peeked_eq s f
  have hpeeked : SendsOnly (s.Evokes f) (s.taken f) (peeked s f) := by
    rw [hp]
    exact .quiet rfl rfl rfl
  have hhopped : SendsOnly (s.Evokes f) (peeked s f) (peeked s f).hopped := .quiet rfl rfl rfl
  have hmsg := peeked_tmpMessage s f
  have hthis : (peeked s f).thisAddress = s.thisAddress := by
    rw [hp]
    exact taken_thisAddress s f
  -- the octets of the header
  have hget : ∀ i < 2, (peeked s f).hopped.tmpMessage i = f.data.getD i 0 := by
    intro i hi
    show ((peeked s f).tmpMessage.write 2 _) i = _
    rw [Mem.write_lt hi, hmsg]
    exact getD_stored (by omega) hmax s.tmpMessage
  have haway' : s.Away f := by
    have h0 : (peeked s f).tmpMessage 0 = f.data.getD 0 0 := by
      rw [hmsg]
      exact getD_stored (by omega) hmax s.tmpMessage
    rwa [Here, not_or, h0, hthis] at haway
  rw [forward_eq]
  split
  · refine hpeeked.trans (hhopped.trans (route_emits link ?_ ?_))
    · refine .inl ⟨haway', .inl ?_⟩
      show ((peeked s f).tmpMessage.write 2 [(peeked s f).tmpMessage 2 + 1]).load 0 _ = _
      rw [hmsg]
      exact load_hopped (show 5 ≤ f.data.length by omega) hmax s.tmpMessage
    · intro _ hother id
      rw [hget 1 (by decide)] at hother
      refine .inl ⟨haway', .inr ⟨fun h => hother (h.trans hthis.symm), id, ?_⟩⟩
      rw [reportOf, reportOf, hget 0 (by decide), hget 1 (by decide)]
      exact congrArg (message _ · 0 id 0 _) hthis
  · exact hpeeked.trans hhopped

/-- The request is answered, or sent on. -/
theorem answerRequest_emits (link : List Frame → LinkAnswer) {u : RHMesh} {m : Mem}
    (hder : u.derived = m.write 0 ([typeRequest, 1, target] ++ l)) (hfits : 8 + l.length ≤ 251)
    (hanswer : target = u.thisAddress →
      ∀ id, P (discovery source u.thisAddress 0 id 0 typeResponse target l))
    (hrelay : l.length < u.maxHops.toNat →
      ∀ id, P (discovery broadcastAddress source 0 id 0 typeRequest target
        (l ++ [u.thisAddress]))) :
    SendsOnly P u (answerRequest link u source (UInt8.ofNat (3 + l.length))
      (UInt8.ofNat l.length)) := by
  have hn : (UInt8.ofNat l.length).toNat = l.length :=
    UInt8.toNat_ofNat_of_lt' (show l.length < 256 by omega)
  rw [answerRequest]
  dsimp only
  split
  · next hphysical =>
    have htarget : target = u.thisAddress := by
      rw [← hphysical.2, hder]
      rfl
    have hquiet : SendsOnly P u (store (u.note (physicalAccesses u)) 0 [typeResponse]) :=
      .quiet rfl rfl rfl
    rw [load_answer hder hfits]
    exact hquiet.trans (sendtoWait_emits link _ fun id => hanswer htarget id)
  · split
    · next hlt =>
      have hlt := UInt8.lt_iff_toNat_lt.mp hlt
      rw [hn] at hlt
      set accesses := physicalAccesses u ++ [.upTo (routeOctet + (UInt8.ofNat l.length).toNat + 1)]
      have hload := load_relay hder hfits accesses
      set w := store (u.note accesses) (3 + (UInt8.ofNat l.length).toNat) [u.thisAddress]
      have hquiet : SendsOnly P u w := .quiet rfl rfl rfl
      refine hquiet.trans ?_
      show SendsOnly P w (sendtoFromSourceWait (route link) w (Mem.load _ 0 _) _ _).2
      rw [hload]
      by_cases hlen : ([typeRequest, 1, target] ++ (l ++ [u.thisAddress])).length
          + routedHeaderLen ≤ maxMessageLen
      · refine sendtoFromSourceWait_emits (route_emits link ?_ ?_)
        · rw [composed_load w broadcastAddress source 0 hlen]
          exact hrelay hlt w.lastE2ESequenceNumber
        · exact fun hbc => absurd (composed_dest w broadcastAddress source 0) hbc
      · rw [sendtoFromSourceWait, if_pos (not_le.mp hlen)]
        exact .quiet rfl rfl rfl
    · exact .quiet rfl rfl rfl

/-- **What `recvfromAck` may send on account of a message.** -/
theorem recvfromAck_evokes (link : List Frame → LinkAnswer) (s : RHMesh) (hlong : 6 ≤ f.data.length)
    (hmax : f.data.length ≤ maxMessageLen)
    (hreq : f.data[5]? = some typeRequest → ∃ source target l, IsRequest f.data source target l)
    (len : UInt8) : Sends (s.Evokes f) s (recvfromAck link s f len).2 := by
  by_cases htakes : s.Takes f
  swap
  · rw [recvfromAck_of_not_takes htakes]
    exact skipped_sends s f
  refine (taken_sends s f).trans ?_
  by_cases hhere : (peeked s f).Here
  swap
  · rw [recvfromAck_away htakes hhere]
    exact (forward_emits link hlong hmax hhere).toSends
  by_cases h5 : f.data[5]? = some typeRequest
  · obtain ⟨source, target, l, hops, id, flags, hdata⟩ := hreq h5
    have hfits := (stored_discovery hdata hmax s.tmpMessage).fits
    by_cases hseen : source = s.thisAddress ∨ s.thisAddress ∈ l
    · obtain ⟨a, heq, -⟩ := recvfromAck_request link htakes hdata hmax len
      have h' : source = (s.taken f).thisAddress ∨ (s.taken f).thisAddress ∈ l := by
        rwa [taken_thisAddress]
      obtain ⟨a', hdrop⟩ := handleRequest_listed link (t := { s.taken f with
        derived := s.derived.write 0 ([typeRequest, 1, target] ++ l), accesses := a }) rfl hfits h'
      rw [heq, hdrop]
      exact Sends.quiet rfl rfl rfl
    · rw [not_or] at hseen
      obtain ⟨hrec, hder, -, heq⟩ := request_new link htakes hdata hmax hseen.1 hseen.2 len
      have hquiet : SendsOnly (s.Evokes f) (s.taken f) (recorded link s f) :=
        .quiet hrec.datagram hrec.maxHops hrec.sent
      have hthis : (recorded link s f).thisAddress = s.thisAddress := hrec.handled.thisAddress
      have hisreq : IsRequest f.data source target l := ⟨hops, id, flags, hdata⟩
      rw [heq]
      refine (hquiet.trans (answerRequest_emits link hder hfits ?_ ?_)).toSends
      · rw [hthis]
        rintro rfl id
        exact .inr (.inl ⟨source, l, id, hisreq, hseen.1, hseen.2, rfl⟩)
      · rw [hthis, hrec.maxHops]
        intro hlt id
        exact .inr (.inr ⟨source, target, l, hisreq, ⟨0, id, 0, rfl⟩, hseen.1, hseen.2, hlt⟩)
  · have hpeeked : SendsOnly (s.Evokes f) (s.taken f) (peeked s f) := by
      obtain ⟨r, a, hp⟩ := peeked_eq s f
      rw [hp]
      exact .quiet rfl rfl rfl
    have hdelivered : SendsOnly (s.Evokes f) (peeked s f)
        ((peeked s f).deliver f.storedLen meshMessageSize).2 := .quiet rfl rfl rfl
    rw [recvfromAck_here htakes hhere]
    refine (hpeeked.trans (hdelivered.trans (handleReceived_quiet link ?_ len))).toSends
    rw [derived_delivered hlong hmax]
    rw [List.getElem?_eq_getElem (by omega), Option.some_inj] at h5
    rwa [List.getD_eq_getElem?_getD, List.getElem?_eq_getElem (by omega), Option.getD_some]

/-- So in the wait loop of `doArp`, where no request is handled. -/
theorem arpReceive_evokes (link : List Frame → LinkAnswer) (s : RHMesh) (hlong : 6 ≤ f.data.length)
    (hmax : f.data.length ≤ maxMessageLen) (address messageLen : UInt8) :
    Sends (s.Evokes f) s (arpReceive link s address messageLen f).2.2 := by
  by_cases htakes : s.Takes f
  swap
  · rw [arpReceive_of_not_takes link htakes]
    exact skipped_sends s f
  refine (taken_sends s f).trans ?_
  have hpeeked : SendsOnly (s.Evokes f) (s.taken f) (peeked s f) := by
    obtain ⟨r, a, hp⟩ := peeked_eq s f
    rw [hp]
    exact .quiet rfl rfl rfl
  have hrouter : SendsOnly (s.Evokes f) (s.taken f)
      (RHRouter.recvfromAck (virtuals link) s f messageLen).2 := by
    rw [recvfromAck_of_takes htakes, dispatch]
    show SendsOnly _ _ (if (peeked s f).Here then _ else _ : Option Received × RHMesh).2
    split
    · exact hpeeked.trans (.quiet rfl rfl rfl)
    · next haway => exact forward_emits link hlong hmax haway
  rw [arpReceive]
  rcases hr : RHRouter.recvfromAck (virtuals link) s f messageLen with ⟨_ | r, t⟩
  · rw [hr] at hrouter
    exact hrouter.toSends
  · rw [hr] at hrouter
    dsimp only
    split
    · exact hrouter.toSends.trans (.quiet rfl rfl rfl)
    · exact hrouter.toSends.trans (.quiet rfl rfl rfl)

/-! ### What a mesh node returns -/

/-- Only messages of the application are returned, as far as the caller has
room. -/
theorem handleReceived_fst (link : List Frame → LinkAnswer) (s : RHMesh) {r : Received}
    (hpos : 0 < r.buf.length) (hmax : r.buf.length < 256) (len : UInt8) :
    (handleReceived link s r len).1 = if r.buf[0]? = some typeApplication then
      some { r with buf := (r.buf.drop meshHeaderLen).take len.toNat } else none := by
  have hlen : (UInt8.ofNat r.buf.length).toNat = r.buf.length := UInt8.toNat_ofNat_of_lt' hmax
  have hone : UInt8.ofNat r.buf.length ≥ 1 := by
    refine UInt8.le_iff_toNat_le.mpr ?_
    rw [hlen]
    exact hpos
  have htype : r.buf[0]? = some ((store s 0 r.buf).derived 0) := by
    rw [List.getElem?_eq_getElem hpos]
    exact congrArg some (Mem.write_get hpos s.derived 0).symm
  -- how much is copied
  set msgLen := UInt8.ofNat r.buf.length - UInt8.ofNat meshHeaderLen with hmsgLen
  have hmsg : msgLen.toNat = r.buf.length - meshHeaderLen := by
    refine (UInt8.toNat_sub_of_le _ _ hone).trans ?_
    rw [hlen]
    rfl
  have hcopied : (if len > msgLen then msgLen else len).toNat =
      min len.toNat (r.buf.length - meshHeaderLen) := by
    split_ifs with hgt
    · have := UInt8.lt_iff_toNat_lt.mp hgt
      omega
    · have := UInt8.le_iff_toNat_le.mp (UInt8.not_lt.mp hgt)
      omega
  rw [handleReceived, htype]
  dsimp only
  rw [if_pos hone]
  by_cases happ : ((store s 0 r.buf).note [.octet 5]).derived 0 = typeApplication
  · have happ' : some ((store s 0 r.buf).derived 0) = some typeApplication := congrArg some happ
    rw [if_pos happ, if_pos happ']
    have hfits : meshHeaderLen + (if len > msgLen then msgLen else len).toNat ≤ r.buf.length := by
      rw [meshHeaderLen] at hcopied ⊢
      omega
    have hload := Mem.load_write hfits s.derived 0
    rw [Nat.zero_add] at hload
    refine congrArg (fun buf => some { r with buf := buf }) (hload.trans ?_)
    rw [hcopied, ← List.length_drop]
    exact List.take_eq_take_min.symm
  · have happ' : some ((store s 0 r.buf).derived 0) ≠ some typeApplication :=
      fun h => happ (Option.some_inj.mp h)
    rw [if_neg happ, if_neg happ']
    split <;> rfl

/-- A message for this node comes to `handleReceived` as it is. -/
theorem recvfromAck_home (link : List Frame → LinkAnswer) {dest hops id flags msgType : UInt8}
    {buf : List UInt8} (htakes : s.Takes f)
    (hdata : f.data = message dest source hops id flags (msgType :: buf))
    (hmax : f.data.length ≤ maxMessageLen)
    (hhere : dest = s.thisAddress ∨ dest = broadcastAddress) (len : UInt8) :
    (msgType :: buf).length < 256 ∧ recvfromAck link s f len =
      handleReceived link ((peeked s f).deliver f.storedLen meshMessageSize).2
        ⟨source, dest, id, flags, msgType :: buf⟩ len := by
  have hcount : f.data.length = 6 + buf.length := by
    rw [hdata]
    exact Nat.add_comm _ 6
  rw [maxMessageLen] at hmax
  have hthis : (peeked s f).thisAddress = s.thisAddress := by
    obtain ⟨t, a, hp⟩ := peeked_eq s f
    rw [hp]
    exact taken_thisAddress s f
  have h0 : (peeked s f).tmpMessage 0 = dest := by
    rw [peeked_tmpMessage, getD_stored (by omega) hmax, hdata]
    rfl
  have hdeliver := deliver_message (peeked_tmpMessage s f) hdata hmax meshMessageSize
  have hall : (msgType :: buf).take meshMessageSize.toNat = msgType :: buf := by
    refine List.take_of_length_le ?_
    show buf.length + 1 ≤ 250
    omega
  rw [hall] at hdeliver
  refine ⟨by rw [List.length_cons]; omega, ?_⟩
  rw [recvfromAck_here htakes (by rwa [Here, h0, hthis]), hdeliver]

/-- A message that `recvfromAck` returns is for this node, or for all, and is one
of the application. -/
theorem recvfromAck_some {r : Received} {len : UInt8} (hlong : 6 ≤ f.data.length)
    (hmax : f.data.length ≤ maxMessageLen) (h : (recvfromAck link s f len).1 = some r) :
    f.data[5]? = some typeApplication ∧
      ∀ {dest source hops id flags : UInt8} {buf : List UInt8},
        f.data = message dest source hops id flags (typeApplication :: buf) →
        (dest = s.thisAddress ∨ dest = broadcastAddress) ∧
          r = ⟨source, dest, id, flags, buf.take len.toNat⟩ := by
  by_cases htakes : s.Takes f
  swap
  · rw [recvfromAck_of_not_takes htakes] at h
    cases h
  by_cases hhere : (peeked s f).Here
  swap
  · rw [recvfromAck_away htakes hhere] at h
    cases h
  have hthis : (peeked s f).thisAddress = s.thisAddress := by
    obtain ⟨t, a, hp⟩ := peeked_eq s f
    rw [hp]
    exact taken_thisAddress s f
  have h0 : (peeked s f).tmpMessage 0 = f.data.getD 0 0 := by
    rw [peeked_tmpMessage]
    exact getD_stored (by omega) hmax s.tmpMessage
  rw [Here, h0, hthis] at hhere
  -- the frame, as the router returns it
  obtain ⟨dest, source, hops, id, flags, msgType, buf, hdata⟩ :
      ∃ dest source hops id flags msgType buf,
        f.data = message dest source hops id flags (msgType :: buf) := by
    rcases hd : f.data with _ | ⟨a, _ | ⟨b, _ | ⟨c, _ | ⟨d, _ | ⟨e, _ | ⟨t, buf⟩⟩⟩⟩⟩⟩
    case cons.cons.cons.cons.cons.cons => exact ⟨a, b, c, d, e, t, buf, rfl⟩
    all_goals simp [hd] at hlong
  rw [hdata] at hhere
  obtain ⟨hlt, heq⟩ := recvfromAck_home link htakes hdata hmax hhere len
  rw [heq, handleReceived_fst link _ (r := ⟨source, dest, id, flags, msgType :: buf⟩)
    (Nat.zero_lt_succ _) hlt] at h
  obtain ⟨happ, hr⟩ := Option.ite_none_right_eq_some.mp h
  obtain rfl : msgType = typeApplication := Option.some_inj.mp happ
  refine ⟨msgType_message hdata, ?_⟩
  intro dest' source' hops' id' flags' buf' hdata'
  rw [hdata] at hdata'
  simp only [message, List.cons_append, List.nil_append, List.cons.injEq, true_and] at hdata'
  obtain ⟨rfl, rfl, -, rfl, rfl, rfl⟩ := hdata'
  exact ⟨hhere, (Option.some_inj.mp hr).symm⟩

/-! ### Why a message is on the air -/

/-- Why a message is on the air in a run with the events `es`: a node `v` has
sent it when it was called, or on account of a message. -/
inductive Traced (es : List (Event UInt8 MeshCall MeshHandling)) :
    Frame → List (UInt8 × Frame) → Prop
  | sent {f : Frame} {v dest flags id : UInt8} {buf : List UInt8}
      {link : List Frame → LinkAnswer}
      (hcall : .call v (.sendApplication link buf dest flags) ∈ es) (hfrom : f.headerFrom = v)
      (hf : f.data = message dest v 0 id flags (typeApplication :: buf)) : Traced es f []
  | asked {f : Frame} {v target : UInt8} {link : List Frame → LinkAnswer}
      (hcall : .call v (.beginArp link target) ∈ es) (hfrom : f.headerFrom = v)
      (hf : IsRequest f.data v target []) : Traced es f []
  | forwarded {f g : Frame} {causes : List (UInt8 × Frame)} {v : UInt8} (h : Traced es f causes)
      (hfrom : g.headerFrom = v) (hdest : f.data.getD 0 0 ≠ v)
      (hbc : f.data.getD 0 0 ≠ broadcastAddress) (hg : g.data = f.forwarded) :
      Traced es g ((v, f) :: causes)
  | reported {f g : Frame} {causes : List (UInt8 × Frame)} {v id : UInt8} (h : Traced es f causes)
      (hfrom : g.headerFrom = v) (hdest : f.data.getD 0 0 ≠ v)
      (hbc : f.data.getD 0 0 ≠ broadcastAddress) (hother : f.data.getD 1 0 ≠ v)
      (hg : g.data = message (f.data.getD 1 0) v 0 id 0 [typeFailure, f.data.getD 0 0]) :
      Traced es g ((v, f) :: causes)
  | answered {f g : Frame} {causes : List (UInt8 × Frame)} {v source id : UInt8} {l : List UInt8}
      (h : Traced es f causes) (hfrom : g.headerFrom = v) (hf : IsRequest f.data source v l)
      (hnew : v ∉ source :: l) (hg : g.data = discovery source v 0 id 0 typeResponse v l) :
      Traced es g ((v, f) :: causes)
  | relayed {f g : Frame} {causes : List (UInt8 × Frame)} {v source target : UInt8}
      {l : List UInt8} (h : Traced es f causes) (hfrom : g.headerFrom = v)
      (hf : IsRequest f.data source target l) (hnew : v ∉ source :: l)
      (hg : IsRequest g.data source target (l ++ [v])) : Traced es g ((v, f) :: causes)

variable {es : List (Event UInt8 MeshCall MeshHandling)} {causes : List (UInt8 × Frame)}

/-- Only the count of hops changes when a message is sent on. -/
theorem getElem?_forwarded {i : ℕ} (hi : i ≠ 2) : f.forwarded[i]? = f.data[i]? :=
  List.getElem?_set_ne hi.symm

theorem IsRequest.msgType (h : IsRequest f.data source target l) :
    f.data[5]? = some typeRequest := by
  obtain ⟨hops, id, flags, hdata⟩ := h
  exact msgType_message hdata

namespace Traced

/-- A request that is on the air has come the way that its list names. -/
theorem flooded (h : Traced es f causes) (h5 : f.data[5]? = some typeRequest) :
    ∃ source target l, Flooded source target l f causes := by
  induction h with
  | sent _ _ hf => exact absurd ((msgType_message hf).symm.trans h5) (by decide)
  | @asked f v target _ _ hfrom hf => exact ⟨v, target, [], .origin hf hfrom⟩
  | forwarded h _ _ hbc hg ih =>
    -- requests are for all nodes
    rw [hg, getElem?_forwarded (by decide)] at h5
    obtain ⟨source, target, l, hflood⟩ := ih h5
    obtain ⟨hops, id, flags, hdata⟩ := hflood.isRequest
    exact absurd (by rw [hdata]; rfl) hbc
  | reported _ _ _ _ _ hg => exact absurd ((msgType_message hg).symm.trans h5) (by decide)
  | answered _ _ _ _ hg => exact absurd ((msgType_message hg).symm.trans h5) (by decide)
  | @relayed f g causes v source target l _ hfrom hf hnew hg ih =>
    obtain ⟨source', target', l', hflood⟩ := ih hf.msgType
    obtain ⟨rfl, rfl, rfl⟩ := hf.unique hflood.isRequest
    exact ⟨source, target, l ++ [v], .relay hflood hg hfrom hnew⟩

/-- A message of the application is what was sent. -/
theorem application (h : Traced es f causes) (h5 : f.data[5]? = some typeApplication) :
    ∃ v dest flags hops id buf link, .call v (.sendApplication link buf dest flags) ∈ es ∧
      f.data = message dest v hops id flags (typeApplication :: buf) := by
  induction h with
  | @sent f v dest flags id buf link hcall _ hf =>
    exact ⟨v, dest, flags, 0, id, buf, link, hcall, hf⟩
  | asked _ _ hf => exact absurd (h5.symm.trans hf.msgType) (by decide)
  | forwarded _ _ _ _ hg ih =>
    rw [hg, getElem?_forwarded (by decide)] at h5
    obtain ⟨v, dest, flags, hops, id, buf, link, hcall, hdata⟩ := ih h5
    exact ⟨v, dest, flags, hops + 1, id, buf, link, hcall, hg.trans (forwarded_message hdata)⟩
  | reported _ _ _ _ _ hg => exact absurd ((msgType_message hg).symm.trans h5) (by decide)
  | answered _ _ _ _ hg => exact absurd ((msgType_message hg).symm.trans h5) (by decide)
  | relayed _ _ _ _ hg => exact absurd (h5.symm.trans hg.msgType) (by decide)

/-- A response is the answer of its target to a request with the same list. -/
theorem response (h : Traced es f causes) (h5 : f.data[5]? = some typeResponse) :
    ∃ source target l hops id g rest,
      f.data = discovery source target hops id 0 typeResponse target l ∧ target ∉ source :: l ∧
        (target, g) :: rest <:+ causes ∧ Flooded source target l g rest := by
  induction h with
  | sent _ _ hf => exact absurd ((msgType_message hf).symm.trans h5) (by decide)
  | asked _ _ hf => exact absurd (h5.symm.trans hf.msgType) (by decide)
  | @forwarded f g causes v _ _ _ _ hg ih =>
    rw [hg, getElem?_forwarded (by decide)] at h5
    obtain ⟨source, target, l, hops, id, g', rest, hdata, hnew, hrest, hflood⟩ := ih h5
    refine ⟨source, target, l, hops + 1, id, g', rest, ?_, hnew,
      hrest.trans (List.suffix_cons _ _), hflood⟩
    have hdata : f.data = message source target hops id 0 ([typeResponse, 1, target] ++ l) := hdata
    exact hg.trans (forwarded_message hdata)
  | reported _ _ _ _ _ hg => exact absurd ((msgType_message hg).symm.trans h5) (by decide)
  | @answered f g causes v source id l h _ hf hnew hg =>
    obtain ⟨source', target', l', hflood⟩ := h.flooded hf.msgType
    obtain ⟨rfl, rfl, rfl⟩ := hf.unique hflood.isRequest
    exact ⟨source, v, l, 0, id, f, causes, hg, hnew, List.suffix_refl _, hflood⟩
  | relayed _ _ _ _ hg => exact absurd (h5.symm.trans hg.msgType) (by decide)

/-- A report is about a message that the node had to pass on. -/
theorem failure (h : Traced es f causes) (h5 : f.data[5]? = some typeFailure) :
    ∃ source v dest hops id g, f.data = message source v hops id 0 [typeFailure, dest] ∧
      (v, g) ∈ causes ∧ g.data.getD 0 0 = dest ∧ g.data.getD 1 0 = source ∧
      dest ≠ v ∧ dest ≠ broadcastAddress ∧ source ≠ v := by
  induction h with
  | sent _ _ hf => exact absurd ((msgType_message hf).symm.trans h5) (by decide)
  | asked _ _ hf => exact absurd (h5.symm.trans hf.msgType) (by decide)
  | forwarded _ _ _ _ hg ih =>
    rw [hg, getElem?_forwarded (by decide)] at h5
    obtain ⟨source, v, dest, hops, id, g', hdata, hmem, hrest⟩ := ih h5
    exact ⟨source, v, dest, hops + 1, id, g', hg.trans (forwarded_message hdata),
      List.mem_cons_of_mem _ hmem, hrest⟩
  | @reported f g causes v id _ _ hdest hbc hother hg =>
    exact ⟨_, v, _, 0, id, f, hg, List.mem_cons_self, rfl, rfl, hdest, hbc, hother⟩
  | answered _ _ _ _ hg => exact absurd ((msgType_message hg).symm.trans h5) (by decide)
  | relayed _ _ _ _ hg => exact absurd (h5.symm.trans hg.msgType) (by decide)

end Traced

/-- `doArp` sends a request, and `RHMesh::sendtoWait` its message. -/
theorem beginArp_emits (link : List Frame → LinkAnswer) (s : RHMesh) (address : UInt8) :
    SendsOnly (fun data => IsRequest data s.thisAddress address []) s
      (beginArp link s address).2 := by
  have hload : (store s 0 [typeRequest, 1, address]).derived.load 0 (meshHeaderLen + 2) =
      [typeRequest, 1, address] := Mem.load_write_self s.derived 0 [typeRequest, 1, address]
  have hquiet : SendsOnly (fun data => IsRequest data s.thisAddress address []) s
      (store s 0 [typeRequest, 1, address]) := .quiet rfl rfl rfl
  rw [beginArp, hload]
  exact hquiet.trans (sendtoWait_emits link _ fun id => ⟨0, id, 0, rfl⟩)

theorem sendApplication_emits (link : List Frame → LinkAnswer) (s : RHMesh) (buf : List UInt8)
    (address flags : UInt8) :
    SendsOnly (fun data => ∃ id, data = message address s.thisAddress 0 id flags
      (typeApplication :: buf)) s (sendApplication link s buf address flags).2 := by
  rw [sendApplication]
  split
  · exact .quiet rfl rfl rfl
  · have hload : (store s 0 (typeApplication :: buf)).derived.load 0 (meshHeaderLen + buf.length) =
        typeApplication :: buf := by
      have := Mem.load_write_self s.derived 0 (typeApplication :: buf)
      rwa [List.length_cons, Nat.add_comm] at this
    dsimp only
    rw [hload]
    set u := store s 0 (typeApplication :: buf)
    have hquiet : SendsOnly (fun data => ∃ id, data = message address s.thisAddress 0 id flags
        (typeApplication :: buf)) s u := .quiet rfl rfl rfl
    exact hquiet.trans (sendtoWait_emits link u fun id => ⟨id, rfl⟩)

/-- The call is among the events. -/
theorem traced_perform {v : UInt8} (hthis : s.thisAddress = v) (hfrom : s.txHeaderFrom = v)
    {e : MeshCall} (hmem : .call v e ∈ es) :
    ∀ f ∈ s.sentSince (s.perform e), Traced es f [] := by
  intro f hf
  cases e with
  | beginArp link target =>
    obtain ⟨hf', -, hreq⟩ := (beginArp_emits link s target).toSends.sentSince hf
    exact .asked hmem (hf'.trans hfrom) (hthis ▸ hreq)
  | sendApplication link buf dest flags =>
    obtain ⟨hf', -, id, hdata⟩ := (sendApplication_emits link s buf dest flags).toSends.sentSince hf
    exact .sent hmem (hf'.trans hfrom) (hthis ▸ hdata)
  | setRoutes routes =>
    have h : Sends (fun _ => False) s (s.perform (.setRoutes routes)) := Sends.quiet rfl rfl rfl
    exact (h.sentSince hf).2.2.elim

/-- The message is on the air for a reason itself. -/
theorem traced_handle {v : UInt8} (hthis : s.thisAddress = v) (hfrom : s.txHeaderFrom = v)
    (hlong : 6 ≤ f.data.length) (hmax : f.data.length ≤ maxMessageLen)
    (hf : Traced es f causes) (d : MeshHandling) :
    ∀ g ∈ s.sentSince (s.handle f d), Traced es g ((v, f) :: causes) := by
  have h : Sends (s.Evokes f) s (s.handle f d) := by
    cases d with
    | recvfromAck link len =>
      refine recvfromAck_evokes link s hlong hmax ?_ len
      intro h5
      obtain ⟨source, target, l, hflood⟩ := hf.flooded h5
      exact ⟨source, target, l, hflood.isRequest⟩
    | arpReceive link address messageLen =>
      exact arpReceive_evokes link s hlong hmax address messageLen
  intro g hg
  obtain ⟨hg', -, hdata⟩ := h.sentSince hg
  have hg' := hg'.trans hfrom
  subst hthis
  rcases hdata with ⟨⟨hdest, hbc⟩, hdata | ⟨hother, id, hdata⟩⟩ |
    ⟨source, l, id, hreq, hne, hnew, hdata⟩ | ⟨source, target, l, hreq, hreq', hne, hnew, -⟩
  · exact .forwarded hf hg' hdest hbc hdata
  · exact .reported hf hg' hdest hbc hother hdata
  · exact .answered hf hg' hreq (List.not_mem_cons_of_ne_of_not_mem hne.symm hnew) hdata
  · exact .relayed hf hg' hreq (List.not_mem_cons_of_ne_of_not_mem hne.symm hnew) hreq'

section Run

variable {nodes : Finset UInt8} {node : UInt8 → RHMesh} {net : Net UInt8 RHMesh Frame}
  (hnode : ∀ v ∈ nodes, (node v).thisAddress = v ∧ (node v).txHeaderFrom = v)
  (hrun : run (meshStep nodes) (start node) es = some net)

include hnode hrun

theorem run_traced :
    Holds nodes (Configured (hopLimit nodes node))
      (fun p => Legal nodes (hopLimit nodes node) p ∧ Traced es p.frame p.causes) net := by
  refine run_holds_of_mem ?_ ?_ ?_ hrun
  · intro v hv e s hmem hs
    obtain ⟨hs', hlegal⟩ := legal_perform hv hs e
    refine ⟨hs', fun f hf => ⟨hlegal f hf, ?_⟩⟩
    exact traced_perform hs.thisAddress hs.txHeaderFrom hmem f hf
  · rintro v hv d p s hs ⟨hp, htraced⟩
    obtain ⟨hs', hlegal⟩ := legal_handle hv hs hp d
    refine ⟨hs', fun g hg => ⟨hlegal g hg, ?_⟩⟩
    exact traced_handle hs.thisAddress hs.txHeaderFrom hp.long hp.fits htraced d g hg
  · intro v hv
    exact ⟨(hnode v hv).1, (hnode v hv).2,
      Finset.le_sup (f := fun v => (node v).maxHops.toNat) hv⟩

/-- **No message is made up.**  Whatever is lost, repeated or overtaken, and
however many discoveries and failures there are meanwhile, a message that
`recvfromAck` returns is for this node or for all, and was sent by the node that
it names as its source, to the destination and with the flags that are returned. -/
theorem delivered_was_sent {p : Flight UInt8 Frame} (hp : p ∈ net.air) {v : UInt8}
    (hv : v ∈ nodes) {link : List Frame → LinkAnswer} {len : UInt8} {r : Received}
    (hr : (recvfromAck link (net.node v) p.frame len).1 = some r) :
    (r.dest = v ∨ r.dest = broadcastAddress) ∧
      ∃ link' buf, .call r.source (.sendApplication link' buf r.dest r.flags) ∈ es ∧
        r.buf = buf.take len.toNat := by
  have h := run_traced hnode hrun
  obtain ⟨hlegal, htraced⟩ := h.air p hp
  obtain ⟨h5, hreturns⟩ := recvfromAck_some hlegal.long hlegal.fits hr
  obtain ⟨w, dest, flags, hops, id, buf, link', hcall, hdata⟩ := htraced.application h5
  obtain ⟨hhere, rfl⟩ := hreturns hdata
  rw [(h.node v hv).thisAddress] at hhere
  exact ⟨hhere, link', buf, hcall, rfl⟩

/-- **A response tells the truth**: its target has got the request with the very
list of the response, and each node of the list has got it from the one before,
with the list as far as there; and these nodes are all different. -/
theorem response_true {p : Flight UInt8 Frame} (hp : p ∈ net.air)
    (h5 : p.frame.data[5]? = some typeResponse) :
    ∃ source target l hops id,
      p.frame.data = discovery source target hops id 0 typeResponse target l ∧
      (source :: (l ++ [target])).Nodup ∧
      ∀ i (hi : i < (l ++ [target]).length), ∃ g, ((l ++ [target])[i], g) ∈ p.causes ∧
        IsRequest g.data source target (l.take i) ∧ (source :: l)[i]? = some g.headerFrom := by
  obtain ⟨-, htraced⟩ := (run_traced hnode hrun).air p hp
  obtain ⟨source, target, l, hops, id, g, rest, hdata, hnew, hrest, hflood⟩ := htraced.response h5
  refine ⟨source, target, l, hops, id, hdata, ?_, ?_⟩
  · rw [← List.cons_append]
    refine List.nodup_append.mpr ⟨hflood.nodup, List.nodup_singleton target, ?_⟩
    intro a ha b hb
    rw [List.mem_singleton.mp hb]
    exact ne_of_mem_of_not_mem ha hnew
  · intro i hi
    rw [List.length_append, List.length_singleton] at hi
    rcases Nat.lt_succ_iff_lt_or_eq.mp hi with hi | rfl
    · obtain ⟨g', hmem, hreq, hfrom⟩ := hflood.got hi
      refine ⟨g', ?_, hreq, hfrom⟩
      rw [List.getElem_append_left hi]
      exact hrest.subset (List.mem_cons_of_mem _ hmem)
    · refine ⟨g, ?_, ?_, ?_⟩
      · rw [List.getElem_append_right le_rfl]
        exact hrest.subset (by simp)
      · rw [List.take_length]
        exact hflood.isRequest
      · rw [hflood.headerFrom, List.getLast_eq_getElem]
        simp

/-- **A report of a failure is no invention**: the node that it names as its
source has had a message for the destination in question, which was for another
node, and came from the node that is told. -/
theorem failure_true {p : Flight UInt8 Frame} (hp : p ∈ net.air)
    (h5 : p.frame.data[5]? = some typeFailure) :
    ∃ source v dest hops id g, p.frame.data = message source v hops id 0 [typeFailure, dest] ∧
      (v, g) ∈ p.causes ∧ g.data.getD 0 0 = dest ∧ g.data.getD 1 0 = source ∧
      dest ≠ v ∧ dest ≠ broadcastAddress ∧ source ≠ v :=
  ((run_traced hnode hrun).air p hp).2.failure h5

end Run

/-- Everything sent to a neighbour is acknowledged. -/
def readyLink (_ : List Frame) : LinkAnswer := ⟨true, 0, 0, 0, 0, 0⟩

/-- Node 1 looks for node 3, over node 2, and sends it a message; when it comes to
node 2, node 3 does not acknowledge it. -/
def foundAndSent : List (Event UInt8 MeshCall MeshHandling) :=
  [.call 1 (.beginArp readyLink 3), .handle 2 0 (.recvfromAck readyLink 0),
    .handle 3 1 (.recvfromAck readyLink 0), .handle 2 2 (.recvfromAck readyLink 0),
    .handle 1 3 (.arpReceive readyLink 3 250), .call 1 (.sendApplication readyLink [42] 3 5),
    .handle 2 4 (.recvfromAck silentLink 0)]

/-- The message as it comes to node 3, when node 2 has sent it on. -/
theorem foundAndSent_delivered :
    ∃ net, run (meshStep {1, 2, 3}) (start freshNode) foundAndSent = some net ∧ ∃ p ∈ net.air,
      (recvfromAck readyLink (net.node 3) p.frame 10).1 = some ⟨1, 3, 1, 5, [42]⟩ ∧
      ∃ link' buf, .call 1 (.sendApplication link' buf 3 5) ∈ foundAndSent ∧
        [42] = buf.take (10 : UInt8).toNat := by
  have hrun : run (meshStep {1, 2, 3}) (start freshNode) foundAndSent = some _ := rfl
  refine ⟨_, hrun, _, List.mem_of_getElem? (i := 5) rfl, by decide, ?_⟩
  exact (@delivered_was_sent foundAndSent {1, 2, 3} freshNode _ (fun _ _ => ⟨rfl, rfl⟩) hrun _
    (List.mem_of_getElem? (i := 5) rfl) 3 (by decide) readyLink 10 ⟨1, 3, 1, 5, [42]⟩
    (by decide)).2

/-- The response as node 2 sends it on. -/
theorem foundAndSent_response :
    ∃ net, run (meshStep {1, 2, 3}) (start freshNode) foundAndSent = some net ∧
      ∃ p ∈ net.air, p.frame.data = [1, 3, 1, 0, 0, typeResponse, 1, 3, 2] ∧
      ∃ source target l hops id,
        p.frame.data = discovery source target hops id 0 typeResponse target l ∧
        (source :: (l ++ [target])).Nodup ∧
        ∀ i (hi : i < (l ++ [target]).length), ∃ g, ((l ++ [target])[i], g) ∈ p.causes ∧
          IsRequest g.data source target (l.take i) ∧ (source :: l)[i]? = some g.headerFrom := by
  have hrun : run (meshStep {1, 2, 3}) (start freshNode) foundAndSent = some _ := rfl
  refine ⟨_, hrun, _, List.mem_of_getElem? (i := 3) rfl, by decide, ?_⟩
  exact response_true (fun _ _ => ⟨rfl, rfl⟩) hrun (List.mem_of_getElem? (i := 3) rfl) (by decide)

/-- The report that node 2 could not pass the message on. -/
theorem foundAndSent_failure :
    ∃ net, run (meshStep {1, 2, 3}) (start freshNode) foundAndSent = some net ∧
      ∃ p ∈ net.air, p.frame.data = [1, 2, 0, 1, 0, typeFailure, 3] ∧
      ∃ source v dest hops id g, p.frame.data = message source v hops id 0 [typeFailure, dest] ∧
        (v, g) ∈ p.causes ∧ g.data.getD 0 0 = dest ∧ g.data.getD 1 0 = source ∧
        dest ≠ v ∧ dest ≠ broadcastAddress ∧ source ≠ v := by
  have hrun : run (meshStep {1, 2, 3}) (start freshNode) foundAndSent = some _ := rfl
  refine ⟨_, hrun, _, List.mem_of_getElem? (i := 6) rfl, by decide, ?_⟩
  exact failure_true (fun _ _ => ⟨rfl, rfl⟩) hrun (List.mem_of_getElem? (i := 6) rfl) (by decide)

end RHMesh
