/-
The flood of a route discovery dies out.

A network of mesh nodes with distinct addresses, over any links, in which any
number of discoveries run at a time.  The hops of a request start anew with each
node that broadcasts it again; what ends the flood is the list of nodes in the
request, which a node looks through before it adds itself.

A node may be called, and may handle a message in `recvfromAck` or in the wait
loop of `doArp`, at any time: more can happen here than with nodes that do one
thing after another.

* `MeshCall`, `MeshHandling`, `meshStep` — what can happen in the network;
* `Reaction` — what a node may send on account of a message;
* `Flooded` — a request with the messages that led to it, back to its source;
* `visited_list` — the list names the nodes it came through, each of them once.
-/
import RadioHead.Discovery
import RadioHead.HopLimit

open Run Medium

/-- `RH_MESH_MAX_MESSAGE_LEN`. -/
def meshMaxMessageLen : ℕ := 249

namespace RHMesh

open RHRouter

variable {s : RHMesh} {f : Frame} {source target : UInt8} {l : List UInt8}

/-! ### What is sent -/

/-- The octets of a request of `source` for `target`, with the list `l`. -/
def IsRequest (data : List UInt8) (source target : UInt8) (l : List UInt8) : Prop :=
  ∃ hops id flags, data = discovery broadcastAddress source hops id flags typeRequest target l

/-- A message of the mesh, of which `R` holds if it is a request. -/
def Says (R : List UInt8 → Prop) (data : List UInt8) : Prop :=
  6 ≤ data.length ∧ (data[5]? = some typeRequest → R data)

/-- The request `data` is that in `f` with this node, which was not in it yet, at
the end of its list. -/
def Relays (s : RHMesh) (f : Frame) (data : List UInt8) : Prop :=
  ∃ source target l, IsRequest f.data source target l ∧
    IsRequest data source target (l ++ [s.thisAddress]) ∧ source ≠ s.thisAddress ∧
    s.thisAddress ∉ l ∧ l.length < s.maxHops.toNat

/-- A message of another type. -/
theorem says_of_type {R : List UInt8 → Prop} {data : List UInt8} (msgType : UInt8)
    (h5 : data[5]? = some msgType) (hne : msgType ≠ typeRequest) : Says R data := by
  refine ⟨(List.getElem?_eq_some_iff.mp h5).1, ?_⟩
  intro h
  exact absurd (Option.some_inj.mp (h5.symm.trans h)) hne

/-- A failure is no request. -/
theorem says_failure {R : List UInt8 → Prop} (dest source id dead : UInt8) :
    Says R ([dest, source, 0, id, 0] ++ [typeFailure, dead]) :=
  says_of_type typeFailure rfl (by decide)

/-- The answer of the target. -/
theorem answer_sends (link : List Frame → LinkAnswer) {u : RHMesh} {m : Mem}
    (hder : u.derived = m.write 0 ([typeRequest, 1, target] ++ l)) (hfits : 8 + l.length ≤ 251)
    (hphys : isPhysicalAddress u) {R : List UInt8 → Prop} (source : UInt8) :
    SendsOnly (Says R) u (answerRequest link u source (UInt8.ofNat (3 + l.length))
      (UInt8.ofNat l.length)) := by
  have hquiet : SendsOnly (Says R) u (store (u.note (physicalAccesses u)) 0 [typeResponse]) :=
    .quiet rfl rfl rfl
  rw [answerRequest, if_pos hphys]
  dsimp only
  rw [load_answer hder hfits]
  refine hquiet.trans (sendtoFromSourceWait_sends ?_ _ ?_)
  · exact fun s n h => RHMesh.route_sends link says_failure s h
  · exact says_of_type typeResponse rfl (by decide)

theorem answerRequest_sends (link : List Frame → LinkAnswer) {u : RHMesh} {m : Mem}
    (hder : u.derived = m.write 0 ([typeRequest, 1, target] ++ l)) (hfits : 8 + l.length ≤ 251)
    {R : List UInt8 → Prop}
    (hrelay : l.length < u.maxHops.toNat →
      ∀ data, IsRequest data source target (l ++ [u.thisAddress]) → R data) :
    SendsOnly (Says R) u (answerRequest link u source (UInt8.ofNat (3 + l.length))
      (UInt8.ofNat l.length)) := by
  have hn : (UInt8.ofNat l.length).toNat = l.length :=
    UInt8.toNat_ofNat_of_lt' (show l.length < 256 by omega)
  have hroute : ∀ (s : RHMesh) n, Says R (s.tmpMessage.load 0 n.toNat) →
      SendsOnly (Says R) s (route link s n).2 :=
    fun s n h => RHMesh.route_sends link says_failure s h
  by_cases hphys : isPhysicalAddress u
  · exact answer_sends link hder hfits hphys source
  rw [answerRequest, if_neg hphys]
  dsimp only
  split
  · rename_i hlt
    have hlt := UInt8.lt_iff_toNat_lt.mp hlt
    rw [hn] at hlt
    set accesses := physicalAccesses u ++ [.upTo (routeOctet + (UInt8.ofNat l.length).toNat + 1)]
    have hquiet : SendsOnly (Says R) u
        (store (u.note accesses) (3 + (UInt8.ofNat l.length).toNat) [u.thisAddress]) :=
      .quiet rfl rfl rfl
    have hload := load_relay hder hfits accesses
    refine hquiet.trans ?_
    show SendsOnly (Says R) _ (sendtoFromSourceWait (route link) _ (Mem.load _ 0 _) _ _).2
    rw [hload]
    refine sendtoFromSourceWait_sends hroute _ ⟨?_, fun _ => hrelay hlt _ ⟨_, _, _, rfl⟩⟩
    simp only [List.length_append, List.length_cons, List.length_nil]
    omega
  · exact .quiet rfl rfl rfl

/-- A message as it is sent on has the type it had. -/
theorem says_forwarded {R : List UInt8 → Prop} (hlong : 6 ≤ f.data.length)
    (hne : f.data[5]? ≠ some typeRequest) : Says R f.forwarded := by
  have h5 : f.forwarded[5]? = f.data[5]? := List.getElem?_set_ne (by omega)
  refine ⟨?_, fun h => absurd (h5.symm.trans h) hne⟩
  rw [Frame.forwarded, List.length_set]
  exact hlong

/-- The router below sends a message on, or reports that it could not. -/
theorem router_sends (link : List Frame → LinkAnswer) {R : List UInt8 → Prop}
    (htakes : s.Takes f) (hlong : 6 ≤ f.data.length) (hmax : f.data.length ≤ maxMessageLen)
    (hbc : f.data[5]? = some typeRequest → f.data.getD 0 0 = broadcastAddress) (len : UInt8) :
    SendsOnly (Says R) (s.taken f) (RHRouter.recvfromAck (virtuals link) s f len).2 := by
  refine RHRouter.recvfromAck_sends peekAtMessage_eq
    (fun s n h => RHMesh.route_sends link says_failure s h)
    htakes (show 5 ≤ f.data.length by omega) hmax ?_ len
  intro _ haway _
  exact says_forwarded hlong fun h => haway (hbc h)

/-- Only requests are answered, or sent on, once they have been delivered. -/
theorem handleReceived_quiet (link : List Frame → LinkAnswer) {P : List UInt8 → Prop} {r : Received}
    (h : (store s 0 r.buf).derived 0 ≠ typeRequest) (len : UInt8) :
    SendsOnly P s (handleReceived link s r len).2 := by
  rw [handleReceived]
  dsimp only
  split
  · split
    · exact .quiet rfl rfl rfl
    · rw [if_neg fun hreq => h hreq.2.2]
      exact .quiet rfl rfl rfl
  · exact .quiet rfl rfl rfl

/-- The type of a message that is delivered is that of the frame. -/
theorem derived_delivered (hlong : 6 ≤ f.data.length)
    (hmax : f.data.length ≤ maxMessageLen) :
    let r := (peeked s f).deliver f.storedLen meshMessageSize
    (store r.2 0 r.1.buf).derived 0 = f.data.getD 5 0 := by
  have hn : f.storedLen.toNat = f.data.length := by
    rw [storedLen_toNat, routedMessageSize]
    rw [maxMessageLen] at hmax
    omega
  have hmsg := peeked_tmpMessage s f
  intro r
  have hbuf : r.1.buf = (stored f s.tmpMessage).load 5 (f.data.length - 5) := by
    show ((peeked s f).deliver f.storedLen meshMessageSize).1.buf = _
    rw [deliver_meshMessageSize _ (show 5 ≤ f.storedLen.toNat by omega), hn, hmsg]
    rfl
  have hpos : 0 < r.1.buf.length := by
    rw [hbuf, Mem.length_load]
    omega
  have hget := Mem.write_get hpos r.2.derived 0
  rw [Nat.add_zero] at hget
  refine hget.trans ?_
  simp only [hbuf, Mem.getElem_load]
  exact getD_stored (by omega) hmax s.tmpMessage

/-- A message that is no request leads to none. -/
theorem recvfromAck_others (link : List Frame → LinkAnswer) (htakes : s.Takes f)
    (hlong : 6 ≤ f.data.length) (hmax : f.data.length ≤ maxMessageLen)
    (h5 : f.data[5]? ≠ some typeRequest) {R : List UInt8 → Prop} (len : UInt8) :
    SendsOnly (Says R) (s.taken f) (recvfromAck link s f len).2 := by
  have hpeeked : SendsOnly (Says R) (s.taken f) (peeked s f) := by
    obtain ⟨r, a, hp⟩ := peekAtMessage_eq (s.taken f) f.storedLen
    rw [peeked, hp]
    exact .quiet rfl rfl rfl
  by_cases hhere : (peeked s f).Here
  · rw [recvfromAck_here htakes hhere]
    have hdelivered : SendsOnly (Says R) (peeked s f)
        ((peeked s f).deliver f.storedLen meshMessageSize).2 := .quiet rfl rfl rfl
    refine hpeeked.trans (hdelivered.trans (handleReceived_quiet link ?_ len))
    rw [derived_delivered hlong hmax]
    rw [List.getElem?_eq_getElem (by omega), ne_eq, Option.some_inj] at h5
    rwa [List.getD_eq_getElem?_getD, List.getElem?_eq_getElem (by omega), Option.getD_some]
  · have hrouter := router_sends (R := R) link htakes hlong hmax (fun h => absurd h h5) len
    rw [recvfromAck_of_takes htakes] at hrouter
    have haway : (s.taken f).dispatch (virtuals link) f.storedLen len = (none, _) :=
      if_neg hhere
    rw [recvfromAck_away htakes hhere]
    rwa [haway] at hrouter

/-- **What a node sends on account of a message is no request, but for the one
it has got, with its own address at the end of the list.** -/
theorem recvfromAck_sends (link : List Frame → LinkAnswer) (s : RHMesh) {f : Frame}
    (hlong : 6 ≤ f.data.length) (hmax : f.data.length ≤ maxMessageLen)
    (hreq : f.data[5]? = some typeRequest → ∃ source target l, IsRequest f.data source target l)
    (len : UInt8) : Sends (Says (Relays s f)) s (recvfromAck link s f len).2 := by
  by_cases htakes : s.Takes f
  swap
  · rw [recvfromAck_of_not_takes htakes]
    exact skipped_sends s f
  refine (taken_sends s f).trans ?_
  by_cases h5 : f.data[5]? = some typeRequest
  · obtain ⟨source, target, l, hops, id, flags, hdata⟩ := hreq h5
    have hfits := (stored_discovery hdata hmax s.tmpMessage).fits
    by_cases hseen : source = s.thisAddress ∨ s.thisAddress ∈ l
    · obtain ⟨a, heq, -⟩ := recvfromAck_request link htakes hdata hmax len
      have h' : source = (s.taken f).thisAddress ∨ (s.taken f).thisAddress ∈ l := by
        rwa [taken_thisAddress]
      obtain ⟨a', hdrop⟩ := handleRequest_listed link (t := { s.taken f with
        derived := s.derived.write 0 ([typeRequest, 1, target] ++ l), accesses := a }) rfl hfits h'
      rw [heq, hdrop]
      exact Sends.quiet rfl rfl rfl
    · rw [not_or] at hseen
      obtain ⟨hrec, hder, -, heq⟩ := request_new link htakes hdata hmax hseen.1 hseen.2 len
      have hquiet : SendsOnly (Says (Relays s f)) (s.taken f) (recorded link s f) :=
        .quiet hrec.datagram hrec.maxHops hrec.sent
      have hthis : (recorded link s f).thisAddress = s.thisAddress := hrec.handled.thisAddress
      rw [heq]
      refine (hquiet.trans (answerRequest_sends link hder hfits ?_)).toSends
      rw [hthis, hrec.maxHops]
      intro hlt data hdata'
      exact ⟨source, target, l, ⟨hops, id, flags, hdata⟩, hdata', hseen.1, hseen.2, hlt⟩
  · exact (recvfromAck_others link htakes hlong hmax h5 len).toSends

/-- In the wait loop of `doArp` no request is sent at all. -/
theorem arpReceive_sends (link : List Frame → LinkAnswer) (s : RHMesh) {f : Frame}
    (hlong : 6 ≤ f.data.length) (hmax : f.data.length ≤ maxMessageLen)
    (hbc : f.data[5]? = some typeRequest → f.data.getD 0 0 = broadcastAddress)
    {R : List UInt8 → Prop} (address messageLen : UInt8) :
    Sends (Says R) s (arpReceive link s address messageLen f).2.2 := by
  by_cases htakes : s.Takes f
  · have h := (taken_sends s f).trans
      (router_sends (R := R) link htakes hlong hmax hbc messageLen).toSends
    rw [arpReceive]
    rcases hr : RHRouter.recvfromAck (virtuals link) s f messageLen with ⟨_ | r, t⟩
    · rw [hr] at h
      exact h
    · rw [hr] at h
      dsimp only
      split
      · exact h.trans (.quiet rfl rfl rfl)
      · exact h.trans (.quiet rfl rfl rfl)
  · rw [arpReceive_of_not_takes link htakes]
    exact skipped_sends s f

/-- `doArp` sends a request with an empty list. -/
theorem beginArp_sends (link : List Frame → LinkAnswer) (s : RHMesh) (address : UInt8) :
    Sends (Says fun data => IsRequest data s.thisAddress address []) s
      (beginArp link s address).2 := by
  have hload : (store s 0 [typeRequest, 1, address]).derived.load 0 (meshHeaderLen + 2) =
      [typeRequest, 1, address] := Mem.load_write_self s.derived 0 [typeRequest, 1, address]
  have hquiet : Sends (Says fun data => IsRequest data s.thisAddress address []) s
      (store s 0 [typeRequest, 1, address]) := .quiet rfl rfl rfl
  rw [beginArp, hload]
  refine hquiet.trans (sendtoFromSourceWait_sends
    (fun s n h => RHMesh.route_sends link says_failure s h) _ ⟨?_, ?_⟩).toSends
  · exact (show 6 ≤ 8 by omega)
  · exact fun _ => ⟨_, _, _, rfl⟩

/-- `RHMesh::sendtoWait` once there is a route. -/
def sendApplication (link : List Frame → LinkAnswer) (s : RHMesh) (buf : List UInt8)
    (address flags : UInt8) : RouterError × RHMesh :=
  if meshMaxMessageLen < buf.length then (.invalidLength, s)
  else
    let s := store s 0 (typeApplication :: buf)
    s.sendtoWait (route link) (s.derived.load 0 (meshHeaderLen + buf.length)) address flags

theorem sendApplication_sends (link : List Frame → LinkAnswer) (s : RHMesh) (buf : List UInt8)
    (address flags : UInt8) {R : List UInt8 → Prop} :
    Sends (Says R) s (sendApplication link s buf address flags).2 := by
  rw [sendApplication]
  split
  · exact .quiet rfl rfl rfl
  · have hload : (store s 0 (typeApplication :: buf)).derived.load 0 (meshHeaderLen + buf.length) =
        typeApplication :: buf := by
      have := Mem.load_write_self s.derived 0 (typeApplication :: buf)
      rwa [List.length_cons, Nat.add_comm] at this
    have hquiet : Sends (Says R) s (store s 0 (typeApplication :: buf)) := .quiet rfl rfl rfl
    dsimp only
    rw [hload]
    refine hquiet.trans (sendtoFromSourceWait_sends
      (fun s n h => RHMesh.route_sends link says_failure s h) _ ?_).toSends
    exact says_of_type typeApplication rfl (by decide)

/-! ### The network -/

/-- What a node is called for: a discovery, a message, or its routing table
changes. -/
inductive MeshCall where
  | beginArp (link : List Frame → LinkAnswer) (address : UInt8)
  | sendApplication (link : List Frame → LinkAnswer) (buf : List UInt8) (address flags : UInt8)
  | setRoutes (routes : RoutingTable)

/-- Where a node handles a message. -/
inductive MeshHandling where
  | recvfromAck (link : List Frame → LinkAnswer) (len : UInt8)
  | arpReceive (link : List Frame → LinkAnswer) (address messageLen : UInt8)

def perform (s : RHMesh) : MeshCall → RHMesh
  | .beginArp link address => (RHMesh.beginArp link s address).2
  | .sendApplication link buf address flags =>
    (RHMesh.sendApplication link s buf address flags).2
  | .setRoutes routes => { s with routes := routes }

def handle (s : RHMesh) (f : Frame) : MeshHandling → RHMesh
  | .recvfromAck link len => (RHMesh.recvfromAck link s f len).2
  | .arpReceive link address messageLen => (RHMesh.arpReceive link s address messageLen f).2.2

/-- The network of the mesh nodes `nodes`. -/
def meshStep (nodes : Finset UInt8) :
    Net UInt8 RHMesh Frame → Event UInt8 MeshCall MeshHandling → Option (Net UInt8 RHMesh Frame) :=
  step nodes (fun e s => (s.perform e, s.sentSince (s.perform e)))
    fun d f s => (s.handle f d, s.sentSince (s.handle f d))

/-- A request with the messages that led to it: one that `source` sends of its
own accord, or one of a node `v` that has got a request and is new in its list. -/
inductive Flooded (source target : UInt8) : List UInt8 → Frame → List (UInt8 × Frame) → Prop
  | origin {f : Frame} (hf : IsRequest f.data source target []) (hfrom : f.headerFrom = source) :
      Flooded source target [] f []
  | relay {l : List UInt8} {f g : Frame} {causes : List (UInt8 × Frame)} {v : UInt8}
      (h : Flooded source target l f causes) (hg : IsRequest g.data source target (l ++ [v]))
      (hfrom : g.headerFrom = v) (hnew : v ∉ source :: l) :
      Flooded source target (l ++ [v]) g ((v, f) :: causes)

theorem IsRequest.unique {data : List UInt8} {source' target' : UInt8} {l' : List UInt8}
    (h : IsRequest data source target l) (h' : IsRequest data source' target' l') :
    source = source' ∧ target = target' ∧ l = l' := by
  obtain ⟨hops, id, flags, rfl⟩ := h
  obtain ⟨hops', id', flags', h'⟩ := h'
  simp only [discovery, List.cons_append, List.nil_append, List.cons.injEq] at h'
  obtain ⟨-, h₁, -, -, -, -, -, h₂, h₃⟩ := h'
  exact ⟨h₁, h₂, h₃⟩

namespace Flooded

variable {causes : List (UInt8 × Frame)}

theorem isRequest (h : Flooded source target l f causes) : IsRequest f.data source target l := by
  cases h with
  | origin hf _ => exact hf
  | relay _ hg _ _ => exact hg

/-- The last node of the list is the one that has sent the message. -/
theorem headerFrom (h : Flooded source target l f causes) :
    f.headerFrom = (source :: l).getLast (List.cons_ne_nil source l) := by
  cases h with
  | origin _ hfrom => exact hfrom
  | relay _ _ hfrom _ =>
    rw [hfrom, List.getLast_cons (by simp), List.getLast_append_singleton]

theorem nodup (h : Flooded source target l f causes) : (source :: l).Nodup := by
  induction h with
  | origin _ _ => exact List.nodup_singleton source
  | relay _ _ _ hnew ih =>
    rw [← List.cons_append]
    exact List.nodup_append.mpr ⟨ih, List.nodup_singleton _, by
      intro a ha b hb
      rw [List.mem_singleton.mp hb]
      exact ne_of_mem_of_not_mem ha hnew⟩

theorem length_causes (h : Flooded source target l f causes) : causes.length = l.length := by
  induction h with
  | origin _ _ => rfl
  | relay _ _ _ _ ih => rw [List.length_cons, ih, List.length_append, List.length_singleton]

/-- Each node of the list has got the request from the one before it. -/
theorem got (h : Flooded source target l f causes) {i : ℕ} (hi : i < l.length) :
    ∃ g, (l[i], g) ∈ causes ∧ IsRequest g.data source target (l.take i) ∧
      (source :: l)[i]? = some g.headerFrom := by
  induction h with
  | origin _ _ => exact absurd hi (Nat.not_lt_zero i)
  | @relay l f g causes v h _ _ _ ih =>
    rw [List.length_append, List.length_singleton] at hi
    rcases Nat.lt_succ_iff_lt_or_eq.mp hi with hi | rfl
    · obtain ⟨g', hmem, hreq, hfrom⟩ := ih hi
      refine ⟨g', ?_, ?_, ?_⟩
      · rw [List.getElem_append_left hi]
        exact List.mem_cons_of_mem _ hmem
      · rwa [List.take_append_of_le_length hi.le]
      · rw [← List.cons_append, List.getElem?_append_left (by rw [List.length_cons]; omega)]
        exact hfrom
    · refine ⟨f, ?_, ?_, ?_⟩
      · rw [List.getElem_append_right le_rfl]
        simp
      · rw [List.take_left]
        exact h.isRequest
      · rw [← List.cons_append, List.getElem?_append_left (by simp), h.headerFrom,
          List.getLast_eq_getElem]
        simp

end Flooded

/-- The messages in the air: a request has gone through nodes of the network
only, and no more than `limit` of them. -/
structure Legal (nodes : Finset UInt8) (limit : ℕ) (p : Flight UInt8 Frame) : Prop where
  long : 6 ≤ p.frame.data.length
  fits : p.frame.data.length ≤ maxMessageLen
  request : p.frame.data[5]? = some typeRequest → ∃ source target l,
    Flooded source target l p.frame p.causes ∧ l.length ≤ limit ∧ ∀ v ∈ source :: l, v ∈ nodes

theorem Legal.broadcast {nodes : Finset UInt8} {limit : ℕ} {p : Flight UInt8 Frame}
    (h : Legal nodes limit p) (h5 : p.frame.data[5]? = some typeRequest) :
    p.frame.data.getD 0 0 = broadcastAddress := by
  obtain ⟨source, target, l, hflood, -⟩ := h.request h5
  obtain ⟨hops, id, flags, hdata⟩ := hflood.isRequest
  rw [hdata]
  rfl

/-- A node with its own address in the headers, and its hops within the limit. -/
structure Configured (limit : ℕ) (v : UInt8) (s : RHMesh) : Prop where
  thisAddress : s.thisAddress = v
  txHeaderFrom : s.txHeaderFrom = v
  maxHops : s.maxHops.toNat ≤ limit

theorem Configured.of_sends {limit : ℕ} {v : UInt8} {t : RHMesh} {P : List UInt8 → Prop}
    (h : Configured limit v s) (ht : Sends P s t) : Configured limit v t where
  thisAddress := ht.thisAddress.trans h.thisAddress
  txHeaderFrom := ht.txHeaderFrom.trans h.txHeaderFrom
  maxHops := ht.maxHops ▸ h.maxHops

/-- A message sent of the node's own accord. -/
theorem legal_perform {nodes : Finset UInt8} {limit : ℕ} {v : UInt8} (hv : v ∈ nodes)
    (hs : Configured limit v s) (e : MeshCall) :
    Configured limit v (s.perform e) ∧
      ∀ f ∈ s.sentSince (s.perform e), Legal nodes limit ⟨f, []⟩ := by
  -- whatever it is, a request among it has an empty list
  have h : ∃ target, Sends (Says fun data => IsRequest data s.thisAddress target []) s
      (s.perform e) := by
    cases e with
    | beginArp link address => exact ⟨address, beginArp_sends link s address⟩
    | sendApplication link buf address flags =>
      exact ⟨0, sendApplication_sends link s buf address flags⟩
    | setRoutes routes => exact ⟨0, .quiet rfl rfl rfl⟩
  obtain ⟨target, h⟩ := h
  refine ⟨hs.of_sends h, ?_⟩
  intro f hf
  obtain ⟨hfrom, hfits, hlong, hreq⟩ := h.sentSince hf
  refine ⟨hlong, hfits, ?_⟩
  intro h5
  have hreq := hreq h5
  rw [hs.thisAddress] at hreq
  refine ⟨v, target, [], .origin hreq (hfrom.trans hs.txHeaderFrom), Nat.zero_le _, ?_⟩
  simpa using hv

/-- A message sent on account of another. -/
theorem legal_handle {nodes : Finset UInt8} {limit : ℕ} {v : UInt8} (hv : v ∈ nodes)
    (hs : Configured limit v s) {p : Flight UInt8 Frame} (hp : Legal nodes limit p)
    (d : MeshHandling) :
    Configured limit v (s.handle p.frame d) ∧
      ∀ g ∈ s.sentSince (s.handle p.frame d), Legal nodes limit ⟨g, (v, p.frame) :: p.causes⟩ := by
  have h : Sends (Says (Relays s p.frame)) s (s.handle p.frame d) := by
    cases d with
    | recvfromAck link len =>
      refine recvfromAck_sends link s hp.long hp.fits ?_ len
      intro h5
      obtain ⟨source, target, l, hflood, -⟩ := hp.request h5
      exact ⟨source, target, l, hflood.isRequest⟩
    | arpReceive link address messageLen =>
      exact arpReceive_sends link s hp.long hp.fits hp.broadcast address messageLen
  refine ⟨hs.of_sends h, ?_⟩
  intro g hg
  obtain ⟨hfrom, hfits, hlong, hrelays⟩ := h.sentSince hg
  refine ⟨hlong, hfits, ?_⟩
  intro h5
  obtain ⟨source, target, l, hreq, hreq', hne, hnew, hlt⟩ := hrelays h5
  rw [hs.thisAddress] at hreq' hne hnew
  have hreq5 : p.frame.data[5]? = some typeRequest := by
    obtain ⟨hops, id, flags, hdata⟩ := hreq
    rw [hdata]
    rfl
  obtain ⟨source', target', l', hflood, -, hnodes⟩ := hp.request hreq5
  obtain ⟨rfl, rfl, rfl⟩ := hreq.unique hflood.isRequest
  refine ⟨source, target, l ++ [v], .relay hflood hreq' (hfrom.trans hs.txHeaderFrom) ?_, ?_, ?_⟩
  · exact fun hmem => (List.mem_cons.mp hmem).elim (fun h => hne h.symm) hnew
  · have := hs.maxHops
    rw [List.length_append, List.length_singleton]
    omega
  · intro w hw
    rw [← List.cons_append] at hw
    rcases List.mem_append.mp hw with hw | hw
    · exact hnodes w hw
    · rwa [List.mem_singleton.mp hw]

theorem run_legal {nodes : Finset UInt8} {node : UInt8 → RHMesh}
    (hnode : ∀ v ∈ nodes, (node v).thisAddress = v ∧ (node v).txHeaderFrom = v)
    {es : List (Event UInt8 MeshCall MeshHandling)} {net : Net UInt8 RHMesh Frame}
    (hrun : run (meshStep nodes) (start node) es = some net) :
    Holds nodes (Configured (hopLimit nodes node)) (Legal nodes (hopLimit nodes node)) net := by
  refine run_holds ?_ ?_ ?_ hrun
  · exact fun v hv e s hs => legal_perform hv hs e
  · exact fun v hv d p s hs hp => legal_handle hv hs hp d
  · intro v hv
    exact ⟨(hnode v hv).1, (hnode v hv).2,
      Finset.le_sup (f := fun v => (node v).maxHops.toNat) hv⟩

/-- **The list of a request names the nodes it came through, one after another
and each of them once; there are no more of them than the largest `_max_hops`,
nor than there are nodes.** -/
theorem visited_list {nodes : Finset UInt8} {node : UInt8 → RHMesh}
    (hnode : ∀ v ∈ nodes, (node v).thisAddress = v ∧ (node v).txHeaderFrom = v)
    {es : List (Event UInt8 MeshCall MeshHandling)} {net : Net UInt8 RHMesh Frame}
    (hrun : run (meshStep nodes) (start node) es = some net) {p : Flight UInt8 Frame}
    (hp : p ∈ net.air) (h5 : p.frame.data[5]? = some typeRequest) :
    ∃ source target l, IsRequest p.frame.data source target l ∧ (source :: l).Nodup ∧
      l.length ≤ hopLimit nodes node ∧
      p.frame.headerFrom = (source :: l).getLast (List.cons_ne_nil source l) ∧
      (∀ i (hi : i < l.length), ∃ g, (l[i], g) ∈ p.causes ∧
        IsRequest g.data source target (l.take i) ∧ (source :: l)[i]? = some g.headerFrom) ∧
      p.causes.length = l.length ∧ p.causes.length ≤ min nodes.card (hopLimit nodes node) := by
  obtain ⟨source, target, l, hflood, hlimit, hnodes⟩ := ((run_legal hnode hrun).air p hp).request h5
  have hlen := hflood.length_causes
  have hcard : l.length + 1 ≤ nodes.card := by
    rw [← List.length_cons, ← List.toFinset_card_of_nodup hflood.nodup]
    exact Finset.card_le_card fun v hv => hnodes v (List.mem_toFinset.mp hv)
  refine ⟨source, target, l, hflood.isRequest, hflood.nodup, hlimit, hflood.headerFrom,
    fun i hi => hflood.got hi, hlen, ?_⟩
  rw [hlen]
  exact le_min (by omega) hlimit

/-- Three nodes as they come up. -/
def freshNode (v : UInt8) : RHMesh := constructed v fun _ => 0

/-- Node 1 looks for node 4; node 2 sends the request on, then node 3. -/
def relayedTwice : List (Event UInt8 MeshCall MeshHandling) :=
  [.call 1 (.beginArp silentLink 4), .handle 2 0 (.recvfromAck silentLink 0),
    .handle 3 1 (.recvfromAck silentLink 0), .handle 2 2 (.recvfromAck silentLink 0)]

theorem relayedTwice_visited :
    ∃ net, run (meshStep {1, 2, 3}) (start freshNode) relayedTwice = some net ∧
      net.air.map (fun p => (p.frame.data.drop routeOctet, p.causes.map Prod.fst)) =
        [([], []), ([2], [2]), ([2, 3], [3, 2])] ∧
      ∀ p ∈ net.air, p.frame.data[5]? = some typeRequest →
        p.causes.length ≤ min 3 (hopLimit {1, 2, 3} freshNode) := by
  refine ⟨_, rfl, by decide, ?_⟩
  intro p hp h5
  have hrun : run (meshStep {1, 2, 3}) (start freshNode) relayedTwice = some _ := rfl
  obtain ⟨_, _, _, -, -, -, -, -, -, h⟩ := visited_list (fun _ _ => ⟨rfl, rfl⟩) hrun hp h5
  exact h

end RHMesh
