/-
Routed messages do not go round for ever.

A network of routers with any routing tables, which may change at any time,
over any links.  The HOPS octet of a message counts how often it has been
forwarded, and a node forwards a message only while that is less than its
`_max_hops`; so the count, which has eight bits, never wraps.

* `RouterCall`, `Handling`, `routerStep` — what can happen in the network;
* `Counted` — the HOPS octet is the number of nodes the message came through;
* `forwarded_at_most` — no more than the largest `_max_hops`.
-/
import RadioHead.Lib.Medium
import RadioHead.Sends

open Run Medium

namespace RHRouter

variable {β : Type}

/-- What a node does of its own accord: it sends a message, its own or in
another's name, or its routing table changes. -/
inductive RouterCall where
  | sendtoFromSourceWait (link : List Frame → LinkAnswer) (buf : List UInt8)
      (dest source flags : UInt8)
  | setRoutes (routes : RoutingTable)

/-- The links of a node that handles a message, and its buffer. -/
structure Handling where
  link : List Frame → LinkAnswer
  len : UInt8

def call (s : RHRouter β) : RouterCall → RHRouter β
  | .sendtoFromSourceWait link buf dest source flags =>
    (s.sendtoFromSourceWait (route link) buf dest source flags).2
  | .setRoutes routes => { s with routes := routes }

/-- The network of the routers `nodes`. -/
def routerStep (nodes : Finset UInt8) :
    Net UInt8 (RHRouter β) Frame → Event UInt8 RouterCall Handling →
      Option (Net UInt8 (RHRouter β) Frame) :=
  step nodes (fun e s => (s.call e, s.sentSince (s.call e)))
    fun d f s =>
      let t := (s.recvfromAck (virtuals d.link) f d.len).2
      (t, s.sentSince t)

/-- The largest `_max_hops` of the nodes. -/
def hopLimit (nodes : Finset UInt8) (node : UInt8 → RHRouter β) : ℕ :=
  nodes.sup fun v => (node v).maxHops.toNat

/-- `g` is `f` sent on: the same octets, with one more hop. -/
structure Forwards (g f : Frame) : Prop where
  data : g.data = f.forwarded
  hops : g.hops.toNat = f.hops.toNat + 1

/-- The hops of a message are the nodes it came through. -/
structure Counted (limit : ℕ) (p : Flight UInt8 Frame) : Prop where
  header : routedHeaderLen ≤ p.frame.data.length
  fits : p.frame.data.length ≤ maxMessageLen
  hops : p.frame.hops.toNat = p.causes.length
  limit : p.causes.length ≤ limit
  chain : (p.frame :: p.causes.map Prod.snd).IsChain Forwards

theorem hops_forwarded {g f : Frame} (hlen : routedHeaderLen ≤ f.data.length)
    (h : g.data = f.forwarded) : g.hops = f.hops + 1 := by
  rw [routedHeaderLen] at hlen
  rw [Frame.hops, h, Frame.forwarded, List.getD_eq_getElem?_getD,
    List.getElem?_set_self (by omega), Option.getD_some]

/-- A message with all its header and no hops. -/
def Unforwarded (data : List UInt8) : Prop := routedHeaderLen ≤ data.length ∧ data.getD 2 0 = 0

/-- A message starts with no hops. -/
theorem call_sends (s : RHRouter β) (e : RouterCall) : Sends Unforwarded s (s.call e) := by
  cases e with
  | sendtoFromSourceWait link buf dest source flags =>
    refine (sendtoFromSourceWait_sends (fun s n h => route_sends link s h) s ⟨?_, ?_⟩).toSends
    · rw [List.length_append]
      exact Nat.le_add_right 5 _
    · rfl
  | setRoutes routes =>
    exact Sends.quiet rfl rfl rfl

/-- A node sends on what it has got, if its hops are not used up. -/
theorem recvfromAck_forwards (link : List Frame → LinkAnswer) (s : RHRouter β) {f : Frame}
    (hlen : routedHeaderLen ≤ f.data.length) (hmax : f.data.length ≤ maxMessageLen)
    (len : UInt8) :
    Sends (fun data => data = f.forwarded ∧ f.hops < s.maxHops) s
      (s.recvfromAck (virtuals link) f len).2 := by
  by_cases htakes : s.Takes f
  · refine (taken_sends s f).trans ?_
    refine (recvfromAck_sends (v := virtuals link) ?_ ?_ htakes hlen hmax ?_ len).toSends
    · exact fun s n => ⟨s.routes, s.accesses, rfl⟩
    · exact fun s n h => route_sends link s h
    · exact fun _ _ hhops => ⟨rfl, hhops⟩
  · rw [recvfromAck_of_not_takes htakes]
    exact skipped_sends s f

theorem run_counted {nodes : Finset UInt8} {node : UInt8 → RHRouter β}
    {es : List (Event UInt8 RouterCall Handling)} {net : Net UInt8 (RHRouter β) Frame}
    (hrun : run (routerStep nodes) (start node) es = some net) :
    Holds nodes (fun _ s => s.maxHops.toNat ≤ hopLimit nodes node)
      (Counted (hopLimit nodes node)) net := by
  refine run_holds ?_ ?_ ?_ hrun
  · intro v _ e s hs
    have h := s.call_sends e
    refine ⟨h.maxHops ▸ hs, ?_⟩
    intro f hf
    obtain ⟨-, hfits, hheader, h0⟩ := h.sentSince hf
    have hhops : f.hops = 0 := h0
    exact ⟨hheader, hfits, by rw [hhops]; rfl, Nat.zero_le _, List.isChain_singleton f⟩
  · intro v _ d p s hs hp
    have h := recvfromAck_forwards d.link s hp.header hp.fits d.len
    refine ⟨h.maxHops ▸ hs, ?_⟩
    intro g hg
    obtain ⟨-, hfits, hdata, hlt⟩ := h.sentSince hg
    have hhops : g.hops.toNat = p.frame.hops.toNat + 1 := by
      rw [hops_forwarded hp.header hdata, toNat_succ_of_lt hlt]
    refine ⟨?_, hfits, ?_, ?_, ?_⟩
    · rw [hdata, Frame.forwarded, List.length_set]
      exact hp.header
    · rw [hhops, hp.hops]
      rfl
    · have := UInt8.lt_iff_toNat_lt.mp hlt
      rw [hp.hops] at this
      show p.causes.length + 1 ≤ _
      omega
    · exact List.isChain_cons_cons.mpr ⟨⟨hdata, hhops⟩, hp.chain⟩
  · intro v hv
    exact Finset.le_sup (f := fun v => (node v).maxHops.toNat) hv

/-- **Along every chain of forwardings the HOPS octet goes up by one each time,
there are no more than the largest `_max_hops` of them, and then no node sends
the message on.** -/
theorem forwarded_at_most {nodes : Finset UInt8} {node : UInt8 → RHRouter β}
    {es : List (Event UInt8 RouterCall Handling)} {net : Net UInt8 (RHRouter β) Frame}
    (hrun : run (routerStep nodes) (start node) es = some net) {p : Flight UInt8 Frame}
    (hp : p ∈ net.air) :
    (p.frame :: p.causes.map Prod.snd).IsChain Forwards ∧
      p.causes.length ≤ hopLimit nodes node ∧
      (p.causes.length = hopLimit nodes node → ∀ v ∈ nodes, ∀ link len,
        ((net.node v).recvfromAck (virtuals link) p.frame len).2.sent = (net.node v).sent) := by
  have h := run_counted hrun
  have hc := h.air p hp
  refine ⟨hc.chain, hc.limit, ?_⟩
  intro hend v hv link len
  refine Sends.sent_eq ((recvfromAck_forwards link _ hc.header hc.fits len).mono ?_)
  rintro _ ⟨-, hlt⟩
  have hle := h.node v hv
  have := UInt8.lt_iff_toNat_lt.mp hlt
  rw [hc.hops] at this
  omega

/-- Nodes 1 and 2 take each other for the next hop to node 9; each of them sends
a message on twice at most. -/
def pointingAtEachOther (v : UInt8) : RHRouter Unit :=
  { constructed v () with
    maxHops := 2
    routes := noRoutes.addRouteTo 9 (3 - v) }

/-- Node 1 sends a message to node 9; it comes back, and is dropped when it is
at node 2 again. -/
def roundTrip : List (Event UInt8 RouterCall Handling) :=
  [.call 1 (.sendtoFromSourceWait silentLink [7] 9 1 0), .handle 2 0 ⟨silentLink, 0⟩,
    .handle 1 1 ⟨silentLink, 0⟩, .handle 2 2 ⟨silentLink, 0⟩]

theorem roundTrip_forwarded :
    ∃ net, run (routerStep {1, 2}) (start pointingAtEachOther) roundTrip = some net ∧
      net.air.map (fun p => (p.frame.hops, p.causes.length)) = [(0, 0), (1, 1), (2, 2)] ∧
      ∀ p ∈ net.air, p.causes.length ≤ hopLimit {1, 2} pointingAtEachOther := by
  refine ⟨_, rfl, by decide, ?_⟩
  intro p hp
  have hrun : run (routerStep {1, 2}) (start pointingAtEachOther) roundTrip = some _ := rfl
  exact (forwarded_at_most hrun hp).2.1

end RHRouter
