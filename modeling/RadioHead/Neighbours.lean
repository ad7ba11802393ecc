/-
The next hops of a mesh node are its neighbours.

Whatever a node learns from a message it learns as a route over the node that
has sent it the frame.  That is read from a register of the driver,
`headerFrom()`, and every frame received overwrites it, those of the wait loops
among them; so it matters when it is read.

* `Over` — all routes of a table lead over certain nodes;
* `Heard` — so do those of a node, and its last frame is from one of them;
* `handle_over` — no other next hop comes from handling a frame;
* `nextHop_heard` — in every run the next hops are nodes that have been heard.
-/
import RadioHead.Flooding
import RadioHead.RouteFailure

open Run Medium

/-- All next hops are among the nodes `S`. -/
def RoutingTable.Over (S : Set UInt8) (t : RoutingTable) : Prop :=
  ∀ d, ∀ hop ∈ t.nextHop d, hop ∈ S

namespace RoutingTable

variable {S : Set UInt8} {t : RoutingTable}

theorem Over.addRouteTo (h : t.Over S) (dest : UInt8) {hop : UInt8} (hhop : hop ∈ S) :
    (t.addRouteTo dest hop).Over S := by
  intro d hop' hd
  by_cases hdest : d = dest
  · rw [hdest, nextHop_addRouteTo, Option.mem_some_iff] at hd
    exact hd ▸ hhop
  · rw [nextHop, getRouteTo_addRouteTo_other t hdest] at hd
    split at hd
    · cases hd
    · exact h d hop' hd

theorem Over.deleteRouteTo (h : t.Over S) (dest : UInt8) : (t.deleteRouteTo dest).2.Over S := by
  intro d hop hd
  rw [nextHop, getRouteTo_deleteRouteTo] at hd
  split at hd
  · cases hd
  · exact h d hop hd

end RoutingTable

namespace RHMesh

open RHRouter

/-- The routes of the node lead over `S`, and the frame received last is from one
of these nodes. -/
structure Heard (S : Set UInt8) (s : RHMesh) : Prop where
  routes : s.routes.Over S
  rxHeaderFrom : s.rxHeaderFrom ∈ S

section Heard

variable {S : Set UInt8} {s : RHMesh} {f : Frame} {link : List Frame → LinkAnswer}

/-! ### Learning -/

theorem Heard.note (h : Heard S s) (as : List Access) : Heard S (s.note as) :=
  ⟨h.routes, h.rxHeaderFrom⟩

theorem Heard.addRouteTo (h : Heard S s) (dest : UInt8) :
    Heard S (RHRouter.addRouteTo s dest s.rxHeaderFrom) :=
  ⟨h.routes.addRouteTo dest h.rxHeaderFrom, h.rxHeaderFrom⟩

theorem Heard.learn (h : Heard S s) (route : ℕ → UInt8) (idx : List ℕ) :
    Heard S (learn s route idx) := by
  induction idx generalizing s with
  | nil => exact h
  | cons i idx ih =>
    have hnote := h.note [.octet (routeOctet + i)]
    exact ih (hnote.addRouteTo (route i))

theorem Heard.peekAtResponse (h : Heard S s) (n : UInt8) : Heard S (peekAtResponse s n) := by
  rw [RHMesh.peekAtResponse]
  have htarget := (h.note [.octet 7]).addRouteTo (s.tmpMessage 7)
  exact (htarget.note _).learn _ _

theorem Heard.peekAtMessage (h : Heard S s) (n : UInt8) : Heard S (peekAtMessage s n) := by
  rw [RHMesh.peekAtMessage]
  split
  · dsimp only
    split
    · exact (h.note _).peekAtResponse n
    · split
      · exact ⟨h.routes.deleteRouteTo _, h.rxHeaderFrom⟩
      · exact h.note _
  · exact h

/-- With the frame its sender is known. -/
theorem heard_peeked (h : s.routes.Over S) (hf : f.headerFrom ∈ S) : Heard S (peeked s f) := by
  have htaken : Heard S (s.taken f) := ⟨h, hf⟩
  have hpeek := htaken.peekAtMessage f.storedLen
  exact ⟨hpeek.routes, hpeek.rxHeaderFrom⟩

/-! ### Sending -/

theorem router_route_routes (link : List Frame → LinkAnswer) (s : RHMesh) (n : UInt8) :
    (RHRouter.route link s n).2.routes = s.routes := by
  rcases hnext : s.nextHop with _ | hop
  · rw [route_noRoute hnext]
    rfl
  · rw [route_hop hnext]
    exact (linkSendtoWait_keeps link _ _ _).1

/-- A message of the node's own costs a route at most. -/
theorem route_own_over (link : List Frame → LinkAnswer) (h : s.routes.Over S) {n : UInt8}
    (hown : s.tmpMessage 1 = s.thisAddress) : (route link s n).2.routes.Over S := by
  have hroutes := router_route_routes link s n
  by_cases hfail : Fails (RHRouter.route link s n).1
  · rw [route, routeFuel_dropped link 1 hfail hown]
    exact (hroutes ▸ h).deleteRouteTo (s.tmpMessage 0)
  · rw [route, routeFuel_passed link 1 hfail, hroutes]
    exact h

theorem sendtoWait_over (link : List Frame → LinkAnswer) (h : s.routes.Over S) (buf : List UInt8)
    (dest flags : UInt8) : (RHRouter.sendtoWait (route link) s buf dest flags).2.routes.Over S := by
  rw [RHRouter.sendtoWait]
  by_cases hlen : buf.length + routedHeaderLen ≤ maxMessageLen
  · rw [sendtoFromSourceWait_eq s dest s.thisAddress flags _ hlen]
    exact route_own_over link (s := s.composed buf dest s.thisAddress flags) h
      (composed_source s dest s.thisAddress flags)
  · rw [sendtoFromSourceWait, if_pos (not_le.mp hlen)]
    exact h

/-- For one of another node the way back is noted, over the node that it came
from; what is received while the message is sent does not matter. -/
theorem Heard.route (link : List Frame → LinkAnswer) (h : Heard S s) (n : UInt8) :
    (route link s n).2.routes.Over S := by
  by_cases hown : s.tmpMessage 1 = s.thisAddress
  · exact route_own_over link h.routes hown
  have hroutes := router_route_routes link s n
  by_cases hfail : Fails (RHRouter.route link s n).1
  · rw [route_reports hown hfail]
    refine sendtoWait_over link ?_ _ _ _
    have hut := (reporting_keeps link s n).2.2.2.2
    rw [hut, hroutes]
    exact (h.routes.deleteRouteTo _).addRouteTo _ h.rxHeaderFrom
  · rw [RHMesh.route, routeFuel_passed link 1 hfail, hroutes]
    exact h.routes

theorem Heard.sendtoFromSourceWait (link : List Frame → LinkAnswer) (h : Heard S s)
    (buf : List UInt8) (dest source flags : UInt8) :
    (RHRouter.sendtoFromSourceWait (RHMesh.route link) s buf dest source
      flags).2.routes.Over S := by
  by_cases hlen : buf.length + routedHeaderLen ≤ maxMessageLen
  · rw [sendtoFromSourceWait_eq s dest source flags _ hlen]
    exact Heard.route (s := s.composed buf dest source flags) link ⟨h.routes, h.rxHeaderFrom⟩ _
  · rw [RHRouter.sendtoFromSourceWait, if_pos (not_le.mp hlen)]
    exact h.routes

theorem Heard.forward (link : List Frame → LinkAnswer) (h : Heard S s) (n : UInt8) :
    (s.forward (virtuals link) n).routes.Over S := by
  rw [forward_eq]
  split
  · exact Heard.route (s := s.hopped) link ⟨h.routes, h.rxHeaderFrom⟩ n
  · exact h.routes

/-! ### Handling a frame -/

theorem Heard.answerRequest (link : List Frame → LinkAnswer) (h : Heard S s)
    (source tmpMessageLen numRoutes : UInt8) :
    (answerRequest link s source tmpMessageLen numRoutes).routes.Over S := by
  rw [RHMesh.answerRequest]
  dsimp only
  split
  · refine sendtoWait_over link ?_ _ _ _
    exact h.routes
  · split
    · exact Heard.sendtoFromSourceWait link (s := store (s.note _) _ _) ⟨h.routes, h.rxHeaderFrom⟩
        _ _ _ _
    · exact h.routes

theorem Heard.handleRequest (link : List Frame → LinkAnswer) (h : Heard S s)
    (source tmpMessageLen : UInt8) : (handleRequest link s source tmpMessageLen).routes.Over S := by
  rw [RHMesh.handleRequest]
  dsimp only
  split
  · exact h.routes
  · split
    · exact h.routes
    · refine Heard.answerRequest link (Heard.learn ?_ _ _) _ _ _
      exact Heard.addRouteTo (s := s.note _) ⟨h.routes, h.rxHeaderFrom⟩ source

theorem Heard.handleReceived (link : List Frame → LinkAnswer) (h : Heard S s) (r : Received)
    (len : UInt8) : (handleReceived link s r len).2.routes.Over S := by
  rw [RHMesh.handleReceived]
  dsimp only
  split
  · split
    · exact h.routes
    · split
      · exact Heard.handleRequest link (s := (store s 0 r.buf).note _)
          ⟨h.routes, h.rxHeaderFrom⟩ _ _
      · exact h.routes
  · exact h.routes

theorem recvfromAck_over (link : List Frame → LinkAnswer) (h : s.routes.Over S)
    (hf : f.headerFrom ∈ S) (len : UInt8) : (recvfromAck link s f len).2.routes.Over S := by
  by_cases htakes : s.Takes f
  swap
  · rw [recvfromAck_of_not_takes htakes]
    exact h
  have hpeeked := heard_peeked h hf
  by_cases hhere : (peeked s f).Here
  · rw [recvfromAck_here htakes hhere]
    exact Heard.handleReceived link (s := ((peeked s f).deliver f.storedLen meshMessageSize).2)
      ⟨hpeeked.routes, hpeeked.rxHeaderFrom⟩ _ _
  · rw [recvfromAck_away htakes hhere]
    exact hpeeked.forward link f.storedLen

theorem arpReceive_over (link : List Frame → LinkAnswer) (h : s.routes.Over S)
    (hf : f.headerFrom ∈ S) (address messageLen : UInt8) :
    (arpReceive link s address messageLen f).2.2.routes.Over S := by
  by_cases htakes : s.Takes f
  swap
  · rw [arpReceive_of_not_takes link htakes]
    exact h
  have hpeeked := heard_peeked h hf
  by_cases hhere : (peeked s f).Here
  · have hr : RHRouter.recvfromAck (virtuals link) s f messageLen =
        (some ((peeked s f).deliver f.storedLen messageLen).1,
          ((peeked s f).deliver f.storedLen messageLen).2) := by
      rw [recvfromAck_of_takes htakes]
      exact if_pos hhere
    have hdelivered : Heard S ((peeked s f).deliver f.storedLen messageLen).2 :=
      ⟨hpeeked.routes, hpeeked.rxHeaderFrom⟩
    rw [arpReceive, hr]
    dsimp only
    split
    · exact hdelivered.routes.addRouteTo address hdelivered.rxHeaderFrom
    · exact hdelivered.routes
  · have hr : RHRouter.recvfromAck (virtuals link) s f messageLen =
        (none, (peeked s f).forward (virtuals link) f.storedLen) := by
      rw [recvfromAck_of_takes htakes]
      exact if_neg hhere
    rw [arpReceive, hr]
    exact hpeeked.forward link f.storedLen

/-- **A frame is a route to its sender at most**, where next hops are concerned. -/
theorem handle_over (h : s.routes.Over S) (hf : f.headerFrom ∈ S) (d : MeshHandling) :
    (s.handle f d).routes.Over S := by
  cases d with
  | recvfromAck link len => exact recvfromAck_over link h hf len
  | arpReceive link address messageLen => exact arpReceive_over link h hf address messageLen

end Heard

/-! ### Runs -/

/-- Node `v` handles frames of the nodes that it `hears` only, and its
application sets routes over these only. -/
def Hears (hears : UInt8 → Set UInt8) (net : Net UInt8 RHMesh Frame) :
    Event UInt8 MeshCall MeshHandling → Prop
  | .call v (.setRoutes routes) => routes.Over (hears v)
  | .call _ _ => True
  | .handle v i _ => ∀ p ∈ net.air[i]?, p.frame.headerFrom ∈ hears v

theorem perform_over {S : Set UInt8} {s : RHMesh} (h : s.routes.Over S) {e : MeshCall}
    (he : ∀ routes, e = .setRoutes routes → routes.Over S) : (s.perform e).routes.Over S := by
  cases e with
  | beginArp link address =>
    show (beginArp link s address).2.routes.Over S
    rw [beginArp]
    exact sendtoWait_over link (s := store s 0 [typeRequest, 1, address]) h _ _ _
  | sendApplication link buf address flags =>
    show (sendApplication link s buf address flags).2.routes.Over S
    rw [sendApplication]
    split
    · exact h
    · exact sendtoWait_over link (s := store s 0 (typeApplication :: buf)) h _ _ _
  | setRoutes routes => exact he routes rfl

/-- **Next hops are neighbours.**  In every run of a network of mesh nodes in
which a node gets frames of its neighbours only, whatever is lost, repeated or
discovered meanwhile, and whatever comes in while a node waits for an
acknowledgement, the next hops in its routing table are among them. -/
theorem nextHop_heard {nodes : Finset UInt8} {node : UInt8 → RHMesh}
    {hears : UInt8 → Set UInt8} (hnode : ∀ v ∈ nodes, (node v).routes.Over (hears v))
    {es : List (Event UInt8 MeshCall MeshHandling)} {net : Net UInt8 RHMesh Frame}
    (hes : AllSteps (meshStep nodes) (Hears hears) (start node) es)
    (hrun : run (meshStep nodes) (start node) es = some net) {v : UInt8} (hv : v ∈ nodes)
    {d hop : UInt8} (hhop : (net.node v).routes.nextHop d = some hop) : hop ∈ hears v := by
  have hstart : Holds nodes (fun v s => s.routes.Over (hears v)) (fun _ => True)
      (start node : Net UInt8 RHMesh Frame) :=
    ⟨hnode, fun _ _ => trivial⟩
  suffices hend : Holds nodes (fun v s => s.routes.Over (hears v)) (fun _ => True) net from
    hend.node v hv d hop hhop
  refine run_induct ?_ hstart hes hrun
  intro net e net' h he hstep
  refine h.step ?_ ?_ hstep
  · rintro w c rfl hw
    refine ⟨perform_over (h.node w hw) ?_, fun _ _ => trivial⟩
    rintro routes rfl
    exact he
  · rintro w i g p rfl hw hp
    exact ⟨handle_over (h.node w hw) (he p hp) g, fun _ _ => trivial⟩

/-- The nodes in a row. -/
def nextDoor (v : UInt8) : Set UInt8 := {w | w + 1 = v ∨ v + 1 = w}

theorem relayedTwice_heard :
    ∃ net, run (meshStep {1, 2, 3}) (start freshNode) relayedTwice = some net ∧
      (net.node 3).routes.nextHop 1 = some 2 ∧ 2 ∈ nextDoor 3 := by
  have hes : AllSteps (meshStep {1, 2, 3}) (Hears nextDoor) (start freshNode) relayedTwice := by
    refine ⟨trivial, ?_⟩
    rintro _ ⟨⟩
    refine ⟨?_, ?_⟩
    · rintro _ ⟨⟩
      exact .inl rfl
    rintro _ ⟨⟩
    refine ⟨?_, ?_⟩
    · rintro _ ⟨⟩
      exact .inl rfl
    rintro _ ⟨⟩
    refine ⟨?_, fun _ _ => trivial⟩
    rintro _ ⟨⟩
    exact .inr rfl
  have hnode : ∀ v ∈ ({1, 2, 3} : Finset UInt8), (freshNode v).routes.Over (nextDoor v) := by
    intro v _ d hop hd
    have hnone : noRoutes.nextHop d = none := by
      rw [noRoutes, RoutingTable.nextHop, RoutingTable.getRouteTo_cleared, Option.map_none]
    exact absurd (hnone.symm.trans hd) (Option.some_ne_none hop).symm
  refine ⟨_, rfl, by decide, ?_⟩
  exact nextHop_heard (v := 3) (d := 1) hnode hes rfl (by decide) (by decide)

end RHMesh
