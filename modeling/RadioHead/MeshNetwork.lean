/-
A network of mesh nodes in which one of them runs `doArp`.

What a node transmits is on the air once for every node that hears it, and is
handled there, or lost, at any time and in any order; a message to a neighbour
is taken to be acknowledged.  `source` calls `doArp(target)` and stays in its
wait loop until the response comes or it gives up.

* `MeshNet`, `MeshNet.step` — the network and its steps;
* `doArp_heard` — what `doArp` makes of the frames it has got;
* `acks_link`, `mem_carried`, `air_become`, `start_eq` — what is sent to whom.
-/
import RadioHead.Discovery
import RadioHead.Lib.Run

open Run

/-- The nodes by their address; the frames on the air, each with a node that
hears it; the `messageLen` of the originator's `doArp` while it waits, the
frames it has got there, and if it has returned true. -/
structure MeshNet where
  node : UInt8 → RHMesh
  air : List (UInt8 × Frame)
  arp : Option UInt8
  heard : List Frame
  resolved : Bool

inductive MeshEvent where
  | handle (i : ℕ)
  | lose (i : ℕ)
  | timeout
  deriving DecidableEq

namespace MeshNet

/-- The answer to the last message sent: a node acknowledges it if it hears
the sender, `v`. -/
def link (hears : UInt8 → List UInt8) (v : UInt8) (sent : List Frame) : LinkAnswer :=
  match sent.getLast? with
  | none => ⟨false, broadcastAddress, broadcastAddress, 0, flagsNone, 0⟩
  | some f => ⟨f.headerTo ∈ hears v, f.headerTo, f.headerTo, f.headerId, f.headerFlags, 0⟩

/-- The frames sent by `v` reach the nodes that hear it; their drivers keep
what is for them. -/
def carried (hears : UInt8 → List UInt8) (v : UInt8) (sent : List Frame) : List (UInt8 × Frame) :=
  sent.flatMap fun f => ((hears v).filter fun w => f.For w).map fun w => (w, f)

/-- Node `v` gets to `s`, and what it has sent on the way is on the air. -/
def become (hears : UInt8 → List UInt8) (net : MeshNet) (v : UInt8) (s : RHMesh) : MeshNet :=
  { net with
    node := Function.update net.node v s
    air := net.air ++ carried hears v (s.sent.drop (net.node v).sent.length) }

/-- The network when `source` has broadcast its request. -/
def start (hears : UInt8 → List UInt8) (source target : UInt8) (node : UInt8 → RHMesh) : MeshNet :=
  let r := RHMesh.beginArp (link hears source) (node source) target
  become hears
    { node := node
      air := []
      arp := if r.1 = .none then some meshMessageSize else none
      heard := []
      resolved := false }
    source r.2

/-- The `messageLen` of `doArp`, if `v` is in its wait loop. -/
def waiting (source : UInt8) (net : MeshNet) (v : UInt8) : Option UInt8 :=
  if v = source then net.arp else none

/-- Node `v` handles the frame: in the wait loop of `doArp`, or in
`recvfromAck`. -/
def handle (hears : UInt8 → List UInt8) (source target : UInt8) (net : MeshNet) (v : UInt8)
    (f : Frame) : MeshNet :=
  match net.waiting source v with
  | some messageLen =>
    let r := RHMesh.arpReceive (link hears v) (net.node v) target messageLen f
    { net.become hears v r.2.2 with
      arp := if r.1 then none else some r.2.1
      heard := net.heard ++ [f]
      resolved := r.1 }
  | none => net.become hears v (RHMesh.recvfromAck (link hears v) (net.node v) f meshMessageSize).2

/-- A step of the network; `none` where the event cannot happen. -/
def step (hears : UInt8 → List UInt8) (source target : UInt8) (net : MeshNet) :
    MeshEvent → Option MeshNet
  | .handle i =>
    net.air[i]?.map fun p =>
      handle hears source target { net with air := net.air.eraseIdx i } p.1 p.2
  | .lose i => if i < net.air.length then some { net with air := net.air.eraseIdx i } else none
  | .timeout => if net.arp.isSome then some { net with arp := none } else none

/-- Node `v` before any discovery. -/
structure Fresh (v : UInt8) (s : RHMesh) : Prop where
  thisAddress : s.thisAddress = v
  txHeaderFrom : s.txHeaderFrom = v
  routes : ∀ d, s.routes.nextHop d = none
  tmpMessage : ∀ i, s.tmpMessage i = 0

/-- The nodes as they come up. -/
def bootNode (v : UInt8) : RHMesh := RHRouter.constructed v fun _ => 0

theorem bootNode_fresh (v : UInt8) : Fresh v (bootNode v) where
  thisAddress := rfl
  txHeaderFrom := rfl
  routes d := by
    show ((noRoutes.getRouteTo d).map _) = none
    rw [noRoutes, RoutingTable.getRouteTo_cleared, Option.map_none]
  tmpMessage _ := rfl

/-- The next hops towards `source`. -/
def hop (source : UInt8) (net : MeshNet) (v : UInt8) : Option UInt8 :=
  (net.node v).routes.nextHop source

variable {hears : UInt8 → List UInt8} {source target : UInt8}

/-! ### What `doArp` returns -/

/-- How `doArp` stands, called with the members `s₀`, when it has got the
frames `net.heard`. -/
structure Waits (hears : UInt8 → List UInt8) (source target : UInt8) (s₀ : RHMesh)
    (net : MeshNet) : Prop where
  waiting : ∀ messageLen, net.arp = some messageLen → net.resolved = false ∧
    ∀ fs, RHMesh.doArp (link hears source) s₀ target (net.heard ++ fs) =
      RHMesh.arpWait (link hears source) target (net.node source) messageLen fs
  returned : net.arp = none →
    (RHMesh.doArp (link hears source) s₀ target net.heard).1 = net.resolved

theorem start_waits (node : UInt8 → RHMesh) :
    Waits hears source target (node source) (start hears source target node) := by
  have hnode : (start hears source target node).node source =
      (RHMesh.beginArp (link hears source) (node source) target).2 := Function.update_self ..
  rcases hr : RHMesh.beginArp (link hears source) (node source) target with ⟨e, s⟩
  have harp : (start hears source target node).arp =
      if e = .none then some meshMessageSize else none := by
    rw [start, hr]
    rfl
  constructor
  · intro messageLen h
    rw [harp, Option.ite_none_right_eq_some, Option.some_inj] at h
    obtain ⟨rfl, rfl⟩ := h
    refine ⟨rfl, ?_⟩
    intro fs
    rw [hnode, hr, RHMesh.doArp, hr]
    rfl
  · intro h
    show (RHMesh.doArp (link hears source) (node source) target []).1 = false
    rw [RHMesh.doArp, hr]
    cases e with
    | none => exact absurd (harp.symm.trans h) (Option.some_ne_none _)
    | _ => rfl

theorem handle_waiting {net : MeshNet} {v messageLen : UInt8}
    (h : net.waiting source v = some messageLen) (f : Frame) :
    handle hears source target net v f =
      (let r := RHMesh.arpReceive (link hears v) (net.node v) target messageLen f
      { net.become hears v r.2.2 with
        arp := if r.1 then none else some r.2.1
        heard := net.heard ++ [f]
        resolved := r.1 }) := by
  rw [handle, h]

theorem handle_recvfromAck {net : MeshNet} {v : UInt8} (h : net.waiting source v = none)
    (f : Frame) : handle hears source target net v f = net.become hears v
      (RHMesh.recvfromAck (link hears v) (net.node v) f meshMessageSize).2 := by
  rw [handle, h]

theorem handle_waits {s₀ : RHMesh} {net : MeshNet} (h : Waits hears source target s₀ net)
    (v : UInt8) (f : Frame) :
    Waits hears source target s₀ (handle hears source target net v f) := by
  rcases hw : net.waiting source v with _ | messageLen
  · rw [handle_recvfromAck hw]
    refine ⟨?_, h.returned⟩
    intro messageLen harp
    obtain ⟨hres, hwait⟩ := h.waiting messageLen harp
    have hv : v ≠ source := by
      rintro rfl
      exact Option.some_ne_none _ (harp.symm.trans ((if_pos rfl).symm.trans hw))
    refine ⟨hres, ?_⟩
    intro fs
    show _ = RHMesh.arpWait _ _ (Function.update net.node v _ source) _ _
    rw [Function.update_of_ne (Ne.symm hv)]
    exact hwait fs
  · obtain ⟨rfl, harp⟩ := Option.ite_none_right_eq_some.mp hw
    obtain ⟨-, hwait⟩ := h.waiting messageLen harp
    rw [handle_waiting hw]
    rcases hr : RHMesh.arpReceive (link hears v) (net.node v) target messageLen f with
      ⟨_ | _, n, s⟩
    · refine ⟨?_, fun h' => absurd h' (Option.some_ne_none _)⟩
      intro messageLen' h'
      obtain rfl : n = messageLen' := Option.some_inj.mp h'
      refine ⟨rfl, ?_⟩
      intro fs
      show RHMesh.doArp (link hears v) s₀ target (net.heard ++ [f] ++ fs) =
        RHMesh.arpWait (link hears v) target (Function.update net.node v s v) n fs
      rw [Function.update_self, List.append_assoc, hwait, List.singleton_append,
        RHMesh.arpWait, hr]
    · refine ⟨fun _ h' => absurd h' (Option.some_ne_none _).symm, ?_⟩
      intro _
      show (RHMesh.doArp (link hears v) s₀ target (net.heard ++ [f])).1 = _
      rw [hwait, RHMesh.arpWait, hr]

theorem step_waits {s₀ : RHMesh} {net net' : MeshNet} {e : MeshEvent}
    (h : Waits hears source target s₀ net) (hstep : step hears source target net e = some net') :
    Waits hears source target s₀ net' := by
  cases e with
  | handle i =>
    obtain ⟨⟨v, f⟩, -, rfl⟩ := Option.map_eq_some_iff.mp hstep
    refine handle_waits ?_ v f
    exact ⟨h.waiting, h.returned⟩
  | lose i =>
    rw [step, Option.ite_none_right_eq_some, Option.some_inj] at hstep
    obtain ⟨-, rfl⟩ := hstep
    exact ⟨h.waiting, h.returned⟩
  | timeout =>
    rw [step, Option.ite_none_right_eq_some, Option.some_inj] at hstep
    obtain ⟨harp, rfl⟩ := hstep
    obtain ⟨messageLen, harp⟩ := Option.isSome_iff_exists.mp harp
    obtain ⟨hres, hwait⟩ := h.waiting messageLen harp
    refine ⟨fun _ h' => absurd h' (Option.some_ne_none _).symm, ?_⟩
    intro _
    have hall := hwait []
    rw [List.append_nil] at hall
    show (RHMesh.doArp (link hears source) s₀ target net.heard).1 = net.resolved
    rw [hall, hres]
    rfl

/-- **`doArp` returns true on the frames it has got exactly if the network has it so.** -/
theorem doArp_heard {node : UInt8 → RHMesh} {es : List MeshEvent} {net : MeshNet}
    (hrun : run (step hears source target) (start hears source target node) es = some net) :
    (RHMesh.doArp (link hears source) (node source) target net.heard).1 = net.resolved := by
  have h := run_invariant (fun _ _ _ => step_waits) (start_waits node) hrun
  rcases harp : net.arp with _ | messageLen
  · exact h.returned harp
  · obtain ⟨hres, hwait⟩ := h.waiting messageLen harp
    have hall := hwait []
    rw [List.append_nil] at hall
    rw [hall, hres]
    rfl

/-! ### What is sent -/

/-- Neighbours acknowledge. -/
theorem acks_link {v w : UInt8} (h : w ∈ hears v) : RHRouter.Acks (link hears v) w := by
  refine .inr ?_
  intro sent f hf
  rw [link, List.getLast?_concat]
  exact decide_eq_true (hf ▸ h)

theorem mem_carried {v : UInt8} {sent : List Frame} {p : UInt8 × Frame} :
    p ∈ carried hears v sent ↔ p.2 ∈ sent ∧ p.1 ∈ hears v ∧ p.2.For p.1 := by
  obtain ⟨w, f⟩ := p
  simp only [carried, List.mem_flatMap, List.mem_map, List.mem_filter, decide_eq_true_eq,
    Prod.mk.injEq]
  constructor
  · rintro ⟨g, hg, w', ⟨hw, hfor⟩, rfl, rfl⟩
    exact ⟨hg, hw, hfor⟩
  · rintro ⟨hf, hw, hfor⟩
    exact ⟨f, hf, w, ⟨hw, hfor⟩, rfl, rfl⟩

theorem carried_broadcast {v : UInt8} {f : Frame} (h : f.headerTo = broadcastAddress) :
    carried hears v [f] = (hears v).map fun w => (w, f) := by
  rw [carried, List.flatMap_singleton, List.filter_eq_self.mpr]
  intro w _
  exact decide_eq_true (.inr h)

theorem carried_unicast {v : UInt8} {f : Frame} (h : f.headerTo ≠ broadcastAddress) :
    carried hears v [f] = ((hears v).filter fun w => f.headerTo = w).map fun w => (w, f) := by
  rw [carried, List.flatMap_singleton]
  congr 1
  refine List.filter_congr ?_
  intro w _
  exact decide_eq_decide.mpr ⟨fun hfor => hfor.resolve_right h, .inl⟩

theorem air_become {net : MeshNet} {v : UInt8} {s : RHMesh} {l : List Frame}
    (h : s.sent = (net.node v).sent ++ l) :
    (net.become hears v s).air = net.air ++ carried hears v l := by
  rw [become, h, List.drop_left]

/-- The network when the request has been broadcast. -/
theorem start_eq (hears : UInt8 → List UInt8) (source target : UInt8) (node : UInt8 → RHMesh) :
    ∃ t id flags,
      let data := discovery broadcastAddress (node source).thisAddress 0
        (node source).lastE2ESequenceNumber 0 typeRequest target []
      RHRouter.Transmits
        ((node source).setMessage ((node source).tmpMessage.write 0 data)) t broadcastAddress data ∧
      flags &&& flagsAck = 0 ∧ id = (node source).lastSequenceNumber + 1 ∧
      start hears source target node =
        { node := Function.update node source t
          air := carried hears source
            [⟨broadcastAddress, (node source).txHeaderFrom, id, flags, data⟩]
          arp := some meshMessageSize
          heard := []
          resolved := false } := by
  obtain ⟨hok, h⟩ := RHMesh.beginArp_transmits (link hears source) (node source) target
  obtain ⟨flags, hsent, hack⟩ := h.sent
  refine ⟨_, _, flags, h, hack, rfl, ?_⟩
  have hsent' : (RHMesh.beginArp (link hears source) (node source) target).2.sent =
      (node source).sent ++ [⟨broadcastAddress, (node source).txHeaderFrom,
        (node source).lastSequenceNumber + 1, flags, _⟩] := hsent
  rw [start, if_pos hok, become, hsent', List.drop_left]
  rfl

end MeshNet
