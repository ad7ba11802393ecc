/-
The network of a discovery among the networks of mesh nodes.

The network in which `doArp` runs knows who hears whom, and what a node transmits
is handled once by each node that hears it, or lost.  All it does can happen in
the network in which messages stay in the air and any node may handle any of
them, and what holds in every run of that one holds in it.

* `Mirrors` — the second network has the nodes of the first, and its messages;
* `step_mirrored` — it can do the same step;
* `run_mirrored` — and come to the same nodes as any run.
-/
import RadioHead.LinkIds

open Run RHMesh

namespace MeshNet

/-- The nodes of `net` are those of `m`, and what is on the air there has been
sent in `m`. -/
structure Mirrors (nodes : Finset UInt8) (net : MeshNet) (m : Medium.Net UInt8 RHMesh Frame) :
    Prop where
  node : m.node = net.node
  air : ∀ p ∈ net.air, p.1 ∈ nodes ∧ ∃ q ∈ m.air, q.frame = p.2

variable {nodes : Finset UInt8} {hears : UInt8 → List UInt8} {source target : UInt8}
  {node : UInt8 → RHMesh} {net net' : MeshNet} {m : Medium.Net UInt8 RHMesh Frame} {v : UInt8}

/-- A node gets to `t`, in both of them. -/
theorem Mirrors.become (h : Mirrors nodes net m) (hhears : ∀ w ∈ hears v, w ∈ nodes) (t : RHMesh)
    (causes : List (UInt8 × Frame)) :
    Mirrors nodes (net.become hears v t)
      (m.emit v (t, (m.node v).sentSince t) causes) where
  node := by
    show Function.update m.node v t = Function.update net.node v t
    rw [h.node]
  air p hp := by
    rcases List.mem_append.mp hp with hp | hp
    · obtain ⟨hmem, q, hq, hframe⟩ := h.air p hp
      exact ⟨hmem, q, List.mem_append_left _ hq, hframe⟩
    · obtain ⟨hmem, hheard, -⟩ := mem_carried.mp hp
      refine ⟨hhears _ hheard, ⟨p.2, causes⟩, List.mem_append_right _ ?_, rfl⟩
      refine List.mem_map.mpr ⟨p.2, ?_, rfl⟩
      rw [RHRouter.sentSince, h.node]
      exact hmem

/-- What is taken from the air may stay there. -/
theorem Mirrors.with_air (h : Mirrors nodes net m) {air : List (UInt8 × Frame)}
    (hair : ∀ p ∈ air, p ∈ net.air) {arp : Option UInt8} {heard : List Frame} {resolved : Bool} :
    Mirrors nodes ⟨net.node, air, arp, heard, resolved⟩ m :=
  ⟨h.node, fun p hp => h.air p (hair p hp)⟩

theorem step_mirrored (hhears : ∀ v ∈ nodes, ∀ w ∈ hears v, w ∈ nodes) (h : Mirrors nodes net m)
    {e : MeshEvent} (hstep : step hears source target net e = some net') :
    ∃ ds m', run (meshStep nodes) m ds = some m' ∧ Mirrors nodes net' m' := by
  cases e with
  | handle i =>
    obtain ⟨⟨v, f⟩, hget, rfl⟩ := Option.map_eq_some_iff.mp hstep
    obtain ⟨hv, q, hq, hframe⟩ := h.air _ (List.mem_of_getElem? hget)
    obtain ⟨j, hj⟩ := List.getElem?_of_mem hq
    obtain ⟨d, arp, heard, resolved, heq⟩ :=
      handle_eq hears source target { net with air := net.air.eraseIdx i } v f
    have hrest : Mirrors nodes { net with air := net.air.eraseIdx i } m :=
      h.with_air fun p => List.mem_of_mem_eraseIdx
    have hstep' : meshStep nodes m (.handle v j d) =
        some (m.emit v ((m.node v).handle f d, (m.node v).sentSince ((m.node v).handle f d))
          ((v, f) :: q.causes)) := by
      show Medium.step nodes _ _ m (.handle v j d) = _
      rw [Medium.step, if_pos hv, hj, Option.map_some, hframe]
    have hnext := hrest.become (hhears v hv) ((net.node v).handle f d) ((v, f) :: q.causes)
    refine ⟨[.handle v j d], _, run_cons.mpr ⟨_, hstep', rfl⟩, ?_⟩
    dsimp only
    rw [heq, h.node]
    rw [h.node] at hnext
    exact ⟨hnext.node, hnext.air⟩
  | lose i =>
    rw [step, Option.ite_none_right_eq_some, Option.some_inj] at hstep
    obtain ⟨-, rfl⟩ := hstep
    exact ⟨[], m, rfl, h.with_air fun p => List.mem_of_mem_eraseIdx⟩
  | timeout =>
    rw [step, Option.ite_none_right_eq_some, Option.some_inj] at hstep
    obtain ⟨-, rfl⟩ := hstep
    exact ⟨[], m, rfl, h.with_air fun _ hp => hp⟩

theorem start_mirrored (hhears : ∀ v ∈ nodes, ∀ w ∈ hears v, w ∈ nodes) (hsource : source ∈ nodes)
    (node : UInt8 → RHMesh) (target : UInt8) :
    ∃ ds m, run (meshStep nodes) (Medium.start node) ds = some m ∧
      Mirrors nodes (start hears source target node) m := by
  have hnone : Mirrors nodes ⟨node, [], none, [], false⟩ (Medium.start node) :=
    ⟨rfl, fun _ hp => absurd hp List.not_mem_nil⟩
  set t := (beginArp (link hears source) (node source) target).2
  have hnext := hnone.become (hhears source hsource) t []
  have hstep : meshStep nodes (Medium.start node)
      (.call source (.beginArp (link hears source) target)) =
        some ((Medium.start node).emit source (t, (node source).sentSince t) []) := by
    show Medium.step nodes _ _ _ (.call source _) = _
    rw [Medium.step, if_pos hsource]
    rfl
  exact ⟨[_], _, run_cons.mpr ⟨_, hstep, rfl⟩, hnext.node, hnext.air⟩

/-- **A discovery is a run of the network of mesh nodes.** -/
theorem run_mirrored (hhears : ∀ v ∈ nodes, ∀ w ∈ hears v, w ∈ nodes) (hsource : source ∈ nodes)
    {es : List MeshEvent} (hrun : run (step hears source target) (start hears source target node)
      es = some net) :
    ∃ ds m, run (meshStep nodes) (Medium.start node) ds = some m ∧ Mirrors nodes net m := by
  obtain ⟨ds, m, hm, hmirrors⟩ := start_mirrored hhears hsource node target
  obtain ⟨ds', m', hm', hmirrors'⟩ :=
    run_simulated (fun _ _ _ _ h hstep => step_mirrored hhears h hstep) hmirrors hrun
  exact ⟨ds ++ ds', m', run_append.mpr ⟨m, hm, hm'⟩, hmirrors'⟩

end MeshNet
