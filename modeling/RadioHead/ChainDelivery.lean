/-
The first message over a chain of mesh nodes.

The application calls `sendtoWait`, and that is all: the node has no route yet,
finds one, and hands the message to the first node on it.  What a discovery leaves
at the nodes is what they need for the message: routes to the target, link ids
that are new to the next one, and the state of the source that `sendtoWait` goes
on with.

* `doArp_returns` — the state after `doArp`;
* `Connected`, `reaches_connected` — the chain after the discovery;
* `first_message_delivered` — the discovery and the message.
-/
import RadioHead.ChainDiscovery
import RadioHead.LinkIds
import RadioHead.MeshDelivery

open Run

namespace RHMesh

open RHRouter

/-- `sendtoWait` without a route: once `doArp` has returned true it goes on as if
there had been one. -/
theorem sendtoWait_discovered {link : List Frame → LinkAnswer} {s t : RHMesh} {buf : List UInt8}
    {address : UInt8} (flags : UInt8) {frames : List Frame} (hlen : ¬ TooLong buf)
    (hbc : address ≠ broadcastAddress) (hnone : s.routes.nextHop address = none)
    (harp : doArp link s address frames = (true, t)) (hroute : t.routes.nextHop address ≠ none) :
    sendtoWait link s buf address flags frames = sendtoWait link t buf address flags [] := by
  have hmesh : ¬ meshMaxMessageLen < buf.length := by
    rw [TooLong, not_lt, maxMessageLen, routedHeaderLen, meshHeaderLen] at hlen
    rw [meshMaxMessageLen]
    omega
  have hs : s.routes.getRouteTo address = none := Option.map_eq_none_iff.mp hnone
  have ht : ¬ t.routes.getRouteTo address = none :=
    fun h => hroute (Option.map_eq_none_iff.mpr h)
  rw [sendtoWait, if_neg hmesh, if_pos ⟨hbc, hs⟩, harp, sendtoWait, if_neg hmesh,
    if_neg fun h => ht h.2]

end RHMesh

namespace MeshNet

open RHMesh (TooLong Stop)

variable {k : ℕ} {n : ℕ → UInt8} {hears : UInt8 → List UInt8} {node : UInt8 → RHMesh}
  {net net' : MeshNet} {i : ℕ} {source target : UInt8}

/-! ### The discovery -/

/-- When `doArp` returns true, in the wait loop, its node is what the network has it be. -/
theorem doArp_returns {es : List MeshEvent}
    (hrun : run (step hears source target) (start hears source target node) es = some net)
    (hwaits : net.resolved = false)
    (hstep : step hears source target net (.handle i) = some net') (hres : net'.resolved = true) :
    RHMesh.doArp (link hears source) (node source) target net'.heard =
      (true, net'.node source) := by
  have h := run_invariant (fun _ _ _ => step_waits) (start_waits node) hrun
  obtain ⟨⟨v, f⟩, -, rfl⟩ := Option.map_eq_some_iff.mp hstep
  rcases hw : waiting source { net with air := net.air.eraseIdx i } v with _ | messageLen
  · rw [handle_recvfromAck hw] at hres
    exact absurd (hwaits.symm.trans hres) Bool.false_ne_true
  · obtain ⟨rfl, harp⟩ := Option.ite_none_right_eq_some.mp hw
    obtain ⟨-, hwait⟩ := h.waiting messageLen harp
    rw [handle_waiting hw] at hres ⊢
    dsimp only at hres ⊢
    rw [hwait, RHMesh.arpWait]
    rcases hr : RHMesh.arpReceive (link hears v) (net.node v) target messageLen f with ⟨done, m, t⟩
    rw [hr] at hres
    obtain rfl : done = true := hres
    show (true, t) = (true, Function.update net.node v t v)
    rw [Function.update_self]

theorem run_asked (hc : Chain k n hears) (hr : Ready k n node) (hi : i ≤ k) :
    ∃ net, run (step hears (n 0) (n (k + 1))) (start hears (n 0) (n (k + 1)) node)
        (List.replicate (2 * i) (.handle 0)) = some net ∧ Asked k n node i net := by
  induction i with
  | zero => exact ⟨_, rfl, start_asked hc hr⟩
  | succ i ih =>
    obtain ⟨net, hrun, ha⟩ := ih (by omega)
    obtain ⟨net', hrun', ha'⟩ := ha.next hc hr hi
    refine ⟨net', ?_, ha'⟩
    rw [Nat.mul_succ, List.replicate_add]
    exact run_append.mpr ⟨net, hrun, hrun'⟩

/-- The response has come back over `i` of the links. -/
theorem run_answered (hc : Chain k n hears) (hr : Ready k n node)
    (hzero : n 0 ≠ 0 ∨ k ≤ 1) (hi : i ≤ k) :
    ∃ net, run (step hears (n 0) (n (k + 1))) (start hears (n 0) (n (k + 1)) node)
        (List.replicate (2 * k + 1 + i) (.handle 0)) = some net ∧
      Answered k n node (k - i) net := by
  induction i with
  | zero =>
    obtain ⟨net, hrun, ha⟩ := run_asked hc hr le_rfl
    obtain ⟨net', hrun', ha'⟩ := ha.answered hc hr
    refine ⟨net', ?_, ha'⟩
    rw [show 2 * k + 1 + 0 = 2 * k + 1 by omega, List.replicate_add]
    exact run_append.mpr ⟨net, hrun, hrun'⟩
  | succ i ih =>
    obtain ⟨net, hrun, ha⟩ := ih (by omega)
    rw [show k - i = k - (i + 1) + 1 by omega] at ha
    obtain ⟨net', hrun', ha'⟩ := ha.pass hc hr (by omega) (hzero.imp_right fun h => by omega)
    refine ⟨net', ?_, ha'⟩
    rw [← Nat.add_assoc, List.replicate_add]
    exact run_append.mpr ⟨net, hrun, hrun'⟩

/-- A chain after the discovery: the nodes are what they were, with a route to the
target, and the next frame of each is new to the one after it. -/
structure Connected (k : ℕ) (n : ℕ → UInt8) (node : UInt8 → RHMesh) (net : MeshNet) : Prop where
  thisAddress : ∀ i, i ≤ k + 1 → (net.node (n i)).thisAddress = n i
  txHeaderFrom : ∀ i, i ≤ k + 1 → (net.node (n i)).txHeaderFrom = n i
  maxHops : ∀ i, i ≤ k + 1 → (net.node (n i)).maxHops = (node (n i)).maxHops
  nextHop : ∀ i, i ≤ k → (net.node (n i)).routes.nextHop (n (k + 1)) = some (n (i + 1))
  fresh : ∀ i, i ≤ k →
    (net.node (n i)).lastSequenceNumber + 1 ≠ (net.node (n (i + 1))).seenIds (n i)

/-- All nodes of the chain. -/
def members (k : ℕ) (n : ℕ → UInt8) : Set UInt8 := {v | ∃ i ≤ k + 1, n i = v}

theorem Chain.mem_members (h : Chain k n hears) :
    ∀ v ∈ members k n, ∀ w ∈ hears v, w ∈ members k n := by
  rintro v ⟨i, hi, rfl⟩ w hw
  rcases Nat.eq_zero_or_pos i with rfl | h0
  · rw [h.first, List.mem_singleton] at hw
    exact ⟨1, by omega, hw.symm⟩
  · obtain ⟨i, rfl⟩ := Nat.exists_eq_succ_of_ne_zero h0.ne'
    rcases Nat.lt_or_eq_of_le (Nat.le_of_succ_le_succ hi) with hlt | rfl
    · rw [h.inner i hlt, List.mem_pair] at hw
      rcases hw with rfl | rfl
      · exact ⟨i, by omega, rfl⟩
      · exact ⟨i + 2, by omega, rfl⟩
    · rw [h.last, List.mem_singleton] at hw
      exact ⟨i, by omega, hw.symm⟩

theorem reaches_connected (hc : Chain k n hears) (hr : Ready k n node) (hzero : n 0 ≠ 0 ∨ k ≤ 1) :
    ∃ net, Reaches hears (n 0) (n (k + 1)) (start hears (n 0) (n (k + 1)) node) net ∧
      net.air = [] ∧ Connected k n node net ∧
      RHMesh.doArp (link hears (n 0)) (node (n 0)) (n (k + 1)) net.heard =
        (true, net.node (n 0)) := by
  obtain ⟨net, hrun, ha⟩ := run_answered hc hr hzero le_rfl
  rw [Nat.sub_self] at ha
  obtain ⟨messageLen, harp, -⟩ := ha.waits
  have hwaits := run_invariant (fun _ _ _ => step_waits) (start_waits node) hrun
  obtain ⟨net', hrun', hres⟩ := ha.resolved hc
  have hstep : step hears (n 0) (n (k + 1)) net (.handle 0) = some net' := by
    obtain ⟨net'', hstep, hnil⟩ := run_cons.mp hrun'
    rw [hstep]
    exact hnil
  have hall := run_append.mpr ⟨net, hrun, hrun'⟩
  rw [← List.replicate_add] at hall
  refine ⟨net', ⟨_, hall⟩, hres.air, ?_,
    doArp_returns hrun (hwaits.waiting messageLen harp).1 hstep hres.resolved⟩
  -- the numbers do not wrap: three a step at most, and no more than 26 steps
  have hmem : ∀ i, i ≤ k + 1 → n i ∈ members k n := fun i hi => ⟨i, hi, rfl⟩
  have hfresh : ∀ v ∈ members k n, Fresh v (node v) := by
    rintro v ⟨i, hi, rfl⟩
    exact hr.fresh i hi
  obtain ⟨c, hc3, hids⟩ : ∃ c : UInt8 → ℕ, (∀ u, c u ≤ 3) ∧
      Ids (members k n) node c (start hears (n 0) (n (k + 1)) node) :=
    start_ids hc.mem_members hfresh (hmem 0 (by omega))
  obtain ⟨c', hle, hids'⟩ := run_ids hc.mem_members hids hall
  have hcount : ∀ v, c' v < 255 := by
    intro v
    have h3 := hc3 v
    have hv := hle v
    have hsize := hc.size
    rw [List.length_replicate] at hv
    rw [routingTableSize] at hsize
    omega
  exact
    { thisAddress := fun i hi => hids'.thisAddress _ (hmem i hi)
      txHeaderFrom := fun i hi => hids'.txHeaderFrom _ (hmem i hi)
      maxHops := fun i hi => hids'.maxHops _ (hmem i hi)
      nextHop := hres.learned
      fresh := fun i hi => hids'.next_isNew (hmem i (by omega)) (hmem (i + 1) (by omega))
        (hcount _) (hres.routes i hi) }

/-! ### The message -/

/-- Node `v` in the network. -/
def stop (hears : UInt8 → List UInt8) (net : MeshNet) (v : UInt8) : Stop :=
  ⟨net.node v, link hears v⟩

theorem Connected.forth_stop (h : Connected k n node net) (hc : Chain k n hears) (hi : i ≤ k) :
    Stop.Forth (n (k + 1)) (stop hears net (n i)) (stop hears net (n (i + 1))) where
  nextHop := by
    show (net.node (n i)).routes.nextHop (n (k + 1)) = some (net.node (n (i + 1))).thisAddress
    rw [h.thisAddress (i + 1) (by omega)]
    exact h.nextHop i hi
  acks := by
    show RHRouter.Acks (link hears (n i)) (net.node (n (i + 1))).thisAddress
    rw [h.thisAddress (i + 1) (by omega)]
    refine acks_link ?_
    rcases Nat.eq_zero_or_pos i with rfl | h0
    · rw [hc.first]
      exact List.mem_singleton_self _
    · obtain ⟨i, rfl⟩ := Nat.exists_eq_succ_of_ne_zero h0.ne'
      rw [hc.inner i (by omega)]
      exact List.mem_cons_of_mem _ List.mem_cons_self
  fresh := by
    show (net.node (n i)).lastSequenceNumber + 1 ≠
      (net.node (n (i + 1))).seenIds (net.node (n i)).thisAddress
    rw [h.thisAddress i (by omega)]
    exact h.fresh i hi

variable {relays : List UInt8}

/-- **A mesh that has never been used delivers.**  On a chain of nodes that have
just come up, no more than a routing table has slots, each hearing its neighbours
only, `sendtoWait` to the last node finds the way there, and the message comes
there as it was sent, over every node of the chain; unless the originator has
address 0, with two relays or more. -/
theorem first_message_delivered (hnodup : (source :: relays ++ [target]).Nodup)
    (hbc : broadcastAddress ∉ source :: relays ++ [target])
    (hsize : relays.length + 2 ≤ routingTableSize)
    (h : Prepared (source :: relays ++ [target]) relays node)
    (hzero : source ≠ 0 ∨ relays.length ≤ 1) (buf : List UInt8) (hlen : ¬ TooLong buf)
    (flags len : UInt8) :
    let hears := chainHears (source :: relays ++ [target])
    ∃ net, Reaches hears source target (start hears source target node) net ∧ net.air = [] ∧
      let t := RHMesh.sendtoWait (link hears source) (node source) buf target flags net.heard
      t.1 = .none ∧ ∃ f cs, t.2.sent = (net.node source).sent ++ [f] ∧
        Stop.Carried len ((relays ++ [target]).map (stop hears net)) f
          ⟨source, target, (net.node source).lastE2ESequenceNumber, flags,
            buf.take len.toNat⟩ cs := by
  set chain := source :: relays ++ [target] with hchain
  have hlength : chain.length = relays.length + 2 := by simp [hchain]
  have hc := chain_place hlength hnodup hbc hsize
  have hr := ready_place hnodup hbc hsize h
  obtain ⟨net, hreach, hair, hcon, harp⟩ := reaches_connected hc hr hzero
  rw [hchain, place_zero, place_last, ← hchain] at hreach harp
  refine ⟨net, hreach, hair, ?_⟩
  have hplace : ∀ v ∈ chain, ∃ i ≤ relays.length + 1, place chain i = v := by
    intro v hv
    obtain ⟨i, hi, hget⟩ := List.getElem_of_mem hv
    refine ⟨i, by omega, ?_⟩
    rw [← hget]
    exact List.getD_eq_getElem _ _ hi
  have haddress : ∀ v ∈ chain, (stop (chainHears chain) net v).address = v := by
    intro v hv
    obtain ⟨i, hi, rfl⟩ := hplace v hv
    exact hcon.thisAddress i hi
  have hsource : source ∈ chain := List.mem_cons_self
  have htarget : target ∈ chain := by simp [hchain]
  -- the source goes on with the route that it has got
  have hforth : (net.node source).routes.nextHop target = some (place chain 1) := by
    have := hcon.nextHop 0 (Nat.zero_le _)
    rwa [hchain, place_zero, place_last, ← hchain] at this
  have hsend := RHMesh.sendtoWait_discovered flags hlen
    (ne_of_mem_of_not_mem htarget hbc) ((h.fresh source hsource).routes target) harp
    (by rw [hforth]; exact Option.some_ne_none _)
  -- the nodes in a row
  have hstops : stop (chainHears chain) net source ::
      (relays.map (stop (chainHears chain) net) ++ [stop (chainHears chain) net target]) =
        chain.map (stop (chainHears chain) net) := by
    rw [hchain, List.cons_append, List.map_cons, List.map_append]
    rfl
  have hup : ∀ s ∈ chain.map (stop (chainHears chain) net), s.Up := by
    intro s hs
    obtain ⟨v, hv, rfl⟩ := List.mem_map.mp hs
    refine ⟨?_, ?_⟩
    · rw [haddress v hv]
      exact ne_of_mem_of_not_mem hv hbc
    · obtain ⟨i, hi, rfl⟩ := hplace v hv
      exact (hcon.txHeaderFrom i hi).trans (hcon.thisAddress i hi).symm
  have hnodes : ((chain.map (stop (chainHears chain) net)).map Stop.address).Nodup := by
    have hmap : (chain.map (stop (chainHears chain) net)).map Stop.address = chain := by
      rw [List.map_map]
      exact (List.map_congr_left haddress).trans (List.map_id' chain)
    rwa [hmap]
  have hlinks : (chain.map (stop (chainHears chain) net)).IsChain (Stop.Forth target) := by
    refine List.isChain_iff_getElem.mpr ?_
    intro i hi
    rw [List.length_map] at hi
    have := hcon.forth_stop hc (show i ≤ relays.length by omega)
    rw [hchain, place_last, ← hchain] at this
    rw [List.getElem_map, List.getElem_map]
    rwa [place, place, List.getD_eq_getElem _ _ (by omega), List.getD_eq_getElem _ _ hi] at this
  have hhops : ∀ s ∈ relays.map (stop (chainHears chain) net),
      (relays.map (stop (chainHears chain) net)).length ≤ s.node.maxHops.toNat := by
    intro s hs
    obtain ⟨v, hv, rfl⟩ := List.mem_map.mp hs
    obtain ⟨i, hi, rfl⟩ := hplace v (by simp [hchain, hv])
    show _ ≤ (net.node (place chain i)).maxHops.toNat
    rw [List.length_map, hcon.maxHops i hi]
    exact h.hops _ hv
  obtain ⟨hok, -, f, cs, hsent, hcarried, -⟩ := Stop.delivered
    (d := stop (chainHears chain) net target) (by rwa [hstops]) (by rwa [hstops]) hhops
    (by rwa [hstops, haddress target htarget]) hlen flags len []
  rw [haddress target htarget] at hok hsent hcarried
  rw [haddress source hsource] at hcarried
  rw [List.map_append, List.map_singleton]
  dsimp only
  rw [hsend]
  exact ⟨hok, f, cs, hsent, hcarried⟩

/-- From node 1 over nodes 2 and 3 to node 4. -/
theorem one_delivers : ∃ net,
    Reaches (chainHears [1, 2, 3, 4]) 1 4 (start (chainHears [1, 2, 3, 4]) 1 4 bootNode) net ∧
      net.air = [] ∧
      let t := RHMesh.sendtoWait (link (chainHears [1, 2, 3, 4]) 1) (bootNode 1) [42] 4 5 net.heard
      t.1 = .none ∧ ∃ f cs, t.2.sent = (net.node 1).sent ++ [f] ∧
        Stop.Carried 10 ([2, 3, 4].map (stop (chainHears [1, 2, 3, 4]) net)) f
          ⟨1, 4, (net.node 1).lastE2ESequenceNumber, 5, [42]⟩ cs :=
  @first_message_delivered bootNode 1 4 [2, 3] (by decide) (by decide) (by decide)
    (bootNode_prepared (by decide)) (.inl (by decide)) [42] (by decide) 5 10

end MeshNet
