/-
How far a route discovery floods a network.

Nothing but the list of nodes in a request ends the flood, and a node may hear
and send on one copy after another.  Still every copy is followed by no more
than those with longer lists, so that there is a bound to all of them together:
whoever hears whom, how many nodes there are, and whatever is lost.

* `handle_requests` — a request leads to one request at most;
* `fanOut` — the copies of it that are handled after all;
* `flood_bounded` — no discovery has more.
-/
import RadioHead.LoopFreedom
import RadioHead.MeshSimulation

open Run

namespace RHMesh

open RHRouter

variable {s t : RHMesh} {f : Frame}

/-- None of the frames sent is a request. -/
theorem no_requests (h : Sends (Says fun _ => False) s t) :
    ∃ out, t.sent = s.sent ++ out ∧ ∀ g ∈ out, g.data[5]? ≠ some typeRequest := by
  obtain ⟨out, hsent, hout⟩ := h.sent
  exact ⟨out, hsent, fun g hg => (hout g hg).2.2.2⟩

/-- On account of a request with the list `l` a node that is new to it sends one
request at most. -/
theorem request_requests (link : List Frame → LinkAnswer) (htakes : s.Takes f)
    {source target : UInt8} {l : List UInt8} (hreq : IsRequest f.data source target l)
    (hmax : f.data.length ≤ maxMessageLen) (hsource : source ≠ s.thisAddress)
    (hlist : s.thisAddress ∉ l) (len : UInt8) :
    ∃ out, (recvfromAck link s f len).2.sent = s.sent ++ out ∧
      ((∀ g ∈ out, g.data[5]? ≠ some typeRequest) ∨ ∃ g, out = [g] ∧ Relays s f g.data) := by
  obtain ⟨hops, id, flags, hdata⟩ := hreq
  have hn : l.length < 256 := by
    have hlen := hdata ▸ hmax
    rw [length_discovery, maxMessageLen] at hlen
    omega
  by_cases htarget : target = s.thisAddress
  · obtain ⟨hu, hder, -, heq⟩ := request_new link htakes hdata hmax hsource hlist len
    have hfits := (stored_discovery hdata hmax s.tmpMessage).fits
    have hthis : (recorded link s f).thisAddress = s.thisAddress := hu.handled.thisAddress
    have hphys : isPhysicalAddress (recorded link s f) := by
      rw [isPhysicalAddress, hder, hthis, htarget]
      constructor <;> simp [Mem.write]
    obtain ⟨out, hsent, hout⟩ :=
      no_requests (answer_sends link hder hfits hphys source).toSends
    rw [heq]
    exact ⟨out, hsent.trans (by rw [hu.sent]), .inl hout⟩
  · by_cases hroom : UInt8.ofNat l.length < s.maxHops ∧ f.data.length < maxMessageLen
    · obtain ⟨flags', -, hsent⟩ := (request_relayed link htakes hdata hroom.2 hsource hlist
        htarget hroom.1 len).sent
      refine ⟨_, hsent, .inr ⟨_, rfl, source, target, l, ⟨hops, id, flags, hdata⟩, ⟨0, _, 0, rfl⟩,
        hsource, hlist, ?_⟩⟩
      have hlt := UInt8.lt_iff_toNat_lt.mp hroom.1
      rwa [UInt8.toNat_ofNat_of_lt' hn] at hlt
    · have hend : ¬ UInt8.ofNat l.length < s.maxHops ∨ f.data.length = maxMessageLen := by
        rw [not_and_or] at hroom
        exact hroom.imp_right fun h => le_antisymm hmax (not_lt.mp h)
      obtain ⟨_, -, hsent⟩ :=
        (request_exhausted link htakes hdata hmax hsource hlist htarget hend len).sent
      exact ⟨[], hsent, .inl fun _ hg => absurd hg List.not_mem_nil⟩

/-- **On account of a frame a node sends one request at most**: the one in the
frame, with its own address at the end of the list. -/
theorem handle_requests (s : RHMesh) (hlong : 6 ≤ f.data.length)
    (hmax : f.data.length ≤ maxMessageLen)
    (hreq : f.data[5]? = some typeRequest → ∃ source target l, IsRequest f.data source target l)
    (d : MeshHandling) :
    ∃ out, (s.handle f d).sent = s.sent ++ out ∧
      ((∀ g ∈ out, g.data[5]? ≠ some typeRequest) ∨ ∃ g, out = [g] ∧ Relays s f g.data) := by
  have hbc : f.data[5]? = some typeRequest → f.data.getD 0 0 = broadcastAddress := by
    intro h5
    obtain ⟨source, target, l, hops, id, flags, hdata⟩ := hreq h5
    rw [hdata]
    rfl
  cases d with
  | arpReceive link address messageLen =>
    obtain ⟨out, hsent, hout⟩ := no_requests
      (arpReceive_sends link s hlong hmax hbc (R := fun _ => False) address messageLen)
    exact ⟨out, hsent, .inl hout⟩
  | recvfromAck link len =>
    show ∃ out, (recvfromAck link s f len).2.sent = s.sent ++ out ∧ _
    by_cases htakes : s.Takes f
    swap
    · rw [recvfromAck_of_not_takes htakes]
      exact ⟨[], (List.append_nil _).symm, .inl fun _ hg => absurd hg List.not_mem_nil⟩
    by_cases h5 : f.data[5]? = some typeRequest
    · obtain ⟨source, target, l, hops, id, flags, hdata⟩ := hreq h5
      by_cases hseen : source = s.thisAddress ∨ s.thisAddress ∈ l
      · obtain ⟨_, -, hsent⟩ := (request_listed link htakes hdata hmax hseen len).sent
        exact ⟨[], hsent, .inl fun _ hg => absurd hg List.not_mem_nil⟩
      · rw [not_or] at hseen
        exact request_requests link htakes ⟨hops, id, flags, hdata⟩ hmax hseen.1 hseen.2 len
    · obtain ⟨out, hsent, hout⟩ := no_requests
        ((taken_sends s f).trans (recvfromAck_others link htakes hlong hmax h5 len).toSends)
      exact ⟨out, hsent, .inl hout⟩

end RHMesh

namespace MeshNet

open RHMesh RHRouter

/-- A request on the air. -/
def IsAsked (p : UInt8 × Frame) : Prop := p.2.data[5]? = some typeRequest

instance (p : UInt8 × Frame) : Decidable (IsAsked p) :=
  inferInstanceAs (Decidable (_ = _))

/-- The copies of a request that are handled, itself among them, if `m` nodes are
not in its list yet, and `k` nodes at most hear one. -/
def fanOut (k : ℕ) : ℕ → ℕ
  | 0 => 1
  | m + 1 => 1 + k * fanOut k m

/-- The copies that a frame still leads to. -/
def ahead (nodes : Finset UInt8) (k : ℕ) (p : UInt8 × Frame) : ℕ :=
  if IsAsked p then fanOut k (nodes.card + 7 - p.2.data.length) else 0

/-- Those that the frames on the air lead to. -/
def potential (nodes : Finset UInt8) (k : ℕ) (net : MeshNet) : ℕ :=
  (net.air.map (ahead nodes k)).sum

/-- Whether the step is that of a node which handles a request. -/
def asked (net : MeshNet) : MeshEvent → ℕ
  | .handle i => net.air[i]?.elim 0 fun p => if IsAsked p then 1 else 0
  | .lose _ => 0
  | .timeout => 0

variable {nodes : Finset UInt8} {hears : UInt8 → List UInt8} {source target v : UInt8}
  {node : UInt8 → RHMesh} {net net' : MeshNet} {k : ℕ}

theorem fanOut_pos (k m : ℕ) : 1 ≤ fanOut k m := by
  cases m with
  | zero => exact le_rfl
  | succ m => exact Nat.le_add_right 1 _

theorem potential_eraseIdx {i : ℕ} {p : UInt8 × Frame} (hget : net.air[i]? = some p) :
    potential nodes k net =
      ahead nodes k p + ((net.air.eraseIdx i).map (ahead nodes k)).sum := by
  obtain ⟨hi, rfl⟩ := List.getElem?_eq_some_iff.mp hget
  have hperm := (List.getElem_cons_eraseIdx_perm hi).map (ahead nodes k)
  rw [potential, ← hperm.sum_eq, List.map_cons, List.sum_cons]

/-- What a node has sent leads to as many copies as the request among it. -/
theorem ahead_carried {out : List Frame}
    (h : ∀ g ∈ out, g.data[5]? ≠ some typeRequest) :
    ((carried hears v out).map (ahead nodes k)).sum = 0 := by
  refine List.sum_eq_zero ?_
  intro n hn
  obtain ⟨p, hp, rfl⟩ := List.mem_map.mp hn
  exact if_neg (h p.2 (mem_carried.mp hp).1)

theorem ahead_carried_le (nodes : Finset UInt8) {g : Frame} (hk : (hears v).length ≤ k) {m : ℕ}
    (hm : nodes.card + 7 - g.data.length = m) :
    ((carried hears v [g]).map (ahead nodes k)).sum ≤ k * fanOut k m := by
  have hle : ∀ n ∈ (carried hears v [g]).map (ahead nodes k), n ≤ fanOut k m := by
    intro n hn
    obtain ⟨p, hp, rfl⟩ := List.mem_map.mp hn
    rw [ahead, List.mem_singleton.mp (mem_carried.mp hp).1, hm]
    split
    · exact le_rfl
    · exact Nat.zero_le _
  have hlen : ((carried hears v [g]).map (ahead nodes k)).length ≤ k := by
    rw [List.length_map, carried, List.flatMap_singleton, List.length_map]
    exact (List.length_filter_le _ _).trans hk
  calc ((carried hears v [g]).map (ahead nodes k)).sum
      ≤ ((carried hears v [g]).map (ahead nodes k)).length * fanOut k m :=
        List.sum_le_card_nsmul _ _ hle
    _ ≤ k * fanOut k m := Nat.mul_le_mul_right _ hlen

/-- A node handles a frame. -/
theorem handle_potential (net : MeshNet) {limit : ℕ} {f : Frame} (hv : v ∈ nodes)
    (hk : (hears v).length ≤ k) (hs : Configured limit v (net.node v))
    {causes : List (UInt8 × Frame)} (hlegal : Legal nodes limit ⟨f, causes⟩) (d : MeshHandling) :
    (if IsAsked (v, f) then 1 else 0) +
        potential nodes k (net.become hears v ((net.node v).handle f d)) ≤
      ahead nodes k (v, f) + potential nodes k net := by
  have hreq : f.data[5]? = some typeRequest →
      ∃ source target l, IsRequest f.data source target l := by
    intro h5
    obtain ⟨source, target, l, hflood, -⟩ := hlegal.request h5
    exact ⟨source, target, l, hflood.isRequest⟩
  obtain ⟨out, hsent, hout⟩ := handle_requests (net.node v) hlegal.long hlegal.fits hreq d
  have hsum : potential nodes k (net.become hears v ((net.node v).handle f d)) =
      potential nodes k net + ((carried hears v out).map (ahead nodes k)).sum := by
    rw [potential, air_become hsent, List.map_append, List.sum_append, potential]
  rw [hsum]
  rcases hout with hnone | ⟨g, rfl, source, target, l, hreqf, hreqg, hne, hnew, -⟩
  · -- the request ends here, if it was one
    rw [ahead_carried hnone, ahead]
    by_cases hasked : IsAsked (v, f)
    · have hpos := fanOut_pos k (nodes.card + 7 - (v, f).2.data.length)
      rw [if_pos hasked, if_pos hasked]
      omega
    · rw [if_neg hasked, if_neg hasked]
      omega
  · -- the list is longer by one, and this node had not been in it
    have h5 : f.data[5]? = some typeRequest := by
      obtain ⟨hops, id, flags, hdata⟩ := hreqf
      rw [hdata]
      rfl
    obtain ⟨source', target', l', hflood, -, hmem⟩ := hlegal.request h5
    obtain ⟨rfl, rfl, rfl⟩ := hreqf.unique hflood.isRequest
    rw [hs.thisAddress] at hne hnew hreqg
    have hnodup : (v :: source :: l).Nodup :=
      List.nodup_cons.mpr ⟨fun h => (List.mem_cons.mp h).elim (fun h => hne h.symm) hnew,
        hflood.nodup⟩
    have hcard : l.length + 2 ≤ nodes.card := by
      have hlen : (v :: source :: l).toFinset.card = l.length + 2 :=
        List.toFinset_card_of_nodup hnodup
      rw [← hlen]
      refine Finset.card_le_card ?_
      intro w hw
      rcases List.mem_cons.mp (List.mem_toFinset.mp hw) with rfl | hw
      · exact hv
      · exact hmem w hw
    have hlenf : f.data.length = 8 + l.length := by
      obtain ⟨hops, id, flags, hdata⟩ := hreqf
      rw [hdata, length_discovery]
    have hleng : g.data.length = 8 + (l.length + 1) := by
      obtain ⟨hops, id, flags, hdata⟩ := hreqg
      rw [hdata, length_discovery, List.length_append, List.length_singleton]
    -- so that it can come on to one node fewer
    obtain ⟨m, hm⟩ : ∃ m, nodes.card + 7 - f.data.length = m + 1 :=
      ⟨nodes.card + 7 - f.data.length - 1, by omega⟩
    have hle := ahead_carried_le nodes hk
      (show nodes.card + 7 - g.data.length = m by omega)
    have hasked : IsAsked (v, f) := h5
    rw [ahead, if_pos hasked, if_pos hasked, show nodes.card + 7 - f.data.length = m + 1 from hm,
      fanOut]
    omega

/-- The nodes are in their places, and the requests on the air are as they should be. -/
theorem run_legal_air (hnode : ∀ v ∈ nodes, (node v).thisAddress = v ∧ (node v).txHeaderFrom = v)
    (hhears : ∀ v ∈ nodes, ∀ w ∈ hears v, w ∈ nodes) (hsource : source ∈ nodes)
    {es : List MeshEvent}
    (hrun : run (step hears source target) (start hears source target node) es = some net) :
    (∀ v ∈ nodes, Configured (hopLimit nodes node) v (net.node v)) ∧
      ∀ p ∈ net.air, p.1 ∈ nodes ∧
        ∃ causes, Legal nodes (hopLimit nodes node) ⟨p.2, causes⟩ := by
  obtain ⟨ds, m, hm, hmirrors⟩ := run_mirrored hhears hsource hrun
  have hholds := run_legal hnode hm
  constructor
  · intro v hv
    rw [← hmirrors.node]
    exact hholds.node v hv
  · intro p hp
    obtain ⟨hmem, q, hq, hframe⟩ := hmirrors.air p hp
    exact ⟨hmem, q.causes, hframe ▸ hholds.air q hq⟩

/-- **Every copy of the request that is handled is paid for.** -/
theorem step_pays (hnode : ∀ v ∈ nodes, (node v).thisAddress = v ∧ (node v).txHeaderFrom = v)
    (hhears : ∀ v ∈ nodes, ∀ w ∈ hears v, w ∈ nodes) (hsource : source ∈ nodes)
    (hk : ∀ v ∈ nodes, (hears v).length ≤ k) {es : List MeshEvent}
    (hrun : run (step hears source target) (start hears source target node) es = some net)
    {e : MeshEvent} (hstep : step hears source target net e = some net') :
    asked net e + potential nodes k net' ≤ potential nodes k net := by
  cases e with
  | handle i =>
    obtain ⟨⟨v, f⟩, hget, rfl⟩ := Option.map_eq_some_iff.mp hstep
    obtain ⟨hconf, hair⟩ := run_legal_air hnode hhears hsource hrun
    obtain ⟨hv, causes, hlegal⟩ := hair _ (List.mem_of_getElem? hget)
    obtain ⟨d, arp, heard, resolved, heq⟩ :=
      handle_eq hears source target { net with air := net.air.eraseIdx i } v f
    have hle := handle_potential { net with air := net.air.eraseIdx i } hv (hk v hv)
      (hconf v hv) hlegal d
    rw [potential_eraseIdx hget, asked, hget]
    dsimp only at heq ⊢
    rw [heq]
    exact hle
  | lose i =>
    rw [step, Option.ite_none_right_eq_some, Option.some_inj] at hstep
    obtain ⟨hi, rfl⟩ := hstep
    rw [potential_eraseIdx (List.getElem?_eq_getElem hi), asked, Nat.zero_add]
    exact Nat.le_add_left _ _
  | timeout =>
    rw [step, Option.ite_none_right_eq_some, Option.some_inj] at hstep
    obtain ⟨-, rfl⟩ := hstep
    exact (Nat.zero_add _).le

/-- The network has come about in a discovery, and leads to `m` copies at most. -/
def Affords (hears : UInt8 → List UInt8) (source target : UInt8) (nodes : Finset UInt8)
    (node : UInt8 → RHMesh) (k m : ℕ) (net : MeshNet) : Prop :=
  potential nodes k net ≤ m ∧
    ∃ fs, run (step hears source target) (start hears source target node) fs = some net

/-- **The flood of a discovery is bounded.**  In every run of a network in which
`source` looks for a node, whatever is lost and in whatever order frames are
handled, with whatever routing tables and links, all its nodes together handle
no more copies of the request than there are ways through the network that come
to no node twice: `fanOut` of the nodes besides `source`, if `k` nodes at most
hear one. -/
theorem flood_bounded (hnode : ∀ v ∈ nodes, (node v).thisAddress = v ∧ (node v).txHeaderFrom = v)
    (hhears : ∀ v ∈ nodes, ∀ w ∈ hears v, w ∈ nodes) (hsource : source ∈ nodes)
    (hk : ∀ v ∈ nodes, (hears v).length ≤ k) {es : List MeshEvent}
    (hrun : run (step hears source target) (start hears source target node) es = some net) :
    total (step hears source target) asked (start hears source target node) es ≤
      k * fanOut k (nodes.card - 1) := by
  have hstart : potential nodes k (start hears source target node) ≤
      k * fanOut k (nodes.card - 1) := by
    obtain ⟨t, id, flags, -, -, -, heq⟩ := start_eq hears source target node
    rw [heq]
    refine ahead_carried_le nodes (hk source hsource) ?_
    rw [length_discovery, List.length_nil]
    omega
  have hstep : ∀ m net e net', Affords hears source target nodes node k m net → True →
      step hears source target net e = some net' →
        ∃ n, asked net e + n ≤ m ∧ Affords hears source target nodes node k n net' := by
    rintro m net e net' ⟨hle, fs, hfs⟩ - hstep
    have hpays := step_pays hnode hhears hsource hk hfs hstep
    refine ⟨potential nodes k net', by omega, le_rfl, fs ++ [e], ?_⟩
    exact run_append.mpr ⟨net, hfs, run_cons.mpr ⟨net', hstep, rfl⟩⟩
  obtain ⟨n, hle, -⟩ :=
    run_pays hstep ⟨hstart, [], rfl⟩ (allSteps_of_mem (fun _ _ => trivial) _) hrun
  exact (Nat.le_add_right _ n).trans hle

/-- Nodes 2 and 3 hear the request of node 1 and each other's copy of it. -/
theorem triangle_flood : ∃ net,
    run (step triangle 1 4) (start triangle 1 4 bootNode)
      [.handle 0, .handle 0, .handle 1, .handle 2] = some net ∧
    total (step triangle 1 4) asked (start triangle 1 4 bootNode)
      [.handle 0, .handle 0, .handle 1, .handle 2] ≤ 3 * fanOut 3 3 := by
  have hrun : (run (step triangle 1 4) (start triangle 1 4 bootNode)
      [.handle 0, .handle 0, .handle 1, .handle 2]).isSome := by
    decide +kernel
  obtain ⟨net, hnet⟩ := Option.isSome_iff_exists.mp hrun
  refine ⟨net, hnet, ?_⟩
  have hclosed : ∀ v ∈ ({1, 2, 3, 4} : Finset UInt8), ∀ w ∈ triangle v,
      w ∈ ({1, 2, 3, 4} : Finset UInt8) :=
    fun v _ w hw => triangle_layout.mem v w hw
  exact flood_bounded (fun _ _ => ⟨rfl, rfl⟩) hclosed (by decide) (by decide +kernel) hnet

end MeshNet
