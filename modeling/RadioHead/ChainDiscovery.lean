/-
Route discovery along a chain of nodes.

Nodes `n 0`, ..., `n (k + 1)`, each hearing the one before it and the one after
it; `n 0` looks for `n (k + 1)`, and frames are handled in the order in which
they are sent.

* `Chain`, `Member` — the nodes, what they hear, and what holds of them all the
  time;
* `Asked`, `Answered`, `Resolved` — how far the request or the response has come;
* `Bouncing` — with address 0 at the originator the response does not come home;
* `discovers_iff` — when the discovery succeeds.
-/
import RadioHead.MeshNetwork

open Run

namespace MeshNet

open RHMesh RHRouter

/-- A chain of `k + 2` nodes, no more than a routing table has slots. -/
structure Chain (k : ℕ) (n : ℕ → UInt8) (hears : UInt8 → List UInt8) : Prop where
  size : k + 2 ≤ routingTableSize
  inj : ∀ i j, i ≤ k + 1 → j ≤ k + 1 → n i = n j → i = j
  broadcast : ∀ i, i ≤ k + 1 → n i ≠ broadcastAddress
  first : hears (n 0) = [n 1]
  inner : ∀ i, i < k → hears (n (i + 1)) = [n i, n (i + 2)]
  last : hears (n (k + 1)) = [n k]

/-- The nodes between, as far as node `i`. -/
def passed (n : ℕ → UInt8) (i : ℕ) : List UInt8 := (List.range i).map fun j => n (j + 1)

/-- The destinations node `i` may learn routes to: the other nodes, and
address 0. -/
def others (k : ℕ) (n : ℕ → UInt8) (i : ℕ) : Finset UInt8 :=
  insert 0 (((Finset.range (k + 2)).image n).erase (n i))

variable {k : ℕ} {n : ℕ → UInt8} {hears : UInt8 → List UInt8} {node : UInt8 → RHMesh}
  {net net' : MeshNet} {i j : ℕ}

@[simp] theorem length_passed (n : ℕ → UInt8) (i : ℕ) : (passed n i).length = i := by
  rw [passed, List.length_map, List.length_range]

theorem passed_succ (n : ℕ → UInt8) (i : ℕ) : passed n (i + 1) = passed n i ++ [n (i + 1)] := by
  rw [passed, List.range_succ, List.map_append]
  rfl

theorem mem_passed {d : UInt8} : d ∈ passed n i ↔ ∃ j < i, n (j + 1) = d := by
  simp [passed]

theorem Chain.card_others (h : Chain k n hears) (hi : i ≤ k + 1) :
    (others k n i).card ≤ routingTableSize := by
  have hmem : n i ∈ (Finset.range (k + 2)).image n :=
    Finset.mem_image_of_mem n (Finset.mem_range.mpr (by omega))
  have hle : ((Finset.range (k + 2)).image n).card ≤ k + 2 :=
    Finset.card_image_le.trans (Finset.card_range _).le
  have hinsert := Finset.card_insert_le 0 (((Finset.range (k + 2)).image n).erase (n i))
  rw [Finset.card_erase_of_mem hmem] at hinsert
  have hsize := h.size
  rw [others]
  omega

/-- Two nodes have two addresses. -/
theorem Chain.ne (h : Chain k n hears) (hi : i ≤ k + 1) (hj : j ≤ k + 1) (hij : i ≠ j) :
    n i ≠ n j := fun heq => hij (h.inj i j hi hj heq)

theorem Chain.mem_others (h : Chain k n hears) (hi : i ≤ k + 1) (hj : j ≤ k + 1) (hij : j ≠ i) :
    n j ∈ others k n i := by
  refine Finset.mem_insert_of_mem (Finset.mem_erase.mpr ⟨h.ne hj hi hij, ?_⟩)
  exact Finset.mem_image_of_mem n (Finset.mem_range.mpr (by omega))

theorem Chain.notMem_passed (h : Chain k n hears) (hi : i ≤ k) (hj : j ≤ k + 1)
    (hij : j = 0 ∨ i < j) : n j ∉ passed n i := by
  intro hmem
  obtain ⟨m, hm, heq⟩ := mem_passed.mp hmem
  exact h.ne (by omega) hj (by omega) heq

/-- What holds of node `i` all the time: nothing has been written behind the
longest list. -/
structure Member (k : ℕ) (n : ℕ → UInt8) (node : UInt8 → RHMesh) (i : ℕ) (s : RHMesh) : Prop where
  thisAddress : s.thisAddress = n i
  txHeaderFrom : s.txHeaderFrom = n i
  maxHops : s.maxHops = (node (n i)).maxHops
  behind : s.tmpMessage (routeOctet + k) = 0
  known : ∀ d, (s.routes.nextHop d).isSome → d ∈ others k n i

theorem Fresh.member {v : UInt8} (h : Fresh v (node v)) (hv : v = n i) :
    Member k n node i (node v) where
  thisAddress := h.thisAddress.trans hv
  txHeaderFrom := h.txHeaderFrom.trans hv
  maxHops := by rw [hv]
  behind := h.tmpMessage _
  known d hd := by
    rw [h.routes d] at hd
    exact absurd hd Bool.false_ne_true

theorem Member.handled {s t : RHMesh} {f : Frame} {learned : List UInt8}
    {out : Option (UInt8 × List UInt8)} (hc : Chain k n hears) (hi : i ≤ k + 1)
    (hm : Member k n node i s) (h : Handled s f learned out t)
    (hl : ∀ d ∈ learned, d ∈ others k n i) (hf : f.data.length ≤ routeOctet + k)
    (hout : ∀ o ∈ out, o.2.length ≤ routeOctet + k) : Member k n node i t where
  thisAddress := h.thisAddress.trans hm.thisAddress
  txHeaderFrom := h.txHeaderFrom.trans hm.txHeaderFrom
  maxHops := h.maxHops.trans hm.maxHops
  behind := by
    have hlen : ((out.map (·.2)).getD []).length ≤ routeOctet + k := by
      cases out with
      | none => exact Nat.zero_le _
      | some o => exact hout o rfl
    rw [h.tmpMessage _ (Nat.le_add_right _ _), Mem.write_ge (by rwa [Nat.zero_add]), stored,
      Mem.write_ge, hm.behind]
    rw [List.length_take]
    omega
  known d hd := by
    rw [h.routes, nextHop_routesAfter (hc.card_others hi) hm.known hl] at hd
    split at hd
    · exact hl d ‹_›
    · exact hm.known d hd

/-- The other nodes have other addresses. -/
theorem Member.ne {s : RHMesh} (hm : Member k n node i s) (hc : Chain k n hears) (hi : i ≤ k + 1)
    (hj : j ≤ k + 1) (hij : j ≠ i) : n j ≠ s.thisAddress := by
  rw [hm.thisAddress]
  exact hc.ne hj hi hij

/-- The routes of a member afterwards. -/
theorem Member.nextHop {s t : RHMesh} {f : Frame} {learned : List UInt8}
    {out : Option (UInt8 × List UInt8)} (hc : Chain k n hears) (hi : i ≤ k + 1)
    (hm : Member k n node i s) (h : Handled s f learned out t)
    (hl : ∀ d ∈ learned, d ∈ others k n i) (d : UInt8) :
    t.routes.nextHop d = if d ∈ learned then some f.headerFrom else s.routes.nextHop d := by
  rw [h.routes, nextHop_routesAfter (hc.card_others hi) hm.known hl]

/-- What a node on the way learns from the response: the nodes from the second
one after it on, and with them the octet behind the list. -/
theorem learnedFrom_inner (h : Chain k n hears) (hi : i < k) {s : RHMesh}
    (hm : Member k n node (i + 1) s) :
    learnedFrom s (n (k + 1)) (passed n k) = n (k + 1) :: (passed n k ++ [0]).drop (i + 2) := by
  have hidx : (passed n k).findIdx (· = n (i + 1)) = i := by
    refine (List.findIdx_eq (by rwa [length_passed])).mpr ⟨?_, ?_⟩
    · simp [passed]
    · intro j hj
      simp only [passed, List.getElem_map, List.getElem_range, decide_eq_false_iff_not]
      exact h.ne (by omega) (by omega) (by omega)
  rw [learnedFrom, scraped, hm.thisAddress, hidx, length_passed, hm.behind]

theorem mem_learnedFrom_inner (h : Chain k n hears) (hi : i < k) {s : RHMesh}
    (hm : Member k n node (i + 1) s) {d : UInt8}
    (hd : d ∈ learnedFrom s (n (k + 1)) (passed n k)) :
    (∃ j, i + 2 ≤ j ∧ j ≤ k + 1 ∧ d = n j) ∨ d = 0 ∧ i + 2 ≤ k := by
  rw [learnedFrom_inner h hi hm] at hd
  rcases List.mem_cons.mp hd with rfl | hd
  · exact .inl ⟨k + 1, by omega, le_rfl, rfl⟩
  · obtain ⟨j, hj, rfl⟩ := List.mem_drop_iff_getElem.mp hd
    rw [List.length_append, length_passed, List.length_singleton] at hj
    by_cases hjk : i + 2 + j < k
    · refine .inl ⟨i + 2 + j + 1, by omega, by omega, ?_⟩
      rw [List.getElem_append_left (by rwa [length_passed])]
      simp [passed]
    · refine .inr ⟨?_, by omega⟩
      rw [List.getElem_append_right (by rw [length_passed]; omega)]
      simp

/-- These are other nodes, or address 0. -/
theorem learnedFrom_inner_subset (h : Chain k n hears) (hi : i < k) {s : RHMesh}
    (hm : Member k n node (i + 1) s) :
    ∀ d ∈ learnedFrom s (n (k + 1)) (passed n k), d ∈ others k n (i + 1) := by
  intro d hd
  rcases mem_learnedFrom_inner h hi hm hd with ⟨j, hj, hjk, rfl⟩ | ⟨rfl, -⟩
  · exact h.mem_others (by omega) hjk (by omega)
  · exact Finset.mem_insert_self 0 _

/-- The originator learns the route to the target only. -/
theorem learnedFrom_first (h : Chain k n hears) {s : RHMesh} (hthis : s.thisAddress = n 0) :
    learnedFrom s (n (k + 1)) (passed n k) = [n (k + 1)] := by
  have hend : (passed n k).findIdx (· = n 0) = (passed n k).length := by
    refine List.findIdx_eq_length_of_false ?_
    intro d hd
    refine decide_eq_false ?_
    rintro rfl
    exact h.notMem_passed le_rfl (Nat.zero_le _) (.inl rfl) hd
  rw [learnedFrom, scraped, hthis, hend, List.drop_eq_nil_of_le (by simp)]

/-! ### Steps -/

/-- The first frame on the air is handled by a node that is not waiting. -/
theorem step_handle {source v : UInt8} (target : UInt8) {f : Frame}
    {rest : List (UInt8 × Frame)} (hair : net.air = (v, f) :: rest)
    (hw : net.waiting source v = none) {learned : List UInt8}
    {out : Option (UInt8 × List UInt8)}
    (hh : Handled (net.node v) f learned out
      (recvfromAck (link hears v) (net.node v) f meshMessageSize).2) :
    ∃ t flags, Handled (net.node v) f learned out t ∧ flags &&& flagsAck = 0 ∧
      step hears source target net (.handle 0) = some { net with
        node := Function.update net.node v t
        air := rest ++ carried hears v (out.map fun o => ⟨o.1, (net.node v).txHeaderFrom,
          (net.node v).lastSequenceNumber + 1, flags, o.2⟩).toList } := by
  obtain ⟨flags, hack, hsent⟩ := hh.sent
  refine ⟨_, flags, hh, hack, ?_⟩
  have hw' : waiting source { net with air := net.air.eraseIdx 0 } v = none := hw
  rw [step, hair, List.getElem?_cons_zero, Option.map_some, ← hair, handle_recvfromAck hw', become,
    hsent, List.drop_left, hair]
  rfl

/-- It is handled by the originator in the wait loop of `doArp`. -/
theorem step_waiting {source target messageLen : UInt8} {f : Frame}
    {rest : List (UInt8 × Frame)} (hair : net.air = (source, f) :: rest)
    (harp : net.arp = some messageLen) {done : Bool} {m : UInt8} {t : RHMesh}
    (heq : arpReceive (link hears source) (net.node source) target messageLen f = (done, m, t))
    {learned : List UInt8} (hh : Handled (net.node source) f learned none t) :
    step hears source target net (.handle 0) = some
      { node := Function.update net.node source t
        air := rest
        arp := if done then none else some m
        heard := net.heard ++ [f]
        resolved := done } := by
  obtain ⟨flags, -, hsent⟩ := hh.sent
  have hw : waiting source { net with air := net.air.eraseIdx 0 } source = some messageLen :=
    (if_pos rfl).trans harp
  have hnone : carried hears source (t.sent.drop (net.node source).sent.length) = [] := by
    rw [hsent, List.drop_left]
    rfl
  rw [step, hair, List.getElem?_cons_zero, Option.map_some, ← hair, handle_waiting hw, heq]
  dsimp only
  rw [become, hnone, hair]
  simp

theorem ne_add_one (a : UInt8) : a ≠ a + 1 := by
  intro h
  have := congrArg UInt8.toNat h
  rw [UInt8.toNat_add] at this
  have hlt := a.toNat_lt
  simp only [UInt8.reduceToNat] at this
  omega

/-- The state of another node. -/
theorem Chain.update_ne (h : Chain k n hears) (hi : i ≤ k + 1) (hj : j ≤ k + 1) (hij : j ≠ i)
    (g : UInt8 → RHMesh) (t : RHMesh) : Function.update g (n i) t (n j) = g (n j) := by
  exact Function.update_of_ne (h.ne hj hi hij) _ _

/-! ### The request on its way -/

/-- The next message of the node after node `i` is new to node `i`. -/
def News (n : ℕ → UInt8) (net : MeshNet) (i : ℕ) : Prop :=
  (net.node (n i)).seenIds (n (i + 1)) ≠ (net.node (n (i + 1))).lastSequenceNumber + 1

/-- The request has been sent by node `i` and come back to the one before it;
node `i + 1` is about to hear it. -/
structure Asked (k : ℕ) (n : ℕ → UInt8) (node : UInt8 → RHMesh) (i : ℕ) (net : MeshNet) :
    Prop where
  member : ∀ j, j ≤ k + 1 → Member k n node j (net.node (n j))
  routes : ∀ j, j < i → (net.node (n (j + 1))).routes.nextHop (n 0) = some (n j)
  news : ∀ j, j ≤ k → News n net j
  seen : ∀ j, i < j → j ≤ k + 1 → (net.node (n j)).seenIds = (node (n j)).seenIds
  sequence : ∀ j, i < j → j ≤ k + 1 →
    (net.node (n j)).lastSequenceNumber = (node (n j)).lastSequenceNumber
  waits : ∃ messageLen, net.arp = some messageLen ∧ 1 < messageLen
  air : ∃ f hops id flags, net.air = [(n (i + 1), f)] ∧ ¬ f.IsAck ∧ f.headerFrom = n i ∧
    f.headerId = (node (n i)).lastSequenceNumber + 1 ∧
    f.data = discovery broadcastAddress (n 0) hops id flags typeRequest (n (k + 1)) (passed n i)

/-- What the nodes are when the discovery starts: as they come up, with room
for `k` hops, and with link ids that are new to their neighbours. -/
structure Ready (k : ℕ) (n : ℕ → UInt8) (node : UInt8 → RHMesh) : Prop where
  fresh : ∀ i, i ≤ k + 1 → Fresh (n i) (node (n i))
  hops : ∀ i, i < k → k ≤ (node (n (i + 1))).maxHops.toNat
  back : ∀ i, i ≤ k →
    (node (n i)).seenIds (n (i + 1)) ≠ (node (n (i + 1))).lastSequenceNumber + 1
  forth : ∀ i, i ≤ k → (node (n (i + 1))).seenIds (n i) ≠ (node (n i)).lastSequenceNumber + 1

theorem start_asked (hc : Chain k n hears) (hr : Ready k n node) :
    Asked k n node 0 (start hears (n 0) (n (k + 1)) node) := by
  obtain ⟨t, id, flags, ht, hack, hid, heq⟩ := start_eq hears (n 0) (n (k + 1)) node
  have hfirst := (hr.fresh 0 (Nat.zero_le _)).member (k := k) rfl
  have hold : ∀ j, 0 < j → j ≤ k + 1 → Function.update node (n 0) t (n j) = node (n j) :=
    fun j h0 hj => hc.update_ne (Nat.zero_le _) hj (by omega) node t
  have hnew : Function.update node (n 0) t (n 0) = t := Function.update_self ..
  rw [heq]
  refine ⟨?_, ?_, ?_, ?_, ?_, ⟨meshMessageSize, rfl, by decide⟩, ?_⟩
  · intro j hj
    rcases Nat.eq_zero_or_pos j with rfl | h0
    · show Member k n node 0 (Function.update node (n 0) t (n 0))
      rw [hnew]
      refine ⟨ht.thisAddress.trans hfirst.1, ht.txHeaderFrom.trans hfirst.2, ht.maxHops, ?_, ?_⟩
      · rw [ht.tmpMessage]
        show (node (n 0)).tmpMessage.write 0 _ _ = 0
        rw [Mem.write_ge, hfirst.behind]
        rw [length_discovery]
        exact Nat.le_add_right _ _
      · rw [ht.routes]
        exact hfirst.known
    · show Member k n node j (Function.update node (n 0) t (n j))
      rw [hold j h0 hj]
      exact (hr.fresh j hj).member rfl
  · exact fun j hj => absurd hj (Nat.not_lt_zero j)
  · intro j hj
    show (Function.update node (n 0) t (n j)).seenIds _ ≠
      (Function.update node (n 0) t (n (j + 1))).lastSequenceNumber + 1
    rw [hold (j + 1) (Nat.succ_pos j) (by omega)]
    rcases Nat.eq_zero_or_pos j with rfl | h0
    · rw [hnew, ht.seenIds]
      exact hr.back 0 hj
    · rw [hold j h0 (by omega)]
      exact hr.back j hj
  · intro j h0 hj
    show (Function.update node (n 0) t (n j)).seenIds = _
    rw [hold j h0 hj]
  · intro j h0 hj
    show (Function.update node (n 0) t (n j)).lastSequenceNumber = _
    rw [hold j h0 hj]
  · refine ⟨⟨broadcastAddress, n 0, id, flags, discovery broadcastAddress (n 0) 0
      (node (n 0)).lastE2ESequenceNumber 0 typeRequest (n (k + 1)) []⟩, 0, _, 0, ?_,
      not_not.mpr hack, rfl, hid, rfl⟩
    rw [hfirst.thisAddress, hfirst.txHeaderFrom]
    exact (carried_broadcast rfl).trans (by rw [hc.first]; rfl)

/-- Node `i` hears a request again that it has sent, or sent on. -/
theorem echo (net : MeshNet) (hc : Chain k n hears) (hi : i ≤ j) (hj : j ≤ k)
    (hthis : (net.node (n i)).thisAddress = n i) {messageLen : UInt8}
    (harp : net.arp = some messageLen) (hml : 1 < messageLen) {f : Frame}
    {rest : List (UInt8 × Frame)} (hair : net.air = (n i, f) :: rest) (hack : ¬ f.IsAck)
    (hnew : f.headerId ≠ (net.node (n i)).seenIds f.headerFrom) {hops id flags : UInt8}
    (hdata : f.data =
      discovery broadcastAddress (n 0) hops id flags typeRequest (n (k + 1)) (passed n j)) :
    ∃ t net', step hears (n 0) (n (k + 1)) net (.handle 0) = some net' ∧
      Handled (net.node (n i)) f [] none t ∧ net'.node = Function.update net.node (n i) t ∧
      net'.air = rest ∧ ∃ messageLen, net'.arp = some messageLen ∧ 1 < messageLen := by
  have hlen : f.data.length ≤ maxMessageLen := by
    have hsize := hc.size
    rw [hdata, length_discovery, length_passed, maxMessageLen]
    rw [routingTableSize] at hsize
    omega
  have htakes : (net.node (n i)).Takes f := ⟨hack, hnew⟩
  rcases Nat.eq_zero_or_pos i with rfl | h0
  · obtain ⟨m, t, hm, heq, hh⟩ := arp_request (link hears (n 0)) htakes hdata hlen (n (k + 1)) hml
    exact ⟨t, _, step_waiting hair harp heq hh, hh, rfl, rfl, m, rfl, hm⟩
  · have hlisted : n 0 = (net.node (n i)).thisAddress ∨
        (net.node (n i)).thisAddress ∈ passed n j := by
      rw [hthis]
      refine .inr (mem_passed.mpr ⟨i - 1, by omega, ?_⟩)
      rw [Nat.sub_add_cancel h0]
    have hw : net.waiting (n 0) (n i) = none :=
      if_neg (hc.ne (by omega) (Nat.zero_le _) h0.ne')
    obtain ⟨t, flags', hh, -, hstep⟩ := step_handle (n (k + 1)) hair hw
      (request_listed (link hears (n i)) htakes hdata hlen hlisted meshMessageSize)
    refine ⟨t, _, hstep, hh, rfl, ?_, messageLen, harp, hml⟩
    exact List.append_nil rest

/-- A discovery message on its way ends at the latest where the longest list does. -/
theorem length_discovery_le (hj : j ≤ k) (dest source hops id flags msgType target : UInt8) :
    (discovery dest source hops id flags msgType target (passed n j)).length ≤ routeOctet + k := by
  rw [length_discovery, length_passed, routeOctet]
  omega

theorem Chain.length_lt (h : Chain k n hears) (hj : j ≤ k)
    (dest source hops id flags msgType target : UInt8) :
    (discovery dest source hops id flags msgType target (passed n j)).length < maxMessageLen := by
  have hsize := h.size
  rw [length_discovery, length_passed, maxMessageLen]
  rw [routingTableSize] at hsize
  omega

/-- What a node learns from the request are nodes before it. -/
theorem Chain.request_subset (h : Chain k n hears) (hi : i ≤ k) :
    ∀ d ∈ n 0 :: passed n i, d ∈ others k n (i + 1) := by
  intro d hd
  rcases List.mem_cons.mp hd with rfl | hd
  · exact h.mem_others (by omega) (Nat.zero_le _) (Nat.succ_ne_zero i).symm
  · obtain ⟨j, hj, rfl⟩ := mem_passed.mp hd
    exact h.mem_others (by omega) (by omega) (by omega)

theorem Chain.not_waiting (h : Chain k n hears) (net : MeshNet) (hi : i ≤ k) :
    net.waiting (n 0) (n (i + 1)) = none :=
  if_neg (h.ne (by omega) (Nat.zero_le _) (Nat.succ_ne_zero i))

theorem Asked.takes (ha : Asked k n node i net) (hr : Ready k n node) (hi : i ≤ k) {f : Frame}
    (hack : ¬ f.IsAck) (hfrom : f.headerFrom = n i)
    (hid : f.headerId = (node (n i)).lastSequenceNumber + 1) :
    (net.node (n (i + 1))).Takes f := by
  refine ⟨hack, ?_⟩
  show f.headerId ≠ (net.node (n (i + 1))).seenIds f.headerFrom
  rw [ha.seen (i + 1) (Nat.lt_succ_self i) (by omega), hfrom, hid]
  exact (hr.forth i hi).symm

/-- Two steps of a discovery: node `i + 1` has handled `f` and sent the request on
as `g`, and node `i` has dropped it. -/
structure Relayed (k : ℕ) (n : ℕ → UInt8) (i : ℕ) (f g : Frame) (net net' : MeshNet) : Prop where
  dropped : Handled (net.node (n i)) g [] none (net'.node (n i))
  relayed : Handled (net.node (n (i + 1))) f (n 0 :: passed n i) (some (broadcastAddress, g.data))
    (net'.node (n (i + 1)))
  others : ∀ j, j ≤ k + 1 → j ≠ i → j ≠ i + 1 → net'.node (n j) = net.node (n j)
  waits : ∃ messageLen, net'.arp = some messageLen ∧ 1 < messageLen
  air : net'.air = [(n (i + 2), g)]
  notAck : ¬ g.IsAck
  headerFrom : g.headerFrom = n (i + 1)
  headerId : g.headerId = (net.node (n (i + 1))).lastSequenceNumber + 1
  data : ∃ id, g.data =
    discovery broadcastAddress (n 0) 0 id 0 typeRequest (n (k + 1)) (passed n (i + 1))

/-- A relay has not seen the request, is neither its source nor its target, and
sends it on. -/
theorem Asked.handled (hc : Chain k n hears) (hr : Ready k n node) (hi : i < k)
    (ha : Asked k n node i net) {f : Frame} {hops id flags : UInt8} (hack : ¬ f.IsAck)
    (hfrom : f.headerFrom = n i) (hid : f.headerId = (node (n i)).lastSequenceNumber + 1)
    (hdata : f.data =
      discovery broadcastAddress (n 0) hops id flags typeRequest (n (k + 1)) (passed n i)) :
    Handled (net.node (n (i + 1))) f (n 0 :: passed n i)
      (some (broadcastAddress, discovery broadcastAddress (n 0) 0
        (net.node (n (i + 1))).lastE2ESequenceNumber 0 typeRequest (n (k + 1)) (passed n (i + 1))))
      (recvfromAck (link hears (n (i + 1))) (net.node (n (i + 1))) f meshMessageSize).2 := by
  have hmem := ha.member (i + 1) (by omega)
  have hthis := hmem.thisAddress
  have hflen := hdata ▸ hc.length_lt (by omega : i ≤ k) broadcastAddress (n 0) hops id flags
    typeRequest (n (k + 1))
  have hsource : n 0 ≠ (net.node (n (i + 1))).thisAddress :=
    hmem.ne hc (by omega) (Nat.zero_le _) (Nat.succ_ne_zero i).symm
  have htarget : n (k + 1) ≠ (net.node (n (i + 1))).thisAddress :=
    hmem.ne hc (by omega) le_rfl (by omega)
  have hlist : (net.node (n (i + 1))).thisAddress ∉ passed n i := by
    rw [hthis]
    exact hc.notMem_passed (by omega) (by omega) (.inr (Nat.lt_succ_self i))
  -- the list has room for one more hop
  have hhops : UInt8.ofNat (passed n i).length < (net.node (n (i + 1))).maxHops := by
    have hle := hr.hops i hi
    have hlt := (node (n (i + 1))).maxHops.toNat_lt
    rw [hmem.maxHops, length_passed, UInt8.lt_iff_toNat_lt,
      UInt8.toNat_ofNat_of_lt' (show i < 256 by omega)]
    omega
  have h := request_relayed (link hears (n (i + 1))) (ha.takes hr hi.le hack hfrom hid) hdata hflen
    hsource hlist htarget hhops meshMessageSize
  rwa [hthis, ← passed_succ] at h

/-- A relay sends the request on, and the node before it drops it. -/
theorem Asked.relayed (hc : Chain k n hears) (hr : Ready k n node) (hi : i < k)
    (ha : Asked k n node i net) :
    ∃ f g net', run (step hears (n 0) (n (k + 1))) net (List.replicate 2 (.handle 0)) = some net' ∧
      f.headerFrom = n i ∧ f.data.length ≤ routeOctet + k ∧ Relayed k n i f g net net' := by
  obtain ⟨messageLen, harp, hml⟩ := ha.waits
  obtain ⟨f, hops, id, flags, hair, hack, hfrom, hid, hdata⟩ := ha.air
  obtain ⟨t, flags', hh, hack', hstep⟩ := step_handle (n (k + 1)) hair (hc.not_waiting net hi.le)
    (ha.handled hc hr hi hack hfrom hid hdata)
  rw [(ha.member (i + 1) (by omega)).txHeaderFrom] at hstep
  set g : Frame := ⟨broadcastAddress, n (i + 1), (net.node (n (i + 1))).lastSequenceNumber + 1,
    flags', _⟩ with hg
  have hcarried : [] ++ carried hears (n (i + 1)) [g] = [(n i, g), (n (i + 2), g)] := by
    rw [List.nil_append, carried_broadcast rfl, hc.inner i hi]
    rfl
  rw [Option.map_some, Option.toList_some, ← hg, hcarried] at hstep
  -- the node before it hears it first
  set net₁ : MeshNet := { net with
    node := Function.update net.node (n (i + 1)) t
    air := [(n i, g), (n (i + 2), g)] } with hnet₁
  have hold : net₁.node (n i) = net.node (n i) :=
    hc.update_ne (by omega) (by omega) (by omega) net.node t
  obtain ⟨t₀, net', hstep', hh₀, hnode, hair', hwaits⟩ := echo net₁ hc (Nat.le_succ i) hi
    (hold ▸ (ha.member i (by omega)).thisAddress) harp hml rfl (not_not.mpr hack')
    (hold ▸ (ha.news i hi.le).symm) rfl
  have hself : net'.node (n i) = t₀ := by rw [hnode, Function.update_self]
  have hnext : net'.node (n (i + 1)) = t := by
    rw [hnode, hc.update_ne (by omega) (by omega) (by omega)]
    exact Function.update_self ..
  refine ⟨f, g, net', run_cons.mpr ⟨net₁, hstep, run_cons.mpr ⟨net', hstep', rfl⟩⟩, hfrom,
    hdata ▸ length_discovery_le hi.le .., hself ▸ hold ▸ hh₀, hnext ▸ hh, ?_, hwaits, hair',
    not_not.mpr hack', rfl, rfl, _, rfl⟩
  intro j hj h₁ h₂
  rw [hnode, hc.update_ne (by omega) hj h₁]
  exact hc.update_ne (by omega) hj h₂ net.node t

section Relayed

variable {f g : Frame}

theorem Relayed.member (h : Relayed k n i f g net net') (hc : Chain k n hears) (hi : i < k)
    (hlen : f.data.length ≤ routeOctet + k)
    (hm : ∀ j, j ≤ k + 1 → Member k n node j (net.node (n j))) :
    ∀ j, j ≤ k + 1 → Member k n node j (net'.node (n j)) := by
  obtain ⟨id, hdata⟩ := h.data
  have hglen : g.data.length ≤ routeOctet + k := hdata ▸ length_discovery_le hi ..
  intro j hj
  by_cases h₁ : j = i
  · rw [h₁]
    exact (hm i (by omega)).handled hc (by omega) h.dropped
      (fun _ hd => absurd hd List.not_mem_nil) hglen
      fun o ho => absurd ho (Option.not_mem_none o)
  · by_cases h₂ : j = i + 1
    · rw [h₂]
      refine (hm (i + 1) (by omega)).handled hc (by omega) h.relayed (hc.request_subset hi.le)
        hlen ?_
      intro o ho
      rw [← Option.mem_some.mp ho]
      exact hglen
    · rw [h.others j hj h₁ h₂]
      exact hm j hj

/-- The relay has the route to the originator over the node before it. -/
theorem Relayed.routes (h : Relayed k n i f g net net') (hc : Chain k n hears) (hi : i < k)
    (hm : ∀ j, j ≤ k + 1 → Member k n node j (net.node (n j))) (hfrom : f.headerFrom = n i)
    (hroutes : ∀ j, j < i → (net.node (n (j + 1))).routes.nextHop (n 0) = some (n j)) :
    ∀ j, j < i + 1 → (net'.node (n (j + 1))).routes.nextHop (n 0) = some (n j) := by
  intro j hj
  by_cases h₂ : j = i
  · rw [h₂, (hm (i + 1) (by omega)).nextHop hc (by omega) h.relayed (hc.request_subset hi.le),
      if_pos List.mem_cons_self, hfrom]
  · by_cases h₁ : j + 1 = i
    · rw [h₁, (hm i (by omega)).nextHop hc (by omega) h.dropped
        (fun _ hd => absurd hd List.not_mem_nil), if_neg List.not_mem_nil, ← h₁]
      exact hroutes j (by omega)
    · rw [h.others (j + 1) (by omega) h₁ (by omega)]
      exact hroutes j (by omega)

/-- Only the relay has sent anything. -/
theorem Relayed.lastSequenceNumber (h : Relayed k n i f g net net') :
    ∀ j, j ≤ k + 1 → j ≠ i + 1 →
      (net'.node (n j)).lastSequenceNumber = (net.node (n j)).lastSequenceNumber := by
  intro j hj h₂
  by_cases h₁ : j = i
  · rw [h₁]
    exact h.dropped.lastSequenceNumber.trans (UInt8.add_zero _)
  · rw [h.others j hj h₁ h₂]

theorem Relayed.news (h : Relayed k n i f g net net') (hc : Chain k n hears)
    (hfrom : f.headerFrom = n i) (hnews : ∀ j, j ≤ k → News n net j) :
    ∀ j, j ≤ k → News n net' j := by
  intro j hj
  by_cases h₁ : j = i
  · -- the node has just heard the last message of the next one
    rw [h₁, News, h.dropped.seenIds, h.relayed.lastSequenceNumber, h.headerFrom, h.headerId,
      Function.update_self]
    exact ne_add_one _
  · rw [News, h.lastSequenceNumber (j + 1) (by omega) (by omega)]
    by_cases h₂ : j = i + 1
    · -- and the relay one of the node before it
      have hne : n (j + 1) ≠ f.headerFrom := by
        rw [hfrom]
        exact hc.ne (by omega) (by omega) (by omega)
      rw [h₂] at hne ⊢
      rw [h.relayed.seenIds, Function.update_of_ne hne]
      exact hnews (i + 1) (by omega)
    · rw [h.others j (by omega) h₁ h₂]
      exact hnews j hj

end Relayed

/-- From one relay to the next. -/
theorem Asked.next (hc : Chain k n hears) (hr : Ready k n node) (hi : i < k)
    (ha : Asked k n node i net) :
    ∃ net', run (step hears (n 0) (n (k + 1))) net (List.replicate 2 (.handle 0)) = some net' ∧
      Asked k n node (i + 1) net' := by
  obtain ⟨f, g, net', hrun, hfrom, hlen, h⟩ := ha.relayed hc hr hi
  obtain ⟨id, hdata⟩ := h.data
  refine ⟨net', hrun, h.member hc hi hlen ha.member, h.routes hc hi ha.member hfrom ha.routes,
    h.news hc hfrom ha.news, ?_, ?_, h.waits, ?_⟩
  · intro j hij hj
    rw [h.others j hj (by omega) (by omega)]
    exact ha.seen j (by omega) hj
  · intro j hij hj
    rw [h.lastSequenceNumber j hj (by omega)]
    exact ha.sequence j (by omega) hj
  · refine ⟨g, 0, id, 0, h.air, h.notAck, h.headerFrom, ?_, hdata⟩
    rw [h.headerId, ← ha.sequence (i + 1) (Nat.lt_succ_self i) (by omega)]

/-! ### The response on its way -/

/-- The response has been sent to node `i`, which is about to hear it; the nodes
behind know the way to the target. -/
structure Answered (k : ℕ) (n : ℕ → UInt8) (node : UInt8 → RHMesh) (i : ℕ) (net : MeshNet) :
    Prop where
  member : ∀ j, j ≤ k + 1 → Member k n node j (net.node (n j))
  routes : ∀ j, j ≤ k → (net.node (n (j + 1))).routes.nextHop (n 0) = some (n j)
  learned : ∀ j, i < j → j ≤ k → (net.node (n j)).routes.nextHop (n (k + 1)) = some (n (j + 1))
  news : ∀ j, j < i → News n net j
  waits : ∃ messageLen, net.arp = some messageLen ∧ 1 < messageLen
  air : ∃ f id flags, net.air = [(n i, f)] ∧ ¬ f.IsAck ∧ f.headerFrom = n (i + 1) ∧
    f.headerId ≠ (net.node (n i)).seenIds (n (i + 1)) ∧
    f.data = discovery (n 0) (n (k + 1)) (UInt8.ofNat (k - i)) id flags typeResponse (n (k + 1))
      (passed n k)

/-- What is sent to one of its neighbours is heard by that one alone. -/
theorem Chain.carried_inner (h : Chain k n hears) (hi : i < k) (hj : j = i ∨ j = i + 2) {g : Frame}
    (hto : g.headerTo = n j) : carried hears (n (i + 1)) [g] = [(n j, g)] := by
  have hne : n i ≠ n (i + 2) := h.ne (by omega) (by omega) (by omega)
  rw [carried_unicast (hto ▸ h.broadcast j (by omega)), hto, h.inner i hi]
  rcases hj with rfl | rfl
  · simp [hne]
  · simp [hne.symm]

theorem Chain.carried_back (h : Chain k n hears) (hi : i ≤ k) {g : Frame}
    (hto : g.headerTo = n i) : carried hears (n (i + 1)) [g] = [(n i, g)] := by
  rcases Nat.lt_or_eq_of_le hi with hlt | rfl
  · exact h.carried_inner hlt (.inl rfl) hto
  · rw [carried_unicast (hto ▸ h.broadcast i (by omega)), hto]
    simp [h.last]

/-- The target answers. -/
theorem Asked.answered (hc : Chain k n hears) (hr : Ready k n node) (ha : Asked k n node k net) :
    ∃ net', run (step hears (n 0) (n (k + 1))) net (List.replicate 1 (.handle 0)) = some net' ∧
      Answered k n node k net' := by
  obtain ⟨messageLen, harp, hml⟩ := ha.waits
  obtain ⟨f, hops, id, flags, hair, hack, hfrom, hid, hdata⟩ := ha.air
  have hmem := ha.member (k + 1) le_rfl
  have hthis := hmem.thisAddress
  have hflen := hdata ▸ hc.length_lt le_rfl broadcastAddress (n 0) hops id flags typeRequest
    (n (k + 1))
  have hsource : n 0 ≠ (net.node (n (k + 1))).thisAddress :=
    hmem.ne hc le_rfl (Nat.zero_le _) (Nat.succ_ne_zero k).symm
  have hlist : (net.node (n (k + 1))).thisAddress ∉ passed n k := by
    rw [hthis]
    exact hc.notMem_passed le_rfl le_rfl (.inr (Nat.lt_succ_self k))
  have hsub := hc.request_subset (le_refl k)
  -- the route to the originator leads to the last relay, which has sent the request
  have hback : (routesAfter (net.node (n (k + 1))) f (n 0 :: passed n k)).nextHop (n 0) =
      some (n k) := by
    rw [nextHop_routesAfter (hc.card_others le_rfl) hmem.known hsub, if_pos List.mem_cons_self,
      hfrom]
  have hnk : n k ∈ hears (n (k + 1)) := by
    rw [hc.last]
    exact List.mem_singleton_self _
  obtain ⟨t, flags', hh, hack', hstep⟩ := step_handle (n (k + 1)) hair (hc.not_waiting net le_rfl)
    (request_answered (ha.takes hr le_rfl hack hfrom hid)
      (by rw [hthis]; exact hdata) hflen.le hsource hlist (hc.broadcast 0 (Nat.zero_le _)) hback
      (acks_link hnk) meshMessageSize)
  rw [hthis] at hh
  rw [hthis, hmem.txHeaderFrom] at hstep
  set g : Frame := ⟨n k, n (k + 1), (net.node (n (k + 1))).lastSequenceNumber + 1, flags', _⟩
    with hg
  have hcarried : [] ++ carried hears (n (k + 1)) [g] = [(n k, g)] := hc.carried_back le_rfl rfl
  rw [Option.map_some, Option.toList_some, ← hg, hcarried] at hstep
  refine ⟨_, run_cons.mpr ⟨_, hstep, rfl⟩, ?_⟩
  -- only the target is another node than before
  have hself : Function.update net.node (n (k + 1)) t (n (k + 1)) = t := Function.update_self ..
  have hold : ∀ j, j ≤ k → Function.update net.node (n (k + 1)) t (n j) = net.node (n j) :=
    fun j hj => hc.update_ne le_rfl (by omega) (by omega) net.node t
  refine ⟨?_, ?_, ?_, ?_, ⟨messageLen, harp, hml⟩, ?_⟩
  · intro j hj
    dsimp only
    by_cases hjk : j = k + 1
    · rw [hjk, hself]
      refine hmem.handled hc le_rfl hh hsub ?_ ?_
      · rw [hdata]
        exact length_discovery_le le_rfl ..
      · intro o ho
        rw [← Option.mem_some.mp ho]
        exact length_discovery_le le_rfl ..
    · rw [hold j (by omega)]
      exact ha.member j hj
  · intro j hj
    dsimp only
    by_cases hjk : j = k
    · rw [hjk, hself, hh.routes, hback]
    · rw [hold (j + 1) (by omega)]
      exact ha.routes j (by omega)
  · exact fun j hj hjk => absurd hjk (by omega)
  · intro j hj
    rw [News]
    dsimp only
    rw [hold j hj.le, hold (j + 1) (by omega)]
    exact ha.news j hj.le
  · refine ⟨g, (net.node (n (k + 1))).lastE2ESequenceNumber, 0, rfl, not_not.mpr hack', rfl, ?_, ?_⟩
    · dsimp only
      rw [hold k le_rfl]
      exact (ha.news k le_rfl).symm
    · rw [Nat.sub_self]
      rfl

/-- The response, in the hands of a node on its way. -/
theorem takes_response {f : Frame} (hack : ¬ f.IsAck)
    (hfrom : f.headerFrom = n (i + 1))
    (hid : f.headerId ≠ (net.node (n i)).seenIds (n (i + 1))) : (net.node (n i)).Takes f := by
  refine ⟨hack, ?_⟩
  rw [← hfrom] at hid
  exact hid

/-- A relay that has not learned another way to the originator from the response
has the one over the node before it. -/
theorem Answered.back (hc : Chain k n hears) (hi : i < k) (hzero : n 0 ≠ 0 ∨ i + 1 = k)
    (ha : Answered k n node (i + 1) net) (f : Frame) :
    (routesAfter (net.node (n (i + 1))) f
      (learnedFrom (net.node (n (i + 1))) (n (k + 1)) (passed n k))).nextHop (n 0) =
        some (n i) := by
  have hmem := ha.member (i + 1) (by omega)
  -- it does not learn about the originator from the list, nor from the octet behind it
  have hnot : n 0 ∉ learnedFrom (net.node (n (i + 1))) (n (k + 1)) (passed n k) := by
    intro hd
    rcases mem_learnedFrom_inner hc hi hmem hd with ⟨j, hj, hjk, heq⟩ | ⟨heq, hle⟩
    · exact hc.ne (Nat.zero_le _) hjk (by omega) heq
    · rcases hzero with hzero | hzero
      · exact hzero heq
      · omega
  rw [nextHop_routesAfter (hc.card_others (by omega)) hmem.known
    (learnedFrom_inner_subset hc hi hmem), if_neg hnot]
  exact ha.routes i hi.le

/-- It sends the response on over this one. -/
theorem Answered.handled (hc : Chain k n hears) (hr : Ready k n node) (hi : i < k)
    (hzero : n 0 ≠ 0 ∨ i + 1 = k) (ha : Answered k n node (i + 1) net) {f : Frame}
    {id flags : UInt8} (hack : ¬ f.IsAck) (hfrom : f.headerFrom = n (i + 2))
    (hid : f.headerId ≠ (net.node (n (i + 1))).seenIds (n (i + 2)))
    (hdata : f.data = discovery (n 0) (n (k + 1)) (UInt8.ofNat (k - (i + 1))) id flags
      typeResponse (n (k + 1)) (passed n k)) :
    Handled (net.node (n (i + 1))) f
      (learnedFrom (net.node (n (i + 1))) (n (k + 1)) (passed n k))
      (some (n i, discovery (n 0) (n (k + 1)) (UInt8.ofNat (k - (i + 1)) + 1) id flags
        typeResponse (n (k + 1)) (passed n k)))
      (recvfromAck (link hears (n (i + 1))) (net.node (n (i + 1))) f meshMessageSize).2 := by
  have hmem := ha.member (i + 1) (by omega)
  have hflen := hdata ▸ hc.length_lt le_rfl (n 0) (n (k + 1)) (UInt8.ofNat (k - (i + 1))) id flags
    typeResponse (n (k + 1))
  have hdest : n 0 ≠ (net.node (n (i + 1))).thisAddress :=
    hmem.ne hc (by omega) (Nat.zero_le _) (Nat.succ_ne_zero i).symm
  -- the response has come fewer hops than the chain is long
  have hhops : UInt8.ofNat (k - (i + 1)) < (net.node (n (i + 1))).maxHops := by
    have hle := hr.hops i hi
    have hlt := (node (n (i + 1))).maxHops.toNat_lt
    rw [hmem.maxHops, UInt8.lt_iff_toNat_lt,
      UInt8.toNat_ofNat_of_lt' (show k - (i + 1) < 256 by omega)]
    omega
  have hni : n i ∈ hears (n (i + 1)) := by
    rw [hc.inner i hi]
    exact List.mem_cons_self
  exact response_forwarded (takes_response hack hfrom hid) hdata hflen.le hdest
    (hc.broadcast 0 (Nat.zero_le _)) hhops (ha.back hc hi hzero f) (acks_link hni) meshMessageSize

/-- A relay passes the response back. -/
theorem Answered.pass (hc : Chain k n hears) (hr : Ready k n node) (hi : i < k)
    (hzero : n 0 ≠ 0 ∨ i + 1 = k) (ha : Answered k n node (i + 1) net) :
    ∃ net', run (step hears (n 0) (n (k + 1))) net (List.replicate 1 (.handle 0)) = some net' ∧
      Answered k n node i net' := by
  obtain ⟨messageLen, harp, hml⟩ := ha.waits
  obtain ⟨f, id, flags, hair, hack, hfrom, hid, hdata⟩ := ha.air
  have hmem := ha.member (i + 1) (by omega)
  have hsub := learnedFrom_inner_subset hc hi hmem
  have hback := ha.back hc hi hzero f
  obtain ⟨t, flags', hh, hack', hstep⟩ := step_handle (n (k + 1)) hair (hc.not_waiting net hi.le)
    (ha.handled hc hr hi hzero hack hfrom hid hdata)
  rw [hmem.txHeaderFrom] at hstep
  set g : Frame := ⟨n i, n (i + 1), (net.node (n (i + 1))).lastSequenceNumber + 1, flags', _⟩
    with hg
  have hcarried : [] ++ carried hears (n (i + 1)) [g] = [(n i, g)] := hc.carried_back hi.le rfl
  rw [Option.map_some, Option.toList_some, ← hg, hcarried] at hstep
  refine ⟨_, run_cons.mpr ⟨_, hstep, rfl⟩, ?_⟩
  -- only this relay is another node than before
  have hself : Function.update net.node (n (i + 1)) t (n (i + 1)) = t := Function.update_self ..
  have hold : ∀ j, j ≤ k + 1 → j ≠ i + 1 →
      Function.update net.node (n (i + 1)) t (n j) = net.node (n j) :=
    fun j hj hij => hc.update_ne (by omega) hj hij net.node t
  refine ⟨?_, ?_, ?_, ?_, ⟨messageLen, harp, hml⟩, ?_⟩
  · intro j hj
    dsimp only
    by_cases hji : j = i + 1
    · rw [hji, hself]
      refine hmem.handled hc (by omega) hh hsub ?_ ?_
      · rw [hdata]
        exact length_discovery_le le_rfl ..
      · intro o ho
        rw [← Option.mem_some.mp ho]
        exact length_discovery_le le_rfl ..
    · rw [hold j hj hji]
      exact ha.member j hj
  · intro j hj
    dsimp only
    by_cases hji : j = i
    · rw [hji, hself, hh.routes, hback]
    · rw [hold (j + 1) (by omega) (by omega)]
      exact ha.routes j hj
  · intro j hij hj
    dsimp only
    by_cases hji : j = i + 1
    · rw [hji, hself, hmem.nextHop hc (by omega) hh hsub, if_pos (target_mem_learnedFrom ..), hfrom]
    · rw [hold j (by omega) hji]
      exact ha.learned j (by omega) hj
  · intro j hj
    rw [News]
    dsimp only
    rw [hold j (by omega) (by omega), hold (j + 1) (by omega) (by omega)]
    exact ha.news j (by omega)
  · refine ⟨g, id, flags, rfl, not_not.mpr hack', rfl, ?_, ?_⟩
    · dsimp only
      rw [hold i (by omega) (by omega)]
      exact (ha.news i (Nat.lt_succ_self i)).symm
    · have hsucc : UInt8.ofNat (k - (i + 1)) + 1 = UInt8.ofNat (k - i) := by
        rw [show k - i = k - (i + 1) + 1 by omega]
        exact (UInt8.ofNat_add _ 1).symm
      rw [hg, hsucc]

/-- The response has come to the originator, and all nodes know both ways. -/
structure Resolved (k : ℕ) (n : ℕ → UInt8) (net : MeshNet) : Prop where
  resolved : net.resolved = true
  air : net.air = []
  routes : ∀ j, j ≤ k → (net.node (n (j + 1))).routes.nextHop (n 0) = some (n j)
  learned : ∀ j, j ≤ k → (net.node (n j)).routes.nextHop (n (k + 1)) = some (n (j + 1))

theorem Answered.resolved (hc : Chain k n hears) (ha : Answered k n node 0 net) :
    ∃ net', run (step hears (n 0) (n (k + 1))) net (List.replicate 1 (.handle 0)) = some net' ∧
      Resolved k n net' := by
  obtain ⟨messageLen, harp, hml⟩ := ha.waits
  obtain ⟨f, id, flags, hair, hack, hfrom, hid, hdata⟩ := ha.air
  have hmem := ha.member 0 (Nat.zero_le _)
  have hthis := hmem.thisAddress
  have hflen := hdata ▸ hc.length_lt le_rfl (n 0) (n (k + 1)) (UInt8.ofNat (k - 0)) id flags
    typeResponse (n (k + 1))
  obtain ⟨m, t, hm, heq, hh⟩ := arp_response (link hears (n 0)) (takes_response hack hfrom hid)
    (by rw [hthis]; exact hdata) hflen.le (n (k + 1)) hml
  rw [learnedFrom_first hc hthis] at hh
  have hstep := step_waiting hair harp heq hh
  have hsub : ∀ d ∈ [n (k + 1)] ++ [n (k + 1)], d ∈ others k n 0 := by
    intro d hd
    have hd : d = n (k + 1) := by simpa using hd
    rw [hd]
    exact hc.mem_others (Nat.zero_le _) le_rfl (Nat.succ_ne_zero k)
  have hold : ∀ j, j ≤ k → Function.update net.node (n 0) t (n (j + 1)) = net.node (n (j + 1)) :=
    fun j hj => hc.update_ne (Nat.zero_le _) (by omega) (Nat.succ_ne_zero j) net.node t
  refine ⟨_, run_cons.mpr ⟨_, hstep, rfl⟩, rfl, rfl, ?_, ?_⟩
  · intro j hj
    dsimp only
    rw [hold j hj]
    exact ha.routes j hj
  · intro j hj
    dsimp only
    rcases Nat.eq_zero_or_pos j with rfl | h0
    · rw [Function.update_self, hmem.nextHop hc (Nat.zero_le _) hh hsub, if_pos (by simp), hfrom]
    · obtain ⟨j, rfl⟩ := Nat.exists_eq_succ_of_ne_zero h0.ne'
      rw [hold j (by omega)]
      exact ha.learned (j + 1) h0 hj

/-! ### Whole runs -/

/-- The frames are handled one after another, until `net'` is reached. -/
def Reaches (hears : UInt8 → List UInt8) (source target : UInt8) (net net' : MeshNet) : Prop :=
  ∃ m, run (step hears source target) net (List.replicate m (.handle 0)) = some net'

theorem Reaches.trans {source target : UInt8} {net₁ net₂ net₃ : MeshNet}
    (h₁ : Reaches hears source target net₁ net₂) (h₂ : Reaches hears source target net₂ net₃) :
    Reaches hears source target net₁ net₃ := by
  obtain ⟨m₁, h₁⟩ := h₁
  obtain ⟨m₂, h₂⟩ := h₂
  refine ⟨m₁ + m₂, ?_⟩
  rw [List.replicate_add]
  exact run_append.mpr ⟨net₂, h₁, h₂⟩

theorem reaches_asked (hc : Chain k n hears) (hr : Ready k n node) (hi : i ≤ k) :
    ∃ net, Reaches hears (n 0) (n (k + 1)) (start hears (n 0) (n (k + 1)) node) net ∧
      Asked k n node i net := by
  induction i with
  | zero => exact ⟨_, ⟨0, rfl⟩, start_asked hc hr⟩
  | succ i ih =>
    obtain ⟨net, hreach, ha⟩ := ih (by omega)
    obtain ⟨net', hrun, ha'⟩ := ha.next hc hr hi
    exact ⟨net', hreach.trans ⟨2, hrun⟩, ha'⟩

theorem reaches_answered (hc : Chain k n hears) (hr : Ready k n node) (hi : i ≤ k)
    (hzero : n 0 ≠ 0 ∨ k ≤ i + 1) :
    ∃ net, Reaches hears (n 0) (n (k + 1)) (start hears (n 0) (n (k + 1)) node) net ∧
      Answered k n node i net := by
  obtain ⟨d, rfl⟩ := Nat.exists_eq_add_of_le hi
  clear hi
  induction d generalizing i with
  | zero =>
    obtain ⟨net, hreach, ha⟩ := reaches_asked hc hr le_rfl
    obtain ⟨net', hrun, ha'⟩ := ha.answered hc hr
    exact ⟨net', hreach.trans ⟨1, hrun⟩, ha'⟩
  | succ d ih =>
    rw [show i + (d + 1) = i + 1 + d by omega] at hc hr hzero ⊢
    obtain ⟨net, hreach, ha⟩ := ih hc hr (hzero.imp_right fun h => by omega)
    obtain ⟨net', hrun, ha'⟩ := ha.pass hc hr (by omega) (hzero.imp_right fun h => by omega)
    exact ⟨net', hreach.trans ⟨1, hrun⟩, ha'⟩

/-! ### An originator with address 0 -/

/-- The response at node `i + 1`, which passes it to node `j` or drops it. -/
theorem bounce (hc : Chain k n hears) (hi : i < k) (hj : j = i ∨ j = i + 2)
    (hm : Member k n node (i + 1) (net.node (n (i + 1)))) {f : Frame} {hops id flags : UInt8}
    (hair : net.air = [(n (i + 1), f)])
    (hdata : f.data =
      discovery (n 0) (n (k + 1)) hops id flags typeResponse (n (k + 1)) (passed n k))
    (hback : (routesAfter (net.node (n (i + 1))) f
      (learnedFrom (net.node (n (i + 1))) (n (k + 1)) (passed n k))).nextHop (n 0) = some (n j))
    (hstep : step hears (n 0) (n (k + 1)) net (.handle 0) = some net') :
    net'.resolved = net.resolved ∧ (net'.air = [] ∨ ∃ t g hops,
      net'.node = Function.update net.node (n (i + 1)) t ∧ Member k n node (i + 1) t ∧
      t.routes.nextHop (n 0) = some (n j) ∧ net'.air = [(n j, g)] ∧ g.headerFrom = n (i + 1) ∧
      g.data =
        discovery (n 0) (n (k + 1)) hops id flags typeResponse (n (k + 1)) (passed n k)) := by
  have hflen :=
    hdata ▸ hc.length_lt le_rfl (n 0) (n (k + 1)) hops id flags typeResponse (n (k + 1))
  have hdest : n 0 ≠ (net.node (n (i + 1))).thisAddress :=
    hm.ne hc (by omega) (Nat.zero_le _) (Nat.succ_ne_zero i).symm
  have hsub := learnedFrom_inner_subset hc hi hm
  by_cases htakes : (net.node (n (i + 1))).Takes f
  · by_cases hhops : hops < (net.node (n (i + 1))).maxHops
    · -- it goes to the next hop that the node has by now
      have hadj : n j ∈ hears (n (i + 1)) := by
        rw [hc.inner i hi]
        rcases hj with rfl | rfl
        · exact List.mem_cons_self
        · exact List.mem_cons_of_mem _ List.mem_cons_self
      obtain ⟨t, flags', hh, -, heq⟩ := step_handle (n (k + 1)) hair (hc.not_waiting net hi.le)
        (response_forwarded htakes hdata hflen.le hdest
          (hc.broadcast 0 (Nat.zero_le _)) hhops hback (acks_link hadj) meshMessageSize)
      rw [hstep, Option.some_inj] at heq
      subst heq
      refine ⟨rfl, .inr ⟨t, _, hops + 1, rfl, ?_, ?_, hc.carried_inner hi hj rfl, ?_, rfl⟩⟩
      · refine hm.handled hc (by omega) hh hsub ?_ ?_
        · rw [hdata]
          exact length_discovery_le le_rfl ..
        · intro o ho
          rw [← Option.mem_some.mp ho]
          exact length_discovery_le le_rfl ..
      · rw [hh.routes, hback]
      · exact hm.txHeaderFrom
    · -- it has come too many hops
      obtain ⟨t, flags', hh, -, heq⟩ := step_handle (n (k + 1)) hair (hc.not_waiting net hi.le)
        (response_exhausted (link hears (n (i + 1))) htakes hdata hflen.le hdest
          (hc.broadcast 0 (Nat.zero_le _)) hhops meshMessageSize)
      rw [hstep, Option.some_inj] at heq
      subst heq
      exact ⟨rfl, .inl rfl⟩
  · -- the node has seen it before
    have hw : waiting (n 0) { net with air := net.air.eraseIdx 0 } (n (i + 1)) = none :=
      hc.not_waiting net hi.le
    rw [step, hair, List.getElem?_cons_zero, Option.map_some, ← hair, handle_recvfromAck hw,
      Option.some_inj] at hstep
    subst hstep
    refine ⟨rfl, .inl ?_⟩
    have hsent : (recvfromAck (link hears (n (i + 1))) (net.node (n (i + 1))) f
        meshMessageSize).2.sent = (net.node (n (i + 1))).sent := by
      rw [RHMesh.recvfromAck_of_not_takes htakes]
      rfl
    rw [become, hair]
    dsimp only
    rw [hsent, List.drop_length]
    rfl

/-- The response goes to and fro between the last two relays, `i + 1` and `i + 2`. -/
def Bouncing (k : ℕ) (n : ℕ → UInt8) (node : UInt8 → RHMesh) (i : ℕ) (net : MeshNet) : Prop :=
  net.resolved = false ∧ (net.air = [] ∨
    Member k n node (i + 1) (net.node (n (i + 1))) ∧
    Member k n node (i + 2) (net.node (n (i + 2))) ∧
    (net.node (n (i + 2))).routes.nextHop (n 0) = some (n (i + 1)) ∧
    ∃ f hops id flags, f.data =
        discovery (n 0) (n (k + 1)) hops id flags typeResponse (n (k + 1)) (passed n k) ∧
      (net.air = [(n (i + 1), f)] ∧ f.headerFrom = n (i + 2) ∨
        net.air = [(n (i + 2), f)] ∧ f.headerFrom = n (i + 1)))

theorem step_bouncing (hc : Chain (i + 2) n hears) (hzero : n 0 = 0)
    (hb : Bouncing (i + 2) n node i net)
    (hstep : step hears (n 0) (n (i + 3)) net (.handle 0) = some net') :
    Bouncing (i + 2) n node i net' := by
  obtain ⟨hres, hair | ⟨hm₁, hm₂, hroute, f, hops, id, flags, hdata, hair⟩⟩ := hb
  · rw [step, hair] at hstep
    exact absurd hstep (Option.some_ne_none _).symm
  have hlen := length_passed n (i + 2)
  rcases hair with ⟨hair, hfrom⟩ | ⟨hair, hfrom⟩
  · -- the octet behind the list is the originator's address
    have hmem : n 0 ∈ learnedFrom (net.node (n (i + 1))) (n (i + 3)) (passed n (i + 2)) := by
      rw [learnedFrom_inner hc (by omega) hm₁, List.drop_left' hlen, hzero]
      exact List.mem_cons_of_mem _ (List.mem_singleton_self 0)
    have hsub := learnedFrom_inner_subset hc (by omega) hm₁
    have hback : (routesAfter (net.node (n (i + 1))) f (learnedFrom (net.node (n (i + 1)))
        (n (i + 3)) (passed n (i + 2)))).nextHop (n 0) = some (n (i + 2)) := by
      rw [nextHop_routesAfter (hc.card_others (by omega)) hm₁.known hsub, if_pos hmem, hfrom]
    obtain ⟨hres', hnext⟩ := bounce hc (by omega) (.inr rfl) hm₁ hair hdata hback hstep
    refine ⟨hres'.trans hres, hnext.imp_right ?_⟩
    rintro ⟨t, g, hops', hnode, hmt, -, hair', hg, hgdata⟩
    have hself : net'.node (n (i + 1)) = t := by rw [hnode, Function.update_self]
    have hold : net'.node (n (i + 2)) = net.node (n (i + 2)) := by
      rw [hnode]
      exact hc.update_ne (by omega) (by omega) (by omega) net.node t
    exact ⟨hself ▸ hmt, hold ▸ hm₂, hold ▸ hroute, g, hops', id, flags, hgdata, .inr ⟨hair', hg⟩⟩
  · have hlearned : learnedFrom (net.node (n (i + 2))) (n (i + 3)) (passed n (i + 2)) =
        [n (i + 3)] := by
      rw [learnedFrom_inner hc (by omega) hm₂, List.drop_eq_nil_of_le (by simp)]
    have hsub : ∀ d ∈ [n (i + 3)], d ∈ others (i + 2) n (i + 2) := by
      intro d hd
      rw [List.mem_singleton.mp hd]
      exact hc.mem_others (by omega) (by omega) (by omega)
    have hne : n 0 ∉ [n (i + 3)] := by
      intro hmem
      exact hc.ne (Nat.zero_le _) le_rfl (by omega) (List.mem_singleton.mp hmem)
    have hback : (routesAfter (net.node (n (i + 2))) f (learnedFrom (net.node (n (i + 2)))
        (n (i + 3)) (passed n (i + 2)))).nextHop (n 0) = some (n (i + 1)) := by
      rw [hlearned, nextHop_routesAfter (hc.card_others (by omega)) hm₂.known hsub, if_neg hne]
      exact hroute
    obtain ⟨hres', hnext⟩ := bounce (i := i + 1) hc (by omega) (.inl rfl) hm₂ hair hdata hback hstep
    refine ⟨hres'.trans hres, hnext.imp_right ?_⟩
    rintro ⟨t, g, hops', hnode, hmt, hroute', hair', hg, hgdata⟩
    have hself : net'.node (n (i + 2)) = t := by rw [hnode, Function.update_self]
    have hold : net'.node (n (i + 1)) = net.node (n (i + 1)) := by
      rw [hnode]
      exact hc.update_ne (by omega) (by omega) (by omega) net.node t
    exact ⟨hold ▸ hm₁, hself ▸ hmt, hself ▸ hroute', g, hops', id, flags, hgdata, .inl ⟨hair', hg⟩⟩

theorem reaches_bouncing (hc : Chain (i + 2) n hears) (hr : Ready (i + 2) n node) :
    ∃ net, Reaches hears (n 0) (n (i + 3)) (start hears (n 0) (n (i + 3)) node) net ∧
      Bouncing (i + 2) n node i net := by
  obtain ⟨net, ⟨m, hrun⟩, ha⟩ := reaches_answered (i := i + 1) hc hr (by omega) (.inr le_rfl)
  obtain ⟨messageLen, harp, -⟩ := ha.waits
  have hwaits := run_invariant (fun _ _ _ => step_waits) (start_waits node) hrun
  obtain ⟨f, id, flags, hair, -, hfrom, -, hdata⟩ := ha.air
  refine ⟨net, ⟨m, hrun⟩, (hwaits.waiting messageLen harp).1, .inr ⟨?_, ?_, ?_, ?_⟩⟩
  · exact ha.member (i + 1) (by omega)
  · exact ha.member (i + 2) (by omega)
  · exact ha.routes (i + 1) (by omega)
  · exact ⟨f, _, id, flags, hdata, .inl ⟨hair, hfrom⟩⟩

/-! ### Chains as lists -/

/-- Each node of the chain hears the one before it and the one after it. -/
def chainHears (chain : List UInt8) (v : UInt8) : List UInt8 :=
  let i := chain.idxOf v
  if v ∈ chain then (if i = 0 then [] else chain[i - 1]?.toList) ++ chain[i + 1]?.toList else []

/-- `doArp(target)` at `source` returns true, and then all nodes of the chain know
the way to both ends. -/
def Discovers (chain : List UInt8) (source target : UInt8) (node : UInt8 → RHMesh) : Prop :=
  ∃ net, Reaches (chainHears chain) source target
      (start (chainHears chain) source target node) net ∧ net.air = [] ∧
    (RHMesh.doArp (link (chainHears chain) source) (node source) target net.heard).1 = true ∧
    ∀ i v, chain[i]? = some v →
      (v ≠ source → (net.node v).routes.nextHop source = chain[i - 1]?) ∧
      (v ≠ target → (net.node v).routes.nextHop target = chain[i + 1]?)

theorem chainHears_getElem {chain : List UInt8} (h : chain.Nodup) (hi : i < chain.length) :
    chainHears chain chain[i] =
      (if i = 0 then [] else chain[i - 1]?.toList) ++ chain[i + 1]?.toList := by
  rw [chainHears, if_pos (List.getElem_mem hi), h.idxOf_getElem]

/-- The nodes of a chain, by their place in it. -/
def place (chain : List UInt8) (i : ℕ) : UInt8 := chain.getD i 0

theorem getElem?_place {chain : List UInt8} (hi : i < chain.length) :
    chain[i]? = some (place chain i) := by
  rw [place, List.getD_eq_getElem _ _ hi, List.getElem?_eq_getElem hi]

theorem chain_place {chain : List UInt8} (hlen : chain.length = k + 2) (h : chain.Nodup)
    (hbc : broadcastAddress ∉ chain) (hsize : k + 2 ≤ routingTableSize) :
    Chain k (place chain) (chainHears chain) := by
  have hget : ∀ i (hi : i ≤ k + 1), place chain i = chain[i] :=
    fun i hi => List.getD_eq_getElem _ _ (by omega)
  have hhears : ∀ i, i ≤ k + 1 → chainHears chain (place chain i) =
      (if i = 0 then [] else chain[i - 1]?.toList) ++ chain[i + 1]?.toList := by
    intro i hi
    rw [hget i hi]
    exact chainHears_getElem h (by omega)
  refine ⟨hsize, ?_, ?_, ?_, ?_, ?_⟩
  · intro i j hi hj heq
    rw [hget i hi, hget j hj] at heq
    exact h.getElem_inj_iff.mp heq
  · intro i hi heq
    rw [hget i hi] at heq
    exact hbc (heq ▸ List.getElem_mem _)
  · rw [hhears 0 (Nat.zero_le _), if_pos rfl, List.nil_append, getElem?_place (by omega)]
    rfl
  · intro i hi
    rw [hhears (i + 1) (by omega), if_neg (Nat.succ_ne_zero i), Nat.add_sub_cancel,
      getElem?_place (by omega), getElem?_place (by omega)]
    rfl
  · rw [hhears (k + 1) le_rfl, if_neg (Nat.succ_ne_zero k), Nat.add_sub_cancel,
      getElem?_place (by omega), List.getElem?_eq_none (by omega)]
    rfl

/-- The nodes of the chain as they come up, with room for as many hops as there
are relays, and with link ids that are new to their neighbours. -/
structure Prepared (chain : List UInt8) (relays : List UInt8) (node : UInt8 → RHMesh) : Prop where
  fresh : ∀ v ∈ chain, Fresh v (node v)
  hops : ∀ v ∈ relays, relays.length ≤ (node v).maxHops.toNat
  news : ∀ v ∈ chain, ∀ w ∈ chainHears chain v,
    (node v).seenIds w ≠ (node w).lastSequenceNumber + 1

variable {source target : UInt8} {relays : List UInt8}

theorem ready_place (hnodup : (source :: relays ++ [target]).Nodup)
    (hbc : broadcastAddress ∉ source :: relays ++ [target])
    (hsize : relays.length + 2 ≤ routingTableSize)
    (h : Prepared (source :: relays ++ [target]) relays node) :
    Ready relays.length (place (source :: relays ++ [target])) node := by
  set chain := source :: relays ++ [target] with hchain
  have hlen : chain.length = relays.length + 2 := by simp [hchain]
  have hc := chain_place hlen hnodup hbc hsize
  have hmem : ∀ i, i ≤ relays.length + 1 → place chain i ∈ chain :=
    fun i hi => List.mem_of_getElem? (getElem?_place (by omega))
  refine ⟨?_, ?_, ?_, ?_⟩
  · exact fun i hi => h.fresh _ (hmem i hi)
  · intro i hi
    refine h.hops _ (List.mem_of_getElem? (i := i) ?_)
    have hget := getElem?_place (show i + 1 < chain.length by omega)
    rw [← hget, hchain, List.cons_append, List.getElem?_cons_succ, List.getElem?_append_left hi]
  · intro i hi
    refine h.news _ (hmem i (by omega)) _ ?_
    rcases Nat.eq_zero_or_pos i with rfl | h0
    · rw [hc.first]
      exact List.mem_singleton_self _
    · obtain ⟨i, rfl⟩ := Nat.exists_eq_succ_of_ne_zero h0.ne'
      rw [hc.inner i (by omega)]
      exact List.mem_cons_of_mem _ List.mem_cons_self
  · intro i hi
    refine h.news _ (hmem (i + 1) (by omega)) _ ?_
    rcases Nat.lt_or_eq_of_le hi with hlt | rfl
    · rw [hc.inner i hlt]
      exact List.mem_cons_self
    · rw [hc.last]
      exact List.mem_singleton_self _

theorem place_zero : place (source :: relays ++ [target]) 0 = source := rfl

theorem place_last : place (source :: relays ++ [target]) (relays.length + 1) = target := by
  rw [place, List.cons_append, List.getD_cons_succ, List.getD_append_right _ _ _ _ le_rfl,
    Nat.sub_self]
  rfl

/-- With another address than 0 at the originator, or with a relay at most,
the discovery succeeds. -/
theorem discovers (hnodup : (source :: relays ++ [target]).Nodup)
    (hbc : broadcastAddress ∉ source :: relays ++ [target])
    (hsize : relays.length + 2 ≤ routingTableSize)
    (h : Prepared (source :: relays ++ [target]) relays node)
    (hzero : source ≠ 0 ∨ relays.length ≤ 1) :
    Discovers (source :: relays ++ [target]) source target node := by
  set chain := source :: relays ++ [target] with hchain
  have hlen : chain.length = relays.length + 2 := by simp [hchain]
  have hc := chain_place hlen hnodup hbc hsize
  have hr := ready_place hnodup hbc hsize h
  obtain ⟨net, hreach, ha⟩ := reaches_answered hc hr (Nat.zero_le _) (hzero.imp_right fun h => h)
  obtain ⟨net', hrun, hres⟩ := ha.resolved hc
  have hreach' := hreach.trans ⟨1, hrun⟩
  rw [hchain, place_zero, place_last, ← hchain] at hreach'
  refine ⟨net', hreach', hres.air, ?_, ?_⟩
  · obtain ⟨m, hm⟩ := hreach'
    rw [doArp_heard hm, hres.resolved]
  · intro i v hv
    obtain ⟨hi, -⟩ := List.getElem?_eq_some_iff.mp hv
    rw [getElem?_place hi, Option.some_inj] at hv
    subst hv
    constructor
    · intro hne
      rcases Nat.eq_zero_or_pos i with rfl | h0
      · exact absurd rfl hne
      · obtain ⟨i, rfl⟩ := Nat.exists_eq_succ_of_ne_zero h0.ne'
        rw [Nat.succ_sub_one, getElem?_place (by omega)]
        exact hres.routes i (by omega)
    · intro hne
      have hi' : i ≠ relays.length + 1 := by
        rintro rfl
        exact hne place_last
      have hlearned := hres.learned i (by omega)
      rw [hchain, place_last, ← hchain] at hlearned
      rw [hlearned, getElem?_place (by omega)]

/-- The response never comes to an originator with address 0 over two relays or
more. -/
theorem not_discovers (hnodup : (source :: relays ++ [target]).Nodup)
    (hbc : broadcastAddress ∉ source :: relays ++ [target])
    (hsize : relays.length + 2 ≤ routingTableSize)
    (h : Prepared (source :: relays ++ [target]) relays node)
    (hzero : source = 0) (htwo : 2 ≤ relays.length) :
    ¬ Discovers (source :: relays ++ [target]) source target node := by
  obtain ⟨i, hi⟩ := Nat.exists_eq_add_of_le' htwo
  set chain := source :: relays ++ [target] with hchain
  have hlen : chain.length = i + 2 + 2 := by simp [hchain, hi]
  have hc := chain_place hlen hnodup hbc (hi ▸ hsize)
  have hr := hi ▸ ready_place hnodup hbc hsize h
  have htarget : place chain (i + 3) = target := by
    rw [show i + 3 = relays.length + 1 by omega]
    exact place_last
  obtain ⟨net₀, ⟨m, hm⟩, hb⟩ := reaches_bouncing hc hr
  rw [htarget] at hm
  rintro ⟨net, ⟨m', hm'⟩, hair, harp, -⟩
  have hend : step (chainHears chain) source target net (.handle 0) = none := by
    rw [step, hair]
    rfl
  obtain ⟨r, hrun⟩ := run_replicate_through hm hm' hend
  have hbouncing : Bouncing (i + 2) (place chain) node i net := by
    refine run_replicate_invariant ?_ hb hrun
    intro s s' hs hstep
    refine step_bouncing hc hzero hs ?_
    rw [htarget]
    exact hstep
  rw [doArp_heard hm', hbouncing.1] at harp
  exact absurd harp Bool.false_ne_true

/-- **On a chain the discovery succeeds exactly if the originator's address is not 0 or
there is at most one relay.** -/
theorem discovers_iff (hnodup : (source :: relays ++ [target]).Nodup)
    (hbc : broadcastAddress ∉ source :: relays ++ [target])
    (hsize : relays.length + 2 ≤ routingTableSize)
    (h : Prepared (source :: relays ++ [target]) relays node) :
    Discovers (source :: relays ++ [target]) source target node ↔
      source ≠ 0 ∨ relays.length ≤ 1 := by
  constructor
  · intro hd
    by_contra hnot
    rw [not_or, not_not, not_le] at hnot
    exact not_discovers hnodup hbc hsize h hnot.1 hnot.2 hd
  · exact discovers hnodup hbc hsize h

theorem bootNode_prepared {chain : List UInt8} {relays : List UInt8} (hle : relays.length ≤ 30) :
    Prepared chain relays bootNode where
  fresh v _ := bootNode_fresh v
  hops _ _ := hle
  news _ _ _ _ := by
    show (0 : UInt8) ≠ 0 + 1
    decide

/-- From node 1 over nodes 2 and 3 to node 4. -/
theorem one_discovers : Discovers [1, 2, 3, 4] 1 4 bootNode :=
  (@discovers_iff bootNode 1 4 [2, 3] (by decide) (by decide) (by decide)
    (bootNode_prepared (by decide))).mpr (.inl (by decide))

/-- **From node 0 over nodes 1 and 2 to node 3: the octet behind the list of the
response reads as a route to node 0, and the response never comes there.** -/
theorem zero_not_discovers : Prepared [0, 1, 2, 3] [1, 2] bootNode ∧
    ¬ Discovers [0, 1, 2, 3] 0 3 bootNode :=
  ⟨bootNode_prepared (by decide), @not_discovers bootNode 0 3 [1, 2] (by decide) (by decide)
    (by decide) (bootNode_prepared (by decide)) rfl (by decide)⟩

end MeshNet
