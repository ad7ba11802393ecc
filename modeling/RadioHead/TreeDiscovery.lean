/-
Route discovery in a tree.

There are no loops in a tree, and so it does not matter in which order frames are
handled: as long as none is lost, the discovery comes to its end after a number
of steps known beforehand, and has found its target.

* `Asking`, `Answering`, `Found` — how far the discovery has got;
* `Progress` — how many steps are left to it at most;
* `step_progress` — every step brings it nearer to its end;
* `tree_discovers` — it ends, and has found the route.
-/
import RadioHead.TreeFlood

open Run

namespace MeshNet

section Steps

open RHMesh RHRouter

variable {nodes : Finset UInt8} {hears : UInt8 → List UInt8} {source target : UInt8}
  {net net' : MeshNet} {v : UInt8} {f : Frame} {s t : RHMesh}
  (T : Rooted nodes hears source) (node : UInt8 → RHMesh) {q : List (UInt8 × Frame)}

/-! ### How far it has got -/

/-- The link id of the response as the node `i` edges above `target` sends it. -/
def answerId (target : UInt8) (i : ℕ) : UInt8 :=
  (node (T.climb target i)).lastSequenceNumber + if i = 0 then 1 else 2

/-- The request is about to come to the node `k` edges above `target`. -/
structure Asking (target : UInt8) (k : ℕ) (net : MeshNet) : Prop
    extends Wave T node target [] net where
  waits : net.arp.isSome
  token : ∃ f, (T.climb target k, f) ∈ net.air ∧ f.headerFrom = T.climb target (k + 1)
  quiet : ∀ i ≤ k, Quiet T node (T.climb target i) (net.node (T.climb target i))
  unseen : ∀ i < T.depth target,
    (net.node (T.climb target (i + 1))).seenIds (T.climb target i) ≠ answerId T node target i
  sequence : ∀ i, k < i → i < T.depth target →
    (net.node (T.climb target i)).lastSequenceNumber =
      (node (T.climb target i)).lastSequenceNumber + 1
  back : ∀ i, k < i → i < T.depth target →
    (net.node (T.climb target i)).routes.nextHop source = some (T.climb target (i + 1))

/-- The response `f` has been sent by the node `k` edges above `target`. -/
structure Answering (target : UInt8) (k : ℕ) (f : Frame) (net : MeshNet) : Prop
    extends Wave T node target [(T.climb target (k + 1), f)] net where
  waits : net.arp.isSome
  isAck : ¬ f.IsAck
  headerFrom : f.headerFrom = T.climb target k
  headerId : f.headerId = answerId T node target k
  octets : ∃ hops id flags, hops.toNat = k ∧
    f.data = discovery source target hops id flags typeResponse target (T.way (T.up target))
  unseen : ∀ i, k ≤ i → i < T.depth target →
    (net.node (T.climb target (i + 1))).seenIds (T.climb target i) ≠ answerId T node target i
  spoken : ∀ i ≤ k, Spoken node (T.climb target i) (net.node (T.climb target i))
  sequence : ∀ i, k < i → i < T.depth target →
    (net.node (T.climb target i)).lastSequenceNumber =
      (node (T.climb target i)).lastSequenceNumber + 1
  back : ∀ i, i < T.depth target →
    (net.node (T.climb target i)).routes.nextHop source = some (T.climb target (i + 1))
  forth : ∀ i, i < k →
    (net.node (T.climb target (i + 1))).routes.nextHop target = some (T.climb target i)

/-- The node `k + 1` edges above `target` has handled the response `f`, and has
sent it on as `g`. -/
structure PassesBack (target : UInt8) (k : ℕ) (f g : Frame) (net net' : MeshNet) (t : RHMesh) :
    Prop where
  handled : Handled (net.node (T.climb target (k + 1))) f
    (learnedFrom (net.node (T.climb target (k + 1))) target (T.way (T.up target)))
    (some (T.climb target (k + 2), g.data)) t
  becomes : Becomes hears net (T.climb target (k + 1)) t net'
  arp : net'.arp = net.arp
  sent : t.sent = (net.node (T.climb target (k + 1))).sent ++ [g]
  sequence : t.lastSequenceNumber = (node (T.climb target (k + 1))).lastSequenceNumber + 2
  headerTo : g.headerTo = T.climb target (k + 2)
  headerFrom : g.headerFrom = T.climb target (k + 1)
  headerId : g.headerId = (node (T.climb target (k + 1))).lastSequenceNumber + 2
  isAck : ¬ g.IsAck
  octets : ∃ hops id flags, hops.toNat = k + 1 ∧
    g.data = discovery source target hops id flags typeResponse target (T.way (T.up target))

/-- The response has come to `source`, and the nodes between have their routes. -/
structure Found (target : UInt8) (net : MeshNet) : Prop extends Wave T node target [] net where
  arp : net.arp = none
  resolved : net.resolved = true
  spoken : ∀ i, i < T.depth target → Spoken node (T.climb target i) (net.node (T.climb target i))
  back : ∀ i, i < T.depth target →
    (net.node (T.climb target i)).routes.nextHop source = some (T.climb target (i + 1))
  forth : ∀ i, i < T.depth target →
    (net.node (T.climb target (i + 1))).routes.nextHop target = some (T.climb target i)

/-- The discovery will be over after `m` more steps at most. -/
def Progress (target : UInt8) (m : ℕ) (net : MeshNet) : Prop :=
  (∃ k < T.depth target, Asking T node target k net ∧
      net.air.length + pending T node net.node + T.depth target ≤ m) ∨
    (∃ k < T.depth target, ∃ f, Answering T node target k f net ∧
      net.air.length + pending T node net.node + (T.depth target - 1 - k) ≤ m) ∨
    Found T node target net ∧ net.air.length + pending T node net.node ≤ m

variable {T node} {k : ℕ}

theorem Aside.unseen (ha : Aside T node target net net') {i : ℕ} (hi : i < T.depth target)
    (h : (net.node (T.climb target (i + 1))).seenIds (T.climb target i) ≠
      answerId T node target i) :
    (net'.node (T.climb target (i + 1))).seenIds (T.climb target i) ≠
      answerId T node target i := by
  rcases ha.below i hi with heq | ⟨hne, heq⟩
  · rwa [heq]
  · rw [heq, answerId, if_neg hne]
    exact fun heq => absurd (add_left_cancel heq) (by decide)

theorem Asking.aside (h : Asking T node target k net) (hk : k < T.depth target)
    (ha : Aside T node target net net') (hw : Wave T node target [] net')
    (htoken : ∀ f, (T.climb target k, f) ∈ net.air → f.headerFrom = T.climb target (k + 1) →
      (T.climb target k, f) ∈ net'.air) : Asking T node target k net' where
  toWave := hw
  waits := ha.arp ▸ h.waits
  token := by
    obtain ⟨f, hf, hfrom⟩ := h.token
    exact ⟨f, htoken f hf hfrom, hfrom⟩
  quiet i hi := by
    have hi' : i < T.depth target := hi.trans_lt hk
    obtain ⟨hseq, hseen⟩ := h.quiet i hi
    rw [← T.climb_succ] at hseen
    refine ⟨(ha.sequence i hi').trans hseq, ?_⟩
    rw [← T.climb_succ]
    exact (ha.above i hi').trans hseen
  unseen i hi := ha.unseen hi (h.unseen i hi)
  sequence i hi hi' := (ha.sequence i hi').trans (h.sequence i hi hi')
  back i hi hi' := by
    rw [ha.routes i hi'.le]
    exact h.back i hi hi'

theorem Answering.aside (h : Answering T node target k f net) (hk : k < T.depth target)
    (ha : Aside T node target net net')
    (hw : Wave T node target [(T.climb target (k + 1), f)] net') :
    Answering T node target k f net' where
  toWave := hw
  waits := ha.arp ▸ h.waits
  isAck := h.isAck
  headerFrom := h.headerFrom
  headerId := h.headerId
  octets := h.octets
  unseen i hki hi := ha.unseen hi (h.unseen i hki hi)
  spoken i hi := by
    rw [Spoken, ha.sequence i (hi.trans_lt hk)]
    exact h.spoken i hi
  sequence i hi hi' := (ha.sequence i hi').trans (h.sequence i hi hi')
  back i hi := by
    rw [ha.routes i hi.le]
    exact h.back i hi
  forth i hi := by
    rw [ha.routes (i + 1) (by omega)]
    exact h.forth i hi

theorem Found.aside (h : Found T node target net) (ha : Aside T node target net net')
    (hw : Wave T node target [] net') : Found T node target net' where
  toWave := hw
  arp := by
    have harp := ha.arp
    rw [h.arp] at harp
    exact Option.isNone_iff_eq_none.mp (Option.isSome_eq_false_iff.mp harp)
  resolved := (ha.resolved h.arp).trans h.resolved
  spoken i hi := by
    rw [Spoken, ha.sequence i hi]
    exact h.spoken i hi
  back i hi := by
    rw [ha.routes i hi.le]
    exact h.back i hi
  forth i hi := by
    rw [ha.routes (i + 1) hi]
    exact h.forth i hi

/-! ### The steps -/

/-- The node above the one that has sent the response handles it. -/
theorem Answering.takes (h : Answering T node target k f net) (hk : k < T.depth target) :
    (net.node (T.climb target (k + 1))).Takes f := by
  refine ⟨h.isAck, ?_⟩
  show f.headerId ≠ (net.node _).seenIds f.headerFrom
  rw [h.headerFrom, h.headerId]
  exact (h.unseen k le_rfl hk).symm

/-- From the response a node takes no route to `source`. -/
theorem source_notMem_learnedFrom (h : Wave T node target q net)
    (hlay : Layout nodes hears source target) (v : UInt8) :
    source ∉ learnedFrom (net.node v) target (T.way (T.up target)) := by
  intro hmem
  rcases List.mem_cons.mp hmem with heq | hmem
  · exact hlay.ne heq
  rcases List.mem_append.mp (List.mem_of_mem_drop hmem) with hmem | hmem
  · exact T.root_notMem_way (T.up_mem _ hlay.target_mem hlay.ne.symm) hmem
  · exact h.buffer v _ (Nat.le_add_right _ _) (List.mem_singleton.mp hmem).symm

theorem learnedFrom_way_subset (h : Wave T node target q net)
    (hlay : Layout nodes hears source target) (v : UInt8) :
    ∀ d ∈ learnedFrom (net.node v) target (T.way (T.up target)), d ∈ insert 0 nodes := by
  intro d hd
  rcases List.mem_cons.mp hd with rfl | hd
  · exact Finset.mem_insert_of_mem hlay.target_mem
  rcases List.mem_append.mp (List.mem_of_mem_drop hd) with hd | hd
  · exact Finset.mem_insert_of_mem
      (T.mem_way _ (T.up_mem _ hlay.target_mem hlay.ne.symm) d hd).1
  · rw [List.mem_singleton.mp hd]
    exact h.inv.buffer v _ (Nat.le_add_right _ _)

/-- The routes of a node that has learned from the response. -/
theorem nextHop_learnedFrom (h : Wave T node target q net)
    (hlay : Layout nodes hears source target) (v : UInt8) (f : Frame) (d : UInt8) :
    (routesAfter (net.node v) f
        (learnedFrom (net.node v) target (T.way (T.up target)))).nextHop d =
      if d ∈ learnedFrom (net.node v) target (T.way (T.up target)) then some f.headerFrom
      else (net.node v).routes.nextHop d :=
  nextHop_routesAfter hlay.card_insert (h.inv.known v) (learnedFrom_way_subset h hlay v) d

/-- The response is a short one. -/
theorem Answering.length_le (h : Answering T node target k f net)
    (hlay : Layout nodes hears source target) : f.data.length ≤ maxMessageLen := by
  obtain ⟨hops, id, flags, -, hdata⟩ := h.octets
  obtain ⟨rest, hperm, -⟩ := h.air
  have hmem : (T.climb target (k + 1), f) ∈ net.air := hperm.symm.subset List.mem_cons_self
  obtain ⟨l, hm⟩ := (h.inv.air _ hmem).message
  have hlen := hm.length_lt hlay
  have hl := hm.drop
  dsimp only at hl
  rw [hdata] at hl
  rw [hdata, length_discovery, show T.way (T.up target) = l from hl]
  exact hlen.le

/-- What a node between `target` and `source` does with the response. -/
theorem Answering.handled (h : Answering T node target k f net)
    (hlay : Layout nodes hears source target) (hr : TreeReady T node target)
    (hk : k + 1 < T.depth target) {v : UInt8} (hv : v = T.climb target (k + 1)) :
    ∃ hops id flags, hops.toNat = k + 1 ∧
      Handled (net.node v) f (learnedFrom (net.node v) target (T.way (T.up target)))
        (some (T.climb target (k + 2),
          discovery source target hops id flags typeResponse target (T.way (T.up target))))
        (RHMesh.recvfromAck (link hears v) (net.node v) f meshMessageSize).2 := by
  subst hv
  have htarget := hlay.target_mem
  obtain ⟨hops, id, flags, hhops, hdata⟩ := h.octets
  have hlt : hops.toNat < (net.node (T.climb target (k + 1))).maxHops.toNat := by
    have hle := hr.hops _ (T.climb_mem htarget hk.le).1
    rw [h.maxHops]
    omega
  have hsource : source ≠ (net.node (T.climb target (k + 1))).thisAddress := by
    rw [h.inv.thisAddress]
    exact (T.climb_ne_root htarget hk).symm
  have hnext := nextHop_learnedFrom h.toWave hlay (T.climb target (k + 1)) f source
  rw [if_neg (source_notMem_learnedFrom h.toWave hlay _), h.back (k + 1) hk] at hnext
  refine ⟨hops + 1, id, flags, ?_, ?_⟩
  · have hm := (net.node (T.climb target (k + 1))).maxHops.toNat_lt
    rw [UInt8.toNat_add, hhops, show (1 : UInt8).toNat = 1 from rfl]
    omega
  · exact response_forwarded (h.takes (by omega)) hdata (h.length_le hlay) hsource hlay.source_ne
      (UInt8.lt_iff_toNat_lt.mpr hlt) hnext (acks_link (T.climb_near htarget hk).1) meshMessageSize

variable {g : Frame}

theorem Answering.passesBack (h : Answering T node target k f net)
    (hlay : Layout nodes hears source target) (hr : TreeReady T node target)
    (hk : k + 1 < T.depth target) (air : List (UInt8 × Frame)) :
    ∃ g t, PassesBack T node target k f g { net with air := air }
      (handle hears source target { net with air := air } (T.climb target (k + 1)) f) t := by
  have hne : T.climb target (k + 1) ≠ source := T.climb_ne_root hlay.target_mem hk
  obtain ⟨hops, id, flags, hhops, hh⟩ := h.handled hlay hr hk rfl
  -- it has sent the request before
  have hseq := h.sequence (k + 1) (Nat.lt_succ_self k) hk
  obtain ⟨flags₁, hack, hsent⟩ := hh.sent
  rw [Option.map_some, Option.toList_some, h.inv.txHeaderFrom, hseq, UInt8.add_assoc] at hsent
  have hw : waiting source { net with air := air } (T.climb target (k + 1)) = none := if_neg hne
  rw [handle_recvfromAck hw]
  refine ⟨_, _, hh, ⟨rfl, rfl⟩, rfl, hsent, ?_, rfl, rfl, rfl, not_not.mpr hack, hops, id, flags,
    hhops, rfl⟩
  rw [hh.lastSequenceNumber, hseq]
  exact UInt8.add_assoc _ _ _

section PassesBack

variable {net₀ : MeshNet}

/-- The node above is the one that hears it. -/
theorem PassesBack.carried (h : PassesBack T node target k f g net net' t)
    (hlay : Layout nodes hears source target) (hk : k + 1 < T.depth target) :
    carried hears (T.climb target (k + 1)) [g] = [(T.climb target (k + 2), g)] :=
  carried_to (T.nodup _) (T.climb_near hlay.target_mem hk).1 h.headerTo
    (ne_of_mem_of_not_mem (T.climb_mem hlay.target_mem (by omega)).1 hlay.broadcast)

theorem PassesBack.spoken (h : PassesBack T node target k f g net net' t) :
    Spoken node (T.climb target (k + 1)) t := .inr h.sequence

/-- The response is the one frame on the air that is no request. -/
theorem PassesBack.wave (h : PassesBack T node target k f g net net' t)
    (ha : Answering T node target k f net₀) (hnode : net.node = net₀.node)
    (hlay : Layout nodes hears source target) (hk : k + 1 < T.depth target)
    (hw : Wave T node target [] net) (hinv : Inv nodes hears source target net') :
    Wave T node target [(T.climb target (k + 2), g)] net' := by
  obtain ⟨hops, id, flags, -, hdata⟩ := ha.octets
  obtain ⟨hops', id', flags', -, hdata'⟩ := h.octets
  have hway := T.root_notMem_way (T.up_mem _ hlay.target_mem hlay.ne.symm)
  refine hw.become h.becomes hinv h.handled.maxHops ?_ ?_ (fun _ => h.spoken) h.sent _ []
    ((h.carried hlay hk).trans (List.append_nil _).symm) (fun _ hp => absurd hp List.not_mem_nil)
  · intro i hi
    refine tmpMessage_ne h.handled ?_ (hw.buffer _) ?_ hi
    · rw [hdata]
      exact hway
    · intro o ho
      rw [← Option.mem_some.mp ho, hdata']
      exact hway
  · -- it has heard the request, or it would not have sent it on
    intro hmem hne
    have hseq := ha.sequence (k + 1) (Nat.lt_succ_self k) hk
    rw [← hnode] at hseq
    have htold := (hw.status _ hmem hne).resolve_left (Spoken.not_quiet (.inl hseq))
    refine .inr ?_
    rw [Told, h.handled.seenIds, Function.update_of_ne, htold]
    rw [ha.headerFrom, ← T.climb_succ]
    exact T.climb_ne hlay.target_mem (by omega) (by omega) (by omega)

end PassesBack

/-- A node between `target` and `source` sends the response on. -/
theorem Answering.forward (h : Answering T node target k f net)
    (hlay : Layout nodes hears source target) (hr : TreeReady T node target)
    (hk : k + 1 < T.depth target) {air : List (UInt8 × Frame)}
    (h₀ : Wave T node target [] { net with air := air }) {v : UInt8}
    (hv : v = T.climb target (k + 1))
    (hinv : Inv nodes hears source target
      (handle hears source target { net with air := air } v f)) :
    ∃ g, Answering T node target (k + 1) g
        (handle hears source target { net with air := air } v f) ∧
      (handle hears source target { net with air := air } v f).air.length = air.length + 1 ∧
      pending T node (handle hears source target { net with air := air } v f).node ≤
        pending T node net.node := by
  subst hv
  obtain ⟨g, t, hf⟩ := h.passesBack hlay hr hk air
  set v := T.climb target (k + 1) with hv
  set net' := handle hears source target { net with air := air } v f
  clear_value net'
  have hb := hf.becomes
  have hother : ∀ i ≤ T.depth target, i ≠ k + 1 → T.climb target i ≠ v :=
    fun i hi hik => T.climb_ne hlay.target_mem hi hk.le hik
  -- the node has learned the route to the target, and kept the one to `source`
  have hroutes : ∀ d, t.routes.nextHop d =
      if d ∈ learnedFrom (net.node v) target (T.way (T.up target)) then some f.headerFrom
      else (net.node v).routes.nextHop d := by
    intro d
    rw [hf.handled.routes]
    exact nextHop_learnedFrom h.toWave hlay v f d
  refine ⟨g, ⟨hf.wave h rfl hlay hk h₀ hinv, ?_, hf.isAck, hf.headerFrom, ?_, hf.octets, ?_, ?_, ?_,
    ?_, ?_⟩, ?_, ?_⟩
  · rw [hf.arp]
    exact h.waits
  · rw [answerId, if_neg (Nat.succ_ne_zero k)]
    exact hf.headerId
  · intro i hki hi
    rw [hb.other (hother (i + 1) hi (by omega))]
    exact h.unseen i (by omega) hi
  · intro i hi
    by_cases hik : i = k + 1
    · rw [hik, ← hv, hb.self]
      exact hf.spoken
    · rw [hb.other (hother i (by omega) hik)]
      exact h.spoken i (by omega)
  · intro i hki hi
    rw [hb.other (hother i hi.le (by omega))]
    exact h.sequence i (by omega) hi
  · intro i hi
    by_cases hik : i = k + 1
    · rw [hik, ← hv, hb.self, hroutes, if_neg (source_notMem_learnedFrom h.toWave hlay v),
        h.back (k + 1) hk]
    · rw [hb.other (hother i hi.le hik)]
      exact h.back i hi
  · intro i hi
    by_cases hik : i = k
    · rw [hik, ← hv, hb.self, hroutes, if_pos (target_mem_learnedFrom _ _ _), h.headerFrom]
    · rw [hb.other (hother (i + 1) (by omega) (by omega))]
      exact h.forth i (by omega)
  · rw [hb.air_eq hf.sent, hf.carried hlay hk, List.length_append]
    rfl
  · rw [hb.node]
    exact pending_update_le fun _ hquiet => absurd hquiet hf.spoken.not_quiet

/-- At `source` the wait loop of `doArp` takes the response, and returns. -/
theorem Answering.resolves (h : Answering T node target k f net)
    (hlay : Layout nodes hears source target) (hk : k + 1 = T.depth target)
    (air : List (UInt8 × Frame)) :
    let net' := handle hears source target { net with air := air } source f
    ∃ t, Handled (net.node source) f
        (learnedFrom (net.node source) target (T.way (T.up target)) ++ [target]) none t ∧
      Becomes hears { net with air := air } source t net' ∧
      net'.arp = none ∧ net'.resolved = true := by
  have hv : T.climb target (k + 1) = source := by
    rw [hk]
    exact T.climb_depth hlay.target_mem
  obtain ⟨messageLen, harp⟩ := Option.isSome_iff_exists.mp h.waits
  obtain ⟨hops, id, flags, -, hdata⟩ := h.octets
  have htakes : (net.node source).Takes f := hv ▸ h.takes (by omega)
  have hdata' : f.data = discovery (net.node source).thisAddress target hops id flags typeResponse
      target (T.way (T.up target)) := by rw [h.inv.thisAddress, hdata]
  obtain ⟨n, t, -, heq, hh⟩ := arp_response (link hears source) htakes hdata' (h.length_le hlay)
    target (h.inv.arp messageLen harp)
  have hw : waiting source { net with air := air } source = some messageLen :=
    (if_pos rfl).trans harp
  dsimp only
  rw [handle_waiting hw, heq]
  exact ⟨t, hh, ⟨rfl, rfl⟩, rfl, rfl⟩

/-- The response comes to `source`, where `doArp` waits for it. -/
theorem Answering.found (h : Answering T node target k f net)
    (hlay : Layout nodes hears source target) (hk : k + 1 = T.depth target)
    {air : List (UInt8 × Frame)} (h₀ : Wave T node target [] { net with air := air })
    (hinv : Inv nodes hears source target
      (handle hears source target { net with air := air } source f)) :
    Found T node target (handle hears source target { net with air := air } source f) ∧
      (handle hears source target { net with air := air } source f).air.length = air.length ∧
      pending T node (handle hears source target { net with air := air } source f).node ≤
        pending T node net.node := by
  have htarget := hlay.target_mem
  have hv : T.climb target (k + 1) = source := by
    rw [hk]
    exact T.climb_depth htarget
  obtain ⟨hops, id, flags, -, hdata⟩ := h.octets
  obtain ⟨t, hh, hb, harp, hresolved⟩ := h.resolves hlay hk air
  set net' := handle hears source target { net with air := air } source f
  clear_value net'
  obtain ⟨flags', -, hsent⟩ := hh.sent
  -- the nodes below are as they were
  have hother : ∀ i < T.depth target, T.climb target i ≠ source :=
    fun i hi => T.climb_ne_root htarget hi
  have hlearned : ∀ d ∈ learnedFrom (net.node source) target (T.way (T.up target)) ++ [target],
      d ∈ insert 0 nodes := by
    intro d hd
    rcases List.mem_append.mp hd with hd | hd
    · exact learnedFrom_way_subset h.toWave hlay source d hd
    · rw [List.mem_singleton.mp hd]
      exact Finset.mem_insert_of_mem htarget
  have hsame : t.lastSequenceNumber = (net.node source).lastSequenceNumber :=
    hh.lastSequenceNumber.trans (UInt8.add_zero _)
  refine ⟨⟨?_, harp, hresolved, ?_, ?_, ?_⟩, ?_, ?_⟩
  · refine h₀.become hb hinv hh.maxHops ?_ (fun _ hne => absurd rfl hne) ?_ hsent [] []
      rfl (fun _ hp => absurd hp List.not_mem_nil)
    · intro i hi
      have hnone : ∀ o ∈ (none : Option (UInt8 × List UInt8)), source ∉ o.2.drop routeOctet :=
        fun o ho => absurd ho (Option.not_mem_none o)
      refine tmpMessage_ne hh ?_ (h.buffer source) hnone hi
      rw [hdata]
      exact T.root_notMem_way (T.up_mem _ htarget hlay.ne.symm)
    · show Spoken node source (net.node source) → Spoken node source t
      rw [Spoken, Spoken, hsame]
      exact fun hspoken => hspoken
  · intro i hi
    rw [hb.other (hother i hi)]
    exact h.spoken i (by omega)
  · intro i hi
    rw [hb.other (hother i hi)]
    exact h.back i hi
  · intro i hi
    by_cases hik : i = k
    · -- `source` itself has the route from the response
      rw [hik, hv, hb.self, hh.routes, nextHop_routesAfter hlay.card_insert (h.inv.known source)
        hlearned, if_pos (List.mem_append_left _ (target_mem_learnedFrom _ _ _)), h.headerFrom]
    · rw [hb.other (hother (i + 1) (by omega))]
      exact h.forth i (by omega)
  · exact congrArg List.length ((hb.air_eq hsent).trans (List.append_nil air))
  · rw [hb.node]
    exact pending_update_le fun hne => absurd rfl hne

/-- The node that the request is about to come to is the target. -/
theorem Asking.answer (h : Asking T node target 0 net) (hlay : Layout nodes hears source target)
    {air : List (UInt8 × Frame)} (hl : Learns T node { net with air := air } target t net')
    {g : Frame}
    (hw : Wave T node target [(T.up target, g)] net')
    (hseq : t.lastSequenceNumber = (node target).lastSequenceNumber + 1) (hack : ¬ g.IsAck)
    (hfrom : g.headerFrom = target) (hid : g.headerId = (node target).lastSequenceNumber + 1)
    (hdata : ∃ id flags, g.data =
      discovery source target 0 id flags typeResponse target (T.way (T.up target))) :
    Answering T node target 0 g net' := by
  have hother : ∀ i ≤ T.depth target, i ≠ 0 → T.climb target i ≠ target :=
    fun i hi hne => T.climb_ne hlay.target_mem hi (Nat.zero_le _) hne
  obtain ⟨id, flags, hdata⟩ := hdata
  refine ⟨hw, hl.waits.arp ▸ h.waits, hack, hfrom, hid, ⟨0, id, flags, rfl, hdata⟩, ?_, ?_, ?_,
    ?_, ?_⟩
  · intro i _ hi
    rw [hl.becomes.other (hother (i + 1) hi (Nat.succ_ne_zero i))]
    exact h.unseen i hi
  · intro i hi
    rw [Nat.le_zero.mp hi]
    show Spoken node target (net'.node target)
    rw [hl.becomes.self]
    exact .inl hseq
  · intro i h0 hi
    rw [hl.becomes.other (hother i hi.le h0.ne')]
    exact h.sequence i h0 hi
  · intro i hi
    rcases Nat.eq_zero_or_pos i with rfl | h0
    · show (net'.node target).routes.nextHop source = some (T.up target)
      rw [hl.becomes.self]
      exact hl.nextHop
    · rw [hl.becomes.other (hother i hi.le h0.ne')]
      exact h.back i h0 hi
  · exact fun i hi => absurd hi (Nat.not_lt_zero i)

/-- It is one on the way there. -/
theorem Asking.relay (h : Asking T node target (k + 1) net)
    (hlay : Layout nodes hears source target) (hk : k + 1 < T.depth target)
    {air : List (UInt8 × Frame)} (hv : T.climb target (k + 1) = v)
    (hl : Learns T node { net with air := air } v t net') (hw : Wave T node target [] net')
    (hseq : t.lastSequenceNumber = (node v).lastSequenceNumber + 1)
    (hair : ∀ w ∈ hears v, ∃ g, (w, g) ∈ net'.air ∧ g.headerFrom = v) :
    Asking T node target k net' := by
  have htarget := hlay.target_mem
  have hother : ∀ i ≤ T.depth target, i ≠ k + 1 → T.climb target i ≠ v :=
    fun i hi hne => hv ▸ T.climb_ne htarget hi hk.le hne
  have hup : T.up v = T.climb target (k + 2) := by rw [← hv, ← T.climb_succ]
  refine ⟨hw, hl.waits.arp ▸ h.waits, ?_, ?_, ?_, ?_, ?_⟩
  · rw [hv]
    exact hair _ (hv ▸ (T.climb_near htarget (by omega)).2)
  · intro i hi
    rw [hl.becomes.other (hother i (by omega) (by omega))]
    exact h.quiet i (by omega)
  · intro i hi
    by_cases hik : i = k
    · have hunseen := h.unseen i hi
      rw [hik, hv] at hunseen
      rw [hik, hv, hl.becomes.self, hl.seenIds _ ?_]
      · exact hunseen
      · rw [hup]
        exact T.climb_ne htarget (by omega) (by omega) (by omega)
    · rw [hl.becomes.other (hother (i + 1) hi (by omega))]
      exact h.unseen i hi
  · intro i hki hi
    by_cases hik : i = k + 1
    · rw [hik, hv, hl.becomes.self]
      exact hseq
    · rw [hl.becomes.other (hother i hi.le hik)]
      exact h.sequence i (by omega) hi
  · intro i hki hi
    by_cases hik : i = k + 1
    · rw [hik, hv, hl.becomes.self, ← hup]
      exact hl.nextHop
    · rw [hl.becomes.other (hother i hi.le hik)]
      exact h.back i (by omega) hi

/-- The way ends at `source`. -/
theorem off_way (T : Rooted nodes hears source) (hlay : Layout nodes hears source target)
    (hv : v ≠ source) (h : ∀ i < T.depth target, T.climb target i ≠ v) :
    ∀ i ≤ T.depth target, T.climb target i ≠ v := by
  intro i hi
  rcases hi.lt_or_eq with hi | rfl
  · exact h i hi
  · rw [T.climb_depth hlay.target_mem]
    exact hv.symm

/-- The request is new to one node on the way at most. -/
theorem Asking.place (h : Asking T node target k net)
    (hask : Asks T node target net.node (v, f)) (hup : f.headerFrom = T.up v)
    (hquiet : Quiet T node v (net.node v)) {i : ℕ} (hi : i < T.depth target)
    (hv : T.climb target i = v) : i = k := by
  by_contra hne
  rcases Nat.lt_or_gt_of_ne hne with hlt | hlt
  · have hspoken : Spoken node (T.up v) (net.node (T.up v)) := hup ▸ hask.spoken
    rw [← hv, ← T.climb_succ] at hspoken
    exact hspoken.not_quiet (h.quiet (i + 1) hlt)
  · have hspoken : Spoken node v (net.node v) := .inl (hv ▸ h.sequence i hlt hi)
    exact hspoken.not_quiet hquiet

/-- Once the target has answered it is new to none of them. -/
theorem Answering.passed (h : Answering T node target k f net)
    (hquiet : Quiet T node v (net.node v)) : ∀ i < T.depth target, T.climb target i ≠ v := by
  rintro i hi rfl
  rcases Nat.lt_or_ge k i with hki | hki
  · exact (Spoken.not_quiet (.inl (h.sequence i hki hi))) hquiet
  · exact (h.spoken i hki).not_quiet hquiet

theorem Found.passed (h : Found T node target net) (hquiet : Quiet T node v (net.node v)) :
    ∀ i < T.depth target, T.climb target i ≠ v := by
  rintro i hi rfl
  exact (h.spoken i hi).not_quiet hquiet

theorem Asking.progress {m : ℕ} (h : Asking T node target k net) (hk : k < T.depth target)
    (hlt : net.air.length + pending T node net.node + T.depth target < m) :
    ∃ n < m, Progress T node target n net :=
  ⟨_, hlt, .inl ⟨k, hk, h, le_rfl⟩⟩

theorem Answering.progress {m : ℕ} (h : Answering T node target k f net) (hk : k < T.depth target)
    (hlt : net.air.length + pending T node net.node + (T.depth target - 1 - k) < m) :
    ∃ n < m, Progress T node target n net :=
  ⟨_, hlt, .inr (.inl ⟨k, hk, f, h, le_rfl⟩)⟩

theorem Found.progress {m : ℕ} (h : Found T node target net)
    (hlt : net.air.length + pending T node net.node < m) :
    ∃ n < m, Progress T node target n net :=
  ⟨_, hlt, .inr (.inr ⟨h, le_rfl⟩)⟩

theorem Asking.step (h : Asking T node target k net) (hk : k < T.depth target)
    (hlay : Layout nodes hears source target) (hr : TreeReady T node target) {i : ℕ}
    (hget : net.air[i]? = some (v, f))
    (hinv : Inv nodes hears source target
      (handle hears source target { net with air := net.air.eraseIdx i } v f)) :
    ∃ n < net.air.length + pending T node net.node + T.depth target, Progress T node target n
      (handle hears source target { net with air := net.air.eraseIdx i } v f) := by
  obtain ⟨hask, h₀⟩ := (h.toWave.take hget).resolve_right fun hq => absurd hq.1 List.not_mem_nil
  have hlen := hask.length_lt hlay (h.inv.air _ (List.mem_of_getElem? hget))
  have hair := length_eraseIdx hget
  by_cases hnew : v ≠ source ∧ f.headerFrom = T.up v ∧ Quiet T node v (net.node v)
  · obtain ⟨hv, hup, hquiet⟩ := hnew
    by_cases htarget : v = target
    · -- the request has come to the target
      subst htarget
      obtain rfl : 0 = k := h.place hask hup hquiet (by omega) rfl
      obtain ⟨t, g, hl, hw, hair', hseq, hack, hfrom, hid, hdata⟩ :=
        h₀.answer hlay hr hask hlen hup hquiet hinv
      refine (h.answer hlay hl hw hseq hack hfrom hid hdata).progress hk ?_
      have hpend := hl.pending
      rw [hair', List.length_append, List.length_singleton]
      dsimp only at hpend ⊢
      omega
    · obtain ⟨t, hl, hw, hlen', hkept, hsends⟩ :=
        h₀.relay hlay hr hask hlen hv htarget hup hquiet hinv
      have hpend := hl.pending
      by_cases hon : ∃ j < T.depth target, T.climb target j = v
      · -- to a node on the way there, which is one edge nearer
        obtain ⟨j, hj, hjv⟩ := hon
        obtain rfl := h.place hask hup hquiet hj hjv
        obtain ⟨k, rfl⟩ : ∃ k, j = k + 1 := by
          refine Nat.exists_eq_succ_of_ne_zero ?_
          rintro rfl
          exact htarget hjv.symm
        have hdepth := (T.climb_mem hlay.target_mem hj.le).2
        obtain ⟨hseq, hair'⟩ := hsends (by rw [← hjv]; omega)
        refine (h.relay hlay hj hjv hl hw hseq hair').progress (by omega) ?_
        dsimp only at hpend hlen'
        omega
      · -- to a node elsewhere: one fewer is still to be told
        have hoff := off_way T hlay hv fun j hj hjv => hon ⟨j, hj, hjv⟩
        refine (h.aside hk (hl.aside hoff).of_air hw ?_).progress hk ?_
        · intro g hg _
          refine hkept _ (mem_eraseIdx hget hg ?_)
          rintro ⟨⟩
          exact hoff k hk.le rfl
        · dsimp only at hpend hlen'
          omega
  · -- it is no news: there is one frame fewer on the air
    obtain ⟨ha, hw, hair', hpend⟩ := h₀.idle hlay hask hlen (not_new h₀ hask hnew) hinv
    refine (h.aside hk ha.of_air hw ?_).progress hk ?_
    · intro g hg hfrom
      rw [hair']
      refine mem_eraseIdx hget hg ?_
      rintro ⟨⟩
      exact hnew ⟨T.climb_ne_root hlay.target_mem hk, hfrom.trans (T.climb_succ target k),
        h.quiet k le_rfl⟩
    · rw [hair']
      dsimp only at hpend ⊢
      omega

theorem Found.step (h : Found T node target net) (hlay : Layout nodes hears source target)
    (hr : TreeReady T node target) {i : ℕ} (hget : net.air[i]? = some (v, f))
    (hinv : Inv nodes hears source target
      (handle hears source target { net with air := net.air.eraseIdx i } v f)) :
    ∃ n < net.air.length + pending T node net.node, Progress T node target n
      (handle hears source target { net with air := net.air.eraseIdx i } v f) := by
  obtain ⟨hask, h₀⟩ := (h.toWave.take hget).resolve_right fun hq => absurd hq.1 List.not_mem_nil
  have hlen := hask.length_lt hlay (h.inv.air _ (List.mem_of_getElem? hget))
  have hair := length_eraseIdx hget
  by_cases hnew : v ≠ source ∧ f.headerFrom = T.up v ∧ Quiet T node v (net.node v)
  · obtain ⟨hv, hup, hquiet⟩ := hnew
    have hpassed := h.passed hquiet
    have htarget : v ≠ target := by
      rintro rfl
      exact hpassed 0 (by rw [T.depth_up v hlay.target_mem hv]; omega) rfl
    obtain ⟨t, hl, hw, hlen', -, -⟩ := h₀.relay hlay hr hask hlen hv htarget hup hquiet hinv
    refine (h.aside (hl.aside (off_way T hlay hv hpassed)).of_air hw).progress ?_
    have hpend := hl.pending
    dsimp only at hpend hlen'
    omega
  · obtain ⟨ha, hw, hair', hpend⟩ := h₀.idle hlay hask hlen (not_new h₀ hask hnew) hinv
    refine (h.aside ha.of_air hw).progress ?_
    rw [hair']
    dsimp only at hpend ⊢
    omega

theorem Answering.step {g : Frame} (h : Answering T node target k g net) (hk : k < T.depth target)
    (hlay : Layout nodes hears source target) (hr : TreeReady T node target) {i : ℕ}
    (hget : net.air[i]? = some (v, f))
    (hinv : Inv nodes hears source target
      (handle hears source target { net with air := net.air.eraseIdx i } v f)) :
    ∃ n < net.air.length + pending T node net.node + (T.depth target - 1 - k),
      Progress T node target n
        (handle hears source target { net with air := net.air.eraseIdx i } v f) := by
  have hair := length_eraseIdx hget
  rcases h.toWave.take hget with ⟨hask, h₀⟩ | ⟨hp, h₀⟩
  · have hlen := hask.length_lt hlay (h.inv.air _ (List.mem_of_getElem? hget))
    by_cases hnew : v ≠ source ∧ f.headerFrom = T.up v ∧ Quiet T node v (net.node v)
    · obtain ⟨hv, hup, hquiet⟩ := hnew
      have hpassed := h.passed hquiet
      have htarget : v ≠ target := by
        rintro rfl
        exact hpassed 0 (by omega) rfl
      obtain ⟨t, hl, hw, hlen', -, -⟩ := h₀.relay hlay hr hask hlen hv htarget hup hquiet hinv
      refine (h.aside hk (hl.aside (off_way T hlay hv hpassed)).of_air hw).progress hk ?_
      have hpend := hl.pending
      dsimp only at hpend hlen'
      omega
    · obtain ⟨ha, hw, hair', hpend⟩ := h₀.idle hlay hask hlen (not_new h₀ hask hnew) hinv
      refine (h.aside hk ha.of_air hw).progress hk ?_
      rw [hair']
      dsimp only at hpend ⊢
      omega
  · -- the response itself
    obtain ⟨rfl, rfl⟩ := Prod.mk.injEq .. ▸ List.mem_singleton.mp hp
    have h₀ := h₀ rfl
    rcases (Nat.succ_le_of_lt hk).lt_or_eq with hk' | hk'
    · obtain ⟨g, hfwd, hair', hpend⟩ := h.forward hlay hr hk' h₀ rfl hinv
      refine hfwd.progress hk' ?_
      rw [hair']
      omega
    · have hv : T.climb target (k + 1) = source := by
        rw [← Nat.succ_eq_add_one, hk']
        exact T.climb_depth hlay.target_mem
      rw [hv] at hinv ⊢
      obtain ⟨hfound, hair', hpend⟩ := h.found hlay hk' h₀ hinv
      refine hfound.progress ?_
      rw [hair']
      omega

/-- **Every frame that is handled brings the discovery nearer to its end.** -/
theorem step_progress (hlay : Layout nodes hears source target) (hr : TreeReady T node target)
    {m : ℕ} (h : Progress T node target m net) {i : ℕ}
    (hstep : step hears source target net (.handle i) = some net') :
    ∃ n < m, Progress T node target n net' := by
  obtain ⟨⟨v, f⟩, hget, hnet⟩ := Option.map_eq_some_iff.mp hstep
  have hinv : Inv nodes hears source target net → Inv nodes hears source target net' :=
    fun hi => step_inv hlay hi hstep
  subst hnet
  rcases h with ⟨k, hk, h, hle⟩ | ⟨k, hk, g, h, hle⟩ | ⟨h, hle⟩
  · obtain ⟨n, hlt, hp⟩ := h.step hk hlay hr hget (hinv h.inv)
    exact ⟨n, hlt.trans_le hle, hp⟩
  · obtain ⟨n, hlt, hp⟩ := h.step hk hlay hr hget (hinv h.inv)
    exact ⟨n, hlt.trans_le hle, hp⟩
  · obtain ⟨n, hlt, hp⟩ := h.step hlay hr hget (hinv h.inv)
    exact ⟨n, hlt.trans_le hle, hp⟩

/-- The request has been broadcast. -/
theorem start_wave (hlay : Layout nodes hears source target) (hr : TreeReady T node target) :
    Wave T node target [] (start hears source target node) := by
  obtain ⟨t, id, flags, ht, hack, hid, heq⟩ := start_eq hears source target node
  have hinv : Inv nodes hears source target (start hears source target node) := start_inv hr.fresh
  have hfrom := (hr.fresh source).txHeaderFrom
  have hthis := (hr.fresh source).thisAddress
  -- only the originator is another node than before
  have hall : ∀ P : UInt8 → RHMesh → Prop, (∀ w, P w (node w)) → P source t →
      ∀ w, P w (Function.update node source t w) := by
    intro P hold hnew w
    by_cases hw : w = source
    · rw [hw, Function.update_self]
      exact hnew
    · rw [Function.update_of_ne hw]
      exact hold w
  have hzero : ∀ w i, (node w).tmpMessage i ≠ source := by
    intro w i
    rw [(hr.fresh w).tmpMessage]
    exact hr.source_ne.symm
  rw [heq] at hinv ⊢
  refine ⟨hinv, ?_, ?_, ?_, carried hears source [_], List.Perm.refl _, ?_⟩
  · exact hall (fun w s => s.maxHops = (node w).maxHops) (fun _ => rfl) ht.maxHops
  · refine hall (fun _ s => ∀ i, routeOctet ≤ i → s.tmpMessage i ≠ source)
      (fun w i _ => hzero w i) ?_
    intro i hi
    rw [ht.tmpMessage]
    show (node source).tmpMessage.write 0 _ i ≠ source
    rw [Mem.write_ge (by rw [length_discovery]; exact hi)]
    exact hzero source i
  · intro v _ hv
    show Quiet T node v (Function.update node source t v) ∨ _
    rw [Function.update_of_ne hv]
    exact .inl ⟨rfl, rfl⟩
  · rintro ⟨w, g⟩ hp
    obtain ⟨hmem, hadj, -⟩ := mem_carried.mp hp
    obtain rfl := List.mem_singleton.mp hmem
    refine ⟨?_, ?_, not_not.mpr hack, ⟨(node source).lastE2ESequenceNumber, 0, ?_⟩, ?_, ?_⟩
    · show w ∈ hears (node source).txHeaderFrom
      rwa [hfrom]
    · show (node source).txHeaderFrom ≠ target
      rw [hfrom]
      exact hlay.ne
    · show discovery _ (node source).thisAddress _ _ _ _ _ [] =
        discovery _ source _ _ _ _ _ (T.way (node source).txHeaderFrom)
      rw [hfrom, hthis, T.way_root]
    · show id = (node (node source).txHeaderFrom).lastSequenceNumber + 1
      rw [hfrom, hid]
    · show Spoken node (node source).txHeaderFrom
        (Function.update node source t (node source).txHeaderFrom)
      rw [hfrom, Function.update_self]
      exact .inl ht.lastSequenceNumber

theorem start_progress (hlay : Layout nodes hears source target) (hr : TreeReady T node target) :
    Progress T node target (∑ v ∈ nodes, (hears v).length + T.depth target)
      (start hears source target node) := by
  have htarget := hlay.target_mem
  have hdepth : T.depth target = T.depth (T.up target) + 1 := T.depth_up _ htarget hlay.ne.symm
  set k := T.depth (T.up target)
  have hsource : T.climb target (k + 1) = source := by
    rw [← hdepth]
    exact T.climb_depth htarget
  have hw := start_wave hlay hr
  obtain ⟨t, id, flags, ht, -, -, heq⟩ := start_eq hears source target node
  rw [heq] at hw ⊢
  rw [carried_broadcast rfl] at hw ⊢
  have hold : ∀ i < T.depth target, Function.update node source t (T.climb target i) =
      node (T.climb target i) :=
    fun i hi => Function.update_of_ne (T.climb_ne_root htarget hi) t node
  refine .inl ⟨k, by omega, ⟨hw, rfl, ?_, ?_, ?_, ?_, ?_⟩, ?_⟩
  · have hnear := (T.climb_near htarget (show k < T.depth target by omega)).2
    rw [hsource] at hnear
    refine ⟨_, List.mem_map.mpr ⟨_, hnear, rfl⟩, ?_⟩
    rw [hsource]
    exact (hr.fresh source).txHeaderFrom
  · intro i hi
    show Quiet T node _ (Function.update node source t _)
    rw [hold i (by omega)]
    exact ⟨rfl, rfl⟩
  · intro i hi
    have hnews := (hr.news _ _ (T.climb_near htarget hi).1)
    have hseen : (Function.update node source t (T.climb target (i + 1))).seenIds =
        (node (T.climb target (i + 1))).seenIds := by
      by_cases hik : T.climb target (i + 1) = source
      · rw [hik, Function.update_self]
        exact ht.seenIds
      · rw [Function.update_of_ne hik]
    show (Function.update node source t _).seenIds _ ≠ _
    rw [hseen, answerId]
    split
    · exact hnews.1
    · exact hnews.2
  · exact fun i hki hi => absurd hi (by omega)
  · exact fun i hki hi => absurd hi (by omega)
  · refine Nat.add_le_add_right ?_ _
    rw [List.length_map, ← Finset.add_sum_erase nodes _ hlay.source_mem]
    exact Nat.add_le_add_left
      (Finset.sum_le_sum_of_subset (Finset.filter_subset _ _)) _

end Steps

variable {nodes : Finset UInt8} {hears : UInt8 → List UInt8} {source target : UInt8}

/-- **Discovery in a tree, in any order.**  Where nodes, fewer than a routing table
has slots, hear each other along the edges of a tree, the originator has another
address than 0 and no frame is lost, no more frames are handled than there are
pairs of neighbours, counted both ways, and edges from the originator to the
target.  When none is left `doArp` has returned true, and every node between the
two has the right next hops to both of them, whatever the order the frames have
been handled in. -/
theorem tree_discovers (hlay : Layout nodes hears source target) (T : Rooted nodes hears source)
    {node : UInt8 → RHMesh} (hr : TreeReady T node target) {es : List MeshEvent}
    (hes : ∀ e ∈ es, ∃ i, e = .handle i) {net : MeshNet}
    (hrun : run (step hears source target) (start hears source target node) es = some net) :
    es.length ≤ ∑ v ∈ nodes, (hears v).length + T.depth target ∧
      (net.air = [] →
        (RHMesh.doArp (link hears source) (node source) target net.heard).1 = true ∧
        ∀ i < T.depth target,
          (net.node (T.climb target i)).routes.nextHop source = some (T.climb target (i + 1)) ∧
          (net.node (T.climb target (i + 1))).routes.nextHop target = some (T.climb target i)) := by
  obtain ⟨m, hle, h⟩ := run_descends
    (fun m s e s' hs (he : ∃ i, e = .handle i) hstep => by
      obtain ⟨i, rfl⟩ := he
      exact step_progress hlay hr hs hstep)
    (start_progress hlay hr) (allSteps_of_mem hes _) hrun
  refine ⟨(Nat.le_add_right _ m).trans hle, ?_⟩
  intro hair
  rcases h with ⟨k, -, h, -⟩ | ⟨k, -, f, h, -⟩ | ⟨h, -⟩
  · obtain ⟨f, hf, -⟩ := h.token
    rw [hair] at hf
    exact absurd hf List.not_mem_nil
  · obtain ⟨rest, hperm, -⟩ := h.air
    rw [hair] at hperm
    exact absurd hperm.nil_eq (List.cons_ne_nil _ _).symm
  · refine ⟨?_, fun i hi => ⟨h.back i hi, h.forth i hi⟩⟩
    rw [doArp_heard hrun, h.resolved]

/-- Node 2 between nodes 1, 3 and 4. -/
def fork (v : UInt8) : List UInt8 :=
  if v = 2 then [1, 3, 4] else if v = 1 ∨ v = 3 ∨ v = 4 then [2] else []

def forkTree : Rooted {1, 2, 3, 4} fork 1 where
  up v := if v = 2 then 1 else 2
  depth v := if v = 1 then 0 else if v = 2 then 1 else 2
  depth_root := rfl
  up_mem := by decide +kernel
  depth_up := by decide +kernel
  mem_near v w := by
    simp only [fork]
    grind
  nodup v := by
    simp only [fork]
    grind

/-- Node 3 has sent the request on when the response is back already. -/
theorem fork_discovers : ∃ net,
    run (step fork 1 4) (start fork 1 4 bootNode) [.handle 0, .handle 2, .handle 2, .handle 2,
      .handle 1, .handle 1, .handle 0] = some net ∧
    (RHMesh.doArp (link fork 1) (bootNode 1) 4 net.heard).1 = true := by
  have hlay : Layout {1, 2, 3, 4} fork 1 4 := by
    refine ⟨by decide, by decide, by decide, by decide, by decide, ?_, ?_⟩
    · intro v w hw
      rw [fork] at hw
      grind
    · intro v w hw
      rw [fork] at hw ⊢
      grind
  have hnews : (0 : UInt8) ≠ 0 + 1 ∧ (0 : UInt8) ≠ 0 + 2 := by decide
  have hr : TreeReady forkTree bootNode 4 :=
    ⟨bootNode_fresh, by decide +kernel, fun _ _ _ => hnews, by decide⟩
  have hrun : (run (step fork 1 4) (start fork 1 4 bootNode) [.handle 0, .handle 2, .handle 2,
      .handle 2, .handle 1, .handle 1, .handle 0]).map (fun net => net.air) = some [] := by
    decide +kernel
  obtain ⟨net, hnet, hair⟩ := Option.map_eq_some_iff.mp hrun
  refine ⟨net, hnet, ((tree_discovers hlay forkTree hr ?_ hnet).2 hair).1⟩
  intro e he
  simp only [List.mem_cons, List.not_mem_nil, or_false] at he
  rcases he with rfl | rfl | rfl | rfl | rfl | rfl | rfl <;> exact ⟨_, rfl⟩

end MeshNet
