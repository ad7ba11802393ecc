/-
A request that spreads over a tree of nodes.

Where nodes hear each other along the edges of a tree, a request comes to a node
over one neighbour only, the one above it; what it hears of those below is its
own request, with their names at the end of the list.

* `Asks` — a request on the air, with the way it has come;
* `Wave` — what holds of the nodes while it spreads;
* `Wave.idle` — a node to which it is nothing new;
* `Wave.answer`, `Wave.relay` — a node that hears it for the first time;
* `pending` — the frames that it is still to be sent in.
-/
import RadioHead.ChainDiscovery
import RadioHead.Lib.Rooted
import RadioHead.LoopFreedom

open Run

namespace MeshNet

open RHMesh RHRouter

variable {nodes : Finset UInt8} {hears : UInt8 → List UInt8} {source target : UInt8}
  {net net' : MeshNet} {v : UInt8} {f : Frame} {s t : RHMesh}

/-! ### One node -/

/-- What becomes of a node that has nothing to do with the frame. -/
structure Idles (s : RHMesh) (f : Frame) (t : RHMesh) : Prop where
  lastSequenceNumber : t.lastSequenceNumber = s.lastSequenceNumber
  seenIds : ∀ u, t.seenIds u = s.seenIds u ∨ u = f.headerFrom ∧ t.seenIds u = f.headerId
  maxHops : t.maxHops = s.maxHops
  tmpMessage : ∀ i, routeOctet ≤ i → t.tmpMessage i = stored f s.tmpMessage i
  routes : t.routes = s.routes
  sent : t.sent = s.sent

theorem idles_skipped (s : RHMesh) (f : Frame) : Idles s f (s.skipped f) where
  lastSequenceNumber := by
    show RHReliableDatagram.lastSequenceNumber (ite _ _ _) = _
    split <;> rfl
  seenIds u := by
    refine .inl ?_
    show RHReliableDatagram.seenIds (ite _ _ _) u = _
    split <;> rfl
  maxHops := rfl
  tmpMessage _ _ := rfl
  routes := rfl
  sent := rfl

theorem idles_handled (h : Handled s f [] none t) : Idles s f t where
  lastSequenceNumber := h.lastSequenceNumber.trans (UInt8.add_zero _)
  seenIds u := by
    rw [h.seenIds]
    by_cases hu : u = f.headerFrom
    · rw [hu, Function.update_self]
      exact .inr ⟨rfl, rfl⟩
    · rw [Function.update_of_ne hu]
      exact .inl rfl
  maxHops := h.maxHops
  tmpMessage i hi := (h.tmpMessage i hi).trans (congrFun (Mem.write_nil _ _) i)
  routes := h.routes
  sent := by
    obtain ⟨_, -, hsent⟩ := h.sent
    exact hsent.trans (List.append_nil _)

/-- Node `v` gets to `t`, and what it has sent on the way is on the air. -/
structure Becomes (hears : UInt8 → List UInt8) (net : MeshNet) (v : UInt8) (t : RHMesh)
    (net' : MeshNet) : Prop where
  node : net'.node = Function.update net.node v t
  air : net'.air = (net.become hears v t).air

/-- A `doArp` that waits goes on waiting, and one that has returned, has. -/
structure WaitsOn (net net' : MeshNet) : Prop where
  arp : net'.arp.isSome = net.arp.isSome
  resolved : net.arp = none → net'.resolved = net.resolved

/-- What holds of a node holds of it then, if it does of `v`. -/
theorem Becomes.keeps (h : Becomes hears net v t net') {P : UInt8 → RHMesh → Prop}
    (hv : P v (net.node v) → P v t) {w : UInt8} (hw : P w (net.node w)) : P w (net'.node w) := by
  rw [h.node]
  by_cases hwv : w = v
  · subst hwv
    rw [Function.update_self]
    exact hv hw
  · rwa [Function.update_of_ne hwv]

theorem Becomes.air_eq (h : Becomes hears net v t net') {out : List Frame}
    (hsent : t.sent = (net.node v).sent ++ out) : net'.air = net.air ++ carried hears v out :=
  h.air.trans (air_become hsent)

theorem Becomes.self (h : Becomes hears net v t net') : net'.node v = t := by
  rw [h.node, Function.update_self]

theorem Becomes.other (h : Becomes hears net v t net') {w : UInt8} (hw : w ≠ v) :
    net'.node w = net.node w := by
  rw [h.node, Function.update_of_ne hw]

/-! ### The request on the air -/

variable (T : Rooted nodes hears source) (node : UInt8 → RHMesh)

/-- Node `v` has sent nothing yet, nor heard the request from the node above it. -/
def Quiet (v : UInt8) (s : RHMesh) : Prop :=
  s.lastSequenceNumber = (node v).lastSequenceNumber ∧
    s.seenIds (T.up v) = (node v).seenIds (T.up v)

instance : Decidable (Quiet T node v s) :=
  inferInstanceAs (Decidable (_ ∧ _))

/-- What it has heard last of the node above it is the request. -/
def Told (v : UInt8) (s : RHMesh) : Prop :=
  s.seenIds (T.up v) = (node (T.up v)).lastSequenceNumber + 1

/-- It has sent its request, and the response, perhaps. -/
def Spoken (v : UInt8) (s : RHMesh) : Prop :=
  s.lastSequenceNumber = (node v).lastSequenceNumber + 1 ∨
    s.lastSequenceNumber = (node v).lastSequenceNumber + 2

/-- A request on the air, on its way along an edge of the tree, down or up. -/
structure Asks (target : UInt8) (g : UInt8 → RHMesh) (p : UInt8 × Frame) : Prop where
  adjacent : p.1 ∈ hears p.2.headerFrom
  ne_target : p.2.headerFrom ≠ target
  isAck : ¬ p.2.IsAck
  octets : ∃ id flags, p.2.data = discovery broadcastAddress source 0 id flags typeRequest target
    (T.way p.2.headerFrom)
  headerId : p.2.headerId = (node p.2.headerFrom).lastSequenceNumber + 1
  spoken : Spoken node p.2.headerFrom (g p.2.headerFrom)

/-- The nodes as they come up, with enough hops and new link ids. -/
structure TreeReady (target : UInt8) : Prop where
  fresh : ∀ v, Fresh v (node v)
  hops : ∀ v ∈ nodes, T.depth target ≤ (node v).maxHops.toNat + 1
  news : ∀ v w, w ∈ hears v →
    (node w).seenIds v ≠ (node v).lastSequenceNumber + 1 ∧
      (node w).seenIds v ≠ (node v).lastSequenceNumber + 2
  source_ne : source ≠ 0

variable {T node}

theorem Spoken.not_quiet (h : Spoken node v s) : ¬ Quiet T node v s := by
  rintro ⟨hseq, -⟩
  rcases h with h | h
  · exact ne_add_one _ (hseq.symm.trans h)
  · rw [hseq] at h
    have h := congrArg UInt8.toNat h
    rw [UInt8.toNat_add] at h
    have hlt := (node v).lastSequenceNumber.toNat_lt
    simp only [UInt8.reduceToNat] at h
    omega

/-- A request that is repeated, or comes up the tree, or back to `source`. -/
theorem Asks.idle (hask : Asks T node target net.node (v, f))
    (hi : Inv nodes hears source target net) (hlen : f.data.length ≤ maxMessageLen)
    (hold : v ≠ source → f.headerFrom = T.up v → Told T node v (net.node v)) :
    ∃ t, Becomes hears net v t (handle hears source target net v f) ∧
      WaitsOn net (handle hears source target net v f) ∧ Idles (net.node v) f t := by
  have hthis := hi.thisAddress v
  obtain ⟨id, flags, hdata⟩ := hask.octets
  -- what comes from above has been heard before
  have hlisted : (net.node v).Takes f →
      source = (net.node v).thisAddress ∨ (net.node v).thisAddress ∈ T.way f.headerFrom := by
    intro htakes
    rw [hthis]
    obtain ⟨hu, hv, hedge⟩ := (T.mem_near f.headerFrom v).mp hask.adjacent
    rcases hedge with ⟨hne, hup⟩ | ⟨hne, hup⟩
    · by_cases hv : v = source
      · exact .inl hv.symm
      · rw [hup]
        exact .inr (T.up_mem_way hu hne (hup ▸ hv))
    · have htold := hold hne hup
      rw [Told, ← hup, ← hask.headerId] at htold
      exact absurd htold.symm htakes.2
  rcases hw : net.waiting source v with _ | messageLen
  · rw [handle_recvfromAck hw]
    refine ⟨_, ⟨rfl, rfl⟩, ⟨rfl, fun _ => rfl⟩, ?_⟩
    by_cases htakes : (net.node v).Takes f
    · exact idles_handled
        (request_listed (link hears v) htakes hdata hlen (hlisted htakes) meshMessageSize)
    · rw [RHMesh.recvfromAck_of_not_takes htakes]
      exact idles_skipped _ f
  · obtain ⟨rfl, harp⟩ := Option.ite_none_right_eq_some.mp hw
    have hne : net.arp ≠ none := harp ▸ Option.some_ne_none messageLen
    rw [handle_waiting hw]
    by_cases htakes : (net.node v).Takes f
    · obtain ⟨n, t, -, heq, hh⟩ :=
        arp_request (link hears v) htakes hdata hlen target (hi.arp messageLen harp)
      rw [heq]
      exact ⟨t, ⟨rfl, rfl⟩, ⟨by rw [harp]; rfl, fun h => absurd h hne⟩, idles_handled hh⟩
    · rw [arpReceive_of_not_takes (link hears v) htakes]
      exact ⟨_, ⟨rfl, rfl⟩, ⟨by rw [harp]; rfl, fun h => absurd h hne⟩, idles_skipped _ f⟩

theorem way_subset (T : Rooted nodes hears source) (h : Layout nodes hears source target)
    (hv : v ∈ nodes) : ∀ d ∈ source :: T.way v, d ∈ insert 0 nodes := by
  intro d hd
  refine Finset.mem_insert_of_mem ?_
  rcases List.mem_cons.mp hd with rfl | hd
  · exact h.source_mem
  · exact (T.mem_way v hv d hd).1

/-- A node that has heard nothing from above takes the request. -/
theorem Asks.takes (hask : Asks T node target net.node (v, f)) (hr : TreeReady T node target)
    (hup : f.headerFrom = T.up v) (hquiet : Quiet T node v (net.node v)) :
    (net.node v).Takes f := by
  refine ⟨hask.isAck, ?_⟩
  show f.headerId ≠ (net.node v).seenIds f.headerFrom
  have hid : f.headerId = (node f.headerFrom).lastSequenceNumber + 1 := hask.headerId
  rw [hid, hup, hquiet.2]
  exact (hr.news _ v (hup ▸ hask.adjacent)).1.symm

/-- A node that is not as deep as `target` has the hops to send the request on. -/
theorem TreeReady.lt_maxHops (hr : TreeReady T node target) (hmem : v ∈ nodes) (hv : v ≠ source)
    (hlt : T.depth v < T.depth target) :
    UInt8.ofNat (T.way (T.up v)).length < (node v).maxHops := by
  have hl : (T.way (T.up v)).length + 1 = T.depth v := by
    rw [← T.length_way v hmem, T.way_eq hmem hv, List.length_append, List.length_singleton]
  have hle := hr.hops v hmem
  have hm := (node v).maxHops.toNat_lt
  rw [UInt8.lt_iff_toNat_lt, UInt8.toNat_ofNat_of_lt' (by
    show (T.way (T.up v)).length < 256
    omega)]
  omega

/-- The request comes down to a node that is new to it. -/
theorem Asks.new (hask : Asks T node target net.node (v, f)) (h : Layout nodes hears source target)
    (hr : TreeReady T node target) (hi : Inv nodes hears source target net)
    (hlen : f.data.length < maxMessageLen) (hv : v ≠ source) (hup : f.headerFrom = T.up v)
    (hquiet : Quiet T node v (net.node v)) (hmax : (net.node v).maxHops = (node v).maxHops) :
    ∃ t out, Becomes hears net v t (handle hears source target net v f) ∧
      WaitsOn net (handle hears source target net v f) ∧
      Handled (net.node v) f (source :: T.way (T.up v)) out t ∧
      (v = target → ∃ id, out = some (T.up v,
        discovery source target 0 id 0 typeResponse target (T.way (T.up v)))) ∧
      (v ≠ target → (∃ id, out = some (broadcastAddress,
          discovery broadcastAddress source 0 id 0 typeRequest target (T.way v))) ∨
        out = none ∧ ¬ T.depth v < T.depth target) := by
  have hthis := hi.thisAddress v
  have hmem : v ∈ nodes := ((T.mem_near _ _).mp hask.adjacent).2.1
  have htakes : (net.node v).Takes f := hask.takes hr hup hquiet
  obtain ⟨id, flags, hdata⟩ := hask.octets
  dsimp only at hdata
  rw [hup] at hdata
  -- the request is from another node, and does not list this one
  have hsource : source ≠ (net.node v).thisAddress := by
    rw [hthis]
    exact hv.symm
  have hlist : (net.node v).thisAddress ∉ T.way (T.up v) := by
    rw [hthis]
    exact T.notMem_way_up hmem hv
  rw [handle_recvfromAck (if_neg hv)]
  by_cases htarget : v = target
  · -- the target answers over the route that it has just taken
    have hnext := nextHop_routesAfter (f := f) h.card_insert (hi.known v)
      (way_subset T h (T.up_mem v hmem hv)) source
    rw [if_pos List.mem_cons_self] at hnext
    have hthis' : (net.node v).thisAddress = target := hthis.trans htarget
    have hh := request_answered htakes (hthis' ▸ hdata) hlen.le hsource hlist h.source_ne hnext
      (acks_link (h.symm _ _ hask.adjacent)) meshMessageSize
    rw [hthis', hup] at hh
    refine ⟨_, _, ⟨rfl, rfl⟩, ⟨rfl, fun _ => rfl⟩, hh, fun _ => ⟨_, rfl⟩, fun hne => ?_⟩
    exact absurd htarget hne
  · have htarget' : target ≠ (net.node v).thisAddress := by
      rw [hthis]
      exact Ne.symm htarget
    by_cases hhops : UInt8.ofNat (T.way (T.up v)).length < (net.node v).maxHops
    · -- another node adds its name to the list
      have hh := request_relayed (link hears v) htakes hdata hlen hsource hlist htarget' hhops
        meshMessageSize
      rw [hthis, ← T.way_eq hmem hv] at hh
      exact ⟨_, _, ⟨rfl, rfl⟩, ⟨rfl, fun _ => rfl⟩, hh, fun heq => absurd heq htarget,
        fun _ => .inl ⟨_, rfl⟩⟩
    · -- unless the hops are used up, and then it is as deep as the target
      have hh := request_exhausted (link hears v) htakes hdata hlen.le hsource hlist htarget'
        (.inl hhops) meshMessageSize
      refine ⟨_, _, ⟨rfl, rfl⟩, ⟨rfl, fun _ => rfl⟩, hh, fun heq => absurd heq htarget,
        fun _ => .inr ⟨rfl, ?_⟩⟩
      exact fun hlt => hhops (hmax.symm ▸ hr.lt_maxHops hmem hv hlt)

/-- Past the header of a message the buffer holds its list, or older octets. -/
theorem stored_ne {a : UInt8} (hlist : a ∉ f.data.drop routeOctet)
    (hs : ∀ i, routeOctet ≤ i → s.tmpMessage i ≠ a) {i : ℕ} (hi : routeOctet ≤ i) :
    stored f s.tmpMessage i ≠ a := by
  rcases Mem.write_mem_drop hi s.tmpMessage (f.data.take routedMessageSize) with hmem | heq
  · rw [List.drop_take] at hmem
    rw [stored]
    exact ne_of_mem_of_not_mem (List.mem_of_mem_take hmem) hlist
  · rw [stored, heq]
    exact hs i hi

theorem tmpMessage_ne {a : UInt8} {learned : List UInt8} {out : Option (UInt8 × List UInt8)}
    (hh : Handled s f learned out t) (hlist : a ∉ f.data.drop routeOctet)
    (hs : ∀ i, routeOctet ≤ i → s.tmpMessage i ≠ a)
    (hout : ∀ o ∈ out, a ∉ o.2.drop routeOctet) {i : ℕ} (hi : routeOctet ≤ i) :
    t.tmpMessage i ≠ a := by
  rw [hh.tmpMessage i hi]
  cases out with
  | none => exact (congrFun (Mem.write_nil _ _) i).symm ▸ stored_ne hlist hs hi
  | some o =>
    rcases Mem.write_mem_drop hi (stored f s.tmpMessage) o.2 with hmem | heq
    · exact ne_of_mem_of_not_mem hmem (hout o rfl)
    · exact heq ▸ stored_ne hlist hs hi

/-! ### The network -/

variable (T node)

/-- The frames on the air are those of `q`, and requests; a node has the request
of the one above it before it, or behind it. -/
structure Wave (target : UInt8) (q : List (UInt8 × Frame)) (net : MeshNet) : Prop where
  inv : Inv nodes hears source target net
  maxHops : ∀ v, (net.node v).maxHops = (node v).maxHops
  buffer : ∀ v i, routeOctet ≤ i → (net.node v).tmpMessage i ≠ source
  status : ∀ v ∈ nodes, v ≠ source → Quiet T node v (net.node v) ∨ Told T node v (net.node v)
  air : ∃ rest, net.air.Perm (q ++ rest) ∧ ∀ p ∈ rest, Asks T node target net.node p

variable {T node} {q : List (UInt8 × Frame)} {p : UInt8 × Frame}

/-- One frame is taken from the air. -/
theorem Wave.take (h : Wave T node target q net) {i : ℕ} (hget : net.air[i]? = some p) :
    Asks T node target net.node p ∧ Wave T node target q { net with air := net.air.eraseIdx i } ∨
      p ∈ q ∧ (q = [p] → Wave T node target [] { net with air := net.air.eraseIdx i }) := by
  obtain ⟨rest, hperm, hasks⟩ := h.air
  have hinv := h.inv.with_air (net.air.eraseIdx i) (fun _ => List.mem_of_mem_eraseIdx) h.inv.arp
  obtain ⟨hi, rfl⟩ := List.getElem?_eq_some_iff.mp hget
  have hcons := (List.getElem_cons_eraseIdx_perm hi).trans hperm
  have hmem : net.air[i] ∈ q ++ rest := hcons.subset List.mem_cons_self
  by_cases hrest : net.air[i] ∈ rest
  · refine .inl ⟨hasks _ hrest, hinv, h.maxHops, h.buffer, h.status, rest.erase net.air[i], ?_, ?_⟩
    · refine (List.perm_cons net.air[i]).mp (hcons.trans ?_)
      exact ((List.perm_cons_erase hrest).append_left q).trans List.perm_middle
    · exact fun p hp => hasks p (List.mem_of_mem_erase hp)
  · refine .inr ⟨(List.mem_append.mp hmem).resolve_right hrest, ?_⟩
    intro hq
    rw [hq] at hcons
    exact ⟨hinv, h.maxHops, h.buffer, h.status, rest, (List.perm_cons _).mp hcons, hasks⟩

/-- A node sends frames. -/
theorem Wave.become (h : Wave T node target q net) (hb : Becomes hears net v t net')
    (hinv : Inv nodes hears source target net') (hmax : t.maxHops = (net.node v).maxHops)
    (hbuffer : ∀ i, routeOctet ≤ i → t.tmpMessage i ≠ source)
    (hstatus : v ∈ nodes → v ≠ source → Quiet T node v t ∨ Told T node v t)
    (hspoken : Spoken node v (net.node v) → Spoken node v t)
    {out : List Frame} (hsent : t.sent = (net.node v).sent ++ out)
    (q' rest' : List (UInt8 × Frame)) (hout : carried hears v out = q' ++ rest')
    (hrest : ∀ p ∈ rest', Asks T node target net'.node p) :
    Wave T node target (q ++ q') net' where
  inv := hinv
  maxHops w :=
    hb.keeps (P := fun w s => s.maxHops = (node w).maxHops) (fun hv => hmax.trans hv) (h.maxHops w)
  buffer w :=
    hb.keeps (P := fun _ s => ∀ i, routeOctet ≤ i → s.tmpMessage i ≠ source) (fun _ => hbuffer)
      (h.buffer w)
  status w hw hne :=
    hb.keeps (P := fun w s => w ∈ nodes → w ≠ source → Quiet T node w s ∨ Told T node w s)
      (fun _ => hstatus) (h.status w) hw hne
  air := by
    obtain ⟨rest, hperm, hasks⟩ := h.air
    refine ⟨rest ++ rest', ?_, ?_⟩
    · rw [hb.air_eq hsent, hout]
      refine (hperm.append_right _).trans ?_
      rw [List.append_assoc, List.append_assoc]
      refine List.Perm.append_left q ?_
      rw [← List.append_assoc, ← List.append_assoc]
      exact List.perm_append_comm.append_right rest'
    · intro p hp
      rcases List.mem_append.mp hp with hp | hp
      · have hask := hasks p hp
        exact ⟨hask.adjacent, hask.ne_target, hask.isAck, hask.octets, hask.headerId,
          hb.keeps (P := fun w s => Spoken node w s) hspoken hask.spoken⟩
      · exact hrest p hp

/-! ### How much is left -/

variable (T node)

/-- The frames that the request is still to be sent in. -/
def pending (g : UInt8 → RHMesh) : ℕ :=
  ∑ v ∈ (nodes.erase source).filter (fun v => Quiet T node v (g v)), (hears v).length

variable {T node}

theorem pending_update_le {g : UInt8 → RHMesh}
    (h : v ≠ source → Quiet T node v t → Quiet T node v (g v)) :
    pending T node (Function.update g v t) ≤ pending T node g := by
  refine Finset.sum_le_sum_of_subset ?_
  intro w hw
  obtain ⟨hmem, hquiet⟩ := Finset.mem_filter.mp hw
  refine Finset.mem_filter.mpr ⟨hmem, ?_⟩
  by_cases hwv : w = v
  · subst hwv
    rw [Function.update_self] at hquiet
    exact h (Finset.ne_of_mem_erase hmem) hquiet
  · rwa [Function.update_of_ne hwv] at hquiet

/-- A node hears the request. -/
theorem pending_update_lt {g : UInt8 → RHMesh} (hv : v ∈ nodes) (hne : v ≠ source)
    (hquiet : Quiet T node v (g v)) (ht : ¬ Quiet T node v t) :
    pending T node (Function.update g v t) + (hears v).length ≤ pending T node g := by
  have hmem : v ∈ (nodes.erase source).filter fun v => Quiet T node v (g v) :=
    Finset.mem_filter.mpr ⟨Finset.mem_erase.mpr ⟨hne, hv⟩, hquiet⟩
  have hsub : (nodes.erase source).filter (fun w => Quiet T node w (Function.update g v t w)) ⊆
      ((nodes.erase source).filter fun v => Quiet T node v (g v)).erase v := by
    intro w hw
    obtain ⟨hw, hquiet⟩ := Finset.mem_filter.mp hw
    by_cases hwv : w = v
    · subst hwv
      rw [Function.update_self] at hquiet
      exact absurd hquiet ht
    · rw [Function.update_of_ne hwv] at hquiet
      exact Finset.mem_erase.mpr ⟨hwv, Finset.mem_filter.mpr ⟨hw, hquiet⟩⟩
  have hle := Finset.sum_le_sum_of_subset (f := fun v => (hears v).length) hsub
  rw [pending, pending, ← Finset.sum_erase_add _ _ hmem]
  exact Nat.add_le_add_right hle _

/-! ### The steps -/

variable (T node)

/-- A step that does not concern the nodes between `source` and `target`. -/
structure Aside (target : UInt8) (net net' : MeshNet) : Prop extends WaitsOn net net' where
  sequence : ∀ i < T.depth target, (net'.node (T.climb target i)).lastSequenceNumber =
    (net.node (T.climb target i)).lastSequenceNumber
  routes : ∀ i ≤ T.depth target,
    (net'.node (T.climb target i)).routes = (net.node (T.climb target i)).routes
  above : ∀ i < T.depth target, (net'.node (T.climb target i)).seenIds (T.climb target (i + 1)) =
    (net.node (T.climb target i)).seenIds (T.climb target (i + 1))
  below : ∀ i < T.depth target, (net'.node (T.climb target (i + 1))).seenIds (T.climb target i) =
      (net.node (T.climb target (i + 1))).seenIds (T.climb target i) ∨
    i ≠ 0 ∧ (net'.node (T.climb target (i + 1))).seenIds (T.climb target i) =
      (node (T.climb target i)).lastSequenceNumber + 1

variable {T node}

/-- What is on the air does not matter for it. -/
theorem Aside.of_air {air : List (UInt8 × Frame)}
    (h : Aside T node target { net with air := air } net') : Aside T node target net net' :=
  ⟨⟨h.arp, h.resolved⟩, h.sequence, h.routes, h.above, h.below⟩

theorem Asks.length_lt (hask : Asks T node target net.node p) (h : Layout nodes hears source target)
    (hp : OnAir nodes hears source target net p) : p.2.data.length < maxMessageLen := by
  obtain ⟨l, hm⟩ := hp.message
  obtain ⟨id, flags, hdata⟩ := hask.octets
  have hl := hm.drop
  have hlen := hm.length_lt h
  rw [hdata] at hl
  rw [hdata, length_discovery]
  rwa [← hl] at hlen

/-- The list of a request does not name its source. -/
theorem Asks.source_notMem (hask : Asks T node target net.node (v, f)) :
    source ∉ f.data.drop routeOctet := by
  obtain ⟨id, flags, hdata⟩ := hask.octets
  rw [show f.data = _ from hdata]
  exact T.root_notMem_way ((T.mem_near _ _).mp hask.adjacent).1

/-- A frame to one node is on the air once. -/
theorem carried_to {w : UInt8} {g : Frame} (hnodup : (hears v).Nodup) (hw : w ∈ hears v)
    (hto : g.headerTo = w) (hbc : w ≠ broadcastAddress) : carried hears v [g] = [(w, g)] := by
  have hfilter : ((hears v).filter fun u => g.headerTo = u) = [w] := by
    rw [hto]
    calc ((hears v).filter fun u => w = u)
        = (hears v).filter fun u => u = w := List.filter_congr fun u _ => by
          rw [decide_eq_decide]
          exact eq_comm
      _ = [w] := by rw [List.filter_eq, List.count_eq_one_of_mem hnodup hw, List.replicate_one]
  rw [carried_unicast (hto ▸ hbc), hfilter]
  rfl

/-- The node above it is nothing new to a node that idles. -/
theorem Idles.above (hidle : Idles s f t)
    (htold : f.headerFrom = T.up v → s.seenIds (T.up v) = f.headerId) :
    t.seenIds (T.up v) = s.seenIds (T.up v) := by
  rcases hidle.seenIds (T.up v) with heq | ⟨hup, heq⟩
  · exact heq
  · rw [heq, htold hup.symm]

/-- A node that idles changes nothing for the nodes between `source` and `target`. -/
theorem Asks.aside (hask : Asks T node target net.node (v, f))
    (hlay : Layout nodes hears source target) (hb : Becomes hears net v t net')
    (hwaits : WaitsOn net net') (hidle : Idles (net.node v) f t)
    (habove : v ≠ source → t.seenIds (T.up v) = (net.node v).seenIds (T.up v)) :
    Aside T node target net net' := by
  refine ⟨hwaits, ?_, ?_, ?_, ?_⟩
  · intro i _
    exact hb.keeps (P := fun w s => w = T.climb target i → s.lastSequenceNumber =
      (net.node (T.climb target i)).lastSequenceNumber)
      (fun hold hw => hidle.lastSequenceNumber.trans (hold hw)) (fun _ => rfl) rfl
  · intro i _
    exact hb.keeps (P := fun w s => w = T.climb target i → s.routes =
      (net.node (T.climb target i)).routes)
      (fun hold hw => hidle.routes.trans (hold hw)) (fun _ => rfl) rfl
  · intro i hi
    by_cases hv : T.climb target i = v
    · have hne : v ≠ source := hv ▸ T.climb_ne_root hlay.target_mem hi
      rw [T.climb_succ, hv, hb.self]
      exact habove hne
    · rw [hb.other hv]
  · intro i hi
    by_cases hv : T.climb target (i + 1) = v
    · -- it may have heard the request of the node below, which is not the target
      have hid : f.headerId = (node f.headerFrom).lastSequenceNumber + 1 := hask.headerId
      rw [hv, hb.self]
      refine (hidle.seenIds (T.climb target i)).imp_right ?_
      rintro ⟨hfrom, heq⟩
      refine ⟨?_, by rw [heq, hid, hfrom]⟩
      rintro rfl
      exact hask.ne_target hfrom.symm
    · rw [hb.other hv]
      exact .inl rfl

/-- A request is of no use to the node that hears it. -/
theorem Wave.idle (h : Wave T node target q net) (hlay : Layout nodes hears source target)
    (hask : Asks T node target net.node (v, f)) (hlen : f.data.length < maxMessageLen)
    (hold : v ≠ source → f.headerFrom = T.up v → Told T node v (net.node v))
    (hinv : Inv nodes hears source target (handle hears source target net v f)) :
    Aside T node target net (handle hears source target net v f) ∧
      Wave T node target q (handle hears source target net v f) ∧
      (handle hears source target net v f).air = net.air ∧
      pending T node (handle hears source target net v f).node ≤ pending T node net.node := by
  obtain ⟨t, hb, hwaits, hidle⟩ := hask.idle h.inv hlen.le hold
  set net' := handle hears source target net v f
  clear_value net'
  have hmem : v ∈ nodes := ((T.mem_near _ _).mp hask.adjacent).2.1
  -- what it has seen of the node above it is the request, before and afterwards
  have habove : v ≠ source → t.seenIds (T.up v) = (net.node v).seenIds (T.up v) := by
    intro hv
    refine hidle.above ?_
    intro hup
    have hid : f.headerId = (node f.headerFrom).lastSequenceNumber + 1 := hask.headerId
    rw [hid, hup]
    exact hold hv hup
  have hquiet : v ≠ source → (Quiet T node v t ↔ Quiet T node v (net.node v)) := by
    intro hv
    rw [Quiet, Quiet, hidle.lastSequenceNumber, habove hv]
  -- it sends nothing, so that the air stays as it is
  have hsent : t.sent = (net.node v).sent ++ [] := hidle.sent.trans (List.append_nil _).symm
  refine ⟨hask.aside hlay hb hwaits hidle habove, ?_, ?_, ?_⟩
  · refine (List.append_nil q) ▸ h.become hb hinv hidle.maxHops ?_ ?_ ?_ hsent [] []
      rfl (fun _ hp => absurd hp List.not_mem_nil)
    · intro i hi
      rw [hidle.tmpMessage i hi]
      exact stored_ne hask.source_notMem (h.buffer v) hi
    · intro _ hv
      refine (h.status v hmem hv).imp (hquiet hv).mpr ?_
      rw [Told, Told, habove hv]
      exact id
    · rw [Spoken, Spoken, hidle.lastSequenceNumber]
      exact id
  · exact (hb.air_eq hsent).trans (List.append_nil _)
  · rw [hb.node]
    exact pending_update_le fun hv => (hquiet hv).mp

/-- A node hears of the request for the first time. -/
structure Learns (T : Rooted nodes hears source) (node : UInt8 → RHMesh) (net : MeshNet)
    (v : UInt8) (t : RHMesh) (net' : MeshNet) : Prop where
  becomes : Becomes hears net v t net'
  waits : WaitsOn net net'
  told : Told T node v t
  seenIds : ∀ u, u ≠ T.up v → t.seenIds u = (net.node v).seenIds u
  pending : pending T node net'.node + (hears v).length ≤ pending T node net.node
  nextHop : t.routes.nextHop source = some (T.up v)

theorem Wave.learns (h : Wave T node target q net) (hlay : Layout nodes hears source target)
    (hr : TreeReady T node target) (hask : Asks T node target net.node (v, f)) (hv : v ≠ source)
    (hup : f.headerFrom = T.up v) (hquiet : Quiet T node v (net.node v))
    (hb : Becomes hears net v t net') (hwaits : WaitsOn net net')
    {out : Option (UInt8 × List UInt8)}
    (hh : Handled (net.node v) f (source :: T.way (T.up v)) out t) :
    Learns T node net v t net' := by
  have hmem : v ∈ nodes := ((T.mem_near _ _).mp hask.adjacent).2.1
  have hid : f.headerId = (node f.headerFrom).lastSequenceNumber + 1 := hask.headerId
  have htold : Told T node v t := by
    rw [Told, hh.seenIds, hup, Function.update_self, hid, hup]
  refine ⟨hb, hwaits, htold, ?_, ?_, ?_⟩
  · intro u hu
    rw [hh.seenIds, hup, Function.update_of_ne hu]
  · rw [hb.node]
    refine pending_update_lt hmem hv hquiet ?_
    rintro ⟨-, hseen⟩
    exact (hr.news _ v (hup ▸ hask.adjacent)).1 (hseen.symm.trans htold)
  · rw [hh.routes, nextHop_routesAfter hlay.card_insert (h.inv.known v)
      (way_subset T hlay (T.up_mem v hmem hv)), if_pos List.mem_cons_self, hup]

/-- The target answers. -/
theorem Wave.answer (h : Wave T node target q net) (hlay : Layout nodes hears source target)
    (hr : TreeReady T node target) (hask : Asks T node target net.node (target, f))
    (hlen : f.data.length < maxMessageLen) (hup : f.headerFrom = T.up target)
    (hquiet : Quiet T node target (net.node target))
    (hinv : Inv nodes hears source target (handle hears source target net target f)) :
    ∃ t g, Learns T node net target t (handle hears source target net target f) ∧
      Wave T node target (q ++ [(T.up target, g)]) (handle hears source target net target f) ∧
      (handle hears source target net target f).air = net.air ++ [(T.up target, g)] ∧
      t.lastSequenceNumber = (node target).lastSequenceNumber + 1 ∧ ¬ g.IsAck ∧
      g.headerFrom = target ∧ g.headerId = (node target).lastSequenceNumber + 1 ∧
      ∃ id flags, g.data =
        discovery source target 0 id flags typeResponse target (T.way (T.up target)) := by
  have hv := hlay.ne.symm
  obtain ⟨t, out, hb, hwaits, hh, hout, -⟩ :=
    hask.new hlay hr h.inv hlen hv hup hquiet (h.maxHops target)
  obtain ⟨id, rfl⟩ := hout rfl
  have hl := h.learns hlay hr hask hv hup hquiet hb hwaits hh
  set net' := handle hears source target net target f
  clear_value net'
  obtain ⟨flags, hack, hsent⟩ := hh.sent
  rw [Option.map_some, Option.toList_some, h.inv.txHeaderFrom, hquiet.1] at hsent
  have hseq : t.lastSequenceNumber = (node target).lastSequenceNumber + 1 := by
    rw [hh.lastSequenceNumber, hquiet.1]
    rfl
  have hnear : T.up target ∈ hears target := hlay.symm _ _ (hup ▸ hask.adjacent)
  set g : Frame := ⟨T.up target, target, (node target).lastSequenceNumber + 1, flags,
    discovery source target 0 id 0 typeResponse target (T.way (T.up target))⟩
  have hcarried : carried hears target [g] = [(T.up target, g)] := carried_to (T.nodup target)
    hnear rfl (ne_of_mem_of_not_mem (T.up_mem _ hlay.target_mem hv) hlay.broadcast)
  refine ⟨t, g, hl, ?_, ?_, hseq, not_not.mpr hack, rfl, rfl, id, 0, rfl⟩
  · refine h.become hb hinv hh.maxHops ?_ (fun _ _ => .inr hl.told) (fun _ => .inl hseq) hsent
      _ [] (hcarried.trans (List.append_nil _).symm)
      (fun _ hp => absurd hp List.not_mem_nil)
    intro i hi
    refine tmpMessage_ne hh hask.source_notMem (h.buffer target) ?_ hi
    intro o ho
    rw [← Option.mem_some.mp ho]
    exact T.root_notMem_way (T.up_mem _ hlay.target_mem hv)
  · rw [hb.air_eq hsent, hcarried]

/-- Any other node sends the request on, if it has the hops. -/
theorem Wave.relay (h : Wave T node target q net) (hlay : Layout nodes hears source target)
    (hr : TreeReady T node target) (hask : Asks T node target net.node (v, f))
    (hlen : f.data.length < maxMessageLen) (hv : v ≠ source) (hne : v ≠ target)
    (hup : f.headerFrom = T.up v) (hquiet : Quiet T node v (net.node v))
    (hinv : Inv nodes hears source target (handle hears source target net v f)) :
    ∃ t, Learns T node net v t (handle hears source target net v f) ∧
      Wave T node target q (handle hears source target net v f) ∧
      (handle hears source target net v f).air.length ≤ net.air.length + (hears v).length ∧
      (∀ p ∈ net.air, p ∈ (handle hears source target net v f).air) ∧
      (T.depth v < T.depth target →
        t.lastSequenceNumber = (node v).lastSequenceNumber + 1 ∧
          ∀ w ∈ hears v, ∃ g, (w, g) ∈ (handle hears source target net v f).air ∧
            g.headerFrom = v) := by
  obtain ⟨t, out, hb, hwaits, hh, -, hout⟩ :=
    hask.new hlay hr h.inv hlen hv hup hquiet (h.maxHops v)
  have hl := h.learns hlay hr hask hv hup hquiet hb hwaits hh
  set net' := handle hears source target net v f
  clear_value net'
  have hmem : v ∈ nodes := ((T.mem_near _ _).mp hask.adjacent).2.1
  -- what it sends is its first message
  obtain ⟨flags, hack, hsent⟩ := hh.sent
  rw [h.inv.txHeaderFrom, hquiet.1] at hsent
  have hseq := hh.lastSequenceNumber
  rw [hquiet.1] at hseq
  have hair := hb.air_eq hsent
  rcases hout hne with ⟨id, rfl⟩ | ⟨rfl, hend⟩
  · -- the request with its own name is on the air to each of its neighbours
    rw [Option.map_some, Option.toList_some] at hsent hair
    set g : Frame := ⟨broadcastAddress, v, (node v).lastSequenceNumber + 1, flags,
      discovery broadcastAddress source 0 id 0 typeRequest target (T.way v)⟩
    rw [carried_broadcast rfl] at hair
    refine ⟨t, hl, ?_, ?_, ?_, fun _ => ⟨hseq, ?_⟩⟩
    · refine (List.append_nil q) ▸ h.become hb hinv hh.maxHops ?_
        (fun _ _ => .inr hl.told) (fun _ => .inl hseq) hsent [] _ (carried_broadcast rfl) ?_
      · intro i hi
        refine tmpMessage_ne hh hask.source_notMem (h.buffer v) ?_ hi
        intro o ho
        rw [← Option.mem_some.mp ho]
        exact T.root_notMem_way hmem
      · -- as a request on its way along the edges at the node
        intro p hp
        obtain ⟨w, hw, rfl⟩ := List.mem_map.mp hp
        refine ⟨hw, hne, not_not.mpr hack, ⟨id, 0, rfl⟩, rfl, ?_⟩
        show Spoken node v (net'.node v)
        rw [hb.self]
        exact .inl hseq
    · rw [hair, List.length_append, List.length_map]
    · rw [hair]
      exact fun p hp => List.mem_append_left _ hp
    · intro w hw
      refine ⟨g, ?_, rfl⟩
      rw [hair]
      exact List.mem_append_right _ (List.mem_map.mpr ⟨w, hw, rfl⟩)
  · -- the hops are used up: the node has learned the route, and sends nothing
    rw [Option.map_none, Option.toList_none] at hsent hair
    rw [show carried hears v [] = [] from rfl, List.append_nil] at hair
    refine ⟨t, hl, ?_, ?_, ?_, fun hlt => absurd hlt hend⟩
    · refine (List.append_nil q) ▸ h.become hb hinv hh.maxHops ?_
        (fun _ _ => .inr hl.told) ?_ hsent [] [] rfl (fun _ hp => absurd hp List.not_mem_nil)
      · exact fun i => tmpMessage_ne hh hask.source_notMem (h.buffer v)
          (fun o ho => absurd ho (Option.not_mem_none o))
      · exact fun hspoken => absurd hquiet hspoken.not_quiet
    · rw [hair]
      exact Nat.le_add_right _ _
    · rw [hair]
      exact fun p hp => hp

/-- A node to the side hears the request. -/
theorem Learns.aside (h : Learns T node net v t net')
    (hoff : ∀ i ≤ T.depth target, T.climb target i ≠ v) : Aside T node target net net' where
  toWaitsOn := h.waits
  sequence i hi := by rw [h.becomes.other (hoff i hi.le)]
  routes i hi := by rw [h.becomes.other (hoff i hi)]
  above i hi := by rw [h.becomes.other (hoff i hi.le)]
  below i hi := by
    rw [h.becomes.other (hoff (i + 1) hi)]
    exact .inl rfl

/-- The request is no news to the node that hears it. -/
theorem not_new (h : Wave T node target q net) (hask : Asks T node target net.node (v, f))
    (hnew : ¬ (v ≠ source ∧ f.headerFrom = T.up v ∧ Quiet T node v (net.node v))) :
    v ≠ source → f.headerFrom = T.up v → Told T node v (net.node v) := by
  intro hv hup
  have hmem : v ∈ nodes := ((T.mem_near _ _).mp hask.adjacent).2.1
  exact (h.status v hmem hv).resolve_left fun hquiet => hnew ⟨hv, hup, hquiet⟩

/-- A frame on the air besides the one taken. -/
theorem mem_eraseIdx {i : ℕ} {r : UInt8 × Frame} (hget : net.air[i]? = some p) (hr : r ∈ net.air)
    (hne : r ≠ p) : r ∈ net.air.eraseIdx i := by
  obtain ⟨hi, rfl⟩ := List.getElem?_eq_some_iff.mp hget
  have hmem := (List.getElem_cons_eraseIdx_perm hi).symm.subset hr
  exact (List.mem_cons.mp hmem).resolve_left hne

theorem length_eraseIdx {i : ℕ} (hget : net.air[i]? = some p) :
    net.air.length = (net.air.eraseIdx i).length + 1 := by
  obtain ⟨hi, -⟩ := List.getElem?_eq_some_iff.mp hget
  rw [List.length_eraseIdx_of_lt hi]
  omega

end MeshNet
