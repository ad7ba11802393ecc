/-
The link ids of mesh nodes, and what a neighbour has seen of them.

A node numbers its frames from one octet, and its neighbours take a frame for a
repetition if it has the number of the last one they have seen.  As long as the
numbers do not wrap, the next frame of a node is therefore new to everyone who
has heard it before.

* `Used` — the numbers a node has used;
* `Uses` — the node has used some more, for what it has sent;
* `handle_uses` — it uses three at most on account of a frame;
* `Ids`, `run_ids` — the numbers in a network;
* `Ids.next_isNew` — the next frame is new.
-/
import RadioHead.MeshNetwork
import RadioHead.Neighbours

open Run

/-- `id` is among the `c` numbers after `first`. -/
def Used (first : UInt8) (c : ℕ) (id : UInt8) : Prop :=
  ∃ i, 1 ≤ i ∧ i ≤ c ∧ id = first + UInt8.ofNat i

section Used

variable {first id : UInt8} {c c' : ℕ}

theorem Used.mono (h : Used first c id) (hle : c ≤ c') : Used first c' id := by
  obtain ⟨i, h1, hi, hid⟩ := h
  exact ⟨i, h1, hi.trans hle, hid⟩

theorem Used.shift (h : Used (first + UInt8.ofNat c) c' id) : Used first (c + c') id := by
  obtain ⟨i, h1, hi, hid⟩ := h
  refine ⟨c + i, by omega, by omega, ?_⟩
  rw [hid, UInt8.ofNat_add, UInt8.add_assoc]

/-- The next number is not among them. -/
theorem Used.next_ne (h : Used first c id) (hc : c < 255) :
    first + UInt8.ofNat c + 1 ≠ id := by
  obtain ⟨i, h1, hi, rfl⟩ := h
  rw [UInt8.add_assoc, show UInt8.ofNat c + 1 = UInt8.ofNat (c + 1) from
    (UInt8.ofNat_add c 1).symm]
  intro heq
  have heq := congrArg UInt8.toNat (add_left_cancel heq)
  rw [UInt8.toNat_ofNat_of_lt' (show c + 1 < 256 by omega),
    UInt8.toNat_ofNat_of_lt' (show i < 256 by omega)] at heq
  omega

end Used

namespace RHRouter

variable {β : Type} {link : List Frame → LinkAnswer} {s t u : RHRouter β} {m n : ℕ}

/-- From `s` to `t` the node has sent frames of its own, under the next numbers;
it has used `n` of them at most. -/
structure Counts (n : ℕ) (s t : RHRouter β) : Prop where
  thisAddress : t.thisAddress = s.thisAddress
  txHeaderFrom : t.txHeaderFrom = s.txHeaderFrom
  maxHops : t.maxHops = s.maxHops
  used : ∃ c ≤ n, t.lastSequenceNumber = s.lastSequenceNumber + UInt8.ofNat c ∧
    ∃ out, t.sent = s.sent ++ out ∧
      ∀ g ∈ out, g.headerFrom = s.txHeaderFrom ∧ Used s.lastSequenceNumber c g.headerId

/-- It has not taken any from the link. -/
structure Uses (n : ℕ) (s t : RHRouter β) : Prop extends Counts n s t where
  seenIds : t.seenIds = s.seenIds

/-- None are used. -/
theorem Counts.quiet (hthis : t.thisAddress = s.thisAddress)
    (hfrom : t.txHeaderFrom = s.txHeaderFrom) (hm : t.maxHops = s.maxHops)
    (hseq : t.lastSequenceNumber = s.lastSequenceNumber) (hs : t.sent = s.sent) :
    Counts n s t where
  thisAddress := hthis
  txHeaderFrom := hfrom
  maxHops := hm
  used := by
    refine ⟨0, Nat.zero_le n, ?_, [], by rw [hs, List.append_nil], ?_⟩
    · rw [hseq]
      exact (UInt8.add_zero _).symm
    · exact fun g hg => absurd hg List.not_mem_nil

theorem Uses.quiet (hd : t.toRHReliableDatagram = s.toRHReliableDatagram)
    (hm : t.maxHops = s.maxHops) (hs : t.sent = s.sent) : Uses n s t where
  toCounts := .quiet (by rw [hd]) (by rw [hd]) hm (by rw [hd]) hs
  seenIds := by rw [hd]

theorem Counts.trans (h : Counts m s t) (h' : Counts n t u) : Counts (m + n) s u where
  thisAddress := h'.thisAddress.trans h.thisAddress
  txHeaderFrom := h'.txHeaderFrom.trans h.txHeaderFrom
  maxHops := h'.maxHops.trans h.maxHops
  used := by
    obtain ⟨c, hc, hseq, out, hsent, hout⟩ := h.used
    obtain ⟨c', hc', hseq', out', hsent', hout'⟩ := h'.used
    refine ⟨c + c', Nat.add_le_add hc hc', ?_, out ++ out', ?_, ?_⟩
    · rw [hseq', hseq, UInt8.ofNat_add, UInt8.add_assoc]
    · rw [hsent', hsent, List.append_assoc]
    · intro g hg
      rcases List.mem_append.mp hg with hg | hg
      · exact ⟨(hout g hg).1, (hout g hg).2.mono (Nat.le_add_right c c')⟩
      · obtain ⟨hfrom, hid⟩ := hout' g hg
        rw [hseq] at hid
        exact ⟨hfrom.trans h.txHeaderFrom, hid.shift⟩

theorem Uses.trans (h : Uses m s t) (h' : Uses n t u) : Uses (m + n) s u where
  toCounts := h.toCounts.trans h'.toCounts
  seenIds := h'.seenIds.trans h.seenIds

theorem Uses.mono (h : Uses m s t) (hle : m ≤ n) : Uses n s t := by
  obtain ⟨c, hc, hused⟩ := h.used
  exact ⟨⟨h.thisAddress, h.txHeaderFrom, h.maxHops, c, hc.trans hle, hused⟩, h.seenIds⟩

/-- A message takes one number, whether the driver takes it or not. -/
theorem linkSendtoWait_uses (link : List Frame → LinkAnswer) (s : RHRouter β) (buf : List UInt8)
    (address : UInt8) : Uses 1 s (s.linkSendtoWait link buf address).2 := by
  have hused : ∃ c ≤ 1, s.lastSequenceNumber + 1 = s.lastSequenceNumber + UInt8.ofNat c ∧
      ∃ out, (s.linkSendtoWait link buf address).2.sent = s.sent ++ out ∧
        ∀ g ∈ out, g.headerFrom = s.txHeaderFrom ∧ Used s.lastSequenceNumber c g.headerId := by
    refine ⟨1, le_rfl, rfl, _, linkSendtoWait_sent s buf address, ?_⟩
    intro g hg
    obtain ⟨hfrom, -, hid, -⟩ := RHReliableDatagram.attempt_frame (Option.mem_toList.mp hg)
    exact ⟨hfrom, 1, le_rfl, le_rfl, hid⟩
  rw [linkSendtoWait] at hused ⊢
  split at hused
  · rw [if_pos ‹_›]
    exact ⟨⟨rfl, rfl, rfl, hused⟩, rfl⟩
  · rw [if_neg ‹_›]
    exact ⟨⟨rfl, rfl, rfl, hused⟩, rfl⟩

theorem route_uses (link : List Frame → LinkAnswer) (s : RHRouter β) (messageLen : UInt8) :
    Uses 1 s (s.route link messageLen).2 := by
  rcases hnext : s.nextHop with _ | hop
  · rw [route_noRoute hnext]
    exact .quiet rfl rfl rfl
  · rw [route_hop hnext]
    have hnote : Uses 0 s (s.note [.octet 0, .upTo messageLen.toNat]) := .quiet rfl rfl rfl
    exact (hnote.trans (linkSendtoWait_uses link _ _ hop)).mono (by omega)

theorem sendtoFromSourceWait_uses {route : RHRouter β → UInt8 → RouterError × RHRouter β}
    (hroute : ∀ s messageLen, Uses n s (route s messageLen).2) (s : RHRouter β)
    (buf : List UInt8) (dest source flags : UInt8) :
    Uses n s (s.sendtoFromSourceWait route buf dest source flags).2 := by
  by_cases hlen : buf.length + routedHeaderLen ≤ maxMessageLen
  · have hcomposed : Uses 0 s (s.composed buf dest source flags) := .quiet rfl rfl rfl
    rw [sendtoFromSourceWait_eq s dest source flags route hlen]
    exact (hcomposed.trans (hroute _ _)).mono (by omega)
  · rw [sendtoFromSourceWait, if_pos (not_le.mp hlen)]
    exact .quiet rfl rfl rfl

end RHRouter

namespace RHMesh

open RHRouter

variable {link : List Frame → LinkAnswer} {s : RHMesh} {f : Frame}

/-! ### One node -/

/-- The message, and the report if it could not be sent. -/
theorem routeFuel_uses (link : List Frame → LinkAnswer) (fuel : ℕ) (s : RHMesh) (n : UInt8) :
    Uses (fuel + 1) s (routeFuel link fuel s n).2 := by
  induction fuel generalizing s n with
  | zero => exact RHRouter.route_uses link s n
  | succ fuel ih =>
    have hroute := RHRouter.route_uses link s n
    by_cases hfail : Fails (RHRouter.route link s n).1
    · have hdropped : Uses 0 (RHRouter.route link s n).2 (dropped link s n) := .quiet rfl rfl rfl
      by_cases hown : s.tmpMessage 1 = s.thisAddress
      · rw [routeFuel_dropped link fuel hfail hown]
        exact (hroute.trans hdropped).mono (by omega)
      · have hreporting : Uses 0 (dropped link s n) (reporting link s n) := .quiet rfl rfl rfl
        rw [routeFuel_reported link fuel hfail hown]
        have hreport := sendtoFromSourceWait_uses ih (reporting link s n) s.failureReport
          (s.tmpMessage 1) (reporting link s n).thisAddress 0
        exact (((hroute.trans hdropped).trans hreporting).trans hreport).mono (by omega)
    · rw [routeFuel_passed link fuel hfail]
      exact hroute.mono (by omega)

theorem route_uses (link : List Frame → LinkAnswer) (s : RHMesh) (n : UInt8) :
    Uses 3 s (route link s n).2 :=
  routeFuel_uses link 2 s n

theorem beginArp_uses (link : List Frame → LinkAnswer) (s : RHMesh) (address : UInt8) :
    Uses 3 s (beginArp link s address).2 := by
  have hstore : Uses 0 s (store s 0 [typeRequest, 1, address]) := .quiet rfl rfl rfl
  rw [beginArp]
  exact (hstore.trans (sendtoFromSourceWait_uses (route_uses link) _ _ _ _ _)).mono (by omega)

theorem answerRequest_uses (link : List Frame → LinkAnswer) (s : RHMesh)
    (source tmpMessageLen numRoutes : UInt8) :
    Uses 3 s (answerRequest link s source tmpMessageLen numRoutes) := by
  rw [answerRequest]
  dsimp only
  split
  · have hstore : Uses 0 s (store (s.note (physicalAccesses s)) 0 [typeResponse]) :=
      .quiet rfl rfl rfl
    exact (hstore.trans (sendtoFromSourceWait_uses (route_uses link) _ _ _ _ _)).mono (by omega)
  · split
    · have hstore : Uses 0 s (store (s.note (physicalAccesses s ++
          [.upTo (routeOctet + numRoutes.toNat + 1)])) (3 + numRoutes.toNat) [s.thisAddress]) :=
        .quiet rfl rfl rfl
      exact (hstore.trans (sendtoFromSourceWait_uses (route_uses link) _ _ _ _ _)).mono (by omega)
    · exact .quiet rfl rfl rfl

theorem learn_uses (route : ℕ → UInt8) (idx : List ℕ) (s : RHMesh) :
    Uses 0 s (learn s route idx) := by
  induction idx generalizing s with
  | nil => exact .quiet rfl rfl rfl
  | cons i idx ih =>
    have hadd : Uses 0 s ((s.note [.octet (routeOctet + i)]).addRouteTo (route i)
      (s.note [.octet (routeOctet + i)]).rxHeaderFrom) := .quiet rfl rfl rfl
    exact hadd.trans (ih _)

theorem handleRequest_uses (link : List Frame → LinkAnswer) (s : RHMesh)
    (source tmpMessageLen : UInt8) : Uses 3 s (handleRequest link s source tmpMessageLen) := by
  rw [handleRequest]
  dsimp only
  split
  · exact .quiet rfl rfl rfl
  · split
    · exact .quiet rfl rfl rfl
    · refine Uses.mono (m := 0 + 3) ?_ (by omega)
      refine Uses.trans ?_ (answerRequest_uses link _ _ _ _)
      refine Uses.trans (m := 0) (n := 0) ?_ (learn_uses _ _ _)
      exact .quiet rfl rfl rfl

theorem handleReceived_uses (link : List Frame → LinkAnswer) (s : RHMesh) (r : Received)
    (len : UInt8) : Uses 3 s (handleReceived link s r len).2 := by
  rw [handleReceived]
  dsimp only
  split
  · split
    · exact .quiet rfl rfl rfl
    · split
      · refine Uses.mono (m := 0 + 3) ?_ (by omega)
        refine Uses.trans ?_ (handleRequest_uses link _ _ _)
        exact .quiet rfl rfl rfl
      · exact .quiet rfl rfl rfl
  · exact .quiet rfl rfl rfl

theorem forward_uses (link : List Frame → LinkAnswer) (s : RHMesh) (n : UInt8) :
    Uses 3 s (s.forward (virtuals link) n) := by
  have hhopped : Uses 0 s s.hopped := .quiet rfl rfl rfl
  rw [forward_eq]
  split
  · exact (hhopped.trans (route_uses link s.hopped n)).mono (by omega)
  · exact hhopped.mono (by omega)

theorem peeked_uses (s : RHMesh) (f : Frame) : Uses 0 (s.taken f) (peeked s f) := by
  obtain ⟨t, a, h⟩ := peeked_eq s f
  rw [h]
  exact .quiet rfl rfl rfl

theorem router_uses (link : List Frame → LinkAnswer) (htakes : s.Takes f) (len : UInt8) :
    Uses 3 (s.taken f) (RHRouter.recvfromAck (virtuals link) s f len).2 := by
  have hpeeked := peeked_uses s f
  rw [recvfromAck_of_takes htakes]
  show Uses 3 (s.taken f) (Prod.snd (ite (peeked s f).Here _ _))
  split
  · have hdeliver : Uses 0 (peeked s f) ((peeked s f).deliver f.storedLen len).2 :=
      .quiet rfl rfl rfl
    exact (hpeeked.trans hdeliver).mono (by omega)
  · exact (hpeeked.trans (forward_uses link (peeked s f) f.storedLen)).mono (by omega)

theorem recvfromAck_uses (link : List Frame → LinkAnswer) (htakes : s.Takes f) (len : UInt8) :
    Uses 3 (s.taken f) (recvfromAck link s f len).2 := by
  have hpeeked := peeked_uses s f
  by_cases hhere : (peeked s f).Here
  · have hdeliver : Uses 0 (peeked s f) ((peeked s f).deliver f.storedLen meshMessageSize).2 :=
      .quiet rfl rfl rfl
    rw [recvfromAck_here htakes hhere]
    exact (hpeeked.trans (hdeliver.trans (handleReceived_uses link _ _ len))).mono (by omega)
  · rw [recvfromAck_away htakes hhere]
    exact (hpeeked.trans (forward_uses link (peeked s f) f.storedLen)).mono (by omega)

theorem arpReceive_uses (link : List Frame → LinkAnswer) (htakes : s.Takes f)
    (address messageLen : UInt8) :
    Uses 3 (s.taken f) (arpReceive link s address messageLen f).2.2 := by
  have h := router_uses link htakes messageLen
  rw [arpReceive]
  rcases hr : RHRouter.recvfromAck (virtuals link) s f messageLen with ⟨_ | r, t⟩
  · rw [hr] at h
    exact h
  · rw [hr] at h
    have hstore : Uses 0 t (store t 0 r.buf) := .quiet rfl rfl rfl
    have hadd : Uses 0 t ((store t 0 r.buf).addRouteTo address (store t 0 r.buf).rxHeaderFrom) :=
      .quiet rfl rfl rfl
    dsimp only
    split
    · exact h.trans hadd
    · exact h.trans hstore

/-- What a frame comes to, for the numbers and for what has been seen. -/
theorem handle_counts (s : RHMesh) (f : Frame) (d : MeshHandling) :
    Counts 3 s (s.handle f d) ∧
      (¬ s.Takes f ∧ (s.handle f d).seenIds = s.seenIds ∧ (s.handle f d).routes = s.routes ∨
        (s.handle f d).seenIds = Function.update s.seenIds f.headerFrom f.headerId) := by
  by_cases htakes : s.Takes f
  · have hhandle : Uses 3 (s.taken f) (s.handle f d) := by
      cases d with
      | recvfromAck link len => exact recvfromAck_uses link htakes len
      | arpReceive link address messageLen => exact arpReceive_uses link htakes address messageLen
    have htaken : Counts 0 s (s.taken f) := .quiet (taken_thisAddress s f)
      (taken_txHeaderFrom s f) rfl (taken_lastSequenceNumber s f) rfl
    refine ⟨(Nat.zero_add 3) ▸ htaken.trans hhandle.toCounts, .inr ?_⟩
    rw [hhandle.seenIds, taken_seenIds]
  · have hskipped : s.handle f d = s.skipped f := by
      cases d with
      | recvfromAck link len => exact congrArg Prod.snd (recvfromAck_of_not_takes htakes len)
      | arpReceive link address messageLen =>
        exact congrArg (·.2.2) (arpReceive_of_not_takes link htakes address messageLen)
    have hkeeps : (s.skipped f).seenIds = s.seenIds ∧
        (s.skipped f).lastSequenceNumber = s.lastSequenceNumber := by
      show RHReliableDatagram.seenIds (ite _ _ _) = _ ∧
        RHReliableDatagram.lastSequenceNumber (ite _ _ _) = _
      split <;> exact ⟨rfl, rfl⟩
    rw [hskipped]
    refine ⟨.quiet (skipped_thisAddress s f) (skipped_txHeaderFrom s f) rfl hkeeps.2 rfl, .inl ?_⟩
    exact ⟨htakes, hkeeps.1, rfl⟩

end RHMesh

namespace MeshNet

open RHMesh RHRouter

/-! ### The network -/

/-- The nodes `V` have used `c` numbers each; so have the frames on the air, and
what a node has seen last of one that it has a route over. -/
structure Ids (V : Set UInt8) (node : UInt8 → RHMesh) (c : UInt8 → ℕ) (net : MeshNet) : Prop where
  thisAddress : ∀ v ∈ V, (net.node v).thisAddress = v
  txHeaderFrom : ∀ v ∈ V, (net.node v).txHeaderFrom = v
  maxHops : ∀ v ∈ V, (net.node v).maxHops = (node v).maxHops
  sequence : ∀ v ∈ V,
    (net.node v).lastSequenceNumber = (node v).lastSequenceNumber + UInt8.ofNat (c v)
  seen : ∀ v ∈ V, (net.node v).routes.Over
    {u | Used (node u).lastSequenceNumber (c u) ((net.node v).seenIds u)}
  air : ∀ p ∈ net.air, p.1 ∈ V ∧
    Used (node p.2.headerFrom).lastSequenceNumber (c p.2.headerFrom) p.2.headerId

variable {V : Set UInt8} {hears : UInt8 → List UInt8} {source target : UInt8}
  {node : UInt8 → RHMesh} {c : UInt8 → ℕ} {net net' : MeshNet} {v w : UInt8} {f : Frame}

/-- The next frame of a node is new to every node that has a route over it. -/
theorem Ids.next_isNew (h : Ids V node c net) (hv : v ∈ V) (hw : w ∈ V) (hc : c v < 255)
    {d : UInt8} (hhop : (net.node w).routes.nextHop d = some v) :
    (net.node v).lastSequenceNumber + 1 ≠ (net.node w).seenIds v := by
  have hused : Used (node v).lastSequenceNumber (c v) ((net.node w).seenIds v) :=
    h.seen w hw d v hhop
  rw [h.sequence v hv]
  exact hused.next_ne hc

/-- One node uses some more numbers. -/
theorem Ids.become (h : Ids V node c net) (hv : v ∈ V) (hhears : ∀ w ∈ hears v, w ∈ V)
    {t : RHMesh} {n : ℕ} (ht : Counts n (net.node v) t)
    (hroutes : ∀ c' : UInt8 → ℕ, (∀ u, c u ≤ c' u) →
      t.routes.Over {u | Used (node u).lastSequenceNumber (c' u) (t.seenIds u)}) :
    ∃ c' : UInt8 → ℕ, (∀ u, c u ≤ c' u ∧ c' u ≤ c u + n) ∧
      Ids V node c' (net.become hears v t) := by
  obtain ⟨k, hk, hseq, out, hsent, hout⟩ := ht.used
  set c' := Function.update c v (c v + k) with hc'
  have hself : c' v = c v + k := Function.update_self ..
  have hother : ∀ u, u ≠ v → c' u = c u := fun u hu => Function.update_of_ne hu ..
  have hle : ∀ u, c u ≤ c' u := by
    intro u
    by_cases hu : u = v
    · rw [hu, hself]
      exact Nat.le_add_right _ _
    · rw [hother u hu]
  -- only one node is another one than before
  have hall : ∀ P : UInt8 → RHMesh → Prop, P v t → (∀ w ∈ V, w ≠ v → P w (net.node w)) →
      ∀ w ∈ V, P w ((net.become hears v t).node w) := by
    intro P hnew hold w hw
    show P w (Function.update net.node v t w)
    by_cases hwv : w = v
    · rw [hwv, Function.update_self]
      exact hnew
    · rw [Function.update_of_ne hwv]
      exact hold w hw hwv
  refine ⟨c', fun u => ⟨hle u, ?_⟩, ?_, ?_, ?_, ?_, ?_, ?_⟩
  · by_cases hu : u = v
    · rw [hu, hself]
      omega
    · rw [hother u hu]
      exact Nat.le_add_right _ _
  · exact hall (fun w s => s.thisAddress = w) (ht.thisAddress.trans (h.thisAddress v hv))
      fun w hw _ => h.thisAddress w hw
  · exact hall (fun w s => s.txHeaderFrom = w) (ht.txHeaderFrom.trans (h.txHeaderFrom v hv))
      fun w hw _ => h.txHeaderFrom w hw
  · exact hall (fun w s => s.maxHops = (node w).maxHops) (ht.maxHops.trans (h.maxHops v hv))
      fun w hw _ => h.maxHops w hw
  · refine hall (fun w s => s.lastSequenceNumber =
      (node w).lastSequenceNumber + UInt8.ofNat (c' w)) ?_ ?_
    · rw [hseq, h.sequence v hv, hself, UInt8.ofNat_add, UInt8.add_assoc]
    · intro w hw hwv
      rw [hother w hwv]
      exact h.sequence w hw
  · refine hall (fun _ s => s.routes.Over
      {u | Used (node u).lastSequenceNumber (c' u) (s.seenIds u)}) (hroutes c' hle) ?_
    intro w hw _ d hop hhop
    exact (h.seen w hw d hop hhop).mono (hle hop)
  · intro p hp
    rw [air_become hsent] at hp
    rcases List.mem_append.mp hp with hp | hp
    · exact ⟨(h.air p hp).1, (h.air p hp).2.mono (hle _)⟩
    · obtain ⟨hmem, hheard, -⟩ := mem_carried.mp hp
      obtain ⟨hfrom, hid⟩ := hout _ hmem
      rw [h.txHeaderFrom v hv] at hfrom
      refine ⟨hhears _ hheard, ?_⟩
      rw [hfrom, hself]
      rw [h.sequence v hv] at hid
      exact hid.shift

/-- A node handles a frame on the air. -/
theorem Ids.handles (h : Ids V node c net) (hv : v ∈ V) (hhears : ∀ w ∈ hears v, w ∈ V)
    (hf : Used (node f.headerFrom).lastSequenceNumber (c f.headerFrom) f.headerId)
    (d : MeshHandling) :
    ∃ c' : UInt8 → ℕ, (∀ u, c u ≤ c' u ∧ c' u ≤ c u + 3) ∧
      Ids V node c' (net.become hears v ((net.node v).handle f d)) := by
  obtain ⟨hcounts, hseen⟩ := handle_counts (net.node v) f d
  refine h.become hv hhears hcounts ?_
  intro c' hle
  rcases hseen with ⟨-, hseen, hroutes⟩ | hseen
  · rw [hseen, hroutes]
    intro d hop hhop
    exact (h.seen v hv d hop hhop).mono (hle hop)
  · rw [hseen]
    refine handle_over ?_ ?_ d
    · intro d hop hhop
      show Used _ _ (Function.update (net.node v).seenIds f.headerFrom f.headerId hop)
      by_cases hfrom : hop = f.headerFrom
      · rw [hfrom, Function.update_self]
        exact hf.mono (hle _)
      · rw [Function.update_of_ne hfrom]
        exact (h.seen v hv d hop hhop).mono (hle hop)
    · show Used _ _ (Function.update (net.node v).seenIds f.headerFrom f.headerId f.headerFrom)
      rw [Function.update_self]
      exact hf.mono (hle _)

/-- In the wait loop of `doArp` or not. -/
theorem handle_eq (hears : UInt8 → List UInt8) (source target : UInt8) (net : MeshNet) (v : UInt8)
    (f : Frame) : ∃ d arp heard resolved, handle hears source target net v f =
      { net.become hears v ((net.node v).handle f d) with
        arp := arp, heard := heard, resolved := resolved } := by
  rcases hw : net.waiting source v with _ | messageLen
  · rw [handle_recvfromAck hw]
    exact ⟨.recvfromAck (link hears v) meshMessageSize, _, _, _, rfl⟩
  · rw [handle_waiting hw]
    exact ⟨.arpReceive (link hears v) target messageLen, _, _, _, rfl⟩

theorem step_ids (hhears : ∀ v ∈ V, ∀ w ∈ hears v, w ∈ V) (h : Ids V node c net) {e : MeshEvent}
    (hstep : step hears source target net e = some net') :
    ∃ c' : UInt8 → ℕ, (∀ u, c u ≤ c' u ∧ c' u ≤ c u + 3) ∧ Ids V node c' net' := by
  cases e with
  | handle i =>
    obtain ⟨⟨v, f⟩, hp, rfl⟩ := Option.map_eq_some_iff.mp hstep
    obtain ⟨hv, hf⟩ := h.air _ (List.mem_of_getElem? hp)
    have hrest : Ids V node c { net with air := net.air.eraseIdx i } :=
      ⟨h.1, h.2, h.3, h.4, h.5, fun p hp => h.air p (List.mem_of_mem_eraseIdx hp)⟩
    obtain ⟨d, arp, heard, resolved, heq⟩ :=
      handle_eq hears source target { net with air := net.air.eraseIdx i } v f
    obtain ⟨c', hc', hids⟩ := hrest.handles hv (hhears v hv) hf d
    dsimp only
    rw [heq]
    exact ⟨c', hc', hids.1, hids.2, hids.3, hids.4, hids.5, hids.6⟩
  | lose i =>
    rw [step, Option.ite_none_right_eq_some, Option.some_inj] at hstep
    obtain ⟨-, rfl⟩ := hstep
    exact ⟨c, fun u => ⟨le_rfl, Nat.le_add_right _ _⟩, h.1, h.2, h.3, h.4, h.5,
      fun p hp => h.air p (List.mem_of_mem_eraseIdx hp)⟩
  | timeout =>
    rw [step, Option.ite_none_right_eq_some, Option.some_inj] at hstep
    obtain ⟨-, rfl⟩ := hstep
    exact ⟨c, fun u => ⟨le_rfl, Nat.le_add_right _ _⟩, h.1, h.2, h.3, h.4, h.5, h.6⟩

/-- When the request has been broadcast. -/
theorem start_ids (hhears : ∀ v ∈ V, ∀ w ∈ hears v, w ∈ V) (hfresh : ∀ v ∈ V, Fresh v (node v))
    (hsource : source ∈ V) :
    ∃ c : UInt8 → ℕ, (∀ u, c u ≤ 3) ∧ Ids V node c (start hears source target node) := by
  have hempty : ∀ v ∈ V, ∀ S, (node v).routes.Over S := by
    intro v hv S d hop hhop
    rw [(hfresh v hv).routes d] at hhop
    cases hhop
  have hnone : Ids V node (fun _ => 0) ⟨node, [], none, [], false⟩ :=
    ⟨fun v hv => (hfresh v hv).thisAddress, fun v hv => (hfresh v hv).txHeaderFrom,
      fun _ _ => rfl, fun _ _ => (UInt8.add_zero _).symm, fun v hv => hempty v hv _,
      fun p hp => absurd hp List.not_mem_nil⟩
  have hbegin := beginArp_uses (link hears source) (node source) target
  have hroutes : (beginArp (link hears source) (node source) target).2.routes =
      (node source).routes :=
    (beginArp_transmits (link hears source) (node source) target).2.routes
  obtain ⟨c, hc, hids⟩ := hnone.become hsource (hhears source hsource) hbegin.toCounts
    (fun c' _ => hroutes ▸ hempty source hsource _)
  refine ⟨c, fun u => ?_, hids.1, hids.2, hids.3, hids.4, hids.5, hids.6⟩
  exact (hc u).2.trans_eq (Nat.zero_add 3)

/-- Three numbers a step at most. -/
theorem run_ids (hhears : ∀ v ∈ V, ∀ w ∈ hears v, w ∈ V) {es : List MeshEvent}
    (h : Ids V node c net) (hrun : run (step hears source target) net es = some net') :
    ∃ c' : UInt8 → ℕ, (∀ u, c' u ≤ c u + 3 * es.length) ∧ Ids V node c' net' := by
  induction es generalizing c net with
  | nil =>
    rw [run_nil, Option.some_inj] at hrun
    exact ⟨c, fun u => Nat.le_add_right _ _, hrun ▸ h⟩
  | cons e es ih =>
    obtain ⟨net₁, hstep, hrun⟩ := run_cons.mp hrun
    obtain ⟨c₁, hc₁, h₁⟩ := step_ids hhears h hstep
    obtain ⟨c', hc', h'⟩ := ih h₁ hrun
    refine ⟨c', fun u => ?_, h'⟩
    have := hc' u
    have := (hc₁ u).2
    rw [List.length_cons]
    omega

end MeshNet
