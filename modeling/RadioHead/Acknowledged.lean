/-
What an acknowledgement says.

`sendtoWait` returns true when an acknowledgement with its sequence number
comes back.  `recvfromAck` acknowledges a message before it decides whether
the message is new, and returns it after that; it takes the message for an old
one if its number is the one last seen from the sender.  So a true result
means that the message was taken, or is about to be, provided the number
singles out the call when it starts.

* `Took` — a node has returned the message of a call, or is past its
  acknowledgement and will return it;
* `Fresh` — nothing at the two nodes or between them has the number of the
  next call;
* `Clauses` — what holds during a call that started so; `Clauses.move`;
* `Since` — what `recvfromAck` has returned since a state, it was called for
  since then;
* `acked_taken` — after a fresh call an acknowledged message was taken;
* `wrapped_ack` — the counter has wrapped around: an acknowledged message that
  nobody returns.
-/
import RadioHead.ReliableNetwork

open Run

namespace Net

/-- Node `b` has returned the message `m` of call `n` of node `a`, all of it or
as much as `recvfromAck` was given room for, or is past its acknowledgement and
will return it. -/
def Took (s : Net) (a b : UInt8) (n : ℕ) (m : List UInt8) : Prop :=
  (∃ len, ⟨b, a, some n, len, m.take len.toNat⟩ ∈ s.delivered) ∨
    ∃ f len, (s.node b).control = .acknowledged f len (m.take len.toNat) ∧ f.call = some n ∧
      f.frame.headerFrom = a ∧ f.frame.headerId ≠ s.seen a b

/-- No frame from `a` that `b` is not done with has the number of the next call
of `a`, nor was it the number last seen at `b`, nor is it acknowledged by a
frame on its way to `a`. -/
structure Fresh (s : Net) (a b : UInt8) : Prop where
  queue : ∀ f ∈ s.queue a b, ¬ f.frame.IsAck →
    f.frame.headerId ≠ (s.node a).datagram.lastSequenceNumber + 1
  acks : ∀ f ∈ s.queue b a, f.frame.IsAck →
    f.frame.headerId ≠ (s.node a).datagram.lastSequenceNumber + 1
  seen : s.seen a b ≠ (s.node a).datagram.lastSequenceNumber + 1

/-- During call `n` of `a`, which sends `m` to `b` under the number `i`: frames
with this number are of this call, and an acknowledgement of it or its being
the number last seen means that the message was taken. -/
structure Clauses (s : Net) (a b : UInt8) (n : ℕ) (m : List UInt8) (i : UInt8) : Prop where
  queue : ∀ f ∈ s.queue a b, ¬ f.frame.IsAck → f.frame.headerId = i → f.call = some n
  acks : ∀ f ∈ s.queue b a, f.frame.IsAck → f.frame.headerId = i → f.frame.headerTo = a →
    s.Took a b n m
  seen : s.seen a b = i → s.Took a b n m

/-! ### A message taken stays taken -/

theorem transmit_delivered (s : Net) (a : UInt8) (d : RHReliableDatagram) (buf : List UInt8)
    (address seq r : UInt8) : (s.transmit a d buf address seq r).delivered = s.delivered := by
  rw [transmit, send_delivered, settle]
  split_ifs <;> rfl

/-- Deliveries are only ever added. -/
theorem Move.delivered {s s' : Net} {e : NetEvent} (hm : Move s e s') :
    s.delivered <+: s'.delivered := by
  have haccept : ∀ (s : Net) b d f len copied,
      s.delivered <+: (s.accept b d f len copied).delivered := by
    intro s b d f len copied
    rw [accept]
    split_ifs
    · exact List.prefix_append _ _
    · exact List.prefix_refl _
  have hacknowledge : ∀ (s : Net) b d f c, (s.acknowledge b d f c).delivered = s.delivered :=
    fun s b d f c => send_delivered _ _
  cases hm with
  | start a d buf address =>
    rw [transmit_delivered]
    exact List.prefix_refl _
  | retry a d buf address seq r => rw [transmit_delivered]
  | giveUp => exact List.prefix_refl _
  | acked => exact List.prefix_refl _
  | reack =>
    rw [hacknowledge]
    exact List.prefix_refl _
  | drop => exact List.prefix_refl _
  | hold =>
    rw [hacknowledge]
    exact List.prefix_refl _
  | broadcast a b d f rest len => exact haccept (s.setLink a b rest) b d f len _
  | finish b d f len copied => exact haccept s b d f len copied

/-- What a node holds is a frame that it is not done with. -/
theorem mem_queue_of_held {s : Net} {b : UInt8} {f : InFlight} {len : UInt8} {copied : List UInt8}
    (hb : (s.node b).control = .acknowledged f len copied) :
    f ∈ s.queue f.frame.headerFrom b := by
  refine List.mem_append_left _ ?_
  rw [heldFrom, hb]
  dsimp only
  rw [if_pos rfl]
  exact List.mem_singleton_self f

/-- A step delivers one of the frames that a node is not done with, at most: the
one that `recvfromAck` has just received, or the one it holds. -/
theorem Move.delivers {s s' : Net} (hinv : Inv s) {e : NetEvent} (hm : Move s e s') :
    s'.delivered = s.delivered ∨ ∃ b f len, f ∈ s.queue f.frame.headerFrom b ∧ ¬ f.frame.IsAck ∧
      (e = .recvfromAck f.frame.headerFrom b len ∨
        (s.node b).control = .acknowledged f len (f.frame.data.take len.toNat)) ∧
      s'.delivered = s.delivered ++
        [⟨b, f.frame.headerFrom, f.call, len, f.frame.data.take len.toNat⟩] := by
  have haccept : ∀ (s : Net) b d f len copied,
      (s.accept b d f len copied).delivered = s.delivered ∨
      (s.accept b d f len copied).delivered =
        s.delivered ++ [⟨b, f.frame.headerFrom, f.call, len, copied⟩] := by
    intro s b d f len copied
    rw [accept]
    split_ifs
    · exact .inr rfl
    · exact .inl rfl
  cases hm with
  | start a d buf address => exact .inl (transmit_delivered _ _ _ _ _ _ _)
  | retry a d buf address seq r => exact .inl (transmit_delivered _ _ _ _ _ _ _)
  | giveUp => exact .inl rfl
  | acked => exact .inl rfl
  | reack => exact .inl (send_delivered _ _)
  | drop => exact .inl rfl
  | hold => exact .inl (send_delivered _ _)
  | broadcast a b d f rest len hn hl hack =>
    have hmem : f ∈ s.queue a b := List.mem_append_right _ (hl ▸ List.mem_cons_self)
    obtain rfl := (hinv.pairs a b).sender f hmem
    rcases haccept (s.setLink _ b rest) b d f len (f.frame.data.take len.toNat) with h | h
    · exact .inl h
    · exact .inr ⟨b, f, len, hmem, hack, .inl rfl, h⟩
  | finish b d f len copied hn =>
    have hok := hinv.nodes b
    rw [hn] at hok
    obtain ⟨-, -, hack, rfl⟩ := hok
    rcases haccept s b d f len (f.frame.data.take len.toNat) with h | h
    · exact .inl h
    · have hb : (s.node b).control = .acknowledged f len (f.frame.data.take len.toNat) := by rw [hn]
      exact .inr ⟨b, f, len, mem_queue_of_held hb, hack, .inr hb, h⟩

/-- What a node holds it held before, or `recvfromAck` has just received it. -/
theorem Move.holds {s s' : Net} (hinv : Inv s) {e : NetEvent} (hm : Move s e s') {b : UInt8}
    {f : InFlight} {len : UInt8} {copied : List UInt8}
    (hb : (s'.node b).control = .acknowledged f len copied) :
    (s.node b).control = .acknowledged f len copied ∨
      e = .recvfromAck f.frame.headerFrom b len := by
  -- a node that a step brings to another point is not past an acknowledgement
  have hset : ∀ {s : Net} {a : UInt8} {n : Node},
      ((s.setNode a n).node b).control = .acknowledged f len copied →
      (∀ f len copied, n.control ≠ .acknowledged f len copied) →
      (s.node b).control = .acknowledged f len copied := by
    intro s a n hc hn
    by_cases hba : b = a
    · subst hba
      rw [setNode_node] at hc
      exact absurd hc (hn _ _ _)
    · rwa [setNode_node_of_ne hba] at hc
  have htransmit : ∀ {s : Net} {a : UInt8} {d : RHReliableDatagram} {buf : List UInt8}
      {address seq r : UInt8},
      ((s.transmit a d buf address seq r).node b).control = .acknowledged f len copied →
      (s.node b).control = .acknowledged f len copied := by
    intro s a d buf address seq r hc
    rw [transmit, send_node, settle] at hc
    split_ifs at hc
    · exact hset hc (by simp)
    · exact hset hc (by simp)
    · exact hset hc (by simp)
  have haccept : ∀ {s : Net} {a : UInt8} {d : RHReliableDatagram} {g : InFlight} {l : UInt8}
      {c : List UInt8}, ((s.accept a d g l c).node b).control = .acknowledged f len copied →
      (s.node b).control = .acknowledged f len copied := by
    intro s a d g l c hc
    rw [accept] at hc
    split_ifs at hc
    · exact hset (n := ⟨d.markSeen g.frame, .idle⟩) hc (by simp)
    · exact hset hc (by simp)
  cases hm with
  | start a d buf address => exact .inl (htransmit (s := s.beginCall a _) hb)
  | retry a d buf address seq r => exact .inl (htransmit hb)
  | giveUp a d => exact .inl (hset (n := ⟨d, .idle⟩) hb (by simp))
  | acked a b' d buf address seq r g rest =>
    exact .inl (hset (s := s.setLink b' a rest) (n := ⟨d, .idle⟩) hb (by simp))
  | reack a b' d buf address seq r g rest =>
    rw [acknowledge, send_node] at hb
    exact .inl (hset (s := s.setLink b' a rest) hb (by simp))
  | drop => exact .inl hb
  | hold a b' d g rest l hn hl hack =>
    have hmem : g ∈ s.queue a b' := List.mem_append_right _ (hl ▸ List.mem_cons_self)
    have hfrom := (hinv.pairs a b').sender g hmem
    rw [acknowledge, send_node] at hb
    by_cases hbb : b = b'
    · subst hbb
      rw [setNode_node] at hb
      obtain ⟨rfl, rfl, -⟩ := Control.acknowledged.inj hb
      exact .inr (by rw [hfrom])
    · rw [setNode_node_of_ne hbb] at hb
      exact .inl hb
  | broadcast a b' d g rest => exact .inl (haccept (s := s.setLink a b' rest) hb)
  | finish => exact .inl (haccept hb)

/-- A node past its acknowledgement stays there until it finishes. -/
theorem Move.acknowledged {s s' : Net} {e : NetEvent} (hm : Move s e s') {b : UInt8} {f : InFlight}
    {len : UInt8} {copied : List UInt8} (hb : (s.node b).control = .acknowledged f len copied) :
    s'.node b = s.node b ∨ s' = s.accept b (s.node b).datagram f len copied := by
  -- no other step is one of node `b`
  have hidle : ∀ {a d}, s.node a = ⟨d, .idle⟩ → b ≠ a := by
    rintro a d hn rfl
    rw [hn] at hb
    cases hb
  have hwaiting : ∀ {a d buf address seq r}, s.node a = ⟨d, .waiting buf address seq r⟩ →
      b ≠ a := by
    rintro a d buf address seq r hn rfl
    rw [hn] at hb
    cases hb
  have hsettle : ∀ (s : Net) {a d buf address seq r}, b ≠ a →
      (s.transmit a d buf address seq r).node b = s.node b := by
    intro s a d buf address seq r hne
    rw [transmit, send_node, settle]
    split_ifs
    · exact setNode_node_of_ne hne
    · exact setNode_node_of_ne hne
    · exact setNode_node_of_ne hne
  have hacknowledge : ∀ (s : Net) {a d f c}, b ≠ a →
      (s.acknowledge a d f c).node b = s.node b := by
    intro s a d f c hne
    rw [acknowledge, send_node, setNode_node_of_ne hne]
  cases hm with
  | start a d buf address hn => exact .inl (hsettle _ (hidle hn))
  | retry a d buf address seq r hn => exact .inl (hsettle _ (hwaiting hn))
  | giveUp a d buf address seq r hn => exact .inl (setNode_node_of_ne (hwaiting hn))
  | acked a b' d buf address seq r f rest hn => exact .inl (setNode_node_of_ne (hwaiting hn))
  | reack a b' d buf address seq r f rest hn => exact .inl (hacknowledge _ (hwaiting hn))
  | drop => exact .inl rfl
  | hold a b' d f rest len hn => exact .inl (hacknowledge _ (hidle hn))
  | broadcast a b' d f rest len hn =>
    refine .inl ?_
    rw [accept]
    split_ifs
    · exact setNode_node_of_ne (hidle hn)
    · exact setNode_node_of_ne (hidle hn)
  | finish b' d f' len' copied' hn =>
    by_cases hbb : b = b'
    · subst hbb
      rw [hn] at hb
      cases hb
      rw [hn]
      exact .inr rfl
    · refine .inl ?_
      rw [accept]
      split_ifs
      · exact setNode_node_of_ne hbb
      · exact setNode_node_of_ne hbb

/-- The step that ends such a `recvfromAck` returns the message. -/
theorem accept_delivered {s : Net} {a b : UInt8} {f : InFlight} {len : UInt8}
    {copied : List UInt8} (hfrom : f.frame.headerFrom = a) (hnew : f.frame.headerId ≠ s.seen a b) :
    ⟨b, a, f.call, len, copied⟩ ∈ (s.accept b (s.node b).datagram f len copied).delivered := by
  have hisNew : (s.node b).datagram.isNew f.frame := by
    show f.frame.headerId ≠ (s.node b).datagram.seenIds f.frame.headerFrom
    rw [hfrom]
    exact hnew
  rw [accept, if_pos hisNew, hfrom]
  exact List.mem_append_right _ (List.mem_singleton_self _)

theorem Took.move {s s' : Net} {a b : UInt8} {n : ℕ} {m : List UInt8} (h : s.Took a b n m)
    {e : NetEvent} (hm : Move s e s') : s'.Took a b n m := by
  rcases h with ⟨len, hdel⟩ | ⟨f, len, hb, hcall, hfrom, hnew⟩
  · exact .inl ⟨len, hm.delivered.subset hdel⟩
  · rcases hm.acknowledged hb with hsame | heq
    · refine .inr ⟨f, len, hsame ▸ hb, hcall, hfrom, ?_⟩
      rw [seen, hsame]
      exact hnew
    · subst heq
      exact .inl ⟨len, hcall ▸ accept_delivered hfrom hnew⟩

/-! ### During the call -/

/-- During the call a step keeps the clauses. -/
theorem Clauses.move {s s' : Net} {a b : UInt8} {n : ℕ} {m : List UInt8} {i : UInt8}
    (hinv : Inv s) (h : s.Clauses a b n m i) {e : NetEvent} (hm : Move s e s')
    (hlen : (s'.calls a).length = n + 1) (hcall : (s'.calls a)[n]? = some ⟨m, b, i⟩) :
    s'.Clauses a b n m i := by
  have hab := hm.effect hinv.wf a b
  -- a frame of the call carries its message
  have hdata : ∀ f ∈ s.queue a b, f.call = some n → f.frame.data = m := by
    intro f hf hfn
    rcases (hinv.pairs a b).carries f hf with ⟨hnone, -⟩ | ⟨k, hk⟩
    · rw [hnone] at hfn
      cases hfn
    · have hk' := hk.mono (hm.calls a)
      rw [hk'.1, Option.some_inj] at hfn
      subst hfn
      rw [hk'.2.2, Option.some_inj] at hcall
      exact congrArg SendCall.buf hcall
  have hseen : s'.seen a b = i → s'.Took a b n m := by
    intro hi
    rcases hab with ⟨-, hs, -⟩ | ⟨f, -, hs, -, -, -⟩ | ⟨f, g, -, hs, -⟩ |
      ⟨f, len, hqueue, hack, hs, hnew, hdel⟩
    · exact (h.seen (hs ▸ hi)).move hm
    · exact (h.seen (hs ▸ hi)).move hm
    · exact (h.seen (hs ▸ hi)).move hm
    · -- the message with this number is delivered now
      have hf : f ∈ s.queue a b := hqueue.subset List.mem_cons_self
      have hfn := h.queue f hf hack (hs ▸ hi)
      refine .inl ⟨len, ?_⟩
      rw [hdel, ← hfn, ← hdata f hf hfn]
      exact List.mem_append_right _ (List.mem_singleton_self _)
  refine ⟨?_, ?_, hseen⟩
  · intro f hf hack hi
    rcases hab with ⟨hq, -, -⟩ | ⟨g, hq, -, -, -, hcarries⟩ |
      ⟨g, -, hq, -, -, -, -, hgack, -, -, -, -, -⟩ | ⟨g, -, hq, -, -, -, -⟩
    · exact h.queue f (hq.subset hf) hack hi
    · rcases List.mem_append.mp (hq.subset hf) with hmem | hmem
      · exact h.queue f hmem hack hi
      · obtain rfl := List.mem_singleton.mp hmem
        rw [hcarries.1, hlen, Nat.add_sub_cancel]
    · rcases List.mem_append.mp (hq.subset hf) with hmem | hmem
      · exact h.queue f hmem hack hi
      · exact absurd (List.mem_singleton.mp hmem ▸ hgack) hack
    · exact h.queue f (hq.subset (List.mem_cons_of_mem g hf)) hack hi
  · intro f hf hack hi hto
    rcases hm.effect hinv.wf b a with ⟨hq, -, -⟩ | ⟨g, hq, -, -, -, hcarries⟩ |
      ⟨g, k, hq, -, -, -, -, -, hgto, hgid, hkmem, hkack, hheld⟩ | ⟨g, -, hq, -, -, -, -⟩
    · exact (h.acks f (hq.subset hf) hack hi hto).move hm
    · rcases List.mem_append.mp (hq.subset hf) with hmem | hmem
      · exact (h.acks f hmem hack hi hto).move hm
      · exact absurd hack (List.mem_singleton.mp hmem ▸ hcarries.2.1)
    · rcases List.mem_append.mp (hq.subset hf) with hmem | hmem
      · exact (h.acks f hmem hack hi hto).move hm
      · -- a new acknowledgement, for a frame of the call
        obtain rfl := List.mem_singleton.mp hmem
        have hkfrom : k.frame.headerFrom = a := hgto.symm.trans hto
        have hkid : k.frame.headerId = i := hgid.symm.trans hi
        rw [hkfrom] at hkmem hheld
        have hkn := h.queue k hkmem hkack hkid
        rcases hheld with hold | ⟨len, hctl⟩
        · exact (h.seen (hold.symm.trans hkid)).move hm
        · by_cases hnew : s'.seen a b = i
          · exact hseen hnew
          · rw [hdata k hkmem hkn] at hctl
            exact .inr ⟨k, len, hctl, hkn, hkfrom, fun h => hnew (h.symm.trans hkid)⟩
    · exact (h.acks f (hq.subset (List.mem_cons_of_mem g hf)) hack hi hto).move hm

/-! ### What calls return -/

/-- A call returns false, or its message is a broadcast, or its acknowledgement
was on its way. -/
def Returned (s s' : Net) (a : UInt8) (c : SendCall) (result : Bool) : Prop :=
  result = true → c.address = broadcastAddress ∨
    (s'.calls a = s.calls a ∧ ∃ f ∈ s.queue c.address a, f.frame.IsAck ∧
      f.frame.headerId = c.sequenceNumber ∧ f.frame.headerTo = a)

theorem finishCall_results (s : Net) (a x : UInt8) (result : Bool) :
    (s.finishCall a result).results x =
      if x = a then s.results x ++ [((s.calls x).length - 1, result)] else s.results x := by
  show Function.update s.results a _ x = _
  by_cases hx : x = a
  · subst hx
    rw [Function.update_self, if_pos rfl]
  · rw [Function.update_of_ne hx, if_neg hx]

theorem transmit_results (s : Net) (a : UInt8) (d : RHReliableDatagram) (buf : List UInt8)
    (address seq r x : UInt8) :
    (s.transmit a d buf address seq r).results x = s.results x ∨
      (x = a ∧ address = broadcastAddress ∧ (s.transmit a d buf address seq r).results x
        = s.results x ++ [((s.calls x).length - 1, true)]) := by
  have hsend : ∀ (s : Net) a f c, (s.send a f c).results = s.results := by
    intro s a f c
    cases f <;> rfl
  rw [transmit, hsend, settle]
  split_ifs with hb
  · rw [finishCall_results]
    split_ifs with hx
    · exact .inr ⟨hx, hb, rfl⟩
    · exact .inl rfl
  · exact .inl rfl
  · exact .inl rfl

/-- What a step adds to the results of a node: the result of its last call. -/
theorem Move.results {s s' : Net} (hinv : Inv s) {e : NetEvent} (hm : Move s e s') (x : UInt8) :
    s'.results x = s.results x ∨ ∃ c result,
      s'.results x = s.results x ++ [((s'.calls x).length - 1, result)] ∧
      (s'.calls x)[(s'.calls x).length - 1]? = some c ∧ Returned s s' x c result := by
  -- what is put on the air, acknowledged or accepted leaves the results
  have hsend : ∀ (s : Net) a f c, (s.send a f c).results = s.results := by
    intro s a f c
    cases f <;> rfl
  have hacknowledge : ∀ (s : Net) b d f c, (s.acknowledge b d f c).results = s.results :=
    fun s b d f c => hsend _ _ _ _
  have haccept : ∀ (s : Net) b d f len copied,
      (s.accept b d f len copied).results = s.results := by
    intro s b d f len copied
    rw [accept]
    split_ifs <;> rfl
  cases hm with
  | start a d buf address hn =>
    rcases transmit_results (s.beginCall a ⟨buf, address, d.lastSequenceNumber + 1⟩) a _ buf
      address _ 1 x with hr | ⟨rfl, hb, hr⟩
    · exact .inl hr
    · refine .inr ⟨⟨buf, address, d.lastSequenceNumber + 1⟩, true, ?_, ?_, fun _ => .inl hb⟩
      · rw [hr, transmit_calls]
        rfl
      · rw [transmit_calls]
        exact beginCall_last _ _ _
  | retry a d buf address seq r hn =>
    have hok := hinv.nodes a
    rw [hn] at hok
    rcases transmit_results s a d buf address seq (r + 1) x with hr | ⟨rfl, hb, hr⟩
    · exact .inl hr
    · refine .inr ⟨⟨buf, address, seq⟩, true, ?_, ?_, fun _ => .inl hb⟩
      · rw [hr, transmit_calls]
      · rw [transmit_calls]
        exact hok.2.2
  | giveUp a d buf address seq r hn =>
    have hok := hinv.nodes a
    rw [hn] at hok
    rw [finishCall_results]
    split_ifs with hx
    · subst hx
      exact .inr ⟨_, false, rfl, hok.2.2, fun h => by cases h⟩
    · exact .inl rfl
  | acked a b d buf address seq r f rest hn hl hack =>
    have hok := hinv.nodes a
    rw [hn] at hok
    rw [finishCall_results]
    split_ifs with hx
    · subst hx
      obtain ⟨hfrom, hto, hisAck, hid⟩ := hack
      have hmem : f ∈ s.queue b x := List.mem_append_right _ (hl ▸ List.mem_cons_self)
      have hb : f.frame.headerFrom = b := (hinv.pairs b x).sender f hmem
      refine .inr ⟨_, true, rfl, hok.2.2, fun _ => .inr ⟨rfl, f, ?_, hisAck, hid, ?_⟩⟩
      · show f ∈ s.queue address x
        rw [← hfrom, hb]
        exact hmem
      · exact hto.trans hok.1
    · exact .inl rfl
  | reack => exact .inl (congrFun (hacknowledge _ _ _ _ _) x)
  | drop => exact .inl rfl
  | hold => exact .inl (congrFun (hacknowledge _ _ _ _ _) x)
  | broadcast => exact .inl (congrFun (haccept _ _ _ _ _ _) x)
  | finish => exact .inl (congrFun (haccept _ _ _ _ _ _) x)

/-- The invariant of a call that started fresh: the clauses, as long as it is
the last one of its node, and what its result says. -/
structure During (s : Net) (a b : UInt8) (n : ℕ) (m : List UInt8) (i : UInt8) : Prop where
  inv : Inv s
  call : (s.calls a)[n]? = some ⟨m, b, i⟩
  clauses : (s.calls a).length = n + 1 → s.Clauses a b n m i
  result : (n, true) ∈ s.results a → s.Took a b n m

theorem During.step {s s' : Net} {a b : UInt8} {n : ℕ} {m : List UInt8} {i : UInt8}
    (hb : b ≠ broadcastAddress) (h : s.During a b n m i) {e : NetEvent}
    (hs : s.step e = some s') : s'.During a b n m i := by
  have hm := step_move hs
  have hcall : (s'.calls a)[n]? = some ⟨m, b, i⟩ := by
    obtain ⟨l, hl⟩ := hm.calls a
    rw [← hl, List.getElem?_append_left (List.getElem?_eq_some_iff.mp h.call).1]
    exact h.call
  have hn : n < (s.calls a).length := (List.getElem?_eq_some_iff.mp h.call).1
  have hle := (hm.calls a).length_le
  refine ⟨h.inv.step hs, hcall, fun hlen => ?_, fun hres => ?_⟩
  · exact (h.clauses (by omega)).move h.inv hm hlen hcall
  · rcases hm.results h.inv a with hr | ⟨c, result, hr, hc, hret⟩
    · exact (h.result (hr ▸ hres)).move hm
    · rw [hr] at hres
      rcases List.mem_append.mp hres with hmem | hmem
      · exact (h.result hmem).move hm
      · -- the call returns now
        obtain ⟨hnum, hres⟩ := Prod.mk.inj (List.mem_singleton.mp hmem)
        have hlen : (s'.calls a).length = n + 1 := by omega
        rw [← hnum, hcall, Option.some_inj] at hc
        subst hc
        rcases hret hres.symm with hbc | ⟨-, f, hf, hack, hid, hto⟩
        · exact absurd hbc hb
        · exact ((h.clauses (by omega)).acks f hf hack hid hto).move hm

/-- The invariant, and every result is that of a call made. -/
structure Recorded (s : Net) : Prop where
  inv : Inv s
  results : ∀ a, ∀ r ∈ s.results a, r.1 < (s.calls a).length

theorem Recorded.step {s s' : Net} (h : Recorded s) {e : NetEvent} (hs : s.step e = some s') :
    Recorded s' := by
  have hm := step_move hs
  refine ⟨h.inv.step hs, fun a r hr => ?_⟩
  have hle := (hm.calls a).length_le
  rcases hm.results h.inv a with heq | ⟨c, result, heq, hc, -⟩
  · exact lt_of_lt_of_le (h.results a r (heq ▸ hr)) hle
  · rw [heq] at hr
    rcases List.mem_append.mp hr with hmem | hmem
    · exact lt_of_lt_of_le (h.results a r hmem) hle
    · rw [List.mem_singleton.mp hmem]
      exact (List.getElem?_eq_some_iff.mp hc).1

theorem recorded_start (nodes : UInt8 → RHReliableDatagram) : Recorded (start nodes) := by
  refine ⟨inv_start nodes, fun a r hr => ?_⟩
  have hr : r ∈ ([] : List (ℕ × Bool)) := hr
  cases hr

/-- What a call establishes that nothing before it has the number of. -/
theorem during_of_clauses {s s' : Net} {a b : UInt8} {m : List UInt8} {i : UInt8}
    (hrec : Recorded s) (hb : b ≠ broadcastAddress)
    (hbefore : s.Clauses a b (s.calls a).length m i) {e : NetEvent} (hs : s.step e = some s')
    (hcalls : s'.calls a = s.calls a ++ [⟨m, b, i⟩]) :
    s'.During a b (s.calls a).length m i := by
  have hm := step_move hs
  have hlen : (s'.calls a).length = (s.calls a).length + 1 := by rw [hcalls]; simp
  have hcall : (s'.calls a)[(s.calls a).length]? = some ⟨m, b, i⟩ := by rw [hcalls]; simp
  refine ⟨hrec.inv.step hs, hcall, fun _ => hbefore.move hrec.inv hm hlen hcall,
    fun hmem => ?_⟩
  exfalso
  rcases hm.results hrec.inv a with heq | ⟨c, result, heq, hc, hret⟩
  · exact absurd (hrec.results a _ (heq ▸ hmem)) (lt_irrefl _)
  · rw [heq] at hmem
    rcases List.mem_append.mp hmem with hmem | hmem
    · exact absurd (hrec.results a _ hmem) (lt_irrefl _)
    · obtain ⟨-, hres'⟩ := Prod.mk.inj (List.mem_singleton.mp hmem)
      rw [hlen, Nat.add_sub_cancel, hcall, Option.some_inj] at hc
      subst hc
      rcases hret hres'.symm with hbc | ⟨hsame, -⟩
      · exact hb hbc
      · rw [hsame] at hlen
        omega

/-- What a fresh call establishes. -/
theorem during_of_fresh {s s' : Net} {a b : UInt8} {m : List UInt8} (hrec : Recorded s)
    (hb : b ≠ broadcastAddress)
    (hfresh : s.Fresh a b) (hs : s.step (.sendtoWait a m b) = some s') :
    s'.During a b (s.calls a).length m ((s.node a).datagram.lastSequenceNumber + 1) := by
  have hcalls : s'.calls a = s.calls a ++ [⟨m, b, (s.node a).datagram.lastSequenceNumber + 1⟩] := by
    simp only [step] at hs
    split at hs
    · next d hn =>
      rw [← Option.some.inj hs, transmit_calls, beginCall_calls, hn]
    · cases hs
  -- nothing before the call has its number
  refine during_of_clauses hrec hb ⟨fun f hf hack hi => ?_, fun f hf hack hi _ => ?_, fun hi => ?_⟩
    hs hcalls
  · exact absurd hi (hfresh.queue f hf hack)
  · exact absurd hi (hfresh.acks f hf hack)
  · exact absurd hi hfresh.seen

/-- What `recvfromAck` has returned since `s₀`, or is about to return, it was
called for at one of the events `es`, or held at `s₀`. -/
structure Since (s₀ : Net) (es : List NetEvent) (s : Net) : Prop where
  inv : Inv s
  held : ∀ b f len copied, (s.node b).control = .acknowledged f len copied →
    (s₀.node b).control = .acknowledged f len copied ∨
      .recvfromAck f.frame.headerFrom b len ∈ es
  delivered : ∀ d ∈ s.delivered, d ∈ s₀.delivered ∨
    (∃ f, (s₀.node d.node).control = .acknowledged f d.len d.buf ∧
      f.frame.headerFrom = d.sender ∧ f.call = d.call) ∨
    .recvfromAck d.sender d.node d.len ∈ es

theorem Since.step {s₀ s s' : Net} {es : List NetEvent} (h : Since s₀ es s) {e : NetEvent}
    (he : e ∈ es) (hs : s.step e = some s') : Since s₀ es s' where
  inv := h.inv.step hs
  held b f len copied hb := by
    rcases (step_move hs).holds h.inv hb with hb | rfl
    · exact h.held b f len copied hb
    · exact .inr he
  delivered d hd := by
    rcases (step_move hs).delivers h.inv with heq | ⟨b, f, len, -, -, hcause, heq⟩
    · exact h.delivered d (heq ▸ hd)
    rw [heq] at hd
    rcases List.mem_append.mp hd with hd | hd
    · exact h.delivered d hd
    obtain rfl := List.mem_singleton.mp hd
    rcases hcause with rfl | hb
    · exact .inr (.inr he)
    · rcases h.held b f len _ hb with hb₀ | hmem
      · exact .inr (.inl ⟨f, hb₀, rfl, rfl⟩)
      · exact .inr (.inr hmem)

theorem since_run {s s' : Net} {es : List NetEvent} (hinv : Inv s)
    (hrun : run step s es = some s') : Since s es s' := by
  have hstart : Since s es s := ⟨hinv, fun _ _ _ _ hb => .inl hb, fun _ hd => .inl hd⟩
  exact run_induct (fun _ _ _ h he hs => Since.step h he hs) hstart
    (allSteps_of_mem (fun _ he => he) s) hrun

section Call

variable {s s' : Net} {a b : UInt8}

/-- A message of a call that starts after `s` is taken by a `recvfromAck` called
after `s`. -/
theorem Since.called (hinv : Inv s) {es : List NetEvent} (h : Since s es s') {len : UInt8}
    {buf : List UInt8} (hd : ⟨b, a, some (s.calls a).length, len, buf⟩ ∈ s'.delivered) :
    .recvfromAck a b len ∈ es := by
  rcases h.delivered _ hd with hd | ⟨f, hb, rfl, hcall⟩ | hmem
  · have hn : (s.calls a).length ∈ s.deliveredCalls a b := List.mem_filterMap.mpr ⟨_, hd, by simp⟩
    exact absurd ((hinv.pairs a b).bound _ hn) (lt_irrefl _)
  · have hn : (s.calls f.frame.headerFrom).length ∈ numbers (s.queue f.frame.headerFrom b) :=
      List.mem_filterMap.mpr ⟨f, mem_queue_of_held hb, hcall⟩
    exact absurd ((hinv.pairs _ b).numbers_lt hn) (lt_irrefl _)
  · exact hmem

theorem Since.calledHeld (hinv : Inv s) {es : List NetEvent} (h : Since s es s') {f : InFlight}
    {len : UInt8} {copied : List UInt8} (hb : (s'.node b).control = .acknowledged f len copied)
    (hcall : f.call = some (s.calls f.frame.headerFrom).length) :
    .recvfromAck f.frame.headerFrom b len ∈ es := by
  rcases h.held b f len copied hb with hb | hmem
  · have hn : (s.calls f.frame.headerFrom).length ∈ numbers (s.queue f.frame.headerFrom b) :=
      List.mem_filterMap.mpr ⟨f, mem_queue_of_held hb, hcall⟩
    exact absurd ((hinv.pairs _ b).numbers_lt hn) (lt_irrefl _)
  · exact hmem

end Call

/-- **An acknowledged message was taken.**  In every run, if nothing at `a` and
`b` or between them has the number of a call of `sendtoWait` to `b` when it
starts, then whenever the call has returned true, `recvfromAck` at `b`, called
since then, has returned its message, all of it or as much as it was given room
for, or is past its acknowledgement and returns it in its next step. -/
theorem acked_taken (nodes : UInt8 → RHReliableDatagram) (es : List NetEvent) (s : Net)
    (hrun : run step (start nodes) es = some s) (a b : UInt8) (m : List UInt8)
    (hb : b ≠ broadcastAddress) (hfresh : s.Fresh a b) (s₁ : Net)
    (hcall : s.step (.sendtoWait a m b) = some s₁) (es' : List NetEvent) (s' : Net)
    (hrun' : run step s₁ es' = some s')
    (hret : ((s.calls a).length, true) ∈ s'.results a) :
    ∃ len, .recvfromAck a b len ∈ es' ∧
      (⟨b, a, some (s.calls a).length, len, m.take len.toNat⟩ ∈ s'.delivered ∨
        ∃ s'', s'.step (.finish b) = some s'' ∧
          ⟨b, a, some (s.calls a).length, len, m.take len.toNat⟩ ∈ s''.delivered) := by
  have hrec : Recorded s := run_invariant (fun _ _ _ h hs => h.step hs) (recorded_start nodes) hrun
  have hduring := run_invariant (fun _ _ _ h hs => During.step hb h hs)
    (during_of_fresh hrec hb hfresh hcall) hrun'
  have hsince : Since s (.sendtoWait a m b :: es') s' :=
    since_run hrec.inv (run_cons.mpr ⟨s₁, hcall, hrun'⟩)
  -- the `recvfromAck` that takes the message is not the event of the call
  have htail : ∀ {len}, NetEvent.recvfromAck a b len ∈ .sendtoWait a m b :: es' →
      .recvfromAck a b len ∈ es' :=
    fun hmem => (List.mem_cons.mp hmem).resolve_left (by simp)
  rcases hduring.result hret with ⟨len, hdel⟩ | ⟨f, len, hctl, hcallf, rfl, hnew⟩
  · exact ⟨len, htail (hsince.called hrec.inv hdel), .inl hdel⟩
  · refine ⟨len, htail (hsince.calledHeld hrec.inv hctl hcallf),
      .inr ⟨s'.accept b (s'.node b).datagram f len (m.take len.toNat), ?_, ?_⟩⟩
    · rcases hn : s'.node b with ⟨d, c⟩
      rw [hn] at hctl
      obtain rfl : c = _ := hctl
      simp only [step, hn]
    · rw [← hcallf]
      exact accept_delivered rfl hnew

/-- A first message from node 1 to node 2. -/
theorem first_call_taken :
    ∃ s', run step (start .constructed) [.sendtoWait 1 [0x6d] 2, .recvfromAck 1 2 251,
        .waitReceive 1 2] = some s' ∧
      ∃ len, NetEvent.recvfromAck 1 2 len ∈ [.recvfromAck 1 2 251, .waitReceive 1 2] ∧
        (⟨2, 1, some 0, len, [0x6d].take len.toNat⟩ ∈ s'.delivered ∨
          ∃ s'', s'.step (.finish 2) = some s'' ∧
            ⟨2, 1, some 0, len, [0x6d].take len.toNat⟩ ∈ s''.delivered) := by
  have hrun : run step (start .constructed) [.sendtoWait 1 [0x6d] 2, .recvfromAck 1 2 251,
    .waitReceive 1 2] = some _ := rfl
  refine ⟨_, hrun, acked_taken .constructed [] _ rfl 1 2 [0x6d] (by decide)
    ⟨fun f hf => ?_, fun f hf => ?_, by decide⟩ _ rfl [.recvfromAck 1 2 251, .waitReceive 1 2] _
    rfl (by decide)⟩
  · have hf : f ∈ ([] : List InFlight) := hf
    cases hf
  · have hf : f ∈ ([] : List InFlight) := hf
    cases hf

/-- Node 1 broadcasts 255 times, and nobody hears it; its next message is
number 0. -/
def wrapped : List NetEvent :=
  (List.replicate 255 [.sendtoWait 1 [0x62] 0xff, .lose 1 2 0]).flatten ++
    [.sendtoWait 1 [0x6d] 2, .recvfromAck 1 2 251, .finish 2, .waitReceive 1 2]

/-- The message is acknowledged and the last call, to node 2, returns true, but
node 2 has returned nothing, and has nothing left to return. -/
theorem wrapped_ack :
    (run step (start .constructed) wrapped).map (fun s =>
      ((s.calls 1).getLast?, (s.results 1).getLast?.map Prod.snd, s.delivered,
        (s.node 2).control, s.link 1 2))
      = some (some ⟨[0x6d], 2, 0⟩, some true, [], .idle, []) := by
  decide +kernel

end Net
