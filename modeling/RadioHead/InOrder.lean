/-
What a node returns of the messages of another one.

`recvfromAck` keeps one number for each sender, and takes every other one for
that of a new message; so a message that comes late could be returned a second
time, or after a later one.  On a link that only loses frames neither happens.
And until the counter of a node has been all the way round, no acknowledgement
is taken for that of another call.

* `Net.received` — what `recvfromAck` has returned at one node from another;
* `Net.Returns` — a delivery is that of a call;
* `in_order` — messages are returned in the order in which they were sent;
* `Numbered` — what has which sequence number;
* `reliable_in_order` — the messages that were acknowledged are among them, as
  long as a node has made fewer than 256 calls.
-/
import RadioHead.Acknowledged

open Run

namespace Net

/-- What `recvfromAck` has returned at node `b` from node `a`. -/
def received (s : Net) (a b : UInt8) : List Delivery :=
  s.delivered.filter fun d => d.node = b ∧ d.sender = a

/-- What node `b` returns from `a` in its next step, when it is past its
acknowledgement. -/
def pending (s : Net) (a b : UInt8) : List Delivery :=
  match (s.node b).control with
  | .acknowledged f len copied =>
    if f.frame.headerFrom = a ∧ (s.node b).datagram.isNew f.frame then
      [⟨b, a, f.call, len, copied⟩] else []
  | _ => []

/-- The delivery is that of call `n` of `a`: the call was for `b` or for all, and
the octets are those of its message, as many as `recvfromAck` was given room
for. -/
def Returns (s : Net) (a b : UInt8) (n : ℕ) (d : Delivery) : Prop :=
  d.node = b ∧ d.sender = a ∧ d.call = some n ∧
    ∃ c, (s.calls a)[n]? = some c ∧ (c.address = b ∨ c.address = broadcastAddress) ∧
      d.buf = c.buf.take d.len.toNat

/-! ### For whom a frame is -/

/-- What a node is not done with is for it. -/
def Heard (s : Net) : Prop := ∀ a b, ∀ f ∈ s.queue a b, f.frame.For b

section Heard

variable {s s' : Net}

theorem Heard.less (h : s.Heard) (hqueue : ∀ x y, (s'.queue x y).Sublist (s.queue x y)) :
    s'.Heard :=
  fun a b f hf => h a b f ((hqueue a b).subset hf)

theorem Heard.send (h : s.Heard) (a : UInt8) (f : Option Frame) (call : Option ℕ) :
    (s.send a f call).Heard := by
  cases f with
  | none => exact h
  | some f =>
    intro x y g hg
    rw [send_queue] at hg
    rcases List.mem_append.mp hg with hg | hg
    · exact h x y g hg
    · obtain ⟨⟨-, -, hfor⟩, hg⟩ := List.mem_ite_nil_right.mp hg
      exact List.mem_singleton.mp hg ▸ hfor

theorem Heard.transmit (h : s.Heard) {a : UInt8} {d : RHReliableDatagram}
    (hseen : d.seenIds = (s.node a).datagram.seenIds) (buf : List UInt8) (address seq r : UInt8) :
    (s.transmit a d buf address seq r).Heard := by
  have hsettle : Less s (s.settle a (d.attempt seq buf address).2 buf address seq r) :=
    settle_less (d := (d.attempt seq buf address).2) hseen buf address seq r
  exact (h.less hsettle.queue).send _ _ _

theorem accept_queue (s : Net) (b : UInt8) (d : RHReliableDatagram) (f : InFlight) (len : UInt8)
    (copied : List UInt8) (x y : UInt8) :
    ((s.accept b d f len copied).queue x y).Sublist (s.queue x y) := by
  have hidle : ∀ d', ((s.setNode b ⟨d', .idle⟩).queue x y).Sublist (s.queue x y) := by
    intro d'
    by_cases hy : y = b
    · subst hy
      rw [queue, setNode_node]
      exact List.sublist_append_right _ _
    · rw [queue, setNode_node_of_ne hy]
      exact List.Sublist.refl _
  rw [accept]
  split
  · exact hidle _
  · exact hidle _

theorem Move.heard (hinv : Inv s) (h : s.Heard) {e : NetEvent} (hm : Move s e s') : s'.Heard := by
  cases hm with
  | start a d buf address hn =>
    refine Heard.transmit (s := s.beginCall a _) h ?_ _ _ _ _
    show _ = (s.node a).datagram.seenIds
    rw [hn]
  | retry a d buf address seq r hn => exact h.transmit (by rw [hn]) _ _ _ _
  | giveUp a d buf address seq r hn =>
    exact h.less ((idle_less (by rw [hn])).trans (finishCall_less _ _ _)).queue
  | acked a b d buf address seq r f rest hn hl =>
    have hrest : Less s (s.setLink b a rest) := setLink_less (hl ▸ List.sublist_cons_self f rest)
    refine h.less ((hrest.trans (idle_less ?_)).trans (finishCall_less _ _ _)).queue
    show _ = (s.node a).datagram.seenIds
    rw [hn]
  | reack a b d buf address seq r f rest hn hl =>
    have hrest : Less s (s.setLink b a rest) := setLink_less (hl ▸ List.sublist_cons_self f rest)
    refine (h.less (hrest.trans (waiting_less ?_)).queue).send _ _ _
    show _ = (s.node a).datagram.seenIds
    rw [hn]
    rfl
  | drop a b l hl => exact h.less (setLink_less hl).queue
  | hold a b d f rest len hn hl hack =>
    have hfrom := (hinv.pairs a b).sender f (List.mem_append_right _ (hl ▸ List.mem_cons_self))
    have hhold := hold_less hn hl hfrom (RHReliableDatagram.acknowledge_seenIds d f.frame.headerId
      f.frame.headerFrom) len (f.frame.data.take len.toNat)
    exact (h.less hhold.queue).send _ _ _
  | broadcast a b d f rest len hn hl hack =>
    have hrest : Less s (s.setLink a b rest) := setLink_less (hl ▸ List.sublist_cons_self f rest)
    exact (h.less hrest.queue).less (accept_queue _ b d f len _)
  | finish b d f len copied hn => exact h.less (accept_queue s b d f len copied)

end Heard

/-! ### What is delivered -/

/-- Every delivery is that of a call of its sender. -/
def Genuine (s : Net) : Prop :=
  ∀ d ∈ s.delivered, ∃ n, s.Returns d.sender d.node n d

theorem Returns.mono {s s' : Net} {a b : UInt8} {n : ℕ} {d : Delivery} (h : s.Returns a b n d)
    (hcalls : s.calls a <+: s'.calls a) : s'.Returns a b n d := by
  obtain ⟨hnode, hsender, hcall, c, hc, h⟩ := h
  obtain ⟨l, hl⟩ := hcalls
  refine ⟨hnode, hsender, hcall, c, ?_, h⟩
  rw [← hl, List.getElem?_append_left (List.getElem?_eq_some_iff.mp hc).1]
  exact hc

section Deliver

variable {s s' : Net}

/-- A frame that is no acknowledgement is returned as the message of its call. -/
theorem returns_frame (hinv : Inv s) (h : s.Heard) {b : UInt8} {f : InFlight}
    (hf : f ∈ s.queue f.frame.headerFrom b) (hack : ¬ f.frame.IsAck) (len : UInt8) :
    ∃ n, s.Carries f.frame.headerFrom f n ∧ s.Returns f.frame.headerFrom b n
      ⟨b, f.frame.headerFrom, f.call, len, f.frame.data.take len.toNat⟩ := by
  rcases (hinv.pairs _ b).carries f hf with ⟨-, hack'⟩ | ⟨n, hn⟩
  · exact absurd hack' hack
  · exact ⟨n, hn, rfl, rfl, hn.1, _, hn.2.2, h _ b f hf, rfl⟩

theorem Move.genuine (hinv : Inv s) (hheard : s.Heard) (h : s.Genuine) {e : NetEvent}
    (hm : Move s e s') : s'.Genuine := by
  intro d hd
  have hold : d ∈ s.delivered → ∃ n, s'.Returns d.sender d.node n d := by
    intro hd
    obtain ⟨n, hreturns⟩ := h d hd
    exact ⟨n, hreturns.mono (hm.calls _)⟩
  rcases hm.delivers hinv with heq | ⟨b, f, len, hf, hack, -, heq⟩
  · exact hold (heq ▸ hd)
  · rw [heq] at hd
    rcases List.mem_append.mp hd with hd | hd
    · exact hold hd
    · obtain rfl := List.mem_singleton.mp hd
      obtain ⟨n, -, hreturns⟩ := returns_frame hinv hheard hf hack len
      exact ⟨n, hreturns.mono (hm.calls _)⟩

end Deliver

/-- The invariant of a network, with what is delivered. -/
structure Ordered (s : Net) : Prop where
  inv : Inv s
  heard : s.Heard
  genuine : s.Genuine

theorem Ordered.step {s s' : Net} (h : Ordered s) {e : NetEvent} (hs : s.step e = some s') :
    Ordered s' where
  inv := h.inv.step hs
  heard := (step_move hs).heard h.inv h.heard
  genuine := (step_move hs).genuine h.inv h.heard h.genuine

theorem ordered_start (nodes : UInt8 → RHReliableDatagram) : Ordered (start nodes) where
  inv := inv_start nodes
  heard a b f hf := by
    have hf : f ∈ ([] : List InFlight) := hf
    cases hf
  genuine d hd := by
    have hd : d ∈ ([] : List Delivery) := hd
    cases hd

/-! ### In order -/

theorem forall₂_filterMap {α β : Type*} {f : α → Option β} {R : β → α → Prop} {l : List α}
    (h : ∀ x ∈ l, ∃ y, f x = some y ∧ R y x) : List.Forall₂ R (l.filterMap f) l := by
  induction l with
  | nil => exact List.Forall₂.nil
  | cons x l ih =>
    obtain ⟨y, hy, hR⟩ := h x List.mem_cons_self
    rw [List.filterMap_cons_some hy]
    exact List.Forall₂.cons hR (ih fun z hz => h z (List.mem_cons_of_mem x hz))

theorem deliveredCalls_eq (s : Net) (a b : UInt8) :
    s.deliveredCalls a b = (s.received a b).filterMap Delivery.call := by
  rw [deliveredCalls, received, List.filterMap_filter]
  congr 1
  funext d
  simp only [decide_eq_true_eq]

theorem Ordered.received {s : Net} (h : Ordered s) (a b : UInt8) :
    ∀ d ∈ s.received a b, ∃ n, s.Returns a b n d := by
  intro d hd
  obtain ⟨hmem, hpair⟩ := List.mem_filter.mp hd
  obtain ⟨rfl, rfl⟩ := of_decide_eq_true hpair
  exact h.genuine d hmem

/-- Nothing is returned, or about to be, without a call of `recvfromAck`, which
has told the room. -/
theorem received_called {nodes : UInt8 → RHReliableDatagram} {es : List NetEvent} {s : Net}
    (hrun : run step (start nodes) es = some s) (a b : UInt8) :
    ∀ d ∈ s.received a b ++ s.pending a b, .recvfromAck a b d.len ∈ es := by
  have h : Since (start nodes) es s := since_run (inv_start nodes) hrun
  intro d hd
  rcases List.mem_append.mp hd with hd | hd
  · obtain ⟨hmem, hpair⟩ := List.mem_filter.mp hd
    obtain ⟨rfl, rfl⟩ := of_decide_eq_true hpair
    rcases h.delivered d hmem with hd | ⟨f, hb, -⟩ | hcalled
    · cases hd
    · cases hb
    · exact hcalled
  · rw [pending] at hd
    split at hd
    · next f len copied hb =>
      split at hd
      · next hf =>
        obtain rfl := List.mem_singleton.mp hd
        rcases h.held b f len copied hb with hb | hcalled
        · cases hb
        · exact hf.1 ▸ hcalled
      · cases hd
    · cases hd

/-- **Messages are returned in order**, at a node those of each other one, and
none of them twice: there are calls of the sender, one after another, for this
node or for all, whose messages these are, as far as the calls of `recvfromAck`
had room.  So it is in every run, whatever is lost, retransmitted or timed out,
and however often the counters go round. -/
theorem in_order (nodes : UInt8 → RHReliableDatagram) (es : List NetEvent) (s : Net)
    (hrun : run step (start nodes) es = some s) (a b : UInt8) :
    (∀ d ∈ s.received a b, .recvfromAck a b d.len ∈ es) ∧
    ∃ ns : List ℕ, ns.Pairwise (· < ·) ∧ List.Forall₂ (s.Returns a b) ns (s.received a b) := by
  have h : Ordered s := run_invariant (fun _ _ _ h hs => h.step hs) (ordered_start nodes) hrun
  refine ⟨fun d hd => received_called hrun a b d (List.mem_append_left _ hd),
    s.deliveredCalls a b, (h.inv.pairs a b).strict, ?_⟩
  rw [deliveredCalls_eq]
  refine forall₂_filterMap fun d hd => ?_
  obtain ⟨n, hreturns⟩ := h.received a b d hd
  exact ⟨n, hreturns.2.2.1, hreturns⟩

/-- The acknowledgement is lost, and the message returned once. -/
theorem lostAck_in_order :
    ∃ s, run step (start .constructed) lostAck = some s ∧
      s.received 1 2 = [⟨2, 1, some 0, 251, [0x6d]⟩] ∧
      (∀ d ∈ s.received 1 2, .recvfromAck 1 2 d.len ∈ lostAck) ∧
      ∃ ns : List ℕ, ns.Pairwise (· < ·) ∧ List.Forall₂ (s.Returns 1 2) ns (s.received 1 2) := by
  have hrun : run step (start .constructed) lostAck = some _ := rfl
  exact ⟨_, hrun, rfl, in_order _ _ _ hrun 1 2⟩

/-! ### Sequence numbers -/

/-- Call `n` has the sequence number `n + 1`; what a node has seen last of another
one, and what is acknowledged to it, has that of one of its calls. -/
structure Numbered (s : Net) : Prop where
  last : ∀ a, (s.node a).datagram.lastSequenceNumber = UInt8.ofNat (s.calls a).length
  calls : ∀ a n, ∀ c ∈ (s.calls a)[n]?, c.sequenceNumber = UInt8.ofNat (n + 1)
  seen : ∀ a b, s.seen a b = 0 ∨ ∃ c ∈ s.calls a, s.seen a b = c.sequenceNumber
  acks : ∀ a b, ∀ f ∈ s.queue b a, f.frame.IsAck → f.frame.headerTo = a →
    ∃ c ∈ s.calls a, f.frame.headerId = c.sequenceNumber

section Numbered

variable {s s' : Net}

theorem setNode_lastSequenceNumber (s : Net) (a : UInt8) (n : Node) (x : UInt8) :
    ((s.setNode a n).node x).datagram.lastSequenceNumber =
      if x = a then n.datagram.lastSequenceNumber else (s.node x).datagram.lastSequenceNumber := by
  split_ifs with hx
  · rw [hx, setNode_node]
  · rw [setNode_node_of_ne hx]

theorem transmit_lastSequenceNumber (s : Net) (a : UInt8) (d : RHReliableDatagram)
    (buf : List UInt8) (address seq r x : UInt8) :
    ((s.transmit a d buf address seq r).node x).datagram.lastSequenceNumber =
      if x = a then d.lastSequenceNumber else (s.node x).datagram.lastSequenceNumber := by
  rw [transmit, send_node, settle]
  by_cases hb : address = broadcastAddress
  · rw [if_pos hb]
    exact setNode_lastSequenceNumber s a _ x
  · rw [if_neg hb]
    by_cases hr : 1 < r
    · rw [if_pos hr]
      exact setNode_lastSequenceNumber s a _ x
    · rw [if_neg hr]
      exact setNode_lastSequenceNumber s a _ x

theorem acknowledge_lastSequenceNumber (s : Net) (b : UInt8) (d : RHReliableDatagram) (f : Frame)
    (c : Control) (x : UInt8) :
    ((s.acknowledge b d f c).node x).datagram.lastSequenceNumber =
      if x = b then d.lastSequenceNumber else (s.node x).datagram.lastSequenceNumber := by
  rw [acknowledge, send_node]
  exact setNode_lastSequenceNumber s b _ x

theorem accept_lastSequenceNumber (s : Net) (b : UInt8) (d : RHReliableDatagram) (f : InFlight)
    (len : UInt8) (copied : List UInt8) (x : UInt8) :
    ((s.accept b d f len copied).node x).datagram.lastSequenceNumber =
      if x = b then d.lastSequenceNumber else (s.node x).datagram.lastSequenceNumber := by
  rw [accept]
  by_cases hnew : d.isNew f.frame
  · rw [if_pos hnew]
    exact setNode_lastSequenceNumber s b _ x
  · rw [if_neg hnew]
    exact setNode_lastSequenceNumber s b _ x

/-- A call gets the next sequence number, and no other step takes one. -/
theorem Move.counts {e : NetEvent} (hm : Move s e s') (x : UInt8) :
    (s'.calls x = s.calls x ∧
      (s'.node x).datagram.lastSequenceNumber = (s.node x).datagram.lastSequenceNumber) ∨
    ∃ buf address,
      s'.calls x = s.calls x ++ [⟨buf, address, (s.node x).datagram.lastSequenceNumber + 1⟩] ∧
      (s'.node x).datagram.lastSequenceNumber = (s.node x).datagram.lastSequenceNumber + 1 := by
  have hself : ∀ {a d c}, s.node a = ⟨d, c⟩ →
      (if x = a then d.lastSequenceNumber else (s.node x).datagram.lastSequenceNumber) =
        (s.node x).datagram.lastSequenceNumber := by
    intro a d c hn
    split_ifs with hx
    · rw [hx, hn]
    · rfl
  cases hm with
  | start a d buf address hn =>
    rw [transmit_calls, transmit_lastSequenceNumber]
    by_cases hx : x = a
    · subst hx
      refine .inr ⟨buf, address, ?_, ?_⟩
      · rw [beginCall_calls, hn]
      · rw [if_pos rfl, hn]
    · refine .inl ⟨Function.update_of_ne hx _ _, ?_⟩
      rw [if_neg hx]
      rfl
  | retry a d buf address seq r hn =>
    rw [transmit_calls, transmit_lastSequenceNumber]
    exact .inl ⟨rfl, hself hn⟩
  | giveUp a d buf address seq r hn =>
    exact .inl ⟨rfl, (setNode_lastSequenceNumber s a _ x).trans (hself hn)⟩
  | acked a b d buf address seq r f rest hn =>
    exact .inl ⟨rfl, (setNode_lastSequenceNumber s a _ x).trans (hself hn)⟩
  | reack a b d buf address seq r f rest hn =>
    rw [acknowledge_calls, acknowledge_lastSequenceNumber]
    exact .inl ⟨rfl, hself hn⟩
  | drop => exact .inl ⟨rfl, rfl⟩
  | hold a b d f rest len hn =>
    rw [acknowledge_calls, acknowledge_lastSequenceNumber]
    exact .inl ⟨rfl, hself hn⟩
  | broadcast a b d f rest len hn =>
    rw [accept_calls, accept_lastSequenceNumber]
    exact .inl ⟨rfl, hself hn⟩
  | finish b d f len copied hn =>
    rw [accept_calls, accept_lastSequenceNumber]
    exact .inl ⟨rfl, hself hn⟩

/-- A frame carries the sequence number of its call. -/
theorem Carries.mem {a : UInt8} {f : InFlight} {n : ℕ} (h : s.Carries a f n) :
    ∃ c ∈ s.calls a, f.frame.headerId = c.sequenceNumber :=
  ⟨_, List.mem_of_getElem? h.2.2, rfl⟩

theorem Numbered.step (hinv : Inv s) (h : s.Numbered) {e : NetEvent} (hm : Move s e s') :
    s'.Numbered where
  last a := by
    rcases hm.counts a with ⟨hcalls, hlast⟩ | ⟨buf, address, hcalls, hlast⟩
    · rw [hlast, hcalls, h.last]
    · rw [hlast, hcalls, h.last, List.length_append, List.length_singleton, UInt8.ofNat_add]
      rfl
  calls a n c hc := by
    rcases hm.counts a with ⟨hcalls, -⟩ | ⟨buf, address, hcalls, -⟩
    · exact h.calls a n c (hcalls ▸ hc)
    · rw [hcalls, List.getElem?_append] at hc
      split at hc
      · exact h.calls a n c hc
      · next hn =>
        -- the call of this step takes the next number
        obtain ⟨hlt, rfl⟩ := List.getElem?_eq_some_iff.mp hc
        have hlen : n = (s.calls a).length := by
          rw [List.length_singleton] at hlt
          omega
        rw [List.getElem_singleton, h.last, hlen, UInt8.ofNat_add]
        rfl
  seen a b := by
    -- calls are only ever added
    have hmono : ∀ i, (∃ c ∈ s.calls a, i = c.sequenceNumber) →
        ∃ c ∈ s'.calls a, i = c.sequenceNumber := by
      rintro i ⟨c, hc, hi⟩
      exact ⟨c, (hm.calls a).subset hc, hi⟩
    have hold : s'.seen a b = s.seen a b →
        s'.seen a b = 0 ∨ ∃ c ∈ s'.calls a, s'.seen a b = c.sequenceNumber := by
      intro heq
      rw [heq]
      exact (h.seen a b).imp_right (hmono _)
    cases hm.effect hinv.wf a b with
    | quiet _ hseen => exact hold hseen
    | data _ _ hseen => exact hold hseen
    | ack _ _ _ hseen => exact hold hseen
    | deliver f len hqueue hack hseen =>
      have hf : f ∈ s.queue a b := hqueue.subset List.mem_cons_self
      rcases (hinv.pairs a b).carries f hf with ⟨-, hack'⟩ | ⟨n, hn⟩
      · exact absurd hack' hack
      · rw [hseen]
        exact .inr (hmono _ hn.mem)
  acks a b f hf hack hto := by
    have hmono : (∃ c ∈ s.calls a, f.frame.headerId = c.sequenceNumber) →
        ∃ c ∈ s'.calls a, f.frame.headerId = c.sequenceNumber := by
      rintro ⟨c, hc, hi⟩
      exact ⟨c, (hm.calls a).subset hc, hi⟩
    cases hm.effect hinv.wf b a with
    | quiet hqueue => exact hmono (h.acks a b f (hqueue.subset hf) hack hto)
    | data g hqueue _ _ _ hcarries =>
      rcases List.mem_append.mp (hqueue.subset hf) with hf | hf
      · exact hmono (h.acks a b f hf hack hto)
      · exact absurd hack (List.mem_singleton.mp hf ▸ hcarries.2.1)
    | ack g k hqueue _ _ _ _ _ hkto hid hmem hk =>
      rcases List.mem_append.mp (hqueue.subset hf) with hf | hf
      · exact hmono (h.acks a b f hf hack hto)
      · -- it acknowledges a frame of a call of `a`
        obtain rfl := List.mem_singleton.mp hf
        rw [← hkto, hto] at hmem
        rcases (hinv.pairs a b).carries k hmem with ⟨-, hack'⟩ | ⟨n, hn⟩
        · exact absurd hack' hk
        · exact hmono (hid ▸ hn.mem)
    | deliver g len hqueue =>
      exact hmono (h.acks a b f (hqueue.subset (List.mem_cons_of_mem g hf)) hack hto)

end Numbered

theorem numbered_start : (start .constructed).Numbered where
  last _ := rfl
  calls a n c hc := by
    have hc : c ∈ ([] : List SendCall)[n]? := hc
    cases hc
  seen _ _ := .inl rfl
  acks a b f hf := by
    have hf : f ∈ ([] : List InFlight) := hf
    cases hf

/-! ### Acknowledged, in order -/

section Reliable

variable {s s' : Net} {a b : UInt8}

/-- Before the counter has been all the way round, the next number is new. -/
theorem Numbered.ne_next (h : s.Numbered) (hlen : (s.calls a).length < 255) :
    ∀ c ∈ s.calls a, c.sequenceNumber ≠ (s.node a).datagram.lastSequenceNumber + 1 := by
  intro c hc heq
  obtain ⟨n, hn⟩ := List.mem_iff_getElem?.mp hc
  have hlt := (List.getElem?_eq_some_iff.mp hn).1
  rw [h.calls a n c hn, h.last a] at heq
  have hnat := congrArg UInt8.toNat heq
  simp only [UInt8.toNat_ofNat', UInt8.toNat_add, UInt8.toNat_one] at hnat
  omega

theorem Numbered.clauses (hinv : Inv s) (h : s.Numbered) (hlen : (s.calls a).length < 255)
    (m : List UInt8) : s.Clauses a b (s.calls a).length m
      ((s.node a).datagram.lastSequenceNumber + 1) where
  queue f hf hack hi := by
    rcases (hinv.pairs a b).carries f hf with ⟨-, hack'⟩ | ⟨n, hn⟩
    · exact absurd hack' hack
    · obtain ⟨c, hc, hid⟩ := hn.mem
      exact absurd (hid.symm.trans hi) (h.ne_next hlen c hc)
  acks f hf hack hi hto := by
    obtain ⟨c, hc, hid⟩ := h.acks a b f hf hack hto
    exact absurd (hid.symm.trans hi) (h.ne_next hlen c hc)
  seen hi := by
    rcases h.seen a b with hzero | ⟨c, hc, hid⟩
    · rw [hi, h.last a] at hzero
      have hnat := congrArg UInt8.toNat hzero
      simp only [UInt8.toNat_ofNat', UInt8.toNat_add, UInt8.toNat_one, UInt8.toNat_zero] at hnat
      omega
    · exact absurd (hid.symm.trans hi) (h.ne_next hlen c hc)

/-- The invariant of a node that has made fewer than 256 calls: an acknowledged
message to `b` was taken. -/
structure Reliable (s : Net) (a b : UInt8) : Prop where
  ordered : Ordered s
  recorded : Recorded s
  numbered : s.Numbered
  during : (s.calls a).length < 256 →
    ∀ n m i, (s.calls a)[n]? = some ⟨m, b, i⟩ → s.During a b n m i

theorem Reliable.step (hb : b ≠ broadcastAddress) (h : s.Reliable a b) {e : NetEvent}
    (hs : s.step e = some s') : s'.Reliable a b := by
  have hm := step_move hs
  refine ⟨h.ordered.step hs, h.recorded.step hs, h.numbered.step h.recorded.inv hm, ?_⟩
  intro hlen n m i hc
  have hle := (hm.calls a).length_le
  have hold : (s.calls a)[n]? = some ⟨m, b, i⟩ → s'.During a b n m i :=
    fun hc => (h.during (by omega) n m i hc).step hb hs
  rcases hm.counts a with ⟨hcalls, -⟩ | ⟨buf, address, hcalls, -⟩
  · exact hold (hcalls ▸ hc)
  · rw [hcalls, List.getElem?_append] at hc
    split at hc
    · exact hold hc
    · next hn =>
      -- the call that starts with this step
      obtain ⟨hlt, hnew⟩ := List.getElem?_eq_some_iff.mp hc
      rw [List.getElem_singleton] at hnew
      cases hnew
      rw [hcalls] at hlen
      simp only [List.length_append, List.length_singleton] at hlen hlt
      have hlast : n = (s.calls a).length := by omega
      subst hlast
      exact during_of_clauses h.recorded hb
        (h.numbered.clauses h.recorded.inv (by omega) m) hs hcalls

theorem reliable_start (a b : UInt8) : (start .constructed).Reliable a b := by
  refine ⟨ordered_start _, recorded_start _, numbered_start, ?_⟩
  intro _ n m i hc
  have hc : ([] : List SendCall)[n]? = some ⟨m, b, i⟩ := hc
  cases hc

/-- What a node is about to return comes after what it has returned. -/
theorem Ordered.pending (h : Ordered s) (a b : UInt8) :
    ∀ d ∈ s.pending a b, ∃ n, s.Returns a b n d ∧ ∀ m ∈ s.deliveredCalls a b, m < n := by
  intro d hd
  rw [Net.pending] at hd
  split at hd
  · next f len copied hctl =>
    obtain ⟨⟨rfl, hnew⟩, hd⟩ := List.mem_ite_nil_right.mp hd
    obtain rfl := List.mem_singleton.mp hd
    have hok := h.inv.nodes b
    rw [NodeOk, hctl] at hok
    obtain ⟨-, -, hack, rfl⟩ := hok
    have hf : f ∈ s.queue f.frame.headerFrom b := mem_queue_of_held hctl
    obtain ⟨n, hn, hreturns⟩ := returns_frame h.inv h.heard hf hack len
    exact ⟨n, hreturns, (h.inv.pairs _ b).lt_of_new hf hn hnew⟩
  · cases hd

theorem pending_length (s : Net) (a b : UInt8) : (s.pending a b).length ≤ 1 := by
  rw [pending]
  split
  · split
    · exact le_rfl
    · exact Nat.zero_le 1
  · exact Nat.zero_le 1

/-- A message that was taken has been returned, or is about to be. -/
theorem Took.mem {n : ℕ} {m : List UInt8} (h : s.Took a b n m) :
    ∃ d ∈ s.received a b ++ s.pending a b, d.call = some n := by
  rcases h with ⟨len, hdel⟩ | ⟨f, len, hctl, hcall, hfrom, hnew⟩
  · refine ⟨_, List.mem_append_left _ (List.mem_filter.mpr ⟨hdel, ?_⟩), rfl⟩
    exact decide_eq_true ⟨rfl, rfl⟩
  · refine ⟨⟨b, a, f.call, len, m.take len.toNat⟩, List.mem_append_right _ ?_, hcall⟩
    have hisNew : (s.node b).datagram.isNew f.frame := by
      show f.frame.headerId ≠ (s.node b).datagram.seenIds f.frame.headerFrom
      rw [hfrom]
      exact hnew
    rw [pending, hctl]
    dsimp only
    rw [if_pos ⟨hfrom, hisNew⟩]
    exact List.mem_singleton_self _

end Reliable

/-- What is pending is what the next step of the node returns. -/
theorem finish_received {s s' : Net} {b : UInt8} (hs : s.step (.finish b) = some s') (a : UInt8) :
    s'.received a b = s.received a b ++ s.pending a b := by
  simp only [step] at hs
  split at hs
  · next d f len copied hn =>
    obtain rfl := Option.some.inj hs
    rw [pending, hn, accept, received, received]
    dsimp only
    by_cases hnew : d.isNew f.frame
    · rw [if_pos hnew]
      by_cases hfrom : f.frame.headerFrom = a
      · rw [if_pos ⟨hfrom, hnew⟩, List.filter_append, List.filter_singleton]
        simp [hfrom]
      · rw [if_neg fun h => hfrom h.1, List.filter_append, List.filter_singleton]
        simp [hfrom]
    · rw [if_neg hnew, if_neg fun h => hnew h.2, List.append_nil]
      rfl
  · cases hs

/-- **What is acknowledged is returned once, and in order**, if the sender has
made fewer than 256 calls since it came up: what `b` has returned from `a`,
and returns with its next step, are the messages of calls one after another, and
all calls of `a` to `b` that have returned true are among them. -/
theorem reliable_in_order (es : List NetEvent) (s : Net)
    (hrun : run step (start .constructed) es = some s) (a b : UInt8)
    (hb : b ≠ broadcastAddress) (hlen : (s.calls a).length < 256) :
    (∀ s', s.step (.finish b) = some s' → s'.received a b = s.received a b ++ s.pending a b) ∧
    (∀ d ∈ s.received a b ++ s.pending a b, .recvfromAck a b d.len ∈ es) ∧
    ∃ ns : List ℕ, ns.Pairwise (· < ·) ∧
      List.Forall₂ (s.Returns a b) ns (s.received a b ++ s.pending a b) ∧
      ∀ n, (n, true) ∈ s.results a → (∃ m i, (s.calls a)[n]? = some ⟨m, b, i⟩) → n ∈ ns := by
  have h : s.Reliable a b :=
    run_invariant (fun _ _ _ h hs => Reliable.step hb h hs) (reliable_start a b) hrun
  refine ⟨fun s' hs => finish_received hs a, received_called hrun a b,
    (s.received a b ++ s.pending a b).filterMap Delivery.call, ?_, ?_, ?_⟩
  · rw [List.filterMap_append, ← deliveredCalls_eq]
    refine List.pairwise_append.mpr ⟨(h.ordered.inv.pairs a b).strict, ?_, ?_⟩
    · have hle : ((s.pending a b).filterMap Delivery.call).length ≤ 1 :=
        (List.length_filterMap_le _ _).trans (pending_length s a b)
      rcases hnum : (s.pending a b).filterMap Delivery.call with _ | ⟨n, _ | ⟨m, l⟩⟩
      · exact List.Pairwise.nil
      · exact List.pairwise_singleton _ n
      · rw [hnum] at hle
        simp at hle
    · intro m hm n hn
      obtain ⟨d, hd, hcall⟩ := List.mem_filterMap.mp hn
      obtain ⟨n', hreturns, hlt⟩ := h.ordered.pending a b d hd
      rw [hreturns.2.2.1, Option.some_inj] at hcall
      exact hcall ▸ hlt m hm
  · refine forall₂_filterMap fun d hd => ?_
    rcases List.mem_append.mp hd with hd | hd
    · obtain ⟨n, hreturns⟩ := h.ordered.received a b d hd
      exact ⟨n, hreturns.2.2.1, hreturns⟩
    · obtain ⟨n, hreturns, -⟩ := h.ordered.pending a b d hd
      exact ⟨n, hreturns.2.2.1, hreturns⟩
  · rintro n hret ⟨m, i, hc⟩
    obtain ⟨d, hd, hcall⟩ := ((h.during hlen n m i hc).result hret).mem
    exact List.mem_filterMap.mpr ⟨d, hd, hcall⟩

/-- Node 1 has got its acknowledgement, and node 2 has still to return the message. -/
def firstAck : List NetEvent := [.sendtoWait 1 [0x6d] 2, .recvfromAck 1 2 251, .waitReceive 1 2]

theorem firstAck_reliable :
    ∃ s, run step (start .constructed) firstAck = some s ∧
      s.results 1 = [(0, true)] ∧ s.pending 1 2 = [⟨2, 1, some 0, 251, [0x6d]⟩] ∧
      (∀ s', s.step (.finish 2) = some s' →
        s'.received 1 2 = s.received 1 2 ++ s.pending 1 2) ∧
      (∀ d ∈ s.received 1 2 ++ s.pending 1 2, .recvfromAck 1 2 d.len ∈ firstAck) ∧
      ∃ ns : List ℕ, ns.Pairwise (· < ·) ∧
        List.Forall₂ (s.Returns 1 2) ns (s.received 1 2 ++ s.pending 1 2) ∧
        ∀ n, (n, true) ∈ s.results 1 → (∃ m i, (s.calls 1)[n]? = some ⟨m, 2, i⟩) → n ∈ ns := by
  have hrun : run step (start .constructed) firstAck = some _ := rfl
  exact ⟨_, hrun, rfl, rfl, reliable_in_order _ _ hrun 1 2 (by decide) (by decide)⟩

end Net
