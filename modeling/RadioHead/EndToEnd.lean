/-
A message from one end of a chain of routers to the other.

Each node of the chain has the next one in its routing table as the next hop to
the last, and the links lose nothing: while a node waits, the acknowledgement
of the next one is among the messages it receives, after the first or a later
transmission.  The message is then delivered as it was sent, whatever else the
nodes receive meanwhile.

* `Station`, `LinkUp` — a node with what it receives while it waits, and the
  link from one to the next;
* `LinkUp.route` — what `route` puts on the air, and returns;
* `Passes` — what becomes of a message on its way;
* `end_to_end` — delivery, by induction on the chain.
-/
import RadioHead.Sends
import RadioHead.WaitLoop

namespace RHRouter

variable {β : Type}

/-- A router on the way of a message, and what it receives after each of its
transmissions. -/
structure Station (β : Type) where
  node : RHRouter β
  rounds : List (List Frame)

/-- The router's own `peekAtMessage`, and its `route` with the wait loop. -/
def loopVirtuals (rounds : List (List Frame)) : Virtuals β where
  peekAtMessage s _ := s
  route := loopRoute rounds

/-- A node after `init`, with an address of its own. -/
structure Up (s : RHRouter β) : Prop where
  address : s.thisAddress ≠ broadcastAddress
  headerFrom : s.txHeaderFrom = s.thisAddress

/-- The link from `a` to `b`, its next hop on the way to `dest`: `b` has not
seen the link number that `a` uses next, and what it acknowledges is
acknowledged in time. -/
structure LinkUp (dest : UInt8) (a b : Station β) : Prop where
  nextHop : a.node.routes.nextHop dest = some b.node.thisAddress
  fresh : a.node.lastSequenceNumber + 1 ≠ b.node.seenIds a.node.thisAddress
  lossless : ∃ (j : ℕ) (round : List Frame) (ack : Frame), j ≤ a.node.retries.toNat ∧
    a.rounds[j]? = some round ∧ ack ∈ round ∧
      (b.node.acknowledge (a.node.lastSequenceNumber + 1) a.node.thisAddress).1 = some ack

/-- The octets of a routed message. -/
def routed (dest source : UInt8) (hops : ℕ) (id flags : UInt8) (buf : List UInt8) : List UInt8 :=
  [dest, source, UInt8.ofNat hops, id, flags] ++ buf

/-- What a node puts on the air to send a message over one link: the message,
any number of times, and acknowledgements. -/
structure SentOver (source address seq : UInt8) (data : List UInt8) (out : List Frame) : Prop where
  first : ∃ f ∈ out, Carries source address seq data f
  all : ∀ f ∈ out, ¬ f.IsAck → Carries source address seq data f

section Link

variable {dest : UInt8} {a b : Station β}

/-- `route` transmits the message to the next hop, and returns without an
error. -/
theorem LinkUp.route (h : LinkUp dest a b) (ha : a.node.Up) (hb : b.node.Up) {v : RHRouter β}
    (hd : v.lastSequenceNumber = a.node.lastSequenceNumber ∧ v.retries = a.node.retries ∧
      v.thisAddress = a.node.thisAddress ∧ v.txHeaderFrom = a.node.txHeaderFrom)
    (hroutes : v.routes = a.node.routes) (hdest : dest ≠ broadcastAddress)
    (h0 : v.tmpMessage 0 = dest) {n : UInt8} (hn : n.toNat ≤ maxMessageLen) :
    (v.loopRoute a.rounds n).1 = .none ∧
      SentOver a.node.thisAddress b.node.thisAddress (a.node.lastSequenceNumber + 1)
        (v.tmpMessage.load 0 n.toNat) (v.sentSince (v.loopRoute a.rounds n).2) := by
  obtain ⟨hseq, hretries, hthis, hfrom⟩ := hd
  obtain ⟨j, round, ack, hj, hround, hmem, hack⟩ := h.lossless
  have hnext : v.nextHop = some b.node.thisAddress := by
    rw [RHRouter.nextHop, h0, if_pos hdest, hroutes]
    exact h.nextHop
  have hrounds : a.rounds ≠ [] := by
    intro hnil
    rw [hnil] at hround
    cases hround
  set u : RHRouter β := { v.note [.octet 0, .upTo n.toNat] with
    lastSequenceNumber := v.lastSequenceNumber + 1 } with hu
  have hloop : (v.note [.octet 0, .upTo n.toNat]).loopSendtoWait a.rounds n b.node.thisAddress
      = u.attempts b.node.thisAddress (v.lastSequenceNumber + 1) n a.rounds 0 := rfl
  -- an acknowledgement comes in round `j`
  have hacked : (u.attempts b.node.thisAddress (v.lastSequenceNumber + 1) n a.rounds 0).1
      = true := by
    obtain ⟨hackFrom, hackTo, hackId, hisAck⟩ := RHReliableDatagram.acknowledge_frame hack
    refine attempts_acked hmem hb.address hround ?_ ⟨?_, ?_, hisAck, ?_⟩
    · rw [hu]
      show 0 + j ≤ v.retries.toNat
      rw [hretries]
      omega
    · rw [hackFrom, hb.headerFrom]
    · rw [hackTo]
      exact hthis.symm
    · rw [hackId, hseq]
  rw [loopRoute_hop hnext]
  dsimp only
  rw [hloop, if_pos hacked]
  refine ⟨rfl, ?_⟩
  -- all that is sent is this message, and acknowledgements of others
  obtain ⟨f, out, hout, hf⟩ := attempts_first u b.node.thisAddress (v.lastSequenceNumber + 1) hn
    hrounds
  obtain ⟨out', hout', hall⟩ := (attempts_waits b.node.thisAddress (v.lastSequenceNumber + 1) n
    a.rounds 0 u).sent
  have hfrom' : u.txHeaderFrom = a.node.thisAddress := hfrom.trans ha.headerFrom
  have hsent : u.sent = v.sent := rfl
  rw [hfrom', hseq] at hf
  refine ⟨⟨f, ?_, hf⟩, ?_⟩
  · rw [sentSince, hout, hsent, List.drop_left]
    exact List.mem_cons_self
  · intro g hg hnotAck
    rw [sentSince, hout', hsent, List.drop_left] at hg
    rcases hall g hg with hisAck | hg
    · exact absurd hisAck hnotAck
    · rw [hfrom', hseq] at hg
      exact hg

/-- A message on the link from `a` to `b`. -/
def Crosses (a b : Station β) (data : List UInt8) (f : Frame) : Prop :=
  Carries a.node.thisAddress b.node.thisAddress (a.node.lastSequenceNumber + 1) data f

/-- It has not been seen there. -/
theorem LinkUp.takes (h : LinkUp dest a b) {data : List UInt8} {f : Frame}
    (hf : Crosses a b data f) : b.node.Takes f := by
  refine ⟨hf.notAck, ?_⟩
  rw [RHReliableDatagram.isNew, hf.headerId, hf.headerFrom]
  exact h.fresh

theorem length_routed (dest source : UInt8) (hops : ℕ) (id flags : UInt8) (buf : List UInt8) :
    (routed dest source hops id flags buf).length = buf.length + routedHeaderLen := by
  rw [routed, List.length_append, Nat.add_comm]
  rfl

/-- One more hop. -/
theorem forwarded_routed {source id flags : UInt8} {buf : List UInt8} {hops : ℕ} {f : Frame}
    (hf : f.data = routed dest source hops id flags buf) :
    f.forwarded = routed dest source (hops + 1) id flags buf := by
  rw [Frame.forwarded, Frame.hops, hf, routed, routed, UInt8.ofNat_add]
  rfl

/-- A node on the way sends the message on: it returns nothing, and puts the
message on the air again, with one more hop. -/
theorem LinkUp.passes {c : Station β} (h : LinkUp dest a b) (h' : LinkUp dest b c)
    (hb : b.node.Up) (hc : c.node.Up) (hdest : dest ≠ broadcastAddress)
    (haway : dest ≠ b.node.thisAddress) {source id flags : UInt8} {buf : List UInt8} {hops : ℕ}
    (hlen : buf.length + routedHeaderLen ≤ maxMessageLen) (hhops : hops < b.node.maxHops.toNat)
    {f : Frame} (hf : Crosses a b (routed dest source hops id flags buf) f) (len : UInt8) :
    (b.node.recvfromAck (loopVirtuals b.rounds) f len).1 = none ∧
      SentOver b.node.thisAddress c.node.thisAddress (b.node.lastSequenceNumber + 1)
        f.forwarded (b.node.sentSince (b.node.recvfromAck (loopVirtuals b.rounds) f len).2) := by
  have hlong : routedHeaderLen ≤ f.data.length := by
    rw [hf.data, length_routed]
    exact Nat.le_add_left _ _
  have hmax : f.data.length ≤ maxMessageLen := by
    rw [hf.data, length_routed]
    exact hlen
  set m := stored f b.node.tmpMessage with hm
  have h0 : m 0 = dest := by
    rw [hm, getD_stored (by rw [routedHeaderLen] at hlong; omega) hmax, hf.data]
    rfl
  have h2 : m 2 = UInt8.ofNat hops := by
    rw [hm, getD_stored (by rw [routedHeaderLen] at hlong; omega) hmax, hf.data]
    rfl
  set u := (b.node.taken f).note [.octet 0] with hu
  have hnot : ¬ u.Here := by
    show ¬ (m 0 = (b.node.taken f).thisAddress ∨ m 0 = broadcastAddress)
    rw [h0, taken_thisAddress, not_or]
    exact ⟨haway, hdest⟩
  -- the count of hops has not wrapped
  have hlt : u.tmpMessage 2 < u.maxHops := by
    have hsmall := b.node.maxHops.toNat_lt
    show m 2 < b.node.maxHops
    rw [h2, UInt8.lt_iff_toNat_lt, UInt8.toNat_ofNat_of_lt' (show hops < 256 by omega)]
    exact hhops
  have hrecv : b.node.recvfromAck (loopVirtuals b.rounds) f len
      = (none, (u.hopped.loopRoute b.rounds f.storedLen).2) := by
    rw [recvfromAck_of_takes (h.takes hf), dispatch]
    show (if u.Here then _ else (none, u.forward _ _)) = _
    rw [if_neg hnot, forward_eq, if_pos hlt]
    rfl
  have hstored : f.storedLen.toNat = f.data.length := by
    rw [storedLen_toNat, routedMessageSize]
    rw [maxMessageLen] at hmax
    omega
  have hload : u.hopped.tmpMessage.load 0 f.storedLen.toNat = f.forwarded :=
    load_hopped hlong hmax b.node.tmpMessage
  have h0' : u.hopped.tmpMessage 0 = dest := by
    show (m.write 2 [m 2 + 1]) 0 = dest
    rw [Mem.write_lt (by decide), h0]
  have hroute := h'.route hb hc (v := u.hopped) ⟨taken_lastSequenceNumber _ f, taken_retries _ f,
    taken_thisAddress _ f, taken_txHeaderFrom _ f⟩ rfl hdest h0' (hstored ▸ hmax)
  rw [hload] at hroute
  rw [hrecv]
  exact ⟨rfl, hroute.2⟩

/-- The last node delivers the message. -/
theorem LinkUp.delivers (h : LinkUp dest a b) (hhere : dest = b.node.thisAddress)
    {source id flags : UInt8} {buf : List UInt8} {hops : ℕ}
    (hlen : buf.length + routedHeaderLen ≤ maxMessageLen) {f : Frame}
    (hf : Crosses a b (routed dest source hops id flags buf) f) (capacity : UInt8) :
    (b.node.recvfromAck (loopVirtuals b.rounds) f capacity).1
      = some ⟨source, dest, id, flags, buf.take capacity.toNat⟩ := by
  have hcount : f.data.length = buf.length + routedHeaderLen := by rw [hf.data, length_routed]
  have hmax : f.data.length ≤ maxMessageLen := hcount ▸ hlen
  have hstored : f.storedLen.toNat = f.data.length := by
    rw [storedLen_toNat, routedMessageSize]
    rw [maxMessageLen] at hmax
    omega
  set m := stored f b.node.tmpMessage with hm
  -- the header
  have hget : ∀ i < routedHeaderLen, m i = (routed dest source hops id flags buf).getD i 0 := by
    intro i hi
    rw [hm, getD_stored (by omega) hmax, hf.data]
  have h0 : m 0 = dest := hget 0 (by decide)
  -- the payload
  have hbuf : m.load routedHeaderLen buf.length = buf := by
    have hdata : m.load 0 f.data.length = f.data := by
      rw [hm, stored, List.take_of_length_le, Mem.load_write_self]
      rw [routedMessageSize]
      rw [maxMessageLen] at hmax
      omega
    have hdrop := congrArg (List.drop routedHeaderLen) hdata
    rw [Mem.drop_load, hcount, Nat.add_sub_cancel, Nat.zero_add, hf.data] at hdrop
    exact hdrop
  set msgLen := f.storedLen - UInt8.ofNat routedHeaderLen with hmsgLen
  have hmsg : msgLen.toNat = buf.length := by
    have hle : UInt8.ofNat routedHeaderLen ≤ f.storedLen := by
      rw [UInt8.le_iff_toNat_le, hstored, hcount]
      exact Nat.le_add_left _ _
    rw [hmsgLen, UInt8.toNat_sub_of_le _ _ hle, hstored, hcount]
    exact Nat.add_sub_cancel _ _
  have hcopied : (if capacity > msgLen then msgLen else capacity).toNat
      = min capacity.toNat buf.length := by
    split_ifs with hcap
    · have := UInt8.lt_iff_toNat_lt.mp hcap
      omega
    · have := UInt8.le_iff_toNat_le.mp (UInt8.not_lt.mp hcap)
      omega
  have hload : m.load routedHeaderLen (if capacity > msgLen then msgLen else capacity).toNat
      = buf.take capacity.toNat := by
    rw [hcopied, ← Mem.take_load (Nat.min_le_right _ _), hbuf]
    exact List.take_eq_take_min.symm
  have hhere' : ((b.node.taken f).note [.octet 0]).Here := by
    refine .inl ?_
    show m 0 = (b.node.taken f).thisAddress
    rw [h0, taken_thisAddress]
    exact hhere
  rw [recvfromAck_of_takes (h.takes hf), dispatch]
  show (if ((b.node.taken f).note [.octet 0]).Here then _ else _ : _ × _).1 = _
  rw [if_pos hhere']
  show some (Received.mk (m 1) (m 0) (m 3) (m 4) (m.load _ _)) = _
  rw [hload, h0, hget 1 (by decide), hget 3 (by decide), hget 4 (by decide)]
  rfl

end Link

/-! ### The chain -/

/-- What becomes of a frame on its way through the nodes: each of them is the one
it is addressed to, returns nothing to its caller and puts the message on the
air again, the same octets every time; whatever arrives at the end has the
property `P`. -/
def Passes (P : Frame → Prop) : List (Station β) → Frame → Prop
  | [], f => P f
  | b :: bs, f => f.headerTo = b.node.thisAddress ∧ ∀ len,
    let r := b.node.recvfromAck (loopVirtuals b.rounds) f len
    r.1 = none ∧ (∃ g ∈ b.node.sentSince r.2, ¬ g.IsAck) ∧
      ∀ g ∈ b.node.sentSince r.2, ¬ g.IsAck → g.data = f.forwarded ∧ Passes P bs g

/-- The last node is the one addressed, and gets the message as it was sent, but
for its hops. -/
def Arrives (d : Station β) (source id flags : UInt8) (buf : List UInt8) (hops : ℕ)
    (f : Frame) : Prop :=
  f.headerTo = d.node.thisAddress ∧ f.hops.toNat = hops ∧
    f.data = routed d.node.thisAddress source hops id flags buf ∧
    ∀ capacity, (d.node.recvfromAck (loopVirtuals d.rounds) f capacity).1
      = some ⟨source, d.node.thisAddress, id, flags, buf.take capacity.toNat⟩

/-- From one node to the end, by induction on the nodes in between. -/
theorem passes_to_end {d : Station β} (hd : d.node.Up) {source id flags : UInt8}
    {buf : List UInt8} (hlen : buf.length + routedHeaderLen ≤ maxMessageLen)
    {ns : List (Station β)} :
    ∀ {a b : Station β} {hops : ℕ} {f : Frame},
      (a :: (ns ++ [d])).IsChain (LinkUp d.node.thisAddress) →
      (∀ n ∈ ns, n.node.Up ∧ d.node.thisAddress ≠ n.node.thisAddress ∧
        hops + ns.length ≤ n.node.maxHops.toNat) →
      hops + ns.length < 256 → (ns ++ [d]).head? = some b →
      Crosses a b (routed d.node.thisAddress source hops id flags buf) f →
      Passes (Arrives d source id flags buf (hops + ns.length)) ns f := by
  induction ns with
  | nil =>
    intro a b hops f hchain _ hsmall hb hf
    obtain rfl : d = b := Option.some.inj hb
    have hlink : LinkUp d.node.thisAddress a d := (List.isChain_cons_cons.mp hchain).1
    refine ⟨hf.headerTo, ?_, hf.data, fun capacity => hlink.delivers rfl hlen hf capacity⟩
    rw [Frame.hops, hf.data]
    exact UInt8.toNat_ofNat_of_lt' hsmall
  | cons n ns ih =>
    intro a b hops f hchain hns hsmall hb hf
    obtain rfl : n = b := Option.some.inj hb
    rw [List.length_cons] at hns hsmall
    rw [List.cons_append] at hchain
    obtain ⟨hlink, hrest⟩ := List.isChain_cons_cons.mp hchain
    obtain ⟨hup, haway, hmax⟩ := hns n List.mem_cons_self
    -- the node after this one
    obtain ⟨c, cs, hcs⟩ := List.exists_cons_of_ne_nil (show ns ++ [d] ≠ [] by simp)
    have hnext : LinkUp d.node.thisAddress n c := by
      rw [hcs] at hrest
      exact (List.isChain_cons_cons.mp hrest).1
    have hcup : c.node.Up := by
      have hmem : c ∈ ns ++ [d] := hcs ▸ List.mem_cons_self
      rcases List.mem_append.mp hmem with hmem | hmem
      · exact (hns c (List.mem_cons_of_mem n hmem)).1
      · exact List.mem_singleton.mp hmem ▸ hd
    refine ⟨hf.headerTo, fun len => ?_⟩
    obtain ⟨hnone, hout⟩ := hlink.passes hnext hup hcup hd.address haway hlen (by omega) hf len
    obtain ⟨g, hg, hcarries⟩ := hout.first
    refine ⟨hnone, ⟨g, hg, hcarries.notAck⟩, ?_⟩
    intro g hg hnotAck
    have hcarries := hout.all g hg hnotAck
    refine ⟨hcarries.data, ?_⟩
    rw [forwarded_routed hf.data] at hcarries
    have hend := ih hrest (fun m hm => ?_) (by omega) (hcs ▸ rfl) hcarries
    · rw [List.length_cons, show hops + (ns.length + 1) = hops + 1 + ns.length by omega]
      exact hend
    · obtain ⟨hmup, hmaway, hmmax⟩ := hns m (List.mem_cons_of_mem n hm)
      exact ⟨hmup, hmaway, by omega⟩

/-- `sendtoWait` puts the message on the air, and returns without an error. -/
theorem LinkUp.sendtoWait {a b : Station β} {dest : UInt8} (h : LinkUp dest a b)
    (ha : a.node.Up) (hb : b.node.Up) (hdest : dest ≠ broadcastAddress) {buf : List UInt8}
    (hlen : buf.length + routedHeaderLen ≤ maxMessageLen) (flags : UInt8) :
    let r := a.node.sendtoWait (loopRoute a.rounds) buf dest flags
    r.1 = .none ∧ SentOver a.node.thisAddress b.node.thisAddress
      (a.node.lastSequenceNumber + 1)
      (routed dest a.node.thisAddress 0 a.node.lastE2ESequenceNumber flags buf)
      (a.node.sentSince r.2) := by
  set v := a.node.composed buf dest a.node.thisAddress flags with hv
  have hn := composed_length a.node dest a.node.thisAddress flags hlen
  rw [length_outgoing] at hn
  have hroute := h.route ha hb (v := v) ⟨rfl, rfl, rfl, rfl⟩ rfl hdest
    (composed_dest a.node dest a.node.thisAddress flags) (hn.trans_le (by omega))
  rw [hv, composed_load a.node dest a.node.thisAddress flags hlen] at hroute
  rw [RHRouter.sendtoWait, sendtoFromSourceWait_eq a.node dest a.node.thisAddress flags _ hlen]
  exact hroute

/-- **Delivery along a chain.**  The source returns without an error, every
node in between passes the message on to the next one, and the last one
delivers it as it was sent, with as many hops as there are nodes in between; and
all transmissions on a link are of the same octets. -/
theorem end_to_end (s d : Station β) (ns : List (Station β))
    (hup : ∀ n ∈ s :: (ns ++ [d]), n.node.Up)
    (hdistinct : ((s :: (ns ++ [d])).map fun n => n.node.thisAddress).Nodup)
    (hhops : ∀ n ∈ ns, ns.length ≤ n.node.maxHops.toNat)
    (hchain : (s :: (ns ++ [d])).IsChain (LinkUp d.node.thisAddress))
    (buf : List UInt8) (flags : UInt8) (hlen : buf.length + routedHeaderLen ≤ maxMessageLen) :
    let r := s.node.sendtoWait (loopRoute s.rounds) buf d.node.thisAddress flags
    let source := s.node.thisAddress
    let id := s.node.lastE2ESequenceNumber
    r.1 = .none ∧ (∃ f ∈ s.node.sentSince r.2, ¬ f.IsAck) ∧
      ∀ f ∈ s.node.sentSince r.2, ¬ f.IsAck →
        f.data = routed d.node.thisAddress source 0 id flags buf ∧
          Passes (Arrives d source id flags buf ns.length) ns f := by
  have hd : d.node.Up := hup d (by simp)
  obtain ⟨b, bs, hbs⟩ := List.exists_cons_of_ne_nil (show ns ++ [d] ≠ [] by simp)
  have hlink : LinkUp d.node.thisAddress s b := by
    rw [hbs] at hchain
    exact (List.isChain_cons_cons.mp hchain).1
  have hb : b.node.Up := hup b (by rw [hbs]; simp)
  obtain ⟨hnone, hout⟩ := hlink.sendtoWait (hup s List.mem_cons_self) hb hd.address hlen flags
  obtain ⟨f, hf, hcarries⟩ := hout.first
  refine ⟨hnone, ⟨f, hf, hcarries.notAck⟩, ?_⟩
  intro f hf hnotAck
  have hcarries := hout.all f hf hnotAck
  refine ⟨hcarries.data, ?_⟩
  have hns : ∀ n ∈ ns, n.node.Up ∧ d.node.thisAddress ≠ n.node.thisAddress ∧
      0 + ns.length ≤ n.node.maxHops.toNat := by
    intro n hn
    refine ⟨hup n (by simp [hn]), ?_, by rw [Nat.zero_add]; exact hhops n hn⟩
    rw [List.map_cons, List.nodup_cons, List.map_append, List.nodup_append] at hdistinct
    intro heq
    exact hdistinct.2.2.2 _ (List.mem_map_of_mem hn) _ (by simp) heq.symm
  have hsmall : 0 + ns.length < 256 := by
    rcases ns with _ | ⟨n, ns⟩
    · exact Nat.zero_lt_succ 255
    · have hmax := hhops n List.mem_cons_self
      have := n.node.maxHops.toNat_lt
      omega
  -- by induction along the chain
  have hpasses := passes_to_end hd hlen hchain hns hsmall (hbs ▸ rfl) hcarries
  rw [Nat.zero_add] at hpasses
  exact hpasses

/-- Node 1 hears from node 2 after its second transmission only. -/
def firstNode : Station Unit where
  node := { constructed 1 () with routes := noRoutes.addRouteTo 3 2 }
  rounds := [[], [⟨1, 2, 1, flagsAck, [0x21]⟩]]

def middleNode : Station Unit where
  node := { constructed 2 () with routes := noRoutes.addRouteTo 3 3 }
  rounds := [[⟨2, 3, 1, flagsAck, [0x21]⟩]]

def lastNode : Station Unit := ⟨constructed 3 (), []⟩

/-- Node 1 sends a message to node 3, over node 2. -/
theorem firstNode_sends :
    let r := firstNode.node.sendtoWait (loopRoute firstNode.rounds) [7, 8] 3
    r.1 = .none ∧ (r.2.sent.map fun f => (f.headerTo, f.data))
        = [(2, [3, 1, 0, 0, 0, 7, 8]), (2, [3, 1, 0, 0, 0, 7, 8])] ∧
      ∀ f ∈ firstNode.node.sentSince r.2, ¬ f.IsAck →
        Passes (Arrives lastNode 1 0 0 [7, 8] 1) [middleNode] f := by
  have hup : ∀ n ∈ [firstNode, middleNode, lastNode], n.node.Up := by
    intro n hn
    simp only [List.mem_cons, List.not_mem_nil, or_false] at hn
    rcases hn with rfl | rfl | rfl <;> exact ⟨by decide, rfl⟩
  have hchain : [firstNode, middleNode, lastNode].IsChain (LinkUp 3) := by
    refine List.isChain_cons_cons.mpr ⟨⟨by decide, by decide, 1, _, _, by decide, rfl,
      List.mem_singleton_self _, rfl⟩, List.isChain_cons_cons.mpr ⟨⟨by decide, by decide, 0, _, _,
      by decide, rfl, List.mem_singleton_self _, rfl⟩, List.isChain_singleton _⟩⟩
  obtain ⟨hnone, -, hall⟩ := end_to_end firstNode lastNode [middleNode] hup (by decide)
    (fun n hn => by rw [List.mem_singleton.mp hn]; decide) hchain [7, 8] 0 (by decide)
  exact ⟨hnone, by decide, fun f hf hnotAck => (hall f hf hnotAck).2⟩

end RHRouter
