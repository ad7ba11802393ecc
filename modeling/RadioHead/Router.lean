/-
Routing: `RHRouter` over `RHReliableDatagram`.

A node's router as functions of its members.  All messages, received or to be
sent, pass through the one static `_tmpMessage`: five octets of header, then
the data.  The link below appears through what its `sendtoWait` answers
(`LinkAnswer`), and a subclass through what it adds to the members and the two
virtual functions it overrides (`Virtuals`).  With the members go the messages
handed to the link and the octets of `_tmpMessage` looked at.

* `RHRouter`, `route`, `sendtoFromSourceWait`, `recvfromAck` — the router;
* `NoLeak` — the outcome of `recvfromAck` does not depend on what earlier
  messages left in `_tmpMessage`, and a message without a header has none;
* `noLeak_iff` — when this holds: the header is all there, or the message is
  dropped on account of the part that is;
* `runt_delivered` — a message of one octet is delivered, with a header of
  octets from the messages before it.
-/
import RadioHead.Lib.Memory
import RadioHead.ReliableDatagram
import RadioHead.RoutingTable

/-- The return codes `RH_ROUTER_ERROR_*`. -/
inductive RouterError where
  | none
  | invalidLength
  | noRoute
  | timeout
  | noReply
  | unableToDeliver
  deriving DecidableEq, Repr

/-- `RH_DEFAULT_MAX_HOPS`. -/
def defaultMaxHops : UInt8 := 30

/-- `sizeof(RoutedMessageHeader)`. -/
def routedHeaderLen : ℕ := 5

/-- `sizeof(RoutedMessage)`: the header and `RH_ROUTER_MAX_MESSAGE_LEN` octets. -/
def routedMessageSize : ℕ := 255

/-- What the wait loop of `RHReliableDatagram::sendtoWait` leaves: if the
message was acknowledged, the FROM header of the last message received, the
transmit headers, and the number of retransmissions. -/
structure LinkAnswer where
  acked : Bool
  rxHeaderFrom : UInt8
  txHeaderTo : UInt8
  txHeaderId : UInt8
  txHeaderFlags : UInt8
  retransmissions : UInt32

/-- What is done with the octets of a message: octet `i` is interpreted, the
octets before `n` are copied or stored, or a list is taken to have `n` entries. -/
inductive Access where
  | octet (i : ℕ)
  | upTo (n : ℕ)
  | entries (n : UInt8)
  deriving DecidableEq, Repr

/-- The members of a router; `β` is what a subclass adds. -/
structure RHRouter (β : Type) extends RHReliableDatagram where
  rxHeaderFrom : UInt8
  lastE2ESequenceNumber : UInt8
  maxHops : UInt8
  tmpMessage : Mem
  routes : RoutingTable
  derived : β
  sent : List Frame
  accesses : List Access

/-- What `recvfromAck` returns through its pointers; `*len` is the length of
`buf`. -/
structure Received where
  source : UInt8
  dest : UInt8
  id : UInt8
  flags : UInt8
  buf : List UInt8
  deriving DecidableEq, Repr

/-- The length `recvfromAck` gets for a frame: no more than fits in
`_tmpMessage`. -/
def Frame.storedLen (f : Frame) : UInt8 := UInt8.ofNat (min routedMessageSize f.data.length)

/-- The zeroed slots of a router in static memory. -/
def noRoutes : RoutingTable := .cleared (List.replicate routingTableSize ⟨0, 0, 0⟩) (by simp)

namespace RHRouter

variable {β : Type}

/-- The members after the constructor and `init`, in zeroed memory. -/
def constructed (thisAddress : UInt8) (derived : β) : RHRouter β where
  toRHReliableDatagram :=
    { RHReliableDatagram.constructed thisAddress with txHeaderFrom := thisAddress }
  rxHeaderFrom := broadcastAddress
  lastE2ESequenceNumber := 0
  maxHops := defaultMaxHops
  tmpMessage := fun _ => 0
  routes := noRoutes
  derived := derived
  sent := []
  accesses := []

/-- The functions a subclass overrides; the message is always `_tmpMessage`. -/
structure Virtuals (β : Type) where
  peekAtMessage : RHRouter β → UInt8 → RHRouter β
  route : RHRouter β → UInt8 → RouterError × RHRouter β

def setMessage (s : RHRouter β) (m : Mem) : RHRouter β := { s with tmpMessage := m }

def note (s : RHRouter β) (l : List Access) : RHRouter β := { s with accesses := s.accesses ++ l }

def addRouteTo (s : RHRouter β) (dest nextHop : UInt8) : RHRouter β :=
  { s with routes := s.routes.addRouteTo dest nextHop }

def deleteRouteTo (s : RHRouter β) (dest : UInt8) : RHRouter β :=
  { s with routes := (s.routes.deleteRouteTo dest).2 }

/-- `RHReliableDatagram::sendtoWait`.  `link` answers for the wait loop, given
all messages sent so far; a broadcast is not waited for. -/
def linkSendtoWait (link : List Frame → LinkAnswer) (s : RHRouter β) (buf : List UInt8)
    (address : UInt8) : Bool × RHRouter β :=
  let seq := s.lastSequenceNumber + 1
  let r := { s.toRHReliableDatagram with lastSequenceNumber := seq }.attempt seq buf address
  let s := { s with toRHReliableDatagram := r.2, sent := s.sent ++ r.1.toList }
  if address = broadcastAddress then (true, s)
  else
    let a := link s.sent
    (a.acked,
      { s with
        rxHeaderFrom := a.rxHeaderFrom
        txHeaderTo := a.txHeaderTo
        txHeaderId := a.txHeaderId
        txHeaderFlags := a.txHeaderFlags
        retransmissions := s.retransmissions + a.retransmissions })

/-- `RHReliableDatagram::recvfromAck` into `_tmpMessage`, with the frame that
is available. -/
def linkRecvfromAck (s : RHRouter β) (f : Frame) : Bool × RHRouter β :=
  let s := { s with
    tmpMessage := s.tmpMessage.write 0 (f.data.take routedMessageSize)
    rxHeaderFrom := f.headerFrom }
  if f.IsAck then (false, s)
  else
    let d := if f.headerTo ≠ broadcastAddress then (s.acknowledge f.headerId f.headerFrom).2
      else s.toRHReliableDatagram
    if d.isNew f then (true, { s with toRHReliableDatagram := d.markSeen f })
    else (false, { s with toRHReliableDatagram := d })

/-- The next hop for the message in `_tmpMessage`, if there is one. -/
def nextHop (s : RHRouter β) : Option UInt8 :=
  let dest := s.tmpMessage 0
  if dest ≠ broadcastAddress then s.routes.nextHop dest else some broadcastAddress

/-- `RHRouter::route`. -/
def route (link : List Frame → LinkAnswer) (s : RHRouter β) (messageLen : UInt8) :
    RouterError × RHRouter β :=
  let n := messageLen.toNat
  match s.nextHop with
  | none => (.noRoute, s.note [.octet 0])
  | some hop =>
    let r := (s.note [.octet 0, .upTo n]).linkSendtoWait link (s.tmpMessage.load 0 n) hop
    (if r.1 then .none else .unableToDeliver, r.2)

/-- `sendtoFromSourceWait`, with the `route` of the object. -/
def sendtoFromSourceWait (route : RHRouter β → UInt8 → RouterError × RHRouter β)
    (s : RHRouter β) (buf : List UInt8) (dest source : UInt8) (flags : UInt8 := 0) :
    RouterError × RHRouter β :=
  if maxMessageLen < buf.length + routedHeaderLen then (.invalidLength, s)
  else
    let header := [dest, source, 0, s.lastE2ESequenceNumber, flags]
    let s := s.note [.upTo (routedHeaderLen + buf.length)]
    route
      ({ s with lastE2ESequenceNumber := s.lastE2ESequenceNumber + 1 }.setMessage
        (s.tmpMessage.write 0 (header ++ buf)))
      (UInt8.ofNat (routedHeaderLen + buf.length))

/-- `RHRouter::sendtoWait`. -/
def sendtoWait (route : RHRouter β → UInt8 → RouterError × RHRouter β) (s : RHRouter β)
    (buf : List UInt8) (dest : UInt8) (flags : UInt8 := 0) : RouterError × RHRouter β :=
  s.sendtoFromSourceWait route buf dest s.thisAddress flags

/-- The message is for this node, or for all. -/
def Here (s : RHRouter β) : Prop :=
  s.tmpMessage 0 = s.thisAddress ∨ s.tmpMessage 0 = broadcastAddress

instance (s : RHRouter β) : Decidable s.Here := inferInstanceAs (Decidable (_ ∨ _))

/-- The message is copied to the caller, who has room for `len` octets. -/
def deliver (s : RHRouter β) (messageLen len : UInt8) : Received × RHRouter β :=
  let msgLen := messageLen - UInt8.ofNat routedHeaderLen
  let n := if len > msgLen then msgLen else len
  (⟨s.tmpMessage 1, s.tmpMessage 0, s.tmpMessage 3, s.tmpMessage 4,
      s.tmpMessage.load routedHeaderLen n.toNat⟩,
    s.note [.octet 1, .octet 3, .octet 4, .upTo (routedHeaderLen + n.toNat)])

/-- The message is for another node: it is sent on, unless it has made all its
hops. -/
def forward (v : Virtuals β) (s : RHRouter β) (messageLen : UInt8) : RHRouter β :=
  let hops := s.tmpMessage 2
  let s := (s.setMessage (s.tmpMessage.write 2 [hops + 1])).note [.octet 2]
  if hops < s.maxHops then (v.route s messageLen).2 else s

/-- `recvfromAck` from where the link has returned a message. -/
def dispatch (v : Virtuals β) (s : RHRouter β) (messageLen len : UInt8) :
    Option Received × RHRouter β :=
  let s := (v.peekAtMessage s messageLen).note [.octet 0]
  if s.Here then (some (s.deliver messageLen len).1, (s.deliver messageLen len).2)
  else (none, s.forward v messageLen)

/-- `RHRouter::recvfromAck`, with the frame that is available and the space in
the caller's buffer. -/
def recvfromAck (v : Virtuals β) (s : RHRouter β) (f : Frame) (len : UInt8) :
    Option Received × RHRouter β :=
  let r := s.linkRecvfromAck f
  if r.1 then r.2.dispatch v f.storedLen len else (none, r.2)

/-- The router's own `peekAtMessage` and `route`. -/
def virtuals (link : List Frame → LinkAnswer) : Virtuals β where
  peekAtMessage s _ := s
  route := route link

@[simp] theorem virtuals_route (link : List Frame → LinkAnswer) :
    (virtuals (β := β) link).route = route link := rfl

/-! ### Sending -/

/-- The octets of a routed message that starts on its way. -/
def outgoing (s : RHRouter β) (buf : List UInt8) (dest source flags : UInt8) : List UInt8 :=
  [dest, source, 0, s.lastE2ESequenceNumber, flags] ++ buf

/-- The members when `sendtoFromSourceWait` hands the message to `route`. -/
def composed (s : RHRouter β) (buf : List UInt8) (dest source flags : UInt8) : RHRouter β :=
  { s.note [.upTo (routedHeaderLen + buf.length)] with
    lastE2ESequenceNumber := s.lastE2ESequenceNumber + 1
    tmpMessage := s.tmpMessage.write 0 (s.outgoing buf dest source flags) }

section Sending

variable (s : RHRouter β) {buf : List UInt8} (dest source flags : UInt8)

theorem sendtoFromSourceWait_eq (route : RHRouter β → UInt8 → RouterError × RHRouter β)
    (hlen : buf.length + routedHeaderLen ≤ maxMessageLen) :
    s.sendtoFromSourceWait route buf dest source flags =
      route (s.composed buf dest source flags) (UInt8.ofNat (routedHeaderLen + buf.length)) :=
  if_neg (not_lt.mpr hlen)

theorem length_outgoing :
    (s.outgoing buf dest source flags).length = routedHeaderLen + buf.length :=
  List.length_append

/-- Eight bits are enough for the length. -/
theorem composed_length (hlen : buf.length + routedHeaderLen ≤ maxMessageLen) :
    (UInt8.ofNat (routedHeaderLen + buf.length)).toNat =
      (s.outgoing buf dest source flags).length := by
  rw [length_outgoing]
  refine UInt8.toNat_ofNat_of_lt' ?_
  rw [maxMessageLen] at hlen
  exact (show routedHeaderLen + buf.length < 256 by omega)

theorem composed_load (hlen : buf.length + routedHeaderLen ≤ maxMessageLen) :
    (s.composed buf dest source flags).tmpMessage.load 0
      (UInt8.ofNat (routedHeaderLen + buf.length)).toNat = s.outgoing buf dest source flags := by
  rw [composed_length s dest source flags hlen]
  exact Mem.load_write_self s.tmpMessage 0 (s.outgoing buf dest source flags)

/-- The header and the data are in their places. -/
theorem composed_get {i : ℕ} (hi : i < (s.outgoing buf dest source flags).length) :
    (s.composed buf dest source flags).tmpMessage i = (s.outgoing buf dest source flags)[i] := by
  have := Mem.write_get hi s.tmpMessage 0
  rwa [Nat.zero_add] at this

theorem composed_dest : (s.composed buf dest source flags).tmpMessage 0 = dest :=
  composed_get s dest source flags (by simp [length_outgoing, routedHeaderLen])

theorem composed_source : (s.composed buf dest source flags).tmpMessage 1 = source :=
  composed_get s dest source flags (by rw [length_outgoing, routedHeaderLen]; omega)

/-- The next hop is the one to the destination. -/
theorem composed_nextHop : (s.composed buf dest source flags).nextHop =
    if dest ≠ broadcastAddress then s.routes.nextHop dest else some broadcastAddress := by
  rw [nextHop, composed_dest]
  rfl

end Sending

/-! ### Receiving -/

/-- The link returns the frame: it is no acknowledgement and has not been seen. -/
def Takes (s : RHRouter β) (f : Frame) : Prop := ¬ f.IsAck ∧ s.isNew f

/-- The members after `RHReliableDatagram::recvfromAck` has returned the frame. -/
def taken (s : RHRouter β) (f : Frame) : RHRouter β :=
  let d := if f.headerTo ≠ broadcastAddress then (s.acknowledge f.headerId f.headerFrom).2
    else s.toRHReliableDatagram
  { s with
    toRHReliableDatagram := d.markSeen f
    tmpMessage := s.tmpMessage.write 0 (f.data.take routedMessageSize)
    rxHeaderFrom := f.headerFrom }

theorem isNew_acknowledged (s : RHRouter β) (f : Frame) :
    (if f.headerTo ≠ broadcastAddress then (s.acknowledge f.headerId f.headerFrom).2
      else s.toRHReliableDatagram).isNew f ↔ s.isNew f := by
  split <;> exact Iff.rfl

theorem recvfromAck_of_takes {s : RHRouter β} {f : Frame} (h : s.Takes f) (v : Virtuals β)
    (len : UInt8) : s.recvfromAck v f len = (s.taken f).dispatch v f.storedLen len := by
  have hlink : s.linkRecvfromAck f = (true, s.taken f) := by
    rw [linkRecvfromAck, if_neg h.1]
    exact if_pos ((isNew_acknowledged s f).mpr h.2)
  rw [recvfromAck, hlink]
  exact if_pos rfl

/-- The members after `RHReliableDatagram::recvfromAck` has kept the frame to
itself. -/
def skipped (s : RHRouter β) (f : Frame) : RHRouter β :=
  let d := if f.IsAck ∨ f.headerTo = broadcastAddress then s.toRHReliableDatagram
    else (s.acknowledge f.headerId f.headerFrom).2
  { s with
    toRHReliableDatagram := d
    tmpMessage := s.tmpMessage.write 0 (f.data.take routedMessageSize)
    rxHeaderFrom := f.headerFrom }

theorem recvfromAck_of_not_takes {s : RHRouter β} {f : Frame} (h : ¬ s.Takes f)
    (v : Virtuals β) (len : UInt8) : s.recvfromAck v f len = (none, s.skipped f) := by
  have hlink : s.linkRecvfromAck f = (false, s.skipped f) := by
    rw [linkRecvfromAck, skipped]
    by_cases hack : f.IsAck
    · rw [if_pos hack, if_pos (.inl hack)]
    · have hseen := fun hnew => h ⟨hack, (isNew_acknowledged s f).mp hnew⟩
      rw [if_neg hack]
      refine (if_neg hseen).trans ?_
      by_cases hbc : f.headerTo = broadcastAddress
      · rw [if_neg (not_not.mpr hbc), if_pos (.inr hbc)]
      · rw [if_pos hbc, if_neg (by simp [hack, hbc])]
  rw [recvfromAck, hlink]
  exact if_neg Bool.false_ne_true

theorem skipped_thisAddress (s : RHRouter β) (f : Frame) :
    (s.skipped f).thisAddress = s.thisAddress := by
  show RHReliableDatagram.thisAddress (ite _ _ _) = _
  split <;> rfl

theorem skipped_txHeaderFrom (s : RHRouter β) (f : Frame) :
    (s.skipped f).txHeaderFrom = s.txHeaderFrom := by
  show RHReliableDatagram.txHeaderFrom (ite _ _ _) = _
  split <;> rfl

theorem taken_thisAddress (s : RHRouter β) (f : Frame) :
    (s.taken f).thisAddress = s.thisAddress := by
  show RHReliableDatagram.thisAddress (ite _ _ _) = _
  split <;> rfl

theorem taken_txHeaderFrom (s : RHRouter β) (f : Frame) :
    (s.taken f).txHeaderFrom = s.txHeaderFrom := by
  show RHReliableDatagram.txHeaderFrom (ite _ _ _) = _
  split <;> rfl

theorem taken_lastSequenceNumber (s : RHRouter β) (f : Frame) :
    (s.taken f).lastSequenceNumber = s.lastSequenceNumber := by
  show RHReliableDatagram.lastSequenceNumber (ite _ _ _) = _
  split <;> rfl

theorem taken_retries (s : RHRouter β) (f : Frame) : (s.taken f).retries = s.retries := by
  show RHReliableDatagram.retries (ite _ _ _) = _
  split <;> rfl

theorem taken_seenIds (s : RHRouter β) (f : Frame) :
    (s.taken f).seenIds = Function.update s.seenIds f.headerFrom f.headerId := by
  show Function.update (RHReliableDatagram.seenIds (ite _ _ _)) _ _ = _
  split <;> rfl

/-! ### What earlier messages left -/

variable (link : List Frame → LinkAnswer)

/-- What can be seen of `recvfromAck`: what it returns, and the messages it
passes on, with `m` in `_tmpMessage` beforehand. -/
def outcome (s : RHRouter β) (f : Frame) (len : UInt8) (m : Mem) : Option Received × List Frame :=
  let r := ({ s with sent := [] }.setMessage m).recvfromAck (virtuals link) f len
  (r.1, r.2.sent)

/-- `recvfromAck` shows nothing of earlier messages, and a message without a
whole header is dropped. -/
def NoLeak (s : RHRouter β) (f : Frame) (len : UInt8) : Prop :=
  ∀ m m', s.outcome link f len m = s.outcome link f len m' ∧
    (f.data.length < routedHeaderLen → s.outcome link f len m = (none, []))

/-- The octets of the frame decide what becomes of it: it has a whole header,
or it is for another node, without a route there or with all its hops used. -/
def HeaderDecides (s : RHRouter β) (f : Frame) : Prop :=
  routedHeaderLen ≤ f.data.length ∨
    ∃ dest, f.data[0]? = some dest ∧ dest ≠ s.thisAddress ∧ dest ≠ broadcastAddress ∧
      (s.routes.nextHop dest = none ∨ s.maxHops = 0 ∨
        ∃ hops, f.data[2]? = some hops ∧ s.maxHops ≤ hops)

variable {link}

theorem linkSendtoWait_sent (s : RHRouter β) (buf : List UInt8) (address : UInt8) :
    (s.linkSendtoWait link buf address).2.sent =
      s.sent ++ ({ s.toRHReliableDatagram with
        lastSequenceNumber := s.lastSequenceNumber + 1 }.attempt (s.lastSequenceNumber + 1)
          buf address).1.toList := by
  rw [linkSendtoWait]
  split <;> rfl

theorem route_noRoute {s : RHRouter β} (h : s.nextHop = none) (n : UInt8) :
    s.route link n = (.noRoute, s.note [.octet 0]) := by
  rw [route, h]

theorem route_hop {s : RHRouter β} {hop : UInt8} (h : s.nextHop = some hop) (n : UInt8) :
    s.route link n =
      (let r := (s.note [.octet 0, .upTo n.toNat]).linkSendtoWait link
        (s.tmpMessage.load 0 n.toNat) hop
      (if r.1 then .none else .unableToDeliver, r.2)) := by
  rw [route, h]

/-- What `route` sends depends on the octets of the message only. -/
theorem route_sent_congr {s : RHRouter β} {m m' : Mem} {n : UInt8} (h0 : m 0 = m' 0)
    (h : m.load 0 n.toNat = m'.load 0 n.toNat) :
    ((s.setMessage m).route link n).2.sent = ((s.setMessage m').route link n).2.sent := by
  have hnext : (s.setMessage m).nextHop = (s.setMessage m').nextHop := by
    show (if m 0 ≠ broadcastAddress then s.routes.nextHop (m 0) else some broadcastAddress) = _
    rw [h0]
    rfl
  rcases hhop : (s.setMessage m').nextHop with _ | hop
  · rw [route_noRoute (hnext.trans hhop), route_noRoute hhop]
    rfl
  · rw [route_hop (hnext.trans hhop), route_hop hhop]
    show (linkSendtoWait _ _ (m.load 0 n.toNat) hop).2.sent =
      (linkSendtoWait _ _ (m'.load 0 n.toNat) hop).2.sent
    rw [h, linkSendtoWait_sent, linkSendtoWait_sent]
    rfl

/-- With a next hop, `route` sends the message, unless it is too long for the
driver. -/
theorem route_sent_iff (link : List Frame → LinkAnswer) {s : RHRouter β} {hop : UInt8}
    (h : s.nextHop = some hop) (n : UInt8) :
    (s.route link n).2.sent = s.sent ↔ maxMessageLen < n.toNat := by
  rw [route_hop h]
  show (linkSendtoWait ..).2.sent = s.sent ↔ _
  rw [linkSendtoWait_sent]
  show s.sent ++ _ = s.sent ↔ _
  rw [List.append_right_eq_self, Option.toList_eq_nil_iff, RHReliableDatagram.attempt,
    RHReliableDatagram.sendto, Mem.length_load]
  simp

/-- A message for this node is delivered. -/
theorem dispatch_here {s : RHRouter β} (h : s.Here) (n len : UInt8) :
    s.dispatch (virtuals link) n len =
      (some (s.deliver n len).1, ((s.note [.octet 0]).deliver n len).2) := if_pos h

/-- A message for another one is sent on, or dropped. -/
theorem dispatch_away {s : RHRouter β} (h : ¬ s.Here) (n len : UInt8) :
    s.dispatch (virtuals link) n len =
      (none, (s.note [.octet 0]).forward (virtuals link) n) := if_neg h

/-- Counting up a number below a limit does not wrap. -/
theorem toNat_succ_of_lt {a b : UInt8} (h : a < b) : (a + 1).toNat = a.toNat + 1 := by
  have hlt := UInt8.lt_iff_toNat_lt.mp h
  have := b.toNat_lt
  simp only [UInt8.toNat_add, UInt8.reduceToNat]
  omega

/-- The message with its hops counted up. -/
def hopped (s : RHRouter β) : RHRouter β :=
  (s.setMessage (s.tmpMessage.write 2 [s.tmpMessage 2 + 1])).note [.octet 2]

theorem forward_eq (v : Virtuals β) (s : RHRouter β) (n : UInt8) :
    s.forward v n = if s.tmpMessage 2 < s.maxHops then (v.route s.hopped n).2 else s.hopped := rfl

theorem load_congr {m m' : Mem} {off n : ℕ} (h : ∀ i < off + n, m i = m' i) :
    m.load off n = m'.load off n := by
  refine List.ext_getElem (by simp) ?_
  intro i hi _
  rw [Mem.getElem_load, Mem.getElem_load]
  rw [Mem.length_load] at hi
  exact h _ (by omega)

/-- What becomes of a message depends on its octets only, if the header is
among them. -/
theorem dispatch_congr (link : List Frame → LinkAnswer) {s : RHRouter β} {m m' : Mem} {n : UInt8}
    (hn : routedHeaderLen ≤ n.toNat) (h : ∀ i < n.toNat, m i = m' i) (len : UInt8) :
    ((s.setMessage m).dispatch (virtuals link) n len).1 =
        ((s.setMessage m').dispatch (virtuals link) n len).1 ∧
      ((s.setMessage m).dispatch (virtuals link) n len).2.sent =
        ((s.setMessage m').dispatch (virtuals link) n len).2.sent := by
  have hhdr : ∀ i < routedHeaderLen, m i = m' i := fun i hi => h i (by omega)
  have hhere : (s.setMessage m).Here ↔ (s.setMessage m').Here := by
    show m 0 = _ ∨ m 0 = _ ↔ m' 0 = _ ∨ m' 0 = _
    rw [hhdr 0 (by decide)]
    exact Iff.rfl
  by_cases hm : (s.setMessage m).Here
  · rw [dispatch_here hm, dispatch_here (hhere.mp hm)]
    refine ⟨?_, rfl⟩
    -- the octets handed out are octets of the message
    have hlen : ∀ k : UInt8, k ≤ n - UInt8.ofNat routedHeaderLen →
        m.load routedHeaderLen k.toNat = m'.load routedHeaderLen k.toNat := by
      intro k hk
      refine load_congr fun i hi => h i ?_
      have hk' : k.toNat ≤ n.toNat - routedHeaderLen := by
        have hle : UInt8.ofNat routedHeaderLen ≤ n := UInt8.le_iff_toNat_le.mpr hn
        exact (UInt8.le_iff_toNat_le.mp hk).trans_eq (UInt8.toNat_sub_of_le _ _ hle)
      omega
    show some (Received.mk (m 1) (m 0) (m 3) (m 4) (m.load _ _)) =
      some (Received.mk (m' 1) (m' 0) (m' 3) (m' 4) (m'.load _ _))
    rw [hhdr 0 (by decide), hhdr 1 (by decide), hhdr 3 (by decide), hhdr 4 (by decide), hlen]
    split
    · exact UInt8.le_refl _
    · exact UInt8.not_lt.mp ‹_›
  · rw [dispatch_away hm, dispatch_away (mt hhere.mpr hm)]
    refine ⟨rfl, ?_⟩
    have h2 : m 2 = m' 2 := hhdr 2 (by decide)
    -- counting up the hops keeps the octets the same
    have hup : ∀ i < n.toNat, m.write 2 [m 2 + 1] i = m'.write 2 [m' 2 + 1] i := by
      intro i hi
      rw [Mem.write, Mem.write, h2, h i hi]
    rw [forward_eq, forward_eq]
    show RHRouter.sent (if m 2 < s.maxHops then _ else _) =
      RHRouter.sent (if m' 2 < s.maxHops then _ else _)
    rw [h2]
    split
    · refine route_sent_congr (s := (s.note [.octet 0]).note [.octet 2]) ?_ ?_
      · exact hup 0 (by rw [routedHeaderLen] at hn; omega)
      · exact load_congr fun i hi => hup i (by omega)
    · rfl

/-- A stored frame is seen as it came. -/
theorem stored_get {l : List UInt8} {i : ℕ} {o : UInt8} (h : l[i]? = some o)
    (hi : i < routedMessageSize) (m : Mem) : m.write 0 (l.take routedMessageSize) i = o := by
  obtain ⟨hlt, rfl⟩ := List.getElem?_eq_some_iff.mp h
  have hi' : i < (l.take routedMessageSize).length := by
    rw [List.length_take]
    omega
  have := Mem.write_get hi' m 0
  rw [Nat.zero_add] at this
  rw [this, List.getElem_take]

theorem storedLen_toNat (f : Frame) : f.storedLen.toNat = min routedMessageSize f.data.length := by
  refine UInt8.toNat_ofNat_of_lt' ?_
  show min 255 f.data.length < 256
  omega

/-- The frame in `_tmpMessage`, over what was there. -/
def stored (f : Frame) (m : Mem) : Mem := m.write 0 (f.data.take routedMessageSize)

/-- The members when `recvfromAck` looks at the frame. -/
def holding (s : RHRouter β) (f : Frame) (m : Mem) : RHRouter β :=
  ({ s with sent := [] }.taken f).setMessage (stored f m)

theorem outcome_of_takes {s : RHRouter β} {f : Frame} (h : s.Takes f) (len : UInt8) (m : Mem) :
    s.outcome link f len m =
      (let r := (s.holding f m).dispatch (virtuals link) f.storedLen len
      (r.1, r.2.sent)) := by
  have h' : ({ s with sent := [] }.setMessage m).Takes f := h
  rw [outcome, recvfromAck_of_takes h']
  rfl

theorem holding_here {s : RHRouter β} {f : Frame} {m : Mem} :
    (s.holding f m).Here ↔ stored f m 0 = s.thisAddress ∨ stored f m 0 = broadcastAddress := by
  show _ = (taken _ f).thisAddress ∨ _ ↔ _
  rw [taken_thisAddress]
  exact Iff.rfl

theorem outcome_here {s : RHRouter β} {f : Frame} {m : Mem} (h : s.Takes f)
    (hh : stored f m 0 = s.thisAddress ∨ stored f m 0 = broadcastAddress) (len : UInt8) :
    s.outcome link f len m ≠ (none, []) := by
  rw [outcome_of_takes h, dispatch_here (holding_here.mpr hh)]
  intro heq
  exact absurd (Prod.mk.inj heq).1 (Option.some_ne_none _)

theorem outcome_away {s : RHRouter β} {f : Frame} {m : Mem} (h : s.Takes f)
    (h₁ : stored f m 0 ≠ s.thisAddress) (h₂ : stored f m 0 ≠ broadcastAddress) (len : UInt8) :
    s.outcome link f len m = (none, []) ↔
      s.maxHops ≤ stored f m 2 ∨ s.routes.nextHop (stored f m 0) = none ∨
        maxMessageLen < f.storedLen.toNat := by
  have haway : ¬ (s.holding f m).Here := fun hh => (holding_here.mp hh).elim h₁ h₂
  have hnext : ((s.holding f m).note [.octet 0]).hopped.nextHop =
      s.routes.nextHop (stored f m 0) := if_pos h₂
  rw [outcome_of_takes h, dispatch_away haway, forward_eq]
  show ((none : Option Received), RHRouter.sent (if stored f m 2 < s.maxHops then _ else _)) = _ ↔ _
  by_cases hhops : stored f m 2 < s.maxHops
  · rw [if_pos hhops]
    show _ = ((none : Option Received), ([] : List Frame)) ↔ _
    have hhops' : ¬ s.maxHops ≤ stored f m 2 := UInt8.not_le.mpr hhops
    rcases hroute : s.routes.nextHop (stored f m 0) with _ | hop
    · rw [virtuals_route, route_noRoute (hnext.trans hroute)]
      exact ⟨fun _ => .inr (.inl rfl), fun _ => rfl⟩
    · have hsent := route_sent_iff link (hnext.trans hroute) f.storedLen
      simp only [virtuals_route, Prod.mk.injEq, true_and, hhops', reduceCtorEq, false_or]
      exact hsent
  · rw [if_neg hhops]
    exact ⟨fun _ => .inl (UInt8.not_lt.mp hhops), fun _ => rfl⟩

/-- Past the end of the frame lie the octets of earlier messages. -/
theorem stored_past {f : Frame} {i : ℕ} (h : f.data[i]? = none) (m : Mem) :
    stored f m i = m i := by
  refine Mem.write_ge ?_
  rw [List.length_take]
  have := List.getElem?_eq_none_iff.mp h
  omega

/-- Two frames in `_tmpMessage` agree as far as the frame goes. -/
theorem stored_congr (f : Frame) (m m' : Mem) {i : ℕ} (hi : i < f.storedLen.toNat) :
    stored f m i = stored f m' i := by
  rw [storedLen_toNat] at hi
  have hget : f.data[i]? = some f.data[i] := List.getElem?_eq_getElem (by omega)
  rw [stored, stored, stored_get hget (by omega), stored_get hget (by omega)]

/-- **`recvfromAck` leaks nothing of earlier messages exactly if the octets of
the frame decide what becomes of it.** -/
theorem noLeak_iff (link : List Frame → LinkAnswer) (s : RHRouter β) (f : Frame) (len : UInt8) :
    s.NoLeak link f len ↔ (s.Takes f → s.HeaderDecides f) := by
  constructor
  · intro h htakes
    by_contra hdec
    have hshort : f.data.length < routedHeaderLen := not_le.mp fun hlen => hdec (.inl hlen)
    have hdrop : ∀ m, s.outcome link f len m = (none, []) := fun m => (h m m).2 hshort
    rcases hdest : f.data[0]? with _ | dest
    · -- no octet of a header: take one left over that reads as a broadcast
      refine outcome_here htakes (.inr ?_) len (hdrop fun _ => broadcastAddress)
      exact stored_past hdest _
    · have h0 : ∀ m, stored f m 0 = dest := stored_get hdest (by decide)
      have h₁ : dest ≠ s.thisAddress := by
        intro heq
        exact outcome_here htakes (.inl ((h0 _).trans heq)) len (hdrop fun _ => 0)
      have h₂ : dest ≠ broadcastAddress := by
        intro heq
        exact outcome_here htakes (.inr ((h0 _).trans heq)) len (hdrop fun _ => 0)
      -- a left-over octet 0 for the hops lets the message through
      have haway := (outcome_away htakes (by rwa [h0]) (by rwa [h0]) len).mp (hdrop fun _ => 0)
      rw [h0, storedLen_toNat] at haway
      rcases haway with hhops | hroute | hlong
      · rcases hget : f.data[2]? with _ | hops
        · rw [stored_past hget] at hhops
          exact hdec (.inr ⟨dest, hdest, h₁, h₂, .inr (.inl (UInt8.le_zero_iff.mp hhops))⟩)
        · have h2 : stored f (fun _ => 0) 2 = hops := stored_get hget (by decide) _
          rw [h2] at hhops
          exact hdec (.inr ⟨dest, hdest, h₁, h₂, .inr (.inr ⟨hops, hget, hhops⟩)⟩)
      · exact hdec (.inr ⟨dest, hdest, h₁, h₂, .inl hroute⟩)
      · rw [routedHeaderLen] at hshort
        rw [maxMessageLen] at hlong
        omega
  · intro h m m'
    by_cases htakes : s.Takes f
    · rcases h htakes with hlen | ⟨dest, hdest, h₁, h₂, hwhy⟩
      · refine ⟨?_, fun hshort => absurd hlen (not_le.mpr hshort)⟩
        have hn : routedHeaderLen ≤ f.storedLen.toNat := by
          rw [storedLen_toNat]
          exact le_min (by decide) hlen
        have hcongr := dispatch_congr link (s := { s with sent := [] }.taken f) hn
          (fun i hi => stored_congr f m m' hi) len
        rw [outcome_of_takes htakes, outcome_of_takes htakes]
        exact Prod.ext hcongr.1 hcongr.2
      · have hdrop : ∀ m, s.outcome link f len m = (none, []) := by
          intro m
          have h0 : stored f m 0 = dest := stored_get hdest (by decide) m
          refine (outcome_away htakes (by rwa [h0]) (by rwa [h0]) len).mpr ?_
          rcases hwhy with hroute | hzero | ⟨hops, hget, hhops⟩
          · exact .inr (.inl (by rw [h0, hroute]))
          · exact .inl (by rw [hzero]; exact UInt8.zero_le)
          · exact .inl (by rw [stored, stored_get hget (by decide)]; exact hhops)
        exact ⟨(hdrop m).trans (hdrop m').symm, fun _ => hdrop m⟩
    · have hdrop : ∀ m, s.outcome link f len m = (none, []) := by
        intro m
        have h' : ¬ ({ s with sent := [] }.setMessage m).Takes f := htakes
        rw [outcome, recvfromAck_of_not_takes h']
        rfl
      exact ⟨(hdrop m).trans (hdrop m').symm, fun _ => hdrop m⟩

/-- A link whose messages are never acknowledged. -/
def silentLink (_ : List Frame) : LinkAnswer := ⟨false, 0, 0, 0, 0, 0⟩

/-- A node has got a message `[42, 43]` from node 3, and now a frame of one
octet, its own address, from node 2: it delivers the octets of the first again,
as if they had come with the second. -/
theorem runt_delivered :
    (constructed 1 ()).outcome silentLink ⟨1, 2, 1, flagsNone, [1]⟩ 2
        (Mem.write (fun _ => 0) 0 [1, 3, 0, 9, 0, 42, 43]) =
      (some ⟨3, 1, 9, 0, [42, 43]⟩, []) ∧
    ¬ (constructed 1 ()).NoLeak silentLink ⟨1, 2, 1, flagsNone, [1]⟩ 2 := by
  have hout : (constructed 1 ()).outcome silentLink ⟨1, 2, 1, flagsNone, [1]⟩ 2
      (Mem.write (fun _ => 0) 0 [1, 3, 0, 9, 0, 42, 43]) =
        (some ⟨3, 1, 9, 0, [42, 43]⟩, []) := by
    decide
  refine ⟨hout, ?_⟩
  intro h
  have hdrop := (h (Mem.write (fun _ => 0) 0 [1, 3, 0, 9, 0, 42, 43]) fun _ => 0).2 (by decide)
  rw [hout] at hdrop
  exact absurd (Prod.mk.inj hdrop).1 (Option.some_ne_none _)

end RHRouter
