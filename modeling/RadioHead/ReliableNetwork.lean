/-
A network of nodes that talk through acknowledged datagrams.

Every ordered pair of nodes has a link that loses frames but neither copies
nor reorders them.  A node is between calls, in the wait loop of `sendtoWait`,
or in `recvfromAck` after the acknowledgement; a step is what one node does
from one point where it can be interrupted to the next, or the loss of a
frame.  The network also records, for the statements only, the calls made,
what they returned and what was delivered; a frame carries the number of the
call it was sent by.

* `Net`, `Net.step` — the network and its steps;
* `Net.queue` — the frames from one node to another that are not done with;
* `Inv` — call numbers on a queue are in order, and what is delivered is behind
  it;
* `at_most_once` — every call's message is delivered at most once at a node.
-/
import RadioHead.Lib.Run
import RadioHead.ReliableDatagram

open Run

/-- A frame on a link, with the number of the `sendtoWait` call of its sender
that sent it; none for an acknowledgement. -/
structure InFlight where
  frame : Frame
  call : Option ℕ
  deriving DecidableEq

/-- Where a node is: between calls, in the wait loop of `sendtoWait` with the
local variables of the call, or in `recvfromAck` with an acknowledged message,
the room that its `*len` gave, and the octets copied. -/
inductive Control where
  | idle
  | waiting (buf : List UInt8) (address thisSequenceNumber retries : UInt8)
  | acknowledged (f : InFlight) (len : UInt8) (copied : List UInt8)
  deriving DecidableEq

structure Node where
  datagram : RHReliableDatagram
  control : Control

/-- A call of `sendtoWait`, and the sequence number it got. -/
structure SendCall where
  buf : List UInt8
  address : UInt8
  sequenceNumber : UInt8
  deriving DecidableEq

/-- A message returned by `recvfromAck`: at which node, with which `from`, the
call that sent it, the room that `*len` gave when `recvfromAck` was called, and
the octets copied. -/
structure Delivery where
  node : UInt8
  sender : UInt8
  call : Option ℕ
  len : UInt8
  buf : List UInt8
  deriving DecidableEq

/-- The network, and the record of calls, results and deliveries. -/
structure Net where
  node : UInt8 → Node
  link : UInt8 → UInt8 → List InFlight
  calls : UInt8 → List SendCall
  results : UInt8 → List (ℕ × Bool)
  delivered : List Delivery

inductive NetEvent where
  | sendtoWait (a : UInt8) (buf : List UInt8) (address : UInt8)
  | timeout (a : UInt8)
  | waitReceive (a b : UInt8)
  | recvfromAck (a b : UInt8) (len : UInt8)
  | finish (b : UInt8)
  | lose (a b : UInt8) (i : ℕ)

namespace Net

/-- The network before the first call: each node with its own address. -/
def start (nodes : UInt8 → RHReliableDatagram) : Net where
  node a := ⟨{ nodes a with thisAddress := a, txHeaderFrom := a }, .idle⟩
  link _ _ := []
  calls _ := []
  results _ := []
  delivered := []

def setNode (s : Net) (a : UInt8) (n : Node) : Net := { s with node := Function.update s.node a n }

def setLink (s : Net) (a b : UInt8) (l : List InFlight) : Net :=
  { s with link := Function.update s.link a (Function.update (s.link a) b l) }

/-- A frame goes on the air at node `a`: onto the link to every node whose
driver keeps it. -/
def send (s : Net) (a : UInt8) (f : Option Frame) (call : Option ℕ) : Net :=
  match f with
  | none => s
  | some f =>
    { s with link := Function.update s.link a fun b =>
        if b ≠ a ∧ f.For b then s.link a b ++ [⟨f, call⟩] else s.link a b }

/-- Node `a` starts a call of `sendtoWait`. -/
def beginCall (s : Net) (a : UInt8) (call : SendCall) : Net :=
  { s with calls := Function.update s.calls a (s.calls a ++ [call]) }

/-- Node `a` returns from its last call of `sendtoWait`. -/
def finishCall (s : Net) (a : UInt8) (result : Bool) : Net :=
  { s with
    results := Function.update s.results a
      (s.results a ++ [((s.calls a).length - 1, result)]) }

/-- Node `a` after a transmission: a broadcast is not waited for, the call
returns. -/
def settle (s : Net) (a : UInt8) (d : RHReliableDatagram) (buf : List UInt8)
    (address seq retries : UInt8) : Net :=
  if address = broadcastAddress then (s.setNode a ⟨d, .idle⟩).finishCall a true
  else if 1 < retries then
    s.setNode a ⟨{ d with retransmissions := d.retransmissions + 1 },
      .waiting buf address seq retries⟩
  else s.setNode a ⟨d, .waiting buf address seq retries⟩

/-- Node `a` transmits the message of its last call. -/
def transmit (s : Net) (a : UInt8) (d : RHReliableDatagram) (buf : List UInt8)
    (address seq retries : UInt8) : Net :=
  (s.settle a (d.attempt seq buf address).2 buf address seq retries).send a
    (d.attempt seq buf address).1 (some ((s.calls a).length - 1))

/-- What `recvfromAck` does after the acknowledgement: return the message if it
is new. -/
def accept (s : Net) (b : UInt8) (d : RHReliableDatagram) (f : InFlight) (len : UInt8)
    (copied : List UInt8) : Net :=
  if d.isNew f.frame then
    { s.setNode b ⟨d.markSeen f.frame, .idle⟩ with
      delivered := s.delivered ++ [⟨b, f.frame.headerFrom, f.call, len, copied⟩] }
  else s.setNode b ⟨d, .idle⟩

/-- Node `b` sends an acknowledgement and goes on at `control`. -/
def acknowledge (s : Net) (b : UInt8) (d : RHReliableDatagram) (f : Frame) (control : Control) :
    Net :=
  (s.setNode b ⟨(d.acknowledge f.headerId f.headerFrom).2, control⟩).send b
    (d.acknowledge f.headerId f.headerFrom).1 none

/-- A step of the network; `none` where the event cannot happen. -/
def step (s : Net) : NetEvent → Option Net
  | .sendtoWait a buf address =>
    match s.node a with
    | ⟨d, .idle⟩ =>
      let seq := d.lastSequenceNumber + 1
      let s := s.beginCall a ⟨buf, address, seq⟩
      some (s.transmit a { d with lastSequenceNumber := seq } buf address seq 1)
    | _ => none
  | .timeout a =>
    match s.node a with
    | ⟨d, .waiting buf address seq retries⟩ =>
      if retries ≤ d.retries then some (s.transmit a d buf address seq (retries + 1))
      else some ((s.setNode a ⟨d, .idle⟩).finishCall a false)
    | _ => none
  -- in the wait loop, the next message from `b`
  | .waitReceive a b =>
    match s.node a, s.link b a with
    | ⟨d, .waiting buf address seq retries⟩, f :: rest =>
      let s := s.setLink b a rest
      if d.isAckFor f.frame address seq then
        some ((s.setNode a ⟨d, .idle⟩).finishCall a true)
      else if ¬ f.frame.IsAck ∧ ¬ d.isNew f.frame then
        some (s.acknowledge a d f.frame (.waiting buf address seq retries))
      else some s
    | _, _ => none
  -- `recvfromAck` at `b`, the message available being from `a`
  | .recvfromAck a b len =>
    match s.node b, s.link a b with
    | ⟨d, .idle⟩, f :: rest =>
      let s := s.setLink a b rest
      let copied := f.frame.data.take len.toNat
      if f.frame.IsAck then some s
      else if f.frame.headerTo ≠ broadcastAddress then
        some (s.acknowledge b d f.frame (.acknowledged f len copied))
      else some (s.accept b d f len copied)
    | _, _ => none
  | .finish b =>
    match s.node b with
    | ⟨d, .acknowledged f len copied⟩ => some (s.accept b d f len copied)
    | _ => none
  | .lose a b i => some (s.setLink a b ((s.link a b).eraseIdx i))

/-- What a step can do, at an event. -/
inductive Move (s : Net) : NetEvent → Net → Prop where
  /-- A call of `sendtoWait` starts. -/
  | start (a : UInt8) (d : RHReliableDatagram) (buf : List UInt8) (address : UInt8)
      (hn : s.node a = ⟨d, .idle⟩) :
      Move s (.sendtoWait a buf address)
        ((s.beginCall a ⟨buf, address, d.lastSequenceNumber + 1⟩).transmit a
          { d with lastSequenceNumber := d.lastSequenceNumber + 1 } buf address
          (d.lastSequenceNumber + 1) 1)
  | retry (a : UInt8) (d : RHReliableDatagram) (buf : List UInt8) (address seq r : UInt8)
      (hn : s.node a = ⟨d, .waiting buf address seq r⟩) :
      Move s (.timeout a) (s.transmit a d buf address seq (r + 1))
  | giveUp (a : UInt8) (d : RHReliableDatagram) (buf : List UInt8) (address seq r : UInt8)
      (hn : s.node a = ⟨d, .waiting buf address seq r⟩) :
      Move s (.timeout a) ((s.setNode a ⟨d, .idle⟩).finishCall a false)
  /-- The acknowledgement waited for has come. -/
  | acked (a b : UInt8) (d : RHReliableDatagram) (buf : List UInt8) (address seq r : UInt8)
      (f : InFlight) (rest : List InFlight) (hn : s.node a = ⟨d, .waiting buf address seq r⟩)
      (hl : s.link b a = f :: rest) (hack : d.isAckFor f.frame address seq) :
      Move s (.waitReceive a b) (((s.setLink b a rest).setNode a ⟨d, .idle⟩).finishCall a true)
  /-- A message seen before is acknowledged once more. -/
  | reack (a b : UInt8) (d : RHReliableDatagram) (buf : List UInt8) (address seq r : UInt8)
      (f : InFlight) (rest : List InFlight) (hn : s.node a = ⟨d, .waiting buf address seq r⟩)
      (hl : s.link b a = f :: rest) (hack : ¬ f.frame.IsAck) (hseen : ¬ d.isNew f.frame) :
      Move s (.waitReceive a b)
        ((s.setLink b a rest).acknowledge a d f.frame (.waiting buf address seq r))
  /-- Frames are lost, or discarded. -/
  | drop {e : NetEvent} (a b : UInt8) (l : List InFlight) (hl : l.Sublist (s.link a b)) :
      Move s e (s.setLink a b l)
  /-- `recvfromAck` acknowledges a message. -/
  | hold (a b : UInt8) (d : RHReliableDatagram) (f : InFlight) (rest : List InFlight)
      (len : UInt8) (hn : s.node b = ⟨d, .idle⟩) (hl : s.link a b = f :: rest)
      (hack : ¬ f.frame.IsAck) :
      Move s (.recvfromAck a b len) ((s.setLink a b rest).acknowledge b d f.frame
        (.acknowledged f len (f.frame.data.take len.toNat)))
  /-- `recvfromAck` with a broadcast. -/
  | broadcast (a b : UInt8) (d : RHReliableDatagram) (f : InFlight) (rest : List InFlight)
      (len : UInt8) (hn : s.node b = ⟨d, .idle⟩) (hl : s.link a b = f :: rest)
      (hack : ¬ f.frame.IsAck) :
      Move s (.recvfromAck a b len)
        ((s.setLink a b rest).accept b d f len (f.frame.data.take len.toNat))
  | finish (b : UInt8) (d : RHReliableDatagram) (f : InFlight) (len : UInt8)
      (copied : List UInt8) (hn : s.node b = ⟨d, .acknowledged f len copied⟩) :
      Move s (.finish b) (s.accept b d f len copied)

/-- Every step is one of them. -/
theorem step_move {s s' : Net} {e : NetEvent} (hs : s.step e = some s') : Move s e s' := by
  cases e with
  | sendtoWait a buf address =>
    simp only [step] at hs
    split at hs
    · next d hn => exact Option.some.inj hs ▸ .start a d buf address hn
    · cases hs
  | timeout a =>
    simp only [step] at hs
    split at hs
    · next d buf address seq r hn =>
      split_ifs at hs
      · exact Option.some.inj hs ▸ .retry a d buf address seq r hn
      · exact Option.some.inj hs ▸ .giveUp a d buf address seq r hn
    · cases hs
  | waitReceive a b =>
    simp only [step] at hs
    split at hs
    · next d buf address seq r f rest hn hl =>
      split_ifs at hs with hack hseen
      · exact Option.some.inj hs ▸ .acked a b d buf address seq r f rest hn hl hack
      · exact Option.some.inj hs ▸ .reack a b d buf address seq r f rest hn hl hseen.1 hseen.2
      · exact Option.some.inj hs ▸ .drop b a rest (hl ▸ List.sublist_cons_self f rest)
    · cases hs
  | recvfromAck a b len =>
    simp only [step] at hs
    split at hs
    · next d f rest hn hl =>
      split_ifs at hs with hack hto
      · exact Option.some.inj hs ▸ .drop a b rest (hl ▸ List.sublist_cons_self f rest)
      · exact Option.some.inj hs ▸ .hold a b d f rest len hn hl hack
      · exact Option.some.inj hs ▸ .broadcast a b d f rest len hn hl hack
    · cases hs
  | finish b =>
    simp only [step] at hs
    split at hs
    · next d f len copied hn => exact Option.some.inj hs ▸ .finish b d f len copied hn
    · cases hs
  | lose a b i =>
    exact Option.some.inj hs ▸ .drop a b _ (List.eraseIdx_sublist _ i)

/-! ### What a step does to a pair of nodes -/

/-- The frame that node `n` has acknowledged but not yet returned, if it is
from `a`. -/
def heldFrom (n : Node) (a : UInt8) : List InFlight :=
  match n.control with
  | .acknowledged f _ _ => if f.frame.headerFrom = a then [f] else []
  | _ => []

/-- The frames from `a` that `b` is not done with. -/
def queue (s : Net) (a b : UInt8) : List InFlight := heldFrom (s.node b) a ++ s.link a b

/-- The last sequence number that `b` has seen from `a`. -/
def seen (s : Net) (a b : UInt8) : UInt8 := (s.node b).datagram.seenIds a

/-- The numbers of the calls of `a` delivered at `b`. -/
def deliveredCalls (s : Net) (a b : UInt8) : List ℕ :=
  s.delivered.filterMap fun d => if d.node = b ∧ d.sender = a then d.call else none

/-- The frame carries the message of a call of `a`, under its number. -/
def Carries (s : Net) (a : UInt8) (f : InFlight) (n : ℕ) : Prop :=
  f.call = some n ∧ ¬ f.frame.IsAck ∧
    (s.calls a)[n]? = some ⟨f.frame.data, f.frame.headerTo, f.frame.headerId⟩

/-- Some frames may be gone, and nothing else has happened to any pair. -/
structure Less (s s' : Net) : Prop where
  queue : ∀ x y, (s'.queue x y).Sublist (s.queue x y)
  seen : s'.seen = s.seen
  delivered : s'.delivered = s.delivered

/-- What a step does to the frames from `x` to `y`: some of them may be gone; a
frame of the last call of `x` may be sent; an acknowledgement may be sent, for
a frame that is held now or was seen before; or a frame is delivered, and those
before it are gone. -/
inductive Effect (s s' : Net) (x y : UInt8) : Prop where
  | quiet (hqueue : (s'.queue x y).Sublist (s.queue x y)) (hseen : s'.seen x y = s.seen x y)
      (hdelivered : s'.deliveredCalls x y = s.deliveredCalls x y)
  | data (f : InFlight) (hqueue : (s'.queue x y).Sublist (s.queue x y ++ [f]))
      (hseen : s'.seen x y = s.seen x y)
      (hdelivered : s'.deliveredCalls x y = s.deliveredCalls x y)
      (hfrom : f.frame.headerFrom = x) (hcall : s'.Carries x f ((s'.calls x).length - 1))
  | ack (f g : InFlight) (hqueue : (s'.queue x y).Sublist (s.queue x y ++ [f]))
      (hseen : s'.seen x y = s.seen x y)
      (hdelivered : s'.deliveredCalls x y = s.deliveredCalls x y)
      (hfrom : f.frame.headerFrom = x) (hcall : f.call = none) (hack : f.frame.IsAck)
      (hto : f.frame.headerTo = g.frame.headerFrom) (hid : f.frame.headerId = g.frame.headerId)
      (hmem : g ∈ s.queue g.frame.headerFrom x) (hg : ¬ g.frame.IsAck)
      (hheld : g.frame.headerId = s.seen g.frame.headerFrom x ∨
        ∃ len, (s'.node x).control = .acknowledged g len (g.frame.data.take len.toNat))
  | deliver (f : InFlight) (len : UInt8) (hqueue : (f :: s'.queue x y).Sublist (s.queue x y))
      (hack : ¬ f.frame.IsAck) (hseen : s'.seen x y = f.frame.headerId)
      (hnew : f.frame.headerId ≠ s.seen x y)
      (hdelivered : s'.delivered =
        s.delivered ++ [⟨y, x, f.call, len, f.frame.data.take len.toNat⟩])

/-! The parts of a step, on a pair of nodes. -/

section Parts

variable {s : Net} {a b : UInt8} {n : Node}

theorem setNode_node_of_ne (h : b ≠ a) : (s.setNode a n).node b = s.node b := by
  rw [setNode]
  exact Function.update_of_ne h _ _

@[simp] theorem setNode_node : (s.setNode a n).node a = n := by
  rw [setNode]
  exact Function.update_self _ _ _

@[simp] theorem setNode_link : (s.setNode a n).link = s.link := rfl

@[simp] theorem finishCall_queue (r : Bool) : (s.finishCall a r).queue = s.queue := rfl

theorem setLink_link (l : List InFlight) (x y : UInt8) :
    (s.setLink a b l).link x y = if x = a ∧ y = b then l else s.link x y := by
  rw [setLink]
  by_cases hx : x = a
  · subst hx
    by_cases hy : y = b
    · subst hy
      simp
    · simp [hy]
  · simp [hx]

theorem send_node (f : Option Frame) (call : Option ℕ) : (s.send a f call).node = s.node := by
  cases f <;> rfl

theorem send_delivered (f : Option Frame) (call : Option ℕ) :
    (s.send a f call).delivered = s.delivered := by
  cases f <;> rfl

theorem send_calls (f : Option Frame) (call : Option ℕ) :
    (s.send a f call).calls = s.calls := by
  cases f <;> rfl

theorem send_link (f : Frame) (call : Option ℕ) (x y : UInt8) :
    (s.send a (some f) call).link x y =
      s.link x y ++ if x = a ∧ y ≠ a ∧ f.For y then [⟨f, call⟩] else [] := by
  show Function.update s.link a _ x y = _
  by_cases hx : x = a
  · subst hx
    rw [Function.update_self]
    by_cases hy : y ≠ x ∧ f.For y
    · rw [if_pos hy, if_pos ⟨rfl, hy⟩]
    · rw [if_neg hy, if_neg fun h => hy h.2, List.append_nil]
  · rw [if_neg fun h => hx h.1, Function.update_of_ne hx, List.append_nil]

theorem Less.refl (s : Net) : Less s s := ⟨fun _ _ => List.Sublist.refl _, rfl, rfl⟩

theorem Less.trans {s s' s'' : Net} (h : Less s s') (h' : Less s' s'') : Less s s'' where
  queue x y := (h'.queue x y).trans (h.queue x y)
  seen := h'.seen.trans h.seen
  delivered := h'.delivered.trans h.delivered

theorem Less.effect {s s' : Net} (h : Less s s') (x y : UInt8) : Effect s s' x y :=
  .quiet (h.queue x y) (by rw [h.seen]) (by rw [deliveredCalls, h.delivered, deliveredCalls])

/-- The node changes, but has seen what it had seen, and holds nothing more. -/
theorem setNode_less (hheld : ∀ x, (heldFrom n x).Sublist (heldFrom (s.node a) x))
    (hseen : n.datagram.seenIds = (s.node a).datagram.seenIds) : Less s (s.setNode a n) where
  queue x y := by
    by_cases hy : y = a
    · subst hy
      rw [queue, setNode_node]
      exact (hheld x).append_right _
    · rw [queue, setNode_node_of_ne hy]
      exact List.Sublist.refl _
  seen := by
    funext x y
    by_cases hy : y = a
    · subst hy
      rw [seen, setNode_node, hseen, seen]
    · rw [seen, setNode_node_of_ne hy, seen]
  delivered := rfl

theorem idle_less {d : RHReliableDatagram} (hseen : d.seenIds = (s.node a).datagram.seenIds) :
    Less s (s.setNode a ⟨d, .idle⟩) := setNode_less (fun _ => List.nil_sublist _) hseen

theorem waiting_less {d : RHReliableDatagram} {buf : List UInt8} {address seq r : UInt8}
    (hseen : d.seenIds = (s.node a).datagram.seenIds) :
    Less s (s.setNode a ⟨d, .waiting buf address seq r⟩) :=
  setNode_less (fun _ => List.nil_sublist _) hseen

theorem heldFrom_acknowledged (d : RHReliableDatagram) (f : InFlight) (len : UInt8)
    (copied : List UInt8) (x : UInt8) :
    heldFrom ⟨d, .acknowledged f len copied⟩ x = if f.frame.headerFrom = x then [f] else [] := rfl

/-- Frames are taken off a link. -/
theorem setLink_less {l : List InFlight} (h : l.Sublist (s.link a b)) :
    Less s (s.setLink a b l) where
  queue x y := by
    show (heldFrom (s.node y) x ++ _).Sublist (heldFrom (s.node y) x ++ _)
    rw [setLink_link]
    split_ifs with hxy
    · rw [hxy.1, hxy.2]
      exact h.append_left _
    · exact List.Sublist.refl _
  seen := rfl
  delivered := rfl

/-- The first frame of a link is held instead. -/
theorem hold_less {d d' : RHReliableDatagram} {f : InFlight} {rest : List InFlight}
    (hn : s.node b = ⟨d, .idle⟩) (hl : s.link a b = f :: rest) (hfrom : f.frame.headerFrom = a)
    (hseen : d'.seenIds = d.seenIds) (len : UInt8) (copied : List UInt8) :
    Less s ((s.setLink a b rest).setNode b ⟨d', .acknowledged f len copied⟩) where
  queue x y := by
    by_cases hy : y = b
    · subst hy
      rw [queue, queue, setNode_node, setNode_link, hn, setLink_link, heldFrom_acknowledged, hfrom]
      by_cases hx : x = a
      · subst hx
        rw [if_pos rfl, if_pos ⟨rfl, rfl⟩, hl]
        exact List.Sublist.refl _
      · rw [if_neg (Ne.symm hx), if_neg fun h => hx h.1]
        exact List.Sublist.refl _
    · rw [queue, queue, setNode_node_of_ne hy, setNode_link, setLink_link, if_neg fun h => hy h.2]
      exact List.Sublist.refl _
  seen := by
    funext x y
    by_cases hy : y = b
    · subst hy
      rw [seen, setNode_node, seen, hn, hseen]
    · rw [seen, setNode_node_of_ne hy, seen]
      rfl
  delivered := rfl

theorem finishCall_less (s : Net) (a : UInt8) (r : Bool) : Less s (s.finishCall a r) :=
  ⟨fun _ _ => List.Sublist.refl _, rfl, rfl⟩

theorem send_queue (f : Frame) (call : Option ℕ) (x y : UInt8) :
    (s.send a (some f) call).queue x y =
      s.queue x y ++ if x = a ∧ y ≠ a ∧ f.For y then [⟨f, call⟩] else [] := by
  rw [queue, send_node, send_link, ← List.append_assoc, queue]

/-- Frames are gone, and then one is sent: where it goes, it is the last on the
queue. -/
theorem send_cases {s₀ : Net} (h : Less s₀ s) (a : UInt8) (f : Option Frame) (call : Option ℕ)
    (x y : UInt8) :
    Effect s₀ (s.send a f call) x y ∨
      ∃ g, f = some g ∧ x = a ∧
        ((s.send a f call).queue x y).Sublist (s₀.queue x y ++ [⟨g, call⟩]) ∧
        (s.send a f call).seen x y = s₀.seen x y ∧
        (s.send a f call).deliveredCalls x y = s₀.deliveredCalls x y := by
  have hseen : (s.send a f call).seen x y = s₀.seen x y := by
    rw [seen, send_node, ← h.seen, seen]
  have hdelivered : (s.send a f call).deliveredCalls x y = s₀.deliveredCalls x y := by
    rw [deliveredCalls, send_delivered, h.delivered, deliveredCalls]
  cases f with
  | none => exact .inl (h.effect x y)
  | some g =>
    have hqueue := send_queue (s := s) (a := a) g call x y
    split_ifs at hqueue with hxy
    · refine .inr ⟨g, rfl, hxy.1, ?_, hseen, hdelivered⟩
      rw [hqueue]
      exact (h.queue x y).append_right _
    · rw [List.append_nil] at hqueue
      exact .inl (.quiet (hqueue ▸ h.queue x y) hseen hdelivered)

theorem settle_less {d : RHReliableDatagram} (hseen : d.seenIds = (s.node a).datagram.seenIds)
    (buf : List UInt8) (address seq r : UInt8) : Less s (s.settle a d buf address seq r) := by
  rw [settle]
  split_ifs
  · exact (idle_less hseen).trans (finishCall_less _ _ _)
  · exact waiting_less hseen
  · exact waiting_less hseen

theorem settle_calls (d : RHReliableDatagram) (buf : List UInt8) (address seq r : UInt8) :
    (s.settle a d buf address seq r).calls = s.calls := by
  rw [settle]
  split_ifs <;> rfl

/-- One transmission of the last call. -/
theorem transmit_effect {s₀ : Net} (h : Less s₀ s) {d : RHReliableDatagram} {buf : List UInt8}
    {address seq r : UInt8} (hseen : d.seenIds = (s.node a).datagram.seenIds)
    (hfrom : d.txHeaderFrom = a)
    (hcall : (s.calls a)[(s.calls a).length - 1]? = some ⟨buf, address, seq⟩) (x y : UInt8) :
    Effect s₀ (s.transmit a d buf address seq r) x y := by
  have hsettle : Less s (s.settle a (d.attempt seq buf address).2 buf address seq r) :=
    settle_less (d := (d.attempt seq buf address).2) hseen buf address seq r
  rw [transmit]
  rcases send_cases (h.trans hsettle) a (d.attempt seq buf address).1
      (some ((s.calls a).length - 1)) x y with
    heff | ⟨g, hg, rfl, hqueue, hseen', hdel⟩
  · exact heff
  · obtain ⟨hgfrom, hto, hid, hdata, hack⟩ := RHReliableDatagram.attempt_frame hg
    refine .data ⟨g, _⟩ hqueue hseen' hdel (hgfrom.trans hfrom) ⟨?_, hack, ?_⟩
    · rw [send_calls, settle_calls]
    · rw [send_calls, settle_calls, hcall, hdata, hto, hid]

/-- An acknowledgement for a frame that was on the queue, and is held now or
was seen before. -/
theorem acknowledge_effect {s₀ : Net} {d : RHReliableDatagram} {g : InFlight} {c : Control}
    (h : Less s₀ (s.setNode b ⟨(d.acknowledge g.frame.headerId g.frame.headerFrom).2, c⟩))
    (hfrom : d.txHeaderFrom = b)
    (hmem : g ∈ s₀.queue g.frame.headerFrom b) (hg : ¬ g.frame.IsAck)
    (hheld : g.frame.headerId = s₀.seen g.frame.headerFrom b ∨
      ∃ len, c = .acknowledged g len (g.frame.data.take len.toNat)) (x y : UInt8) :
    Effect s₀ (s.acknowledge b d g.frame c) x y := by
  rw [acknowledge]
  rcases send_cases h b (d.acknowledge g.frame.headerId g.frame.headerFrom).1 none x y with
    heff | ⟨f, hf, rfl, hqueue, hseen, hdel⟩
  · exact heff
  · obtain ⟨hffrom, hto, hid, hack⟩ := RHReliableDatagram.acknowledge_frame hf
    refine .ack _ g hqueue hseen hdel (hffrom.trans hfrom) rfl hack hto hid hmem hg ?_
    rw [send_node, setNode_node]
    exact hheld

/-- The end of `recvfromAck`: the frame is returned, or was seen before. -/
theorem accept_effect {s₀ : Net} {d : RHReliableDatagram} {f : InFlight} {len : UInt8}
    (hack : ¬ f.frame.IsAck) (hseen : d.seenIds = (s₀.node b).datagram.seenIds)
    (hnode : ∀ y, y ≠ b → s.node y = s₀.node y)
    (hlink : ∀ x y, (s.link x y).Sublist (s₀.queue x y))
    (hlink' : ∀ x y, y ≠ b → (s.link x y).Sublist (s₀.link x y))
    (hfirst : (f :: s.link f.frame.headerFrom b).Sublist (s₀.queue f.frame.headerFrom b))
    (hdel : s.delivered = s₀.delivered) (x y : UInt8) :
    Effect s₀ (s.accept b d f len (f.frame.data.take len.toNat)) x y := by
  have hqueue : ∀ d', ((s.setNode b ⟨d', .idle⟩).queue x y).Sublist (s₀.queue x y) := by
    intro d'
    by_cases hy : y = b
    · subst hy
      rw [queue, setNode_node]
      exact hlink x y
    · rw [queue, setNode_node_of_ne hy, hnode y hy]
      exact (hlink' x y hy).append_left _
  rw [accept]
  by_cases hnew : d.isNew f.frame
  · rw [if_pos hnew]
    -- the pair of the message, then the other pairs
    by_cases hxy : y = b ∧ x = f.frame.headerFrom
    · obtain ⟨rfl, rfl⟩ := hxy
      refine .deliver f len ?_ hack ?_ ?_ ?_
      · show (f :: (heldFrom ((s.setNode y _).node y) _ ++ s.link _ y)).Sublist _
        rw [setNode_node]
        exact hfirst
      · show ((s.setNode y _).node y).datagram.seenIds _ = _
        rw [setNode_node]
        exact Function.update_self _ _ _
      · rw [seen, ← hseen]
        exact hnew
      · show s.delivered ++ _ = _
        rw [hdel]
    · refine .quiet (hqueue _) ?_ ?_
      · show ((s.setNode b _).node y).datagram.seenIds x = (s₀.node y).datagram.seenIds x
        by_cases hy : y = b
        · subst hy
          rw [setNode_node, ← hseen]
          exact Function.update_of_ne (fun hx => hxy ⟨rfl, hx⟩) _ _
        · rw [setNode_node_of_ne hy, hnode y hy]
      · show List.filterMap _ (s.delivered ++ [_]) = _
        rw [List.filterMap_append, hdel, deliveredCalls]
        have hno : ¬ (b = y ∧ f.frame.headerFrom = x) := fun h => hxy ⟨h.1.symm, h.2.symm⟩
        simp [hno]
  · rw [if_neg hnew]
    refine .quiet (hqueue d) ?_ ?_
    · by_cases hy : y = b
      · subst hy
        rw [seen, setNode_node, hseen, seen]
      · rw [seen, setNode_node_of_ne hy, hnode y hy, seen]
    · show List.filterMap _ s.delivered = _
      rw [hdel, deliveredCalls]

end Parts

/-! ### Every step -/

theorem beginCall_calls (s : Net) (a : UInt8) (call : SendCall) :
    (s.beginCall a call).calls a = s.calls a ++ [call] := by
  show Function.update s.calls a _ a = _
  rw [Function.update_self]

theorem beginCall_last (s : Net) (a : UInt8) (call : SendCall) :
    ((s.beginCall a call).calls a)[((s.beginCall a call).calls a).length - 1]? = some call := by
  rw [beginCall_calls]
  simp

/-- A node has its own address; in `sendtoWait` it is at its last call; in
`recvfromAck` it has copied the octets of a message that there is room for. -/
def NodeOk (calls : List SendCall) (a : UInt8) (n : Node) : Prop :=
  n.datagram.thisAddress = a ∧ n.datagram.txHeaderFrom = a ∧
    match n.control with
    | .idle => True
    | .waiting buf address seq _ => calls[calls.length - 1]? = some ⟨buf, address, seq⟩
    | .acknowledged f len copied => ¬ f.frame.IsAck ∧ copied = f.frame.data.take len.toNat

/-- Every node is in order. -/
def NodesOk (s : Net) : Prop := ∀ z, NodeOk (s.calls z) z (s.node z)

/-- What holds of the nodes and of the frames in every reachable state. -/
structure Wf (s : Net) : Prop where
  node : s.NodesOk
  sender : ∀ a b, ∀ f ∈ s.queue a b, f.frame.headerFrom = a

/-- Every step has one of the effects on every pair of nodes. -/
theorem Move.effect {s s' : Net} (h : Wf s) {e : NetEvent} (hm : Move s e s') (x y : UInt8) :
    Effect s s' x y := by
  -- the frame taken from a link has been sent on it, and the other queues stay
  have hfirst : ∀ {a b f rest}, s.link a b = f :: rest →
      f ∈ s.queue a b ∧ f.frame.headerFrom = a ∧ Less s (s.setLink a b rest) := by
    intro a b f rest hl
    have hmem : f ∈ s.queue a b := List.mem_append_right _ (hl ▸ List.mem_cons_self)
    exact ⟨hmem, h.sender a b f hmem, setLink_less (hl ▸ List.sublist_cons_self f rest)⟩
  cases hm with
  | start a d buf address hn =>
    have hok := h.node a
    rw [hn] at hok
    have hless : ∀ call, Less s (s.beginCall a call) :=
      fun _ => ⟨fun _ _ => List.Sublist.refl _, rfl, rfl⟩
    have hfrom : { d with lastSequenceNumber := d.lastSequenceNumber + 1 }.txHeaderFrom = a :=
      hok.2.1
    refine transmit_effect (hless _) ?_ hfrom ?_ x y
    · show _ = (s.node a).datagram.seenIds
      rw [hn]
    · exact beginCall_last _ _ _
  | retry a d buf address seq r hn =>
    have hok := h.node a
    rw [hn] at hok
    exact transmit_effect (Less.refl s) (by rw [hn]) hok.2.1 hok.2.2 x y
  | giveUp a d buf address seq r hn =>
    exact ((idle_less (by rw [hn])).trans (finishCall_less _ _ _)).effect x y
  | acked a b d buf address seq r f rest hn hl =>
    refine (((hfirst hl).2.2.trans (idle_less ?_)).trans (finishCall_less _ _ _)).effect x y
    show _ = (s.node a).datagram.seenIds
    rw [hn]
  | reack a b d buf address seq r f rest hn hl hack hseen =>
    have hok := h.node a
    rw [hn] at hok
    obtain ⟨hmem, hfrom, hless⟩ := hfirst hl
    refine acknowledge_effect (hless.trans (waiting_less ?_)) hok.2.1 ?_ hack (.inl ?_) x y
    · show _ = (s.node a).datagram.seenIds
      rw [hn]
      rfl
    · rw [hfrom]
      exact hmem
    · rw [seen, hn]
      exact not_ne_iff.mp hseen
  | drop a b l hl => exact (setLink_less hl).effect x y
  | hold a b d f rest len hn hl hack =>
    have hok := h.node b
    rw [hn] at hok
    obtain ⟨hmem, hfrom, -⟩ := hfirst hl
    exact acknowledge_effect
      (hold_less hn hl hfrom (RHReliableDatagram.acknowledge_seenIds _ _ _) len _) hok.2.1
      (by rw [hfrom]; exact hmem) hack (.inr ⟨len, rfl⟩) x y
  | broadcast a b d f rest len hn hl hack =>
    obtain ⟨hmem, hfrom, hless⟩ := hfirst hl
    refine accept_effect hack ?_ ?_ ?_ ?_ ?_ ?_ x y
    · rw [hn]
    · exact fun _ _ => rfl
    · exact fun x y => (List.sublist_append_right _ _).trans (hless.queue x y)
    · intro x y hy
      rw [setLink_link, if_neg fun h => hy h.2]
    · rw [hfrom, setLink_link, if_pos ⟨rfl, rfl⟩, queue, hl]
      exact List.sublist_append_right _ _
    · rfl
  | finish b d f len copied hn =>
    have hok := h.node b
    rw [hn] at hok
    obtain ⟨-, -, hack, rfl⟩ := hok
    refine accept_effect hack (by rw [hn]) (fun _ _ => rfl)
      (fun _ _ => List.sublist_append_right _ _) (fun _ _ _ => List.Sublist.refl _) ?_ rfl x y
    rw [queue, hn, heldFrom_acknowledged, if_pos rfl]
    exact List.Sublist.refl _

theorem NodesOk.setNode {s : Net} {a : UInt8} {n : Node} (h : s.NodesOk)
    (hn : NodeOk (s.calls a) a n) : (s.setNode a n).NodesOk := by
  intro z
  by_cases hz : z = a
  · subst hz
    rw [setNode_node]
    exact hn
  · rw [setNode_node_of_ne hz]
    exact h z

theorem NodesOk.send {s : Net} (h : s.NodesOk) (a : UInt8) (f : Option Frame) (call : Option ℕ) :
    (s.send a f call).NodesOk := by
  intro z
  rw [send_node, send_calls]
  exact h z

theorem NodesOk.transmit {s : Net} {a : UInt8} {d : RHReliableDatagram} {buf : List UInt8}
    {address seq r : UInt8} (h : s.NodesOk) (hd : d.thisAddress = a ∧ d.txHeaderFrom = a)
    (hcall : (s.calls a)[(s.calls a).length - 1]? = some ⟨buf, address, seq⟩) :
    (s.transmit a d buf address seq r).NodesOk := by
  rw [Net.transmit]
  refine NodesOk.send ?_ _ _ _
  rw [settle]
  split_ifs
  · exact fun z => h.setNode (n := ⟨(d.attempt seq buf address).2, .idle⟩)
      ⟨hd.1, hd.2, trivial⟩ z
  · exact h.setNode ⟨hd.1, hd.2, hcall⟩
  · exact h.setNode ⟨hd.1, hd.2, hcall⟩

theorem NodesOk.acknowledge {s : Net} {b : UInt8} {d : RHReliableDatagram} {f : Frame}
    {c : Control} (h : s.NodesOk) (hn : NodeOk (s.calls b) b ⟨d, c⟩) :
    (s.acknowledge b d f c).NodesOk := by
  have hn' : NodeOk (s.calls b) b ⟨(d.acknowledge f.headerId f.headerFrom).2, c⟩ := hn
  rw [Net.acknowledge]
  exact (h.setNode hn').send _ _ _

theorem NodesOk.accept {s : Net} {b : UInt8} {d : RHReliableDatagram} (h : s.NodesOk)
    (hd : d.thisAddress = b ∧ d.txHeaderFrom = b) (f : InFlight) (len : UInt8)
    (copied : List UInt8) : (s.accept b d f len copied).NodesOk := by
  rw [Net.accept]
  split_ifs
  · exact fun z => h.setNode (n := ⟨d.markSeen f.frame, .idle⟩) ⟨hd.1, hd.2, trivial⟩ z
  · exact h.setNode ⟨hd.1, hd.2, trivial⟩

theorem Move.nodesOk {s s' : Net} (h : s.NodesOk) {e : NetEvent} (hm : Move s e s') :
    s'.NodesOk := by
  cases hm with
  | start a d buf address hn =>
    have hok := h a
    rw [hn] at hok
    refine NodesOk.transmit (fun z => ?_) ⟨hok.1, hok.2.1⟩ ?_
    · -- the call is recorded before its first transmission
      by_cases hz : z = a
      · subst hz
        show NodeOk _ z (s.node z)
        rw [hn]
        exact ⟨hok.1, hok.2.1, trivial⟩
      · show NodeOk (Function.update s.calls a _ z) z (s.node z)
        rw [Function.update_of_ne hz]
        exact h z
    · exact beginCall_last _ _ _
  | retry a d buf address seq r hn =>
    have hok := h a
    rw [hn] at hok
    exact h.transmit ⟨hok.1, hok.2.1⟩ hok.2.2
  | giveUp a d buf address seq r hn =>
    have hok := h a
    rw [hn] at hok
    exact fun z => h.setNode (n := ⟨d, .idle⟩) ⟨hok.1, hok.2.1, trivial⟩ z
  | acked a b d buf address seq r f rest hn =>
    have hok := h a
    rw [hn] at hok
    exact fun z => NodesOk.setNode (s := s.setLink b a rest) (n := ⟨d, .idle⟩) h
      ⟨hok.1, hok.2.1, trivial⟩ z
  | reack a b d buf address seq r f rest hn =>
    have hok := h a
    rw [hn] at hok
    exact NodesOk.acknowledge (s := s.setLink b a rest) h hok
  | drop a b l => exact h
  | hold a b d f rest len hn hl hack =>
    have hok := h b
    rw [hn] at hok
    exact NodesOk.acknowledge (s := s.setLink a b rest) h ⟨hok.1, hok.2.1, hack, rfl⟩
  | broadcast a b d f rest len hn =>
    have hok := h b
    rw [hn] at hok
    exact NodesOk.accept (s := s.setLink a b rest) h ⟨hok.1, hok.2.1⟩ f len _
  | finish b d f len copied hn =>
    have hok := h b
    rw [hn] at hok
    exact h.accept ⟨hok.1, hok.2.1⟩ f len _

theorem transmit_calls (s : Net) (a : UInt8) (d : RHReliableDatagram) (buf : List UInt8)
    (address seq r : UInt8) : (s.transmit a d buf address seq r).calls = s.calls := by
  rw [transmit, send_calls, settle_calls]

theorem accept_calls (s : Net) (b : UInt8) (d : RHReliableDatagram) (f : InFlight) (len : UInt8)
    (copied : List UInt8) : (s.accept b d f len copied).calls = s.calls := by
  rw [accept]
  split_ifs <;> rfl

theorem acknowledge_calls (s : Net) (b : UInt8) (d : RHReliableDatagram) (f : Frame)
    (c : Control) : (s.acknowledge b d f c).calls = s.calls := send_calls _ _

/-- Calls are only ever added. -/
theorem Move.calls {s s' : Net} {e : NetEvent} (hm : Move s e s') (x : UInt8) :
    s.calls x <+: s'.calls x := by
  cases hm with
  | start a d buf address =>
    rw [transmit_calls]
    show s.calls x <+: Function.update s.calls a _ x
    by_cases hx : x = a
    · subst hx
      rw [Function.update_self]
      exact List.prefix_append _ _
    · rw [Function.update_of_ne hx]
  | retry a d buf address seq r => rw [transmit_calls]
  | giveUp => exact List.prefix_refl _
  | acked => exact List.prefix_refl _
  | reack =>
    rw [acknowledge_calls]
    exact List.prefix_refl _
  | drop => exact List.prefix_refl _
  | hold =>
    rw [acknowledge_calls]
    exact List.prefix_refl _
  | broadcast =>
    rw [accept_calls]
    exact List.prefix_refl _
  | finish => rw [accept_calls]

/-! ### At most once -/

/-- The call numbers on a queue. -/
def numbers (q : List InFlight) : List ℕ := q.filterMap InFlight.call

/-- From one node to another the calls delivered and then those still on the
queue are in order, none is delivered twice, and the sequence number last seen
is that of the call delivered last. -/
structure PairOk (s : Net) (a b : UInt8) : Prop where
  sender : ∀ f ∈ s.queue a b, f.frame.headerFrom = a
  carries : ∀ f ∈ s.queue a b, (f.call = none ∧ f.frame.IsAck) ∨ ∃ n, s.Carries a f n
  sorted : (s.deliveredCalls a b ++ numbers (s.queue a b)).Pairwise (· ≤ ·)
  bound : ∀ n ∈ s.deliveredCalls a b, n < (s.calls a).length
  strict : (s.deliveredCalls a b).Pairwise (· < ·)
  seen : ∀ n ∈ (s.deliveredCalls a b).getLast?,
    ∃ c, (s.calls a)[n]? = some c ∧ s.seen a b = c.sequenceNumber

theorem Carries.mono {s s' : Net} {a : UInt8} {f : InFlight} {n : ℕ} (h : s.Carries a f n)
    (hcalls : s.calls a <+: s'.calls a) : s'.Carries a f n := by
  obtain ⟨l, hl⟩ := hcalls
  have hn := (List.getElem?_eq_some_iff.mp h.2.2).1
  refine ⟨h.1, h.2.1, ?_⟩
  rw [← hl, List.getElem?_append_left hn]
  exact h.2.2

theorem Carries.lt {s : Net} {a : UInt8} {f : InFlight} {n : ℕ} (h : s.Carries a f n) :
    n < (s.calls a).length := (List.getElem?_eq_some_iff.mp h.2.2).1

section Pair

variable {s s' : Net} {a b : UInt8}

/-- The calls on a queue were made. -/
theorem PairOk.numbers_lt (h : PairOk s a b) {n : ℕ} (hn : n ∈ numbers (s.queue a b)) :
    n < (s.calls a).length := by
  obtain ⟨f, hf, hfn⟩ := List.mem_filterMap.mp hn
  rcases h.carries f hf with ⟨hnone, -⟩ | ⟨m, hm⟩
  · rw [hnone] at hfn
    cases hfn
  · rw [hm.1, Option.some_inj] at hfn
    exact hfn ▸ hm.lt

/-- A frame whose sequence number is not the one last seen carries a later call
than all those delivered. -/
theorem PairOk.lt_of_new (h : PairOk s a b) {f : InFlight} {n : ℕ} (hf : f ∈ s.queue a b)
    (hn : s.Carries a f n) (hnew : f.frame.headerId ≠ s.seen a b) :
    ∀ m ∈ s.deliveredCalls a b, m < n := by
  have hmem : n ∈ numbers (s.queue a b) := List.mem_filterMap.mpr ⟨f, hf, hn.1⟩
  have hle : ∀ m ∈ s.deliveredCalls a b, m ≤ n := fun m hm =>
    (List.pairwise_append.mp h.sorted).2.2 m hm n hmem
  intro m hm
  -- the call delivered last is not this one, or its number would be the one seen
  rcases List.eq_nil_or_concat (s.deliveredCalls a b) with hnil | ⟨init, l, hl⟩
  · rw [hnil] at hm
    cases hm
  rw [List.concat_eq_append] at hl
  have hlast : l ∈ (s.deliveredCalls a b).getLast? := by rw [hl]; simp
  have hln : l < n := by
    refine lt_of_le_of_ne (hle l (by rw [hl]; simp)) ?_
    rintro rfl
    obtain ⟨c, hc, hseen⟩ := h.seen l hlast
    rw [hn.2.2, Option.some_inj] at hc
    exact hnew (by rw [hseen, ← hc])
  have hml : m ≤ l := by
    have hstrict := h.strict
    rw [hl] at hm hstrict
    rcases List.mem_append.mp hm with hm | hm
    · exact ((List.pairwise_append.mp hstrict).2.2 m hm l (by simp)).le
    · exact (List.mem_singleton.mp hm).le
  omega

/-- Frames are gone, and one may be sent: a frame of the last call, or an
acknowledgement. -/
theorem PairOk.extend (h : PairOk s a b) (hcalls : s.calls a <+: s'.calls a) {q : List InFlight}
    (hqueue : (s'.queue a b).Sublist (s.queue a b ++ q))
    (hq : ∀ f ∈ q, f.frame.headerFrom = a ∧ ((f.call = none ∧ f.frame.IsAck) ∨
      s'.Carries a f ((s'.calls a).length - 1)))
    (hlen : q.length ≤ 1) (hseen : s'.seen a b = s.seen a b)
    (hdelivered : s'.deliveredCalls a b = s.deliveredCalls a b) : PairOk s' a b where
  sender f hf := by
    rcases List.mem_append.mp (hqueue.subset hf) with hmem | hmem
    · exact h.sender f hmem
    · exact (hq f hmem).1
  carries f hf := by
    rcases List.mem_append.mp (hqueue.subset hf) with hmem | hmem
    · rcases h.carries f hmem with hack | ⟨n, hn⟩
      · exact .inl hack
      · exact .inr ⟨n, hn.mono hcalls⟩
    · rcases (hq f hmem).2 with hack | hn
      · exact .inl hack
      · exact .inr ⟨_, hn⟩
  sorted := by
    have hsub : (s'.deliveredCalls a b ++ numbers (s'.queue a b)).Sublist
        ((s.deliveredCalls a b ++ numbers (s.queue a b)) ++ numbers q) := by
      rw [hdelivered, List.append_assoc, numbers, numbers, numbers, ← List.filterMap_append]
      exact (hqueue.filterMap _).append_left _
    refine List.Pairwise.sublist hsub (List.pairwise_append.mpr ⟨h.sorted, ?_, ?_⟩)
    · -- at most one frame is new: the numbers stay sorted if it comes after all of them
      have hlen' : (numbers q).length ≤ 1 := (List.length_filterMap_le _ q).trans hlen
      rcases hnum : numbers q with _ | ⟨n, _ | ⟨m, l⟩⟩
      · exact List.Pairwise.nil
      · exact List.pairwise_singleton _ n
      · rw [hnum] at hlen'
        simp at hlen'
    · intro n hn m hm
      obtain ⟨f, hf, hfm⟩ := List.mem_filterMap.mp hm
      have hnlt : n < (s'.calls a).length := by
        refine lt_of_lt_of_le ?_ hcalls.length_le
        rcases List.mem_append.mp hn with hn | hn
        · exact h.bound n hn
        · exact h.numbers_lt hn
      rcases (hq f hf).2 with ⟨hnone, -⟩ | hcarries
      · rw [hnone] at hfm
        cases hfm
      · rw [hcarries.1, Option.some_inj] at hfm
        omega
  bound n hn := lt_of_lt_of_le (h.bound n (hdelivered ▸ hn)) hcalls.length_le
  strict := hdelivered ▸ h.strict
  seen n hn := by
    rw [hdelivered] at hn
    obtain ⟨c, hc, hs⟩ := h.seen n hn
    obtain ⟨l, hl⟩ := hcalls
    refine ⟨c, ?_, hseen.trans hs⟩
    rw [← hl, List.getElem?_append_left (List.getElem?_eq_some_iff.mp hc).1]
    exact hc

/-- A frame is delivered, and those before it are gone. -/
theorem PairOk.deliver (h : PairOk s a b) (hcalls : s.calls a <+: s'.calls a) {f : InFlight}
    {len : UInt8} {copied : List UInt8} (hqueue : (f :: s'.queue a b).Sublist (s.queue a b))
    (hack : ¬ f.frame.IsAck) (hseen : s'.seen a b = f.frame.headerId)
    (hnew : f.frame.headerId ≠ s.seen a b)
    (hdelivered : s'.delivered = s.delivered ++ [⟨b, a, f.call, len, copied⟩]) : PairOk s' a b := by
  have hf : f ∈ s.queue a b := hqueue.subset List.mem_cons_self
  obtain ⟨n, hn⟩ : ∃ n, s.Carries a f n := by
    rcases h.carries f hf with hack' | hn
    · exact absurd hack'.2 hack
    · exact hn
  -- the call delivered is the next one in order
  have hcallsEq : s'.deliveredCalls a b = s.deliveredCalls a b ++ [n] := by
    rw [deliveredCalls, hdelivered, List.filterMap_append, deliveredCalls]
    simp [hn.1]
  have hlt := h.lt_of_new hf hn hnew
  refine ⟨?_, ?_, ?_, ?_, ?_, ?_⟩
  · exact fun g hg => h.sender g (hqueue.subset (List.mem_cons_of_mem f hg))
  · intro g hg
    rcases h.carries g (hqueue.subset (List.mem_cons_of_mem f hg)) with hack' | ⟨m, hm⟩
    · exact .inl hack'
    · exact .inr ⟨m, hm.mono hcalls⟩
  · rw [hcallsEq, List.append_assoc]
    refine List.Pairwise.sublist (List.Sublist.append_left ?_ _) h.sorted
    have hnum : [n] ++ numbers (s'.queue a b) = numbers (f :: s'.queue a b) := by
      rw [numbers, numbers, List.filterMap_cons, hn.1]
      rfl
    rw [hnum]
    exact hqueue.filterMap _
  · intro m hm
    rw [hcallsEq] at hm
    refine lt_of_lt_of_le ?_ hcalls.length_le
    rcases List.mem_append.mp hm with hm | hm
    · exact h.bound m hm
    · exact List.mem_singleton.mp hm ▸ hn.lt
  · rw [hcallsEq]
    refine List.pairwise_append.mpr ⟨h.strict, List.pairwise_singleton _ n, ?_⟩
    intro m hm k hk
    exact List.mem_singleton.mp hk ▸ hlt m hm
  · intro m hm
    rw [hcallsEq, List.getLast?_concat, Option.mem_some_iff] at hm
    subst hm
    exact ⟨_, (hn.mono hcalls).2.2, hseen⟩

/-- Every effect keeps the order. -/
theorem PairOk.effect (h : PairOk s a b) (hcalls : s.calls a <+: s'.calls a)
    (heff : Effect s s' a b) : PairOk s' a b := by
  cases heff with
  | quiet hqueue hseen hdelivered =>
    exact h.extend hcalls (q := []) (by rwa [List.append_nil]) (by simp) (by simp) hseen hdelivered
  | data f hqueue hseen hdelivered hfrom hcarries =>
    refine h.extend hcalls hqueue (fun g hg => ?_) le_rfl hseen hdelivered
    exact List.mem_singleton.mp hg ▸ ⟨hfrom, .inr hcarries⟩
  | ack f g hqueue hseen hdelivered hfrom hnone hack =>
    refine h.extend hcalls hqueue (fun g hg => ?_) le_rfl hseen hdelivered
    exact List.mem_singleton.mp hg ▸ ⟨hfrom, .inl ⟨hnone, hack⟩⟩
  | deliver f len hqueue hack hseen hnew hdelivered =>
    exact h.deliver hcalls hqueue hack hseen hnew hdelivered

end Pair

/-- The invariant of the network. -/
structure Inv (s : Net) : Prop where
  nodes : s.NodesOk
  pairs : ∀ a b, PairOk s a b

theorem inv_start (nodes : UInt8 → RHReliableDatagram) : Inv (start nodes) where
  nodes _ := ⟨rfl, rfl, trivial⟩
  pairs a b := by
    have hqueue : (start nodes).queue a b = [] := rfl
    have hdelivered : (start nodes).deliveredCalls a b = [] := rfl
    constructor
    · rw [hqueue]
      simp
    · rw [hqueue]
      simp
    · rw [hqueue, hdelivered]
      exact List.Pairwise.nil
    · rw [hdelivered]
      simp
    · rw [hdelivered]
      exact List.Pairwise.nil
    · rw [hdelivered]
      simp

theorem Inv.wf {s : Net} (h : Inv s) : Wf s := ⟨h.nodes, fun a b => (h.pairs a b).sender⟩

theorem Inv.step {s s' : Net} (h : Inv s) {e : NetEvent} (hs : s.step e = some s') : Inv s' :=
  ⟨(step_move hs).nodesOk h.nodes, fun a b =>
    (h.pairs a b).effect ((step_move hs).calls a) ((step_move hs).effect h.wf a b)⟩

/-- The record of deliveries, counted by node, sender and call. -/
theorem count_deliveredCalls (s : Net) (a b : UInt8) (n : ℕ) :
    s.delivered.countP (fun d => d.node = b ∧ d.sender = a ∧ d.call = some n)
      = (s.deliveredCalls a b).count n := by
  rw [deliveredCalls]
  induction s.delivered with
  | nil => rfl
  | cons d ds ih =>
    rw [List.countP_cons, ih, List.filterMap_cons]
    by_cases hd : d.node = b ∧ d.sender = a
    · rw [if_pos hd]
      cases hc : d.call with
      | none => simp
      | some m =>
        rw [List.count_cons]
        simp [hd.1, hd.2]
    · rw [if_neg hd]
      have hno : ¬ (d.node = b ∧ d.sender = a ∧ d.call = some n) := fun h => hd ⟨h.1, h.2.1⟩
      simp [hno]

/-- **A call's message is delivered at most once at each node**, in every run
of the network, whatever is lost, retransmitted or timed out. -/
theorem at_most_once (nodes : UInt8 → RHReliableDatagram) (es : List NetEvent) (s : Net)
    (hrun : run step (start nodes) es = some s) (a b : UInt8) (n : ℕ) :
    s.delivered.countP (fun d => d.node = b ∧ d.sender = a ∧ d.call = some n) ≤ 1 := by
  have hinv : Inv s := run_invariant (fun _ _ _ h hs => h.step hs) (inv_start nodes) hrun
  rw [count_deliveredCalls]
  have hnodup : (s.deliveredCalls a b).Nodup := (hinv.pairs a b).strict.imp ne_of_lt
  exact List.nodup_iff_count_le_one.mp hnodup n

/-- Node 1 sends a message to node 2, which delivers it; its acknowledgement is
lost, and node 1 sends the message once more. -/
def lostAck : List NetEvent :=
  [.sendtoWait 1 [0x6d] 2, .recvfromAck 1 2 251, .finish 2, .lose 2 1 0, .timeout 1,
    .recvfromAck 1 2 251, .finish 2, .waitReceive 1 2]

theorem lostAck_at_most_once :
    ∃ s, run step (start .constructed) lostAck = some s ∧ s.results 1 = [(0, true)] ∧
      s.delivered = [⟨2, 1, some 0, 251, [0x6d]⟩] ∧
      s.delivered.countP (fun d => d.node = 2 ∧ d.sender = 1 ∧ d.call = some 0) ≤ 1 := by
  have hrun : run step (start .constructed) lostAck = some _ := rfl
  exact ⟨_, hrun, rfl, rfl, at_most_once _ _ _ hrun 1 2 0⟩

end Net
