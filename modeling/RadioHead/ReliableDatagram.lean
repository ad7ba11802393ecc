/-
Acknowledged datagrams: `RHReliableDatagram` over `RHDatagram`.

The node's part of the protocol, as functions of its members: what one
transmission of `sendtoWait` sends, what is done with a message received in
its wait loop, and the two halves of `recvfromAck`, the acknowledgement and
what comes after it.  The driver below appears through its four transmit
headers, which stay set from one message to the next.

* `Frame` — a message on the air, with its headers;
* `RHReliableDatagram` — the members of a node;
* `acknowledge`, `attempt`, `isAckFor`, `isNew`, `markSeen` — the parts of
  `sendtoWait` and `recvfromAck`;
* `attempt_frame`, `acknowledge_frame` — the frames they put on the air.
-/
import RadioHead.RF95

/-- `RH_FLAGS_NONE`. -/
def flagsNone : UInt8 := 0

/-- `RH_FLAGS_ACK`. -/
def flagsAck : UInt8 := 0x80

/-- A message on the air: the four headers, and the octets after them. -/
structure Frame where
  headerTo : UInt8
  headerFrom : UInt8
  headerId : UInt8
  headerFlags : UInt8
  data : List UInt8
  deriving DecidableEq

/-- The frame is an acknowledgement. -/
def Frame.IsAck (f : Frame) : Prop := f.headerFlags &&& flagsAck ≠ 0

instance (f : Frame) : Decidable f.IsAck := inferInstanceAs (Decidable (_ ≠ _))

/-- The driver of node `a` keeps the frame: it is addressed to the node or to
all of them. -/
def Frame.For (f : Frame) (a : UInt8) : Prop := f.headerTo = a ∨ f.headerTo = broadcastAddress

instance (f : Frame) (a : UInt8) : Decidable (f.For a) := inferInstanceAs (Decidable (_ ∨ _))

/-- The members of a node, and the transmit headers of its driver. -/
structure RHReliableDatagram where
  thisAddress : UInt8
  txHeaderTo : UInt8
  txHeaderFrom : UInt8
  txHeaderId : UInt8
  txHeaderFlags : UInt8
  retransmissions : UInt32
  lastSequenceNumber : UInt8
  retries : UInt8
  seenIds : UInt8 → UInt8

namespace RHReliableDatagram

/-- `RH_DEFAULT_RETRIES`. -/
def defaultRetries : UInt8 := 3

/-- The members as the constructor leaves them, in zeroed memory. -/
def constructed (thisAddress : UInt8) : RHReliableDatagram where
  thisAddress := thisAddress
  txHeaderTo := broadcastAddress
  txHeaderFrom := broadcastAddress
  txHeaderId := 0
  txHeaderFlags := 0
  retransmissions := 0
  lastSequenceNumber := 0
  retries := defaultRetries
  seenIds := fun _ => 0

/-- `setHeaderFlags`. -/
def setHeaderFlags (d : RHReliableDatagram) (set clear : UInt8) : RHReliableDatagram :=
  { d with txHeaderFlags := (d.txHeaderFlags &&& ~~~clear) ||| set }

/-- `sendto`, with the frame that goes on the air: none if the driver refuses
the message for its length. -/
def sendto (d : RHReliableDatagram) (buf : List UInt8) (address : UInt8) :
    Option Frame × RHReliableDatagram :=
  let d := { d with txHeaderTo := address }
  (if buf.length ≤ maxMessageLen then
    some ⟨d.txHeaderTo, d.txHeaderFrom, d.txHeaderId, d.txHeaderFlags, buf⟩ else none, d)

/-- `acknowledge`: the payload is the octet `'!'`. -/
def acknowledge (d : RHReliableDatagram) (id dest : UInt8) : Option Frame × RHReliableDatagram :=
  ({ d with txHeaderId := id }.setHeaderFlags flagsAck flagsNone).sendto [0x21] dest

/-- One transmission of `sendtoWait`. -/
def attempt (d : RHReliableDatagram) (thisSequenceNumber : UInt8) (buf : List UInt8)
    (address : UInt8) : Option Frame × RHReliableDatagram :=
  ({ d with txHeaderId := thisSequenceNumber }.setHeaderFlags flagsNone flagsAck).sendto buf
    address

/-- The message is the acknowledgement that `sendtoWait` waits for. -/
def isAckFor (d : RHReliableDatagram) (f : Frame) (address thisSequenceNumber : UInt8) : Prop :=
  f.headerFrom = address ∧ f.headerTo = d.thisAddress ∧ f.IsAck ∧ f.headerId = thisSequenceNumber

instance (d : RHReliableDatagram) (f : Frame) (address thisSequenceNumber : UInt8) :
    Decidable (d.isAckFor f address thisSequenceNumber) :=
  inferInstanceAs (Decidable (_ ∧ _ ∧ _ ∧ _))

/-- The message has not been received before, as far as `_seenIds` goes. -/
def isNew (d : RHReliableDatagram) (f : Frame) : Prop := f.headerId ≠ d.seenIds f.headerFrom

instance (d : RHReliableDatagram) (f : Frame) : Decidable (d.isNew f) :=
  inferInstanceAs (Decidable (_ ≠ _))

/-- `_seenIds[_from] = _id`. -/
def markSeen (d : RHReliableDatagram) (f : Frame) : RHReliableDatagram :=
  { d with seenIds := Function.update d.seenIds f.headerFrom f.headerId }

/-! ### What goes on the air -/

theorem and_not_self (a b : UInt8) : (a &&& ~~~b ||| 0) &&& b = 0 := by
  rw [UInt8.or_zero, UInt8.and_assoc, UInt8.not_and_self, UInt8.and_zero]

/-- A transmission carries the message under its sequence number, and is no
acknowledgement. -/
theorem attempt_frame {d : RHReliableDatagram} {seq address : UInt8} {buf : List UInt8}
    {f : Frame} (h : (d.attempt seq buf address).1 = some f) :
    f.headerFrom = d.txHeaderFrom ∧ f.headerTo = address ∧ f.headerId = seq ∧ f.data = buf ∧
      ¬ f.IsAck := by
  simp only [attempt, sendto, Option.ite_none_right_eq_some, Option.some_inj] at h
  obtain ⟨-, rfl⟩ := h
  exact ⟨rfl, rfl, rfl, rfl, fun hack => hack (and_not_self _ _)⟩

/-- An acknowledgement names the message it acknowledges. -/
theorem acknowledge_frame {d : RHReliableDatagram} {id dest : UInt8} {f : Frame}
    (h : (d.acknowledge id dest).1 = some f) :
    f.headerFrom = d.txHeaderFrom ∧ f.headerTo = dest ∧ f.headerId = id ∧ f.IsAck := by
  simp only [acknowledge, sendto, Option.ite_none_right_eq_some, Option.some_inj] at h
  obtain ⟨-, rfl⟩ := h
  refine ⟨rfl, rfl, rfl, ?_⟩
  show (_ ||| flagsAck) &&& flagsAck ≠ 0
  intro h0
  have hself : (d.txHeaderFlags &&& ~~~flagsNone ||| flagsAck) &&& flagsAck = flagsAck := by
    refine UInt8.toBitVec_inj.mp ?_
    ext i
    simp +contextual
  rw [hself] at h0
  exact absurd h0 (by decide)

/-- Only the transmit headers change. -/
@[simp] theorem attempt_seenIds (d : RHReliableDatagram) (seq address : UInt8)
    (buf : List UInt8) : (d.attempt seq buf address).2.seenIds = d.seenIds := rfl

@[simp] theorem acknowledge_seenIds (d : RHReliableDatagram) (id dest : UInt8) :
    (d.acknowledge id dest).2.seenIds = d.seenIds := rfl

end RHReliableDatagram
