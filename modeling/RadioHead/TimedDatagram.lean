/-
Acknowledged datagrams against the clock.

`RHReliableDatagram` with its loops: `sendtoWait`, which transmits until it is
acknowledged or the retries are exhausted, and in between waits for a time
that it draws at random; `recvfromAck`, and `recvfromAckTimeout` which calls it
until there is a message or the time is over.  What a call meets with is a list
of turns: a time at which the clock is read, and the message received before it
is read again.  When the list ends before the call does, the call has not
returned.

With the members goes a record, for the statements only: what is on the air and
why, and the waits of `sendtoWait`.

* `TimedDatagram` — the members of a node, and the record;
* `sendtoWait`, `recvfromAck`, `recvfromAckTimeout`, `sendto` — its calls;
* `Alike` — the members that the loops read and do not change;
* `Acknowledges` — what a message heard while waiting does: it is acknowledged
  again, or nothing happens;
* `waitAck_eq` — the wait for an acknowledgement, in terms of the turns;
* `attempts_cons` — what one transmission does, and what comes after it.
-/
import RadioHead.Lib.Clock
import RadioHead.Lib.Memory
import RadioHead.Lib.Polling
import RadioHead.ReliableDatagram

open Polling

/-- Why a frame is sent: it is the message of `sendto` or `sendtoWait`, or an
acknowledgement of the frame `f`. -/
inductive Cause where
  | message
  | acknowledgement (f : Frame)
  deriving DecidableEq

/-- The frame that is acknowledged. -/
def Cause.answers : Cause → Option Frame
  | .message => none
  | .acknowledgement f => some f

structure Transmission where
  frame : Frame
  cause : Cause
  deriving DecidableEq

/-- A turn of a polling loop: when the clock is read, and the message received
before it is read again. -/
structure Poll where
  time : ℕ
  heard : Option Frame
  deriving DecidableEq

/-- What a transmission of `sendtoWait` meets with: when it starts, when the
clock is read after it, the number drawn, and the turns of the wait loop. -/
structure Attempt where
  startTime : ℕ
  sendTime : ℕ
  draw : UInt8
  polls : List Poll
  deriving DecidableEq

/-- A wait of `sendtoWait`: for a transmission with these times and this draw,
for `timeout` milliseconds. -/
structure Wait where
  startTime : ℕ
  sendTime : ℕ
  draw : UInt8
  timeout : UInt16
  deriving DecidableEq

/-- The members of a node, with `_timeout`, and the record. -/
structure TimedDatagram extends RHReliableDatagram where
  timeout : UInt16
  sent : List Transmission
  waits : List Wait

/-- What the pointers passed to `recvfromAck` point to. -/
structure Pointees where
  buf : Mem
  len : UInt8
  headerFrom : UInt8
  headerTo : UInt8
  headerId : UInt8
  headerFlags : UInt8

/-- The driver's `recv`: the message is copied as far as there is room. -/
def Pointees.recv (p : Pointees) (f : Frame) : Pointees :=
  let n := RF95.clampLen p.len (UInt8.ofNat (headerLen + f.data.length))
  { p with buf := p.buf.write 0 (f.data.take n.toNat), len := n }

/-- `*from`, `*to`, `*id` and `*flags` are set. -/
def Pointees.setHeaders (p : Pointees) (f : Frame) : Pointees :=
  { p with
    headerFrom := f.headerFrom
    headerTo := f.headerTo
    headerId := f.headerId
    headerFlags := f.headerFlags }

/-- The turn comes before the time is over. -/
def Poll.inTime (timeout : UInt16) (start : ℕ) (p : Poll) : Bool :=
  0 < Clock.timeLeft timeout.toUInt32 (Clock.reading start) (Clock.reading p.time)

namespace TimedDatagram

/-- `RH_DEFAULT_TIMEOUT`. -/
def defaultTimeout : UInt16 := 200

/-- The members after the constructor and `init`, in zeroed memory. -/
def constructed (thisAddress : UInt8) : TimedDatagram where
  toRHReliableDatagram :=
    { RHReliableDatagram.constructed thisAddress with txHeaderFrom := thisAddress }
  timeout := defaultTimeout
  sent := []
  waits := []

/-! ### Sending -/

/-- The members after a frame has been handed to the driver, and the frame if
the driver accepts it. -/
def put (s : TimedDatagram) (r : Option Frame × RHReliableDatagram) (cause : Cause) :
    TimedDatagram :=
  { s with toRHReliableDatagram := r.2, sent := s.sent ++ r.1.toList.map (⟨·, cause⟩) }

/-- `sendto`. -/
def sendto (s : TimedDatagram) (buf : List UInt8) (address : UInt8) : Bool × TimedDatagram :=
  let r := s.toRHReliableDatagram.sendto buf address
  (r.1.isSome, s.put r .message)

/-- `acknowledge`, for the message `f`. -/
def acknowledge (s : TimedDatagram) (f : Frame) : TimedDatagram :=
  s.put (s.toRHReliableDatagram.acknowledge f.headerId f.headerFrom) (.acknowledgement f)

/-- A transmission of `sendtoWait`. -/
def transmission (s : TimedDatagram) (thisSequenceNumber : UInt8) (buf : List UInt8)
    (address : UInt8) : TimedDatagram :=
  s.put (s.toRHReliableDatagram.attempt thisSequenceNumber buf address) .message

/-- A message received in the wait loop: true if it is the acknowledgement that
is waited for. -/
def hear (address thisSequenceNumber : UInt8) (s : TimedDatagram) (f : Frame) :
    Bool × TimedDatagram :=
  if s.isAckFor f address thisSequenceNumber then (true, s)
  else if ¬ f.IsAck ∧ f.headerId = s.seenIds f.headerFrom then
    -- a request that has been received already is acknowledged again
    (false, s.acknowledge f)
  else (false, s)

/-- A turn of the wait loop. -/
def await (address thisSequenceNumber : UInt8) (s : TimedDatagram) (p : Poll) :
    Bool × TimedDatagram :=
  match p.heard with
  | none => (false, s)
  | some f => s.hear address thisSequenceNumber f

/-- `_timeout + (_timeout * random(0, 256) / 256)`, stored in 16 bits. -/
def retransmitTimeout (timeout : UInt16) (draw : UInt8) : UInt16 :=
  UInt16.ofNat (timeout.toNat + timeout.toNat * draw.toNat / 256)

/-- The wait loop. -/
def waitAck (address thisSequenceNumber : UInt8) (s : TimedDatagram) (a : Attempt) :
    Option Bool × TimedDatagram :=
  loop (Poll.inTime (retransmitTimeout s.timeout a.draw) a.sendTime)
    (await address thisSequenceNumber) s a.polls

/-- `if (retries > 1) _retransmissions++`. -/
def countRetry (retries : UInt8) (s : TimedDatagram) : TimedDatagram :=
  if 1 < retries then { s with retransmissions := s.retransmissions + 1 } else s

/-- The wait goes to the record. -/
def noteWait (s : TimedDatagram) (a : Attempt) : TimedDatagram :=
  { s with
    waits := s.waits ++
      [⟨a.startTime, a.sendTime, a.draw, retransmitTimeout s.timeout a.draw⟩] }

/-- `while (retries++ <= _retries)`, with what each transmission meets with. -/
def attempts (address thisSequenceNumber : UInt8) (buf : List UInt8) :
    List Attempt → UInt8 → TimedDatagram → Option Bool × TimedDatagram
  | [], retries, s => (if retries ≤ s.retries then none else some false, s)
  | a :: as, retries, s =>
    if retries ≤ s.retries then
      let s := s.transmission thisSequenceNumber buf address
      -- never wait for acknowledgements of broadcasts
      if address = broadcastAddress then (some true, s)
      else
        match ((s.countRetry (retries + 1)).noteWait a).waitAck address thisSequenceNumber a with
        | (some false, s) => attempts address thisSequenceNumber buf as (retries + 1) s
        | r => r
    else (some false, s)

/-- `sendtoWait`. -/
def sendtoWait (s : TimedDatagram) (buf : List UInt8) (address : UInt8) (as : List Attempt) :
    Option Bool × TimedDatagram :=
  let thisSequenceNumber := s.lastSequenceNumber + 1
  attempts address thisSequenceNumber buf as 0 { s with lastSequenceNumber := thisSequenceNumber }

/-! ### Receiving -/

/-- `recvfromAck`, with the message that is available. -/
def recvfromAck (s : TimedDatagram) (p : Pointees) :
    Option Frame → Bool × Pointees × TimedDatagram
  | none => (false, p, s)
  | some f =>
    let p := p.recv f
    if f.IsAck then (false, p, s)
    else
      let s := if f.headerTo ≠ broadcastAddress then s.acknowledge f else s
      if f.headerId ≠ s.seenIds f.headerFrom then
        (true, p.setHeaders f, { s with toRHReliableDatagram := s.markSeen f })
      else (false, p, s)

/-- `recvfromAckTimeout`, with the reading of the clock it starts with. -/
def recvfromAckTimeout (s : TimedDatagram) (p : Pointees) (timeout : UInt16) (start : ℕ)
    (polls : List Poll) : Option Bool × Pointees × TimedDatagram :=
  loop (Poll.inTime timeout start)
    (fun r q => r.2.recvfromAck r.1 q.heard) (p, s) polls

/-! ### The record -/

/-- The number of messages that have been transmitted. -/
def messages (s : TimedDatagram) : ℕ := s.sent.countP fun t => t.cause = .message

/-- The messages that have been acknowledged. -/
def acknowledged (s : TimedDatagram) : List Frame := s.sent.filterMap fun t => t.cause.answers

/-- The acknowledgement of `f`. -/
def ackOf (s : TimedDatagram) (f : Frame) : Transmission :=
  ⟨⟨f.headerFrom, s.txHeaderFrom, f.headerId, s.txHeaderFlags ||| flagsAck, [0x21]⟩,
    .acknowledgement f⟩

/-! ### What stays as it is -/

/-- The message is one that has been received already, as far as `_seenIds`
goes. -/
def Repeated (s : TimedDatagram) (f : Frame) : Prop :=
  ¬ f.IsAck ∧ f.headerId = s.seenIds f.headerFrom

instance (s : TimedDatagram) (f : Frame) : Decidable (s.Repeated f) :=
  inferInstanceAs (Decidable (_ ∧ _))

/-- `t` has the members of `s` that `sendtoWait` reads in its loops. -/
structure Alike (s t : TimedDatagram) : Prop where
  thisAddress : t.thisAddress = s.thisAddress
  timeout : t.timeout = s.timeout
  retries : t.retries = s.retries
  seenIds : t.seenIds = s.seenIds

section Alike

variable {s t u : TimedDatagram}

theorem Alike.refl (s : TimedDatagram) : Alike s s := ⟨rfl, rfl, rfl, rfl⟩

theorem Alike.trans (h : Alike s t) (h' : Alike t u) : Alike s u where
  thisAddress := h'.thisAddress.trans h.thisAddress
  timeout := h'.timeout.trans h.timeout
  retries := h'.retries.trans h.retries
  seenIds := h'.seenIds.trans h.seenIds

theorem Alike.filter_repeated (h : Alike s t) (l : List Frame) :
    l.filter t.Repeated = l.filter s.Repeated := by
  refine List.filter_congr ?_
  intro f _
  refine decide_eq_decide.mpr ?_
  rw [Repeated, Repeated, h.seenIds]

end Alike

/-! ### Acknowledging again -/

/-- From `s` to `t` the messages `fs` are acknowledged, and nothing else happens. -/
structure Acknowledges (fs : List Frame) (s t : TimedDatagram) : Prop where
  members : t = { s with
    txHeaderTo := t.txHeaderTo
    txHeaderId := t.txHeaderId
    txHeaderFlags := t.txHeaderFlags
    sent := t.sent }
  flags : t.txHeaderFlags ||| flagsAck = s.txHeaderFlags ||| flagsAck
  sent : t.sent = s.sent ++ fs.map s.ackOf

section Acknowledges

variable {fs gs : List Frame} {s t u : TimedDatagram}

theorem Acknowledges.refl (s : TimedDatagram) : Acknowledges [] s s :=
  ⟨rfl, rfl, (List.append_nil _).symm⟩

theorem Acknowledges.trans (h : Acknowledges fs s t) (h' : Acknowledges gs t u) :
    Acknowledges (fs ++ gs) s u where
  members := by
    refine h'.members.trans ?_
    rw [h.members]
  flags := h'.flags.trans h.flags
  sent := by
    have hfrom : t.txHeaderFrom = s.txHeaderFrom := by rw [h.members]
    have hack : t.ackOf = s.ackOf := by
      funext f
      rw [ackOf, ackOf, hfrom, h.flags]
    rw [h'.sent, h.sent, hack, List.map_append, List.append_assoc]

/-- `acknowledge` does what it says. -/
theorem acknowledge_acknowledges (s : TimedDatagram) (f : Frame) :
    Acknowledges [f] s (s.acknowledge f) := by
  -- clearing RH_FLAGS_NONE clears nothing
  have hset : ∀ x : UInt8, (x &&& ~~~flagsNone) ||| flagsAck = x ||| flagsAck := by
    intro x
    refine UInt8.toBitVec_inj.mp ?_
    ext i
    simp [flagsNone]
  have hframe : (s.toRHReliableDatagram.acknowledge f.headerId f.headerFrom).1 =
      some (s.ackOf f).frame := by
    show some (Frame.mk _ _ _ ((s.txHeaderFlags &&& ~~~flagsNone) ||| flagsAck) _) = _
    rw [hset]
    rfl
  refine ⟨rfl, ?_, ?_⟩
  · show ((s.txHeaderFlags &&& ~~~flagsNone) ||| flagsAck) ||| flagsAck = _
    rw [hset, UInt8.or_assoc, UInt8.or_self]
  · show s.sent ++ (s.toRHReliableDatagram.acknowledge f.headerId f.headerFrom).1.toList.map _ = _
    rw [hframe]
    rfl

theorem Acknowledges.alike (h : Acknowledges fs s t) : Alike s t := by
  rw [h.members]
  exact ⟨rfl, rfl, rfl, rfl⟩

theorem Acknowledges.retransmissions (h : Acknowledges fs s t) :
    t.retransmissions = s.retransmissions := by rw [h.members]

theorem Acknowledges.waits (h : Acknowledges fs s t) : t.waits = s.waits := by rw [h.members]

theorem Acknowledges.messages (h : Acknowledges fs s t) : t.messages = s.messages := by
  have hacks : (fs.map s.ackOf).countP (fun τ => τ.cause = .message) = 0 := by
    refine List.countP_eq_zero.mpr ?_
    intro τ hτ
    obtain ⟨f, -, rfl⟩ := List.mem_map.mp hτ
    simp [ackOf]
  rw [TimedDatagram.messages, h.sent, List.countP_append, hacks, Nat.add_zero,
    TimedDatagram.messages]

theorem Acknowledges.acknowledged (h : Acknowledges fs s t) :
    t.acknowledged = s.acknowledged ++ fs := by
  have hacks : (fs.map s.ackOf).filterMap (fun τ => τ.cause.answers) = fs := by
    rw [List.filterMap_map]
    exact List.filterMap_some
  rw [TimedDatagram.acknowledged, h.sent, List.filterMap_append, hacks, TimedDatagram.acknowledged]

end Acknowledges

/-! ### The wait for an acknowledgement -/

/-- In this turn the acknowledgement is received. -/
def isAckPoll (s : TimedDatagram) (address thisSequenceNumber : UInt8) (p : Poll) : Bool :=
  p.heard.any fun f => s.isAckFor f address thisSequenceNumber

/-- After the transmission the acknowledgement is received in time. -/
def Answered (s : TimedDatagram) (address thisSequenceNumber : UInt8) (a : Attempt) : Prop :=
  ∃ p ∈ a.polls.takeWhile (Poll.inTime (retransmitTimeout s.timeout a.draw) a.sendTime),
    ∃ f ∈ p.heard, s.isAckFor f address thisSequenceNumber

/-- The clock is read when the time to wait is over. -/
def Expires (s : TimedDatagram) (a : Attempt) : Prop :=
  ∃ p ∈ a.polls, p.inTime (retransmitTimeout s.timeout a.draw) a.sendTime = false

instance (s : TimedDatagram) (address seq : UInt8) (a : Attempt) :
    Decidable (s.Answered address seq a) :=
  decidable_of_iff
    (∃ p ∈ a.polls.takeWhile (Poll.inTime (retransmitTimeout s.timeout a.draw) a.sendTime),
      s.isAckPoll address seq p = true)
    (by simp only [isAckPoll, Option.any_eq_true, decide_eq_true_eq, Option.mem_def, Answered])

instance (s : TimedDatagram) (a : Attempt) : Decidable (s.Expires a) :=
  inferInstanceAs (Decidable (∃ p ∈ a.polls, _))

/-- The transmission was not acknowledged before the time was over. -/
def Unanswered (s : TimedDatagram) (address seq : UInt8) (a : Attempt) : Prop :=
  ¬ s.Answered address seq a ∧ s.Expires a

instance (s : TimedDatagram) (address seq : UInt8) (a : Attempt) :
    Decidable (s.Unanswered address seq a) := inferInstanceAs (Decidable (_ ∧ _))

/-- What is heard after a transmission, before the acknowledgement or the end
of the wait. -/
def heardBy (s : TimedDatagram) (address thisSequenceNumber : UInt8) (a : Attempt) : List Frame :=
  (passed (Poll.inTime (retransmitTimeout s.timeout a.draw) a.sendTime)
    (s.isAckPoll address thisSequenceNumber) a.polls).filterMap (·.heard)

section Wait

variable {address seq : UInt8} {s t : TimedDatagram}

/-- A message that is not the acknowledgement is acknowledged if it is not new. -/
theorem hear_of_not_ack {f : Frame} (h : ¬ s.isAckFor f address seq) :
    (s.hear address seq f).1 = false ∧
      Acknowledges ([f].filter s.Repeated) s (s.hear address seq f).2 := by
  by_cases hf : s.Repeated f
  · have hhear : s.hear address seq f = (false, s.acknowledge f) := (if_neg h).trans (if_pos hf)
    rw [hhear, List.filter_singleton, decide_eq_true hf]
    exact ⟨rfl, acknowledge_acknowledges s f⟩
  · have hhear : s.hear address seq f = (false, s) := (if_neg h).trans (if_neg hf)
    rw [hhear, List.filter_singleton, decide_eq_false hf]
    exact ⟨rfl, .refl s⟩

/-- A turn that does not bring the acknowledgement. -/
theorem await_of_not_ack {p : Poll} (h : s.isAckPoll address seq p = false) :
    (await address seq s p).1 = false ∧
      Acknowledges (p.heard.toList.filter s.Repeated) s (await address seq s p).2 := by
  rw [await]
  rcases hp : p.heard with _ | f
  · exact ⟨rfl, .refl s⟩
  · rw [isAckPoll, hp, Option.any_some, decide_eq_false_iff_not] at h
    exact hear_of_not_ack h

/-- A turn that does. -/
theorem await_of_ack {p : Poll} (h : s.isAckPoll address seq p = true) :
    await address seq s p = (true, s) := by
  rw [isAckPoll, Option.any_eq_true] at h
  obtain ⟨f, hp, hf⟩ := h
  rw [await, hp]
  exact if_pos (of_decide_eq_true hf)

theorem isAckPoll_congr (h : t.thisAddress = s.thisAddress) :
    t.isAckPoll address seq = s.isAckPoll address seq := by
  funext p
  rw [isAckPoll, isAckPoll]
  congr 1
  funext f
  refine decide_eq_decide.mpr ?_
  rw [RHReliableDatagram.isAckFor, RHReliableDatagram.isAckFor, h]

theorem await_decides (s : TimedDatagram) :
    Decides (await address seq) (fun t => t.thisAddress = s.thisAddress)
      (s.isAckPoll address seq) where
  result t p ht := by
    rcases hp : s.isAckPoll address seq p with _ | _
    · exact (await_of_not_ack (isAckPoll_congr ht ▸ hp)).1
    · rw [await_of_ack (isAckPoll_congr ht ▸ hp)]
  keep t p ht hp := (await_of_not_ack (isAckPoll_congr ht ▸ hp)).2.alike.thisAddress.trans ht

/-- Turns that do not bring the acknowledgement. -/
theorem pass_acknowledges {ps : List Poll} :
    ∀ {s : TimedDatagram}, (∀ p ∈ ps, s.isAckPoll address seq p = false) →
      Acknowledges ((ps.filterMap (·.heard)).filter s.Repeated) s
        (pass (await address seq) s ps) := by
  induction ps with
  | nil => exact fun {s} _ => .refl s
  | cons p ps ih =>
    intro s hps
    rw [List.forall_mem_cons] at hps
    have hp := (await_of_not_ack hps.1).2
    have hrest := ih (s := (await address seq s p).2) (by
      rw [isAckPoll_congr hp.alike.thisAddress]
      exact hps.2)
    have hheard : (p :: ps).filterMap (·.heard) = p.heard.toList ++ ps.filterMap (·.heard) := by
      rw [List.filterMap_cons]
      cases p.heard <;> rfl
    rw [hp.alike.filter_repeated] at hrest
    rw [hheard, List.filter_append]
    exact hp.trans hrest

/-- **The wait for an acknowledgement**: messages that are repeated meanwhile
are acknowledged, and nothing else happens. -/
theorem waitAck_eq (address seq : UInt8) (s : TimedDatagram) (a : Attempt) :
    ∃ t, Acknowledges ((s.heardBy address seq a).filter s.Repeated) s t ∧
      s.waitAck address seq a =
        (if s.Answered address seq a then some true
          else if s.Expires a then some false else none, t) := by
  refine ⟨_, pass_acknowledges fun p hp => done_of_mem_passed hp, ?_⟩
  have hstill : ∀ (t : TimedDatagram) p, t.thisAddress = s.thisAddress →
      s.isAckPoll address seq p = true → (await address seq t p).2 = t := by
    intro t p ht hp
    rw [await_of_ack (isAckPoll_congr ht ▸ hp)]
  rw [waitAck, loop_eq_of_still (await_decides s) hstill a.polls rfl]
  congr 2
  simp only [isAckPoll, Option.any_eq_true, decide_eq_true_eq, Option.mem_def, Answered]

end Wait

/-! ### One transmission after another -/

/-- The members when the wait after a transmission begins. -/
def tried (s : TimedDatagram) (thisSequenceNumber : UInt8) (buf : List UInt8) (address : UInt8)
    (retries : UInt8) (a : Attempt) : TimedDatagram :=
  { s.transmission thisSequenceNumber buf address with
    retransmissions := s.retransmissions + if 1 < retries + 1 then 1 else 0
    waits := s.waits ++
      [⟨a.startTime, a.sendTime, a.draw, retransmitTimeout s.timeout a.draw⟩] }

section Attempts

variable {address seq retries : UInt8} {buf : List UInt8} {s t : TimedDatagram}

theorem countRetry_noteWait (s : TimedDatagram) (a : Attempt) :
    ((s.transmission seq buf address).countRetry (retries + 1)).noteWait a =
      s.tried seq buf address retries a := by
  rw [countRetry, tried]
  split_ifs
  · rfl
  · rw [UInt32.add_zero]
    rfl

/-- What a transmission adds to the air: the message, if the driver accepts it. -/
theorem transmission_sent (seq : UInt8) (buf : List UInt8) (address : UInt8) (s : TimedDatagram) :
    ∃ f : Frame, f.headerTo = address ∧ f.data = buf ∧ ¬ f.IsAck ∧
      (s.transmission seq buf address).sent =
        s.sent ++ if buf.length ≤ maxMessageLen then [⟨f, .message⟩] else [] := by
  refine ⟨⟨address, s.txHeaderFrom, seq, s.txHeaderFlags &&& ~~~flagsAck ||| flagsNone, buf⟩,
    rfl, rfl, fun hack => hack (RHReliableDatagram.and_not_self _ _), ?_⟩
  show s.sent ++ ((if buf.length ≤ maxMessageLen then some _ else none).toList.map _) = _
  split_ifs <;> rfl

theorem tried_messages (address seq retries : UInt8) (buf : List UInt8) (s : TimedDatagram)
    (a : Attempt) :
    (s.tried seq buf address retries a).messages =
      s.messages + if buf.length ≤ maxMessageLen then 1 else 0 := by
  obtain ⟨f, -, -, -, hsent⟩ := transmission_sent seq buf address s
  show (s.transmission seq buf address).sent.countP _ = _
  rw [hsent, List.countP_append, messages]
  split_ifs <;> rfl

theorem tried_acknowledged (retries : UInt8) (s : TimedDatagram) (a : Attempt) :
    (s.tried seq buf address retries a).acknowledged = s.acknowledged := by
  obtain ⟨f, -, -, -, hsent⟩ := transmission_sent seq buf address s
  show (s.transmission seq buf address).sent.filterMap _ = _
  rw [hsent, List.filterMap_append, acknowledged]
  split_ifs
  · exact List.append_nil _
  · exact List.append_nil _

theorem Alike.answered (h : Alike s t) (a : Attempt) :
    t.Answered address seq a ↔ s.Answered address seq a := by
  simp only [Answered, RHReliableDatagram.isAckFor, h.thisAddress, h.timeout]

theorem Alike.expires (h : Alike s t) (a : Attempt) : t.Expires a ↔ s.Expires a := by
  simp only [Expires, h.timeout]

theorem Alike.unanswered (h : Alike s t) (a : Attempt) :
    t.Unanswered address seq a ↔ s.Unanswered address seq a :=
  and_congr (not_congr (h.answered a)) (h.expires a)

theorem Alike.heardBy (h : Alike s t) (a : Attempt) :
    t.heardBy address seq a = s.heardBy address seq a := by
  rw [TimedDatagram.heardBy, isAckPoll_congr h.thisAddress, h.timeout, TimedDatagram.heardBy]

/-- From `s` to `t` there are transmissions with the property `P` more. -/
def Grows (P : Transmission → Prop) (s t : TimedDatagram) : Prop :=
  ∃ out, t.sent = s.sent ++ out ∧ ∀ τ ∈ out, P τ

theorem Grows.refl {P : Transmission → Prop} (s : TimedDatagram) : Grows P s s :=
  ⟨[], (List.append_nil _).symm, by simp⟩

theorem Grows.trans {P : Transmission → Prop} {u : TimedDatagram} (h : Grows P s t)
    (h' : Grows P t u) : Grows P s u := by
  obtain ⟨out, hout, hP⟩ := h
  obtain ⟨out', hout', hP'⟩ := h'
  refine ⟨out ++ out', by rw [hout', hout, List.append_assoc], ?_⟩
  intro τ hτ
  rcases List.mem_append.mp hτ with hτ | hτ
  · exact hP τ hτ
  · exact hP' τ hτ

/-- What `sendtoWait` puts on the air: its message, and acknowledgements. -/
def Sends (buf : List UInt8) (address : UInt8) (τ : Transmission) : Prop :=
  match τ.cause with
  | .message => ¬ τ.frame.IsAck ∧ τ.frame.headerTo = address ∧ τ.frame.data = buf
  | .acknowledgement _ => τ.frame.IsAck

/-- From `s` to `t` there has been one transmission, and the wait after it. -/
structure Round (address seq retries : UInt8) (buf : List UInt8) (a : Attempt)
    (s t : TimedDatagram) : Prop where
  alike : Alike s t
  retransmissions : t.retransmissions = s.retransmissions + if 1 < retries + 1 then 1 else 0
  waits : t.waits = s.waits ++
    [⟨a.startTime, a.sendTime, a.draw, retransmitTimeout s.timeout a.draw⟩]
  messages : t.messages = s.messages + if buf.length ≤ maxMessageLen then 1 else 0
  acknowledged : t.acknowledged =
    s.acknowledged ++ (s.heardBy address seq a).filter s.Repeated
  sent : Grows (Sends buf address) s t

theorem transmission_grows (s : TimedDatagram) :
    Grows (Sends buf address) s (s.transmission seq buf address) := by
  obtain ⟨f, hto, hdata, hack, hsent⟩ :=
    transmission_sent seq buf address s
  refine ⟨_, hsent, ?_⟩
  intro τ hτ
  split_ifs at hτ
  · obtain rfl := List.mem_singleton.mp hτ
    exact ⟨hack, hto, hdata⟩
  · cases hτ

theorem ackOf_isAck (s : TimedDatagram) (f : Frame) : (s.ackOf f).frame.IsAck := by
  have hself : (s.txHeaderFlags ||| flagsAck) &&& flagsAck = flagsAck := by
    refine UInt8.toBitVec_inj.mp ?_
    ext i
    simp +contextual
  show (s.txHeaderFlags ||| flagsAck) &&& flagsAck ≠ 0
  rw [hself]
  decide

theorem Acknowledges.round {a : Attempt} {fs : List Frame}
    (hfs : fs = (s.heardBy address seq a).filter s.Repeated)
    (h : Acknowledges fs (s.tried seq buf address retries a) t) :
    Round address seq retries buf a s t where
  alike :=
    { thisAddress := h.alike.thisAddress
      timeout := h.alike.timeout
      retries := h.alike.retries
      seenIds := h.alike.seenIds }
  retransmissions := h.retransmissions
  waits := h.waits
  messages := h.messages.trans (tried_messages _ _ _ _ s a)
  acknowledged := by rw [h.acknowledged, tried_acknowledged, hfs]
  sent := by
    have htried : Grows (Sends buf address) s (s.tried seq buf address retries a) :=
      transmission_grows s
    refine htried.trans ⟨_, h.sent, ?_⟩
    intro τ hτ
    obtain ⟨g, -, rfl⟩ := List.mem_map.mp hτ
    exact ackOf_isAck _ g

/-- **What one transmission does**, and the wait after it. -/
theorem attempts_cons (seq : UInt8) (buf : List UInt8) (hretries : retries ≤ s.retries)
    (haddr : address ≠ broadcastAddress) (a : Attempt) :
    ∃ t, Round address seq retries buf a s t ∧ ∀ as,
      attempts address seq buf (a :: as) retries s =
        if s.Answered address seq a then (some true, t)
        else if s.Expires a then attempts address seq buf as (retries + 1) t else (none, t) := by
  obtain ⟨t, ht, hwait⟩ := waitAck_eq address seq
    (s.tried seq buf address retries a) a
  refine ⟨t, ht.round rfl, ?_⟩
  intro as
  rw [attempts, if_pos hretries]
  dsimp only
  rw [if_neg haddr, countRetry_noteWait, hwait]
  -- the wait has the members of `s`
  show (match (if s.Answered address seq a then some true
    else if s.Expires a then some false else none, t) with
    | (some false, s) => attempts address seq buf as (retries + 1) s
    | r => r) = _
  split_ifs <;> rfl

/-- When the retries are exhausted. -/
theorem attempts_exhausted (hretries : ¬ retries ≤ s.retries) (as : List Attempt) :
    attempts address seq buf as retries s = (some false, s) := by
  cases as with
  | nil => rw [attempts, if_neg hretries]
  | cons a as => rw [attempts, if_neg hretries]

/-- A broadcast is not waited for. -/
theorem attempts_broadcast (hretries : retries ≤ s.retries) (a : Attempt) (as : List Attempt) :
    attempts broadcastAddress seq buf (a :: as) retries s =
      (some true, s.transmission seq buf broadcastAddress) := by
  rw [attempts, if_pos hretries]
  exact if_pos rfl

/-- A call of `sendtoWait` sends its message, and acknowledgements. -/
theorem attempts_grows (address seq : UInt8) (buf : List UInt8) (as : List Attempt) :
    ∀ (retries : UInt8) (s : TimedDatagram),
      Grows (Sends buf address) s (attempts address seq buf as retries s).2 := by
  induction as with
  | nil => exact fun _ => .refl
  | cons a as ih =>
    intro retries s
    by_cases hretries : retries ≤ s.retries
    · by_cases haddr : address = broadcastAddress
      · subst haddr
        rw [attempts_broadcast hretries]
        exact transmission_grows s
      · obtain ⟨t, hround, hnext⟩ := attempts_cons seq buf hretries haddr a
        rw [hnext]
        split_ifs
        · exact hround.sent
        · exact Grows.trans hround.sent (ih _ t)
        · exact hround.sent
    · rw [attempts_exhausted hretries]
      exact .refl s

theorem sendtoWait_grows (s : TimedDatagram) (buf : List UInt8) (address : UInt8)
    (as : List Attempt) : Grows (Sends buf address) s (s.sendtoWait buf address as).2 :=
  attempts_grows address (s.lastSequenceNumber + 1) buf as 0
    { s with lastSequenceNumber := s.lastSequenceNumber + 1 }

end Attempts

end TimedDatagram
