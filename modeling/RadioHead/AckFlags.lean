/-
Which frames look like acknowledgements, and which are acknowledged.

A node between any calls: it sends with and without waiting, and receives.  The
transmit headers stay in the driver from one frame to the next.  `acknowledge`
sets the flag RH_FLAGS_ACK there; `sendtoWait` clears it, the `sendto` inherited
from `RHDatagram` does not.  Whether a message received is acknowledged is
decided in two places: `recvfromAck` looks if it is a broadcast, the wait loop of
`sendtoWait` if it has been received before.

* `Operation`, `step` — the calls of a node, one after another;
* `heardDuring`, `attempts_acknowledged` — what `sendtoWait` hears, and what of it
  is acknowledged;
* `flagged_iff` — acknowledgements alone carry the flag as long as no message is
  sent by `sendto` while it is set;
* `unicast_iff` — no broadcast is acknowledged as long as none is heard in a wait
  loop with the number last seen from its sender.
-/
import RadioHead.Lib.Run
import RadioHead.TimedDatagram

open Polling Run

namespace TimedDatagram

/-! ### What is acknowledged while waiting -/

/-- The messages that a call of `sendtoWait` hears: after each transmission, up
to the acknowledgement. -/
def heardDuring (s : TimedDatagram) (address thisSequenceNumber : UInt8) :
    List Attempt → UInt8 → List Frame
  | [], _ => []
  | a :: as, retries =>
    if retries ≤ s.retries ∧ address ≠ broadcastAddress then
      s.heardBy address thisSequenceNumber a ++
        if s.Unanswered address thisSequenceNumber a then
          heardDuring s address thisSequenceNumber as (retries + 1)
        else []
    else []

section Wait

variable {address seq : UInt8} {buf : List UInt8} {s t : TimedDatagram}

theorem Alike.heardDuring (h : Alike s t) (as : List Attempt) :
    ∀ retries : UInt8,
      t.heardDuring address seq as retries = s.heardDuring address seq as retries := by
  induction as with
  | nil => exact fun _ => rfl
  | cons a as ih =>
    intro retries
    rw [TimedDatagram.heardDuring, TimedDatagram.heardDuring, h.heardBy, h.retries, ih]
    simp only [h.unanswered]

theorem transmission_acknowledged (s : TimedDatagram) :
    (s.transmission seq buf address).acknowledged = s.acknowledged :=
  tried_acknowledged 0 s ⟨0, 0, 0, []⟩

/-- **What `sendtoWait` acknowledges**: of what it hears, what has been received
before. -/
theorem attempts_acknowledged (address seq : UInt8) (buf : List UInt8) (as : List Attempt) :
    ∀ (retries : UInt8) (s : TimedDatagram),
      (attempts address seq buf as retries s).2.acknowledged =
        s.acknowledged ++ (s.heardDuring address seq as retries).filter s.Repeated := by
  induction as with
  | nil => exact fun _ s => (List.append_nil _).symm
  | cons a as ih =>
    intro retries s
    rw [TimedDatagram.heardDuring]
    by_cases hretries : retries ≤ s.retries
    · by_cases haddr : address = broadcastAddress
      · subst haddr
        rw [attempts_broadcast hretries, if_neg (fun h => h.2 rfl), transmission_acknowledged]
        exact (List.append_nil _).symm
      · obtain ⟨t, hround, hnext⟩ := attempts_cons seq buf hretries haddr a
        have hmade : retries ≤ s.retries ∧ address ≠ broadcastAddress := ⟨hretries, haddr⟩
        rw [hnext, if_pos hmade, List.filter_append, ← List.append_assoc, ← hround.acknowledged]
        by_cases hanswered : s.Answered address seq a
        · -- the acknowledgement ends the call
          rw [if_pos hanswered, if_neg (fun h => h.1 hanswered)]
          exact (List.append_nil _).symm
        · rw [if_neg hanswered]
          by_cases hexpires : s.Expires a
          · -- the message is transmitted again, with the same numbers seen
            rw [if_pos hexpires, if_pos ⟨hanswered, hexpires⟩, ih, hround.alike.heardDuring,
              hround.alike.filter_repeated]
          · -- the call has not returned
            rw [if_neg hexpires, if_neg (fun h => hexpires h.2)]
            exact (List.append_nil _).symm
    · rw [attempts_exhausted hretries, if_neg (fun h => hretries h.1)]
      exact (List.append_nil _).symm

end Wait

/-! ### The calls of a node -/

/-- A call, with what it meets with. -/
inductive Operation where
  | setHeaderFlags (set clear : UInt8)
  | sendto (buf : List UInt8) (address : UInt8)
  | sendtoWait (buf : List UInt8) (address : UInt8) (as : List Attempt)
  | recvfromAck (p : Pointees) (heard : Option Frame)
  | recvfromAckTimeout (p : Pointees) (timeout : UInt16) (start : ℕ) (polls : List Poll)

/-- A node, and if its last call has returned. -/
structure Caller where
  node : TimedDatagram
  returned : Bool

/-- The call: if it returns, and the members. -/
def perform (s : TimedDatagram) : Operation → Bool × TimedDatagram
  | .setHeaderFlags set clear =>
    (true, { s with toRHReliableDatagram := s.toRHReliableDatagram.setHeaderFlags set clear })
  | .sendto buf address => (true, (s.sendto buf address).2)
  | .sendtoWait buf address as =>
    let r := s.sendtoWait buf address as
    (r.1.isSome, r.2)
  | .recvfromAck p heard => (true, (s.recvfromAck p heard).2.2)
  | .recvfromAckTimeout p timeout start polls =>
    let r := s.recvfromAckTimeout p timeout start polls
    (r.1.isSome, r.2.2)

/-- The application does not set RH_FLAGS_ACK. -/
def Operation.KeepsOff : Operation → Prop
  | .setHeaderFlags set _ => set &&& flagsAck = 0
  | _ => True

instance (op : Operation) : Decidable op.KeepsOff := by
  cases op <;> unfold Operation.KeepsOff <;> infer_instance

/-- The call can be made: the last one has returned.  What is received meanwhile
may be for any node, as in promiscuous mode. -/
def Caller.Makes (c : Caller) (op : Operation) : Prop := c.returned = true ∧ op.KeepsOff

instance (c : Caller) (op : Operation) : Decidable (c.Makes op) :=
  inferInstanceAs (Decidable (_ ∧ _))

def Caller.step (c : Caller) (op : Operation) : Option Caller :=
  if c.Makes op then some ⟨(c.node.perform op).2, (c.node.perform op).1⟩ else none

/-- A node before its first call. -/
def Caller.start (thisAddress : UInt8) : Caller := ⟨constructed thisAddress, true⟩

/-- The frame is flagged as an acknowledgement exactly if it is sent by
`acknowledge`. -/
def Plain (τ : Transmission) : Prop := τ.frame.IsAck ↔ τ.cause ≠ .message

instance (τ : Transmission) : Decidable (Plain τ) := inferInstanceAs (Decidable (_ ↔ _))

/-- What `recvfromAck` puts on the air: an acknowledgement, of a message that is
no broadcast. -/
def Answer (τ : Transmission) : Prop :=
  τ.frame.IsAck ∧ ∃ f : Frame, τ.cause = .acknowledgement f ∧ f.headerTo ≠ broadcastAddress

section Calls

variable {buf : List UInt8} {address : UInt8} {s t : TimedDatagram}

theorem Sends.plain {τ : Transmission} (h : Sends buf address τ) : Plain τ := by
  rw [Sends] at h
  rw [Plain]
  rcases hc : τ.cause with _ | f
  · rw [hc] at h
    exact iff_of_false h.1 (not_not.mpr rfl)
  · rw [hc] at h
    exact iff_of_true h (by simp)

theorem Answer.plain {τ : Transmission} (h : Answer τ) : Plain τ := by
  obtain ⟨hack, f, hcause, -⟩ := h
  exact iff_of_true hack (by rw [hcause]; simp)

/-- The acknowledgement of a message that is no broadcast. -/
theorem acknowledge_grows {f : Frame} (hto : f.headerTo ≠ broadcastAddress) :
    Grows Answer s (s.acknowledge f) := by
  refine ⟨[s.ackOf f], (acknowledge_acknowledges s f).sent, ?_⟩
  intro τ hτ
  obtain rfl := List.mem_singleton.mp hτ
  exact ⟨ackOf_isAck s f, f, rfl, hto⟩

theorem recvfromAck_grows (s : TimedDatagram) (p : Pointees) (heard : Option Frame) :
    Grows Answer s (s.recvfromAck p heard).2.2 := by
  cases heard with
  | none => exact .refl s
  | some f =>
    rw [recvfromAck]
    dsimp only
    have hacked : Grows Answer s
        (if f.headerTo ≠ broadcastAddress then s.acknowledge f else s) := by
      split_ifs with hto
      · exact acknowledge_grows hto
      · exact .refl s
    by_cases hack : f.IsAck
    · rw [if_pos hack]
      exact .refl s
    · rw [if_neg hack]
      generalize (if f.headerTo ≠ broadcastAddress then s.acknowledge f else s) = s' at hacked ⊢
      split_ifs
      · exact hacked
      · exact hacked

theorem recvfromAckTimeout_grows (s : TimedDatagram) (p : Pointees) (timeout : UInt16) (start : ℕ)
    (polls : List Poll) :
    Grows Answer s (s.recvfromAckTimeout p timeout start polls).2.2 := by
  exact loop_rel (R := fun r r' : Pointees × TimedDatagram => Grows Answer r.2 r'.2)
    (fun r => .refl r.2) (fun h h' => h.trans h') (fun r q => recvfromAck_grows r.2 r.1 q.heard)
    polls (p, s)

theorem Grows.forall_mem {P Q : Transmission → Prop} (h : Grows P s t) (hPQ : ∀ τ, P τ → Q τ)
    (hs : ∀ τ ∈ s.sent, Q τ) : ∀ τ ∈ t.sent, Q τ := by
  obtain ⟨out, hsent, hout⟩ := h
  intro τ hτ
  rcases List.mem_append.mp (hsent ▸ hτ) with hτ | hτ
  · exact hs τ hτ
  · exact hPQ τ (hout τ hτ)

theorem Caller.step_eq_some {c c' : Caller} {op : Operation} (h : c.step op = some c') :
    c.Makes op ∧ c'.node = (c.node.perform op).2 := by
  rw [Caller.step, Option.ite_none_right_eq_some, Option.some_inj] at h
  obtain ⟨hmakes, rfl⟩ := h
  exact ⟨hmakes, rfl⟩

theorem Caller.not_makes {c : Caller} {op : Operation} (h : c.step op = none) : ¬ c.Makes op := by
  intro hmakes
  rw [Caller.step, if_pos hmakes] at h
  exact Option.some_ne_none _ h

/-- A property of the node that each call keeps exactly on a condition holds
throughout exactly if every call that is made meets the condition. -/
theorem Caller.allSteps_iff {P : TimedDatagram → Prop} {ok : TimedDatagram → Operation → Prop}
    {thisAddress : UInt8} (hstart : P (constructed thisAddress))
    (hperform : ∀ s op, P s → (ok s op ↔ P (s.perform op).2)) (ops : List Operation) :
    AllSteps Caller.step (fun c op => c.Makes op → ok c.node op) (.start thisAddress) ops ↔
      ∀ fs c, fs <+: ops → run Caller.step (.start thisAddress) fs = some c → P c.node := by
  refine allSteps_iff_kept (P := fun c : Caller => P c.node) ?_ ?_ hstart
  · exact fun c op hnone hmakes => absurd hmakes (Caller.not_makes hnone)
  · intro c op c' hc hstep
    obtain ⟨hmakes, hnode⟩ := Caller.step_eq_some hstep
    rw [forall_prop_of_true hmakes, hnode]
    exact hperform c.node op hc

/-! ### What looks like an acknowledgement -/

/-- Acknowledgements are flagged as such, and no other frames. -/
def Flagged (s : TimedDatagram) : Prop := ∀ τ ∈ s.sent, Plain τ

/-- No message is put on the air by `sendto` while the flag is set. -/
def SendsUnflagged (s : TimedDatagram) : Operation → Prop
  | .sendto buf _ => buf.length ≤ maxMessageLen → s.txHeaderFlags &&& flagsAck = 0
  | _ => True

theorem sendto_sent (s : TimedDatagram) (buf : List UInt8) (address : UInt8) :
    (s.sendto buf address).2.sent = s.sent ++ if buf.length ≤ maxMessageLen then
      [⟨⟨address, s.txHeaderFrom, s.txHeaderId, s.txHeaderFlags, buf⟩, .message⟩] else [] := by
  show s.sent ++ ((if buf.length ≤ maxMessageLen then some _ else none).toList.map _) = _
  split_ifs <;> rfl

theorem sendto_flagged_iff (h : s.Flagged) :
    (s.sendto buf address).2.Flagged ↔
      (buf.length ≤ maxMessageLen → s.txHeaderFlags &&& flagsAck = 0) := by
  rw [Flagged, sendto_sent]
  by_cases hlen : buf.length ≤ maxMessageLen
  · rw [if_pos hlen, List.forall_mem_append, List.forall_mem_singleton, forall_prop_of_true hlen]
    refine (and_iff_right h).trans ?_
    simp [Plain, Frame.IsAck]
  · rw [if_neg hlen, List.append_nil]
    exact iff_of_true h fun h' => absurd h' hlen

/-- **Acknowledgements alone look like acknowledgements** exactly as long as no
message is sent by `sendto` while the flag is set. -/
theorem flagged_iff (thisAddress : UInt8) (ops : List Operation) :
    AllSteps Caller.step (fun c op => c.Makes op → c.node.SendsUnflagged op)
        (.start thisAddress) ops ↔
      ∀ fs c, fs <+: ops → run Caller.step (.start thisAddress) fs = some c → c.node.Flagged := by
  have hnone : Flagged (constructed thisAddress) := fun τ hτ => by cases hτ
  refine Caller.allSteps_iff hnone ?_ ops
  intro s op hs
  cases op with
  | setHeaderFlags set clear => exact iff_of_true trivial hs
  | sendto buf address => exact (sendto_flagged_iff hs).symm
  | sendtoWait buf address as =>
    exact iff_of_true trivial
      ((sendtoWait_grows s buf address as).forall_mem (fun _ => Sends.plain) hs)
  | recvfromAck p heard =>
    exact iff_of_true trivial
      ((recvfromAck_grows s p heard).forall_mem (fun _ => Answer.plain) hs)
  | recvfromAckTimeout p timeout start polls =>
    exact iff_of_true trivial
      ((recvfromAckTimeout_grows s p timeout start polls).forall_mem (fun _ => Answer.plain) hs)

/-- Node 1 answers a message of node 2, and sends one of its own. -/
def answersAndSends : List Operation :=
  [.recvfromAck ⟨fun _ => 0, 20, 0, 0, 0, 0⟩ (some ⟨1, 2, 1, 0, [5]⟩), .sendto [6] 2]

theorem answersAndSends_flagged :
    ∃ c, run Caller.step (.start 1) answersAndSends = some c ∧ ¬ c.node.Flagged := by
  refine ⟨_, rfl, ?_⟩
  intro h
  exact absurd (h ⟨⟨2, 1, 1, flagsAck, [6]⟩, .message⟩ (by decide)) (by decide)

/-! ### What is acknowledged -/

/-- No broadcast has been acknowledged. -/
def Unicast (s : TimedDatagram) : Prop := ∀ f ∈ s.acknowledged, f.headerTo ≠ broadcastAddress

/-- No broadcast is heard in a wait loop that carries the number last seen from
its sender. -/
def HearsNoRepeat (s : TimedDatagram) : Operation → Prop
  | .sendtoWait _ address as =>
    ∀ f ∈ s.heardDuring address (s.lastSequenceNumber + 1) as 0,
      f.headerTo = broadcastAddress → ¬ s.Repeated f
  | _ => True

/-- `recvfromAck` acknowledges no broadcast. -/
theorem Grows.unicast (h : Grows Answer s t) (hs : s.Unicast) : t.Unicast := by
  obtain ⟨out, hsent, hout⟩ := h
  intro f hf
  rw [acknowledged, hsent, List.filterMap_append] at hf
  rcases List.mem_append.mp hf with hf | hf
  · exact hs f hf
  · obtain ⟨τ, hτ, hτf⟩ := List.mem_filterMap.mp hf
    obtain ⟨-, g, hg, hto⟩ := hout τ hτ
    rw [hg] at hτf
    exact Option.some.inj hτf ▸ hto

theorem sendtoWait_unicast_iff (hs : s.Unicast) (as : List Attempt) :
    (s.sendtoWait buf address as).2.Unicast ↔
      ∀ f ∈ s.heardDuring address (s.lastSequenceNumber + 1) as 0,
        f.headerTo = broadcastAddress → ¬ s.Repeated f := by
  -- the number of the call is not looked at in its loops
  have halike : Alike s { s with lastSequenceNumber := s.lastSequenceNumber + 1 } :=
    ⟨rfl, rfl, rfl, rfl⟩
  have hacks := attempts_acknowledged address (s.lastSequenceNumber + 1) buf as 0
    { s with lastSequenceNumber := s.lastSequenceNumber + 1 }
  rw [halike.heardDuring, halike.filter_repeated] at hacks
  rw [Unicast, sendtoWait, hacks, List.forall_mem_append]
  refine (and_iff_right hs).trans ?_
  simp only [List.mem_filter, decide_eq_true_eq, and_imp]
  exact forall_congr' fun f => forall_congr' fun _ =>
    ⟨fun h hto hrep => h hrep hto, fun h hrep hto => h hto hrep⟩

theorem sendto_unicast (hs : s.Unicast) : (s.sendto buf address).2.Unicast := by
  rw [Unicast, acknowledged, sendto_sent, List.filterMap_append, List.forall_mem_append]
  refine ⟨hs, ?_⟩
  split_ifs <;> simp [Cause.answers]

/-- **No broadcast is acknowledged** exactly as long as none is heard in a wait
loop that carries the number last seen from its sender. -/
theorem unicast_iff (thisAddress : UInt8) (ops : List Operation) :
    AllSteps Caller.step (fun c op => c.Makes op → c.node.HearsNoRepeat op)
        (.start thisAddress) ops ↔
      ∀ fs c, fs <+: ops → run Caller.step (.start thisAddress) fs = some c → c.node.Unicast := by
  have hnone : Unicast (constructed thisAddress) := fun f hf => by cases hf
  refine Caller.allSteps_iff hnone ?_ ops
  intro s op hs
  cases op with
  | setHeaderFlags set clear => exact iff_of_true trivial hs
  | sendto buf address => exact iff_of_true trivial (sendto_unicast hs)
  | sendtoWait buf address as => exact (sendtoWait_unicast_iff hs as).symm
  | recvfromAck p heard =>
    exact iff_of_true trivial ((recvfromAck_grows s p heard).unicast hs)
  | recvfromAckTimeout p timeout start polls =>
    exact iff_of_true trivial ((recvfromAckTimeout_grows s p timeout start polls).unicast hs)

/-- What a node sends as a broadcast before it has sent anything else. -/
def firstBroadcast (a : UInt8) : Frame := ⟨broadcastAddress, a, 0, 0, [7]⟩

/-- Node 1 sends a message to node 3, and hears a broadcast while it waits. -/
def waitsAndHears : List Operation :=
  [.sendtoWait [5] 3 [⟨0, 50, 0, [⟨60, some (firstBroadcast 2)⟩]⟩]]

theorem firstBroadcast_acknowledged :
    (∃ c, run Caller.step (.start 2) [.sendto [7] broadcastAddress] = some c ∧
      c.node.sent = [⟨firstBroadcast 2, .message⟩]) ∧
    ∃ c, run Caller.step (.start 1) waitsAndHears = some c ∧ ¬ c.node.Unicast := by
  refine ⟨⟨_, rfl, by decide⟩, _, rfl, ?_⟩
  intro h
  exact absurd (h (firstBroadcast 2) (by decide)) (by decide)

end Calls

end TimedDatagram
