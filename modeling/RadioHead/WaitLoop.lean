/-
The wait loop of `sendtoWait`.

The router leaves the loop of `RHReliableDatagram::sendtoWait` to its link,
which answers for it.  Here is the loop: the message is transmitted from the
caller's buffer, which for a router is the static `_tmpMessage`, and while the
acknowledgement is not among the messages received until the timeout, it is
transmitted again from there.  What is received meanwhile is not copied
anywhere, so `_tmpMessage` stays as it is, and every transmission carries the
same octets.

* `hear`, `waitAck`, `attempts`, `loopSendtoWait` — the loop, with the messages
  received after each transmission;
* `Waits` — what the loop leaves alone, and what it puts on the air;
* `attempts_acked` — it returns true if the acknowledgement is received;
* `loopSendtoWait_answer` — the loop is `linkSendtoWait` with a suitable
  answer, so whatever holds of a router with any link holds with the loop.
-/
import RadioHead.Router

namespace RHRouter

variable {β : Type}

/-- A message received in the wait loop, `recvfrom(0, 0, …)`: true if it is the
acknowledgement that is waited for. -/
def hear (address thisSequenceNumber : UInt8) (s : RHRouter β) (f : Frame) :
    Bool × RHRouter β :=
  let s := { s with rxHeaderFrom := f.headerFrom }
  if s.isAckFor f address thisSequenceNumber then (true, s)
  else if ¬ f.IsAck ∧ ¬ s.isNew f then
    -- a request that has been received already is acknowledged again
    let r := s.acknowledge f.headerId f.headerFrom
    (false, { s with toRHReliableDatagram := r.2, sent := s.sent ++ r.1.toList })
  else (false, s)

/-- The messages received until the timeout; those after the acknowledgement
are not looked at. -/
def waitAck (address thisSequenceNumber : UInt8) : RHRouter β → List Frame → Bool × RHRouter β
  | s, [] => (false, s)
  | s, f :: fs =>
    if (s.hear address thisSequenceNumber f).1 then s.hear address thisSequenceNumber f
    else waitAck address thisSequenceNumber (s.hear address thisSequenceNumber f).2 fs

/-- A transmission from `_tmpMessage`. -/
def transmission (address thisSequenceNumber n : UInt8) (s : RHRouter β) : RHRouter β :=
  let r := s.attempt thisSequenceNumber (s.tmpMessage.load 0 n.toNat) address
  { s with toRHReliableDatagram := r.2, sent := s.sent ++ r.1.toList }

/-- `if (retries > 1) _retransmissions++`. -/
def countRetry (retries : UInt8) (s : RHRouter β) : RHRouter β :=
  if 1 < retries then { s with retransmissions := s.retransmissions + 1 } else s

/-- `while (retries++ <= _retries)`, with the messages received after each
transmission that is made: one list for each of them. -/
def attempts (address thisSequenceNumber n : UInt8) :
    List (List Frame) → UInt8 → RHRouter β → Bool × RHRouter β
  | [], _, s => (false, s)
  | round :: rounds, retries, s =>
    if retries ≤ s.retries then
      let s := s.transmission address thisSequenceNumber n
      if address = broadcastAddress then (true, s)
      else
        let w := (s.countRetry (retries + 1)).waitAck address thisSequenceNumber round
        if w.1 then w else attempts address thisSequenceNumber n rounds (retries + 1) w.2
    else (false, s)

/-- `RHReliableDatagram::sendtoWait` of the first `n` octets of `_tmpMessage`. -/
def loopSendtoWait (rounds : List (List Frame)) (s : RHRouter β) (n address : UInt8) :
    Bool × RHRouter β :=
  attempts address (s.lastSequenceNumber + 1) n rounds 0
    { s with lastSequenceNumber := s.lastSequenceNumber + 1 }

/-- `RHRouter::route` with the loop. -/
def loopRoute (rounds : List (List Frame)) (s : RHRouter β) (messageLen : UInt8) :
    RouterError × RHRouter β :=
  match s.nextHop with
  | none => (.noRoute, s.note [.octet 0])
  | some hop =>
    let r := (s.note [.octet 0, .upTo messageLen.toNat]).loopSendtoWait rounds messageLen hop
    (if r.1 then .none else .unableToDeliver, r.2)

/-! ### What the loop does -/

/-- A frame that carries `data` from one node to the next. -/
structure Carries (source address seq : UInt8) (data : List UInt8) (f : Frame) : Prop where
  headerTo : f.headerTo = address
  headerFrom : f.headerFrom = source
  headerId : f.headerId = seq
  data : f.data = data
  notAck : ¬ f.IsAck

/-- From `s` to `t` nothing has changed but the headers, the number of
retransmissions, and what is on the air: there are frames with the property `P`
more. -/
structure Waits (P : Frame → Prop) (s t : RHRouter β) : Prop where
  members : t = { s with
    txHeaderTo := t.txHeaderTo
    txHeaderId := t.txHeaderId
    txHeaderFlags := t.txHeaderFlags
    retransmissions := t.retransmissions
    rxHeaderFrom := t.rxHeaderFrom
    sent := t.sent }
  sent : ∃ out, t.sent = s.sent ++ out ∧ ∀ f ∈ out, P f

section Waits

variable {P : Frame → Prop} {s t u : RHRouter β}

theorem Waits.refl (s : RHRouter β) : Waits P s s := ⟨rfl, [], by simp, by simp⟩

theorem Waits.trans (h : Waits P s t) (h' : Waits P t u) : Waits P s u where
  members := by
    refine h'.members.trans ?_
    rw [h.members]
  sent := by
    obtain ⟨out, hs, hout⟩ := h.sent
    obtain ⟨out', hs', hout'⟩ := h'.sent
    refine ⟨out ++ out', by rw [hs', hs, List.append_assoc], ?_⟩
    intro f hf
    rcases List.mem_append.mp hf with hf | hf
    · exact hout f hf
    · exact hout' f hf

theorem Waits.mono {Q : Frame → Prop} (h : Waits P s t) (hPQ : ∀ f, P f → Q f) : Waits Q s t where
  members := h.members
  sent := by
    obtain ⟨out, hs, hout⟩ := h.sent
    exact ⟨out, hs, fun f hf => hPQ f (hout f hf)⟩

theorem Waits.tmpMessage (h : Waits P s t) : t.tmpMessage = s.tmpMessage := by rw [h.members]

theorem Waits.thisAddress (h : Waits P s t) : t.thisAddress = s.thisAddress := by rw [h.members]

theorem Waits.txHeaderFrom (h : Waits P s t) : t.txHeaderFrom = s.txHeaderFrom := by
  rw [h.members]

theorem Waits.retries (h : Waits P s t) : t.retries = s.retries := by rw [h.members]

variable {address seq n retries : UInt8}

/-- A message received: at most an acknowledgement goes out. -/
theorem hear_waits (hack : ∀ f : Frame, f.IsAck → P f) (s : RHRouter β) (f : Frame) :
    Waits P s (s.hear address seq f).2 := by
  rw [hear]
  dsimp only
  split_ifs
  · exact ⟨rfl, [], by simp, by simp⟩
  · refine ⟨rfl, _, rfl, ?_⟩
    intro g hg
    exact hack g (RHReliableDatagram.acknowledge_frame (Option.mem_toList.mp hg)).2.2.2
  · exact ⟨rfl, [], by simp, by simp⟩

theorem waitAck_waits (hack : ∀ f : Frame, f.IsAck → P f) {round : List Frame} :
    ∀ s : RHRouter β, Waits P s (s.waitAck address seq round).2 := by
  induction round with
  | nil => exact Waits.refl
  | cons f fs ih =>
    intro s
    rw [waitAck]
    split_ifs
    · exact hear_waits hack s f
    · exact (hear_waits hack s f).trans (ih _)

/-- The acknowledgement is noticed. -/
theorem waitAck_acked {ack : Frame} {round : List Frame} (hmem : ack ∈ round) :
    ∀ s : RHRouter β, s.isAckFor ack address seq → (s.waitAck address seq round).1 = true := by
  induction round with
  | nil => cases hmem
  | cons f fs ih =>
    intro s hack
    rw [waitAck]
    split_ifs with hf
    · exact hf
    · rcases List.mem_cons.mp hmem with rfl | hmem
      · refine absurd ?_ hf
        have hack' : RHReliableDatagram.isAckFor
            ({ s with rxHeaderFrom := ack.headerFrom } : RHRouter β).toRHReliableDatagram ack
              address seq := hack
        rw [hear, if_pos hack']
      · refine ih hmem _ ?_
        have hkeep : Waits Frame.IsAck s (s.hear address seq f).2 := hear_waits (fun _ h => h) s f
        obtain ⟨hfrom, hto, hrest⟩ := hack
        exact ⟨hfrom, hto.trans hkeep.thisAddress.symm, hrest⟩

/-- What a node puts on the air in the loop: acknowledgements, and the message
it sends. -/
def OnAir (s : RHRouter β) (address seq n : UInt8) (f : Frame) : Prop :=
  f.IsAck ∨ Carries s.txHeaderFrom address seq (s.tmpMessage.load 0 n.toNat) f

/-- It is the same all the time. -/
theorem Waits.onAir (h : Waits P s t) (address seq n : UInt8) :
    t.OnAir address seq n = s.OnAir address seq n := by
  funext f
  rw [OnAir, OnAir, h.tmpMessage, h.txHeaderFrom]

theorem transmission_waits (s : RHRouter β) (address seq n : UInt8) :
    Waits (s.OnAir address seq n) s (s.transmission address seq n) := by
  refine ⟨rfl, _, rfl, ?_⟩
  intro f hf
  obtain ⟨hfrom, hto, hid, hdata, hack⟩ :=
    RHReliableDatagram.attempt_frame (Option.mem_toList.mp hf)
  exact .inr ⟨hto, hfrom, hid, hdata, hack⟩

theorem countRetry_waits (s : RHRouter β) (retries : UInt8) : Waits P s (s.countRetry retries) := by
  rw [countRetry]
  split_ifs
  · exact ⟨rfl, [], by simp, by simp⟩
  · exact .refl s

/-- One round: a transmission, and the messages received after it. -/
theorem round_waits (s : RHRouter β) (address seq n retries : UInt8) (round : List Frame) :
    Waits (s.OnAir address seq n) s
      (((s.transmission address seq n).countRetry retries).waitAck address seq round).2 :=
  ((transmission_waits s address seq n).trans (countRetry_waits _ retries)).trans
    (waitAck_waits (fun _ hack => .inl hack) _)

theorem attempts_waits (address seq n : UInt8) (rounds : List (List Frame)) :
    ∀ (retries : UInt8) (s : RHRouter β),
      Waits (s.OnAir address seq n) s (s.attempts address seq n rounds retries).2 := by
  induction rounds with
  | nil => exact fun _ s => .refl s
  | cons round rounds ih =>
    intro retries s
    rw [attempts]
    dsimp only
    split_ifs
    · exact transmission_waits s address seq n
    · exact round_waits s address seq n (retries + 1) round
    · -- the next round is about the same message
      have hround := round_waits s address seq n (retries + 1) round
      refine hround.trans ?_
      have hrest := ih (retries + 1)
        (((s.transmission address seq n).countRetry (retries + 1)).waitAck address seq round).2
      rw [hround.onAir] at hrest
      exact hrest
    · exact .refl s

/-- The acknowledgement is received after one of the transmissions. -/
theorem attempts_acked {ack : Frame} {round : List Frame} (hmem : ack ∈ round)
    (haddr : address ≠ broadcastAddress) {rounds : List (List Frame)} :
    ∀ {j : ℕ} {retries : UInt8} {s : RHRouter β}, rounds[j]? = some round →
      retries.toNat + j ≤ s.retries.toNat → s.isAckFor ack address seq →
      (s.attempts address seq n rounds retries).1 = true := by
  induction rounds with
  | nil =>
    intro j retries s hj _ _
    cases hj
  | cons first rounds ih =>
    intro j retries s hj hretries hack
    have hle : retries ≤ s.retries := UInt8.le_iff_toNat_le.mpr (by omega)
    have hkeep := round_waits s address seq n (retries + 1) first
    have hkeep₀ := (transmission_waits s address seq n).trans
      (countRetry_waits _ (retries + 1))
    rw [attempts, if_pos hle]
    dsimp only
    rw [if_neg haddr]
    split_ifs with hfirst
    · exact hfirst
    · cases j with
      | zero =>
        obtain rfl : first = round := Option.some.inj hj
        refine absurd (waitAck_acked hmem _ ?_) hfirst
        exact ⟨hack.1, hack.2.1.trans hkeep₀.thisAddress.symm, hack.2.2⟩
      | succ j =>
        have hlt : retries < s.retries := UInt8.lt_iff_toNat_lt.mpr (by omega)
        refine ih hj ?_ ⟨hack.1, hack.2.1.trans hkeep.thisAddress.symm, hack.2.2⟩
        rw [hkeep.retries, toNat_succ_of_lt hlt]
        omega

/-- The first transmission is made at once. -/
theorem attempts_first (s : RHRouter β) (address seq : UInt8) (hn : n.toNat ≤ maxMessageLen)
    {rounds : List (List Frame)} (hrounds : rounds ≠ []) :
    ∃ f out, (s.attempts address seq n rounds 0).2.sent = s.sent ++ f :: out ∧
      Carries s.txHeaderFrom address seq (s.tmpMessage.load 0 n.toNat) f := by
  obtain ⟨round, rounds, rfl⟩ := List.exists_cons_of_ne_nil hrounds
  set u := s.transmission address seq n with hu
  obtain ⟨f, hf, hcarries⟩ : ∃ f, u.sent = s.sent ++ [f] ∧
      Carries s.txHeaderFrom address seq (s.tmpMessage.load 0 n.toNat) f := by
    have hattempt : (s.attempt seq (s.tmpMessage.load 0 n.toNat) address).1 = some _ :=
      if_pos (by rwa [Mem.length_load])
    obtain ⟨hfrom, hto, hid, hdata, hack⟩ := RHReliableDatagram.attempt_frame hattempt
    refine ⟨_, ?_, ⟨hto, hfrom, hid, hdata, hack⟩⟩
    show s.sent ++ (s.attempt seq (s.tmpMessage.load 0 n.toNat) address).1.toList = _
    rw [hattempt]
    rfl
  have hrest : Waits (fun _ => True) u (s.attempts address seq n (round :: rounds) 0).2 := by
    have hround : Waits (fun _ => True) u
        ((u.countRetry (0 + 1)).waitAck address seq round).2 :=
      (countRetry_waits u _).trans (waitAck_waits (fun _ _ => trivial) _)
    rw [attempts, if_pos UInt8.zero_le]
    dsimp only
    split_ifs
    · exact .refl u
    · exact hround
    · refine hround.trans ?_
      have hmore := attempts_waits address seq n rounds (0 + 1)
        ((u.countRetry (0 + 1)).waitAck address seq round).2
      exact hmore.mono fun _ _ => trivial
  obtain ⟨out, hout, -⟩ := hrest.sent
  refine ⟨f, out, ?_, hcarries⟩
  rw [hout, hf, List.append_assoc, List.singleton_append]

end Waits

/-! ### The loop as an answer of the link -/

/-- **The loop is `linkSendtoWait` with a suitable answer of the link**, but for
the retransmissions and acknowledgements on the air. -/
theorem loopSendtoWait_answer {rounds : List (List Frame)} (hrounds : rounds ≠ [])
    (s : RHRouter β) (n address : UInt8) :
    ∃ a : LinkAnswer,
      let r := s.linkSendtoWait (fun _ => a) (s.tmpMessage.load 0 n.toNat) address
      s.loopSendtoWait rounds n address =
        (r.1, { r.2 with sent := (s.loopSendtoWait rounds n address).2.sent }) := by
  obtain ⟨round, rounds, rfl⟩ := List.exists_cons_of_ne_nil hrounds
  by_cases haddr : address = broadcastAddress
  · refine ⟨⟨true, 0, 0, 0, 0, 0⟩, ?_⟩
    rw [loopSendtoWait, linkSendtoWait, attempts, if_pos UInt8.zero_le]
    dsimp only
    rw [if_pos haddr, if_pos haddr]
    rfl
  · have hwaits := attempts_waits address (s.lastSequenceNumber + 1) n (round :: rounds) 0
      { s with lastSequenceNumber := s.lastSequenceNumber + 1 }
    set t := s.loopSendtoWait (round :: rounds) n address with ht
    have hmembers : t.2 = { s with
        lastSequenceNumber := s.lastSequenceNumber + 1
        txHeaderTo := t.2.txHeaderTo
        txHeaderId := t.2.txHeaderId
        txHeaderFlags := t.2.txHeaderFlags
        retransmissions := t.2.retransmissions
        rxHeaderFrom := t.2.rxHeaderFrom
        sent := t.2.sent } := hwaits.members
    obtain ⟨k, hk⟩ : ∃ k, t.2.retransmissions = s.retransmissions + k :=
      ⟨_, (add_sub_cancel s.retransmissions _).symm⟩
    rw [hk] at hmembers
    refine ⟨⟨t.1, t.2.rxHeaderFrom, t.2.txHeaderTo, t.2.txHeaderId, t.2.txHeaderFlags, k⟩, ?_⟩
    dsimp only
    rw [linkSendtoWait]
    dsimp only
    rw [if_neg haddr]
    exact Prod.ext rfl hmembers

theorem loopRoute_hop {rounds : List (List Frame)} {s : RHRouter β} {hop : UInt8}
    (h : s.nextHop = some hop) (n : UInt8) :
    s.loopRoute rounds n =
      (let r := (s.note [.octet 0, .upTo n.toNat]).loopSendtoWait rounds n hop
      (if r.1 then .none else .unableToDeliver, r.2)) := by
  rw [loopRoute, h]

/-- And so `route` with the loop is `route` with a link. -/
theorem loopRoute_answer {rounds : List (List Frame)} (hrounds : rounds ≠ []) (s : RHRouter β)
    (n : UInt8) :
    ∃ a : LinkAnswer,
      s.loopRoute rounds n = ((s.route (fun _ => a) n).1,
        { (s.route (fun _ => a) n).2 with sent := (s.loopRoute rounds n).2.sent }) := by
  rcases hnext : s.nextHop with _ | hop
  · refine ⟨⟨false, 0, 0, 0, 0, 0⟩, ?_⟩
    rw [route_noRoute hnext, loopRoute, hnext]
  · obtain ⟨a, ha⟩ := loopSendtoWait_answer hrounds (s.note [.octet 0, .upTo n.toNat]) n hop
    refine ⟨a, ?_⟩
    rw [route_hop hnext, loopRoute_hop hnext]
    dsimp only
    rw [ha]
    rfl

end RHRouter
