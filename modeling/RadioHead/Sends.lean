/-
What a node sends, whatever its links answer.

Every message a router hands to its link leaves as frames of this node, and
besides the members that go with sending nothing changes on the way.  Which
messages these are is a predicate on their octets: it has to hold of the message
in `_tmpMessage` when `route` is called, and for a mesh node, whose `route`
reports failures, of these reports as well.

* `Sends`, `SendsOnly` — only messages with a property are sent;
* `route_sends`, `sendtoFromSourceWait_sends` — sending;
* `recvfromAck_sends` — `recvfromAck` sends the message it has got, with one
  more hop, or nothing.
-/
import RadioHead.Mesh

/-- The HOPS octet of a routed message. -/
def Frame.hops (f : Frame) : UInt8 := f.data.getD 2 0

/-- The octets of the message when it is forwarded. -/
def Frame.forwarded (f : Frame) : List UInt8 := f.data.set 2 (f.hops + 1)

namespace RHRouter

variable {β : Type} {link : List Frame → LinkAnswer} {s t u : RHRouter β} {f : Frame}
  {P Q : List UInt8 → Prop}

/-- From `s` to `t` the node has sent messages with the property `P` only. -/
structure Sends (P : List UInt8 → Prop) (s t : RHRouter β) : Prop where
  thisAddress : t.thisAddress = s.thisAddress
  txHeaderFrom : t.txHeaderFrom = s.txHeaderFrom
  maxHops : t.maxHops = s.maxHops
  sent : ∃ out, t.sent = s.sent ++ out ∧ ∀ g ∈ out, g.headerFrom = s.txHeaderFrom ∧
    g.data.length ≤ maxMessageLen ∧ P g.data

/-- It has not taken any from the link. -/
structure SendsOnly (P : List UInt8 → Prop) (s t : RHRouter β) : Prop extends Sends P s t where
  seenIds : t.seenIds = s.seenIds

theorem Sends.trans (h : Sends P s t) (h' : Sends P t u) : Sends P s u where
  thisAddress := h'.thisAddress.trans h.thisAddress
  txHeaderFrom := h'.txHeaderFrom.trans h.txHeaderFrom
  maxHops := h'.maxHops.trans h.maxHops
  sent := by
    obtain ⟨out, hs, hout⟩ := h.sent
    obtain ⟨out', hs', hout'⟩ := h'.sent
    refine ⟨out ++ out', by rw [hs', hs, List.append_assoc], ?_⟩
    intro g hg
    rcases List.mem_append.mp hg with hg | hg
    · exact hout g hg
    · rw [← h.txHeaderFrom]
      exact hout' g hg

theorem SendsOnly.trans (h : SendsOnly P s t) (h' : SendsOnly P t u) : SendsOnly P s u where
  toSends := h.toSends.trans h'.toSends
  seenIds := h'.seenIds.trans h.seenIds

theorem Sends.mono (hPQ : ∀ data, P data → Q data) (h : Sends P s t) : Sends Q s t where
  thisAddress := h.thisAddress
  txHeaderFrom := h.txHeaderFrom
  maxHops := h.maxHops
  sent := by
    obtain ⟨out, hs, hout⟩ := h.sent
    refine ⟨out, hs, ?_⟩
    intro g hg
    exact ⟨(hout g hg).1, (hout g hg).2.1, hPQ _ (hout g hg).2.2⟩

/-- With no property that could hold, none are sent. -/
theorem Sends.sent_eq (h : Sends (fun _ => False) s t) : t.sent = s.sent := by
  obtain ⟨out, hs, hout⟩ := h.sent
  rcases out with _ | ⟨g, out⟩
  · rw [hs, List.append_nil]
  · exact (hout g List.mem_cons_self).2.2.elim

/-- The frames sent on the way from `s` to `t`. -/
def sentSince (s t : RHRouter β) : List Frame := t.sent.drop s.sent.length

theorem Sends.sentSince (h : Sends P s t) {g : Frame} (hg : g ∈ s.sentSince t) :
    g.headerFrom = s.txHeaderFrom ∧ g.data.length ≤ maxMessageLen ∧ P g.data := by
  obtain ⟨out, hs, hout⟩ := h.sent
  rw [RHRouter.sentSince, hs, List.drop_left] at hg
  exact hout g hg

/-- Nothing is sent. -/
theorem SendsOnly.quiet (hd : t.toRHReliableDatagram = s.toRHReliableDatagram)
    (hm : t.maxHops = s.maxHops) (hs : t.sent = s.sent) : SendsOnly P s t where
  thisAddress := by rw [hd]
  txHeaderFrom := by rw [hd]
  maxHops := hm
  sent := ⟨[], by rw [hs, List.append_nil], by simp⟩
  seenIds := by rw [hd]

theorem Sends.quiet (hd : t.toRHReliableDatagram = s.toRHReliableDatagram)
    (hm : t.maxHops = s.maxHops) (hs : t.sent = s.sent) : Sends P s t :=
  (SendsOnly.quiet hd hm hs).toSends

theorem linkSendtoWait_sends (link : List Frame → LinkAnswer) (s : RHRouter β) {buf : List UInt8}
    (h : P buf) (address : UInt8) : SendsOnly P s (s.linkSendtoWait link buf address).2 := by
  have hsent : ∃ out, (s.linkSendtoWait link buf address).2.sent = s.sent ++ out ∧
      ∀ g ∈ out, g.headerFrom = s.txHeaderFrom ∧ g.data.length ≤ maxMessageLen ∧ P g.data := by
    refine ⟨_, linkSendtoWait_sent s buf address, ?_⟩
    intro g hg
    rw [Option.mem_toList, RHReliableDatagram.attempt, RHReliableDatagram.sendto] at hg
    obtain ⟨hlen, hg⟩ := Option.ite_none_right_eq_some.mp hg
    obtain rfl := Option.some_inj.mp hg
    exact ⟨rfl, hlen, h⟩
  rw [linkSendtoWait] at hsent ⊢
  split at hsent
  · rw [if_pos ‹_›]
    exact ⟨⟨rfl, rfl, rfl, hsent⟩, rfl⟩
  · rw [if_neg ‹_›]
    exact ⟨⟨rfl, rfl, rfl, hsent⟩, rfl⟩

/-- `RHRouter::route` sends the message, or nothing. -/
theorem route_sends (link : List Frame → LinkAnswer) (s : RHRouter β) {n : UInt8}
    (h : P (s.tmpMessage.load 0 n.toNat)) : SendsOnly P s (s.route link n).2 := by
  rcases hnext : s.nextHop with _ | hop
  · rw [route_noRoute hnext]
    exact .quiet rfl rfl rfl
  · rw [route_hop hnext]
    have hnote : SendsOnly P s (s.note [.octet 0, .upTo n.toNat]) := .quiet rfl rfl rfl
    exact hnote.trans (linkSendtoWait_sends link _ h hop)

/-- With the `route` of any object that sends the message, and other ones with
the property. -/
theorem sendtoFromSourceWait_sends {route : RHRouter β → UInt8 → RouterError × RHRouter β}
    (hroute : ∀ s n, P (s.tmpMessage.load 0 n.toNat) → SendsOnly P s (route s n).2)
    (s : RHRouter β) {buf : List UInt8} {dest source flags : UInt8}
    (h : P ([dest, source, 0, s.lastE2ESequenceNumber, flags] ++ buf)) :
    SendsOnly P s (s.sendtoFromSourceWait route buf dest source flags).2 := by
  by_cases hlen : buf.length + routedHeaderLen ≤ maxMessageLen
  · have hquiet : SendsOnly P s (s.composed buf dest source flags) := .quiet rfl rfl rfl
    rw [sendtoFromSourceWait_eq s dest source flags route hlen]
    refine hquiet.trans (hroute _ _ ?_)
    rw [composed_load s dest source flags hlen]
    exact h
  · rw [sendtoFromSourceWait, if_pos (not_le.mp hlen)]
    exact .quiet rfl rfl rfl

/-! ### `recvfromAck` -/

/-- Whatever the link returns, the message for another node is the frame's. -/
theorem getD_stored {i : ℕ} (hi : i < f.data.length) (hmax : f.data.length ≤ maxMessageLen)
    (m : Mem) : stored f m i = f.data.getD i 0 := by
  refine stored_get ?_ ?_ m
  · rw [List.getD_eq_getElem?_getD, List.getElem?_eq_getElem hi, Option.getD_some]
  · rw [routedMessageSize]
    rw [maxMessageLen] at hmax
    omega

/-- The message with one more hop, as it is sent on. -/
theorem load_hopped (hlen : routedHeaderLen ≤ f.data.length)
    (hmax : f.data.length ≤ maxMessageLen) (m : Mem) :
    ((stored f m).write 2 [stored f m 2 + 1]).load 0 f.storedLen.toNat = f.forwarded := by
  rw [routedHeaderLen] at hlen
  have htake : f.data.take routedMessageSize = f.data := by
    refine List.take_of_length_le ?_
    rw [routedMessageSize]
    rw [maxMessageLen] at hmax
    omega
  have hn : f.storedLen.toNat = f.forwarded.length := by
    rw [storedLen_toNat, Frame.forwarded, List.length_set, routedMessageSize]
    rw [maxMessageLen] at hmax
    omega
  have h2 : stored f m 2 = f.hops := getD_stored (by omega) hmax m
  have hwrite : (m.write 0 f.data).write 2 [f.hops + 1] = m.write 0 f.forwarded :=
    Mem.write_set (show 2 < f.data.length by omega) m 0 (f.hops + 1)
  rw [h2, hn, stored, htake, hwrite]
  exact Mem.load_write_self _ _ _

/-- `recvfromAck` of any object that only learns from a message when it peeks:
it passes the message on as it is, with one more hop. -/
theorem recvfromAck_sends {v : Virtuals β}
    (hpeek : ∀ s n, ∃ r a, v.peekAtMessage s n = { s with routes := r, accesses := a })
    (hroute : ∀ s n, P (s.tmpMessage.load 0 n.toNat) → SendsOnly P s (v.route s n).2)
    (htakes : s.Takes f) (hlen : routedHeaderLen ≤ f.data.length)
    (hmax : f.data.length ≤ maxMessageLen)
    (hfor : f.data.getD 0 0 ≠ s.thisAddress → f.data.getD 0 0 ≠ broadcastAddress →
      f.hops < s.maxHops → P f.forwarded) (len : UInt8) :
    SendsOnly P (s.taken f) (s.recvfromAck v f len).2 := by
  obtain ⟨r, a, hp⟩ := hpeek (s.taken f) f.storedLen
  rw [recvfromAck_of_takes htakes, dispatch, hp]
  set u : RHRouter β := ({ s.taken f with routes := r, accesses := a } : RHRouter β).note [.octet 0]
    with hu
  have hquiet : SendsOnly P (s.taken f) u := .quiet rfl rfl rfl
  have hmsg : u.tmpMessage = stored f s.tmpMessage := rfl
  rw [routedHeaderLen] at hlen
  have h0 : u.tmpMessage 0 = f.data.getD 0 0 := getD_stored (by omega) hmax _
  have h2 : u.tmpMessage 2 = f.hops := getD_stored (by omega) hmax _
  have hthis : u.thisAddress = s.thisAddress := taken_thisAddress s f
  split
  · exact hquiet.trans (.quiet rfl rfl rfl)
  · rename_i haway
    rw [Here, not_or, h0, hthis] at haway
    have hhopped : SendsOnly P u u.hopped := .quiet rfl rfl rfl
    rw [forward_eq, h2]
    split
    · rename_i hhops
      refine hquiet.trans (hhopped.trans (hroute _ _ ?_))
      show P ((u.tmpMessage.write 2 [u.tmpMessage 2 + 1]).load 0 f.storedLen.toNat)
      rw [hmsg, load_hopped hlen hmax]
      exact hfor haway.1 haway.2 hhops
    · exact hquiet.trans hhopped

/-- Taking the frame from the link sends nothing; neither does keeping it there. -/
theorem taken_sends (s : RHRouter β) (f : Frame) : Sends P s (s.taken f) where
  thisAddress := taken_thisAddress s f
  txHeaderFrom := taken_txHeaderFrom s f
  maxHops := rfl
  sent := ⟨[], (List.append_nil _).symm, by simp⟩

theorem skipped_sends (s : RHRouter β) (f : Frame) : Sends P s (s.skipped f) where
  thisAddress := skipped_thisAddress s f
  txHeaderFrom := skipped_txHeaderFrom s f
  maxHops := rfl
  sent := ⟨[], (List.append_nil _).symm, by simp⟩

end RHRouter

namespace RHMesh

open RHRouter

variable {P : List UInt8 → Prop}

/-- The mesh's `route` sends the message, or reports that it could not. -/
theorem routeFuel_sends (link : List Frame → LinkAnswer)
    (hfail : ∀ dest source id dead, P ([dest, source, 0, id, 0] ++ [typeFailure, dead]))
    (fuel : ℕ) (s : RHMesh) {n : UInt8} (h : P (s.tmpMessage.load 0 n.toNat)) :
    SendsOnly P s (routeFuel link fuel s n).2 := by
  induction fuel generalizing s n with
  | zero => exact RHRouter.route_sends link s h
  | succ fuel ih =>
    have hroute := RHRouter.route_sends link s h
    by_cases hfail' : Fails (RHRouter.route link s n).1
    · have hdropped : SendsOnly P s (dropped link s n) := hroute.trans (.quiet rfl rfl rfl)
      by_cases hown : s.tmpMessage 1 = s.thisAddress
      · rw [routeFuel_dropped link fuel hfail' hown]
        exact hdropped
      · -- the originator of the message is told
        have hreporting : SendsOnly P (dropped link s n) (reporting link s n) := .quiet rfl rfl rfl
        rw [routeFuel_reported link fuel hfail' hown]
        refine hdropped.trans (hreporting.trans ?_)
        exact sendtoFromSourceWait_sends (fun s _ h => ih s h) (reporting link s n) (hfail _ _ _ _)
    · rw [routeFuel_passed link fuel hfail']
      exact hroute

theorem route_sends (link : List Frame → LinkAnswer)
    (hfail : ∀ dest source id dead, P ([dest, source, 0, id, 0] ++ [typeFailure, dead]))
    (s : RHMesh) {n : UInt8} (h : P (s.tmpMessage.load 0 n.toNat)) :
    SendsOnly P s (route link s n).2 := routeFuel_sends link hfail 2 s h

end RHMesh
