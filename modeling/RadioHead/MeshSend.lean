/-
`RHMesh::sendtoWait`, and the messages that are too long for it.

The length is looked at twice: first against what fits in a mesh message, then,
with the headers, against what the driver takes.  The driver takes less, and in
between lies the discovery of a route.

* `sendtoWait` — the function, with the frames that come in while it discovers;
* `RefusedAtomically` — a message that is too long is refused, and leaves no
  trace;
* `refusedAtomically_iff` — when this is so.
-/
import RadioHead.Flooding

namespace RHRouter

variable {β : Type} {link : List Frame → LinkAnswer}

/-- Only a message that is too long is refused for its length. -/
theorem route_ne_invalidLength (s : RHRouter β) (n : UInt8) :
    (s.route link n).1 ≠ .invalidLength := by
  rcases hnext : s.nextHop with _ | hop
  · rw [route_noRoute hnext]
    exact RouterError.noConfusion
  · rw [route_hop hnext]
    dsimp only
    split <;> decide

end RHRouter

namespace RHMesh

open RHRouter

variable {link : List Frame → LinkAnswer} {s : RHMesh} {buf : List UInt8} {address flags : UInt8}

/-- `RHMesh::sendtoWait`, with the frames that become available before the
discovery of a route times out. -/
def sendtoWait (link : List Frame → LinkAnswer) (s : RHMesh) (buf : List UInt8)
    (address flags : UInt8) (frames : List Frame) : RouterError × RHMesh :=
  if meshMaxMessageLen < buf.length then (.invalidLength, s)
  else if address ≠ broadcastAddress ∧ s.routes.getRouteTo address = none then
    match doArp link s address frames with
    | (true, s) => sendApplication link s buf address flags
    | (false, s) => (.noRoute, s)
  else sendApplication link s buf address flags

/-- The message is too long for the driver, with the headers. -/
def TooLong (buf : List UInt8) : Prop :=
  maxMessageLen < buf.length + (routedHeaderLen + meshHeaderLen)

instance (buf : List UInt8) : Decidable (TooLong buf) := inferInstanceAs (Decidable (_ < _))

/-- The message is refused for its length exactly if it is too long, and then
nothing has been sent, no route added or deleted and no number used. -/
def RefusedAtomically (link : List Frame → LinkAnswer) (s : RHMesh) (buf : List UInt8)
    (address flags : UInt8) (frames : List Frame) : Prop :=
  let r := sendtoWait link s buf address flags frames
  (r.1 = .invalidLength ↔ TooLong buf) ∧
    (TooLong buf → r.2.sent = s.sent ∧ r.2.routes = s.routes ∧
      r.2.lastSequenceNumber = s.lastSequenceNumber ∧
      r.2.lastE2ESequenceNumber = s.lastE2ESequenceNumber)

/-- The mesh's `route` has the router's answer for a message of the node's own. -/
theorem route_own_error {n : UInt8} (hown : s.tmpMessage 1 = s.thisAddress) :
    (route link s n).1 = (RHRouter.route link s n).1 := by
  by_cases hfail : Fails (RHRouter.route link s n).1
  · rw [route, routeFuel_dropped link 1 hfail hown]
  · rw [route, routeFuel_passed link 1 hfail]

/-- With a route at hand the router looks at the length before anything else. -/
theorem sendApplication_length (link : List Frame → LinkAnswer) (s : RHMesh)
    (hlen : buf.length ≤ meshMaxMessageLen) (address flags : UInt8) :
    ((sendApplication link s buf address flags).1 = .invalidLength ↔ TooLong buf) ∧
      (TooLong buf → (sendApplication link s buf address flags).2 =
        store s 0 (typeApplication :: buf)) := by
  set u := store s 0 (typeApplication :: buf) with hu
  have hload : u.derived.load 0 (meshHeaderLen + buf.length) = typeApplication :: buf := by
    have := Mem.load_write_self s.derived 0 (typeApplication :: buf)
    rwa [List.length_cons, Nat.add_comm] at this
  have hsend : sendApplication link s buf address flags =
      RHRouter.sendtoWait (route link) u (typeApplication :: buf) address flags := by
    rw [sendApplication, if_neg (not_lt.mpr hlen)]
    exact congrArg (RHRouter.sendtoWait (route link) u · address flags) hload
  rw [hsend, RHRouter.sendtoWait]
  by_cases hlong : TooLong buf
  · -- refused by the router, before it writes anything
    have hrefused : u.sendtoFromSourceWait (route link) (typeApplication :: buf) address
        u.thisAddress flags = (.invalidLength, u) := by
      refine if_pos ?_
      rw [TooLong, meshHeaderLen] at hlong
      rw [List.length_cons]
      omega
    rw [hrefused]
    exact ⟨iff_of_true rfl hlong, fun _ => rfl⟩
  · have hfits : (typeApplication :: buf).length + routedHeaderLen ≤ maxMessageLen := by
      rw [TooLong, meshHeaderLen] at hlong
      rw [List.length_cons]
      omega
    rw [sendtoFromSourceWait_eq u address u.thisAddress flags (route link) hfits,
      route_own_error (composed_source u address u.thisAddress flags)]
    exact ⟨iff_of_false (route_ne_invalidLength _ _) hlong, fun h => absurd h hlong⟩

/-- `RHRouter::recvfromAck` takes back nothing that has been sent. -/
theorem recvfromAck_extends (link : List Frame → LinkAnswer) (s : RHMesh) (f : Frame)
    (len : UInt8) : s.sent <+: (RHRouter.recvfromAck (virtuals link) s f len).2.sent := by
  by_cases htakes : s.Takes f
  · have hpeek : (peeked s f).sent = s.sent := by
      obtain ⟨t, a, h⟩ := peeked_eq s f
      rw [h]
      rfl
    rw [recvfromAck_of_takes htakes, dispatch]
    show s.sent <+: (if (peeked s f).Here then _ else _ : Option Received × RHMesh).2.sent
    split
    · exact hpeek ▸ List.prefix_rfl
    · show s.sent <+: ((peeked s f).forward (virtuals link) f.storedLen).sent
      rw [forward_eq]
      split
      · obtain ⟨out, hout, -⟩ := (route_sends (P := fun _ => True) link (fun _ _ _ _ => trivial)
          (peeked s f).hopped (n := f.storedLen) trivial).sent
        exact ⟨out, (congrArg (· ++ out) hpeek.symm).trans hout.symm⟩
      · exact hpeek ▸ List.prefix_rfl
  · rw [RHRouter.recvfromAck_of_not_takes htakes]
    exact List.prefix_rfl

theorem arpWait_extends (link : List Frame → LinkAnswer) (address : UInt8) (frames : List Frame)
    (s : RHMesh) (messageLen : UInt8) :
    s.sent <+: (arpWait link address s messageLen frames).2.sent := by
  induction frames generalizing s messageLen with
  | nil => exact List.prefix_rfl
  | cons f frames ih =>
    have hone : s.sent <+: (arpReceive link s address messageLen f).2.2.sent := by
      have h := recvfromAck_extends link s f messageLen
      rw [arpReceive]
      rcases hr : RHRouter.recvfromAck (virtuals link) s f messageLen with ⟨_ | r, t⟩
      · rw [hr] at h
        exact h
      · rw [hr] at h
        dsimp only
        split <;> exact h
    rw [arpWait]
    rcases hr : arpReceive link s address messageLen f with ⟨_ | _, n, t⟩
    · rw [hr] at hone
      exact hone.trans (ih t n)
    · rw [hr] at hone
      exact hone

/-- A discovery sends its request, whatever comes of it. -/
theorem doArp_sends (link : List Frame → LinkAnswer) (s : RHMesh) (address : UInt8)
    (frames : List Frame) :
    s.sent.length < (doArp link s address frames).2.sent.length := by
  obtain ⟨hok, h⟩ := beginArp_transmits link s address
  obtain ⟨flags, hsent, -⟩ := h.sent
  rw [doArp]
  rcases hbegin : beginArp link s address with ⟨e, t⟩
  rw [hbegin] at hok hsent
  obtain rfl : e = .none := hok
  have hle := (arpWait_extends link address frames t meshMessageSize).length_le
  have hlt : s.sent.length < t.sent.length := by
    rw [hsent]
    simp [RHRouter.setMessage]
  exact hlt.trans_le hle

/-- **A message that is too long is refused at once, unless it is for a node
that has to be discovered and would fit without the driver's own headers.** -/
theorem refusedAtomically_iff (link : List Frame → LinkAnswer) (s : RHMesh) (buf : List UInt8)
    (address flags : UInt8) (frames : List Frame) :
    RefusedAtomically link s buf address flags frames ↔
      ¬ (TooLong buf ∧ buf.length ≤ meshMaxMessageLen ∧ address ≠ broadcastAddress ∧
        s.routes.getRouteTo address = none) := by
  rw [RefusedAtomically, sendtoWait]
  by_cases hmax : meshMaxMessageLen < buf.length
  · -- refused by the first check
    have hlong : TooLong buf := by
      rw [meshMaxMessageLen] at hmax
      show 251 < buf.length + 6
      omega
    rw [if_pos hmax]
    exact iff_of_true ⟨iff_of_true rfl hlong, fun _ => ⟨rfl, rfl, rfl, rfl⟩⟩
      fun h => absurd hmax (not_lt.mpr h.2.1)
  · have hfits := not_lt.mp hmax
    rw [if_neg hmax]
    by_cases hroute : address ≠ broadcastAddress ∧ s.routes.getRouteTo address = none
    · -- a route has to be discovered first
      rw [if_pos hroute]
      have hsends := doArp_sends link s address frames
      rcases harp : doArp link s address frames with ⟨_ | _, t⟩
      · rw [harp] at hsends
        by_cases hlong : TooLong buf
        · refine iff_of_false ?_ (not_not.mpr ⟨hlong, hfits, hroute⟩)
          exact fun h => RouterError.noConfusion (h.1.mpr hlong)
        · refine iff_of_true ⟨iff_of_false RouterError.noConfusion hlong, ?_⟩ ?_
          · exact fun h => absurd h hlong
          · exact fun h => hlong h.1
      · rw [harp] at hsends
        obtain ⟨herr, hkeeps⟩ := sendApplication_length link t hfits address flags
        by_cases hlong : TooLong buf
        · refine iff_of_false ?_ (not_not.mpr ⟨hlong, hfits, hroute⟩)
          -- the request of the discovery has been sent
          rintro ⟨-, h⟩
          have hsent := (h hlong).1
          dsimp only at hsent
          rw [hkeeps hlong] at hsent
          exact hsends.ne (congrArg List.length hsent).symm
        · exact iff_of_true ⟨herr, fun h => absurd h hlong⟩ fun h => hlong h.1
    · -- a broadcast, or a route at hand
      rw [if_neg hroute]
      obtain ⟨herr, hkeeps⟩ := sendApplication_length link s hfits address flags
      refine iff_of_true ⟨herr, fun hlong => ?_⟩ fun h => hroute h.2.2
      rw [hkeeps hlong]
      exact ⟨rfl, rfl, rfl, rfl⟩

/-- Node 1 has 246 octets for node 2 and no route: it sends a request, and gets
no answer. -/
theorem discovered_not_refused :
    ¬ RefusedAtomically silentLink (freshNode 1) (List.replicate 246 0) 2 0 [] := by
  intro h
  have harp : (doArp silentLink (freshNode 1) 2 []).1 = false := by
    rw [doArp]
    split <;> rfl
  have herr : (sendtoWait silentLink (freshNode 1) (List.replicate 246 0) 2 0 []).1 = .noRoute := by
    rw [sendtoWait, if_neg (by rw [List.length_replicate]; decide), if_pos (by decide)]
    rcases hcall : doArp silentLink (freshNode 1) 2 [] with ⟨b, t⟩
    rw [hcall] at harp
    obtain rfl : b = false := harp
    rfl
  have hlong : TooLong (List.replicate 246 0) := by
    rw [TooLong, List.length_replicate]
    decide
  exact RouterError.noConfusion (herr.symm.trans (h.1.mpr hlong))

end RHMesh
