/-
What ends the wait of `doArp`.

`doArp` waits for messages until it times out, and takes the first response for
the one it wants, whatever node it is about.  All messages come through one
buffer with one length, which shrinks to that of the shortest message so far:
after a message without data the loop sees no message whole again.

* `arpHeard` — the messages `doArp` gets while it waits;
* `Resolves` — it returns true exactly if a response about the node it looks for
  is among them, and takes the route over the sender of that;
* `arpWait_spec` — what it does;
* `resolves_iff` — when these agree.
-/
import RadioHead.Discovery
import RadioHead.Sends

namespace RHMesh

open RHRouter

variable {link : List Frame → LinkAnswer} {s : RHMesh} {f : Frame} {address : UInt8}

/-- The messages that `recvfromAck` returns to the wait loop, until it ends. -/
def arpHeard (link : List Frame → LinkAnswer) (address : UInt8) :
    RHMesh → UInt8 → List Frame → List Frame
  | _, _, [] => []
  | s, messageLen, f :: fs =>
    let rest :=
      match arpReceive link s address messageLen f with
      | (true, _, _) => []
      | (false, messageLen, s) => arpHeard link address s messageLen fs
    if (RHRouter.recvfromAck (virtuals link) s f messageLen).1.isSome then f :: rest else rest

/-- The message is a response about `address`. -/
def AnswersFor (f : Frame) (address : UInt8) : Prop :=
  f.data[5]? = some typeResponse ∧ f.data[7]? = some address

instance (f : Frame) (address : UInt8) : Decidable (AnswersFor f address) :=
  inferInstanceAs (Decidable (_ ∧ _))

/-- `doArp` returns true if and only if it gets a response about `address`, and
then has the sender of that response for the next hop. -/
structure Resolves (link : List Frame → LinkAnswer) (s : RHMesh) (address : UInt8)
    (frames : List Frame) : Prop where
  returns : (doArp link s address frames).1 = true ↔
    ∃ f ∈ arpHeard link address (beginArp link s address).2 meshMessageSize frames,
      AnswersFor f address
  hop : (doArp link s address frames).1 = true →
    ∃ f ∈ arpHeard link address (beginArp link s address).2 meshMessageSize frames,
      AnswersFor f address ∧
        (doArp link s address frames).2.routes.nextHop address = some f.headerFrom

/-- The frames with a message for the node, or for all, that the link has not
seen before: `seen` are the ids of the last ones. -/
def received (thisAddress : UInt8) : (UInt8 → UInt8) → List Frame → List Frame
  | _, [] => []
  | seen, f :: fs =>
    if ¬ f.IsAck ∧ f.headerId ≠ seen f.headerFrom then
      let rest := received thisAddress (Function.update seen f.headerFrom f.headerId) fs
      if f.data.getD 0 0 = thisAddress ∨ f.data.getD 0 0 = broadcastAddress then f :: rest
      else rest
    else received thisAddress seen fs

/-- A message of the mesh, with its type at least, and all of a response. -/
structure MeshMessage (f : Frame) : Prop where
  long : 6 ≤ f.data.length
  fits : f.data.length ≤ maxMessageLen
  response : f.data[5]? = some typeResponse → 8 ≤ f.data.length

/-- The first response before any message of a single octet. -/
def firstResponse (msgs : List Frame) : Option Frame :=
  (msgs.takeWhile fun f => 6 < f.data.length).find? fun f => f.data[5]? = some typeResponse

/-- It is about `address`; if there is none, no response about `address` comes
at all. -/
def FirstIsFor (address : UInt8) (msgs : List Frame) : Prop :=
  match firstResponse msgs with
  | some f => f.data[7]? = some address
  | none => ∀ f ∈ msgs, ¬ AnswersFor f address

theorem firstResponse_cons (f : Frame) (fs : List Frame) :
    firstResponse (f :: fs) =
      if 6 < f.data.length then
        if f.data[5]? = some typeResponse then some f else firstResponse fs
      else none := by
  rw [firstResponse, List.takeWhile_cons]
  by_cases hlong : 6 < f.data.length
  · rw [decide_eq_true hlong, if_pos rfl, if_pos hlong, List.find?_cons]
    by_cases h5 : f.data[5]? = some typeResponse
    · rw [decide_eq_true h5, if_pos h5]
    · rw [decide_eq_false h5, if_neg h5, firstResponse]
  · rw [decide_eq_false hlong, if_neg Bool.false_ne_true, if_neg hlong, List.find?_nil]

theorem firstResponse_type {msgs : List Frame} (h : firstResponse msgs = some f) :
    f.data[5]? = some typeResponse := by
  have := List.find?_some h
  exact of_decide_eq_true this

theorem received_of_not_takes (h : ¬ s.Takes f) (thisAddress : UInt8) (fs : List Frame) :
    received thisAddress s.seenIds (f :: fs) = received thisAddress s.seenIds fs := by
  rw [received]
  exact if_neg h

theorem received_of_takes (h : s.Takes f) (thisAddress : UInt8) (fs : List Frame) :
    received thisAddress s.seenIds (f :: fs) =
      if f.data.getD 0 0 = thisAddress ∨ f.data.getD 0 0 = broadcastAddress
      then f :: received thisAddress (s.taken f).seenIds fs
      else received thisAddress (s.taken f).seenIds fs := by
  rw [received, taken_seenIds]
  exact if_pos h

/-- The link keeps a frame that it does not take. -/
theorem arpReceive_skipped (link : List Frame → LinkAnswer) (htakes : ¬ s.Takes f)
    (address messageLen : UInt8) :
    ∃ t, (RHRouter.recvfromAck (virtuals link) s f messageLen).1 = none ∧
      arpReceive link s address messageLen f = (false, messageLen, t) ∧
      ∀ fs, received s.thisAddress s.seenIds (f :: fs) = received t.thisAddress t.seenIds fs := by
  refine ⟨s.skipped f, ?_, arpReceive_of_not_takes link htakes address messageLen, ?_⟩
  · rw [RHRouter.recvfromAck_of_not_takes htakes]
  · intro fs
    have hthis : (s.skipped f).thisAddress = s.thisAddress := skipped_thisAddress s f
    have hseen : (s.skipped f).seenIds = s.seenIds := by
      show RHReliableDatagram.seenIds (ite _ _ _) = _
      split <;> rfl
    rw [received_of_not_takes htakes, hthis, hseen]

/-- The node with a message of the mesh in its buffer. -/
theorem peeked_message (s : RHMesh) (hmsg : MeshMessage f) :
    (∃ r a, peeked s f = { s.taken f with routes := r, accesses := a }) ∧
      (∀ i, i < f.data.length → (peeked s f).tmpMessage i = f.data.getD i 0) ∧
      ((peeked s f).Here ↔
        f.data.getD 0 0 = s.thisAddress ∨ f.data.getD 0 0 = broadcastAddress) := by
  have hpeek : ∃ r a, peeked s f = { s.taken f with routes := r, accesses := a } := by
    obtain ⟨r, a, hp⟩ := peekAtMessage_eq (s.taken f) f.storedLen
    rw [peeked, hp]
    exact ⟨_, _, rfl⟩
  obtain ⟨r, a, hp⟩ := hpeek
  have hget : ∀ i, i < f.data.length → (peeked s f).tmpMessage i = f.data.getD i 0 := by
    intro i hi
    rw [hp]
    exact getD_stored hi hmsg.fits s.tmpMessage
  refine ⟨⟨r, a, hp⟩, hget, ?_⟩
  have hlong := hmsg.long
  rw [Here, hget 0 (by omega), hp]
  show _ = (s.taken f).thisAddress ∨ _ ↔ _
  rw [taken_thisAddress]

/-- The router keeps a message for another node, or passes it on. -/
theorem arpReceive_elsewhere (link : List Frame → LinkAnswer) (htakes : s.Takes f)
    (hmsg : MeshMessage f) (h : ¬ (peeked s f).Here) (address messageLen : UInt8) :
    ∃ t, (RHRouter.recvfromAck (virtuals link) s f messageLen).1 = none ∧
      arpReceive link s address messageLen f = (false, messageLen, t) ∧
      ∀ fs, received s.thisAddress s.seenIds (f :: fs) = received t.thisAddress t.seenIds fs := by
  have hlong := hmsg.long
  have hsends := RHRouter.recvfromAck_sends (P := fun _ => True) (v := virtuals link)
    peekAtMessage_eq (fun s n _ => RHMesh.route_sends link (fun _ _ _ _ => trivial) s trivial)
    htakes (show 5 ≤ f.data.length by omega) hmsg.fits (fun _ _ _ => trivial) messageLen
  have hnone : (RHRouter.recvfromAck (virtuals link) s f messageLen).1 = none := by
    rw [recvfromAck_of_takes htakes, dispatch]
    exact congrArg Prod.fst (if_neg h)
  obtain ⟨-, -, hhere⟩ := peeked_message s hmsg
  refine ⟨(RHRouter.recvfromAck (virtuals link) s f messageLen).2, hnone, ?_, ?_⟩
  · rw [arpReceive]
    rcases hr : RHRouter.recvfromAck (virtuals link) s f messageLen with ⟨_ | r, t⟩
    · rfl
    · rw [hr] at hnone
      cases hnone
  · intro fs
    rw [received_of_takes htakes, if_neg (mt hhere.mpr h), hsends.thisAddress, hsends.seenIds,
      taken_thisAddress]

/-- A message for this node, or for all, is received. -/
theorem arpReceive_message (link : List Frame → LinkAnswer) (htakes : s.Takes f)
    (hmsg : MeshMessage f) (h : (peeked s f).Here) (address messageLen : UInt8) :
    ∃ t n, (RHRouter.recvfromAck (virtuals link) s f messageLen).1.isSome ∧
      (1 < n ↔ 1 < messageLen ∧ 6 < f.data.length) ∧
      arpReceive link s address messageLen f =
        (if 1 < n ∧ f.data[5]? = some typeResponse then
          (true, n, t.addRouteTo address f.headerFrom) else (false, n, t)) ∧
      ∀ fs, received s.thisAddress s.seenIds (f :: fs) =
        f :: received t.thisAddress t.seenIds fs := by
  have hlong := hmsg.long
  have hn : f.storedLen.toNat = f.data.length := by
    have := hmsg.fits
    rw [maxMessageLen] at this
    rw [storedLen_toNat, routedMessageSize]
    omega
  obtain ⟨⟨r, a, hp⟩, hget, hhere⟩ := peeked_message s hmsg
  obtain ⟨n, d, a', hn1, hsome, heq⟩ :=
    arpReceive_got link htakes h (by rw [hn]; exact hlong) address messageLen
  rw [hn] at hn1
  refine ⟨{ peeked s f with derived := d, accesses := a' }, n, hsome, hn1, ?_, ?_⟩
  · have h5 : (peeked s f).tmpMessage 5 = typeResponse ↔ f.data[5]? = some typeResponse := by
      rw [hget 5 (by omega), List.getD_eq_getElem?_getD, List.getElem?_eq_getElem (by omega),
        Option.getD_some, Option.some_inj]
    have hfrom : (peeked s f).rxHeaderFrom = f.headerFrom := by
      rw [hp]
      rfl
    rw [heq]
    simp only [h5, hfrom]
  · intro fs
    rw [received_of_takes htakes, if_pos (hhere.mp h)]
    show _ = f :: received (peeked s f).thisAddress (peeked s f).seenIds fs
    rw [hp]
    show _ = f :: received (s.taken f).thisAddress (s.taken f).seenIds fs
    rw [taken_thisAddress]

/-- One frame in the wait loop: it is kept below, and the others are received as
if it had not come; or it is received. -/
theorem arpReceive_cases (link : List Frame → LinkAnswer) (s : RHMesh) {f : Frame}
    (hf : ¬ f.IsAck → MeshMessage f) (address messageLen : UInt8) :
    (∃ t, (RHRouter.recvfromAck (virtuals link) s f messageLen).1 = none ∧
      arpReceive link s address messageLen f = (false, messageLen, t) ∧
      ∀ fs, received s.thisAddress s.seenIds (f :: fs) = received t.thisAddress t.seenIds fs) ∨
    ∃ t n, (RHRouter.recvfromAck (virtuals link) s f messageLen).1.isSome ∧ MeshMessage f ∧
      (1 < n ↔ 1 < messageLen ∧ 6 < f.data.length) ∧
      arpReceive link s address messageLen f =
        (if 1 < n ∧ f.data[5]? = some typeResponse then
          (true, n, t.addRouteTo address f.headerFrom) else (false, n, t)) ∧
      ∀ fs, received s.thisAddress s.seenIds (f :: fs) =
        f :: received t.thisAddress t.seenIds fs := by
  by_cases htakes : s.Takes f
  · have hmsg := hf htakes.1
    by_cases h : (peeked s f).Here
    · obtain ⟨t, n, hsome, hn⟩ := arpReceive_message link htakes hmsg h address messageLen
      exact .inr ⟨t, n, hsome, hmsg, hn⟩
    · exact .inl (arpReceive_elsewhere link htakes hmsg h address messageLen)
  · exact .inl (arpReceive_skipped link htakes address messageLen)

/-- A message kept below leaves the wait as it is. -/
theorem arpHeard_kept {t : RHMesh} {messageLen : UInt8} {fs : List Frame}
    (hnone : (RHRouter.recvfromAck (virtuals link) s f messageLen).1 = none)
    (heq : arpReceive link s address messageLen f = (false, messageLen, t)) :
    arpHeard link address s messageLen (f :: fs) = arpHeard link address t messageLen fs := by
  rw [arpHeard, hnone, heq]
  rfl

/-- One that is received is heard, and the wait goes on, or not. -/
theorem arpHeard_got {messageLen : UInt8} {fs : List Frame} {r : Bool × UInt8 × RHMesh}
    (hsome : (RHRouter.recvfromAck (virtuals link) s f messageLen).1.isSome)
    (heq : arpReceive link s address messageLen f = r) :
    arpHeard link address s messageLen (f :: fs) =
      f :: if r.1 then [] else arpHeard link address r.2.2 r.2.1 fs := by
  obtain ⟨_ | _, n, t⟩ := r
  · rw [arpHeard, heq, if_pos hsome]
    rfl
  · rw [arpHeard, heq, if_pos hsome]
    rfl

theorem arpWait_cons {messageLen : UInt8} {fs : List Frame} {r : Bool × UInt8 × RHMesh}
    (heq : arpReceive link s address messageLen f = r) :
    arpWait link address s messageLen (f :: fs) =
      if r.1 then (true, r.2.2) else arpWait link address r.2.2 r.2.1 fs := by
  obtain ⟨_ | _, n, t⟩ := r
  · rw [arpWait, heq]
    rfl
  · rw [arpWait, heq]
    rfl

/-- With no more than one octet left in `messageLen` nothing ends the wait. -/
theorem arpWait_short (link : List Frame → LinkAnswer) (address : UInt8) (s : RHMesh)
    {fs : List Frame} (hfs : ∀ f ∈ fs, ¬ f.IsAck → MeshMessage f)
    {messageLen : UInt8} (hml : ¬ 1 < messageLen) :
    (arpWait link address s messageLen fs).1 = false ∧
      arpHeard link address s messageLen fs = received s.thisAddress s.seenIds fs := by
  induction fs generalizing s messageLen with
  | nil => exact ⟨rfl, rfl⟩
  | cons f fs ih =>
    rw [List.forall_mem_cons] at hfs
    rcases arpReceive_cases link s hfs.1 address messageLen with
      ⟨t, hnone, heq, hrec⟩ | ⟨t, n, hsome, -, hn, heq, hrec⟩
    · obtain ⟨hwait, hheard⟩ := ih t hfs.2 hml
      rw [arpWait_cons heq, arpHeard_kept hnone heq, hrec]
      exact ⟨hwait, hheard⟩
    · have hn : ¬ 1 < n := fun h => hml (hn.mp h).1
      rw [if_neg fun h => hn h.1] at heq
      obtain ⟨hwait, hheard⟩ := ih t hfs.2 hn
      rw [arpWait_cons heq, arpHeard_got hsome heq, hrec]
      exact ⟨hwait, congrArg (f :: ·) hheard⟩

/-- **The wait ends with the first response before any message of a single
octet, whatever it is about.** -/
theorem arpWait_spec (link : List Frame → LinkAnswer) (address : UInt8) (s : RHMesh)
    {fs : List Frame} (hfs : ∀ f ∈ fs, ¬ f.IsAck → MeshMessage f)
    {messageLen : UInt8} (hml : 1 < messageLen) :
    match firstResponse (received s.thisAddress s.seenIds fs) with
    | some f =>
      (arpWait link address s messageLen fs).1 = true ∧
        (arpWait link address s messageLen fs).2.routes.nextHop address = some f.headerFrom ∧
        ∃ pre, arpHeard link address s messageLen fs = pre ++ [f] ∧
          ∀ g ∈ pre, g.data[5]? ≠ some typeResponse
    | none =>
      (arpWait link address s messageLen fs).1 = false ∧
        arpHeard link address s messageLen fs = received s.thisAddress s.seenIds fs := by
  induction fs generalizing s messageLen with
  | nil => exact ⟨rfl, rfl⟩
  | cons f fs ih =>
    rw [List.forall_mem_cons] at hfs
    rcases arpReceive_cases link s hfs.1 address messageLen with
      ⟨t, hnone, heq, hrec⟩ | ⟨t, n, hsome, hmsg, hn, heq, hrec⟩
    · rw [arpWait_cons heq, arpHeard_kept hnone heq, hrec]
      exact ih t hfs.2 hml
    · rw [hrec, firstResponse_cons]
      by_cases hlong : 6 < f.data.length
      · have hn : 1 < n := hn.mpr ⟨hml, hlong⟩
        rw [if_pos hlong]
        by_cases h5 : f.data[5]? = some typeResponse
        · rw [if_pos ⟨hn, h5⟩] at heq
          rw [if_pos h5, arpWait_cons heq, arpHeard_got hsome heq]
          refine ⟨rfl, ?_, [], rfl, by simp⟩
          exact RoutingTable.nextHop_addRouteTo _ _ _
        · rw [if_neg fun h => h5 h.2] at heq
          rw [if_neg h5, arpWait_cons heq, arpHeard_got hsome heq]
          have h := ih t hfs.2 hn
          rcases hfirst : firstResponse (received t.thisAddress t.seenIds fs) with _ | g
          · rw [hfirst] at h
            exact ⟨h.1, congrArg (f :: ·) h.2⟩
          · rw [hfirst] at h
            obtain ⟨hwait, hnext, pre, hheard, hpre⟩ := h
            refine ⟨hwait, hnext, f :: pre, congrArg (f :: ·) hheard, ?_⟩
            exact List.forall_mem_cons.mpr ⟨h5, hpre⟩
      · -- a message of a single octet
        have hn : ¬ 1 < n := fun h => hlong (hn.mp h).2
        rw [if_neg fun h => hn h.1] at heq
        obtain ⟨hwait, hheard⟩ := arpWait_short link address t hfs.2 hn
        rw [if_neg hlong, arpWait_cons heq, arpHeard_got hsome heq]
        exact ⟨hwait, congrArg (f :: ·) hheard⟩

/-- **`doArp` resolves the address it is asked for exactly if the first response
it gets before any message of a single octet is about that address, or there is
none and no response about it comes at all.** -/
theorem resolves_iff (link : List Frame → LinkAnswer) (s : RHMesh) (address : UInt8)
    {frames : List Frame} (hframes : ∀ f ∈ frames, ¬ f.IsAck → MeshMessage f) :
    Resolves link s address frames ↔
      FirstIsFor address (received s.thisAddress s.seenIds frames) := by
  obtain ⟨hok, hbegin⟩ := beginArp_transmits link s address
  set t := (beginArp link s address).2 with ht
  have hdo : doArp link s address frames = arpWait link address t meshMessageSize frames := by
    rcases hr : beginArp link s address with ⟨e, u⟩
    rw [hr] at hok
    rw [doArp, hr, show e = .none from hok, ht, hr]
  have hthis : t.thisAddress = s.thisAddress := hbegin.thisAddress
  have hseen : t.seenIds = s.seenIds := hbegin.seenIds
  have hspec := arpWait_spec link address t hframes
    (show 1 < meshMessageSize by decide)
  rw [hthis, hseen] at hspec
  rw [FirstIsFor]
  rcases hfirst : firstResponse (received s.thisAddress s.seenIds frames) with _ | f
  · rw [hfirst] at hspec
    obtain ⟨hwait, hheard⟩ := hspec
    constructor
    · rintro ⟨hreturns, -⟩ f hf hanswers
      rw [hdo, hwait, ← ht, hheard] at hreturns
      exact absurd (hreturns.mpr ⟨f, hf, hanswers⟩) Bool.false_ne_true
    · intro h
      rw [← hdo] at hwait
      constructor
      · rw [hwait, ← ht, hheard]
        refine iff_of_false Bool.false_ne_true ?_
        rintro ⟨f, hf, hanswers⟩
        exact h f hf hanswers
      · rw [hwait]
        exact fun h => absurd h Bool.false_ne_true
  · have h5 := firstResponse_type hfirst
    rw [hfirst] at hspec
    obtain ⟨hwait, hnext, pre, hheard, hpre⟩ := hspec
    -- the messages heard before it are no responses
    have hmem : ∀ g ∈ arpHeard link address t meshMessageSize frames, AnswersFor g address →
        g = f := by
      intro g hg hanswers
      rw [hheard] at hg
      rcases List.mem_append.mp hg with hg | hg
      · exact absurd hanswers.1 (hpre g hg)
      · exact List.mem_singleton.mp hg
    have hf : f ∈ arpHeard link address t meshMessageSize frames := by
      rw [hheard]
      exact List.mem_append_right _ List.mem_cons_self
    constructor
    · rintro ⟨hreturns, -⟩
      obtain ⟨g, hg, hanswers⟩ := hreturns.mp (by rw [hdo]; exact hwait)
      rw [← hmem g hg hanswers]
      exact hanswers.2
    · intro h7
      constructor
      · rw [hdo]
        exact iff_of_true hwait ⟨f, hf, h5, h7⟩
      · intro _
        rw [hdo]
        exact ⟨f, hf, ⟨h5, h7⟩, hnext⟩

/-- A response for node 1 about `target`, from node `from_`. -/
def lateResponse (from_ id target : UInt8) : Frame :=
  ⟨1, from_, id, flagsNone, discovery 1 target 0 0 0 typeResponse target []⟩

/-- Node 1 looks for node 5, and gets the response to an earlier discovery. -/
theorem late_response_taken :
    (doArp silentLink (constructed 1 fun _ => 0) 5 [lateResponse 2 1 4]).1 = true ∧
      ¬ Resolves silentLink (constructed 1 fun _ => 0) 5 [lateResponse 2 1 4] := by
  have htrue : (doArp silentLink (constructed 1 fun _ => 0) 5 [lateResponse 2 1 4]).1 = true := by
    decide
  refine ⟨htrue, ?_⟩
  rintro ⟨hreturns, -⟩
  obtain ⟨f, hf, h⟩ := hreturns.mp htrue
  have hheard : arpHeard silentLink 5 (beginArp silentLink (constructed 1 fun _ => 0) 5).2
      meshMessageSize [lateResponse 2 1 4] = [lateResponse 2 1 4] := by
    decide
  rw [hheard, List.mem_singleton] at hf
  subst hf
  exact absurd h.2 (by decide)

/-- A message of an application and then the response it looks for. -/
theorem response_resolves :
    Resolves silentLink (constructed 1 fun _ => 0) 5
      [⟨1, 2, 1, flagsNone, [1, 4, 0, 0, 0, typeApplication, 42]⟩, lateResponse 2 2 5] := by
  refine (resolves_iff silentLink (constructed 1 fun _ => 0) 5 ?_).mpr ?_
  · intro f hf _
    rcases List.mem_cons.mp hf with rfl | hf
    · exact ⟨by decide, by decide, by decide⟩
    · rw [List.mem_singleton.mp hf]
      exact ⟨by decide, by decide, by decide⟩
  · show some (5 : UInt8) = some 5
    rfl

end RHMesh
