/-
Messages for a node that are acknowledged and then lost.

Two functions take messages from the router: `RHMesh::recvfromAck`, which hands
those of the application to its caller, and the wait loop of `doArp`, which has
no one to hand them to.  By then the link has acknowledged the frame and noted
that it has been seen, so that the sender will not send it again.

* `Accepts` — the link accepts a message of the application for this node;
* `MeshRun`, `step` — a node that sends and receives, one frame after another;
* `run_sendtoWait` — the steps of a call of `sendtoWait`;
* `delivered_iff` — all messages accepted are returned exactly if none is
  accepted in `doArp`.
-/
import RadioHead.Lib.Run
import RadioHead.MeshSend

open Run

namespace RHMesh

open RHRouter

/-- The link acknowledges the frame and has not seen it before, and it carries
a message of the application for this node. -/
def Accepts (s : RHMesh) (f : Frame) : Prop :=
  s.Takes f ∧ f.headerTo ≠ broadcastAddress ∧ f.data[0]? = some s.thisAddress ∧
    f.data[5]? = some typeApplication

instance (s : RHMesh) (f : Frame) : Decidable (s.Accepts f) :=
  inferInstanceAs (Decidable (_ ∧ _ ∧ _ ∧ _))

/-- What is returned to a caller that has room for `len` octets is the message of
the frame, as far as the router has stored it, with its headers. -/
structure Carries (f : Frame) (len : UInt8) (r : Received) : Prop where
  dest : f.data[0]? = some r.dest
  source : f.data[1]? = some r.source
  id : f.data[3]? = some r.id
  flags : f.data[4]? = some r.flags
  buf : r.buf = ((f.data.take routedMessageSize).drop (routedHeaderLen + meshHeaderLen)).take
    len.toNat

/-- A message of the application is returned, as far as the caller has room. -/
theorem handleReceived_application (link : List Frame → LinkAnswer) (s : RHMesh) {r : Received}
    (hmax : r.buf.length < 256) (htype : r.buf[0]? = some typeApplication) (len : UInt8) :
    (handleReceived link s r len).1 =
      some { r with buf := (r.buf.drop meshHeaderLen).take len.toNat } := by
  obtain ⟨hpos, htype⟩ := List.getElem?_eq_some_iff.mp htype
  have hlen : (UInt8.ofNat r.buf.length).toNat = r.buf.length := UInt8.toNat_ofNat_of_lt' hmax
  have hone : UInt8.ofNat r.buf.length ≥ 1 := by
    refine UInt8.le_iff_toNat_le.mpr ?_
    rw [hlen]
    exact hpos
  have htype0 : (store s 0 r.buf).derived 0 = typeApplication :=
    (Mem.write_get hpos s.derived 0).trans htype
  set msgLen := UInt8.ofNat r.buf.length - UInt8.ofNat meshHeaderLen
  have hmsg : msgLen.toNat = (r.buf.drop meshHeaderLen).length := by
    refine (UInt8.toNat_sub_of_le _ _ hone).trans ?_
    rw [hlen, List.length_drop]
    rfl
  -- no more than the message is taken, and no more than there is room for
  set n := if len > msgLen then msgLen else len with hn
  have hle : n.toNat ≤ msgLen.toNat := by
    rw [hn]
    split
    · exact le_rfl
    · next hle => exact UInt8.le_iff_toNat_le.mp (UInt8.not_lt.mp hle)
  have hfits : meshHeaderLen + n.toNat ≤ r.buf.length := by
    rw [hmsg, List.length_drop, meshHeaderLen] at hle
    rw [meshHeaderLen]
    omega
  have htake : (r.buf.drop meshHeaderLen).take n.toNat =
      (r.buf.drop meshHeaderLen).take len.toNat := by
    rw [hn]
    split
    · next hlt =>
      have hall := (UInt8.lt_iff_toNat_lt.mp hlt).le
      rw [List.take_of_length_le hmsg.ge, List.take_of_length_le (hmsg ▸ hall)]
    · rfl
  rw [← htake, ← Mem.load_write hfits s.derived 0]
  exact congrArg Prod.fst ((if_pos hone).trans (if_pos htype0))

/-- The data of a frame, as the router returns them. -/
theorem deliver_peeked (s : RHMesh) {f : Frame} (hlong : routedHeaderLen ≤ f.data.length) :
    ((peeked s f).deliver f.storedLen meshMessageSize).1 =
      ⟨stored f s.tmpMessage 1, stored f s.tmpMessage 0, stored f s.tmpMessage 3,
        stored f s.tmpMessage 4, (f.data.take routedMessageSize).drop routedHeaderLen⟩ := by
  have hn : f.storedLen.toNat = (f.data.take routedMessageSize).length := by
    rw [storedLen_toNat, List.length_take]
  have hle : routedHeaderLen ≤ f.storedLen.toNat := by
    rw [storedLen_toNat]
    exact le_min (by decide) hlong
  have hfits : routedHeaderLen + (f.storedLen.toNat - routedHeaderLen) ≤
      (f.data.take routedMessageSize).length := by omega
  have hload := Mem.load_write hfits s.tmpMessage 0
  have hall : ((f.data.take routedMessageSize).drop routedHeaderLen).length ≤
      f.storedLen.toNat - routedHeaderLen := by rw [List.length_drop, hn]
  rw [Nat.zero_add] at hload
  rw [deliver_meshMessageSize _ hle, peeked_tmpMessage]
  exact congrArg _ (hload.trans (List.take_of_length_le hall))

/-- **`recvfromAck` returns a message that is accepted.** -/
theorem recvfromAck_accepted (link : List Frame → LinkAnswer) {s : RHMesh} {f : Frame}
    (h : s.Accepts f) (len : UInt8) :
    ∃ r, (recvfromAck link s f len).1 = some r ∧ Carries f len r := by
  obtain ⟨htakes, -, hdest, htype⟩ := h
  have hlong : 5 < f.data.length := (List.getElem?_eq_some_iff.mp htype).1
  have hget : ∀ {i : ℕ}, i < 6 → f.data[i]? = some (stored f s.tmpMessage i) := by
    intro i hi
    have hget : f.data[i]? = some f.data[i] := List.getElem?_eq_getElem (by omega)
    rw [stored, stored_get hget (by rw [routedMessageSize]; omega), hget]
  have hhere : (peeked s f).Here := by
    refine .inl ?_
    obtain ⟨t, a, hp⟩ := peeked_eq s f
    have hthis : (peeked s f).thisAddress = s.thisAddress := hp ▸ taken_thisAddress s f
    rw [hthis, peeked_tmpMessage]
    exact Option.some_inj.mp ((hget (by omega)).symm.trans hdest)
  have hmax : ((f.data.take routedMessageSize).drop routedHeaderLen).length < 256 := by
    rw [List.length_drop, List.length_take, routedMessageSize]
    omega
  have htype' : ((f.data.take routedMessageSize).drop routedHeaderLen)[0]? =
      some typeApplication := by
    rw [List.getElem?_drop, List.getElem?_take_of_lt (by decide)]
    exact htype
  rw [recvfromAck_here htakes hhere, deliver_peeked s hlong.le]
  have hr := handleReceived_application link
    ((peeked s f).deliver f.storedLen meshMessageSize).2 (r := ⟨stored f s.tmpMessage 1,
      stored f s.tmpMessage 0, stored f s.tmpMessage 3, stored f s.tmpMessage 4,
      (f.data.take routedMessageSize).drop routedHeaderLen⟩) hmax htype' len
  refine ⟨_, hr, hget (by omega), hget (by omega), hget (by omega), hget (by omega), ?_⟩
  exact congrArg (List.take len.toNat) (List.drop_drop ..)

/-! ### A node that sends and receives -/

/-- Where the node is: out of `sendtoWait`, or in the wait loop of `doArp` with
the arguments of `sendtoWait` and the `messageLen` of the loop. -/
inductive Control where
  | idle
  | arping (buf : List UInt8) (address flags messageLen : UInt8)

/-- A node, the frames accepted so far, and of these the ones returned to the
application, each with the room that the caller of `recvfromAck` had and with
what was returned. -/
structure MeshRun where
  node : RHMesh
  control : Control
  accepted : List Frame
  returned : List (Frame × UInt8 × Received)

/-- A call of the application, or what happens in the wait loop of `doArp`; the
links answer as they may each time. -/
inductive MeshEvent where
  | sendtoWait (link : List Frame → LinkAnswer) (buf : List UInt8) (address flags : UInt8)
  | arpReceive (link : List Frame → LinkAnswer) (f : Frame)
  | arpTimeout
  | recvfromAck (link : List Frame → LinkAnswer) (f : Frame) (len : UInt8)

namespace MeshRun

/-- The frame, if the link accepts it. -/
def accept (s : MeshRun) (f : Frame) : List Frame :=
  if s.node.Accepts f then s.accepted ++ [f] else s.accepted

/-- The frame and what has been returned for it, if it was accepted. -/
def record (s : MeshRun) (f : Frame) (len : UInt8) (r : Option Received) :
    List (Frame × UInt8 × Received) :=
  if s.node.Accepts f then s.returned ++ r.toList.map (f, len, ·) else s.returned

def step (s : MeshRun) (e : MeshEvent) : Option MeshRun :=
  match s.control, e with
  | .idle, .sendtoWait link buf address flags =>
    if meshMaxMessageLen < buf.length then some s
    else if address ≠ broadcastAddress ∧ s.node.routes.getRouteTo address = none then
      match beginArp link s.node address with
      | (.none, n) =>
        some { s with node := n, control := .arping buf address flags meshMessageSize }
      | (_, n) => some { s with node := n }
    else some { s with node := (sendApplication link s.node buf address flags).2 }
  | .arping buf address flags messageLen, .arpReceive link f =>
    match RHMesh.arpReceive link s.node address messageLen f with
    | (true, _, n) =>
      some { s with
        node := (sendApplication link n buf address flags).2
        control := .idle
        accepted := s.accept f }
    | (false, messageLen, n) =>
      some { s with
        node := n
        control := .arping buf address flags messageLen
        accepted := s.accept f }
  | .arping .., .arpTimeout => some { s with control := .idle }
  | .idle, .recvfromAck link f len =>
    let r := RHMesh.recvfromAck link s.node f len
    some { s with node := r.2, accepted := s.accept f, returned := s.record f len r.1 }
  | _, _ => none

/-- Every message accepted has been returned. -/
def Delivered (s : MeshRun) : Prop :=
  s.returned.map Prod.fst = s.accepted ∧ ∀ p ∈ s.returned, Carries p.1 p.2.1 p.2.2

/-- In the wait loop of `doArp` no message of the application is accepted. -/
def Keeps (s : MeshRun) (e : MeshEvent) : Prop :=
  match s.control, e with
  | .arping .., .arpReceive _ f => ¬ s.node.Accepts f
  | _, _ => True

/-- The frames accepted and returned are those of the wait loop and those of
`recvfromAck`; nothing else touches them. -/
theorem step_cases {s s' : MeshRun} {e : MeshEvent} (h : s.step e = some s') :
    (s.Keeps e ∧ s'.accepted = s.accepted ∧ s'.returned = s.returned) ∨
    (∃ f, (s.Keeps e ↔ ¬ s.node.Accepts f) ∧ s'.accepted = s.accept f ∧
      s'.returned = s.returned) ∨
    ∃ link f len, s.Keeps e ∧ s'.accepted = s.accept f ∧
      s'.returned = s.record f len (RHMesh.recvfromAck link s.node f len).1 := by
  rcases s with ⟨node, control, accepted, returned⟩
  cases e with
  | sendtoWait link buf address flags =>
    cases control with
    | idle =>
      -- a call that sends, or begins to wait
      refine .inl ⟨trivial, ?_⟩
      simp only [step] at h
      split at h
      · exact Option.some_inj.mp h ▸ ⟨rfl, rfl⟩
      · split at h
        · split at h
          · exact Option.some_inj.mp h ▸ ⟨rfl, rfl⟩
          · exact Option.some_inj.mp h ▸ ⟨rfl, rfl⟩
        · exact Option.some_inj.mp h ▸ ⟨rfl, rfl⟩
    | arping => cases h
  | arpReceive link f =>
    cases control with
    | idle => cases h
    | arping buf address flags messageLen =>
      -- a frame in the wait loop: what `recvfromAck` of the router returns goes no further
      refine .inr (.inl ⟨f, Iff.rfl, ?_⟩)
      simp only [step] at h
      split at h
      · exact Option.some_inj.mp h ▸ ⟨rfl, rfl⟩
      · exact Option.some_inj.mp h ▸ ⟨rfl, rfl⟩
  | arpTimeout =>
    cases control with
    | idle => cases h
    | arping => exact .inl ⟨trivial, Option.some_inj.mp h ▸ ⟨rfl, rfl⟩⟩
  | recvfromAck link f len =>
    cases control with
    | idle => exact .inr (.inr ⟨link, f, len, trivial, Option.some_inj.mp h ▸ ⟨rfl, rfl⟩⟩)
    | arping => cases h

/-- A message accepted by `recvfromAck` is returned. -/
theorem Delivered.record {s : MeshRun} (hs : s.Delivered) (link : List Frame → LinkAnswer)
    (f : Frame) (len : UInt8) :
    (s.record f len (RHMesh.recvfromAck link s.node f len).1).map Prod.fst = s.accept f ∧
      ∀ p ∈ s.record f len (RHMesh.recvfromAck link s.node f len).1,
        Carries p.1 p.2.1 p.2.2 := by
  rw [MeshRun.record, accept]
  by_cases hf : s.node.Accepts f
  · obtain ⟨r, hr, hcarries⟩ := recvfromAck_accepted link hf len
    rw [if_pos hf, if_pos hf, hr, List.map_append, hs.1]
    refine ⟨rfl, fun p hp => ?_⟩
    rcases List.mem_append.mp hp with hp | hp
    · exact hs.2 p hp
    · rw [List.mem_singleton.mp hp]
      exact hcarries
  · rw [if_neg hf, if_neg hf]
    exact hs

/-- **What a step keeps**: a message is lost exactly if `doArp` takes it. -/
theorem delivered_step {s s' : MeshRun} {e : MeshEvent} (hs : s.Delivered)
    (h : s.step e = some s') : s.Keeps e ↔ s'.Delivered := by
  rcases step_cases h with ⟨hkeeps, ha, hr⟩ | ⟨f, hkeeps, ha, hr⟩ | ⟨link, f, len, hkeeps, ha, hr⟩
  · rw [Delivered, ha, hr]
    exact iff_of_true hkeeps hs
  · rw [Delivered, ha, hr, hkeeps, accept]
    by_cases hf : s.node.Accepts f
    · rw [if_pos hf, ← hs.1]
      -- a message has been accepted, and none returned
      refine iff_of_false (not_not.mpr hf) fun h => ?_
      simp at h
    · rw [if_neg hf]
      exact iff_of_true hf hs
  · rw [Delivered, ha, hr]
    exact iff_of_true hkeeps (hs.record link f len)

/-- A node that has not been called yet. -/
def start (node : RHMesh) : MeshRun := ⟨node, .idle, [], []⟩

/-- **All messages accepted are returned, all along a run, exactly if none is
accepted in the wait loop of `doArp`.** -/
theorem delivered_iff (node : RHMesh) (es : List MeshEvent) :
    AllSteps step Keeps (start node) es ↔
      ∀ fs t, fs <+: es → run step (start node) fs = some t → t.Delivered := by
  have hnone : ∀ s e, step s e = none → s.Keeps e := by
    rintro ⟨node, control, accepted, returned⟩ e h
    cases e with
    | arpReceive link f =>
      cases control with
      | idle => trivial
      | arping =>
        simp only [step] at h
        split at h <;> cases h
    | _ => cases control <;> trivial
  have hstart : (start node).Delivered := ⟨rfl, by simp [start]⟩
  exact allSteps_iff_kept hnone (fun s e s' hs h => delivered_step hs h) hstart

/-- Node 1 looks for node 5, and hears from node 4, over node 2, in the
meantime. -/
def interrupted : List MeshEvent :=
  [.sendtoWait silentLink [7] 5 0,
    .arpReceive silentLink ⟨1, 2, 1, flagsNone, [1, 4, 0, 0, 0, typeApplication, 42]⟩, .arpTimeout]

theorem interrupted_not_delivered :
    ∃ t, run step (start (freshNode 1)) interrupted = some t ∧ ¬ t.Delivered := by
  refine ⟨_, rfl, ?_⟩
  rintro ⟨h, -⟩
  exact absurd (congrArg List.length h) (by decide)

/-! ### The steps of a call -/

/-- The wait loop of `doArp` takes the frames one after another, up to the
response or to the timeout. -/
theorem run_arpWait (link : List Frame → LinkAnswer) {buf : List UInt8} {address flags : UInt8}
    (frames : List Frame) {s : MeshRun} {messageLen : UInt8}
    (hs : s.control = .arping buf address flags messageLen) :
    let r := arpWait link address s.node messageLen frames
    ∃ heard stop t, heard <+: frames ∧ (stop = [] ∨ stop = [.arpTimeout]) ∧
      run step s (heard.map (.arpReceive link) ++ stop) = some t ∧ t.control = .idle ∧
      t.node = if r.1 then (sendApplication link r.2 buf address flags).2 else r.2 := by
  induction frames generalizing s messageLen with
  | nil =>
    rcases s with ⟨node, control, accepted, returned⟩
    subst hs
    -- no frame is left: the wait times out
    exact ⟨[], [.arpTimeout], _, List.prefix_rfl, .inr rfl, rfl, rfl, rfl⟩
  | cons f frames ih =>
    rcases s with ⟨node, control, accepted, returned⟩
    subst hs
    set s : MeshRun := ⟨node, .arping buf address flags messageLen, accepted, returned⟩
    rcases hf : RHMesh.arpReceive link node address messageLen f with ⟨_ | _, m, n⟩
    · have hstep : s.step (.arpReceive link f) =
          some ⟨n, .arping buf address flags m, s.accept f, returned⟩ := by
        simp only [step, s, hf]
      obtain ⟨heard, stop, t, hheard, hstop, hrun, hidle, hnode⟩ :=
        ih (s := ⟨n, .arping buf address flags m, s.accept f, returned⟩) rfl
      refine ⟨f :: heard, stop, t, List.cons_prefix_cons.mpr ⟨rfl, hheard⟩, hstop,
        run_cons.mpr ⟨_, hstep, hrun⟩, hidle, ?_⟩
      rw [hnode, arpWait, hf]
    · have hstep : s.step (.arpReceive link f) =
          some ⟨(sendApplication link n buf address flags).2, .idle, s.accept f, returned⟩ := by
        simp only [step, s, hf]
      refine ⟨[f], [], _, List.cons_prefix_cons.mpr ⟨rfl, List.nil_prefix⟩, .inl rfl,
        run_cons.mpr ⟨_, hstep, rfl⟩, rfl, ?_⟩
      rw [arpWait, hf]
      rfl

/-- **A call of `sendtoWait` is a run of such steps**, up to where it returns. -/
theorem run_sendtoWait (link : List Frame → LinkAnswer) {s : MeshRun} (hs : s.control = .idle)
    (buf : List UInt8) (address flags : UInt8) (frames : List Frame) :
    ∃ heard stop t, heard <+: frames ∧ (stop = [] ∨ stop = [.arpTimeout]) ∧
      run step s (.sendtoWait link buf address flags :: (heard.map (.arpReceive link) ++ stop)) =
        some t ∧ t.control = .idle ∧
      t.node = (RHMesh.sendtoWait link s.node buf address flags frames).2 := by
  rcases s with ⟨node, control, accepted, returned⟩
  subst hs
  -- a call that does not wait is a single step
  have hreturns : ∀ n : RHMesh, step ⟨node, .idle, accepted, returned⟩
      (.sendtoWait link buf address flags) = some ⟨n, .idle, accepted, returned⟩ →
      n = (RHMesh.sendtoWait link node buf address flags frames).2 →
      ∃ heard stop t, heard <+: frames ∧ (stop = [] ∨ stop = [.arpTimeout]) ∧
        run step ⟨node, .idle, accepted, returned⟩ (.sendtoWait link buf address flags ::
          (heard.map (.arpReceive link) ++ stop)) = some t ∧ t.control = .idle ∧
        t.node = (RHMesh.sendtoWait link node buf address flags frames).2 := by
    intro n hn hnode
    exact ⟨[], [], _, List.nil_prefix, .inl rfl, run_cons.mpr ⟨_, hn, rfl⟩, rfl, hnode⟩
  by_cases hmax : meshMaxMessageLen < buf.length
  · refine hreturns node (by simp only [step, if_pos hmax]) ?_
    rw [RHMesh.sendtoWait, if_pos hmax]
  · by_cases hroute : address ≠ broadcastAddress ∧ node.routes.getRouteTo address = none
    · rcases hbegin : beginArp link node address with ⟨e, n⟩
      have harp : e = .none := by
        have := (beginArp_transmits link node address).1
        rwa [hbegin] at this
      subst harp
      have hstep : step ⟨node, .idle, accepted, returned⟩ (.sendtoWait link buf address flags) =
          some ⟨n, .arping buf address flags meshMessageSize, accepted, returned⟩ := by
        simp only [step, if_neg hmax, if_pos hroute, hbegin]
      obtain ⟨heard, stop, t, hheard, hstop, hrun, hidle, hnode⟩ := run_arpWait link frames
        (s := ⟨n, .arping buf address flags meshMessageSize, accepted, returned⟩) rfl
      refine ⟨heard, stop, t, hheard, hstop, run_cons.mpr ⟨_, hstep, hrun⟩, hidle, ?_⟩
      rw [hnode, RHMesh.sendtoWait, if_neg hmax, if_pos hroute, doArp, hbegin]
      dsimp only
      rcases arpWait link address n meshMessageSize frames with ⟨_ | _, u⟩
      · rfl
      · rfl
    · refine hreturns (sendApplication link node buf address flags).2
        (by simp only [step, if_neg hmax, if_neg hroute]) ?_
      rw [RHMesh.sendtoWait, if_neg hmax, if_neg hroute]

end MeshRun

end RHMesh
