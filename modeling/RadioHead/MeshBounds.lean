/-
What a mesh node reads of a received frame.

`peekAtMessage` and `recvfromAck` guard their reads of a discovery message by
lengths that count other headers than the one read, and compute the length of
its list in eight bits.  A call is within the frame if every octet it
interprets, every address it adds a route to or deletes one for among them, was
received in that frame, if it takes the list to have no more entries than
follow `msgType`, `destlen` and `dest`, and if nothing is copied or stored past
the end of the buffers.

* `Access.Within`, `ReadsWithin` — an access, and a call, within the frame;
* `Complete` — a frame with all the octets that are looked at, in which this
  node is listed last, if at all, of a response;
* `readsWithin_iff` — exactly the complete frames are read within their bounds;
* `relayedResponse_overread` — a node in the middle of the list of a response
  adds a route to whatever lies behind the list.
-/
import RadioHead.Mesh

/-- The access is within a frame of `n` octets and within the buffers. -/
def Access.Within (n : ℕ) : Access → Prop
  | .octet i => i < n
  | .upTo k => k ≤ routedMessageSize
  | .entries k => k.toNat ≤ n - routeOctet

instance (n : ℕ) : DecidablePred (Access.Within n)
  | .octet _ => inferInstanceAs (Decidable (_ < _))
  | .upTo _ => inferInstanceAs (Decidable (_ ≤ _))
  | .entries _ => inferInstanceAs (Decidable (_ ≤ _))

/-- The access is to the header of a routed message, or copies it. -/
def Access.Header : Access → Prop
  | .octet i => i < routedHeaderLen
  | .upTo k => k ≤ routedMessageSize
  | .entries _ => False

theorem Access.Header.within {a : Access} (h : a.Header) {n : ℕ} (hn : routedHeaderLen ≤ n) :
    a.Within n := by
  cases a with
  | octet i => exact Nat.lt_of_lt_of_le h hn
  | upTo k => exact h
  | entries k => exact h.elim

namespace RHRouter

variable {β : Type} {s t u : RHRouter β} {link : List Frame → LinkAnswer}

/-- All accesses so far are within a frame of `n` octets. -/
def Within (n : ℕ) (s : RHRouter β) : Prop := ∀ a ∈ s.accesses, a.Within n

/-- From `s` to `t` there are only accesses that satisfy `P`. -/
def Grows (P : Access → Prop) (s t : RHRouter β) : Prop :=
  ∃ l, t.accesses = s.accesses ++ l ∧ ∀ a ∈ l, P a

variable {P Q : Access → Prop}

theorem Grows.of_eq (h : t.accesses = s.accesses) : Grows P s t := ⟨[], by simp [h], by simp⟩

theorem Grows.note {l : List Access} (h : ∀ a ∈ l, P a) : Grows P s (s.note l) := ⟨l, rfl, h⟩

theorem Grows.mono (h : Grows P s t) (hPQ : ∀ a, P a → Q a) : Grows Q s t := by
  obtain ⟨l, e, hl⟩ := h
  exact ⟨l, e, fun a ha => hPQ a (hl a ha)⟩

theorem Grows.trans (h₁ : Grows P s t) (h₂ : Grows P t u) : Grows P s u := by
  obtain ⟨l₁, e₁, h₁⟩ := h₁
  obtain ⟨l₂, e₂, h₂⟩ := h₂
  refine ⟨l₁ ++ l₂, by rw [e₂, e₁, List.append_assoc], ?_⟩
  intro a ha
  rcases List.mem_append.mp ha with ha | ha
  · exact h₁ a ha
  · exact h₂ a ha

/-- What was out of bounds stays so. -/
theorem Grows.within (h : Grows P s t) {n : ℕ} (ht : t.Within n) : s.Within n := by
  obtain ⟨l, e, -⟩ := h
  intro a ha
  exact ht a (by rw [e]; exact List.mem_append_left _ ha)

theorem Grows.within_iff {n : ℕ} (h : Grows (Access.Within n) s t) :
    t.Within n ↔ s.Within n := by
  refine ⟨h.within, ?_⟩
  obtain ⟨l, e, hl⟩ := h
  intro hs a ha
  rw [e] at ha
  rcases List.mem_append.mp ha with ha | ha
  · exact hs a ha
  · exact hl a ha

theorem within_note {n : ℕ} {l : List Access} :
    (s.note l).Within n ↔ s.Within n ∧ ∀ a ∈ l, a.Within n := by
  show (∀ a ∈ s.accesses ++ l, a.Within n) ↔ _
  rw [List.forall_mem_append]
  exact Iff.rfl

theorem linkSendtoWait_grows (s : RHRouter β) (buf : List UInt8) (address : UInt8) :
    Grows P s (s.linkSendtoWait link buf address).2 := by
  refine .of_eq ?_
  rw [linkSendtoWait]
  split <;> rfl

theorem route_grows (s : RHRouter β) (n : UInt8) : Grows Access.Header s (s.route link n).2 := by
  rcases h : s.nextHop with _ | hop
  · rw [route_noRoute h]
    exact .note (by simp [Access.Header, routedHeaderLen])
  · rw [route_hop h]
    refine Grows.trans (.note ?_) (linkSendtoWait_grows _ _ _)
    simp only [List.forall_mem_cons, List.not_mem_nil, false_imp_iff, implies_true, and_true]
    exact ⟨show 0 < 5 by omega, Nat.le_of_lt_succ n.toNat_lt⟩

/-- `sendtoFromSourceWait` looks at no more than the `route` it calls. -/
theorem sendtoFromSourceWait_grows {route : RHRouter β → UInt8 → RouterError × RHRouter β}
    (hroute : ∀ s n, Grows Access.Header s (route s n).2) (s : RHRouter β) (buf : List UInt8)
    (dest source flags : UInt8) :
    Grows Access.Header s (s.sendtoFromSourceWait route buf dest source flags).2 := by
  rw [sendtoFromSourceWait]
  split
  · exact .of_eq rfl
  · rename_i hlen
    refine Grows.trans ?_ (hroute _ _)
    refine ⟨[.upTo (routedHeaderLen + buf.length)], rfl, ?_⟩
    intro a ha
    rw [List.mem_singleton.mp ha]
    show routedHeaderLen + buf.length ≤ 255
    rw [maxMessageLen] at hlen
    omega

theorem deliver_grows (s : RHRouter β) (n : UInt8) {len : UInt8} (hlen : len.toNat ≤ 250) :
    Grows Access.Header s (s.deliver n len).2 := by
  refine .note ?_
  simp only [List.forall_mem_cons, List.not_mem_nil, false_imp_iff, implies_true, and_true]
  refine ⟨show 1 < 5 by omega, show 3 < 5 by omega, show 4 < 5 by omega, ?_⟩
  show routedHeaderLen + _ ≤ 255
  rw [routedHeaderLen]
  split
  · rename_i hlt
    have := UInt8.lt_iff_toNat_lt.mp hlt
    omega
  · omega

theorem forward_grows {v : Virtuals β} (hroute : ∀ s n, Grows Access.Header s (v.route s n).2)
    (s : RHRouter β) (n : UInt8) : Grows Access.Header s (s.forward v n) := by
  have hhop : Grows Access.Header s s.hopped := Grows.note (s := s.setMessage _) (by
    simp [Access.Header, routedHeaderLen])
  rw [forward_eq]
  split
  · exact hhop.trans (hroute _ _)
  · exact hhop

end RHRouter

namespace RHMesh

open RHRouter

variable {link : List Frame → LinkAnswer} {n : ℕ}

theorem routeFuel_grows (fuel : ℕ) :
    ∀ (s : RHMesh) (len : UInt8), Grows Access.Header s (routeFuel link fuel s len).2 := by
  induction fuel with
  | zero => exact route_grows
  | succ fuel ih =>
    intro s len
    by_cases hfail : Fails (RHRouter.route link s len).1
    · -- a failure: the destination and the source of the message are looked at
      have hnoted : Grows Access.Header (RHRouter.route link s len).2
          ((RHRouter.route link s len).2.note [.octet 0, .octet 1]) :=
        .note (by simp [Access.Header, routedHeaderLen])
      have hdropped : Grows Access.Header s (dropped link s len) :=
        ((route_grows s len).trans hnoted).trans (.of_eq rfl)
      by_cases hown : s.tmpMessage 1 = s.thisAddress
      · rw [routeFuel_dropped link fuel hfail hown]
        exact hdropped
      · have hreporting : Grows Access.Header s (reporting link s len) :=
          hdropped.trans (.of_eq rfl)
        rw [routeFuel_reported link fuel hfail hown]
        exact hreporting.trans (sendtoFromSourceWait_grows ih _ _ _ _ _)
    · rw [routeFuel_passed link fuel hfail]
      exact route_grows s len

theorem within_learn (s : RHMesh) (route : ℕ → UInt8) (idx : List ℕ) :
    (learn s route idx).Within n ↔ s.Within n ∧ ∀ i ∈ idx, routeOctet + i < n := by
  induction idx generalizing s with
  | nil => simp [learn]
  | cons i idx ih =>
    show (learn ((s.note [.octet (routeOctet + i)]).addRouteTo _ _) route idx).Within n ↔ _
    rw [ih]
    show (s.note [.octet (routeOctet + i)]).Within n ∧ _ ↔ _
    rw [within_note, List.forall_mem_singleton, List.forall_mem_cons, and_assoc]
    exact Iff.rfl

theorem within_seek {j k : ℕ} (h : routeOctet + k ≤ n) :
    ∀ a ∈ seekAccesses j k, a.Within n := by
  intro a ha
  obtain ⟨i, hi, rfl⟩ := List.mem_map.mp ha
  show routeOctet + i < n
  rw [List.mem_range] at hi
  omega

/-- The entries behind this node are in the frame if there are none. -/
theorem within_scrape (s : RHMesh) (route : ℕ → UInt8) {i k : ℕ} (h : n = routeOctet + k) :
    (learn s route (List.range' (i + 1) (k - i))).Within n ↔ s.Within n ∧ k ≤ i := by
  rw [within_learn, and_congr_right_iff]
  intro _
  constructor
  · intro hall
    by_contra hik
    have := hall k (List.mem_range'_1.mpr (by omega))
    omega
  · intro hki m hm
    rw [List.mem_range'_1] at hm
    omega

/-- This node is not listed before the last of `k` entries. -/
theorem le_listed_iff (s : RHMesh) (route : ℕ → UInt8) (k : ℕ) :
    k ≤ listed s route k + 1 ↔ ∀ i, i + 1 < k → route i ≠ s.thisAddress := by
  constructor
  · intro hle i hi
    exact ne_of_lt_listed (show i < listed s route k by omega)
  · intro hall
    by_contra hlt
    exact hall _ (not_le.mp hlt) (listed_spec (by omega))

/-- `peekAtResponse` stays within a frame if it has a list, with this node last
in it, if at all. -/
theorem within_peekAtResponse {s : RHMesh} {messageLen : UInt8} (hn : messageLen.toNat = n)
    (hmax : n ≤ maxMessageLen) :
    (peekAtResponse s messageLen).Within n ↔ s.Within n ∧ routeOctet ≤ n ∧
      ∀ i, routeOctet + i + 1 < n → s.tmpMessage (routeOctet + i) ≠ s.thisAddress := by
  rw [peekAtResponse]
  set t := (s.note [.octet 7]).addRouteTo (s.tmpMessage 7) s.rxHeaderFrom with ht
  have htw : t.Within n ↔ s.Within n ∧ 7 < n := by
    show (s.note [.octet 7]).Within n ↔ _
    rw [within_note, List.forall_mem_singleton]
    exact Iff.rfl
  by_cases hlist : routeOctet ≤ n
  · -- with all of its header the length of the list does not wrap
    have hnum := numRoutes_toNat (show routeOctet ≤ messageLen.toNat by omega)
    rw [hn] at hnum
    set k := messageLen - UInt8.ofNat routedHeaderLen - UInt8.ofNat meshHeaderLen - 2 with hk
    set route : ℕ → UInt8 := fun i => t.tmpMessage (routeOctet + i) with hroute
    have hle := listed_le t route k.toNat
    have hi : (UInt8.ofNat (listed t route k.toNat) + 1).toNat = listed t route k.toNat + 1 := by
      rw [maxMessageLen] at hmax
      simp only [UInt8.toNat_add, UInt8.toNat_ofNat', UInt8.reduceToNat]
      omega
    have hacc : ∀ a ∈ Access.entries k :: seekAccesses (listed t route k.toNat) k.toNat,
        a.Within n := by
      intro a ha
      rcases List.mem_cons.mp ha with rfl | ha
      · exact hnum.le
      · exact within_seek (by omega) a ha
    rw [within_scrape _ _ (by omega), within_note, hi, le_listed_iff, htw]
    show ((s.Within n ∧ 7 < n) ∧ _) ∧ _ ↔ _
    constructor
    · rintro ⟨⟨⟨hs, -⟩, -⟩, hlast⟩
      exact ⟨hs, hlist, fun i hi => hlast i (by omega)⟩
    · rintro ⟨hs, -, hlast⟩
      exact ⟨⟨⟨hs, hlist⟩, hacc⟩, fun i hi => hlast i (by omega)⟩
  · -- the destination of the response is missing already
    refine iff_of_false ?_ fun h => hlist h.2.1
    intro h
    have := (within_learn _ _ _).mp h
    exact hlist (htw.mp (within_note.mp this.1).1).2

/-- `peekAtMessage` stays within a frame of two octets and more if the octets
it asks for are there. -/
theorem within_peekAtMessage {s : RHMesh} {messageLen : UInt8} (hn : messageLen.toNat = n)
    (hmax : n ≤ maxMessageLen) (hmin : 1 < n) :
    (peekAtMessage s messageLen).Within n ↔ s.Within n ∧ 5 < n ∧
      (s.tmpMessage 5 = typeResponse → routeOctet ≤ n ∧
        ∀ i, routeOctet + i + 1 < n → s.tmpMessage (routeOctet + i) ≠ s.thisAddress) ∧
      (s.tmpMessage 5 = typeFailure → 6 < n) := by
  have hlong : messageLen > 1 := UInt8.lt_iff_toNat_lt.mpr (by rw [hn]; exact hmin)
  have hnote : (s.note [.octet 5]).Within n ↔ s.Within n ∧ 5 < n := by
    rw [within_note, List.forall_mem_singleton]
    exact Iff.rfl
  rw [peekAtMessage, if_pos hlong]
  dsimp only
  split
  · -- a response
    rename_i hresp
    rw [within_peekAtResponse hn hmax, hnote]
    constructor
    · rintro ⟨⟨hs, h5⟩, hlist⟩
      exact ⟨hs, h5, fun _ => hlist, fun hfail => absurd (hresp.symm.trans hfail) (by decide)⟩
    · rintro ⟨hs, h5, hlist, -⟩
      exact ⟨⟨hs, h5⟩, hlist hresp⟩
  · rename_i hresp
    split
    · -- a failure
      rename_i hfail
      show ((s.note [.octet 5]).note [.octet 6]).Within n ↔ _
      rw [within_note, hnote, List.forall_mem_singleton]
      constructor
      · rintro ⟨⟨hs, h5⟩, h6⟩
        exact ⟨hs, h5, fun h => absurd h hresp, fun _ => h6⟩
      · rintro ⟨hs, h5, -, h6⟩
        exact ⟨⟨hs, h5⟩, h6 hfail⟩
    · rename_i hfail
      rw [hnote]
      constructor
      · rintro ⟨hs, h5⟩
        exact ⟨hs, h5, fun h => absurd h hresp, fun h => absurd h hfail⟩
      · rintro ⟨hs, h5, -⟩
        exact ⟨hs, h5⟩

/-- Answering or sending on a request looks at its destination, and copies the
list with one more entry. -/
theorem answerRequest_grows (link : List Frame → LinkAnswer) {P : Access → Prop}
    (hP : ∀ a, a.Header → P a) (h6 : P (.octet 6)) (h7 : P (.octet 7)) (numRoutes : UInt8)
    (hup : P (.upTo (routeOctet + numRoutes.toNat + 1))) (s : RHMesh)
    (source tmpMessageLen : UInt8) :
    Grows P s (answerRequest link s source tmpMessageLen numRoutes) := by
  have hphys : ∀ a ∈ physicalAccesses s, P a := by
    rw [physicalAccesses]
    split <;> simp [h6, h7]
  have hroute : ∀ (s : RHMesh) (len : UInt8), Grows P s (route link s len).2 := fun s len =>
    (routeFuel_grows 2 s len).mono hP
  have hsend : ∀ (s : RHMesh) (buf : List UInt8) (dest source : UInt8),
      Grows P s (s.sendtoFromSourceWait (route link) buf dest source).2 := fun s buf dest source =>
    (sendtoFromSourceWait_grows (fun s len => routeFuel_grows 2 s len) s buf dest source 0).mono hP
  rw [answerRequest]
  split
  · exact (Grows.note hphys).trans ((Grows.of_eq rfl).trans (hsend _ _ _ _))
  · split
    · refine (Grows.note ?_).trans ((Grows.of_eq rfl).trans (hsend _ _ _ _))
      intro a ha
      rcases List.mem_append.mp ha with ha | ha
      · exact hphys a ha
      · rw [List.mem_singleton.mp ha]
        exact hup
    · exact .note hphys

/-- `handleRequest` stays within a frame that has a list, or came back to its
originator. -/
theorem within_handleRequest {s : RHMesh} {source tmpMessageLen : UInt8}
    (hn : tmpMessageLen.toNat + routedHeaderLen = n) (hmax : n ≤ maxMessageLen)
    (hmin : 1 < tmpMessageLen.toNat) :
    (handleRequest link s source tmpMessageLen).Within n ↔
      s.Within n ∧ (n < routeOctet → source = s.thisAddress) := by
  rw [handleRequest]
  split
  · -- the request has come back to its originator, which ignores it
    rename_i hown
    exact ⟨fun hs => ⟨hs, fun _ => hown⟩, fun h => h.1⟩
  rename_i hother
  dsimp only
  set k := tmpMessageLen - UInt8.ofNat meshHeaderLen - 2 with hk
  set route : ℕ → UInt8 := fun i => s.derived (3 + i) with hroute
  set t := s.note (.entries k :: seekAccesses (listed s route k.toNat) k.toNat) with ht
  have hsub : k.toNat = (254 + tmpMessageLen.toNat - 1) % 256 := by
    show (tmpMessageLen - 1 - 2).toNat = _
    simp only [UInt8.toNat_sub, UInt8.reduceToNat]
    omega
  have hoct : routeOctet = 8 := rfl
  have hhdr : routedHeaderLen = 5 := rfl
  rw [maxMessageLen] at hmax
  by_cases hlist : routeOctet ≤ n
  · -- the list is what the frame holds behind the header
    have hnum : k.toNat = n - routeOctet := by omega
    have htw : t.Within n ↔ s.Within n := by
      rw [ht, within_note, and_iff_left_iff_imp]
      intro _ a ha
      rcases List.mem_cons.mp ha with rfl | ha
      · exact hnum.le
      · exact within_seek (by omega) a ha
    have hbefore : s.Within n ∧ (n < routeOctet → source = s.thisAddress) ↔ s.Within n :=
      and_iff_left fun h => absurd h (not_lt.mpr hlist)
    rw [hbefore]
    split
    · exact htw
    · have hgrows := answerRequest_grows link (P := Access.Within n)
        (fun a ha => ha.within (by omega)) (show 6 < n by omega) (show 7 < n by omega)
        k (show routeOctet + k.toNat + 1 ≤ 255 by omega)
        (learn (t.addRouteTo source t.rxHeaderFrom) route (List.range k.toNat)) source
        tmpMessageLen
      refine hgrows.within_iff.trans ?_
      rw [within_learn]
      show t.Within n ∧ _ ↔ _
      rw [htw, and_iff_left_iff_imp]
      intro _ i hi
      rw [List.mem_range] at hi
      omega
  · -- seven octets: the list is taken to have 255 entries
    have hnot : ¬ t.Within n := by
      intro h
      have hk : k.toNat ≤ n - routeOctet := (within_note.mp h).2 _ List.mem_cons_self
      omega
    refine iff_of_false ?_ fun h => hother (h.2 (not_le.mp hlist))
    split
    · exact hnot
    · intro h
      have hgrows := answerRequest_grows link (P := fun _ => True)
        (fun _ _ => trivial) trivial trivial k trivial
        (learn (t.addRouteTo source t.rxHeaderFrom) route (List.range k.toNat)) source
        tmpMessageLen
      exact hnot ((within_learn _ _ _).mp (hgrows.within h)).1

theorem learn_grows {P : Access → Prop} {route : ℕ → UInt8} {idx : List ℕ}
    (h : ∀ i ∈ idx, P (.octet (routeOctet + i))) (s : RHMesh) : Grows P s (learn s route idx) := by
  induction idx generalizing s with
  | nil => exact .of_eq rfl
  | cons i idx ih =>
    rw [List.forall_mem_cons] at h
    have hone : Grows P s ((s.note [.octet (routeOctet + i)]).addRouteTo (route i)
        s.rxHeaderFrom) := ⟨[.octet (routeOctet + i)], rfl, by simpa using h.1⟩
    exact hone.trans (ih h.2 _)

/-- What `recvfromAck` does with a message returned by the router adds accesses. -/
theorem handleReceived_grows (s : RHMesh) (r : Received) (len : UInt8) :
    Grows (fun _ => True) s (handleReceived link s r len).2 := by
  have hrequest : ∀ (s : RHMesh) (source n : UInt8),
      Grows (fun _ => True) s (handleRequest link s source n) := by
    intro s source n
    rw [handleRequest]
    split
    · exact .of_eq rfl
    dsimp only
    split
    · exact .note fun _ _ => trivial
    · refine Grows.trans ?_
        (answerRequest_grows link (fun _ _ => trivial) trivial trivial _ trivial _ _ _)
      refine Grows.trans ?_ (learn_grows (fun _ _ => trivial) _)
      exact ⟨_, rfl, fun _ _ => trivial⟩
  rw [handleReceived]
  dsimp only
  split
  · refine Grows.trans (t := (store s 0 r.buf).note [.octet 5])
      ⟨[.octet 5], rfl, fun _ _ => trivial⟩ ?_
    split
    · exact .note fun _ _ => trivial
    · split
      · exact hrequest _ _ _
      · exact .of_eq rfl
  · exact .of_eq rfl

/-- A message returned by the router is handled within a frame, except for a
request without a list that is another node's. -/
theorem within_handleReceived {s : RHMesh} {r : Received} {len : UInt8}
    (hn : r.buf.length + routedHeaderLen = n) (hmax : n ≤ maxMessageLen) (hmin : 5 < n) :
    (handleReceived link s r len).2.Within n ↔ s.Within n ∧
      (r.dest = broadcastAddress → r.buf[0]? = some typeRequest → n = 7 →
        r.source = s.thisAddress) := by
  have hhdr : routedHeaderLen = 5 := rfl
  have hmesh : meshHeaderLen = 1 := rfl
  rw [maxMessageLen] at hmax
  have hlen : (UInt8.ofNat r.buf.length).toNat = r.buf.length :=
    UInt8.toNat_ofNat_of_lt' (show r.buf.length < 256 by omega)
  have hone : UInt8.ofNat r.buf.length ≥ 1 := by
    refine UInt8.le_iff_toNat_le.mpr ?_
    rw [hlen]
    exact (show 1 ≤ r.buf.length by omega)
  obtain ⟨o, l, hbuf⟩ : ∃ o l, r.buf = o :: l :=
    List.exists_cons_of_ne_nil (List.ne_nil_of_length_pos (by omega))
  have hget : r.buf[0]? = some o := by rw [hbuf, List.getElem?_cons_zero]
  have htype : (store s 0 r.buf).derived 0 = o := by
    show s.derived.write 0 r.buf 0 = o
    simp [Mem.write, hbuf]
  set t := (store s 0 r.buf).note [.octet 5] with ht
  have htw : t.Within n ↔ s.Within n := by
    show ((store s 0 r.buf).note [.octet 5]).Within n ↔ _
    rw [within_note, List.forall_mem_singleton]
    exact and_iff_left hmin
  rw [hget, Option.some_inj]
  by_cases happ : o = typeApplication
  · have heq : handleReceived link s r len = (some _, t.note _) :=
      (if_pos hone).trans (if_pos (htype.trans happ))
    rw [heq, within_note, htw, List.forall_mem_singleton]
    constructor
    · rintro ⟨hs, -⟩
      exact ⟨hs, fun _ hreq => absurd (happ.symm.trans hreq) (by decide)⟩
    · rintro ⟨hs, -⟩
      refine ⟨hs, ?_⟩
      -- no more is copied than was received
      have hle : (UInt8.ofNat r.buf.length - UInt8.ofNat meshHeaderLen).toNat =
          r.buf.length - 1 := by
        refine (UInt8.toNat_sub_of_le _ _ hone).trans ?_
        rw [hlen]
        rfl
      show routedHeaderLen + meshHeaderLen + _ ≤ 255
      split
      · omega
      · rename_i hnot
        have := UInt8.le_iff_toNat_le.mp (UInt8.not_lt.mp hnot)
        omega
  · have hnot : (store s 0 r.buf).derived 0 ≠ typeApplication := htype ▸ happ
    by_cases hreq : r.dest = broadcastAddress ∧ UInt8.ofNat r.buf.length > 1 ∧ o = typeRequest
    · have heq : handleReceived link s r len =
          (none, handleRequest link t r.source (UInt8.ofNat r.buf.length)) :=
        (if_pos hone).trans ((if_neg hnot).trans (if_pos (htype ▸ hreq)))
      have hlong : 1 < (UInt8.ofNat r.buf.length).toNat := UInt8.lt_iff_toNat_lt.mp hreq.2.1
      have hoct : routeOctet = 8 := rfl
      rw [heq, within_handleRequest (by omega) hmax hlong, htw]
      refine and_congr_right fun _ => ?_
      constructor
      · intro h _ _ h7
        exact h (by omega)
      · intro h hlt
        exact h hreq.1 hreq.2.2 (by omega)
    · have heq : handleReceived link s r len = (none, t) :=
        (if_pos hone).trans ((if_neg hnot).trans (if_neg (htype ▸ hreq)))
      rw [heq, htw]
      refine ⟨fun hs => ⟨hs, fun hdest htype h7 => absurd ?_ hreq⟩, fun h => h.1⟩
      refine ⟨hdest, UInt8.lt_iff_toNat_lt.mpr ?_, htype⟩
      rw [hlen]
      exact (show 1 < r.buf.length by omega)

/-- A call of `recvfromAck` reads and writes within the frame. -/
def ReadsWithin (link : List Frame → LinkAnswer) (s : RHMesh) (f : Frame) (len : UInt8) : Prop :=
  (recvfromAck link { s with accesses := [] } f len).2.Within f.data.length

/-- The frame has the octets that a node looks at: the type of the message; of
a response the destination, and this node at the end of the list, if anywhere
in it; of a failure the destination; and of a request, unless it is the node's
own, all that comes before the list. -/
structure Complete (thisAddress : UInt8) (f : Frame) : Prop where
  msgType : 5 < f.data.length
  response : f.data[5]? = some typeResponse → routeOctet ≤ f.data.length ∧
    ∀ i, routeOctet + i + 1 < f.data.length → f.data[routeOctet + i]? ≠ some thisAddress
  failure : f.data[5]? = some typeFailure → 6 < f.data.length
  request : f.data[0]? = some broadcastAddress → f.data[5]? = some typeRequest →
    f.data.length = 7 → f.data[1]? = some thisAddress

/-- A frame without a whole header, or without a message after it, is read past
its end. -/
theorem not_within_of_short {s : RHMesh} {f : Frame} (h : s.Takes f) (len : UInt8)
    (hshort : f.data.length ≤ 5) : ¬ (recvfromAck link s f len).2.Within f.data.length := by
  have hn : f.storedLen.toNat = f.data.length := by
    rw [storedLen_toNat, routedMessageSize]
    omega
  -- beyond two octets, the type of the message is looked at
  have hpeek : 2 < f.data.length → ¬ (peeked s f).Within f.data.length := by
    intro hlong hw
    have := (within_peekAtMessage hn (show f.data.length ≤ 251 by omega) (by omega)).mp
      (within_note.mp hw).1
    omega
  intro hw
  by_cases hh : (peeked s f).Here
  · rw [recvfromAck_here h hh] at hw
    obtain ⟨hp, hall⟩ := within_note.mp ((handleReceived_grows _ _ _).within hw)
    have h4 : 4 < f.data.length := hall (.octet 4) (by simp)
    exact hpeek (by omega) hp
  · rw [recvfromAck_away h hh, forward_eq] at hw
    have hhop : (peeked s f).hopped.Within f.data.length := by
      dsimp only at hw
      split at hw
      · exact (routeFuel_grows 2 _ _).within hw
      · exact hw
    obtain ⟨hp, hall⟩ := within_note.mp hhop
    have h2 : 2 < f.data.length := hall (.octet 2) (by simp)
    exact hpeek h2 hp

/-- The message type and the list, as far as `peekAtMessage` asks for them. -/
theorem within_peeked {s : RHMesh} {f : Frame} (hmin : 5 < f.data.length)
    (hmax : f.data.length ≤ maxMessageLen) :
    (peeked { s with accesses := [] } f).Within f.data.length ↔
      (f.data[5]? = some typeResponse → routeOctet ≤ f.data.length ∧
        ∀ i, routeOctet + i + 1 < f.data.length → f.data[routeOctet + i]? ≠ some s.thisAddress) ∧
      (f.data[5]? = some typeFailure → 6 < f.data.length) := by
  have hmax' : f.data.length ≤ 251 := hmax
  have hn : f.storedLen.toNat = f.data.length := by
    rw [storedLen_toNat, routedMessageSize]
    omega
  have hget : ∀ (i : ℕ) (o : UInt8), i < f.data.length →
      (f.data[i]? = some o ↔ stored f s.tmpMessage i = o) := by
    intro i o hi
    rw [List.getElem?_eq_getElem hi, Option.some_inj, stored,
      stored_get (List.getElem?_eq_getElem hi) (by rw [routedMessageSize]; omega)]
  have hempty : (taken { s with accesses := [] } f).Within f.data.length := by
    intro a ha
    exact absurd ha List.not_mem_nil
  rw [peeked, within_note, within_peekAtMessage hn hmax (by omega), List.forall_mem_singleton,
    taken_thisAddress, hget 5 _ hmin, hget 5 _ hmin]
  constructor
  · rintro ⟨⟨-, -, hresp, hfail⟩, -⟩
    refine ⟨fun h => ⟨(hresp h).1, ?_⟩, hfail⟩
    intro i hi
    exact mt (hget _ _ (by omega)).mp ((hresp h).2 i hi)
  · rintro ⟨hresp, hfail⟩
    refine ⟨⟨hempty, hmin, fun h => ⟨(hresp h).1, ?_⟩, hfail⟩, show 0 < f.data.length by omega⟩
    intro i hi
    exact mt (hget _ _ (by omega)).mpr ((hresp h).2 i hi)

/-- After peeking only requests for all nodes are read any further. -/
theorem within_recvfromAck {s : RHMesh} {f : Frame} (h : s.Takes f) (len : UInt8)
    (hmin : 5 < f.data.length) (hmax : f.data.length ≤ maxMessageLen) :
    (recvfromAck link s f len).2.Within f.data.length ↔ (peeked s f).Within f.data.length ∧
      (f.data[0]? = some broadcastAddress → f.data[5]? = some typeRequest →
        f.data.length = 7 → f.data[1]? = some s.thisAddress) := by
  have hmax' : f.data.length ≤ 251 := hmax
  have hn : f.storedLen.toNat = f.data.length := by
    rw [storedLen_toNat, routedMessageSize]
    omega
  obtain ⟨t, a, hp⟩ := peeked_eq s f
  have htmp : (peeked s f).tmpMessage = stored f s.tmpMessage := by
    rw [hp]
    rfl
  have hthis : (peeked s f).thisAddress = s.thisAddress := by
    rw [hp]
    exact taken_thisAddress s f
  have hget : ∀ i < f.data.length, f.data[i]? = some ((peeked s f).tmpMessage i) := by
    intro i hi
    rw [htmp, stored, stored_get (List.getElem?_eq_getElem hi) (by rw [routedMessageSize]; omega),
      List.getElem?_eq_getElem hi]
  have hhdr : ∀ a : Access, a.Header → a.Within f.data.length := fun a ha =>
    ha.within (show 5 ≤ f.data.length by omega)
  rw [hget 0 (by omega), hget 1 (by omega), hget 5 hmin]
  simp only [Option.some_inj]
  by_cases hh : (peeked s f).Here
  · have hdeliver := deliver_meshMessageSize (peeked s f) (n := f.storedLen)
      (by rw [hn]; exact hmin.le)
    have hlen : ((peeked s f).deliver f.storedLen meshMessageSize).1.buf.length + routedHeaderLen =
        f.data.length := by
      rw [hdeliver, Mem.length_load, hn, routedHeaderLen]
      omega
    have hfirst : ((peeked s f).deliver f.storedLen meshMessageSize).1.buf[0]? =
        some ((peeked s f).tmpMessage 5) := by
      rw [hdeliver, hn]
      show ((peeked s f).tmpMessage.load 5 (f.data.length - 5))[0]? = _
      rw [List.getElem?_eq_getElem (by rw [Mem.length_load]; omega), Mem.getElem_load]
    rw [recvfromAck_here h hh, within_handleReceived hlen hmax hmin, hfirst, hdeliver,
      ((deliver_grows _ _ (by decide)).mono hhdr).within_iff, Option.some_inj]
    show _ ∧ (_ → _ → _ → (peeked s f).tmpMessage 1 = (peeked s f).thisAddress) ↔ _
    rw [hthis]
  · rw [recvfromAck_away h hh, ((forward_grows (routeFuel_grows 2) _ _).mono hhdr).within_iff]
    refine ⟨fun hw => ⟨hw, fun h0 => absurd (.inr h0) hh⟩, fun hw => hw.1⟩

/-- **A call of `recvfromAck` stays within the frame exactly if the frame is
complete, or not taken from the link.** -/
theorem readsWithin_iff (link : List Frame → LinkAnswer) (s : RHMesh) (f : Frame) (len : UInt8)
    (hmax : f.data.length ≤ maxMessageLen) :
    ReadsWithin link s f len ↔ (s.Takes f → Complete s.thisAddress f) := by
  have hskip : ∀ h : ¬ s.Takes f, ReadsWithin link s f len := by
    intro h
    rw [ReadsWithin, recvfromAck_of_not_takes (s := { s with accesses := [] }) h]
    intro a ha
    exact absurd ha List.not_mem_nil
  by_cases htakes : s.Takes f
  · have htakes' : RHRouter.Takes { s with accesses := [] } f := htakes
    by_cases hmin : 5 < f.data.length
    · have hpeek := within_peeked (s := s) hmin hmax
      rw [ReadsWithin, within_recvfromAck htakes' len hmin hmax, hpeek]
      constructor
      · rintro ⟨⟨hresp, hfail⟩, hreq⟩ _
        exact ⟨hmin, hresp, hfail, hreq⟩
      · intro h
        obtain ⟨-, hresp, hfail, hreq⟩ := h htakes
        exact ⟨⟨hresp, hfail⟩, hreq⟩
    · refine iff_of_false (not_within_of_short htakes' len (not_lt.mp hmin)) ?_
      intro h
      exact hmin (h htakes).msgType
  · exact iff_of_true (hskip htakes) fun h => absurd h htakes

/-- Node 2 hears, from its neighbour 4, its neighbour's own broadcast. -/
theorem greeting_readsWithin :
    ReadsWithin silentLink (constructed 2 fun _ => 0)
      ⟨broadcastAddress, 4, 1, flagsNone, [255, 4, 0, 0, 0, 0, 42]⟩ 250 := by
  refine (readsWithin_iff silentLink (constructed 2 fun _ => 0)
    ⟨broadcastAddress, 4, 1, flagsNone, [255, 4, 0, 0, 0, 0, 42]⟩ 250 (by decide)).mpr ?_
  intro _
  refine ⟨by decide, fun h => absurd h (by decide), fun h => absurd h (by decide), ?_⟩
  intro _ h
  exact absurd h (by decide)

/-- Node 2 relays the response of node 5 to node 1, whose request went through
2 and 4: it skips the entry of 4, and takes the octet behind the list, left
over in its buffer, for a node whose next hop is 4. -/
theorem relayedResponse_overread :
    ¬ ReadsWithin silentLink (constructed 2 fun _ => 0)
        ⟨2, 4, 1, flagsNone, [1, 5, 0, 0, 0, 2, 1, 5, 2, 4]⟩ 250 ∧
      (peeked (constructed 2 fun _ => 0)
        ⟨2, 4, 1, flagsNone, [1, 5, 0, 0, 0, 2, 1, 5, 2, 4]⟩).routes.nextHop 0 = some 4 := by
  refine ⟨?_, by decide⟩
  intro h
  have := h (.octet 10) (by decide)
  exact absurd this (by decide)

end RHMesh
