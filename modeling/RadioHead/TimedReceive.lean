/-
How much of a message `recvfromAckTimeout` copies.

`*len` says how much room there is, and how much has been copied.  Every
message received writes it, also one that is discarded: an acknowledgement, or
a message that has been received already.  `recvfromAckTimeout` goes on with
what it finds there, so a short message that is discarded leaves that much room
for the next one.

* `Pointees.recv_eq_recv` — what the driver copies;
* `Receives` — a call receives some messages and discards them, and then a new
  one;
* `recvfromAckTimeout_returns_iff` — then it returns true, and only then;
* `untruncated_iff` — the message is copied as far as there was room at first,
  exactly if no message discarded is shorter.
-/
import RadioHead.Reception
import RadioHead.TimedDatagram

open Polling

theorem Pointees.recv_len {p : Pointees} {f : Frame} (hf : f.data.length ≤ maxMessageLen) :
    (p.recv f).len.toNat = min p.len.toNat f.data.length := by
  have hlen : (UInt8.ofNat (headerLen + f.data.length)).toNat = headerLen + f.data.length :=
    UInt8.toNat_ofNat_of_lt' (by
      rw [maxMessageLen] at hf
      show 4 + f.data.length < 256
      omega)
  show (RF95.clampLen p.len (UInt8.ofNat (headerLen + f.data.length))).toNat = _
  rw [RF95.clampLen_toNat (by rw [hlen, headerLen]; omega), hlen, Nat.add_sub_cancel_left]

theorem Pointees.recv_buf {p : Pointees} {f : Frame} (hf : f.data.length ≤ maxMessageLen) :
    (p.recv f).buf.load 0 (p.recv f).len.toNat = f.data.take (p.recv f).len.toNat := by
  have hle : (p.recv f).len.toNat ≤ f.data.length := (recv_len hf).trans_le (Nat.min_le_right _ _)
  have hself := Mem.load_write_self p.buf 0 (f.data.take (p.recv f).len.toNat)
  rwa [List.length_take, Nat.min_eq_left hle] at hself

/-- It is the driver's `recv` of the message in its buffer. -/
theorem Pointees.recv_eq_recv {d : RF95 World} {p : Pointees} {f : Frame}
    (hf : f.data.length ≤ maxMessageLen) (hany : d.available.1 = true)
    (h : d.available.2.Buffered
      ([f.headerTo, f.headerFrom, f.headerId, f.headerFlags] ++ f.data)) :
    (d.recv (some p.len)).1 = some ((p.recv f).buf.load 0 (p.recv f).len.toNat) := by
  have hrecv := (h.recv hany (some p.len)).1
  rw [Option.elim_some] at hrecv
  rw [hrecv, recv_buf hf, recv_len hf, List.take_eq_take_min]
  rfl

namespace TimedDatagram

/-- The message is none that `recvfromAck` discards. -/
def Fresh (s : TimedDatagram) (f : Frame) : Prop :=
  ¬ f.IsAck ∧ f.headerId ≠ s.seenIds f.headerFrom

instance (s : TimedDatagram) (f : Frame) : Decidable (s.Fresh f) :=
  inferInstanceAs (Decidable (_ ∧ _))

/-- The call receives the messages `fs`, none of them new, and then the new
message `f`, all in time. -/
def Receives (s : TimedDatagram) (timeout : UInt16) (start : ℕ) (polls : List Poll)
    (fs : List Frame) (f : Frame) : Prop :=
  ∃ pre q rest, polls = pre ++ q :: rest ∧ pre.filterMap (·.heard) = fs ∧ q.heard = some f ∧
    (∀ x ∈ pre, x.inTime timeout start = true) ∧ q.inTime timeout start = true ∧
    (∀ g ∈ fs, ¬ s.Fresh g) ∧ s.Fresh f

/-- When the call returns true, the message is copied as far as there was room
when it started. -/
def Untruncated (s : TimedDatagram) (p : Pointees) (timeout : UInt16) (start : ℕ)
    (polls : List Poll) : Prop :=
  ∀ fs f r, s.Receives timeout start polls fs f →
    s.recvfromAckTimeout p timeout start polls = (some true, r) →
    r.1.len.toNat = min p.len.toNat f.data.length ∧
      r.1.buf.load 0 r.1.len.toNat = f.data.take (min p.len.toNat f.data.length)

section Receive

variable {s : TimedDatagram} {p : Pointees} {timeout : UInt16} {start : ℕ} {polls : List Poll}

/-- The acknowledgement, if there is one, leaves the numbers seen. -/
theorem acknowledged_seenIds (s : TimedDatagram) (f : Frame) :
    (if f.headerTo ≠ broadcastAddress then s.acknowledge f else s).seenIds = s.seenIds := by
  split_ifs <;> rfl

/-- A message that is not new is discarded, after it has been copied. -/
theorem recvfromAck_of_not_fresh {f : Frame} (h : ¬ s.Fresh f) (p : Pointees) :
    (s.recvfromAck p (some f)).1 = false ∧ (s.recvfromAck p (some f)).2.1 = p.recv f ∧
      (s.recvfromAck p (some f)).2.2.seenIds = s.seenIds := by
  rw [recvfromAck]
  dsimp only
  by_cases hack : f.IsAck
  · rw [if_pos hack]
    exact ⟨rfl, rfl, rfl⟩
  · -- acknowledged, but it has been received before
    have hseen : ¬ f.headerId ≠ s.seenIds f.headerFrom := fun hne => h ⟨hack, hne⟩
    rw [if_neg hack, acknowledged_seenIds, if_neg hseen]
    exact ⟨rfl, rfl, acknowledged_seenIds s f⟩

/-- A new one is returned. -/
theorem recvfromAck_of_fresh {f : Frame} (h : s.Fresh f) (p : Pointees) :
    (s.recvfromAck p (some f)).1 = true ∧
      (s.recvfromAck p (some f)).2.1 = (p.recv f).setHeaders f := by
  rw [recvfromAck]
  dsimp only
  rw [if_neg h.1, acknowledged_seenIds, if_pos h.2]
  exact ⟨rfl, rfl⟩

/-- In this turn a new message is received. -/
def isNewPoll (s : TimedDatagram) (q : Poll) : Bool := q.heard.any fun f => s.Fresh f

theorem isNewPoll_of_heard {q : Poll} {f : Frame} (h : q.heard = some f) :
    s.isNewPoll q = decide (s.Fresh f) := by
  rw [isNewPoll, h, Option.any_some]

theorem isNewPoll_congr {t : TimedDatagram} (h : t.seenIds = s.seenIds) :
    t.isNewPoll = s.isNewPoll := by
  funext q
  rw [isNewPoll, isNewPoll]
  congr 1
  funext f
  refine decide_eq_decide.mpr ?_
  rw [Fresh, Fresh, h]

/-- A turn of the loop. -/
abbrev receive (r : Pointees × TimedDatagram) (q : Poll) : Bool × Pointees × TimedDatagram :=
  r.2.recvfromAck r.1 q.heard

/-- A turn without a new message: the room is what is left after the message. -/
theorem receive_quiet {q : Poll} (h : s.isNewPoll q = false) (p : Pointees) :
    (receive (p, s) q).1 = false ∧ (receive (p, s) q).2.1 = q.heard.toList.foldl Pointees.recv p ∧
      (receive (p, s) q).2.2.seenIds = s.seenIds := by
  show (s.recvfromAck p q.heard).1 = false ∧ _
  rcases hq : q.heard with _ | f
  · rw [receive, hq]
    exact ⟨rfl, rfl, rfl⟩
  · rw [isNewPoll_of_heard hq, decide_eq_false_iff_not] at h
    rw [receive, hq]
    exact recvfromAck_of_not_fresh h p

theorem receive_decides (s : TimedDatagram) :
    Decides receive (fun r => r.2.seenIds = s.seenIds) s.isNewPoll where
  result r q hr := by
    rcases hq : s.isNewPoll q with _ | _
    · exact (receive_quiet (s := r.2) (isNewPoll_congr hr ▸ hq) r.1).1
    · rw [isNewPoll, Option.any_eq_true] at hq
      obtain ⟨f, hheard, hf⟩ := hq
      have hfresh : r.2.Fresh f := by
        rw [Fresh, hr]
        exact of_decide_eq_true hf
      rw [receive, hheard]
      exact (recvfromAck_of_fresh hfresh r.1).1
  keep r q hr hq := (receive_quiet (s := r.2) (isNewPoll_congr hr ▸ hq) r.1).2.2.trans hr

/-- After turns without a new message. -/
theorem pass_receive {ps : List Poll} :
    ∀ {s : TimedDatagram} (p : Pointees), (∀ q ∈ ps, s.isNewPoll q = false) →
      (pass receive (p, s) ps).1 = (ps.filterMap (·.heard)).foldl Pointees.recv p ∧
        (pass receive (p, s) ps).2.seenIds = s.seenIds := by
  induction ps with
  | nil => exact fun _ _ => ⟨rfl, rfl⟩
  | cons q ps ih =>
    intro s p hps
    rw [List.forall_mem_cons] at hps
    obtain ⟨-, hp, hseen⟩ := receive_quiet hps.1 p
    obtain ⟨hrest, hseen'⟩ := ih (s := (receive (p, s) q).2.2) (receive (p, s) q).2.1 (by
      rw [isNewPoll_congr hseen]
      exact hps.2)
    have hheard : (q :: ps).filterMap (·.heard) = q.heard.toList ++ ps.filterMap (·.heard) := by
      rw [List.filterMap_cons]
      cases q.heard <;> rfl
    rw [hheard, List.foldl_append, ← hp]
    exact ⟨hrest, hseen'.trans hseen⟩

/-- The turns that the loop passes are those with the messages discarded, the
one that ends it is that with the new message. -/
theorem receives_iff {fs : List Frame} {f : Frame} :
    s.Receives timeout start polls fs f ↔
      ∃ q, ending (Poll.inTime timeout start) s.isNewPoll polls = some q ∧
        q.inTime timeout start = true ∧ q.heard = some f ∧ s.Fresh f ∧
        (passed (Poll.inTime timeout start) s.isNewPoll polls).filterMap (·.heard) = fs := by
  constructor
  · rintro ⟨pre, q, rest, rfl, hfs, hf, htime, hqtime, hquiet, hfresh⟩
    have hdone : s.isNewPoll q = true := by
      rw [isNewPoll_of_heard hf]
      exact decide_eq_true hfresh
    have hsplit : passed (Poll.inTime timeout start) s.isNewPoll (pre ++ q :: rest) = pre ∧
        ending (Poll.inTime timeout start) s.isNewPoll (pre ++ q :: rest) = some q := by
      refine split_iff.mpr ⟨⟨rest, rfl⟩, ?_, fun h => Bool.false_ne_true (h.2.symm.trans hdone)⟩
      intro x hx
      refine ⟨htime x hx, ?_⟩
      rcases hxh : x.heard with _ | g
      · rw [isNewPoll, hxh]
        rfl
      · rw [isNewPoll_of_heard hxh]
        exact decide_eq_false (hquiet g (hfs ▸ List.mem_filterMap.mpr ⟨x, hx, hxh⟩))
    exact ⟨q, hsplit.2, hqtime, hf, hfresh, by rw [hsplit.1, hfs]⟩
  · rintro ⟨q, he, hqtime, hf, hfresh, hfs⟩
    obtain ⟨⟨rest, hrest⟩, hall, -⟩ := split_iff.mp ⟨rfl, he⟩
    refine ⟨_, q, rest, hrest, hfs, hf, fun x hx => (hall x hx).1, hqtime, ?_, hfresh⟩
    intro g hg
    rw [← hfs] at hg
    obtain ⟨x, hx, hxg⟩ := List.mem_filterMap.mp hg
    have := (hall x hx).2
    rw [isNewPoll_of_heard hxg] at this
    exact of_decide_eq_false this

/-- **A call returns true exactly if it receives a new message in time**, after
messages that it discards. -/
theorem recvfromAckTimeout_returns_iff {r : Pointees} :
    (∃ t, s.recvfromAckTimeout p timeout start polls = (some true, r, t)) ↔
      ∃ fs f, s.Receives timeout start polls fs f ∧
        r = ((fs.foldl Pointees.recv p).recv f).setHeaders f := by
  set inTime := Poll.inTime timeout start with hinTime
  set done := s.isNewPoll with hdone
  have hloop : loop inTime receive (p, s) polls = _ := loop_eq (receive_decides s) polls rfl
  have hpass := pass_receive (s := s) p fun q (hq : q ∈ passed inTime done polls) =>
    done_of_mem_passed hq
  have hcall : s.recvfromAckTimeout p timeout start polls = loop inTime receive (p, s) polls := rfl
  -- the last turn leaves the new message in the buffer the others have written
  have hlast : ∀ {q f}, q.heard = some f → s.Fresh f →
      (receive (pass receive (p, s) (passed inTime done polls)) q).2.1 =
        ((((passed inTime done polls).filterMap (·.heard)).foldl Pointees.recv p).recv f).setHeaders
          f := by
    intro q f hf hfresh
    have hfresh' : (pass receive (p, s) (passed inTime done polls)).2.Fresh f := by
      rw [Fresh, hpass.2]
      exact hfresh
    rw [receive, hf, (recvfromAck_of_fresh hfresh' _).2, hpass.1]
  rw [hcall, hloop]
  constructor
  · rintro ⟨t, h⟩
    rcases he : ending inTime done polls with _ | q
    · rw [he] at h
      cases h
    · rw [he] at h
      dsimp only at h
      split_ifs at h with htime
      · obtain ⟨-, -, hend⟩ := split_iff.mp ⟨rfl, he⟩
        have hnew : done q = true := by
          by_contra hd
          exact hend ⟨htime, Bool.eq_false_iff.mpr hd⟩
        rw [hdone, isNewPoll, Option.any_eq_true] at hnew
        obtain ⟨f, hf, hfresh⟩ := hnew
        have hfresh := of_decide_eq_true hfresh
        refine ⟨_, f, receives_iff.mpr ⟨q, he, htime, hf, hfresh, rfl⟩, ?_⟩
        rw [← hlast hf hfresh]
        exact (congrArg (fun x : Option Bool × Pointees × TimedDatagram => x.2.1) h).symm
      · cases (Prod.mk.inj h).1
  · rintro ⟨fs, f, hreceives, rfl⟩
    obtain ⟨q, he, htime, hf, hfresh, rfl⟩ := receives_iff.mp hreceives
    rw [← hlast hf hfresh, he]
    dsimp only
    rw [if_pos htime]
    exact ⟨_, rfl⟩

/-- The room that messages discarded leave. -/
theorem le_len_foldl {fs : List Frame} {n : ℕ} :
    ∀ {p : Pointees}, (∀ g ∈ fs, g.data.length ≤ maxMessageLen) →
      (n ≤ (fs.foldl Pointees.recv p).len.toNat ↔
        n ≤ p.len.toNat ∧ ∀ g ∈ fs, n ≤ g.data.length) := by
  induction fs with
  | nil => simp
  | cons f fs ih =>
    intro p hfs
    rw [List.forall_mem_cons] at hfs
    rw [List.foldl_cons, ih hfs.2, Pointees.recv_len hfs.1, le_min_iff, List.forall_mem_cons,
      and_assoc]

/-- **Discarded messages truncate the one that is returned** exactly if one of
them is shorter than what would be copied of it. -/
theorem untruncated_iff (s : TimedDatagram) (p : Pointees) (timeout : UInt16) (start : ℕ)
    {polls : List Poll} (hsize : ∀ q ∈ polls, ∀ g ∈ q.heard, g.data.length ≤ maxMessageLen) :
    s.Untruncated p timeout start polls ↔
      ∀ fs f, s.Receives timeout start polls fs f →
        ∀ g ∈ fs, min p.len.toNat f.data.length ≤ g.data.length := by
  refine forall_congr' fun fs => forall_congr' fun f => ?_
  by_cases h : s.Receives timeout start polls fs f
  swap
  · exact iff_of_true (fun _ h' => absurd h' h) fun h' => absurd h' h
  obtain ⟨t, hcall⟩ := (recvfromAckTimeout_returns_iff (p := p)).mpr ⟨fs, f, h, rfl⟩
  have hheard : (∀ g ∈ fs, g.data.length ≤ maxMessageLen) ∧ f.data.length ≤ maxMessageLen := by
    obtain ⟨pre, q, rest, rfl, rfl, hf, -⟩ := h
    constructor
    · intro g hg
      obtain ⟨x, hx, hxg⟩ := List.mem_filterMap.mp hg
      exact hsize x (List.mem_append_left _ hx) g hxg
    · exact hsize q (List.mem_append_right _ List.mem_cons_self) f hf
  set left := fs.foldl Pointees.recv p with hleft
  have hroom : ∀ n, n ≤ left.len.toNat ↔ n ≤ p.len.toNat ∧ ∀ g ∈ fs, n ≤ g.data.length :=
    fun n => le_len_foldl hheard.1
  have hkey : (left.recv f).len.toNat = min p.len.toNat f.data.length ↔
      ∀ g ∈ fs, min p.len.toNat f.data.length ≤ g.data.length := by
    have hmin := hroom (min p.len.toNat f.data.length)
    have hle := ((hroom left.len.toNat).mp le_rfl).1
    rw [Pointees.recv_len hheard.2]
    constructor
    · intro heq
      exact (hmin.mp (heq.ge.trans (Nat.min_le_left _ _))).2
    · intro hall
      have := hmin.mpr ⟨Nat.min_le_left _ _, hall⟩
      omega
  constructor
  · intro hall _
    exact hkey.mp (hall _ h hcall).1
  · intro hshort r _ hr
    obtain rfl : r = ((left.recv f).setHeaders f, t) :=
      (Prod.mk.inj (hr.symm.trans hcall)).2
    have hlen := hkey.mpr (hshort h)
    have hbuf := Pointees.recv_buf (p := left) hheard.2
    refine ⟨hlen, hbuf.trans ?_⟩
    rw [hlen]

/-- What a call starts with: room for 20 octets. -/
def room : Pointees := ⟨fun _ => 0, 20, 0, 0, 0, 0⟩

/-- A message of five octets from node 2 to node 1, one that node 1 takes for a
repetition, and a late acknowledgement of one octet. -/
def message : Frame := ⟨1, 2, 7, 0, [10, 11, 12, 13, 14]⟩

def repetition : Frame := ⟨1, 3, 0, 0, [20, 21, 22, 23, 24, 25]⟩

def lateAck : Frame := ⟨1, 3, 4, flagsAck, [0x21]⟩

theorem message_untruncated :
    (constructed 1).Untruncated room 100 0 [⟨10, some repetition⟩, ⟨20, some message⟩] := by
  refine (untruncated_iff _ _ _ _ (by decide)).mpr ?_
  have hlong : ∀ g ∈ [repetition, message], ¬ (constructed 1).Fresh g →
      ∀ f ∈ [repetition, message], min room.len.toNat f.data.length ≤ g.data.length := by decide
  rintro fs f ⟨pre, q, rest, heq, rfl, hf, -, -, hquiet, -⟩ g hg
  have hheard : (pre ++ q :: rest).filterMap (·.heard) = [repetition, message] :=
    congrArg (List.filterMap (·.heard)) heq.symm
  refine hlong g ?_ (hquiet g hg) f ?_
  · rw [← hheard, List.filterMap_append]
    exact List.mem_append_left _ hg
  · rw [← hheard]
    exact List.mem_filterMap.mpr ⟨q, List.mem_append_right _ List.mem_cons_self, hf⟩

/-- After a late acknowledgement the message is returned with one octet. -/
theorem lateAck_truncates :
    ¬ (constructed 1).Untruncated room 100 0 [⟨10, some lateAck⟩, ⟨20, some message⟩] := by
  intro h
  have hreceives : (constructed 1).Receives 100 0 [⟨10, some lateAck⟩, ⟨20, some message⟩]
      [lateAck] message :=
    ⟨[⟨10, some lateAck⟩], ⟨20, some message⟩, [], rfl, rfl, rfl, by decide, by decide, by decide,
      by decide⟩
  obtain ⟨t, hcall⟩ := recvfromAckTimeout_returns_iff.mpr ⟨_, _, hreceives, rfl⟩
  have hlen : ((([lateAck].foldl Pointees.recv room).recv message).setHeaders message).len.toNat =
      min room.len.toNat message.data.length := (h _ _ _ hreceives hcall).1
  exact absurd hlen (by decide)

end Receive

end TimedDatagram
