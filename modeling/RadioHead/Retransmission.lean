/-
How often `sendtoWait` transmits, and when.

The loop of `sendtoWait` counts its transmissions in eight bits and compares the
count with `_retries`, which may be any number of eight bits; the time it waits
is computed with more bits than it is stored in; and what the driver says to the
message is not looked at.

* `Bounded`, `bounded_iff` — the numbers of transmissions and retransmissions,
  and that the loop ends: with 255 retries it need not;
* `Honest`, `honest_iff` — a message that is said to be acknowledged has been on
  the air, unless it is too long for the driver;
* `Spaced`, `spaced_iff` — the time between two transmissions is between the
  timeout and twice the timeout, unless this has more than 16 bits.
-/
import RadioHead.TimedDatagram

namespace TimedDatagram

variable {address seq retries : UInt8} {buf : List UInt8} {s t : TimedDatagram}

/-! ### The course of a call -/

/-- A call that has returned does not depend on what comes later. -/
theorem attempts_append {result : Bool} {as : List Attempt} (bs : List Attempt) :
    ∀ {retries : UInt8} {s : TimedDatagram},
      attempts address seq buf as retries s = (some result, t) →
        attempts address seq buf (as ++ bs) retries s = (some result, t) := by
  induction as with
  | nil =>
    intro retries s h
    by_cases hretries : retries ≤ s.retries
    · rw [attempts, if_pos hretries] at h
      cases h
    · rw [attempts_exhausted hretries] at h ⊢
      exact h
  | cons a as ih =>
    intro retries s h
    rw [List.cons_append]
    by_cases hretries : retries ≤ s.retries
    · -- with more attempts at hand the same branch is taken
      rw [attempts, if_pos hretries] at h ⊢
      dsimp only at h ⊢
      split_ifs at h ⊢
      · exact h
      · split at h
        · exact ih h
        · exact h
    · rw [attempts_exhausted hretries] at h ⊢
      exact h

/-- What the first `n` of all transmissions meet with. -/
def upTo (A : ℕ → Attempt) (n : ℕ) : List Attempt := (List.range n).map A

theorem upTo_succ (A : ℕ → Attempt) (n : ℕ) : upTo A (n + 1) = upTo A n ++ [A n] := by
  rw [upTo, List.range_succ, List.map_append, upTo, List.map_singleton]

theorem getElem?_upTo {A : ℕ → Attempt} {n i : ℕ} {a : Attempt} :
    (upTo A n)[i]? = some a ↔ i < n ∧ A i = a := by
  rw [upTo, List.getElem?_map, Option.map_eq_some_iff]
  constructor
  · rintro ⟨j, hj, rfl⟩
    obtain ⟨hlt, rfl⟩ := List.getElem?_eq_some_iff.mp hj
    rw [List.length_range] at hlt
    exact ⟨hlt, by rw [List.getElem_range]⟩
  · rintro ⟨hlt, rfl⟩
    exact ⟨i, List.getElem?_range hlt, rfl⟩

theorem upTo_add (A : ℕ → Attempt) (m n : ℕ) : ∃ as, upTo A (m + n) = upTo A m ++ as :=
  ⟨_, by rw [upTo, List.range_add, List.map_append, upTo]⟩

/-- A call returns once. -/
theorem sendtoWait_unique {A : ℕ → Attempt} {m n : ℕ} {r r' : Bool} {t' : TimedDatagram}
    (h : s.sendtoWait buf address (upTo A m) = (some r, t))
    (h' : s.sendtoWait buf address (upTo A n) = (some r', t')) : r = r' ∧ t = t' := by
  have hlonger : ∀ {m n : ℕ} {r r' : Bool} {t t' : TimedDatagram}, m ≤ n →
      s.sendtoWait buf address (upTo A m) = (some r, t) →
      s.sendtoWait buf address (upTo A n) = (some r', t') → r = r' ∧ t = t' := by
    intro m n r r' t t' hle h h'
    obtain ⟨d, rfl⟩ := Nat.exists_eq_add_of_le hle
    obtain ⟨as, has⟩ := upTo_add A m d
    rw [sendtoWait, has] at h'
    have := (attempts_append as h).symm.trans h'
    rw [Prod.mk.injEq, Option.some_inj] at this
    exact this
  rcases le_total m n with hle | hle
  · exact hlonger hle h h'
  · obtain ⟨hr, ht⟩ := hlonger hle h' h
    exact ⟨hr.symm, ht.symm⟩

/-- The count of the transmissions, in eight bits. -/
theorem count_le {r : UInt8} {n : ℕ} (h : n ≤ r.toNat ∨ r = 255) : UInt8.ofNat n ≤ r := by
  have hmod : (UInt8.ofNat n).toNat = n % 256 := UInt8.toNat_ofNat'
  rw [UInt8.le_iff_toNat_le]
  rcases h with h | rfl
  · rw [hmod]
    exact (Nat.mod_le n 256).trans h
  · exact Nat.le_of_lt_succ (UInt8.ofNat n).toNat_lt

/-- Which transmissions count as retransmissions. -/
theorem one_lt_count {n : ℕ} (h : n ≤ 255) : 1 < UInt8.ofNat n + 1 ↔ 1 ≤ n ∧ n < 255 := by
  have hmod : (UInt8.ofNat n).toNat = n := UInt8.toNat_ofNat_of_lt' (show n < 256 by omega)
  rw [UInt8.lt_iff_toNat_lt, UInt8.toNat_add, hmod]
  show 1 < (n + 1) % 256 ↔ _
  omega

/-- **Transmissions without an acknowledgement**: each is followed by the next. -/
theorem unanswered_run (seq : UInt8) (buf : List UInt8) (haddr : address ≠ broadcastAddress)
    {A : ℕ → Attempt} {n : ℕ}
    (hA : ∀ j < n, s.Unanswered address seq (A j))
    (hn : n ≤ s.retries.toNat + 1 ∨ s.retries = 255) :
    ∃ t, Alike s t ∧
      (∀ rest, attempts address seq buf (upTo A n ++ rest) 0 s =
        attempts address seq buf rest (UInt8.ofNat n) t) ∧
      t.messages = s.messages + (if buf.length ≤ maxMessageLen then n else 0) ∧
      (n ≤ 255 → t.retransmissions = s.retransmissions + UInt32.ofNat (n - 1)) := by
  induction n with
  | zero =>
    refine ⟨s, .refl s, fun _ => rfl, by simp, fun _ => ?_⟩
    exact (UInt32.add_zero _).symm
  | succ n ih =>
    obtain ⟨t, halike, hrun, hmessages, hretrans⟩ := ih (fun j hj => hA j (by omega))
      (hn.imp_left (by omega))
    -- one transmission more
    have hle : UInt8.ofNat n ≤ t.retries :=
      count_le (halike.retries ▸ hn.imp_left (by omega))
    obtain ⟨hanswered, hexpires⟩ := (halike.unanswered _).mpr (hA n (Nat.lt_succ_self n))
    obtain ⟨u, hround, hnext⟩ := attempts_cons seq buf hle haddr (A n)
    refine ⟨u, halike.trans hround.alike, ?_, ?_, ?_⟩
    · intro rest
      rw [upTo_succ, List.append_assoc, hrun, List.singleton_append, hnext, if_neg hanswered,
        if_pos hexpires, UInt8.ofNat_add]
      rfl
    · rw [hround.messages, hmessages]
      split_ifs <;> omega
    · intro h255
      rw [hround.retransmissions, hretrans (by omega), if_congr (one_lt_count (by omega)) rfl rfl,
        UInt32.add_assoc]
      congr 1
      rcases n with _ | n
      · rfl
      · rw [if_pos (by omega)]
        exact (UInt32.ofNat_add n 1).symm

/-! ### The number of transmissions -/

/-- The call returns `result`, after the message has been transmitted `n` times
and `k` retransmissions have been counted. -/
def Returns (s : TimedDatagram) (buf : List UInt8) (address : UInt8) (A : ℕ → Attempt)
    (result : Bool) (n k : ℕ) : Prop :=
  ∃ m t, s.sendtoWait buf address (upTo A m) = (some result, t) ∧ Grows (Sends buf address) s t ∧
    t.messages = s.messages + n ∧ t.retransmissions = s.retransmissions + UInt32.ofNat k

/-- The acknowledgement comes after the `k`-th transmission, and not before. -/
def AckedAfter (s : TimedDatagram) (address : UInt8) (A : ℕ → Attempt) (k : ℕ) : Prop :=
  1 ≤ k ∧ s.Answered address (s.lastSequenceNumber + 1) (A (k - 1)) ∧
    ∀ j < k - 1, s.Unanswered address (s.lastSequenceNumber + 1) (A j)

/-- The number of transmissions is what the number of retries, or the
acknowledgement, makes it. -/
structure Bounded (s : TimedDatagram) (buf : List UInt8) (address : UInt8) (A : ℕ → Attempt) :
    Prop where
  unacked : (∀ j ≤ s.retries.toNat, ¬ s.Answered address (s.lastSequenceNumber + 1) (A j)) →
    s.Returns buf address A false (s.retries.toNat + 1) s.retries.toNat
  acked : ∀ k ≤ s.retries.toNat + 1, s.AckedAfter address A k →
    s.Returns buf address A true k (k - 1)

/-- The first acknowledgement comes once. -/
theorem AckedAfter.unique {A : ℕ → Attempt} {k k' : ℕ} (h : s.AckedAfter address A k)
    (h' : s.AckedAfter address A k') : k = k' := by
  have hnot : ∀ {k k' : ℕ}, s.AckedAfter address A k → s.AckedAfter address A k' → ¬ k < k' := by
    intro k k' h h' hlt
    exact (h'.2.2 (k - 1) (by have := h.1; omega)).1 h.2.1
  exact le_antisymm (Nat.not_lt.mp (hnot h' h)) (Nat.not_lt.mp (hnot h h'))

/-- With 255 retries the loop does not give up. -/
theorem never_gives_up (address seq : UInt8) (buf : List UInt8) (as : List Attempt) :
    ∀ (retries : UInt8) {s : TimedDatagram}, s.retries = 255 →
      (attempts address seq buf as retries s).1 ≠ some false := by
  have hle : ∀ {retries : UInt8} {s : TimedDatagram}, s.retries = 255 → retries ≤ s.retries := by
    intro retries s h
    rw [h, UInt8.le_iff_toNat_le]
    exact Nat.le_of_lt_succ retries.toNat_lt
  induction as with
  | nil =>
    intro retries s h
    rw [attempts, if_pos (hle h)]
    exact (Option.some_ne_none _).symm
  | cons a as ih =>
    intro retries s h
    by_cases haddr : address = broadcastAddress
    · subst haddr
      rw [attempts_broadcast (hle h)]
      exact (Option.some_injective _).ne (by decide)
    · obtain ⟨t, hround, hnext⟩ := attempts_cons seq buf (hle h) haddr a
      rw [hnext]
      split_ifs
      · exact (Option.some_injective _).ne (by decide)
      · exact ih _ (hround.alike.retries.trans h)
      · exact (Option.some_ne_none _).symm

/-- The acknowledgement after the `k`-th transmission ends the call.  The 256th
is not counted as a retransmission. -/
theorem returns_acked (buf : List UInt8) (haddr : address ≠ broadcastAddress) {A : ℕ → Attempt}
    {k : ℕ}
    (hk : k ≤ s.retries.toNat + 1 ∨ s.retries = 255) (h : s.AckedAfter address A k) :
    ∃ t, s.sendtoWait buf address (upTo A k) = (some true, t) ∧ Grows (Sends buf address) s t ∧
      t.messages = s.messages + (if buf.length ≤ maxMessageLen then k else 0) ∧
      (k ≤ 256 → t.retransmissions =
        s.retransmissions + UInt32.ofNat (if k < 256 then k - 1 else 254)) := by
  obtain ⟨hpos, hanswered, hbefore⟩ := h
  obtain ⟨n, rfl⟩ := Nat.exists_eq_add_of_le' hpos
  rw [Nat.add_sub_cancel] at hanswered hbefore
  have hn : n ≤ s.retries.toNat ∨ s.retries = 255 := hk.imp_left (by omega)
  set s₁ : TimedDatagram := { s with lastSequenceNumber := s.lastSequenceNumber + 1 } with hs₁
  obtain ⟨t, halike, hrun, hmessages, hretrans⟩ := unanswered_run (s := s₁) _ buf haddr
    hbefore (hn.imp_left Nat.le_succ_of_le)
  obtain ⟨u, hround, hnext⟩ := attempts_cons (s.lastSequenceNumber + 1) buf
    (count_le (halike.retries ▸ hn)) haddr (A n)
  have hcall : s.sendtoWait buf address (upTo A (n + 1)) = (some true, u) := by
    rw [sendtoWait, upTo_succ, hrun, hnext, if_pos ((halike.answered _).mpr hanswered)]
  refine ⟨u, hcall, ?_, ?_, ?_⟩
  · have hgrows := attempts_grows address (s.lastSequenceNumber + 1) buf (upTo A (n + 1)) 0 s₁
    rw [sendtoWait] at hcall
    rw [hcall] at hgrows
    exact hgrows
  · rw [hround.messages, hmessages]
    show s.messages + _ + _ = _
    split_ifs <;> omega
  · intro h256
    rw [hround.retransmissions, hretrans (by omega), if_congr (one_lt_count (by omega)) rfl rfl,
      UInt32.add_assoc]
    congr 1
    rcases n with _ | n
    · rfl
    · -- the count wraps to 0 with the 256th transmission
      by_cases hlt : n + 1 < 255
      · rw [if_pos (by omega), if_pos (by omega)]
        exact (UInt32.ofNat_add n 1).symm
      · obtain rfl : n = 254 := by omega
        rfl

/-- If there is an acknowledgement, one is the first. -/
theorem exists_ackedAfter {A : ℕ → Attempt} (hexpires : ∀ j, s.Expires (A j)) {n : ℕ}
    (h : ∃ j ≤ n, s.Answered address (s.lastSequenceNumber + 1) (A j)) :
    ∃ k ≤ n + 1, s.AckedAfter address A k := by
  classical
  obtain ⟨hle, hanswered⟩ := Nat.find_spec h
  refine ⟨Nat.find h + 1, Nat.succ_le_succ hle, Nat.succ_pos _, hanswered, ?_⟩
  intro i hi
  have hlt : i < Nat.find h := hi
  exact ⟨fun hans => Nat.find_min h hlt ⟨by omega, hans⟩, hexpires i⟩

/-- Fewer than 255 retries, and no acknowledgement. -/
theorem returns_unacked (haddr : address ≠ broadcastAddress) (hlen : buf.length ≤ maxMessageLen)
    {A : ℕ → Attempt} (hexpires : ∀ j, s.Expires (A j)) (hretries : s.retries ≠ 255)
    (hack : ∀ j ≤ s.retries.toNat, ¬ s.Answered address (s.lastSequenceNumber + 1) (A j)) :
    s.Returns buf address A false (s.retries.toNat + 1) s.retries.toNat := by
  have hlt : s.retries.toNat < 255 := by
    have := s.retries.toNat_lt
    have hne : s.retries.toNat ≠ 255 := fun h => hretries (UInt8.toNat_inj.mp h)
    omega
  set s₁ : TimedDatagram := { s with lastSequenceNumber := s.lastSequenceNumber + 1 } with hs₁
  obtain ⟨t, halike, hrun, hmessages, hretrans⟩ := unanswered_run (s := s₁)
    (s.lastSequenceNumber + 1) buf haddr (n := s.retries.toNat + 1)
    (fun j hj => ⟨hack j (by omega), hexpires j⟩) (.inl le_rfl)
  have hover : ¬ UInt8.ofNat (s.retries.toNat + 1) ≤ t.retries := by
    have hmod : (UInt8.ofNat (s.retries.toNat + 1)).toNat = s.retries.toNat + 1 :=
      UInt8.toNat_ofNat_of_lt' (show s.retries.toNat + 1 < 256 by omega)
    rw [halike.retries, UInt8.le_iff_toNat_le, hmod]
    exact Nat.not_succ_le_self _
  have hcall : s.sendtoWait buf address (upTo A (s.retries.toNat + 1)) = (some false, t) := by
    have := hrun []
    rw [List.append_nil, attempts_exhausted hover] at this
    exact this
  have hgrows := attempts_grows address (s.lastSequenceNumber + 1) buf
    (upTo A (s.retries.toNat + 1)) 0 s₁
  rw [sendtoWait] at hcall
  rw [hcall] at hgrows
  rw [if_pos hlen] at hmessages
  exact ⟨_, t, hcall, hgrows, hmessages, hretrans (by omega)⟩

/-- **The number of transmissions is bounded by the retries**: but for 255
retries, unless an acknowledgement comes after one of the first 255
transmissions. -/
theorem bounded_iff (haddr : address ≠ broadcastAddress) (hlen : buf.length ≤ maxMessageLen)
    {A : ℕ → Attempt} (hexpires : ∀ j, s.Expires (A j)) :
    s.Bounded buf address A ↔ s.retries ≠ 255 ∨ ∃ k ≤ 255, s.AckedAfter address A k := by
  constructor
  · intro h
    by_contra hnot
    rw [not_or, not_not] at hnot
    obtain ⟨hretries, hlate⟩ := hnot
    by_cases hack : ∃ j ≤ s.retries.toNat, s.Answered address (s.lastSequenceNumber + 1) (A j)
    · -- the acknowledgement comes after the last transmission, which is not counted
      obtain ⟨k, hk, hfirst⟩ := exists_ackedAfter hexpires hack
      have hk256 : k = 256 := by
        rw [hretries] at hk
        have hle : k ≤ 256 := hk
        by_contra hne
        exact hlate ⟨k, by omega, hfirst⟩
      subst hk256
      obtain ⟨m, t, hcall, -, -, hcount⟩ := h.acked 256 hk hfirst
      obtain ⟨t', hcall', -, -, hcount'⟩ := returns_acked buf haddr (.inl hk) hfirst
      obtain ⟨-, rfl⟩ := sendtoWait_unique hcall hcall'
      rw [hcount' le_rfl] at hcount
      exact absurd ((UInt32.add_right_inj _).mp hcount) (by decide)
    · -- the loop does not give up
      obtain ⟨m, t, hcall, -⟩ := h.unacked fun j hj hans => hack ⟨j, hj, hans⟩
      have hnever := never_gives_up address (s.lastSequenceNumber + 1) buf (upTo A m) 0
        (s := { s with lastSequenceNumber := s.lastSequenceNumber + 1 }) hretries
      exact hnever (congrArg Prod.fst hcall)
  · intro h
    constructor
    · intro hack
      refine returns_unacked haddr hlen hexpires ?_ hack
      intro hretries
      rw [hretries] at hack
      obtain ⟨k, hk, -, hans, -⟩ := h.resolve_left (not_not.mpr hretries)
      exact hack (k - 1) (show k - 1 ≤ 255 by omega) hans
    · intro k hk hfirst
      have hk255 : k ≤ 255 := by
        rcases h with h | ⟨k', hk', hfirst'⟩
        · have hne : s.retries.toNat ≠ 255 := fun h' => h (UInt8.toNat_inj.mp h')
          have := s.retries.toNat_lt
          omega
        · rw [hfirst.unique hfirst']
          exact hk'
      obtain ⟨t, hcall, hgrows, hmessages, hcount⟩ :=
        returns_acked buf haddr (.inl hk) hfirst
      rw [if_pos hlen] at hmessages
      rw [if_pos (by omega)] at hcount
      exact ⟨k, t, hcall, hgrows, hmessages, hcount (by omega)⟩

/-- A node whose message is never acknowledged. -/
def silence : ℕ → Attempt := fun _ => ⟨0, 0, 0, [⟨500, none⟩]⟩

theorem default_bounded :
    (constructed 1).Bounded [1, 2, 3] 2 silence := by
  refine (bounded_iff (by decide) (by decide) fun _ => ?_).mpr (.inl (by decide))
  show Expires _ ⟨0, 0, 0, [⟨500, none⟩]⟩
  decide

/-- With 255 retries the call does not end. -/
theorem retries_255_endless :
    let s := { constructed 1 with retries := 255 }
    (∀ j, s.Expires (silence j)) ∧
      (∀ j, ¬ s.Answered 2 (s.lastSequenceNumber + 1) (silence j)) ∧
      ¬ s.Bounded [1, 2, 3] 2 silence := by
  refine ⟨fun _ => ?_, fun _ => ?_, ?_⟩
  · show Expires _ ⟨0, 0, 0, [⟨500, none⟩]⟩
    decide
  · show ¬ Answered _ _ _ ⟨0, 0, 0, [⟨500, none⟩]⟩
    decide
  · intro h
    obtain ⟨m, t, hcall, -⟩ := h.unacked fun j _ => by
      show ¬ Answered _ _ _ ⟨0, 0, 0, [⟨500, none⟩]⟩
      decide
    exact never_gives_up 2 1 [1, 2, 3] (upTo silence m) 0
      (s := { constructed 1 with retries := 255, lastSequenceNumber := 1 }) rfl
      (congrArg Prod.fst hcall)

/-! ### What is said to be acknowledged -/

/-- If the call returns true, the driver has put the message on the air. -/
def Honest (s : TimedDatagram) (buf : List UInt8) (address : UInt8) (A : ℕ → Attempt) : Prop :=
  ∀ m t, s.sendtoWait buf address (upTo A m) = (some true, t) →
    ∃ out, t.sent = s.sent ++ out ∧
      ∃ τ ∈ out, τ.cause = .message ∧ τ.frame.headerTo = address ∧ τ.frame.data = buf

theorem messages_of_sent {out : List Transmission} (h : t.sent = s.sent ++ out) :
    t.messages = s.messages + out.countP fun τ => τ.cause = .message := by
  rw [messages, h, List.countP_append, messages]

/-- A message is on the air if their number has grown. -/
theorem Grows.exists_message (h : Grows (Sends buf address) s t) (hlt : s.messages < t.messages) :
    ∃ out, t.sent = s.sent ++ out ∧
      ∃ τ ∈ out, τ.cause = .message ∧ τ.frame.headerTo = address ∧ τ.frame.data = buf := by
  obtain ⟨out, hsent, hout⟩ := h
  have hpos : 0 < out.countP fun τ => τ.cause = .message := by
    have := messages_of_sent hsent
    omega
  obtain ⟨τ, hτ, hcause⟩ := List.countP_pos_iff.mp hpos
  have hmessage := of_decide_eq_true hcause
  have hsends := hout τ hτ
  rw [Sends, hmessage] at hsends
  exact ⟨out, hsent, τ, hτ, hmessage, hsends.2⟩

theorem Grows.messages_le (h : Grows (Sends buf address) s t) : s.messages ≤ t.messages := by
  obtain ⟨out, hsent, -⟩ := h
  rw [messages_of_sent hsent]
  exact Nat.le_add_right _ _

/-- A message that the driver accepts goes on the air at once. -/
theorem attempts_messages (address seq : UInt8) (hlen : buf.length ≤ maxMessageLen) (a : Attempt)
    (as : List Attempt) (s : TimedDatagram) :
    s.messages < (attempts address seq buf (a :: as) 0 s).2.messages := by
  by_cases haddr : address = broadcastAddress
  · subst haddr
    rw [attempts_broadcast UInt8.zero_le]
    have hone := tried_messages broadcastAddress seq 0 buf s a
    rw [if_pos hlen] at hone
    exact Nat.lt_of_succ_le hone.ge
  · obtain ⟨t, hround, hnext⟩ := attempts_cons (s := s) seq buf UInt8.zero_le haddr a
    have hone := hround.messages
    rw [if_pos hlen] at hone
    rw [hnext]
    split_ifs
    · exact Nat.lt_of_succ_le hone.ge
    · exact (Nat.lt_of_succ_le hone.ge).trans_le (attempts_grows address seq buf as _ t).messages_le
    · exact Nat.lt_of_succ_le hone.ge

/-- The loop returns true for an acknowledgement only. -/
theorem attempts_true (haddr : address ≠ broadcastAddress) {as : List Attempt} :
    ∀ {retries : UInt8} {s : TimedDatagram},
      (attempts address seq buf as retries s).1 = some true →
        ∃ i a, as[i]? = some a ∧ s.Answered address seq a ∧
          (∀ j < i, ∀ b, as[j]? = some b → s.Unanswered address seq b) ∧
          (retries.toNat + i ≤ s.retries.toNat ∨ s.retries = 255) := by
  induction as with
  | nil =>
    intro retries s h
    rw [attempts] at h
    split_ifs at h
    cases h
  | cons a as ih =>
    intro retries s h
    by_cases hretries : retries ≤ s.retries
    · obtain ⟨t, hround, hnext⟩ := attempts_cons seq buf hretries haddr a
      rw [hnext] at h
      split_ifs at h with hanswered hexpires
      · exact ⟨0, a, rfl, hanswered, fun j hj => absurd hj (Nat.not_lt_zero j),
          .inl (UInt8.le_iff_toNat_le.mp hretries)⟩
      · -- the acknowledgement comes later: the count of the rest is one higher
        obtain ⟨i, b, hb, hans, hbefore, hcount⟩ := ih h
        rw [hround.alike.retries] at hcount
        refine ⟨i + 1, b, hb, (hround.alike.answered b).mp hans, ?_, ?_⟩
        · intro j hj c hc
          cases j with
          | zero =>
            obtain rfl := Option.some.inj hc
            exact ⟨hanswered, hexpires⟩
          | succ j =>
            exact (hround.alike.unanswered c).mp (hbefore j (Nat.lt_of_succ_lt_succ hj) c hc)
        · refine or_iff_not_imp_right.mpr fun hne => ?_
          have hle := hcount.resolve_right hne
          have hr : s.retries.toNat ≠ 255 := fun h => hne (UInt8.toNat_inj.mp h)
          have hlt : retries.toNat + 1 < 256 := by
            have := UInt8.le_iff_toNat_le.mp hretries
            have := s.retries.toNat_lt
            omega
          have hsucc : (retries + 1).toNat = retries.toNat + 1 := by
            rw [UInt8.toNat_add]
            exact Nat.mod_eq_of_lt hlt
          omega
    · rw [attempts_exhausted hretries] at h
      cases h

/-- A message that is too long for the driver is said to be acknowledged, and
nothing is transmitted: a broadcast at once, another one for an acknowledgement
under its number. -/
theorem returns_unsent (hlen : ¬ buf.length ≤ maxMessageLen) {A : ℕ → Attempt}
    (h : address = broadcastAddress ∨
      ∃ k, (k ≤ s.retries.toNat + 1 ∨ s.retries = 255) ∧ s.AckedAfter address A k) :
    ∃ m t, s.sendtoWait buf address (upTo A m) = (some true, t) ∧ t.messages = s.messages := by
  by_cases haddr : address = broadcastAddress
  · subst haddr
    set s₁ : TimedDatagram := { s with lastSequenceNumber := s.lastSequenceNumber + 1 } with hs₁
    refine ⟨1, _, attempts_broadcast (s := s₁) UInt8.zero_le (A 0) [], ?_⟩
    have hone := tried_messages broadcastAddress (s.lastSequenceNumber + 1) 0 buf s₁ (A 0)
    rw [if_neg hlen] at hone
    exact hone
  · obtain ⟨k, hk, hfirst⟩ := h.resolve_left haddr
    obtain ⟨t, hcall, -, hmessages, -⟩ := returns_acked buf haddr hk hfirst
    rw [if_neg hlen] at hmessages
    exact ⟨k, t, hcall, hmessages⟩

/-- A call that returns true, and not for a broadcast, has got the first
acknowledgement in time. -/
theorem ackedAfter_of_true (haddr : address ≠ broadcastAddress) {A : ℕ → Attempt} {m : ℕ}
    (h : (s.sendtoWait buf address (upTo A m)).1 = some true) :
    ∃ k, (k ≤ s.retries.toNat + 1 ∨ s.retries = 255) ∧ s.AckedAfter address A k := by
  obtain ⟨i, a, ha, hans, hbefore, hcount⟩ := attempts_true haddr h
  obtain ⟨him, rfl⟩ := getElem?_upTo.mp ha
  refine ⟨i + 1, hcount.imp_left fun hle => ?_, Nat.succ_pos i, hans, fun j hj => ?_⟩
  · have hle : 0 + i ≤ s.retries.toNat := hle
    omega
  · have hji : j < i := hj
    exact hbefore j hji (A j) (getElem?_upTo.mpr ⟨by omega, rfl⟩)

/-- **A message is said to be acknowledged that has not been on the air** exactly
if it is too long for the driver, and is a broadcast or there comes an
acknowledgement under its number. -/
theorem honest_iff (s : TimedDatagram) (buf : List UInt8) (address : UInt8) (A : ℕ → Attempt) :
    s.Honest buf address A ↔ buf.length ≤ maxMessageLen ∨
      (address ≠ broadcastAddress ∧
        ∀ k, k ≤ s.retries.toNat + 1 ∨ s.retries = 255 → ¬ s.AckedAfter address A k) := by
  set s₁ : TimedDatagram := { s with lastSequenceNumber := s.lastSequenceNumber + 1 } with hs₁
  constructor
  · intro h
    refine or_iff_not_imp_left.mpr fun hlen => ?_
    by_contra hnot
    have hunsent : address = broadcastAddress ∨
        ∃ k, (k ≤ s.retries.toNat + 1 ∨ s.retries = 255) ∧ s.AckedAfter address A k := by
      refine or_iff_not_imp_left.mpr fun haddr => ?_
      by_contra hnone
      exact hnot ⟨haddr, fun k hk hack => hnone ⟨k, hk, hack⟩⟩
    obtain ⟨m, t, hcall, hmessages⟩ := returns_unsent hlen hunsent
    obtain ⟨out, hsent, τ, hτ, hcause, -⟩ := h m t hcall
    have hzero : out.countP (fun τ => τ.cause = .message) = 0 := by
      have := messages_of_sent hsent
      omega
    exact List.countP_eq_zero.mp hzero τ hτ (decide_eq_true hcause)
  · intro h m t hcall
    rcases h with hlen | ⟨haddr, hnone⟩
    · have hgrows := attempts_grows address (s.lastSequenceNumber + 1) buf (upTo A m) 0 s₁
      have hcall' : attempts address (s.lastSequenceNumber + 1) buf (upTo A m) 0 s₁ =
        (some true, t) := hcall
      rw [hcall'] at hgrows
      refine Grows.exists_message hgrows ?_
      rcases hm : upTo A m with _ | ⟨a, as⟩
      · -- a call that has not transmitted has not returned
        rw [hm, attempts, if_pos UInt8.zero_le] at hcall'
        cases hcall'
      · have hlt := attempts_messages address (s.lastSequenceNumber + 1) hlen a as s₁
        rw [← hm, hcall'] at hlt
        exact hlt
    · obtain ⟨k, hk, hfirst⟩ := ackedAfter_of_true haddr (congrArg Prod.fst hcall)
      exact absurd hfirst (hnone k hk)

/-- A message of 252 octets is said to have been broadcast. -/
theorem long_broadcast_dishonest :
    ¬ (constructed 1).Honest (List.replicate 252 0) broadcastAddress silence := by
  set s₁ : TimedDatagram := { constructed 1 with lastSequenceNumber := 1 } with hs₁
  have hlong : ¬ (List.replicate 252 (0 : UInt8)).length ≤ maxMessageLen := by
    rw [List.length_replicate]
    decide
  obtain ⟨f, -, -, -, hair⟩ := transmission_sent 1 (List.replicate 252 0) broadcastAddress s₁
  intro h
  obtain ⟨out, hsent, τ, hτ, -⟩ := h 1 _ (attempts_broadcast (s := s₁) UInt8.zero_le (silence 0) [])
  rw [if_neg hlong, List.append_nil] at hair
  have hnone : [] = [] ++ out := hair.symm.trans hsent
  rw [List.nil_append] at hnone
  rw [← hnone] at hτ
  cases hτ

/-! ### The time between two transmissions -/

/-- The waits of a call. -/
def waitsOf (s : TimedDatagram) (buf : List UInt8) (address : UInt8) (as : List Attempt) :
    List Wait := (s.sendtoWait buf address as).2.waits.drop s.waits.length

/-- Every wait lasts between the timeout and twice the timeout, and no
transmission starts before the wait after the last one has lasted that long. -/
structure Spaced (timeout : UInt16) (ws : List Wait) : Prop where
  between : ∀ w ∈ ws, timeout.toNat ≤ w.timeout.toNat ∧ w.timeout.toNat ≤ 2 * timeout.toNat
  apart : ws.IsChain fun v w => v.sendTime + timeout.toNat ≤ w.startTime

/-- The clock is read after the transmission, and before the next one. -/
structure Chronological (as : List Attempt) : Prop where
  after : ∀ a ∈ as, ∀ p ∈ a.polls, a.sendTime ≤ p.time
  before : as.IsChain fun a b => ∀ p ∈ a.polls, p.time ≤ b.startTime

theorem retransmitTimeout_toNat (timeout : UInt16) (draw : UInt8) :
    (retransmitTimeout timeout draw).toNat =
      (timeout.toNat + timeout.toNat * draw.toNat / 256) % 2 ^ 16 := UInt16.toNat_ofNat'

/-- What is added to the timeout is no more than the timeout. -/
theorem draw_le (timeout : UInt16) (draw : UInt8) :
    timeout.toNat * draw.toNat / 256 ≤ timeout.toNat := by
  refine Nat.div_le_of_le_mul ?_
  rw [Nat.mul_comm 256]
  exact Nat.mul_le_mul_left _ draw.toNat_lt.le

/-- The wait is long enough exactly if it has no more than 16 bits. -/
theorem retransmitTimeout_between_iff (timeout : UInt16) (draw : UInt8) :
    (timeout.toNat ≤ (retransmitTimeout timeout draw).toNat ∧
        (retransmitTimeout timeout draw).toNat ≤ 2 * timeout.toNat) ↔
      timeout.toNat + timeout.toNat * draw.toNat / 256 < 2 ^ 16 := by
  have hle := draw_le timeout draw
  have hlt := timeout.toNat_lt
  rw [retransmitTimeout_toNat]
  omega

/-- The wait after a transmission. -/
def waitOf (timeout : UInt16) (a : Attempt) : Wait :=
  ⟨a.startTime, a.sendTime, a.draw, retransmitTimeout timeout a.draw⟩

/-- The waits of a call: after all its transmissions, the last of which only may
end without the time being over. -/
theorem attempts_waits (address seq : UInt8) (buf : List UInt8) (as : List Attempt) :
    ∀ (retries : UInt8) (s : TimedDatagram), ∃ ms, ms <+: as ∧
      (attempts address seq buf as retries s).2.waits =
        s.waits ++ ms.map (waitOf s.timeout) ∧
      ms.IsChain fun a _ => s.Expires a := by
  induction as with
  | nil =>
    intro retries s
    exact ⟨[], List.prefix_rfl, (List.append_nil _).symm, List.IsChain.nil⟩
  | cons a as ih =>
    intro retries s
    by_cases hretries : retries ≤ s.retries
    · by_cases haddr : address = broadcastAddress
      · subst haddr
        rw [attempts_broadcast hretries]
        exact ⟨[], List.nil_prefix, (List.append_nil _).symm, List.IsChain.nil⟩
      · obtain ⟨t, hround, hnext⟩ := attempts_cons seq buf hretries haddr a
        have hone : ∃ ms, ms <+: a :: as ∧ t.waits = s.waits ++ ms.map (waitOf s.timeout) ∧
            ms.IsChain fun a _ => s.Expires a :=
          ⟨[a], List.cons_prefix_cons.mpr ⟨rfl, List.nil_prefix⟩, hround.waits,
            List.isChain_singleton a⟩
        rw [hnext]
        split_ifs with _ hexpires
        · exact hone
        · -- the time was over before the next transmission
          obtain ⟨ms, hms, hwaits, hchain⟩ := ih (retries + 1) t
          refine ⟨a :: ms, List.cons_prefix_cons.mpr ⟨rfl, hms⟩, ?_, ?_⟩
          · rw [hwaits, hround.waits, hround.alike.timeout, List.append_assoc]
            rfl
          · refine List.isChain_cons.mpr ⟨fun _ _ => hexpires, ?_⟩
            refine hchain.imp ?_
            intro b _ hb
            exact (hround.alike.expires b).mp hb
        · exact hone
    · rw [attempts_exhausted hretries]
      exact ⟨[], List.nil_prefix, (List.append_nil _).symm, List.IsChain.nil⟩

/-- When the wait is over, so much time has passed. -/
theorem Expires.le {a : Attempt} (h : s.Expires a) (hafter : ∀ p ∈ a.polls, a.sendTime ≤ p.time) :
    ∃ p ∈ a.polls, a.sendTime + (retransmitTimeout s.timeout a.draw).toNat ≤ p.time := by
  obtain ⟨p, hp, hlate⟩ := h
  refine ⟨p, hp, ?_⟩
  have hspan : (retransmitTimeout s.timeout a.draw).toUInt32.toNat < 2 ^ 31 := by
    have := (retransmitTimeout s.timeout a.draw).toNat_lt
    rw [UInt16.toNat_toUInt32]
    omega
  have hle := Clock.le_of_timeLeft_le hspan (hafter p hp) (of_decide_eq_false hlate)
  rwa [UInt16.toNat_toUInt32] at hle

/-- **Transmissions are a timeout apart** exactly if no wait has more than 16
bits before it is stored. -/
theorem spaced_iff (s : TimedDatagram) (buf : List UInt8) (address : UInt8) {as : List Attempt}
    (hclock : Chronological as) :
    Spaced s.timeout (s.waitsOf buf address as) ↔
      ∀ w ∈ s.waitsOf buf address as,
        s.timeout.toNat + s.timeout.toNat * w.draw.toNat / 256 < 2 ^ 16 := by
  obtain ⟨ms, hms, hwaits, hchain⟩ := attempts_waits address (s.lastSequenceNumber + 1) buf as 0
    { s with lastSequenceNumber := s.lastSequenceNumber + 1 }
  have hof : s.waitsOf buf address as = ms.map (waitOf s.timeout) := by
    rw [waitsOf, sendtoWait, hwaits]
    exact List.drop_left
  rw [hof]
  constructor
  · intro h w hw
    have hbetween := h.between w hw
    obtain ⟨a, -, rfl⟩ := List.mem_map.mp hw
    exact (retransmitTimeout_between_iff _ _).mp hbetween
  · intro h
    have hbetween : ∀ a ∈ ms, s.timeout.toNat ≤ (retransmitTimeout s.timeout a.draw).toNat ∧
        (retransmitTimeout s.timeout a.draw).toNat ≤ 2 * s.timeout.toNat := by
      intro a ha
      exact (retransmitTimeout_between_iff _ _).mpr (h _ (List.mem_map_of_mem ha))
    constructor
    · intro w hw
      obtain ⟨a, ha, rfl⟩ := List.mem_map.mp hw
      exact hbetween a ha
    · rw [List.isChain_map, List.isChain_iff_getElem]
      intro i hi
      have hmem : ms[i] ∈ ms := List.getElem_mem _
      have hexpires : s.Expires ms[i] := hchain.getElem i hi
      -- the clock is read when the time is over, and then the next transmission starts
      obtain ⟨p, hp, hle⟩ := hexpires.le (hclock.after _ (hms.subset hmem))
      have hbefore := hclock.before.prefix hms
      have hnext := hbefore.getElem i hi p hp
      have hlong := (hbetween _ hmem).1
      show ms[i].sendTime + s.timeout.toNat ≤ ms[i + 1].startTime
      omega

/-- Two transmissions of a node with the default timeout, across the turn of the
clock. -/
def patient : List Attempt :=
  [⟨2 ^ 32 - 150, 2 ^ 32 - 100, 128, [⟨2 ^ 32 + 100, none⟩, ⟨2 ^ 32 + 200, none⟩]⟩,
    ⟨2 ^ 32 + 201, 2 ^ 32 + 251, 0, [⟨2 ^ 32 + 452, none⟩]⟩]

theorem patient_spaced : Spaced 200 ((constructed 1).waitsOf [1, 2, 3] 2 patient) := by
  refine (spaced_iff (constructed 1) [1, 2, 3] 2 ⟨?_, ?_⟩).mpr ?_
  · decide
  · refine List.isChain_cons_cons.mpr ⟨by decide, List.isChain_singleton _⟩
  · decide

/-- With a timeout of a minute and the largest draw the second transmission
starts 54 seconds after the first. -/
def hurried : List Attempt :=
  [⟨0, 50, 255, [⟨54279, none⟩]⟩, ⟨54280, 54330, 0, []⟩]

theorem hurried_not_spaced :
    Chronological hurried ∧
      ¬ Spaced 60000 ({ constructed 1 with timeout := 60000 }.waitsOf [1, 2, 3] 2 hurried) := by
  refine ⟨⟨by decide, ?_⟩, ?_⟩
  · exact List.isChain_cons_cons.mpr ⟨by decide, List.isChain_singleton _⟩
  · intro h
    exact absurd h.apart (by decide)

end TimedDatagram
