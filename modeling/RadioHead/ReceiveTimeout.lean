/-
How long the timed receives wait.

`recvfromAckTimeout` has the same loop in `RHReliableDatagram`, `RHRouter` and
`RHMesh`: as long as there is time left by the clock, wait for a message for that
time, and if there is one, look at it.  What is left is a difference of 32 bits,
taken as a signed number and passed on in 16 bits; and the wait has a loop of its
own, against the same clock.

* `waitAvailableTimeout` — the inner loop, of `RHGenericDriver`;
  `waitAvailableTimeout_false` — it does not give up early;
* `receiveTimeout` — the outer loop, for any `recvfromAck`, with a record of its
  waits; `recvfromAckTimeout` — of the three classes;
* `Steady` — the outer loop reads the clock again before half a turn of it has
  passed;
* `Exact` — the call waits for as long as there is really time left, and gives up
  when there is none;
* `recvfromAckTimeout_exact` — on a steady clock the three calls are exact;
* `missed_turn` — a run in which a whole turn of the clock passes in one wait;
* `recvfromAckTimeout_eq` — to `recvfromAck` the call is the loop of
  `TimedDatagram`, which has no waits.
-/
import RadioHead.Lib.Clock
import RadioHead.Lib.Polling
import RadioHead.Mesh
import RadioHead.TimedDatagram

open Polling

/-- A turn of the loop of `waitAvailableTimeout`: the clock, and what `available`
says then. -/
structure Look where
  time : ℕ
  available : Bool
  deriving DecidableEq

/-- `RHGenericDriver::waitAvailableTimeout`, with the reading of the clock it starts
with. -/
def waitAvailableTimeout (timeout : UInt16) (start : ℕ) (looks : List Look) : Option Bool :=
  (loop
    (fun l : Look =>
      decide (Clock.elapsed (Clock.reading start) (Clock.reading l.time) < timeout.toUInt32))
    (fun _ l => (l.available, ())) () looks).1

/-- It returns false only when so much time has really passed, also if the clock
rolls over. -/
theorem waitAvailableTimeout_false {timeout : UInt16} {start : ℕ} {looks : List Look}
    (hstart : ∀ l ∈ looks, start ≤ l.time)
    (h : waitAvailableTimeout timeout start looks = some false) :
    ∃ l ∈ looks, start + timeout.toNat ≤ l.time := by
  have hdecides : Decides (fun (_ : Unit) (l : Look) => (l.available, ())) (fun _ => True)
      Look.available := ⟨fun _ _ _ => rfl, fun _ _ _ _ => trivial⟩
  rw [waitAvailableTimeout, loop_eq_of_still hdecides (fun _ _ _ _ => rfl) looks trivial] at h
  split_ifs at h with hfound hlate
  · cases h
  · obtain ⟨l, hl, hlate⟩ := hlate
    have hpassed := UInt32.le_iff_toNat_le.mp (UInt32.not_lt.mp (of_decide_eq_false hlate))
    rw [UInt16.toNat_toUInt32] at hpassed
    have hle := hpassed.trans (Clock.elapsed_reading_le (hstart l hl))
    have hfrom := hstart l hl
    exact ⟨l, hl, by omega⟩

/-- A turn of the loop of `recvfromAckTimeout`: the clock in its condition, the clock
at the start of `waitAvailableTimeout` and the turns of that, and what `recvfromAck`
meets with. -/
structure ReceiveRound (ι : Type) where
  time : ℕ
  waitStart : ℕ
  looks : List Look
  heard : ι

/-- A call of `waitAvailableTimeout`: the clock when it was decided on, and the
time passed to it. -/
structure TimedWait where
  time : ℕ
  timeout : UInt16
  deriving DecidableEq

/-- What `recvfromAck` works on, and a record of the readings and of the waits. -/
structure Timed (σ : Type) where
  state : σ
  readings : List ℕ
  waits : List TimedWait

/-- `timeLeft`, at a reading of the clock. -/
def timeLeft (timeout : UInt16) (start time : ℕ) : Int32 :=
  Clock.timeLeft timeout.toUInt32 (Clock.reading start) (Clock.reading time)

/-- The loop of `recvfromAckTimeout`, with the reading of the clock it starts with;
none if it has not returned when the rounds end. -/
def receiveTimeout {σ ι : Type} (timeout : UInt16) (start : ℕ) (recvfromAck : σ → ι → Bool × σ) :
    Timed σ → List (ReceiveRound ι) → Option Bool × Timed σ
  | s, [] => (none, s)
  | s, r :: rs =>
    let left := timeLeft timeout start r.time
    let s := { s with readings := s.readings ++ [r.time] }
    if left > 0 then
      -- the parameter of waitAvailableTimeout has 16 bits
      let s := { s with waits := s.waits ++ [⟨r.time, left.toUInt32.toUInt16⟩] }
      match waitAvailableTimeout left.toUInt32.toUInt16 r.waitStart r.looks with
      | none => (none, s)
      | some false => receiveTimeout timeout start recvfromAck s rs
      | some true =>
        let a := recvfromAck s.state r.heard
        let s := { s with state := a.2 }
        if a.1 then (some true, s) else receiveTimeout timeout start recvfromAck s rs
    else (some false, s)

/-- `RHReliableDatagram::recvfromAckTimeout`, with the messages that are
available. -/
def RHReliableDatagram.recvfromAckTimeout (s : TimedDatagram) (p : Pointees) (timeout : UInt16)
    (start : ℕ) (rounds : List (ReceiveRound (Option Frame))) :
    Option Bool × Timed (Pointees × TimedDatagram) :=
  receiveTimeout timeout start (fun r f => r.2.recvfromAck r.1 f) ⟨(p, s), [], []⟩ rounds

/-- `RHRouter::recvfromAckTimeout`, with the frames that are available and, for each,
the functions that a subclass overrides. -/
def RHRouter.recvfromAckTimeout {β : Type} (s : RHRouter β) (len : UInt8) (timeout : UInt16)
    (start : ℕ) (rounds : List (ReceiveRound (Option (Frame × Virtuals β)))) :
    Option Bool × Timed (Option Received × RHRouter β) :=
  receiveTimeout timeout start
    (fun r h => h.elim (false, r) fun h =>
      ((r.2.recvfromAck h.2 h.1 len).1.isSome, r.2.recvfromAck h.2 h.1 len))
    ⟨(none, s), [], []⟩ rounds

/-- `RHMesh::recvfromAckTimeout`, with the frames that are available and, for each,
the answers of the link. -/
def RHMesh.recvfromAckTimeout (s : RHMesh) (len : UInt8) (timeout : UInt16) (start : ℕ)
    (rounds : List (ReceiveRound (Option (Frame × (List Frame → LinkAnswer))))) :
    Option Bool × Timed (Option Received × RHMesh) :=
  receiveTimeout timeout start
    (fun r h => h.elim (false, r) fun h =>
      ((RHMesh.recvfromAck h.2 r.2 h.1 len).1.isSome, RHMesh.recvfromAck h.2 r.2 h.1 len))
    ⟨(none, s), [], []⟩ rounds

/-! ### Exactness -/

namespace Timed

variable {σ ι : Type} {timeout : UInt16} {start : ℕ}

/-- A wait that is decided on before the time is over, for exactly the rest of it. -/
structure Fits (timeout : UInt16) (start : ℕ) (w : TimedWait) : Prop where
  inTime : w.time < start + timeout.toNat
  rest : w.time + w.timeout.toNat = start + timeout.toNat

/-- The call gives up when the time is over, and waits only before. -/
structure Exact (timeout : UInt16) (start : ℕ) (r : Option Bool × Timed σ) : Prop where
  expired : r.1 = some false → ∃ t ∈ r.2.readings.getLast?, start + timeout.toNat ≤ t
  waits : ∀ w ∈ r.2.waits, Fits timeout start w

/-- The clock is read again before half a turn of it has passed. -/
def Soon (t t' : ℕ) : Prop := t ≤ t' ∧ t' < t + 2 ^ 31

instance (t t' : ℕ) : Decidable (Soon t t') := inferInstanceAs (Decidable (_ ∧ _))

/-- So it is by the loop of `recvfromAckTimeout`, from its first reading on. -/
def Steady (start : ℕ) (rounds : List (ReceiveRound ι)) : Prop :=
  (start :: rounds.map ReceiveRound.time).IsChain Soon

/-- There is time left by the clock if there really is. -/
theorem timeLeft_pos_iff {t : ℕ} (h : start ≤ t) (hlt : t < start + timeout.toNat + 2 ^ 31) :
    timeLeft timeout start t > 0 ↔ t < start + timeout.toNat := by
  have hspan := timeout.toNat_lt
  rw [← UInt16.toNat_toUInt32] at hlt hspan ⊢
  exact Clock.timeLeft_pos_iff_of_lt (by omega) h hlt

/-- **Nothing is lost in 16 bits.** -/
theorem fits_timeLeft {t : ℕ} (h : start ≤ t) (hlt : t < start + timeout.toNat) :
    Fits timeout start ⟨t, (timeLeft timeout start t).toUInt32.toUInt16⟩ := by
  refine ⟨hlt, ?_⟩
  have hspan := timeout.toNat_lt
  have hrest : t + (timeLeft timeout start t).toUInt32.toNat = start + timeout.toNat := by
    rw [← UInt16.toNat_toUInt32] at hlt ⊢
    exact Clock.timeLeft_add h hlt
  show t + (timeLeft timeout start t).toUInt32.toUInt16.toNat = start + timeout.toNat
  rw [UInt32.toNat_toUInt16, Nat.mod_eq_of_lt (by omega)]
  exact hrest

/-- The loop is exact from any reading on at which the time was not over. -/
theorem receiveTimeout_exact (recvfromAck : σ → ι → Bool × σ) (rounds : List (ReceiveRound ι)) :
    ∀ {s : Timed σ} {t : ℕ}, start ≤ t → t ≤ start + timeout.toNat →
      (t :: rounds.map ReceiveRound.time).IsChain Soon → (∀ w ∈ s.waits, Fits timeout start w) →
      Exact timeout start (receiveTimeout timeout start recvfromAck s rounds) := by
  induction rounds with
  | nil =>
    intro s t _ _ _ hs
    exact ⟨nofun, hs⟩
  | cons r rounds ih =>
    intro s t hstart htime hchain hs
    rw [List.map_cons, List.isChain_cons_cons] at hchain
    obtain ⟨⟨hle, hlt⟩, hchain⟩ := hchain
    have hleft : timeLeft timeout start r.time > 0 ↔ r.time < start + timeout.toNat :=
      timeLeft_pos_iff (hstart.trans hle) (by omega)
    rw [receiveTimeout]
    by_cases hin : r.time < start + timeout.toNat
    · have hnext := fun {s : Timed σ} => @ih s r.time (hstart.trans hle) hin.le hchain
      have hwaits : ∀ w ∈ s.waits ++ [⟨r.time, (timeLeft timeout start r.time).toUInt32.toUInt16⟩],
          Fits timeout start w := by
        intro w hw
        rcases List.mem_append.mp hw with hw | hw
        · exact hs w hw
        · rw [List.mem_singleton.mp hw]
          exact fits_timeLeft (hstart.trans hle) hin
      simp only [if_pos (hleft.mpr hin)]
      split
      · exact ⟨nofun, hwaits⟩
      · exact hnext hwaits
      · split
        · exact ⟨nofun, hwaits⟩
        · exact hnext hwaits
    · simp only [if_neg (mt hleft.mp hin)]
      refine ⟨fun _ => ⟨r.time, ?_, Nat.not_lt.mp hin⟩, hs⟩
      exact List.getLast?_concat

/-- **The three calls are exact on a steady clock**, whatever happens in the waits
and in `recvfromAck`, and however long these take. -/
theorem recvfromAckTimeout_exact (timeout : UInt16) (start : ℕ) :
    (∀ s p rounds, Steady start rounds →
      Exact timeout start (RHReliableDatagram.recvfromAckTimeout s p timeout start rounds)) ∧
    (∀ (β : Type) (s : RHRouter β) len rounds, Steady start rounds →
      Exact timeout start (RHRouter.recvfromAckTimeout s len timeout start rounds)) ∧
    (∀ s len rounds, Steady start rounds →
      Exact timeout start (RHMesh.recvfromAckTimeout s len timeout start rounds)) := by
  have hexact : ∀ {σ ι : Type} (recvfromAck : σ → ι → Bool × σ) (state : σ)
      (rounds : List (ReceiveRound ι)), Steady start rounds →
      Exact timeout start (receiveTimeout timeout start recvfromAck ⟨state, [], []⟩ rounds) :=
    fun recvfromAck state rounds h =>
      receiveTimeout_exact recvfromAck rounds le_rfl (Nat.le_add_right _ _) h (by simp)
  exact ⟨fun s p => hexact _ _, fun β s len => hexact _ _, fun s len => hexact _ _⟩

/-- The clock rolls over in the first wait, which finds a message that is gone when
it is looked for; the time is over after the second. -/
def rollover (ι : Type) : List (ReceiveRound (Option ι)) :=
  [⟨4294967240, 4294967240, [⟨4294967290, false⟩, ⟨4294967310, true⟩], none⟩,
    ⟨4294967320, 4294967320, [⟨4294967335, false⟩, ⟨4294967340, false⟩], none⟩,
    ⟨4294967341, 4294967341, [], none⟩]

/-- A buffer of 10 octets. -/
def emptyBuf : Pointees := ⟨fun _ => 0, 10, 0, 0, 0, 0⟩

theorem rollover_exact :
    (Exact 100 4294967240 (RHReliableDatagram.recvfromAckTimeout (.constructed 1) emptyBuf 100
        4294967240 (rollover _)) ∧
      (RHReliableDatagram.recvfromAckTimeout (.constructed 1) emptyBuf 100 4294967240
        (rollover _)).1 = some false) ∧
    Exact 100 4294967240 (RHRouter.recvfromAckTimeout (.constructed 1 ()) 10 100 4294967240
      (rollover _)) ∧
    Exact 100 4294967240 (RHMesh.recvfromAckTimeout (.constructed 1 fun _ => 0) 10 100 4294967240
      (rollover _)) := by
  refine ⟨⟨(recvfromAckTimeout_exact _ _).1 _ _ _ ?_, by decide +kernel⟩,
    (recvfromAckTimeout_exact _ _).2.1 _ _ _ _ ?_, (recvfromAckTimeout_exact _ _).2.2 _ _ _ ?_⟩
  all_goals simp [Steady, rollover, Soon]

/-- All readings of the clock, those of the waits among them. -/
def allReadings {ι : Type} (start : ℕ) (rounds : List (ReceiveRound ι)) : List ℕ :=
  start :: rounds.flatMap fun r => r.time :: r.waitStart :: r.looks.map Look.time

/-- A wait in which a whole turn of the clock passes, and more. -/
def longWait : List (ReceiveRound (Option Frame)) :=
  [⟨0, 2147483647, [⟨4294967294, false⟩], none⟩, ⟨4294967306, 4294967306, [], none⟩]

/-- No two readings in a row are half a turn apart, and the call waits once more
when the time has been over for a turn. -/
theorem missed_turn :
    (allReadings 0 longWait).IsChain Soon ∧
      (RHReliableDatagram.recvfromAckTimeout (.constructed 1) emptyBuf 100 0 longWait).2.waits
        = [⟨0, 100⟩, ⟨4294967306, 90⟩] ∧
      ¬ Exact 100 0
        (RHReliableDatagram.recvfromAckTimeout (.constructed 1) emptyBuf 100 0 longWait) := by
  have hwaits : (RHReliableDatagram.recvfromAckTimeout (.constructed 1) emptyBuf 100 0
      longWait).2.waits = [⟨0, 100⟩, ⟨4294967306, 90⟩] := by decide +kernel
  refine ⟨by simp [allReadings, longWait, Soon], hwaits, fun h => ?_⟩
  have hlast := (h.waits ⟨4294967306, 90⟩ (by rw [hwaits]; simp)).inTime
  exact absurd hlast (by decide)

/-! ### The waits left out -/

/-- A turn of the loop, as it is for `recvfromAck`. -/
def poll (timeout : UInt16) (start : ℕ) (r : ReceiveRound (Option Frame)) : Poll where
  time := r.time
  heard :=
    if waitAvailableTimeout (timeLeft timeout start r.time).toUInt32.toUInt16 r.waitStart r.looks
      = some true then r.heard else none

/-- A call that returns does what the loop without the waits does. -/
theorem recvfromAckTimeout_eq (rounds : List (ReceiveRound (Option Frame))) :
    ∀ {s : Timed (Pointees × TimedDatagram)} {b : Bool},
      (receiveTimeout timeout start (fun r f => r.2.recvfromAck r.1 f) s rounds).1 = some b →
      TimedDatagram.recvfromAckTimeout s.state.2 s.state.1 timeout start
          (rounds.map (poll timeout start)) =
        (some b, (receiveTimeout timeout start (fun r f => r.2.recvfromAck r.1 f) s
          rounds).2.state) := by
  induction rounds with
  | nil => exact nofun
  | cons r rounds ih =>
    intro s b h
    have hin : (poll timeout start r).inTime timeout start =
        decide (timeLeft timeout start r.time > 0) := rfl
    rw [List.map_cons, TimedDatagram.recvfromAckTimeout, loop, hin]
    rw [receiveTimeout] at h ⊢
    by_cases hleft : timeLeft timeout start r.time > 0
    · simp only [if_pos hleft, decide_eq_true hleft, if_true] at h ⊢
      rcases hwait : waitAvailableTimeout (timeLeft timeout start r.time).toUInt32.toUInt16
        r.waitStart r.looks with _ | _ | _
      · rw [hwait] at h
        cases h
      · -- the wait was in vain, and recvfromAck is not called
        rw [hwait] at h
        have hheard : (poll timeout start r).heard = none := by
          rw [poll, hwait]
          rfl
        rw [hheard]
        exact ih h
      · rw [hwait] at h
        have hheard : (poll timeout start r).heard = r.heard := by
          rw [poll, hwait]
          rfl
        rw [hheard]
        split_ifs at h ⊢ with hdone
        · rw [← h]
        · exact ih h
    · simp only [if_neg hleft, decide_eq_false hleft] at h ⊢
      rw [← h]
      rfl

end Timed
