/-
Register reads over the serial line: `RHUartDriver::uartRx`.

`uartRx` writes its request and then polls the line.  An octet that is there is
stored, and the loop ends if it was the last one wanted; otherwise the clock is
read, and the loop ends if more than three seconds have passed.  What a turn of
the loop meets with, the octets that have come in since the last look and the
reading of the clock, comes from outside: a schedule of turns, of which nothing
is assumed but that the clock shows the timeout at last.

* `uartRx`, `read`, `burstRead` — the functions of the class;
* `pass_turn`, `ends_iff` — what the turns store, and which one is the last;
* `turn_eq_store` — the loop is the one that the host has in `Bridge`, where time
  does not matter;
* `Respects` — the call returns, stores no more than it was asked for, and does
  not wait when it has that;
* `turn_zero` — the length is compared after an octet has been stored, so a
  length of zero counts as one;
* `respects_iff` — every other length is respected.
-/
import RadioHead.Lib.Clock
import RadioHead.Lib.Feed
import RadioHead.Lib.Memory
import RadioHead.Lib.Polling
import RadioHead.Bridge

open Polling Wire

namespace RHUartDriver

/-- The serial line `_ss`: the octets that wait to be read, and those written. -/
structure Serial where
  rx : List UInt8
  tx : List UInt8
  deriving DecidableEq

/-- A turn of the loop in `uartRx`: the octets that come in before it looks, and
the clock after that. -/
structure Turn where
  arrivals : List UInt8
  timerEnd : UInt32

/-- The line, the memory at `dest`, and `i`. -/
structure Progress where
  serial : Serial
  dest : Mem
  i : ℕ

/-- `DEFAULT_TIMEOUT`, in seconds. -/
def defaultTimeout : UInt32 := 3

/-- The clock, read after the look, shows the timeout. -/
def timedOut (timerStart timerEnd : UInt32) : Bool :=
  Clock.elapsed timerStart timerEnd > 1000 * defaultTimeout

/-- A turn of the loop: if it is the last one, and what it leaves.  The clock is
not read after the last octet. -/
def turn (len : UInt8) (timerStart : UInt32) (s : Progress) (t : Turn) : Bool × Progress :=
  match s.serial.rx ++ t.arrivals with
  | c :: rx =>
    (decide (s.i + 1 ≥ len.toNat) || timedOut timerStart t.timerEnd,
      { serial := { s.serial with rx := rx }, dest := s.dest.write s.i [c], i := s.i + 1 })
  | [] => (timedOut timerStart t.timerEnd, { s with serial := { s.serial with rx := [] } })

/-- `uartRx` up to its loop. -/
def request (reg len : UInt8) (dest : Mem) (s : Serial) : Progress where
  serial := { s with tx := s.tx ++ uartRxRequest reg len }
  dest := dest
  i := 0

/-- `uartRx`, with the reading of the clock before the loop and the turns of the
loop; `none` if it has not returned when these end. -/
def uartRx (reg len : UInt8) (dest : Mem) (timerStart : UInt32) (s : Serial) (ts : List Turn) :
    Option (Mem × Serial) :=
  match endless (turn len timerStart) (request reg len dest s) ts with
  | (some _, s) => some (s.dest, s.serial)
  | (none, _) => none

/-- `read`: `val` is 0 unless an octet is stored. -/
def read (reg : UInt8) (timerStart : UInt32) (s : Serial) (ts : List Turn) :
    Option (UInt8 × Serial) :=
  (uartRx (reg &&& ~~~writeMask) 1 (fun _ => 0) timerStart s ts).map fun r => (r.1 0, r.2)

/-- `burstRead`. -/
def burstRead (reg : UInt8) (dest : Mem) (len : UInt8) (timerStart : UInt32) (s : Serial)
    (ts : List Turn) : Option (Mem × Serial) :=
  uartRx (reg &&& ~~~writeMask) len dest timerStart s ts

/-! ### The loop -/

variable {reg len : UInt8} {dest : Mem} {timerStart : UInt32}

theorem turn_fst (s : Progress) (t : Turn) :
    (turn len timerStart s t).1 = true ↔ timedOut timerStart t.timerEnd = true ∨
      (s.serial.rx ++ t.arrivals ≠ [] ∧ len.toNat ≤ s.i + 1) := by
  rw [turn]
  split
  · rename_i c rx h
    rw [h, Bool.or_eq_true, decide_eq_true_iff, or_comm]
    exact or_congr_right ⟨fun hi => ⟨List.cons_ne_nil _ _, hi⟩, And.right⟩
  · rename_i h
    exact ⟨.inl, fun h' => h'.resolve_right fun hne => hne.1 h⟩

theorem turn_snd (s : Progress) (t : Turn) :
    (turn len timerStart s t).2 =
      { serial := { s.serial with rx := (s.serial.rx ++ t.arrivals).drop 1 }
        dest := s.dest.write s.i ((s.serial.rx ++ t.arrivals).take 1)
        i := s.i + ((s.serial.rx ++ t.arrivals).take 1).length } := by
  rw [turn]
  split <;> rename_i h <;> rw [h]
  · rfl
  · rw [List.take_nil, Mem.write_nil]
    rfl

/-- Turns none of which is the last store what they find, one octet each. -/
theorem pass_turn (ts : List Turn) : ∀ s : Progress, pass (turn len timerStart) s ts =
    { serial := { s.serial with rx := Feed.left s.serial.rx (ts.map Turn.arrivals) }
      dest := s.dest.write s.i (Feed.taken s.serial.rx (ts.map Turn.arrivals))
      i := s.i + (Feed.taken s.serial.rx (ts.map Turn.arrivals)).length } := by
  induction ts with
  | nil =>
    intro s
    rw [List.map_nil, Feed.left_nil, Feed.taken_nil, Mem.write_nil]
    rfl
  | cons t ts ih =>
    intro s
    have hpass : pass (turn len timerStart) s (t :: ts) =
        pass (turn len timerStart) (turn len timerStart s t).2 ts := rfl
    rw [hpass, ih, turn_snd, List.map_cons, Feed.left, Feed.taken, Mem.write_append,
      List.length_append, Nat.add_assoc]

/-- The loop on a line to the bridge, with the octets of `got` stored. -/
def onBridge (dest : Mem) (tx : List UInt8) (got toHost : List Firmware.Emit) : Progress where
  serial := ⟨toHost.map Firmware.Emit.octet, tx⟩
  dest := dest.write 0 (got.map Firmware.Emit.octet)
  i := got.length

/-- As long as the clock does not show the timeout, a turn that finds an octet is
`Link.store` of the bridged line. -/
theorem turn_eq_store (l : Bridge.Link) (tx : List UInt8) (got rest : List Firmware.Emit)
    (e : Firmware.Emit) {timerEnd : UInt32} (hin : timedOut timerStart timerEnd = false) :
    turn len timerStart (onBridge dest tx got (e :: rest)) ⟨[], timerEnd⟩ =
      (decide ((l.store len got e rest).host = .idle), onBridge dest tx (got ++ [e]) rest) := by
  have hlast : decide ((l.store len got e rest).host = .idle) =
      (decide (got.length + 1 ≥ len.toNat) || timedOut timerStart timerEnd) := by
    rw [hin, Bool.or_false, Bridge.Link.store]
    split_ifs with hlen
    · rw [decide_eq_true hlen]
      rfl
    · rw [decide_eq_false hlen]
      rfl
  have hdest : (dest.write 0 (got.map Firmware.Emit.octet)).write got.length [e.octet] =
      dest.write 0 ((got ++ [e]).map Firmware.Emit.octet) := by
    rw [List.map_append, Mem.write_append, List.length_map, Nat.zero_add]
    rfl
  have hturn : turn len timerStart (onBridge dest tx got (e :: rest)) ⟨[], timerEnd⟩ =
      (decide (got.length + 1 ≥ len.toNat) || timedOut timerStart timerEnd,
        { serial := ⟨rest.map Firmware.Emit.octet ++ [], tx⟩
          dest := (dest.write 0 (got.map Firmware.Emit.octet)).write got.length [e.octet]
          i := got.length + 1 }) := rfl
  rw [hturn, hlast, List.append_nil, hdest, onBridge, List.length_append]
  rfl

/-- The octets that come in before each of the first `n` looks. -/
def arrivals (A : ℕ → Turn) (n : ℕ) : List (List UInt8) := (firstTurns A n).map Turn.arrivals

/-- The octets that the first `n` turns store. -/
def stored (s : Serial) (A : ℕ → Turn) (n : ℕ) : List UInt8 := Feed.taken s.rx (arrivals A n)

variable {s : Serial} {A : ℕ → Turn}

theorem arrivals_succ (A : ℕ → Turn) (n : ℕ) :
    arrivals A (n + 1) = arrivals A n ++ [(A n).arrivals] := by
  rw [arrivals, firstTurns_succ, List.map_append, List.map_singleton, arrivals]

/-- A turn stores one octet, or none. -/
theorem length_stored_succ (s : Serial) (A : ℕ → Turn) (n : ℕ) :
    (stored s A (n + 1)).length =
      if Feed.left s.rx (arrivals A n) ++ (A n).arrivals = [] then (stored s A n).length
      else (stored s A n).length + 1 := by
  rw [stored, arrivals_succ, Feed.length_taken_concat, stored]

/-- **Which turn is the last**: the first one after which the clock shows the
timeout, or which stores an octet and then has `len` of them. -/
theorem ends_iff (n : ℕ) : Ends (turn len timerStart) (request reg len dest s) A n ↔
    timedOut timerStart (A n).timerEnd = true ∨
      ((stored s A n).length < (stored s A (n + 1)).length ∧
        len.toNat ≤ (stored s A (n + 1)).length) := by
  rw [Ends, turn_fst, pass_turn, length_stored_succ]
  refine or_congr_right ?_
  show (Feed.left s.rx (arrivals A n) ++ (A n).arrivals ≠ [] ∧
    len.toNat ≤ 0 + (stored s A n).length + 1) ↔ _
  rw [Nat.zero_add]
  split_ifs with h
  · exact ⟨fun h' => absurd h h'.1, fun h' => absurd h'.1 (lt_irrefl _)⟩
  · exact ⟨fun h' => ⟨Nat.lt_succ_self _, h'.2⟩, fun h' => ⟨h, h'.2⟩⟩

/-! ### The call -/

/-- The call makes exactly `n` turns, and returns `r`. -/
def ReturnsAt (reg len : UInt8) (dest : Mem) (timerStart : UInt32) (s : Serial) (A : ℕ → Turn)
    (n : ℕ) (r : Mem × Serial) : Prop :=
  uartRx reg len dest timerStart s (firstTurns A n) = some r ∧
    ∀ m < n, uartRx reg len dest timerStart s (firstTurns A m) = none

/-- The line after a call that has made `n` turns. -/
def lineAfter (reg len : UInt8) (s : Serial) (A : ℕ → Turn) (n : ℕ) : Serial where
  rx := Feed.left s.rx (arrivals A n)
  tx := s.tx ++ uartRxRequest reg len

theorem uartRx_of_not_ends {n : ℕ}
    (h : ∀ m < n, ¬ Ends (turn len timerStart) (request reg len dest s) A m) :
    uartRx reg len dest timerStart s (firstTurns A n) = none := by
  rw [uartRx, endless_of_not_ends h]

theorem uartRx_of_ends {n : ℕ} (h : Ends (turn len timerStart) (request reg len dest s) A n)
    (hbefore : ∀ m < n, ¬ Ends (turn len timerStart) (request reg len dest s) A m) :
    uartRx reg len dest timerStart s (firstTurns A (n + 1)) =
      some (dest.write 0 (stored s A (n + 1)), lineAfter reg len s A (n + 1)) := by
  rw [uartRx, endless_of_ends h hbefore, pass_turn]
  rfl

/-- **A call returns from its last turn**, with the octets stored until then. -/
theorem returnsAt_iff {n : ℕ} {r : Mem × Serial} :
    ReturnsAt reg len dest timerStart s A n r ↔
      ∃ m, n = m + 1 ∧ Ends (turn len timerStart) (request reg len dest s) A m ∧
        (∀ k < m, ¬ Ends (turn len timerStart) (request reg len dest s) A k) ∧
        r = (dest.write 0 (stored s A n), lineAfter reg len s A n) := by
  constructor
  · rintro ⟨hr, hnot⟩
    obtain ⟨m', hlt, hend'⟩ : ∃ m < n, Ends (turn len timerStart) (request reg len dest s) A m := by
      by_contra h
      rw [uartRx_of_not_ends fun m hm hend => h ⟨m, hm, hend⟩] at hr
      cases hr
    -- the first turn that ends the call is its last one, or it would have returned before
    obtain ⟨m, hend, hfirst⟩ := exists_first_ends ⟨m', hend'⟩
    have hle : m ≤ m' := Nat.not_lt.mp fun h => hfirst m' h hend'
    have hret := uartRx_of_ends hend hfirst
    have hn : n = m + 1 := by
      by_contra hne
      rw [hnot (m + 1) (by omega)] at hret
      cases hret
    rw [← hn] at hret
    exact ⟨m, hn, hend, hfirst, Option.some.inj (hr.symm.trans hret)⟩
  · rintro ⟨m, rfl, hend, hm, rfl⟩
    exact ⟨uartRx_of_ends hend hm,
      fun k hk => uartRx_of_not_ends fun l hl => hm l (by omega)⟩

/-- All octets that have come in are stored, or wait on the line. -/
theorem stored_append_rx (reg len : UInt8) (s : Serial) (A : ℕ → Turn) (n : ℕ) :
    stored s A n ++ (lineAfter reg len s A n).rx = s.rx ++ (arrivals A n).flatten :=
  Feed.taken_append_left _ _

/-- As long as no turn has been the last, fewer octets than wanted are stored;
where none are wanted, none. -/
theorem length_stored_lt {n : ℕ}
    (h : ∀ m < n, ¬ Ends (turn len timerStart) (request reg len dest s) A m) :
    (stored s A n).length < max 1 len.toNat := by
  induction n with
  | zero => exact lt_max_of_lt_left Nat.zero_lt_one
  | succ n ih =>
    have hn := ih fun m hm => h m (by omega)
    have hlast := h n (by omega)
    rw [ends_iff, not_or, not_and] at hlast
    rcases Nat.lt_or_ge (stored s A n).length (stored s A (n + 1)).length with hmore | hmore
    · exact lt_max_of_lt_right (Nat.not_le.mp (hlast.2 hmore))
    · omega

/-- **A call stores, in order, octets that have come in, and no more of them
than wanted**, or a single one. -/
theorem ReturnsAt.stores {n : ℕ} {r : Mem × Serial}
    (h : ReturnsAt reg len dest timerStart s A n r) :
    ∃ octets : List UInt8, octets.length ≤ max 1 len.toNat ∧
      s.rx ++ (arrivals A n).flatten = octets ++ r.2.rx ∧ r.1 = dest.write 0 octets := by
  obtain ⟨m, rfl, -, hm, rfl⟩ := returnsAt_iff.mp h
  refine ⟨stored s A (m + 1), ?_, (stored_append_rx reg len s A (m + 1)).symm, rfl⟩
  have hlt := length_stored_lt hm
  rw [length_stored_succ]
  split_ifs <;> omega

/-- The length is compared after an octet has been stored, so a length of zero
counts as one. -/
theorem turn_zero (timerStart : UInt32) : turn 0 timerStart = turn 1 timerStart := by
  funext s t
  rw [turn, turn]
  split
  · have hlast : decide (s.i + 1 ≥ (0 : UInt8).toNat) = decide (s.i + 1 ≥ (1 : UInt8).toNat) :=
      decide_eq_decide.mpr ⟨fun _ => Nat.le_add_left 1 s.i, fun _ => Nat.zero_le _⟩
    rw [hlast]
  · rfl

/-- Where the line is empty at first and no two octets come in between the same
two looks, what has come in has been stored. -/
theorem stored_of_slow (hempty : s.rx = []) (hslow : ∀ n, (A n).arrivals.length ≤ 1) (n : ℕ) :
    stored s A n = (arrivals A n).flatten := by
  rw [stored, hempty, Feed.taken_of_slow]
  intro b hb
  obtain ⟨t, ht, rfl⟩ := List.mem_map.mp hb
  obtain ⟨m, -, rfl⟩ := List.mem_map.mp ht
  exact hslow m

/-- A clock that goes on shows the timeout at last, if it is read at least once
in a turn. -/
theorem exists_timedOut (time : ℕ → ℕ) (hmono : Monotone time)
    (hgap : ∀ n, time (n + 1) + 3000 < time n + 2 ^ 32) (hpast : ∃ n, time 0 + 3000 < time n)
    (hA : ∀ n, (A n).timerEnd = Clock.reading (time (n + 1))) :
    ∃ n, timedOut (Clock.reading (time 0)) (A n).timerEnd = true := by
  obtain ⟨n, hn⟩ := Clock.exists_elapsed_gt hmono hgap hpast
  refine ⟨n, ?_⟩
  rw [hA]
  exact decide_eq_true (UInt32.lt_iff_toNat_lt.mpr hn)

/-- What a caller expects of a call that wants `len` octets. -/
structure Respects (reg len : UInt8) (dest : Mem) (timerStart : UInt32) (s : Serial)
    (A : ℕ → Turn) : Prop where
  /-- It returns. -/
  returns : ∃ n r, ReturnsAt reg len dest timerStart s A n r
  /-- It takes octets off the line, `len` at most, and stores them in their order
  from `dest` on, and nothing else. -/
  stores : ∀ n r, ReturnsAt reg len dest timerStart s A n r →
    ∃ octets : List UInt8, octets.length ≤ len.toNat ∧
      s.rx ++ (arrivals A n).flatten = octets ++ r.2.rx ∧ r.1 = dest.write 0 octets
  /-- Once the looks have found `len` octets, the clock not having shown the timeout
  before, it returns with these at once. -/
  prompt : ∀ n, (stored s A n).length = len.toNat →
    (∀ m < n, (stored s A m).length < len.toNat) →
    (∀ m, m + 1 < n → timedOut timerStart (A m).timerEnd = false) →
    ∃ r, ReturnsAt reg len dest timerStart s A n r ∧
      r.1 = dest.write 0 ((s.rx ++ (arrivals A n).flatten).take len.toNat)

/-- A call that wants no octets makes a turn nevertheless. -/
theorem not_respects_zero : ¬ Respects reg 0 dest timerStart s A := by
  intro h
  obtain ⟨r, hr, -⟩ := h.prompt 0 rfl (fun m hm => absurd hm m.not_lt_zero)
    (fun m hm => absurd hm (Nat.not_lt_zero _))
  cases hr.1

/-- **The length is respected exactly if it is not zero**, on any line, with any
schedule and any clock that shows the timeout at last. -/
theorem respects_iff (hclock : ∃ n, timedOut timerStart (A n).timerEnd = true) :
    Respects reg len dest timerStart s A ↔ len ≠ 0 := by
  constructor
  · rintro h rfl
    exact not_respects_zero h
  intro hlen
  have hpos : 0 < len.toNat := by
    refine Nat.pos_of_ne_zero fun h => hlen ?_
    exact UInt8.toNat_inj.mp h
  have hmax : max 1 len.toNat = len.toNat := Nat.max_eq_right hpos
  refine ⟨?_, fun n r hr => ?_, fun n hn hbefore hin => ?_⟩
  · -- the turn after which the clock shows the timeout ends the call at the latest
    have hends : ∃ n, Ends (turn len timerStart) (request reg len dest s) A n :=
      hclock.imp fun n hn => (ends_iff n).mpr (.inl hn)
    obtain ⟨n, hend, hfirst⟩ := exists_first_ends hends
    exact ⟨n + 1, _, returnsAt_iff.mpr ⟨n, rfl, hend, hfirst, rfl⟩⟩
  · obtain ⟨octets, hle, h⟩ := hr.stores
    exact ⟨octets, hmax ▸ hle, h⟩
  · cases n with
    | zero => exact absurd hn hpos.ne
    | succ m =>
      have hm := hbefore m (Nat.lt_succ_self m)
      have hend : Ends (turn len timerStart) (request reg len dest s) A m :=
        (ends_iff m).mpr (.inr ⟨by omega, hn.ge⟩)
      have hfirst : ∀ k < m, ¬ Ends (turn len timerStart) (request reg len dest s) A k := by
        intro k hk
        rw [ends_iff, hin k (by omega)]
        rintro (h | ⟨-, hk'⟩)
        · cases h
        · exact absurd (hbefore (k + 1) (by omega)) (Nat.not_lt.mpr hk')
      refine ⟨_, returnsAt_iff.mpr ⟨m, rfl, hend, hfirst, rfl⟩, ?_⟩
      show dest.write 0 (stored s A (m + 1)) = _
      rw [← stored_append_rx reg len s A (m + 1), List.take_left' hn]

/-- The clock rolls over while an octet is on its way. -/
def slowReply (n : ℕ) : Turn where
  arrivals := if n = 1 then [0x40] else []
  timerEnd := Clock.reading (4294967200 + 40 * (n + 1))

theorem slowReply_respected :
    Respects 0x12 1 (fun _ => 0) (Clock.reading 4294967200) ⟨[], []⟩ slowReply :=
  (respects_iff (exists_timedOut (fun n => 4294967200 + 40 * n)
    (fun m n h => by dsimp only; omega) (fun n => by omega) ⟨76, by decide⟩
    fun _ => rfl)).mpr (by decide)

/-- Nothing comes in. -/
def silence (n : ℕ) : Turn where
  arrivals := []
  timerEnd := Clock.reading (100 * (n + 1))

/-- A read of no octets takes the notification that waits on the line, and without
one it waits for three seconds. -/
theorem emptyRead_takes_notification :
    (∃ n, timedOut 0 (silence n).timerEnd = true) ∧
      ¬ Respects 0x00 0 (fun _ => 0) 0 ⟨[chI], []⟩ silence ∧
      (burstRead 0x00 (fun _ => 0) 0 0 ⟨[chI], []⟩ (firstTurns silence 1)).map
        (fun r => (r.1 0, r.2.rx)) = some (chI, []) ∧
      (burstRead 0x00 (fun _ => 0) 0 0 ⟨[], []⟩ (firstTurns silence 30)).isNone = true :=
  ⟨⟨30, by decide⟩, not_respects_zero, by decide +kernel, by decide +kernel⟩

end RHUartDriver
