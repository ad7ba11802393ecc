/-
The radio behind the bridge.

To the driver the radio is something that answers register accesses at once,
one after another (`World`).  What there is instead is a serial line, the
firmware at its other end, and the radio on the firmware's SPI bus: a write is
under way long after `uartTx` has returned, the radio goes on meanwhile, and
the `'I'`s come in between.  Still, as long as no `'I'` gets in the way of a
reply, no read asks for 0 octets and none times out (reads wait for their last
octet here), the driver cannot tell the difference.

* `Radio.transfer` — one SPI transaction;
* `Rig` — the two ends of the line, the radio, and what the driver has asked
  and been answered so far; `Rig.step` — one event;
* `World.turn` — a transaction of the radio, and what the radio has done
  before it;
* `Tracks` — the radio is where the transactions performed have brought it, and
  the others are under way, in the order the driver made them;
* `log_interacts` — what the driver sees of the rig, it could have seen of the
  radio itself;
* `driver_refines` — so it does and returns the same.
-/
import RadioHead.Answers
import RadioHead.Bridge
import RadioHead.Radio

open Wire Firmware Run Bridge

/-! ### The SPI bus -/

namespace Radio

/-- One SPI transaction.  The top bit of the first octet tells a write, in
which the octets clocked out are of no interest, from a read, in which those
clocked in are. -/
def transfer (r : Radio) (first : UInt8) (mosi : List UInt8) : List UInt8 × Radio :=
  if first &&& writeMask = 0 then r.readBurst first mosi.length
  else (mosi.map fun _ => 0, r.writeBurst (first &&& ~~~writeMask) mosi)

/-- What a transaction of the firmware leaves: for a read it clocks out
zeros. -/
def after (r : Radio) : Spi → Radio
  | .write first data => (r.transfer first data).2
  | .read first data => (r.transfer first (List.replicate data.length 0)).2

end Radio

/-! ### The rig -/

/-- The interaction that a register access comes to, with the octets read. -/
def Wire.RegAccess.answered (got : List UInt8) : RegAccess → Interaction
  | .read reg => .read reg (got.headD 0)
  | .write reg val => .write reg val
  | .burstRead reg len => .burstRead reg len got
  | .burstWrite reg src len => .burstWrite reg ((List.range len.toNat).map src)

/-- The line with the firmware at its end, the radio and the packets it has
reported, the last read that the driver started, and the driver's interactions
so far. -/
structure Rig where
  line : Link
  world : World
  asked : Option RegAccess
  log : List Interaction

namespace Rig

/-- Everything just reset. -/
def start : Rig where
  line := Link.start
  world := World.powerUp []
  asked := none
  log := []

/-- What can happen: the events of the line, and those of the radio. -/
inductive Event where
  | access (a : RegAccess)
  | store
  | available
  | arrive
  | iterate (dio2 isrEarly isrLate : Bool)
  | radio (e : RadioEvent)

/-- An iteration of the firmware's `loop()` with this radio on its SPI bus. -/
def input (g : Rig) (dio2 isrEarly isrLate : Bool) : LoopInput where
  miso i := (g.world.radio.transfer g.line.board.receive.reg
    (List.replicate g.line.board.receive.len 0)).1.getD i 0
  dio2 := dio2
  isrEarly := isrEarly
  isrLate := isrLate

/-- The interaction that the end of a read adds. -/
def returned (asked : Option RegAccess) (l : Link) : List Interaction :=
  match l.host, asked, l.hostReads.getLast? with
  | .idle, some a, some got => [a.answered (got.map Emit.octet)]
  | _, _, _ => []

/-- The interactions of a look at the line that finds these octets. -/
def looked : List Emit → List Interaction
  | [] => [.look false]
  | e :: _ => [.look true, .take e.octet]

/-- One event; `none` if it cannot happen now. -/
def step (g : Rig) : Event → Option Rig
  | .access a =>
    (g.line.step (.access a)).map fun l =>
      match a.call with
      | .uartTx _ _ _ => { g with line := l, log := g.log ++ [a.answered []] }
      | .uartRx _ _ => { g with line := l, asked := some a }
  | .store =>
    (g.line.step .store).map fun l => { g with line := l, log := g.log ++ returned g.asked l }
  | .available =>
    (g.line.step .available).map fun l =>
      { g with line := l, log := g.log ++ looked g.line.toHost }
  | .arrive => (g.line.step .arrive).map fun l => { g with line := l }
  | .iterate dio2 isrEarly isrLate =>
    let l := g.line.iterate (g.input dio2 isrEarly isrLate)
    some { g with
      line := l
      world := { g.world with
        radio := (l.board.spi.drop g.line.board.spi.length).foldl Radio.after g.world.radio } }
  -- the `'I'`s are the firmware's
  | .radio .notify => none
  | .radio e => some { g with world := g.world.event e }

/-- No `'I'` gets in the way of a reply, and no read asks for 0 octets. -/
def Undisturbed (g : Rig) : Event → Prop
  | .access a => g.line.Undisturbed (.access a)
  | .iterate dio2 isrEarly isrLate =>
    g.line.Undisturbed (.iterate (g.input dio2 isrEarly isrLate))
  | _ => True

instance (g : Rig) : ∀ e, Decidable (g.Undisturbed e)
  | .access a => inferInstanceAs (Decidable (g.line.Undisturbed (.access a)))
  | .iterate dio2 isrEarly isrLate =>
    inferInstanceAs (Decidable (g.line.Undisturbed (.iterate (g.input dio2 isrEarly isrLate))))
  | .store | .available | .arrive | .radio _ => .isTrue trivial

/-- Nothing is under way: the driver waits for no reply, and the firmware has
worked off all that was sent. -/
structure Settled (g : Rig) : Prop where
  host : g.line.host = .idle
  toFw : g.line.toFw = []
  rx : g.line.board.rx = []
  count : g.line.board.count = 0

end Rig

/-! ### Transactions of the radio -/

theorem Radio.readBurst_length (r : Radio) (reg : UInt8) (n : ℕ) :
    (r.readBurst reg n).1.length = n := by
  induction n generalizing r reg with
  | zero => rfl
  | succ n ih => rw [Radio.readBurst, List.length_cons, ih]

/-- The register access that an interaction is to the radio. -/
def Interaction.isAccess : Interaction → Bool
  | .look _ | .take _ => false
  | _ => true

namespace Radio

/-- The SPI transaction of a register access; `none` if the radio answers
otherwise. -/
def perform (r : Radio) : Interaction → Option Radio
  | .look _ | .take _ => some r
  | .read reg val =>
    if (r.transfer (reg &&& ~~~writeMask) [0]).1.headD 0 = val then
      some (r.transfer (reg &&& ~~~writeMask) [0]).2 else none
  | .write reg val => some (r.transfer (reg ||| writeMask) [val]).2
  | .burstRead reg len data =>
    if (r.transfer (reg &&& ~~~writeMask) (List.replicate len.toNat 0)).1 = data then
      some (r.transfer (reg &&& ~~~writeMask) (List.replicate len.toNat 0)).2 else none
  | .burstWrite reg data => some (r.transfer (reg ||| writeMask) data).2

theorem transfer_read (r : Radio) {first : UInt8} (h : first &&& writeMask = 0)
    (mosi : List UInt8) : r.transfer first mosi = r.readBurst first mosi.length := if_pos h

theorem unmasked (reg : UInt8) : reg &&& ~~~writeMask &&& writeMask = 0 := by
  rw [UInt8.and_assoc, UInt8.not_and_self, UInt8.and_zero]

/-- A register access of the driver, made at the radio itself. -/
def access (r : Radio) : Interaction → Option Radio
  | .look _ | .take _ => some r
  | .read reg val => if (r.readReg reg).1 = val then some (r.readReg reg).2 else none
  | .write reg val => some (r.writeReg reg val)
  | .burstRead reg len data =>
    if (r.readBurst reg len.toNat).1 = data then some (r.readBurst reg len.toNat).2 else none
  | .burstWrite reg data => some (r.writeBurst reg data)

/-- The driver's own registers go through the mask and back. -/
theorem own_masked : ∀ reg ∈ RF95.ownRegs, reg &&& ~~~writeMask = reg ∧
    (reg ||| writeMask) &&& writeMask ≠ 0 ∧ (reg ||| writeMask) &&& ~~~writeMask = reg := by
  decide +kernel

/-- Over the SPI bus the driver's accesses are what they are at the radio. -/
theorem perform_own {r : Radio} {i : Interaction} (h : i.About RF95.ownRegs) :
    r.perform i = r.access i := by
  cases i with
  | look any => rfl
  | take c => rfl
  | read reg val =>
    have hmask := (own_masked reg h).1
    rw [perform, hmask, transfer_read _ (hmask ▸ unmasked reg)]
    rfl
  | write reg val =>
    obtain ⟨-, hbit, hmask⟩ := own_masked reg h
    rw [perform, transfer, if_neg hbit, hmask]
    rfl
  | burstRead reg len data =>
    have hmask := (own_masked reg h).1
    rw [perform, hmask, transfer_read _ (hmask ▸ unmasked reg), List.length_replicate]
    rfl
  | burstWrite reg data =>
    obtain ⟨-, hbit, hmask⟩ := own_masked reg h
    rw [perform, transfer, if_neg hbit, hmask]
    rfl

end Radio

namespace World

/-- To the driver a register access is one of the radio, after the batch of
events before it. -/
theorem interact_access (w : World) {i : Interaction} (h : i.isAccess = true) :
    interact w i = (w.tick.radio.access i).map fun r => { w.tick with radio := r } := by
  cases i with
  | look any => cases h
  | take c => cases h
  | read reg val =>
    rw [interact, Radio.access]
    split_ifs <;> first | rfl | contradiction
  | write reg val => rfl
  | burstRead reg len data =>
    rw [interact, Radio.access]
    split_ifs <;> first | rfl | contradiction
  | burstWrite reg data => rfl

/-- What the radio does on its own, and then a transaction. -/
def turn (w : World) (x : List RadioEvent × Interaction) : Option World :=
  ((x.1.foldl event w).radio.perform x.2).map fun r => { x.1.foldl event w with radio := r }

/-- The two have the same radio, and it has reported the same packets. -/
def Alike (w w' : World) : Prop := w.radio = w'.radio ∧ w.reports = w'.reports

theorem Alike.event {w w' : World} (h : w.Alike w') (e : RadioEvent) :
    (w.event e).Alike (w'.event e) := by
  obtain ⟨radio, pending, sched, reports⟩ := w
  obtain ⟨radio', pending', sched', reports'⟩ := w'
  obtain ⟨rfl, rfl⟩ : radio = radio' ∧ reports = reports' := h
  have hop : opMode ⟨radio, pending, sched, reports⟩ = opMode ⟨radio, pending', sched', reports⟩ :=
    rfl
  cases e with
  | packet p =>
    rw [World.event, World.event, hop]
    split_ifs <;> exact ⟨rfl, rfl⟩
  | txDone =>
    rw [World.event, World.event, hop]
    split_ifs <;> exact ⟨rfl, rfl⟩
  | rxTimeout => exact ⟨rfl, rfl⟩
  | notify => exact ⟨rfl, rfl⟩

theorem Alike.batch {batch : List RadioEvent} : ∀ {w w' : World}, w.Alike w' →
    (batch.foldl World.event w).Alike (batch.foldl World.event w') := by
  induction batch with
  | nil => exact fun h => h
  | cons e batch ih => exact fun h => ih (h.event e)

/-- The events to come do not matter to an event. -/
theorem event_with_sched (w : World) (e : RadioEvent) (s : List (List RadioEvent)) :
    { w with sched := s }.event e = { w.event e with sched := s } := by
  have hop : opMode { w with sched := s } = w.opMode := rfl
  cases e with
  | packet p =>
    rw [event, event, hop]
    split_ifs <;> rfl
  | txDone =>
    rw [event, event, hop]
    split_ifs <;> rfl
  | rxTimeout => rfl
  | notify => rfl

theorem batch_with_sched (batch : List RadioEvent) (s : List (List RadioEvent)) :
    ∀ w : World, batch.foldl event { w with sched := s }
      = { batch.foldl event w with sched := s } := by
  induction batch with
  | nil => exact fun _ => rfl
  | cons e batch ih =>
    intro w
    rw [List.foldl_cons, List.foldl_cons, event_with_sched, ih]

theorem tick_with_sched (w : World) (batch : List RadioEvent) (s : List (List RadioEvent)) :
    { w with sched := batch :: s }.tick = { batch.foldl event w with sched := s } :=
  batch_with_sched batch s w

/-- Only an `'I'` changes the number of those that wait. -/
theorem batch_pending {batch : List RadioEvent} : ∀ {w : World}, .notify ∉ batch →
    (batch.foldl event w).pending = w.pending := by
  induction batch with
  | nil => exact fun _ => rfl
  | cons e batch ih =>
    intro w h
    rw [List.mem_cons, not_or] at h
    rw [List.foldl_cons, ih h.2]
    cases e with
    | packet p =>
      rw [event]
      split_ifs <;> rfl
    | txDone =>
      rw [event]
      split_ifs <;> rfl
    | rxTimeout => rfl
    | notify => exact absurd rfl h.1

theorem batch_notify (n : ℕ) : ∀ w : World, (List.replicate n RadioEvent.notify).foldl event w
    = { w with pending := w.pending + n } := by
  induction n with
  | zero => exact fun _ => rfl
  | succ n ih =>
    intro w
    rw [List.replicate_succ, List.foldl_cons, ih]
    simp only [event, Nat.add_assoc, Nat.add_comm 1 n]

/-- A turn of the radio is an access to it, with what it does on its own before
that. -/
theorem turn_interact {v v' w : World} {x : List RadioEvent × Interaction}
    (hturn : v.turn x = some v') (halike : v.Alike w) (hnotify : .notify ∉ x.1)
    (hacc : x.2.isAccess = true) (habout : x.2.About RF95.ownRegs) :
    ∃ w', (∀ s, interact { w with sched := x.1 :: s } x.2 = some { w' with sched := s }) ∧
      v'.Alike w' ∧ w'.pending = w.pending := by
  obtain ⟨batch, i⟩ := x
  obtain ⟨r, hr, rfl⟩ := Option.map_eq_some_iff.mp hturn
  obtain ⟨hradio, hreports⟩ : (batch.foldl event v).Alike (batch.foldl event w) := halike.batch
  have hpending : (batch.foldl event w).pending = w.pending := batch_pending hnotify
  rw [hradio, Radio.perform_own habout] at hr
  refine ⟨{ batch.foldl event w with radio := r }, fun s => ?_, ⟨rfl, hreports⟩, hpending⟩
  rw [interact_access _ hacc, tick_with_sched, hr]
  rfl

/-- A look at the line after so many more `'I'`s, or the taking of one, and how
many wait after it. -/
def bell (k : ℕ) (x : ℕ × Interaction) : Option ℕ :=
  match x.2 with
  | .look any => if decide (0 < k + x.1) = any then some (k + x.1) else none
  | .take c => if chI = c then some (k - 1) else none
  | _ => some k

/-- What fits the radio and what fits the `'I'`s, fits the world that has
both. -/
theorem interact_merge {log : List Interaction} : ∀ {score : List (List RadioEvent × Interaction)}
    {bells : List (ℕ × Interaction)} {v v' w : World} {k : ℕ},
    (∀ i ∈ log, i.About RF95.ownRegs) →
    run turn v score = some v' → score.map Prod.snd = log.filter Interaction.isAccess →
    (∀ x ∈ score, .notify ∉ x.1) →
    run bell w.pending bells = some k →
    bells.map Prod.snd = log.filter (fun i => !i.isAccess) → v.Alike w →
    ∃ sched last, run interact { w with sched := sched } log = some last ∧ v'.Alike last := by
  induction log with
  | nil =>
    intro score bells v v' w k _ hrun hscore _ _ _ halike
    obtain rfl := List.map_eq_nil_iff.mp hscore
    obtain rfl := Option.some.inj hrun
    exact ⟨[], _, rfl, halike⟩
  | cons i log ih =>
    intro score bells v v' w k habout hrun hscore hnotify hbells hlooks halike
    have habout' : ∀ j ∈ log, j.About RF95.ownRegs := fun j hj => habout j (.tail _ hj)
    -- an access is the next turn of the radio, anything else the next bell
    by_cases hacc : i.isAccess = true
    · rw [List.filter_cons_of_pos hacc] at hscore
      rw [List.filter_cons_of_neg (by simpa using hacc)] at hlooks
      obtain ⟨x, score, rfl, rfl, hrest⟩ := List.map_eq_cons_iff.mp hscore
      obtain ⟨v₁, hturn, hrun⟩ := run_cons.mp hrun
      obtain ⟨w₁, hstep, halike₁, hpending⟩ := turn_interact hturn halike (hnotify x (.head _)) hacc
        (habout _ (.head _))
      obtain ⟨sched, last, hlast, hend⟩ := ih habout' hrun hrest
        (fun y hy => hnotify y (.tail _ hy)) (hpending ▸ hbells) hlooks halike₁
      exact ⟨x.1 :: sched, last, run_cons.mpr ⟨_, hstep sched, hlast⟩, hend⟩
    · rw [List.filter_cons_of_neg hacc] at hscore
      rw [List.filter_cons_of_pos (by simpa using hacc)] at hlooks
      obtain ⟨x, bells, rfl, rfl, hrest⟩ := List.map_eq_cons_iff.mp hlooks
      obtain ⟨k₁, hbell, hbells⟩ := run_cons.mp hbells
      obtain ⟨n, i⟩ := x
      cases i with
      | look any =>
        rw [bell, Option.ite_none_right_eq_some, Option.some_inj] at hbell
        obtain ⟨hany, rfl⟩ := hbell
        obtain ⟨sched, last, hlast, hend⟩ := ih (w := { w with pending := w.pending + n }) habout'
          hrun hscore hnotify hbells hrest ⟨halike.1, halike.2⟩
        -- the `'I'`s that have come by the time of the look come with it
        refine ⟨List.replicate n .notify :: sched, last, run_cons.mpr ⟨_, ?_, hlast⟩, hend⟩
        have htick := tick_with_sched w (List.replicate n .notify) sched
        rw [batch_notify] at htick
        refine (if_pos ?_).trans (congrArg some htick)
        show decide (0 < ({ w with sched := List.replicate n .notify :: sched }.tick).pending) = any
        rw [htick]
        exact hany
      | take c =>
        rw [bell, Option.ite_none_right_eq_some, Option.some_inj] at hbell
        obtain ⟨hc, rfl⟩ := hbell
        obtain ⟨sched, last, hlast, hend⟩ := ih (w := { w with pending := w.pending - 1 }) habout'
          hrun hscore hnotify hbells hrest ⟨halike.1, halike.2⟩
        exact ⟨sched, last, run_cons.mpr ⟨_, if_pos hc, hlast⟩, hend⟩
      | _ => exact absurd rfl hacc

end World

/-! ### What is under way -/

/-- The command that a write comes to on the line. -/
def Interaction.command : Interaction → Option Command
  | .write reg val => some (.write (reg ||| writeMask) [val])
  | .burstWrite reg data => some (.write (reg ||| writeMask) data)
  | _ => none

theorem answered_isAccess (a : RegAccess) (got : List UInt8) :
    (a.answered got).isAccess = true := by
  cases a <;> rfl

/-- A write on the SPI bus is the write that was under way. -/
theorem perform_posted {i : Interaction} {first : UInt8} {data : List UInt8}
    (h : i.command = some (.write first data)) (r : Radio) :
    r.perform i = some (r.after (.write first data)) := by
  cases i with
  | write reg val =>
    obtain ⟨rfl, rfl⟩ : reg ||| writeMask = first ∧ [val] = data := by
      simpa [Interaction.command] using h
    rfl
  | burstWrite reg data' =>
    obtain ⟨rfl, rfl⟩ : reg ||| writeMask = first ∧ data' = data := by
      simpa [Interaction.command] using h
    rfl
  | _ => cases h

/-- The octets clocked in are those of the burst. -/
theorem clocked_in (l : List UInt8) :
    (List.range l.length).map (fun i => l.getD i 0) = l := by
  refine List.ext_getElem (by simp) fun i hi hi' => ?_
  rw [List.getElem_map, List.getElem_range, List.getD_eq_getElem _ _ hi']

/-- A read on the SPI bus is the one the driver has asked for. -/
theorem perform_asked {a : RegAccess} {first len : UInt8} (h : a.call = .uartRx first len)
    {r : Radio} {data : List UInt8}
    (hdata : data = (r.transfer first (List.replicate len.toNat 0)).1) :
    r.perform (a.answered data) = some (r.after (.read first data)) := by
  cases a with
  | read reg =>
    obtain ⟨rfl, rfl⟩ : reg &&& ~~~writeMask = first ∧ 1 = len := by
      simpa [RegAccess.call] using h
    have hone : List.replicate (1 : UInt8).toNat (0 : UInt8) = [0] := rfl
    rw [hone] at hdata
    have hlen : data.length = 1 := by
      rw [hdata, Radio.transfer_read _ (Radio.unmasked reg), Radio.readBurst_length]
      rfl
    rw [RegAccess.answered, Radio.perform, if_pos (by rw [hdata]), Radio.after, hlen]
    rfl
  | burstRead reg len' =>
    obtain ⟨rfl, rfl⟩ : reg &&& ~~~writeMask = first ∧ len' = len := by
      simpa [RegAccess.call] using h
    have hlen : data.length = len'.toNat := by
      rw [hdata, Radio.transfer_read _ (Radio.unmasked reg), Radio.readBurst_length,
        List.length_replicate]
    rw [RegAccess.answered, Radio.perform, if_pos hdata.symm, Radio.after, hlen]
  | write reg val => cases h
  | burstWrite reg src len' => cases h

theorem matches_count {f : Parser} {p : List UInt8} (h : Matches f p) : f.count = p.length := by
  rcases p with _ | ⟨c, _ | ⟨reg, _ | ⟨len, data⟩⟩⟩
  · exact h
  · exact h.2.2
  · exact h.2.2.2
  · obtain ⟨-, -, -, -, hc, -⟩ := h
    simpa using hc

/-- The parser variables tell the octets of the command read so far. -/
theorem matches_unique {f : Parser} {p q : List UInt8} (hp : Matches f p) (hq : Matches f q) :
    p = q := by
  -- as long as one another, since `count` tells how many octets have been read
  have hlen : p.length = q.length := (matches_count hp).symm.trans (matches_count hq)
  rcases p with _ | ⟨c, _ | ⟨reg, _ | ⟨len, data⟩⟩⟩
  · exact (List.length_eq_zero_iff.mp hlen.symm).symm
  · obtain ⟨c', rfl⟩ := List.length_eq_one_iff.mp hlen.symm
    rw [← hp.2.1, ← hq.2.1]
  · obtain ⟨c', reg', rfl⟩ := List.length_eq_two.mp hlen.symm
    rw [← hp.2.1, ← hq.2.1, ← hp.2.2.1, ← hq.2.2.1]
  · rcases q with _ | ⟨c', _ | ⟨reg', _ | ⟨len', data'⟩⟩⟩
    · simp at hlen
    · simp at hlen
    · simp at hlen
    · obtain ⟨rfl, -, rfl, hl, hc, -, hb⟩ := hp
      obtain ⟨rfl, -, hr, hl', hc', -, hb'⟩ := hq
      have hdata : data.length = data'.length := by omega
      have hll : len = len' := UInt8.toNat_inj.mp (hl.symm.trans hl')
      rw [← hb, ← hb', hdata, hll, hr]

/-- What the invariant of the line says where the octets under way are known. -/
theorem Bridge.Inv.at {l : Link} (h : Inv l) {p : List UInt8} {pend : List Command}
    (hm : Matches l.board.toParser p) (hd : decode (p ++ l.board.rx ++ l.toFw) = (pend, [])) :
    HostInv l pend := by
  obtain ⟨p', pend', hm', hd', hh⟩ := h.host
  obtain rfl := matches_unique hm' hm
  rw [hd] at hd'
  exact (Prod.mk.inj hd').1 ▸ hh

/-- A host that waits for a reply that is not there finds nothing on the line. -/
theorem Bridge.HostInv.silent {l : Link} {pend : List Command} (h : HostInv l pend)
    (hhost : l.host ≠ .idle) (hpend : pend ≠ []) : l.toHost = [] := by
  cases h with
  | idle host => exact absurd host hhost
  | awaiting _ _ _ _ line => exact line
  | replied => exact absurd rfl hpend

theorem Bridge.HostInv.more {l : Link} {pend : List Command} (h : HostInv l pend) {len : UInt8}
    {got : List Emit} (hhost : l.host = .reading len got) : got.length < len.toNat := by
  cases h with
  | idle host => exact absurd (host.symm.trans hhost) (by simp)
  | awaiting host pos =>
    obtain ⟨rfl, rfl⟩ := HostState.reading.inj (host.symm.trans hhost)
    exact pos
  | replied host _ _ _ more =>
    obtain ⟨rfl, rfl⟩ := HostState.reading.inj (host.symm.trans hhost)
    exact more

theorem Bridge.HostInv.notes {l : Link} {pend : List Command} (h : HostInv l pend)
    (hhost : l.host = .idle) : ∀ e ∈ l.toHost, e = .notify := by
  cases h with
  | idle _ _ _ line => exact line
  | awaiting host => exact absurd (host.symm.trans hhost) (by simp)
  | replied host => exact absurd (host.symm.trans hhost) (by simp)

/-- At most one transaction in an iteration: for a read, the radio clocks the
octets out. -/
theorem loop_spi (b : Board) (i : LoopInput) : ∃ spi, (b.loop i).spi = b.spi ++ spi ∧
    (spi = [] ∨ (∃ first data, spi = [.write first data]) ∨
      spi = [.read b.receive.reg ((List.range b.receive.len).map i.miso)]) := by
  have hrec : b.receive.spi = b.spi := by
    rw [Board.receive]
    split
    · rfl
    · split_ifs <;> rfl
  rw [Board.loop, (signal_frame _ i).2.2.1, Board.execute]
  split_ifs
  · exact ⟨[.write b.receive.reg ((List.range b.receive.len).map b.receive.buffer)],
      by rw [hrec], .inr (.inl ⟨_, _, rfl⟩)⟩
  · refine ⟨[.read b.receive.reg ((List.range b.receive.len).map i.miso)], ?_, .inr (.inr rfl)⟩
    show b.receive.spi ++ _ = _
    rw [hrec]
    congr 3
    exact List.map_congr_left fun j hj => if_pos (List.mem_range.mp hj)
  · exact ⟨[], by rw [hrec, List.append_nil], .inl rfl⟩

namespace Rig

/-- Where the driver is, given the commands `pend` under way: of its register
accesses the radio has performed `performed`, and `waiting` are writes it has yet
to perform; a read under way comes after them, and one that has been performed is
yet to be taken off the line. -/
inductive Phase (g : Rig) : List Command → List Interaction → List Interaction → Prop
  | idle {pend : List Command} {performed waiting : List Interaction}
      (host : g.line.host = .idle) (posted : waiting.map Interaction.command = pend.map some)
      (log : g.log.filter Interaction.isAccess = performed ++ waiting) :
      Phase g pend performed waiting
  | awaiting {a : RegAccess} {reg len : UInt8} {ws : List Command}
      {performed waiting : List Interaction} (asked : g.asked = some a)
      (call : a.call = .uartRx reg len) (host : g.line.host = .reading len [])
      (posted : waiting.map Interaction.command = ws.map some)
      (log : g.log.filter Interaction.isAccess = performed ++ waiting) :
      Phase g (ws ++ [.read reg len]) performed waiting
  | replied {a : RegAccess} {len : UInt8} {got : List Emit} {data : List UInt8}
      {performed : List Interaction} (asked : g.asked = some a)
      (host : g.line.host = .reading len got) (length : data.length = len.toNat)
      (line : (got ++ g.line.toHost).take len.toNat = data.map .reply)
      (log : g.log.filter Interaction.isAccess ++ [a.answered data] = performed) :
      Phase g [] performed []

/-- More may come up the line behind a reply. -/
theorem Phase.mono {g g' : Rig} {pend : List Command} {performed waiting : List Interaction}
    (h : Phase g pend performed waiting) (hhost : g'.line.host = g.line.host)
    (hasked : g'.asked = g.asked)
    (hlog : g'.log.filter Interaction.isAccess = g.log.filter Interaction.isAccess)
    {more : List Emit} (hline : g'.line.toHost = g.line.toHost ++ more) :
    Phase g' pend performed waiting := by
  cases h with
  | idle host posted log => exact .idle (hhost.trans host) posted (hlog.trans log)
  | awaiting asked call host posted log =>
    exact .awaiting (hasked.trans asked) call (hhost.trans host) posted (hlog.trans log)
  | @replied a len got data _ asked host length line log =>
    refine .replied (hasked.trans asked) (hhost.trans host) length ?_ (hlog ▸ log)
    have hle : len.toNat ≤ (got ++ g.line.toHost).length := by
      have htake := congrArg List.length line
      rw [List.length_take, List.length_map, length] at htake
      omega
    rw [hline, ← List.append_assoc, List.take_append_of_le_length hle, line]

/-- The course of the radio up to here: `score` are the accesses performed, each
after what the radio had done by then, `recent` is what it has done since. -/
structure Course (g : Rig) (p : List UInt8) (pend : List Command)
    (score : List (List RadioEvent × Interaction)) (waiting : List Interaction)
    (recent : List RadioEvent) (v : World) : Prop where
  parser : Matches g.line.board.toParser p
  pending : decode (p ++ g.line.board.rx ++ g.line.toFw) = (pend, [])
  phase : g.Phase pend (score.map Prod.snd) waiting
  turns : run World.turn (World.powerUp []) score = some v
  quiet : ∀ x ∈ score, .notify ∉ x.1
  quiet_recent : .notify ∉ recent
  world : g.world = recent.foldl World.event v

/-- The `'I'`s: those the driver has taken were there when it looked, and the
others are on the line. -/
def Rings (log : List Interaction) (toHost : List Emit) : Prop :=
  ∃ bells k n, run World.bell 0 bells = some k ∧
    bells.map Prod.snd = log.filter (fun i => !i.isAccess) ∧ k + n = toHost.count .notify

/-- The invariant of undisturbed runs. -/
structure Tracks (g : Rig) : Prop where
  line : Inv g.line
  course : ∃ p pend score waiting recent v, g.Course p pend score waiting recent v
  rings : Rings g.log g.line.toHost

theorem start_tracks : start.Tracks where
  line := inv_start
  course := ⟨[], [], [], [], [], World.powerUp [], rfl,
    by simp [start, Link.start, Board.reset], .idle rfl rfl rfl, rfl, by simp, by simp, rfl⟩
  rings := ⟨[], 0, 0, rfl, rfl, rfl⟩

/-! ### One event -/

theorem Rings.congr {log log' : List Interaction} {toHost toHost' : List Emit}
    (h : Rings log toHost)
    (hlog : log'.filter (fun i => !i.isAccess) = log.filter (fun i => !i.isAccess))
    (hline : toHost'.count .notify = toHost.count .notify) : Rings log' toHost' := by
  obtain ⟨bells, k, n, hrun, hbells, hn⟩ := h
  exact ⟨bells, k, n, hrun, hbells.trans hlog.symm, hn.trans hline.symm⟩

theorem filter_access (log : List Interaction) {i : Interaction} (h : i.isAccess = true) :
    (log ++ [i]).filter Interaction.isAccess = log.filter Interaction.isAccess ++ [i] ∧
      (log ++ [i]).filter (fun i => !i.isAccess) = log.filter (fun i => !i.isAccess) := by
  constructor
  · rw [List.filter_append, List.filter_singleton, h]
    rfl
  · rw [List.filter_append, List.filter_singleton, h]
    exact List.append_nil _

theorem decode_call {s : List UInt8} {pend : List Command} (h : decode s = (pend, []))
    (c : HostCall) : decode (s ++ c.octets) = (pend ++ [c.command], []) := by
  have hc := decode_calls [c]
  rw [List.flatMap_singleton] at hc
  rw [decode_append, h, List.nil_append, hc]
  rfl

variable {g : Rig}

theorem Phase.posted_of_idle {pend : List Command} {performed waiting : List Interaction}
    (h : Phase g pend performed waiting) (hhost : g.line.host = .idle) :
    waiting.map Interaction.command = pend.map some ∧
      g.log.filter Interaction.isAccess = performed ++ waiting := by
  cases h with
  | idle _ posted log => exact ⟨posted, log⟩
  | awaiting _ _ host => exact absurd (host.symm.trans hhost) (by simp)
  | replied _ host => exact absurd (host.symm.trans hhost) (by simp)

/-- A write comes first: it is one that waits, or the read comes after it. -/
theorem Phase.write {first : UInt8} {data : List UInt8} {pend : List Command}
    {performed waiting : List Interaction}
    (h : Phase g (Spi.command (.write first data) :: pend) performed waiting) :
    ∃ j waiting', (∀ r : Radio, r.perform j = some (r.after (.write first data))) ∧
      ∀ {g' : Rig}, g'.line.host = g.line.host → g'.asked = g.asked → g'.log = g.log →
        Phase g' pend (performed ++ [j]) waiting' := by
  have hfirst : ∀ {ws : List Command},
      waiting.map Interaction.command = (Spi.command (.write first data) :: ws).map some →
      g.log.filter Interaction.isAccess = performed ++ waiting →
      ∃ j waiting', (∀ r : Radio, r.perform j = some (r.after (.write first data))) ∧
        waiting'.map Interaction.command = ws.map some ∧
        g.log.filter Interaction.isAccess = (performed ++ [j]) ++ waiting' := by
    intro ws hposted hlog
    rw [List.map_cons, List.map_eq_cons_iff] at hposted
    obtain ⟨j, waiting', rfl, hj, hposted'⟩ := hposted
    exact ⟨j, waiting', perform_posted hj, hposted', by rw [hlog]; simp⟩
  generalize hpend : Spi.command (.write first data) :: pend = pend' at h
  cases h with
  | idle host posted log =>
    rw [← hpend] at posted
    obtain ⟨j, waiting', hj, hposted, hlog⟩ := hfirst posted log
    exact ⟨j, waiting', hj, fun hhost _ hlog' => .idle (hhost.trans host) hposted (hlog' ▸ hlog)⟩
  | @awaiting a reg len ws _ _ asked call host posted log =>
    rcases ws with _ | ⟨c, ws⟩
    · -- the read itself is no write
      cases hpend
    · obtain ⟨rfl, rfl⟩ := List.cons.inj hpend
      obtain ⟨j, waiting', hj, hposted, hlog⟩ := hfirst posted log
      exact ⟨j, waiting', hj, fun hhost hasked hlog' =>
        .awaiting (hasked.trans asked) call (hhost.trans host) hposted (hlog' ▸ hlog)⟩
  | replied => cases hpend

/-- A read comes first: it is the one that the driver waits for, and nothing else
is under way. -/
theorem Phase.read {reg : UInt8} {data : List UInt8} {pend : List Command}
    {performed waiting : List Interaction}
    (h : Phase g (Spi.command (.read reg data) :: pend) performed waiting)
    (hlt : data.length < 256) :
    ∃ a len, g.asked = some a ∧ a.call = .uartRx reg len ∧ g.line.host = .reading len [] ∧
      data.length = len.toNat ∧ g.log.filter Interaction.isAccess = performed ∧ pend = [] := by
  have hnone : ∀ {ws : List Command},
      waiting.map Interaction.command ≠ (Spi.command (.read reg data) :: ws).map some := by
    intro ws hposted
    rw [List.map_cons, List.map_eq_cons_iff] at hposted
    obtain ⟨j, waiting', rfl, hj, -⟩ := hposted
    cases j <;> cases hj
  generalize hpend : Spi.command (.read reg data) :: pend = pend' at h
  cases h with
  | idle _ posted => exact absurd (hpend ▸ posted) hnone
  | @awaiting a reg' len ws _ _ asked call host posted log =>
    rcases ws with _ | ⟨c, ws⟩
    · obtain ⟨hcommand, rfl⟩ := List.cons.inj hpend
      obtain rfl := List.map_eq_nil_iff.mp posted
      obtain ⟨rfl, rfl⟩ : reg' = reg ∧ len = UInt8.ofNat data.length := by
        simpa [Spi.command, eq_comm] using hcommand
      exact ⟨a, _, asked, call, host, (UInt8.toNat_ofNat_of_lt' hlt).symm,
        log.trans (List.append_nil _), rfl⟩
    · obtain ⟨rfl, -⟩ := List.cons.inj hpend
      exact absurd posted hnone
  | replied => cases hpend

/-- The register of a read has its top bit clear. -/
theorem call_uartRx_unmasked {a : RegAccess} {reg len : UInt8} (h : a.call = .uartRx reg len) :
    reg &&& writeMask = 0 := by
  cases a with
  | read reg => exact (HostCall.uartRx.inj h).1 ▸ Radio.unmasked reg
  | burstRead reg len => exact (HostCall.uartRx.inj h).1 ▸ Radio.unmasked reg
  | write => cases h
  | burstWrite => cases h

/-- The driver starts a register access: a write is under way from now on, and a
read is what it waits for. -/
theorem Tracks.access (h : g.Tracks) {a : RegAccess} (hok : g.line.Undisturbed (.access a))
    (hidle : g.line.host = .idle) :
    (match a.call with
      | .uartTx _ _ _ => { g with line := g.line.call a.call, log := g.log ++ [a.answered []] }
      | .uartRx _ _ => { g with line := g.line.call a.call, asked := some a } : Rig).Tracks := by
  obtain ⟨p, pend, score, waiting, recent, v, hc⟩ := h.course
  obtain ⟨hposted, hlog⟩ := hc.phase.posted_of_idle hidle
  have hline := h.line.access hok hidle
  have hd : decode (p ++ g.line.board.rx ++ (g.line.toFw ++ a.call.octets))
      = (pend ++ [a.call.command], []) := by
    rw [← List.append_assoc]
    exact decode_call hc.pending a.call
  have hwrite : ∀ {reg len : UInt8} {src : ℕ → UInt8}, a.call = .uartTx reg src len →
      (a.answered []).command = some a.call.command →
      Tracks { g with line := g.line.call a.call, log := g.log ++ [a.answered []] } := by
    intro reg len src hcall hcommand
    obtain ⟨hacc, hlook⟩ := filter_access g.log (answered_isAccess a [])
    refine ⟨hline, ⟨p, _, score, waiting ++ [a.answered []], recent, v, hc.parser, hd, ?_, hc.turns,
      hc.quiet, hc.quiet_recent, hc.world⟩, h.rings.congr hlook rfl⟩
    refine .idle ?_ ?_ ?_
    · rw [hcall]
      rfl
    · rw [List.map_append, List.map_append, hposted, List.map_singleton, hcommand]
      rfl
    · rw [hacc, hlog, List.append_assoc]
  have hread : ∀ {reg len : UInt8}, a.call = .uartRx reg len →
      Tracks { g with line := g.line.call a.call, asked := some a } := by
    intro reg len hcall
    refine ⟨hline, ⟨p, _, score, waiting, recent, v, hc.parser, hd, ?_, hc.turns, hc.quiet,
      hc.quiet_recent, hc.world⟩, h.rings⟩
    rw [hcall]
    exact .awaiting rfl hcall rfl hposted hlog
  cases a with
  | read reg => exact hread rfl
  | write reg val => exact hwrite rfl rfl
  | burstRead reg len => exact hread rfl
  | burstWrite reg src len => exact hwrite rfl rfl

/-- The driver takes an octet of a reply off the line; with the last one it has
what the radio has clocked out. -/
theorem Phase.store {pend : List Command} {performed waiting : List Interaction}
    (h : Phase g pend performed waiting) (hh : HostInv g.line pend) {len : UInt8}
    {got rest : List Emit} {e : Emit} (hhost : g.line.host = .reading len got)
    (hline : g.line.toHost = e :: rest) :
    e ≠ .notify ∧
      (g.log ++ returned g.asked (g.line.store len got e rest)).filter (fun i => !i.isAccess)
        = g.log.filter (fun i => !i.isAccess) ∧
      Phase { g with
          line := g.line.store len got e rest
          log := g.log ++ returned g.asked (g.line.store len got e rest) }
        pend performed waiting := by
  have hmore := hh.more hhost
  cases h with
  | idle host => exact absurd (host.symm.trans hhost) (by simp)
  | awaiting _ _ host =>
    -- the reply is still to come, and nothing else is on the line
    have hnil := hh.silent (by simp [host]) (by simp)
    rw [hline] at hnil
    cases hnil
  | @replied a len' got' data _ asked host length line log =>
    obtain ⟨rfl, rfl⟩ := HostState.reading.inj (host.symm.trans hhost)
    rw [hline] at line
    have hlen : (got' ++ [e]).length = got'.length + 1 := by simp
    have hsplit : got' ++ e :: rest = (got' ++ [e]) ++ rest := by simp
    rw [hsplit] at line
    have hreply : e ≠ .notify := by
      have hmem : e ∈ data.map Emit.reply := by
        rw [← line, List.take_append, List.mem_append]
        left
        rw [List.take_of_length_le (by omega)]
        simp
      obtain ⟨c, -, rfl⟩ := List.mem_map.mp hmem
      simp
    by_cases hlast : len'.toNat ≤ got'.length + 1
    · -- the last one: the read returns the octets of the reply
      have hstore : g.line.store len' got' e rest = { g.line with
          toHost := rest, host := .idle, hostReads := g.line.hostReads ++ [got' ++ [e]] } :=
        if_pos hlast
      have hgot : got' ++ [e] = data.map .reply := by
        rw [← line, List.take_append_of_le_length (by omega), List.take_of_length_le (by omega)]
      have hret : returned g.asked (g.line.store len' got' e rest) = [a.answered data] := by
        have hoctets : (data.map Emit.reply).map Emit.octet = data := by
          rw [List.map_map]
          exact List.map_id' _
        simp only [hstore, returned, asked, List.getLast?_concat, hgot, hoctets]
      obtain ⟨hacc, hlook⟩ := filter_access g.log (answered_isAccess a data)
      rw [hret]
      refine ⟨hreply, hlook, .idle (by rw [hstore]) rfl ?_⟩
      rw [List.append_nil, ← log]
      exact hacc
    · have hstore : g.line.store len' got' e rest = { g.line with
          toHost := rest, host := .reading len' (got' ++ [e]) } := if_neg hlast
      have hret : returned g.asked (g.line.store len' got' e rest) = [] := by
        simp only [hstore, returned]
      rw [hret, List.append_nil]
      refine ⟨hreply, rfl, .replied asked (by rw [hstore]) length ?_ log⟩
      rw [hstore]
      exact line

theorem Tracks.store (h : g.Tracks) {len : UInt8} {got rest : List Emit} {e : Emit}
    (hhost : g.line.host = .reading len got) (hline : g.line.toHost = e :: rest) :
    Tracks { g with
      line := g.line.store len got e rest
      log := g.log ++ returned g.asked (g.line.store len got e rest) } := by
  obtain ⟨p, pend, score, waiting, recent, v, hc⟩ := h.course
  obtain ⟨hreply, hlook, hphase⟩ :=
    hc.phase.store (h.line.at hc.parser hc.pending) hhost hline
  -- the other end of the line is as before
  obtain ⟨hboard, hfw, hrest⟩ : (g.line.store len got e rest).board = g.line.board ∧
      (g.line.store len got e rest).toFw = g.line.toFw ∧
      (g.line.store len got e rest).toHost = rest := by
    rw [Link.store]
    split_ifs <;> exact ⟨rfl, rfl, rfl⟩
  refine ⟨h.line.store hhost hline, ⟨p, pend, score, waiting, recent, v, ?_, ?_, hphase, hc.turns,
    hc.quiet, hc.quiet_recent, hc.world⟩, h.rings.congr hlook ?_⟩
  · exact hboard ▸ hc.parser
  · rw [hboard, hfw]
    exact hc.pending
  · rw [hrest, hline, List.count_cons_of_ne hreply]

/-- The driver looks at the line between two accesses: all that it can find there
are `'I'`s. -/
theorem Tracks.available (h : g.Tracks) (hhost : g.line.host = .idle) {l : Link}
    (hstep : g.line.step .available = some l) :
    Tracks { g with line := l, log := g.log ++ looked g.line.toHost } := by
  obtain ⟨p, pend, score, waiting, recent, v, hc⟩ := h.course
  have hnotes := (h.line.at hc.parser hc.pending).notes hhost
  have hinv : Inv l := h.line.step (e := .available) trivial hstep
  obtain ⟨hposted, hlog⟩ := hc.phase.posted_of_idle hhost
  obtain ⟨bells, k, n, hrun, hbells, hn⟩ := h.rings
  rcases hline : g.line.toHost with _ | ⟨e, rest⟩
  · -- an empty line: all `'I'`s up to now have been taken
    obtain rfl : g.line = l := by simpa [Link.step, hhost, hline] using hstep
    have hacc : (g.log ++ looked []).filter Interaction.isAccess
        = g.log.filter Interaction.isAccess := by
      simp [looked, Interaction.isAccess]
    rw [hline, List.count_nil] at hn
    refine ⟨hinv, ⟨p, pend, score, waiting, recent, v, hc.parser, hc.pending,
      .idle hhost hposted (hacc.trans hlog), hc.turns, hc.quiet, hc.quiet_recent, hc.world⟩,
      bells ++ [(n, .look false)], 0, 0, ?_, ?_, by rw [hline]; rfl⟩
    · refine run_append.mpr ⟨k, hrun, ?_⟩
      obtain ⟨rfl, rfl⟩ : k = 0 ∧ n = 0 := by omega
      rfl
    · rw [List.map_append, hbells, List.filter_append]
      rfl
  · -- an `'I'`, since no reply is awaited
    obtain rfl : { g.line with toHost := rest, polled := g.line.polled ++ [e] } = l := by
      simpa [Link.step, hhost, hline] using hstep
    obtain rfl : e = .notify := hnotes e (hline ▸ List.mem_cons_self)
    have hacc : (g.log ++ looked (.notify :: rest)).filter Interaction.isAccess
        = g.log.filter Interaction.isAccess := by
      simp [looked, Interaction.isAccess]
    rw [hline, List.count_cons_self] at hn
    refine ⟨hinv, ⟨p, pend, score, waiting, recent, v, hc.parser, hc.pending,
      .idle hhost hposted (hacc.trans hlog), hc.turns, hc.quiet, hc.quiet_recent, hc.world⟩,
      bells ++ [(n, .look true), (0, .take chI)], rest.count .notify, 0, ?_, ?_, rfl⟩
    · refine run_append.mpr ⟨k, hrun, run_cons.mpr ⟨k + n, ?_, run_cons.mpr ⟨_, rfl, ?_⟩⟩⟩
      · exact if_pos (by simp [hn])
      · rw [hn]
        rfl
    · rw [List.map_append, hbells, List.filter_append]
      rfl

section Iteration

variable {i : LoopInput} {spi : List Spi} {p' : List UInt8} {pend' : List Command}
  {dio2 isrEarly isrLate : Bool}

/-- The rig after an iteration in which the transactions `spi` take place. -/
def iterated (g : Rig) (i : LoopInput) (spi : List Spi) : Rig :=
  { g with
    line := g.line.iterate i
    world := { g.world with radio := spi.foldl Radio.after g.world.radio } }

/-- The `'I'` of an iteration is one that the driver has not taken. -/
theorem Rings.iterate (h : Rings g.log g.line.toHost)
    (hi : Iterates g.line.board (g.line.board.loop i) i spi p') :
    Rings g.log (g.line.iterate i).toHost := by
  obtain ⟨bells, k, n, hrun, hbells, hn⟩ := h
  have hreplies : ((spi.flatMap Spi.reply).map Emit.reply).count .notify = 0 := by
    rw [List.count_eq_zero]
    intro hmem
    obtain ⟨c, -, hc⟩ := List.mem_map.mp hmem
    cases hc
  refine ⟨bells, k, n + (if g.line.board.raised i then [Emit.notify] else []).count .notify,
    hrun, hbells, ?_⟩
  rw [iterate_toHost hi, List.count_append, List.count_append, hreplies]
  omega

/-- An iteration without a transaction leaves the radio as it is. -/
theorem Tracks.iterate_idle (h : g.Tracks) {p : List UInt8} {pend : List Command}
    {score : List (List RadioEvent × Interaction)} {waiting : List Interaction}
    {recent : List RadioEvent} {v : World} (hc : g.Course p pend score waiting recent v)
    (hok : g.line.Undisturbed (.iterate i))
    (hi : Iterates g.line.board (g.line.board.loop i) i [] p')
    (hrest : decode (p' ++ (g.line.iterate i).board.rx ++ g.line.toFw) = (pend, [])) :
    (g.iterated i []).Tracks where
  line := h.line.iterate hok
  course := ⟨p', pend, score, waiting, recent, v, hi.after, hrest,
    hc.phase.mono rfl rfl rfl (iterate_toHost hi), hc.turns, hc.quiet, hc.quiet_recent, hc.world⟩
  rings := h.rings.iterate hi

/-- In one with a transaction it does what the driver has asked of it. -/
theorem Tracks.iterate_performs (h : g.Tracks) {p : List UInt8} {pend : List Command}
    {score : List (List RadioEvent × Interaction)} {waiting waiting' : List Interaction}
    {recent : List RadioEvent} {v : World} (hc : g.Course p pend score waiting recent v)
    (hok : g.line.Undisturbed (.iterate i)) {t : Spi}
    (hi : Iterates g.line.board (g.line.board.loop i) i [t] p')
    (hrest : decode (p' ++ (g.line.iterate i).board.rx ++ g.line.toFw) = (pend', []))
    {j : Interaction} (hj : g.world.radio.perform j = some (g.world.radio.after t))
    (hphase : Phase (g.iterated i [t]) pend' (score.map Prod.snd ++ [j]) waiting') :
    (g.iterated i [t]).Tracks := by
  refine ⟨h.line.iterate hok, ⟨p', pend', score ++ [(recent, j)], waiting', [], _, hi.after, hrest,
    ?_, run_append.mpr ⟨v, hc.turns, run_cons.mpr ⟨_, ?_, rfl⟩⟩, ?_, by simp, rfl⟩,
    h.rings.iterate hi⟩
  · rw [List.map_append]
    exact hphase
  · rw [World.turn, ← hc.world, hj]
    rfl
  · intro x hx
    rcases List.mem_append.mp hx with hx | hx
    · exact hc.quiet x hx
    · exact List.mem_singleton.mp hx ▸ hc.quiet_recent

/-- The octets that a read clocks in are those that the radio has in the register
asked for, and they are on the line then. -/
theorem Phase.reply {performed waiting : List Interaction} {data : List UInt8}
    (h : Phase g (Spi.command (.read g.line.board.receive.reg data) :: pend') performed waiting)
    (hh : HostInv g.line (Spi.command (.read g.line.board.receive.reg data) :: pend'))
    (hdata : data =
      (List.range g.line.board.receive.len).map (g.input dio2 isrEarly isrLate).miso)
    (hi : Iterates g.line.board (g.line.board.loop (g.input dio2 isrEarly isrLate))
      (g.input dio2 isrEarly isrLate) [.read g.line.board.receive.reg data] p') :
    ∃ j, g.world.radio.perform j =
        some (g.world.radio.after (.read g.line.board.receive.reg data)) ∧
      Phase (g.iterated (g.input dio2 isrEarly isrLate) [.read g.line.board.receive.reg data])
        pend' (performed ++ [j]) [] := by
  have hlt : data.length < 256 :=
    hi.reply_lt (.read g.line.board.receive.reg data) (List.mem_singleton_self _)
  obtain ⟨a, len, asked, call, host, length, log, rfl⟩ := h.read hlt
  have hreceive : g.line.board.receive.len = len.toNat := by
    rw [← length, hdata, List.length_map, List.length_range]
  have hclocked : data = (g.world.radio.transfer g.line.board.receive.reg
      (List.replicate len.toNat 0)).1 := by
    have hbits : (g.world.radio.transfer g.line.board.receive.reg
        (List.replicate len.toNat 0)).1.length = len.toNat := by
      rw [Radio.transfer_read _ (call_uartRx_unmasked call), Radio.readBurst_length,
        List.length_replicate]
    rw [← clocked_in (g.world.radio.transfer _ _).1, hbits, hdata, ← hreceive]
    rfl
  have hsilent := hh.silent (by simp [host]) (by simp)
  refine ⟨_, perform_asked call hclocked, .replied asked host length ?_ (by rw [← log]; rfl)⟩
  show ([] ++ (g.line.iterate _).toHost).take len.toNat = _
  rw [iterate_toHost hi, hsilent, List.nil_append, List.nil_append, List.flatMap_singleton,
    Spi.reply, ← length]
  exact List.take_left' (by rw [List.length_map])

end Iteration

/-- An iteration of the firmware: if it performs a transaction, it is the first of
those under way, and the radio does what the driver has asked of it. -/
theorem Tracks.iterate (h : g.Tracks) {dio2 isrEarly isrLate : Bool}
    (hok : g.line.Undisturbed (.iterate (g.input dio2 isrEarly isrLate))) {g' : Rig}
    (hstep : g.step (.iterate dio2 isrEarly isrLate) = some g') : g'.Tracks := by
  obtain ⟨p, pend, score, waiting, recent, v, hc⟩ := h.course
  have hh := h.line.at hc.parser hc.pending
  obtain ⟨spi, p', hi, htaken⟩ := loop_iterates hc.parser (g.input dio2 isrEarly isrLate)
  obtain ⟨pend', rfl, hrest⟩ := iterate_pending hi htaken hc.pending
  have hiterated : g' = g.iterated (g.input dio2 isrEarly isrLate) spi := by
    have hspi : (g.line.iterate (g.input dio2 isrEarly isrLate)).board.spi =
        g.line.board.spi ++ spi := hi.spi_eq
    rw [← Option.some.inj hstep, hspi, List.drop_left]
    rfl
  subst hiterated
  obtain ⟨spi', hspi', hone⟩ := loop_spi g.line.board (g.input dio2 isrEarly isrLate)
  obtain rfl : spi = spi' := List.append_cancel_left (hi.spi_eq.symm.trans hspi')
  rcases hone with rfl | ⟨first, data, rfl⟩ | rfl
  · exact h.iterate_idle hc hok hi hrest
  · -- a write: the first of those that wait
    obtain ⟨j, waiting', hj, hphase⟩ := hc.phase.write
    exact h.iterate_performs hc hok hi hrest (hj _) (hphase rfl rfl rfl)
  · -- a read: the one that the driver waits for
    obtain ⟨j, hj, hphase⟩ := hc.phase.reply hh rfl hi
    exact h.iterate_performs hc hok hi hrest hj hphase

/-- One undisturbed event keeps the invariant. -/
theorem Tracks.step (h : g.Tracks) {e : Event} (hok : g.Undisturbed e) {g' : Rig}
    (hstep : g.step e = some g') : g'.Tracks := by
  cases e with
  | access a =>
    obtain ⟨l, hl, rfl⟩ := Option.map_eq_some_iff.mp hstep
    cases hhost : g.line.host with
    | reading len got => simp [Link.step, hhost] at hl
    | idle =>
      obtain rfl : g.line.call a.call = l := by simpa [Link.step, hhost] using hl
      exact h.access hok hhost
  | store =>
    obtain ⟨l, hl, rfl⟩ := Option.map_eq_some_iff.mp hstep
    cases hhost : g.line.host with
    | idle => simp [Link.step, hhost] at hl
    | reading len got =>
      rcases hline : g.line.toHost with _ | ⟨e, rest⟩
      · simp [Link.step, hhost, hline] at hl
      · obtain rfl : g.line.store len got e rest = l := by simpa [Link.step, hhost, hline] using hl
        exact h.store hhost hline
  | available =>
    obtain ⟨l, hl, rfl⟩ := Option.map_eq_some_iff.mp hstep
    cases hhost : g.line.host with
    | reading len got => simp [Link.step, hhost] at hl
    | idle => exact h.available hhost hl
  | arrive =>
    obtain ⟨l, hl, rfl⟩ := Option.map_eq_some_iff.mp hstep
    rcases hline : g.line.toFw with _ | ⟨c, rest⟩
    · simp [Link.step, hline] at hl
    · obtain rfl : { g.line with toFw := rest, board := g.line.board.step (.arrive c) } = l := by
        simpa [Link.step, hline] using hl
      obtain ⟨p, pend, score, waiting, recent, v, hc⟩ := h.course
      refine ⟨h.line.arrive hline, ⟨p, pend, score, waiting, recent, v, hc.parser, ?_,
        hc.phase.mono rfl rfl rfl (List.append_nil _).symm, hc.turns, hc.quiet, hc.quiet_recent,
        hc.world⟩, h.rings⟩
      have hd := hc.pending
      rw [hline] at hd
      simpa [Board.step] using hd
  | iterate dio2 isrEarly isrLate => exact h.iterate hok hstep
  | radio e =>
    have hnotify : e ≠ .notify := by
      rintro rfl
      cases hstep
    obtain rfl : { g with world := g.world.event e } = g' := by
      cases e with
      | notify => exact absurd rfl hnotify
      | _ => exact Option.some.inj hstep
    obtain ⟨p, pend, score, waiting, recent, v, hc⟩ := h.course
    refine ⟨h.line, ⟨p, pend, score, waiting, recent ++ [e], v, hc.parser, hc.pending,
      hc.phase.mono rfl rfl rfl (List.append_nil _).symm, hc.turns, hc.quiet, ?_, ?_⟩, h.rings⟩
    · intro hmem
      rcases List.mem_append.mp hmem with hmem | hmem
      · exact hc.quiet_recent hmem
      · exact hnotify (List.mem_singleton.mp hmem).symm
    · rw [List.foldl_append, ← hc.world]
      rfl

end Rig

/-! ### The radio itself -/

namespace World

/-- The radio reports packets, and takes none back. -/
theorem reports_batch {batch : List RadioEvent} : ∀ w : World,
    w.reports <+: (batch.foldl event w).reports := by
  induction batch with
  | nil => exact fun w => List.prefix_refl _
  | cons e batch ih =>
    intro w
    refine List.IsPrefix.trans ?_ (ih (w.event e))
    cases e with
    | packet p =>
      rw [event]
      split_ifs
      · exact List.prefix_append _ _
      · exact List.prefix_refl _
    | txDone =>
      rw [event]
      split_ifs <;> exact List.prefix_refl _
    | rxTimeout => exact List.prefix_refl _
    | notify => exact List.prefix_refl _

theorem reports_turn {w w' : World} {x : List RadioEvent × Interaction}
    (h : w.turn x = some w') : w.reports <+: w'.reports := by
  obtain ⟨r, -, rfl⟩ := Option.map_eq_some_iff.mp h
  exact reports_batch w

/-- Writes are always performed, at once if need be. -/
theorem turn_posted {waiting : List Interaction} : ∀ {pend : List Command} (v : World),
    waiting.map Interaction.command = pend.map some →
      ∃ v', run turn v (waiting.map (Prod.mk [])) = some v' ∧ v'.reports = v.reports := by
  induction waiting with
  | nil => exact fun v _ => ⟨v, rfl, rfl⟩
  | cons j waiting ih =>
    intro pend v h
    obtain ⟨c, pend, rfl, hc, hrest⟩ := List.map_eq_cons_iff.mp h.symm
    have hturn : ∃ r, v.radio.perform j = some r := by
      cases j with
      | write reg val => exact ⟨_, rfl⟩
      | burstWrite reg data => exact ⟨_, rfl⟩
      | _ => cases hc
    obtain ⟨r, hr⟩ := hturn
    obtain ⟨v', hrun, hreports⟩ := ih { v with radio := r } hrest.symm
    refine ⟨v', run_cons.mpr ⟨{ v with radio := r }, ?_, hrun⟩, hreports⟩
    show (v.radio.perform j).map _ = _
    rw [hr]
    rfl

end World

namespace Rig

variable {g : Rig}

theorem Course.pending_of_settled {p : List UInt8} {pend : List Command}
    {score : List (List RadioEvent × Interaction)} {waiting : List Interaction}
    {recent : List RadioEvent} {v : World} (h : g.Course p pend score waiting recent v)
    (hg : g.Settled) : pend = [] := by
  have hp : p = [] := List.length_eq_zero_iff.mp ((matches_count h.parser).symm.trans hg.count)
  have hd := h.pending
  rw [hp, hg.rx, hg.toFw] at hd
  simpa using (Prod.mk.inj hd).1.symm

/-- The turns of the radio for all the accesses that the driver is through with:
those that the radio has not come to are taken as performed at the end. -/
theorem Course.followed {p : List UInt8} {pend : List Command}
    {score : List (List RadioEvent × Interaction)} {waiting : List Interaction}
    {recent : List RadioEvent} {v : World} (h : g.Course p pend score waiting recent v) :
    ∃ score' v', run World.turn (World.powerUp []) score' = some v' ∧
      score'.map Prod.snd = g.log.filter Interaction.isAccess ∧ (∀ x ∈ score', .notify ∉ x.1) ∧
      v'.reports <+: g.world.reports ∧
      (g.Settled → ∃ batch : List RadioEvent, g.world = batch.foldl World.event v') := by
  have hreports : v.reports <+: g.world.reports := by
    rw [h.world]
    exact World.reports_batch v
  -- the writes under way, after all the turns there have been
  have hwaiting : ∀ {ws : List Command},
      waiting.map Interaction.command = ws.map some → (g.Settled → ws = []) →
      g.log.filter Interaction.isAccess = score.map Prod.snd ++ waiting →
      ∃ score' v', run World.turn (World.powerUp []) score' = some v' ∧
        score'.map Prod.snd = g.log.filter Interaction.isAccess ∧
        (∀ x ∈ score', .notify ∉ x.1) ∧ v'.reports <+: g.world.reports ∧
        (g.Settled → ∃ batch : List RadioEvent, g.world = batch.foldl World.event v') := by
    intro ws hposted hsettled hlog
    obtain ⟨v', hrun, hv'⟩ := World.turn_posted v hposted
    refine ⟨score ++ waiting.map (Prod.mk []), v', run_append.mpr ⟨v, h.turns, hrun⟩, ?_, ?_,
      hv' ▸ hreports, fun hg => ⟨recent, ?_⟩⟩
    · rw [List.map_append, hlog, List.map_map]
      exact congrArg _ (List.map_id' _)
    · intro x hx
      rcases List.mem_append.mp hx with hx | hx
      · exact h.quiet x hx
      · obtain ⟨j, -, rfl⟩ := List.mem_map.mp hx
        exact List.not_mem_nil
    · rw [hsettled hg] at hposted
      rw [List.map_eq_nil_iff.mp hposted] at hrun
      exact Option.some.inj hrun ▸ h.world
  have hphase := h.phase
  have hsettled := h.pending_of_settled
  generalize hperformed : score.map Prod.snd = performed at hphase
  cases hphase with
  | idle _ posted log => exact hwaiting posted hsettled (hperformed ▸ log)
  | awaiting _ _ host posted log =>
    exact hwaiting posted (fun hg => absurd (hg.host.symm.trans host) (by simp))
      (hperformed ▸ log)
  | replied _ host _ _ log =>
    -- the last turn is the read that the driver is not through with
    rw [← log] at hperformed
    obtain ⟨score', last, rfl, hscore', hlast⟩ := List.map_eq_append_iff.mp hperformed
    obtain ⟨v', hrun', hrest⟩ := run_append.mp h.turns
    obtain ⟨x, rfl, -⟩ := List.map_eq_singleton_iff.mp hlast
    obtain ⟨v'', hturn, hv⟩ := run_cons.mp hrest
    obtain rfl := Option.some.inj hv
    exact ⟨score', v', hrun', hscore', fun x hx => h.quiet x (List.mem_append_left _ hx),
      (World.reports_turn hturn).trans hreports,
      fun hg => absurd (hg.host.symm.trans host) (by simp)⟩

/-- What the driver sees of the rig, it could have seen of the radio itself: there
is a time for everything the radio does on its own, and for every `'I'`, at which
accesses to it would have been answered in the same way. -/
theorem log_interacts {es : List Event} (hok : AllSteps step Undisturbed start es)
    (hrun : run step start es = some g) (habout : ∀ i ∈ g.log, i.About RF95.ownRegs) :
    ∃ sched last, run interact (World.powerUp sched) g.log = some last ∧
      last.reports <+: g.world.reports ∧
      (g.Settled → ∃ batch : List RadioEvent, g.world.Alike (batch.foldl World.event last)) := by
  have h : g.Tracks := run_induct (fun _ _ _ h ho hs => Tracks.step h ho hs) start_tracks hok hrun
  obtain ⟨p, pend, score, waiting, recent, v, hc⟩ := h.course
  obtain ⟨score', v', hturns, hscore', hquiet, hreports, hend⟩ := hc.followed
  obtain ⟨bells, k, n, hbells, hlooks, -⟩ := h.rings
  obtain ⟨sched, last, hlast, halike⟩ := World.interact_merge (w := World.powerUp []) habout hturns
    hscore' hquiet hbells hlooks ⟨rfl, rfl⟩
  refine ⟨sched, last, hlast, halike.2 ▸ hreports, fun hg => ?_⟩
  obtain ⟨batch, hbatch⟩ := hend hg
  exact ⟨batch, hbatch ▸ halike.batch⟩

/-- The driver with the members `m` has been called with `qs` over the rig: asked
what it asks, and answered what it is answered, it returns `outs` and ends with
the members `m'`. -/
def Serves (g : Rig) (m : Members) (qs : List RF95.Request) (outs : List RF95.Outcome)
    (m' : Members) : Prop :=
  ∃ t : Tape, run RF95.use ([], { toMembers := m, link := ⟨g.log, []⟩ }) qs
    = some (outs, { toMembers := m', link := t }) ∧ t.played = g.log

/-- **The driver over the bridge is the driver at the radio.**  In every run of
driver, serial line, firmware and radio in which no `'I'` gets in the way of a
reply and no read asks for 0 octets, whenever octets arrive, the firmware's
`loop()` comes round, interrupts are seen and the radio acts, all calls of the
driver return what they return where the driver accesses a radio directly that
does the same things at suitable times, and the members are the same at the end.
Once nothing is under way any more, the radio is where that one comes to with
what it does next. -/
theorem driver_refines {es : List Event} (hok : AllSteps step Undisturbed start es)
    (hrun : run step start es = some g) {m m' : Members} {qs : List RF95.Request}
    {outs : List RF95.Outcome} (h : g.Serves m qs outs m') :
    ∃ sched last, run RF95.use ([], { toMembers := m, link := World.powerUp sched }) qs
      = some (outs, { toMembers := m', link := last }) ∧ last.reports <+: g.world.reports ∧
      (g.Settled → ∃ batch : List RadioEvent, g.world.Alike (batch.foldl World.event last)) := by
  obtain ⟨t, huse, hplayed⟩ := h
  have habout := RF95.use_about huse
  rw [hplayed] at habout
  obtain ⟨sched, last, hlast, hends⟩ := log_interacts hok hrun habout
  exact ⟨sched, last, RF95.use_follows huse hplayed hlast, hends⟩

/-- So many octets arrive at the bridge, with an iteration of `loop()` for each. -/
def drain (n : ℕ) : List Event :=
  (List.replicate n [Event.arrive, .iterate false false false]).flatten

/-- A packet for node 2. -/
def hello : Packet where
  octets := [2, 1, 0, 0, 0x68, 0x69]
  crcError := false
  addr := 0
  length_lt := by decide

/-- The driver starts to listen, a packet comes in, and the driver fetches it: the
two writes of `setModeRx`, and those of `handleInterrupt`, are under way for a
while. -/
def helloEvents : List Event := List.flatten
  [[.available, .access (.write Reg.opMode modeRxContinuous), .arrive,
      .access (.write Reg.dioMapping1 0), .iterate false false false], drain 7,
    [.radio (.packet hello), .iterate false true false, .available,
      .access (.read Reg.irqFlags)], drain 3,
    [.store, .access (.read Reg.rxNbBytes)], drain 3,
    [.store, .access (.read Reg.fifoRxCurrentAddr)], drain 3,
    [.store, .access (.write Reg.fifoAddrPtr 0), .access (.burstRead Reg.fifo 6)], drain 7,
    List.replicate 6 .store,
    [.access (.write Reg.irqFlags 0xff), .access (.read Reg.pktRssiValue)], drain 7,
    [.store, .access (.write Reg.opMode modeStdby), .access (.write Reg.irqFlags 0xff),
      .access (.write Reg.opMode modeRxContinuous), .access (.write Reg.dioMapping1 0)],
    drain 16]

/-- Node 2, idle. -/
def listener : Members := { Members.constructed with mode := .idle, thisAddress := 2 }

/-- What the driver asks and is answered there. -/
def helloLog : List Interaction :=
  [.look false, .write Reg.opMode modeRxContinuous, .write Reg.dioMapping1 0,
    .look true, .take chI, .read Reg.irqFlags 0x40, .read Reg.rxNbBytes 6,
    .read Reg.fifoRxCurrentAddr 0, .write Reg.fifoAddrPtr 0,
    .burstRead Reg.fifo 6 hello.octets, .write Reg.irqFlags 0xff, .read Reg.pktRssiValue 0,
    .write Reg.opMode modeStdby, .write Reg.irqFlags 0xff,
    .write Reg.opMode modeRxContinuous, .write Reg.dioMapping1 0]

theorem hello_refines : ∃ g m' sched last, run step start helloEvents = some g ∧
    run RF95.use ([], { toMembers := listener, link := World.powerUp sched })
      [.operation .available, .operation (.recv (some 10))]
      = some ([.flag false, .message (some [0x68, 0x69])], { toMembers := m', link := last }) ∧
    last.reports <+: g.world.reports ∧
    ∃ batch : List RadioEvent, g.world.Alike (batch.foldl World.event last) := by
  have hlog : (run step start helloEvents).map
      (fun g => (g.log, g.line.host, g.line.toFw, g.line.board.rx, g.line.board.count))
      = some (helloLog, .idle, [], [], 0) := by decide +kernel
  have huse : (run RF95.use ([], { toMembers := listener, link := (⟨helloLog, []⟩ : Tape) })
      [.operation .available, .operation (.recv (some 10))]).map
        (fun r => (r.1, r.2.link.played))
      = some ([.flag false, .message (some [0x68, 0x69])], helloLog) := by decide +kernel
  obtain ⟨g, hrun, hg⟩ := Option.map_eq_some_iff.mp hlog
  obtain ⟨⟨outs, d⟩, hd, hr⟩ := Option.map_eq_some_iff.mp huse
  obtain ⟨rfl, hplayed⟩ := Prod.mk.inj hr
  obtain ⟨hg, hhost, hfw, hrx, hcount⟩ : g.log = helloLog ∧ g.line.host = .idle ∧
      g.line.toFw = [] ∧ g.line.board.rx = [] ∧ g.line.board.count = 0 := by
    simpa only [Prod.mk.injEq] using hg
  rw [← hg] at hd hplayed
  obtain ⟨sched, last, hlast, hreports, hend⟩ := driver_refines (by decide +kernel) hrun
    ⟨d.link, hd, hplayed⟩
  exact ⟨g, d.toMembers, sched, last, hrun, hlast, hreports, hend ⟨hhost, hfw, hrx, hcount⟩⟩

end Rig
