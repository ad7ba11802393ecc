/-
Which radio events the handler loses.

`handleInterrupt` reads the IRQ flags once, acts on those that the mode looks
for, and ends by clearing them all.  What the radio raises in between is
cleared unseen, and so is a flag raised in a mode that the driver has left by
the time its `'I'` is handled.  If the flag is TX_DONE, the driver stays in
`RHModeTx` over a radio that has finished: no flag will come, and every wait
for the packet lasts forever.

* `Watch` — a link that follows the done flags from where they are raised to
  where the handler acts on them or clears them;
* `Unraced`, `Spared` — when the flags are cleared, none is pending;
* `Kept` — `_mode` as the link sees it, and a radio that still has to finish;
* `handleInterrupt_lost` — what the handler loses, told from what the radio
  does after the flags are read;
* `stuck_waits` — nothing ends the wait of a driver that lost its TX_DONE;
* `events_kept_iff` — the runs that lose nothing.
-/
import RadioHead.Lib.Run
import RadioHead.Radio
import RadioHead.Views

open Run

/-! ### Raising the done flags -/

namespace World

/-- The event raises TX_DONE. -/
def raisesTxDone (w : World) : RadioEvent → Bool
  | .txDone => w.opMode = modeTx
  | .packet _ | .rxTimeout | .notify => false

/-- The event raises RX_DONE. -/
def raisesRxDone (w : World) : RadioEvent → Bool
  | .packet _ => w.opMode = modeRxContinuous
  | .txDone | .rxTimeout | .notify => false

/-- The radio transmits, or has flagged that it is done. -/
def Sending (w : World) : Prop := w.opMode = modeTx ∨ w.irqFlags &&& txDone ≠ 0

instance (w : World) : Decidable w.Sending := inferInstanceAs (Decidable (_ ∨ _))

/-- The end of a transmission is all that changes the mode of the radio. -/
theorem event_opMode (w : World) (e : RadioEvent) :
    (w.event e).opMode = if w.raisesTxDone e then modeStdby else w.opMode := by
  have hne : Reg.opMode ≠ Reg.irqFlags := by decide
  cases e with
  | packet p =>
    rw [event, raisesTxDone, if_neg Bool.false_ne_true]
    split_ifs <;> rfl
  | txDone =>
    simp only [event, raisesTxDone, decide_eq_true_eq]
    split_ifs
    · simp only [opMode, Function.update_self]
      decide
    · rfl
  | rxTimeout => simp [event, raisesTxDone, raise, opMode, Function.update_of_ne hne]
  | notify => rfl

theorem event_sched (w : World) (e : RadioEvent) : (w.event e).sched = w.sched := by
  cases e with
  | packet p =>
    rw [event]
    split_ifs <;> rfl
  | txDone =>
    rw [event]
    split_ifs <;> rfl
  | rxTimeout => rfl
  | notify => rfl

theorem raise_txDone {w : World} {flags : UInt8} (h : w.irqFlags &&& txDone ≠ 0) :
    (w.irqFlags ||| flags) &&& txDone ≠ 0 := by
  rw [and_or_distrib]
  exact fun h0 => h (UInt8.or_eq_zero_iff.mp h0).1

/-- A transmission that ends is flagged, and the radio clears no flag. -/
theorem Sending.event {w : World} (h : w.Sending) (e : RadioEvent) : (w.event e).Sending := by
  by_cases hdone : w.raisesTxDone e = true
  · cases e with
    | txDone =>
      refine .inr ?_
      rw [raisesTxDone, decide_eq_true_eq] at hdone
      rw [World.event, if_pos hdone]
      show (w.irqFlags ||| txDone) &&& txDone ≠ 0
      rw [and_or_distrib]
      exact fun h0 => absurd (UInt8.or_eq_zero_iff.mp h0).2 (by decide)
    | _ => cases hdone
  · rcases h with h | h
    · rw [Sending, event_opMode, if_neg hdone]
      exact .inl h
    · refine .inr ?_
      cases e with
      | packet p =>
        rw [World.event]
        split_ifs
        · exact raise_txDone h
        · exact h
      | txDone =>
        rw [World.event]
        split_ifs
        · exact raise_txDone h
        · exact h
      | rxTimeout => exact raise_txDone h
      | notify => exact h

theorem Sending.tick {w : World} (h : w.Sending) : w.tick.Sending :=
  tick_induct (P := Sending) (fun _ _ hw => hw) (fun _ e hw => hw.event e) h

/-- A radio that has finished, and flags nothing, will not flag it later. -/
theorem tick_not_sending {w : World} (h : ¬ w.Sending) : ¬ w.tick.Sending := by
  have hraise : ∀ a b : UInt8, a &&& txDone = 0 → b &&& txDone = 0 → (a ||| b) &&& txDone = 0 := by
    intro a b ha hb
    rw [and_or_distrib, ha, hb, UInt8.or_zero]
  refine tick_induct (P := fun w => ¬ w.Sending) (fun _ _ hw => hw) (fun w e hw => ?_) h
  rw [Sending, not_or, not_not] at hw ⊢
  obtain ⟨hop, hflag⟩ := hw
  have hdone : w.raisesTxDone e ≠ true := by
    cases e <;> simp [raisesTxDone, hop]
  rw [event_opMode, if_neg hdone]
  refine ⟨hop, ?_⟩
  cases e with
  | packet p =>
    rw [event]
    split_ifs
    · refine hraise _ _ hflag ?_
      rw [packetFlags]
      split_ifs <;> decide
    · exact hflag
  | txDone =>
    rw [event, if_neg hop]
    exact hflag
  | rxTimeout => exact hraise _ _ hflag (by decide)
  | notify => exact hflag

/-- A radio that does not transmit stays in its mode. -/
theorem tick_opMode {w : World} (h : w.opMode ≠ modeTx) :
    w.tick.radio.regs Reg.opMode = w.radio.regs Reg.opMode := by
  have hne : Reg.opMode ≠ Reg.irqFlags := by decide
  refine tick_induct (P := fun w' => w'.radio.regs Reg.opMode = w.radio.regs Reg.opMode)
    (fun _ _ hw => hw) (fun w' e hw => ?_) rfl
  have hmode : w'.opMode ≠ modeTx := by
    rw [opMode, hw]
    exact h
  cases e with
  | packet p =>
    rw [event]
    split_ifs
    · exact hw
    · exact hw
  | txDone =>
    rw [event, if_neg hmode]
    exact hw
  | rxTimeout =>
    have hraise : (w'.raise rxTimeout).radio.regs Reg.opMode = w'.radio.regs Reg.opMode := by
      simp only [raise, Function.update_of_ne hne]
    exact hraise.trans hw
  | notify => exact hw

end World

/-! ### Following the flags -/

/-- A link that follows the done flags.  `mode` is the driver's `_mode`, told
from its register writes; a flag is pending from where it is raised in the mode
that looks for it to where the handler, in that mode, reads it; it is lost if
it is cleared before. -/
structure Watch where
  world : World
  mode : RHMode
  txPending : Bool
  rxPending : Bool
  lost : Bool

namespace Watch

/-- A driver as constructed has nothing pending. -/
def start (w : World) : Watch where
  world := w
  mode := .initialising
  txPending := false
  rxPending := false
  lost := false

def awaits (w : Watch) : Bool := w.txPending || w.rxPending

def event (w : Watch) (e : RadioEvent) : Watch where
  world := w.world.event e
  mode := w.mode
  txPending := w.txPending || (w.world.raisesTxDone e && w.mode = .tx)
  rxPending := w.rxPending || (w.world.raisesRxDone e && w.mode = .rx)
  lost := w.lost

/-- The batch of events before a register transaction. -/
def tick (w : Watch) : Watch :=
  match w.world.sched with
  | [] => w
  | batch :: sched => batch.foldl event { w with world := { w.world with sched := sched } }

/-- The handler has read the IRQ flags. -/
def sample (w : Watch) (flags : UInt8) : Watch :=
  { w with
    txPending := w.txPending && !(w.mode = .tx && flags &&& txDone ≠ 0)
    rxPending := w.rxPending && !(w.mode = .rx && flags &&& rxDone ≠ 0) }

/-- The IRQ flags are cleared by ones. -/
def clear (w : Watch) (val : UInt8) : Watch :=
  { w with
    txPending := w.txPending && val &&& txDone = 0
    rxPending := w.rxPending && val &&& rxDone = 0
    lost := w.lost || (w.txPending && val &&& txDone ≠ 0)
      || (w.rxPending && val &&& rxDone ≠ 0) }

/-- `_mode` after a register write: the last write of each mode setter, just
before it sets `_mode`. -/
def modeAfter (mode : RHMode) (reg val : UInt8) : RHMode :=
  if reg = Reg.opMode ∧ val = modeStdby then .idle
  else if reg = Reg.opMode ∧ val = modeSleep then .sleep
  else if reg = Reg.dioMapping1 ∧ val = 0x00 then .rx
  else if reg = Reg.dioMapping1 ∧ val = 0x40 then .tx
  else mode

instance : HostLink Watch where
  uartAvailable w :=
    ((HostLink.uartAvailable w.world).1,
      { w.tick with world := (HostLink.uartAvailable w.world).2 })
  uartRead w :=
    ((HostLink.uartRead w.world).1, { w with world := (HostLink.uartRead w.world).2 })
  read reg w :=
    ((HostLink.read reg w.world).1,
      { (if reg = Reg.irqFlags then w.tick.sample (HostLink.read reg w.world).1 else w.tick) with
        world := (HostLink.read reg w.world).2 })
  write reg val w :=
    { (if reg = Reg.irqFlags then w.tick.clear val else w.tick) with
      world := HostLink.write reg val w.world
      mode := modeAfter w.mode reg val }
  burstRead reg len w :=
    ((HostLink.burstRead reg len w.world).1,
      { w.tick with world := (HostLink.burstRead reg len w.world).2 })
  burstWrite reg data w :=
    { w.tick with world := HostLink.burstWrite reg data w.world }

/-- The driver cannot tell whether the flags are followed. -/
theorem world_view : View world where
  uartAvailable _ := rfl
  uartRead _ := rfl
  read _ _ := rfl
  write _ _ _ := rfl
  burstRead _ _ _ := rfl
  burstWrite _ _ _ := rfl

/-! ### What the link follows -/

/-- What every event preserves, a batch of them preserves. -/
theorem tick_induct {P : Watch → Prop}
    (hsched : ∀ w s, P w → P { w with world := { w.world with sched := s } })
    (hevent : ∀ w e, P w → P (w.event e)) {w : Watch} (h : P w) : P w.tick := by
  have hbatch : ∀ (batch : List RadioEvent) (w : Watch), P w → P (batch.foldl event w) := by
    intro batch
    induction batch with
    | nil => exact fun _ hw => hw
    | cons e batch ih => exact fun w hw => ih _ (hevent w e hw)
  rw [tick]
  split
  · exact h
  · exact hbatch _ _ (hsched _ _ h)

/-- The radio itself goes on as it does unwatched. -/
theorem tick_world (w : Watch) : w.tick.world = w.world.tick := by
  have hbatch : ∀ (batch : List RadioEvent) (w : Watch),
      (batch.foldl event w).world = batch.foldl World.event w.world := by
    intro batch
    induction batch with
    | nil => exact fun _ => rfl
    | cons e batch ih => exact fun w => ih (w.event e)
  rcases hsched : w.world.sched with _ | ⟨batch, sched⟩
  · simp only [tick, World.tick, hsched]
  · simp only [tick, World.tick, hsched]
    exact hbatch _ _

theorem tick_mode (w : Watch) : w.tick.mode = w.mode :=
  tick_induct (P := fun w' => w'.mode = w.mode) (fun _ _ hw => hw) (fun _ _ hw => hw) rfl

theorem tick_lost (w : Watch) : w.tick.lost = w.lost :=
  tick_induct (P := fun w' => w'.lost = w.lost) (fun _ _ hw => hw) (fun _ _ hw => hw) rfl

/-- A flag that is pending or lost. -/
def marred (w : Watch) : Bool := w.lost || w.awaits

/-- The two links will find the same flags pending or lost, whatever the radio
raises. -/
structure Like (w w' : Watch) : Prop where
  sched : w.world.sched = w'.world.sched
  opMode : w.world.opMode = w'.world.opMode
  mode : w.mode = w'.mode
  marred : w.marred = w'.marred

theorem Like.refl (w : Watch) : Like w w := ⟨rfl, rfl, rfl, rfl⟩

theorem Like.trans {w₁ w₂ w₃ : Watch} (h : Like w₁ w₂) (h' : Like w₂ w₃) : Like w₁ w₃ where
  sched := h.sched.trans h'.sched
  opMode := h.opMode.trans h'.opMode
  mode := h.mode.trans h'.mode
  marred := h.marred.trans h'.marred

theorem raises_congr {w w' : World} (h : w.opMode = w'.opMode) (e : RadioEvent) :
    w.raisesTxDone e = w'.raisesTxDone e ∧ w.raisesRxDone e = w'.raisesRxDone e := by
  cases e <;> simp [World.raisesTxDone, World.raisesRxDone, h]

theorem event_marred (w : Watch) (e : RadioEvent) :
    (w.event e).marred = (w.marred || ((w.world.raisesTxDone e && w.mode = .tx)
      || (w.world.raisesRxDone e && w.mode = .rx))) := by
  simp only [marred, awaits, event]
  cases w.lost <;> cases w.txPending <;> cases w.rxPending <;> simp

theorem Like.event {w w' : Watch} (h : Like w w') (e : RadioEvent) :
    Like (w.event e) (w'.event e) := by
  obtain ⟨htx, hrx⟩ := raises_congr h.opMode e
  refine ⟨?_, ?_, h.mode, ?_⟩
  · exact (World.event_sched _ e).trans (h.sched.trans (World.event_sched _ e).symm)
  · show (w.world.event e).opMode = (w'.world.event e).opMode
    rw [World.event_opMode, World.event_opMode, htx, h.opMode]
  · rw [event_marred, event_marred, h.marred, h.mode, htx, hrx]

theorem Like.tick {w w' : Watch} (h : Like w w') : Like w.tick w'.tick := by
  have hbatch : ∀ (batch : List RadioEvent) (w w' : Watch), Like w w' →
      Like (batch.foldl Watch.event w) (batch.foldl Watch.event w') := by
    intro batch
    induction batch with
    | nil => exact fun _ _ hw => hw
    | cons e batch ih => exact fun w w' hw => ih _ _ (hw.event e)
  rw [Watch.tick, Watch.tick, ← h.sched]
  split
  · exact h
  · exact hbatch _ _ _ ⟨rfl, h.opMode, h.mode, h.marred⟩

/-- A radio that neither sends nor receives raises no done flag. -/
theorem tick_idle {w : Watch} (htx : w.world.opMode ≠ modeTx)
    (hrx : w.world.opMode ≠ modeRxContinuous) : w.tick.marred = w.marred := by
  have hkept : w.tick.marred = w.marred ∧ w.tick.world.opMode = w.world.opMode := by
    refine tick_induct
      (P := fun w' => w'.marred = w.marred ∧ w'.world.opMode = w.world.opMode)
      (fun _ _ hw => hw) (fun w' e hw => ?_) ⟨rfl, rfl⟩
    have hraises : w'.world.raisesTxDone e = false ∧ w'.world.raisesRxDone e = false := by
      cases e <;> simp [World.raisesTxDone, World.raisesRxDone, hw.2, htx, hrx]
    constructor
    · rw [event_marred, hraises.1, hraises.2, hw.1]
      simp
    · exact (World.event_opMode _ e).trans (by rw [hraises.1, if_neg Bool.false_ne_true, hw.2])
  exact hkept.1

/-- The radio transmits, or its TX_DONE is pending, or a flag is lost. -/
def Underway (w : Watch) : Prop :=
  w.world.opMode = modeTx ∨ w.txPending = true ∨ w.lost = true

/-- In `RHModeTx` the end of a transmission is pending when it is flagged. -/
theorem Underway.tick {w : Watch} (h : w.Underway) (hmode : w.mode = .tx) : w.tick.Underway := by
  have hkept : w.tick.mode = .tx ∧ w.tick.Underway := by
    refine tick_induct (P := fun w' => w'.mode = .tx ∧ w'.Underway) (fun _ _ hw => hw)
      (fun w' e hw => ⟨hw.1, ?_⟩) ⟨hmode, h⟩
    obtain ⟨hmode', hw⟩ := hw
    by_cases hdone : w'.world.raisesTxDone e = true
    · refine .inr (.inl ?_)
      simp [event, hdone, hmode']
    · rcases hw with hw | hw | hw
      · refine .inl ?_
        show (w'.world.event e).opMode = modeTx
        rw [World.event_opMode, if_neg hdone, hw]
      · refine .inr (.inl ?_)
        simp [event, hw]
      · exact .inr (.inr hw)
  exact hkept.2

end Watch

namespace RF95

/-! ### When the flags are cleared -/

/-- If an `'I'` is handled, no flag is pending when the flags are cleared: none
that was raised in another mode is left when they are read, and none is raised
from then to the last clearing of them, seven transactions later if a packet is
fetched, and else one. -/
def Unraced (d : RF95 Watch) : Prop :=
  d.uartAvailable.1 = true →
    (Watch.tick^[if d.Fetches then 7 else 1] d.flagsRead.link).awaits = false

instance (d : RF95 Watch) : Decidable d.Unraced := inferInstanceAs (Decidable (_ → _))

/-- So are the rounds of a wait for the packet. -/
def UnracedFor : ℕ → RF95 Watch → Prop
  | 0, _ => True
  | n + 1, d => d.mode = .tx → d.Unraced ∧ UnracedFor n d.available.2

instance UnracedFor.decidable : ∀ (n : ℕ) (d : RF95 Watch), Decidable (UnracedFor n d)
  | 0, _ => .isTrue trivial
  | n + 1, d =>
    have := UnracedFor.decidable n d.available.2
    inferInstanceAs (Decidable (d.mode = .tx → d.Unraced ∧ UnracedFor n d.available.2))

/-- An operation clears no flag that is pending. -/
def Spared (d : RF95 Watch) : Operation → Prop
  | .available | .recv _ => d.Unraced
  | .send rounds data => data.length ≤ maxMessageLen → UnracedFor rounds d
  | .waitPacketSent rounds => UnracedFor rounds d
  | .init | .sleep | .setModeIdle | .setModeRx | .setModeTx => True

instance (d : RF95 Watch) : ∀ op, Decidable (d.Spared op)
  | .available | .recv _ => inferInstanceAs (Decidable d.Unraced)
  | .send rounds data =>
    inferInstanceAs (Decidable (data.length ≤ maxMessageLen → UnracedFor rounds d))
  | .waitPacketSent rounds => inferInstanceAs (Decidable (UnracedFor rounds d))
  | .init | .sleep | .setModeIdle | .setModeRx | .setModeTx => .isTrue trivial

section Lost

variable {d : RF95 Watch} {w : Watch}

/-! ### The mode the link sees -/

@[simp] theorem write_link_mode (d : RF95 Watch) (reg val : UInt8) :
    (d.write reg val).link.mode = Watch.modeAfter d.link.mode reg val := rfl

/-- The link knows `_mode`. -/
theorem mode_stable : Stable fun d : RF95 Watch => d.link.mode = d.mode where
  uartAvailable h := (Watch.tick_mode _).trans h
  uartRead h := h
  read := by
    intro d reg h
    rw [read_members, ← h]
    simp only [read, HostLink.read]
    split_ifs <;> exact Watch.tick_mode _
  write := by
    intro d reg val hop hdio h
    simp [Watch.modeAfter, hop, hdio, h]
  burstRead _ h := (Watch.tick_mode _).trans h
  burstWrite _ h := (Watch.tick_mode _).trans h
  members m hm h := h.trans hm.symm
  setModeIdle := by
    intro d h
    rw [setModeIdle]
    split_ifs
    · rfl
    · exact h
  sleep := by
    intro d h
    rw [RF95.sleep]
    split_ifs
    · rfl
    · exact h
  setModeRx := by
    intro d h
    rw [setModeRx]
    split_ifs
    · rfl
    · exact h
  setModeTx := by
    intro d h
    rw [setModeTx]
    split_ifs
    · rfl
    · exact h

/-! ### What is lost -/

theorem read_lost (d : RF95 Watch) (reg : UInt8) : (d.read reg).2.link.lost = d.link.lost := by
  simp only [read, HostLink.read]
  split_ifs <;> exact Watch.tick_lost _

/-- Nothing is lost but by clearing the flags. -/
theorem write_lost (d : RF95 Watch) {reg val : UInt8} (h : reg ≠ Reg.irqFlags) :
    (d.write reg val).link.lost = d.link.lost := by
  simp only [write, HostLink.write, if_neg h]
  exact Watch.tick_lost _

/-- What is pending then is lost. -/
theorem clear_lost (d : RF95 Watch) :
    (d.write Reg.irqFlags 0xff).link.lost = d.link.tick.marred := by
  simp only [write, HostLink.write, Watch.clear, Watch.marred, Watch.awaits]
  cases d.link.tick.lost <;> cases d.link.tick.txPending <;> cases d.link.tick.rxPending <;> rfl

theorem setModeIdle_lost (d : RF95 Watch) : d.setModeIdle.link.lost = d.link.lost := by
  rw [setModeIdle]
  split_ifs
  · exact write_lost d (by decide)
  · rfl

theorem sleep_lost (d : RF95 Watch) : d.sleep.link.lost = d.link.lost := by
  rw [sleep]
  split_ifs
  · exact write_lost d (by decide)
  · rfl

theorem setModeRx_lost (d : RF95 Watch) : d.setModeRx.link.lost = d.link.lost := by
  rw [setModeRx]
  split_ifs
  · exact (write_lost _ (by decide)).trans (write_lost d (by decide))
  · rfl

theorem setModeTx_lost (d : RF95 Watch) : d.setModeTx.link.lost = d.link.lost := by
  rw [setModeTx]
  split_ifs
  · exact (write_lost _ (by decide)).trans (write_lost d (by decide))
  · rfl

theorem transmit_lost (d : RF95 Watch) (data : List UInt8) :
    (d.transmit data).link.lost = d.link.lost := by
  have hburst : ∀ d : RF95 Watch, (d.burstWrite Reg.fifo data).link.lost = d.link.lost :=
    fun d => Watch.tick_lost d.link
  have hfifo : ∀ (d : RF95 Watch) c, (d.write Reg.fifo c).link.lost = d.link.lost :=
    fun d c => write_lost d (by decide)
  rw [transmit, setModeTx_lost, write_lost _ (by decide), hburst, hfifo, hfifo, hfifo, hfifo,
    write_lost _ (by decide), setModeIdle_lost]

/-! ### The handler -/

theorem read_like (h : Watch.Like d.link w) (reg : UInt8) (hreg : reg ∉ [Reg.fifo, Reg.irqFlags]) :
    Watch.Like (d.read reg).2.link w.tick := by
  simp only [List.mem_cons, List.not_mem_nil, or_false, not_or] at hreg
  refine Watch.Like.trans (?_ : Watch.Like _ d.link.tick) h.tick
  simp only [read, HostLink.read, if_neg hreg.2, Radio.readReg, if_neg hreg.1]
  exact ⟨by rw [Watch.tick_world], by rw [Watch.tick_world], rfl, rfl⟩

theorem write_like (h : Watch.Like d.link w) (reg val : UInt8)
    (hreg : reg ∉ [Reg.fifo, Reg.irqFlags, Reg.opMode, Reg.dioMapping1]) :
    Watch.Like (d.write reg val).link w.tick := by
  simp only [List.mem_cons, List.not_mem_nil, or_false, not_or] at hreg
  obtain ⟨hfifo, hirq, hop, hdio⟩ := hreg
  refine Watch.Like.trans (?_ : Watch.Like _ d.link.tick) h.tick
  simp only [write, HostLink.write, if_neg hirq, Radio.writeReg, if_neg hfifo]
  refine ⟨by rw [Watch.tick_world], ?_, ?_, rfl⟩
  · simp only [World.opMode, Watch.tick_world, Function.update_of_ne (Ne.symm hop)]
  · simp only [Watch.modeAfter, hop, hdio, false_and, if_false, Watch.tick_mode]

theorem burstRead_like (h : Watch.Like d.link w) (len : UInt8) :
    Watch.Like (d.burstRead Reg.fifo len).link w.tick := by
  refine Watch.Like.trans (?_ : Watch.Like _ d.link.tick) h.tick
  refine ⟨by rw [Watch.tick_world]; rfl, ?_, rfl, rfl⟩
  have hregs := (Radio.readBurst_fifo d.link.world.tick.radio len.toNat).2.2 Reg.opMode (by decide)
  rw [Watch.tick_world]
  exact congrArg (· &&& 0x07) hregs

/-- What is pending becomes lost. -/
theorem clear_like (h : Watch.Like d.link w) :
    Watch.Like (d.write Reg.irqFlags 0xff).link w.tick := by
  refine Watch.Like.trans (⟨?_, ?_, ?_, ?_⟩ : Watch.Like _ d.link.tick) h.tick
  · rw [Watch.tick_world]
    rfl
  · rw [Watch.tick_world]
    rfl
  · rw [write_link_mode, Watch.tick_mode]
    rfl
  · rw [Watch.marred, clear_lost]
    have hnone : (d.write Reg.irqFlags 0xff).link.awaits = false := by
      simp only [write, HostLink.write, Watch.clear, Watch.awaits]
      cases d.link.tick.txPending <;> cases d.link.tick.rxPending <;> rfl
    rw [hnone, Bool.or_false]

/-- Fetching a packet takes six transactions, the clearing of the flags among
them. -/
theorem fetchPacket_like (d : RF95 Watch) :
    Watch.Like d.fetchPacket.link (Watch.tick^[6] d.link) := by
  have hlen := read_like (Watch.Like.refl d.link) Reg.rxNbBytes (by decide)
  have haddr := read_like hlen Reg.fifoRxCurrentAddr (by decide)
  have hptr := write_like haddr Reg.fifoAddrPtr
    ((d.read Reg.rxNbBytes).2.read Reg.fifoRxCurrentAddr).1 (by decide)
  have hfifo := burstRead_like hptr (d.read Reg.rxNbBytes).1
  have hclear := clear_like hfifo
  exact read_like (d := { (RF95.burstRead _ _ _).write Reg.irqFlags 0xff with
    bufLen := (d.read Reg.rxNbBytes).1 }) hclear Reg.pktRssiValue (by decide)

/-- Once the radio is on standby nothing more is raised. -/
theorem setModeIdle_clear (h : d.mode ≠ .idle) :
    (d.setModeIdle.write Reg.irqFlags 0xff).link.lost = d.link.tick.marred := by
  have hidle : d.setModeIdle.link = (d.write Reg.opMode modeStdby).link := by
    rw [setModeIdle, if_pos h]
  have hop : (d.write Reg.opMode modeStdby).link.world.opMode = modeStdby := World.write_mode _ _
  rw [clear_lost, hidle, Watch.tick_idle (by rw [hop]; decide) (by rw [hop]; decide)]
  rfl

/-- **What the handler loses**: what is still pending when it has read the
flags, and what is raised up to the last clearing of them. -/
theorem handleInterrupt_lost (d : RF95 Watch) :
    d.handleInterrupt.link.lost
      = (Watch.tick^[if d.mode = .rx ∧ goodPacket (d.read Reg.irqFlags).1 = true then 7 else 1]
          (d.read Reg.irqFlags).2.link).marred := by
  rcases handleInterrupt_cases d with ⟨hrx, hgood, hd⟩ | ⟨hno, hd⟩
  · rw [hd, if_pos ⟨hrx, hgood⟩, handlePacket]
    have hlike := (fetchPacket_like (d.read Reg.irqFlags).2).tick.marred
    split_ifs
    · rw [setModeIdle_clear, validateRxBuf_link, hlike]
      · rfl
      · rw [validateRxBuf_mode, fetchPacket_mode, read_members, hrx]
        decide
    · rw [clear_lost, validateRxBuf_link, hlike]
      rfl
  · rw [if_neg hno]
    rcases hd with hd | ⟨htx, hd⟩ | hd
    · rw [hd]
      exact clear_lost _
    · rw [hd]
      refine setModeIdle_clear ?_
      show d.mode ≠ .idle
      rw [htx]
      decide
    · rw [hd]
      exact clear_lost _

/-- A call of `available` loses what was lost before and, unless the flags are
read and cleared in time, more. -/
theorem available_lost (d : RF95 Watch) :
    d.available.2.link.lost = false ↔ d.link.lost = false ∧ d.Unraced := by
  have hset : d.available.2.link.lost = d.poll.link.lost := by
    rw [available_eq]
    split_ifs
    · rfl
    · exact setModeRx_lost _
  have hread : d.flagsRead.link.lost = d.link.lost :=
    (read_lost _ _).trans (Watch.tick_lost d.link)
  have hticks : ∀ (n : ℕ) (w : Watch), (Watch.tick^[n] w).lost = w.lost := by
    intro n
    induction n with
    | zero => exact fun _ => rfl
    | succ n ih => exact fun w => (ih w.tick).trans (Watch.tick_lost w)
  rw [hset, Unraced]
  rcases poll_cases d with ⟨hany, hc, hd⟩ | ⟨hno, hd⟩
  · have hfetches : d.Fetches ↔
        d.mode = .rx ∧ goodPacket (d.uartAvailable.2.uartRead.2.read Reg.irqFlags).1 = true :=
      ⟨fun h => h.2.2, fun h => ⟨hany, hc, h⟩⟩
    rw [hd, handleInterrupt_lost]
    simp only [uartRead_members, uartAvailable_members, hfetches, hany, forall_const]
    rw [Watch.marred, Bool.or_eq_false_iff, hticks]
    exact and_congr_left' (by rw [← hread]; rfl)
  · -- every octet on the line is an `'I'`
    have hany : d.uartAvailable.1 ≠ true := fun h => hno ⟨h, rfl⟩
    have hlost : d.poll.link.lost = d.link.lost := by
      rcases hd with hd | hd
      · rw [hd]
        exact Watch.tick_lost _
      · rw [hd]
        exact Watch.tick_lost _
    rw [hlost]
    simp [hany]

theorem wait_lost {n : ℕ} : ∀ d : RF95 Watch,
    (d.wait n).link.lost = false ↔ d.link.lost = false ∧ UnracedFor n d := by
  induction n with
  | zero => exact fun d => (and_iff_left trivial).symm
  | succ n ih =>
    intro d
    rw [wait, UnracedFor]
    split_ifs with htx
    · rw [ih, available_lost, and_assoc]
      exact and_congr_right fun _ => ⟨fun h _ => h, fun h => h htx⟩
    · exact (and_iff_left fun h => absurd h htx).symm

/-! ### A transmission that ends -/

/-- What every operation keeps: the link knows `_mode`, and while it is
`RHModeTx` the transmission has still to end, or to be noticed, unless a flag
is lost. -/
structure Kept (d : RF95 Watch) : Prop where
  mode : d.link.mode = d.mode
  sending : d.mode = .tx → d.link.world.Sending ∨ d.link.lost = true

theorem Kept.of_mode (hmode : d.link.mode = d.mode) (h : d.mode ≠ .tx) : d.Kept where
  mode := hmode
  sending htx := absurd htx h

/-- The handler leaves `RHModeTx` if the transmission has ended before the
flags are read. -/
theorem handleInterrupt_sends (hmode : d.link.mode = d.mode) (htx : d.mode = .tx)
    (h : d.link.world.Sending ∨ d.link.lost = true) (hafter : d.handleInterrupt.mode = .tx) :
    d.handleInterrupt.link.world.Sending ∨ d.handleInterrupt.link.lost = true := by
  rw [handleInterrupt_sending htx] at hafter ⊢
  split_ifs at hafter ⊢ with hdone
  · rw [write_members, setModeIdle_members] at hafter
    cases hafter
  · have hworld : (d.read Reg.irqFlags).2.link.world = d.link.world.tick := rfl
    have hunderway : (d.read Reg.irqFlags).2.link.Underway := by
      rcases h with h | h
      · rcases h.tick with hop | hflag
        · exact .inl hop
        · exact absurd hflag hdone
      · exact .inr (.inr ((read_lost d _).trans h))
    have hmode' : (d.read Reg.irqFlags).2.link.mode = .tx :=
      (mode_stable.read Reg.irqFlags hmode).trans htx
    rw [clear_lost]
    rcases hunderway.tick hmode' with hop | hpending | hlost
    · rw [Watch.tick_world] at hop
      exact .inl (.inl hop)
    · exact .inr (by simp [Watch.marred, Watch.awaits, hpending])
    · exact .inr (by simp [Watch.marred, hlost])

theorem available_kept (h : d.Kept) : d.available.2.Kept := by
  refine ⟨mode_stable.available h.mode, fun htx => ?_⟩
  have htx₀ := available_tx htx
  have hpolled : d.link.world.tick.Sending ∨ d.link.tick.lost = true := by
    rcases h.sending htx₀ with hw | hw
    · exact .inl hw.tick
    · exact .inr ((Watch.tick_lost _).trans hw)
  have hmode : d.uartAvailable.2.uartRead.2.link.mode = d.uartAvailable.2.uartRead.2.mode :=
    mode_stable.uartRead (mode_stable.uartAvailable h.mode)
  rw [available_eq] at htx ⊢
  split_ifs at htx ⊢ with hpoll
  · rcases poll_cases d with ⟨-, -, hd⟩ | ⟨-, hd | hd⟩
    · rw [hd] at hpoll ⊢
      exact handleInterrupt_sends hmode htx₀ hpolled hpoll
    · rw [hd]
      exact hpolled
    · rw [hd]
      exact hpolled
  · rw [setModeRx_members] at htx
    cases htx

theorem wait_kept {n : ℕ} : ∀ {d : RF95 Watch}, d.Kept → (d.wait n).Kept := by
  induction n with
  | zero => exact fun h => h
  | succ n ih =>
    intro d h
    rw [wait]
    split_ifs
    · exact ih (available_kept h)
    · exact h

/-- The transmitter runs once its mode is set, or has already finished. -/
theorem setModeTx_sends (h : d.mode ≠ .tx) : d.setModeTx.link.world.Sending := by
  have hop : (d.write Reg.opMode modeTx).link.world.Sending := .inl (World.write_mode _ _)
  rw [setModeTx, if_pos h]
  exact hop.tick

theorem setModeTx_kept (h : d.Kept) : d.setModeTx.Kept := by
  refine ⟨mode_stable.setModeTx h.mode, fun _ => ?_⟩
  by_cases htx : d.mode = .tx
  · rw [setModeTx, if_neg (not_not.mpr htx)]
    exact h.sending htx
  · exact .inl (setModeTx_sends htx)

theorem transmit_kept (h : d.Kept) (data : List UInt8) : (d.transmit data).Kept := by
  refine ⟨mode_stable.transmit h.mode data, fun _ => .inl (setModeTx_sends ?_)⟩
  simp only [write_members, burstWrite_members, setModeIdle_members]
  decide

/-- The radio always reads back the sleep mode that `init` writes. -/
theorem init_succeeds (d : RF95 Watch) : d.init.1 = true := by
  set w := HostLink.write Reg.opMode (modeSleep ||| longRangeMode) d.link.world with hw
  have hasleep : w.opMode ≠ modeTx := by
    rw [hw, World.write_mode]
    decide
  have hread : ((d.write Reg.opMode (modeSleep ||| longRangeMode)).read Reg.opMode).1
      = modeSleep ||| longRangeMode := World.tick_opMode hasleep
  simp [init, hread]

theorem init_kept (h : d.Kept) : d.init.2.Kept := by
  refine Kept.of_mode (mode_stable.init (fun hd => hd) h.mode) ?_
  simp [init_members (init_succeeds d)]

theorem init_lost (d : RF95 Watch) : d.init.2.link.lost = d.link.lost := by
  refine init_induct (P := fun d' => d'.link.lost = d.link.lost) (init_succeeds d) ?_
    (fun d' hd' => (setModeIdle_lost d').trans hd') (fun d' reg val hreg hd' => ?_)
  · exact (read_lost _ _).trans (write_lost d (by decide))
  · refine (write_lost d' ?_).trans hd'
    rintro rfl
    exact absurd hreg (by decide)

/-! ### Operations -/

theorem undertake_kept (h : d.Kept) (op : Operation) : (d.undertake op).Kept := by
  cases op with
  | init => exact init_kept h
  | available => exact available_kept h
  | recv dest =>
    have hav := available_kept h
    rw [undertake, recv_eq]
    split_ifs
    · exact ⟨hav.mode, hav.sending⟩
    · exact hav
  | send rounds data =>
    rw [undertake]
    split_ifs
    · exact h
    · exact wait_kept h
    · exact transmit_kept (wait_kept h) data
  | waitPacketSent rounds => exact wait_kept h
  | sleep => exact Kept.of_mode (mode_stable.sleep h.mode) (by simp [undertake, sleep_members])
  | setModeIdle =>
    exact Kept.of_mode (mode_stable.setModeIdle h.mode) (by simp [undertake, setModeIdle_members])
  | setModeRx =>
    exact Kept.of_mode (mode_stable.setModeRx h.mode) (by simp [undertake, setModeRx_members])
  | setModeTx => exact setModeTx_kept h

/-- An operation loses nothing exactly if it is spared. -/
theorem undertake_lost (h : d.link.lost = false) (op : Operation) :
    d.Spared op ↔ (d.undertake op).link.lost = false := by
  cases op with
  | init => exact iff_of_true trivial ((init_lost d).trans h)
  | available => exact ((available_lost d).trans (and_iff_right h)).symm
  | recv dest =>
    have hrecv : (d.recv dest).2.link = d.available.2.link := by
      rw [recv_eq]
      split_ifs <;> rfl
    rw [Spared, undertake, hrecv]
    exact ((available_lost d).trans (and_iff_right h)).symm
  | send rounds data =>
    have hwait := (wait_lost (n := rounds) d).trans (and_iff_right h)
    rw [Spared, undertake]
    split_ifs with hlen htx
    · exact iff_of_true (fun hle => absurd hlen (Nat.not_lt.mpr hle)) h
    · rw [hwait]
      exact forall_prop_of_true (Nat.not_lt.mp hlen)
    · rw [transmit_lost, hwait]
      exact forall_prop_of_true (Nat.not_lt.mp hlen)
  | waitPacketSent rounds => exact ((wait_lost d).trans (and_iff_right h)).symm
  | sleep => exact iff_of_true trivial ((sleep_lost d).trans h)
  | setModeIdle => exact iff_of_true trivial ((setModeIdle_lost d).trans h)
  | setModeRx => exact iff_of_true trivial ((setModeRx_lost d).trans h)
  | setModeTx => exact iff_of_true trivial ((setModeTx_lost d).trans h)

end Lost

/-! ### A transmission that nobody ends -/

section Stuck

variable {d : RF95 World}

/-- The driver is in `RHModeTx`, the radio has finished, and its TX_DONE is
cleared. -/
def Stuck (d : RF95 World) : Prop := d.mode = .tx ∧ ¬ d.link.Sending

instance (d : RF95 World) : Decidable d.Stuck := inferInstanceAs (Decidable (_ ∧ _))

/-- Whatever the radio and the line do, `available` changes nothing of this. -/
theorem stuck_available (h : d.Stuck) : d.available.2.Stuck := by
  obtain ⟨htx, hsending⟩ := h
  have hpolled := World.tick_not_sending hsending
  suffices hpoll : d.poll.Stuck by
    rw [available_eq, if_pos hpoll.1]
    exact hpoll
  rcases poll_cases d with ⟨-, -, hd⟩ | ⟨-, hd | hd⟩
  · have hmode : d.uartAvailable.2.uartRead.2.mode = .tx := htx
    have hread : ¬ (d.uartAvailable.2.uartRead.2.read Reg.irqFlags).2.link.Sending :=
      World.tick_not_sending (w := d.uartAvailable.2.uartRead.2.link) hpolled
    have hflag : ¬ (d.uartAvailable.2.uartRead.2.read Reg.irqFlags).1 &&& txDone ≠ 0 :=
      fun hdone => hread (.inr hdone)
    rw [hd, handleInterrupt_sending hmode, if_neg hflag]
    refine ⟨htx, ?_⟩
    -- the flags are cleared, and the mode of the radio is left alone
    rintro (hop | hdone)
    · exact World.tick_not_sending hread (.inl hop)
    · rw [write, World.clear_irqFlags] at hdone
      exact hdone rfl
  · rw [hd]
    exact ⟨htx, hpolled⟩
  · rw [hd]
    exact ⟨htx, hpolled⟩

/-- **Nothing ends the wait for the packet**: `waitPacketSent` and `send` do
not return, however long they wait and whatever happens meanwhile. -/
theorem stuck_waits (h : d.Stuck) (n : ℕ) :
    d.waitPacketSent n = none ∧
      ∀ data, data.length ≤ maxMessageLen → d.send n data = none := by
  have hwait : d.waitPacketSent n = none := by
    induction n generalizing d with
    | zero => rw [waitPacketSent, if_pos h.1]
    | succ n ih =>
      rw [waitPacketSent, if_pos h.1]
      exact ih (stuck_available h)
  refine ⟨hwait, fun data hlen => ?_⟩
  rw [send, if_neg (Nat.not_lt.mpr hlen), hwait]
  rfl

end Stuck

/-! ### Runs -/

/-- One step of a run: an operation, or some rounds of one that waits. -/
def advance {σ : Type} [HostLink σ] (d : RF95 σ) (op : Operation) : Option (RF95 σ) :=
  some (d.undertake op)

/-- The runs of operations that return are among these. -/
theorem run_advance {σ : Type} [HostLink σ] {ops : List Operation} : ∀ {d d' : RF95 σ},
    run perform d ops = some d' → run advance d ops = some d' := by
  induction ops with
  | nil => exact fun h => h
  | cons op ops ih =>
    intro d d' h
    obtain ⟨d₁, h₁, h₂⟩ := run_cons.mp h
    exact run_cons.mpr ⟨d₁, congrArg some (undertake_of_perform h₁), ih h₂⟩

/-- The runs over the link that follows the flags are those over the world. -/
theorem run_view {σ τ : Type} [HostLink σ] [HostLink τ] {f : σ → τ} (hf : View f)
    {ops : List Operation} : ∀ d : RF95 σ,
      run advance (d.view f) ops = (run advance d ops).map (view f) := by
  induction ops with
  | nil => exact fun _ => rfl
  | cons op ops ih =>
    intro d
    have hstep : (d.view f).undertake op = (d.undertake op).view f := view_undertake hf d op
    exact (congrArg (fun d => run advance d ops) hstep).trans (ih (d.undertake op))

/-- A driver as constructed, over a world with any events to come. -/
def watched (m : Members) (w : World) : RF95 Watch where
  toMembers := { m with mode := .initialising }
  link := Watch.start w

/-- **The runs that lose no event** are those in which the flags are always
read and cleared in time.  In such a run no state waits for the end of a
transmission that has ended unnoticed. -/
theorem events_kept_iff (m : Members) (w : World) (ops : List Operation) :
    AllSteps advance Spared (watched m w) ops ↔
      ∀ ops' d, ops' <+: ops → run advance (watched m w) ops' = some d →
        d.link.lost = false ∧ ¬ (d.view Watch.world).Stuck := by
  have hkept : (watched m w).Kept := Kept.of_mode rfl (by simp [watched])
  have hstep : ∀ (d : RF95 Watch) op d', d.Kept → advance d op = some d' → d'.Kept := by
    intro d op d' h hd
    exact Option.some.inj hd ▸ undertake_kept h op
  have hruns : AllSteps advance Spared (watched m w) ops ↔
      ∀ ops' d, ops' <+: ops → run advance (watched m w) ops' = some d → d.link.lost = false := by
    refine allSteps_iff_prefixes hstep (fun _ _ h => by cases h) ?_ hkept rfl
    intro d op d' _ h hd
    exact Option.some.inj hd ▸ undertake_lost h op
  rw [hruns]
  constructor
  · intro h ops' d hops hd
    have hlost := h ops' d hops hd
    refine ⟨hlost, fun hstuck => ?_⟩
    rcases (run_invariant hstep hkept hd).sending hstuck.1 with hsending | hlost'
    · exact hstuck.2 hsending
    · rw [hlost] at hlost'
      cases hlost'
  · intro h ops' d hops hd
    exact (h ops' d hops hd).1

/-- A radio that raises three flags, with an `'I'` for each: RX_DONE for a
packet for another node, RX_DONE again while the first packet is fetched, and
TX_DONE just after the handler, for the second `'I'`, has read the flags. -/
def racingWorld : World :=
  let first : Packet := ⟨[9, 3, 0, 0, 0x61], false, 0, by decide⟩
  let second : Packet := ⟨[9, 3, 1, 0, 0x62], false, 5, by decide⟩
  World.powerUp <| [List.replicate 18 [], [[.packet first, .notify]], List.replicate 6 [],
    [[.packet second, .notify]], List.replicate 13 [], [[.txDone, .notify]]].flatten

/-- The second packet is lost, and then the end of the transmission: the
message has been sent, and `waitPacketSent` does not return. -/
theorem txDone_lost :
    ∃ d, run advance (watched { Members.constructed with thisAddress := 1 } racingWorld)
        [.init, .available, .available, .send 0 [0x61], .waitPacketSent 4] = some d ∧
      d.link.lost = true ∧ (d.view Watch.world).Stuck ∧
        ∀ n, (d.view Watch.world).waitPacketSent n = none := by
  refine ⟨_, rfl, by decide +kernel, by decide +kernel, fun n => ?_⟩
  exact (stuck_waits (by decide +kernel) n).1

end RF95
