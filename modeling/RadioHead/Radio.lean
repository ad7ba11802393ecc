/-
The radio behind the link.

A model of the registers of the radio that the driver uses: the FIFO with its
auto-incrementing address pointer, the IRQ flags (raised by the radio, cleared
by writing ones), and plain storage for the rest.  The radio acts on its own
between any two register transactions of the host, following a schedule of
events: a packet arrives, a transmission ends, a receive timeout is flagged,
an `'I'` reaches the host.

* `Radio` — registers and FIFO; `World` — the radio, the `'I'`s waiting at the
  host, the events to come, and the packets reported so far;
* the `HostLink` instance: register accesses over an undisturbed line;
* `Holds`, `Tracks` — the radio holds the packet it reported last, for as long
  as its RX_DONE flag is set; `Tracks.tick` — whatever it does on its own.
-/
import RadioHead.RF95

structure Radio where
  regs : UInt8 → UInt8
  fifo : UInt8 → UInt8

namespace Radio

/-- A register read.  Reading the FIFO moves its address pointer on. -/
def readReg (r : Radio) (reg : UInt8) : UInt8 × Radio :=
  if reg = Reg.fifo then
    (r.fifo (r.regs Reg.fifoAddrPtr),
      { r with regs := Function.update r.regs Reg.fifoAddrPtr (r.regs Reg.fifoAddrPtr + 1) })
  else (r.regs reg, r)

/-- A register write.  Writing the FIFO moves its address pointer on, and the
IRQ flags are cleared by ones. -/
def writeReg (r : Radio) (reg val : UInt8) : Radio :=
  if reg = Reg.fifo then
    { fifo := Function.update r.fifo (r.regs Reg.fifoAddrPtr) val
      regs := Function.update r.regs Reg.fifoAddrPtr (r.regs Reg.fifoAddrPtr + 1) }
  else if reg = Reg.irqFlags then
    { r with regs := Function.update r.regs reg (r.regs reg &&& ~~~val) }
  else { r with regs := Function.update r.regs reg val }

/-- The register after `reg` in a burst: the FIFO is read over and over. -/
def nextReg (reg : UInt8) : UInt8 := if reg = Reg.fifo then Reg.fifo else reg + 1

def readBurst (r : Radio) (reg : UInt8) : ℕ → List UInt8 × Radio
  | 0 => ([], r)
  | n + 1 =>
    ((r.readReg reg).1 :: ((r.readReg reg).2.readBurst (nextReg reg) n).1,
      ((r.readReg reg).2.readBurst (nextReg reg) n).2)

def writeBurst (r : Radio) (reg : UInt8) : List UInt8 → Radio
  | [] => r
  | c :: cs => (r.writeReg reg c).writeBurst (nextReg reg) cs

/-- The FIFO octets from an address on, modulo the size of the FIFO. -/
def octets (r : Radio) (addr : UInt8) (n : ℕ) : List UInt8 :=
  (List.range n).map fun i => r.fifo (addr + UInt8.ofNat i)

theorem readBurst_fifo (r : Radio) (n : ℕ) :
    (r.readBurst Reg.fifo n).1 = r.octets (r.regs Reg.fifoAddrPtr) n ∧
      (r.readBurst Reg.fifo n).2.fifo = r.fifo ∧
      ∀ reg, reg ≠ Reg.fifoAddrPtr → (r.readBurst Reg.fifo n).2.regs reg = r.regs reg := by
  induction n generalizing r with
  | zero => exact ⟨rfl, rfl, fun _ _ => rfl⟩
  | succ n ih =>
    obtain ⟨h₁, h₂, h₃⟩ := ih (r.readReg Reg.fifo).2
    refine ⟨?_, h₂, fun reg hreg => ?_⟩
    · rw [readBurst, nextReg, if_pos rfl, h₁, octets, octets, List.range_succ_eq_map,
        List.map_cons, List.map_map]
      refine congrArg₂ List.cons (by simp [readReg]) (List.map_congr_left fun i _ => ?_)
      have haddr : r.regs Reg.fifoAddrPtr + 1 + UInt8.ofNat i
          = r.regs Reg.fifoAddrPtr + UInt8.ofNat (i + 1) := by
        rw [UInt8.ofNat_add, add_assoc, add_comm (UInt8.ofNat i)]
        rfl
      simpa [readReg] using congrArg r.fifo haddr
    · rw [readBurst, nextReg, if_pos rfl, h₃ reg hreg, readReg, if_pos rfl]
      exact Function.update_of_ne hreg _ _

end Radio

/-! ### Packets and events -/

/-- A packet as it comes off the air: its octets, whether its CRC is wrong,
and where in the FIFO the radio puts it. -/
structure Packet where
  octets : List UInt8
  crcError : Bool
  addr : UInt8
  length_lt : octets.length < 256

/-- A packet reported to the host: with the IRQ flags as they were then. -/
structure Report where
  packet : Packet
  irqFlags : UInt8

/-- What the radio, the bridge and the line may do on their own. -/
inductive RadioEvent where
  | packet (p : Packet)
  | txDone
  | rxTimeout
  | notify

/-- The radio, the `'I'`s that wait at the host, the batches of events to come
(one for each register transaction), and every packet reported so far. -/
structure World where
  radio : Radio
  pending : ℕ
  sched : List (List RadioEvent)
  reports : List Report

namespace World

/-- The mode bits of the operating mode register. -/
def opMode (w : World) : UInt8 := w.radio.regs Reg.opMode &&& 0x07

def irqFlags (w : World) : UInt8 := w.radio.regs Reg.irqFlags

/-- The radio raises IRQ flags. -/
def raise (w : World) (flags : UInt8) : World :=
  { w with radio := { w.radio with
      regs := Function.update w.radio.regs Reg.irqFlags (w.irqFlags ||| flags) } }

/-- The octets of a packet go into the FIFO from its address on. -/
def fillFifo (fifo : UInt8 → UInt8) (p : Packet) : UInt8 → UInt8 := fun a =>
  if (a - p.addr).toNat < p.octets.length then p.octets.getD (a - p.addr).toNat 0 else fifo a

/-- The flags raised for a packet. -/
def packetFlags (p : Packet) : UInt8 :=
  if p.crcError then rxDone ||| payloadCrcError else rxDone

/-- A packet is received. -/
def receive (w : World) (p : Packet) : World :=
  { w with
    radio :=
      { fifo := fillFifo w.radio.fifo p
        regs := Function.update (Function.update (Function.update w.radio.regs
          Reg.rxNbBytes (UInt8.ofNat p.octets.length)) Reg.fifoRxCurrentAddr p.addr)
          Reg.irqFlags (w.irqFlags ||| packetFlags p) }
    reports := w.reports ++ [⟨p, w.irqFlags ||| packetFlags p⟩] }

/-- One event.  Packets only arrive while the receiver runs, and a
transmission only ends while there is one. -/
def event (w : World) : RadioEvent → World
  | .packet p => if w.opMode = modeRxContinuous then w.receive p else w
  | .txDone =>
    if w.opMode = modeTx then
      { w with radio := { w.radio with
          regs := Function.update (w.raise txDone).radio.regs Reg.opMode modeStdby } }
    else w
  | .rxTimeout => w.raise rxTimeout
  | .notify => { w with pending := w.pending + 1 }

/-- The batch of events before a register transaction. -/
def tick (w : World) : World :=
  match w.sched with
  | [] => w
  | batch :: sched => batch.foldl event { w with sched := sched }

/-- Register accesses over an undisturbed line: the batch of events first,
then the transaction.  The look at the line is for fewer than 256 octets: from
there on the source returns their number modulo 256. -/
instance : HostLink World where
  uartAvailable w := (decide (0 < w.tick.pending), w.tick)
  uartRead w := (Wire.chI, { w with pending := w.pending - 1 })
  read reg w := ((w.tick.radio.readReg reg).1,
    { w.tick with radio := (w.tick.radio.readReg reg).2 })
  write reg val w := { w.tick with radio := w.tick.radio.writeReg reg val }
  burstRead reg len w := ((w.tick.radio.readBurst reg len.toNat).1,
    { w.tick with radio := (w.tick.radio.readBurst reg len.toNat).2 })
  burstWrite reg data w := { w.tick with radio := w.tick.radio.writeBurst reg data }

/-- After a write to the operating mode register the radio is in that mode. -/
theorem write_mode (w : World) (val : UInt8) :
    (HostLink.write Reg.opMode val w).opMode = val &&& 0x07 := by
  simp only [HostLink.write, opMode, Radio.writeReg,
    if_neg (show Reg.opMode ≠ Reg.fifo by decide),
    if_neg (show Reg.opMode ≠ Reg.irqFlags by decide), Function.update_self]

/-- Clearing all IRQ flags. -/
theorem clear_irqFlags (w : World) : (HostLink.write Reg.irqFlags 0xff w).irqFlags = 0 := by
  have hclear : (HostLink.write Reg.irqFlags 0xff w).irqFlags = w.tick.irqFlags &&& ~~~0xff := by
    rw [irqFlags]
    simp only [HostLink.write, Radio.writeReg, if_neg (show Reg.irqFlags ≠ Reg.fifo by decide),
      if_true, Function.update_self]
    rfl
  rw [hclear]
  exact UInt8.and_zero

/-- A radio just reset, and the events to come. -/
def powerUp (sched : List (List RadioEvent)) : World where
  radio := { regs := fun _ => 0, fifo := fun _ => 0 }
  pending := 0
  sched := sched
  reports := []

/-! ### The packet in the radio -/

/-- The radio holds the packet it reported last. -/
structure Holds (w : World) (r : Report) : Prop where
  last : w.reports.getLast? = some r
  length : w.radio.regs Reg.rxNbBytes = UInt8.ofNat r.packet.octets.length
  addr : w.radio.regs Reg.fifoRxCurrentAddr = r.packet.addr
  octets : w.radio.octets r.packet.addr r.packet.octets.length = r.packet.octets

/-- While RX_DONE is set, the radio holds the packet it reported last, and the
flags this packet was reported with are still raised. -/
def Tracks (w : World) : Prop :=
  w.irqFlags &&& rxDone ≠ 0 →
    ∃ r, w.Holds r ∧ r.irqFlags &&& rxDone ≠ 0 ∧ r.irqFlags &&& w.irqFlags = r.irqFlags

theorem Holds.congr {w w' : World} {r : Report} (h : w.Holds r) (hrep : w'.reports = w.reports)
    (hregs : ∀ reg, reg = Reg.rxNbBytes ∨ reg = Reg.fifoRxCurrentAddr →
      w'.radio.regs reg = w.radio.regs reg)
    (hfifo : w'.radio.fifo = w.radio.fifo) : w'.Holds r where
  last := hrep ▸ h.last
  length := (hregs _ (.inl rfl)).trans h.length
  addr := (hregs _ (.inr rfl)).trans h.addr
  octets := by
    rw [Radio.octets, hfifo]
    exact h.octets

theorem and_or_distrib (a b c : UInt8) : (a ||| b) &&& c = a &&& c ||| b &&& c :=
  UInt8.toBitVec_inj.mp BitVec.and_or_distrib_right

/-- More flags raised, and nothing else changed. -/
theorem Tracks.raise {w w' : World} (h : w.Tracks) (flags : UInt8)
    (hflags : w'.irqFlags = w.irqFlags ||| flags) (hnew : flags &&& rxDone = 0)
    (hrep : w'.reports = w.reports)
    (hregs : ∀ reg, reg = Reg.rxNbBytes ∨ reg = Reg.fifoRxCurrentAddr →
      w'.radio.regs reg = w.radio.regs reg)
    (hfifo : w'.radio.fifo = w.radio.fifo) : w'.Tracks := by
  intro hdone
  rw [hflags, and_or_distrib, hnew, UInt8.or_zero] at hdone
  obtain ⟨r, hr, hrdone, hrflags⟩ := h hdone
  refine ⟨r, hr.congr hrep hregs hfifo, hrdone, ?_⟩
  rw [hflags, UInt8.and_comm, and_or_distrib, UInt8.and_comm _ r.irqFlags, hrflags]
  exact UInt8.toBitVec_inj.mp (by ext i; simp)

theorem Tracks.congr {w w' : World} (h : w.Tracks) (hradio : w'.radio = w.radio)
    (hrep : w'.reports = w.reports) : w'.Tracks := by
  have hflags : w'.irqFlags = w.irqFlags := by rw [irqFlags, hradio, irqFlags]
  refine h.raise 0 (by rw [hflags, UInt8.or_zero]) rfl hrep (fun reg _ => ?_) ?_
  · rw [hradio]
  · rw [hradio]

theorem packetFlags_rxDone (p : Packet) : packetFlags p &&& rxDone ≠ 0 := by
  rw [packetFlags]
  split_ifs <;> decide

/-- A packet just received is in the FIFO. -/
theorem receive_holds (w : World) (p : Packet) :
    (w.receive p).Holds ⟨p, w.irqFlags ||| packetFlags p⟩ where
  last := List.getLast?_concat
  length := rfl
  addr := rfl
  octets := by
    refine List.ext_getElem (by simp [Radio.octets]) fun i hi hi' => ?_
    have haddr : (p.addr + UInt8.ofNat i - p.addr).toNat = i := by
      rw [add_sub_cancel_left, UInt8.toNat_ofNat']
      exact Nat.mod_eq_of_lt (hi'.trans p.length_lt)
    simp only [Radio.octets, receive, fillFifo, List.getElem_map, List.getElem_range, haddr]
    rw [if_pos hi', List.getD_eq_getElem]

theorem event_tracks {w : World} (h : w.Tracks) (e : RadioEvent) : (w.event e).Tracks := by
  cases e with
  | packet p =>
    rw [event]
    split_ifs
    · refine fun _ => ⟨_, receive_holds w p, ?_, UInt8.and_self⟩
      rw [and_or_distrib]
      exact fun h0 => packetFlags_rxDone p (UInt8.or_eq_zero_iff.mp h0).2
    · exact h
  | txDone =>
    rw [event]
    split_ifs
    · exact h.raise _ rfl (by decide) rfl (by rintro _ (rfl | rfl) <;> rfl) rfl
    · exact h
  | rxTimeout => exact h.raise _ rfl (by decide) rfl (by rintro _ (rfl | rfl) <;> rfl) rfl
  | notify => exact h.congr rfl rfl

/-- What every event preserves, a batch of them preserves. -/
theorem tick_induct {P : World → Prop} (hsched : ∀ w s, P w → P { w with sched := s })
    (hevent : ∀ w e, P w → P (w.event e)) {w : World} (h : P w) : P w.tick := by
  have hbatch : ∀ (batch : List RadioEvent) (w : World), P w → P (batch.foldl event w) := by
    intro batch
    induction batch with
    | nil => exact fun _ hw => hw
    | cons e batch ih => exact fun w hw => ih _ (hevent w e hw)
  rw [tick]
  split
  · exact h
  · exact hbatch _ _ (hsched _ _ h)

theorem Tracks.tick {w : World} (h : w.Tracks) : w.tick.Tracks :=
  tick_induct (P := Tracks) (fun _ _ hw => hw.congr rfl rfl) (fun _ e hw => event_tracks hw e) h

/-- The radio does not clear flags on its own. -/
theorem tick_rxDone {w : World} (h : w.irqFlags &&& rxDone ≠ 0) :
    w.tick.irqFlags &&& rxDone ≠ 0 := by
  have hraise : ∀ a b : UInt8, a &&& rxDone ≠ 0 → (a ||| b) &&& rxDone ≠ 0 := by
    intro a b ha h0
    rw [and_or_distrib] at h0
    exact ha (UInt8.or_eq_zero_iff.mp h0).1
  refine tick_induct (P := fun w => w.irqFlags &&& rxDone ≠ 0) (fun _ _ hw => hw)
    (fun w e hw => ?_) h
  cases e with
  | packet p =>
    rw [event]
    split_ifs
    · exact hraise _ _ hw
    · exact hw
  | txDone =>
    rw [event]
    split_ifs
    · exact hraise _ _ hw
    · exact hw
  | rxTimeout => exact hraise _ _ hw
  | notify => exact hw

/-- The registers that the radio changes on its own. -/
def ownRegs : List UInt8 := [Reg.opMode, Reg.irqFlags, Reg.rxNbBytes, Reg.fifoRxCurrentAddr]

/-- The radio leaves the other registers alone. -/
theorem tick_regs (w : World) {reg : UInt8} (h : reg ∉ ownRegs) :
    w.tick.radio.regs reg = w.radio.regs reg := by
  simp only [ownRegs, List.mem_cons, List.not_mem_nil, or_false, not_or] at h
  obtain ⟨hop, hirq, hlen, haddr⟩ := h
  refine tick_induct (P := fun w' => w'.radio.regs reg = w.radio.regs reg) (fun _ _ hw => hw)
    (fun w' e hw => ?_) rfl
  have hraise : ∀ flags, (w'.raise flags).radio.regs reg = w'.radio.regs reg := fun _ =>
    Function.update_of_ne hirq _ _
  cases e with
  | packet p =>
    rw [event]
    split_ifs
    · simp only [receive, Function.update_of_ne hirq, Function.update_of_ne haddr,
        Function.update_of_ne hlen]
      exact hw
    · exact hw
  | txDone =>
    rw [event]
    split_ifs
    · simp only [Function.update_of_ne hop, hraise]
      exact hw
    · exact hw
  | rxTimeout => exact (hraise _).trans hw
  | notify => exact hw

/-- The radio does not move the address pointer on its own. -/
theorem tick_fifoAddrPtr (w : World) :
    w.tick.radio.regs Reg.fifoAddrPtr = w.radio.regs Reg.fifoAddrPtr :=
  w.tick_regs (by decide)

/-- A radio that does not receive leaves its FIFO alone, and does not start to
receive. -/
theorem tick_deaf {w : World} (h : w.opMode ≠ modeRxContinuous) :
    w.tick.opMode ≠ modeRxContinuous ∧ w.tick.radio.fifo = w.radio.fifo := by
  refine tick_induct
    (P := fun w' => w'.opMode ≠ modeRxContinuous ∧ w'.radio.fifo = w.radio.fifo)
    (fun _ _ hw => hw) (fun w' e hw => ?_) ⟨h, rfl⟩
  have hraise : ∀ flags, (w'.raise flags).opMode = w'.opMode := by
    intro flags
    simp only [raise, opMode, Function.update_of_ne (show Reg.opMode ≠ Reg.irqFlags by decide)]
  cases e with
  | packet p =>
    rw [event, if_neg hw.1]
    exact hw
  | txDone =>
    rw [event]
    split_ifs
    · refine ⟨?_, hw.2⟩
      simp only [opMode, Function.update_self]
      decide
    · exact hw
  | rxTimeout => exact ⟨(hraise _).symm ▸ hw.1, hw.2⟩
  | notify => exact hw

/-- Reports are only ever added. -/
theorem reports_tick (w : World) : w.reports <+: w.tick.reports := by
  refine tick_induct (P := fun w' => w.reports <+: w'.reports) (fun _ _ hw => hw)
    (fun w' e hw => ?_) (List.prefix_refl _)
  cases e with
  | packet p =>
    rw [event]
    split_ifs
    · exact hw.trans (List.prefix_append _ _)
    · exact hw
  | txDone =>
    rw [event]
    split_ifs <;> exact hw
  | rxTimeout => exact hw
  | notify => exact hw

end World
