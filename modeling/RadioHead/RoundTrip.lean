/-
From the FIFO of one radio to the buffer of another.

`send` puts the four headers and the payload into the FIFO of its radio one
register write at a time, and starts the transmitter; `handleInterrupt` of the
receiver reads the packet back from wherever its radio has put it, and `recv`
hands out the payload.  The two agree on every message: what is sent is what
is received.

* `World.Loaded` — the octets loaded so far; `Loaded.put`, `Loaded.putAll` —
  one more octet, and a burst of them;
* `Awake` — the radio of an idle driver does not receive, so nothing comes
  between the octets;
* `transmit_loads` — what `send` leaves in the radio;
* `World.Calm` — the radio does nothing but notify;
* `available_gets` — what `available` makes of a packet;
* `send_recv` — the two together.
-/
import RadioHead.Reception

open Run Wire

/-! ### Loading the FIFO -/

namespace World

/-- The octets `m` are in the FIFO from address 0 on, the address pointer is
behind them, and the radio does not receive. -/
structure Loaded (w : World) (m : List UInt8) : Prop where
  deaf : w.opMode ≠ modeRxContinuous
  ptr : w.radio.regs Reg.fifoAddrPtr = UInt8.ofNat m.length
  octets : w.radio.octets 0 m.length = m

theorem Loaded.tick {w : World} {m : List UInt8} (h : w.Loaded m) : w.tick.Loaded m where
  deaf := (tick_deaf h.deaf).1
  ptr := w.tick_fifoAddrPtr.trans h.ptr
  octets := by
    rw [Radio.octets, (tick_deaf h.deaf).2]
    exact h.octets

/-- One more octet. -/
theorem Loaded.put {w : World} {m : List UInt8} (h : w.Loaded m) (hlt : m.length < 256)
    (c : UInt8) : { w with radio := w.radio.writeReg Reg.fifo c }.Loaded (m ++ [c]) := by
  have hptr : w.radio.regs Reg.fifoAddrPtr = UInt8.ofNat m.length := h.ptr
  rw [Radio.writeReg, if_pos rfl, hptr]
  refine ⟨?_, ?_, ?_⟩
  · have hop : Reg.opMode ≠ Reg.fifoAddrPtr := by decide
    simp only [opMode, Function.update_of_ne hop]
    exact h.deaf
  · simp only [Function.update_self, List.length_append, List.length_singleton, UInt8.ofNat_add]
    rfl
  · rw [List.length_append, List.length_singleton, Radio.octets, List.range_succ, List.map_append,
      List.map_singleton]
    simp only [zero_add, Function.update_self]
    congr 1
    conv_rhs => rw [← h.octets]
    refine List.map_congr_left fun i hi => ?_
    -- the addresses before do not wrap around to this one
    have hi' := List.mem_range.mp hi
    have hne : UInt8.ofNat i ≠ UInt8.ofNat m.length := by
      intro heq
      have h' := congrArg UInt8.toNat heq
      rw [UInt8.toNat_ofNat_of_lt' (hi'.trans hlt), UInt8.toNat_ofNat_of_lt' hlt] at h'
      omega
    rw [Function.update_of_ne hne, zero_add]

/-- A burst of octets. -/
theorem Loaded.putAll {data : List UInt8} : ∀ {w : World} {m : List UInt8}, w.Loaded m →
    m.length + data.length ≤ 256 →
      { w with radio := w.radio.writeBurst Reg.fifo data }.Loaded (m ++ data) := by
  induction data with
  | nil =>
    intro w m h _
    rw [List.append_nil]
    exact h
  | cons c data ih =>
    intro w m h hle
    rw [List.length_cons] at hle
    have hput := h.put (by omega) c
    have hrest := ih hput (by rw [List.length_append, List.length_singleton]; omega)
    rw [List.append_assoc] at hrest
    exact hrest

/-- A register other than those of the FIFO; the receiver is not turned on. -/
theorem Loaded.store {w : World} {m : List UInt8} (h : w.Loaded m) {reg val : UInt8}
    (hreg : reg ∉ [Reg.fifo, Reg.fifoAddrPtr, Reg.irqFlags])
    (hval : reg = Reg.opMode → val &&& 0x07 ≠ modeRxContinuous) :
    { w with radio := w.radio.writeReg reg val }.Loaded m := by
  simp only [List.mem_cons, List.not_mem_nil, or_false, not_or] at hreg
  obtain ⟨hfifo, hptr, hirq⟩ := hreg
  rw [Radio.writeReg, if_neg hfifo, if_neg hirq]
  refine ⟨?_, ?_, h.octets⟩
  · by_cases hop : reg = Reg.opMode
    · simp only [opMode, hop, Function.update_self]
      exact hval hop
    · simp only [opMode, Function.update_of_ne (Ne.symm hop)]
      exact h.deaf
  · simp only [Function.update_of_ne (Ne.symm hptr)]
    exact h.ptr

end World

namespace RF95

/-- The radio of an idle driver does not receive. -/
def Awake (d : RF95 World) : Prop := d.mode = .idle → d.link.opMode ≠ modeRxContinuous

section Transmit

variable {d d' : RF95 World}

theorem setModeIdle_deaf (h : d.Awake) : d.setModeIdle.link.opMode ≠ modeRxContinuous := by
  rw [setModeIdle]
  split_ifs with hidle
  · show (d.write Reg.opMode modeStdby).link.opMode ≠ modeRxContinuous
    rw [write, World.write_mode]
    decide
  · exact h (not_not.mp hidle)

theorem write_fifo_loaded {m : List UInt8} (h : d.link.Loaded m) (hlt : m.length < 256)
    (c : UInt8) : (d.write Reg.fifo c).link.Loaded (m ++ [c]) := h.tick.put hlt c

theorem write_loaded {m : List UInt8} {reg val : UInt8} (h : d.link.Loaded m)
    (hreg : reg ∉ [Reg.fifo, Reg.fifoAddrPtr, Reg.irqFlags])
    (hval : reg = Reg.opMode → val &&& 0x07 ≠ modeRxContinuous) :
    (d.write reg val).link.Loaded m := h.tick.store hreg hval

/-- The payload length register is written once. -/
theorem write_payloadLength {reg val : UInt8}
    (hreg : reg ∉ [Reg.fifo, Reg.irqFlags, Reg.payloadLength]) :
    (d.write reg val).link.radio.regs Reg.payloadLength = d.link.radio.regs Reg.payloadLength := by
  simp only [List.mem_cons, List.not_mem_nil, or_false, not_or] at hreg
  obtain ⟨hfifo, hirq, hlen⟩ := hreg
  simp only [write, HostLink.write, Radio.writeReg, if_neg hfifo, if_neg hirq,
    Function.update_of_ne (Ne.symm hlen)]
  exact World.tick_regs _ (by decide)

/-- The driver when it has loaded the FIFO. -/
def load (d : RF95 World) (data : List UInt8) : RF95 World :=
  (((((d.setModeIdle.write Reg.fifoAddrPtr 0).write Reg.fifo d.txHeaderTo).write
    Reg.fifo d.txHeaderFrom).write Reg.fifo d.txHeaderId).write
      Reg.fifo d.txHeaderFlags).burstWrite Reg.fifo data

/-- `send` then writes the payload length and starts the transmitter. -/
theorem transmit_link (d : RF95 World) (data : List UInt8) :
    (d.transmit data).link = ((((d.load data).write Reg.payloadLength
      (UInt8.ofNat (data.length + headerLen))).write Reg.opMode modeTx).write
        Reg.dioMapping1 0x40).link := by
  have hload : d.transmit data = ((d.load data).write Reg.payloadLength
      (UInt8.ofNat (data.length + headerLen))).setModeTx := by
    simp only [transmit, load, write_members, setModeIdle_members]
  have hmode : ((d.load data).write Reg.payloadLength
      (UInt8.ofNat (data.length + headerLen))).mode ≠ .tx := by
    simp only [load, write_members, burstWrite_members, setModeIdle_members]
    decide
  rw [hload, setModeTx, if_pos hmode]

theorem load_loaded (h : d.Awake) {data : List UInt8} (hlen : data.length ≤ maxMessageLen) :
    (d.load data).link.Loaded
      ([d.txHeaderTo, d.txHeaderFrom, d.txHeaderId, d.txHeaderFlags] ++ data) := by
  rw [maxMessageLen] at hlen
  have h₀ : (d.setModeIdle.write Reg.fifoAddrPtr 0).link.Loaded [] := by
    refine ⟨?_, rfl, rfl⟩
    simp only [write, HostLink.write, World.opMode, Radio.writeReg,
      if_neg (show Reg.fifoAddrPtr ≠ Reg.fifo by decide),
      if_neg (show Reg.fifoAddrPtr ≠ Reg.irqFlags by decide),
      Function.update_of_ne (show Reg.opMode ≠ Reg.fifoAddrPtr by decide)]
    exact (World.tick_deaf (setModeIdle_deaf h)).1
  -- the headers, one at a time
  have h₁ := write_fifo_loaded h₀ (by simp) d.txHeaderTo
  have h₂ := write_fifo_loaded h₁ (by simp) d.txHeaderFrom
  have h₃ := write_fifo_loaded h₂ (by simp) d.txHeaderId
  have h₄ := write_fifo_loaded h₃ (by simp) d.txHeaderFlags
  -- the payload
  exact h₄.tick.putAll (by simp; omega)

/-- **What `send` leaves in the radio**: the headers and the payload from FIFO
address 0 on, and their number in the payload length register. -/
theorem transmit_loads (h : d.Awake) {data : List UInt8} (hlen : data.length ≤ maxMessageLen) :
    (d.transmit data).link.radio.octets 0 (data.length + headerLen)
        = [d.txHeaderTo, d.txHeaderFrom, d.txHeaderId, d.txHeaderFlags] ++ data ∧
      ((d.transmit data).link.radio.regs Reg.payloadLength).toNat = data.length + headerLen := by
  set n := UInt8.ofNat (data.length + headerLen) with hn
  set d₁ := (d.load data).write Reg.payloadLength n with hd₁
  have h₁ : d₁.link.Loaded _ := write_loaded (load_loaded h hlen) (by decide)
    fun hop => absurd hop (by decide)
  have h₂ : (d₁.write Reg.opMode modeTx).link.Loaded _ := write_loaded h₁ (by decide)
    fun _ => by decide
  have h₃ : ((d₁.write Reg.opMode modeTx).write Reg.dioMapping1 0x40).link.Loaded _ :=
    write_loaded h₂ (by decide) fun hop => absurd hop (by decide)
  rw [transmit_link, ← hn, ← hd₁]
  constructor
  · have hoctets := h₃.octets
    rw [List.length_append, Nat.add_comm] at hoctets
    exact hoctets
  · rw [write_payloadLength (by decide), write_payloadLength (by decide)]
    have hstored : d₁.link.radio.regs Reg.payloadLength = n := rfl
    rw [hstored, hn, headerLen]
    rw [maxMessageLen] at hlen
    exact UInt8.toNat_ofNat_of_lt' (show data.length + 4 < 256 by omega)

/-! ### The radio of an idle driver -/

/-- `available` leaves the driver sending or receiving. -/
theorem available_mode (d : RF95 World) :
    d.available.2.mode = .tx ∨ d.available.2.mode = .rx := by
  rw [available_eq]
  split_ifs with htx
  · exact .inl htx
  · exact .inr (by rw [setModeRx_members])

theorem awake_of_mode (h : d.mode = .tx ∨ d.mode = .rx) : d.Awake := by
  intro hidle
  rw [hidle] at h
  rcases h with h | h <;> cases h

theorem waitPacketSent_awake {n : ℕ} : ∀ {d d' : RF95 World}, d.Awake →
    d.waitPacketSent n = some d' → d'.Awake := by
  induction n with
  | zero =>
    intro d d' h hd
    rw [waitPacketSent] at hd
    split_ifs at hd
    exact Option.some.inj hd ▸ h
  | succ n ih =>
    intro d d' h hd
    rw [waitPacketSent] at hd
    split_ifs at hd
    · exact ih (awake_of_mode (available_mode d)) hd
    · exact Option.some.inj hd ▸ h

/-- Every call keeps the radio of an idle driver from receiving. -/
theorem step_awake {c : Call World} (h : d.Awake) (hc : ∀ link, c ≠ .elapse link)
    (hd : d.step c = some d') : d'.Awake := by
  cases c with
  | available => exact Option.some.inj hd ▸ awake_of_mode (available_mode d)
  | recv dest =>
    have hrecv : (d.recv dest).2.mode = d.available.2.mode := by
      rw [recv_eq]
      split_ifs <;> rfl
    exact Option.some.inj hd ▸ awake_of_mode (hrecv ▸ available_mode d)
  | send rounds data =>
    obtain ⟨res, hres, rfl⟩ := Option.map_eq_some_iff.mp hd
    rw [send] at hres
    split_ifs at hres
    · exact Option.some.inj hres ▸ h
    · obtain ⟨d₁, -, rfl⟩ := Option.map_eq_some_iff.mp hres
      exact awake_of_mode (.inl (by rw [transmit_members]))
  | waitPacketSent rounds => exact waitPacketSent_awake h hd
  | sleep =>
    obtain rfl := Option.some.inj hd
    intro hidle
    rw [sleep_members] at hidle
    cases hidle
  | elapse link => exact absurd rfl (hc link)

theorem write_deaf (h : d.link.opMode ≠ modeRxContinuous) {reg val : UInt8}
    (hreg : reg ∉ [Reg.fifo, Reg.opMode, Reg.irqFlags]) :
    (d.write reg val).link.opMode ≠ modeRxContinuous := by
  simp only [List.mem_cons, List.not_mem_nil, or_false, not_or] at hreg
  obtain ⟨hfifo, hop, hirq⟩ := hreg
  simp only [write, HostLink.write, Radio.writeReg, if_neg hfifo, if_neg hirq, World.opMode,
    Function.update_of_ne (Ne.symm hop)]
  exact (World.tick_deaf h).1

/-- A successful `init` leaves the radio asleep or on standby. -/
theorem init_awake (hinit : d.init.1 = true) : d.init.2.Awake := by
  intro _
  have hconfig : ∀ reg ∈ configRegs, reg ∉ [Reg.fifo, Reg.opMode, Reg.irqFlags] := by
    decide +kernel
  refine init_induct (P := fun d => d.link.opMode ≠ modeRxContinuous) hinit ?_
    (fun d hd => setModeIdle_deaf fun _ => hd)
    (fun d reg val hreg hd => write_deaf hd (hconfig reg hreg))
  refine (World.tick_deaf ?_).1
  rw [write, World.write_mode]
  decide

end Transmit

end RF95

/-! ### Receiving a packet -/

namespace World

/-- Before the next `n` register transactions the radio does nothing but
notify. -/
def Calm (n : ℕ) (w : World) : Prop := ∀ batch ∈ w.sched.take n, ∀ e ∈ batch, e = .notify

theorem Calm.mono {m n : ℕ} {w : World} (h : w.Calm n) (hmn : m ≤ n) : w.Calm m :=
  fun batch hbatch => h batch (List.take_subset_take_left _ hmn hbatch)

theorem foldl_notify {batch : List RadioEvent} : (∀ e ∈ batch, e = .notify) → ∀ w : World,
    (batch.foldl event w).radio = w.radio ∧ (batch.foldl event w).sched = w.sched ∧
      w.pending ≤ (batch.foldl event w).pending := by
  induction batch with
  | nil => exact fun _ w => ⟨rfl, rfl, le_rfl⟩
  | cons e batch ih =>
    intro h w
    obtain rfl : e = .notify := h e List.mem_cons_self
    obtain ⟨hradio, hsched, hpending⟩ :=
      ih (fun e he => h e (List.mem_cons_of_mem _ he)) (w.event .notify)
    exact ⟨hradio, hsched, (Nat.le_succ _).trans hpending⟩

/-- Such a batch of events leaves the radio alone. -/
theorem Calm.tick {n : ℕ} {w : World} (h : w.Calm (n + 1)) :
    w.tick.Calm n ∧ w.tick.radio = w.radio ∧ w.pending ≤ w.tick.pending := by
  rw [Calm] at h ⊢
  rcases hsched : w.sched with _ | ⟨batch, sched⟩
  · have htick : w.tick = w := by simp only [World.tick, hsched]
    rw [htick, hsched]
    exact ⟨by simp, rfl, le_rfl⟩
  · rw [hsched, List.take_succ_cons] at h
    have htick : w.tick = batch.foldl event { w with sched := sched } := by
      simp only [World.tick, hsched]
    obtain ⟨hradio, hsched', hpending⟩ :=
      foldl_notify (h batch List.mem_cons_self) { w with sched := sched }
    rw [htick]
    refine ⟨?_, hradio, hpending⟩
    rw [hsched']
    exact fun b hb => h b (List.mem_cons_of_mem _ hb)

end World

namespace RF95

section Receive

variable {d : RF95 World} {p : Packet}

/-- The driver is receiving, with no error flagged. -/
structure Listening (d : RF95 World) : Prop where
  mode : d.mode = .rx
  opMode : d.link.opMode = modeRxContinuous
  irqFlags : d.link.irqFlags &&& (rxTimeout ||| payloadCrcError) = 0

/-- The radio receives a packet, and the host is notified. -/
def gets (d : RF95 World) (p : Packet) : RF95 World :=
  { d with link := (d.link.event (.packet p)).event .notify }

theorem gets_link (h : d.Listening) :
    (d.gets p).link = { d.link.receive p with pending := d.link.pending + 1 } := by
  simp only [gets, World.event, if_pos h.opMode]
  rfl

/-- The packet is fetched, from wherever it is in the FIFO. -/
theorem fetchPacket_calm {w : World} (hcalm : d.link.Calm 4)
    (hradio : d.link.radio = (w.receive p).radio) :
    d.fetchPacket.bufLen.toNat = p.octets.length ∧
      d.fetchPacket.buf.load 0 p.octets.length = p.octets := by
  have hr := World.receive_holds w p
  obtain ⟨hcalm₁, hradio₁, -⟩ := hcalm.tick
  obtain ⟨hcalm₂, hradio₂, -⟩ := hcalm₁.tick
  obtain ⟨hcalm₃, hradio₃, -⟩ := hcalm₂.tick
  have hlen : (d.read Reg.rxNbBytes).1.toNat = p.octets.length := by
    rw [show (d.read Reg.rxNbBytes).1 = d.link.tick.radio.regs Reg.rxNbBytes from rfl, hradio₁,
      hradio, hr.length, UInt8.toNat_ofNat']
    exact Nat.mod_eq_of_lt p.length_lt
  have haddr : ((d.read Reg.rxNbBytes).2.read Reg.fifoRxCurrentAddr).1 = p.addr := by
    rw [show ((d.read Reg.rxNbBytes).2.read Reg.fifoRxCurrentAddr).1
      = d.link.tick.tick.radio.regs Reg.fifoRxCurrentAddr from rfl, hradio₂, hradio₁, hradio,
      hr.addr]
  refine ⟨hlen, fetchPacket_load hlen haddr ?_⟩
  have hcalm₄ : (((d.read Reg.rxNbBytes).2.read Reg.fifoRxCurrentAddr).2.write Reg.fifoAddrPtr
      ((d.read Reg.rxNbBytes).2.read Reg.fifoRxCurrentAddr).1).link.Calm 1 := hcalm₃
  have hfifo : d.fifoRead.radio.fifo = (w.receive p).radio.fifo := by
    rw [fifoRead, hcalm₄.tick.2.1]
    show d.link.tick.tick.tick.radio.fifo = (w.receive p).radio.fifo
    rw [hradio₃, hradio₂, hradio₁, hradio]
  rw [Radio.octets, hfifo]
  exact hr.octets

/-- The radio when the driver has read the IRQ flags. -/
theorem gets_flagsRead {n : ℕ} (h : d.Listening) (hcalm : d.link.Calm (n + 2)) :
    (d.gets p).flagsRead.link.Calm n ∧
      (d.gets p).flagsRead.link.radio = (d.link.receive p).radio := by
  have hgets : (d.gets p).link.Calm (n + 2) := by
    rw [gets_link h]
    exact hcalm
  obtain ⟨hcalm₁, hradio₁, -⟩ := hgets.tick
  have hread : (d.gets p).uartAvailable.2.uartRead.2.link.Calm (n + 1) := hcalm₁
  obtain ⟨hcalm₂, hradio₂, -⟩ := hread.tick
  refine ⟨hcalm₂, ?_⟩
  show (d.gets p).uartAvailable.2.uartRead.2.link.tick.radio = (d.link.receive p).radio
  rw [hradio₂]
  show (d.gets p).link.tick.radio = (d.link.receive p).radio
  rw [hradio₁, gets_link h]

theorem gets_fetches (h : d.Listening) (hcrc : p.crcError = false) (hcalm : d.link.Calm 2) :
    (d.gets p).Fetches := by
  have hflags : ((d.gets p).uartAvailable.2.uartRead.2.read Reg.irqFlags).1
      = d.link.irqFlags ||| rxDone := by
    show (d.gets p).flagsRead.link.radio.regs Reg.irqFlags = _
    rw [(gets_flagsRead h hcalm).2]
    simp only [World.receive, Function.update_self, World.packetFlags, hcrc]
    rfl
  refine ⟨?_, rfl, h.mode, ?_⟩
  · have hgets : (d.gets p).link.Calm 2 := by
      rw [gets_link h]
      exact hcalm
    have hone : (d.gets p).link.pending = d.link.pending + 1 := by rw [gets_link h]
    have hpending := hgets.tick.2.2
    show decide (0 < (d.gets p).link.tick.pending) = true
    rw [decide_eq_true_iff]
    omega
  · rw [hflags, goodPacket_iff, World.and_or_distrib, World.and_or_distrib, h.irqFlags]
    refine ⟨by decide, fun h0 => ?_⟩
    exact absurd (UInt8.or_eq_zero_iff.mp h0).2 (by decide)

/-- **What `available` makes of a packet**: the message is in the buffer, with
its headers, and `available` returns true. -/
theorem available_gets {a : UInt8} (h : d.Listening) (hcrc : p.crcError = false)
    (hlong : headerLen ≤ p.octets.length) (hto : p.octets.head? = some a)
    (hacc : accepts { d.toMembers with rxHeaderTo := a }) (hcalm : d.link.Calm 6) :
    (d.gets p).available.1 = true ∧ (d.gets p).available.2.Buffered p.octets := by
  have hfetches := gets_fetches h hcrc (hcalm.mono (by decide))
  obtain ⟨hcalm', hradio⟩ := gets_flagsRead (p := p) h hcalm
  obtain ⟨hlen, hbuf⟩ := fetchPacket_calm hcalm' hradio
  have hhead : (d.gets p).flagsRead.fetchPacket.buf 0 = a := by
    have htake := congrArg List.head? (take_headers hlong hbuf)
    rw [List.head?_take, if_neg (by decide), hto] at htake
    exact Option.some.inj htake
  have hbuffered : (d.gets p).flagsRead.fetchPacket.validateRxBuf.Buffered p.octets := by
    refine validateRxBuf_buffered hlong hlen hbuf ?_
    obtain ⟨haddr, hprom, -⟩ := fetchPacket_filter (d.gets p).flagsRead
    rcases hacc with hacc | hacc | hacc
    · exact .inl (hprom.trans hacc)
    · exact .inr (.inl (hhead.trans (Eq.trans hacc haddr.symm)))
    · exact .inr (.inr (hhead.trans hacc))
  refine ⟨?_, hbuffered.of_received (available_received hfetches)⟩
  rw [available_fetches hfetches]
  exact hbuffered.valid

/-! ### Collecting the message -/

theorem write_calm {n : ℕ} (h : d.link.Calm (n + 1)) (reg val : UInt8) :
    (d.write reg val).link.Calm n := h.tick.1

theorem read_calm {n : ℕ} (h : d.link.Calm (n + 1)) (reg : UInt8) :
    (d.read reg).2.link.Calm n := h.tick.1

theorem burstRead_calm {n : ℕ} (h : d.link.Calm (n + 1)) (reg len : UInt8) :
    (d.burstRead reg len).link.Calm n := h.tick.1

theorem setModeIdle_calm {n : ℕ} (h : d.link.Calm (n + 1)) : d.setModeIdle.link.Calm n := by
  rw [setModeIdle]
  split_ifs
  · exact write_calm h Reg.opMode modeStdby
  · exact h.mono (Nat.le_succ n)

theorem handlePacket_calm {n : ℕ} (h : d.link.Calm (n + 7)) : d.handlePacket.link.Calm n := by
  -- six register transactions, and the one of `setModeIdle`
  have hfetch : d.fetchPacket.validateRxBuf.link.Calm (n + 1) := by
    rw [validateRxBuf_link]
    exact read_calm (write_calm (burstRead_calm (write_calm (read_calm (read_calm h _) _) _ _) _ _)
      _ _) Reg.pktRssiValue
  rw [handlePacket]
  split_ifs
  · exact setModeIdle_calm hfetch
  · exact hfetch.mono (Nat.le_succ n)

theorem write_irqFlags {n : ℕ} (h : d.link.Calm (n + 1)) {reg val : UInt8}
    (hreg : reg ∉ [Reg.fifo, Reg.irqFlags]) :
    (d.write reg val).link.irqFlags = d.link.irqFlags := by
  simp only [List.mem_cons, List.not_mem_nil, or_false, not_or] at hreg
  obtain ⟨hfifo, hirq⟩ := hreg
  simp only [write, HostLink.write, Radio.writeReg, if_neg hfifo, if_neg hirq, World.irqFlags,
    Function.update_of_ne (Ne.symm hirq), h.tick.2.1]

theorem setModeRx_calm {n : ℕ} (h : d.link.Calm (n + 2)) :
    d.setModeRx.link.Calm n ∧ d.setModeRx.link.irqFlags = d.link.irqFlags := by
  rw [setModeRx]
  split_ifs
  · have h₁ := write_calm h Reg.opMode modeRxContinuous
    refine ⟨write_calm h₁ Reg.dioMapping1 0x00, ?_⟩
    exact (write_irqFlags h₁ (by decide)).trans (write_irqFlags h (by decide))
  · exact ⟨h.mono (by omega), rfl⟩

/-- With no flag raised, nothing is fetched. -/
theorem not_fetches_clear (hflags : d.link.irqFlags = 0) (hcalm : d.link.Calm 2) :
    ¬ d.Fetches := by
  rintro ⟨-, -, -, hgood⟩
  obtain ⟨hcalm₁, hradio₁, -⟩ := hcalm.tick
  have hread : d.uartAvailable.2.uartRead.2.link.Calm 1 := hcalm₁
  have hval : (d.uartAvailable.2.uartRead.2.read Reg.irqFlags).1 = 0 := by
    show d.uartAvailable.2.uartRead.2.link.tick.radio.regs Reg.irqFlags = 0
    rw [hread.tick.2.1]
    show d.link.tick.radio.regs Reg.irqFlags = 0
    rw [hradio₁]
    exact hflags
  rw [hval] at hgood
  exact absurd hgood (by decide)

/-- `recv` after `available`: the message is still there. -/
theorem recv_gets {a : UInt8} (h : d.Listening) (hcrc : p.crcError = false)
    (hlong : headerLen ≤ p.octets.length) (hto : p.octets.head? = some a)
    (hacc : accepts { d.toMembers with rxHeaderTo := a }) (hcalm : d.link.Calm 14) :
    (d.gets p).available.2.available.1 = true ∧
      (d.gets p).available.2.available.2.Buffered p.octets := by
  obtain ⟨-, hbuffered⟩ := available_gets h hcrc hlong hto hacc (hcalm.mono (by decide))
  have hfetches := gets_fetches h hcrc (hcalm.mono (by decide))
  have hav : (d.gets p).available.2
      = ((d.gets p).flagsRead.handlePacket.write Reg.irqFlags 0xff).setModeRx := by
    rw [available_fetches hfetches]
  have hclear := write_calm (handlePacket_calm (gets_flagsRead (p := p) h hcalm).1)
    Reg.irqFlags 0xff
  obtain ⟨hcalm', hflags⟩ := setModeRx_calm hclear
  rw [clear_irqFlags] at hflags
  have hstill : ¬ (d.gets p).available.2.Fetches := hav ▸ not_fetches_clear hflags hcalm'
  have hbuffered' := hbuffered.of_received (available_still hstill)
  have htx : (d.gets p).available.2.available.2.mode ≠ .tx := by
    intro htx
    have hmode := available_tx htx
    rw [hav, setModeRx_members] at hmode
    cases hmode
  exact ⟨(available_fst htx).trans hbuffered'.valid, hbuffered'⟩

end Receive

/-! ### The round trip -/

/-- `setHeaderTo`, `setHeaderFrom`, `setHeaderId` and `setHeaderFlags`, one
after the other. -/
def setHeaders (d : RF95 World) (dest source id flags : UInt8) : RF95 World :=
  { d with
    txHeaderTo := dest
    txHeaderFrom := source
    txHeaderId := id
    txHeaderFlags := flags }

/-- `recv` into a buffer of the given capacity returns the payload, up to that
capacity, and the four headers. -/
def Delivers (d : RF95 World) (capacity : UInt8) (headers data : List UInt8) : Prop :=
  (d.recv (some capacity)).1 = some (data.take capacity.toNat) ∧
    [(d.recv (some capacity)).2.rxHeaderTo, (d.recv (some capacity)).2.rxHeaderFrom,
      (d.recv (some capacity)).2.rxHeaderId, (d.recv (some capacity)).2.rxHeaderFlags] = headers

/-- A message in the buffer is delivered. -/
theorem Buffered.delivers {d : RF95 World} {headers data : List UInt8} (capacity : UInt8)
    (hheaders : headers.length = headerLen) (hany : d.available.1 = true)
    (h : d.available.2.Buffered (headers ++ data)) : d.Delivers capacity headers data := by
  have hrecv := h.recv hany (some capacity)
  rw [Option.elim_some, List.drop_left' hheaders, List.take_left' hheaders] at hrecv
  exact hrecv

theorem run_awake {d s : RF95 World} {cs : List (Call World)} (h : d.Awake)
    (hcs : ∀ c ∈ cs, ∀ link, c ≠ .elapse link) (hs : run step d cs = some s) : s.Awake := by
  induction cs generalizing d with
  | nil => exact Option.some.inj hs ▸ h
  | cons c cs ih =>
    obtain ⟨d₁, hd₁, hs⟩ := run_cons.mp hs
    exact ih (step_awake h (hcs c List.mem_cons_self) hd₁)
      (fun c' hc' => hcs c' (List.mem_cons_of_mem c hc')) hs

/-- **What is sent is what is received.**  A driver that has come through any
calls sends a message, which it does at once unless it is sending already: its
FIFO then holds the four headers and the payload from address 0 on, and the
payload length register their number.  When a receiver whose filter accepts
the message gets these octets as a packet, anywhere in its FIFO, `recv` returns
the payload, up to the capacity of the buffer, and the four headers; and so it
does after `available`, which returns true. -/
theorem send_recv (d : RF95 World) (hinit : d.init.1 = true) (cs : List (Call World))
    (hcs : ∀ c ∈ cs, ∀ link, c ≠ .elapse link) (s : RF95 World)
    (hs : run step d.init.2 cs = some s) (dest source id flags : UInt8) (data : List UInt8)
    (hlen : data.length ≤ maxMessageLen) :
    (s.mode ≠ .tx → ∀ rounds, ∃ s',
      (s.setHeaders dest source id flags).send rounds data = some (true, s')) ∧
    ∀ rounds sent s', (s.setHeaders dest source id flags).send rounds data = some (sent, s') →
      sent = true ∧
      s'.link.radio.octets 0 (data.length + headerLen) = [dest, source, id, flags] ++ data ∧
      (s'.link.radio.regs Reg.payloadLength).toNat = data.length + headerLen ∧
      ∀ (r : RF95 World) (p : Packet) (capacity : UInt8), r.Listening →
        p.octets = s'.link.radio.octets 0 (s'.link.radio.regs Reg.payloadLength).toNat →
        p.crcError = false → accepts { r.toMembers with rxHeaderTo := dest } → r.link.Calm 14 →
        (r.gets p).Delivers capacity [dest, source, id, flags] data ∧
          (r.gets p).available.1 = true ∧
          (r.gets p).available.2.Delivers capacity [dest, source, id, flags] data := by
  have hshort : ¬ maxMessageLen < data.length := Nat.not_lt.mpr hlen
  have hs' : s.Awake := run_awake (init_awake hinit) hcs hs
  have hawake : (s.setHeaders dest source id flags).Awake := fun hidle => hs' hidle
  constructor
  · intro htx rounds
    have hwait : (s.setHeaders dest source id flags).waitPacketSent rounds
        = some (s.setHeaders dest source id flags) := by
      cases rounds with
      | zero => exact if_neg htx
      | succ n => exact if_neg htx
    exact ⟨_, by rw [send, if_neg hshort, hwait, Option.map_some]⟩
  · intro rounds sent s' hsend
    rw [send, if_neg hshort] at hsend
    obtain ⟨d₁, hd₁, hres⟩ := Option.map_eq_some_iff.mp hsend
    obtain ⟨rfl, rfl⟩ := Prod.mk.inj hres
    -- the wait leaves the headers alone
    have hheaders : [d₁.txHeaderTo, d₁.txHeaderFrom, d₁.txHeaderId, d₁.txHeaderFlags]
        = [dest, source, id, flags] := by
      have hstill := waitPacketSent_still hd₁
      rw [received_congr Members.txHeaderTo hstill fun _ => rfl,
        received_congr Members.txHeaderFrom hstill fun _ => rfl,
        received_congr Members.txHeaderId hstill fun _ => rfl,
        received_congr Members.txHeaderFlags hstill fun _ => rfl]
      rfl
    obtain ⟨hoctets, hcount⟩ := transmit_loads (waitPacketSent_awake hawake hd₁) hlen
    rw [hheaders] at hoctets
    refine ⟨rfl, hoctets, hcount, ?_⟩
    intro r p capacity hlisten hp hcrc hacc hcalm
    rw [hcount, hoctets] at hp
    have hlong : headerLen ≤ p.octets.length := by
      rw [hp, List.length_append]
      exact Nat.le_add_right _ _
    have hto : p.octets.head? = some dest := by rw [hp]; rfl
    obtain ⟨hany, hbuffered⟩ := available_gets hlisten hcrc hlong hto hacc
      (hcalm.mono (by decide))
    obtain ⟨hany', hbuffered'⟩ := recv_gets hlisten hcrc hlong hto hacc hcalm
    rw [hp] at hbuffered hbuffered'
    exact ⟨hbuffered.delivers capacity rfl hany, hany, hbuffered'.delivers capacity rfl hany'⟩

/-- A driver over a radio just reset. -/
def sender : RF95 World where
  toMembers := Members.constructed
  link := World.powerUp []

/-- A receiver with the address 9. -/
def receiver : RF95 World :=
  { sender.init.2.available.2 with thisAddress := 9 }

/-- A message of two octets for node 9, which wraps around in the FIFO. -/
def hello : Packet := ⟨[9, 1, 7, 0, 0x68, 0x69], false, 253, by decide⟩

theorem hello_received :
    ∃ s', (sender.init.2.setHeaders 9 1 7 0).send 0 [0x68, 0x69] = some (true, s') ∧
      s'.link.radio.octets 0 6 = hello.octets ∧
      (receiver.gets hello).Delivers 1 [9, 1, 7, 0] [0x68, 0x69] := by
  obtain ⟨hreturns, hsend⟩ := send_recv sender (by decide) [] (by simp) sender.init.2 rfl 9 1 7 0
    [0x68, 0x69] (by decide)
  obtain ⟨s', hs'⟩ := hreturns (by decide) 0
  obtain ⟨-, hoctets, hcount, hrecv⟩ := hsend 0 true s' hs'
  refine ⟨s', hs', hoctets, ?_⟩
  exact (hrecv receiver hello 1 ⟨by decide, by decide, by decide⟩
    (by rw [hcount]; exact hoctets.symm) rfl (by decide) (fun _ hb => by cases hb)).1

end RF95
