/-
Which message `recv` returns.

`available` turns the receiver back on while a message waits to be collected,
and the next packet is fetched over that message: its octets and headers
replace the ones waiting, and the flag stays set even if the packet is for
another node.  As long as no call does that, and the radio leaves the packet
alone while it is fetched, `recv` returns one packet that was received without
error and is addressed to this node, and it is the packet for which
`available` returned true.  While the driver is still sending `recv` returns
false, and the packet is returned by a later one.

* `MessageFor` — a packet reported without error, with this node's address;
* `Held` — the driver's buffer holds the message of a report;
* `Quiet` — a call fetches nothing over a waiting message, and what it fetches
  stays in place meanwhile;
* `CollectsNothing` — a call that is no `recv`, or a `recv` that returns false;
* `recv_returns_message` — the two halves, over every run of quiet calls;
* `foreign_packet_returned` — a run in which `recv` returns a packet addressed
  to another node.
-/
import RadioHead.Radio

open Run Wire

/-- A message for the node `a`: RX_DONE without CRC error or timeout, four
headers, and the address of the node or the broadcast address. -/
structure Report.MessageFor (r : Report) (a : UInt8) : Prop where
  good : RF95.goodPacket r.irqFlags = true
  headers : headerLen ≤ r.packet.octets.length
  address : r.packet.octets.head? = some a ∨ r.packet.octets.head? = some broadcastAddress

namespace RF95

/-- `recv` returns the message of a report: its payload, up to `*len`, and its
four headers. -/
def Returns (d : RF95 World) (dest : Option UInt8) (r : Report) : Prop :=
  (d.recv dest).1
      = some (dest.elim [] fun len => (r.packet.octets.drop headerLen).take len.toNat) ∧
    [(d.recv dest).2.rxHeaderTo, (d.recv dest).2.rxHeaderFrom, (d.recv dest).2.rxHeaderId,
      (d.recv dest).2.rxHeaderFlags] = r.packet.octets.take headerLen

/-- The driver holds the message of a report. -/
structure Held (d : RF95 World) (r : Report) : Prop where
  reported : r ∈ d.link.reports
  message : r.MessageFor d.thisAddress
  valid : d.rxBufValid = true
  bufLen : d.bufLen.toNat = r.packet.octets.length
  buf : d.buf.load 0 r.packet.octets.length = r.packet.octets
  rxHeaders : [d.rxHeaderTo, d.rxHeaderFrom, d.rxHeaderId, d.rxHeaderFlags]
    = r.packet.octets.take headerLen

/-- The message `m` is in the driver's buffer, and its headers are
extracted. -/
structure Buffered {σ : Type} (d : RF95 σ) (m : List UInt8) : Prop where
  headers : headerLen ≤ m.length
  valid : d.rxBufValid = true
  bufLen : d.bufLen.toNat = m.length
  buf : d.buf.load 0 m.length = m
  rxHeaders : [d.rxHeaderTo, d.rxHeaderFrom, d.rxHeaderId, d.rxHeaderFlags] = m.take headerLen

/-! ### Quiet calls -/

/-- The radio when the driver, having read the IRQ flags, reads the FIFO. -/
def fifoRead (d : RF95 World) : World :=
  (((d.read Reg.rxNbBytes).2.read Reg.fifoRxCurrentAddr).2.write Reg.fifoAddrPtr
    ((d.read Reg.rxNbBytes).2.read Reg.fifoRxCurrentAddr).1).link.tick

/-- The radio leaves a packet alone while it is fetched, the IRQ flags having
been read: a packet that arrives before the length is read is without error,
none arrives between the reading of the length and that of the position, and
none takes the place of the octets before these are read. -/
structure Undisturbed (d : RF95 World) : Prop where
  length : d.link.tick.reports.length = d.link.reports.length ∨
    ∀ r ∈ d.link.tick.reports.getLast?, goodPacket r.irqFlags = true
  addr : d.link.tick.tick.reports.length = d.link.tick.reports.length
  octets : d.fifoRead.radio.octets ((d.read Reg.rxNbBytes).2.read Reg.fifoRxCurrentAddr).1
      (d.read Reg.rxNbBytes).1.toNat
    = d.link.tick.tick.radio.octets ((d.read Reg.rxNbBytes).2.read Reg.fifoRxCurrentAddr).1
      (d.read Reg.rxNbBytes).1.toNat

instance (d : RF95 World) : Decidable d.Undisturbed :=
  decidable_of_iff (_ ∧ _ ∧ _) ⟨fun ⟨h₁, h₂, h₃⟩ => ⟨h₁, h₂, h₃⟩, fun h => ⟨h.1, h.2, h.3⟩⟩

/-- The calls after a successful `init`, other than `sleep`: `available` and
`recv` fetch nothing over a message that waits. -/
def Quiet (d : RF95 World) : Call World → Prop
  | .available | .recv _ => d.Fetches → d.rxBufValid = false ∧ d.flagsRead.Undisturbed
  | .send _ _ | .waitPacketSent _ => True
  | .sleep | .elapse _ => False

instance (d : RF95 World) : ∀ c, Decidable (d.Quiet c)
  | .available | .recv _ => inferInstanceAs (Decidable (_ → _ ∧ _))
  | .send _ _ | .waitPacketSent _ => .isTrue trivial
  | .sleep | .elapse _ => .isFalse id

/-- A call that is no `recv`, or a `recv` that returns false. -/
def CollectsNothing (d : RF95 World) : Call World → Prop
  | .recv dest => (d.recv dest).1 = none
  | _ => True

instance (d : RF95 World) : ∀ c, Decidable (d.CollectsNothing c)
  | .recv dest => inferInstanceAs (Decidable ((d.recv dest).1 = none))
  | .available | .send _ _ | .waitPacketSent _ | .sleep | .elapse _ => .isTrue trivial

/-! ### Reports -/

section Reports

variable {d : RF95 World} {r : Report}

theorem reports_mono {w : World} (h : r ∈ w.reports) : r ∈ w.tick.reports :=
  (World.reports_tick w).subset h

/-- Whatever the driver does, a report stays. -/
theorem reports_stable (r : Report) : Stable fun d : RF95 World => r ∈ d.link.reports where
  uartAvailable h := reports_mono h
  uartRead h := h
  read _ h := reports_mono h
  write _ _ _ _ h := reports_mono h
  burstRead _ h := reports_mono h
  burstWrite _ h := reports_mono h
  members _ _ h := h
  setModeIdle := by
    intro d h
    rw [setModeIdle]
    split_ifs
    · exact reports_mono h
    · exact h
  sleep := by
    intro d h
    rw [sleep]
    split_ifs
    · exact reports_mono h
    · exact h
  setModeRx := by
    intro d h
    rw [setModeRx]
    split_ifs
    · exact reports_mono (w := (d.write Reg.opMode modeRxContinuous).link) (reports_mono h)
    · exact h
  setModeTx := by
    intro d h
    rw [setModeTx]
    split_ifs
    · exact reports_mono (w := (d.write Reg.opMode modeTx).link) (reports_mono h)
    · exact h

theorem fetchPacket_reports (h : r ∈ d.link.tick.tick.reports) :
    r ∈ d.fetchPacket.link.reports :=
  -- the pointer, the octets, the flags, the RSSI
  reports_mono (reports_mono (reports_mono (reports_mono h)))

/-- What is reported by the time a packet is fetched stays reported. -/
theorem handled_reports (h : r ∈ d.fetchPacket.link.reports) :
    r ∈ (d.handlePacket.write Reg.irqFlags 0xff).setModeRx.link.reports := by
  have hbuf : r ∈ d.fetchPacket.validateRxBuf.link.reports := validateRxBuf_link d.fetchPacket ▸ h
  refine (reports_stable r).setModeRx (reports_mono ?_)
  rw [handlePacket]
  split_ifs
  · exact (reports_stable r).setModeIdle hbuf
  · exact hbuf

end Reports

/-! ### The packet in the radio -/

/-- Unless the driver is sending, and uses the FIFO for that, the radio holds
the packet it reports. -/
def Ready (d : RF95 World) : Prop := d.mode ≠ .tx → d.link.Tracks

/-- The registers that describe the packet received. -/
def packetRegs : List UInt8 := [Reg.fifo, Reg.irqFlags, Reg.rxNbBytes, Reg.fifoRxCurrentAddr]

section Ready

variable {d : RF95 World}

theorem write_tracks {reg val : UInt8} (h : d.link.Tracks) (hreg : reg ∉ packetRegs) :
    (d.write reg val).link.Tracks := by
  simp only [packetRegs, List.mem_cons, List.not_mem_nil, or_false, not_or] at hreg
  obtain ⟨hfifo, hirq, hlen, haddr⟩ := hreg
  have hradio : (d.write reg val).link.radio
      = { d.link.tick.radio with regs := Function.update d.link.tick.radio.regs reg val } := by
    rw [write]
    simp only [HostLink.write, Radio.writeReg, if_neg hfifo, if_neg hirq]
  refine h.tick.raise 0 ?_ (by decide) rfl ?_ ?_
  · rw [World.irqFlags, hradio, UInt8.or_zero]
    exact Function.update_of_ne (Ne.symm hirq) _ _
  · rintro reg' hreg'
    rw [hradio]
    refine Function.update_of_ne ?_ _ _
    rcases hreg' with rfl | rfl
    · exact Ne.symm hlen
    · exact Ne.symm haddr
  · rw [hradio]

/-- Clearing all IRQ flags. -/
theorem clear_irqFlags (d : RF95 World) : (d.write Reg.irqFlags 0xff).link.irqFlags = 0 :=
  World.clear_irqFlags d.link

theorem clear_tracks (d : RF95 World) : (d.write Reg.irqFlags 0xff).link.Tracks := by
  intro hdone
  rw [clear_irqFlags] at hdone
  exact absurd UInt8.zero_and hdone

theorem setModeIdle_tracks (h : d.link.Tracks) : d.setModeIdle.link.Tracks := by
  rw [setModeIdle]
  split_ifs
  · exact write_tracks h (by decide)
  · exact h

theorem setModeRx_tracks (h : d.link.Tracks) : d.setModeRx.link.Tracks := by
  rw [setModeRx]
  split_ifs
  · exact write_tracks (d := d.write Reg.opMode modeRxContinuous)
      (write_tracks h (by decide)) (by decide)
  · exact h

theorem uartRead_tracks (h : d.link.Tracks) : d.uartAvailable.2.uartRead.2.link.Tracks :=
  h.tick.congr rfl rfl

/-- The handler ends by clearing the flags. -/
theorem handleInterrupt_tracks (d : RF95 World) : d.handleInterrupt.link.Tracks := clear_tracks _

theorem poll_ready (h : d.Ready) : d.poll.Ready := by
  rcases poll_cases d with ⟨-, -, hd⟩ | ⟨-, hd | hd⟩
  · rw [hd]
    exact fun _ => handleInterrupt_tracks _
  · rw [hd]
    exact fun hm => (h hm).tick
  · rw [hd]
    exact fun hm => uartRead_tracks (h hm)

theorem available_ready (h : d.Ready) : d.available.2.Ready := by
  rw [available_eq]
  split_ifs with htx
  · exact poll_ready h
  · exact fun _ => setModeRx_tracks (poll_ready h htx)

theorem waitPacketSent_ready {n : ℕ} : ∀ {d d' : RF95 World}, d.waitPacketSent n = some d' →
    d.Ready → d'.Ready := by
  induction n with
  | zero =>
    intro d d' hd h
    rw [waitPacketSent] at hd
    split_ifs at hd
    exact Option.some.inj hd ▸ h
  | succ n ih =>
    intro d d' hd h
    rw [waitPacketSent] at hd
    split_ifs at hd
    · exact ih hd (available_ready h)
    · exact Option.some.inj hd ▸ h

theorem send_ready {rounds : ℕ} {data : List UInt8} {res : Bool × RF95 World}
    (hd : d.send rounds data = some res) (h : d.Ready) : res.2.Ready := by
  rw [send] at hd
  split_ifs at hd
  · exact Option.some.inj hd ▸ h
  · obtain ⟨d₁, hd₁, rfl⟩ := Option.map_eq_some_iff.mp hd
    refine fun htx => absurd ?_ htx
    rw [transmit_members]

/-- `init` writes none of the registers that describe the packet. -/
theorem init_ready (hinit : d.init.1 = true) (h : d.link.Tracks) : d.init.2.Ready := by
  intro _
  have hconfig : ∀ reg ∈ configRegs, reg ∉ packetRegs := by decide +kernel
  refine init_induct (P := fun d => d.link.Tracks) hinit ?_ (fun d hd => setModeIdle_tracks hd)
    (fun d reg val hreg hd => write_tracks hd (hconfig reg hreg))
  exact (write_tracks h (by decide)).tick.congr rfl rfl

end Ready

/-! ### The packet in the buffer -/

section Held

variable {d d' : RF95 World} {r : Report}

theorem Buffered.of_received {m : List UInt8} (h : d.Buffered m) (hd : d'.received = d.received) :
    d'.Buffered m where
  headers := h.headers
  valid := (received_congr Members.rxBufValid hd fun _ => rfl).trans h.valid
  bufLen := received_congr Members.bufLen hd (fun _ => rfl) ▸ h.bufLen
  buf := received_congr Members.buf hd (fun _ => rfl) ▸ h.buf
  rxHeaders := by
    rw [received_congr Members.rxHeaderTo hd fun _ => rfl,
      received_congr Members.rxHeaderFrom hd fun _ => rfl,
      received_congr Members.rxHeaderId hd fun _ => rfl,
      received_congr Members.rxHeaderFlags hd fun _ => rfl]
    exact h.rxHeaders

theorem Held.buffered (h : d.Held r) : d.Buffered r.packet.octets :=
  ⟨h.message.headers, h.valid, h.bufLen, h.buf, h.rxHeaders⟩

theorem Held.of_received (h : d.Held r) (hd : d'.received = d.received)
    (hrep : r ∈ d'.link.reports) : d'.Held r := by
  obtain ⟨-, hvalid, hlen, hbuf, hheaders⟩ := h.buffered.of_received hd
  refine ⟨hrep, ?_, hvalid, hlen, hbuf, hheaders⟩
  rw [received_congr Members.thisAddress hd fun _ => rfl]
  exact h.message

/-- The length and the position of a packet read, and its octets still there
when the FIFO is read: these are the octets fetched. -/
theorem fetchPacket_load {p : Packet} (hlen : (d.read Reg.rxNbBytes).1.toNat = p.octets.length)
    (haddr : ((d.read Reg.rxNbBytes).2.read Reg.fifoRxCurrentAddr).1 = p.addr)
    (hoctets : d.fifoRead.radio.octets p.addr p.octets.length = p.octets) :
    d.fetchPacket.buf.load 0 p.octets.length = p.octets := by
  have hptr : d.fifoRead.radio.regs Reg.fifoAddrPtr = p.addr := by
    rw [fifoRead, haddr, World.tick_fifoAddrPtr]
    rfl
  have hburst : (d.fifoRead.radio.readBurst Reg.fifo (d.read Reg.rxNbBytes).1.toNat).1
      = p.octets := by
    rw [(Radio.readBurst_fifo _ _).1, hptr, hlen, hoctets]
  have hbuf : d.fetchPacket.buf = d.buf.write 0 p.octets := by
    rw [← hburst]
    rfl
  rw [hbuf, Mem.load_write_self]

/-- The octets fetched are those of one packet received without error. -/
theorem fetchPacket_report (htracks : d.link.Tracks)
    (hgood : goodPacket d.link.irqFlags = true) (hu : d.Undisturbed) :
    ∃ r ∈ d.fetchPacket.link.reports, goodPacket r.irqFlags = true ∧
      d.fetchPacket.bufLen.toNat = r.packet.octets.length ∧
      d.fetchPacket.buf.load 0 r.packet.octets.length = r.packet.octets := by
  have hdone := (goodPacket_iff.mp hgood).2
  have hdone₁ := World.tick_rxDone hdone
  obtain ⟨r, hr, -, -⟩ := htracks.tick hdone₁
  obtain ⟨r', hr', -, -⟩ := htracks.tick.tick (World.tick_rxDone hdone₁)
  -- the length and the position are those of one packet
  obtain rfl : r = r' := by
    have hrep := (World.reports_tick d.link.tick).eq_of_length hu.addr.symm
    exact Option.some.inj (hr.last.symm.trans (hrep ▸ hr'.last))
  have hrgood : goodPacket r.irqFlags = true := by
    rcases hu.length with hsame | hnew
    · -- it is the one whose flags were read
      obtain ⟨r₀, hr₀, hr₀done, hr₀flags⟩ := htracks hdone
      have hrep := (World.reports_tick d.link).eq_of_length hsame.symm
      obtain rfl : r₀ = r := Option.some.inj (hr₀.last.symm.trans (hrep ▸ hr.last))
      refine goodPacket_iff.mpr ⟨?_, hr₀done⟩
      rw [← hr₀flags, UInt8.and_assoc, (goodPacket_iff.mp hgood).1, UInt8.and_zero]
    · exact hnew r hr.last
  have hlen : (d.read Reg.rxNbBytes).1.toNat = r.packet.octets.length := by
    rw [show (d.read Reg.rxNbBytes).1 = d.link.tick.radio.regs Reg.rxNbBytes from rfl, hr.length,
      UInt8.toNat_ofNat']
    exact Nat.mod_eq_of_lt r.packet.length_lt
  have haddr : ((d.read Reg.rxNbBytes).2.read Reg.fifoRxCurrentAddr).1 = r.packet.addr := hr'.addr
  have hoctets : d.fifoRead.radio.octets r.packet.addr r.packet.octets.length
      = r.packet.octets := by
    have h := hu.octets
    rw [hlen, haddr] at h
    exact h.trans hr'.octets
  exact ⟨r, fetchPacket_reports (List.mem_of_getLast? hr'.last), hrgood, hlen,
    fetchPacket_load hlen haddr hoctets⟩

/-- The headers are the first octets of the buffer. -/
theorem take_headers {m : List UInt8} (hfour : headerLen ≤ m.length)
    (hbuf : d.buf.load 0 m.length = m) :
    [d.buf 0, d.buf 1, d.buf 2, d.buf 3] = m.take headerLen := by
  rw [← hbuf, Mem.take_load hfour]
  rfl

/-- A message in the buffer that the filter accepts. -/
theorem validateRxBuf_buffered {m : List UInt8} (hfour : headerLen ≤ m.length)
    (hlen : d.bufLen.toNat = m.length) (hbuf : d.buf.load 0 m.length = m)
    (hacc : accepts d.extractHeaders.toMembers) : d.validateRxBuf.Buffered m := by
  have hlong : ¬ d.bufLen < 4 := by
    rw [UInt8.lt_iff_toNat_lt, hlen]
    exact Nat.not_lt.mpr hfour
  rw [validateRxBuf, if_neg hlong, if_pos hacc]
  exact ⟨hfour, rfl, hlen, hbuf, take_headers hfour hbuf⟩

/-- A packet in the buffer, and found valid, is a message for this node. -/
theorem validateRxBuf_held (hrep : r ∈ d.link.reports) (hgood : goodPacket r.irqFlags = true)
    (hlen : d.bufLen.toNat = r.packet.octets.length)
    (hbuf : d.buf.load 0 r.packet.octets.length = r.packet.octets)
    (hprom : d.promiscuous = false) (hempty : d.rxBufValid = false)
    (hvalid : d.validateRxBuf.rxBufValid = true) : d.validateRxBuf.Held r := by
  rw [validateRxBuf] at hvalid ⊢
  by_cases hlong : d.bufLen < 4
  · rw [if_pos hlong] at hvalid
    exact absurd (hempty.symm.trans hvalid) (by simp)
  by_cases hacc : accepts d.extractHeaders.toMembers
  · rw [if_neg hlong, if_pos hacc]
    have hfour : headerLen ≤ r.packet.octets.length := hlen ▸ Nat.not_lt.mp hlong
    have hheaders := take_headers hfour hbuf
    have hhead : r.packet.octets.head? = some (d.buf 0) := by
      have h := congrArg List.head? hheaders
      rw [List.head?_take, if_neg (by decide)] at h
      exact h.symm
    refine ⟨hrep, ⟨hgood, hfour, ?_⟩, rfl, hlen, hbuf, hheaders⟩
    rw [hhead]
    rcases hacc with hprom' | hto | hto
    · exact absurd (hprom.symm.trans hprom') (by simp)
    · exact .inl (congrArg some hto)
    · exact .inr (congrArg some hto)
  · rw [if_neg hlong, if_neg hacc] at hvalid
    exact absurd (hempty.symm.trans hvalid) (by simp)

/-- A packet fetched into the empty buffer, and found valid, is a message for
this node. -/
theorem available_fetches_held (hd : d.Fetches) (hready : d.Ready) (hprom : d.promiscuous = false)
    (hempty : d.rxBufValid = false) (hu : d.flagsRead.Undisturbed)
    (hvalid : d.available.2.rxBufValid = true) : ∃ r, d.available.2.Held r := by
  have hrecv := available_received hd
  obtain ⟨r, hrep, hgood, hlen, hbuf⟩ := fetchPacket_report (d := d.flagsRead)
    ((uartRead_tracks (hready (by rw [hd.2.2.1]; simp))).tick.congr rfl rfl) hd.2.2.2 hu
  rw [received_congr Members.rxBufValid hrecv fun _ => rfl] at hvalid
  have hheld := validateRxBuf_held hrep hgood hlen hbuf
    ((fetchPacket_filter d.flagsRead).2.1.trans hprom)
    ((fetchPacket_filter d.flagsRead).2.2.trans hempty) hvalid
  refine ⟨r, hheld.of_received hrecv ?_⟩
  rw [available_fetches hd]
  exact handled_reports hrep

/-- What holds between two calls of a quiet run: the driver has its address,
and a message that waits is the message of a report. -/
structure Sound (a : UInt8) (d : RF95 World) : Prop where
  ready : d.Ready
  address : d.thisAddress = a
  promiscuous : d.promiscuous = false
  held : d.rxBufValid = true → ∃ r, d.Held r

/-- A call that leaves the message received alone. -/
theorem Sound.of_received {a : UInt8} (h : d.Sound a) (hd : d'.received = d.received)
    (hready : d'.Ready) (hrep : ∀ r ∈ d.link.reports, r ∈ d'.link.reports) : d'.Sound a where
  ready := hready
  address := (received_congr Members.thisAddress hd fun _ => rfl).trans h.address
  promiscuous := (received_congr Members.promiscuous hd fun _ => rfl).trans h.promiscuous
  held := by
    intro hvalid
    obtain ⟨r, hr⟩ := h.held ((received_congr Members.rxBufValid hd fun _ => rfl) ▸ hvalid)
    exact ⟨r, hr.of_received hd (hrep r hr.reported)⟩

theorem available_sound {a : UInt8} (h : d.Sound a) (hq : d.Quiet .available) :
    d.available.2.Sound a := by
  by_cases hf : d.Fetches
  · obtain ⟨hempty, hu⟩ := hq hf
    have hrecv := available_received hf
    obtain ⟨haddr, hprom⟩ := validateRxBuf_filter d.flagsRead.fetchPacket
    obtain ⟨haddr', hprom', -⟩ := fetchPacket_filter d.flagsRead
    refine ⟨available_ready h.ready, ?_, ?_, fun hvalid =>
      available_fetches_held hf h.ready h.promiscuous hempty hu hvalid⟩
    · rw [received_congr Members.thisAddress hrecv fun _ => rfl, haddr, haddr']
      exact h.address
    · rw [received_congr Members.promiscuous hrecv fun _ => rfl, hprom, hprom']
      exact h.promiscuous
  · exact h.of_received (available_still hf) (available_ready h.ready)
      fun r hr => (reports_stable r).available hr

/-- `recv` leaves the buffer empty, or did not find a message. -/
theorem recv_sound {a : UInt8} (h : d.Sound a) (dest : Option UInt8)
    (hq : d.Quiet (.recv dest)) : (d.recv dest).2.Sound a := by
  have hav := available_sound h hq
  rw [recv_eq]
  split_ifs
  · exact ⟨hav.ready, hav.address, hav.promiscuous, fun hvalid => by cases hvalid⟩
  · exact hav

theorem step_sound {a : UInt8} {c : Call World} (h : d.Sound a) (hq : d.Quiet c)
    (hd : d.step c = some d') : d'.Sound a := by
  cases c with
  | available => exact Option.some.inj hd ▸ available_sound h hq
  | recv dest => exact Option.some.inj hd ▸ recv_sound h dest hq
  | send rounds data =>
    obtain ⟨res, hres, rfl⟩ := Option.map_eq_some_iff.mp hd
    exact h.of_received (send_still hres) (send_ready hres h.ready)
      fun r hr => (reports_stable r).send hres hr
  | waitPacketSent rounds =>
    exact h.of_received (waitPacketSent_still hd) (waitPacketSent_ready hd h.ready)
      fun r hr => (reports_stable r).waitPacketSent hd hr
  | sleep => exact hq.elim
  | elapse link => exact hq.elim

/-! ### Collecting a message -/

/-- `recv` returns the message that `available` leaves in the buffer. -/
theorem Buffered.recv {m : List UInt8} (h : d.available.2.Buffered m)
    (hany : d.available.1 = true) (dest : Option UInt8) :
    (d.recv dest).1 = some (dest.elim [] fun len => (m.drop headerLen).take len.toNat) ∧
      [(d.recv dest).2.rxHeaderTo, (d.recv dest).2.rxHeaderFrom, (d.recv dest).2.rxHeaderId,
        (d.recv dest).2.rxHeaderFlags] = m.take headerLen := by
  rw [recv_eq, if_pos hany]
  refine ⟨congrArg some ?_, h.rxHeaders⟩
  cases dest with
  | none => rfl
  | some len =>
    have hlong : 4 ≤ d.available.2.bufLen.toNat := h.bufLen ▸ h.headers
    rw [Option.elim_some, Option.elim_some, clampLen_toNat hlong, h.bufLen]
    nth_rewrite 2 [← h.buf]
    rw [Mem.drop_load, Nat.zero_add, List.take_eq_take_min, Mem.length_load,
      Mem.take_load (Nat.min_le_right _ _)]

/-- `recv` returns the message that `available` finds. -/
theorem recv_returns {dest : Option UInt8} (h : d.available.2.Held r)
    (hany : d.available.1 = true) : d.Returns dest r := h.buffered.recv hany dest

/-- A quiet `available` leaves a message that waits in place. -/
theorem Held.available (h : d.Held r) (hq : d.Quiet .available) : d.available.2.Held r := by
  have hf : ¬ d.Fetches := fun hf => absurd (h.valid.symm.trans (hq hf).1) (by simp)
  exact h.of_received (available_still hf) ((reports_stable r).available h.reported)

/-- While a message waits, quiet calls that do not collect it leave it in
place. -/
theorem step_held {c : Call World} (h : d.Held r) (hq : d.Quiet c) (hc : d.CollectsNothing c)
    (hd : d.step c = some d') : d'.Held r := by
  cases c with
  | available => exact Option.some.inj hd ▸ h.available hq
  | recv dest =>
    have hnone : d.available.1 ≠ true := by
      intro hany
      rw [CollectsNothing, recv_eq, if_pos hany] at hc
      cases hc
    rw [← Option.some.inj hd, recv_eq, if_neg hnone]
    exact h.available hq
  | send rounds data =>
    obtain ⟨res, hres, rfl⟩ := Option.map_eq_some_iff.mp hd
    exact h.of_received (send_still hres) ((reports_stable r).send hres h.reported)
  | waitPacketSent rounds =>
    exact h.of_received (waitPacketSent_still hd)
      ((reports_stable r).waitPacketSent hd h.reported)
  | sleep => exact hq.elim
  | elapse link => exact hq.elim

/-- A quiet `recv` over a waiting message returns it, unless the driver is
still sending. -/
theorem held_recv {dest : Option UInt8} (h : d.Held r) (hq : d.Quiet (.recv dest)) :
    (¬ d.StillSending → d.Returns dest r) ∧ (d.StillSending → (d.recv dest).1 = none) := by
  have hav : d.available.2.Held r := h.available hq
  constructor
  · intro hsending
    exact recv_returns hav
      ((available_fst fun htx => hsending (available_tx_iff.mp htx)).trans hav.valid)
  · intro hsending
    have hnone : d.available.1 ≠ true := by simp [available_sending (available_tx_iff.mpr hsending)]
    rw [recv_eq, if_neg hnone]

end Held

/-! ### Runs -/

/-- A quiet run that does not collect a waiting message leaves it in place. -/
theorem run_held {d d' : RF95 World} {r : Report} {cs : List (Call World)} (h : d.Held r)
    (hok : AllSteps step (fun d c => d.Quiet c ∧ d.CollectsNothing c) d cs)
    (hrun : run step d cs = some d') : d'.Held r :=
  run_induct (fun _ _ _ h hq hd => step_held h hq.1 hq.2 hd) h hok hrun

/-- **What `recv` returns is one message for this node, and the one for which
`available` returned true.**  The driver was constructed and initialised over
a radio without a packet, promiscuous mode is off, and every call is quiet.  The
first `recv` after `available` that finds the driver no longer sending returns
the message; those before it return false. -/
theorem recv_returns_message (d : RF95 World) (hinit : d.init.1 = true)
    (hempty : d.rxBufValid = false) (hprom : d.promiscuous = false)
    (hflags : d.link.irqFlags &&& rxDone = 0) (cs : List (Call World)) (d' : RF95 World)
    (hok : AllSteps step Quiet d.init.2 cs) (hrun : run step d.init.2 cs = some d') :
    (∀ dest, Quiet d' (.recv dest) → (d'.recv dest).1 ≠ none →
      ∃ r ∈ (d'.recv dest).2.link.reports, r.MessageFor d.thisAddress ∧ Returns d' dest r) ∧
    (Quiet d' .available → d'.available.1 = true →
      ∃ r ∈ d'.available.2.link.reports, r.MessageFor d.thisAddress ∧
        ∀ cs' d'' dest,
          AllSteps step (fun d c => d.Quiet c ∧ d.CollectsNothing c) d'.available.2 cs' →
          run step d'.available.2 cs' = some d'' → Quiet d'' (.recv dest) →
          (¬ d''.StillSending → Returns d'' dest r) ∧
            (d''.StillSending → (d''.recv dest).1 = none)) := by
  have hsound : d'.Sound d.thisAddress := by
    have hmembers := init_members hinit
    refine run_induct (fun _ _ _ h hq hd => step_sound h hq hd) ⟨?_, ?_, ?_, ?_⟩ hok hrun
    · exact init_ready hinit fun hdone => absurd hflags hdone
    · rw [hmembers]
    · rw [hmembers]
      exact hprom
    · rw [hmembers]
      exact fun hvalid => absurd (hempty.symm.trans hvalid) (by simp)
  have hheld : Quiet d' .available → d'.available.1 = true → ∃ r, d'.available.2.Held r :=
    fun hq hany => (available_sound hsound hq).held (available_valid hany)
  constructor
  · intro dest hq hsome
    have hany : d'.available.1 = true := by
      by_contra hany
      rw [recv_eq, if_neg hany] at hsome
      exact hsome rfl
    obtain ⟨r, hr⟩ := hheld hq hany
    refine ⟨r, ?_, ?_, recv_returns hr hany⟩
    · rw [recv_eq, if_pos hany]
      exact hr.reported
    · exact (available_sound hsound hq).address ▸ hr.message
  · intro hq hany
    obtain ⟨r, hr⟩ := hheld hq hany
    refine ⟨r, hr.reported, (available_sound hsound hq).address ▸ hr.message, ?_⟩
    intro cs' d'' dest hok' hrun' hq'
    exact held_recv (run_held hr hok' hrun') hq'

/-- A message for node 1, which `available` finds, and then a packet for
node 9. -/
def foreignDriver : RF95 World where
  toMembers := { Members.constructed with thisAddress := 1 }
  link := World.powerUp <| List.replicate 18 [] ++
    [[.packet ⟨[1, 2, 7, 0, 0x61], false, 0, by decide⟩, .notify]] ++
    List.replicate 11 [] ++ [[.packet ⟨[9, 3, 8, 0, 0x62, 0x63], false, 5, by decide⟩, .notify]]

/-- `available` returns true for a message from node 2, and then `recv`
returns the packet from node 3 for node 9. -/
theorem foreign_packet_returned :
    foreignDriver.init.1 = true ∧ foreignDriver.rxBufValid = false ∧
      foreignDriver.promiscuous = false ∧ foreignDriver.link.irqFlags &&& rxDone = 0 ∧
      (foreignDriver.init.2.available.2.available.1 = true) ∧
      (run step foreignDriver.init.2 [.available, .available]).map (fun d =>
        ((d.recv (some 10)).1, (d.recv (some 10)).2.rxHeaderTo, (d.recv (some 10)).2.rxHeaderFrom))
        = some (some [0x62, 0x63], 9, 3) := by
  decide +kernel

/-- A message for node 1, and later the end of a transmission. -/
def sendingDriver : RF95 World where
  toMembers := { Members.constructed with thisAddress := 1 }
  link := World.powerUp <| List.replicate 18 [] ++
    [[.packet ⟨[1, 2, 7, 0, 0x61], false, 0, by decide⟩, .notify]] ++
    List.replicate 22 [] ++ [[.txDone, .notify]]

/-- `available` returns true, a message is sent, and `recv` returns false; the next
`recv` returns the message. -/
theorem sendingDriver_returns :
    ∃ r ∈ sendingDriver.init.2.available.2.available.2.link.reports, r.MessageFor 1 ∧
      ∃ d, run step sendingDriver.init.2.available.2.available.2
          [.send 0 [0x62], .recv (some 10)] = some d ∧
        (d.recv (some 10)).1 = some [0x61] ∧ d.Returns (some 10) r := by
  obtain ⟨r, hr, hmsg, hnext⟩ := (recv_returns_message sendingDriver (by decide +kernel) rfl rfl
    (by decide +kernel) [.available] _ (by decide +kernel) rfl).2 (by decide +kernel)
    (by decide +kernel)
  refine ⟨r, hr, hmsg, _, rfl, by decide +kernel, ?_⟩
  exact (hnext [.send 0 [0x62], .recv (some 10)] _ (some 10) (by decide +kernel) rfl
    (by decide +kernel)).1 (by decide +kernel)

end RF95
